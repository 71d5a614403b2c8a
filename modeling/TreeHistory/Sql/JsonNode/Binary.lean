import TreeHistory.Sql.JsonNode

/-!
# The binary form of JSON documents

A document may also be held as a blob. Each node is a header and a payload: the low four bits
of the header's first byte give the node's kind, and its high four bits give the payload's size
when it is below 12, or else say whether the size follows in 1, 2, 4 or 8 bytes, most
significant first. The payload of a number or string is its text as written; that of an array
is its items one after another, and that of an object its keys and values in turn. A node is
written with the shortest header its size allows.
-/

namespace TreeHistory
namespace Sql

/-- The kind code of a string form. -/
def TextForm.code : TextForm → Nat
  | .plain => 7
  | .escaped => 8
  | .extended => 9
  | .raw => 10

namespace JsonNode

/-- The header of a node of a kind whose payload has a size. -/
def header (kind size : Nat) : List UInt8 :=
  if size ≤ 11 then [(kind + size * 16).toUInt8]
  else if size ≤ 0xFF then [(kind + 0xC0).toUInt8, size.toUInt8]
  else if size ≤ 0xFFFF then [(kind + 0xD0).toUInt8, (size / 256).toUInt8, (size % 256).toUInt8]
  else
    [(kind + 0xE0).toUInt8, (size / Nat.pow 2 24 % 256).toUInt8,
      (size / Nat.pow 2 16 % 256).toUInt8, (size / 256 % 256).toUInt8, (size % 256).toUInt8]

/-- A node of a kind with its payload. -/
def withHeader (kind : Nat) (payload : List UInt8) : List UInt8 :=
  header kind payload.length ++ payload

/-- The bytes of a text. -/
def textBytes (s : String) : List UInt8 := s.toUTF8.toList

mutual

/-- A document in the binary form. -/
def encode : JsonNode → List UInt8
  | .null => [0]
  | .bool true => [1]
  | .bool false => [2]
  | .int t => withHeader 3 (textBytes t)
  | .hex t => withHeader 4 (textBytes t)
  | .real t => withHeader 5 (textBytes t)
  | .bareReal t => withHeader 6 (textBytes t)
  | .str t => withHeader t.form.code (textBytes t.body)
  | .array items => withHeader 11 (encodeItems items)
  | .object members => withHeader 12 (encodeMembers members)

/-- The items of an array in the binary form, one after another. -/
def encodeItems : List JsonNode → List UInt8
  | [] => []
  | item :: rest => item.encode ++ encodeItems rest

/-- The members of an object in the binary form, each key before its value. -/
def encodeMembers : List (JsonText × JsonNode) → List UInt8
  | [] => []
  | (key, value) :: rest =>
    withHeader key.form.code (textBytes key.body) ++ value.encode ++ encodeMembers rest

end

/-- A number from bytes, most significant first. -/
def bigEndian (bytes : List UInt8) : Nat := bytes.foldl (fun n b => n * 256 + b.toNat) 0

/-- The kind of the node at the front of bytes, the size of its payload, and the bytes after its
header. -/
def readHeader : List UInt8 → Option (Nat × Nat × List UInt8)
  | [] => none
  | b :: rest =>
    let kind := b.toNat % 16
    let sizeCode := b.toNat / 16
    if sizeCode ≤ 11 then some (kind, sizeCode, rest)
    else
      let width := if sizeCode = 12 then 1 else if sizeCode = 13 then 2
        else if sizeCode = 14 then 4 else 8
      if rest.length < width then none else some (kind, bigEndian (rest.take width), rest.drop width)

/-- The text of a payload that is valid UTF-8. -/
def payloadText (bytes : List UInt8) : Option String := String.fromUTF8? ⟨bytes.toArray⟩

/-- The string form of a kind code. -/
def formOfCode : Nat → Option TextForm
  | 7 => some .plain
  | 8 => some .escaped
  | 9 => some .extended
  | 10 => some .raw
  | _ => none

mutual

/-- Reads the node at the front of bytes, giving it and the bytes after it. -/
def decodeFront : Nat → List UInt8 → Option (JsonNode × List UInt8)
  | 0, _ => none
  | fuel + 1, bytes => do
    let (kind, size, rest) ← readHeader bytes
    if rest.length < size then none
    let payload := rest.take size
    let after := rest.drop size
    let node ← match kind with
      | 0 => if size = 0 then some JsonNode.null else none
      | 1 => if size = 0 then some (JsonNode.bool true) else none
      | 2 => if size = 0 then some (JsonNode.bool false) else none
      | 3 => (payloadText payload).map JsonNode.int
      | 4 => (payloadText payload).map JsonNode.hex
      | 5 => (payloadText payload).map JsonNode.real
      | 6 => (payloadText payload).map JsonNode.bareReal
      | 11 => (decodeItems fuel payload).map JsonNode.array
      | 12 => (decodeMembers fuel payload).map JsonNode.object
      | k => do
        let form ← formOfCode k
        let text ← payloadText payload
        some (JsonNode.str ⟨text, form⟩)
    some (node, after)

/-- Reads the items of an array from its payload. -/
def decodeItems : Nat → List UInt8 → Option (List JsonNode)
  | 0, _ => none
  | fuel + 1, bytes =>
    if bytes.isEmpty then some []
    else do
      let (item, rest) ← decodeFront fuel bytes
      let items ← decodeItems fuel rest
      some (item :: items)

/-- Reads the members of an object from its payload; every key must be a string. -/
def decodeMembers : Nat → List UInt8 → Option (List (JsonText × JsonNode))
  | 0, _ => none
  | fuel + 1, bytes =>
    if bytes.isEmpty then some []
    else do
      let (key, rest) ← decodeFront fuel bytes
      let (value, rest) ← decodeFront fuel rest
      let members ← decodeMembers fuel rest
      match key with
      | .str k => some ((k, value) :: members)
      | _ => none

end

/-- The document a blob holds in the binary form: a single node that fills it exactly. -/
def decode (bytes : List UInt8) : Option JsonNode :=
  match decodeFront (2 * bytes.length + 4) bytes with
  | some (node, []) => some node
  | _ => none

/-- Whether a blob's first node has a plausible header: a known kind, a payload that ends
exactly at the end of the blob, and no payload on a null or a truth value. -/
def mayBeBinary (bytes : List UInt8) : Bool :=
  match readHeader bytes with
  | some (kind, size, rest) => kind ≤ 12 ∧ rest.length = size ∧ (kind > 2 ∨ size = 0)
  | none => false

end JsonNode

end Sql
end TreeHistory
