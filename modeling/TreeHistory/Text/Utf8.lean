/-!
# UTF-8

Decoding bytes as UTF-8 text, strictly: every character in its shortest form, no UTF-16
surrogate halves, nothing above U+10FFFF. The ranges of the second byte of three- and four-byte
sequences are those of RFC 3629, which rule out exactly the overlong forms and the surrogates.
-/

namespace TreeHistory
namespace Text

/-- A continuation byte: `10xxxxxx`. -/
def isContinuation (b : UInt8) : Bool := 0x80 ≤ b && b ≤ 0xBF

/-- The low six bits of a continuation byte. -/
def low6 (b : UInt8) : Nat := b.toNat % 64

/-- Decodes bytes as UTF-8, or `none` at the first malformed sequence. -/
def decodeUtf8 : List UInt8 → Option (List Char)
  | [] => some []
  | b :: rest =>
    if b < 0x80 then (decodeUtf8 rest).map (Char.ofNat b.toNat :: ·)
    else if 0xC2 ≤ b && b ≤ 0xDF then
      match rest with
      | c :: more =>
        if isContinuation c then
          (decodeUtf8 more).map (Char.ofNat ((b.toNat % 32) * 64 + low6 c) :: ·)
        else none
      | [] => none
    else if 0xE0 ≤ b && b ≤ 0xEF then
      match rest with
      | c :: d :: more =>
        let secondOk :=
          if b = 0xE0 then 0xA0 ≤ c && c ≤ 0xBF
          else if b = 0xED then 0x80 ≤ c && c ≤ 0x9F
          else isContinuation c
        if secondOk && isContinuation d then
          (decodeUtf8 more).map
            (Char.ofNat ((b.toNat % 16) * 4096 + low6 c * 64 + low6 d) :: ·)
        else none
      | _ => none
    else if 0xF0 ≤ b && b ≤ 0xF4 then
      match rest with
      | c :: d :: e :: more =>
        let secondOk :=
          if b = 0xF0 then 0x90 ≤ c && c ≤ 0xBF
          else if b = 0xF4 then 0x80 ≤ c && c ≤ 0x8F
          else isContinuation c
        if secondOk && isContinuation d && isContinuation e then
          (decodeUtf8 more).map
            (Char.ofNat ((b.toNat % 8) * 262144 + low6 c * 4096 + low6 d * 64 + low6 e) :: ·)
        else none
      | _ => none
    else none

/-- The UTF-8 bytes of a text. -/
def encodeUtf8 (s : String) : List UInt8 :=
  s.toUTF8.toList

end Text
end TreeHistory
