import TreeHistory.Store.Basic
import TreeHistory.Text.Utf8

/-!
# Database files

A database file is a header line, then the script that makes the database again
(`Sql.Database.toScript`). An empty file is a database with no tables.
-/

namespace TreeHistory
namespace Store

/-- The first line of every database file. -/
def fileHeader : String := "-- tree history index\n"

/-- The bytes of the file that keeps a store's database. -/
def encode (store : Store) : List UInt8 :=
  Text.encodeUtf8 (fileHeader ++ store.close.toScript)

/-- The database a file keeps. -/
def decode (bytes : List UInt8) : Except StoreError Sql.Database :=
  if bytes.isEmpty then .ok {}
  else
    match Text.decodeUtf8 bytes with
    | some chars =>
      if fileHeader.toList.isPrefixOf chars then
        .ok (Sql.Database.ofScript (String.ofList (chars.drop fileHeader.length)) false).1
      else .error (.sql "file is not a database")
    | none => .error (.sql "file is not a database")

theorem decode_empty : decode [] = .ok {} := rfl

end Store
end TreeHistory
