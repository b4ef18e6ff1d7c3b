import PspBoot.Image.Signature
import PspBoot.Text.Utf8

/-!
# Parameter files

A parameter file maps keys to texts and 32-bit integers.  It consists of a header, an index with
one entry per key, a table of zero-terminated keys and a table of values:

* the header has 20 bytes: the signature, a version, the offsets of both tables, and the number
  of entries;
* an entry has 16 bytes: the offset of its key in the key table, the format, the length and the
  room of its value, and the offset of the value in the data table.

`ParameterFile.parse?` checks the header, and `ParameterFile.get?` looks a key up.  The bytes may
be anything: an entry that leads out of the file, or whose format is unknown, is passed over.
-/

namespace PspBoot

/-- A value of a parameter file. -/
inductive ParameterValue where
  | text (value : List Char)
  | int (value : UInt32)
deriving Repr, Inhabited, DecidableEq

/-- The bytes of a parameter file with what its header says. -/
structure ParameterFile where
  data : Bytes
  keyTable : Nat
  dataTable : Nat
  /-- The number of entries that the header announces and the file has room for. -/
  count : Nat
deriving Repr, Inhabited, DecidableEq

namespace ParameterFile

/-- The length of the header. -/
def headerSize : Nat := 20

/-- The length of an index entry. -/
def entrySize : Nat := 16

/-- The format of a text. -/
def textFormat : Nat := 0x0204

/-- The format of a text that need not be terminated. -/
def rawTextFormat : Nat := 0x0004

/-- The format of a 32-bit integer. -/
def intFormat : Nat := 0x0404

/-- Reads the header; nothing if the bytes are no parameter file.  Entries for which there is no
room in the file are not counted. -/
def parse? (data : Bytes) : Option ParameterFile :=
  if data.length < headerSize ∨ data.take 4 ≠ Signature.parametersHead then
    none
  else do
    let keyTable ← Bytes.wordAt? 4 data 8
    let dataTable ← Bytes.wordAt? 4 data 12
    let count ← Bytes.wordAt? 4 data 16
    pure { data, keyTable, dataTable, count := min count ((data.length - headerSize) / entrySize) }

/-- The zero-terminated key at an offset of the file. -/
def keyFrom? (file : ParameterFile) (offset : Nat) : Option Bytes :=
  let rest := file.data.drop offset
  let key := Bytes.untilNul rest
  if (rest.drop key.length).isEmpty then none else some key

/-- The bytes of a value, if all of them are in the file. -/
def rawAt? (file : ParameterFile) (offset size : Nat) : Option Bytes :=
  if offset + size ≤ file.data.length then some (Bytes.slice file.data offset size) else none

/-- The value that bytes stand for in a format. -/
def decodeValue? (format : Nat) (raw : Bytes) : Option ParameterValue :=
  if format = textFormat ∨ format = rawTextFormat then
    some (.text (Utf8.decodeLossy (Bytes.untilNul raw)))
  else if format = intFormat then
    (Bytes.wordAt? 4 raw 0).map fun word => .int (UInt32.ofNat word)
  else
    none

/-- The value of an entry, if its key is the given one and it can be read. -/
def entry? (file : ParameterFile) (key : Bytes) (index : Nat) : Option ParameterValue := do
  let entry := headerSize + index * entrySize
  let keyOffset ← Bytes.wordAt? 2 file.data entry
  let found ← file.keyFrom? (file.keyTable + keyOffset)
  if found ≠ key then
    none
  else do
    let format ← Bytes.wordAt? 2 file.data (entry + 2)
    let size ← Bytes.wordAt? 4 file.data (entry + 4)
    let offset ← Bytes.wordAt? 4 file.data (entry + 12)
    let raw ← file.rawAt? (file.dataTable + offset) size
    decodeValue? format raw

/-- The value of a key: that of the first entry for it that can be read. -/
def get? (file : ParameterFile) (key : String) : Option ParameterValue :=
  (List.range file.count).findSome? (file.entry? (Utf8.encode key.toList))

/-- The value of a key, if it is a text. -/
def text? (file : ParameterFile) (key : String) : Option (List Char) :=
  match file.get? key with
  | some (.text value) => some value
  | _ => none

/-- The value of a key, if it is an integer. -/
def int? (file : ParameterFile) (key : String) : Option UInt32 :=
  match file.get? key with
  | some (.int value) => some value
  | _ => none

end ParameterFile

end PspBoot
