import PspBoot.Image.ParameterFile

/-!
# Writing parameter files

`ParameterFile.layOut` writes a parameter file with given entries.  The index follows the header,
then come the keys in the order of the entries, then their values in the same order, with nothing
between them.  Keys and texts end with a zero byte.  Every offset is counted from the beginning of
its table, so that the index can be written entry by entry (`ParameterFile.indexFrom`).
-/

namespace PspBoot

namespace ParameterValue

/-- The format under which a value is written. -/
def format : ParameterValue → Nat
  | .text _ => ParameterFile.textFormat
  | .int _ => ParameterFile.intFormat

/-- The bytes of a value in the data table. -/
def encode : ParameterValue → Bytes
  | .text value => Utf8.encode value ++ [0]
  | .int value => Bytes.ofNatLE 4 value.toNat

/-- Whether a value reads back as it was written: a text ends at its first NUL character. -/
def isNulFree : ParameterValue → Bool
  | .text value => !value.contains '\x00'
  | .int _ => true

end ParameterValue

/-- An entry of a parameter file. -/
structure ParameterEntry where
  key : List Char
  value : ParameterValue
deriving Repr, Inhabited, DecidableEq

namespace ParameterEntry

/-- The bytes of an entry's key in the key table. -/
def encodeKey (entry : ParameterEntry) : Bytes :=
  Utf8.encode entry.key ++ [0]

/-- Whether key and value read back as they were written. -/
def isNulFree (entry : ParameterEntry) : Bool :=
  !entry.key.contains '\x00' && entry.value.isNulFree

end ParameterEntry

namespace ParameterFile

/-- The keys of the entries in order. -/
def keysOf (entries : List ParameterEntry) : Bytes :=
  entries.flatMap ParameterEntry.encodeKey

/-- The values of the entries in order. -/
def valuesOf (entries : List ParameterEntry) : Bytes :=
  entries.flatMap fun entry => entry.value.encode

/-- An index entry: where key and value stand in their tables, and what the value is.  A value has
no more room than it needs. -/
def indexEntry (keyOffset dataOffset : Nat) (value : ParameterValue) : Bytes :=
  Bytes.ofNatLE 2 keyOffset ++ Bytes.ofNatLE 2 value.format ++
    Bytes.ofNatLE 4 value.encode.length ++ Bytes.ofNatLE 4 value.encode.length ++
    Bytes.ofNatLE 4 dataOffset

/-- The index for entries whose keys and values begin at the given offsets of their tables. -/
def indexFrom : (keyOffset dataOffset : Nat) → List ParameterEntry → Bytes
  | _, _, [] => []
  | keyOffset, dataOffset, entry :: entries =>
      indexEntry keyOffset dataOffset entry.value ++
        indexFrom (keyOffset + entry.encodeKey.length) (dataOffset + entry.value.encode.length)
          entries

/-- The offset of the key table behind an index of the given number of entries. -/
def keyTableOffset (count : Nat) : Nat :=
  headerSize + entrySize * count

/-- The offset of the data table. -/
def dataTableOffset (entries : List ParameterEntry) : Nat :=
  keyTableOffset entries.length + (keysOf entries).length

/-- The header of a file with the given entries.  The announced number of entries may differ from
theirs. -/
def header (version : UInt32) (count : Nat) (entries : List ParameterEntry) : Bytes :=
  Signature.parametersHead ++ Bytes.ofNatLE 4 version.toNat ++
    Bytes.ofNatLE 4 (keyTableOffset entries.length) ++
    Bytes.ofNatLE 4 (dataTableOffset entries) ++ Bytes.ofNatLE 4 count

/-- What follows the header. -/
def body (entries : List ParameterEntry) : Bytes :=
  indexFrom 0 0 entries ++ keysOf entries ++ valuesOf entries

/-- The bytes of a parameter file with the given entries. -/
def layOut (version : UInt32) (entries : List ParameterEntry) : Bytes :=
  header version entries.length entries ++ body entries

/-- Whether all offsets and lengths of a file with the given entries fit the words that hold
them: the last key begins below 2¹⁶ in its table, the data table begins below 2³², and the values
take less than 2³² bytes. -/
def fits (entries : List ParameterEntry) : Bool :=
  (keysOf entries.dropLast).length < UInt16.size &&
    dataTableOffset entries < UInt32.size && (valuesOf entries).length < UInt32.size

/-- The value of a key: that of the first entry with it. -/
def lookup (entries : List ParameterEntry) (key : List Char) : Option ParameterValue :=
  (entries.find? (·.key = key)).map ParameterEntry.value

@[simp] theorem length_indexEntry (keyOffset dataOffset : Nat) (value : ParameterValue) :
    (indexEntry keyOffset dataOffset value).length = entrySize := by
  simp [indexEntry, entrySize]

@[simp] theorem length_indexFrom (keyOffset dataOffset : Nat) (entries : List ParameterEntry) :
    (indexFrom keyOffset dataOffset entries).length = entrySize * entries.length := by
  induction entries generalizing keyOffset dataOffset with
  | nil => rfl
  | cons entry entries ih =>
    rw [indexFrom, List.length_append, length_indexEntry, ih, List.length_cons, Nat.mul_succ,
      Nat.add_comm]

@[simp] theorem length_header (version : UInt32) (count : Nat) (entries : List ParameterEntry) :
    (header version count entries).length = headerSize := by
  simp [header, headerSize, Signature.parametersHead]

end ParameterFile

end PspBoot
