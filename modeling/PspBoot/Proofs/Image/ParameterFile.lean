import PspBoot.Image.ParameterFile.Layout
import PspBoot.Proofs.Text.Utf8
import PspBoot.Proofs.Windows

/-!
# Looking up what was written

A lookup follows references: an index entry says where its key stands among the keys and where its
value stands among the values.  `ParameterFile.Holds` says that the three tables of some entries stand
where they are looked for, and that is all that a lookup depends on.  So an entry is read back as it was
written (`Holds.entry?_length`), and by induction over the index a key is found exactly if there is an
entry for it, with the value of the first such entry (`Holds.get?_eq`).

The main result, `ParameterFile.reads_layOut`, is about files as they are written, whatever follows them.
If the header announces more entries than there are, the bytes behind the index are taken for entries as
well, but they are not looked at for a key that has an entry.
-/

namespace PspBoot

namespace Bytes

theorem untilNul_append {text : Bytes} (h : 0 ∉ text) (rest : Bytes) :
    untilNul (text ++ 0 :: rest) = text := by
  have htext : ∀ b ∈ text, (b != 0) = true := by
    intro b hb
    rw [bne_iff_ne]
    rintro rfl
    exact h hb
  rw [untilNul, List.takeWhile_append_of_pos htext]
  simp

end Bytes

namespace ParameterFile

open Bytes (HasAt)

variable {file : ParameterFile} {data rest : Bytes} {before after entries : List ParameterEntry}
  {entry : ParameterEntry} {keyOffset dataOffset offset : Nat}

/-! ### One entry -/

/-- **A value is decoded as it was written.** -/
theorem decodeValue?_encode {value : ParameterValue} (h : value.isNulFree = true) :
    decodeValue? value.format value.encode = some value := by
  cases value with
  | text text =>
    have hnul : '\x00' ∉ text := by simpa [ParameterValue.isNulFree] using h
    have huntil := Bytes.untilNul_append (Utf8.zero_not_mem_encode hnul) []
    rw [ParameterValue.format, ParameterValue.encode, decodeValue?, if_pos (.inl rfl), huntil,
      Utf8.decodeLossy_encode]
  | int n =>
    have hraw : (Bytes.ofNatLE 4 n.toNat).HasAt 0 (Bytes.ofNatLE 4 n.toNat) :=
      ⟨[], [], (List.append_nil _).symm, rfl⟩
    have hword := hraw.wordAt?_eq n.toNat_lt
    rw [ParameterValue.format, ParameterValue.encode, decodeValue?, if_neg (by decide), if_pos rfl,
      hword, Option.map_some, UInt32.ofNat_toNat]

/-- A key is read up to its zero byte. -/
theorem keyFrom?_eq (h : file.data.HasAt offset entry.encodeKey) (hnul : '\x00' ∉ entry.key) :
    file.keyFrom? offset = some (Utf8.encode entry.key) := by
  obtain ⟨rest, hrest⟩ := h.drop_eq
  rw [ParameterEntry.encodeKey, List.append_assoc, List.singleton_append] at hrest
  have hkey := Bytes.untilNul_append (Utf8.zero_not_mem_encode hnul) rest
  rw [keyFrom?, hrest, hkey]
  simp

theorem rawAt?_eq {raw : Bytes} (h : file.data.HasAt offset raw) :
    file.rawAt? offset raw.length = some raw := by
  rw [rawAt?, if_pos h.le_length, h.slice_eq]

/-- The words of an index entry, those that are read, if they have room for what they say. -/
theorem words_of_indexEntry {value : ParameterValue}
    (h : data.HasAt offset (indexEntry keyOffset dataOffset value)) (hkey : keyOffset < UInt16.size)
    (hsize : value.encode.length < UInt32.size) (hdata : dataOffset < UInt32.size) :
    Bytes.wordAt? 2 data offset = some keyOffset ∧
      Bytes.wordAt? 2 data (offset + 2) = some value.format ∧
      Bytes.wordAt? 4 data (offset + 4) = some value.encode.length ∧
      Bytes.wordAt? 4 data (offset + 12) = some dataOffset := by
  have hformat : value.format < UInt16.size := by
    cases value with
    | text => exact (by decide : textFormat < UInt16.size)
    | int => exact (by decide : intFormat < UInt16.size)
  refine ⟨h.left.left.left.left.wordAt?_eq hkey, ?_, ?_, ?_⟩
  · simpa using h.left.left.left.right.wordAt?_eq hformat
  · simpa using h.left.left.right.wordAt?_eq hsize
  · simpa using h.right.wordAt?_eq hdata

/-! ### The tables -/

theorem keysOf_append (before after : List ParameterEntry) :
    keysOf (before ++ after) = keysOf before ++ keysOf after :=
  List.flatMap_append

theorem keysOf_cons (entry : ParameterEntry) (after : List ParameterEntry) :
    keysOf (entry :: after) = entry.encodeKey ++ keysOf after :=
  List.flatMap_cons

theorem valuesOf_append (before after : List ParameterEntry) :
    valuesOf (before ++ after) = valuesOf before ++ valuesOf after :=
  List.flatMap_append

theorem valuesOf_cons (entry : ParameterEntry) (after : List ParameterEntry) :
    valuesOf (entry :: after) = entry.value.encode ++ valuesOf after :=
  List.flatMap_cons

/-- An index goes on where the keys and values of the entries before have ended. -/
theorem indexFrom_append (keyOffset dataOffset : Nat) (before after : List ParameterEntry) :
    indexFrom keyOffset dataOffset (before ++ after) =
      indexFrom keyOffset dataOffset before ++
        indexFrom (keyOffset + (keysOf before).length) (dataOffset + (valuesOf before).length)
          after := by
  induction before generalizing keyOffset dataOffset with
  | nil => rfl
  | cons entry before ih =>
    rw [List.cons_append, indexFrom, indexFrom, ih, keysOf_cons, valuesOf_cons, List.length_append,
      List.length_append, Nat.add_assoc, Nat.add_assoc, List.append_assoc]

/-- Every offset and every length that an index entry has to hold has room in it. -/
theorem room_of_fits (h : fits (before ++ entry :: after) = true) :
    (keysOf before).length < UInt16.size ∧ (valuesOf before).length < UInt32.size ∧
      entry.value.encode.length < UInt32.size := by
  simp only [fits, Bool.and_eq_true, decide_eq_true_eq] at h
  obtain ⟨⟨hkeys, -⟩, hvalues⟩ := h
  rw [List.dropLast_append_of_ne_nil (List.cons_ne_nil entry after), keysOf_append,
    List.length_append] at hkeys
  rw [valuesOf_append, valuesOf_cons, List.length_append, List.length_append] at hvalues
  exact ⟨by omega, by omega, by omega⟩

/-- The words of the header have room for the places of both tables and for the number of entries. -/
theorem header_room_of_fits (h : fits entries = true) :
    dataTableOffset entries < UInt32.size ∧ keyTableOffset entries.length < UInt32.size ∧
      entries.length < UInt32.size := by
  simp only [fits, Bool.and_eq_true, decide_eq_true_eq] at h
  have hdata := h.1.2
  have hkey : keyTableOffset entries.length < UInt32.size :=
    Nat.lt_of_le_of_lt (Nat.le_add_right _ _) hdata
  refine ⟨hdata, hkey, ?_⟩
  rw [keyTableOffset, entrySize] at hkey
  omega

/-- The tables of some entries stand where a file looks for them. -/
structure Holds (file : ParameterFile) (entries : List ParameterEntry) : Prop where
  index : file.data.HasAt headerSize (indexFrom 0 0 entries)
  keys : file.data.HasAt file.keyTable (keysOf entries)
  values : file.data.HasAt file.dataTable (valuesOf entries)

/-! ### Lookups -/

/-- **An entry is found at its place of the index**, by its own key and no other. -/
theorem Holds.entry?_length (h : file.Holds (before ++ entry :: after))
    (hfits : fits (before ++ entry :: after) = true) (hnul : entry.isNulFree = true)
    (key : List Char) :
    file.entry? (Utf8.encode key) before.length =
      if entry.key = key then some entry.value else none := by
  obtain ⟨hkeys, hvalues, hsize⟩ := room_of_fits hfits
  obtain ⟨hkey, hvalue⟩ : '\x00' ∉ entry.key ∧ entry.value.isNulFree = true := by
    simpa [ParameterEntry.isNulFree] using hnul
  have hindex := h.index
  rw [indexFrom_append, Nat.zero_add, Nat.zero_add, indexFrom] at hindex
  have hwhere := hindex.right.left
  rw [length_indexFrom, Nat.mul_comm] at hwhere
  obtain ⟨hkeyOffset, hformat, hlength, hdataOffset⟩ :=
    words_of_indexEntry hwhere hkeys hsize hvalues
  have hkeyAt := h.keys
  rw [keysOf_append, keysOf_cons] at hkeyAt
  have hvalueAt := h.values
  rw [valuesOf_append, valuesOf_cons] at hvalueAt
  unfold entry?
  simp only [hkeyOffset, hformat, hlength, hdataOffset, keyFrom?_eq hkeyAt.right.left hkey,
    rawAt?_eq hvalueAt.right.left, decodeValue?_encode hvalue, Option.bind_eq_bind, Option.bind_some,
    ne_eq, Utf8.encode_inj, ite_not]

theorem lookup_cons (entry : ParameterEntry) (entries : List ParameterEntry) (key : List Char) :
    lookup (entry :: entries) key =
      if entry.key = key then some entry.value else lookup entries key := by
  unfold lookup
  by_cases hkey : entry.key = key
  · rw [if_pos hkey, List.find?_cons_of_pos (by simpa using hkey), Option.map_some]
  · rw [if_neg hkey, List.find?_cons_of_neg (by simpa using hkey)]

/-- **The index is searched in order**, entry by entry from some place on. -/
theorem Holds.findSome?_range' (h : file.Holds (before ++ after))
    (hfits : fits (before ++ after) = true) (hnul : ∀ entry ∈ after, entry.isNulFree = true)
    (key : List Char) :
    (List.range' before.length after.length).findSome? (file.entry? (Utf8.encode key)) =
      lookup after key := by
  induction after generalizing before with
  | nil => rfl
  | cons entry after ih =>
    -- An entry that has been passed joins those in front, and the tables stay where they are.
    have hsplit : before ++ entry :: after = (before ++ [entry]) ++ after := by simp
    have hrest := ih (hsplit ▸ h) (hsplit ▸ hfits) fun other hother =>
      hnul other (List.mem_cons_of_mem _ hother)
    rw [List.length_append, List.length_singleton] at hrest
    rw [List.length_cons, List.range'_succ, List.findSome?_cons,
      h.entry?_length hfits (hnul entry List.mem_cons_self), hrest, lookup_cons]
    by_cases hkey : entry.key = key
    · rw [if_pos hkey, if_pos hkey]
    · rw [if_neg hkey, if_neg hkey]

/-- A key is looked up among the entries first.  What is taken for further entries comes behind. -/
theorem Holds.get?_eq (h : file.Holds entries) (hfits : fits entries = true)
    (hnul : ∀ entry ∈ entries, entry.isNulFree = true) (hcount : entries.length ≤ file.count)
    (key : String) :
    file.get? key = (lookup entries key.toList).or
      ((List.range' entries.length (file.count - entries.length)).findSome?
        (file.entry? (Utf8.encode key.toList))) := by
  have hrange : List.range file.count =
      List.range' 0 entries.length ++
        List.range' entries.length (file.count - entries.length) := by
    rw [List.range_eq_range', ← Nat.add_sub_of_le hcount, ← List.range'_append_1, Nat.zero_add,
      Nat.add_sub_cancel_left]
  have hfirst := @Holds.findSome?_range' file [] entries h hfits hnul key.toList
  rw [List.length_nil] at hfirst
  rw [get?, hrange, List.findSome?_append, hfirst]

/-! ### Files as they are written -/

/-- What is read from the header. -/
theorem parse?_header (version : UInt32) {count : Nat} (rest : Bytes)
    (hfits : fits entries = true) (hcount : count < UInt32.size) :
    parse? (header version count entries ++ rest) =
      some { data := header version count entries ++ rest
             keyTable := keyTableOffset entries.length
             dataTable := dataTableOffset entries
             count := min count (rest.length / entrySize) } := by
  obtain ⟨hdata, hkey, -⟩ := header_room_of_fits hfits
  have hheader : (header version count entries ++ rest).HasAt 0 (header version count entries) :=
    ⟨[], rest, rfl, rfl⟩
  have hkeyTable := hheader.left.left.right.wordAt?_eq hkey
  have hdataTable := hheader.left.right.wordAt?_eq hdata
  have hannounced := hheader.right.wordAt?_eq hcount
  have hlength : (header version count entries ++ rest).length - headerSize = rest.length := by
    rw [List.length_append, length_header, Nat.add_sub_cancel_left]
  rw [parse?, if_neg, hlength]
  · simp only [List.length_append, Bytes.length_ofNatLE, Signature.parametersHead, List.length_cons,
      List.length_nil, Nat.zero_add, Nat.reduceAdd] at hkeyTable hdataTable hannounced
    rw [hkeyTable, hdataTable, hannounced]
    rfl
  · rintro (hshort | hhead)
    · rw [List.length_append, length_header] at hshort
      omega
    · exact hhead rfl

/-- The tables stand where the header says. -/
theorem holds_of_body (version : UInt32) (count : Nat) (entries : List ParameterEntry)
    (rest : Bytes) (announced : Nat) :
    Holds { data := header version count entries ++ (body entries ++ rest)
            keyTable := keyTableOffset entries.length
            dataTable := dataTableOffset entries
            count := announced } entries := by
  have hbody : (header version count entries ++ (body entries ++ rest)).HasAt headerSize
      (body entries) :=
    ⟨header version count entries, rest, rfl, length_header version count entries⟩
  constructor
  case index => exact hbody.left.left
  case keys => simpa [keyTableOffset] using hbody.left.right
  case values => simpa [dataTableOffset, keyTableOffset, Nat.add_assoc] using hbody.right

theorem length_le_body (entries : List ParameterEntry) (rest : Bytes) :
    entries.length ≤ (body entries ++ rest).length / entrySize := by
  rw [Nat.le_div_iff_mul_le (by decide), body, List.append_assoc, List.append_assoc,
    List.length_append, length_indexFrom, Nat.mul_comm]
  exact Nat.le_add_right _ _

/-- A file says what the entries say: a key has the value of its first entry, as a text if that is a
text and as an integer if it is an integer. -/
structure Reads (file : ParameterFile) (entries : List ParameterEntry) : Prop where
  get? : ∀ key, file.get? key = lookup entries key.toList
  text?_iff : ∀ key text,
    file.text? key = some text ↔ lookup entries key.toList = some (.text text)
  int?_iff : ∀ key n, file.int? key = some n ↔ lookup entries key.toList = some (.int n)

theorem reads_of_get? (h : ∀ key, file.get? key = lookup entries key.toList) :
    file.Reads entries where
  get? := h
  text?_iff key text := by
    rw [text?, h]
    cases lookup entries key.toList with
    | none => simp
    | some value =>
      cases value with
      | text | int => simp
  int?_iff key n := by
    rw [int?, h]
    cases lookup entries key.toList with
    | none => simp
    | some value =>
      cases value with
      | text | int => simp

/-- **What was written is read back.**  If keys and texts are free of NUL and all offsets have room in
their words, a file can be parsed, whatever follows it, and gives every key the value of the first entry
for it, and no value to any other key.  If the header announces more entries than there are, the keys
that have entries keep their values. -/
theorem reads_layOut (version : UInt32) (entries : List ParameterEntry) (rest : Bytes)
    (hnul : ∀ entry ∈ entries, entry.isNulFree = true) (hfits : fits entries = true) :
    ∃ file, parse? (layOut version entries ++ rest) = some file ∧ file.Reads entries ∧
      ∀ count, entries.length < count → count < UInt32.size →
        ∃ inflated, parse? (header version count entries ++ body entries ++ rest) = some inflated ∧
          ∀ key : String, key.toList ∈ entries.map ParameterEntry.key →
            inflated.get? key = file.get? key := by
  have hroom := length_le_body entries rest
  obtain ⟨-, -, hlength⟩ := header_room_of_fits hfits
  have hparse := parse?_header version (body entries ++ rest) hfits hlength
  have hholds := holds_of_body version entries.length entries rest
  rw [Nat.min_eq_left hroom] at hparse
  have hget (key : String) := (hholds _).get?_eq hfits hnul (Nat.le_refl _) key
  simp only [Nat.sub_self, List.range'_zero, List.findSome?_nil, Option.or_none] at hget
  refine ⟨_, by rw [layOut, List.append_assoc, hparse], reads_of_get? hget, ?_⟩
  intro count hmore hcount
  have hinflated := parse?_header version (body entries ++ rest) hfits hcount
  have hsame (key : String) := (holds_of_body version count entries rest _).get?_eq hfits hnul
    (Nat.le_min.mpr ⟨Nat.le_of_lt hmore, hroom⟩) key
  refine ⟨_, by rw [List.append_assoc, hinflated], fun key hkey => ?_⟩
  obtain ⟨value, hvalue⟩ : ∃ value, lookup entries key.toList = some value := by
    rw [← Option.isSome_iff_exists, lookup, Option.isSome_map, List.find?_isSome]
    simpa using hkey
  -- The key has an entry, so the search ends before it comes to what is no entry.
  rw [hsame, hget, hvalue, Option.some_or]

/-- Three entries, one of them without a key and two with the same key. -/
theorem reads_layOut_three :
    let entries : List ParameterEntry :=
      [{ key := "CATEGORY".toList, value := .text "UG".toList }, { key := [], value := .int 7 },
        { key := "CATEGORY".toList, value := .int 1 }]
    (∀ entry ∈ entries, entry.isNulFree = true) ∧ fits entries = true ∧
      ∃ file, parse? (layOut 0x101 entries ++ [0xff]) = some file ∧
        file.text? "CATEGORY" = some "UG".toList ∧ file.int? "" = some 7 ∧
        file.get? "GORY" = none := by
  intro entries
  have hnul : ∀ entry ∈ entries, entry.isNulFree = true := by decide
  have hfits : fits entries = true := by decide
  obtain ⟨file, hparse, hreads, -⟩ := reads_layOut 0x101 entries [0xff] hnul hfits
  refine ⟨hnul, hfits, file, hparse, ?_, ?_, ?_⟩
  · exact (hreads.text?_iff _ _).mpr (by decide)
  · exact (hreads.int?_iff _ _).mpr (by decide)
  · exact (hreads.get? "GORY").trans (by decide)

end ParameterFile

end PspBoot
