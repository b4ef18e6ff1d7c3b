import PspBoot.Bytes

/-!
# Contents of files

A file may have been written at scattered offsets, and the gaps read as zeros.  A `FileContent` is
the size of the file together with the extents written to it, the latest first, so that a write
far behind the end costs no more than its own bytes.
-/

namespace PspBoot

/-- The content of a file. -/
structure FileContent where
  size : Nat := 0
  /-- Offsets and bytes of what was written, the latest first. -/
  extents : List (Nat × Bytes) := []
deriving Repr, Inhabited, DecidableEq

namespace FileContent

/-- The content with the given bytes. -/
def ofBytes (data : Bytes) : FileContent where
  size := data.length
  extents := if data = [] then [] else [(0, data)]

/-- The byte that the extents give to an offset: that of the latest extent which covers it. -/
def byteAt : List (Nat × Bytes) → (offset : Nat) → UInt8
  | [], _ => 0
  | (start, data) :: older, offset =>
      if start ≤ offset ∧ offset < start + data.length then
        data.getD (offset - start) 0
      else
        byteAt older offset

/-- The `len` bytes that the extents give to the offsets from `offset` on.  The first extent
covers a middle part of them; what lies on either side comes from the older extents. -/
def window : List (Nat × Bytes) → (offset len : Nat) → Bytes
  | [], _, len => List.replicate len 0
  | (start, data) :: older, offset, len =>
      if len = 0 then
        []
      else
        let before := min len (start - offset)
        let covered := Bytes.slice data (offset - start) (len - before)
        let behind := before + covered.length
        window older offset before ++ covered ++ window older (offset + behind) (len - behind)

/-- The bytes from `offset` on, at most `len` of them and none behind the end. -/
def read (content : FileContent) (offset len : Nat) : Bytes :=
  window content.extents offset (min len (content.size - offset))

/-- All bytes of the file. -/
def toBytes (content : FileContent) : Bytes :=
  content.read 0 content.size

/-- The content after `data` was written at `offset`.  Writing nothing does not extend a file. -/
def write (content : FileContent) (offset : Nat) (data : Bytes) : FileContent :=
  if data = [] then
    content
  else
    { size := max content.size (offset + data.length)
      extents := (offset, data) :: content.extents }

@[simp] theorem length_window (extents : List (Nat × Bytes)) (offset len : Nat) :
    (window extents offset len).length = len := by
  induction extents generalizing offset len with
  | nil => simp [window]
  | cons extent older ih =>
    obtain ⟨start, data⟩ := extent
    rw [window]
    split
    · simp_all
    · simp only [List.length_append, ih, Bytes.length_slice]
      omega

@[simp] theorem length_read (content : FileContent) (offset len : Nat) :
    (content.read offset len).length = min len (content.size - offset) := by
  simp [read]

end FileContent

end PspBoot
