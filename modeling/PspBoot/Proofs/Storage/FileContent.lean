import PspBoot.Proofs.Windows
import PspBoot.Storage.FileContent

/-!
# Reading back what was written

A read of the range that was written last gives what was written there.  A range that was read in
full before a write to some other range is read as before.

`content.byte offset` is what a file has at an offset.  Reads tell the bytes of their range one by
one (`getElem?_read`), and a write changes those of its own range alone (`byte_write`).
-/

namespace PspBoot.FileContent

@[simp] theorem window_zero (extents : List (Nat × Bytes)) (offset : Nat) :
    window extents offset 0 = [] :=
  List.eq_nil_of_length_eq_zero (length_window extents offset 0)

@[simp] theorem read_zero (content : FileContent) (offset : Nat) : content.read offset 0 = [] := by
  simp [read]

/-- The extent itself. -/
theorem window_cons_self (older : List (Nat × Bytes)) (offset : Nat) (data : Bytes) :
    window ((offset, data) :: older) offset data.length = data := by
  rw [window]
  split
  · next hempty => exact (List.eq_nil_of_length_eq_zero hempty).symm
  · simp

/-- A range that an extent does not touch. -/
theorem window_cons_disjoint {start : Nat} {data : Bytes} (older : List (Nat × Bytes))
    {offset len : Nat} (h : offset + len ≤ start ∨ start + data.length ≤ offset) :
    window ((start, data) :: older) offset len = window older offset len := by
  rw [window]
  split
  · next hzero => simp [hzero]
  · rcases h with hbefore | hbehind
    · have hmin : min len (start - offset) = len := by omega
      simp [hmin]
    · have hmin : min len (start - offset) = 0 := by omega
      have hnothing : Bytes.slice data (offset - start) len = [] :=
        Bytes.slice_eq_nil.mpr (.inr (by omega))
      simp [hmin, hnothing]

/-- What was written last is read back. -/
theorem read_write_self (content : FileContent) (offset : Nat) (data : Bytes) :
    (content.write offset data).read offset data.length = data := by
  rw [write]
  split
  · next hempty => simp [hempty]
  · have hlen : min data.length (max content.size (offset + data.length) - offset) =
        data.length := by omega
    rw [read, hlen]
    apply window_cons_self

/-- A range that was there in full is not changed by a write to another range. -/
theorem read_write_disjoint {content : FileContent} {start : Nat} {data : Bytes} {offset len : Nat}
    (hinside : offset + len ≤ content.size)
    (h : offset + len ≤ start ∨ start + data.length ≤ offset) :
    (content.write start data).read offset len = content.read offset len := by
  rw [write]
  split
  · rfl
  · have hlen : min len (max content.size (start + data.length) - offset) = len := by omega
    have hlen' : min len (content.size - offset) = len := by omega
    rw [read, read, hlen, hlen']
    exact window_cons_disjoint _ h

/-- All bytes of a file that was written anew. -/
theorem toBytes_ofBytes (data : Bytes) : (ofBytes data).toBytes = data := by
  rw [toBytes, read, ofBytes]
  split
  · next hempty => simp [hempty]
  · have hlen : min data.length (data.length - 0) = data.length := by omega
    rw [hlen]
    exact window_cons_self [] 0 data

/-! ### Byte by byte -/

/-- A window tells the byte of every offset in it.  By induction on the extents: the first one
covers a middle part, and what lies on either side of it is told by the others. -/
theorem getElem?_window (extents : List (Nat × Bytes)) (offset len i : Nat) :
    (window extents offset len)[i]? =
      if i < len then some (byteAt extents (offset + i)) else none := by
  induction extents generalizing offset len i with
  | nil => simp [window, byteAt, List.getElem?_replicate]
  | cons extent older ih =>
    obtain ⟨start, data⟩ := extent
    rw [window]
    by_cases hzero : len = 0
    · simp [hzero]
    rw [if_neg hzero]
    simp only [List.append_assoc, List.getElem?_append, length_window, Bytes.length_slice, ih,
      Bytes.getElem?_slice, byteAt]
    by_cases hbefore : i < min len (start - offset)
    · rw [if_pos hbefore, if_pos hbefore, if_pos (by omega), if_neg (by omega)]
    · rw [if_neg hbefore]
      by_cases hcovered : i - min len (start - offset) <
          min (len - min len (start - offset)) (data.length - (offset - start))
      · have hinside : offset + i - start < data.length := by omega
        have hsame : offset - start + (i - min len (start - offset)) = offset + i - start := by
          omega
        rw [if_pos hcovered, if_pos (by omega), if_pos (by omega), if_pos (by omega), hsame,
          List.getD_eq_getElem?_getD, List.getElem?_eq_getElem hinside, Option.getD_some]
      · rw [if_neg hcovered]
        by_cases hi : i < len
        · rw [if_pos (by omega), if_pos hi, if_neg (by omega)]
          congr 2
          omega
        · rw [if_neg (by omega), if_neg hi]

/-- The byte at an offset; zero where nothing was written. -/
def byte (content : FileContent) (offset : Nat) : UInt8 :=
  byteAt content.extents offset

theorem getElem?_read (content : FileContent) (offset len i : Nat) :
    (content.read offset len)[i]? =
      if i < len ∧ offset + i < content.size then some (content.byte (offset + i)) else none := by
  rw [read, getElem?_window, byte]
  congr 1
  simp only [eq_iff_iff]
  omega

theorem byte_write (content : FileContent) (start offset : Nat) (data : Bytes) :
    (content.write start data).byte offset =
      if start ≤ offset ∧ offset < start + data.length then data.getD (offset - start) 0
      else content.byte offset := by
  rw [write]
  by_cases hempty : data = []
  · rw [if_pos hempty, if_neg]
    simp [hempty]
  · rw [if_neg hempty]
    rfl

theorem size_write (content : FileContent) (start : Nat) (data : Bytes) :
    (content.write start data).size =
      if data = [] then content.size else max content.size (start + data.length) := by
  rw [write]
  split
  · rfl
  · rfl

theorem le_size_write (content : FileContent) (start : Nat) (data : Bytes) :
    content.size ≤ (content.write start data).size := by
  rw [size_write]
  split
  · exact Nat.le_refl _
  · exact Nat.le_max_left _ _

/-- A range is not changed by a write of its own beginning. -/
theorem read_write_prefix {content : FileContent} {offset len : Nat} {data part : Bytes}
    (hread : content.read offset len = data) (hfull : data.length = len) (hpart : part <+: data) :
    (content.write offset part).read offset len = data := by
  subst hread
  apply List.ext_getElem?
  intro i
  have hsize := le_size_write content offset part
  rw [length_read] at hfull
  rw [getElem?_read, getElem?_read]
  by_cases hi : i < len
  · rw [if_pos ⟨hi, by omega⟩, if_pos ⟨hi, by omega⟩, byte_write]
    split
    · next hinside =>
      have hi' : i < part.length := by omega
      have hsame := List.prefix_iff_getElem?.mp hpart i hi'
      rw [getElem?_read, if_pos ⟨hi, by omega⟩] at hsame
      rw [hsame, Nat.add_sub_cancel_left, List.getD_eq_getElem?_getD,
        List.getElem?_eq_getElem hi', Option.getD_some]
    · rfl
  · rw [if_neg (fun h => hi h.1), if_neg (fun h => hi h.1)]

/-- A window of all bytes of a file is what is read there. -/
theorem slice_toBytes (content : FileContent) (offset len : Nat) :
    Bytes.slice content.toBytes offset len = content.read offset len := by
  apply List.ext_getElem?
  intro i
  rw [Bytes.getElem?_slice, toBytes, getElem?_read, getElem?_read, Nat.zero_add]
  by_cases hi : i < len
  · rw [if_pos hi]
    congr 1
    simp [hi]
  · rw [if_neg hi, if_neg (fun h => hi h.1)]

/-- The bytes of a file, one by one. -/
theorem getElem?_toBytes (content : FileContent) (i : Nat) :
    content.toBytes[i]? = if i < content.size then some (content.byte i) else none := by
  rw [toBytes, getElem?_read, Nat.zero_add]
  simp only [and_self]

@[simp] theorem length_toBytes (content : FileContent) :
    content.toBytes.length = content.size := by
  rw [toBytes, length_read, Nat.sub_zero, Nat.min_self]

/-- A file that has just been written has its bytes, and behind them there is nothing. -/
theorem byte_ofBytes (data : Bytes) (offset : Nat) :
    (ofBytes data).byte offset = data.getD offset 0 := by
  rw [byte, ofBytes]
  by_cases hempty : data = []
  · rw [if_pos hempty, hempty]
    rfl
  · rw [if_neg hempty, byteAt, Nat.zero_add, Nat.sub_zero]
    by_cases hinside : offset < data.length
    · rw [if_pos ⟨Nat.zero_le _, hinside⟩]
    · rw [if_neg (fun h => hinside h.2), List.getD_eq_getElem?_getD,
        List.getElem?_eq_none (Nat.not_lt.mp hinside)]
      rfl

/-- What is left of a file that has been cut: its first bytes, and nothing behind them. -/
def Remains (left file : FileContent) : Prop :=
  ∀ offset, left.byte offset = if offset < left.size then file.byte offset else 0

theorem remains_empty (file : FileContent) : Remains {} file :=
  fun offset => (if_neg (Nat.not_lt_zero offset)).symm

theorem remains_take (file : FileContent) (kept : Nat) :
    Remains (ofBytes (file.toBytes.take kept)) file := by
  intro offset
  have hsize : (ofBytes (file.toBytes.take kept)).size = min kept file.size := by
    simp [ofBytes]
  rw [byte_ofBytes, hsize, List.getD_eq_getElem?_getD, List.getElem?_take, getElem?_toBytes]
  by_cases hkept : offset < kept
  · rw [if_pos hkept]
    by_cases hinside : offset < file.size
    · rw [if_pos hinside, if_pos (Nat.lt_min.mpr ⟨hkept, hinside⟩)]
      rfl
    · rw [if_neg hinside, if_neg (fun h => hinside (Nat.lt_min.mp h).2)]
      rfl
  · rw [if_neg hkept, if_neg (fun h => hkept (Nat.lt_min.mp h).1)]
    rfl

end PspBoot.FileContent
