import PspBoot.Bytes

/-!
# Windows of a content

`Bytes.slice` is the right answer to every read.  The laws here say how the window of a read is
cut, continued and put together, and that a beginning of a window which is as long as the window
is the window.
-/

namespace PspBoot.Bytes

theorem slice_eq_nil {data : Bytes} {offset len : Nat} :
    slice data offset len = [] ↔ len = 0 ∨ data.length ≤ offset := by
  rw [← List.length_eq_zero_iff, length_slice]
  omega

@[simp] theorem slice_zero (data : Bytes) (offset : Nat) : slice data offset 0 = [] := by
  simp [slice]

theorem getElem?_slice (data : Bytes) (offset len i : Nat) :
    (slice data offset len)[i]? = if i < len then data[offset + i]? else none := by
  rw [slice, List.getElem?_take, List.getElem?_drop]

/-- What a window goes on with behind its first `n` bytes. -/
theorem drop_slice (data : Bytes) (offset len n : Nat) :
    (slice data offset len).drop n = slice data (offset + n) (len - n) := by
  simp [slice, List.drop_take]

theorem take_slice (data : Bytes) (offset len n : Nat) :
    (slice data offset len).take n = slice data offset (min n len) := by
  simp [slice, List.take_take]

/-- A window does not reach behind the end of the content. -/
theorem slice_clip (data : Bytes) (offset len : Nat) :
    slice data offset (min len (data.length - offset)) = slice data offset len := by
  rw [Nat.min_comm, ← take_slice]
  apply List.take_of_length_le
  simp only [length_slice]
  omega

/-- Two windows that lie back to back. -/
theorem slice_append_slice (data : Bytes) (offset len more : Nat) :
    slice data offset len ++ slice data (offset + len) more = slice data offset (len + more) := by
  simp only [slice, List.take_add, List.drop_drop]

theorem slice_prefix_slice (data : Bytes) (offset : Nat) {len more : Nat} (h : len ≤ more) :
    slice data offset len <+: slice data offset more := by
  have : slice data offset len = (slice data offset more).take len := by
    rw [take_slice, Nat.min_eq_left h]
  rw [this]
  apply List.take_prefix

@[simp] theorem slice_self (data : Bytes) : slice data 0 data.length = data := by
  simp [slice]

/-- A beginning of a window, continued by a beginning of what comes next. -/
theorem append_prefix_slice {data front chunk : Bytes} {offset len : Nat}
    (hfront : front <+: slice data offset len)
    (hchunk : chunk <+: slice data (offset + front.length) (len - front.length)) :
    front ++ chunk <+: slice data offset len := by
  obtain ⟨back, hback⟩ := hfront
  have hdrop : (slice data offset len).drop front.length = back := by
    rw [← hback]
    simp
  rw [← drop_slice, hdrop] at hchunk
  rw [← hback]
  exact (List.prefix_append_right_inj front).mpr hchunk

/-- The part of a beginning of a window that lies between two marks. -/
theorem slice_prefix_of_prefix {block data : Bytes} (h : block <+: data) (offset len : Nat) :
    slice block offset len <+: slice data offset len := by
  obtain ⟨rest, rfl⟩ := h
  simp only [slice, List.drop_append, List.take_append]
  apply List.prefix_append

/-! ### Windows that have to be complete -/

/-- The window of a read that needs all of its bytes. -/
def complete? (data : Bytes) (offset len : Nat) : Option Bytes :=
  if (slice data offset len).length = len then some (slice data offset len) else none

theorem wordAt?_eq (width : Nat) (data : Bytes) (offset : Nat) :
    wordAt? width data offset = (complete? data offset width).map leNat := by
  rw [wordAt?, complete?, apply_ite (Option.map leNat)]
  rfl

theorem complete?_of_le {data : Bytes} {offset len : Nat} (h : offset + len ≤ data.length) :
    complete? data offset len = some (slice data offset len) := by
  rw [complete?, if_pos]
  rw [length_slice]
  omega

theorem complete?_of_lt {data : Bytes} {offset len : Nat} (h : data.length < offset + len)
    (hlen : len ≠ 0) : complete? data offset len = none := by
  rw [complete?, if_neg]
  rw [length_slice]
  omega

/-- A window of a window. -/
theorem slice_slice (data : Bytes) {offset len start more : Nat} (h : start + more ≤ len) :
    slice (slice data offset len) start more = slice data (offset + start) more := by
  rw [slice, drop_slice, take_slice]
  congr 1
  omega

/-! ### Parts of a content -/

/-- A part stands at an offset of a content, whatever is in front of it and behind it. -/
def HasAt (data : Bytes) (offset : Nat) (part : Bytes) : Prop :=
  ∃ front rest, data = front ++ (part ++ rest) ∧ front.length = offset

namespace HasAt

variable {data part more : Bytes} {offset : Nat}

theorem left (h : data.HasAt offset (part ++ more)) : data.HasAt offset part := by
  obtain ⟨front, rest, rfl, rfl⟩ := h
  exact ⟨front, more ++ rest, by rw [List.append_assoc], rfl⟩

theorem right (h : data.HasAt offset (part ++ more)) :
    data.HasAt (offset + part.length) more := by
  obtain ⟨front, rest, rfl, rfl⟩ := h
  exact ⟨front ++ part, rest, by simp, List.length_append⟩

theorem slice_eq (h : data.HasAt offset part) : slice data offset part.length = part := by
  obtain ⟨front, rest, rfl, rfl⟩ := h
  exact slice_append front part rest

theorem le_length (h : data.HasAt offset part) : offset + part.length ≤ data.length := by
  obtain ⟨front, rest, rfl, rfl⟩ := h
  simp only [List.length_append]
  omega

theorem drop_eq (h : data.HasAt offset part) : ∃ rest, data.drop offset = part ++ rest := by
  obtain ⟨front, rest, rfl, rfl⟩ := h
  exact ⟨rest, List.drop_left⟩

/-- A word that stands somewhere is read there. -/
theorem wordAt?_eq {width n : Nat} (h : data.HasAt offset (ofNatLE width n))
    (hn : n < Nat.pow 256 width) : wordAt? width data offset = some n := by
  obtain ⟨front, rest, rfl, rfl⟩ := h
  exact wordAt?_append front rest hn

end HasAt

end PspBoot.Bytes
