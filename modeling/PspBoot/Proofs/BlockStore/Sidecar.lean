import PspBoot.BlockStore.Sidecar
import PspBoot.Proofs.Json.Cut
import PspBoot.Proofs.Text.Utf8

/-!
# What a sidecar may be believed for

A sidecar that is accepted for a path and a size was written for that path and that size, and lists
no block that was not listed when it was written (`of_decode?_encode`).  One that breaks off before
its end is not accepted (`decode?_take_encode`).  A set of blocks of the source is read back exactly,
whatever characters the path has (`round_trip`).
-/

namespace PspBoot

namespace Json.Value

/-- What is read back of an array are its items read back. -/
theorem exists_of_mem_readingOfItems {items found : List Value} {item : Value}
    (h : readingOfItems items = some found) (hmem : item ∈ found) :
    ∃ written ∈ items, written.reading = some item := by
  induction items generalizing found with
  | nil =>
    cases h
    cases hmem
  | cons first items ih =>
    obtain ⟨first', hfirst, hmap⟩ := Option.bind_eq_some_iff.mp h
    obtain ⟨rest, hrest, rfl⟩ := Option.map_eq_some_iff.mp hmap
    rcases List.mem_cons.mp hmem with rfl | hmem
    · exact ⟨first, List.mem_cons_self, hfirst⟩
    · obtain ⟨written, hwritten, hreading⟩ := ih hrest hmem
      exact ⟨written, List.mem_cons_of_mem first hwritten, hreading⟩

end Json.Value

namespace BlockStore

/-- An ascending list is the set of its numbers. -/
theorem BlockSet.ofList_eq_self {blocks : BlockSet} (h : blocks.Pairwise (· < ·)) :
    BlockSet.ofList blocks = blocks := by
  induction blocks with
  | nil => rfl
  | cons n blocks ih =>
    obtain ⟨hfirst, hrest⟩ := List.pairwise_cons.mp h
    change insert n (ofList blocks) = n :: blocks
    rw [ih hrest]
    cases blocks with
    | nil => rfl
    | cons m blocks => simp [insert, hfirst m List.mem_cons_self]

namespace Sidecar

open Json

variable {path path' : String} {size written : Nat} {blocks found : BlockSet}

/-- The members of a sidecar as they are read back. -/
theorem reading_toJson {json : Value} (h : (toJson path written blocks).reading = some json) :
    ∃ block items total,
      Value.readingOfItems (blocks.map fun n => .number (.natural n)) = some items ∧
      (Number.natural written).reading = some total ∧
      json = .object
        [ ("block_size".toList, .number block),
          ("blocks".toList, .array items),
          ("locator".toList, .string path.toList),
          ("size".toList, .number total) ] := by
  simp only [toJson, Value.reading, Value.readingOfMembers, Option.map_eq_some_iff,
    Option.bind_eq_some_iff, Option.some.injEq, exists_eq_left'] at h
  obtain ⟨_, ⟨_, ⟨block, -, rfl⟩, _, ⟨_, ⟨items, hitems, rfl⟩, _, ⟨_, ⟨_, ⟨total, htotal, rfl⟩,
    rfl⟩, rfl⟩, rfl⟩, rfl⟩, rfl⟩ := h
  exact ⟨block, items, total, hitems, htotal, rfl⟩

/-- The bytes of a sidecar are those of a text that is read back. -/
theorem decode?_encode :
    decode? path size (encode path' written blocks) =
      ((toJson path' written blocks).reading).bind (ofJson? path size) := by
  have hdepth : (toJson path' written blocks).depth ≤ Value.maxDepth := by
    have hitems : ∀ numbers : List Nat,
        Value.depthOfItems (numbers.map fun n => .number (.natural n)) = 0 := by
      intro numbers
      induction numbers with
      | nil => rfl
      | cons n numbers ih =>
        rw [List.map_cons, Value.depthOfItems, ih]
        rfl
    simp [toJson, Value.depth, Value.depthOfMembers, hitems, Value.maxDepth]
  unfold decode? encode
  rw [Utf8.decode?_encode]
  dsimp only [Option.bind_eq_bind, Option.bind_some]
  rw [Value.parse?_render hdepth]

/-- **A sidecar is only believed for what it was written for.** -/
theorem of_decode?_encode
    (h : decode? path size (encode path' written blocks) = some found) :
    path = path' ∧ size = written ∧ ∀ n ∈ found, n ∈ blocks ∧ n ≤ lastBlock size := by
  rw [decode?_encode] at h
  obtain ⟨json, hreading, hjson⟩ := Option.bind_eq_some_iff.mp h
  obtain ⟨block, items, total, hitems, htotal, rfl⟩ := reading_toJson hreading
  unfold ofJson? at hjson
  split at hjson
  · next hcheck =>
    obtain ⟨hlocator, hsize, -⟩ := hcheck
    have hpath : path'.toList = path.toList := Option.some.inj hlocator
    have hfound : BlockSet.ofList ((items.filterMap Value.natural?).filter (· ≤ lastBlock size)) =
        found := Option.some.inj hjson
    refine ⟨(String.toList_inj.mp hpath).symm, Number.eq_of_natural?_reading htotal hsize, ?_⟩
    intro n hn
    rw [← hfound, BlockSet.mem_ofList, List.mem_filter, List.mem_filterMap] at hn
    obtain ⟨⟨item, hitem, hnatural⟩, hlast⟩ := hn
    obtain ⟨_, hwritten, hread⟩ := Value.exists_of_mem_readingOfItems hitems hitem
    obtain ⟨m, hm, rfl⟩ := List.mem_map.mp hwritten
    obtain ⟨x, hx, rfl⟩ := Option.map_eq_some_iff.mp hread
    obtain rfl := Number.eq_of_natural?_reading hx hnatural
    exact ⟨hm, of_decide_eq_true hlast⟩
  · cases hjson

/-- What the bytes of a sidecar file list, they list for what it was written for. -/
theorem mem_listed_encode {n : Nat} (h : n ∈ listed path size (.ok (encode path' written blocks))) :
    path = path' ∧ size = written ∧ n ∈ blocks ∧ n ≤ lastBlock size := by
  rw [listed] at h
  cases hfound : decode? path size (encode path' written blocks) with
  | none =>
    rw [hfound] at h
    cases h
  | some found =>
    rw [hfound] at h
    obtain ⟨hpath, hsize, hsub⟩ := of_decode?_encode hfound
    exact ⟨hpath, hsize, hsub n h⟩

/-- A sidecar that is written but not to its end is not believed at all. -/
theorem decode?_take_encode {n : Nat} (h : n < (encode path' written blocks).length) :
    decode? path size ((encode path' written blocks).take n) = none := by
  rw [Option.eq_none_iff_forall_ne_some]
  intro found hfound
  obtain ⟨text, htext, hrest⟩ := Option.bind_eq_some_iff.mp hfound
  obtain ⟨json, hjson, -⟩ := Option.bind_eq_some_iff.mp hrest
  obtain ⟨hpart, hwhole⟩ := Utf8.decode?_of_prefix (List.take_prefix _ _) htext
  have hcut : text ≠ (toJson path' written blocks).render := by
    intro heq
    have hlength := congrArg List.length (hwhole heq)
    change ((encode path' written blocks).take n).length = (encode path' written blocks).length
      at hlength
    rw [List.length_take] at hlength
    omega
  rw [Value.parse?_of_cut hpart hcut] at hjson
  cases hjson

/-! ### What was written is read back -/

/-- Numbers that fit 64 bits are read back as they are. -/
theorem readingOfItems_naturals {numbers : List Nat} (h : ∀ n ∈ numbers, n < UInt64.size) :
    Value.readingOfItems (numbers.map fun n => .number (.natural n)) =
      some (numbers.map fun n => .number (.natural n)) := by
  induction numbers with
  | nil => rfl
  | cons n numbers ih =>
    rw [List.forall_mem_cons] at h
    rw [List.map_cons, Value.readingOfItems, Value.reading, Number.reading_natural h.1, ih h.2]
    rfl

theorem natural?_naturals (numbers : List Nat) :
    (numbers.map fun n => Value.number (.natural n)).filterMap Value.natural? = numbers := by
  induction numbers with
  | nil => rfl
  | cons n numbers ih =>
    rw [List.map_cons, List.filterMap_cons]
    exact congrArg (n :: ·) ih

/-- **A sidecar is believed in full for what it was written for**, as long as its size fits 64
bits. -/
theorem decode?_encode_self (hsize : size < UInt64.size)
    (hblocks : ∀ n ∈ blocks, n ≤ lastBlock size) :
    decode? path size (encode path size blocks) = some (BlockSet.ofList blocks) := by
  have hlast : lastBlock size ≤ size := Nat.le_trans (Nat.div_le_self _ _) (Nat.sub_le _ _)
  have hitems := readingOfItems_naturals fun n hn =>
    Nat.lt_of_le_of_lt (Nat.le_trans (hblocks n hn) hlast) hsize
  have hread : (toJson path size blocks).reading = some (toJson path size blocks) := by
    simp only [toJson, Value.reading, Value.readingOfMembers, Number.reading_natural hsize,
      Number.reading_natural (show blockSize < UInt64.size by decide), hitems, Option.map_some,
      Option.bind_some]
  have hkept : blocks.filter (· ≤ lastBlock size) = blocks :=
    List.filter_eq_self.mpr fun n hn => decide_eq_true (hblocks n hn)
  rw [decode?_encode, hread, Option.bind_some, ofJson?, if_pos ⟨rfl, rfl, rfl⟩]
  change some (BlockSet.ofList (((blocks.map fun n => Value.number (.natural n)).filterMap
    Value.natural?).filter (· ≤ lastBlock size))) = _
  rw [natural?_naturals, hkept]

/-- A sidecar file lists the blocks for which it was written. -/
theorem mem_listed_encode_iff {n : Nat} (hsize : size < UInt64.size)
    (hblocks : ∀ n ∈ blocks, n ≤ lastBlock size) :
    n ∈ listed path size (.ok (encode path size blocks)) ↔ n ∈ blocks := by
  rw [listed, decode?_encode_self hsize hblocks]
  exact BlockSet.mem_ofList

/-! ### What is listed at all -/

/-- Whatever stands in a sidecar file, no block behind the end of the source is believed in. -/
theorem le_lastBlock_of_ofJson? {json : Value} (h : ofJson? path size json = some found) :
    ∀ n ∈ found, n ≤ lastBlock size := by
  unfold ofJson? at h
  split at h
  · obtain ⟨items, -, rfl⟩ := Option.map_eq_some_iff.mp h
    intro n hn
    have hkept := (List.mem_filter.mp (BlockSet.mem_ofList.mp hn)).2
    exact of_decide_eq_true hkept
  · cases h

theorem le_lastBlock_of_decode? {data : Bytes} (h : decode? path size data = some found) :
    ∀ n ∈ found, n ≤ lastBlock size := by
  obtain ⟨text, -, htext⟩ := Option.bind_eq_some_iff.mp h
  obtain ⟨json, -, hjson⟩ := Option.bind_eq_some_iff.mp htext
  exact le_lastBlock_of_ofJson? hjson

/-- **The sidecar round trip.**  A set of blocks of a source is read back exactly, for the path and
the size it was written for and for no others; a text in which something else is found lists blocks
of the source only. -/
theorem round_trip :
    (∀ (path : String) (size : Nat) (blocks : BlockSet), size < UInt64.size →
      blocks.Pairwise (· < ·) → (∀ n ∈ blocks, n ≤ lastBlock size) →
      decode? path size (encode path size blocks) = some blocks ∧
        ∀ path' size', path' ≠ path ∨ size' ≠ size →
          decode? path' size' (encode path size blocks) = none) ∧
      ∀ (path : String) (size : Nat) (data : Bytes) (found : BlockSet),
        decode? path size data = some found → ∀ n ∈ found, n ≤ lastBlock size := by
  constructor
  · intro path size blocks hsize hascending hblocks
    constructor
    · rw [decode?_encode_self hsize hblocks, BlockSet.ofList_eq_self hascending]
    · intro path' size' hother
      rw [Option.eq_none_iff_forall_ne_some]
      intro found hfound
      obtain ⟨rfl, rfl, -⟩ := of_decode?_encode hfound
      simp at hother
  · intro path size data found hfound
    exact le_lastBlock_of_decode? hfound

/-- A path full of characters that have to be escaped, and the largest size there is. -/
theorem round_trip_escaped :
    let path := "say \"\\\"\n\u0001 \u00e9 😀"
    let size := UInt64.size - 1
    let blocks : BlockSet := [0, 7, 281474976710655]
    size < UInt64.size ∧ blocks.Pairwise (· < ·) ∧ (∀ n ∈ blocks, n ≤ lastBlock size) ∧
      decode? path size (encode path size blocks) = some blocks ∧
      decode? "say" size (encode path size blocks) = none ∧
      decode? path 65536 (encode path size blocks) = none := by
  intro path size blocks
  have hsize : size < UInt64.size := by decide
  have hascending : blocks.Pairwise (· < ·) := by decide
  have hblocks : ∀ n ∈ blocks, n ≤ lastBlock size := by decide
  obtain ⟨hself, hothers⟩ := round_trip.1 path size blocks hsize hascending hblocks
  exact ⟨hsize, hascending, hblocks, hself, hothers "say" size (.inl (by decide)),
    hothers path 65536 (.inr (by decide))⟩

end Sidecar

end BlockStore

end PspBoot
