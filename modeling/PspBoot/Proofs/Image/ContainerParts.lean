import PspBoot.Proofs.Image.Container
import PspBoot.Proofs.Image.ContainerLayout
import PspBoot.Proofs.Source.Recorded

/-!
# Reading the parts of a container

Three things are shown about `ContainerHeader.part?`.  It reads back what was written: from a source that
presents a container, each part comes as it was given, unless it is empty or too large.  It is safe: the
offsets of the header may be anything, and so may the source, and yet whatever is delivered came from a
single read of the right length behind the header and inside the file.  And if all parts have a place,
these places lie back to back up to the end of the file.
-/

namespace PspBoot

namespace Source

variable {σ : Type}

/-- A read that needs all of its bytes is recorded as one read. -/
theorem readExactly_recorded (source : Source σ) (offset len : Nat) (log : List SourceRead) (s : σ) :
    source.recorded.readExactly offset len (log, s) =
      ((source.readExactly offset len s).1,
        log ++ [{ offset, len, data := (source.readAt offset len s).1 }],
        (source.readExactly offset len s).2) := rfl

theorem readExactly_eq_some_iff {source : Source σ} {offset len : Nat} {s : σ} {data : Bytes} :
    (source.readExactly offset len s).1 = some data ↔
      (source.readAt offset len s).1 = data ∧ data.length = len := by
  rw [readExactly, run_bind, run_pure]
  dsimp only
  constructor
  · intro h
    split at h
    · next hlength =>
      obtain rfl := Option.some.inj h
      exact ⟨rfl, hlength⟩
    · cases h
  · rintro ⟨rfl, hlength⟩
    exact if_pos hlength

end Source

namespace ContainerHeader

variable {σ : Type}

/-! ### Places -/

/-- The offset that the header gives the part of a number. -/
def offsetAt (header : ContainerHeader) (i : Fin 8) : Nat :=
  (header.offsets.get i).toNat

/-- The bounds that a header gives a part in a file of some size. -/
def bounds (header : ContainerHeader) (fileSize : Nat) (part : ContainerPart) : Nat × Nat :=
  (header.offsetAt part.index, header.offsets[part.index.val + 1]?.elim fileSize UInt32.toNat)

theorem span?_eq_ite (header : ContainerHeader) (part : ContainerPart) (fileSize : Nat) :
    header.span? part fileSize =
      if size ≤ (header.bounds fileSize part).1 ∧
          (header.bounds fileSize part).1 ≤ (header.bounds fileSize part).2 ∧
          (header.bounds fileSize part).2 ≤ fileSize then
        some (header.bounds fileSize part)
      else
        none := by
  rw [span?, bounds]
  cases header.offsets[part.index.val + 1]? with
  | none | some => rfl

theorem span?_eq_some_iff {header : ContainerHeader} {part : ContainerPart} {fileSize : Nat}
    {span : Nat × Nat} :
    header.span? part fileSize = some span ↔
      span = header.bounds fileSize part ∧ size ≤ span.1 ∧ span.1 ≤ span.2 ∧ span.2 ≤ fileSize := by
  rw [span?_eq_ite]
  generalize header.bounds fileSize part = bounds
  constructor
  · intro h
    split at h
    · next hinside =>
      obtain rfl := Option.some.inj h
      exact ⟨rfl, hinside⟩
    · cases h
  · rintro ⟨rfl, hinside⟩
    exact if_pos hinside

/-! ### Containers that have been written -/

/-- Each part has its place between its own offset and the next. -/
theorem span?_of_startOf {header : ContainerHeader} {parts : Vector Bytes 8}
    (h : ∀ i, header.offsetAt i = Container.startOf parts i)
    (part : ContainerPart) :
    header.span? part (Container.startOf parts 8) =
      some (Container.startOf parts part.index, Container.startOf parts (part.index + 1)) := by
  have hstop : (header.bounds (Container.startOf parts 8) part).2 =
      Container.startOf parts (part.index + 1) := by
    rw [bounds]
    -- Only the last part ends with the file.
    by_cases hlast : part.index.val + 1 < 8
    · rw [Vector.getElem?_eq_getElem hlast]
      exact h ⟨part.index.val + 1, hlast⟩
    · rw [Vector.getElem?_eq_none (Nat.le_of_not_lt hlast)]
      have hindex : part.index.val + 1 = 8 := by omega
      exact congrArg (Container.startOf parts) hindex.symm
  refine span?_eq_some_iff.mpr ⟨(Prod.ext (h part.index) hstop).symm, ?_, ?_, ?_⟩
  · exact Container.startOf_mono parts (Nat.zero_le part.index)
  · exact Container.startOf_mono parts (Nat.le_add_right part.index 1)
  · exact Container.startOf_mono parts part.index.isLt

/-! ### Safety -/

/-- The bytes of a part come from behind the header and from inside the file, and they are neither none
nor too many. -/
structure Placed (fileSize start : Nat) (data : Bytes) : Prop where
  behind : size ≤ start
  inside : start + data.length ≤ fileSize
  nonempty : 1 ≤ data.length
  bounded : data.length ≤ maxPartSize

theorem run_part? (header : ContainerHeader) (source : Source σ) (part : ContainerPart) (s : σ) :
    header.part? source part s =
      match header.span? part (source.size s).1 with
      | none => (none, (source.size s).2)
      | some (start, stop) =>
          if stop = start ∨ maxPartSize < stop - start then
            (none, (source.size s).2)
          else
            source.readExactly start (stop - start) (source.size s).2 := by
  rw [part?, run_bind]
  cases header.span? part (source.size s).1 with
  | none => rfl
  | some span => exact run_ite ..

/-- **A part that is delivered came from one read**, whatever the header says and whatever the source
is. -/
theorem part?_recorded (header : ContainerHeader) (source : Source σ) (part : ContainerPart)
    (log : List SourceRead) (s : σ) {data : Bytes}
    (h : (header.part? source part s).1 = some data) :
    ∃ start, Placed (source.size s).1 start data ∧
      header.part? source.recorded part (log, s) =
        (some data, log ++ [{ offset := start, len := data.length, data }],
          (header.part? source part s).2) := by
  have hsize : source.recorded.size (log, s) = ((source.size s).1, log, (source.size s).2) := rfl
  rw [run_part?] at h
  rw [run_part?, run_part? header source, hsize]
  cases hspan : header.span? part (source.size s).1 with
  | none =>
    rw [hspan] at h
    cases h
  | some span =>
    obtain ⟨start, stop⟩ := span
    obtain ⟨-, hbehind, horder, hinside⟩ := span?_eq_some_iff.mp hspan
    rw [hspan] at h
    dsimp only at h hbehind horder hinside ⊢
    split at h
    · cases h
    · next hsane =>
      obtain ⟨hdata, hlength⟩ := Source.readExactly_eq_some_iff.mp h
      rw [if_neg hsane, if_neg hsane, Source.readExactly_recorded, h, hdata, ← hlength]
      exact ⟨start, ⟨hbehind, by omega, by omega, by omega⟩, rfl⟩

/-! ### Places back to back -/

/-- Spans that lie back to back from one offset to another. -/
inductive Tiles : Nat → List (Nat × Nat) → Nat → Prop where
  | nil (offset : Nat) : Tiles offset [] offset
  | cons {start stop last : Nat} {spans : List (Nat × Nat)} (h : start ≤ stop)
      (rest : Tiles stop spans last) : Tiles start ((start, stop) :: spans) last

theorem Tiles.le {first last : Nat} {spans : List (Nat × Nat)} (h : Tiles first spans last) :
    first ≤ last := by
  induction h with
  | nil => exact Nat.le_refl _
  | cons h _ ih => exact Nat.le_trans h ih

/-- Spans that lie back to back cover every offset in between once, in ascending order. -/
theorem Tiles.flatMap_eq {first last : Nat} {spans : List (Nat × Nat)} (h : Tiles first spans last) :
    spans.flatMap (fun span => List.range' span.1 (span.2 - span.1)) =
      List.range' first (last - first) := by
  induction h with
  | nil offset => rw [List.flatMap_nil, Nat.sub_self, List.range'_zero]
  | @cons start stop last spans h rest ih =>
    have hrest := rest.le
    rw [List.flatMap_cons, ih, ← Nat.sub_add_sub_cancel hrest h, Nat.add_comm (last - stop),
      ← List.range'_append_1, Nat.add_sub_cancel' h]

/-- Where all of some parts have a place, these are the places that the header gives. -/
theorem bounds_of_mapM {header : ContainerHeader} {fileSize : Nat} {parts : List ContainerPart}
    {spans : List (Nat × Nat)}
    (h : parts.mapM (fun part => header.span? part fileSize) = some spans) :
    spans = parts.map (header.bounds fileSize) ∧
      ∀ part ∈ parts, (header.bounds fileSize part).1 ≤ (header.bounds fileSize part).2 := by
  induction parts generalizing spans with
  | nil =>
    obtain rfl : [] = spans := Option.some.inj h
    exact ⟨rfl, nofun⟩
  | cons part parts ih =>
    rw [List.mapM_cons] at h
    obtain ⟨span, hspan, h⟩ := Option.bind_eq_some_iff.mp h
    obtain ⟨rest, hrest, h⟩ := Option.bind_eq_some_iff.mp h
    obtain ⟨rfl, -, hle, -⟩ := span?_eq_some_iff.mp hspan
    obtain ⟨rfl, hall⟩ := ih hrest
    obtain rfl := Option.some.inj h
    exact ⟨rfl, List.forall_mem_cons.mpr ⟨hle, hall⟩⟩

/-- **If all parts have a place, they lie back to back** from the first offset to the end of the file. -/
theorem tiles_of_mapM {header : ContainerHeader} {fileSize : Nat} {spans : List (Nat × Nat)}
    (h : ContainerPart.all.mapM (fun part => header.span? part fileSize) = some spans) :
    Tiles (header.offsetAt 0) spans fileSize := by
  obtain ⟨rfl, hle⟩ := bounds_of_mapM h
  have hordered (part : ContainerPart) :
      (header.bounds fileSize part).1 ≤ (header.bounds fileSize part).2 :=
    hle part (by cases part <;> decide)
  -- Where a part ends is by definition where the next one begins.
  exact .cons (hordered .parameters) <| .cons (hordered .icon) <| .cons (hordered .movingIcon) <|
    .cons (hordered .overlay) <| .cons (hordered .background) <| .cons (hordered .sound) <|
    .cons (hordered .program) <| .cons (hordered .archive) <| .nil fileSize

end ContainerHeader

/-! ### What was written is read back -/

namespace Source.Presents

variable {σ : Type} {V : σ → Prop} {source : Source σ} {content : Bytes}

/-- A part is read back as it was given, unless it is empty or too large. -/
theorem part?_layOut {version : UInt32} {parts : Vector Bytes 8} {header : ContainerHeader}
    (h : source.Presents (Container.layOut version parts) V)
    (hoffsets : ∀ i, header.offsetAt i = Container.startOf parts i)
    (part : ContainerPart) :
    Yields V (header.part? source part)
      (if 1 ≤ (parts.get part.index).length ∧
          (parts.get part.index).length ≤ ContainerHeader.maxPartSize then
        some (parts.get part.index)
      else none) := by
  have hpart := h.part? header part
  have hplace := Container.hasAt_part version parts part.index
  have hnext := Container.startOf_succ parts part.index
  rw [← Container.startOf_eight, ContainerHeader.span?_of_startOf hoffsets, Option.bind_some,
    hnext] at hpart
  dsimp only at hpart
  rw [Nat.add_sub_cancel_left, Bytes.complete?_of_le hplace.le_length, hplace.slice_eq] at hpart
  split
  · next hsane => rwa [if_neg (by omega)] at hpart
  · next hinsane => rwa [if_pos (by omega)] at hpart

/-- **A container that was written is read back**: its version, and all of its parts that are neither
empty nor too large. -/
theorem read_layOut {version : UInt32} {parts : Vector Bytes 8}
    (h : source.Presents (Container.layOut version parts) V)
    (hlength : parts.toList.flatten.length < UInt32.size - ContainerHeader.size) :
    ∃ header : ContainerHeader, header.version = version ∧
      Yields V (ContainerHeader.read? source) (some header) ∧
      ∀ part, Yields V (header.part? source part)
        (if 1 ≤ (parts.get part.index).length ∧
            (parts.get part.index).length ≤ ContainerHeader.maxPartSize then
          some (parts.get part.index)
        else none) := by
  have hhead := Container.containerHead_prefix_layOut version parts
  have hend := Container.startOf_eight version parts
  have htotal : Container.startOf parts 8 < UInt32.size := by
    rw [hend, Container.layOut, List.length_append, Container.length_header]
    omega
  have hlong : ContainerHeader.size ≤ (Container.layOut version parts).length := by
    rw [← hend]
    exact Container.startOf_mono parts (Nat.zero_le 8)
  obtain ⟨header, hdecode, hversion, hoffsets⟩ := Container.decode?_slice hhead hlong
  have hread := h.read?
  rw [Bytes.complete?_of_le (by omega), Option.bind_some, hdecode] at hread
  refine ⟨header, UInt32.toNat_inj.mp ?_, hread, h.part?_layOut fun i => ?_⟩
  · rw [hversion]
    exact Container.word_eq ((Container.hasAt_version version parts).extend _) version.toNat_lt
  · have hstart := Container.startOf_mono parts (Nat.le_of_lt i.isLt)
    exact (hoffsets i).trans
      (Container.word_layOut version parts i (Nat.lt_of_le_of_lt hstart htotal))

end Source.Presents

namespace ContainerHeader

/-- **The parts of a container are read back, safely, from where they lie.**  From a source that presents
a container, its version is read and every part that is neither empty nor larger than a part may be.
For any header and any source, a part that is delivered came from a single read of its length, behind the
header and inside the file.  And if all eight parts have a place, they lie back to back from the first
offset to the end of the file and cover every offset in between once. -/
theorem read_part_tile {σ : Type} (source : Source σ) :
    (∀ version (parts : Vector Bytes 8) V, source.Presents (Container.layOut version parts) V →
      parts.toList.flatten.length < UInt32.size - size →
        ∃ header : ContainerHeader, header.version = version ∧
          Yields V (read? source) (some header) ∧
          ∀ part, Yields V (header.part? source part)
            (if 1 ≤ (parts.get part.index).length ∧ (parts.get part.index).length ≤ maxPartSize then
              some (parts.get part.index)
            else none)) ∧
    (∀ (header : ContainerHeader) part log s data, (header.part? source part s).1 = some data →
      ∃ start, Placed (source.size s).1 start data ∧
        header.part? source.recorded part (log, s) =
          (some data, log ++ [{ offset := start, len := data.length, data }],
            (header.part? source part s).2)) ∧
    (∀ (header : ContainerHeader) fileSize spans,
      ContainerPart.all.mapM (fun part => header.span? part fileSize) = some spans →
        Tiles (header.offsetAt 0) spans fileSize ∧
          spans.flatMap (fun span => List.range' span.1 (span.2 - span.1)) =
            List.range' (header.offsetAt 0) (fileSize - header.offsetAt 0)) := by
  refine ⟨?_, ?_, ?_⟩
  · intro version parts V h hlength
    exact h.read_layOut hlength
  · intro header part log s data h
    exact part?_recorded header source part log s h
  · intro header fileSize spans h
    exact ⟨tiles_of_mapM h, (tiles_of_mapM h).flatMap_eq⟩

/-- A container with a parameter file of three bytes and a data archive of two. -/
theorem read_part_tile_two_parts :
    let parts : Vector Bytes 8 := #v[[1, 2, 3], [], [], [], [], [], [], [4, 5]]
    let source := Source.ofContent (.ofPath "a.pbp") (Container.layOut 0x10000 parts)
    let header : ContainerHeader :=
      { version := 0x10000, offsets := #v[40, 43, 43, 43, 43, 43, 43, 43] }
    let spans := [(40, 43), (43, 43), (43, 43), (43, 43), (43, 43), (43, 43), (43, 43), (43, 45)]
    (read? source ()).1 = some header ∧
      (header.part? source .parameters ()).1 = some [1, 2, 3] ∧
      (header.part? source .icon ()).1 = none ∧
      (∃ start, (header.part? source.recorded .archive ([], ())).2.1 =
        [{ offset := start, len := 2, data := [4, 5] }]) ∧
      ContainerPart.all.mapM (fun part => header.span? part 45) = some spans ∧
      Tiles 40 spans 45 := by
  intro parts source header spans
  obtain ⟨hback, hsafe, htile⟩ := read_part_tile source
  obtain ⟨found, -, hread, hparts⟩ :=
    hback 0x10000 parts _ (Source.presents_ofContent _ _) (by decide)
  have hheader : (read? source ()).1 = some header := by decide +kernel
  obtain rfl : found = header :=
    Option.some.inj ((hread () trivial).1.symm.trans hheader)
  have harchive : (header.part? source .archive ()).1 = some [4, 5] := (hparts _ () trivial).1
  obtain ⟨start, -, honce⟩ := hsafe header .archive [] () [4, 5] harchive
  have hspans : ContainerPart.all.mapM (fun part => header.span? part 45) = some spans := by
    decide +kernel
  exact ⟨hheader, (hparts .parameters () trivial).1, (hparts .icon () trivial).1,
    ⟨start, congrArg (·.2.1) honce⟩, hspans, (htile header 45 spans hspans).1⟩

end ContainerHeader

end PspBoot
