import PspBoot.Image.Identify
import PspBoot.Image.ParameterFile.Layout
import PspBoot.Proofs.Image.ContainerLayout
import PspBoot.Proofs.Source.Content
import Mathlib.Data.List.Infix

/-!
# What containers are identified as

`Container.kind` tells the kind of a container from its bytes and its path: the category of its
parameter file counts first, then the first bytes of its data archive, then the directory it lies
in.  A source that presents a content is always identified as something, and as `Container.kind`
says if the content begins like a container (`Source.Presents.identify_file`), however the rest of
it has been cut or damaged.
-/

namespace PspBoot

namespace Signature

theorem ofHead?_slice {content : Bytes} :
    ofHead? (Bytes.slice content 0 4) = some .container ↔ containerHead <+: content := by
  rw [ofHead?_eq_container]
  constructor
  · intro h
    exact h.trans (List.take_prefix 4 content)
  · intro h
    exact List.prefix_take_iff.mpr ⟨h, Nat.le_refl 4⟩

/-- A content that begins like a container is no recorded trace. -/
theorem complete?_ne_traceHead {content : Bytes} (hhead : containerHead <+: content) :
    Bytes.complete? content 0 8 ≠ some traceHead := by
  intro h
  obtain ⟨rest, rfl⟩ := hhead
  rw [Bytes.complete?] at h
  split at h
  · cases Option.some.inj h
  · cases h

end Signature

namespace Container

/-- The 32-bit word at an offset of a content, or zero if the content ends before it does. -/
def word (content : Bytes) (offset : Nat) : Nat :=
  (Bytes.wordAt? 4 content offset).getD 0

/-- The parameter file of a container.  The header has to be complete, and the file has to lie
behind it, inside the content, and be neither empty nor longer than 1 MiB. -/
def parameters? (content : Bytes) : Option Bytes :=
  let start := word content 8
  let stop := word content 12
  if 40 ≤ content.length ∧ 40 ≤ start ∧ start ≤ stop ∧ stop ≤ content.length ∧
      0 < stop - start ∧ stop - start ≤ 1024 * 1024 then
    some (Bytes.slice content start (stop - start))
  else
    none

/-- The category that the parameter file of a container gives it. -/
def category? (content : Bytes) : Option (List Char) := do
  let file ← ParameterFile.parse? (← parameters? content)
  file.text? "CATEGORY"

/-- The first four bytes of the data archive of a container. -/
def archiveHead (content : Bytes) : Bytes :=
  Bytes.slice content (word content 0x24) 4

/-- The kind of a container.  The marks of the archive are `NPUM` and `PSIS`. -/
def kind (locator : Locator) (content : Bytes) : ImageKind :=
  if category? content = some "ME".toList then
    .ps1Game
  else if archiveHead content = [0x4E, 0x50, 0x55, 0x4D] then
    .disc .storeImage
  else if archiveHead content = [0x50, 0x53, 0x49, 0x53] then
    .ps1Game
  else if "PSP/GAME/".toList <:+: Path.normalized locator.path.toList then
    .installedGame
  else
    .container

theorem word_lt (content : Bytes) (offset : Nat) : word content offset < UInt32.size := by
  rw [word, Bytes.wordAt?]
  split
  · next hcomplete =>
    have hlt := Bytes.leNat_lt (Bytes.slice content offset 4)
    rw [hcomplete] at hlt
    exact hlt
  · exact Nat.zero_lt_succ _

/-- A word that is not cut off is made up of its bytes. -/
theorem word_of_le {content : Bytes} {offset : Nat} (h : offset + 4 ≤ content.length) :
    word content offset = Bytes.leNat (Bytes.slice content offset 4) := by
  rw [word, Bytes.wordAt?_eq, Bytes.complete?_of_le h]
  rfl

/-- Only the four bytes of an archive's head decide whether it is there. -/
theorem complete?_eq_some_iff {content mark : Bytes} {offset : Nat} (hmark : mark.length = 4) :
    Bytes.complete? content offset 4 = some mark ↔ Bytes.slice content offset 4 = mark := by
  rw [Bytes.complete?]
  constructor
  · intro h
    split at h
    · exact Option.some.inj h
    · cases h
  · rintro rfl
    rw [if_pos hmark]

/-! ### The header -/

/-- A word of the header is a word of the content. -/
theorem toNat_wordAt {content : Bytes} {offset : Nat} (h : offset + 4 ≤ ContainerHeader.size)
    (hlength : ContainerHeader.size ≤ content.length) :
    (ContainerHeader.wordAt (Bytes.slice content 0 ContainerHeader.size) offset).toNat =
      word content offset := by
  have hlt := word_lt content offset
  rw [word_of_le (Nat.le_trans h hlength)] at hlt ⊢
  rw [ContainerHeader.wordAt, Bytes.slice_slice content h, Nat.zero_add]
  exact Nat.mod_eq_of_lt hlt

/-- The header of a content that begins like a container and does not end inside the header. -/
theorem decode?_slice {content : Bytes} (hhead : Signature.containerHead <+: content)
    (hlength : ContainerHeader.size ≤ content.length) :
    ∃ header, ContainerHeader.decode? (Bytes.slice content 0 ContainerHeader.size) = some header ∧
      header.version.toNat = word content 4 ∧
      ∀ i : Fin 8, header.offsets[i].toNat = word content (8 + 4 * i.val) := by
  have htake : (Bytes.slice content 0 ContainerHeader.size).take 4 = Signature.containerHead := by
    rw [Bytes.take_slice]
    exact (List.prefix_iff_eq_take.mp hhead).symm
  have hraw : (Bytes.slice content 0 ContainerHeader.size).length = ContainerHeader.size := by
    rw [Bytes.length_slice]
    omega
  refine ⟨_, if_pos ⟨hraw, htake⟩, toNat_wordAt (by decide) hlength, fun i => ?_⟩
  have hword : 8 + 4 * i.val + 4 ≤ ContainerHeader.size := by
    have := i.isLt
    simp only [ContainerHeader.size]
    omega
  rw [Fin.getElem_fin, Vector.getElem_ofFn]
  exact toNat_wordAt hword hlength

/-- The parameter file lies between the first two offsets of the header. -/
theorem span?_parameters (header : ContainerHeader) (size : Nat) :
    header.span? .parameters size =
      if ContainerHeader.size ≤ header.offsets[(0 : Fin 8)].toNat ∧
          header.offsets[(0 : Fin 8)].toNat ≤ header.offsets[(1 : Fin 8)].toNat ∧
          header.offsets[(1 : Fin 8)].toNat ≤ size then
        some (header.offsets[(0 : Fin 8)].toNat, header.offsets[(1 : Fin 8)].toNat)
      else
        none := rfl

/-! ### Containers that have been written -/

/-- A word that stands in a content is read there. -/
theorem word_eq {content : Bytes} {offset n : Nat} (h : content.HasAt offset (Bytes.ofNatLE 4 n))
    (hn : n < UInt32.size) : word content offset = n := by
  rw [word, h.wordAt?_eq hn, Option.getD_some]

/-- A word of the header that has room for its offset holds it. -/
theorem word_layOut (version : UInt32) (parts : Vector Bytes 8) (i : Fin 8)
    (h : startOf parts i < UInt32.size) :
    word (layOut version parts) (8 + 4 * i) = startOf parts i :=
  word_eq ((hasAt_offset version parts i).extend _) h

/-- **The parameter file that a container was given is found again**, unless it is empty or too
large. -/
theorem parameters?_layOut (version : UInt32) (parts : Vector Bytes 8) (hnonempty : parts[0] ≠ [])
    (hsize : parts[0].length ≤ ContainerHeader.maxPartSize) :
    parameters? (layOut version parts) = some parts[0] := by
  have hsecond : startOf parts (1 : Fin 8) = ContainerHeader.size + parts[0].length :=
    startOf_succ parts 0
  have hheader : ContainerHeader.size = 40 := rfl
  have hmost : ContainerHeader.maxPartSize = 1024 * 1024 := rfl
  have hroom : ContainerHeader.size + ContainerHeader.maxPartSize < UInt32.size := by decide
  have hstart : word (layOut version parts) 8 = ContainerHeader.size :=
    word_layOut version parts 0 (by decide : ContainerHeader.size < UInt32.size)
  have hstop : word (layOut version parts) 12 = ContainerHeader.size + parts[0].length :=
    (word_layOut version parts 1 (by omega)).trans hsecond
  have hplace : (layOut version parts).HasAt ContainerHeader.size parts[0] :=
    hasAt_part version parts 0
  have hlength := hplace.le_length
  have hpositive := List.length_pos_iff.mpr hnonempty
  rw [parameters?, hstart, hstop, if_pos (by omega), Nat.add_sub_cancel_left, hplace.slice_eq]

theorem containerHead_prefix_layOut (version : UInt32) (parts : Vector Bytes 8) :
    Signature.containerHead <+: layOut version parts := by
  rw [layOut, header, List.append_assoc, List.append_assoc]
  exact List.prefix_append _ _

/-- A parameter file that can be parsed is not empty. -/
theorem ne_nil_of_parse? {data : Bytes} {file : ParameterFile}
    (h : ParameterFile.parse? data = some file) : data ≠ [] := by
  rintro rfl
  cases h

/-- **The category counts before anything that the data archive says.** -/
theorem kind_layOut (locator : Locator) (version : UInt32) (parts : Vector Bytes 8)
    {file : ParameterFile} (hparse : ParameterFile.parse? parts[0] = some file)
    (hcategory : file.text? "CATEGORY" = some "ME".toList)
    (hsize : parts[0].length ≤ ContainerHeader.maxPartSize) :
    kind locator (layOut version parts) = .ps1Game := by
  rw [kind, if_pos]
  rw [category?, parameters?_layOut version parts (ne_nil_of_parse? hparse) hsize]
  change (ParameterFile.parse? parts[0]).bind (fun file => file.text? "CATEGORY") = _
  rw [hparse, Option.bind_some, hcategory]

end Container

namespace Source.Presents

variable {σ : Type} {V : σ → Prop} {source : Source σ} {content : Bytes}

theorem readWord (h : source.Presents content V) (offset : Nat) :
    Yields V (source.readWord offset) (UInt32.ofNat (Container.word content offset)) := by
  apply (h.readExactly offset 4).bind
  rw [Container.word, Bytes.wordAt?_eq]
  cases Bytes.complete? content offset 4 with
  | none => exact .pure 0
  | some data => exact .pure _

theorem part? (h : source.Presents content V) (header : ContainerHeader) (part : ContainerPart) :
    Yields V (header.part? source part)
      ((header.span? part content.length).bind fun span =>
        if span.2 = span.1 ∨ ContainerHeader.maxPartSize < span.2 - span.1 then none
        else Bytes.complete? content span.1 (span.2 - span.1)) := by
  apply h.size.bind
  cases header.span? part content.length with
  | none => exact .pure none
  | some span => exact .ite Iff.rfl (.pure none) (h.readExactly _ _)

/-- The parameter file is read as it stands in the content. -/
theorem parameters? (h : source.Presents content V) {header : ContainerHeader}
    (hlength : ContainerHeader.size ≤ content.length)
    (hoffsets : ∀ i : Fin 8, header.offsets[i].toNat = Container.word content (8 + 4 * i.val)) :
    Yields V (header.part? source .parameters) (Container.parameters? content) := by
  have hheader : ContainerHeader.size = 40 := rfl
  have hmost : ContainerHeader.maxPartSize = 1024 * 1024 := rfl
  have hpart := h.part? header .parameters
  have hstart : header.offsets[(0 : Fin 8)].toNat = Container.word content 8 := hoffsets 0
  have hstop : header.offsets[(1 : Fin 8)].toNat = Container.word content 12 := hoffsets 1
  rw [Container.span?_parameters, hstart, hstop] at hpart
  convert hpart using 1
  unfold Container.parameters?
  dsimp only
  by_cases hplace : ContainerHeader.size ≤ Container.word content 8 ∧
      Container.word content 8 ≤ Container.word content 12 ∧
        Container.word content 12 ≤ content.length
  · rw [if_pos hplace, Option.bind_some]
    dsimp only
    by_cases hrefused : Container.word content 12 = Container.word content 8 ∨
        ContainerHeader.maxPartSize < Container.word content 12 - Container.word content 8
    · rw [if_pos hrefused, if_neg]
      omega
    · rw [if_neg hrefused, if_pos (by omega), Bytes.complete?_of_le (by omega)]
  · rw [if_neg hplace, if_neg fun hall => hplace ⟨hall.2.1, hall.2.2.1, hall.2.2.2.1⟩]
    rfl

theorem read? (h : source.Presents content V) :
    Yields V (ContainerHeader.read? source)
      ((Bytes.complete? content 0 ContainerHeader.size).bind ContainerHeader.decode?) :=
  (h.readExactly 0 ContainerHeader.size).bind (.pure _)

/-- A content that begins like a container tells its category, if it has one. -/
theorem hasPs1Category (h : source.Presents content V)
    (hhead : Signature.containerHead <+: content) :
    Yields V (Identify.hasPs1Category source)
      (decide (Container.category? content = some Identify.ps1Mark.toList)) := by
  have hread := h.read?
  by_cases hlength : ContainerHeader.size ≤ content.length
  · obtain ⟨header, hdecode, -, hoffsets⟩ := Container.decode?_slice hhead hlength
    rw [Bytes.complete?_of_le (by omega), Option.bind_some, hdecode] at hread
    apply hread.bind
    apply (h.parameters? hlength hoffsets).bind
    generalize hcategory : Container.category? content = category
    rw [Container.category?] at hcategory
    cases hblob : Container.parameters? content with
    | none =>
      rw [hblob] at hcategory
      subst hcategory
      exact .pure false
    | some blob =>
      rw [hblob] at hcategory
      dsimp only
      cases hfile : ParameterFile.parse? blob with
      | none =>
        obtain rfl : none = category := by simpa [hfile] using hcategory
        exact .pure false
      | some file =>
        obtain rfl : file.text? "CATEGORY" = category := by simpa [hfile] using hcategory
        exact .pure _
  · have hnone : Container.category? content = none := by
      rw [Container.category?, Container.parameters?, if_neg fun hall => hlength hall.1]
      rfl
    rw [Bytes.complete?_of_lt (by omega) (by decide), Option.bind_none] at hread
    rw [hnone]
    exact hread.bind (.pure _)

/-- **A container is of the kind that its bytes and its path say.** -/
theorem container (h : source.Presents content V)
    (hhead : Signature.containerHead <+: content) :
    Yields V (Identify.container source) (Container.kind source.locator content) := by
  apply (h.hasPs1Category hhead).bind
  refine .ite decide_eq_true_iff (.pure _) ?_
  apply (h.readWord ContainerHeader.archivePointer).bind
  have hoffset : (UInt32.ofNat (Container.word content ContainerHeader.archivePointer)).toNat =
      Container.word content ContainerHeader.archivePointer :=
    Nat.mod_eq_of_lt (Container.word_lt _ _)
  rw [hoffset]
  apply (h.readExactly _ 4).bind
  refine .ite (Container.complete?_eq_some_iff rfl) (.pure _) ?_
  refine .ite (Container.complete?_eq_some_iff rfl) (.pure _) ?_
  exact .ite Text.occursIn_iff (.pure _) (.pure _)

/-- A file is of a kind whatever it begins with; a container is of the kind that its bytes and its
path say. -/
theorem byHead (h : source.Presents content V) :
    ∃ kind, Yields V (Identify.byHead source (Bytes.slice content 0 4)) kind ∧
      (Signature.containerHead <+: content → kind = Container.kind source.locator content) := by
  unfold Identify.byHead
  by_cases hhead : Signature.containerHead <+: content
  · refine ⟨_, ?_, fun _ => rfl⟩
    rw [Signature.ofHead?_slice.mpr hhead]
    exact h.container hhead
  · cases hformat : Signature.ofHead? (Bytes.slice content 0 4) with
    | none => exact ⟨_, .pure _, fun hcontainer => absurd hcontainer hhead⟩
    | some format =>
      cases format with
      | zip | rar | executable => exact ⟨_, .pure _, fun hcontainer => absurd hcontainer hhead⟩
      | container => exact absurd (Signature.ofHead?_slice.mp hformat) hhead

/-- The first bytes of a file are never missing. -/
theorem byContent (h : source.Presents content V) :
    ∃ result, Yields V (Identify.byContent source) result ∧ ∃ kind, result = .ok kind ∧
      (Signature.containerHead <+: content → kind = Container.kind source.locator content) := by
  obtain ⟨kind, hyields, hkind⟩ := h.byHead
  apply h.isDirectory.exists_bind
  rw [if_neg Bool.false_ne_true]
  apply (h.readAt 0 4).exists_bind
  apply h.size.exists_bind
  have hall : ¬ (Bytes.slice content 0 4).length < min content.length 4 := by
    rw [Bytes.length_slice]
    omega
  rw [if_neg hall]
  exact ⟨.ok kind, hyields.bind (.pure _), kind, rfl, hkind⟩

theorem discFile (h : source.Presents content V) :
    Yields V (Identify.discFile source)
      (if content.length > 0 ∧ content.length % Signature.sectorSize = 0 then
        if Bytes.complete? content 0 12 = some Signature.sectorSync then .rawDisc else .disc .image
      else .disc .image) :=
  h.size.bind (.ite Iff.rfl ((h.readExactly 0 12).bind (.ite Iff.rfl (.pure _) (.pure _)))
    (.pure _))

/-- The kind of a file.  The three extensions decide by themselves. -/
theorem identify_kind (h : source.Presents content V) (hpath : source.locator.isEmpty = false) :
    ∃ result, Yields V (identify source) result ∧ ∃ kind, result = .ok kind ∧
      (source.locator.extension ∉ [".iso", ".cso", ".ppst"] →
        Signature.containerHead <+: content → kind = Container.kind source.locator content) := by
  unfold identify
  rw [hpath, if_neg Bool.false_ne_true]
  apply h.isPresent.exists_bind
  rw [Bool.not_true, if_neg Bool.false_ne_true]
  obtain ⟨_, hcontent, kind, rfl, hkind⟩ := h.byContent
  split
  · next hextension =>
    exact ⟨_, h.discFile.bind (.pure _), _, rfl, fun hopen => absurd (by simp [hextension]) hopen⟩
  · next hextension => exact ⟨_, .pure _, _, rfl, fun hopen => absurd (by simp [hextension]) hopen⟩
  · next hextension => exact ⟨_, .pure _, _, rfl, fun hopen => absurd (by simp [hextension]) hopen⟩
  · apply (h.readExactly 0 8).exists_bind
    split
    · next htrace =>
      refine ⟨_, .pure _, _, rfl, fun _ hhead => absurd htrace ?_⟩
      exact Signature.complete?_ne_traceHead hhead
    · exact ⟨_, hcontent, kind, rfl, fun _ => hkind⟩
  · exact ⟨_, hcontent, kind, rfl, fun _ => hkind⟩

/-- **Every file is identified, and containers by their contents.**  A file that is there and can
be read is of some kind, however short or malformed it is.  If it begins like a container, and
has no extension that decides by itself, then it is of the kind that `Container.kind` says; so a
container that was written with a parameter file of the preceding console generation is a game of
that generation, whatever its data archive begins with. -/
theorem identify_file (h : source.Presents content V) (hpath : source.locator.isEmpty = false) :
    ∃ kind, Yields V (identify source) (.ok kind) ∧
      (source.locator.extension ∉ [".iso", ".cso", ".ppst"] →
        ([0x00, 0x50, 0x42, 0x50] <+: content → kind = Container.kind source.locator content) ∧
        ∀ version parts file, content = Container.layOut version parts →
          ParameterFile.parse? parts[0] = some file →
          file.text? "CATEGORY" = some "ME".toList → parts[0].length ≤ 1024 * 1024 →
            kind = .ps1Game) := by
  obtain ⟨_, hyields, kind, rfl, hkind⟩ := h.identify_kind hpath
  refine ⟨kind, hyields, fun hextension => ⟨hkind hextension, ?_⟩⟩
  rintro version parts file rfl hparse hcategory hsize
  rw [hkind hextension (Container.containerHead_prefix_layOut version parts)]
  exact Container.kind_layOut source.locator version parts hparse hcategory hsize

/-- A game of the preceding generation whose data archive begins like that of a disc from the
store. -/
theorem identify_file_store_archive :
    let parameters := ParameterFile.layOut 0x101
      [{ key := "CATEGORY".toList, value := .text "ME".toList }]
    let content := Container.layOut 0x10000
      #v[parameters, [], [], [], [], [], [], [0x4E, 0x50, 0x55, 0x4D]]
    (identify (Source.ofContent (.ofPath "game.pbp") content) ()).1 = .ok .ps1Game := by
  intro parameters content
  obtain ⟨kind, hyields, hkind⟩ :=
    (presents_ofContent (.ofPath "game.pbp") content).identify_file (by decide)
  have hparse : (ParameterFile.parse? parameters).bind (·.text? "CATEGORY") =
      some "ME".toList := by
    decide +kernel
  obtain ⟨file, hfile, hcategory⟩ := Option.bind_eq_some_iff.mp hparse
  rw [(hyields () trivial).1,
    (hkind (by decide)).2 0x10000 _ file rfl hfile hcategory (by decide)]

end Source.Presents

end PspBoot
