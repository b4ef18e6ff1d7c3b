import PspBoot.Image.Identify
import PspBoot.Proofs.Source.Records

/-!
# How much identification reads

Offsets, lengths and sizes that come up in an identification are those of the source and its
content, and may be anything.  And yet it makes few reads, none of them large: `Frugal` bounds the
number of reads, the length of each and their sum, and each function of the identification keeps to
bounds of its own.  A file that is taken for an archive has been read no further than its first
bytes (`reads_identify`).
-/

namespace PspBoot

variable {σ α β : Type}

/-- The place and the length of what was asked for. -/
def SourceRead.span (read : SourceRead) : Nat × Nat :=
  (read.offset, read.len)

/-- How many bytes some reads ask for together, whatever they deliver. -/
def SourceRead.asked : List SourceRead → Nat
  | [] => 0
  | read :: reads => read.len + asked reads

theorem SourceRead.asked_append (reads reads' : List SourceRead) :
    asked (reads ++ reads') = asked reads + asked reads' := by
  induction reads with
  | nil => simp [asked]
  | cons read reads ih => simp [asked, ih, Nat.add_assoc]

/-- At most `count` reads, none of them longer than the largest part of a container, with `total` as
the most that they ask for together. -/
structure Frugal (count total : Nat) (reads : List SourceRead) : Prop where
  count : reads.length ≤ count
  each : ∀ read ∈ reads, read.len ≤ ContainerHeader.maxPartSize
  total : SourceRead.asked reads ≤ total

namespace Frugal

variable {count count' total total' : Nat} {reads reads' : List SourceRead}

theorem nil : Frugal count total [] where
  count := Nat.zero_le count
  each := nofun
  total := Nat.zero_le total

theorem one {offset len : Nat} {data : Bytes} (h : len ≤ ContainerHeader.maxPartSize) :
    Frugal 1 len [⟨offset, len, data⟩] where
  count := Nat.le_refl 1
  each := by simpa using h
  total := Nat.le_refl len

theorem append (h : Frugal count total reads) (h' : Frugal count' total' reads') :
    Frugal (count + count') (total + total') (reads ++ reads') where
  count := by
    rw [List.length_append]
    exact Nat.add_le_add h.count h'.count
  each read hread := (List.mem_append.mp hread).elim (h.each read) (h'.each read)
  total := by
    rw [SourceRead.asked_append]
    exact Nat.add_le_add h.total h'.total

theorem mono (h : Frugal count total reads) (hcount : count ≤ count') (htotal : total ≤ total') :
    Frugal count' total' reads where
  count := Nat.le_trans h.count hcount
  each := h.each
  total := Nat.le_trans h.total htotal

end Frugal

/-- Whatever the state is, the action makes at most `count` reads that ask for at most `total` bytes
together. -/
abbrev Asks (count total : Nat) (recorded : StateM (List SourceRead × σ) α)
    (plain : StateM σ α) : Prop :=
  Records (fun _ => True) recorded plain fun _ reads => Frugal count total reads

namespace Asks

variable {count count' total total' : Nat} {recorded recorded' : StateM (List SourceRead × σ) α}
  {plain plain' : StateM σ α}

theorem pure (a : α) :
    Asks count total (pure a : StateM (List SourceRead × σ) α) (pure a) :=
  Records.pure .nil

/-- What the first of two actions may read comes off what both may read. -/
theorem bind {next' : α → StateM (List SourceRead × σ) β} {next : α → StateM σ β}
    (first : Asks count total recorded plain) (hcount : count ≤ count') (htotal : total ≤ total')
    (second : ∀ a, Asks (count' - count) (total' - total) (next' a) (next a)) :
    Asks count' total' (recorded >>= next') (plain >>= next) := by
  apply Records.bind first
  intro a before hbefore
  apply (second a).imp
  intro b after hafter
  apply (hbefore.append hafter).mono
  · exact Nat.le_of_eq (Nat.add_sub_of_le hcount)
  · exact Nat.le_of_eq (Nat.add_sub_of_le htotal)

theorem ite {p : Prop} [Decidable p] (yes : p → Asks count total recorded plain)
    (no : ¬p → Asks count total recorded' plain') :
    Asks count total (if p then recorded else recorded') (if p then plain else plain') :=
  Records.ite yes no

theorem mono (h : Asks count total recorded plain) (hcount : count ≤ count')
    (htotal : total ≤ total') : Asks count' total' recorded plain :=
  h.imp fun _ _ hreads => hreads.mono hcount htotal

/-- What is no read adds none. -/
theorem silent (action : StateM σ α) : Asks 0 0 (Focus.second.lift action) action :=
  Records.silent fun _ _ => ⟨trivial, .nil⟩

theorem readAt (source : Source σ) (offset : Nat) {len : Nat}
    (hlen : len ≤ ContainerHeader.maxPartSize) :
    Asks 1 len (source.recorded.readAt offset len) (source.readAt offset len) :=
  Records.readAt fun _ _ => ⟨trivial, .one hlen⟩

theorem readExactly (source : Source σ) (offset : Nat) {len : Nat}
    (hlen : len ≤ ContainerHeader.maxPartSize) :
    Asks 1 len (source.recorded.readExactly offset len) (source.readExactly offset len) :=
  (readAt source offset hlen).bind (Nat.le_refl 1) (Nat.le_refl len) fun _ => .pure _

theorem readWord (source : Source σ) (offset : Nat) :
    Asks 1 4 (source.recorded.readWord offset) (source.readWord offset) := by
  apply (readExactly source offset (by decide)).bind (Nat.le_refl 1) (Nat.le_refl 4)
  intro data
  cases data with
  | none | some => exact .pure _

end Asks

namespace Identify

open ContainerHeader (maxPartSize)

/-! ### What each function reads -/

variable (source : Source σ)

/-- Whatever a header says, at most one read of a part is made, and not a large one. -/
theorem asks_part? (header : ContainerHeader) (part : ContainerPart) :
    Asks 1 maxPartSize (header.part? source.recorded part) (header.part? source part) := by
  apply (Asks.silent source.size).bind (Nat.zero_le 1) (Nat.zero_le _)
  intro size
  cases header.span? part size with
  | none => exact .pure none
  | some span =>
    apply Asks.ite
    · exact fun _ => .pure none
    · intro hspan
      have hlen : span.2 - span.1 ≤ maxPartSize := by omega
      exact (Asks.readExactly source span.1 hlen).mono (Nat.le_refl 1) hlen

theorem asks_hasPs1Category :
    Asks 2 (maxPartSize + 40) (hasPs1Category source.recorded) (hasPs1Category source) := by
  have hheader : Asks 1 40 (ContainerHeader.read? source.recorded) (ContainerHeader.read? source) :=
    (Asks.readExactly source 0 (by decide)).bind (Nat.le_refl 1) (Nat.le_refl 40) fun _ => .pure _
  apply hheader.bind (by decide) (by decide)
  intro header
  cases header with
  | none => exact .pure false
  | some header =>
    apply (asks_part? source header .parameters).bind (Nat.le_refl 1) (by decide)
    intro blob
    cases blob with
    | none => exact .pure false
    | some blob =>
      dsimp only
      cases ParameterFile.parse? blob with
      | none | some => exact .pure _

theorem asks_container :
    Asks 4 (maxPartSize + 48) (container source.recorded) (container source) := by
  apply (asks_hasPs1Category source).bind (by decide) (by decide)
  intro isPs1
  apply Asks.ite (fun _ => .pure _)
  intro _
  apply (Asks.readWord source _).bind (by decide) (by decide)
  intro offset
  apply (Asks.readExactly source offset.toNat (by decide)).bind (by decide) (by decide)
  intro tag
  apply Asks.ite (fun _ => .pure _)
  intro _
  apply Asks.ite (fun _ => .pure _)
  intro _
  exact .ite (fun _ => .pure _) fun _ => .pure _

theorem asks_directory : Asks 0 0 (directory source.recorded) (directory source) := by
  have hentry {next : Bool → StateM (List SourceRead × σ) ImageKind}
      {next' : Bool → StateM σ ImageKind} (name : String)
      (hnext : ∀ yes, Asks 0 0 (next yes) (next' yes)) :
      Asks 0 0 (source.recorded.hasEntry name >>= next) (source.hasEntry name >>= next') :=
    (Asks.silent (source.hasEntry name)).bind (Nat.le_refl 0) (Nat.le_refl 0) hnext
  apply Asks.ite (fun _ => .pure _)
  intro _
  apply hentry
  intro hasGame
  apply Asks.ite (fun _ => .pure _)
  intro _
  apply hentry
  intro hasDisc
  apply Asks.ite (fun _ => .pure _)
  intro _
  apply hentry
  intro hasData
  exact .ite (fun _ => .pure _) fun _ => .pure _

theorem asks_discFile : Asks 1 12 (discFile source.recorded) (discFile source) := by
  apply (Asks.silent source.size).bind (Nat.zero_le 1) (Nat.zero_le 12)
  intro size
  apply Asks.ite
  · intro _
    apply (Asks.readExactly source 0 (by decide)).bind (Nat.le_refl 1) (Nat.le_refl 12)
    intro sync
    exact .ite (fun _ => .pure _) fun _ => .pure _
  · exact fun _ => .pure _

/-! ### What is no archive -/

theorem isArchive_directory (s : σ) : (directory source s).1.isArchive = false := by
  simp only [directory, run_ite, run_bind, run_pure, apply_ite Prod.fst,
    apply_ite ImageKind.isArchive]
  simp [ImageKind.isArchive]

theorem isArchive_discFile (s : σ) : (discFile source s).1.isArchive = false := by
  simp only [discFile, run_ite, run_bind, run_pure, apply_ite Prod.fst,
    apply_ite ImageKind.isArchive]
  simp [ImageKind.isArchive]

theorem isArchive_container (s : σ) : (container source s).1.isArchive = false := by
  simp only [container, run_ite, run_bind, run_pure, apply_ite Prod.fst,
    apply_ite ImageKind.isArchive]
  simp [ImageKind.isArchive]

/-! ### What an identification reads -/

/-- A result that was found by few reads, and by these ones alone if it is an archive. -/
structure Examined (count total : Nat) (spans : List (Nat × Nat))
    (result : Except IdentifyError ImageKind) (reads : List SourceRead) : Prop where
  frugal : Frugal count total reads
  archive : ∀ format, result = .ok (.archive format) → reads.map SourceRead.span = spans

/-- A kind that is no archive has been found by few reads. -/
theorem examined_of_asks {count total : Nat} {spans : List (Nat × Nat)}
    {recorded : StateM (List SourceRead × σ) ImageKind} {plain : StateM σ ImageKind}
    (h : Asks count total recorded plain) (hkind : ∀ s, (plain s).1.isArchive = false) :
    Records (fun _ => True) (do pure (.ok (← recorded))) (do pure (.ok (← plain)))
      (Examined count total spans) := by
  have hboth : Records (fun _ => True) recorded plain fun kind reads =>
      Frugal count total reads ∧ kind.isArchive = false := h.and_result fun s _ => hkind s
  apply hboth.bind
  rintro kind reads ⟨hreads, hother⟩
  apply Records.pure
  rw [List.append_nil]
  refine ⟨hreads, ?_⟩
  rintro format ⟨⟩
  cases hother

/-- An archive is told without any read but those that come before. -/
theorem examined_of_no_read {count total : Nat} (kind : ImageKind) :
    Records (fun _ => True) (pure (.ok kind) : StateM (List SourceRead × σ) _) (pure (.ok kind))
      (Examined count total []) :=
  .pure ⟨.nil, fun _ _ => rfl⟩

theorem records_byHead (head : Bytes) :
    Records (fun _ => True) (do pure (.ok (← byHead source.recorded head)))
      (do pure (.ok (← byHead source head))) (Examined 4 (maxPartSize + 48) []) := by
  unfold byHead
  cases Signature.ofHead? head with
  | none => exact examined_of_no_read _
  | some format =>
    cases format with
    | zip | rar | executable => exact examined_of_no_read _
    | container => exact examined_of_asks (asks_container source) (isArchive_container source)

/-- Questions that are no reads leave the account of the reads as it is. -/
theorem examined_behind_question {count total : Nat} {spans : List (Nat × Nat)}
    (action : StateM σ α)
    {next' : α → StateM (List SourceRead × σ) (Except IdentifyError ImageKind)}
    {next : α → StateM σ (Except IdentifyError ImageKind)}
    (second : ∀ a, Records (fun _ => True) (next' a) (next a) (Examined count total spans)) :
    Records (fun _ => True) (Focus.second.lift action >>= next') (action >>= next)
      (Examined count total spans) := by
  have first : Records (fun _ => True) (Focus.second.lift action : StateM (List SourceRead × σ) α)
      action fun _ reads => reads = [] := .silent fun _ _ => ⟨trivial, rfl⟩
  apply first.bind
  rintro a _ rfl
  exact second a

/-- A read is added to the account. -/
theorem examined_behind_read {count total offset len : Nat} {spans : List (Nat × Nat)}
    {recorded : StateM (List SourceRead × σ) α} {plain : StateM σ α}
    {next' : α → StateM (List SourceRead × σ) (Except IdentifyError ImageKind)}
    {next : α → StateM σ (Except IdentifyError ImageKind)}
    (first : Records (fun _ => True) recorded plain fun _ reads =>
      ∃ data, reads = [⟨offset, len, data⟩])
    (hlen : len ≤ maxPartSize)
    (second : ∀ a, Records (fun _ => True) (next' a) (next a) (Examined count total spans)) :
    Records (fun _ => True) (recorded >>= next') (plain >>= next)
      (Examined (count + 1) (total + len) ((offset, len) :: spans)) := by
  apply first.bind
  rintro a _ ⟨data, rfl⟩
  apply (second a).imp
  rintro result reads h
  constructor
  · have hread : Frugal 1 len [⟨offset, len, data⟩] := .one hlen
    exact (hread.append h.frugal).mono (by omega) (by omega)
  · intro format hresult
    exact congrArg ((offset, len) :: ·) (h.archive format hresult)

theorem records_byContent :
    Records (fun _ => True) (byContent source.recorded) (byContent source)
      (Examined 5 (maxPartSize + 52) [(0, 4)]) := by
  apply examined_behind_question
  intro isDirectory
  apply Records.ite
  · intro _
    apply examined_of_asks _ (isArchive_directory source)
    exact (asks_directory source).mono (Nat.zero_le _) (Nat.zero_le _)
  · intro _
    apply examined_behind_read (.readAt fun _ _ => ⟨trivial, _, rfl⟩) (by decide)
    intro head
    apply examined_behind_question
    intro size
    apply Records.ite
    · exact fun _ => .pure ⟨.nil, nofun⟩
    · exact fun _ => records_byHead source head

/-- What is read of a file before it is taken for an archive: its first four bytes, and before them
the first eight if it might be a trace. -/
def archiveSpans (extension : String) : List (Nat × Nat) :=
  if extension = ".ppdmp" then [(0, 8), (0, 4)] else [(0, 4)]

/-- **Identification reads little**, whatever the source is. -/
theorem records_identify :
    Records (fun _ => True) (identify source.recorded) (identify source)
      (Examined 6 (maxPartSize + 60) (archiveSpans source.locator.extension)) := by
  apply Records.ite
  · exact fun _ => .pure ⟨.nil, nofun⟩
  · intro _
    apply examined_behind_question
    intro isPresent
    apply Records.ite
    · exact fun _ => .pure ⟨.nil, nofun⟩
    · intro _
      have hlocator : source.recorded.locator = source.locator := rfl
      rw [hlocator]
      unfold archiveSpans
      generalize source.locator.extension = extension
      split
      · apply examined_of_asks _ (isArchive_discFile source)
        exact (asks_discFile source).mono (by decide) (by decide)
      · exact .pure ⟨.nil, nofun⟩
      · exact .pure ⟨.nil, nofun⟩
      · apply examined_behind_read (.readExactly fun _ _ => ⟨trivial, _, rfl⟩) (by decide)
        intro head
        apply Records.ite
        · exact fun _ => .pure ⟨.nil, nofun⟩
        · exact fun _ => records_byContent source
      · next hppdmp =>
        rw [if_neg hppdmp]
        apply (records_byContent source).imp
        intro result reads h
        exact ⟨h.frugal.mono (by decide) (by decide), h.archive⟩

end Identify

end PspBoot
