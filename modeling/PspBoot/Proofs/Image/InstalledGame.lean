import PspBoot.Proofs.Image.Container
import PspBoot.Proofs.Image.Identify
import PspBoot.Proofs.Image.ShortHead

/-!
# What is identified as an installed game

A source may be identified as an installed game for either of two reasons, which have nothing to do
with each other.  A directory is one because it has an entry of the right name
(`Source.IsThere.hasEntry_of_installedGame`).  A file is one because it is a container on a path
through the game directory of a memory stick (`Source.Presents.installedGame_iff`); what the file
itself is called does not matter.
-/

namespace PspBoot

variable {σ : Type} {source : Source σ} {directory : Bool} {V : σ → Prop} {content : Bytes} {s : σ}

/-- The target is there, and is a directory or is none, and nothing that is asked of the source
changes that. -/
structure Source.IsThere (source : Source σ) (directory : Bool) (V : σ → Prop) : Prop where
  isPresent : Yields V source.isPresent true
  isDirectory : Yields V source.isDirectory directory
  size : ∀ s, V s → V (source.size s).2
  readAt : ∀ offset len s, V s → V (source.readAt offset len s).2
  hasEntry : ∀ name s, V s → V (source.hasEntry name s).2

namespace Identify

theorem discFile_ne_installedGame (source : Source σ) (s : σ) :
    (discFile source s).1 ≠ .installedGame := by
  unfold discFile
  rw [run_bind, run_ite]
  split
  · rw [run_bind, run_ite]
    split
    · exact nofun
    · exact nofun
  · exact nofun

/-- A directory is an installed game because of one entry, and no other is looked for. -/
theorem directory_eq_installedGame (hgame : (Identify.directory source s).1 = .installedGame) :
    source.hasEntry Locator.ebootName s = (true, (Identify.directory source s).2) := by
  unfold Identify.directory at hgame ⊢
  split at hgame
  · cases hgame
  · next hpath =>
    rw [if_neg hpath]
    simp only [run_bind, run_ite] at hgame ⊢
    split at hgame
    · next hentry =>
      rw [if_pos hentry]
      exact Prod.ext hentry rfl
    · split at hgame
      · cases hgame
      · split at hgame
        · cases hgame
        · cases hgame

theorem byExtension_ne_installedGame (extension : String) :
    byExtension extension ≠ .installedGame := by
  unfold byExtension
  split
  all_goals exact nofun

theorem executable_ne_installedGame (locator : Locator) : executable locator ≠ .installedGame := by
  unfold executable
  split
  · exact nofun
  · exact nofun

/-- A file is an installed game only if it begins like a container. -/
theorem ofHead?_of_byHead {head : Bytes} (hgame : (byHead source head s).1 = .installedGame) :
    Signature.ofHead? head = some .container := by
  unfold byHead at hgame
  cases hformat : Signature.ofHead? head with
  | none =>
    rw [hformat] at hgame
    dsimp only [run_pure] at hgame
    exact absurd hgame (byExtension_ne_installedGame _)
  | some format =>
    rw [hformat] at hgame
    cases format with
    | zip | rar => cases hgame
    | executable =>
      dsimp only [run_pure] at hgame
      exact absurd hgame (executable_ne_installedGame _)
    | container => rfl

end Identify

namespace Source.IsThere

open Identify

/-- What is asked in order to identify a source does not make it disappear. -/
theorem identify (h : source.IsThere directory V) (hs : V s) : V (PspBoot.identify source s).2 := by
  -- The source is compared with itself, so that the property is carried along.
  have hsame {α : Type} {action : StateM σ α} (hkeeps : ∀ t, V t → V (action t).2) :
      PspBoot.Alike (fun t u => t = u ∧ V t) action action := by
    rintro t _ ⟨rfl, ht⟩
    exact ⟨rfl, rfl, hkeeps t ht⟩
  have halike : Source.Alike (fun t u => t = u ∧ V t) source source :=
    { locator_eq := rfl
      isPresent := hsame fun t ht => (h.isPresent t ht).2
      isDirectory := hsame fun t ht => (h.isDirectory t ht).2
      size := hsame h.size
      readAt := fun offset len => hsame (h.readAt offset len)
      hasEntry := fun name => hsame (h.hasEntry name) }
  exact (halike.alike_identify s s ⟨rfl, hs⟩).2.2

/-- An installed game has been examined for its content. -/
theorem identify_eq_byContent (h : source.IsThere directory V) (hs : V s)
    (hgame : (PspBoot.identify source s).1 = .ok .installedGame) :
    source.locator.isEmpty = false ∧ source.locator.extension ∉ [".iso", ".cso", ".ppst"] ∧
      ∃ t, V t ∧ PspBoot.identify source s = byContent source t := by
  obtain ⟨hresult, hnext⟩ := h.isPresent s hs
  have hpresent : ¬(!(source.isPresent s).1) = true := by
    rw [hresult]
    decide
  by_cases hpath : source.locator.isEmpty = true
  · rw [PspBoot.identify, if_pos hpath] at hgame
    cases hgame
  · refine ⟨Bool.not_eq_true _ ▸ hpath, ?_⟩
    rw [PspBoot.identify, if_neg hpath, run_bind, if_neg hpresent] at hgame
    generalize hextension : source.locator.extension = extension at hgame ⊢
    split at hgame
    · rw [run_bind, run_pure] at hgame
      exact absurd (Except.ok.inj hgame) (discFile_ne_installedGame source _)
    · cases hgame
    · cases hgame
    · rw [run_bind, run_ite] at hgame
      split at hgame
      · cases hgame
      · next hother =>
        refine ⟨by decide, _, ?_, identify_of_no_trace hpath hpresent hextension hother⟩
        exact h.readAt 0 8 _ hnext
    · next hiso hcso hppst hppdmp =>
      have hnone : extension ∉ [".iso", ".cso", ".ppst"] := by
        simp only [List.mem_cons, List.not_mem_nil, or_false, not_or]
        exact ⟨hiso, hcso, hppst⟩
      rw [← hextension] at hiso hcso hppst hppdmp
      exact ⟨hnone, _, hnext, identify_of_undecided hpath hpresent hiso hcso hppst hppdmp⟩

/-- **A directory is an installed game if it says that it has an entry of the right name**, and that
is the last thing it is asked. -/
theorem hasEntry_of_installedGame (h : source.IsThere true V) (hs : V s)
    (hgame : (PspBoot.identify source s).1 = .ok .installedGame) :
    ∃ t, V t ∧
      source.hasEntry Locator.ebootName t = (true, (PspBoot.identify source s).2) := by
  obtain ⟨-, -, t, ht, hcontent⟩ := h.identify_eq_byContent hs hgame
  obtain ⟨hdirectory, hnext⟩ := h.isDirectory t ht
  rw [hcontent, byContent, run_bind, if_pos hdirectory, run_bind, run_pure] at hgame ⊢
  exact ⟨_, hnext, directory_eq_installedGame (Except.ok.inj hgame)⟩

/-- A file that is an installed game has begun like a container when it was read. -/
theorem ofHead?_of_installedGame (h : source.IsThere false V) (hs : V s)
    (hgame : (PspBoot.identify source s).1 = .ok .installedGame) :
    ∃ t, V t ∧ Signature.ofHead? (source.readAt 0 4 t).1 = some .container := by
  obtain ⟨-, -, t, ht, hcontent⟩ := h.identify_eq_byContent hs hgame
  obtain ⟨hdirectory, hnext⟩ := h.isDirectory t ht
  refine ⟨_, hnext, ?_⟩
  rw [hcontent, byContent, run_bind, hdirectory, if_neg Bool.false_ne_true] at hgame
  simp only [run_bind, run_ite] at hgame
  split at hgame
  · cases hgame
  · exact ofHead?_of_byHead (Except.ok.inj hgame)

end Source.IsThere

/-- **A file is an installed game if its bytes and its path say so**: it begins like a container, has
no extension that decides by itself, is no game of the preceding console generation and no image from
the store, and its path leads through the game directory.  Its name does not count. -/
theorem Source.Presents.installedGame_iff (h : source.Presents content V)
    (hthere : source.IsThere false V) (hs : V s) :
    (identify source s).1 = .ok .installedGame ↔
      source.locator.isEmpty = false ∧ source.locator.extension ∉ [".iso", ".cso", ".ppst"] ∧
        Signature.containerHead <+: content ∧
          Container.kind source.locator content = .installedGame := by
  constructor
  · intro hgame
    obtain ⟨hpath, hextension, -⟩ := hthere.identify_eq_byContent hs hgame
    obtain ⟨t, ht, hformat⟩ := hthere.ofHead?_of_installedGame hs hgame
    rw [(h.readAt 0 4 t ht).1, Signature.ofHead?_slice] at hformat
    obtain ⟨kind, hyields, hkind⟩ := h.identify_file hpath
    rw [(hyields s hs).1] at hgame
    refine ⟨hpath, hextension, hformat, ?_⟩
    rw [← (hkind hextension).1 hformat]
    exact Except.ok.inj hgame
  · rintro ⟨hpath, hextension, hhead, hgame⟩
    obtain ⟨kind, hyields, hkind⟩ := h.identify_file hpath
    rw [(hyields s hs).1, (hkind hextension).1 hhead, hgame]

end PspBoot
