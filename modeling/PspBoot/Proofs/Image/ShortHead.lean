import PspBoot.Image.Identify
import PspBoot.Proofs.Outcome
import PspBoot.Source.LocalFile

/-!
# Files whose first bytes cannot be read

Unless something else decides first, identification reads the first four bytes of a file.  If fewer
come, there are two ways to go: the file is unreadable, or it is a short file and is identified by
its extension.  The way to tell them apart would be to look at the failures that the source records:
the file is unreadable if the read has added to them.  `FailsAsRecorded` says that this is what
happens.

What is looked at instead is the size that the source tells when it is asked afterwards.  The two
agree, about a given read, if and only if fewer bytes than the source then tells came because of a
failure (`failsAsRecorded_iff`).  That is so for all sources that tell the truth about their size
and account for what is missing (`failsAsRecorded_of_honest`).  It is not so for a file that has
shrunk since it was opened, nor for a source that fails to tell its size as well.
-/

namespace PspBoot

variable {σ : Type} {source : Source σ} {s t : σ}

namespace Identify

/-- Asks all that is asked before the first four bytes of a file are read.  The answer is whether
they are: whether the source is there, and neither its extension nor its being a directory has
decided what it is. -/
def reachesHead (source : Source σ) : StateM σ Bool := do
  if source.locator.isEmpty then
    pure false
  else if !(← source.isPresent) then
    pure false
  else
    match source.locator.extension with
    | ".iso" => pure false
    | ".cso" => pure false
    | ".ppst" => pure false
    | ".ppdmp" =>
        if (← source.readExactly 0 8) = some Signature.traceHead then
          pure false
        else
          pure !(← source.isDirectory)
    | _ => pure !(← source.isDirectory)

/-- The first four bytes, as far as they can be read. -/
def headOf (source : Source σ) (t : σ) : Bytes :=
  (source.readAt 0 4 t).1

/-- The size that is told after the first four bytes have been read. -/
def toldSize (source : Source σ) (t : σ) : Nat :=
  (source.size (source.readAt 0 4 t).2).1

/-- The source has recorded a failure while the first four bytes were read. -/
def FailsAfresh (source : Source σ) (t : σ) : Prop :=
  (source.failureCount t).1 < (source.failureCount (source.readAt 0 4 t).2).1

instance : Decidable (FailsAfresh source t) :=
  inferInstanceAs (Decidable (_ < _))

/-- A short read of the first four bytes makes a file unreadable if a failure was recorded with it,
and leaves it to the extension otherwise. -/
structure FailsAsRecorded (source : Source σ) (s t : σ) : Prop where
  unreadable_iff : (identify source s).1 = .error .unreadable ↔
    (headOf source t).length < 4 ∧ FailsAfresh source t
  degrades : (headOf source t).length < 4 → ¬FailsAfresh source t →
    (identify source s).1 = .ok (byExtension source.locator.extension)

/-- Fewer than four bytes are no signature. -/
theorem ofHead?_of_short {head : Bytes} (h : head.length < 4) : Signature.ofHead? head = none := by
  match head, h with
  | [], _ => rfl
  | [_], _ => simp [Signature.ofHead?]
  | [_, _], _ => simp [Signature.ofHead?]
  | [_, _, _], _ => simp [Signature.ofHead?]

/-- What is there and has none of the extensions that decide is examined for its content. -/
theorem identify_of_undecided (hpath : ¬source.locator.isEmpty = true)
    (hpresent : ¬(!(source.isPresent s).1) = true) (hiso : source.locator.extension ≠ ".iso")
    (hcso : source.locator.extension ≠ ".cso") (hppst : source.locator.extension ≠ ".ppst")
    (hppdmp : source.locator.extension ≠ ".ppdmp") :
    identify source s = byContent source (source.isPresent s).2 := by
  rw [identify, if_neg hpath, run_bind, if_neg hpresent]
  generalize source.locator.extension = extension at *
  split
  · exact (hiso rfl).elim
  · exact (hcso rfl).elim
  · exact (hppst rfl).elim
  · exact (hppdmp rfl).elim
  · rfl

/-- So is what has the extension of a trace without being one. -/
theorem identify_of_no_trace (hpath : ¬source.locator.isEmpty = true)
    (hpresent : ¬(!(source.isPresent s).1) = true) (hppdmp : source.locator.extension = ".ppdmp")
    (hother : ¬(source.readExactly 0 8 (source.isPresent s).2).1 = some Signature.traceHead) :
    identify source s = byContent source (source.readExactly 0 8 (source.isPresent s).2).2 := by
  rw [identify, if_neg hpath, run_bind, if_neg hpresent, hppdmp]
  simp only [run_bind, run_ite, if_neg hother]

/-- Where the first four bytes are read, the source is a file that is examined for its content. -/
theorem identify_eq_byContent (h : reachesHead source s = (true, t)) :
    ∃ u, identify source s = byContent source u ∧ source.isDirectory u = (false, t) := by
  have hdirectory {u : σ} (hask : (do pure !(← source.isDirectory)) u = (true, t)) :
      source.isDirectory u = (false, t) := by
    rw [run_bind, run_pure, Prod.mk.injEq, Bool.not_eq_true'] at hask
    exact Prod.ext hask.1 hask.2
  unfold reachesHead at h
  split at h
  · cases h
  · next hpath =>
    rw [run_bind] at h
    split at h
    · cases h
    · next hpresent =>
      generalize hextension : source.locator.extension = extension at h
      split at h
      · cases h
      · cases h
      · cases h
      · rw [run_bind] at h
        split at h
        · cases h
        · next hother =>
          exact ⟨_, identify_of_no_trace hpath hpresent hextension hother, hdirectory h⟩
      · next hiso hcso hppst hppdmp =>
        rw [← hextension] at hiso hcso hppst hppdmp
        exact ⟨_, identify_of_undecided hpath hpresent hiso hcso hppst hppdmp, hdirectory h⟩

/-- Where the first four bytes are read, they settle what a file is. -/
theorem identify_of_reachesHead (h : reachesHead source s = (true, t)) :
    (identify source s).1 =
      if (headOf source t).length < min (toldSize source t) 4 then
        .error .unreadable
      else
        .ok (byHead source (headOf source t) (source.size (source.readAt 0 4 t).2).2).1 := by
  obtain ⟨u, hsame, hfile⟩ := identify_eq_byContent h
  rw [hsame, byContent, run_bind, hfile, if_neg Bool.false_ne_true, run_bind, run_bind, run_ite]
  exact apply_ite Prod.fst ..

/-- Fewer bytes than four, and not fewer than the source tells, are left to the extension. -/
theorem identify_of_short (h : reachesHead source s = (true, t))
    (hshort : (headOf source t).length < 4)
    (hall : ¬(headOf source t).length < toldSize source t) :
    (identify source s).1 = .ok (byExtension source.locator.extension) := by
  rw [identify_of_reachesHead h, if_neg (by omega), byHead, ofHead?_of_short hshort]
  rfl

/-- A file is unreadable if fewer bytes come than four and than the source tells. -/
theorem identify_eq_unreadable_iff (h : reachesHead source s = (true, t)) :
    (identify source s).1 = .error .unreadable ↔
      (headOf source t).length < min (toldSize source t) 4 := by
  rw [identify_of_reachesHead h]
  split
  · next hless => exact iff_of_true rfl hless
  · next hnot => exact iff_of_false nofun hnot

/-- A short read is judged by the recorded failures if the size that is told afterwards comes to the
same. -/
theorem failsAsRecorded_of_same (h : reachesHead source s = (true, t))
    (hsame : (headOf source t).length < 4 →
      ((headOf source t).length < toldSize source t ↔ FailsAfresh source t)) :
    FailsAsRecorded source s t where
  unreadable_iff := by
    rw [identify_eq_unreadable_iff h]
    constructor
    · intro hless
      have hshort : (headOf source t).length < 4 := by omega
      exact ⟨hshort, (hsame hshort).mp (by omega)⟩
    · rintro ⟨hshort, hfresh⟩
      have hless := (hsame hshort).mpr hfresh
      omega
  degrades hshort hquiet :=
    identify_of_short h hshort fun hless => hquiet ((hsame hshort).mp hless)

/-- A source that tells the length of its content, and records a failure whenever a read lacks
something and at no other time, is judged by the recorded failures. -/
theorem failsAsRecorded_of_honest (h : reachesHead source s = (true, t)) {content : Bytes}
    (hsize : toldSize source t = content.length) (hhead : headOf source t <+: content.take 4)
    (haccount : FailsAfresh source t ↔ headOf source t ≠ content.take 4) :
    FailsAsRecorded source s t := by
  refine failsAsRecorded_of_same h fun hshort => ?_
  rw [hsize, haccount]
  constructor
  · intro hless heq
    rw [heq, List.length_take] at hless hshort
    omega
  · intro hmissing
    have hlack : (headOf source t).length < (content.take 4).length :=
      Nat.lt_of_le_of_ne hhead.length_le fun heq => hmissing (hhead.eq_of_length heq)
    rw [List.length_take] at hlack
    omega

/-- **A short read is judged by the recorded failures if, and only if, the size that is told
afterwards comes to the same.** -/
theorem failsAsRecorded_iff (h : reachesHead source s = (true, t)) :
    ((identify source s).1 = .error .unreadable ↔
      (headOf source t).length < min (toldSize source t) 4) ∧
    (FailsAsRecorded source s t ↔
      ((headOf source t).length < 4 →
        ((headOf source t).length < toldSize source t ↔ FailsAfresh source t))) := by
  have hunreadable := identify_eq_unreadable_iff h
  refine ⟨hunreadable, fun hrecorded hshort => ?_, failsAsRecorded_of_same h⟩
  have hmin : (headOf source t).length < min (toldSize source t) 4 ↔
      (headOf source t).length < toldSize source t := by omega
  rw [← hmin, ← hunreadable, hrecorded.unreadable_iff]
  exact and_iff_right hshort

/-- A local file of two bytes is left to its extension. -/
theorem failsAsRecorded_two_bytes :
    let files := FileTree.putFile {} "a.zip" [80, 75]
    let source := Source.localFile (.ofPath "a.zip") (.look files "a.zip")
    reachesHead source files = (true, files) ∧ FailsAsRecorded source files files ∧
      (identify source files).1 = .ok (.archive .zip) := by
  intro files source
  have hreaches : reachesHead source files = (true, files) :=
    Prod.ext (by decide +kernel) (by decide +kernel)
  refine ⟨hreaches, (failsAsRecorded_iff hreaches).2.mpr (by decide +kernel), ?_⟩
  refine (identify_of_short hreaches (by decide +kernel) (by decide +kernel)).trans ?_
  exact congrArg Except.ok (by decide +kernel)

/-- A local file of eight bytes shrinks to two after it has been opened.  They are read without a
failure, and yet the file is unreadable. -/
theorem not_failsAsRecorded_shrunk :
    let before := FileTree.putFile {} "a.zip" [80, 75, 3, 4, 0, 0, 0, 0]
    let source := Source.localFile (.ofPath "a.zip") (.look before "a.zip")
    let files := before.putFile "a.zip" [80, 75]
    reachesHead source files = (true, files) ∧
      headOf source files = [80, 75] ∧ ¬FailsAfresh source files ∧
      (identify source files).1 = .error .unreadable ∧
      ¬FailsAsRecorded source files files := by
  intro before source files
  have hreaches : reachesHead source files = (true, files) :=
    Prod.ext (by decide +kernel) (by decide +kernel)
  have hquiet : ¬FailsAfresh source files := by decide +kernel
  have hunreadable := (identify_eq_unreadable_iff hreaches).mpr (by decide +kernel)
  refine ⟨hreaches, by decide +kernel, hquiet, hunreadable, fun hrecorded => ?_⟩
  exact hquiet (hrecorded.unreadable_iff.mp hunreadable).2

end Identify

end PspBoot
