import PspBoot.Proofs.Alike
import PspBoot.Proofs.Source.Content

/-!
# Sources that cannot be told apart

Two sources are alike if all their operations are.  A source that shows a content without excuse is
like the plain source of that content.
-/

namespace PspBoot.Source

variable {σ τ : Type} {R : σ → τ → Prop} {a : Source σ} {b : Source τ}

/-- From related states all questions that have to do with the target are answered alike. -/
structure Alike (R : σ → τ → Prop) (a : Source σ) (b : Source τ) : Prop where
  locator_eq : a.locator = b.locator
  isPresent : PspBoot.Alike R a.isPresent b.isPresent
  isDirectory : PspBoot.Alike R a.isDirectory b.isDirectory
  size : PspBoot.Alike R a.size b.size
  readAt : ∀ offset len, PspBoot.Alike R (a.readAt offset len) (b.readAt offset len)
  hasEntry : ∀ name, PspBoot.Alike R (a.hasEntry name) (b.hasEntry name)

/-- The holder of a larger state, everything else of which stays as it is in `w`, sees what there is
to be seen of the source. -/
theorem alike_within (source : Source σ) (focus : Focus τ σ) [focus.Lawful] (w : τ) :
    Alike (fun v s => v = focus.put w s) (source.within focus) source := by
  have hlift {α : Type} (action : StateM σ α) :
      PspBoot.Alike (fun v s => v = focus.put w s) (focus.lift action) action := by
    rintro _ s rfl
    have hget : focus.get (focus.put w s) = s := Focus.Lawful.get_put w s
    have hput (t : σ) : focus.put (focus.put w s) t = focus.put w t := Focus.Lawful.put_put w s t
    simp [hget, hput]
  exact ⟨rfl, hlift _, hlift _, hlift _, fun _ _ => hlift _, fun _ => hlift _⟩

/-- A source that shows a content without excuse is like the plain source of the content. -/
theorem Shows.alike {source : Source σ} {content : Bytes} {reach : Nat} {V : σ → Prop}
    (h : source.Shows content reach V fun _ => False) (hreach : content.length ≤ reach) :
    Alike (fun s (_ : Unit) => V s) source (ofContent source.locator content) where
  locator_eq := rfl
  isPresent s _ hs := ⟨(h.isPresent s hs).post.resolve_right id, (h.isPresent s hs).valid⟩
  isDirectory s _ hs := ⟨(h.isDirectory s hs).post, (h.isDirectory s hs).valid⟩
  size s _ hs := ⟨(h.size s hs).post.resolve_right And.right, (h.size s hs).valid⟩
  readAt offset len s _ hs := by
    have hread := h.readAt offset len s hs
    refine ⟨(hread.post.eq_or ?_).resolve_right id, hread.valid⟩
    rw [Bytes.length_slice]
    omega
  hasEntry name s _ hs := ⟨(h.hasEntry name s hs).post, (h.hasEntry name s hs).valid⟩

end PspBoot.Source
