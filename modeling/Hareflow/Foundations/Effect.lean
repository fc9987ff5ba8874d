import Mathlib.Order.Defs.Unbundled
import Mathlib.Tactic.Common

/-!
# Effects of code that may throw

Code that changes a state and may throw is a computation in `EStateM`: an exception leaves behind
the state that it was thrown in. `Effect R E m` says what `m` may do to the state, a relation `R`
between the state before and after it, and what it may throw, a predicate `E`. For a relation that is
reflexive and transitive the effects of the parts are the effect of the whole.
-/

namespace Foundations

variable {ε σ α β : Type} {R : σ → σ → Prop} {E : ε → Prop}

/-- However `m` ends, the states before and after it are related by `R`; what it throws meets
`E`. -/
def Effect (R : σ → σ → Prop) (E : ε → Prop) (m : EStateM ε σ α) : Prop :=
  ∀ s, match m s with
    | .ok _ t => R s t
    | .error e t => R s t ∧ E e

namespace Effect

theorem of_ok {m : EStateM ε σ α} (h : Effect R E m) {s t : σ} {a : α} (hm : m s = .ok a t) :
    R s t := by
  have := h s
  rwa [hm] at this

theorem of_error {m : EStateM ε σ α} (h : Effect R E m) {s t : σ} {e : ε} (hm : m s = .error e t) :
    R s t ∧ E e := by
  have := h s
  rwa [hm] at this

theorem mono {R' : σ → σ → Prop} {E' : ε → Prop} {m : EStateM ε σ α} (h : Effect R E m)
    (hR : ∀ {s t}, R s t → R' s t) (hE : ∀ {e}, E e → E' e) : Effect R' E' m := by
  intro s
  have hs := h s
  split at hs
  · exact hR hs
  · exact ⟨hR hs.1, hE hs.2⟩

theorem of_modify {f : σ → σ} (hf : ∀ s, R s (f s)) :
    Effect R E (modify f : EStateM ε σ PUnit) := hf

section

variable [IsPreorder σ R]

theorem pure (a : α) : Effect R E (Pure.pure a : EStateM ε σ α) := fun s => refl_of R s

theorem throw {e : ε} (he : E e) : Effect R E (MonadExcept.throw e : EStateM ε σ α) :=
  fun s => ⟨refl_of R s, he⟩

/-- One after the other. -/
theorem bind {m : EStateM ε σ α} {f : α → EStateM ε σ β} (hm : Effect R E m)
    (hf : ∀ a, Effect R E (f a)) : Effect R E (m >>= f) := by
  intro s
  show match EStateM.bind m f s with | .ok _ t => R s t | .error e t => R s t ∧ E e
  rw [EStateM.bind]
  cases h : m s with
  | error e t => exact hm.of_error h
  | ok a t =>
    have hs := hm.of_ok h
    dsimp only
    split
    · rename_i h'
      exact trans_of R hs ((hf a).of_ok h')
    · rename_i h'
      obtain ⟨ht, he⟩ := (hf a).of_error h'
      exact ⟨trans_of R hs ht, he⟩

/-- The same for each element of a list. -/
theorem forM {l : List α} {f : α → EStateM ε σ PUnit} (hf : ∀ a ∈ l, Effect R E (f a)) :
    Effect R E (l.forM f) := by
  induction l with
  | nil => exact pure _
  | cons a l ih =>
    exact (hf a List.mem_cons_self).bind fun _ => ih fun b hb => hf b (List.mem_cons_of_mem a hb)

end

end Effect

end Foundations
