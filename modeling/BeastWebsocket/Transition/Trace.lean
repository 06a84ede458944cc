import BeastWebsocket.Transition.System

/-! # Systems that list what their steps put out

`traced out` runs a system beside the list of what its steps put out. The list has no influence
on the run, so it can be used to state laws about what a run has done.
-/
namespace Transition.System
variable {σ ε α : Type*} {M : System σ ε} {out : σ → ε → List α}

def traced (M : System σ ε) (out : σ → ε → List α) : System (σ × List α) ε where
  step p e := (M.step p.1 e).map fun t => (t, p.2 ++ out p.1 e)

theorem traced_step {p q : σ × List α} {e : ε} :
    (M.traced out).step p e = some q ↔ M.step p.1 e = some q.1 ∧ q.2 = p.2 ++ out p.1 e := by
  rw [traced, Option.map_eq_some_iff]
  constructor
  · rintro ⟨t, ht, rfl⟩
    exact ⟨ht, rfl⟩
  · rintro ⟨ht, hq⟩
    exact ⟨q.1, ht, Prod.ext rfl hq.symm⟩

/-- What the steps of a run meet, they meet beside any list. -/
theorem Along.traced {P : σ → ε → Prop} {p : σ × List α} {es : List ε} (h : M.Along P p.1 es) :
    (M.traced out).Along (fun p e => P p.1 e) p es := by
  induction es generalizing p with
  | nil => trivial
  | cons e es ih =>
    intro q hq
    obtain ⟨hstep, _⟩ := traced_step.mp hq
    obtain ⟨hp, hrest⟩ := h q.1 hstep
    exact ⟨hp, ih hrest⟩

end Transition.System
