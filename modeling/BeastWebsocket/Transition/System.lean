import Mathlib.Data.Nat.Notation
import Mathlib.Logic.Relation
import Mathlib.Tactic.TypeStar

/-! # Runs of a deterministic event-driven system

A system reads one event at a time. An event that cannot occur in a state has no
successor there, so a run through such an event does not exist. Conditions on a run are
stated on the state before each step and the event taken in it.
-/
namespace Transition

structure System (σ ε : Type*) where
  step : σ → ε → Option σ

namespace System
variable {σ ε τ ω : Type*}

def run (M : System σ ε) : σ → List ε → Option σ
  | s, [] => some s
  | s, e :: es => (M.step s e).bind fun t => M.run t es

/-- The condition that every event meets. -/
abbrev unguarded : σ → ε → Prop := fun _ _ => True

/-- Every step that the run takes meets `P`. -/
def Along (M : System σ ε) (P : σ → ε → Prop) : σ → List ε → Prop
  | _, [] => True
  | s, e :: es => ∀ t, M.step s e = some t → P s e ∧ M.Along P t es

instance decidableAlong (M : System σ ε) (P : σ → ε → Prop) [∀ s e, Decidable (P s e)] :
    ∀ s es, Decidable (M.Along P s es)
  | _, [] => isTrue trivial
  | s, e :: es =>
    match h : M.step s e with
    | none => isTrue fun t ht => by simp [h] at ht
    | some t =>
      have := decidableAlong M P t es
      decidable_of_iff (P s e ∧ M.Along P t es) (by simp [Along, h])

/-- Every state that the run passes through, its first and its last included, meets `I`. -/
def Throughout (M : System σ ε) (I : σ → Prop) : σ → List ε → Prop
  | s, [] => I s
  | s, e :: es => I s ∧ ∀ t, M.step s e = some t → M.Throughout I t es

instance decidableThroughout (M : System σ ε) (I : σ → Prop) [DecidablePred I] :
    ∀ s es, Decidable (M.Throughout I s es)
  | s, [] => inferInstanceAs (Decidable (I s))
  | s, e :: es =>
    match h : M.step s e with
    | none => decidable_of_iff (I s) (by simp [Throughout, h])
    | some t =>
      have := decidableThroughout M I t es
      decidable_of_iff (I s ∧ M.Throughout I t es) (by simp [Throughout, h])

variable (M : System σ ε)

@[simp] theorem run_nil (s : σ) : M.run s [] = some s := rfl

theorem run_cons (s : σ) (e : ε) (es : List ε) :
    M.run s (e :: es) = (M.step s e).bind fun t => M.run t es := rfl

theorem run_cons_eq_some {s t : σ} {e : ε} {es : List ε} :
    M.run s (e :: es) = some t ↔ ∃ u, M.step s e = some u ∧ M.run u es = some t := by
  rw [run_cons, Option.bind_eq_some_iff]

variable {M} {P Q : σ → ε → Prop} {I : σ → Prop}

/-- A step leads to one state only. -/
theorem forall_step_iff {s t : σ} {e : ε} (h : M.step s e = some t) {C : σ → Prop} :
    (∀ u, M.step s e = some u → C u) ↔ C t := by
  constructor
  · intro hall
    exact hall t h
  · intro ht u hu
    cases hu.symm.trans h
    exact ht

/-- Where an invariant that steps meeting `P` keep turns `P` into `Q`, a run all whose steps
meet `P` is one all whose steps meet `Q`. -/
theorem Along.of_invariant (hstep : ∀ s e t, I s → P s e → M.step s e = some t → I t)
    (h : ∀ s e t, I s → P s e → M.step s e = some t → Q s e) {s : σ} {es : List ε} (h0 : I s)
    (hP : M.Along P s es) : M.Along Q s es := by
  induction es generalizing s with
  | nil => exact hP
  | cons e es ih =>
    intro t ht
    obtain ⟨hp, hP⟩ := hP t ht
    exact ⟨h s e t h0 hp ht, ih (hstep s e t h0 hp ht) hP⟩

theorem Along.mono (h : ∀ s e, P s e → Q s e) {s : σ} {es : List ε}
    (hP : M.Along P s es) : M.Along Q s es :=
  hP.of_invariant (I := fun _ => True) (fun _ _ _ _ _ _ => trivial)
    (fun s e _ _ hp _ => h s e hp) trivial

theorem Along.and {s : σ} {es : List ε} (hP : M.Along P s es) (hQ : M.Along Q s es) :
    M.Along (fun s e => P s e ∧ Q s e) s es := by
  induction es generalizing s with
  | nil => trivial
  | cons e es ih =>
    intro t ht
    obtain ⟨hp, hP⟩ := hP t ht
    obtain ⟨hq, hQ⟩ := hQ t ht
    exact ⟨⟨hp, hq⟩, ih hP hQ⟩

theorem along_congr (h : ∀ s e, P s e ↔ Q s e) {s : σ} {es : List ε} :
    M.Along P s es ↔ M.Along Q s es :=
  ⟨Along.mono fun s e => (h s e).mp, Along.mono fun s e => (h s e).mpr⟩

/-- Conditions that agree on the steps from an invariant are met along the same runs. -/
theorem along_congr_of_invariant (hstep : ∀ s e t, I s → M.step s e = some t → I t)
    (h : ∀ s e t, I s → M.step s e = some t → (P s e ↔ Q s e)) {s : σ} {es : List ε}
    (h0 : I s) : M.Along P s es ↔ M.Along Q s es := by
  constructor
  · exact Along.of_invariant (fun s e t hs _ => hstep s e t hs)
      (fun s e t hs hp ht => (h s e t hs ht).mp hp) h0
  · exact Along.of_invariant (fun s e t hs _ => hstep s e t hs)
      (fun s e t hs hq ht => (h s e t hs ht).mpr hq) h0

/-- A predicate kept by every step that meets `P` holds at the end of a run whose steps
all meet it. -/
theorem run_invariant (hstep : ∀ s e t, I s → P s e → M.step s e = some t → I t)
    {s t : σ} {es : List ε} (h0 : I s) (hP : M.Along P s es) (hrun : M.run s es = some t) :
    I t := by
  induction es generalizing s with
  | nil =>
    rw [run_nil, Option.some.injEq] at hrun
    exact hrun ▸ h0
  | cons e es ih =>
    obtain ⟨u, hu, hrun⟩ := M.run_cons_eq_some.mp hrun
    obtain ⟨hp, hP⟩ := hP u hu
    exact ih (hstep s e u h0 hp hu) hP hrun

theorem along_unguarded (s : σ) (es : List ε) : M.Along unguarded s es := by
  induction es generalizing s with
  | nil => trivial
  | cons e es ih => exact fun t _ => ⟨trivial, ih t⟩

/-- A predicate that every step keeps holds at the end of every run. -/
theorem run_inductive (hstep : ∀ s e t, I s → M.step s e = some t → I t)
    {s t : σ} {es : List ε} (h0 : I s) (hrun : M.run s es = some t) : I t :=
  run_invariant (fun s e t hs _ => hstep s e t hs) h0 (along_unguarded s es) hrun

/-- Where each step from `I` that meets `P` reaches the goal, or else keeps `I` and lowers `rank` if
its event counts and does not raise it otherwise: until the goal is reached a run takes no more
steps that count than there is rank. -/
theorem run_descends (Goal : σ → Prop) (rank : σ → ℕ) (counts : ε → Bool)
    (hgoal : ∀ s e t, Goal s → M.step s e = some t → Goal t)
    (hstep : ∀ s e t, I s → P s e → M.step s e = some t →
      Goal t ∨ I t ∧ rank t + (counts e).toNat ≤ rank s)
    {s t : σ} {es : List ε} (h0 : I s) (hP : M.Along P s es) (hrun : M.run s es = some t) :
    Goal t ∨ I t ∧ rank t + es.countP counts ≤ rank s := by
  induction es generalizing s with
  | nil =>
    cases hrun
    exact Or.inr ⟨h0, Nat.le_refl _⟩
  | cons e es ih =>
    obtain ⟨u, hu, hrun⟩ := M.run_cons_eq_some.mp hrun
    obtain ⟨hp, hP⟩ := hP u hu
    rcases hstep s e u h0 hp hu with hreached | ⟨hnext, hrank⟩
    · exact Or.inl (run_inductive hgoal hreached hrun)
    · rcases ih hnext hP hrun with hreached | ⟨hend, hrest⟩
      · exact Or.inl hreached
      · refine Or.inr ⟨hend, ?_⟩
        rw [List.countP_cons]
        cases hcounts : counts e <;> simp [hcounts] at hrank ⊢ <;> omega

theorem Throughout.head {s : σ} {es : List ε} (h : M.Throughout I s es) : I s := by
  cases es with
  | nil => exact h
  | cons e es => exact h.1

theorem throughout_inductive (hstep : ∀ s e t, I s → M.step s e = some t → I t) {s : σ}
    {es : List ε} (h0 : I s) : M.Throughout I s es := by
  induction es generalizing s with
  | nil => exact h0
  | cons e es ih => exact ⟨h0, fun t ht => ih (hstep s e t h0 ht)⟩

section Throughout
variable {J C : σ → Prop}

theorem Throughout.and {s : σ} {es : List ε} (hI : M.Throughout I s es)
    (hJ : M.Throughout J s es) : M.Throughout (fun u => I u ∧ J u) s es := by
  induction es generalizing s with
  | nil => exact ⟨hI, hJ⟩
  | cons e es ih => exact ⟨⟨hI.1, hJ.1⟩, fun t ht => ih (hI.2 t ht) (hJ.2 t ht)⟩

theorem Throughout.mono {s : σ} {es : List ε} (hI : M.Throughout I s es)
    (h : ∀ u, I u → J u) : M.Throughout J s es := by
  induction es generalizing s with
  | nil => exact h s hI
  | cons e es ih => exact ⟨h s hI.1, fun t ht => ih (hI.2 t ht)⟩

/-- Predicates that agree on the states of a run hold throughout it together. -/
theorem Throughout.congr {s : σ} {es : List ε} (hC : M.Throughout C s es)
    (h : ∀ u, C u → (I u ↔ J u)) : M.Throughout I s es ↔ M.Throughout J s es := by
  constructor
  · intro hI
    exact (hC.and hI).mono fun u hu => (h u hu.1).mp hu.2
  · intro hJ
    exact (hC.and hJ).mono fun u hu => (h u hu.1).mpr hu.2

/-- What holds before and after each step of a run is known of the step. -/
theorem Throughout.along {s : σ} {es : List ε} (hI : M.Throughout I s es)
    (h : ∀ u e v, I u → I v → M.step u e = some v → P u e) : M.Along P s es := by
  induction es generalizing s with
  | nil => trivial
  | cons e es ih =>
    intro t ht
    have hnext := hI.2 t ht
    exact ⟨h s e t hI.1 hnext.head ht, ih hnext⟩

end Throughout

/-- Where `P` is exactly what a step from `I` needs to stay in `I`, a run stays in `I`
exactly when all its steps meet `P`; `J` and `G` are what is known of the run, and the steps
that meet `P` keep `J`. -/
theorem throughout_iff_along_kept {J : σ → Prop} {G : σ → ε → Prop}
    (hJ : ∀ s e t, J s → G s e → I s → P s e → M.step s e = some t → J t)
    (hstep : ∀ s e t, J s → G s e → I s → M.step s e = some t → (I t ↔ P s e))
    {s : σ} {es : List ε} (hG : M.Along G s es) (hj : J s) (hi : I s) :
    M.Throughout I s es ↔ M.Along P s es := by
  induction es generalizing s with
  | nil => exact iff_of_true hi trivial
  | cons e es ih =>
    constructor
    · rintro ⟨_, h⟩ t ht
      obtain ⟨hg, hG⟩ := hG t ht
      have htI := (h t ht).head
      have hp := (hstep s e t hj hg hi ht).mp htI
      exact ⟨hp, (ih hG (hJ s e t hj hg hi hp ht) htI).mp (h t ht)⟩
    · intro h
      refine ⟨hi, fun t ht => ?_⟩
      obtain ⟨hg, hG⟩ := hG t ht
      obtain ⟨hp, h⟩ := h t ht
      exact (ih hG (hJ s e t hj hg hi hp ht) ((hstep s e t hj hg hi ht).mpr hp)).mpr h

/-- The same with a `J` that every step keeps. -/
theorem throughout_iff_along {J : σ → Prop} {G : σ → ε → Prop}
    (hJ : ∀ s e t, J s → M.step s e = some t → J t)
    (hstep : ∀ s e t, J s → G s e → I s → M.step s e = some t → (I t ↔ P s e))
    {s : σ} {es : List ε} (hG : M.Along G s es) (hj : J s) (hi : I s) :
    M.Throughout I s es ↔ M.Along P s es :=
  throughout_iff_along_kept (fun s e t hs _ _ _ => hJ s e t hs) hstep hG hj hi

/-! ## Refinement by at most one step -/

/-- The step that `o` asks for, or no step. -/
def perform (N : System τ ω) (x : τ) : Option ω → Option τ
  | none => some x
  | some o => N.step x o

/-- Each step of `M` is, seen through `f`, the step of `N` that `op` names, or none. -/
def Refines (M : System σ ε) (N : System τ ω) (f : σ → τ) (op : σ → ε → Option ω) : Prop :=
  ∀ s e t, M.step s e = some t → N.perform (f s) (op s e) = some (f t)

section Refines
variable {N : System τ ω} {f : σ → τ} {op : σ → ε → Option ω} {K : τ → Prop} {C : τ → ω → Prop}

theorem perform_invariant_iff {x y : τ} {o : Option ω}
    (hN : ∀ a ∈ o, N.step x a = some y → (K y ↔ C x a)) (hx : K x)
    (h : N.perform x o = some y) : K y ↔ ∀ a ∈ o, C x a := by
  cases o with
  | none =>
    cases h
    simpa using hx
  | some a => simpa using hN a rfl h

/-- What a step of `N` keeps under a condition is kept by performing one, or none. -/
theorem perform_invariant {x y : τ} {o : Option ω}
    (hN : ∀ a ∈ o, N.step x a = some y → K y) (hx : K x) (h : N.perform x o = some y) : K y := by
  cases o with
  | none => exact Option.some.inj h ▸ hx
  | some a => exact hN a rfl h

/-- An invariant `K` of `N` that is kept exactly by the steps that meet `C` holds throughout a
run of `M` exactly when the steps of `N` that the run performs all meet `C`; `J` and `G` are
what is known of these steps. -/
theorem Refines.throughout_iff_along_kept {J : τ → Prop} {G : τ → ω → Prop}
    (h : M.Refines N f op)
    (hJ : ∀ x o y, J x → G x o → K x → C x o → N.step x o = some y → J y)
    (hN : ∀ x o y, J x → G x o → K x → N.step x o = some y → (K y ↔ C x o)) {s : σ} {es : List ε}
    (hG : M.Along (fun u e => ∀ o ∈ op u e, G (f u) o) s es) (hj : J (f s)) (hk : K (f s)) :
    M.Throughout (fun u => K (f u)) s es ↔ M.Along (fun u e => ∀ o ∈ op u e, C (f u) o) s es := by
  refine System.throughout_iff_along_kept (J := fun u => J (f u)) ?_ ?_ hG hj hk
  · intro u e v hu hg hk hc hv
    apply perform_invariant (K := J) (fun o ho => ?_) hu (h u e v hv)
    exact hJ (f u) o (f v) hu (hg o ho) hk (hc o ho)
  · intro u e v hu hg hk hv
    apply perform_invariant_iff (fun o ho => ?_) hk (h u e v hv)
    exact hN (f u) o (f v) hu (hg o ho) hk

/-- The same where nothing needs to be known of the steps. -/
theorem Refines.throughout_iff_along (h : M.Refines N f op)
    (hN : ∀ x o y, K x → N.step x o = some y → (K y ↔ C x o)) {s : σ} {es : List ε}
    (h0 : K (f s)) :
    M.Throughout (fun u => K (f u)) s es ↔ M.Along (fun u e => ∀ o ∈ op u e, C (f u) o) s es :=
  h.throughout_iff_along_kept (J := fun _ => True) (G := unguarded)
    (fun _ _ _ _ _ _ _ _ => trivial) (fun x o y _ _ hx hy => hN x o y hx hy)
    ((along_unguarded s es).mono fun _ _ _ _ _ => trivial) trivial h0

/-- An invariant of `N` that steps meeting `C` keep is one of `M`, for its steps that perform
such steps. -/
theorem Refines.step_invariant (h : M.Refines N f op)
    (hN : ∀ x o y, K x → C x o → N.step x o = some y → K y) {s t : σ} {e : ε} (hs : K (f s))
    (hC : ∀ o ∈ op s e, C (f s) o) (ht : M.step s e = some t) : K (f t) :=
  perform_invariant (fun o ho => hN (f s) o (f t) hs (hC o ho)) hs (h s e t ht)

/-- Simulation through a relation: a run whose steps meet `P` performs a run of `N`. -/
theorem run_simulates {R : σ → τ → Prop} {a : ε → Option ω} {P : σ → ε → Prop}
    (hstep : ∀ s e t x, R s x → P s e → M.step s e = some t →
      ∃ y, N.perform x (a e) = some y ∧ R t y)
    {s t : σ} {x : τ} {es : List ε} (h0 : R s x) (hP : M.Along P s es)
    (hrun : M.run s es = some t) : ∃ y, N.run x (es.filterMap a) = some y ∧ R t y := by
  induction es generalizing s x with
  | nil =>
    rw [run_nil, Option.some.injEq] at hrun
    subst hrun
    exact ⟨x, rfl, h0⟩
  | cons e es ih =>
    obtain ⟨u, hu, hrun⟩ := M.run_cons_eq_some.mp hrun
    obtain ⟨hp, hP⟩ := hP u hu
    obtain ⟨y, hy, hR⟩ := hstep s e u x h0 hp hu
    obtain ⟨z, hz, hRz⟩ := ih hR hP hrun
    refine ⟨z, ?_, hRz⟩
    cases ha : a e with
    | none =>
      rw [ha] at hy
      cases hy
      rw [List.filterMap_cons_none ha]
      exact hz
    | some o =>
      rw [ha] at hy
      rw [List.filterMap_cons_some ha, run_cons_eq_some]
      exact ⟨y, hy, hz⟩

end Refines

/-! ## Refinement by any number of steps -/

/-- Some event that meets `G` leads from `s` to `t`. -/
def Steps (M : System σ ε) (G : σ → ε → Prop) (s t : σ) : Prop :=
  ∃ e, G s e ∧ M.step s e = some t

/-- Events that meet `G`, any number of them, lead from `s` to `t`. -/
def Reaches (M : System σ ε) (G : σ → ε → Prop) : σ → σ → Prop :=
  Relation.ReflTransGen (M.Steps G)

variable {G : σ → ε → Prop} {s t u : σ}

theorem Reaches.refl (s : σ) : M.Reaches G s s := Relation.ReflTransGen.refl

theorem Reaches.of_eq (h : s = t) : M.Reaches G s t := by
  subst h
  exact Reaches.refl s

theorem Reaches.single {e : ε} (hg : G s e) (h : M.step s e = some t) : M.Reaches G s t :=
  Relation.ReflTransGen.single ⟨e, hg, h⟩

theorem Reaches.trans (h : M.Reaches G s t) (h' : M.Reaches G t u) : M.Reaches G s u :=
  Relation.ReflTransGen.trans h h'

theorem Reaches.invariant (h : M.Reaches G s t)
    (hI : ∀ s e t, I s → G s e → M.step s e = some t → I t) (h0 : I s) : I t := by
  induction h with
  | refl => exact h0
  | tail _ hstep ih =>
    obtain ⟨e, hg, he⟩ := hstep
    exact hI _ e _ ih hg he

/-- Refinement through the abstraction `f`: where each step of `M` that meets `P` is matched
by steps of `N` that meet `G`, so is each run. -/
theorem run_refines {N : System τ ω} {f : σ → τ} {G : τ → ω → Prop}
    (hstep : ∀ s e t, P s e → M.step s e = some t → N.Reaches G (f s) (f t))
    {es : List ε} (hP : M.Along P s es) (hrun : M.run s es = some t) :
    N.Reaches G (f s) (f t) := by
  refine run_invariant (I := fun u => N.Reaches G (f s) (f u)) ?_ (Reaches.refl _) hP hrun
  intro u e v hu hp hv
  exact hu.trans (hstep u e v hp hv)

end System
end Transition
