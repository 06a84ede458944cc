import BeastWebsocket.Transition.System
import Mathlib.Data.List.Infix
import Mathlib.Logic.Function.Basic

/-! # A hub and its spokes

A hub holds a link to each of its spokes. What one end of a link has sent the other end takes out
of it in the same order, at any later time.
-/
namespace Channel
open Transition

/-- A system with links: what it has sent into each of them, and what an event takes out of one. -/
structure Hub (σ ε ι α β : Type*) extends System σ ε where
  sent : σ → ι → List α
  takes : ε → Option (ι × β)
  grows : ∀ s e t, step s e = some t → ∀ i, sent s i <+: sent t i

/-- A system with one link. -/
structure Spoke (τ ω α β : Type*) extends System τ ω where
  sent : τ → List β
  takes : ω → Option α
  grows : ∀ s e t, step s e = some t → sent s <+: sent t

/-- What the hub has taken from each spoke, and each spoke from the hub. -/
structure Star (σ τ ι α β : Type*) where
  hub : σ
  spokes : ι → τ
  heard : ι → List β := fun _ => []
  told : ι → List α := fun _ => []

inductive Star.Event (ε ω ι : Type*) where
  | hub (e : ε)
  | spoke (i : ι) (w : ω)

section
variable {σ ε τ ω ι α β : Type*} [DecidableEq ι]

/-- What an event of the hub takes from spoke `i`. -/
def Hub.taken (H : Hub σ ε ι α β) (i : ι) (e : ε) : List β :=
  match H.takes e with
  | none => []
  | some (j, m) => if j = i then [m] else []

namespace Star
variable [DecidableEq α] [DecidableEq β]

def step (H : Hub σ ε ι α β) (S : Spoke τ ω α β) (x : Star σ τ ι α β) :
    Event ε ω ι → Option (Star σ τ ι α β)
  | .hub e =>
    match H.takes e with
    | none => (H.step x.hub e).map fun s => { x with hub := s }
    | some (i, m) =>
      if x.heard i ++ [m] <+: S.sent (x.spokes i) then
        (H.step x.hub e).map fun s =>
          { x with hub := s, heard := Function.update x.heard i (x.heard i ++ [m]) }
      else none
  | .spoke i w =>
    match S.takes w with
    | none => (S.step (x.spokes i) w).map fun t =>
        { x with spokes := Function.update x.spokes i t }
    | some m =>
      if x.told i ++ [m] <+: H.sent x.hub i then
        (S.step (x.spokes i) w).map fun t =>
          { x with spokes := Function.update x.spokes i t
                   told := Function.update x.told i (x.told i ++ [m]) }
      else none

def system (H : Hub σ ε ι α β) (S : Spoke τ ω α β) : System (Star σ τ ι α β) (Event ε ω ι) :=
  ⟨step H S⟩

variable {H : Hub σ ε ι α β} {S : Spoke τ ω α β} {x y : Star σ τ ι α β}

/-- An event of the hub takes its step there, and what it takes is next on its link. -/
structure HubStep (H : Hub σ ε ι α β) (S : Spoke τ ω α β) (x : Star σ τ ι α β) (e : ε)
    (y : Star σ τ ι α β) : Prop where
  hub : H.step x.hub e = some y.hub
  spokes : y.spokes = x.spokes
  told : y.told = x.told
  heard : ∀ i, y.heard i = x.heard i ++ H.taken i e
  next : ∀ i, x.heard i <+: S.sent (x.spokes i) → y.heard i <+: S.sent (x.spokes i)

theorem step_hub {e : ε} (h : (system H S).step x (.hub e) = some y) : HubStep H S x e y := by
  simp only [system, step] at h
  cases htakes : H.takes e with
  | none =>
    rw [htakes] at h
    obtain ⟨s, hs, rfl⟩ := Option.map_eq_some_iff.mp h
    have htaken : ∀ i, H.taken i e = [] := fun i => by rw [Hub.taken, htakes]
    exact ⟨hs, rfl, rfl, fun i => by rw [htaken, List.append_nil], fun _ hi => hi⟩
  | some p =>
    obtain ⟨j, m⟩ := p
    rw [htakes] at h
    obtain ⟨hnext, h⟩ := Option.ite_none_right_eq_some.mp h
    obtain ⟨s, hs, rfl⟩ := Option.map_eq_some_iff.mp h
    refine ⟨hs, rfl, rfl, fun i => ?_, fun i hi => ?_⟩
    · rw [Hub.taken, htakes]
      by_cases hj : j = i
      · subst hj
        simp
      · simp [hj, Function.update_of_ne (Ne.symm hj)]
    · by_cases hj : j = i
      · subst hj
        simpa using hnext
      · simpa [Function.update_of_ne (Ne.symm hj)] using hi

/-- An event of spoke `i` takes its step there, and what it takes is next on the link. -/
structure SpokeStep (H : Hub σ ε ι α β) (S : Spoke τ ω α β) (x : Star σ τ ι α β) (i : ι) (w : ω)
    (y : Star σ τ ι α β) : Prop where
  spoke : S.step (x.spokes i) w = some (y.spokes i)
  told : y.told i = x.told i ++ (S.takes w).toList
  next : x.told i <+: H.sent x.hub i → y.told i <+: H.sent x.hub i
  others : ∀ j, j ≠ i → y.spokes j = x.spokes j ∧ y.told j = x.told j
  hub : y.hub = x.hub
  heard : y.heard = x.heard

theorem step_spoke {i : ι} {w : ω} (h : (system H S).step x (.spoke i w) = some y) :
    SpokeStep H S x i w y := by
  simp only [system, step] at h
  cases htakes : S.takes w with
  | none =>
    rw [htakes] at h
    obtain ⟨t, ht, rfl⟩ := Option.map_eq_some_iff.mp h
    refine ⟨by simpa using ht, by simp [htakes], id, fun j hj => ?_, rfl, rfl⟩
    exact ⟨Function.update_of_ne hj _ _, rfl⟩
  | some m =>
    rw [htakes] at h
    obtain ⟨hnext, h⟩ := Option.ite_none_right_eq_some.mp h
    obtain ⟨t, ht, rfl⟩ := Option.map_eq_some_iff.mp h
    refine ⟨by simpa using ht, by simp [htakes], fun _ => by simpa using hnext, fun j hj => ?_,
      rfl, rfl⟩
    exact ⟨Function.update_of_ne hj _ _, Function.update_of_ne hj _ _⟩

omit [DecidableEq α] in
theorem exists_next {l m : List α} (h : l <+: m) (hlt : l.length < m.length) :
    ∃ a, l ++ [a] <+: m := by
  obtain ⟨rest, rfl⟩ := h
  cases rest with
  | nil => simp at hlt
  | cons a rest => exact ⟨a, rest, by simp⟩

theorem exists_step_hub {e : ε} {s : σ} (hs : H.step x.hub e = some s)
    (hnext : ∀ p ∈ H.takes e, x.heard p.1 ++ [p.2] <+: S.sent (x.spokes p.1)) :
    ∃ y, (system H S).step x (.hub e) = some y := by
  simp only [system, step]
  cases htakes : H.takes e with
  | none => exact ⟨_, Option.map_eq_some_iff.mpr ⟨s, hs, rfl⟩⟩
  | some p =>
    simp only [hs, if_pos (hnext p htakes)]
    exact ⟨_, rfl⟩

theorem exists_step_spoke {i : ι} {w : ω} {t : τ} (ht : S.step (x.spokes i) w = some t)
    (hnext : ∀ m ∈ S.takes w, x.told i ++ [m] <+: H.sent x.hub i) :
    ∃ y, (system H S).step x (.spoke i w) = some y := by
  simp only [system, step]
  cases htakes : S.takes w with
  | none => exact ⟨_, Option.map_eq_some_iff.mpr ⟨t, ht, rfl⟩⟩
  | some m =>
    simp only [ht, if_pos (hnext m htakes)]
    exact ⟨_, rfl⟩

/-- What has been taken from a link has been sent into it, in the same order. -/
def Faithful (H : Hub σ ε ι α β) (S : Spoke τ ω α β) (x : Star σ τ ι α β) : Prop :=
  ∀ i, x.heard i <+: S.sent (x.spokes i) ∧ x.told i <+: H.sent x.hub i

omit [DecidableEq ι] [DecidableEq α] [DecidableEq β] in
theorem faithful_initial (H : Hub σ ε ι α β) (S : Spoke τ ω α β) (s : σ) (t : ι → τ) :
    Faithful H S { hub := s, spokes := t } := fun _ => ⟨List.nil_prefix, List.nil_prefix⟩

theorem Faithful.step (x : Star σ τ ι α β) (e : Event ε ω ι) (y : Star σ τ ι α β)
    (hx : Faithful H S x) (h : (system H S).step x e = some y) : Faithful H S y := by
  intro i
  obtain ⟨hheard, htold⟩ := hx i
  cases e with
  | hub e =>
    have hstep := step_hub h
    refine ⟨?_, ?_⟩
    · rw [hstep.spokes]
      exact hstep.next i hheard
    · rw [hstep.told]
      exact htold.trans (H.grows _ _ _ hstep.hub i)
  | spoke j w =>
    have hstep := step_spoke h
    rw [hstep.heard, hstep.hub]
    by_cases hj : i = j
    · subst hj
      exact ⟨hheard.trans (S.grows _ _ _ hstep.spoke), hstep.next htold⟩
    · obtain ⟨hspoke, hsame⟩ := hstep.others i hj
      rw [hspoke, hsame]
      exact ⟨hheard, htold⟩

/-- What a hub keeps beside what it has taken, it keeps in the star. -/
theorem hub_kept {J : σ → (ι → List β) → Prop}
    (hJ : ∀ s l e t, J s l → H.step s e = some t → J t fun i => l i ++ H.taken i e)
    (x : Star σ τ ι α β) (e : Event ε ω ι) (y : Star σ τ ι α β) (hx : J x.hub x.heard)
    (h : (system H S).step x e = some y) : J y.hub y.heard := by
  cases e with
  | hub e =>
    have hstep := step_hub h
    have hheard : y.heard = fun i => x.heard i ++ H.taken i e := funext hstep.heard
    rw [hheard]
    exact hJ _ _ _ _ hx hstep.hub
  | spoke j w =>
    have hstep := step_spoke h
    rw [hstep.hub, hstep.heard]
    exact hx

/-- What a spoke keeps beside what it has taken, each spoke keeps in the star. -/
theorem spoke_kept {I : τ → List α → Prop}
    (hI : ∀ s l w t, I s l → S.step s w = some t → I t (l ++ (S.takes w).toList))
    (x : Star σ τ ι α β) (e : Event ε ω ι) (y : Star σ τ ι α β)
    (hx : ∀ i, I (x.spokes i) (x.told i)) (h : (system H S).step x e = some y) :
    ∀ i, I (y.spokes i) (y.told i) := by
  intro i
  cases e with
  | hub e =>
    have hstep := step_hub h
    rw [hstep.spokes, hstep.told]
    exact hx i
  | spoke j w =>
    have hstep := step_spoke h
    by_cases hj : i = j
    · subst hj
      rw [hstep.told]
      exact hI _ _ _ _ (hx i) hstep.spoke
    · obtain ⟨hspoke, hsame⟩ := hstep.others i hj
      rw [hspoke, hsame]
      exact hx i

end Star

/-! ## A hub whose links have nothing in common -/

/-- The same system at the end of each link. -/
def Spoke.each (T : Spoke τ ω α β) : Hub (ι → τ) (ι × ω) ι β α where
  step s e := (T.step (s e.1) e.2).map (Function.update s e.1)
  sent s i := T.sent (s i)
  takes e := (T.takes e.2).map fun m => (e.1, m)
  grows := by
    intro s e t h i
    obtain ⟨u, hu, rfl⟩ := Option.map_eq_some_iff.mp h
    by_cases hi : i = e.1
    · subst hi
      rw [Function.update_self]
      exact T.grows _ _ _ hu
    · rw [Function.update_of_ne hi]

theorem Spoke.each_step {T : Spoke τ ω α β} {s t : ι → τ} {i : ι} {w : ω}
    (h : T.each.step s (i, w) = some t) :
    T.step (s i) w = some (t i) ∧ ∀ j, j ≠ i → t j = s j := by
  obtain ⟨u, hu, rfl⟩ := Option.map_eq_some_iff.mp h
  exact ⟨by simpa using hu, fun j hj => Function.update_of_ne hj _ _⟩

theorem Spoke.each_taken (T : Spoke τ ω α β) (i j : ι) (w : ω) :
    T.each.taken j (i, w) = if i = j then (T.takes w).toList else [] := by
  have htakes : T.each.takes (i, w) = (T.takes w).map fun m => (i, m) := rfl
  rw [Hub.taken, htakes]
  cases T.takes w with
  | none => exact (ite_self _).symm
  | some m => rfl

end
end Channel
