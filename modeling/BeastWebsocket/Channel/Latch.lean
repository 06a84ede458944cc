import BeastWebsocket.Transition.System
import Mathlib.Data.List.Basic
import Mathlib.Tactic.SplitIfs

/-! # A guard that is set on completion

An operation is refused once the latch is set, and the latch is set by an operation that
completes with success. While the first operation is on its way nothing refuses a second one.
-/
namespace Channel
open Transition

/-- A `listening` latch calls its listener at each completion with success. -/
structure Latch where
  listening : Bool
  set : Bool := false
  pending : ℕ := 0
  calls : ℕ := 0

inductive Latch.Op where
  | start
  | finish (ok : Bool)

namespace Latch

def step (x : Latch) : Op → Option Latch
  | .start => some (if x.set then x else { x with pending := x.pending + 1 })
  | .finish ok =>
      if 0 < x.pending then
        some { x with set := x.set || ok, pending := x.pending - 1,
                      calls := x.calls + if ok && x.listening then 1 else 0 }
      else none

def system : System Latch Op := ⟨step⟩

/-- One operation at a time, and one call of the listener at most. -/
structure Once (x : Latch) : Prop where
  pending : x.pending ≤ 1
  calls : x.calls ≤ 1

/-- No operation is started beside another. -/
def Alone (x : Latch) : Op → Prop
  | .start => x.set = true ∨ x.pending = 0
  | .finish _ => True

/-- Behind the first success nothing is pending, before it nothing has been called. -/
structure Settled (x : Latch) : Prop where
  pending : x.set = true → x.pending = 0
  calls : x.set = false → x.calls = 0

theorem once_initial (listening : Bool) : Once { listening } where
  pending := Nat.zero_le 1
  calls := Nat.zero_le 1

theorem settled_initial (listening : Bool) : Settled { listening } where
  pending _ := rfl
  calls _ := rfl

variable {x y : Latch} {o : Op}

/-- A pending operation is the one before the first success. -/
theorem Settled.fresh (hx : x.Settled) (h : 0 < x.pending) : x.set = false ∧ x.calls = 0 := by
  have hset : x.set = false := by
    by_contra hset
    have hnone := hx.pending (by simpa using hset)
    omega
  exact ⟨hset, hx.calls hset⟩

theorem Once.step_iff (hx : x.Once) (hsettled : x.Settled) (h : system.step x o = some y) :
    y.Once ↔ x.Alone o := by
  have hpending := hx.pending
  cases o with
  | start =>
    cases h
    by_cases hset : x.set = true
    · rw [if_pos hset]
      exact iff_of_true hx (.inl hset)
    · rw [if_neg hset]
      constructor
      · intro hy
        have hone : x.pending + 1 ≤ 1 := hy.pending
        exact .inr (by omega)
      · intro hfree
        have hnone : x.pending = 0 := hfree.resolve_left hset
        exact ⟨by simp [hnone], hx.calls⟩
  | finish ok =>
    obtain ⟨hpos, h⟩ := Option.ite_none_right_eq_some.mp h
    cases h
    obtain ⟨_, hcalls⟩ := hsettled.fresh hpos
    refine iff_of_true ⟨?_, ?_⟩ trivial
    · exact Nat.le_trans (Nat.sub_le _ _) hpending
    · simp only [hcalls]
      split_ifs <;> omega

theorem Settled.step (hx : x.Settled) (honce : x.Once) (halone : x.Alone o)
    (h : system.step x o = some y) : y.Settled := by
  have hpending := honce.pending
  cases o with
  | start =>
    cases h
    by_cases hset : x.set = true
    · rw [if_pos hset]
      exact hx
    · rw [if_neg hset]
      exact ⟨fun h => absurd h hset, hx.calls⟩
  | finish ok =>
    obtain ⟨hpos, h⟩ := Option.ite_none_right_eq_some.mp h
    cases h
    obtain ⟨hset, hcalls⟩ := hx.fresh hpos
    constructor
    · intro _
      simp only
      omega
    · intro hok
      simp only [hset, Bool.false_or] at hok
      simp [hok, hcalls]

/-- A system that drives a latch keeps to one operation and one call exactly when it starts no
operation beside another. -/
theorem once_iff {σ ε : Type*} {M : System σ ε} {f : σ → Latch} {op : σ → ε → Option Op}
    (h : M.Refines system f op) {s : σ} {es : List ε} (hsettled : (f s).Settled)
    (honce : (f s).Once) :
    M.Throughout (fun u => (f u).Once) s es ↔
      M.Along (fun u e => ∀ o ∈ op u e, (f u).Alone o) s es := by
  apply h.throughout_iff_along_kept (G := System.unguarded) (J := Settled)
  · intro x o y hx _ honce halone hy
    exact hx.step honce halone hy
  · intro x o y hx _ honce hy
    exact honce.step_iff hx hy
  · exact (System.along_unguarded s es).mono fun _ _ _ _ _ => trivial
  · exact hsettled
  · exact honce

end Latch
end Channel
