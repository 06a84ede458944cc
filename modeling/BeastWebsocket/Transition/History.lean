import Mathlib.Data.List.Basic

/-! # Chronological records

A record lists what has happened, oldest entry first. Laws of the form "an entry of this
kind only stands after such entries" speak about every entry and the record before it.
-/
namespace Transition
variable {α : Type*}

/-- Every entry of the record stands in the relation `P` to the record before it. -/
def EachAfter (P : List α → α → Prop) (l : List α) : Prop :=
  ∀ past x future, l = past ++ x :: future → P past x

namespace EachAfter
variable {P : List α → α → Prop}

theorem nil : EachAfter P [] := by
  intro past x future h
  simp at h

theorem append {l new : List α} :
    EachAfter P (l ++ new) ↔
      EachAfter P l ∧ ∀ past x future, new = past ++ x :: future → P (l ++ past) x := by
  constructor
  · intro h
    constructor
    · intro past x future hl
      exact h past x (future ++ new) (by simp [hl])
    · intro past x future hnew
      exact h (l ++ past) x future (by simp [hnew])
  · rintro ⟨hl, hnew⟩ past x future h
    rcases List.append_eq_append_iff.mp h with ⟨mid, hpast, htail⟩ | ⟨mid, hl', htail⟩
    · rw [hpast]
      exact hnew mid x future htail
    · cases mid with
      | nil =>
        rw [List.append_nil] at hl'
        have hfirst := hnew [] x future (by simpa using htail.symm)
        rwa [List.append_nil, hl'] at hfirst
      | cons z mid =>
        rw [List.cons_append, List.cons.injEq] at htail
        obtain ⟨rfl, _⟩ := htail
        exact hl past x mid hl'

theorem snoc {l : List α} {x : α} : EachAfter P (l ++ [x]) ↔ EachAfter P l ∧ P l x := by
  rw [append]
  apply and_congr_right
  intro _
  constructor
  · intro h
    have hlast := h [] x [] rfl
    rwa [List.append_nil] at hlast
  · intro h past y future hnew
    cases past with
    | nil =>
      cases hnew
      rwa [List.append_nil]
    | cons z past =>
      have hlength := congrArg List.length hnew
      simp at hlength

end EachAfter
end Transition
