import BeastWebsocket.Transition.System
import Mathlib.Data.List.Basic

/-! # The sequential request and reply loop

Connect and run a callback; write its output, if there is any; then for ever read a message,
run a callback and write its output. One thing is done at a time, and the first failure ends
the loop.
-/
namespace Channel
open Transition

inductive Loop.Phase where
  | fresh
  | connecting
  | callback
  | reading
  | writing
  | stopped
deriving DecidableEq

/-- The output of the callback that runs, or that is being written, and all writes so far. -/
structure Loop (α : Type*) where
  phase : Loop.Phase := .fresh
  output : List α := []
  written : List (List α) := []

inductive Loop.Op (α : Type*) where
  | connect
  | connected
  | out (b : List α)
  | returned
  | message
  | wrote
  | failed

namespace Loop
variable {α : Type*}

def Phase.waits : Phase → Bool
  | .connecting => true
  | .reading => true
  | .writing => true
  | _ => false

def step (x : Loop α) : Op α → Option (Loop α)
  | .connect => if x.phase = .fresh then some { x with phase := .connecting } else none
  | .connected => if x.phase = .connecting then some { x with phase := .callback } else none
  | .out b =>
      if x.phase = .callback then some { x with output := x.output ++ b } else none
  | .returned =>
      if x.phase = .callback then
        if x.output.isEmpty then some { x with phase := .reading }
        else some { x with phase := .writing, written := x.written ++ [x.output] }
      else none
  | .message => if x.phase = .reading then some { x with phase := .callback } else none
  | .wrote =>
      if x.phase = .writing then some { x with phase := .reading, output := [] } else none
  | .failed => if x.phase.waits then some { x with phase := .stopped } else none

def system (α : Type*) : System (Loop α) (Op α) := ⟨step⟩

/-- The output of each callback that has returned, where `b` is what the one that runs has
left so far. -/
def outputs : List α → List (Op α) → List (List α)
  | _, [] => []
  | b, .out c :: os => outputs (b ++ c) os
  | b, .returned :: os => b :: outputs [] os
  | b, _ :: os => outputs b os

/-- What the running callback has left so far. -/
def pending (x : Loop α) : List α := if x.phase = .callback then x.output else []

/-- Outside the callback and the write that follows it there is no output. -/
def Clear (x : Loop α) : Prop :=
  x.phase = .fresh ∨ x.phase = .connecting ∨ x.phase = .reading → x.output = []

theorem Clear.step {x y : Loop α} {o : Op α} (hx : x.Clear) (h : (system α).step x o = some y) :
    y.Clear := by
  cases o with
  | returned =>
    simp only [system, Loop.step, Option.ite_none_right_eq_some] at h
    obtain ⟨_, h⟩ := h
    by_cases he : x.output.isEmpty
    · rw [if_pos he, Option.some.injEq] at h
      subst h
      exact fun _ => List.isEmpty_iff.mp he
    · rw [if_neg he, Option.some.injEq] at h
      subst h
      simp [Clear]
  | _ =>
    simp only [system, Loop.step, Option.ite_none_right_eq_some, Option.some.injEq] at h
    obtain ⟨hphase, rfl⟩ := h
    simp_all [Clear]

theorem pending_of_waits {x : Loop α} (h : x.phase.waits = true) : x.pending = [] := by
  have hphase : x.phase ≠ .callback := by
    intro hc
    simp [hc, Phase.waits] at h
  simp [pending, hphase]

/-- One step writes the output of the callback that returns, unless that is empty. -/
theorem written_step {x y : Loop α} {o : Op α} (os : List (Op α)) (hx : x.Clear)
    (h : (system α).step x o = some y) :
    y.written ++ (outputs y.pending os).filter (fun b => !b.isEmpty) =
      x.written ++ (outputs x.pending (o :: os)).filter (fun b => !b.isEmpty) := by
  cases o with
  | returned =>
    simp only [system, Loop.step, Option.ite_none_right_eq_some] at h
    obtain ⟨hphase, h⟩ := h
    by_cases he : x.output.isEmpty
    · rw [if_pos he, Option.some.injEq] at h
      subst h
      simp [outputs, pending, hphase, he]
    · rw [if_neg he, Option.some.injEq] at h
      subst h
      simp [outputs, pending, hphase, he]
  | failed =>
    simp only [system, Loop.step, Option.ite_none_right_eq_some, Option.some.injEq] at h
    obtain ⟨hphase, rfl⟩ := h
    rw [pending_of_waits hphase]
    simp [outputs, pending]
  | _ =>
    simp only [system, Loop.step, Option.ite_none_right_eq_some, Option.some.injEq] at h
    obtain ⟨hphase, rfl⟩ := h
    simp_all [outputs, pending, Clear]

/-- The loop writes the outputs that are not empty, in order. -/
theorem written_run {x y : Loop α} {os : List (Op α)} (hx : x.Clear)
    (h : (system α).run x os = some y) :
    y.written = x.written ++ (outputs x.pending os).filter (fun b => !b.isEmpty) := by
  induction os generalizing x with
  | nil =>
    rw [System.run_nil, Option.some.injEq] at h
    simp [outputs, h]
  | cons o os ih =>
    obtain ⟨z, hz, h⟩ := (system α).run_cons_eq_some.mp h
    rw [ih (hx.step hz) h, written_step os hx hz]

/-- A callback starts with no output. -/
theorem Clear.enter {x y : Loop α} {o : Op α} (hx : x.Clear) (ho : o = .connected ∨ o = .message)
    (h : (system α).step x o = some y) :
    y.phase = .callback ∧ y.output = [] ∧ y.written = x.written := by
  rcases ho with rfl | rfl
  · obtain ⟨hphase, h⟩ := Option.ite_none_right_eq_some.mp h
    cases h
    exact ⟨rfl, hx (Or.inr (Or.inl hphase)), rfl⟩
  · obtain ⟨hphase, h⟩ := Option.ite_none_right_eq_some.mp h
    cases h
    exact ⟨rfl, hx (Or.inr (Or.inr hphase)), rfl⟩

/-- What a callback leaves is written when it returns, unless it is empty. -/
theorem step_returned {x y : Loop α} (h : (system α).step x .returned = some y) :
    y.written = x.written ++ [x.output].filter (fun b => !b.isEmpty) ∧
      y.phase = if x.output.isEmpty then .reading else .writing := by
  obtain ⟨_, h⟩ := Option.ite_none_right_eq_some.mp h
  by_cases hb : x.output.isEmpty
  · rw [if_pos hb] at h
    cases h
    simp [hb]
  · rw [if_neg hb] at h
    cases h
    simp [hb]

end Loop
end Channel
