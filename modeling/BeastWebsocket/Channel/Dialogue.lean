import BeastWebsocket.Transition.System
import Mathlib.Data.List.Basic

/-! # A conversation that may fall silent

Connect and run a callback. A callback leaves output, or asks for the next message, or does
neither. Output is written, and the next message is read after the write unless the callback has
declined it. With nothing to write and nothing to read the conversation falls silent for ever.
-/
namespace Channel
open Transition

inductive Dialogue.Op (α : Type*) where
  | connect
  | connected
  | out (b : List α)
  | ask
  | setNext (b : Bool)
  | returned
  | message
  | wrote
  | failed

/-- What callbacks have chosen: the outputs of those that have returned, and the last one's
output, whether it asked for a message, whether it wants one after its output, and whether its
output has been written. -/
structure Talk (α : Type*) where
  outputs : List (List α) := []
  output : List α := []
  asked : Bool := false
  next : Bool := true
  wrote : Bool := false

namespace Talk
variable {α : Type*}

open Dialogue in
def after (x : Talk α) : Op α → Talk α
  | .connected | .message => { outputs := x.outputs }
  | .out b => { x with output := x.output ++ b }
  | .ask => { x with asked := true }
  | .setNext b => { x with next := b }
  | .returned => { x with outputs := x.outputs ++ [x.output] }
  | .wrote => { x with wrote := true }
  | .connect | .failed => x

/-- The last callback left no output and did not ask, or declined the message after an output
that has been written. -/
def Silent (x : Talk α) : Prop :=
  x.output = [] ∧ x.asked = false ∨ x.wrote = true ∧ x.next = false

end Talk

inductive Dialogue.Phase where
  | fresh
  | connecting
  | callback
  | reading
  | writing
  | silent
  | stopped
deriving DecidableEq

structure Dialogue (α : Type*) where
  phase : Dialogue.Phase := .fresh
  talk : Talk α := {}
  written : List (List α) := []

namespace Dialogue
variable {α : Type*}

def Phase.waits : Phase → Bool
  | .connecting | .reading | .writing => true
  | _ => false

/-- A callback does not both leave output and ask. -/
def step (x : Dialogue α) (o : Op α) : Option (Dialogue α) :=
  let y := { x with talk := x.talk.after o }
  match o with
  | .connect => if x.phase = .fresh then some { y with phase := .connecting } else none
  | .connected => if x.phase = .connecting then some { y with phase := .callback } else none
  | .out b => if x.phase = .callback ∧ (b = [] ∨ x.talk.asked = false) then some y else none
  | .ask => if x.phase = .callback ∧ x.talk.output = [] then some y else none
  | .setNext _ => if x.phase = .callback then some y else none
  | .returned =>
      if x.phase = .callback then
        if x.talk.output.isEmpty then
          some { y with phase := if x.talk.asked then .reading else .silent }
        else some { y with phase := .writing, written := x.written ++ [x.talk.output] }
      else none
  | .message => if x.phase = .reading then some { y with phase := .callback } else none
  | .wrote =>
      if x.phase = .writing then some { y with phase := if x.talk.next then .reading else .silent }
      else none
  | .failed => if x.phase.waits then some { y with phase := .stopped } else none

def system (α : Type*) : System (Dialogue α) (Op α) := ⟨step⟩

/-- A message is awaited, or asked for by the callback that runs. -/
def Listens (x : Dialogue α) : Prop :=
  x.phase = .reading ∨ x.phase = .callback ∧ x.talk.asked = true

instance (x : Dialogue α) : Decidable x.Listens := inferInstanceAs (Decidable (_ ∨ _))

/-- What the last callback has chosen decides what is awaited, and the outputs that are not
empty have been written. -/
structure Coherent (x : Dialogue α) : Prop where
  written : x.written = x.talk.outputs.filter (fun b => !b.isEmpty)
  callback : x.phase = .callback →
    x.talk.wrote = false ∧ (x.talk.asked = true → x.talk.output = [])
  writing : x.phase = .writing →
    x.talk.wrote = false ∧ x.talk.asked = false ∧ x.talk.output ≠ []
  reading : x.phase = .reading → ¬ x.talk.Silent
  silent : x.phase = .silent → x.talk.Silent

theorem coherent_initial : Coherent ({} : Dialogue α) := by
  constructor <;> simp

theorem Coherent.returned {x y : Dialogue α} (hx : x.Coherent)
    (h : (system α).step x .returned = some y) : y.Coherent := by
  obtain ⟨hphase, h⟩ := Option.ite_none_right_eq_some.mp h
  obtain ⟨hwrote, hexclusive⟩ := hx.callback hphase
  cases hout : x.talk.output with
  | nil =>
    rw [hout] at h
    cases h
    cases hask : x.talk.asked <;> constructor <;>
      simp [hask, hout, hwrote, hx.written, Talk.after, Talk.Silent]
  | cons b bs =>
    have hask : x.talk.asked = false := by
      by_contra hc
      have hempty := hexclusive (by simpa using hc)
      simp [hout] at hempty
    rw [hout] at h
    cases h
    constructor <;> simp [hask, hout, hwrote, hx.written, Talk.after]

theorem Coherent.step {x y : Dialogue α} {o : Op α} (hx : x.Coherent)
    (h : (system α).step x o = some y) : y.Coherent := by
  cases o with
  | returned => exact hx.returned h
  | wrote =>
    obtain ⟨hphase, h⟩ := Option.ite_none_right_eq_some.mp h
    cases h
    obtain ⟨_, hask, hout⟩ := hx.writing hphase
    cases hnext : x.talk.next <;> constructor <;>
      simp [hask, hout, hnext, hx.written, Talk.after, Talk.Silent]
  | out b =>
    obtain ⟨⟨hphase, hb⟩, h⟩ := Option.ite_none_right_eq_some.mp h
    cases h
    obtain ⟨hwrote, hexclusive⟩ := hx.callback hphase
    constructor
    · exact hx.written
    · intro _
      refine ⟨hwrote, fun hask => ?_⟩
      rcases hb with hb | hb
      · simpa [Talk.after, hb] using hexclusive hask
      · exact absurd hask (by simp [Talk.after, hb])
    · simp [hphase]
    · simp [hphase]
    · simp [hphase]
  | _ =>
    obtain ⟨hphase, h⟩ := Option.ite_none_right_eq_some.mp h
    cases h
    have hwritten := hx.written
    have hcallback := hx.callback
    constructor <;> simp_all [Talk.after]

theorem talk_step {x y : Dialogue α} {o : Op α} (h : (system α).step x o = some y) :
    y.talk = x.talk.after o := by
  cases o with
  | returned =>
    obtain ⟨_, h⟩ := Option.ite_none_right_eq_some.mp h
    by_cases hout : x.talk.output.isEmpty
    · rw [if_pos hout] at h
      cases h
      rfl
    · rw [if_neg hout] at h
      cases h
      rfl
  | _ =>
    obtain ⟨_, h⟩ := Option.ite_none_right_eq_some.mp h
    cases h
    rfl

theorem coherent_run {x y : Dialogue α} {os : List (Op α)} (hx : x.Coherent)
    (h : (system α).run x os = some y) : y.Coherent :=
  System.run_inductive (fun _ _ _ hx h => hx.step h) hx h

theorem talk_run {x y : Dialogue α} {os : List (Op α)} (h : (system α).run x os = some y) :
    y.talk = os.foldl Talk.after x.talk := by
  induction os generalizing x with
  | nil =>
    cases h
    rfl
  | cons o os ih =>
    obtain ⟨z, hz, h⟩ := (system α).run_cons_eq_some.mp h
    rw [ih h, talk_step hz]
    rfl

/-- Between two callbacks of an open conversation, nothing is awaited exactly if the last
callback has left it silent. -/
theorem Coherent.silent_iff {x : Dialogue α} (hx : x.Coherent)
    (hopen : x.phase = .reading ∨ x.phase = .writing ∨ x.phase = .silent) :
    x.phase = .silent ↔ x.talk.Silent := by
  rcases hopen with hphase | hphase | hphase
  · exact iff_of_false (by simp [hphase]) (hx.reading hphase)
  · obtain ⟨hwrote, _, hout⟩ := hx.writing hphase
    exact iff_of_false (by simp [hphase]) (by simp [Talk.Silent, hwrote, hout])
  · exact iff_of_true hphase (hx.silent hphase)

/-- A callback starts with no output and asks for nothing. -/
theorem step_enter {x y : Dialogue α} {o : Op α} (ho : o = .connected ∨ o = .message)
    (h : (system α).step x o = some y) :
    y.phase = .callback ∧ y.talk = { outputs := x.talk.outputs } := by
  rcases ho with rfl | rfl
  · obtain ⟨_, h⟩ := Option.ite_none_right_eq_some.mp h
    cases h
    exact ⟨rfl, rfl⟩
  · obtain ⟨_, h⟩ := Option.ite_none_right_eq_some.mp h
    cases h
    exact ⟨rfl, rfl⟩

/-- A callback that does not ask leaves the conversation writing, or silent. -/
theorem step_returned {x y : Dialogue α} (hask : x.talk.asked = false)
    (h : (system α).step x .returned = some y) :
    y.phase = if x.talk.output.isEmpty then .silent else .writing := by
  obtain ⟨_, h⟩ := Option.ite_none_right_eq_some.mp h
  by_cases hout : x.talk.output.isEmpty
  · rw [if_pos hout] at h
    cases h
    simp [hout, hask]
  · rw [if_neg hout] at h
    cases h
    simp [hout]

end Dialogue
end Channel
