import BeastWebsocket.Transition.System
import Mathlib.Data.List.Basic

/-! # A buffer filled by one asynchronous reader

Reads are started only while the inbox is ready. A read that succeeds appends one whole
message, makes the inbox ready again and hands the buffer to a handler, which clears it at
its end. A read that fails may leave a part of a message behind, and breaks the inbox.
-/
namespace Channel
open Transition

/-- A `listening` inbox shows its buffer to a listener at the start of each handler. -/
structure Inbox (α : Type*) where
  listening : Bool
  ready : Bool := true
  reads : ℕ := 0
  broken : Bool := false
  handling : Bool := false
  buffer : List α := []
  started : ℕ := 0
  received : List (List α) := []
  delivered : List (List α) := []

inductive Inbox.Op (α : Type*) where
  | start
  | finish (message : List α)
  | fail (part : List α)
  | clear

namespace Inbox
variable {α : Type*}

def step (x : Inbox α) : Op α → Option (Inbox α)
  | .start =>
      if x.ready then
        some { x with ready := false, reads := x.reads + 1, started := x.started + 1 }
      else none
  | .finish m =>
      if 0 < x.reads ∧ x.handling = false then
        some { x with ready := true, reads := x.reads - 1, handling := true,
                      buffer := x.buffer ++ m, received := x.received ++ [m],
                      delivered := if x.listening then x.delivered ++ [x.buffer ++ m]
                        else x.delivered }
      else none
  | .fail part =>
      if 0 < x.reads then
        some { x with reads := x.reads - 1, broken := true, buffer := x.buffer ++ part }
      else none
  | .clear => if x.handling then some { x with handling := false, buffer := [] } else none

def system (α : Type*) : System (Inbox α) (Op α) := ⟨step⟩

/-- The reader's discipline: one read at a time, readiness is the absence of a read and of
a failure, an unbroken inbox is empty outside a handler, and a listener has been shown the
messages as they were received. -/
structure Disciplined (x : Inbox α) : Prop where
  single : x.reads ≤ 1
  ready_iff : x.ready = false ↔ x.reads = 1 ∨ x.broken = true
  broken_idle : x.broken = true → x.reads = 0
  drained : x.broken = false → x.handling = false → x.buffer = []
  faithful : x.listening = true → x.delivered = x.received

theorem disciplined_empty (listening : Bool) : Disciplined ({ listening } : Inbox α) where
  single := by simp
  ready_iff := by simp
  broken_idle := by simp
  drained := by simp
  faithful := by simp

theorem Disciplined.start {x y : Inbox α} (hx : x.Disciplined)
    (h : x.step .start = some y) : y.Disciplined := by
  simp only [step, Option.ite_none_right_eq_some, Option.some.injEq] at h
  obtain ⟨hr, rfl⟩ := h
  have hidle : ¬ (x.reads = 1 ∨ x.broken = true) := by
    rw [← hx.ready_iff, hr]
    simp
  have hreads := hx.single
  have hzero : x.reads = 0 := by omega
  exact {
    single := by simp [hzero]
    ready_iff := by simp [hzero]
    broken_idle := fun hb => absurd (Or.inr hb) hidle
    drained := hx.drained
    faithful := hx.faithful }

theorem Disciplined.finish {x y : Inbox α} {m : List α} (hx : x.Disciplined)
    (h : x.step (.finish m) = some y) : y.Disciplined := by
  simp only [step, Option.ite_none_right_eq_some, Option.some.injEq] at h
  obtain ⟨⟨hpos, hfree⟩, rfl⟩ := h
  have hreads := hx.single
  have hwhole : x.broken = false := by
    cases hb : x.broken with
    | false => rfl
    | true =>
      have hnone := hx.broken_idle hb
      omega
  have hempty : x.buffer = [] := hx.drained hwhole hfree
  refine ⟨?_, ?_, ?_, ?_, ?_⟩
  · simp only
    omega
  · simp only [hwhole, Bool.true_eq_false, Bool.false_eq_true, or_false, false_iff]
    omega
  · simp [hwhole]
  · simp
  · intro hl
    have hl' : x.listening = true := hl
    simp [hl', hempty, hx.faithful hl']

theorem Disciplined.fail {x y : Inbox α} {part : List α} (hx : x.Disciplined)
    (h : x.step (.fail part) = some y) : y.Disciplined := by
  simp only [step, Option.ite_none_right_eq_some, Option.some.injEq] at h
  obtain ⟨hpos, rfl⟩ := h
  have hreads := hx.single
  have hbusy : x.ready = false := hx.ready_iff.mpr (Or.inl (by omega))
  refine ⟨?_, by simp [hbusy], fun _ => ?_, by simp, hx.faithful⟩
  · simp only
    omega
  · simp only
    omega

theorem Disciplined.clear {x y : Inbox α} (hx : x.Disciplined)
    (h : x.step .clear = some y) : y.Disciplined := by
  simp only [step, Option.ite_none_right_eq_some, Option.some.injEq] at h
  obtain ⟨_, rfl⟩ := h
  exact ⟨hx.single, hx.ready_iff, hx.broken_idle, by simp, hx.faithful⟩

theorem Disciplined.step {x y : Inbox α} {o : Op α} (hx : x.Disciplined)
    (h : (system α).step x o = some y) : y.Disciplined := by
  cases o with
  | start => exact hx.start h
  | finish m => exact hx.finish h
  | fail part => exact hx.fail h
  | clear => exact hx.clear h

/-- A broken inbox stays broken and starts no read. -/
theorem Disciplined.broken_step {x y : Inbox α} {o : Op α} (hx : x.Disciplined)
    (hb : x.broken = true) (h : (system α).step x o = some y) :
    y.broken = true ∧ y.started = x.started := by
  cases o with
  | start =>
    have hbusy := hx.ready_iff.mpr (Or.inr hb)
    simp [system, Inbox.step, hbusy] at h
  | finish m =>
    have hnone := hx.broken_idle hb
    simp [system, Inbox.step, hnone] at h
  | fail part =>
    have hnone := hx.broken_idle hb
    simp [system, Inbox.step, hnone] at h
  | clear =>
    simp only [system, Inbox.step, Option.ite_none_right_eq_some, Option.some.injEq] at h
    obtain ⟨_, rfl⟩ := h
    exact ⟨hb, rfl⟩

/-- While a read is outstanding outside a handler, the buffer is empty. -/
theorem Disciplined.empty_of_reads {x : Inbox α} (hx : x.Disciplined) (hpos : 0 < x.reads)
    (hidle : x.handling = false) : x.buffer = [] := by
  apply hx.drained _ hidle
  by_contra hbroken
  have hnone := hx.broken_idle (by simpa using hbroken)
  omega

/-- Steps of the inbox lead from `x` to `y`. -/
abbrev Leads (x y : Inbox α) : Prop := (system α).Reaches System.unguarded x y

theorem Disciplined.leads {x y : Inbox α} (hx : x.Disciplined) (h : Leads x y) :
    y.Disciplined :=
  h.invariant (fun _ _ _ hz _ => hz.step) hx

theorem Disciplined.leads_broken {x y : Inbox α} (hx : x.Disciplined) (hb : x.broken = true)
    (h : Leads x y) : y.started = x.started := by
  have hinv := h.invariant
    (I := fun z => z.Disciplined ∧ z.broken = true ∧ z.started = x.started) ?_ ⟨hx, hb, rfl⟩
  · exact hinv.2.2
  · rintro z o w ⟨hz, hzb, hzs⟩ _ hw
    obtain ⟨hwb, hws⟩ := hz.broken_step hzb hw
    exact ⟨hz.step hw, hwb, hws.trans hzs⟩

/-! ## Systems whose steps are steps of an inbox -/

section Runs
variable {σ ε : Type*} {M : System σ ε} {f : σ → Inbox α}

theorem leads_run (hM : ∀ s e t, M.step s e = some t → Leads (f s) (f t)) {s t : σ}
    {es : List ε} (hrun : M.run s es = some t) : Leads (f s) (f t) :=
  System.run_refines (P := System.unguarded) (fun s e t _ ht => hM s e t ht)
    (System.along_unguarded s es) hrun

theorem Disciplined.run (hM : ∀ s e t, M.step s e = some t → Leads (f s) (f t)) {s t : σ}
    {es : List ε} (h0 : (f s).Disciplined) (hrun : M.run s es = some t) : (f t).Disciplined :=
  h0.leads (leads_run hM hrun)

theorem Disciplined.run_broken (hM : ∀ s e t, M.step s e = some t → Leads (f s) (f t)) {s t : σ}
    {es : List ε} (h0 : (f s).Disciplined) (hb : (f s).broken = true)
    (hrun : M.run s es = some t) : (f t).started = (f s).started :=
  h0.leads_broken hb (leads_run hM hrun)

end Runs
end Inbox
end Channel
