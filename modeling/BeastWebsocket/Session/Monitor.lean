import BeastWebsocket.Session.Watch

/-! # Watching a peer

A peer that gives no sign before the deadline is probed, and one that gives none before the next
deadline either is closed. Each sign begins this anew, with a wait beside those that are
outstanding.
-/
namespace BeastWebsocket
open Transition

theorem Timer.expiresAfter_again (d : ℕ) (t : Timer) :
    (t.expiresAfter d).expiresAfter d = t.expiresAfter d := by
  have hcancel : cancel ∘ cancel = cancel := by
    ext w
    cases w <;> rfl
  simp only [expiresAfter, List.map_map, hcancel]

/-- At most the deadline is moved. -/
def Timer.Moves (d : ℕ) (t u : Timer) : Prop := u = t ∨ u = t.expiresAfter d

theorem Timer.Moves.trans {d : ℕ} {t u v : Timer} (h : Timer.Moves d t u)
    (h' : Timer.Moves d u v) : Timer.Moves d t v := by
  rcases h with rfl | rfl
  · exact h'
  · right
    rcases h' with rfl | rfl
    · rfl
    · exact Timer.expiresAfter_again d t

theorem Timer.Moves.expiry {d : ℕ} {t u : Timer} (h : Timer.Moves d t u)
    (ht : t.expiry.isSome = true) : u.expiry.isSome = true := by
  rcases h with rfl | rfl
  · exact ht
  · rfl

/-- What bears on the peer. -/
inductive Beat where
  | sign
  | probe
  | elapsed (d : ℕ)
  | timeout
  | verdict
deriving DecidableEq

/-- What is known of the peer: whether it has given a sign, how long the last probe has been out
without one, and what has been done since the last sign. For each verdict there is the time that
the probe had been out. -/
structure Hearing where
  heard : Bool := false
  silence : Option ℕ := none
  timeouts : ℕ := 0
  closed : Bool := false
  verdicts : List (Option ℕ) := []
deriving DecidableEq

namespace Hearing

def add (h : Hearing) : Beat → Hearing
  | .sign => { h with heard := true, silence := none, timeouts := 0, closed := false }
  | .probe => { h with silence := some 0 }
  | .elapsed d => { h with silence := h.silence.map (· + d) }
  | .timeout => { h with timeouts := h.timeouts + 1 }
  | .verdict => { h with closed := true, verdicts := h.verdicts ++ [h.silence] }

def of (beats : List Beat) : Hearing := beats.foldl add {}

theorem of_append (beats new : List Beat) : of (beats ++ new) = new.foldl add (of beats) :=
  List.foldl_append

/-- Before each verdict a probe has been out for `d` at least, and without a sign. -/
def Patient (d : ℕ) (h : Hearing) : Prop := ∀ v ∈ h.verdicts, ∃ out, v = some out ∧ d ≤ out

end Hearing

/-- A timer that is waited on, whether its function is the one that gives the verdict, and what is
known of the peer. -/
structure Monitor where
  timer : Timer := {}
  closing : Bool := false
  hearing : Hearing := {}
deriving DecidableEq

namespace Monitor

inductive Op where
  | move
  | hear
  | lapse (i : ℕ) (ec : ErrorCode)
  | tick (k : ℕ)
  | fire

def extend (d : ℕ) (x : Monitor) : Monitor := { x with timer := x.timer.expiresAfter d }

def hear (x : Monitor) : Monitor where
  timer := x.timer.asyncWait
  closing := false
  hearing := x.hearing.add .sign

/-- The deadline has passed. -/
def act (d : ℕ) (x : Monitor) : Monitor :=
  if x.closing then
    { x with timer := x.timer.expiresAfter d,
             hearing := (x.hearing.add .timeout).add .verdict }
  else
    { x with timer := (x.timer.expiresAfter d).asyncWait, closing := true,
             hearing := (x.hearing.add .timeout).add .probe }

/-- A wait completes and its handler runs. -/
def lapse (d i : ℕ) (ec : ErrorCode) (x : Monitor) : Monitor :=
  let y := { x with timer := x.timer.without i }
  if Counts ec then
    if x.timer.expired then y.act d else { y with timer := y.timer.asyncWait }
  else y

/-- A sign is given only once there is a deadline. -/
def step (d : ℕ) (x : Monitor) : Op → Option Monitor
  | .move => some (x.extend d)
  | .hear => if x.timer.expiry.isSome then some x.hear else none
  | .lapse i ec => x.timer.waits[i]?.bind fun w =>
      if w.admits ec then some (x.lapse d i ec) else none
  | .tick k => some { x with timer.now := x.timer.now + k, hearing := x.hearing.add (.elapsed k) }
  | .fire =>
      if x.timer.expired then some { x with timer.waits := x.timer.waits.map Timer.fire } else none

def system (d : ℕ) : System Monitor Op := ⟨step d⟩

variable {d : ℕ} {x y : Monitor} {o : Op}

/-! ## No verdict comes early -/

/-- While the verdict is next, the probe will have been out for `d` at the deadline. -/
structure Accurate (d : ℕ) (x : Monitor) : Prop where
  patient : x.hearing.Patient d
  closing : x.closing = true → ∃ e out, x.timer.expiry = some e ∧ x.hearing.silence = some out ∧
    x.timer.now + d ≤ e + out

theorem accurate_initial : Accurate d {} where
  patient := by simp [Hearing.Patient]
  closing := by simp

theorem Accurate.extend (hx : x.Accurate d) : (x.extend d).Accurate d where
  patient := hx.patient
  closing := by
    intro hclosing
    obtain ⟨_, out, _, hout, _⟩ := hx.closing hclosing
    refine ⟨x.timer.now + d, out, rfl, hout, ?_⟩
    exact Nat.le_add_right _ _

theorem Accurate.act (hx : x.Accurate d) (hexp : x.timer.expired = true) :
    (x.act d).Accurate d := by
  rw [Monitor.act]
  split_ifs with hclosing
  · obtain ⟨e, out, he, hout, hle⟩ := hx.closing hclosing
    obtain ⟨e', he', hpast⟩ := Watch.expired_iff.mp hexp
    cases he.symm.trans he'
    constructor
    · intro v hv
      rcases List.mem_append.mp hv with hv | hv
      · exact hx.patient v hv
      · refine ⟨out, (List.mem_singleton.mp hv).trans hout, ?_⟩
        omega
    · intro _
      refine ⟨x.timer.now + d, out, rfl, hout, ?_⟩
      exact Nat.le_add_right _ _
  · constructor
    · exact hx.patient
    · intro _
      exact ⟨x.timer.now + d, 0, rfl, rfl, Nat.le_refl _⟩

theorem Accurate.step (hx : x.Accurate d) (h : (system d).step x o = some y) : y.Accurate d := by
  cases o with
  | move =>
    cases h
    exact hx.extend
  | hear =>
    obtain ⟨_, h⟩ := Option.ite_none_right_eq_some.mp h
    cases h
    exact ⟨hx.patient, by simp [hear]⟩
  | lapse i ec =>
    obtain ⟨w, _, h⟩ := Option.bind_eq_some_iff.mp h
    obtain ⟨_, h⟩ := Option.ite_none_right_eq_some.mp h
    cases h
    rw [lapse]
    have hwithout : Accurate d { x with timer := x.timer.without i } := ⟨hx.patient, hx.closing⟩
    split_ifs with hcounts hexp
    · exact hwithout.act hexp
    · exact ⟨hx.patient, hx.closing⟩
    · exact hwithout
  | tick k =>
    cases h
    constructor
    · exact hx.patient
    · intro hclosing
      obtain ⟨e, out, he, hout, hle⟩ := hx.closing hclosing
      refine ⟨e, out + k, he, congrArg (Option.map (· + k)) hout, ?_⟩
      change x.timer.now + k + d ≤ e + (out + k)
      omega
  | fire =>
    obtain ⟨_, h⟩ := Option.ite_none_right_eq_some.mp h
    cases h
    exact ⟨hx.patient, hx.closing⟩

/-! ## A silent peer is closed -/

/-- Once there has been a sign, a deadline is set, and until the verdict a wait is outstanding. The
verdict comes with the second timeout behind a sign. -/
structure Vigilant (d : ℕ) (x : Monitor) : Prop where
  unheard : x.hearing.heard = false → x.timer.waits = []
  deadline : x.hearing.heard = true → ∃ e, x.timer.expiry = some e
  near : ∀ e ∈ x.timer.expiry, e ≤ x.timer.now + d
  waiting : x.hearing.heard = true → x.hearing.closed = false → x.timer.waits ≠ []
  closing : x.closing = true ↔ 0 < x.hearing.timeouts
  closed : x.hearing.closed = true ↔ 2 ≤ x.hearing.timeouts

theorem vigilant_initial : Vigilant d {} := by
  constructor <;> simp

/-- The waits that complete do so with errors that meet `C`. -/
def Lapses (C : ErrorCode → Prop) (_ : Monitor) : Op → Prop
  | .lapse _ ec => C ec
  | _ => True

theorem Vigilant.extend (hx : x.Vigilant d) : (x.extend d).Vigilant d where
  unheard := by
    intro hnot
    change x.timer.waits.map Timer.cancel = []
    rw [hx.unheard hnot, List.map_nil]
  deadline := fun _ => ⟨x.timer.now + d, rfl⟩
  near := by
    intro e he
    cases he
    exact Nat.le_refl _
  waiting := by
    intro hheard hopen
    have hwaits := hx.waiting hheard hopen
    simpa [Monitor.extend, Timer.expiresAfter] using hwaits
  closing := hx.closing
  closed := hx.closed

theorem Vigilant.hear (hx : x.Vigilant d) (hdeadline : x.timer.expiry.isSome = true) :
    x.hear.Vigilant d where
  unheard := by simp [Monitor.hear, Hearing.add]
  deadline := fun _ => Option.isSome_iff_exists.mp hdeadline
  near := hx.near
  waiting := by simp [Monitor.hear, Timer.asyncWait]
  closing := by simp [Monitor.hear, Hearing.add]
  closed := by simp [Monitor.hear, Hearing.add]

theorem Vigilant.act (hx : x.Vigilant d) {i : ℕ} (hheard : x.hearing.heard = true) :
    (Monitor.act d { x with timer := x.timer.without i }).Vigilant d := by
  have hcount := hx.closing
  rw [Monitor.act]
  cases hclosing : x.closing with
  | true =>
    rw [hclosing] at hcount
    have hpos : 0 < x.hearing.timeouts := hcount.mp rfl
    constructor
    · intro hnot
      exact absurd (hheard.symm.trans hnot) (by simp)
    · exact fun _ => ⟨x.timer.now + d, rfl⟩
    · intro e he
      cases he
      exact Nat.le_refl _
    · simp [Hearing.add]
    · simp [Hearing.add]
    · simp [Hearing.add]
      omega
  | false =>
    rw [hclosing] at hcount
    have hnone : x.hearing.timeouts = 0 := by simpa using hcount
    have hopen : ¬ x.hearing.closed = true := by
      rw [hx.closed]
      omega
    constructor
    · intro hnot
      exact absurd (hheard.symm.trans hnot) (by simp)
    · exact fun _ => ⟨x.timer.now + d, rfl⟩
    · intro e he
      cases he
      exact Nat.le_refl _
    · simp [Timer.asyncWait]
    · simp [Hearing.add]
    · simp [Hearing.add, hopen, hnone]

theorem Vigilant.lapse (hx : x.Vigilant d) {i : ℕ} {w : Wait} (hw : x.timer.waits[i]? = some w)
    {ec : ErrorCode} (hcounts : Counts ec) : (x.lapse d i ec).Vigilant d := by
  have hheard : x.hearing.heard = true := by
    by_contra hnot
    rw [hx.unheard (by simpa using hnot)] at hw
    cases hw
  rw [Monitor.lapse, if_pos hcounts]
  split_ifs with hexp
  · exact hx.act hheard
  · constructor
    · intro hnot
      exact absurd (hheard.symm.trans hnot) (by simp)
    · exact hx.deadline
    · exact hx.near
    · simp [Timer.asyncWait]
    · exact hx.closing
    · exact hx.closed

theorem Vigilant.step (hx : x.Vigilant d) (ho : x.Lapses Counts o)
    (h : (system d).step x o = some y) : y.Vigilant d := by
  cases o with
  | move =>
    cases h
    exact hx.extend
  | hear =>
    obtain ⟨hdeadline, h⟩ := Option.ite_none_right_eq_some.mp h
    cases h
    exact hx.hear hdeadline
  | lapse i ec =>
    obtain ⟨w, hw, h⟩ := Option.bind_eq_some_iff.mp h
    obtain ⟨_, h⟩ := Option.ite_none_right_eq_some.mp h
    cases h
    exact hx.lapse hw ho
  | tick k =>
    cases h
    refine ⟨hx.unheard, hx.deadline, ?_, hx.waiting, hx.closing, hx.closed⟩
    intro e he
    have hle := hx.near e he
    change e ≤ x.timer.now + k + d
    omega
  | fire =>
    obtain ⟨_, h⟩ := Option.ite_none_right_eq_some.mp h
    cases h
    refine ⟨?_, hx.deadline, hx.near, ?_, hx.closing, hx.closed⟩
    · intro hnot
      change x.timer.waits.map Timer.fire = []
      rw [hx.unheard hnot, List.map_nil]
    · intro hheard hopen
      simpa using hx.waiting hheard hopen

/-- Until the verdict, once the clock has moved on by `d` there is a wait that can complete and
times out. -/
theorem Vigilant.lapses (hx : x.Vigilant d) (hheard : x.hearing.heard = true)
    (hopen : x.hearing.closed = false) {k : ℕ} (hk : d ≤ k) :
    ∃ w ec, Counts ec ∧ (x.timer.waits.map Timer.fire)[0]? = some w ∧ w.admits ec = true ∧
      ({ x.timer with now := x.timer.now + k } : Timer).expired = true := by
  obtain ⟨e, he⟩ := hx.deadline hheard
  have hnear := hx.near e he
  have hexp : ({ x.timer with now := x.timer.now + k } : Timer).expired = true := by
    refine Watch.expired_iff.mpr ⟨e, he, ?_⟩
    change e ≤ x.timer.now + k
    omega
  cases hwaits : x.timer.waits with
  | nil => exact absurd hwaits (hx.waiting hheard hopen)
  | cons w ws =>
    cases w with
    | armed => exact ⟨.fired, .success, by simp [Counts], rfl, rfl, hexp⟩
    | aborted => exact ⟨.aborted, .operationAborted, by simp [Counts], rfl, rfl, hexp⟩
    | fired => exact ⟨.fired, .success, by simp [Counts], rfl, rfl, hexp⟩

/-- A wait that completes behind the deadline is one timeout more. -/
theorem lapse_timeouts {i : ℕ} {ec : ErrorCode} (hcounts : Counts ec)
    (hexp : x.timer.expired = true) :
    (x.lapse d i ec).hearing.timeouts = x.hearing.timeouts + 1 := by
  rw [lapse, if_pos hcounts, if_pos hexp, act]
  split_ifs <;> rfl

end Monitor
end BeastWebsocket
