import BeastWebsocket.Session.Called
import BeastWebsocket.Session.Deadline
import BeastWebsocket.Session.Handshake
import BeastWebsocket.Session.Monitor

/-! # What a session knows of its peer

A message or a pong that user code is told of is a sign of the peer, a ping probes it, and a close
is the verdict. Beside that a session keeps its timer, and moves the deadline.
-/
namespace BeastWebsocket
open Transition

def Obs.beat? : Obs → Option Beat
  | .called (.message _) | .called (.pong _) => some .sign
  | .started (.ping _) => some .probe
  | .started (.close _) => some .verdict
  | .ticked d => some (.elapsed d)
  | .timeout => some .timeout
  | _ => none

abbrev beats (log : List Obs) : List Beat := project Obs.beat? log

/-- A callback that tells of the peer. -/
def Callback.isSign : Callback → Bool
  | .message _ | .pong _ => true
  | _ => false

def Callback.signs (c : Option Callback) : List Beat := if c.any isSign then [.sign] else []

namespace Session
variable {κ : Type} {x : Session κ} {cb : Callbacks}

theorem beats_emit {o : Obs} (h : o.beat? = none) : beats (x.emit o).log = beats x.log :=
  project_snoc_none h

theorem beats_invoke (installed : Bool) (c : Callback) :
    beats (x.invoke installed c).log =
      beats x.log ++ Callback.signs (if installed then some c else none) := by
  cases installed with
  | false => exact (List.append_nil _).symm
  | true =>
    simp only [invoke, emit, if_true, project_append, project_cons, project_nil]
    cases c <;> rfl

theorem beats_readDone (ec : ErrorCode) (chunk : Bytes) (text : Bool) :
    beats (x.readDone ec chunk text).log = beats x.log := by
  rw [readDone]
  split_ifs
  · exact project_snoc_none rfl
  · exact (project_snoc_none rfl).trans (project_snoc_none rfl)

theorem beats_report (what : String) (ec : ErrorCode) :
    beats (x.report what ec).log = beats x.log := by
  rw [report]
  split_ifs
  · rfl
  · exact beats_emit rfl
  · rfl

theorem beats_controlFrame (kind : FrameType) (payload : Bytes) :
    beats (x.controlFrame cb kind payload).log =
      beats x.log ++ Callback.signs
        (if x.stream.controlCallback then cb.control kind payload else none) := by
  have hframe : beats (x.emit (.control kind payload)).log = beats x.log := beats_emit rfl
  rw [← hframe]
  cases hset : x.stream.controlCallback with
  | false => simp [controlFrame, emit, hset, Callback.signs]
  | true =>
    simp only [controlFrame, emit, hset, if_true, onControlCallback, Callbacks.control]
    split_ifs <;> simp [Callback.signs, Callback.isSign, Obs.beat?]

theorem beats_matchFrame : beats x.matchFrame.log = beats x.log := by
  rw [matchFrame]
  split_ifs <;> rfl

end Session

namespace Server
variable {cb : Callbacks} {s t u : Server} {e : Event}

/-- What the event brings that bears on the peer. -/
def beat (cb : Callbacks) (s : Server) : Event → List Beat
  | .call (.doPing _) => if s.accepted then [.probe] else []
  | .call (.doClose _) => if s.accepted then [.verdict] else []
  | .waitDone _ ec =>
      if Counts ec ∧ s.timer.expired = true then
        .timeout :: if s.onTimerCb then [] else [.verdict]
      else []
  | .tick d => [.elapsed d]
  | e => Callback.signs (s.callback cb e)

theorem beats_operate {f : Session Unit → Session Unit} {b : Beat}
    (hf : ∀ x : Session Unit, beats (f x).log = beats x.log ++ [b]) :
    beats (s.operate f).log = beats s.log ++ if s.accepted then [b] else [] := by
  rw [operate]
  cases s.accepted with
  | false => exact (List.append_nil _).symm
  | true => exact hf s.toSession

theorem beats_doAccept : beats (s.doAccept cb).log = beats s.log := by
  rw [doAccept]
  split_ifs
  · rfl
  · exact Session.beats_emit rfl

theorem beats_doPong (payload : Bytes) : beats (s.doPong payload).log = beats s.log := by
  rw [doPong, operate]
  split_ifs
  · rfl
  · exact Session.beats_emit rfl

theorem beats_doRead : beats s.doRead.log = beats s.log := by
  rw [doRead]
  split_ifs
  · rfl
  · exact Session.beats_emit rfl

theorem beats_readOn : beats s.readOn.log = beats s.log := by
  rw [readOn]
  split_ifs
  · exact beats_doRead
  · rfl

theorem beats_doWrite : beats s.doWrite.log = beats s.log := by
  rw [doWrite]
  split_ifs
  · rfl
  · exact Session.beats_emit rfl

theorem beats_writeOrRead : beats s.writeOrRead.log = beats s.log := by
  rw [writeOrRead]
  split_ifs
  · exact beats_doWrite
  · exact beats_readOn

theorem beats_call (c : Call) :
    beats (s.call cb c).log = beats s.log ++ s.beat cb (.call c) := by
  have hnothing : beats s.log = beats s.log ++ [] := (List.append_nil _).symm
  cases c with
  | doAccept => exact beats_doAccept.trans hnothing
  | append b => exact (Session.beats_emit rfl).trans hnothing
  | doPing payload => exact beats_operate fun x => project_append _ x.log _
  | doPong payload => exact (beats_doPong payload).trans hnothing
  | doClose reason => exact beats_operate fun x => project_append _ x.log _
  | launchTimer => exact (Session.beats_emit rfl).trans hnothing
  | launchTimerWith target => exact (Session.beats_emit rfl).trans hnothing
  | doRead => exact beats_doRead.trans hnothing
  | doWrite => exact beats_doWrite.trans hnothing
  | _ => exact hnothing

theorem beats_onAccept (ec : ErrorCode) : beats (s.onAccept cb ec).log = beats s.log := by
  rw [onAccept]
  split_ifs
  · rfl
  · exact Session.beats_emit rfl
  · refine (Session.beats_invoke cb.onOpen .accept).trans ?_
    cases cb.onOpen <;> exact List.append_nil _

theorem beats_onRead (ec : ErrorCode) (chunk : Bytes) (text : Bool) :
    beats ((s.io (Session.readDone ec chunk text)).onRead cb ec).log =
      beats s.log ++ s.beat cb (.readDone ec chunk text) := by
  have hdone := Session.beats_readDone (x := s.toSession) ec chunk text
  rw [← hdone, beat]
  · by_cases hec : ec = .success
    · subst hec
      exact Session.beats_invoke cb.onMessage _
    · rw [onRead, callback]
      split_ifs <;> simp_all [Callback.signs, io, Session.fail, Session.emit, Obs.beat?]
  all_goals simp

theorem beats_onWrite (ec : ErrorCode) : beats (s.onWrite ec).log = beats s.log := by
  rw [onWrite]
  split_ifs
  · rfl
  · exact Session.beats_emit rfl
  · exact beats_readOn.trans (Session.beats_emit rfl)

theorem beats_onTimer (cb : Callbacks) (i : ℕ) (ec : ErrorCode) :
    beats (s.onTimer ec).log = beats s.log ++ s.beat cb (.waitDone i ec) := by
  rw [onTimer, timeoutAction, beat]
  by_cases hcounts : Counts ec
  · have hec : ¬ (ec.failed = true ∧ ec ≠ .operationAborted) := hcounts
    rw [if_neg hec]
    by_cases hexp : s.timer.expired = true
    · rw [if_pos hexp, if_pos (And.intro hcounts hexp)]
      cases hcb : s.onTimerCb <;>
        simp [io, launchTimer, expiresAfter, Session.emit, Session.asyncClose, Obs.beat?, hcb]
    · rw [if_neg hexp, if_neg fun h => hexp h.2]
      exact (Session.beats_emit rfl).trans (List.append_nil _).symm
  · have hec : ec.failed = true ∧ ec ≠ .operationAborted := by
      by_contra hnot
      exact hcounts hnot
    rw [if_pos hec, if_neg fun h => hcounts h.1]
    exact (Session.beats_emit rfl).trans (List.append_nil _).symm

theorem beats_resume (h : s.resume = some t) : beats t.log = beats s.log := by
  rw [resume] at h
  cases hframe : s.frame with
  | idle =>
    rw [hframe] at h
    cases h
  | opening =>
    rw [hframe] at h
    cases h
    exact beats_writeOrRead
  | reading =>
    rw [hframe] at h
    cases h
    refine beats_writeOrRead.trans (Session.beats_matchFrame.trans ?_)
    exact Session.beats_emit rfl

/-- The record shows what `beat` names, in this order. -/
theorem step_beats (h : (system cb).step s e = some t) :
    beats t.log = beats s.log ++ s.beat cb e := by
  have hnothing : beats s.log = beats s.log ++ [] := (List.append_nil _).symm
  cases e with
  | call c =>
    cases h
    exact beats_call c
  | acceptDone ec =>
    obtain ⟨_, rfl⟩ := Session.handled_eq_some.mp h
    refine (beats_onAccept ec).trans ((Session.beats_emit rfl).trans ?_)
    rw [beat, callback]
    · split_ifs <;> exact hnothing
    all_goals simp
  | readDone ec chunk text =>
    obtain ⟨_, rfl⟩ := Session.handled_eq_some.mp h
    exact beats_onRead ec chunk text
  | writeDone i ec =>
    obtain ⟨w, _, h⟩ := Option.bind_eq_some_iff.mp h
    obtain ⟨_, rfl⟩ := Session.handled_eq_some.mp h
    exact (beats_onWrite ec).trans ((Session.beats_emit rfl).trans hnothing)
  | pingDone ec =>
    obtain ⟨_, rfl⟩ := Session.handled_eq_some.mp h
    exact (Session.beats_report "ping" ec).trans ((Session.beats_emit rfl).trans hnothing)
  | pongDone ec =>
    obtain ⟨_, rfl⟩ := Session.handled_eq_some.mp h
    exact (Session.beats_report "pong" ec).trans ((Session.beats_emit rfl).trans hnothing)
  | closeDone ec =>
    obtain ⟨_, rfl⟩ := Session.handled_eq_some.mp h
    exact (Session.beats_report "close" ec).trans ((Session.beats_emit rfl).trans hnothing)
  | waitDone i ec =>
    obtain ⟨w, _, h⟩ := Option.bind_eq_some_iff.mp h
    obtain ⟨_, rfl⟩ := Session.handled_eq_some.mp h
    refine (beats_onTimer cb i ec).trans ?_
    exact congrArg (· ++ _) (Session.beats_emit rfl)
  | control kind payload =>
    obtain ⟨_, rfl⟩ := Session.handled_eq_some.mp h
    exact Session.beats_controlFrame kind payload
  | resume => exact (beats_resume h).trans hnothing
  | tick d =>
    cases h
    exact project_append _ s.log _
  | expire =>
    obtain ⟨_, h⟩ := Option.ite_none_right_eq_some.mp h
    cases h
    exact hnothing

/-- A pong that user code is told of has arrived. -/
theorem callback_pong {payload : Bytes} (h : s.callback cb e = some (.pong payload)) :
    ∃ kind payload, e = .control kind payload := by
  cases e with
  | control kind payload => exact ⟨kind, payload, rfl⟩
  | acceptDone ec | readDone ec chunk text | waitDone i ec =>
    obtain ⟨_, h⟩ := Option.ite_none_right_eq_some.mp h
    cases h
  | _ => cases h

theorem callback_timer (h : s.callback cb e = some .timer) : ∃ i ec, e = .waitDone i ec := by
  cases e with
  | waitDone i ec => exact ⟨i, ec, rfl⟩
  | control kind payload =>
    obtain ⟨_, h⟩ := Option.ite_none_right_eq_some.mp h
    rw [Callbacks.control] at h
    split_ifs at h <;> cases h
  | acceptDone ec | readDone ec chunk text =>
    obtain ⟨_, h⟩ := Option.ite_none_right_eq_some.mp h
    cases h
  | _ => cases h

/-! ## The session as a monitor -/

/-- `closing` tells whether the function of the timer is the one that closes the connection. -/
def monitor (closing : Bool) (s : Server) : Monitor := ⟨s.timer, closing, .of (beats s.log)⟩

/-- From `s` to `t` nothing bears on the peer, and at most the deadline is moved. -/
structure Rests (s t : Server) : Prop where
  beats : beats t.log = beats s.log
  timer : s.timer.Moves (seconds 10) t.timer

theorem Rests.refl (s : Server) : Rests s s := ⟨rfl, Or.inl rfl⟩

theorem Rests.trans (h : Rests s t) (h' : Rests t u) : Rests s u :=
  ⟨h'.beats.trans h.beats, h.timer.trans h'.timer⟩

theorem step_moves (hop : timerOp (s, []) e = none ∨ timerOp (s, []) e = some .move)
    (h : (system cb).step s e = some t) : s.timer.Moves (seconds 10) t.timer := by
  have hwait : ∀ i ec, e ≠ .waitDone i ec := by
    rintro i ec rfl
    simp [timerOp] at hop
  have hwatch := step_watch hwait [] h
  rcases hop with hop | hop
  · rw [hop] at hwatch
    exact Or.inl (congrArg Watch.timer (Option.some.inj hwatch)).symm
  · rw [hop] at hwatch
    exact Or.inr (congrArg Watch.timer (Option.some.inj hwatch)).symm

/-- Events that bring nothing of the peer and do no more to the timer than move the deadline. -/
theorem step_rests (hbeat : s.beat cb e = [])
    (hop : timerOp (s, []) e = none ∨ timerOp (s, []) e = some .move)
    (h : (system cb).step s e = some t) : Rests s t where
  beats := by rw [step_beats h, hbeat, List.append_nil]
  timer := step_moves hop h

/-- The calls by which user code reads, writes and answers. -/
def Call.plain : Call → Bool
  | .append _ | .doRead | .doWrite => true
  | _ => false

theorem Rests.call {c : Call} (hc : c.plain = true) (s : Server) : Rests s (s.call cb c) := by
  have hstep : (system cb).step s (.call c) = some (s.call cb c) := rfl
  cases c with
  | append b => exact step_rests rfl (Or.inl rfl) hstep
  | doWrite => exact step_rests rfl (Or.inl rfl) hstep
  | doRead =>
    apply step_rests rfl _ hstep
    rw [timerOp]
    split_ifs <;> simp
  | _ => cases hc

theorem Rests.resume (h : s.resume = some t) : Rests s t := by
  have hstep : (system {}).step s .resume = some t := h
  apply step_rests rfl _ hstep
  rw [timerOp]
  split_ifs <;> simp

theorem Rests.monitor (h : Rests s t) (closing : Bool) :
    t.monitor closing = s.monitor closing ∨
      t.monitor closing = (s.monitor closing).extend (seconds 10) := by
  rw [Server.monitor, Server.monitor, h.beats]
  rcases h.timer with htimer | htimer
  · exact Or.inl (by rw [htimer])
  · exact Or.inr (by rw [htimer]; rfl)

/-- The handler of a wait that completes. -/
theorem waitDone_timer {i : ℕ} {ec : ErrorCode} (h : (system cb).step s (.waitDone i ec) = some t) :
    ∃ w, s.timer.waits[i]? = some w ∧ w.admits ec = true ∧
      t.timer = (s.timer.without i).handle (seconds 10) ec s.onTimerCb := by
  obtain ⟨w, hw, h⟩ := Option.bind_eq_some_iff.mp h
  obtain ⟨⟨_, hadmits⟩, rfl⟩ := Session.handled_eq_some.mp h
  exact ⟨w, hw, hadmits, onTimer_timer ec⟩

/-! ## Waits beside a callback -/

theorem readOn_onTimerCb : s.readOn.onTimerCb = s.onTimerCb := by
  rw [readOn, doRead]
  split_ifs <;> rfl

theorem writeOrRead_onTimerCb : s.writeOrRead.onTimerCb = s.onTimerCb := by
  rw [writeOrRead, doWrite]
  split_ifs
  · rfl
  · rfl
  · exact readOn_onTimerCb

theorem resume_onTimerCb (h : s.resume = some t) : t.onTimerCb = s.onTimerCb := by
  rw [resume] at h
  cases hframe : s.frame with
  | idle =>
    rw [hframe] at h
    cases h
  | opening =>
    rw [hframe] at h
    cases h
    exact writeOrRead_onTimerCb
  | reading =>
    rw [hframe] at h
    cases h
    exact writeOrRead_onTimerCb

theorem call_onTimerCb {c : Call} (hc : ∀ target, c ≠ .launchTimerWith target) :
    (s.call cb c).onTimerCb = s.onTimerCb := by
  cases c with
  | launchTimerWith target => exact absurd rfl (hc target)
  | doAccept =>
    rw [call, doAccept]
    split_ifs <;> rfl
  | doPing payload | doPong payload | doClose reason =>
    simp only [call, doPing, doPong, doClose, operate]
    split_ifs <;> rfl
  | doRead =>
    rw [call, doRead]
    split_ifs <;> rfl
  | doWrite =>
    rw [call, doWrite]
    split_ifs <;> rfl
  | _ => rfl

/-- Only `launch_timer` sets the callback of the timer. -/
theorem step_onTimerCb (he : ∀ target, e ≠ .call (.launchTimerWith target))
    (h : (system cb).step s e = some t) : t.onTimerCb = s.onTimerCb := by
  cases e with
  | call c =>
    cases h
    apply call_onTimerCb
    rintro target rfl
    exact he target rfl
  | acceptDone ec =>
    obtain ⟨_, rfl⟩ := Session.handled_eq_some.mp h
    rw [onAccept]
    split_ifs <;> rfl
  | readDone ec chunk text =>
    obtain ⟨_, rfl⟩ := Session.handled_eq_some.mp h
    rw [onRead]
    split_ifs <;> rfl
  | writeDone i ec =>
    obtain ⟨w, _, h⟩ := Option.bind_eq_some_iff.mp h
    obtain ⟨_, rfl⟩ := Session.handled_eq_some.mp h
    rw [onWrite]
    split_ifs
    · rfl
    · rfl
    · exact readOn_onTimerCb
  | waitDone i ec =>
    obtain ⟨w, _, h⟩ := Option.bind_eq_some_iff.mp h
    obtain ⟨_, rfl⟩ := Session.handled_eq_some.mp h
    rw [onTimer, timeoutAction]
    split_ifs <;> rfl
  | resume => exact resume_onTimerCb h
  | tick d =>
    cases h
    rfl
  | expire =>
    obtain ⟨_, h⟩ := Option.ite_none_right_eq_some.mp h
    cases h
    rfl
  | _ =>
    obtain ⟨_, rfl⟩ := Session.handled_eq_some.mp h
    rfl

/-- A wait is outstanding only where the timer has a callback and the session has accepted, and a
deadline is set where it is accepting or has accepted. -/
structure Minds (s : Server) : Prop where
  waits : s.timer.waits ≠ [] → s.accepted = true ∧ s.onTimerCb = true
  deadline : s.accepted = true ∨ 0 < s.stream.handshakes → s.timer.expiry.isSome = true

theorem minds_initial : Minds {} := by
  constructor <;> simp

theorem launches_of_timerOp (h : timerOp (s, []) e = some .launch) :
    e = .call .launchTimer ∨ ∃ target, e = .call (.launchTimerWith target) := by
  cases e with
  | call c =>
    cases c with
    | launchTimer => exact Or.inl rfl
    | launchTimerWith target => exact Or.inr ⟨target, rfl⟩
    | _ => simp [timerOp] at h
  | _ => simp [timerOp] at h

/-- A session that begins to accept sets a deadline. -/
theorem deadline_of_opens (hbefore : ¬ (s.accepted = true ∨ 0 < s.stream.handshakes))
    (hopen : t.accepted = true ∨ 0 < t.stream.handshakes) (h : (system cb).step s e = some t) :
    t.timer.expiry.isSome = true := by
  rw [not_or, Bool.not_eq_true] at hbefore
  by_cases hcall : e = .call .doAccept
  · subst hcall
    cases h
    rw [call, doAccept_timer, hbefore.1]
    rfl
  · have hdone : ∀ ec, e ≠ .acceptDone ec := by
      rintro ec rfl
      exact hbefore.2 (Session.handled_eq_some.mp h).1.2
    rw [step_accepted h, opens_eq_false hdone, hbefore.1, step_handshakes hcall hdone h] at hopen
    exact absurd (hopen.resolve_left (by simp)) hbefore.2

/-- Where no wait is launched beside those that complete. -/
theorem Minds.step (hs : s.Minds)
    (hlaunch : ∀ c, e = .call c → c ≠ .launchTimer ∧ ∀ target, c ≠ .launchTimerWith target)
    (h : (system cb).step s e = some t) : t.Minds := by
  have htimer := refines_watch (s, []) e (t, s.acted e) (System.traced_step.mpr ⟨h, rfl⟩)
  constructor
  · intro hwaits
    have hop : timerOp (s, []) e ≠ some .launch := by
      intro hop
      rcases launches_of_timerOp hop with rfl | ⟨target, rfl⟩
      · exact (hlaunch _ rfl).1 rfl
      · exact (hlaunch _ rfl).2 target rfl
    obtain ⟨haccepted, hcallback⟩ := hs.waits (Watch.perform_waits hop htimer hwaits)
    constructor
    · rw [step_accepted h, haccepted, Bool.true_or]
    · rw [step_onTimerCb (fun target he => (hlaunch _ he).2 target rfl) h, hcallback]
  · intro hopen
    by_cases hbefore : s.accepted = true ∨ 0 < s.stream.handshakes
    · exact Watch.perform_deadline htimer (hs.deadline hbefore)
    · exact deadline_of_opens hbefore hopen h

theorem Minds.call (hs : s.Minds) {c : Call} (hc : c.plain = true) : (s.call cb c).Minds := by
  have hstep : (system cb).step s (.call c) = some (s.call cb c) := rfl
  apply hs.step _ hstep
  intro c' heq
  cases heq
  cases c <;> simp_all [Call.plain]

theorem Minds.resume (hs : s.Minds) (h : s.resume = some t) : t.Minds := by
  have hstep : (system {}).step s .resume = some t := h
  exact hs.step (by simp) hstep

theorem Minds.launch (hs : s.Minds) (haccepted : s.accepted = true) :
    (s.call cb (.launchTimerWith true)).Minds where
  waits := fun _ => ⟨haccepted, rfl⟩
  deadline := hs.deadline

end Server
end BeastWebsocket
