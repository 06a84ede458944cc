import BeastWebsocket.Session.Server
import BeastWebsocket.Session.Watch
import BeastWebsocket.Transition.Trace
import Mathlib.Tactic.SplitIfs

/-! # One timeout for each deadline

`launch_timer` adds a wait, and `on_timer` puts another one in the place of each that completes
before the deadline, an aborted one included: waits that are launched beside each other never
die out. A wait that completes behind its deadline takes the action, whether or not another one
has taken it on this deadline.
-/
namespace BeastWebsocket
open Transition

namespace Server
variable {cb : Callbacks} {s t : Server}

/-- The deadline on which the event takes the timeout action. -/
def acted (s : Server) : Event → List ℕ
  | .waitDone _ ec =>
      if Counts ec ∧ s.timer.expired = true then s.timer.expiry.toList else []
  | _ => []

/-- The session, and the deadlines on which its run has taken the timeout action. -/
def watched (cb : Callbacks) : System (Server × List ℕ) Event := (system cb).traced acted

def watch (p : Server × List ℕ) : Watch := ⟨p.1.timer, p.2⟩

/-- `do_read` gets past its guard. -/
def mayRead (s : Server) : Bool := s.accepted && s.readable

/-- What the event does to the timer. -/
def timerOp (p : Server × List ℕ) : Event → Option Watch.Op
  | .call .doAccept => if p.1.accepted then none else some .move
  | .call (.doPing _) | .call (.doPong _) | .call (.doClose _) =>
      if p.1.accepted then some .move else none
  | .call .launchTimer | .call (.launchTimerWith _) => some .launch
  | .call .doRead => if p.1.mayRead then some .move else none
  | .writeDone _ ec => if !ec.failed && p.1.mayRead then some .move else none
  | .waitDone i ec => some (.lapse i ec p.1.onTimerCb)
  | .resume => if p.1.outputBuffer.isEmpty && p.1.mayRead then some .move else none
  | .tick k => some (.tick k)
  | .expire => some .fire
  | _ => none

theorem doAccept_timer :
    (s.doAccept cb).timer =
      if s.accepted then s.timer else s.timer.expiresAfter (seconds 10) := by
  rw [doAccept]
  split_ifs <;> rfl

theorem operate_timer (f : Session Unit → Session Unit) :
    (s.operate f).timer =
      if s.accepted then s.timer.expiresAfter (seconds 10) else s.timer := by
  rw [operate]
  cases s.accepted <;> rfl

theorem doRead_timer :
    s.doRead.timer = if s.mayRead then s.timer.expiresAfter (seconds 10) else s.timer := by
  rw [doRead, mayRead]
  cases s.accepted <;> cases s.readable <;> rfl

theorem readOn_timer :
    s.readOn.timer = if s.mayRead then s.timer.expiresAfter (seconds 10) else s.timer := by
  rw [readOn]
  split_ifs with hready hmay
  · rw [doRead_timer, if_pos hmay]
  · rw [doRead_timer, if_neg hmay]
  · simp_all [mayRead]
  · rfl

theorem doWrite_timer : s.doWrite.timer = s.timer := by
  rw [doWrite]
  split_ifs <;> rfl

theorem writeOrRead_timer :
    s.writeOrRead.timer =
      if s.outputBuffer.isEmpty && s.mayRead then s.timer.expiresAfter (seconds 10)
      else s.timer := by
  rw [writeOrRead]
  cases hout : s.outputBuffer with
  | nil => exact readOn_timer
  | cons b bs => exact doWrite_timer

theorem onAccept_timer (ec : ErrorCode) : (s.onAccept cb ec).timer = s.timer := by
  rw [onAccept]
  split_ifs <;> rfl

theorem onRead_timer (ec : ErrorCode) : (s.onRead cb ec).timer = s.timer := by
  rw [onRead]
  split_ifs <;> rfl

theorem onWrite_timer (ec : ErrorCode) :
    (s.onWrite ec).timer =
      if !ec.failed && s.mayRead then s.timer.expiresAfter (seconds 10) else s.timer := by
  rw [onWrite]
  by_cases hab : ec = .operationAborted
  · rw [if_pos hab, hab]
    rfl
  · rw [if_neg hab]
    cases hec : ec.failed with
    | true => rfl
    | false => exact readOn_timer

theorem matchFrame_same (x : Session Unit) :
    x.matchFrame.readable = x.readable ∧ x.matchFrame.outputBuffer = x.outputBuffer := by
  rw [Session.matchFrame]
  split_ifs <;> exact ⟨rfl, rfl⟩

theorem resume_timer (h : s.resume = some t) :
    t.timer =
      if s.outputBuffer.isEmpty && s.mayRead then s.timer.expiresAfter (seconds 10)
      else s.timer := by
  rw [resume] at h
  cases hframe : s.frame with
  | idle =>
    rw [hframe] at h
    cases h
  | opening =>
    rw [hframe] at h
    cases h
    exact writeOrRead_timer
  | reading =>
    rw [hframe] at h
    cases h
    obtain ⟨hready, hout⟩ := matchFrame_same s.leave.consumeInput
    have hrest := writeOrRead_timer
      (s := ((s.io Session.leave).io Session.consumeInput).io Session.matchFrame)
    have hmay : (((s.io Session.leave).io Session.consumeInput).io Session.matchFrame).mayRead =
        s.mayRead := congrArg (s.accepted && ·) hready
    rw [hmay, show (((s.io Session.leave).io Session.consumeInput).io
      Session.matchFrame).outputBuffer = s.outputBuffer from hout] at hrest
    exact hrest

/-- An operation that may move the deadline. -/
theorem perform_move (c : Bool) (s : Server) (l : List ℕ) :
    (Watch.system (seconds 10)).perform (watch (s, l)) (if c then some .move else none) =
      some ⟨if c then s.timer.expiresAfter (seconds 10) else s.timer, l⟩ := by
  cases c <;> rfl

theorem call_timer (c : Call) (l : List ℕ) :
    (Watch.system (seconds 10)).perform (watch (s, l)) (timerOp (s, l) (.call c)) =
      some (watch (s.call cb c, l)) := by
  cases c with
  | doAccept =>
    rw [watch, watch, call, doAccept_timer, timerOp]
    cases s.accepted <;> rfl
  | doPing payload =>
    rw [watch, watch, call, doPing, operate_timer]
    exact perform_move s.accepted s l
  | doPong payload =>
    rw [watch, watch, call, doPong, operate_timer]
    exact perform_move s.accepted s l
  | doClose reason =>
    rw [watch, watch, call, doClose, operate_timer]
    exact perform_move s.accepted s l
  | doRead =>
    rw [watch, watch, call, doRead_timer]
    exact perform_move s.mayRead s l
  | doWrite =>
    rw [watch, watch, call, doWrite_timer]
    rfl
  | _ => rfl

theorem onTimer_timer (ec : ErrorCode) :
    (s.onTimer ec).timer = s.timer.handle (seconds 10) ec s.onTimerCb := by
  rw [onTimer, Timer.handle]
  by_cases hec : ec.failed = true ∧ ec ≠ .operationAborted
  · have hnot : ¬ Counts ec := fun h => h hec
    rw [if_pos hec, if_neg hnot]
    rfl
  · have hcounts : Counts ec := hec
    rw [if_neg hec, if_pos hcounts]
    by_cases hexp : s.timer.expired = true
    · rw [if_pos hexp, if_pos hexp, timeoutAction]
      cases hcb : s.onTimerCb <;> simp [io, launchTimer, expiresAfter, hcb]
    · rw [if_neg hexp, if_neg hexp]
      rfl

/-- The handler of a wait is `lapse`. -/
theorem onTimer_watch (i : ℕ) (ec : ErrorCode) (l : List ℕ) :
    watch ((({ s with timer.waits := s.timer.waits.eraseIdx i }.io
        (Session.emit (.finished .wait ec))).onTimer ec), l ++ s.acted (.waitDone i ec)) =
      (watch (s, l)).lapse (seconds 10) i ec s.onTimerCb := by
  rw [watch, onTimer_timer, Watch.lapse, acted]
  by_cases hact : Counts ec ∧ s.timer.expired = true
  · rw [if_pos hact, if_pos (show Counts ec ∧ (watch (s, l)).timer.expired = true from hact)]
    rfl
  · rw [if_neg hact, if_neg (show ¬ (Counts ec ∧ (watch (s, l)).timer.expired = true) from hact),
      List.append_nil]
    rfl

theorem acted_eq_nil {e : Event} (h : ∀ i ec, e ≠ .waitDone i ec) : s.acted e = [] := by
  cases e with
  | waitDone i ec => exact absurd rfl (h i ec)
  | _ => rfl

/-- An event that completes no wait moves the timer, or leaves it alone. -/
theorem step_watch {e : Event} (hwait : ∀ i ec, e ≠ .waitDone i ec) (l : List ℕ)
    (h : (system cb).step s e = some t) :
    (Watch.system (seconds 10)).perform (watch (s, l)) (timerOp (s, l) e) =
      some (watch (t, l)) := by
  cases e with
  | waitDone i ec => exact absurd rfl (hwait i ec)
  | call c =>
    cases h
    exact call_timer c l
  | acceptDone ec =>
    obtain ⟨_, rfl⟩ := Session.handled_eq_some.mp h
    rw [watch, watch, onAccept_timer]
    rfl
  | readDone ec chunk text =>
    obtain ⟨_, rfl⟩ := Session.handled_eq_some.mp h
    rw [watch, watch, onRead_timer]
    rfl
  | writeDone i ec =>
    obtain ⟨w, _, h⟩ := Option.bind_eq_some_iff.mp h
    obtain ⟨_, rfl⟩ := Session.handled_eq_some.mp h
    rw [watch, watch, onWrite_timer]
    exact perform_move (!ec.failed && s.mayRead) s l
  | resume =>
    rw [watch, watch, resume_timer h]
    exact perform_move (s.outputBuffer.isEmpty && s.mayRead) s l
  | tick k =>
    cases h
    rfl
  | expire =>
    obtain ⟨hexp, h⟩ := Option.ite_none_right_eq_some.mp h
    cases h
    exact if_pos hexp
  | _ =>
    obtain ⟨_, rfl⟩ := Session.handled_eq_some.mp h
    rfl

/-- Each event of the session is at most one step of its timer. -/
theorem refines_watch :
    (watched cb).Refines (Watch.system (seconds 10)) watch timerOp := by
  rintro ⟨s, l⟩ e ⟨t, l'⟩ h
  obtain ⟨ht, hl⟩ := System.traced_step.mp h
  have hstep : (system cb).step s e = some t := ht
  have htrace : l' = l ++ s.acted e := hl
  subst htrace
  by_cases hcompletes : ∃ i ec, e = .waitDone i ec
  · obtain ⟨i, ec, rfl⟩ := hcompletes
    obtain ⟨w, hw, hstep⟩ := Option.bind_eq_some_iff.mp hstep
    obtain ⟨⟨_, hadmits⟩, rfl⟩ := Session.handled_eq_some.mp hstep
    have hwait : (watch (s, l)).timer.waits[i]? = some w := hw
    rw [onTimer_watch]
    simp [System.perform, timerOp, Watch.system, Watch.step, hwait, hadmits]
  · have hwait : ∀ i ec, e ≠ .waitDone i ec := by
      intro i ec heq
      exact hcompletes ⟨i, ec, heq⟩
    rw [acted_eq_nil hwait, List.append_nil]
    exact step_watch hwait l hstep

/-! ## The conditions on a run -/

/-- A wait is launched while none is outstanding, and one that completes behind its deadline
finds the deadline moved since the last timeout action. -/
def TimesOutOnce (p : Server × List ℕ) : Event → Prop
  | .call .launchTimer | .call (.launchTimerWith _) => p.1.timer.waits = []
  | .waitDone _ ec =>
      Counts ec → p.1.timer.expired = true → ∀ m ∈ p.2.getLast?, p.1.timer.expiry ≠ some m
  | _ => True

/-- A wait is only launched while none is outstanding, and with the deadline moved since the
last timeout action. -/
def LaunchesFresh (p : Server × List ℕ) : Event → Prop
  | .call .launchTimer | .call (.launchTimerWith _) =>
      p.1.timer.waits = [] ∧ ∀ m ∈ p.2.getLast?, p.1.timer.expiry ≠ some m
  | _ => True

theorem timesOutOnce_iff (p : Server × List ℕ) (e : Event) :
    (∀ o ∈ timerOp p e, (watch p).ActsOnce o) ↔ TimesOutOnce p e := by
  have hmove : ∀ c : Bool, ∀ o ∈ (if c then some Watch.Op.move else none),
      (watch p).ActsOnce o := by
    intro c o ho
    cases c <;> cases ho
    trivial
  cases e with
  | call c =>
    cases c with
    | launchTimer => simp [timerOp, TimesOutOnce, Watch.ActsOnce, watch]
    | launchTimerWith target => simp [timerOp, TimesOutOnce, Watch.ActsOnce, watch]
    | doAccept =>
      apply iff_of_true _ trivial
      rw [timerOp]
      cases p.1.accepted
      · exact hmove true
      · exact hmove false
    | doPing payload => exact iff_of_true (hmove p.1.accepted) trivial
    | doPong payload => exact iff_of_true (hmove p.1.accepted) trivial
    | doClose reason => exact iff_of_true (hmove p.1.accepted) trivial
    | doRead => exact iff_of_true (hmove p.1.mayRead) trivial
    | _ => exact iff_of_true (hmove false) trivial
  | writeDone i ec => exact iff_of_true (hmove (!ec.failed && p.1.mayRead)) trivial
  | resume => exact iff_of_true (hmove (p.1.outputBuffer.isEmpty && p.1.mayRead)) trivial
  | waitDone i ec => simp [timerOp, TimesOutOnce, Watch.ActsOnce, watch]
  | tick k => simp [timerOp, TimesOutOnce, Watch.ActsOnce]
  | expire => simp [timerOp, TimesOutOnce, Watch.ActsOnce]
  | _ => exact iff_of_true (hmove false) trivial

theorem LaunchesFresh.watch {p : Server × List ℕ} {e : Event} (h : LaunchesFresh p e) :
    ∀ o ∈ timerOp p e, (watch p).LaunchesFresh o := by
  have hmove : ∀ c : Bool, ∀ o ∈ (if c then some Watch.Op.move else none),
      (Server.watch p).LaunchesFresh o := by
    intro c o ho
    cases c <;> cases ho
    trivial
  cases e with
  | call c =>
    cases c with
    | launchTimer =>
      intro o ho
      cases ho
      exact h
    | launchTimerWith target =>
      intro o ho
      cases ho
      exact h
    | doAccept =>
      rw [timerOp]
      cases p.1.accepted
      · exact hmove true
      · exact hmove false
    | doPing payload => exact hmove p.1.accepted
    | doPong payload => exact hmove p.1.accepted
    | doClose reason => exact hmove p.1.accepted
    | doRead => exact hmove p.1.mayRead
    | _ => exact hmove false
  | writeDone i ec => exact hmove (!ec.failed && p.1.mayRead)
  | resume => exact hmove (p.1.outputBuffer.isEmpty && p.1.mayRead)
  | waitDone i ec => simp [timerOp, Watch.LaunchesFresh]
  | tick k => simp [timerOp, Watch.LaunchesFresh]
  | expire => simp [timerOp, Watch.LaunchesFresh]
  | _ => exact hmove false

end Server

/-- In a run of the session at most one wait is outstanding and no deadline is acted on twice
exactly when each wait is launched beside no other and each one that completes behind its
deadline finds it moved since the last timeout action. It is enough that each wait is launched
beside no other, and with the deadline moved since that action. -/
theorem one_timeout_iff (cb : Callbacks) (es : List Server.Event) :
    ((Server.watched cb).Throughout (fun p => p.1.timer.waits.length ≤ 1 ∧ p.2.Nodup) ({}, []) es ↔
      (Server.watched cb).Along Server.TimesOutOnce ({}, []) es) ∧
    ((Server.watched cb).Along Server.LaunchesFresh ({}, []) es →
      (Server.watched cb).Throughout (fun p => p.1.timer.waits.length ≤ 1 ∧ p.2.Nodup)
        ({}, []) es) := by
  have hiff : (Server.watched cb).Throughout (fun p => (Server.watch p).Single) ({}, []) es ↔
      (Server.watched cb).Along Server.TimesOutOnce ({}, []) es := by
    rw [← System.along_congr Server.timesOutOnce_iff]
    apply Server.refines_watch.throughout_iff_along_kept (J := Watch.Past) (G := fun _ _ => True)
    · intro x o y hx _ _ _ h
      exact hx.step x o y h
    · intro x o y hx _ hk h
      exact hk.step_iff x o y hx h
    · exact (System.along_unguarded _ es).mono fun _ _ _ _ _ => trivial
    · exact Watch.past_initial
    · exact Watch.single_initial
  have hsingle : (fun p => p.1.timer.waits.length ≤ 1 ∧ p.2.Nodup) =
      fun p => (Server.watch p).Single := by
    funext p
    exact propext ⟨fun h => ⟨h.1, h.2⟩, fun h => ⟨h.waits, h.once⟩⟩
  rw [hsingle]
  refine ⟨hiff, fun hlaunch => hiff.mpr ?_⟩
  apply hlaunch.of_invariant (I := fun p => (Server.watch p).Fresh)
  · intro p e q hp hg h
    apply Server.refines_watch.step_invariant (C := Watch.LaunchesFresh) _ hp hg.watch h
    intro x o y hx hc
    exact hx.step (by decide) x o y hc
  · intro p e q hp hg h
    rw [← Server.timesOutOnce_iff]
    intro o ho
    have hstep := Server.refines_watch p e q h
    rw [Option.mem_def.mp ho] at hstep
    exact hp.actsOnce (hg.watch o ho) hstep
  · exact Watch.fresh_initial

/-- The application launches its timer twice, as on two messages; both waits expire on one
deadline. -/
def Server.twoLaunches : List Server.Event :=
  [.call .doAccept, .acceptDone .success, .resume, .call (.launchTimerWith true),
    .call (.launchTimerWith true), .tick (seconds 10), .expire, .waitDone 0 .success,
    .waitDone 0 .success]

/-- Two waits are outstanding, and both take the timeout action on the same deadline. -/
theorem two_timeouts :
    (∃ p, (Server.watched {}).run ({}, []) (Server.twoLaunches.take 5) = some p ∧
        p.1.timer.waits.length = 2) ∧
      ∃ p, (Server.watched {}).run ({}, []) Server.twoLaunches = some p ∧
        p.2 = [seconds 10, seconds 10] :=
  ⟨⟨_, rfl, rfl⟩, _, rfl, rfl⟩

end BeastWebsocket
