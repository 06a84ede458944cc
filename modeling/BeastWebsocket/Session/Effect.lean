import BeastWebsocket.Session.Server

/-! # What one event of the server session initiates

For each event the operations that it initiates are a function of the state. The record
grows by entries that start just these operations, and the ledger of the stream follows.
-/
namespace BeastWebsocket

@[simp] def Op.isClose : Op → Bool
  | .close _ => true
  | _ => false

namespace Session
variable {κ : Type} {x y z : Session κ}

/-- From `x` to `y` the session starts `ops`, completes `closed` closing handshakes, and
completes an accept with success if `opens`. -/
structure Performs (ops : List Op) (opens : Bool) (closed : ℕ) (x y : Session κ) : Prop where
  record : ∃ new, y.log = x.log ++ new ∧ startedOps new = ops ∧ opened new = opens
  ledger : y.stream.closes + closed = x.stream.closes + ops.countP Op.isClose

namespace Performs
variable {ops ops' : List Op} {o o' : Bool} {c c' : ℕ}

theorem of_same (hlog : y.log = x.log) (hcloses : y.stream.closes = x.stream.closes) :
    Performs [] false 0 x y where
  record := ⟨[], by simp [hlog], rfl, rfl⟩
  ledger := by simp [hcloses]

theorem refl (x : Session κ) : Performs [] false 0 x x := of_same rfl rfl

theorem trans (h : Performs ops o c x y) (h' : Performs ops' o' c' y z) :
    Performs (ops ++ ops') (o || o') (c + c') x z := by
  obtain ⟨⟨new, hnew, hops, ho⟩, hl⟩ := h
  obtain ⟨⟨new', hnew', hops', ho'⟩, hl'⟩ := h'
  constructor
  · refine ⟨new ++ new', by rw [hnew', hnew, List.append_assoc], ?_, ?_⟩
    · rw [← hops, ← hops', startedOps, project_append]
    · rw [← ho, ← ho', opened, occurs_append]
  · rw [List.countP_append]
    omega

/-- First a function that starts nothing. -/
theorem after (h : Performs [] false 0 x y) (h' : Performs ops o c y z) : Performs ops o c x z := by
  simpa using h.trans h'

/-- Last a function that starts nothing. -/
theorem before (h : Performs ops o c x y) (h' : Performs [] false 0 y z) :
    Performs ops o c x z := by
  simpa using h.trans h'

/-- A function that records one entry and leaves the ledger of closing handshakes alone. -/
theorem one (e : Obs) (hlog : y.log = x.log ++ [e])
    (hcloses : y.stream.closes = x.stream.closes) (hops : startedOps [e] = ops)
    (ho : opened [e] = o) (hclose : ops.countP Op.isClose = 0) : Performs ops o 0 x y where
  record := ⟨[e], hlog, hops, ho⟩
  ledger := by rw [hclose, hcloses]

end Performs

/-! ## The functions of a session -/

section Functions
variable (x)

theorem asyncHandshake_performs (decorated : Bool) :
    Performs [.handshake decorated] false 0 x (asyncHandshake decorated x) :=
  .one (.started (.handshake decorated)) rfl rfl rfl rfl rfl

theorem startRead_performs : Performs [.read] false 0 x (startRead x) :=
  .one (.started .read) rfl rfl rfl rfl rfl

theorem asyncWrite_performs (bound : κ) :
    Performs [.write x.outputBuffer x.stream.text] false 0 x (asyncWrite bound x) :=
  .one (.started (.write x.outputBuffer x.stream.text)) rfl rfl rfl rfl rfl

theorem asyncPing_performs (payload : Bytes) :
    Performs [.ping payload] false 0 x (asyncPing payload x) :=
  .one (.started (.ping payload)) rfl rfl rfl rfl rfl

theorem asyncPong_performs (payload : Bytes) :
    Performs [.pong payload] false 0 x (asyncPong payload x) :=
  .one (.started (.pong payload)) rfl rfl rfl rfl rfl

theorem asyncClose_performs (reason : CloseReason) :
    Performs [.close reason] false 0 x (asyncClose reason x) where
  record := ⟨[.started (.close reason)], rfl, rfl, rfl⟩
  ledger := rfl

theorem fail_performs (ec : ErrorCode) (what : String) :
    Performs [] false 0 x (fail ec what x) :=
  .one (.failed ec what) rfl rfl rfl rfl rfl

theorem report_performs (what : String) (ec : ErrorCode) :
    Performs [] false 0 x (report what ec x) := by
  rw [report]
  split_ifs
  · exact .refl x
  · exact fail_performs x ec what
  · exact .refl x

theorem called_performs (c : Callback) : Performs [] false 0 x (x.emit (.called c)) :=
  .one (.called c) rfl rfl rfl rfl rfl

theorem invoke_performs (installed : Bool) (c : Callback) :
    Performs [] false 0 x (invoke installed c x) := by
  rw [invoke]
  split_ifs
  · exact called_performs x c
  · exact .refl x

theorem enterOpening_performs (cb : Callbacks) (c : Callback) :
    Performs [] false 0 x (enterOpening cb c x) :=
  (invoke_performs x cb.onOpen c).before (.of_same rfl rfl)

theorem deliver_performs (cb : Callbacks) : Performs [] false 0 x (deliver cb x) := by
  have hready : Performs [] false 0 x { x with readable := true } := .of_same rfl rfl
  exact hready.after ((invoke_performs _ cb.onMessage (.message x.inputBuffer)).before
    (.of_same rfl rfl))

theorem consumeInput_performs : Performs [] false 0 x (consumeInput x) :=
  .one (.inputConsumed x.inputBuffer) rfl rfl rfl rfl rfl

theorem consumeOutput_performs : Performs [] false 0 x (consumeOutput x) :=
  .one (.outputConsumed x.outputBuffer) rfl rfl rfl rfl rfl

theorem matchFrame_performs : Performs [] false 0 x (matchFrame x) := by
  rw [matchFrame]
  split_ifs
  · exact .of_same rfl rfl
  · exact .refl x

theorem controlFrame_performs (cb : Callbacks) (kind : FrameType) (payload : Bytes) :
    Performs [] false 0 x (controlFrame cb kind payload x) := by
  have hemit : Performs [] false 0 x (x.emit (.control kind payload)) :=
    .one (.control kind payload) rfl rfl rfl rfl rfl
  simp only [controlFrame, onControlCallback]
  split_ifs
  · exact hemit.before (called_performs _ _)
  · exact hemit.before (called_performs _ _)
  · exact hemit.before (called_performs _ _)
  · exact hemit
  · exact hemit

theorem handshakeDone_performs (ec : ErrorCode) :
    Performs [] (!ec.failed) 0 x (handshakeDone ec x) := by
  cases ec <;> exact .one (.finished .handshake _) rfl rfl rfl rfl rfl

theorem readDone_performs (ec : ErrorCode) (chunk : Bytes) (text : Bool) :
    Performs [] false 0 x (readDone ec chunk text x) := by
  have hdone : Performs [] false 0 x ({ x with
      stream.reads := x.stream.reads - 1,
      inputBuffer := x.inputBuffer ++ chunk }.emit (.finished .read ec)) :=
    .one (.finished .read ec) rfl rfl rfl rfl rfl
  rw [readDone]
  simp only
  split_ifs
  · exact hdone
  · exact hdone.before (.one (.received chunk) rfl rfl rfl rfl rfl)

theorem writeDone_performs (i : ℕ) (w : Write κ) (ec : ErrorCode) :
    Performs [] false 0 x (writeDone i w ec x) :=
  .one (.finished (.write w.payload) ec) rfl rfl rfl rfl rfl

theorem pingDone_performs (ec : ErrorCode) : Performs [] false 0 x (pingDone ec x) :=
  .one (.finished .ping ec) rfl rfl rfl rfl rfl

theorem pongDone_performs (ec : ErrorCode) : Performs [] false 0 x (pongDone ec x) :=
  .one (.finished .pong ec) rfl rfl rfl rfl rfl

theorem closeDone_performs (ec : ErrorCode) (h : 0 < x.stream.closes) :
    Performs [] false 1 x (closeDone ec x) where
  record := ⟨[.finished .close ec], rfl, rfl, rfl⟩
  ledger := Nat.sub_add_cancel h

end Functions
end Session

/-! ## The events of the server session -/

namespace Server
variable {cb : Callbacks} {s t : Server}

/-- What `do_read` initiates, guarded or not by `if(readable)`. -/
def readStarts (s : Server) : List Op := if s.accepted && s.readable then [.read] else []

def writeStarts (text : Bool) (s : Server) : List Op :=
  if s.accepted then [.write s.outputBuffer text] else []

/-- What the end of `on_accept` and of `on_read` initiates. -/
def flushStarts (text : Bool) (s : Server) : List Op :=
  if 0 < s.outputBuffer.length then s.writeStarts text else s.readStarts

/-- The type of an outgoing message when `on_accept` or `on_read` ends. -/
def outgoingText (s : Server) : Bool :=
  if s.frame = .reading ∧ s.autoFrame then s.stream.gotText else s.stream.text

/-- What `on_timer` initiates: unless it finds a failure or calls the callback, it launches
the timer again, after the default action if the deadline has passed. -/
def timerStarts (s : Server) (ec : ErrorCode) : List Op :=
  if ec.failed ∧ ec ≠ .operationAborted then []
  else if s.timer.expired then if s.onTimerCb then [] else [.close .normal, .wait]
  else [.wait]

/-- The operations that an event initiates, in order. -/
def starts (cb : Callbacks) (s : Server) : Event → List Op
  | .call .doAccept => if s.accepted then [] else [.handshake cb.decorator]
  | .call (.doPing payload) => if s.accepted then [.ping payload] else []
  | .call (.doPong payload) => if s.accepted then [.pong payload] else []
  | .call (.doClose reason) => if s.accepted then [.close reason] else []
  | .call .launchTimer => [.wait]
  | .call (.launchTimerWith _) => [.wait]
  | .call .doRead => s.readStarts
  | .call .doWrite => s.writeStarts s.stream.text
  | .writeDone _ ec => if ec.failed then [] else s.readStarts
  | .waitDone _ ec => s.timerStarts ec
  | .resume => s.flushStarts s.outgoingText
  | _ => []

def Event.opens : Event → Bool
  | .acceptDone ec => !ec.failed
  | _ => false

def Event.closed : Event → ℕ
  | .closeDone _ => 1
  | _ => 0

theorem doAccept_performs (s : Server) :
    Session.Performs (if s.accepted then [] else [.handshake cb.decorator]) false 0 s.toSession
      (s.doAccept cb).toSession := by
  rw [doAccept]
  split_ifs
  · exact .refl _
  · have hset : Session.Performs [] false 0 s.toSession s.setControlCallback := .of_same rfl rfl
    exact hset.after (Session.asyncHandshake_performs _ cb.decorator)

theorem operate_performs {f : Session Unit → Session Unit} {op : Op}
    (h : Session.Performs [op] false 0 s.toSession (f s.toSession)) :
    Session.Performs (if s.accepted then [op] else []) false 0 s.toSession
      (s.operate f).toSession := by
  rw [operate]
  cases s.accepted with
  | false => exact .refl _
  | true => exact h

theorem launchTimer_performs (s : Server) :
    Session.Performs [.wait] false 0 s.toSession s.launchTimer.toSession :=
  .one (.started .wait) rfl rfl rfl rfl rfl

theorem doRead_performs (s : Server) :
    Session.Performs s.readStarts false 0 s.toSession s.doRead.toSession := by
  rw [doRead, readStarts]
  cases s.accepted <;> cases s.readable
  · exact .refl _
  · exact .refl _
  · exact .refl _
  · exact Session.startRead_performs _

theorem readOn_performs (s : Server) :
    Session.Performs s.readStarts false 0 s.toSession s.readOn.toSession := by
  rw [readOn]
  split_ifs with h
  · exact doRead_performs s
  · simpa [readStarts, h] using Session.Performs.refl s.toSession

theorem doWrite_performs (s : Server) :
    Session.Performs (s.writeStarts s.stream.text) false 0 s.toSession s.doWrite.toSession := by
  rw [doWrite, writeStarts]
  cases s.accepted with
  | false => exact .refl _
  | true => exact Session.asyncWrite_performs _ ()

theorem writeOrRead_performs (s : Server) :
    Session.Performs (s.flushStarts s.stream.text) false 0 s.toSession s.writeOrRead.toSession := by
  rw [writeOrRead, flushStarts]
  split_ifs
  · exact doWrite_performs s
  · exact readOn_performs s

theorem call_performs (c : Call) :
    Session.Performs (s.starts cb (.call c)) false 0 s.toSession (s.call cb c).toSession := by
  cases c with
  | doAccept => exact doAccept_performs s
  | append b => exact .one (.appended b) rfl rfl rfl rfl rfl
  | setAutoFrame => exact .of_same rfl rfl
  | setTextFrame => exact .of_same rfl rfl
  | setBinaryFrame => exact .of_same rfl rfl
  | doPing payload => exact operate_performs (Session.asyncPing_performs _ payload)
  | doPong payload => exact operate_performs (Session.asyncPong_performs _ payload)
  | doClose reason => exact operate_performs (Session.asyncClose_performs _ reason)
  | launchTimer => exact launchTimer_performs s
  | launchTimerWith target => exact launchTimer_performs { s with onTimerCb := target }
  | doRead => exact doRead_performs s
  | doWrite => exact doWrite_performs s

theorem onAccept_performs (s : Server) (ec : ErrorCode) :
    Session.Performs [] false 0 s.toSession (s.onAccept cb ec).toSession := by
  rw [onAccept]
  split_ifs
  · exact .refl _
  · exact Session.fail_performs _ ec "accept"
  · exact Session.enterOpening_performs _ cb .accept

theorem onRead_performs (s : Server) (ec : ErrorCode) :
    Session.Performs [] false 0 s.toSession (s.onRead cb ec).toSession := by
  rw [onRead]
  split_ifs
  · exact .refl _
  · exact .refl _
  · exact Session.fail_performs _ ec "read"
  · exact Session.deliver_performs _ cb

theorem onWrite_performs (s : Server) (ec : ErrorCode) :
    Session.Performs (if ec.failed then [] else s.readStarts) false 0 s.toSession
      (s.onWrite ec).toSession := by
  rw [onWrite]
  by_cases ha : ec = .operationAborted
  · subst ha
    exact .refl _
  · rw [if_neg ha]
    split_ifs
    · exact Session.fail_performs _ ec "write"
    · exact (Session.consumeOutput_performs _).after
        (readOn_performs (s.io Session.consumeOutput))

/-- The default action closes the connection and launches the timer again. -/
theorem timeoutAction_performs (s : Server) :
    Session.Performs (if s.onTimerCb then [] else [.close .normal, .wait]) false 0 s.toSession
      s.timeoutAction.toSession := by
  rw [timeoutAction]
  split_ifs
  · exact Session.called_performs _ .timer
  · exact (Session.asyncClose_performs s.toSession .normal).trans (launchTimer_performs
      ((s.expiresAfter (seconds 10)).io (Session.asyncClose .normal)))

theorem onTimer_performs (s : Server) (ec : ErrorCode) :
    Session.Performs (s.timerStarts ec) false 0 s.toSession (s.onTimer ec).toSession := by
  have htimeout : Session.Performs [] false 0 s.toSession (s.emit .timeout) :=
    .one .timeout rfl rfl rfl rfl rfl
  rw [onTimer, timerStarts]
  by_cases hfail : ec.failed = true ∧ ec ≠ .operationAborted
  · rw [if_pos hfail, if_pos hfail]
    exact Session.fail_performs _ ec "timer"
  · rw [if_neg hfail, if_neg hfail]
    by_cases hexp : s.timer.expired = true
    · rw [if_pos hexp, if_pos hexp]
      exact htimeout.after (timeoutAction_performs (s.io (Session.emit .timeout)))
    · rw [if_neg hexp, if_neg hexp]
      exact launchTimer_performs s

theorem resume_performs (h : s.resume = some t) :
    Session.Performs (s.flushStarts s.outgoingText) false 0 s.toSession t.toSession := by
  have hleave : Session.Performs [] false 0 s.toSession s.leave := .of_same rfl rfl
  cases hf : s.frame with
  | idle => simp [resume, hf] at h
  | opening =>
    simp only [resume, hf, Option.some.injEq] at h
    subst h
    have htext : s.outgoingText = s.stream.text := by simp [outgoingText, hf]
    rw [htext]
    exact hleave.after (writeOrRead_performs (s.io Session.leave))
  | reading =>
    simp only [resume, hf, Option.some.injEq] at h
    subst h
    have hrest := writeOrRead_performs
      (((s.io Session.leave).io Session.consumeInput).io Session.matchFrame)
    have hsame : s.flushStarts s.outgoingText =
        (((s.io Session.leave).io Session.consumeInput).io Session.matchFrame).flushStarts
          (((s.io Session.leave).io Session.consumeInput).io Session.matchFrame).stream.text := by
      cases ha : s.autoFrame <;>
        simp [flushStarts, writeStarts, readStarts, outgoingText, Session.matchFrame,
          Session.consumeInput, Session.leave, Session.emit, Session.setText, io, hf, ha]
    rw [hsame]
    exact hleave.after ((Session.consumeInput_performs _).after
      ((Session.matchFrame_performs _).after hrest))

/-- Each step records and counts just the operations that its event initiates. -/
theorem step_performs {e : Event} (ht : (system cb).step s e = some t) :
    Session.Performs (s.starts cb e) e.opens e.closed s.toSession t.toSession := by
  cases e with
  | call c =>
    cases ht
    exact call_performs c
  | acceptDone ec =>
    obtain ⟨_, rfl⟩ := Session.handled_eq_some.mp ht
    exact (Session.handshakeDone_performs _ ec).before
      (onAccept_performs (s.io (Session.handshakeDone ec)) ec)
  | readDone ec chunk text =>
    obtain ⟨_, rfl⟩ := Session.handled_eq_some.mp ht
    exact (Session.readDone_performs _ ec chunk text).after
      (onRead_performs (s.io (Session.readDone ec chunk text)) ec)
  | writeDone i ec =>
    obtain ⟨w, _, ht⟩ := Option.bind_eq_some_iff.mp ht
    obtain ⟨_, rfl⟩ := Session.handled_eq_some.mp ht
    exact (Session.writeDone_performs _ i w ec).after
      (onWrite_performs (s.io (Session.writeDone i w ec)) ec)
  | pingDone ec =>
    obtain ⟨_, rfl⟩ := Session.handled_eq_some.mp ht
    exact (Session.pingDone_performs _ ec).after (Session.report_performs _ "ping" ec)
  | pongDone ec =>
    obtain ⟨_, rfl⟩ := Session.handled_eq_some.mp ht
    exact (Session.pongDone_performs _ ec).after (Session.report_performs _ "pong" ec)
  | closeDone ec =>
    obtain ⟨⟨_, h⟩, rfl⟩ := Session.handled_eq_some.mp ht
    exact (Session.closeDone_performs _ ec h).before (Session.report_performs _ "close" ec)
  | waitDone i ec =>
    obtain ⟨w, _, ht⟩ := Option.bind_eq_some_iff.mp ht
    obtain ⟨_, rfl⟩ := Session.handled_eq_some.mp ht
    have hdone : Session.Performs [] false 0 s.toSession (s.emit (.finished .wait ec)) :=
      .one (.finished .wait ec) rfl rfl rfl rfl rfl
    have hhandler := onTimer_performs (({ s with timer.waits := s.timer.waits.eraseIdx i } :
      Server).io (Session.emit (.finished .wait ec))) ec
    exact hdone.after hhandler
  | control kind payload =>
    obtain ⟨_, rfl⟩ := Session.handled_eq_some.mp ht
    exact Session.controlFrame_performs _ cb kind payload
  | resume => exact resume_performs ht
  | tick d =>
    cases ht
    exact .one (.ticked d) rfl rfl rfl rfl rfl
  | expire =>
    obtain ⟨_, ht⟩ := Option.ite_none_right_eq_some.mp ht
    cases ht
    exact .of_same rfl rfl

end Server
end BeastWebsocket
