import BeastWebsocket.Session.Called

/-! # What most functions leave alone

Beside the opening handshake, the reads that complete and the returns of callbacks, no function of a
session touches its input, the type of the last message, the control callback or the handshakes.
What it adds to the record is the callback it calls and the writes it starts.
-/
namespace BeastWebsocket

/-- The type of a message whose write is started. -/
@[simp] def Obs.begun? : Obs → Option Bool
  | .started (.write _ text) => some text
  | _ => none

/-- The input that is consumed. -/
@[simp] def Obs.consumed? : Obs → Option Bytes
  | .inputConsumed b => some b
  | _ => none

abbrev begunTypes (log : List Obs) : List Bool := project Obs.begun? log
abbrev consumedInput (log : List Obs) : List Bytes := project Obs.consumed? log

namespace Session
variable {κ : Type} {x y z : Session κ} {cb : Callbacks}

/-- From `x` to `y` the session calls the callbacks `cs` and starts writes of the types `ws`. It
takes nothing from its input and changes nothing of the opening. -/
structure Spares (cs : List Callback) (ws : List Bool) (x y : Session κ) : Prop where
  frame : y.frame = x.frame
  inputBuffer : y.inputBuffer = x.inputBuffer
  handshakes : y.stream.handshakes = x.stream.handshakes
  gotText : y.stream.gotText = x.stream.gotText
  controlCallback : y.stream.controlCallback = x.stream.controlCallback
  record : ∃ new, y.log = x.log ++ new ∧ calledBacks new = cs ∧ begunTypes new = ws ∧
    consumedInput new = [] ∧ readBroken new = false

namespace Spares
variable {cs cs' : List Callback} {ws ws' : List Bool}

theorem refl (x : Session κ) : Spares [] [] x x :=
  ⟨rfl, rfl, rfl, rfl, rfl, [], by simp⟩

theorem trans (h : Spares cs ws x y) (h' : Spares cs' ws' y z) :
    Spares (cs ++ cs') (ws ++ ws') x z := by
  obtain ⟨new, hnew, hcs, hws, hin, hbroken⟩ := h.record
  obtain ⟨new', hnew', hcs', hws', hin', hbroken'⟩ := h'.record
  constructor
  · exact h'.frame.trans h.frame
  · exact h'.inputBuffer.trans h.inputBuffer
  · exact h'.handshakes.trans h.handshakes
  · exact h'.gotText.trans h.gotText
  · exact h'.controlCallback.trans h.controlCallback
  · refine ⟨new ++ new', by rw [hnew', hnew, List.append_assoc], ?_, ?_, ?_, ?_⟩
    · rw [← hcs, ← hcs', calledBacks, project_append]
    · rw [← hws, ← hws', begunTypes, project_append]
    · rw [consumedInput, project_append, ← consumedInput, ← consumedInput, hin, hin']
      rfl
    · rw [readBroken, occurs_append, ← readBroken, ← readBroken, hbroken, hbroken']
      rfl

/-- First a function that calls nothing and starts no write. -/
theorem after (h : Spares [] [] x y) (h' : Spares cs ws y z) : Spares cs ws x z := by
  simpa using h.trans h'

/-- Last a function that calls nothing and starts no write. -/
theorem before (h : Spares cs ws x y) (h' : Spares [] [] y z) : Spares cs ws x z := by
  simpa using h.trans h'

/-- One entry, that consumes no input and tells of no failed read. -/
theorem emit (x : Session κ) (o : Obs) (hcs : calledBacks [o] = cs) (hws : begunTypes [o] = ws)
    (hin : consumedInput [o] = []) (hbroken : readBroken [o] = false) :
    Spares cs ws x (x.emit o) :=
  ⟨rfl, rfl, rfl, rfl, rfl, [o], rfl, hcs, hws, hin, hbroken⟩

theorem calledBacks (h : Spares cs ws x y) :
    calledBacks y.log = BeastWebsocket.calledBacks x.log ++ cs := by
  obtain ⟨new, hnew, hcs, _⟩ := h.record
  rw [hnew, ← hcs, BeastWebsocket.calledBacks, project_append]

theorem begunTypes (h : Spares cs ws x y) :
    begunTypes y.log = BeastWebsocket.begunTypes x.log ++ ws := by
  obtain ⟨new, hnew, _, hws, _⟩ := h.record
  rw [hnew, ← hws, BeastWebsocket.begunTypes, project_append]

theorem consumedInput (h : Spares cs ws x y) :
    consumedInput y.log = BeastWebsocket.consumedInput x.log := by
  obtain ⟨new, hnew, _, _, hin, _⟩ := h.record
  rw [hnew, BeastWebsocket.consumedInput, project_append, ← BeastWebsocket.consumedInput,
    ← BeastWebsocket.consumedInput, hin, List.append_nil]

theorem readBroken (h : Spares cs ws x y) : readBroken y.log = BeastWebsocket.readBroken x.log := by
  obtain ⟨new, hnew, _, _, _, hbroken⟩ := h.record
  rw [hnew, BeastWebsocket.readBroken, occurs_append, ← BeastWebsocket.readBroken,
    ← BeastWebsocket.readBroken, hbroken, Bool.or_false]

end Spares

/-! ## The functions of a session -/

section Functions
variable (x)

theorem startRead_spares : Spares [] [] x (startRead x) :=
  ⟨rfl, rfl, rfl, rfl, rfl, [.started .read], rfl, rfl, rfl, rfl, rfl⟩

theorem asyncWrite_spares (bound : κ) : Spares [] [x.stream.text] x (asyncWrite bound x) :=
  ⟨rfl, rfl, rfl, rfl, rfl, [.started (.write x.outputBuffer x.stream.text)], rfl, rfl, rfl, rfl,
    rfl⟩

theorem asyncPing_spares (payload : Bytes) : Spares [] [] x (asyncPing payload x) :=
  ⟨rfl, rfl, rfl, rfl, rfl, [.started (.ping payload)], rfl, rfl, rfl, rfl, rfl⟩

theorem asyncPong_spares (payload : Bytes) : Spares [] [] x (asyncPong payload x) :=
  ⟨rfl, rfl, rfl, rfl, rfl, [.started (.pong payload)], rfl, rfl, rfl, rfl, rfl⟩

theorem asyncClose_spares (reason : CloseReason) : Spares [] [] x (asyncClose reason x) :=
  ⟨rfl, rfl, rfl, rfl, rfl, [.started (.close reason)], rfl, rfl, rfl, rfl, rfl⟩

theorem append_spares (b : Bytes) : Spares [] [] x (append b x) :=
  ⟨rfl, rfl, rfl, rfl, rfl, [.appended b], rfl, rfl, rfl, rfl, rfl⟩

theorem setAutoFrame_spares : Spares [] [] x (setAutoFrame x) :=
  ⟨rfl, rfl, rfl, rfl, rfl, [], by simp [setAutoFrame]⟩

theorem setTextFrame_spares : Spares [] [] x (setTextFrame x) :=
  ⟨rfl, rfl, rfl, rfl, rfl, [], by simp [setTextFrame, setText]⟩

theorem setBinaryFrame_spares : Spares [] [] x (setBinaryFrame x) :=
  ⟨rfl, rfl, rfl, rfl, rfl, [], by simp [setBinaryFrame, setText]⟩

theorem matchFrame_spares : Spares [] [] x (matchFrame x) := by
  rw [matchFrame]
  split_ifs
  · exact ⟨rfl, rfl, rfl, rfl, rfl, [], by simp [setText]⟩
  · exact .refl x

theorem consumeOutput_spares : Spares [] [] x (consumeOutput x) :=
  ⟨rfl, rfl, rfl, rfl, rfl, [.outputConsumed x.outputBuffer], rfl, rfl, rfl, rfl, rfl⟩

theorem fail_spares (ec : ErrorCode) (what : String) : Spares [] [] x (fail ec what x) :=
  .emit x (.failed ec what) rfl rfl rfl rfl

theorem report_spares (what : String) (ec : ErrorCode) : Spares [] [] x (report what ec x) := by
  rw [report]
  split_ifs
  · exact .refl x
  · exact fail_spares x ec what
  · exact .refl x

theorem writeDone_spares (i : ℕ) (w : Write κ) (ec : ErrorCode) :
    Spares [] [] x (writeDone i w ec x) :=
  ⟨rfl, rfl, rfl, rfl, rfl, [.finished (.write w.payload) ec], rfl, rfl, rfl, rfl, rfl⟩

theorem pingDone_spares (ec : ErrorCode) : Spares [] [] x (pingDone ec x) :=
  ⟨rfl, rfl, rfl, rfl, rfl, [.finished .ping ec], rfl, rfl, rfl, rfl, rfl⟩

theorem pongDone_spares (ec : ErrorCode) : Spares [] [] x (pongDone ec x) :=
  ⟨rfl, rfl, rfl, rfl, rfl, [.finished .pong ec], rfl, rfl, rfl, rfl, rfl⟩

theorem closeDone_spares (ec : ErrorCode) : Spares [] [] x (closeDone ec x) :=
  ⟨rfl, rfl, rfl, rfl, rfl, [.finished .close ec], rfl, rfl, rfl, rfl, rfl⟩

theorem controlFrame_spares (cb : Callbacks) (kind : FrameType) (payload : Bytes) :
    Spares (if x.stream.controlCallback then cb.control kind payload else none).toList [] x
      (controlFrame cb kind payload x) := by
  have hframe : Spares [] [] x (x.emit (.control kind payload)) :=
    .emit x (.control kind payload) rfl rfl rfl rfl
  have hcall : ∀ c, Spares [c] [] (x.emit (.control kind payload))
      ((x.emit (.control kind payload)).emit (.called c)) :=
    fun c => .emit _ (.called c) rfl rfl rfl rfl
  by_cases hset : x.stream.controlCallback = true
  · simp only [controlFrame, Session.emit, hset, if_true, onControlCallback, Callbacks.control]
    split_ifs
    · exact hframe.after (hcall _)
    · exact hframe.after (hcall _)
    · exact hframe.after (hcall _)
    · exact hframe
  · simp only [controlFrame, Session.emit, hset, if_false, Bool.false_eq_true]
    exact hframe

@[simp] theorem deliver_stream (cb : Callbacks) : (deliver cb x).stream = x.stream := by
  rw [deliver, invoke]
  split_ifs <;> rfl

@[simp] theorem enterOpening_stream (cb : Callbacks) (c : Callback) :
    (enterOpening cb c x).stream = x.stream := by
  rw [enterOpening, invoke]
  split_ifs <;> rfl

@[simp] theorem readDone_handshakes (ec : ErrorCode) (chunk : Bytes) (text : Bool) :
    (readDone ec chunk text x).stream.handshakes = x.stream.handshakes := by
  rw [readDone]
  split_ifs <;> rfl

@[simp] theorem readDone_frame (ec : ErrorCode) (chunk : Bytes) (text : Bool) :
    (readDone ec chunk text x).frame = x.frame := by
  rw [readDone]
  split_ifs <;> rfl

@[simp] theorem readDone_controlCallback (ec : ErrorCode) (chunk : Bytes) (text : Bool) :
    (readDone ec chunk text x).stream.controlCallback = x.stream.controlCallback := by
  rw [readDone]
  split_ifs <;> rfl

end Functions

/-- What a callback that returns leaves behind: `on_message` a buffer that is consumed. -/
def afterFrame (x : Session κ) : Session κ :=
  if x.frame = .reading then x.leave.consumeInput else x.leave

theorem afterFrame_reading (h : x.frame = .reading) : x.afterFrame = x.leave.consumeInput :=
  if_pos h

theorem afterFrame_opening (h : x.frame = .opening) : x.afterFrame = x.leave :=
  if_neg (by simp [h])

theorem calledBacks_afterFrame : calledBacks x.afterFrame.log = calledBacks x.log := by
  rw [afterFrame]
  split_ifs
  · exact calledBacks_emit (x := { x.leave with inputBuffer := [] }) rfl
  · rfl

@[simp] theorem afterFrame_frame : x.afterFrame.frame = .idle := by
  rw [afterFrame]
  split_ifs <;> rfl

@[simp] theorem afterFrame_stream : x.afterFrame.stream = x.stream := by
  rw [afterFrame]
  split_ifs <;> rfl

/-- The type of the writes that a handler starts when its callback has returned. -/
def restText (x : Session κ) : Bool :=
  if x.frame = .reading ∧ x.autoFrame then x.stream.gotText else x.stream.text

theorem matchFrame_text (h : x.frame = .reading) :
    x.leave.consumeInput.matchFrame.stream.text = x.restText := by
  cases hauto : x.autoFrame <;>
    simp [matchFrame, consumeInput, leave, emit, setText, restText, h, hauto]

/-- The rest of the handler of the handshake. -/
theorem rest_opening (hf : x.frame = .opening)
    (h : ∃ ws, Spares [] ws x.leave y ∧ ∀ text ∈ ws, text = x.stream.text) :
    ∃ ws, Spares [] ws x.afterFrame y ∧ ∀ text ∈ ws, text = x.restText := by
  have htext : x.restText = x.stream.text := by simp [restText, hf]
  rw [afterFrame_opening hf, htext]
  exact h

/-- The rest of `on_read`. -/
theorem rest_reading (hf : x.frame = .reading)
    (h : ∃ ws, Spares [] ws x.leave.consumeInput.matchFrame y ∧
      ∀ text ∈ ws, text = x.leave.consumeInput.matchFrame.stream.text) :
    ∃ ws, Spares [] ws x.afterFrame y ∧ ∀ text ∈ ws, text = x.restText := by
  obtain ⟨ws, hws, htypes⟩ := h
  rw [afterFrame_reading hf, ← matchFrame_text hf]
  exact ⟨ws, (matchFrame_spares _).after hws, htypes⟩

end Session

/-! ## The server session -/

namespace Server
variable {cb : Callbacks} {s t : Server}

theorem operate_spares {f : Session Unit → Session Unit}
    (h : Session.Spares [] [] s.toSession (f s.toSession)) :
    Session.Spares [] [] s.toSession (s.operate f).toSession := by
  rw [operate]
  split_ifs
  · exact .refl _
  · exact h

theorem launchTimer_spares (s : Server) :
    Session.Spares [] [] s.toSession s.launchTimer.toSession :=
  .emit _ (.started .wait) rfl rfl rfl rfl

theorem doRead_spares (s : Server) : Session.Spares [] [] s.toSession s.doRead.toSession := by
  rw [doRead]
  split_ifs
  · exact .refl _
  · exact Session.startRead_spares _

theorem readOn_spares (s : Server) : Session.Spares [] [] s.toSession s.readOn.toSession := by
  rw [readOn]
  split_ifs
  · exact doRead_spares s
  · exact .refl _

theorem doWrite_spares (s : Server) :
    Session.Spares [] (if s.accepted then [s.stream.text] else []) s.toSession
      s.doWrite.toSession := by
  rw [doWrite]
  cases s.accepted with
  | false => exact .refl _
  | true => exact Session.asyncWrite_spares _ ()

theorem writeOrRead_spares (s : Server) :
    ∃ ws, Session.Spares [] ws s.toSession s.writeOrRead.toSession ∧
      ∀ text ∈ ws, text = s.stream.text := by
  rw [writeOrRead]
  split_ifs
  · exact ⟨_, doWrite_spares s, by simp⟩
  · exact ⟨[], readOn_spares s, by simp⟩

theorem onWrite_spares (s : Server) (ec : ErrorCode) :
    Session.Spares [] [] s.toSession (s.onWrite ec).toSession := by
  rw [onWrite]
  split_ifs
  · exact .refl _
  · exact Session.fail_spares _ ec "write"
  · exact (Session.consumeOutput_spares _).after (readOn_spares (s.io Session.consumeOutput))

theorem timeoutAction_spares (s : Server) :
    Session.Spares (if s.onTimerCb then [.timer] else []) [] s.toSession
      s.timeoutAction.toSession := by
  rw [timeoutAction]
  split_ifs
  · exact .emit _ (.called .timer) rfl rfl rfl rfl
  · exact (Session.asyncClose_spares _ .normal).after (launchTimer_spares
      ((s.expiresAfter (seconds 10)).io (Session.asyncClose .normal)))

theorem onTimer_spares (cb : Callbacks) (s : Server) (i : ℕ) (ec : ErrorCode) :
    Session.Spares (if (s.callback cb (.waitDone i ec)).isSome then [.timer] else []) []
      s.toSession (s.onTimer ec).toSession := by
  have htimeout : Session.Spares [] [] s.toSession (s.emit .timeout) :=
    .emit _ .timeout rfl rfl rfl rfl
  rw [onTimer]
  by_cases hfail : ec.failed = true ∧ ec ≠ .operationAborted
  · have hnone : s.callback cb (.waitDone i ec) = none := if_neg fun h => h.1 hfail
    rw [if_pos hfail, hnone]
    exact Session.fail_spares _ ec "timer"
  · rw [if_neg hfail]
    by_cases hexp : s.timer.expired = true
    · have haction := timeoutAction_spares (s.io (Session.emit .timeout))
      have hcall : (s.callback cb (.waitDone i ec)).isSome = s.onTimerCb := by
        rw [callback]
        cases htarget : s.onTimerCb with
        | false => rw [if_neg (by simp)]; rfl
        | true => rw [if_pos ⟨hfail, hexp, rfl⟩]; rfl
      rw [if_pos hexp, hcall]
      exact htimeout.after haction
    · have hnone : s.callback cb (.waitDone i ec) = none := if_neg fun h => hexp h.2.1
      rw [if_neg hexp, hnone]
      exact launchTimer_spares s

theorem onAccept_failed {ec : ErrorCode} (h : ec ≠ .success) :
    Session.Spares [] [] s.toSession (s.onAccept cb ec).toSession := by
  rw [onAccept]
  split_ifs with ha hf
  · exact .refl _
  · exact Session.fail_spares _ ec "accept"
  · exact absurd (by simpa using hf) h

theorem onRead_failed {ec : ErrorCode} (h : ec ≠ .success) :
    Session.Spares [] [] s.toSession (s.onRead cb ec).toSession := by
  rw [onRead]
  split_ifs with ha hc hf
  · exact .refl _
  · exact .refl _
  · exact Session.fail_spares _ ec "read"
  · exact absurd (by simpa using hf) h

theorem resume_spares (h : s.resume = some t) :
    ∃ ws, Session.Spares [] ws s.afterFrame t.toSession ∧ ∀ text ∈ ws, text = s.restText := by
  cases hf : s.frame with
  | idle => simp [resume, hf] at h
  | opening =>
    simp only [resume, hf, Option.some.injEq] at h
    subst h
    exact Session.rest_opening hf (writeOrRead_spares (s.io Session.leave))
  | reading =>
    simp only [resume, hf, Option.some.injEq] at h
    subst h
    exact Session.rest_reading hf (writeOrRead_spares
      (((s.io Session.leave).io Session.consumeInput).io Session.matchFrame))

end Server

/-! ## The client session -/

namespace Client
variable {cb : Callbacks} {s t : Client}

theorem operate_spares {f : Session Bool → Session Bool}
    (h : Session.Spares [] [] s.toSession (f s.toSession)) :
    Session.Spares [] [] s.toSession (s.operate f).toSession := by
  rw [operate]
  split_ifs
  · exact .refl _
  · exact h

theorem doRead_spares (s : Client) : Session.Spares [] [] s.toSession s.doRead.toSession := by
  rw [doRead]
  split_ifs
  · exact .refl _
  · exact Session.startRead_spares _

theorem readOn_spares (nextRead : Bool) (s : Client) :
    Session.Spares [] [] s.toSession (s.readOn nextRead).toSession := by
  rw [readOn]
  split_ifs
  · exact doRead_spares s
  · exact .refl _

theorem doWrite_spares (nextRead : Bool) (s : Client) :
    Session.Spares [] (if s.handshaked then [s.stream.text] else []) s.toSession
      (s.doWrite nextRead).toSession := by
  rw [doWrite]
  cases s.handshaked with
  | false => exact .refl _
  | true => exact Session.asyncWrite_spares _ nextRead

theorem writeOut_spares (s : Client) :
    ∃ ws, Session.Spares [] ws s.toSession s.writeOut.toSession ∧
      ∀ text ∈ ws, text = s.stream.text := by
  rw [writeOut]
  split_ifs
  · exact ⟨_, doWrite_spares s.nextRead s, by simp⟩
  · exact ⟨[], .refl _, by simp⟩

theorem onWrite_spares (s : Client) (ec : ErrorCode) (nextRead : Bool) :
    Session.Spares [] [] s.toSession (s.onWrite ec nextRead).toSession := by
  rw [onWrite]
  split_ifs
  · exact Session.fail_spares _ ec "write"
  · exact (Session.consumeOutput_spares _).after
      (readOn_spares nextRead (s.io Session.consumeOutput))

theorem onClose_spares (s : Client) (ec : ErrorCode) :
    Session.Spares [] [] s.toSession (s.onClose ec).toSession := by
  rw [onClose]
  split_ifs
  · exact Session.fail_spares _ ec "close"
  · exact .refl _

theorem onHandshake_failed {ec : ErrorCode} (h : ec ≠ .success) :
    Session.Spares [] [] s.toSession (s.onHandshake cb ec).toSession := by
  rw [onHandshake, if_pos (ErrorCode.failed_eq_true.mpr h)]
  exact Session.fail_spares _ ec "handshake"

theorem onRead_failed {ec : ErrorCode} (h : ec ≠ .success) :
    Session.Spares [] [] s.toSession (s.onRead cb ec).toSession := by
  rw [onRead, if_pos (ErrorCode.failed_eq_true.mpr h)]
  exact Session.fail_spares _ ec "read"

theorem resume_spares (h : s.resume = some t) :
    ∃ ws, Session.Spares [] ws s.afterFrame t.toSession ∧ ∀ text ∈ ws, text = s.restText := by
  cases hf : s.frame with
  | idle => simp [resume, hf] at h
  | opening =>
    simp only [resume, hf, Option.some.injEq] at h
    subst h
    exact Session.rest_opening hf (writeOut_spares { s.io Session.leave with resUpgrade := [] })
  | reading =>
    simp only [resume, hf, Option.some.injEq] at h
    subst h
    exact Session.rest_reading hf (writeOut_spares
      (((s.io Session.leave).io Session.consumeInput).io Session.matchFrame))

end Client

end BeastWebsocket
