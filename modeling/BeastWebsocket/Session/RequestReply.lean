import BeastWebsocket.Session.Server
import BeastWebsocket.Channel.Loop

/-! # The server session as a request and reply loop

While user code does no more than append to the output buffer that its callback is given, a
server session runs the sequential loop: each handler ends with exactly the operation that
the loop waits for next.
-/
namespace BeastWebsocket
open Channel Transition

/-- What an event of the session is to the loop. -/
def Server.Event.loopOp : Server.Event → Option (Loop.Op Byte)
  | .call .doAccept => some .connect
  | .call (.append b) => some (.out b)
  | .acceptDone ec => some (if ec.failed then .failed else .connected)
  | .readDone ec _ _ => some (if ec.failed then .failed else .message)
  | .writeDone _ ec => some (if ec.failed then .failed else .wrote)
  | .resume => some .returned
  | _ => none

/-- What each callback that has returned appended, in the order of the callbacks. -/
def callbackOutputs (es : List Server.Event) : List Bytes :=
  Loop.outputs [] (es.filterMap Server.Event.loopOp)

namespace Server

/-- User code calls `do_accept` once, and beside it only appends, in callbacks. -/
def OnlyAppends (s : Server) : Event → Prop
  | .call .doAccept => startedOps s.log = []
  | .call (.append _) => s.frame ≠ .idle
  | .call _ => False
  | _ => True

instance (s : Server) (e : Event) : Decidable (s.OnlyAppends e) :=
  match e with
  | .call .doAccept => inferInstanceAs (Decidable (startedOps s.log = []))
  | .call (.append _) => inferInstanceAs (Decidable (s.frame ≠ .idle))
  | .call .setAutoFrame | .call .setTextFrame | .call .setBinaryFrame
  | .call (.doPing _) | .call (.doPong _) | .call (.doClose _)
  | .call .launchTimer | .call (.launchTimerWith _) | .call .doRead | .call .doWrite =>
      isFalse id
  | .acceptDone _ | .readDone _ _ _ | .writeDone _ _ | .pingDone _ | .pongDone _
  | .closeDone _ | .waitDone _ _ | .control _ _ | .resume | .tick _ | .expire =>
      isTrue trivial

/-- The session is where the loop is. -/
structure Follows (s : Server) (y : Loop Byte) : Prop where
  pings : s.stream.pings = 0
  pongs : s.stream.pongs = 0
  closes : s.stream.closes = 0
  waits : s.timer.waits = []
  started : startedOps s.log = [] ↔ y.phase = .fresh
  handshakes : s.stream.handshakes = if y.phase = .connecting then 1 else 0
  reads : s.stream.reads = if y.phase = .reading then 1 else 0
  writes : s.stream.writes.length = if y.phase = .writing then 1 else 0
  frame : s.frame = .idle ↔ y.phase ≠ .callback
  failure : anyFailure s.log = true ↔ y.phase = .stopped
  opening : opened s.log = s.accepted
  accepted : y.phase ≠ .stopped → (s.accepted = false ↔ y.phase = .fresh ∨ y.phase = .connecting)
  readable : y.phase ≠ .stopped → (s.readable = false ↔ y.phase = .reading)
  output : y.phase ≠ .stopped → s.outputBuffer = y.output
  written : handedPayloads s.log = y.written

variable {cb : Callbacks} {s t : Server} {y : Loop Byte}

theorem follows_initial : Follows {} {} := by
  constructor <;> simp

theorem Follows.connecting (hs : s.Follows y) (h : 0 < s.stream.handshakes) :
    y.phase = .connecting := by
  by_contra hc
  rw [hs.handshakes, if_neg hc] at h
  omega

theorem Follows.reading (hs : s.Follows y) (h : 0 < s.stream.reads) : y.phase = .reading := by
  by_contra hc
  rw [hs.reads, if_neg hc] at h
  omega

theorem Follows.writing (hs : s.Follows y) (h : 0 < s.stream.writes.length) :
    y.phase = .writing := by
  by_contra hc
  rw [hs.writes, if_neg hc] at h
  omega

theorem Follows.accepts (hs : s.Follows y) (h : y.phase = .writing ∨ y.phase = .callback) :
    s.accepted = true := by
  have hacc := hs.accepted (by rcases h with h | h <;> simp [h])
  rcases h with h | h <;> simpa [h] using hacc

theorem Follows.may_read (hs : s.Follows y) (h : y.phase = .writing ∨ y.phase = .callback) :
    s.readable = true := by
  have hready := hs.readable (by rcases h with h | h <;> simp [h])
  rcases h with h | h <;> simpa [h] using hready

/-- Entries of the record that the correspondence does not read. -/
theorem Follows.emit (hs : s.Follows y) {o : Obs} (hstart : o.started? = none)
    (hhand : o.handed? = none) (hfail : o.isFailure = false) (hopen : o.isOpening = false) :
    (s.io (Session.emit o)).Follows y := by
  have hstarted : startedOps (s.log ++ [o]) = startedOps s.log := project_snoc_none hstart
  have hhanded : handedPayloads (s.log ++ [o]) = handedPayloads s.log := project_snoc_none hhand
  have hfailure : anyFailure (s.log ++ [o]) = anyFailure s.log := occurs_snoc_false hfail
  have hopened : opened (s.log ++ [o]) = opened s.log := occurs_snoc_false hopen
  cases hs
  constructor <;> simp only [io, Session.emit, hstarted, hhanded, hfailure, hopened] <;>
    assumption

theorem Follows.controlFrame (hs : s.Follows y) (kind : FrameType) (payload : Bytes) :
    (s.io (Session.controlFrame cb kind payload)).Follows y := by
  have hcontrol : (s.io (Session.emit (.control kind payload))).Follows y :=
    hs.emit rfl rfl rfl rfl
  simp only [io, Session.controlFrame, Session.onControlCallback]
  split_ifs
  · exact hcontrol.emit (o := .called (.ping payload)) rfl rfl rfl rfl
  · exact hcontrol.emit (o := .called (.pong payload)) rfl rfl rfl rfl
  · exact hcontrol.emit (o := .called (.close payload)) rfl rfl rfl rfl
  · exact hcontrol
  · exact hcontrol

theorem Follows.doAccept (hs : s.Follows y) (h : startedOps s.log = []) :
    ∃ z, (Loop.system Byte).step y .connect = some z ∧ (s.doAccept cb).Follows z := by
  have hphase := hs.started.mp h
  have hacc : s.accepted = false := by
    rw [hs.accepted (by simp [hphase])]
    exact Or.inl hphase
  refine ⟨{ y with phase := .connecting }, by simp [Loop.system, Loop.step, hphase], ?_⟩
  cases hs
  constructor <;> simp_all [Server.doAccept, io, Session.setControlCallback, expiresAfter,
    Session.asyncHandshake, Session.emit, Timer.expiresAfter]

theorem Follows.onAccept (hs : s.Follows y) (ec : ErrorCode) (h : 0 < s.stream.handshakes) :
    ∃ z, (Loop.system Byte).step y (if ec.failed then .failed else .connected) = some z ∧
      ((s.io (Session.handshakeDone ec)).onAccept cb ec).Follows z := by
  have hphase := hs.connecting h
  cases hs
  by_cases hec : ec = .success
  · subst hec
    refine ⟨{ y with phase := .callback }, by simp [Loop.system, Loop.step, hphase], ?_⟩
    cases hopen : cb.onOpen <;> constructor <;>
      simp_all [Server.onAccept, io, Session.handshakeDone, Session.enterOpening,
        Session.invoke, Session.emit]
  · refine ⟨{ y with phase := .stopped },
      by simp [Loop.system, Loop.step, Loop.Phase.waits, hphase, hec], ?_⟩
    by_cases hab : ec = .operationAborted <;> constructor <;>
      simp_all [Server.onAccept, io, Session.handshakeDone, Session.fail, Session.emit]

theorem Follows.append (hs : s.Follows y) (b : Bytes) (h : s.frame ≠ .idle) :
    ∃ z, (Loop.system Byte).step y (.out b) = some z ∧ (s.io (Session.append b)).Follows z := by
  have hphase : y.phase = .callback := by
    by_contra hc
    exact h (hs.frame.mpr hc)
  refine ⟨{ y with output := y.output ++ b }, by simp [Loop.system, Loop.step, hphase], ?_⟩
  cases hs
  constructor <;> simp_all [io, Session.append, Session.emit]

theorem Follows.onRead (hs : s.Follows y) (ec : ErrorCode) (chunk : Bytes) (text : Bool)
    (h : 0 < s.stream.reads) :
    ∃ z, (Loop.system Byte).step y (if ec.failed then .failed else .message) = some z ∧
      ((s.io (Session.readDone ec chunk text)).onRead cb ec).Follows z := by
  have hphase := hs.reading h
  cases hs
  by_cases hec : ec = .success
  · subst hec
    refine ⟨{ y with phase := .callback }, by simp [Loop.system, Loop.step, hphase], ?_⟩
    cases hmsg : cb.onMessage <;> constructor <;>
      simp_all [Server.onRead, io, Session.readDone, Session.deliver, Session.invoke,
        Session.emit]
  · refine ⟨{ y with phase := .stopped },
      by simp [Loop.system, Loop.step, Loop.Phase.waits, hphase, hec], ?_⟩
    rw [Server.onRead]
    split_ifs <;> constructor <;> simp_all [io, Session.readDone, Session.fail, Session.emit]

theorem Follows.onWrite (hs : s.Follows y) {i : ℕ} {w : Write Unit} (ec : ErrorCode)
    (hw : s.stream.writes[i]? = some w) :
    ∃ z, (Loop.system Byte).step y (if ec.failed then .failed else .wrote) = some z ∧
      ((s.io (Session.writeDone i w ec)).onWrite ec).Follows z := by
  have hi : i < s.stream.writes.length := (List.getElem?_eq_some_iff.mp hw).1
  have hphase := hs.writing (by omega)
  have hone : s.stream.writes.length = 1 := by
    rw [hs.writes, if_pos hphase]
  have hzero : (s.stream.writes.eraseIdx i).length = 0 := by
    rw [List.length_eraseIdx_of_lt hi, hone]
  have hacc := hs.accepts (Or.inl hphase)
  have hready := hs.may_read (Or.inl hphase)
  cases hs
  by_cases hec : ec = .success
  · subst hec
    refine ⟨{ y with phase := .reading, output := [] },
      by simp [Loop.system, Loop.step, hphase], ?_⟩
    constructor <;> simp_all [Server.onWrite, readOn, Server.doRead, io, Session.writeDone,
      Session.consumeOutput, expiresAfter, Session.startRead, Session.asyncRead, Session.emit,
      Timer.expiresAfter]
  · refine ⟨{ y with phase := .stopped },
      by simp [Loop.system, Loop.step, Loop.Phase.waits, hphase, hec], ?_⟩
    rw [Server.onWrite]
    split_ifs <;> constructor <;> simp_all [io, Session.writeDone, Session.fail, Session.emit]

/-- The callback has returned: the handler writes if there is output, and reads if not. -/
theorem Follows.writeOrRead (hs : s.Follows y) (hphase : y.phase = .callback) :
    ∃ z, (Loop.system Byte).step y .returned = some z ∧
      (s.io Session.leave).writeOrRead.Follows z := by
  have hacc := hs.accepts (Or.inr hphase)
  have hready := hs.may_read (Or.inr hphase)
  have hout : s.outputBuffer = y.output := hs.output (by simp [hphase])
  cases hs
  cases ho : y.output with
  | nil =>
    refine ⟨{ y with phase := .reading }, by simp [Loop.system, Loop.step, hphase, ho], ?_⟩
    constructor <;> simp_all [Server.writeOrRead, readOn, Server.doRead, io, Session.leave,
      expiresAfter, Session.startRead, Session.asyncRead, Session.emit, Timer.expiresAfter]
  | cons b bs =>
    refine ⟨{ y with phase := .writing, written := y.written ++ [y.output] },
      by simp [Loop.system, Loop.step, hphase, ho], ?_⟩
    constructor <;> simp_all [Server.writeOrRead, doWrite, io, Session.leave,
      Session.asyncWrite, Session.emit]

theorem Follows.consumeInput (hs : s.Follows y) : (s.io Session.consumeInput).Follows y := by
  have hemit := hs.emit (o := .inputConsumed s.inputBuffer) rfl rfl rfl rfl
  cases hemit
  constructor <;> assumption

theorem Follows.matchFrame (hs : s.Follows y) : (s.io Session.matchFrame).Follows y := by
  simp only [io, Session.matchFrame]
  split_ifs
  · cases hs
    constructor <;> assumption
  · exact hs

theorem onReadRest_leave :
    (s.io Session.leave).onReadRest =
      (((s.io Session.consumeInput).io Session.matchFrame).io Session.leave).writeOrRead :=
  congrArg (fun x => writeOrRead { s with toSession := x }) (Session.matchFrame_leave s.toSession)

theorem Follows.resume (hs : s.Follows y) (h : s.resume = some t) :
    ∃ z, (Loop.system Byte).step y .returned = some z ∧ t.Follows z := by
  have hphase : y.phase = .callback := by
    by_contra hc
    simp [Server.resume, hs.frame.mpr hc] at h
  cases hf : s.frame with
  | idle => simp [Server.resume, hf] at h
  | opening =>
    simp only [Server.resume, hf, Option.some.injEq] at h
    rw [← h]
    exact hs.writeOrRead hphase
  | reading =>
    simp only [Server.resume, hf, Option.some.injEq] at h
    rw [← h, onReadRest_leave]
    exact hs.consumeInput.matchFrame.writeOrRead hphase

/-- Each event of the session performs the step of the loop that it stands for. -/
theorem step_follows (s : Server) (e : Event) (t : Server) (y : Loop Byte) (hs : s.Follows y)
    (hcalls : s.OnlyAppends e) (ht : (system cb).step s e = some t) :
    ∃ z, (Loop.system Byte).perform y e.loopOp = some z ∧ t.Follows z := by
  cases e with
  | call c =>
    cases ht
    cases c with
    | doAccept => exact hs.doAccept hcalls
    | append b => exact hs.append b hcalls
    | _ => exact absurd hcalls id
  | acceptDone ec =>
    obtain ⟨⟨_, h⟩, rfl⟩ := Session.handled_eq_some.mp ht
    exact hs.onAccept ec h
  | readDone ec chunk text =>
    obtain ⟨⟨_, h⟩, rfl⟩ := Session.handled_eq_some.mp ht
    exact hs.onRead ec chunk text h
  | writeDone i ec =>
    obtain ⟨w, hw, ht⟩ := Option.bind_eq_some_iff.mp ht
    obtain ⟨_, rfl⟩ := Session.handled_eq_some.mp ht
    exact hs.onWrite ec hw
  | resume => exact hs.resume ht
  | control kind payload =>
    obtain ⟨_, rfl⟩ := Session.handled_eq_some.mp ht
    exact ⟨y, rfl, hs.controlFrame kind payload⟩
  | tick d =>
    cases ht
    have hemit := hs.emit (o := .ticked d) rfl rfl rfl rfl
    refine ⟨y, rfl, ?_⟩
    cases hemit
    constructor <;> assumption
  | expire =>
    obtain ⟨_, ht⟩ := Option.ite_none_right_eq_some.mp ht
    cases ht
    refine ⟨y, rfl, ?_⟩
    cases hs
    constructor <;> simp_all
  -- the session has none of these operations outstanding
  | pingDone ec =>
    obtain ⟨⟨_, h⟩, _⟩ := Session.handled_eq_some.mp ht
    simp [hs.pings] at h
  | pongDone ec =>
    obtain ⟨⟨_, h⟩, _⟩ := Session.handled_eq_some.mp ht
    simp [hs.pongs] at h
  | closeDone ec =>
    obtain ⟨⟨_, h⟩, _⟩ := Session.handled_eq_some.mp ht
    simp [hs.closes] at h
  | waitDone i ec =>
    obtain ⟨w, hw, _⟩ := Option.bind_eq_some_iff.mp ht
    simp [hs.waits] at hw

theorem run_follows {es : List Event} (hcalls : (system cb).Along OnlyAppends {} es)
    (hrun : (system cb).run {} es = some s) :
    ∃ z, (Loop.system Byte).run {} (es.filterMap Event.loopOp) = some z ∧ s.Follows z :=
  System.run_simulates (a := Event.loopOp) step_follows follows_initial hcalls hrun

/-- Once open and before any failure, the session waits for one thing between two handlers,
and for nothing while a callback is running. -/
theorem Follows.one_outstanding (hs : s.Follows y) (hopen : opened s.log = true)
    (hok : anyFailure s.log = false) :
    if s.frame = .idle then
      s.stream.reads = 1 ∧ s.stream.writes = [] ∨
        s.stream.reads = 0 ∧ s.stream.writes.length = 1
    else s.stream.reads = 0 ∧ s.stream.writes = [] := by
  have hstopped : y.phase ≠ .stopped := by
    rw [Ne, ← hs.failure, hok]
    simp
  have hacc := hs.accepted hstopped
  have hreads := hs.reads
  have hwrites := hs.writes
  rw [← hs.opening, hopen] at hacc
  split_ifs with hidle
  · have hcallback : y.phase ≠ .callback := hs.frame.mp hidle
    cases hphase : y.phase <;> simp_all
  · have hcallback : y.phase = .callback := by
      by_contra hc
      exact hidle (hs.frame.mpr hc)
    simp_all

end Server

/-- A server session whose callbacks only append to the output buffer they are given runs
the request and reply loop: it hands to the stream the outputs that are not empty, in order,
and between two handlers has exactly one of a read and a write outstanding. -/
theorem server_refines_loop (cb : Callbacks) (es : List Server.Event) (s : Server)
    (hcalls : (Server.system cb).Along Server.OnlyAppends {} es)
    (hrun : (Server.system cb).run {} es = some s) :
    (∃ y, (Loop.system Byte).run {} (es.filterMap Server.Event.loopOp) = some y ∧
      s.Follows y) ∧
    handedPayloads s.log = (callbackOutputs es).filter (fun b => !b.isEmpty) ∧
    (opened s.log = true → anyFailure s.log = false →
      if s.frame = .idle then
        s.stream.reads = 1 ∧ s.stream.writes = [] ∨
          s.stream.reads = 0 ∧ s.stream.writes.length = 1
      else s.stream.reads = 0 ∧ s.stream.writes = []) := by
  obtain ⟨y, hy, hs⟩ := Server.run_follows hcalls hrun
  have hclear : Loop.Clear ({} : Loop Byte) := fun _ => rfl
  have hwritten := Loop.written_run hclear hy
  refine ⟨⟨y, hy, hs⟩, ?_, hs.one_outstanding⟩
  rw [hs.written, hwritten]
  rfl

/-- An empty reply to the accept, a reply in two parts, its write, and an empty reply. -/
def Server.twoReplies : List Server.Event :=
  [.call .doAccept, .acceptDone .success, .resume, .readDone .success [104] true,
    .call (.append [65]), .call (.append [66]), .resume, .writeDone 0 .success,
    .readDone .success [105] true, .resume]

theorem server_refines_loop_replies :
    ∃ s, (Server.system {}).run {} Server.twoReplies = some s ∧
      callbackOutputs Server.twoReplies = [[], [65, 66], []] ∧
      handedPayloads s.log = (callbackOutputs Server.twoReplies).filter (fun b => !b.isEmpty) ∧
      s.stream.reads = 1 := by
  have hcalls : (Server.system {}).Along Server.OnlyAppends {} Server.twoReplies := by
    decide
  exact ⟨_, rfl, rfl, (server_refines_loop {} Server.twoReplies _ hcalls rfl).2.1, rfl⟩

end BeastWebsocket
