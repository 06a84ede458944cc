import BeastWebsocket.Session.Client
import BeastWebsocket.Channel.Dialogue

/-! # The client session as a conversation

A client whose callbacks either append output, and may decline the next message, or append
nothing and may call `do_read`, runs the sequential conversation. Where the server always reads
on after an empty output, the client falls silent unless the callback has asked.
-/
namespace BeastWebsocket
open Channel Transition

/-- What an event of the session is to the conversation. -/
def Client.Event.talkOp : Client.Event → Option (Dialogue.Op Byte)
  | .call .doHandshake => some .connect
  | .call (.append b) => some (.out b)
  | .call .doRead => some .ask
  | .setNextRead b => some (.setNext b)
  | .handshakeDone ec _ => some (if ec.failed then .failed else .connected)
  | .readDone ec _ _ => some (if ec.failed then .failed else .message)
  | .writeDone _ ec => some (if ec.failed then .failed else .wrote)
  | .resume => some .returned
  | _ => none

/-- What the callbacks of a run have chosen. -/
def callbackTalk (es : List Client.Event) : Talk Byte :=
  (es.filterMap Client.Event.talkOp).foldl Talk.after {}

namespace Client

/-- User code calls `do_handshake` once, and beside it only acts in callbacks: one that has not
called `do_read` may append, and one that has appended nothing may call `do_read`. While a
callback runs, `readable` tells that it has not called `do_read`. -/
def Converses (s : Client) : Event → Prop
  | .call .doHandshake => startedOps s.log = []
  | .call (.append b) => s.frame ≠ .idle ∧ (b = [] ∨ s.readable = true)
  | .call .doRead => s.frame ≠ .idle ∧ s.outputBuffer = []
  | .call _ => False
  | _ => True

instance (s : Client) (e : Event) : Decidable (s.Converses e) :=
  match e with
  | .call .doHandshake => inferInstanceAs (Decidable (startedOps s.log = []))
  | .call (.append b) =>
      inferInstanceAs (Decidable (s.frame ≠ .idle ∧ (b = [] ∨ s.readable = true)))
  | .call .doRead => inferInstanceAs (Decidable (s.frame ≠ .idle ∧ s.outputBuffer = []))
  | .call .setAutoFrame | .call .setTextFrame | .call .setBinaryFrame
  | .call (.doPing _) | .call (.doPong _) | .call (.doClose _) | .call (.doWrite _) => isFalse id
  | .setNextRead _ | .handshakeDone _ _ | .readDone _ _ _ | .writeDone _ _ | .pingDone _
  | .pongDone _ | .closeDone _ | .control _ _ | .resume => isTrue trivial

/-- What the session has in its output buffer. -/
def buffered (y : Dialogue Byte) : Bytes :=
  if y.phase = .callback ∨ y.phase = .writing then y.talk.output else []

/-- The write that is outstanding, with the choice bound into its handler. -/
def inFlight (y : Dialogue Byte) : List (Bytes × Bool) :=
  if y.phase = .writing then [(y.talk.output, y.talk.next)] else []

/-- The session is where the conversation is. -/
structure Follows (s : Client) (y : Dialogue Byte) : Prop where
  pings : s.stream.pings = 0
  pongs : s.stream.pongs = 0
  closes : s.stream.closes = 0
  started : startedOps s.log = [] ↔ y.phase = .fresh
  handshakes : s.stream.handshakes = if y.phase = .connecting then 1 else 0
  reads : s.stream.reads = if y.Listens then 1 else 0
  writes : s.stream.writes.map (fun w => (w.payload, w.bound)) = inFlight y
  frame : s.frame = .idle ↔ y.phase ≠ .callback
  failure : anyFailure s.log = true ↔ y.phase = .stopped
  opening : opened s.log = s.handshaked
  handshaked : y.phase ≠ .stopped →
    (s.handshaked = false ↔ y.phase = .fresh ∨ y.phase = .connecting)
  readable : y.phase ≠ .stopped → (s.readable = false ↔ y.Listens)
  output : y.phase ≠ .stopped → s.outputBuffer = buffered y
  nextRead : y.phase = .callback → s.nextRead = y.talk.next
  written : handedPayloads s.log = y.written
  sent : y.phase ≠ .stopped → sentPayloads s.log ++ (inFlight y).map Prod.fst = y.written

variable {cb : Callbacks} {s t : Client} {y : Dialogue Byte}

theorem follows_initial : Follows {} {} := by
  constructor <;> simp [Dialogue.Listens, buffered, inFlight]

theorem Follows.connecting (hs : s.Follows y) (h : 0 < s.stream.handshakes) :
    y.phase = .connecting := by
  by_contra hc
  rw [hs.handshakes, if_neg hc] at h
  omega

/-- A read completes between two callbacks. -/
theorem Follows.reading (hs : s.Follows y) (hidle : s.frame = .idle) (h : 0 < s.stream.reads) :
    y.phase = .reading := by
  have hlisten : y.Listens := by
    by_contra hc
    rw [hs.reads, if_neg hc] at h
    omega
  rcases hlisten with hphase | ⟨hphase, _⟩
  · exact hphase
  · exact absurd hphase (hs.frame.mp hidle)

theorem Follows.writing (hs : s.Follows y) {w : Write Bool} {i : ℕ}
    (hw : s.stream.writes[i]? = some w) :
    y.phase = .writing ∧ w.payload = y.talk.output ∧ w.bound = y.talk.next ∧
      s.stream.writes.eraseIdx i = [] := by
  have hmap := hs.writes
  by_cases hphase : y.phase = .writing
  · rw [inFlight, if_pos hphase] at hmap
    obtain ⟨v, hv, heq⟩ := List.map_eq_singleton_iff.mp hmap
    rw [hv] at hw ⊢
    cases i with
    | zero =>
      cases hw
      exact ⟨hphase, congrArg Prod.fst heq, congrArg Prod.snd heq, rfl⟩
    | succ i => cases hw
  · rw [inFlight, if_neg hphase, List.map_eq_nil_iff] at hmap
    rw [hmap] at hw
    cases hw

theorem Follows.callback (hs : s.Follows y) (h : s.frame ≠ .idle) : y.phase = .callback := by
  by_contra hc
  exact h (hs.frame.mpr hc)

theorem Follows.isHandshaked (hs : s.Follows y) (h : y.phase = .writing ∨ y.phase = .callback) :
    s.handshaked = true := by
  have hshake := hs.handshaked (by rcases h with h | h <;> simp [h])
  rcases h with h | h <;> simpa [h] using hshake

/-- Entries of the record that the correspondence does not read. -/
theorem Follows.emit (hs : s.Follows y) {o : Obs} (hstart : o.started? = none)
    (hhand : o.handed? = none) (hsent : o.sent? = none) (hfail : o.isFailure = false)
    (hopen : o.isOpening = false) : (s.io (Session.emit o)).Follows y := by
  have hstarted : startedOps (s.log ++ [o]) = startedOps s.log := project_snoc_none hstart
  have hhanded : handedPayloads (s.log ++ [o]) = handedPayloads s.log := project_snoc_none hhand
  have hwritten : sentPayloads (s.log ++ [o]) = sentPayloads s.log := project_snoc_none hsent
  have hfailure : anyFailure (s.log ++ [o]) = anyFailure s.log := occurs_snoc_false hfail
  have hopened : opened (s.log ++ [o]) = opened s.log := occurs_snoc_false hopen
  cases hs
  constructor <;>
    simp only [io, Session.emit, hstarted, hhanded, hwritten, hfailure, hopened] <;> assumption

theorem Follows.controlFrame (hs : s.Follows y) (kind : FrameType) (payload : Bytes) :
    (s.io (Session.controlFrame cb kind payload)).Follows y := by
  have hcontrol : (s.io (Session.emit (.control kind payload))).Follows y :=
    hs.emit rfl rfl rfl rfl rfl
  simp only [io, Session.controlFrame, Session.onControlCallback]
  split_ifs
  · exact hcontrol.emit (o := .called (.ping payload)) rfl rfl rfl rfl rfl
  · exact hcontrol.emit (o := .called (.pong payload)) rfl rfl rfl rfl rfl
  · exact hcontrol.emit (o := .called (.close payload)) rfl rfl rfl rfl rfl
  · exact hcontrol
  · exact hcontrol

theorem Follows.doHandshake (hs : s.Follows y) (h : startedOps s.log = []) :
    ∃ z, (Dialogue.system Byte).step y .connect = some z ∧ (s.doHandshake cb).Follows z := by
  have hphase := hs.started.mp h
  have hshake : s.handshaked = false := by
    rw [hs.handshaked (by simp [hphase])]
    exact Or.inl hphase
  refine ⟨{ y with phase := .connecting }, ?_, ?_⟩
  · simp [Dialogue.system, Dialogue.step, hphase, Talk.after]
  · cases hs
    constructor <;> simp_all [Client.doHandshake, io, Session.setControlCallback,
      Session.asyncHandshake, Session.emit, Dialogue.Listens, buffered, inFlight]

theorem Follows.onHandshake (hs : s.Follows y) (ec : ErrorCode) (response : Bytes)
    (h : 0 < s.stream.handshakes) :
    ∃ z, (Dialogue.system Byte).step y (if ec.failed then .failed else .connected) = some z ∧
      (({ s with resUpgrade := response }.io (Session.handshakeDone ec)).onHandshake cb
        ec).Follows z := by
  have hphase := hs.connecting h
  cases hs
  by_cases hec : ec = .success
  · subst hec
    refine ⟨{ y with phase := .callback, talk := { outputs := y.talk.outputs } }, ?_, ?_⟩
    · simp [Dialogue.system, Dialogue.step, hphase, Talk.after]
    · cases hopen : cb.onOpen <;> constructor <;>
        simp_all [Client.onHandshake, io, Session.handshakeDone, Session.enterOpening,
          Session.invoke, Session.emit, Dialogue.Listens, buffered, inFlight]
  · refine ⟨{ y with phase := .stopped }, ?_, ?_⟩
    · simp [Dialogue.system, Dialogue.step, Dialogue.Phase.waits, hphase, hec, Talk.after]
    · constructor <;>
        simp_all [Client.onHandshake, io, Session.handshakeDone, Session.fail, Session.emit,
          Dialogue.Listens, buffered, inFlight]

theorem Follows.append (hs : s.Follows y) (b : Bytes) (h : s.frame ≠ .idle)
    (hb : b = [] ∨ s.readable = true) :
    ∃ z, (Dialogue.system Byte).step y (.out b) = some z ∧
      (s.io (Session.append b)).Follows z := by
  have hphase := hs.callback h
  have hready := hs.readable (by simp [hphase])
  have hask : b = [] ∨ y.talk.asked = false := by
    apply hb.imp id
    intro hread
    simpa [Dialogue.Listens, hphase, hread] using hready
  refine ⟨{ y with talk := y.talk.after (.out b) }, ?_, ?_⟩
  · simp [Dialogue.system, Dialogue.step, hphase, hask]
  · cases hs
    constructor <;> simp_all [io, Session.append, Session.emit, Dialogue.Listens, buffered,
      inFlight, Talk.after]

theorem Follows.doRead (hs : s.Follows y) (h : s.frame ≠ .idle) (hout : s.outputBuffer = []) :
    ∃ z, (Dialogue.system Byte).step y .ask = some z ∧ s.doRead.Follows z := by
  have hphase := hs.callback h
  have hshake := hs.isHandshaked (Or.inr hphase)
  have hempty : y.talk.output = [] := by
    simpa [hout, buffered, hphase] using (hs.output (by simp [hphase])).symm
  have hready := hs.readable (by simp [hphase])
  refine ⟨{ y with talk := y.talk.after .ask }, ?_, ?_⟩
  · simp [Dialogue.system, Dialogue.step, hphase, hempty]
  · cases hs
    cases hread : s.readable <;> constructor <;>
      simp_all [Client.doRead, io, Session.startRead, Session.asyncRead, Session.emit,
        Dialogue.Listens, buffered, inFlight, Talk.after]

theorem Follows.setNextRead (hs : s.Follows y) (b : Bool) (h : s.frame ≠ .idle) :
    ∃ z, (Dialogue.system Byte).step y (.setNext b) = some z ∧
      Follows { s with nextRead := b } z := by
  have hphase := hs.callback h
  refine ⟨{ y with talk := y.talk.after (.setNext b) }, ?_, ?_⟩
  · simp [Dialogue.system, Dialogue.step, hphase]
  · cases hs
    constructor <;> simp_all [Dialogue.Listens, buffered, inFlight, Talk.after]

theorem Follows.onRead (hs : s.Follows y) (ec : ErrorCode) (chunk : Bytes) (text : Bool)
    (hidle : s.frame = .idle) (h : 0 < s.stream.reads) :
    ∃ z, (Dialogue.system Byte).step y (if ec.failed then .failed else .message) = some z ∧
      ((s.io (Session.readDone ec chunk text)).onRead cb ec).Follows z := by
  have hphase := hs.reading hidle h
  cases hs
  by_cases hec : ec = .success
  · subst hec
    refine ⟨{ y with phase := .callback, talk := { outputs := y.talk.outputs } }, ?_, ?_⟩
    · simp [Dialogue.system, Dialogue.step, hphase, Talk.after]
    · cases hmsg : cb.onMessage <;> constructor <;>
        simp_all [Client.onRead, io, Session.readDone, Session.deliver, Session.invoke,
          Session.emit, Dialogue.Listens, buffered, inFlight]
  · refine ⟨{ y with phase := .stopped }, ?_, ?_⟩
    · simp [Dialogue.system, Dialogue.step, Dialogue.Phase.waits, hphase, hec, Talk.after]
    · constructor <;>
        simp_all [Client.onRead, io, Session.readDone, Session.fail, Session.emit,
          Dialogue.Listens, buffered, inFlight]

theorem Follows.onWrite (hs : s.Follows y) {i : ℕ} {w : Write Bool} (ec : ErrorCode)
    (hw : s.stream.writes[i]? = some w) :
    ∃ z, (Dialogue.system Byte).step y (if ec.failed then .failed else .wrote) = some z ∧
      ((s.io (Session.writeDone i w ec)).onWrite ec w.bound).Follows z := by
  obtain ⟨hphase, hpayload, hbound, herase⟩ := hs.writing hw
  have hshake := hs.isHandshaked (Or.inl hphase)
  have hready := hs.readable (by simp [hphase])
  cases hs
  by_cases hec : ec = .success
  · subst hec
    refine ⟨{ y with
      phase := if y.talk.next then .reading else .silent, talk := y.talk.after .wrote }, ?_, ?_⟩
    · simp [Dialogue.system, Dialogue.step, hphase]
    · cases hnext : y.talk.next <;> constructor <;>
        simp_all [Client.onWrite, readOn, Client.doRead, io, Session.writeDone,
          Session.consumeOutput, Session.startRead, Session.asyncRead, Session.emit,
          Dialogue.Listens, buffered, inFlight, Talk.after]
  · refine ⟨{ y with phase := .stopped }, ?_, ?_⟩
    · simp [Dialogue.system, Dialogue.step, Dialogue.Phase.waits, hphase, hec, Talk.after]
    · constructor <;>
        simp_all [Client.onWrite, io, Session.writeDone, Session.fail, Session.emit,
          Dialogue.Listens, buffered, inFlight]

/-- The callback has returned: the handler writes if there is output. -/
theorem Follows.writeOut (hs : s.Follows y) (hy : y.Coherent) (hphase : y.phase = .callback) :
    ∃ z, (Dialogue.system Byte).step y .returned = some z ∧
      (s.io Session.leave).writeOut.Follows z := by
  have hshake := hs.isHandshaked (Or.inr hphase)
  have hready := hs.readable (by simp [hphase])
  have hout : s.outputBuffer = y.talk.output := by
    simpa [buffered, hphase] using hs.output (by simp [hphase])
  cases hs
  cases ho : y.talk.output with
  | nil =>
    refine ⟨{ y with
      phase := if y.talk.asked then .reading else .silent, talk := y.talk.after .returned }, ?_, ?_⟩
    · simp [Dialogue.system, Dialogue.step, hphase, ho]
    · cases hask : y.talk.asked <;> constructor <;>
        simp_all [Client.writeOut, io, Session.leave, Dialogue.Listens, buffered, inFlight,
          Talk.after]
  | cons b bs =>
    have hask : y.talk.asked = false := by
      by_contra hc
      have hempty := (hy.callback hphase).2 (by simpa using hc)
      simp [ho] at hempty
    refine ⟨{ y with phase := .writing, talk := y.talk.after .returned,
                     written := y.written ++ [y.talk.output] }, ?_, ?_⟩
    · simp [Dialogue.system, Dialogue.step, hphase, ho]
    · constructor <;> simp_all [Client.writeOut, doWrite, io, Session.leave,
        Session.asyncWrite, Session.emit, Dialogue.Listens, buffered, inFlight, Talk.after]

theorem Follows.consumeInput (hs : s.Follows y) : (s.io Session.consumeInput).Follows y := by
  have hemit := hs.emit (o := .inputConsumed s.inputBuffer) rfl rfl rfl rfl rfl
  cases hemit
  constructor <;> assumption

theorem Follows.matchFrame (hs : s.Follows y) : (s.io Session.matchFrame).Follows y := by
  simp only [io, Session.matchFrame]
  split_ifs
  · cases hs
    constructor <;> assumption
  · exact hs

theorem onReadRest_leave :
    (s.io Session.leave).onReadRest =
      (((s.io Session.consumeInput).io Session.matchFrame).io Session.leave).writeOut :=
  congrArg (fun x => writeOut { s with toSession := x }) (Session.matchFrame_leave s.toSession)

theorem Follows.resume (hs : s.Follows y) (hy : y.Coherent) (h : s.resume = some t) :
    ∃ z, (Dialogue.system Byte).step y .returned = some z ∧ t.Follows z := by
  cases hf : s.frame with
  | idle => simp [Client.resume, hf] at h
  | opening =>
    have hphase := hs.callback (by simp [hf])
    have hclear : Follows { s with resUpgrade := [] } y := by
      cases hs
      constructor <;> assumption
    rw [Client.resume, hf] at h
    cases h
    exact hclear.writeOut hy hphase
  | reading =>
    have hphase := hs.callback (by simp [hf])
    rw [Client.resume, hf] at h
    cases h
    rw [onReadRest_leave]
    exact hs.consumeInput.matchFrame.writeOut hy hphase

/-- Each event of the session performs the step of the conversation that it stands for. -/
theorem step_follows (s : Client) (e : Event) (t : Client) (y : Dialogue Byte)
    (hs : s.Follows y ∧ y.Coherent) (hcalls : s.Converses e)
    (ht : (system cb).step s e = some t) :
    ∃ z, (Dialogue.system Byte).perform y e.talkOp = some z ∧ t.Follows z := by
  obtain ⟨hs, hy⟩ := hs
  cases e with
  | call c =>
    cases ht
    cases c with
    | doHandshake => exact hs.doHandshake hcalls
    | append b => exact hs.append b hcalls.1 hcalls.2
    | doRead => exact hs.doRead hcalls.1 hcalls.2
    | _ => exact absurd hcalls id
  | setNextRead b =>
    obtain ⟨hframe, ht⟩ := Option.ite_none_left_eq_some.mp ht
    cases ht
    exact hs.setNextRead b hframe
  | handshakeDone ec response =>
    obtain ⟨⟨_, h⟩, rfl⟩ := Session.handled_eq_some.mp ht
    exact hs.onHandshake ec response h
  | readDone ec chunk text =>
    obtain ⟨⟨hidle, h⟩, rfl⟩ := Session.handled_eq_some.mp ht
    exact hs.onRead ec chunk text hidle h
  | writeDone i ec =>
    obtain ⟨w, hw, ht⟩ := Option.bind_eq_some_iff.mp ht
    obtain ⟨_, rfl⟩ := Session.handled_eq_some.mp ht
    exact hs.onWrite ec hw
  | resume => exact hs.resume hy ht
  | control kind payload =>
    obtain ⟨_, rfl⟩ := Session.handled_eq_some.mp ht
    exact ⟨y, rfl, hs.controlFrame kind payload⟩
  -- the session has none of these operations outstanding
  | pingDone ec =>
    obtain ⟨⟨_, h⟩, _⟩ := Session.handled_eq_some.mp ht
    simp [hs.pings] at h
  | pongDone ec =>
    obtain ⟨⟨_, h⟩, _⟩ := Session.handled_eq_some.mp ht
    simp [hs.pongs] at h
  | closeDone ec =>
    obtain ⟨⟨_, h⟩, _⟩ := Session.handled_eq_some.mp ht
    simp [hs.closes] at h

theorem run_follows {es : List Event} (hcalls : (system cb).Along Converses {} es)
    (hrun : (system cb).run {} es = some s) :
    ∃ z, (Dialogue.system Byte).run {} (es.filterMap Event.talkOp) = some z ∧ s.Follows z := by
  have hinitial : Follows {} {} ∧ Dialogue.Coherent ({} : Dialogue Byte) :=
    ⟨follows_initial, Dialogue.coherent_initial⟩
  have hstep : ∀ (u : Client) (e : Event) (v : Client) (y : Dialogue Byte),
      u.Follows y ∧ y.Coherent → u.Converses e → (system cb).step u e = some v →
        ∃ z, (Dialogue.system Byte).perform y e.talkOp = some z ∧ v.Follows z ∧ z.Coherent := by
    intro u e v y hu hc hv
    obtain ⟨z, hz, hvz⟩ := step_follows u e v y hu hc hv
    refine ⟨z, hz, hvz, ?_⟩
    exact System.perform_invariant (fun o _ h => hu.2.step h) hu.2 hz
  obtain ⟨z, hz, hs, _⟩ := System.run_simulates hstep hinitial hcalls hrun
  exact ⟨z, hz, hs⟩

theorem Follows.one_outstanding (hs : s.Follows y) :
    s.stream.reads + s.stream.writes.length ≤ 1 := by
  have hwrites := congrArg List.length hs.writes
  rw [List.length_map] at hwrites
  rw [hs.reads, hwrites, inFlight]
  by_cases hphase : y.phase = .writing
  · have hsilent : ¬ y.Listens := by
      rintro (hread | ⟨hcallback, _⟩)
      · simp [hphase] at hread
      · simp [hphase] at hcallback
    rw [if_pos hphase, if_neg hsilent]
    exact Nat.le_refl 1
  · rw [if_neg hphase]
    split_ifs
    · exact Nat.le_refl 1
    · exact Nat.zero_le 1

/-- Nothing is outstanding exactly if the conversation is silent. -/
theorem Follows.silent_iff (hs : s.Follows y) (hy : y.Coherent) (hidle : s.frame = .idle)
    (hopen : opened s.log = true) (hok : anyFailure s.log = false) :
    s.stream.reads = 0 ∧ s.stream.writes = [] ↔ y.talk.Silent := by
  have hstopped : y.phase ≠ .stopped := by
    rw [Ne, ← hs.failure, hok]
    simp
  have hshake := hs.handshaked hstopped
  rw [← hs.opening, hopen] at hshake
  have hcallback := hs.frame.mp hidle
  have hphases : y.phase = .reading ∨ y.phase = .writing ∨ y.phase = .silent := by
    cases hphase : y.phase <;> simp_all
  rw [← hy.silent_iff hphases, ← List.map_eq_nil_iff, hs.reads, hs.writes]
  rcases hphases with hphase | hphase | hphase <;> simp [hphase, Dialogue.Listens, inFlight]

end Client

/-- A client session whose callbacks either append output or may call `do_read` runs the
conversation. Once open and before any failure, at most one of a read and a write is
outstanding; the messages handed to the stream are the outputs that are not empty, in order, and
all but the outstanding one have been sent; and between two handlers nothing is outstanding
exactly if the last callback neither appended nor called `do_read`, or the last output has been
written and its callback had set `next_read` to false. -/
theorem client_refines_dialogue (cb : Callbacks) (es : List Client.Event) (s : Client)
    (hcalls : (Client.system cb).Along Client.Converses {} es)
    (hrun : (Client.system cb).run {} es = some s) (hopen : opened s.log = true)
    (hok : anyFailure s.log = false) :
    (∃ y, (Dialogue.system Byte).run {} (es.filterMap Client.Event.talkOp) = some y ∧
      s.Follows y) ∧
    s.stream.reads + s.stream.writes.length ≤ 1 ∧
    handedPayloads s.log = (callbackTalk es).outputs.filter (fun b => !b.isEmpty) ∧
    handedPayloads s.log = sentPayloads s.log ++ s.stream.writes.map Write.payload ∧
    (s.frame = .idle →
      (s.stream.reads = 0 ∧ s.stream.writes = [] ↔
        (callbackTalk es).output = [] ∧ (callbackTalk es).asked = false ∨
          (callbackTalk es).wrote = true ∧ (callbackTalk es).next = false)) := by
  obtain ⟨y, hy, hs⟩ := Client.run_follows hcalls hrun
  have hcoherent := Dialogue.coherent_run Dialogue.coherent_initial hy
  have htalk : callbackTalk es = y.talk := (Dialogue.talk_run hy).symm
  have hstopped : y.phase ≠ .stopped := by
    rw [Ne, ← hs.failure, hok]
    simp
  have hflight : s.stream.writes.map Write.payload = (Client.inFlight y).map Prod.fst := by
    rw [← hs.writes, List.map_map]
    rfl
  rw [htalk]
  refine ⟨⟨y, hy, hs⟩, hs.one_outstanding, ?_, ?_, ?_⟩
  · rw [hs.written, hcoherent.written]
  · rw [hs.written, hflight, hs.sent hstopped]
  · intro hidle
    exact hs.silent_iff hcoherent hidle hopen hok

/-- A greeting, a callback that only asks for more, and an answer that ends the conversation. -/
def Client.lastAnswer : List Client.Event :=
  [.call .doHandshake, .handshakeDone .success [], .call (.append [65]), .resume,
    .writeDone 0 .success, .readDone .success [104] true, .call .doRead, .resume,
    .readDone .success [105] true, .call (.append [66]), .setNextRead false, .resume,
    .writeDone 0 .success]

theorem client_refines_dialogue_last :
    ∃ s, (Client.system {}).run {} Client.lastAnswer = some s ∧
      handedPayloads s.log = [[65], [66]] ∧ s.stream.reads = 0 ∧ s.stream.writes = [] := by
  obtain ⟨s, hrun, hidle, hopen, hok⟩ : ∃ s, (Client.system {}).run {} Client.lastAnswer =
      some s ∧ s.frame = .idle ∧ opened s.log = true ∧ anyFailure s.log = false :=
    ⟨_, rfl, rfl, rfl, rfl⟩
  have hcalls : (Client.system {}).Along Client.Converses {} Client.lastAnswer := by decide
  obtain ⟨_, _, hhanded, _, hsilent⟩ := client_refines_dialogue {} _ s hcalls hrun hopen hok
  refine ⟨s, hrun, hhanded, (hsilent hidle).mpr ?_⟩
  decide

end BeastWebsocket
