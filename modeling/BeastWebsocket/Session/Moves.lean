import BeastWebsocket.Session.Spares

/-! # The moves of a session

What an event does to the part that both kinds of session share is one of a few moves. They are the
same for both kinds, and what holds of each of them is shown here once.
-/
namespace BeastWebsocket

/-- The callback of the opening. -/
def Callback.isOpening : Callback → Bool
  | .accept => true
  | .handshake _ => true
  | _ => false

/-- What an event is to the part that both kinds of session share: the call that opens, the
completion of the handshake or of a read, a control frame, a call of `do_write`, the return of a
callback, or another event, which may call the callback of a timer. -/
inductive Move where
  | start
  | opened (ec : ErrorCode) (c : Callback)
  | read (ec : ErrorCode) (chunk : Bytes) (text : Bool)
  | control (kind : FrameType) (payload : Bytes)
  | write
  | resume
  | other (timer : Bool)

namespace Move

/-- A handshake that succeeds. -/
def opens : Move → Bool
  | .opened ec _ => !ec.failed
  | _ => false

/-- A callback may start to run, or returns. -/
def turns : Move → Bool
  | .opened _ _ | .read _ _ _ | .resume => true
  | _ => false

/-- The callback that the move calls. -/
def callback {κ : Type} (cb : Callbacks) (x : Session κ) : Move → Option Callback
  | .opened ec c => if !ec.failed && cb.onOpen then some c else none
  | .read ec chunk _ =>
      if !ec.failed && cb.onMessage then some (.message (x.inputBuffer ++ chunk)) else none
  | .control kind payload =>
      if x.stream.controlCallback then cb.control kind payload else none
  | .other timer => if timer then some .timer else none
  | _ => none

end Move

namespace Session
variable {κ : Type} {cb : Callbacks} {isOpen : Bool} {m : Move} {x y : Session κ}

/-- The move `m` leads from `x` to `y`, where `isOpen` tells whether the handshake is done. -/
inductive Moves (cb : Callbacks) (isOpen : Bool) (x : Session κ) : Move → Session κ → Prop where
  | refused (hopen : isOpen = true) : Moves cb isOpen x .start x
  | started (hopen : isOpen = false) :
      Moves cb isOpen x .start (asyncHandshake cb.decorator x.setControlCallback)
  | opened {c : Callback} (hc : c.isOpening = true) (hidle : x.frame = .idle)
      (hpos : 0 < x.stream.handshakes) :
      Moves cb isOpen x (.opened .success c) (enterOpening cb c (handshakeDone .success x))
  | openFailed {ec : ErrorCode} {c : Callback} {y : Session κ} (hec : ec ≠ .success)
      (hc : c.isOpening = true) (hidle : x.frame = .idle) (hpos : 0 < x.stream.handshakes)
      (h : Spares [] [] (handshakeDone ec x) y) : Moves cb isOpen x (.opened ec c) y
  | message {chunk : Bytes} {text : Bool} (hidle : x.frame = .idle) (hpos : 0 < x.stream.reads) :
      Moves cb isOpen x (.read .success chunk text) (deliver cb (readDone .success chunk text x))
  | readFailed {ec : ErrorCode} {chunk : Bytes} {text : Bool} {y : Session κ}
      (hec : ec ≠ .success) (hidle : x.frame = .idle)
      (h : Spares [] [] (readDone ec chunk text x) y) : Moves cb isOpen x (.read ec chunk text) y
  | control (kind : FrameType) (payload : Bytes) :
      Moves cb isOpen x (.control kind payload) (controlFrame cb kind payload x)
  | write {y : Session κ} (h : Spares [] (if isOpen then [x.stream.text] else []) x y) :
      Moves cb isOpen x .write y
  | resume {ws : List Bool} {y : Session κ} (h : Spares [] ws x.afterFrame y)
      (hws : ∀ text ∈ ws, text = x.restText) : Moves cb isOpen x .resume y
  | other {timer : Bool} {y : Session κ}
      (h : Spares (if timer then [.timer] else []) [] x y) : Moves cb isOpen x (.other timer) y

/-! ## What a move keeps -/

theorem emit_isPrefix (x : Session κ) (o : Obs) : x.log <+: (x.emit o).log :=
  List.prefix_append x.log [o]

theorem Spares.isPrefix {cs : List Callback} {ws : List Bool} (h : Spares cs ws x y) :
    x.log <+: y.log := by
  obtain ⟨new, hlog, _⟩ := h.record
  exact ⟨new, hlog.symm⟩

theorem readDone_isPrefix (ec : ErrorCode) (chunk : Bytes) (text : Bool) :
    x.log <+: (readDone ec chunk text x).log := by
  rw [readDone]
  split_ifs
  · exact emit_isPrefix _ _
  · exact (emit_isPrefix _ _).trans (emit_isPrefix _ _)

theorem invoke_isPrefix (installed : Bool) (c : Callback) :
    x.log <+: (x.invoke installed c).log := by
  rw [invoke]
  split_ifs
  · exact emit_isPrefix x _
  · exact List.prefix_rfl

theorem enterOpening_isPrefix (c : Callback) : x.log <+: (enterOpening cb c x).log :=
  invoke_isPrefix cb.onOpen c

theorem deliver_isPrefix : x.log <+: (deliver cb x).log :=
  invoke_isPrefix (x := { x with readable := true }) cb.onMessage (.message x.inputBuffer)

theorem handshakeDone_isPrefix (ec : ErrorCode) : x.log <+: (handshakeDone ec x).log :=
  emit_isPrefix _ _

theorem afterFrame_isPrefix : x.log <+: x.afterFrame.log := by
  rw [afterFrame]
  split_ifs
  · exact emit_isPrefix _ _
  · exact List.prefix_rfl

/-- The record grows. -/
theorem Moves.isPrefix (h : Moves cb isOpen x m y) : x.log <+: y.log := by
  cases h with
  | refused => exact List.prefix_rfl
  | started => exact emit_isPrefix _ _
  | opened => exact (handshakeDone_isPrefix .success).trans (enterOpening_isPrefix _)
  | openFailed hec hc hidle hpos h => exact (handshakeDone_isPrefix _).trans h.isPrefix
  | message => exact (readDone_isPrefix .success _ _).trans deliver_isPrefix
  | readFailed hec hidle h => exact (readDone_isPrefix _ _ _).trans h.isPrefix
  | control kind payload => exact (controlFrame_spares x cb kind payload).isPrefix
  | write h => exact h.isPrefix
  | resume h hws => exact afterFrame_isPrefix.trans h.isPrefix
  | other h => exact h.isPrefix

/-- The record shows the callback that the move calls, and no other. -/
theorem Moves.calledBacks (h : Moves cb isOpen x m y) :
    calledBacks y.log = BeastWebsocket.calledBacks x.log ++ (m.callback cb x).toList := by
  cases h with
  | refused => exact (List.append_nil _).symm
  | started => exact (calledBacks_emit rfl).trans (List.append_nil _).symm
  | @opened c =>
    have hdone : BeastWebsocket.calledBacks (handshakeDone .success x).log =
        BeastWebsocket.calledBacks x.log := calledBacks_emit rfl
    rw [← hdone]
    exact calledBacks_invoke cb.onOpen c
  | openFailed hec hc hidle hpos h =>
    rw [h.calledBacks, Move.callback, if_neg (by simp [hec])]
    exact congrArg (· ++ []) (calledBacks_emit rfl)
  | @message chunk text =>
    have hdone := calledBacks_readDone (x := x) .success chunk text
    rw [← hdone]
    exact calledBacks_invoke cb.onMessage _
  | readFailed hec hidle h =>
    rw [h.calledBacks, Move.callback, if_neg (by simp [hec]), calledBacks_readDone]
    rfl
  | control kind payload => exact (controlFrame_spares x cb kind payload).calledBacks
  | write h => exact h.calledBacks
  | resume h hws =>
    rw [h.calledBacks, calledBacks_afterFrame]
    rfl
  | @other timer _ h =>
    rw [h.calledBacks]
    cases timer <;> rfl

/-- Where no callback starts or returns, none runs that did not. -/
theorem Moves.frame_eq (h : Moves cb isOpen x m y) (hm : m.turns = false) : y.frame = x.frame := by
  cases h with
  | refused | started => rfl
  | control kind payload => exact (controlFrame_spares x cb kind payload).frame
  | write h => exact h.frame
  | other h => exact h.frame
  | opened | openFailed | message | readFailed | resume => cases hm

/-- Between handlers, only a handshake or a read that succeeds starts a callback that returns. -/
theorem Moves.idle (h : Moves cb isOpen x m y) (hx : x.frame = .idle)
    (hopened : ∀ c, m ≠ .opened .success c) (hread : ∀ chunk text, m ≠ .read .success chunk text) :
    y.frame = .idle := by
  have hsame := h.frame_eq
  cases h with
  | opened => exact absurd rfl (hopened _)
  | openFailed hec hc hidle hpos h => exact h.frame.trans hx
  | message => exact absurd rfl (hread _ _)
  | readFailed hec hidle h => rw [h.frame, readDone_frame, hx]
  | resume h hws => exact h.frame.trans afterFrame_frame
  | refused | started | control | write | other => exact (hsame rfl).trans hx

/-- Only a message that arrives leads into its handler. -/
theorem Moves.not_reading (h : Moves cb isOpen x m y) (hm : m.turns = true)
    (hread : ∀ chunk text, m ≠ .read .success chunk text) : y.frame ≠ .reading := by
  cases h with
  | opened => simp [enterOpening]
  | openFailed hec hc hidle hpos h =>
    rw [h.frame]
    simp [handshakeDone, emit, hidle]
  | message => exact absurd rfl (hread _ _)
  | readFailed hec hidle h =>
    rw [h.frame, readDone_frame, hidle]
    simp
  | resume h hws =>
    rw [h.frame, afterFrame_frame]
    simp
  | refused | started | control | write | other => cases hm

/-- The completion of a handshake takes one away from those outstanding. -/
theorem Moves.handshake {ec : ErrorCode} {c : Callback} (h : Moves cb isOpen x (.opened ec c) y) :
    c.isOpening = true ∧ 0 < x.stream.handshakes ∧
      y.stream.handshakes = x.stream.handshakes - 1 := by
  cases h with
  | opened hc hidle hpos =>
    refine ⟨hc, hpos, ?_⟩
    rw [enterOpening_stream]
    rfl
  | openFailed hec hc hidle hpos h => exact ⟨hc, hpos, h.handshakes⟩

/-- Only the call that opens and the completion of the handshake change how many are outstanding. -/
theorem Moves.handshakes_eq (h : Moves cb isOpen x m y) (hstart : m ≠ .start)
    (hdone : ∀ ec c, m ≠ .opened ec c) : y.stream.handshakes = x.stream.handshakes := by
  cases h with
  | refused | started => exact absurd rfl hstart
  | opened | openFailed => exact absurd rfl (hdone _ _)
  | message => rw [deliver_stream, readDone_handshakes]
  | readFailed hec hidle h => rw [h.handshakes, readDone_handshakes]
  | control kind payload => exact (controlFrame_spares x cb kind payload).handshakes
  | write h => exact h.handshakes
  | resume h hws => rw [h.handshakes, afterFrame_stream]
  | other h => exact h.handshakes

end Session

/-! ## The server session -/

namespace Server
variable {cb : Callbacks} {s t : Server} {e : Event}

def move (cb : Callbacks) (s : Server) : Event → Move
  | .call .doAccept => .start
  | .call .doWrite => .write
  | .acceptDone ec => .opened ec .accept
  | .readDone ec chunk text => .read ec chunk text
  | .control kind payload => .control kind payload
  | .resume => .resume
  | .waitDone i ec => .other (s.callback cb (.waitDone i ec)).isSome
  | _ => .other false

theorem moves_of_call (c : Call) :
    Session.Moves cb s.accepted s.toSession (s.move cb (.call c)) (s.call cb c).toSession := by
  cases c with
  | doAccept =>
    change Session.Moves cb s.accepted s.toSession .start (s.doAccept cb).toSession
    rw [doAccept]
    cases hacc : s.accepted with
    | false => exact .started rfl
    | true => exact .refused rfl
  | doWrite => exact .write (doWrite_spares s)
  | append b => exact .other (Session.append_spares _ b)
  | setAutoFrame => exact .other (Session.setAutoFrame_spares _)
  | setTextFrame => exact .other (Session.setTextFrame_spares _)
  | setBinaryFrame => exact .other (Session.setBinaryFrame_spares _)
  | doPing payload => exact .other (operate_spares (Session.asyncPing_spares _ payload))
  | doPong payload => exact .other (operate_spares (Session.asyncPong_spares _ payload))
  | doClose reason => exact .other (operate_spares (Session.asyncClose_spares _ reason))
  | launchTimer => exact .other (launchTimer_spares s)
  | launchTimerWith target => exact .other (launchTimer_spares { s with onTimerCb := target })
  | doRead => exact .other (doRead_spares s)

/-- Each step of the server session is a move. -/
theorem moves_of_step (ht : (system cb).step s e = some t) :
    Session.Moves cb s.accepted s.toSession (s.move cb e) t.toSession := by
  cases e with
  | call c =>
    cases ht
    exact moves_of_call c
  | acceptDone ec =>
    obtain ⟨⟨hidle, hpos⟩, rfl⟩ := Session.handled_eq_some.mp ht
    by_cases hec : ec = .success
    · subst hec
      exact .opened rfl hidle hpos
    · exact .openFailed hec rfl hidle hpos
        (onAccept_failed (s := s.io (Session.handshakeDone ec)) hec)
  | readDone ec chunk text =>
    obtain ⟨⟨hidle, hpos⟩, rfl⟩ := Session.handled_eq_some.mp ht
    by_cases hec : ec = .success
    · subst hec
      exact .message hidle hpos
    · exact .readFailed hec hidle (onRead_failed (s := s.io (Session.readDone ec chunk text)) hec)
  | writeDone i ec =>
    obtain ⟨w, _, ht⟩ := Option.bind_eq_some_iff.mp ht
    obtain ⟨_, rfl⟩ := Session.handled_eq_some.mp ht
    exact .other ((Session.writeDone_spares _ i w ec).after
      (onWrite_spares (s.io (Session.writeDone i w ec)) ec))
  | pingDone ec =>
    obtain ⟨_, rfl⟩ := Session.handled_eq_some.mp ht
    exact .other ((Session.pingDone_spares _ ec).after (Session.report_spares _ "ping" ec))
  | pongDone ec =>
    obtain ⟨_, rfl⟩ := Session.handled_eq_some.mp ht
    exact .other ((Session.pongDone_spares _ ec).after (Session.report_spares _ "pong" ec))
  | closeDone ec =>
    obtain ⟨_, rfl⟩ := Session.handled_eq_some.mp ht
    exact .other ((Session.closeDone_spares _ ec).after (Session.report_spares _ "close" ec))
  | waitDone i ec =>
    obtain ⟨w, _, ht⟩ := Option.bind_eq_some_iff.mp ht
    obtain ⟨_, rfl⟩ := Session.handled_eq_some.mp ht
    have hdone : Session.Spares [] [] s.toSession (s.emit (.finished .wait ec)) :=
      .emit _ (.finished .wait ec) rfl rfl rfl rfl
    exact .other (hdone.after (onTimer_spares cb (({ s with
      timer.waits := s.timer.waits.eraseIdx i } : Server).io
        (Session.emit (.finished .wait ec))) i ec))
  | control kind payload =>
    obtain ⟨_, rfl⟩ := Session.handled_eq_some.mp ht
    exact .control kind payload
  | resume =>
    obtain ⟨ws, hws, htypes⟩ := resume_spares ht
    exact .resume hws htypes
  | tick d =>
    cases ht
    exact .other ⟨rfl, rfl, rfl, rfl, rfl, [.ticked d], rfl, rfl, rfl, rfl, rfl⟩
  | expire =>
    obtain ⟨_, ht⟩ := Option.ite_none_right_eq_some.mp ht
    cases ht
    exact .other (.refl _)

@[simp] theorem move_eq_start : s.move cb e = .start ↔ e = .call .doAccept := by
  cases e with
  | call c => cases c <;> simp [move]
  | _ => simp [move]

@[simp] theorem move_eq_opened {ec : ErrorCode} {c : Callback} :
    s.move cb e = .opened ec c ↔ e = .acceptDone ec ∧ c = .accept := by
  cases e with
  | call c => cases c <;> simp [move]
  | _ => simp [move, eq_comm]

@[simp] theorem move_eq_read {ec : ErrorCode} {chunk : Bytes} {text : Bool} :
    s.move cb e = .read ec chunk text ↔ e = .readDone ec chunk text := by
  cases e with
  | call c => cases c <;> simp [move]
  | _ => simp [move]

@[simp] theorem move_eq_control {kind : FrameType} {payload : Bytes} :
    s.move cb e = .control kind payload ↔ e = .control kind payload := by
  cases e with
  | call c => cases c <;> simp [move]
  | _ => simp [move]

@[simp] theorem move_eq_write : s.move cb e = .write ↔ e = .call .doWrite := by
  cases e with
  | call c => cases c <;> simp [move]
  | _ => simp [move]

@[simp] theorem move_eq_resume : s.move cb e = .resume ↔ e = .resume := by
  cases e with
  | call c => cases c <;> simp [move]
  | _ => simp [move]

theorem move_callback (e : Event) : (s.move cb e).callback cb s.toSession = s.callback cb e := by
  cases e with
  | call c => cases c <;> rfl
  | waitDone i ec =>
    rw [move, Move.callback, callback]
    split_ifs <;> simp_all
  | _ => rfl

/-- The record shows the callback that `callback` names, and no other. -/
theorem step_callback (ht : (system cb).step s e = some t) :
    calledBacks t.log = calledBacks s.log ++ (s.callback cb e).toList := by
  rw [(moves_of_step ht).calledBacks, move_callback]

end Server

/-! ## The client session -/

namespace Client
variable {cb : Callbacks} {s t : Client} {e : Event}

def Event.move : Event → Move
  | .call .doHandshake => .start
  | .call (.doWrite _) => .write
  | .handshakeDone ec response => .opened ec (.handshake response)
  | .readDone ec chunk text => .read ec chunk text
  | .control kind payload => .control kind payload
  | .resume => .resume
  | _ => .other false

theorem moves_of_call (c : Call) :
    Session.Moves cb s.handshaked s.toSession (Event.call c).move (s.call cb c).toSession := by
  cases c with
  | doHandshake =>
    change Session.Moves cb s.handshaked s.toSession .start (s.doHandshake cb).toSession
    rw [doHandshake]
    cases hopen : s.handshaked with
    | false => exact .started rfl
    | true => exact .refused rfl
  | doWrite nextRead => exact .write (doWrite_spares nextRead s)
  | append b => exact .other (Session.append_spares _ b)
  | setAutoFrame => exact .other (Session.setAutoFrame_spares _)
  | setTextFrame => exact .other (Session.setTextFrame_spares _)
  | setBinaryFrame => exact .other (Session.setBinaryFrame_spares _)
  | doPing payload => exact .other (operate_spares (Session.asyncPing_spares _ payload))
  | doPong payload => exact .other (operate_spares (Session.asyncPong_spares _ payload))
  | doClose reason => exact .other (operate_spares (Session.asyncClose_spares _ reason))
  | doRead => exact .other (doRead_spares s)

/-- Each step of the client session is a move. -/
theorem moves_of_step (ht : (system cb).step s e = some t) :
    Session.Moves cb s.handshaked s.toSession e.move t.toSession := by
  cases e with
  | call c =>
    cases ht
    exact moves_of_call c
  | setNextRead b =>
    obtain ⟨_, ht⟩ := Option.ite_none_left_eq_some.mp ht
    cases ht
    exact .other (.refl _)
  | handshakeDone ec response =>
    obtain ⟨⟨hidle, hpos⟩, rfl⟩ := Session.handled_eq_some.mp ht
    by_cases hec : ec = .success
    · subst hec
      exact .opened rfl hidle hpos
    · exact .openFailed hec rfl hidle hpos (onHandshake_failed (s :=
        ({ s with resUpgrade := response } : Client).io (Session.handshakeDone ec)) hec)
  | readDone ec chunk text =>
    obtain ⟨⟨hidle, hpos⟩, rfl⟩ := Session.handled_eq_some.mp ht
    by_cases hec : ec = .success
    · subst hec
      exact .message hidle hpos
    · exact .readFailed hec hidle (onRead_failed (s := s.io (Session.readDone ec chunk text)) hec)
  | writeDone i ec =>
    obtain ⟨w, _, ht⟩ := Option.bind_eq_some_iff.mp ht
    obtain ⟨_, rfl⟩ := Session.handled_eq_some.mp ht
    exact .other ((Session.writeDone_spares _ i w ec).after
      (onWrite_spares (s.io (Session.writeDone i w ec)) ec w.bound))
  | pingDone ec =>
    obtain ⟨_, rfl⟩ := Session.handled_eq_some.mp ht
    exact .other ((Session.pingDone_spares _ ec).after (Session.report_spares _ "ping" ec))
  | pongDone ec =>
    obtain ⟨_, rfl⟩ := Session.handled_eq_some.mp ht
    exact .other ((Session.pongDone_spares _ ec).after (Session.report_spares _ "pong" ec))
  | closeDone ec =>
    obtain ⟨_, rfl⟩ := Session.handled_eq_some.mp ht
    exact .other ((Session.closeDone_spares _ ec).after
      (onClose_spares (s.io (Session.closeDone ec)) ec))
  | control kind payload =>
    obtain ⟨_, rfl⟩ := Session.handled_eq_some.mp ht
    exact .control kind payload
  | resume =>
    obtain ⟨ws, hws, htypes⟩ := resume_spares ht
    exact .resume hws htypes

@[simp] theorem move_eq_start : e.move = .start ↔ e = .call .doHandshake := by
  cases e with
  | call c => cases c <;> simp [Event.move]
  | _ => simp [Event.move]

@[simp] theorem move_eq_opened {ec : ErrorCode} {c : Callback} :
    e.move = .opened ec c ↔
      ∃ response, e = .handshakeDone ec response ∧ c = .handshake response := by
  cases e with
  | call c => cases c <;> simp [Event.move]
  | _ => simp [Event.move, eq_comm]

@[simp] theorem move_eq_read {ec : ErrorCode} {chunk : Bytes} {text : Bool} :
    e.move = .read ec chunk text ↔ e = .readDone ec chunk text := by
  cases e with
  | call c => cases c <;> simp [Event.move]
  | _ => simp [Event.move]

@[simp] theorem move_eq_control {kind : FrameType} {payload : Bytes} :
    e.move = .control kind payload ↔ e = .control kind payload := by
  cases e with
  | call c => cases c <;> simp [Event.move]
  | _ => simp [Event.move]

@[simp] theorem move_eq_write : e.move = .write ↔ ∃ nextRead, e = .call (.doWrite nextRead) := by
  cases e with
  | call c => cases c <;> simp [Event.move]
  | _ => simp [Event.move]

@[simp] theorem move_eq_resume : e.move = .resume ↔ e = .resume := by
  cases e with
  | call c => cases c <;> simp [Event.move]
  | _ => simp [Event.move]

theorem move_callback (e : Event) : e.move.callback cb s.toSession = s.callback cb e := by
  cases e with
  | call c => cases c <;> rfl
  | _ => rfl

/-- The record shows the callback that `callback` names, and no other. -/
theorem step_callback (ht : (system cb).step s e = some t) :
    calledBacks t.log = calledBacks s.log ++ (s.callback cb e).toList := by
  rw [(moves_of_step ht).calledBacks, move_callback]

end Client
end BeastWebsocket
