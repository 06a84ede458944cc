import BeastWebsocket.Session.Handshake
import BeastWebsocket.Transition.Trace

/-! # Control frames and their callbacks

`on_control_callback` asks for the kind of a frame and for its callback in one condition. A ping
or a pong whose callback is missing falls through to the last branch, which is that of a close
frame.
-/
namespace BeastWebsocket
open Transition

/-- A control frame as the stream hands it over. -/
abbrev ControlFrame := FrameType × Bytes

/-- The frame that a callback has been told of. -/
@[simp] def Callback.frame? : Callback → Option ControlFrame
  | .ping payload => some (.ping, payload)
  | .pong payload => some (.pong, payload)
  | .close payload => some (.close, payload)
  | _ => none

theorem Callback.frame?_of_isOpening {c : Callback} (h : c.isOpening = true) : c.frame? = none := by
  cases c with
  | accept | handshake response => rfl
  | _ => cases h

/-- The frames that the callbacks have been told of, in order. -/
def toldFrames (log : List Obs) : List ControlFrame := (calledBacks log).filterMap Callback.frame?

namespace Callbacks

/-- A kind of frame has a callback. -/
def installed (cb : Callbacks) : FrameType → Bool
  | .ping => cb.onPing
  | .pong => cb.onPong
  | .close => cb.onClose

/-- Where the callback for a close frame is installed, this kind of frame has its own. -/
def Routes (cb : Callbacks) (kind : FrameType) : Prop :=
  cb.onClose = true → cb.installed kind = true

instance (cb : Callbacks) (kind : FrameType) : Decidable (cb.Routes kind) :=
  inferInstanceAs (Decidable (_ → _))

/-- The chain tells a callback of its own frames only, exactly where it routes the kind. -/
theorem control_iff (cb : Callbacks) (kind : FrameType) (payload : Bytes) :
    (cb.control kind payload).toList.filterMap Callback.frame? =
      [(kind, payload)].filter (fun f => cb.installed f.1) ↔ cb.Routes kind := by
  cases kind with
  | ping => cases hping : cb.onPing <;> cases hclose : cb.onClose <;>
      simp [control, Routes, installed, hping, hclose]
  | pong => cases hpong : cb.onPong <;> cases hclose : cb.onClose <;>
      simp [control, Routes, installed, hpong, hclose]
  | close => cases hclose : cb.onClose <;> simp [control, Routes, installed, hclose]

end Callbacks

/-- Each callback has been told of the frames of its kind and of no other, and that of a close
frame once at most. -/
structure Session.ToldAsReceived {κ : Type} (cb : Callbacks) (frames : List ControlFrame)
    (x : Session κ) : Prop where
  told : toldFrames x.log = frames.filter fun f => cb.installed f.1
  closes : (toldFrames x.log).countP (fun f => f.1 == .close) ≤ 1

/-- One close frame at most has been received. -/
def OneClose (frames : List ControlFrame) : Prop := frames.countP (fun f => f.1 == .close) ≤ 1

theorem OneClose.concat {frames : List ControlFrame} {f : ControlFrame}
    (h : ∀ g ∈ frames, g.1 ≠ .close) : OneClose (frames ++ [f]) := by
  have hnone : frames.countP (fun f => f.1 == .close) = 0 := by
    rw [List.countP_eq_zero]
    intro g hg
    simpa using h g hg
  rw [OneClose, List.countP_append, hnone, Nat.zero_add]
  exact List.countP_le_length

/-- The control frame that a move takes from the connection. -/
def Move.framesIn : Move → List ControlFrame
  | .control kind payload => [(kind, payload)]
  | _ => []

/-- The control callback is set once a handshake has been started. -/
def Session.Listens {κ : Type} (isOpen : Bool) (x : Session κ) : Prop :=
  isOpen = true ∨ 0 < x.stream.handshakes → x.stream.controlCallback = true

/-- What is known of a session and its frames. -/
structure Session.Hears {κ : Type} (isOpen : Bool) (frames : List ControlFrame) (x : Session κ) :
    Prop where
  listens : x.Listens isOpen
  closes : OneClose frames

namespace Session
variable {κ : Type} {cb : Callbacks} {isOpen : Bool} {m : Move} {x y : Session κ}
  {frames : List ControlFrame}

theorem toldAsReceived_iff (h : OneClose frames) :
    x.ToldAsReceived cb frames ↔ toldFrames x.log = frames.filter fun f => cb.installed f.1 := by
  constructor
  · exact fun hx => hx.told
  · intro htold
    refine ⟨htold, ?_⟩
    rw [htold]
    exact Nat.le_trans (List.filter_sublist.countP_le) h

theorem toldFrames_append {cs : List Callback} (h : calledBacks y.log = calledBacks x.log ++ cs) :
    toldFrames y.log = toldFrames x.log ++ cs.filterMap Callback.frame? := by
  rw [toldFrames, h, List.filterMap_append, toldFrames]

/-- A frame that arrives is told as received exactly where its kind is routed. -/
theorem ToldAsReceived.control_iff {kind : FrameType} {payload : Bytes}
    (hx : x.ToldAsReceived cb frames) (hclose : OneClose (frames ++ [(kind, payload)]))
    (h : calledBacks y.log = calledBacks x.log ++ (cb.control kind payload).toList) :
    y.ToldAsReceived cb (frames ++ [(kind, payload)]) ↔ cb.Routes kind := by
  rw [toldAsReceived_iff hclose, toldFrames_append h, hx.told, List.filter_append,
    List.append_right_inj, cb.control_iff]

theorem ToldAsReceived.kept {cs : List Callback} (hx : x.ToldAsReceived cb frames)
    (h : calledBacks y.log = calledBacks x.log ++ cs) (hcs : cs.filterMap Callback.frame? = []) :
    y.ToldAsReceived cb frames := by
  have hsame : toldFrames y.log = toldFrames x.log := by
    rw [toldFrames_append h, hcs, List.append_nil]
  exact ⟨hsame.trans hx.told, hsame ▸ hx.closes⟩

/-- Nothing takes the control callback away. -/
theorem Moves.controlCallback (h : Moves cb isOpen x m y) (hx : x.stream.controlCallback = true) :
    y.stream.controlCallback = true := by
  cases h with
  | refused => exact hx
  | started => rfl
  | opened =>
    rw [enterOpening_stream]
    exact hx
  | openFailed hec hc hidle hpos h => exact h.controlCallback.trans hx
  | message => rw [deliver_stream, readDone_controlCallback, hx]
  | readFailed hec hidle h => rw [h.controlCallback, readDone_controlCallback, hx]
  | control kind payload => exact (controlFrame_spares x cb kind payload).controlCallback.trans hx
  | write h | other h => exact h.controlCallback.trans hx
  | resume h hws => rw [h.controlCallback, afterFrame_stream, hx]

theorem Listens.step (hx : x.Listens isOpen) (h : Moves cb isOpen x m y) :
    y.Listens (isOpen || m.opens) := by
  cases m with
  | start =>
    cases h with
    | refused hopen =>
      intro _
      exact hx (.inl hopen)
    | started =>
      intro _
      rfl
  | opened ec c =>
    obtain ⟨_, hpos, _⟩ := h.handshake
    intro _
    exact h.controlCallback (hx (.inr hpos))
  | _ =>
    intro hy
    rw [Move.opens_eq_false (by simp), Bool.or_false, h.handshakes_eq (by simp) (by simp)] at hy
    exact h.controlCallback (hx hy)

theorem Hears.step (hx : x.Hears isOpen frames)
    (hframes : ∀ kind payload, m = .control kind payload →
      isOpen = true ∧ ∀ f ∈ frames, f.1 ≠ .close)
    (h : Moves cb isOpen x m y) : y.Hears (isOpen || m.opens) (frames ++ m.framesIn) where
  listens := hx.listens.step h
  closes := by
    cases m with
    | control kind payload => exact OneClose.concat (hframes kind payload rfl).2
    | _ => simpa [Move.framesIn] using hx.closes

/-- What a move tells the callbacks is what has arrived, exactly if a frame that arrives is
routed. -/
theorem ToldAsReceived.step_iff (hx : x.Hears isOpen frames)
    (hframes : ∀ kind payload, m = .control kind payload →
      isOpen = true ∧ ∀ f ∈ frames, f.1 ≠ .close)
    (htold : x.ToldAsReceived cb frames) (h : Moves cb isOpen x m y) :
    y.ToldAsReceived cb (frames ++ m.framesIn) ↔
      ∀ kind payload, m = .control kind payload → cb.Routes kind := by
  have hcalls := h.calledBacks
  have hkept : m.framesIn = [] → (m.callback cb x).toList.filterMap Callback.frame? = [] →
      y.ToldAsReceived cb (frames ++ m.framesIn) := by
    intro hnone hsilent
    rw [hnone, List.append_nil]
    exact htold.kept hcalls hsilent
  cases m with
  | control kind payload =>
    obtain ⟨hopen, hfresh⟩ := hframes kind payload rfl
    rw [Move.callback, if_pos (hx.listens (.inl hopen))] at hcalls
    rw [Move.framesIn, htold.control_iff (OneClose.concat hfresh) hcalls]
    simp
  | opened ec c =>
    apply iff_of_true _ (by simp)
    apply hkept rfl
    rw [Move.callback]
    split_ifs
    · exact List.filterMap_cons_none (Callback.frame?_of_isOpening h.handshake.1)
    · rfl
  | read ec chunk text | other timer =>
    apply iff_of_true _ (by simp)
    apply hkept rfl
    rw [Move.callback]
    split_ifs <;> rfl
  | _ => exact iff_of_true (hkept rfl rfl) (by simp)

end Session

/-! ## The server session -/

namespace Server
variable {cb : Callbacks} {s t : Server} {p q : Server × List ControlFrame}

def frameIn (_ : Server) : Event → List ControlFrame
  | .control kind payload => [(kind, payload)]
  | _ => []

/-- The session beside the control frames that it has received. -/
def heard (cb : Callbacks) : System (Server × List ControlFrame) Event :=
  (system cb).traced frameIn

/-- The stream hands over a control frame only of an open connection, and none behind a close
frame. -/
def FramesEnd (p : Server × List ControlFrame) : Event → Prop
  | .control _ _ => p.1.accepted = true ∧ ∀ f ∈ p.2, f.1 ≠ .close
  | _ => True

/-- A frame that arrives is of a kind that is routed. -/
def RoutesFrame (cb : Callbacks) (_ : Server × List ControlFrame) : Event → Prop
  | .control kind _ => cb.Routes kind
  | _ => True

instance (p : Server × List ControlFrame) (e : Event) : Decidable (FramesEnd p e) :=
  match e with
  | .control _ _ => inferInstanceAs (Decidable (_ ∧ _))
  | .call _ | .acceptDone _ | .readDone _ _ _ | .writeDone _ _ | .pingDone _ | .pongDone _
  | .closeDone _ | .waitDone _ _ | .tick _ | .expire | .resume => isTrue trivial

instance (p : Server × List ControlFrame) (e : Event) : Decidable (RoutesFrame cb p e) :=
  match e with
  | .control kind _ => inferInstanceAs (Decidable (cb.Routes kind))
  | .call _ | .acceptDone _ | .readDone _ _ _ | .writeDone _ _ | .pingDone _ | .pongDone _
  | .closeDone _ | .waitDone _ _ | .tick _ | .expire | .resume => isTrue trivial

/-- The control callback is set once an accept has been started. -/
def Listens (s : Server) : Prop := s.toSession.Listens s.accepted

theorem controlCallback_kept {e : Event} (h : s.stream.controlCallback = true)
    (ht : (system cb).step s e = some t) : t.stream.controlCallback = true :=
  (moves_of_step ht).controlCallback h

theorem Listens.step {e : Event} (hs : s.Listens) (ht : (system cb).step s e = some t) :
    t.Listens := by
  rw [Listens, step_accepted ht, ← move_opens]
  exact Session.Listens.step hs (moves_of_step ht)

theorem move_framesIn (e : Event) : (s.move cb e).framesIn = s.frameIn e := by
  cases e with
  | call c => cases c <;> rfl
  | _ => rfl

theorem FramesEnd.control {e : Event} (h : FramesEnd p e) (kind : FrameType) (payload : Bytes)
    (he : p.1.move cb e = .control kind payload) :
    p.1.accepted = true ∧ ∀ f ∈ p.2, f.1 ≠ .close := by
  rw [move_eq_control] at he
  rw [he] at h
  exact h

theorem routesFrame_iff {e : Event} : RoutesFrame cb p e ↔
    ∀ kind payload, p.1.move cb e = .control kind payload → cb.Routes kind := by
  simp only [move_eq_control]
  cases e <;> simp [RoutesFrame]

theorem hears_step {e : Event} (hp : p.1.Hears p.1.accepted p.2) (hframes : FramesEnd p e)
    (h : (heard cb).step p e = some q) : q.1.Hears q.1.accepted q.2 := by
  obtain ⟨ht, hlist⟩ := System.traced_step.mp h
  rw [hlist, step_accepted ht, ← move_opens, ← move_framesIn]
  exact Session.Hears.step hp hframes.control (moves_of_step ht)

theorem toldAsReceived_step {e : Event} (hp : p.1.Hears p.1.accepted p.2)
    (hframes : FramesEnd p e) (htold : p.1.ToldAsReceived cb p.2)
    (h : (heard cb).step p e = some q) : q.1.ToldAsReceived cb q.2 ↔ RoutesFrame cb p e := by
  obtain ⟨ht, hlist⟩ := System.traced_step.mp h
  rw [routesFrame_iff, hlist, ← move_framesIn]
  exact htold.step_iff hp hframes.control (moves_of_step ht)

theorem toldAsReceived_throughout (cb : Callbacks) (es : List Event)
    (hframes : (heard cb).Along FramesEnd ({}, []) es) :
    (heard cb).Throughout (fun p => p.1.ToldAsReceived cb p.2) ({}, []) es ↔
      (heard cb).Along (RoutesFrame cb) ({}, []) es := by
  apply System.throughout_iff_along_kept (J := fun p => p.1.Hears p.1.accepted p.2) (G := FramesEnd)
  · intro p e q hp hg _ _ hq
    exact hears_step hp hg hq
  · intro p e q hp hg htold hq
    exact toldAsReceived_step hp hg htold hq
  · exact hframes
  · exact ⟨by simp [Session.Listens], Nat.zero_le 1⟩
  · exact ⟨rfl, Nat.zero_le 1⟩

end Server

/-! ## The client session -/

namespace Client
variable {cb : Callbacks} {s t : Client} {p q : Client × List ControlFrame}

def frameIn (_ : Client) : Event → List ControlFrame
  | .control kind payload => [(kind, payload)]
  | _ => []

/-- The session beside the control frames that it has received. -/
def heard (cb : Callbacks) : System (Client × List ControlFrame) Event :=
  (system cb).traced frameIn

/-- The stream hands over a control frame only of an open connection, and none behind a close
frame. -/
def FramesEnd (p : Client × List ControlFrame) : Event → Prop
  | .control _ _ => p.1.handshaked = true ∧ ∀ f ∈ p.2, f.1 ≠ .close
  | _ => True

/-- A frame that arrives is of a kind that is routed. -/
def RoutesFrame (cb : Callbacks) (_ : Client × List ControlFrame) : Event → Prop
  | .control kind _ => cb.Routes kind
  | _ => True

instance (p : Client × List ControlFrame) (e : Event) : Decidable (FramesEnd p e) :=
  match e with
  | .control _ _ => inferInstanceAs (Decidable (_ ∧ _))
  | .call _ | .handshakeDone _ _ | .readDone _ _ _ | .writeDone _ _ | .pingDone _ | .pongDone _
  | .closeDone _ | .setNextRead _ | .resume => isTrue trivial

instance (p : Client × List ControlFrame) (e : Event) : Decidable (RoutesFrame cb p e) :=
  match e with
  | .control kind _ => inferInstanceAs (Decidable (cb.Routes kind))
  | .call _ | .handshakeDone _ _ | .readDone _ _ _ | .writeDone _ _ | .pingDone _ | .pongDone _
  | .closeDone _ | .setNextRead _ | .resume => isTrue trivial

theorem move_framesIn (e : Event) : e.move.framesIn = s.frameIn e := by
  cases e with
  | call c => cases c <;> rfl
  | _ => rfl

theorem FramesEnd.control {e : Event} (h : FramesEnd p e) (kind : FrameType) (payload : Bytes)
    (he : e.move = .control kind payload) : p.1.handshaked = true ∧ ∀ f ∈ p.2, f.1 ≠ .close := by
  rw [move_eq_control] at he
  rw [he] at h
  exact h

theorem routesFrame_iff {e : Event} : RoutesFrame cb p e ↔
    ∀ kind payload, e.move = .control kind payload → cb.Routes kind := by
  simp only [move_eq_control]
  cases e <;> simp [RoutesFrame]

theorem hears_step {e : Event} (hp : p.1.Hears p.1.handshaked p.2) (hframes : FramesEnd p e)
    (h : (heard cb).step p e = some q) : q.1.Hears q.1.handshaked q.2 := by
  obtain ⟨ht, hlist⟩ := System.traced_step.mp h
  rw [hlist, step_handshaked ht, ← move_opens, ← move_framesIn]
  exact Session.Hears.step hp hframes.control (moves_of_step ht)

theorem toldAsReceived_step {e : Event} (hp : p.1.Hears p.1.handshaked p.2)
    (hframes : FramesEnd p e) (htold : p.1.ToldAsReceived cb p.2)
    (h : (heard cb).step p e = some q) : q.1.ToldAsReceived cb q.2 ↔ RoutesFrame cb p e := by
  obtain ⟨ht, hlist⟩ := System.traced_step.mp h
  rw [routesFrame_iff, hlist, ← move_framesIn]
  exact htold.step_iff hp hframes.control (moves_of_step ht)

theorem toldAsReceived_throughout (cb : Callbacks) (es : List Event)
    (hframes : (heard cb).Along FramesEnd ({}, []) es) :
    (heard cb).Throughout (fun p => p.1.ToldAsReceived cb p.2) ({}, []) es ↔
      (heard cb).Along (RoutesFrame cb) ({}, []) es := by
  apply System.throughout_iff_along_kept (J := fun p => p.1.Hears p.1.handshaked p.2)
    (G := FramesEnd)
  · intro p e q hp hg _ _ hq
    exact hears_step hp hg hq
  · intro p e q hp hg htold hq
    exact toldAsReceived_step hp hg htold hq
  · exact hframes
  · exact ⟨by simp [Session.Listens], Nat.zero_le 1⟩
  · exact ⟨rfl, Nat.zero_le 1⟩

end Client

/-- For both kinds of session, while the stream hands over control frames of an open connection
and none behind a close frame: in every state of a run the callbacks have been told of the frames
of their kind and of no other, that of a close frame once at most, exactly when each frame that
arrived is routed. -/
theorem control_as_received (cb : Callbacks) :
    (∀ es, (Server.heard cb).Along Server.FramesEnd ({}, []) es →
      ((Server.heard cb).Throughout (fun p => p.1.ToldAsReceived cb p.2) ({}, []) es ↔
        (Server.heard cb).Along (Server.RoutesFrame cb) ({}, []) es)) ∧
    (∀ es, (Client.heard cb).Along Client.FramesEnd ({}, []) es →
      ((Client.heard cb).Throughout (fun p => p.1.ToldAsReceived cb p.2) ({}, []) es ↔
        (Client.heard cb).Along (Client.RoutesFrame cb) ({}, []) es)) := by
  constructor
  · exact Server.toldAsReceived_throughout cb
  · exact Client.toldAsReceived_throughout cb

/-- A ping arrives, and then the close frame. -/
def Server.pingAndClose : List Server.Event :=
  [.call .doAccept, .acceptDone .success, .resume, .control .ping [1], .control .close [3]]

def Client.pingAndClose : List Client.Event :=
  [.call .doHandshake, .handshakeDone .success [], .resume, .control .ping [1],
    .control .close [3]]

theorem control_as_received_ping :
    (Server.heard {}).Throughout (fun p => p.1.ToldAsReceived {} p.2) ({}, [])
        Server.pingAndClose ∧
      (Client.heard {}).Throughout (fun p => p.1.ToldAsReceived {} p.2) ({}, [])
        Client.pingAndClose :=
  ⟨((control_as_received {}).1 Server.pingAndClose (by decide)).mpr (by decide),
    ((control_as_received {}).2 Client.pingAndClose (by decide)).mpr (by decide)⟩

/-- Without a callback for a ping, the user is told of a close for it, and then once more. -/
theorem ping_told_as_close :
    (∃ s, (Server.heard { onPing := false }).run ({}, []) Server.pingAndClose =
        some (s, [(.ping, [1]), (.close, [3])]) ∧
      (Server.heard { onPing := false }).Along Server.FramesEnd ({}, []) Server.pingAndClose ∧
      toldFrames s.log = [(.close, [1]), (.close, [3])]) ∧
    (∃ s, (Client.heard { onPing := false }).run ({}, []) Client.pingAndClose =
        some (s, [(.ping, [1]), (.close, [3])]) ∧
      (Client.heard { onPing := false }).Along Client.FramesEnd ({}, []) Client.pingAndClose ∧
      toldFrames s.log = [(.close, [1]), (.close, [3])]) := by
  constructor
  · exact ⟨_, rfl, by decide, rfl⟩
  · exact ⟨_, rfl, by decide, rfl⟩

end BeastWebsocket
