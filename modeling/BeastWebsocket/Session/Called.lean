import BeastWebsocket.Session.Client
import BeastWebsocket.Session.Server
import Mathlib.Tactic.SplitIfs

/-! # The user callback that a handler calls

Each event calls at most one user callback. Which one, and with what data, is a function of the
state before the event.
-/
namespace BeastWebsocket

/-- The user callback that an entry of the record calls. -/
@[simp] def Obs.called? : Obs → Option Callback
  | .called c => some c
  | _ => none

abbrev calledBacks (log : List Obs) : List Callback := project Obs.called? log

/-- The callback for a control frame. A ping or a pong that has none of its own is handed to
that for a close frame. -/
def Callbacks.control (cb : Callbacks) (kind : FrameType) (payload : Bytes) : Option Callback :=
  if kind = .ping ∧ cb.onPing then some (.ping payload)
  else if kind = .pong ∧ cb.onPong then some (.pong payload)
  else if cb.onClose then some (.close payload)
  else none

namespace Session
variable {κ : Type} {x : Session κ}

theorem calledBacks_emit {o : Obs} (h : o.called? = none) :
    calledBacks (x.emit o).log = calledBacks x.log := project_snoc_none h

theorem calledBacks_invoke (installed : Bool) (c : Callback) :
    calledBacks (x.invoke installed c).log =
      calledBacks x.log ++ (if installed then some c else none).toList := by
  cases installed <;> simp [invoke, emit]

theorem calledBacks_readDone (ec : ErrorCode) (chunk : Bytes) (text : Bool) :
    calledBacks (x.readDone ec chunk text).log = calledBacks x.log := by
  rw [readDone]
  split_ifs <;> simp [emit]

end Session

namespace Server
variable {cb : Callbacks} {s t : Server}

/-- The callback that the handler of the event calls. -/
def callback (cb : Callbacks) (s : Server) : Event → Option Callback
  | .acceptDone ec => if !ec.failed && cb.onOpen then some .accept else none
  | .readDone ec chunk _ =>
      if !ec.failed && cb.onMessage then some (.message (s.inputBuffer ++ chunk)) else none
  | .control kind payload =>
      if s.stream.controlCallback then cb.control kind payload else none
  | .waitDone _ ec =>
      if ¬ (ec.failed ∧ ec ≠ .operationAborted) ∧ s.timer.expired ∧ s.onTimerCb then some .timer
      else none
  | _ => none

/-- `on_message` is called with what the buffer holds once a message has arrived. -/
theorem callback_message {e : Event} {input : Bytes}
    (h : s.callback cb e = some (.message input)) :
    ∃ chunk text, e = .readDone .success chunk text ∧ input = s.inputBuffer ++ chunk := by
  cases e with
  | readDone ec chunk text =>
    obtain ⟨hec, h⟩ := Option.ite_none_right_eq_some.mp h
    cases h
    simp only [Bool.and_eq_true, Bool.not_eq_true', ErrorCode.failed_eq_false] at hec
    exact ⟨chunk, text, by rw [hec.1], rfl⟩
  | acceptDone ec =>
    obtain ⟨_, h⟩ := Option.ite_none_right_eq_some.mp h
    cases h
  | waitDone i ec =>
    obtain ⟨_, h⟩ := Option.ite_none_right_eq_some.mp h
    cases h
  | control kind payload =>
    obtain ⟨_, h⟩ := Option.ite_none_right_eq_some.mp h
    rw [Callbacks.control] at h
    split_ifs at h <;> cases h
  | _ => cases h

theorem callback_accept {e : Event} (h : s.callback cb e = some .accept) :
    e = .acceptDone .success := by
  cases e with
  | acceptDone ec =>
    obtain ⟨hec, _⟩ := Option.ite_none_right_eq_some.mp h
    simp only [Bool.and_eq_true, Bool.not_eq_true', ErrorCode.failed_eq_false] at hec
    rw [hec.1]
  | readDone ec chunk text =>
    obtain ⟨_, h⟩ := Option.ite_none_right_eq_some.mp h
    cases h
  | waitDone i ec =>
    obtain ⟨_, h⟩ := Option.ite_none_right_eq_some.mp h
    cases h
  | control kind payload =>
    obtain ⟨_, h⟩ := Option.ite_none_right_eq_some.mp h
    rw [Callbacks.control] at h
    split_ifs at h <;> cases h
  | _ => cases h

end Server

namespace Client

/-- The callback that the handler of the event calls. -/
def callback (cb : Callbacks) (s : Client) : Event → Option Callback
  | .handshakeDone ec response =>
      if !ec.failed && cb.onOpen then some (.handshake response) else none
  | .readDone ec chunk _ =>
      if !ec.failed && cb.onMessage then some (.message (s.inputBuffer ++ chunk)) else none
  | .control kind payload =>
      if s.stream.controlCallback then cb.control kind payload else none
  | _ => none

end Client
end BeastWebsocket
