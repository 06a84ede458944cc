import BeastWebsocket.Session.Moves
import BeastWebsocket.Transition.Trace

/-! # The type of a reply

In auto-frame mode `on_read` makes the outgoing type that of the message, after `on_message` has
returned. A `do_write` that `on_message` calls itself still finds the type before that.
-/
namespace BeastWebsocket
open Transition

/-- The type of the message that a move takes from the connection. -/
def Move.typesIn : Move → List Bool
  | .read .success _ text => [text]
  | _ => []

theorem Move.typesIn_eq_nil {m : Move} (h : ∀ chunk text, m ≠ .read .success chunk text) :
    m.typesIn = [] := by
  cases m with
  | read ec chunk text =>
    cases ec with
    | success => exact absurd rfl (h chunk text)
    | _ => rfl
  | _ => rfl

namespace Session
variable {κ : Type} {cb : Callbacks} {isOpen : Bool} {m : Move} {x y : Session κ}

/-- The types of the writes that were started on the way from `x` to `y`. -/
def typesBetween (x y : Session κ) : List Bool :=
  (begunTypes y.log).drop (begunTypes x.log).length

theorem Spares.typesBetween {cs : List Callback} {ws : List Bool} (h : Spares cs ws x y) :
    x.typesBetween y = ws := by
  rw [Session.typesBetween, h.begunTypes, List.drop_left]

theorem begunTypes_afterFrame : begunTypes x.afterFrame.log = begunTypes x.log := by
  rw [afterFrame]
  split_ifs
  · exact project_snoc_none rfl
  · rfl

theorem deliver_gotText (chunk : Bytes) (text : Bool) :
    (deliver cb (readDone .success chunk text x)).stream.gotText = text := by
  rw [deliver_stream]
  rfl

/-- In auto-frame mode, what is written on the way from `x` to `y` while a message is handled has
the type of that message, the last of the `types` received. -/
def InType (types : List Bool) (x y : Session κ) : Prop :=
  x.frame = .reading → x.autoFrame = true → ∀ text ∈ x.typesBetween y, types.getLast? = some text

/-- The stream tells the type of the message that is being handled. -/
def TellsType (types : List Bool) (x : Session κ) : Prop :=
  x.frame = .reading → types.getLast? = some x.stream.gotText

theorem TellsType.spares {types : List Bool} {cs : List Callback} {ws : List Bool}
    (hx : x.TellsType types) (h : Spares cs ws x y) : y.TellsType types := by
  intro hframe
  rw [h.gotText]
  exact hx (h.frame.symm.trans hframe)

theorem tellsType_of_frame {types : List Bool} (h : x.frame ≠ .reading) : x.TellsType types :=
  fun hframe => absurd hframe h

/-- A handler that runs on after `on_message` writes in the type of the message. -/
theorem TellsType.rest {types : List Bool} {ws : List Bool} (hx : x.TellsType types)
    (h : Spares [] ws x.afterFrame y) (hws : ∀ text ∈ ws, text = x.restText) :
    x.InType types y := by
  intro hframe hauto text htext
  have hbetween : x.typesBetween y = ws := by
    rw [typesBetween, h.begunTypes, begunTypes_afterFrame, List.drop_left]
  rw [hbetween] at htext
  rw [hws text htext, restText, if_pos ⟨hframe, hauto⟩]
  exact hx hframe

theorem TellsType.step {types : List Bool} (hx : x.TellsType types) (h : Moves cb isOpen x m y) :
    y.TellsType (types ++ m.typesIn) := by
  by_cases hread : ∃ chunk text, m = .read .success chunk text
  · obtain ⟨chunk, text, rfl⟩ := hread
    cases h with
    | message =>
      intro _
      exact List.getLast?_concat.trans (congrArg some (deliver_gotText chunk text).symm)
    | readFailed hec => exact absurd rfl hec
  · have hother : ∀ chunk text, m ≠ .read .success chunk text :=
      fun chunk text hm => hread ⟨chunk, text, hm⟩
    have hframe := fun hm => h.not_reading hm hother
    rw [Move.typesIn_eq_nil hother, List.append_nil]
    cases h with
    | refused | started => exact hx
    | message => exact absurd rfl (hother _ _)
    | control kind payload => exact hx.spares (controlFrame_spares x cb kind payload)
    | write h | other h => exact hx.spares h
    | opened | openFailed | readFailed | resume => exact tellsType_of_frame (hframe rfl)

/-- While `on_message` runs, only its `do_write` and its return start a write. -/
theorem Moves.typesBetween_reading (h : Moves cb isOpen x m y) (hframe : x.frame = .reading)
    (hwrite : m ≠ .write) (hresume : m ≠ .resume) : x.typesBetween y = [] := by
  cases h with
  | refused => rw [typesBetween, List.drop_length]
  | started =>
    have hsame : begunTypes (asyncHandshake cb.decorator x.setControlCallback).log =
        begunTypes x.log := project_snoc_none rfl
    rw [typesBetween, hsame, List.drop_length]
  | control kind payload => exact (controlFrame_spares x cb kind payload).typesBetween
  | write => exact absurd rfl hwrite
  | resume => exact absurd rfl hresume
  | other h => exact h.typesBetween
  | opened hc hidle | openFailed hec hc hidle | message hidle | readFailed hec hidle =>
    rw [hidle] at hframe
    cases hframe

/-- Only a `do_write` of `on_message` itself may find another type than that of the message. -/
theorem TellsType.inType_iff {types : List Bool} (hx : x.TellsType types)
    (h : Moves cb isOpen x m y) : x.InType types y ↔
      (m = .write → isOpen = true → x.frame = .reading → x.autoFrame = true →
        types.getLast? = some x.stream.text) := by
  by_cases hwrite : m = .write
  · subst hwrite
    cases h with
    | write h =>
      rw [InType, h.typesBetween]
      cases isOpen <;> simp
  · apply iff_of_true
    · by_cases hresume : m = .resume
      · subst hresume
        cases h with
        | resume h hws => exact hx.rest h hws
      · intro hframe _ text htext
        rw [h.typesBetween_reading hframe hwrite hresume] at htext
        cases htext
    · intro hm
      exact absurd hm hwrite

end Session

/-! ## The server session -/

namespace Server
variable {cb : Callbacks} {s t : Server} {p q : Server × List Bool}

/-- The type of the message that arrives. -/
def typeIn (_ : Server) : Event → List Bool
  | .readDone .success _ text => [text]
  | _ => []

/-- The session beside the types of the messages that it has received. -/
def typed (cb : Callbacks) : System (Server × List Bool) Event := (system cb).traced typeIn

/-- What is written in auto-frame mode while a message is handled has the type of the message. -/
def KeepsType (cb : Callbacks) (p : Server × List Bool) (e : Event) : Prop :=
  ∀ t, (system cb).step p.1 e = some t → p.1.InType p.2 t.toSession

/-- `on_message` calls `do_write` only where the outgoing type is that of the message already. -/
def WritesInType (p : Server × List Bool) (e : Event) : Prop :=
  e = .call .doWrite → p.1.accepted = true → p.1.frame = .reading → p.1.autoFrame = true →
    p.2.getLast? = some p.1.stream.text

theorem move_typesIn (e : Event) : (s.move cb e).typesIn = s.typeIn e := by
  cases e with
  | call c => cases c <;> rfl
  | readDone ec chunk text => cases ec <;> rfl
  | _ => rfl

theorem tellsType_step {e : Event} (hp : p.1.TellsType p.2) (h : (typed cb).step p e = some q) :
    q.1.TellsType q.2 := by
  obtain ⟨ht, hlist⟩ := System.traced_step.mp h
  have hq := hp.step (moves_of_step ht)
  rw [move_typesIn, ← hlist] at hq
  exact hq

theorem keepsType_iff {e : Event} (hp : p.1.TellsType p.2) (h : (typed cb).step p e = some q) :
    KeepsType cb p e ↔ WritesInType p e := by
  obtain ⟨ht, _⟩ := System.traced_step.mp h
  have hiff := hp.inType_iff (moves_of_step ht)
  rw [move_eq_write] at hiff
  rw [KeepsType, System.forall_step_iff ht]
  exact hiff

theorem keepsType_along (cb : Callbacks) (es : List Event) :
    (typed cb).Along (KeepsType cb) ({}, []) es ↔ (typed cb).Along WritesInType ({}, []) es := by
  apply System.along_congr_of_invariant (I := fun p => p.1.TellsType p.2)
  · intro p e q hp hq
    exact tellsType_step hp hq
  · intro p e q hp hq
    exact keepsType_iff hp hq
  · exact Session.tellsType_of_frame (by simp)

end Server

/-! ## The client session -/

namespace Client
variable {cb : Callbacks} {s t : Client} {p q : Client × List Bool}

/-- The type of the message that arrives. -/
def typeIn (_ : Client) : Event → List Bool
  | .readDone .success _ text => [text]
  | _ => []

/-- The session beside the types of the messages that it has received. -/
def typed (cb : Callbacks) : System (Client × List Bool) Event := (system cb).traced typeIn

/-- What is written in auto-frame mode while a message is handled has the type of the message. -/
def KeepsType (cb : Callbacks) (p : Client × List Bool) (e : Event) : Prop :=
  ∀ t, (system cb).step p.1 e = some t → p.1.InType p.2 t.toSession

/-- `on_message` calls `do_write` only where the outgoing type is that of the message already. -/
def WritesInType (p : Client × List Bool) (e : Event) : Prop :=
  (∃ nextRead, e = .call (.doWrite nextRead)) → p.1.handshaked = true → p.1.frame = .reading →
    p.1.autoFrame = true → p.2.getLast? = some p.1.stream.text

theorem move_typesIn (e : Event) : e.move.typesIn = s.typeIn e := by
  cases e with
  | call c => cases c <;> rfl
  | readDone ec chunk text => cases ec <;> rfl
  | _ => rfl

theorem tellsType_step {e : Event} (hp : p.1.TellsType p.2) (h : (typed cb).step p e = some q) :
    q.1.TellsType q.2 := by
  obtain ⟨ht, hlist⟩ := System.traced_step.mp h
  have hq := hp.step (moves_of_step ht)
  rw [move_typesIn, ← hlist] at hq
  exact hq

theorem keepsType_iff {e : Event} (hp : p.1.TellsType p.2) (h : (typed cb).step p e = some q) :
    KeepsType cb p e ↔ WritesInType p e := by
  obtain ⟨ht, _⟩ := System.traced_step.mp h
  have hiff := hp.inType_iff (moves_of_step ht)
  rw [move_eq_write] at hiff
  rw [KeepsType, System.forall_step_iff ht]
  exact hiff

theorem keepsType_along (cb : Callbacks) (es : List Event) :
    (typed cb).Along (KeepsType cb) ({}, []) es ↔ (typed cb).Along WritesInType ({}, []) es := by
  apply System.along_congr_of_invariant (I := fun p => p.1.TellsType p.2)
  · intro p e q hp hq
    exact tellsType_step hp hq
  · intro p e q hp hq
    exact keepsType_iff hp hq
  · exact Session.tellsType_of_frame (by simp)

end Client

/-- For both kinds of session, what is written in auto-frame mode while a message is handled has
the type of the message, exactly when `on_message` itself calls `do_write` only where the
outgoing type is that type already. -/
theorem reply_type (cb : Callbacks) :
    (∀ es, (Server.typed cb).Along (Server.KeepsType cb) ({}, []) es ↔
      (Server.typed cb).Along Server.WritesInType ({}, []) es) ∧
    (∀ es, (Client.typed cb).Along (Client.KeepsType cb) ({}, []) es ↔
      (Client.typed cb).Along Client.WritesInType ({}, []) es) := by
  constructor
  · exact Server.keepsType_along cb
  · exact Client.keepsType_along cb

/-- A binary message is answered from `on_message`, by `do_write`. -/
def Server.binaryMessage : List Server.Event :=
  [.call .doAccept, .acceptDone .success, .resume, .readDone .success [0, 1] false,
    .call (.append [2])]

def Client.binaryMessage : List Client.Event :=
  [.call .doHandshake, .handshakeDone .success [], .call .doRead, .resume,
    .readDone .success [0, 1] false, .call (.append [2])]

/-- The answer goes out as text. -/
theorem binary_answered_as_text :
    (∃ s t, (Server.typed {}).run ({}, []) Server.binaryMessage = some (s, [false]) ∧
      s.frame = .reading ∧ s.autoFrame = true ∧
      (Server.system {}).step s (.call .doWrite) = some t ∧ s.typesBetween t.toSession = [true]) ∧
    (∃ s t, (Client.typed {}).run ({}, []) Client.binaryMessage = some (s, [false]) ∧
      s.frame = .reading ∧ s.autoFrame = true ∧
      (Client.system {}).step s (.call (.doWrite true)) = some t ∧
      s.typesBetween t.toSession = [true]) := by
  constructor
  · exact ⟨_, _, rfl, rfl, rfl, rfl, rfl⟩
  · exact ⟨_, _, rfl, rfl, rfl, rfl, rfl⟩

end BeastWebsocket
