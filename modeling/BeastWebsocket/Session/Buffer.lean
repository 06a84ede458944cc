import BeastWebsocket.Session.Input
import BeastWebsocket.Session.Moves

/-! # The input buffer while a read is outstanding

The buffer belongs to the read from its initiation to its completion. `on_read` consumes the
buffer after `on_message` has returned, and `on_message` may have started the next read.
-/
namespace BeastWebsocket
open Channel Transition

/-- The input buffer has not been touched, and nothing has been consumed of it. -/
def Session.Untouched {κ : Type} (x y : Session κ) : Prop :=
  y.inputBuffer = x.inputBuffer ∧ consumedInput y.log = consumedInput x.log

instance {κ : Type} (x y : Session κ) : Decidable (x.Untouched y) :=
  inferInstanceAs (Decidable (_ ∧ _))

/-- Reads are disciplined, and none has failed when a message is being handled. -/
structure Session.Receives {κ : Type} (cb : Callbacks) (x : Session κ) : Prop where
  disciplined : (x.inbox cb).Disciplined
  whole : x.frame = .reading → readBroken x.log = false

namespace Session
variable {κ : Type} {cb : Callbacks} {isOpen : Bool} {m : Move} {x y : Session κ}

theorem receives_initial : Receives cb ({} : Session κ) where
  disciplined := Inbox.disciplined_empty cb.onMessage
  whole := by simp

/-- While a message is handled, `readable` tells whether a read has been started. -/
theorem Receives.readable_iff (hx : x.Receives cb) (h : x.frame = .reading) :
    x.readable = true ↔ x.stream.reads = 0 := by
  have hsingle := hx.disciplined.single
  have hready := hx.disciplined.ready_iff
  have hwhole := hx.whole h
  simp only [inbox, hwhole, Bool.false_eq_true, or_false] at hsingle hready
  cases hr : x.readable with
  | false =>
    have hone := hready.mp hr
    simp [hone]
  | true =>
    have hnone : ¬ x.stream.reads = 1 := fun h => by simp [hready.mpr h] at hr
    simp
    omega

/-- A read that is outstanding follows none that failed. -/
theorem Receives.whole_of_reads (hx : x.Receives cb) (h : 0 < x.stream.reads) :
    readBroken x.log = false := by
  cases hbroken : readBroken x.log with
  | false => rfl
  | true =>
    have hnone := hx.disciplined.broken_idle hbroken
    simp only [inbox] at hnone
    omega

theorem Spares.untouched {cs : List Callback} {ws : List Bool} (h : Spares cs ws x y) :
    x.Untouched y := ⟨h.inputBuffer, h.consumedInput⟩

theorem Spares.whole {cs : List Callback} {ws : List Bool} (h : Spares cs ws x y)
    (hx : x.frame = .reading → BeastWebsocket.readBroken x.log = false) :
    y.frame = .reading → BeastWebsocket.readBroken y.log = false := by
  rw [h.frame, h.readBroken]
  exact hx

theorem Untouched.trans {z : Session κ} (h : x.Untouched y) (h' : y.Untouched z) :
    x.Untouched z := ⟨h'.1.trans h.1, h'.2.trans h.2⟩

theorem untouched_handshakeDone (ec : ErrorCode) : x.Untouched (x.handshakeDone ec) :=
  ⟨rfl, project_snoc_none rfl⟩

theorem untouched_enterOpening (c : Callback) : x.Untouched (x.enterOpening cb c) := by
  rw [enterOpening, invoke]
  split_ifs
  · exact ⟨rfl, project_snoc_none rfl⟩
  · exact ⟨rfl, rfl⟩

theorem whole_deliver (chunk : Bytes) (text : Bool) :
    BeastWebsocket.readBroken (deliver cb (readDone .success chunk text x)).log =
      BeastWebsocket.readBroken x.log := by
  cases hm : cb.onMessage <;> simp [deliver, invoke, readDone, emit, hm]

/-- The rest of `on_read` consumes what the buffer holds. -/
theorem Spares.touches {z : Session κ} {cs : List Callback} {ws : List Bool}
    (hf : x.frame = .reading) (h : Spares cs ws x.afterFrame z) : ¬ x.Untouched z := by
  rw [afterFrame_reading hf] at h
  rintro ⟨_, hconsumed⟩
  rw [h.consumedInput] at hconsumed
  simp [Session.consumeInput, leave, Session.emit] at hconsumed

/-- What is touched when `on_message` returns is touched beside a read exactly if a read has been
started. -/
theorem Receives.beside_read_iff {untouched : Prop} (hx : x.Receives cb) (hf : x.frame = .reading)
    (h : ¬ untouched) : (0 < x.stream.reads → untouched) ↔ x.readable = true := by
  rw [hx.readable_iff hf]
  constructor
  · intro hreads
    by_contra hnone
    exact h (hreads (by omega))
  · intro hnone hreads
    omega

/-- Only a message and the return of its callback touch the buffer. -/
theorem Moves.untouched (h : Moves cb isOpen x m y)
    (hread : ∀ ec chunk text, m ≠ .read ec chunk text)
    (hresume : m = .resume → x.frame ≠ .reading) : x.Untouched y := by
  cases h with
  | refused => exact ⟨rfl, rfl⟩
  | started => exact ⟨rfl, project_snoc_none rfl⟩
  | opened => exact (untouched_handshakeDone .success).trans (untouched_enterOpening _)
  | openFailed hec hc hidle hpos h => exact (untouched_handshakeDone _).trans h.untouched
  | message | readFailed => exact absurd rfl (hread _ _ _)
  | control kind payload => exact (controlFrame_spares x cb kind payload).untouched
  | write h => exact h.untouched
  | resume h hws =>
    have hafter : x.afterFrame = x.leave := if_neg (hresume rfl)
    rw [hafter] at h
    exact h.untouched
  | other h => exact h.untouched

theorem Receives.whole_step (hx : x.Receives cb) (h : Moves cb isOpen x m y) :
    y.frame = .reading → BeastWebsocket.readBroken y.log = false := by
  have hother := h.not_reading
  cases h with
  | refused => exact hx.whole
  | started =>
    intro hframe
    exact (occurs_snoc_false rfl).trans (hx.whole hframe)
  | @message chunk text hidle hpos =>
    intro _
    exact (whole_deliver chunk text).trans (hx.whole_of_reads hpos)
  | control kind payload => exact (controlFrame_spares x cb kind payload).whole hx.whole
  | write h => exact h.whole hx.whole
  | other h => exact h.whole hx.whole
  | readFailed hec =>
    intro hframe
    exact absurd hframe (hother rfl (by simp [hec]))
  | opened | openFailed | resume =>
    intro hframe
    exact absurd hframe (hother rfl (by simp))

/-- The buffer is left alone exactly if `on_message` returns without having started a read. -/
theorem Receives.leaves_iff (hx : x.Receives cb) (h : Moves cb isOpen x m y) :
    (0 < x.stream.reads → (∀ ec chunk text, m ≠ .read ec chunk text) → x.Untouched y) ↔
      (m = .resume → x.frame = .reading → x.readable = true) := by
  by_cases hreturn : m = .resume ∧ x.frame = .reading
  · obtain ⟨rfl, hf⟩ := hreturn
    cases h with
    | resume h hws =>
      have hbeside := hx.beside_read_iff hf (h.touches hf)
      constructor
      · intro hleaves _ _
        exact hbeside.mp fun hreads => hleaves hreads (by simp)
      · intro hreturns hreads _
        exact hbeside.mpr (hreturns rfl hf) hreads
  · apply iff_of_true
    · intro _ hread
      exact h.untouched hread fun hm hf => hreturn ⟨hm, hf⟩
    · intro hm hf
      exact absurd ⟨hm, hf⟩ hreturn

end Session

/-! ## The server session -/

namespace Server
variable {cb : Callbacks} {s t : Server}

/-- While a read is outstanding, no event but its completion touches the input buffer. It is a read
that was outstanding before the event: one that the event itself starts, as the rest of `on_read`
does behind its consumption, does not count. -/
def LeavesBuffer (cb : Callbacks) (s : Server) (e : Event) : Prop :=
  0 < s.stream.reads → (∀ ec chunk text, e ≠ .readDone ec chunk text) →
    ∀ t, (system cb).step s e = some t → s.Untouched t.toSession

/-- `on_message` returns without having started a read. -/
def ReturnsReadable (s : Server) (e : Event) : Prop :=
  e = .resume → s.frame = .reading → s.readable = true

theorem receives_step {e : Event} (hs : s.Receives cb) (ht : (system cb).step s e = some t) :
    t.Receives cb where
  disciplined := hs.disciplined.leads (step_inbox s e t ht)
  whole := hs.whole_step (moves_of_step ht)

theorem leavesBuffer_iff {e : Event} (hs : s.Receives cb) (ht : (system cb).step s e = some t) :
    s.LeavesBuffer cb e ↔ s.ReturnsReadable e := by
  have hleaves := hs.leaves_iff (moves_of_step ht)
  simp only [Ne, move_eq_read, move_eq_resume] at hleaves
  rw [LeavesBuffer, System.forall_step_iff ht]
  exact hleaves

theorem leavesBuffer_along (cb : Callbacks) (es : List Event) :
    (system cb).Along (LeavesBuffer cb) {} es ↔ (system cb).Along ReturnsReadable {} es := by
  apply System.along_congr_of_invariant (I := fun s => s.Receives cb)
  · intro s e t hs ht
    exact receives_step hs ht
  · intro s e t hs ht
    exact leavesBuffer_iff hs ht
  · exact Session.receives_initial

end Server

/-! ## The client session -/

namespace Client
variable {cb : Callbacks} {s t : Client}

/-- While a read is outstanding, no event but its completion touches the input buffer. It is a read
that was outstanding before the event: one that the event itself starts, as the rest of `on_read`
does behind its consumption, does not count. -/
def LeavesBuffer (cb : Callbacks) (s : Client) (e : Event) : Prop :=
  0 < s.stream.reads → (∀ ec chunk text, e ≠ .readDone ec chunk text) →
    ∀ t, (system cb).step s e = some t → s.Untouched t.toSession

/-- `on_message` returns without having started a read. -/
def ReturnsReadable (s : Client) (e : Event) : Prop :=
  e = .resume → s.frame = .reading → s.readable = true

theorem receives_step {e : Event} (hs : s.Receives cb) (ht : (system cb).step s e = some t) :
    t.Receives cb where
  disciplined := hs.disciplined.leads (step_inbox s e t ht)
  whole := hs.whole_step (moves_of_step ht)

theorem leavesBuffer_iff {e : Event} (hs : s.Receives cb) (ht : (system cb).step s e = some t) :
    s.LeavesBuffer cb e ↔ s.ReturnsReadable e := by
  have hleaves := hs.leaves_iff (moves_of_step ht)
  simp only [Ne, move_eq_read, move_eq_resume] at hleaves
  rw [LeavesBuffer, System.forall_step_iff ht]
  exact hleaves

theorem leavesBuffer_along (cb : Callbacks) (es : List Event) :
    (system cb).Along (LeavesBuffer cb) {} es ↔ (system cb).Along ReturnsReadable {} es := by
  apply System.along_congr_of_invariant (I := fun s => s.Receives cb)
  · intro s e t hs ht
    exact receives_step hs ht
  · intro s e t hs ht
    exact leavesBuffer_iff hs ht
  · exact Session.receives_initial

end Client

/-- For both kinds of session, no event but the completion of an outstanding read touches the
input buffer, exactly when each `on_message` returns without having started a read. -/
theorem buffer_left_alone (cb : Callbacks) :
    (∀ es, (Server.system cb).Along (Server.LeavesBuffer cb) {} es ↔
      (Server.system cb).Along Server.ReturnsReadable {} es) ∧
    (∀ es, (Client.system cb).Along (Client.LeavesBuffer cb) {} es ↔
      (Client.system cb).Along Client.ReturnsReadable {} es) := by
  constructor
  · exact Server.leavesBuffer_along cb
  · exact Client.leavesBuffer_along cb

/-- `on_message` reads on before it returns. -/
def Server.readInMessage : List Server.Event :=
  [.call .doAccept, .acceptDone .success, .resume, .readDone .success [104] true, .call .doRead]

def Client.readInMessage : List Client.Event :=
  [.call .doHandshake, .handshakeDone .success [], .call .doRead, .resume,
    .readDone .success [104] true, .call .doRead]

theorem consumed_while_reading :
    (∃ s t, (Server.system {}).run {} Server.readInMessage = some s ∧ s.stream.reads = 1 ∧
      s.inputBuffer = [104] ∧ (Server.system {}).step s .resume = some t ∧
      t.stream.reads = 1 ∧ t.inputBuffer = [] ∧ ¬ s.Untouched t.toSession) ∧
    (∃ s t, (Client.system {}).run {} Client.readInMessage = some s ∧ s.stream.reads = 1 ∧
      s.inputBuffer = [104] ∧ (Client.system {}).step s .resume = some t ∧
      t.stream.reads = 1 ∧ t.inputBuffer = [] ∧ ¬ s.Untouched t.toSession) := by
  constructor
  · exact ⟨_, _, rfl, rfl, rfl, rfl, rfl, rfl, by decide⟩
  · exact ⟨_, _, rfl, rfl, rfl, rfl, rfl, rfl, by decide⟩

end BeastWebsocket
