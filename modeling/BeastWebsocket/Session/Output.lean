import BeastWebsocket.Session.ServerChannels
import BeastWebsocket.Session.ClientChannels

/-! # What a session writes

`on_write` empties the whole output buffer, whatever the finished write carried, and nothing
keeps a second write from being started while one is outstanding. For both kinds of session
these are the only two ways in which the output goes wrong.
-/
namespace BeastWebsocket
open Channel Transition

/-- The payloads of the writes that have completed, followed by the output buffer, are the
bytes that were appended. -/
def Session.ExactOutput {κ : Type} (x : Session κ) : Prop :=
  (sentPayloads x.log).flatten ++ x.outputBuffer = appendedBytes x.log

/-! ## Conditions on the steps of a run -/

/-- A write that completes with success carries what the output buffer then holds. -/
def Server.WriteCarries (s : Server) : Server.Event → Prop
  | .writeDone i .success => ∀ w ∈ s.stream.writes[i]?, w.payload = s.outputBuffer
  | _ => True

def Client.WriteCarries (s : Client) : Client.Event → Prop
  | .writeDone i .success => ∀ w ∈ s.stream.writes[i]?, w.payload = s.outputBuffer
  | _ => True

/-- Nothing is added to the output buffer, and no further write takes its content, while a
write is outstanding: neither by a call nor by a handler that runs on after its callback. -/
def Server.OutputUndisturbed (s : Server) : Server.Event → Prop
  | .call (.append b) => b = [] ∨ s.stream.writes = []
  | .call .doWrite => s.accepted = true → s.outputBuffer = [] ∨ s.stream.writes = []
  | .resume => s.accepted = true → s.outputBuffer = [] ∨ s.stream.writes = []
  | _ => True

def Client.OutputUndisturbed (s : Client) : Client.Event → Prop
  | .call (.append b) => b = [] ∨ s.stream.writes = []
  | .call (.doWrite _) => s.handshaked = true → s.outputBuffer = [] ∨ s.stream.writes = []
  | .resume => s.handshaked = true → s.outputBuffer = [] ∨ s.stream.writes = []
  | _ => True

/-- No write is started while another is outstanding: neither by `do_write` nor by a handler
that finds output when its callback has returned. -/
def Server.OneWriter (s : Server) : Server.Event → Prop
  | .call .doWrite => s.accepted = true → s.stream.writes = []
  | .resume => s.accepted = true → s.outputBuffer ≠ [] → s.stream.writes = []
  | _ => True

def Client.OneWriter (s : Client) : Client.Event → Prop
  | .call (.doWrite _) => s.handshaked = true → s.stream.writes = []
  | .resume => s.handshaked = true → s.outputBuffer ≠ [] → s.stream.writes = []
  | _ => True

/-! ## The conditions are those of the outbox -/

theorem Server.carries_iff (s : Server) (e : Server.Event) :
    (∀ o ∈ s.outboxOp e, s.outbox.Carries o) ↔ s.WriteCarries e := by
  cases e with
  | call c => cases c <;> simp [outboxOp, WriteCarries, Outbox.Carries]
  | writeDone i ec =>
    by_cases hec : ec = .success
    · subst hec
      simp [outboxOp, WriteCarries, Outbox.Carries, Session.outbox]
    · simp [outboxOp, WriteCarries, Outbox.Carries, hec]
  | _ => simp [outboxOp, WriteCarries, Outbox.Carries]

theorem Client.carries_iff (s : Client) (e : Client.Event) :
    (∀ o ∈ s.outboxOp e, s.outbox.Carries o) ↔ s.WriteCarries e := by
  cases e with
  | call c => cases c <;> simp [outboxOp, WriteCarries, Outbox.Carries]
  | writeDone i ec =>
    by_cases hec : ec = .success
    · subst hec
      simp [outboxOp, WriteCarries, Outbox.Carries, Session.outbox]
    · simp [outboxOp, WriteCarries, Outbox.Carries, hec]
  | _ => simp [outboxOp, WriteCarries, Outbox.Carries]

theorem Server.alone_iff (s : Server) (e : Server.Event) :
    (∀ o ∈ s.outboxOp e, s.outbox.Alone o) ↔ s.OneWriter e := by
  cases e with
  | call c => cases c <;> simp [outboxOp, OneWriter, Outbox.Alone, Session.outbox]
  | writeDone i ec =>
    by_cases hec : ec = .success <;> simp [outboxOp, OneWriter, Outbox.Alone, hec]
  | resume => simp [outboxOp, OneWriter, Outbox.Alone, Session.outbox, List.length_pos_iff]
  | _ => simp [outboxOp, OneWriter]

theorem Client.alone_iff (s : Client) (e : Client.Event) :
    (∀ o ∈ s.outboxOp e, s.outbox.Alone o) ↔ s.OneWriter e := by
  cases e with
  | call c => cases c <;> simp [outboxOp, OneWriter, Outbox.Alone, Session.outbox]
  | writeDone i ec =>
    by_cases hec : ec = .success <;> simp [outboxOp, OneWriter, Outbox.Alone, hec]
  | resume => simp [outboxOp, OneWriter, Outbox.Alone, Session.outbox, List.length_pos_iff]
  | _ => simp [outboxOp, OneWriter]

theorem Server.undisturbed_of {s : Server} {e : Server.Event} (h : s.OutputUndisturbed e) :
    ∀ o ∈ s.outboxOp e, s.outbox.Undisturbed o := by
  cases e with
  | call c =>
    cases c <;> simp_all [outboxOp, OutputUndisturbed, Outbox.Undisturbed, Session.outbox]
  | writeDone i ec => by_cases hec : ec = .success <;> simp [outboxOp, Outbox.Undisturbed, hec]
  | resume => simp_all [outboxOp, OutputUndisturbed, Outbox.Undisturbed, Session.outbox]
  | _ => simp [outboxOp]

theorem Client.undisturbed_of {s : Client} {e : Client.Event} (h : s.OutputUndisturbed e) :
    ∀ o ∈ s.outboxOp e, s.outbox.Undisturbed o := by
  cases e with
  | call c =>
    cases c <;> simp_all [outboxOp, OutputUndisturbed, Outbox.Undisturbed, Session.outbox]
  | writeDone i ec => by_cases hec : ec = .success <;> simp [outboxOp, Outbox.Undisturbed, hec]
  | resume => simp_all [outboxOp, OutputUndisturbed, Outbox.Undisturbed, Session.outbox]
  | _ => simp [outboxOp]

/-! ## Each byte goes out once -/

/-- A run in which the output is left alone while a write is outstanding has every write
complete with what the buffer holds. -/
theorem Server.carries_of_undisturbed {cb : Callbacks} {es : List Server.Event}
    (h : (Server.system cb).Along Server.OutputUndisturbed {} es) :
    (Server.system cb).Along Server.WriteCarries {} es := by
  apply h.of_invariant (I := fun s => s.outbox.Exact)
  · intro s e t hs hout ht
    exact refines_outbox.step_invariant (C := Outbox.Undisturbed) Outbox.Exact.step hs
      (undisturbed_of hout) ht
  · intro s e t hs _ _
    exact (s.carries_iff e).mp fun o _ => hs.carries o
  · exact Outbox.exact_empty

theorem Client.carries_of_undisturbed {cb : Callbacks} {es : List Client.Event}
    (h : (Client.system cb).Along Client.OutputUndisturbed {} es) :
    (Client.system cb).Along Client.WriteCarries {} es := by
  apply h.of_invariant (I := fun s => s.outbox.Exact)
  · intro s e t hs hout ht
    exact refines_outbox.step_invariant (C := Outbox.Undisturbed) Outbox.Exact.step hs
      (undisturbed_of hout) ht
  · intro s e t hs _ _
    exact (s.carries_iff e).mp fun o _ => hs.carries o
  · exact Outbox.exact_empty

theorem Server.exactOutput_iff (cb : Callbacks) (es : List Server.Event) :
    (Server.system cb).Throughout (fun s => s.ExactOutput) {} es ↔
      (Server.system cb).Along Server.WriteCarries {} es := by
  rw [← System.along_congr carries_iff]
  exact refines_outbox.throughout_iff_along Outbox.Balanced.step_iff Outbox.balanced_empty

theorem Client.exactOutput_iff (cb : Callbacks) (es : List Client.Event) :
    (Client.system cb).Throughout (fun s => s.ExactOutput) {} es ↔
      (Client.system cb).Along Client.WriteCarries {} es := by
  rw [← System.along_congr carries_iff]
  exact refines_outbox.throughout_iff_along Outbox.Balanced.step_iff Outbox.balanced_empty

/-- In every state of a run each appended byte has gone out once or is still in the buffer,
exactly when each write that completes with success carries what the buffer then holds. -/
theorem exact_output (cb : Callbacks) :
    (∀ es, (Server.system cb).Throughout (fun s => s.ExactOutput) {} es ↔
      (Server.system cb).Along Server.WriteCarries {} es) ∧
    (∀ es, (Client.system cb).Throughout (fun s => s.ExactOutput) {} es ↔
      (Client.system cb).Along Client.WriteCarries {} es) := by
  constructor
  · exact Server.exactOutput_iff cb
  · exact Client.exactOutput_iff cb

/-- `A` is appended in `on_accept` and `B` while the write of `A` is outstanding. -/
def Server.appendWhileWriting : List Server.Event :=
  [.call .doAccept, .acceptDone .success, .call (.append [65]), .resume, .call (.append [66]),
    .writeDone 0 .success]

def Client.appendWhileWriting : List Client.Event :=
  [.call .doHandshake, .handshakeDone .success [], .call (.append [65]), .resume,
    .call (.append [66]), .writeDone 0 .success]

/-- No operation fails and no write is left outstanding, yet `B` is gone. -/
theorem appended_byte_lost :
    (∃ s, (Server.system {}).run {} Server.appendWhileWriting = some s ∧ opened s.log = true ∧
      s.stream.writes = [] ∧ anyFailure s.log = false ∧ ¬ s.ExactOutput) ∧
    (∃ s, (Client.system {}).run {} Client.appendWhileWriting = some s ∧ opened s.log = true ∧
      s.stream.writes = [] ∧ anyFailure s.log = false ∧ ¬ s.ExactOutput) := by
  constructor
  · exact ⟨_, rfl, rfl, rfl, rfl, by unfold Session.ExactOutput; decide⟩
  · exact ⟨_, rfl, rfl, rfl, rfl, by unfold Session.ExactOutput; decide⟩

/-! ## At most one write is outstanding -/

theorem Server.oneWriter_iff (cb : Callbacks) (es : List Server.Event) :
    (Server.system cb).Throughout (fun s => s.stream.writes.length ≤ 1) {} es ↔
      (Server.system cb).Along Server.OneWriter {} es := by
  have hlen : ∀ s : Server, s.stream.writes.length = s.outbox.flight.length := fun s =>
    (List.length_map Write.payload).symm
  simp only [hlen]
  rw [← System.along_congr alone_iff]
  exact refines_outbox.throughout_iff_along Outbox.single_step_iff (Nat.zero_le 1)

theorem Client.oneWriter_iff (cb : Callbacks) (es : List Client.Event) :
    (Client.system cb).Throughout (fun s => s.stream.writes.length ≤ 1) {} es ↔
      (Client.system cb).Along Client.OneWriter {} es := by
  have hlen : ∀ s : Client, s.stream.writes.length = s.outbox.flight.length := fun s =>
    (List.length_map Write.payload).symm
  simp only [hlen]
  rw [← System.along_congr alone_iff]
  exact refines_outbox.throughout_iff_along Outbox.single_step_iff (Nat.zero_le 1)

/-- No state of a run has two writes outstanding exactly when none of its steps starts a
write beside another. -/
theorem one_writer (cb : Callbacks) :
    (∀ es, (Server.system cb).Throughout (fun s => s.stream.writes.length ≤ 1) {} es ↔
      (Server.system cb).Along Server.OneWriter {} es) ∧
    (∀ es, (Client.system cb).Throughout (fun s => s.stream.writes.length ≤ 1) {} es ↔
      (Client.system cb).Along Client.OneWriter {} es) := by
  constructor
  · exact Server.oneWriter_iff cb
  · exact Client.oneWriter_iff cb

/-- A callback replies and reads on; the next message arrives, and is answered, while the
reply is being written. -/
def Server.replyWhileWriting : List Server.Event :=
  [.call .doAccept, .acceptDone .success, .call (.append [65]), .call .doRead, .resume,
    .readDone .success [120] true, .call (.append [66]), .resume]

def Client.replyWhileWriting : List Client.Event :=
  [.call .doHandshake, .handshakeDone .success [], .call (.append [65]), .call .doRead, .resume,
    .readDone .success [120] true, .call (.append [66]), .resume]

theorem two_writes_outstanding :
    (∃ s, (Server.system {}).run {} Server.replyWhileWriting = some s ∧
      s.stream.writes.length = 2) ∧
    (∃ s, (Client.system {}).run {} Client.replyWhileWriting = some s ∧
      s.stream.writes.length = 2) := by
  constructor
  · exact ⟨_, rfl, rfl⟩
  · exact ⟨_, rfl, rfl⟩

end BeastWebsocket
