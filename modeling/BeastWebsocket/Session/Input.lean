import BeastWebsocket.Session.ServerChannels
import BeastWebsocket.Session.ClientChannels

/-! # What a session reads

Both kinds of session keep the discipline of their inbox in every run: one read at a time,
none after a failed one, and each message shown to `on_message` by itself and in order.
-/
namespace BeastWebsocket
open Channel

/-- `readable` is false exactly while a read is outstanding and after one has failed. -/
structure Session.SingleReader {κ : Type} (x : Session κ) : Prop where
  single : x.stream.reads ≤ 1
  readable_iff : x.readable = false ↔ x.stream.reads = 1 ∨ readBroken x.log = true

theorem Session.singleReader {κ : Type} {cb : Callbacks} {x : Session κ}
    (h : (x.inbox cb).Disciplined) : x.SingleReader where
  single := h.single
  readable_iff := h.ready_iff

theorem Server.disciplined {cb : Callbacks} {es : List Server.Event} {s : Server}
    (h : (Server.system cb).run {} es = some s) : (s.inbox cb).Disciplined :=
  (Inbox.disciplined_empty cb.onMessage).run (f := fun u : Server => u.inbox cb)
    Server.step_inbox h

theorem Client.disciplined {cb : Callbacks} {es : List Client.Event} {s : Client}
    (h : (Client.system cb).run {} es = some s) : (s.inbox cb).Disciplined :=
  (Inbox.disciplined_empty cb.onMessage).run (f := fun u : Client => u.inbox cb)
    Client.step_inbox h

theorem Server.readsStarted_of_broken {cb : Callbacks} {es fs : List Server.Event}
    {s t : Server} (h : (Server.system cb).run {} es = some s) (hb : readBroken s.log = true)
    (h' : (Server.system cb).run s fs = some t) : readsStarted t.log = readsStarted s.log :=
  (Server.disciplined h).run_broken (f := fun u : Server => u.inbox cb) Server.step_inbox hb h'

theorem Client.readsStarted_of_broken {cb : Callbacks} {es fs : List Client.Event}
    {s t : Client} (h : (Client.system cb).run {} es = some s) (hb : readBroken s.log = true)
    (h' : (Client.system cb).run s fs = some t) : readsStarted t.log = readsStarted s.log :=
  (Client.disciplined h).run_broken (f := fun u : Client => u.inbox cb) Client.step_inbox hb h'

/-- At most one read is outstanding, `readable` tells when, and a failed read is the last. -/
theorem single_reader (cb : Callbacks) :
    (∀ es s, (Server.system cb).run {} es = some s → s.SingleReader ∧
      (readBroken s.log = true → ∀ fs t, (Server.system cb).run s fs = some t →
        readsStarted t.log = readsStarted s.log)) ∧
    (∀ es s, (Client.system cb).run {} es = some s → s.SingleReader ∧
      (readBroken s.log = true → ∀ fs t, (Client.system cb).run s fs = some t →
        readsStarted t.log = readsStarted s.log)) := by
  constructor
  · intro es s h
    exact ⟨Session.singleReader (Server.disciplined h), fun hb _ _ =>
      Server.readsStarted_of_broken h hb⟩
  · intro es s h
    exact ⟨Session.singleReader (Client.disciplined h), fun hb _ _ =>
      Client.readsStarted_of_broken h hb⟩

/-- A read that `on_accept` starts is aborted. -/
def Server.abortedRead : List Server.Event :=
  [.call .doAccept, .acceptDone .success, .call .doRead, .resume,
    .readDone .operationAborted [] true]

theorem single_reader_aborted :
    ∃ s t, (Server.system {}).run {} Server.abortedRead = some s ∧ readBroken s.log = true ∧
      (Server.system {}).run s [.call .doRead] = some t ∧
      readsStarted s.log = 1 ∧ readsStarted t.log = readsStarted s.log :=
  ⟨_, _, rfl, rfl, rfl, rfl,
    ((single_reader {}).1 Server.abortedRead _ rfl).2 rfl [.call .doRead] _ rfl⟩

/-- The k-th call of `on_message` is handed the k-th message received, and nothing else. -/
theorem input_in_order (cb : Callbacks) (h : cb.onMessage = true) :
    (∀ es s, (Server.system cb).run {} es = some s →
      deliveredMessages s.log = receivedMessages s.log) ∧
    (∀ es s, (Client.system cb).run {} es = some s →
      deliveredMessages s.log = receivedMessages s.log) := by
  constructor
  · intro es s hrun
    exact (Server.disciplined hrun).faithful h
  · intro es s hrun
    exact (Client.disciplined hrun).faithful h

/-- The second read is started while the first message is being shown. -/
def Server.twoMessages : List Server.Event :=
  [.call .doAccept, .acceptDone .success, .resume, .readDone .success [104, 105] true,
    .call .doRead, .resume, .readDone .success [111] true]

theorem input_in_order_two :
    ∃ s, (Server.system {}).run {} Server.twoMessages = some s ∧
      receivedMessages s.log = [[104, 105], [111]] ∧
      deliveredMessages s.log = receivedMessages s.log :=
  ⟨_, rfl, rfl, (input_in_order {} rfl).1 Server.twoMessages _ rfl⟩

end BeastWebsocket
