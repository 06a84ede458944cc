import BeastWebsocket.Chat.Room
import BeastWebsocket.Session.ServerChannels
import BeastWebsocket.Session.Gate
import Mathlib.Data.List.Basic

/-! # What a handler of the chat server does

A handler takes each session through steps of its own, and adds to the store what its callback
is given to store.
-/
namespace BeastWebsocket.Chat.Room
open Channel Transition

variable {overflow : ℤ → ℤ} {readMessageMax : ℕ} {r t u : Room}

/-! ## What the callbacks come to -/

/-- `join` where the serializer throws. -/
theorem join_throws (i : ℕ) {name : Bytes} {ex : Exception}
    (h : Serializer.advance (r.messages ++ [entry name]) [] = .error ex) :
    r.join i name = ((r.call i (.append (bytes "Hello " ++ name))).store [entry name]).throw := by
  have hmessages : ((r.call i (.append (bytes "Hello " ++ name))).store [entry name]).messages =
      r.messages ++ [entry name] := rfl
  rw [join]
  simp only [hmessages, h]

/-- `join` where the serializer does not throw. -/
theorem join_eq (i : ℕ) {name : Bytes} {written : Bytes × ℕ}
    (h : Serializer.advance (r.messages ++ [entry name]) [] = .ok written) :
    r.join i name =
      (((((r.call i (.append (bytes "Hello " ++ name))).store [entry name]).call i
        (.append written.1)).broadcast (frame [entry name]) r.members).insert i name).launchTimer i
          .sendPing := by
  have hlast : Serializer.advance [entry name] [] =
      .ok (frame [entry name], (frame [entry name]).length) := by
    rw [Serializer.advance_eq [] (by simp), List.nil_append]
  have hmessages : ((r.call i (.append (bytes "Hello " ++ name))).store [entry name]).messages =
      r.messages ++ [entry name] := rfl
  rw [join]
  simp only [hmessages, h, hlast]
  rfl

/-- `receive` where the parser throws. -/
theorem receive_throws {ex : Exception} (i : ℕ) {input : Bytes}
    (h : (Parser.advance overflow input .success).usedBytes = .error ex) :
    r.receive overflow i input = r.throw := by
  simp only [receive, h]

/-- `receive` where the parser finds an error. -/
theorem receive_fails {used : ℕ} (i : ℕ) {input : Bytes}
    (h : (Parser.advance overflow input .success).usedBytes = .ok used)
    (hec : (Parser.advance overflow input .success).ec.failed = true) :
    r.receive overflow i input = (r.call i .doRead).launchTimer i .sendPing := by
  simp only [receive, h, hec, if_true]

/-- `receive` of a valid frame. -/
theorem receive_eq (i : ℕ) {input : Bytes}
    (h : (Parser.advance overflow input .success).valid = true) :
    r.receive overflow i input =
      (((r.store (Parser.advance overflow input .success).messages).call i
        (.append input)).broadcast input (r.others i)).launchTimer i .sendPing := by
  rw [Advance.valid] at h
  cases hused : (Parser.advance overflow input .success).usedBytes with
  | error ex => simp [hused] at h
  | ok used =>
    rw [hused] at h
    simp only [receive, hused]
    rw [if_neg (by simpa using h)]
    rfl

theorem receive_cases (overflow : ℤ → ℤ) (i : ℕ) (input : Bytes) (r : Room) :
    (Parser.advance overflow input .success).valid = true ∨
      (Parser.advance overflow input .success).valid = false ∧
        (r.receive overflow i input = r.throw ∨
          r.receive overflow i input = (r.call i .doRead).launchTimer i .sendPing) := by
  rw [Advance.valid]
  cases hused : (Parser.advance overflow input .success).usedBytes with
  | error ex => exact Or.inr ⟨rfl, Or.inl (receive_throws i hused)⟩
  | ok used =>
    cases hec : (Parser.advance overflow input .success).ec.failed with
    | true => exact Or.inr ⟨rfl, Or.inr (receive_fails i hused hec)⟩
    | false => exact Or.inl rfl

/-- What `on_close` stores on session `i`. -/
def leaves (i : ℕ) (r : Room) : List Message :=
  if r.isOpen i then
    (r.clients.find? fun c => c.session = i).toList.map fun c => farewell c.nickname
  else []

/-- `on_close` does nothing, throws, or stores a farewell and broadcasts it. -/
theorem onClose_cases (i : ℕ) (r : Room) :
    (r.leaves i = [] ∧ (r.onClose i = r ∨ r.onClose i = r.throw)) ∨
      ∃ nickname, r.leaves i = [farewell nickname] ∧
        r.onClose i = (r.store [farewell nickname]).broadcast (frame [farewell nickname])
          (r.others i) := by
  rw [onClose, leaves]
  split_ifs
  · cases r.clients.find? fun c => c.session = i with
    | none => exact Or.inl ⟨rfl, Or.inr rfl⟩
    | some c =>
      have hlast : Serializer.advance [farewell c.nickname] [] =
          .ok (frame [farewell c.nickname], (frame [farewell c.nickname]).length) := by
        rw [Serializer.advance_eq [] (by simp), List.nil_append]
      simp only [hlast]
      exact Or.inr ⟨c.nickname, rfl, rfl⟩
  · exact Or.inl ⟨rfl, Or.inl rfl⟩

/-! ## The sessions -/

/-- Each session gets from `r` to `t` by its own steps. -/
def Leads (r t : Room) : Prop :=
  ∀ k, (Server.system callbacks).Reaches System.unguarded (r.sessions k) (t.sessions k)

theorem Leads.of_eq (h : t.sessions = r.sessions) : Leads r t := by
  intro k
  rw [h]
  exact System.Reaches.refl _

theorem Leads.trans (h : Leads r t) (h' : Leads t u) : Leads r u := fun k => (h k).trans (h' k)

/-- A session takes a step and the others stay where they are. -/
theorem Leads.update {i : ℕ} {s : Server} {e : Server.Event}
    (h : (Server.system callbacks).step (r.sessions i) e = some s) :
    Leads r { r with sessions := Function.update r.sessions i s } := by
  intro k
  by_cases hk : k = i
  · subst hk
    simp only [Function.update_self]
    exact System.Reaches.single trivial h
  · simp only [Function.update_of_ne hk]
    exact System.Reaches.refl _

theorem call_leads (i : ℕ) (c : Server.Call) (r : Room) : Leads r (r.call i c) :=
  Leads.update (e := .call c) rfl

theorem launchTimer_leads (i : ℕ) (f : OnTimer) (r : Room) : Leads r (r.launchTimer i f) :=
  call_leads i (.launchTimerWith true) { r with timers := Function.update r.timers i f }

theorem store_leads (new : List Message) (r : Room) : Leads r (r.store new) := Leads.of_eq rfl

theorem broadcast_leads (text : Bytes) (targets : List ℕ) (r : Room) :
    Leads r (r.broadcast text targets) := by
  induction targets generalizing r with
  | nil => exact Leads.of_eq rfl
  | cons i targets ih =>
    exact ((call_leads i (.append text) r).trans (call_leads i .doWrite _)).trans (ih _)

theorem resume_leads (i : ℕ) (r : Room) : Leads r (r.resume i) := by
  rw [resume]
  cases h : (r.sessions i).resume with
  | none => exact Leads.of_eq (Function.update_eq_self i r.sessions)
  | some s => exact Leads.update (e := .resume) h

theorem insert_leads (i : ℕ) (name : Bytes) (r : Room) : Leads r (r.insert i name) := by
  rw [insert]
  split_ifs <;> exact Leads.of_eq rfl

theorem join_leads (i : ℕ) (name : Bytes) (r : Room) : Leads r (r.join i name) := by
  have hhello := (call_leads i (.append (bytes "Hello " ++ name)) r).trans
    (store_leads [entry name] _)
  cases h : Serializer.advance (r.messages ++ [entry name]) [] with
  | error ex =>
    rw [join_throws i h]
    exact hhello.trans (Leads.of_eq rfl)
  | ok written =>
    rw [join_eq i h]
    exact (hhello.trans (call_leads i (.append written.1) _)).trans
      (((broadcast_leads _ _ _).trans (insert_leads i name _)).trans
        (launchTimer_leads i .sendPing _))

theorem receive_leads (i : ℕ) (input : Bytes) (r : Room) :
    Leads r (r.receive overflow i input) := by
  rcases receive_cases overflow i input r with hvalid | ⟨_, heq | heq⟩
  · have hstored := store_leads (Parser.advance overflow input .success).messages r
    rw [receive_eq i hvalid]
    exact ((hstored.trans (call_leads i (.append input) _)).trans (broadcast_leads _ _ _)).trans
      (launchTimer_leads i .sendPing _)
  · rw [heq]
    exact Leads.of_eq rfl
  · rw [heq]
    exact (call_leads i .doRead r).trans (launchTimer_leads i .sendPing _)

theorem onMessage_leads (i : ℕ) (input : Bytes) (r : Room) :
    Leads r (r.onMessage overflow i input) := by
  rw [onMessage]
  split_ifs
  · exact join_leads i _ r
  · exact receive_leads i input r

theorem onClose_leads (i : ℕ) (r : Room) : Leads r (r.onClose i) := by
  rcases onClose_cases i r with ⟨_, heq | heq⟩ | ⟨nickname, _, heq⟩
  · rw [heq]
    exact Leads.of_eq rfl
  · rw [heq]
    exact Leads.of_eq rfl
  · rw [heq]
    exact (store_leads [farewell nickname] r).trans (broadcast_leads _ _ _)

theorem onTimer_leads (i : ℕ) (r : Room) : Leads r (r.onTimer i) := by
  rw [onTimer]
  split
  · exact (call_leads i (.doPing []) r).trans (launchTimer_leads i .closeConnection _)
  · exact call_leads i (.doClose .normal) r

theorem react_leads (i : ℕ) (c : Option Callback) (r : Room) : Leads r (r.react overflow i c) := by
  rw [react.eq_def]
  split
  · exact (call_leads i _ r).trans (resume_leads i _)
  · simp only
    split_ifs
    · exact onMessage_leads i _ r
    · exact (onMessage_leads i _ r).trans (resume_leads i _)
  · exact launchTimer_leads i .sendPing r
  · exact onClose_leads i r
  · exact onTimer_leads i r
  · exact Leads.of_eq rfl
  · exact Leads.of_eq rfl
  · exact Leads.of_eq rfl

/-! ## The steps of the server -/

theorem running_of_step {e : Event} (h : (system overflow readMessageMax).step r e = some t) :
    r.thrown = false := by
  obtain ⟨hrunning, _⟩ := Option.ite_none_left_eq_some.mp h
  simpa using hrunning

theorem step_upgrade (h : (system overflow readMessageMax).step r .upgrade = some t) :
    t = { r with created := r.created + 1 }.call r.created .doAccept := by
  obtain ⟨_, h⟩ := Option.ite_none_left_eq_some.mp h
  exact (Option.some.inj h).symm

theorem step_disconnect {i : ℕ}
    (h : (system overflow readMessageMax).step r (.disconnect i) = some t) :
    t = { r with isOpen := Function.update r.isOpen i false } := by
  obtain ⟨_, h⟩ := Option.ite_none_left_eq_some.mp h
  exact (Option.some.inj h).symm

/-- A handler of session `i` ran: the stream or the clock did `e`, and the callback reacted. -/
theorem step_session {i : ℕ} {e : Server.Event}
    (h : (system overflow readMessageMax).step r (.session i e) = some t) :
    External readMessageMax e ∧ ∃ s, (Server.system callbacks).step (r.sessions i) e = some s ∧
      t = { r with sessions := Function.update r.sessions i s }.react overflow i
        ((r.sessions i).callback callbacks e) := by
  obtain ⟨_, h⟩ := Option.ite_none_left_eq_some.mp h
  obtain ⟨⟨_, hext⟩, h⟩ := Option.ite_none_right_eq_some.mp h
  obtain ⟨s, hs, rfl⟩ := Option.map_eq_some_iff.mp h
  exact ⟨hext, s, hs, rfl⟩

theorem step_leads {e : Event} (h : (system overflow readMessageMax).step r e = some t) :
    Leads r t := by
  cases e with
  | upgrade =>
    cases step_upgrade h
    exact call_leads r.created .doAccept { r with created := r.created + 1 }
  | disconnect i =>
    cases step_disconnect h
    exact Leads.of_eq rfl
  | session i e =>
    obtain ⟨_, s, hs, rfl⟩ := step_session h
    exact (Leads.update hs).trans (react_leads i _ _)

/-! ## The store -/

/-- What the callbacks share, with the sockets. -/
def shared (r : Room) : Room := { r with sessions := fun _ => {}, timers := fun _ => .sendPing }

theorem messages_eq_of_shared (h : t.shared = r.shared) : t.messages = r.messages := by
  have hmessages := congrArg messages h
  exact hmessages

theorem broadcast_shared (text : Bytes) (targets : List ℕ) (r : Room) :
    (r.broadcast text targets).shared = r.shared := by
  induction targets generalizing r with
  | nil => rfl
  | cons i targets ih => exact ih ((r.call i (.append text)).call i .doWrite)

theorem onTimer_shared (i : ℕ) (r : Room) : (r.onTimer i).shared = r.shared := by
  rw [onTimer]
  split <;> rfl

theorem insert_messages (i : ℕ) (name : Bytes) (r : Room) :
    (r.insert i name).messages = r.messages := by
  rw [insert]
  split_ifs <;> rfl

theorem join_messages (i : ℕ) (name : Bytes) (r : Room) :
    (r.join i name).messages = r.messages ++ [entry name] := by
  cases h : Serializer.advance (r.messages ++ [entry name]) [] with
  | error ex =>
    rw [join_throws i h]
    rfl
  | ok written =>
    rw [join_eq i h]
    refine (insert_messages i name _).trans ?_
    exact messages_eq_of_shared (broadcast_shared _ _ _)

theorem receive_messages (i : ℕ) (input : Bytes) (r : Room) :
    (r.receive overflow i input).messages =
      r.messages ++ (Parser.advance overflow input .success).accepted := by
  rw [Advance.accepted]
  rcases receive_cases overflow i input r with hvalid | ⟨hvalid, heq | heq⟩
  · rw [receive_eq i hvalid, hvalid]
    exact messages_eq_of_shared (broadcast_shared _ _ _)
  · rw [heq, hvalid]
    exact (List.append_nil _).symm
  · rw [heq, hvalid]
    exact (List.append_nil _).symm

theorem onClose_messages (i : ℕ) (r : Room) :
    (r.onClose i).messages = r.messages ++ r.leaves i := by
  rcases onClose_cases i r with ⟨hleaves, heq | heq⟩ | ⟨nickname, hleaves, heq⟩
  · rw [heq, hleaves, List.append_nil]
  · rw [heq, hleaves, List.append_nil]
    rfl
  · rw [heq, hleaves]
    exact messages_eq_of_shared (broadcast_shared _ _ _)

/-- What the callback stores. -/
def stores (overflow : ℤ → ℤ) (i : ℕ) (r : Room) : Option Callback → List Message
  | some (.message input) =>
    if input.take 11 = nameString then [entry (input.drop 11)]
    else (Parser.advance overflow input .success).accepted
  | some (.close _) => r.leaves i
  | _ => []

theorem onMessage_messages (i : ℕ) (input : Bytes) (r : Room) :
    (r.onMessage overflow i input).messages =
      r.messages ++ r.stores overflow i (some (.message input)) := by
  rw [onMessage, stores]
  split_ifs
  · exact join_messages i _ r
  · exact receive_messages i input r

theorem react_messages (i : ℕ) (c : Option Callback) (r : Room) :
    (r.react overflow i c).messages = r.messages ++ r.stores overflow i c := by
  cases c with
  | none => exact (List.append_nil _).symm
  | some c =>
    cases c with
    | message input =>
      simp only [react]
      split_ifs
      · exact onMessage_messages i input r
      · exact onMessage_messages i input r
    | close payload => exact onClose_messages i r
    | timer =>
      refine (messages_eq_of_shared (onTimer_shared i r)).trans ?_
      exact (List.append_nil _).symm
    | _ => exact (List.append_nil _).symm

/-- What the event adds to the store. -/
def stored (overflow : ℤ → ℤ) (r : Room) : Event → List Message
  | .session i e => r.stores overflow i ((r.sessions i).callback callbacks e)
  | _ => []

theorem step_messages {e : Event} (h : (system overflow readMessageMax).step r e = some t) :
    t.messages = r.messages ++ r.stored overflow e := by
  cases e with
  | upgrade =>
    cases step_upgrade h
    exact (List.append_nil _).symm
  | disconnect i =>
    cases step_disconnect h
    exact (List.append_nil _).symm
  | session i e =>
    obtain ⟨_, s, _, rfl⟩ := step_session h
    exact react_messages i _ _

/-! ## The outputs -/

/-- What session `k` has in its output buffer stands in front of what it has in `t`. -/
def Extends (k : ℕ) (r t : Room) : Prop :=
  (r.sessions k).outputBuffer <+: (t.sessions k).outputBuffer

theorem Extends.of_eq {k : ℕ} (h : t.sessions = r.sessions) : Extends k r t := by
  simp [Extends, h]

theorem Extends.trans {k : ℕ} (h : Extends k r t) (h' : Extends k t u) : Extends k r u :=
  List.IsPrefix.trans h h'

/-- Only a write that completes takes something out of an output buffer. -/
theorem prefix_of_step {s s' : Server} {e : Server.Event} (hwrite : ∀ i ec, e ≠ .writeDone i ec)
    (h : (Server.system callbacks).step s e = some s') : s.outputBuffer <+: s'.outputBuffer := by
  have hop : (Outbox.system Byte).perform s.outbox (s.outboxOp e) = some s'.outbox :=
    Server.refines_outbox s e s' h
  apply Outbox.perform_prefix hop
  intro i hfinish
  cases e with
  | writeDone j ec => exact hwrite j ec rfl
  | call c => cases c <;> simp [Server.outboxOp] at hfinish
  | resume => simp [Server.outboxOp] at hfinish
  | _ => cases hfinish

theorem Extends.update {i : ℕ} {s : Server} {e : Server.Event} (k : ℕ)
    (hwrite : ∀ i ec, e ≠ .writeDone i ec)
    (h : (Server.system callbacks).step (r.sessions i) e = some s) :
    Extends k r { r with sessions := Function.update r.sessions i s } := by
  by_cases hk : k = i
  · subst hk
    simp only [Extends, Function.update_self]
    exact prefix_of_step hwrite h
  · simp only [Extends, Function.update_of_ne hk]
    exact List.prefix_rfl

theorem call_extends (k i : ℕ) (c : Server.Call) (r : Room) : Extends k r (r.call i c) :=
  Extends.update (e := .call c) k (by simp) rfl

theorem launchTimer_extends (k i : ℕ) (f : OnTimer) (r : Room) :
    Extends k r (r.launchTimer i f) :=
  call_extends k i (.launchTimerWith true) { r with timers := Function.update r.timers i f }

theorem broadcast_extends (k : ℕ) (text : Bytes) (targets : List ℕ) (r : Room) :
    Extends k r (r.broadcast text targets) := by
  induction targets generalizing r with
  | nil => exact Extends.of_eq rfl
  | cons i targets ih =>
    exact ((call_extends k i (.append text) r).trans (call_extends k i .doWrite _)).trans (ih _)

theorem insert_sessions (i : ℕ) (name : Bytes) (r : Room) :
    (r.insert i name).sessions = r.sessions := by
  rw [insert]
  split_ifs <;> rfl

theorem resume_extends (k i : ℕ) (r : Room) : Extends k r (r.resume i) := by
  rw [resume]
  cases h : (r.sessions i).resume with
  | none => exact Extends.of_eq (Function.update_eq_self i r.sessions)
  | some s => exact Extends.update (e := .resume) k (by simp) h

/-- Behind the greeting and the name stands the frame with all messages. -/
theorem join_output (i : ℕ) (name : Bytes) (h : r.messages.length + 1 < 2 ^ 32 - 1) :
    (r.sessions i).outputBuffer ++
        (bytes "Hello " ++ name ++ frame (r.messages ++ [entry name])) <+:
      ((r.join i name).sessions i).outputBuffer := by
  have hall : Serializer.advance (r.messages ++ [entry name]) [] =
      .ok (frame (r.messages ++ [entry name]), (frame (r.messages ++ [entry name])).length) := by
    rw [Serializer.advance_eq [] (by simpa using h), List.nil_append]
  rw [join_eq i hall]
  set greeted := ((r.call i (.append (bytes "Hello " ++ name))).store [entry name]).call i
    (.append (frame (r.messages ++ [entry name]))) with hgreeted
  have htext : (greeted.sessions i).outputBuffer = (r.sessions i).outputBuffer ++
      (bytes "Hello " ++ name ++ frame (r.messages ++ [entry name])) := by
    simp [hgreeted, call, store, Server.call, Server.io, Session.append, Session.emit]
  have hcast := broadcast_extends i (frame [entry name]) r.members greeted
  have hinsert := hcast.trans
    (Extends.of_eq (insert_sessions i name (greeted.broadcast (frame [entry name]) r.members)))
  have htimer := hinsert.trans (launchTimer_extends i i .sendPing _)
  rw [← htext]
  exact htimer

end BeastWebsocket.Chat.Room
