import BeastWebsocket.Chat.Handlers
import BeastWebsocket.Chat.Grammar
import BeastWebsocket.Chat.RoundTrip
import BeastWebsocket.Session.Input

/-! # The chat history

The store is sent to every client that joins. It reads back exactly while each entry is
readable: a name must not be empty, a client whose name holds a colon must not leave, and a
frame must not end in the header of its last message.
-/
namespace BeastWebsocket.Chat
open Channel Transition

/-! ## What is taken from a frame -/

/-- A frame that ends in the header of the last message that it declares. -/
def EndsInHeader (overflow : ℤ → ℤ) (input : Bytes) : Prop :=
  ∃ (f : Field overflow) (bs : List (Block overflow)) (h : Header overflow),
    input = headText Inv.prefixString f.text ++ (Block.texts bs ++ h.text) ∧
      bs.length + 1 = f.value

section Accepted
variable {overflow : ℤ → ℤ} {input : Bytes}

theorem Advance.accepted_eq {p : Advance} (h : p.accepted ≠ []) :
    p.ec = .success ∧ (∃ n, p.usedBytes = .ok n) ∧ p.accepted = p.messages := by
  rw [accepted] at h ⊢
  cases hvalid : p.valid with
  | false => simp [hvalid] at h
  | true =>
    rw [valid] at hvalid
    cases hused : p.usedBytes with
    | error ex => simp [hused] at hvalid
    | ok n =>
      rw [hused] at hvalid
      exact ⟨ErrorCode.failed_eq_false.mp (by simpa using hvalid), ⟨n, rfl⟩, rfl⟩

/-- What is taken from a frame is readable but for a payload of which nothing is there. -/
theorem accepted_readable_iff :
    (∀ m ∈ (Parser.advance overflow input .success).accepted, m.Readable) ↔
      ¬ EndsInHeader overflow input := by
  constructor
  · rintro h ⟨f, bs, header, rfl, hcount⟩
    obtain ⟨used, hread⟩ := Parser.advance_last header [] hcount
    rw [List.append_nil] at hread
    have hlast : (header.read []).Readable := by
      apply h
      rw [hread]
      simp [Advance.accepted, Advance.valid, ErrorCode.failed]
    exact hlast.2 (by simp [Header.read])
  · intro hends m hm
    obtain ⟨hsuccess, hreturns, heq⟩ := Advance.accepted_eq (List.ne_nil_of_mem hm)
    rw [heq] at hm
    rcases Parser.success_cases hsuccess hreturns with ⟨f, bs, t, hcount, rfl⟩ | hcut
    · rw [Parser.advance_blocks t hcount] at hm
      obtain ⟨b, _, rfl⟩ := List.mem_map.mp hm
      exact b.readable
    · obtain ⟨f, bs, header, body, rfl, hcount, hshort⟩ := hcut
      obtain ⟨used, hread⟩ := Parser.advance_last header body hcount
      rw [hread] at hm
      rcases List.mem_append.mp hm with hm | hm
      · obtain ⟨b, _, rfl⟩ := List.mem_map.mp hm
        exact b.readable
      · rw [List.mem_singleton] at hm
        subst hm
        refine ⟨header.noColon, ?_⟩
        intro hempty
        have hpos := header.paySz.value_pos
        have hbody : body = [] := by
          rcases List.take_eq_nil_iff.mp hempty with hzero | hbody
          · omega
          · exact hbody
        exact hends ⟨f, bs, header, by rw [hbody, List.append_nil], hcount⟩

theorem Block.payload_le {bs : List (Block overflow)} {b : Block overflow} (hb : b ∈ bs) :
    b.payload.length ≤ (Block.texts bs).length := by
  obtain ⟨before, after, rfl⟩ := List.append_of_mem hb
  simp [Block.texts, Block.text]
  omega

/-- No payload is longer than the frame that it is taken from. -/
theorem accepted_payload_le {m : Message}
    (hm : m ∈ (Parser.advance overflow input .success).accepted) :
    m.payload.length ≤ input.length := by
  obtain ⟨hsuccess, hreturns, heq⟩ := Advance.accepted_eq (List.ne_nil_of_mem hm)
  rw [heq] at hm
  rcases Parser.success_cases hsuccess hreturns with ⟨f, bs, t, hcount, rfl⟩ | hcut
  · rw [Parser.advance_blocks t hcount] at hm
    obtain ⟨b, hb, rfl⟩ := List.mem_map.mp hm
    have hle := Block.payload_le hb
    simp only [List.length_append, Block.message]
    omega
  · obtain ⟨f, bs, header, body, rfl, hcount, _⟩ := hcut
    obtain ⟨used, hread⟩ := Parser.advance_last header body hcount
    rw [hread] at hm
    simp only [List.length_append]
    rcases List.mem_append.mp hm with hm | hm
    · obtain ⟨b, hb, rfl⟩ := List.mem_map.mp hm
      have hle := Block.payload_le hb
      simp only [Block.message]
      omega
    · rw [List.mem_singleton] at hm
      subst hm
      have hle := List.length_take_le' header.paySz.value body
      simp only [Header.read]
      omega

end Accepted

namespace Room
variable {overflow : ℤ → ℤ} {readMessageMax : ℕ} {r t : Room}

/-! ## Entries that are readable -/

theorem entry_readable_iff {name : Bytes} : (entry name).Readable ↔ name ≠ [] := by
  have hnickname : colon ∉ (entry name).nickname := by
    change colon ∉ bytes "Input to chat room!"
    decide
  exact and_iff_right hnickname

theorem farewell_readable_iff {nickname : Bytes} :
    (farewell nickname).Readable ↔ colon ∉ nickname := by
  have hpayload : (farewell nickname).payload ≠ [] := by
    change bytes "is leaving" ≠ []
    decide
  exact and_iff_left hpayload

/-- No client joins with an empty name, no client whose name holds a colon leaves, and no frame
ends in the header of its last message. -/
def Keeps (overflow : ℤ → ℤ) (r : Room) : Event → Prop
  | .session i e =>
    match (r.sessions i).callback callbacks e with
    | some (.message input) =>
      if input.take 11 = nameString then input.drop 11 ≠ [] else ¬ EndsInHeader overflow input
    | some (.close _) =>
      r.isOpen i = true → ∀ c ∈ r.clients.find? fun c => c.session = i, colon ∉ c.nickname
    | _ => True
  | _ => True

theorem leaves_readable_iff (i : ℕ) (r : Room) :
    (∀ m ∈ r.leaves i, m.Readable) ↔
      (r.isOpen i = true → ∀ c ∈ r.clients.find? fun c => c.session = i, colon ∉ c.nickname) := by
  rw [leaves]
  cases r.isOpen i with
  | false => simp
  | true =>
    cases r.clients.find? fun c => c.session = i with
    | none => simp
    | some c => simp [farewell_readable_iff]

/-- What the event stores is readable exactly if it meets the condition. -/
theorem stored_readable_iff (r : Room) (e : Event) :
    (∀ m ∈ r.stored overflow e, m.Readable) ↔ r.Keeps overflow e := by
  cases e with
  | session i e =>
    rw [stored, Keeps]
    cases (r.sessions i).callback callbacks e with
    | none => simp [stores]
    | some c =>
      cases c with
      | message input =>
        simp only [stores]
        split_ifs
        · simp [entry_readable_iff]
        · exact accepted_readable_iff
      | close payload => exact leaves_readable_iff i r
      | _ => simp [stores]
  | _ => simp [stored, Keeps]

/-! ## The store throughout a run -/

def Readable (r : Room) : Prop := ∀ m ∈ r.messages, m.Readable

theorem Readable.step_iff (r : Room) (e : Event) (t : Room) (hr : r.Readable)
    (h : (system overflow readMessageMax).step r e = some t) :
    t.Readable ↔ r.Keeps overflow e := by
  rw [← stored_readable_iff, Readable, step_messages h]
  constructor
  · intro ht m hm
    exact ht m (List.mem_append_right _ hm)
  · intro hnew m hm
    rcases List.mem_append.mp hm with hm | hm
    · exact hr m hm
    · exact hnew m hm

/-- Each session reads one message at a time, and no stored payload is too long for a length
field. -/
structure Bounded (r : Room) : Prop where
  inboxes : ∀ k, ((r.sessions k).inbox callbacks).Disciplined
  payloads : ∀ m ∈ r.messages, m.payload.length < 2 ^ 31

theorem bounded_initial : Bounded {} where
  inboxes := fun _ => Inbox.disciplined_empty callbacks.onMessage
  payloads := by simp

/-- What `on_message` is called with is one message. -/
theorem Bounded.input_le (hr : r.Bounded) {i : ℕ} {e : Server.Event} {s : Server} {input : Bytes}
    (hext : External readMessageMax e)
    (hs : (Server.system callbacks).step (r.sessions i) e = some s)
    (h : (r.sessions i).callback callbacks e = some (.message input)) :
    input.length ≤ readMessageMax := by
  obtain ⟨chunk, text, rfl, rfl⟩ := Server.callback_message h
  obtain ⟨⟨hidle, hpos⟩, _⟩ := Session.handled_eq_some.mp hs
  have hinbox := hr.inboxes i
  have hwhole : ((r.sessions i).inbox callbacks).broken = false := by
    by_contra hbroken
    have hnone : (r.sessions i).stream.reads = 0 := hinbox.broken_idle (by simpa using hbroken)
    omega
  have hempty : (r.sessions i).inputBuffer = [] :=
    hinbox.drained hwhole (by simp [Session.inbox, hidle])
  rw [hempty]
  exact hext

theorem Bounded.stores_le (hmax : readMessageMax < 2 ^ 31) {i : ℕ} {c : Option Callback}
    (hinput : ∀ input, c = some (.message input) → input.length ≤ readMessageMax) :
    ∀ m ∈ r.stores overflow i c, m.payload.length < 2 ^ 31 := by
  intro m hm
  cases c with
  | none => simp [stores] at hm
  | some c =>
    cases c with
    | message input =>
      have hle := hinput input rfl
      simp only [stores] at hm
      split_ifs at hm
      · rw [List.mem_singleton] at hm
        subst hm
        simp only [entry, List.length_drop]
        omega
      · have hpayload := accepted_payload_le hm
        omega
    | close payload =>
      simp only [stores, leaves] at hm
      split_ifs at hm
      · obtain ⟨c, _, rfl⟩ := List.mem_map.mp hm
        change (bytes "is leaving").length < 2 ^ 31
        decide
      · cases hm
    | _ => simp [stores] at hm

theorem Bounded.step (hmax : readMessageMax < 2 ^ 31) (r : Room) (e : Event) (t : Room)
    (hr : r.Bounded) (h : (system overflow readMessageMax).step r e = some t) : t.Bounded where
  inboxes := by
    intro k
    apply (step_leads h k).invariant (I := fun s : Server => (s.inbox callbacks).Disciplined) _
      (hr.inboxes k)
    intro s e s' hs _ hstep
    exact hs.leads (Server.step_inbox s e s' hstep)
  payloads := by
    rw [step_messages h]
    intro m hm
    rcases List.mem_append.mp hm with hm | hm
    · exact hr.payloads m hm
    · cases e with
      | session i e =>
        obtain ⟨hext, s, hs, _⟩ := step_session h
        exact stores_le hmax (fun input hc => hr.input_le hext hs hc) m hm
      | _ => cases hm

/-! ## What a joining client reads -/

/-- The parser of a client reads the serialized store, whatever follows it. -/
def Decodable (overflow : ℤ → ℤ) (r : Room) : Prop :=
  r.messages ≠ [] → ∀ tail, ∃ text n, Serializer.advance r.messages [] = .ok (text, n) ∧
    Parser.advance overflow (text ++ tail) .success = ⟨r.messages, .success, .ok n⟩

theorem decodable_iff (overflow : ℤ → ℤ) (hr : r.Bounded) (hcount : r.messages.length < 2 ^ 31) :
    r.Decodable overflow ↔ r.Readable := by
  have hadvance : Serializer.advance r.messages [] =
      .ok (frame r.messages, (frame r.messages).length) := by
    rw [Serializer.advance_eq [] (by omega), List.nil_append]
  constructor
  · intro hdecodes m hm
    obtain ⟨text, n, htext, hread⟩ := hdecodes (List.ne_nil_of_mem hm) []
    rw [hadvance] at htext
    cases htext
    exact (Parser.readable_of_frame hread).2 m hm
  · intro hreadable hne tail
    exact ⟨_, _, hadvance, Parser.advance_frame tail hne hcount hreadable hr.payloads⟩

/-- Where the event is that a client joins, the text that it is sent behind the greeting and its
name reads as the store. -/
def JoinReads (overflow : ℤ → ℤ) (readMessageMax : ℕ) (r : Room) : Event → Prop
  | .session i e => ∀ name t,
      (r.sessions i).callback callbacks e = some (.message (nameString ++ name)) →
      (system overflow readMessageMax).step r (.session i e) = some t →
        ∃ text n, (t.sessions i).outputBuffer =
            (r.sessions i).outputBuffer ++ (bytes "Hello " ++ name ++ text) ∧
          Parser.advance overflow text .success = ⟨t.messages, .success, .ok n⟩
  | _ => True

theorem nameString_append (name : Bytes) :
    (nameString ++ name).take 11 = nameString ∧ (nameString ++ name).drop 11 = name := by
  have hlength : nameString.length = 11 := rfl
  rw [← hlength]
  exact ⟨List.take_left' rfl, List.drop_left' rfl⟩

theorem joinReads_of_decodable (e : Event)
    (h : ∀ t, (system overflow readMessageMax).step r e = some t →
      t.messages.length < 2 ^ 31 ∧ t.Decodable overflow) :
    r.JoinReads overflow readMessageMax e := by
  cases e with
  | session i e =>
    intro name t hcall ht
    obtain ⟨hcount, hdecodes⟩ := h t ht
    have hmessages := step_messages ht
    obtain ⟨_, s, hs, htr⟩ := step_session ht
    obtain ⟨htake, hdrop⟩ := nameString_append name
    have hstored : r.stored overflow (.session i e) = [entry name] := by
      rw [stored, hcall, stores, if_pos htake, hdrop]
    have hbuffer : s.outputBuffer = (r.sessions i).outputBuffer := by
      obtain ⟨chunk, text, rfl, _⟩ := Server.callback_message hcall
      have houtbox : some (r.sessions i).outbox = some s.outbox := Server.refines_outbox _ _ _ hs
      exact (congrArg Outbox.buffer (Option.some.inj houtbox)).symm
    have hlength := congrArg List.length hmessages
    rw [hstored, List.length_append, List.length_singleton] at hlength
    set arrived : Room := { r with sessions := Function.update r.sessions i s } with harrived
    have hjoin := join_output (r := arrived) i name (by simp only [harrived]; omega)
    have hself : arrived.sessions i = s := Function.update_self i s r.sessions
    rw [hcall, react, onMessage, if_pos htake, hdrop] at htr
    have hrest : Extends i (arrived.join i name) t := by
      rw [htr]
      split_ifs
      · exact List.prefix_rfl
      · exact resume_extends i i _
    obtain ⟨rest, heq⟩ := hjoin.trans hrest
    obtain ⟨text, n, htext, hread⟩ := hdecodes (by rw [hmessages, hstored]; simp) rest
    rw [Serializer.advance_eq [] (by omega), List.nil_append] at htext
    cases htext
    refine ⟨frame t.messages ++ rest, _, ?_, hread⟩
    rw [← heq, hself, hbuffer, hmessages, hstored]
    simp [harrived]
  | _ => trivial

end Room

/-- With at most `2 ^ 31 - 1` stored messages, the store can be decoded throughout a run exactly
if all steps meet the condition, and then every client that joins reads the store. -/
theorem history_decodable_iff (overflow : ℤ → ℤ) (readMessageMax : ℕ)
    (hmax : readMessageMax < 2 ^ 31) (es : List Room.Event)
    (hcount : (Room.system overflow readMessageMax).Throughout
      (fun r => r.messages.length < 2 ^ 31) {} es) :
    ((Room.system overflow readMessageMax).Throughout (Room.Decodable overflow) {} es ↔
      (Room.system overflow readMessageMax).Along (Room.Keeps overflow) {} es) ∧
    ((Room.system overflow readMessageMax).Along (Room.Keeps overflow) {} es →
      (Room.system overflow readMessageMax).Along (Room.JoinReads overflow readMessageMax)
        {} es) := by
  have hbounded : (Room.system overflow readMessageMax).Throughout Room.Bounded {} es :=
    System.throughout_inductive (Room.Bounded.step hmax) Room.bounded_initial
  have hreadable : (Room.system overflow readMessageMax).Throughout Room.Readable {} es ↔
      (Room.system overflow readMessageMax).Along (Room.Keeps overflow) {} es := by
    apply System.throughout_iff_along (J := fun _ => True) (G := System.unguarded)
    · intro _ _ _ _ _
      trivial
    · intro r e t _ _ hr h
      exact hr.step_iff r e t h
    · exact System.along_unguarded _ _
    · trivial
    · simp [Room.Readable]
  have hdecodable : (Room.system overflow readMessageMax).Throughout (Room.Decodable overflow)
      {} es ↔ (Room.system overflow readMessageMax).Along (Room.Keeps overflow) {} es := by
    rw [← hreadable]
    exact (hbounded.and hcount).congr fun r hr => Room.decodable_iff overflow hr.1 hr.2
  refine ⟨hdecodable, fun hkeeps => ?_⟩
  apply (hcount.and (hdecodable.mpr hkeeps)).along
  intro r e t _ ht h
  apply Room.joinReads_of_decodable
  intro u hu
  rw [h] at hu
  cases hu
  exact ht

/-- Two connections; the client of the first gives an empty name, that of the second is `b`. -/
def Room.namelessClient : List Room.Event :=
  [.upgrade, .session 0 (.acceptDone .success), .session 0 (.writeDone 0 .success),
    .session 0 (.readDone .success nameString true), .upgrade, .session 1 (.acceptDone .success),
    .session 1 (.writeDone 0 .success), .session 1 (.readDone .success (nameString ++ [98]) true)]

theorem history_decodable_iff_nameless :
    (Room.system id 16777216).Throughout (Room.Decodable id) {} Room.namelessClient ↔
      (Room.system id 16777216).Along (Room.Keeps id) {} Room.namelessClient :=
  (history_decodable_iff id 16777216 (by decide) Room.namelessClient (by decide)).1

/-- The client `b` is sent a history that its parser rejects. -/
theorem nameless_client_breaks_history :
    ∃ r, (Room.system id 16777216).run {} Room.namelessClient = some r ∧
      r.messages = [Room.entry [], Room.entry [98]] ∧
      (r.sessions 1).outputBuffer = bytes "Hello b" ++ frame r.messages ∧
      Parser.advance id (frame r.messages) .success = ⟨[], .invalidArgument, .ok 14⟩ :=
  ⟨_, rfl, rfl, rfl, by decide⟩

end BeastWebsocket.Chat
