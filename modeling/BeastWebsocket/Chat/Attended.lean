import BeastWebsocket.Chat.Asking
import BeastWebsocket.Chat.Received

/-! # What the server has heard

Clients that speak as they are asked to give their names first and send frames of what is typed.
Then the members are the clients that have been heard, under the names that they have given, and
each message that is stored tells of one of them, or has been typed at it.
-/
namespace BeastWebsocket.Chat
open Channel Transition Text

variable {overflow : ℤ → ℤ}

/-! ## What is obtained from what is spoken -/

section Spoken
variable {line name tail rest : Bytes}

/-- A frame of one message declares one. -/
theorem count_of_frame {m : Message} {f : Field overflow}
    (h : frame [m] ++ tail = headText Inv.prefixString f.text ++ rest) :
    f.value = 1 ∧ m.text ++ tail = rest := by
  have hframe : frame [m] = headText Inv.prefixString (decimal 1) ++ m.text := by simp [frame]
  rw [hframe, List.append_assoc] at h
  obtain ⟨hfield, hrest⟩ := headText_cancel (colon_notMem_decimal 1) f.noColon h
  refine ⟨?_, hrest⟩
  rw [Field.value, ← hfield]
  exact declared_decimal overflow (by decide)

theorem header_of_text {h : Header overflow} {body : Bytes} (hname : colon ∉ name)
    (hlt : line.length < 2 ^ 31) (heq : Message.text ⟨line, name⟩ ++ tail = h.text ++ body) :
    h.paySz.value = line.length ∧ h.nickname = name ∧ body = line ++ tail := by
  rw [Header.text_append, Message.text, List.append_assoc, List.append_assoc,
    List.cons_append] at heq
  obtain ⟨hfield, hrest⟩ := headText_cancel (colon_notMem_decimal _) h.paySz.noColon heq
  obtain ⟨hnickname, hbody⟩ := cut_unique hname h.noColon hrest
  refine ⟨?_, hnickname.symm, hbody.symm⟩
  rw [Field.value, ← hfield]
  exact declared_decimal overflow hlt

/-- What starts with the frame of a line has the line in it, if there is one, and nothing else. -/
theorem obtained_of_frame {m : Message} (hname : colon ∉ name) (hlt : line.length < 2 ^ 31)
    (hm : m ∈ obtained overflow (frame [⟨line, name⟩] ++ tail)) : m = ⟨line, name⟩ ∧ line ≠ [] := by
  rw [obtained] at hm
  obtain ⟨hsuccess, hreturns, hmessages⟩ := Advance.accepted_eq (List.ne_nil_of_mem hm)
  rw [hmessages] at hm
  rcases Parser.success_cases hsuccess hreturns with ⟨f, bs, t, hcount, heq⟩ | hcut
  · obtain ⟨hone, htext⟩ := count_of_frame heq
    obtain ⟨b, rfl⟩ := List.length_eq_one_iff.mp (hcount.trans hone)
    rw [heq, Parser.advance_blocks t hcount] at hm
    rw [Block.texts_cons, Block.texts_nil, List.append_nil, Block.text, List.append_assoc] at htext
    obtain ⟨hvalue, hnickname, hbody⟩ := header_of_text hname hlt htext
    have hpayload := List.append_inj_left hbody (b.complete.trans hvalue)
    rw [List.map_singleton, List.mem_singleton] at hm
    rw [hm, Block.message, hnickname, hpayload]
    exact ⟨rfl, hpayload ▸ b.payload_ne_nil⟩
  · obtain ⟨f, bs, h, body, heq, hcount, hshort⟩ := hcut
    obtain ⟨hone, htext⟩ := count_of_frame heq
    have hnone : bs = [] := List.length_eq_zero_iff.mp (by omega)
    rw [hnone, Block.texts_nil, List.nil_append] at htext
    obtain ⟨hvalue, _, hbody⟩ := header_of_text hname hlt htext
    rw [hvalue, hbody, List.length_append] at hshort
    omega

end Spoken

/-! ## What is spoken -/

/-- The messages of a client: its name first, and then frames of the lines. -/
def Speaks (lines : List Bytes) (name : Bytes) (l : List Bytes) : Prop :=
  l ≠ [] → (name ≠ [] ∧ colon ∉ name) ∧ ∃ rest, l = (Room.nameString ++ name) :: rest ∧
    ∀ m ∈ rest, ChatClient.Spoken lines name m

theorem Speaks.of_isPrefix {lines l m : List Bytes} {name : Bytes} (hm : Speaks lines name m)
    (h : l <+: m) : Speaks lines name l := by
  intro hl
  obtain ⟨more, rfl⟩ := h
  obtain ⟨hname, rest, hrest, hspoken⟩ := hm (List.append_ne_nil_of_left_ne_nil hl _)
  cases l with
  | nil => exact absurd rfl hl
  | cons first l =>
    cases hrest
    exact ⟨hname, l, rfl, fun m hm => hspoken m (List.mem_append_left _ hm)⟩

/-- The first message gives the name, no later one does. -/
theorem Speaks.take_iff {lines l : List Bytes} {name text : Bytes}
    (h : Speaks lines name (l ++ [text])) : text.take 11 = Room.nameString ↔ l = [] := by
  obtain ⟨_, rest, hrest, hspoken⟩ := h (by simp)
  cases l with
  | nil =>
    cases hrest
    exact iff_of_true (Room.nameString_append name).1 rfl
  | cons first l =>
    cases hrest
    apply iff_of_false _ (by simp)
    exact (hspoken text (by simp)).take

theorem speaks_of_received {x : ChatClient} {l : List Bytes} (hx : x.Received overflow l) :
    Speaks x.typed x.myName x.sent := by
  intro hsent
  cases hsession : x.mySession with
  | false =>
    have hasked := hx.asked hsession
    cases l with
    | nil => exact absurd hasked hsent
    | cons m l =>
      exact ⟨hx.named (by simp), [], hasked, by simp⟩
  | true =>
    obtain ⟨hl, _, _, htalks⟩ := hx.talking hsession
    exact ⟨hx.named hl, htalks.handed⟩

namespace Room
variable {readMessageMax : ℕ} {i k : ℕ} {r t : Room} {l : ℕ → List Bytes}

/-! ## The links of the server -/

def sent (r : Room) (i : ℕ) : List Bytes := handedPayloads (r.sessions i).log

def takes : Event → Option (ℕ × Bytes)
  | .session i e => (Server.takes e).map (Prod.mk i)
  | .upgrade | .disconnect _ => none

theorem sent_grows (r : Room) (e : Event) (t : Room)
    (h : step overflow readMessageMax r e = some t) (k : ℕ) : r.sent k <+: t.sent k := by
  apply project_isPrefix
  apply (step_leads h k).invariant (I := fun s : Server => (r.sessions k).log <+: s.log) _
    List.prefix_rfl
  exact fun _ _ _ hs _ hstep => hs.trans (Server.step_log hstep)

/-- The server with the links to its clients. -/
def hub (overflow : ℤ → ℤ) (readMessageMax : ℕ) : Hub Room Event ℕ Bytes Bytes where
  step := step overflow readMessageMax
  sent := sent
  takes := takes
  grows := sent_grows

theorem hub_taken (e : Server.Event) :
    (hub overflow readMessageMax).taken k (.session i e) =
      if i = k then (Server.takes e).toList else [] := by
  rw [Hub.taken]
  cases htakes : Server.takes e <;> simp [hub, takes, htakes]

/-! ## The members -/

/-- Where a message of the store comes from, if the messages `l` have been taken from a client. -/
inductive Origin (overflow : ℤ → ℤ) (l : List Bytes) : Message → Prop
  | joined (name : Bytes) (h : l.head? = some (nameString ++ name)) : Origin overflow l (entry name)
  | left (name : Bytes) (h : l.head? = some (nameString ++ name)) :
      Origin overflow l (farewell name)
  | said (text : Bytes) (htext : text ∈ l.tail) (m : Message) (hm : m ∈ obtained overflow text) :
      Origin overflow l m

/-- The messages `l` have been taken from the clients. -/
structure Attended (overflow : ℤ → ℤ) (r : Room) (l : ℕ → List Bytes) : Prop where
  heard : ∀ i, l i ≠ [] → i ∈ r.members
  names : ∀ c ∈ r.clients, (l c.session).head? = some (nameString ++ c.nickname)
  sources : ∀ m ∈ r.messages, ∃ i, Origin overflow (l i) m
  short : ∀ i, ∀ text ∈ l i, text.length < 2 ^ 31

theorem attended_initial (overflow : ℤ → ℤ) : Attended overflow {} fun _ => [] where
  heard := fun _ h => absurd rfl h
  names := by simp
  sources := by simp
  short := by simp

theorem Attended.heard_iff (hr : r.Attended overflow l) : i ∈ r.members ↔ l i ≠ [] := by
  constructor
  · intro hmem hnone
    obtain ⟨c, hc, rfl⟩ := List.mem_map.mp hmem
    have hname := hr.names c hc
    rw [hnone] at hname
    cases hname
  · exact hr.heard i

/-- A client leaves under the name that it has given. -/
theorem Attended.leaves_named {m : Message} (hr : r.Attended overflow l) (hm : m ∈ r.leaves i) :
    ∃ name, (l i).head? = some (nameString ++ name) ∧ m = farewell name := by
  rw [leaves] at hm
  split_ifs at hm
  · obtain ⟨c, hc, rfl⟩ := List.mem_map.mp hm
    have hsession := first_session (Option.mem_toList.mp hc)
    have hmem : c ∈ r.clients := List.mem_of_find?_eq_some (Option.mem_toList.mp hc)
    have hhead := hr.names c hmem
    rw [hsession] at hhead
    exact ⟨c.nickname, hhead, rfl⟩
  · cases hm

theorem head?_of_isPrefix {l m : List Bytes} {text : Bytes} (h : l <+: m)
    (hhead : l.head? = some text) : m.head? = some text := by
  obtain ⟨rest, rfl⟩ := h
  rw [List.head?_append, hhead]
  rfl

theorem Origin.ne_nil {l : List Bytes} {m : Message} (hm : Origin overflow l m) : l ≠ [] := by
  rintro rfl
  cases hm with
  | joined name hhead => cases hhead
  | left name hhead => cases hhead
  | said text htext => cases htext

theorem Origin.append {l : List Bytes} {m : Message} (hm : Origin overflow l m)
    (more : List Bytes) : Origin overflow (l ++ more) m := by
  cases hm with
  | joined name hhead => exact .joined name (head?_of_isPrefix (List.prefix_append _ _) hhead)
  | left name hhead => exact .left name (head?_of_isPrefix (List.prefix_append _ _) hhead)
  | said text htext _ hobtained =>
    refine .said text ?_ m hobtained
    cases l with
    | nil => cases htext
    | cons first l => exact List.mem_append_left _ htext

/-- What `on_message` is called with is the message that has been taken. -/
theorem takes_of_message {e : Server.Event} {s : Server} {input : Bytes} (hr : r.Bounded)
    (hs : (Server.system callbacks).step (r.sessions i) e = some s)
    (h : (r.sessions i).callback callbacks e = some (.message input)) :
    Server.takes e = some input := by
  obtain ⟨chunk, text, rfl, rfl⟩ := Server.callback_message h
  obtain ⟨⟨hidle, hpos⟩, _⟩ := Session.handled_eq_some.mp hs
  have hempty : (r.sessions i).inputBuffer = [] :=
    (hr.inboxes i).empty_of_reads hpos (by simp [Session.inbox, hidle])
  rw [hempty]
  rfl

theorem message_of_takes {e : Server.Event} {s : Server} {chunk : Bytes} (hr : r.Bounded)
    (hs : (Server.system callbacks).step (r.sessions i) e = some s)
    (h : Server.takes e = some chunk) :
    (r.sessions i).callback callbacks e = some (.message chunk) := by
  obtain ⟨input, hcall⟩ :
      ∃ input, (r.sessions i).callback callbacks e = some (.message input) := by
    cases e with
    | readDone ec chunk' text =>
      cases ec with
      | success => exact ⟨_, rfl⟩
      | _ => cases h
    | _ => cases h
  cases (takes_of_message hr hs hcall).symm.trans h
  exact hcall

theorem Attended.introduces {e : Event} (hr : r.Attended overflow l) (hb : r.Bounded)
    (hspeaks : ∀ i, ∃ lines name,
      Speaks lines name (l i ++ (hub overflow readMessageMax).taken i e))
    (h : (system overflow readMessageMax).step r e = some t) : r.Introduces e := by
  cases e with
  | session i e =>
    intro input hcall
    obtain ⟨_, s, hs, _⟩ := step_session h
    obtain ⟨lines, name, hspoken⟩ := hspeaks i
    rw [hub_taken, if_pos rfl, takes_of_message hb hs hcall] at hspoken
    rw [hspoken.take_iff, hr.heard_iff, not_not]
  | _ => trivial

section Step
variable {e : Event}

theorem members_stay (hcount : r.messages.length + 1 < 2 ^ 32 - 1) (hk : k ∈ r.members)
    (h : (system overflow readMessageMax).step r e = some t) : k ∈ t.members := by
  obtain ⟨c, hc⟩ := member_iff.mp hk
  apply member_iff.mpr
  rw [step_names hcount h, hc]
  exact ⟨c, rfl⟩

/-- A client is inserted by the message that gives its name, which is its first one. -/
theorem clients_cases {c : SessionBox} (hcount : r.messages.length + 1 < 2 ^ 32 - 1)
    (h : (system overflow readMessageMax).step r e = some t) (hc : c ∈ t.clients) :
    c ∈ r.clients ∨ ∃ e' input, e = .session c.session e' ∧
      (r.sessions c.session).callback callbacks e' = some (.message input) ∧
      input = nameString ++ c.nickname := by
  cases e with
  | upgrade =>
    cases step_upgrade h
    exact Or.inl hc
  | disconnect i =>
    cases step_disconnect h
    exact Or.inl hc
  | session i e =>
    rw [(step_shares hcount h).1] at hc
    cases hintro : introduction i ((r.sessions i).callback callbacks e) with
    | none =>
      rw [hintro] at hc
      exact Or.inl hc
    | some b =>
      rw [hintro, enrol, insert] at hc
      split_ifs at hc
      · exact Or.inl hc
      · rcases List.mem_append.mp hc with hc | hc
        · exact Or.inl hc
        · right
          rw [introduction.eq_def] at hintro
          split at hintro
          · next input hcall =>
            obtain ⟨htake, hb⟩ := Option.ite_none_right_eq_some.mp hintro
            cases hb
            rw [List.mem_singleton] at hc
            subst hc
            refine ⟨e, input, rfl, hcall, ?_⟩
            rw [← htake, List.take_append_drop]
          · cases hintro

theorem Attended.step (hmax : readMessageMax < 2 ^ 31) (hr : r.Attended overflow l) (hb : r.Bounded)
    (hname : r.Introduces e) (hcount : r.messages.length + 1 < 2 ^ 32 - 1)
    (h : (system overflow readMessageMax).step r e = some t) :
    t.Attended overflow fun i => l i ++ (hub overflow readMessageMax).taken i e where
  heard := by
    intro i hi
    by_cases hl : l i = []
    · rw [hl, List.nil_append] at hi
      cases e with
      | session j e =>
        rw [hub_taken] at hi
        obtain ⟨hj, hi⟩ : j = i ∧ (Server.takes e).toList ≠ [] := by simpa using hi
        subst hj
        obtain ⟨_, s, hs, _⟩ := step_session h
        obtain ⟨chunk, hchunk⟩ : ∃ chunk, Server.takes e = some chunk := by
          cases htakes : Server.takes e with
          | none => simp [htakes] at hi
          | some chunk => exact ⟨chunk, rfl⟩
        have hcall := message_of_takes hb hs hchunk
        have htake := (hname chunk hcall).mpr fun hmem => hr.heard_iff.mp hmem hl
        apply member_iff.mpr
        rw [step_names hcount h, introduced, hcall, introduction, if_pos htake]
        cases first j r.clients with
        | none => exact ⟨⟨j, chunk.drop 11⟩, by simp [first]⟩
        | some c => exact ⟨c, rfl⟩
      | _ => exact absurd rfl hi
    · exact members_stay hcount (hr.heard i hl) h
  names := by
    intro c hc
    rcases clients_cases hcount h hc with hc | ⟨e', input, rfl, hcall, hinput⟩
    · exact head?_of_isPrefix (List.prefix_append _ _) (hr.names c hc)
    · obtain ⟨_, s, hs, _⟩ := step_session h
      have htake : input.take 11 = nameString := by
        rw [hinput]
        exact (nameString_append c.nickname).1
      have hnew : l c.session = [] := by
        by_contra hl
        exact (hname input hcall).mp htake (hr.heard_iff.mpr hl)
      rw [hub_taken, if_pos rfl, takes_of_message hb hs hcall, hnew, hinput]
      rfl
  sources := by
    rw [step_messages h]
    intro m hm
    rcases List.mem_append.mp hm with hm | hm
    · obtain ⟨i, hi⟩ := hr.sources m hm
      exact ⟨i, hi.append _⟩
    · cases e with
      | session i e =>
        refine ⟨i, ?_⟩
        obtain ⟨_, s, hs, _⟩ := step_session h
        rw [hub_taken, if_pos rfl]
        rw [stored] at hm
        cases hcall : (r.sessions i).callback callbacks e with
        | none =>
          rw [hcall] at hm
          cases hm
        | some c =>
          rw [hcall] at hm
          cases c with
          | message input =>
            have hfirst := hname input hcall
            rw [hr.heard_iff, not_not] at hfirst
            rw [takes_of_message hb hs hcall]
            rw [stores] at hm
            split_ifs at hm with htake
            · rw [List.mem_singleton] at hm
              rw [hm, hfirst.mp htake]
              apply Origin.joined
              rw [← htake, List.take_append_drop]
              rfl
            · apply Origin.said input _ m hm
              cases hl : l i with
              | nil => exact absurd (hfirst.mpr hl) htake
              | cons first l => simp
          | close payload =>
            obtain ⟨name, hhead, rfl⟩ := hr.leaves_named hm
            exact (Origin.left name hhead).append _
          | _ => cases hm
      | _ => cases hm

  short := by
    intro i text htext
    rcases List.mem_append.mp htext with htext | htext
    · exact hr.short i text htext
    · cases e with
      | session j e =>
        obtain ⟨hext, _⟩ := step_session h
        rw [hub_taken] at htext
        split_ifs at htext
        · have htakes : Server.takes e = some text := Option.mem_toList.mp htext
          cases e with
          | readDone ec chunk other =>
            cases ec with
            | success =>
              cases htakes
              have hle : text.length ≤ readMessageMax := hext
              omega
            | _ => cases htakes
          | _ => cases htakes
        · cases htext
      | _ => cases htext

end Step

/-- What is stored tells of a client that has given its name, or is a line that has been typed at
it. -/
theorem Origin.cases_of_speaks {lines l : List Bytes} {name : Bytes} {m : Message}
    (hm : Origin overflow l m) (hl : Speaks lines name l)
    (hlt : ∀ text ∈ l, text.length < 2 ^ 31) :
    (name ≠ [] ∧ colon ∉ name) ∧
      (m = entry name ∨ m = farewell name ∨ ∃ line ∈ lines, line ≠ [] ∧ m = ⟨line, name⟩) := by
  obtain ⟨hname, rest, rfl, hspoken⟩ := hl hm.ne_nil
  refine ⟨hname, ?_⟩
  cases hm with
  | joined other hhead =>
    rw [List.head?_cons, Option.some.injEq] at hhead
    rw [List.append_cancel_left hhead]
    exact Or.inl rfl
  | left other hhead =>
    rw [List.head?_cons, Option.some.injEq] at hhead
    rw [List.append_cancel_left hhead]
    exact Or.inr (Or.inl rfl)
  | said text htext m hobtained =>
    obtain ⟨line, hline, tail, rfl⟩ := hspoken text htext
    have hlong := hlt _ (List.mem_cons_of_mem _ htext)
    have hshort : line.length < 2 ^ 31 := by
      have hle : line.length ≤ (frame [⟨line, name⟩] ++ tail).length := by
        simp [frame, Message.text]
        omega
      omega
    obtain ⟨rfl, hempty⟩ := obtained_of_frame hname.2 hshort hobtained
    exact Or.inr (Or.inr ⟨line, hline, hempty, rfl⟩)

theorem Attended.readable (hr : r.Attended overflow l)
    (hspeaks : ∀ i, ∃ lines name, Speaks lines name (l i)) : r.Readable := by
  intro m hm
  obtain ⟨i, hi⟩ := hr.sources m hm
  obtain ⟨lines, name, hl⟩ := hspeaks i
  obtain ⟨⟨hname, hcolon⟩, hcases⟩ := hi.cases_of_speaks hl (hr.short i)
  rcases hcases with rfl | rfl | ⟨line, _, hline, rfl⟩
  · exact entry_readable_iff.mpr hname
  · exact farewell_readable_iff.mpr hcolon
  · exact ⟨hcolon, hline⟩

end Room
end BeastWebsocket.Chat
