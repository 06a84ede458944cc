import BeastWebsocket.Chat.Delivery
import BeastWebsocket.Chat.Network

/-! # What the clients show

A client whose connection stays whole shows the messages of the store, in order and each of them
once, up to those that it has not received yet.
-/
namespace BeastWebsocket
open Channel Transition Chat

namespace ChatClient
variable {overflow : ℤ → ℤ} {name : Bytes}

theorem hello_length (name : Bytes) : (bytes "Hello " ++ name).length = name.length + 6 := by
  have hlength : (bytes "Hello ").length = 6 := rfl
  rw [List.length_append, hlength, Nat.add_comm]

theorem inputString_greeting (name : Bytes) (known : List Message) :
    inputString name (greeting name known) = frame known := by
  have htake : (greeting name known).take (name.length + 6) = bytes "Hello " ++ name :=
    List.take_left' (hello_length name)
  have hdrop : (greeting name known).drop (name.length + 6) = frame known :=
    List.drop_left' (hello_length name)
  rw [inputString, greets, htake, decide_eq_true rfl, if_pos rfl, hdrop]

/-- The greeting shows the messages that come with it. -/
theorem prints_greeting {known : List Message} (hne : known ≠ []) (hcount : known.length < 2 ^ 31)
    (hread : ∀ m ∈ known, m.Readable) (hlt : ∀ m ∈ known, m.payload.length < 2 ^ 31) :
    prints overflow name (greeting name known) = known.map .message := by
  have hadvance : Parser.advance overflow (frame known ++ []) .success =
      ⟨known, .success, .ok (frame known).length⟩ :=
    Parser.advance_frame [] hne hcount hread hlt
  rw [List.append_nil] at hadvance
  rw [prints, inputString_greeting, hadvance]
  rfl

/-- Any other text shows the messages that are obtained from it. -/
theorem prints_valid {text : Bytes}
    (h : (Parser.advance overflow text .success).valid = true) :
    prints overflow name text = (obtained overflow text).map .message := by
  have hgreets : greets name text = false := by
    obtain ⟨field, rest, rfl⟩ := headText_of_valid h
    rw [greets, decide_eq_false_iff_not]
    intro htake
    have hhead := congrArg List.head? htake
    rw [List.head?_take, if_neg (by omega)] at hhead
    cases hhead
  rw [prints, inputString, hgreets, obtained, Advance.accepted, h]
  cases hused : (Parser.advance overflow text .success).usedBytes with
  | error ex => simp [Advance.valid, hused] at h
  | ok n =>
    have hec : (Parser.advance overflow text .success).ec.failed = false := by
      simpa [Advance.valid, hused] using h
    simp [hused, hec]

/-- What the texts behind the question show, those of the script show in front. -/
theorem prints_script {messages : List Message} {texts told : List Bytes}
    (hscript : Script overflow name messages texts) (hcount : messages.length < 2 ^ 31)
    (hread : ∀ m ∈ messages, m.Readable) (hlt : ∀ m ∈ messages, m.payload.length < 2 ^ 31)
    (htold : told <+: texts) :
    (told.drop 1).flatMap (prints overflow name) <+: messages.map .message ∧
      (told = texts → (told.drop 1).flatMap (prints overflow name) = messages.map .message) := by
  obtain ⟨known, frames, rfl, hne, hvalid, rfl⟩ := hscript
  rw [List.length_append] at hcount
  have hgreeting : prints overflow name (greeting name known) = known.map .message :=
    prints_greeting hne (by omega) (fun m hm => hread m (List.mem_append_left _ hm))
      (fun m hm => hlt m (List.mem_append_left _ hm))
  have hframes : frames.flatMap (prints overflow name) =
      (frames.flatMap (obtained overflow)).map .message := by
    rw [List.map_flatMap]
    exact List.flatMap_congr fun f hf => prints_valid (hvalid f hf)
  have hall : ((question :: greeting name known :: frames).drop 1).flatMap
      (prints overflow name) = (known ++ frames.flatMap (obtained overflow)).map .message := by
    rw [List.drop_one, List.tail_cons, List.flatMap_cons, hgreeting, hframes, List.map_append]
  constructor
  · rw [← hall]
    obtain ⟨more, hmore⟩ := htold
    rw [← hmore]
    cases told with
    | nil => exact List.nil_prefix
    | cons first told =>
      simp only [List.cons_append, List.drop_one, List.tail_cons, List.flatMap_append]
      exact List.prefix_append _ _
  · rintro rfl
    exact hall

end ChatClient

namespace Chat.Network
variable {overflow : ℤ → ℤ} {readMessageMax : ℕ} {x y : Network} {e : Network.Event}
  {es : List Network.Event} {k : ℕ}

/-! ## Over a run -/

/-- The store is never cut, so that it is short throughout a run that ends with a short one. -/
theorem run_sound (hmax : readMessageMax < 2 ^ 31)
    (hrun : (system overflow readMessageMax).run initial es = some x)
    (hnamed : (system overflow readMessageMax).Along Named initial es)
    (hcount : x.hub.messages.length < 2 ^ 31) : x.Sound overflow readMessageMax := by
  apply System.run_invariant (M := system overflow readMessageMax) (P := Named)
    (I := fun x => x.hub.messages.length < 2 ^ 31 → x.Sound overflow readMessageMax) _ _ hnamed hrun
    hcount
  · intro x e y hx hname h hcount
    have hle := messages_le h
    exact (hx (by omega)).step hmax hname hcount h
  · exact fun _ => sound_initial overflow readMessageMax

theorem Sound.served (hx : x.Sound overflow readMessageMax) (hy : y.Sound overflow readMessageMax)
    (hwhole : x.Whole overflow k e) (hk : x.hub.Served overflow k)
    (hcount : y.hub.messages.length < 2 ^ 31)
    (h : (system overflow readMessageMax).step x e = some y) : y.hub.Served overflow k := by
  cases e with
  | hub e =>
    have hstep := Star.step_hub h
    have hread := hy.attended.readable fun i =>
      ⟨_, _, (hy.speaks i).of_isPrefix (hy.faithful i).1⟩
    exact hk.step hx.room hx.fresh hwhole.1 hwhole.2 (hx.introduces h) hy.bounded hread hcount
      hstep.hub
  | spoke i w =>
    rw [(Star.step_spoke h).hub]
    exact hk

theorem run_served (hmax : readMessageMax < 2 ^ 31)
    (hrun : (system overflow readMessageMax).run initial es = some x)
    (hnamed : (system overflow readMessageMax).Along Named initial es)
    (hwhole : (system overflow readMessageMax).Along (Whole overflow k) initial es)
    (hcount : x.hub.messages.length < 2 ^ 31) :
    x.Sound overflow readMessageMax ∧ x.hub.Served overflow k := by
  apply System.run_invariant (M := system overflow readMessageMax)
    (P := fun x e => Named x e ∧ x.Whole overflow k e)
    (I := fun x => x.hub.messages.length < 2 ^ 31 →
      x.Sound overflow readMessageMax ∧ x.hub.Served overflow k) _ _ (hnamed.and hwhole) hrun hcount
  · rintro x e y hx ⟨hname, hwhole⟩ h hcount
    have hle := messages_le h
    obtain ⟨hsound, hserved⟩ := hx (by omega)
    have hy := hsound.step hmax hname hcount h
    exact ⟨hy, hsound.served hy hwhole hserved hcount h⟩
  · exact fun _ => ⟨sound_initial overflow readMessageMax, Room.served_initial⟩

/-- The server knows a client by the name that it has given. -/
theorem Sound.nickname (hx : x.Sound overflow readMessageMax) {c : SessionBox}
    (hc : Room.first k x.hub.clients = some c) : c.nickname = (x.spokes k).myName := by
  have hhead := hx.attended.names c (List.mem_of_find?_eq_some hc)
  rw [Room.first_session hc] at hhead
  have hsent := Room.head?_of_isPrefix (hx.faithful k).1 hhead
  have hne : (x.spokes k).sent ≠ [] := by
    intro hnil
    have hnone : ([] : List Bytes).head? = some (Room.nameString ++ c.nickname) := hnil ▸ hsent
    cases hnone
  obtain ⟨_, rest, hrest, _⟩ := hx.speaks k hne
  have hname : (x.spokes k).sent.head? = some (Room.nameString ++ (x.spokes k).myName) := by
    rw [hrest]
    rfl
  rw [show (x.spokes k).sent.head? = _ from hsent] at hname
  exact List.append_cancel_left (Option.some.inj hname)

theorem Sound.shown (hx : x.Sound overflow readMessageMax) (hk : x.hub.Served overflow k)
    (hcount : x.hub.messages.length < 2 ^ 31) :
    (x.spokes k).lines <+: x.hub.messages.map .message ∧
      (k ∈ x.hub.members → x.told k = x.hub.sent k →
        (x.spokes k).lines = x.hub.messages.map .message) := by
  have htold := (hx.faithful k).2
  have hhanded : x.hub.sent k = (x.hub.mail k).carried := hk.handed
  rw [(hx.clients k).lines]
  cases hfirst : Room.first k x.hub.clients with
  | none =>
    have hnone := hk.opening hfirst
    have hbefore : (x.told k).drop 1 = [] := by
      have hlength := htold.length_le
      have hone : (x.hub.sent k).length ≤ 1 := by
        rw [hhanded, hnone]
        split_ifs <;> simp
      rw [List.drop_eq_nil_iff]
      exact hlength.trans hone
    rw [hbefore]
    refine ⟨List.nil_prefix, fun hmem => ?_⟩
    exact absurd hmem (Room.first_eq_none_iff.mp hfirst)
  | some c =>
    have hscript := hk.serving c hfirst
    rw [hx.nickname hfirst, ← hhanded] at hscript
    have hread := hx.attended.readable fun i =>
      ⟨_, _, (hx.speaks i).of_isPrefix (hx.faithful i).1⟩
    obtain ⟨hshown, hall⟩ :=
      ChatClient.prints_script hscript hcount hread hx.bounded.payloads htold
    exact ⟨hshown, fun _ => hall⟩

end Chat.Network

namespace Chat

/-- Whatever happens on the other connections: a client whose own connection stays whole shows the
messages of the store from the first one on, in order, and all of them once it has joined and has
received what it has been sent. -/
theorem shows_store (overflow : ℤ → ℤ) (readMessageMax : ℕ) (hmax : readMessageMax < 2 ^ 31)
    (es : List Network.Event) (k : ℕ) {x : Network}
    (hrun : (Network.system overflow readMessageMax).run Network.initial es = some x)
    (hnamed : (Network.system overflow readMessageMax).Along Network.Named Network.initial es)
    (hwhole : (Network.system overflow readMessageMax).Along (Network.Whole overflow k)
      Network.initial es)
    (hcount : x.hub.messages.length < 2 ^ 31) :
    (x.spokes k).lines <+: x.hub.messages.map .message ∧
      (k ∈ x.hub.members → x.told k = x.hub.sent k →
        (x.spokes k).lines = x.hub.messages.map .message) := by
  obtain ⟨hx, hk⟩ := Network.run_served hmax hrun hnamed hwhole hcount
  exact hx.shown hk hcount

/-- Client `i` connects and joins, and receives the messages that are known then. -/
def Network.joins (i : ℕ) (name : Bytes) (known : List Message) : List Network.Event :=
  [.hub .upgrade, .hub (.session i (.acceptDone .success)), .spoke i .connect,
    .spoke i (.session (.handshakeDone .success []) []), .hub (Room.written i),
    .spoke i (.session (.readDone .success question true) name),
    .spoke i (.session (.writeDone 0 .success) []), .hub (Room.named i name), .hub (Room.written i),
    .spoke i (.session (.readDone .success (greeting name known) true) [])]

/-- The clients `a` and `b` join, `a` says "x" and receives it, and `b` has not received it yet. -/
def Network.chat : List Network.Event :=
  Network.joins 0 [97] [Room.entry [97]] ++
    Network.joins 1 [98] [Room.entry [97], Room.entry [98]] ++
    [.hub (Room.written 0),
      .spoke 0 (.session (.readDone .success (frame [Room.entry [98]]) true) []),
      .spoke 0 (.typed [120]), .spoke 0 (.session (.writeDone 0 .success) []),
      .hub (.session 0 (.readDone .success (frame [⟨[120], [97]⟩]) true)), .hub (Room.written 0),
      .spoke 0 (.session (.readDone .success (frame [⟨[120], [97]⟩]) true) [])]

theorem shows_store_chat :
    ∃ x, (Network.system id 16777216).run Network.initial Network.chat = some x ∧
      (x.spokes 0).lines = x.hub.messages.map .message ∧
      x.hub.messages = [Room.entry [97], Room.entry [98], ⟨[120], [97]⟩] :=
  ⟨_, rfl, (shows_store id 16777216 (by decide) Network.chat 0 rfl (by decide) (by decide)
    (by decide)).2 (by decide) rfl, rfl⟩

/-- Of any two clients whose connections stay whole, one shows what the other shows first. -/
theorem clients_agree (overflow : ℤ → ℤ) (readMessageMax : ℕ) (hmax : readMessageMax < 2 ^ 31)
    (es : List Network.Event) (j k : ℕ) {x : Network}
    (hrun : (Network.system overflow readMessageMax).run Network.initial es = some x)
    (hnamed : (Network.system overflow readMessageMax).Along Network.Named Network.initial es)
    (hj : (Network.system overflow readMessageMax).Along (Network.Whole overflow j)
      Network.initial es)
    (hk : (Network.system overflow readMessageMax).Along (Network.Whole overflow k)
      Network.initial es)
    (hcount : x.hub.messages.length < 2 ^ 31) :
    (x.spokes j).lines <+: (x.spokes k).lines ∨ (x.spokes k).lines <+: (x.spokes j).lines := by
  obtain ⟨hx, hserved⟩ := Network.run_served hmax hrun hnamed hj hcount
  obtain ⟨_, hserved'⟩ := Network.run_served hmax hrun hnamed hk hcount
  exact List.prefix_or_prefix_of_prefix (hx.shown hserved hcount).1 (hx.shown hserved' hcount).1

theorem clients_agree_chat :
    ∃ x, (Network.system id 16777216).run Network.initial Network.chat = some x ∧
      ((x.spokes 0).lines <+: (x.spokes 1).lines ∨ (x.spokes 1).lines <+: (x.spokes 0).lines) ∧
      (x.spokes 0).lines.length = 3 ∧ (x.spokes 1).lines.length = 2 :=
  ⟨_, rfl, clients_agree id 16777216 (by decide) Network.chat 0 1 rfl (by decide) (by decide)
    (by decide) (by decide), rfl, rfl⟩

/-- Whatever fails: a message of the store tells of a client that has given its name, or has been
typed at one that bears it. -/
theorem stored_was_typed (overflow : ℤ → ℤ) (readMessageMax : ℕ) (hmax : readMessageMax < 2 ^ 31)
    (es : List Network.Event) {x : Network}
    (hrun : (Network.system overflow readMessageMax).run Network.initial es = some x)
    (hnamed : (Network.system overflow readMessageMax).Along Network.Named Network.initial es)
    (hcount : x.hub.messages.length < 2 ^ 31) :
    ∀ m ∈ x.hub.messages, ∃ i, i ∈ x.hub.members ∧ (x.spokes i).myName ≠ [] ∧
      (m = Room.entry (x.spokes i).myName ∨ m = Room.farewell (x.spokes i).myName ∨
        ∃ line ∈ (x.spokes i).typed, line ≠ [] ∧ m = ⟨line, (x.spokes i).myName⟩) := by
  have hx := Network.run_sound hmax hrun hnamed hcount
  intro m hm
  obtain ⟨i, hi⟩ := hx.attended.sources m hm
  have hspeaks := (hx.speaks i).of_isPrefix (hx.faithful i).1
  obtain ⟨⟨hname, _⟩, hcases⟩ := hi.cases_of_speaks hspeaks (hx.attended.short i)
  exact ⟨i, hx.attended.heard i hi.ne_nil, hname, hcases⟩

theorem stored_was_typed_chat :
    ∃ x, (Network.system id 16777216).run Network.initial Network.chat = some x ∧
      (∀ m ∈ x.hub.messages, ∃ i, i ∈ x.hub.members ∧ (x.spokes i).myName ≠ [] ∧
        (m = Room.entry (x.spokes i).myName ∨ m = Room.farewell (x.spokes i).myName ∨
          ∃ line ∈ (x.spokes i).typed, line ≠ [] ∧ m = ⟨line, (x.spokes i).myName⟩)) ∧
      x.hub.messages.length = 3 :=
  ⟨_, rfl, stored_was_typed id 16777216 (by decide) Network.chat rfl (by decide) (by decide), rfl⟩

end Chat
end BeastWebsocket
