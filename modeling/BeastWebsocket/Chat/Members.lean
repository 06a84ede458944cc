import BeastWebsocket.Chat.Handlers
import Mathlib.Data.List.Nodup

/-! # The members of the chat room

A session that has joined is accepted, and is in the room once. What a handler broadcasts reaches
each session at most once.
-/
namespace BeastWebsocket.Chat.Room
open Channel Transition

variable {overflow : ℤ → ℤ} {readMessageMax : ℕ} {r t : Room}

/-! ## Who is in the room -/

theorem members_eq_of_shared (h : t.shared = r.shared) : t.members = r.members := by
  have hmembers := congrArg members h
  exact hmembers

theorem broadcast_members (text : Bytes) (targets : List ℕ) (r : Room) :
    (r.broadcast text targets).members = r.members :=
  members_eq_of_shared (broadcast_shared text targets r)

theorem insert_members (i : ℕ) (name : Bytes) (r : Room) :
    (r.insert i name).members = if i ∈ r.members then r.members else r.members ++ [i] := by
  rw [insert]
  split_ifs
  · rfl
  · simp [members]

theorem join_members (i : ℕ) (name : Bytes) (r : Room) :
    (r.join i name).members = r.members ∨
      i ∉ r.members ∧ (r.join i name).members = r.members ++ [i] := by
  cases h : Serializer.advance (r.messages ++ [entry name]) [] with
  | error ex =>
    rw [join_throws i h]
    exact Or.inl rfl
  | ok written =>
    rw [join_eq i h]
    set greeted := ((r.call i (.append (bytes "Hello " ++ name))).store [entry name]).call i
      (.append written.1)
    have hinsert := insert_members i name (greeted.broadcast (frame [entry name]) r.members)
    rw [broadcast_members] at hinsert
    by_cases hi : i ∈ r.members
    · left
      exact hinsert.trans (if_pos hi)
    · right
      exact ⟨hi, hinsert.trans (if_neg hi)⟩

theorem receive_members (i : ℕ) (input : Bytes) (r : Room) :
    (r.receive overflow i input).members = r.members := by
  rcases receive_cases overflow i input r with hvalid | ⟨_, heq | heq⟩
  · rw [receive_eq i hvalid]
    exact broadcast_members _ _ _
  · rw [heq]
    rfl
  · rw [heq]
    rfl

theorem onClose_members (i : ℕ) (r : Room) : (r.onClose i).members = r.members := by
  rcases onClose_cases i r with ⟨_, heq | heq⟩ | ⟨nickname, _, heq⟩
  · rw [heq]
  · rw [heq]
    rfl
  · rw [heq]
    exact broadcast_members _ _ _

/-- Only a session whose client gives a name is put into the room. -/
theorem react_members (overflow : ℤ → ℤ) (i : ℕ) (c : Option Callback) (r : Room) :
    (r.react overflow i c).members = r.members ∨
      (∃ input, c = some (.message input) ∧ input.take 11 = nameString) ∧ i ∉ r.members ∧
        (r.react overflow i c).members = r.members ++ [i] := by
  cases c with
  | none => exact Or.inl rfl
  | some c =>
    cases c with
    | message input =>
      have hresume : (r.react overflow i (some (.message input))).members =
          (r.onMessage overflow i input).members := by
        simp only [react]
        split_ifs <;> rfl
      rw [hresume, onMessage]
      split_ifs with hname
      · rcases join_members i (input.drop 11) r with hsame | ⟨hi, hnew⟩
        · exact Or.inl hsame
        · exact Or.inr ⟨⟨input, rfl, hname⟩, hi, hnew⟩
      · exact Or.inl (receive_members i input r)
    | close payload => exact Or.inl (onClose_members i r)
    | timer => exact Or.inl (members_eq_of_shared (onTimer_shared i r))
    | _ => exact Or.inl rfl

/-- The event puts no one into the room, or the session whose client gives its name in it. -/
theorem step_members {e : Event} (h : (system overflow readMessageMax).step r e = some t) :
    t.members = r.members ∨ ∃ i e' input, e = .session i e' ∧
      (r.sessions i).callback callbacks e' = some (.message input) ∧ input.take 11 = nameString ∧
      i ∉ r.members ∧ t.members = r.members ++ [i] := by
  cases e with
  | upgrade =>
    cases step_upgrade h
    exact Or.inl rfl
  | disconnect i =>
    cases step_disconnect h
    exact Or.inl rfl
  | session i e =>
    obtain ⟨_, s, _, rfl⟩ := step_session h
    rcases react_members overflow i ((r.sessions i).callback callbacks e)
      { r with sessions := Function.update r.sessions i s } with
      hsame | ⟨⟨input, hcall, hname⟩, hi, hadded⟩
    · exact Or.inl hsame
    · exact Or.inr ⟨i, e, input, rfl, hcall, hname, hi, hadded⟩

/-- Members are accepted, and in the room once. -/
structure Sound (r : Room) : Prop where
  gated : ∀ k, (r.sessions k).Gated
  accepted : ∀ k ∈ r.members, (r.sessions k).accepted = true
  nodup : r.members.Nodup

theorem sound_initial : Sound {} where
  gated := fun _ _ => ⟨rfl, rfl, rfl⟩
  accepted := by simp [members]
  nodup := by simp [members]

/-- An accepted session stays accepted. -/
theorem Leads.accepted (h : Leads r t) {k : ℕ} (hk : (r.sessions k).accepted = true) :
    (t.sessions k).accepted = true := by
  apply (h k).invariant (I := fun s : Server => s.accepted = true) _ hk
  intro s e s' hs _ hstep
  rw [Server.step_accepted hstep, hs, Bool.true_or]

theorem Leads.gated (h : Leads r t) {k : ℕ} (hk : (r.sessions k).Gated) : (t.sessions k).Gated :=
  (h k).invariant (I := Server.Gated) (fun _ _ _ hs _ hstep => hs.step hstep) hk

/-- A session whose `on_message` is called is accepted. -/
theorem Sound.accepted_of_message (hr : r.Sound) {i : ℕ} {e : Server.Event} {s : Server}
    {input : Bytes} (hs : (Server.system callbacks).step (r.sessions i) e = some s)
    (h : (r.sessions i).callback callbacks e = some (.message input)) :
    (r.sessions i).accepted = true := by
  obtain ⟨chunk, text, rfl, _⟩ := Server.callback_message h
  obtain ⟨⟨_, hpos⟩, _⟩ := Session.handled_eq_some.mp hs
  by_contra hacc
  have hclosed := hr.gated i (by simpa using hacc)
  rw [hclosed.reads] at hpos
  cases hpos

theorem Sound.step (r : Room) (e : Event) (t : Room) (hr : r.Sound)
    (h : (system overflow readMessageMax).step r e = some t) : t.Sound := by
  have hleads := step_leads h
  have hgated : ∀ k, (t.sessions k).Gated := fun k => hleads.gated (hr.gated k)
  rcases step_members h with hsame | ⟨i, e, input, rfl, hcall, _, hi, hadded⟩
  · refine ⟨hgated, ?_, hsame ▸ hr.nodup⟩
    intro k hk
    rw [hsame] at hk
    exact hleads.accepted (hr.accepted k hk)
  · obtain ⟨_, s, hs, _⟩ := step_session h
    have hjoined := hleads.accepted (hr.accepted_of_message hs hcall)
    refine ⟨hgated, ?_, ?_⟩
    · rw [hadded]
      intro k hk
      rcases List.mem_append.mp hk with hk | hk
      · exact hleads.accepted (hr.accepted k hk)
      · rw [List.mem_singleton] at hk
        exact hk ▸ hjoined
    · rw [hadded, List.nodup_append]
      refine ⟨hr.nodup, List.nodup_singleton i, ?_⟩
      intro a ha b hb heq
      rw [List.mem_singleton] at hb
      exact hi (hb ▸ heq ▸ ha)

/-! ## Whom a broadcast reaches -/

/-- A session is sent a text by the handler of another one. -/
def tell (text : Bytes) (s : Server) : Server :=
  (s.call callbacks (.append text)).call callbacks .doWrite

theorem call_self (k : ℕ) (c : Server.Call) (r : Room) :
    (r.call k c).sessions k = (r.sessions k).call callbacks c := Function.update_self k _ _

theorem call_other {k i : ℕ} (hk : k ≠ i) (c : Server.Call) (r : Room) :
    (r.call i c).sessions k = r.sessions k := Function.update_of_ne hk _ _

theorem launchTimer_other {k i : ℕ} (hk : k ≠ i) (f : OnTimer) (r : Room) :
    (r.launchTimer i f).sessions k = r.sessions k := call_other hk _ _

theorem resume_other {k i : ℕ} (hk : k ≠ i) (r : Room) :
    (r.resume i).sessions k = r.sessions k := Function.update_of_ne hk _ _

theorem broadcast_sessions (text : Bytes) {targets : List ℕ} (h : targets.Nodup) (k : ℕ)
    (r : Room) :
    (r.broadcast text targets).sessions k =
      if k ∈ targets then tell text (r.sessions k) else r.sessions k := by
  induction targets generalizing r with
  | nil => rfl
  | cons i targets ih =>
    rw [List.nodup_cons] at h
    have hrest := ih h.2 ((r.call i (.append text)).call i .doWrite)
    change (((r.call i (.append text)).call i .doWrite).broadcast text targets).sessions k = _
    rw [hrest]
    by_cases hk : k = i
    · subst hk
      rw [if_neg h.1, if_pos List.mem_cons_self, call_self, call_self]
      rfl
    · rw [call_other hk, call_other hk]
      simp [hk]

theorem others_nodup (h : r.members.Nodup) (i : ℕ) : (r.others i).Nodup := h.filter _

theorem self_notMem_others (i : ℕ) (r : Room) : i ∉ r.others i := by
  simp [others]

/-- The session once it has been told the text, if there is one. -/
def hear (s : Server) : Option Bytes → Server
  | none => s
  | some text => tell text s

/-- The text that session `k` is sent when a client joins. -/
def toldName (k : ℕ) (name : Bytes) (r : Room) : Option Bytes :=
  match Serializer.advance (r.messages ++ [entry name]) [] with
  | .error _ => none
  | .ok _ => if k ∈ r.members then some (frame [entry name]) else none

/-- The text that session `k` is sent when session `i` has sent a frame, back to itself or by
broadcast. -/
def toldFrame (overflow : ℤ → ℤ) (k i : ℕ) (input : Bytes) (r : Room) : Option Bytes :=
  if (Parser.advance overflow input .success).valid ∧ (k = i ∨ k ∈ r.others i) then some input
  else none

/-- The text that session `k` is sent when session `i` leaves. -/
def toldFarewell (k i : ℕ) (r : Room) : Option Bytes :=
  if r.leaves i ≠ [] ∧ k ∈ r.others i then some (frame (r.leaves i)) else none

/-- The text that a callback of session `i` sends to session `k` on account of what it stores. -/
def told (overflow : ℤ → ℤ) (k i : ℕ) (r : Room) : Option Callback → Option Bytes
  | some (.message input) =>
    if input.take 11 = nameString then r.toldName k (input.drop 11)
    else r.toldFrame overflow k i input
  | some (.close _) => r.toldFarewell k i
  | _ => none

section Other
variable {k i : ℕ}

theorem join_other (hk : k ≠ i) (hnodup : r.members.Nodup) (name : Bytes) :
    (r.join i name).sessions k = hear (r.sessions k) (r.toldName k name) := by
  rw [toldName]
  cases h : Serializer.advance (r.messages ++ [entry name]) [] with
  | error ex =>
    rw [join_throws i h]
    exact call_other hk _ r
  | ok written =>
    have hhello : ((r.call i (.append (bytes "Hello " ++ name))).store [entry name]).sessions k =
        r.sessions k := call_other hk _ r
    rw [join_eq i h, launchTimer_other hk, insert_sessions, broadcast_sessions _ hnodup,
      call_other hk, hhello]
    simp only
    split_ifs <;> rfl

theorem receive_other (hk : k ≠ i) (hnodup : r.members.Nodup) (input : Bytes) :
    (r.receive overflow i input).sessions k =
      hear (r.sessions k) (r.toldFrame overflow k i input) := by
  rw [toldFrame]
  rcases receive_cases overflow i input r with hvalid | ⟨hvalid, heq | heq⟩
  · have happend : ((r.store (Parser.advance overflow input .success).messages).call i
        (.append input)).sessions k = r.sessions k := call_other hk _ _
    rw [receive_eq i hvalid, launchTimer_other hk, broadcast_sessions _ (others_nodup hnodup i),
      happend]
    simp only [hvalid, hk, false_or, true_and]
    split_ifs <;> rfl
  · rw [heq, hvalid]
    simp [hear, throw]
  · rw [heq, hvalid, launchTimer_other hk, call_other hk]
    simp [hear]

theorem onClose_other (hnodup : r.members.Nodup) :
    (r.onClose i).sessions k = hear (r.sessions k) (r.toldFarewell k i) := by
  rw [toldFarewell]
  rcases onClose_cases i r with ⟨hleaves, heq | heq⟩ | ⟨nickname, hleaves, heq⟩
  · rw [heq, hleaves]
    simp [hear]
  · rw [heq, hleaves]
    simp [hear, throw]
  · rw [heq, hleaves, broadcast_sessions _ (others_nodup hnodup i)]
    simp only [ne_eq, List.cons_ne_nil, not_false_eq_true, true_and]
    split_ifs <;> rfl

/-- All that a callback does to the other sessions is to send them what it stores. -/
theorem react_other (overflow : ℤ → ℤ) (hk : k ≠ i) (hnodup : r.members.Nodup)
    (c : Option Callback) :
    (r.react overflow i c).sessions k = hear (r.sessions k) (r.told overflow k i c) := by
  cases c with
  | none => rfl
  | some c =>
    cases c with
    | accept => exact (resume_other hk _).trans (call_other hk _ r)
    | message input =>
      have hresume : (r.react overflow i (some (.message input))).sessions k =
          (r.onMessage overflow i input).sessions k := by
        simp only [react]
        split_ifs
        · rfl
        · exact resume_other hk _
      rw [hresume, onMessage, told]
      split_ifs
      · exact join_other hk hnodup _
      · exact receive_other hk hnodup input
    | close payload => exact onClose_other hnodup
    | pong payload => exact launchTimer_other hk _ r
    | timer =>
      simp only [react, onTimer]
      split
      · exact (launchTimer_other hk _ _).trans (call_other hk _ r)
      · exact call_other hk _ r
    | _ => rfl

end Other

end BeastWebsocket.Chat.Room
