import BeastWebsocket.Chat.Reactions

/-! # What a session puts out

What each event puts out to a session, as a text. While every text finds the output of the session
quiet, it is sent the question, the greeting, and then the frames from which its client obtains
what has been stored since.
-/
namespace BeastWebsocket.Chat
open Channel Transition

/-- The text of `on_accept`. -/
def question : Bytes := bytes "What is your name?"

/-- The text that a client is sent when it joins. -/
def greeting (name : Bytes) (messages : List Message) : Bytes :=
  bytes "Hello " ++ name ++ frame messages

namespace Room
variable {overflow : ℤ → ℤ} {readMessageMax : ℕ} {k i : ℕ} {r t : Room}

/-- The text that a callback of session `i` puts out to session `k`. -/
def puts (overflow : ℤ → ℤ) (k i : ℕ) (r : Room) : Option Callback → Option Bytes
  | some .accept => if i = k then some question else none
  | some (.message input) =>
    if i = k ∧ input.take 11 = nameString then
      some (greeting (input.drop 11) (r.messages ++ [entry (input.drop 11)]))
    else r.told overflow k i (some (.message input))
  | c => r.told overflow k i c

/-- The text that an event puts out to session `k`. -/
def put (overflow : ℤ → ℤ) (k : ℕ) (r : Room) : Event → Option Bytes
  | .session i e => r.puts overflow k i ((r.sessions i).callback callbacks e)
  | _ => none

/-- What session `k` is told finds its output quiet, and so does a message from its client. -/
def Calm (overflow : ℤ → ℤ) (k : ℕ) (r : Room) : Event → Prop
  | .session i e =>
    (i = k ∧ ∃ input, (r.sessions i).callback callbacks e = some (.message input)) ∨
      (r.told overflow k i ((r.sessions i).callback callbacks e)).isSome →
    (r.mail k).Quiet
  | _ => True

instance (c : Option Callback) : Decidable (∃ input, c = some (.message input)) :=
  match c with
  | some (.message input) => isTrue ⟨input, rfl⟩
  | none | some .accept | some (.handshake _) | some (.ping _) | some (.pong _) | some (.close _)
  | some .timer => isFalse fun h => by cases h with | intro input h => cases h

instance (overflow : ℤ → ℤ) (k : ℕ) (r : Room) (e : Event) : Decidable (r.Calm overflow k e) :=
  match e with
  | .session i e => inferInstanceAs (Decidable
      ((i = k ∧ ∃ input, (r.sessions i).callback callbacks e = some (.message input)) ∨
        (r.told overflow k i ((r.sessions i).callback callbacks e)).isSome → (r.mail k).Quiet))
  | .upgrade | .disconnect _ => isTrue trivial

/-- The first message of a session gives its name, and no later one does. -/
def Introduces (r : Room) : Event → Prop
  | .session i e => ∀ input, (r.sessions i).callback callbacks e = some (.message input) →
      (input.take 11 = nameString ↔ i ∉ r.members)
  | _ => True

/-! ## The handlers of other sessions -/

theorem puts_other (hk : k ≠ i) (c : Option Callback) :
    r.puts overflow k i c = r.told overflow k i c := by
  have hi : i ≠ k := Ne.symm hk
  cases c with
  | none => rfl
  | some c => cases c <;> simp [puts, told, hi]

theorem mail_other {e : Server.Event} (hr : r.Sound) (hk : k ≠ i)
    (horderly : (r.mail k).Orderly) (hcalm : r.Calm overflow k (.session i e))
    (h : (system overflow readMessageMax).step r (.session i e) = some t) :
    (t.mail k).Orderly ∧ (t.mail k).carried =
      (r.mail k).carried ++ (r.put overflow k (.session i e)).toList := by
  have hsessions := step_other hr hk h
  rw [put, puts_other hk, mail, hsessions]
  cases htold : r.told overflow k i ((r.sessions i).callback callbacks e) with
  | none => exact ⟨horderly, (List.append_nil _).symm⟩
  | some text =>
    have hquiet : (r.mail k).Quiet := hcalm (Or.inr (by rw [htold]; rfl))
    exact Server.call_posts callbacks text hquiet (hr.accepted k (member_of_told hk htold))

/-! ## The handlers of the session itself -/

section Own
variable {e : Server.Event} {s : Server} {u : Room}

/-- A callback that is not called, or that puts nothing out. -/
theorem mail_silent (horderly : (r.mail k).Orderly) (hext : External readMessageMax e)
    (hopen : StaysOpen k (.session k e))
    (hs : (Server.system callbacks).step (r.sessions k) e = some s) :
    s.outbox.Orderly ∧ s.outbox.carried = (r.mail k).carried := by
  have hop : (Outbox.system Byte).perform (r.mail k) ((r.sessions k).outboxOp e) =
      some s.outbox := Server.refines_outbox _ e s hs
  cases e with
  | writeDone j ec =>
    have hec : ec = .success := hopen rfl
    rw [Server.outboxOp, if_pos hec] at hop
    obtain ⟨hquiet, hcarried⟩ := horderly.finish hop
    exact ⟨hquiet.orderly, hcarried⟩
  | call c => exact absurd hext id
  | resume => exact absurd hext id
  | _ =>
    have hmail : r.mail k = s.outbox := Option.some.inj hop
    rw [← hmail]
    exact ⟨horderly, rfl⟩

theorem mail_accept (hquiet : (r.mail k).Quiet)
    (hs : (Server.system callbacks).step (r.sessions k) e = some s)
    (hcall : (r.sessions k).callback callbacks e = some .accept) (hu : u.sessions k = s) :
    (((u.onAccept k).resume k).mail k).Orderly ∧
      (((u.onAccept k).resume k).mail k).carried = (r.mail k).carried ++ [question] := by
  obtain ⟨hframe, hacc⟩ := Server.frame_of_accept hs hcall
  have hsame : s.outbox = r.mail k := Server.outbox_of_callback hs (by simp [hcall])
  have hfed := onAccept_fed k u
  rw [hu] at hfed
  rw [← hsame] at hquiet ⊢
  exact posts_own hfed hquiet (by simp [hframe]) hacc (by decide)

/-- A frame that is valid is put out, any other one is read past. -/
theorem mail_frame {input : Bytes} (hr : r.Sound) (hquiet : (r.mail k).Quiet)
    (hs : (Server.system callbacks).step (r.sessions k) e = some s)
    (hcall : (r.sessions k).callback callbacks e = some (.message input))
    (hu : u.sessions k = s) (hnodup : u.members.Nodup) (hrunning : u.thrown = false)
    (ht : t = if (u.receive overflow k input).thrown then u.receive overflow k input
      else (u.receive overflow k input).resume k) :
    (t.mail k).Orderly ∧ (t.mail k).carried = (r.mail k).carried ++
      (if (Parser.advance overflow input .success).valid then some input else none).toList := by
  obtain ⟨hsame, hframe, hacc⟩ := hr.arrived hs hcall
  rw [← hsame] at hquiet ⊢
  rw [ht]
  rcases receive_cases overflow k input u with hvalid | ⟨hvalid, heq | heq⟩
  · rw [receive_thrown hvalid, hrunning, hvalid]
    have hfed := receive_fed (k := k) hvalid hnodup
    rw [hu] at hfed
    exact posts_own hfed hquiet hframe hacc (accepted_ne_nil hvalid)
  · have hmail : u.throw.mail k = s.outbox := by
      rw [← hu]
      rfl
    rw [heq, hvalid]
    refine ⟨hmail ▸ hquiet.orderly, ?_⟩
    exact (congrArg Outbox.carried hmail).trans (List.append_nil _).symm
  · have hthrown : ((u.call k .doRead).launchTimer k .sendPing).thrown = false := hrunning
    rw [heq, hthrown, hvalid]
    have hread := Server.call_fed callbacks s (c := .doRead) (by simp)
    have htimer := launchTimer_fed (k := k) .sendPing (u.call k .doRead)
    rw [call_self, hu] at htimer
    obtain ⟨horderly, hcarried⟩ := rests_own (hread.trans htimer) hquiet hframe
    exact ⟨horderly, hcarried.trans (List.append_nil _).symm⟩

theorem mail_name {name : Bytes} {input : Bytes} (hr : r.Sound) (hquiet : (r.mail k).Quiet)
    (hs : (Server.system callbacks).step (r.sessions k) e = some s)
    (hcall : (r.sessions k).callback callbacks e = some (.message input))
    (hu : u.sessions k = s) (hnodup : u.members.Nodup) (hk : k ∉ u.members)
    (hrunning : u.thrown = false) (hcount : u.messages.length + 1 < 2 ^ 32 - 1)
    (ht : t = if (u.join k name).thrown then u.join k name else (u.join k name).resume k) :
    (t.mail k).Orderly ∧ (t.mail k).carried =
      (r.mail k).carried ++ [greeting name (u.messages ++ [entry name])] := by
  have hwritten : Serializer.advance (u.messages ++ [entry name]) [] =
      .ok (frame (u.messages ++ [entry name]), (frame (u.messages ++ [entry name])).length) := by
    rw [Serializer.advance_eq [] (by simpa using hcount), List.nil_append]
  obtain ⟨hsame, hframe, hacc⟩ := hr.arrived hs hcall
  have hfed := join_fed (k := k) hwritten hnodup hk
  rw [join_thrown hwritten, hrunning] at ht
  rw [hu] at hfed
  rw [← hsame] at hquiet ⊢
  rw [ht]
  exact posts_own hfed hquiet hframe hacc (List.append_ne_nil_of_left_ne_nil
    (List.append_ne_nil_of_left_ne_nil (by decide) _) _)

/-- A callback that puts nothing into the output of its session. -/
theorem mail_filled {c : Option Callback} (horderly : (r.mail k).Orderly)
    (hs : (Server.system callbacks).step (r.sessions k) e = some s)
    (hcall : (r.sessions k).callback callbacks e ≠ none)
    (hputs : r.puts overflow k k c = none) (hfill : Outbox.Filled [] s.outbox (t.mail k)) :
    (t.mail k).Orderly ∧
      (t.mail k).carried = (r.mail k).carried ++ (r.puts overflow k k c).toList := by
  have hsame : s.outbox = r.mail k := Server.outbox_of_callback hs hcall
  rw [hputs, Option.toList_none, List.append_nil, ← hsame]
  exact hfill.orderly (hsame ▸ horderly)

theorem mail_own (hr : r.Sound) (haccepts : (r.sessions k).Accepts)
    (horderly : (r.mail k).Orderly)
    (hclosed : (r.sessions k).accepted = false → (r.mail k).carried = [])
    (hcount : r.messages.length + 1 < 2 ^ 32 - 1) (hopen : StaysOpen k (.session k e))
    (hcalm : r.Calm overflow k (.session k e)) (hname : r.Introduces (.session k e))
    (h : (system overflow readMessageMax).step r (.session k e) = some t) :
    (t.mail k).Orderly ∧ (t.mail k).carried =
      (r.mail k).carried ++ (r.put overflow k (.session k e)).toList := by
  have hrunning := running_of_step h
  obtain ⟨hext, s, hs, ht⟩ := step_session h
  set arrived : Room := { r with sessions := Function.update r.sessions k s }
  have hself : arrived.sessions k = s := Function.update_self k s r.sessions
  rw [put]
  cases hcall : (r.sessions k).callback callbacks e with
  | none =>
    rw [hcall] at ht
    have hmail : t.mail k = s.outbox := by
      rw [ht, ← hself]
      rfl
    obtain ⟨hrest, hcarried⟩ := mail_silent horderly hext hopen hs
    rw [hmail]
    exact ⟨hrest, hcarried.trans (List.append_nil _).symm⟩
  | some c =>
    rw [hcall] at ht
    have hne : (r.sessions k).callback callbacks e ≠ none := by simp [hcall]
    cases c with
    | accept =>
      have hnone := hclosed (haccepts.fresh hcall hs)
      have hquiet : (r.mail k).Quiet := by
        rcases horderly with hquiet | hflight
        · exact hquiet
        · rw [Outbox.carried, hflight] at hnone
          simp at hnone
      rw [ht, puts, if_pos rfl]
      exact mail_accept hquiet hs hcall hself
    | message input =>
      have hquiet : (r.mail k).Quiet := hcalm (Or.inl ⟨rfl, input, hcall⟩)
      by_cases htake : input.take 11 = nameString
      · have hk : k ∉ r.members := (hname input hcall).mp htake
        rw [react, onMessage, if_pos htake] at ht
        rw [puts, if_pos ⟨rfl, htake⟩]
        exact mail_name (u := arrived) hr hquiet hs hcall hself hr.nodup hk hrunning hcount ht
      · rw [react, onMessage, if_neg htake] at ht
        rw [puts, if_neg (fun hboth => htake hboth.2), told_own htake]
        exact mail_frame hr hquiet hs hcall hself hr.nodup hrunning ht
    | close payload =>
      have hsessions : (arrived.onClose k).sessions k = s := by
        have hnodup : arrived.members.Nodup := hr.nodup
        rw [onClose_other hnodup, toldFarewell_self]
        exact hself
      have hfill : Outbox.Filled [] s.outbox (t.mail k) := by
        rw [ht, react, mail, hsessions]
        exact Outbox.Filled.refl s.outbox
      exact mail_filled horderly hs hne (toldFarewell_self k r) hfill
    | pong payload =>
      have hfill := (launchTimer_fed (k := k) .sendPing arrived).filled
      rw [hself] at hfill
      rw [ht]
      exact mail_filled horderly hs hne rfl hfill
    | timer =>
      have hfill := onTimer_filled k arrived
      rw [mail, hself] at hfill
      rw [ht]
      exact mail_filled horderly hs hne rfl hfill
    | _ =>
      have hfill : Outbox.Filled [] s.outbox (t.mail k) := by
        rw [ht, react, mail, hself]
        exact Outbox.Filled.refl s.outbox
      exact mail_filled horderly hs hne rfl hfill

end Own

/-- Each event puts its text out to session `k`, and nothing else. -/
theorem step_mail {e : Event} (hr : r.Sound) (hfresh : r.Fresh) (horderly : (r.mail k).Orderly)
    (hclosed : (r.sessions k).accepted = false → (r.mail k).carried = [])
    (hcount : r.messages.length + 1 < 2 ^ 32 - 1) (hopen : StaysOpen k e)
    (hcalm : r.Calm overflow k e) (hname : r.Introduces e)
    (h : (system overflow readMessageMax).step r e = some t) :
    (t.mail k).Orderly ∧
      (t.mail k).carried = (r.mail k).carried ++ (r.put overflow k e).toList := by
  cases e with
  | upgrade =>
    cases step_upgrade h
    have hput : r.put overflow k .upgrade = none := rfl
    rw [hput, Option.toList_none, List.append_nil]
    have hfill : Outbox.Filled [] (r.mail k)
        ((({ r with created := r.created + 1 } : Room).call r.created .doAccept).mail k) := by
      by_cases hk : k = r.created
      · rw [← hk, mail, mail, call_self]
        exact (Server.call_fed callbacks (r.sessions k) (c := .doAccept) (by simp)).filled
      · rw [mail, mail, call_other hk]
        exact Outbox.Filled.refl _
    exact hfill.orderly horderly
  | disconnect i =>
    cases step_disconnect h
    exact ⟨horderly, (List.append_nil _).symm⟩
  | session i e =>
    by_cases hk : k = i
    · subst hk
      exact mail_own hr (hfresh.accepts k) horderly hclosed hcount hopen hcalm hname h
    · exact mail_other hr hk horderly hcalm h

/-! ## What is stored is put out -/

section Told
variable {c : Option Callback} {text : Bytes}

/-- What a callback stores, it tells each member whose socket is open. -/
theorem told_of_stores (overflow : ℤ → ℤ) (hmem : k ∈ r.members) (hopen : r.isOpen k = true)
    (hclose : i = k → ∀ payload, c ≠ some (.close payload))
    (hcount : r.messages.length + 1 < 2 ^ 32 - 1) (hstores : r.stores overflow i c ≠ []) :
    r.told overflow k i c ≠ none := by
  have hothers : k ≠ i → k ∈ r.others i := by
    intro hk
    simp [others, hmem, hopen, hk]
  cases c with
  | none => exact absurd rfl hstores
  | some c =>
    cases c with
    | message input =>
      rw [stores] at hstores
      rw [told]
      split_ifs at hstores ⊢ with htake
      · rw [Ne, toldName_eq_none_iff]
        intro hnone
        exact hnone hcount hmem
      · have hvalid : (Parser.advance overflow input .success).valid = true := by
          by_contra hinvalid
          rw [Advance.accepted, if_neg hinvalid] at hstores
          exact hstores rfl
        by_cases hk : k = i
        · simp [toldFrame, hvalid, hk]
        · simp [toldFrame, hvalid, hothers hk]
    | close payload =>
      have hk : k ≠ i := fun hk => hclose hk.symm payload rfl
      have hleaves : r.leaves i ≠ [] := hstores
      simp [told, toldFarewell, hleaves, hothers hk]
    | _ => exact absurd rfl hstores

theorem frame_reads (overflow : ℤ → ℤ) {m : Message} (hread : m.Readable)
    (hlt : m.payload.length < 2 ^ 31) :
    (Parser.advance overflow (frame [m]) .success).valid = true ∧
      obtained overflow (frame [m]) = [m] := by
  have hobtained := obtained_frame overflow hread hlt
  refine ⟨?_, hobtained⟩
  by_contra hinvalid
  rw [obtained, Advance.accepted, if_neg hinvalid] at hobtained
  cases hobtained

/-- A text that a session is told reads as what has been stored. -/
theorem told_reads (hread : ∀ m ∈ r.stores overflow i c, m.Readable)
    (hlt : ∀ m ∈ r.stores overflow i c, m.payload.length < 2 ^ 31)
    (h : r.told overflow k i c = some text) :
    (Parser.advance overflow text .success).valid = true ∧
      obtained overflow text = r.stores overflow i c := by
  cases c with
  | none => cases h
  | some c =>
    cases c with
    | message input =>
      rw [told] at h
      rw [stores] at hread hlt ⊢
      split_ifs at h hread hlt ⊢ with htake
      · rw [toldName_eq h]
        exact frame_reads overflow (hread _ List.mem_cons_self) (hlt _ List.mem_cons_self)
      · obtain ⟨⟨hvalid, _⟩, heq⟩ := Option.ite_none_right_eq_some.mp h
        cases heq
        exact ⟨hvalid, rfl⟩
    | close payload =>
      obtain ⟨⟨hleaves, _⟩, heq⟩ := Option.ite_none_right_eq_some.mp h
      cases heq
      rw [stores] at hread hlt ⊢
      rcases onClose_cases i r with ⟨hnone, _⟩ | ⟨nickname, hone, _⟩
      · exact absurd hnone hleaves
      · rw [hone] at hread hlt ⊢
        exact frame_reads overflow (hread _ List.mem_cons_self) (hlt _ List.mem_cons_self)
    | _ => cases h

end Told

/-! ## What the handlers share -/

/-- A callback that throws has done nothing. -/
theorem react_thrown {c : Option Callback} (hrunning : r.thrown = false)
    (hcount : r.messages.length + 1 < 2 ^ 32 - 1) (h : (r.react overflow i c).thrown = true) :
    r.react overflow i c = r.throw ∧ introduction i c = none := by
  cases c with
  | none => simp [react, hrunning] at h
  | some c =>
    cases c with
    | message input =>
      have hthrown : (r.onMessage overflow i input).thrown = true := by
        rw [react] at h
        split_ifs at h with hthrown
        · exact h
        · exact absurd h hthrown
      have hreact : r.react overflow i (some (.message input)) = r.onMessage overflow i input := by
        simp only [react, hthrown, if_true]
      rw [hreact]
      rw [onMessage] at hthrown ⊢
      split_ifs at hthrown ⊢ with htake
      · have hwritten : Serializer.advance (r.messages ++ [entry (input.drop 11)]) [] =
            .ok (frame (r.messages ++ [entry (input.drop 11)]),
              (frame (r.messages ++ [entry (input.drop 11)])).length) := by
          rw [Serializer.advance_eq [] (by simpa using hcount), List.nil_append]
        rw [join_thrown hwritten, hrunning] at hthrown
        cases hthrown
      · have hnone : introduction i (some (.message input)) = none := if_neg htake
        rcases receive_cases overflow i input r with hvalid | ⟨_, heq | heq⟩
        · rw [receive_thrown hvalid, hrunning] at hthrown
          cases hthrown
        · exact ⟨heq, hnone⟩
        · rw [heq] at hthrown
          exact absurd (hrunning.symm.trans hthrown) (by simp)
    | close payload =>
      refine ⟨?_, rfl⟩
      rcases onClose_cases i r with ⟨_, heq | heq⟩ | ⟨nickname, _, heq⟩
      · rw [react, heq, hrunning] at h
        cases h
      · exact heq
      · have hshared := congrArg thrown (broadcast_shared (frame [farewell nickname]) (r.others i)
          (r.store [farewell nickname]))
        rw [react, heq] at h
        exact absurd (hrunning.symm.trans (hshared.symm.trans h)) (by simp)
    | timer =>
      have hshared := congrArg thrown (onTimer_shared i r)
      exact absurd (hrunning.symm.trans (hshared.symm.trans h)) (by simp)
    | _ => exact absurd (hrunning.symm.trans h) (by simp)

theorem enrol_store (b : Option SessionBox) (new : List Message) (r : Room) :
    ((r.store new).enrol b).clients = (r.enrol b).clients ∧
      ((r.store new).enrol b).isOpen = r.isOpen := by
  cases b with
  | none => exact ⟨rfl, rfl⟩
  | some c =>
    have hmembers : (r.store new).members = r.members := rfl
    rw [enrol, enrol, insert, insert, hmembers]
    split_ifs <;> exact ⟨rfl, rfl⟩

/-- The session whose client gives its name is inserted, and no socket is opened or closed. -/
theorem step_shares {e : Server.Event} (hcount : r.messages.length + 1 < 2 ^ 32 - 1)
    (h : (system overflow readMessageMax).step r (.session i e) = some t) :
    t.clients = (r.enrol (introduction i ((r.sessions i).callback callbacks e))).clients ∧
      t.isOpen = r.isOpen := by
  have hrunning := running_of_step h
  cases hthrown : t.thrown with
  | false =>
    have hshared := step_shared hthrown h
    obtain ⟨hclients, hopen⟩ := enrol_store
      (introduction i ((r.sessions i).callback callbacks e)) (r.stored overflow (.session i e)) r
    exact ⟨(congrArg clients hshared).trans hclients, (congrArg isOpen hshared).trans hopen⟩
  | true =>
    obtain ⟨_, s, _, rfl⟩ := step_session h
    obtain ⟨hreact, hnone⟩ :=
      react_thrown (r := { r with sessions := Function.update r.sessions i s }) hrunning hcount
        hthrown
    rw [hreact, hnone]
    exact ⟨rfl, rfl⟩

end Room
end BeastWebsocket.Chat
