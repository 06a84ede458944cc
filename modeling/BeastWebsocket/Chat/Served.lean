import BeastWebsocket.Chat.Script

/-! # What a client is sent over a run

A client that joins is sent the messages that are stored with the greeting, and each message that
is stored later with the frames behind it.
-/
namespace BeastWebsocket.Chat
open Channel Transition

/-- The texts of a session: the question, the greeting with the messages that are known when the
client joins, and the frames from which it obtains the rest. -/
def Script (overflow : ℤ → ℤ) (name : Bytes) (messages : List Message) (texts : List Bytes) :
    Prop :=
  ∃ known frames, texts = question :: greeting name known :: frames ∧ known ≠ [] ∧
    (∀ f ∈ frames, (Parser.advance overflow f .success).valid = true) ∧
    known ++ frames.flatMap (obtained overflow) = messages

theorem Script.add {overflow : ℤ → ℤ} {name text : Bytes} {messages : List Message}
    {texts : List Bytes} (h : Script overflow name messages texts)
    (hvalid : (Parser.advance overflow text .success).valid = true) :
    Script overflow name (messages ++ obtained overflow text) (texts ++ [text]) := by
  obtain ⟨known, frames, rfl, hne, hframes, rfl⟩ := h
  refine ⟨known, frames ++ [text], rfl, hne, ?_, ?_⟩
  · rw [List.forall_mem_append]
    exact ⟨hframes, by simpa using hvalid⟩
  · rw [List.flatMap_append, List.flatMap_singleton, List.append_assoc]

namespace Room
variable {overflow : ℤ → ℤ} {readMessageMax : ℕ} {k i : ℕ} {r t : Room}

/-- The writes of session `k` succeed, its socket stays open, and its client sends no close
frame. -/
def Remains (k : ℕ) : Event → Prop
  | .disconnect i => i ≠ k
  | .session i (.writeDone _ ec) => i = k → ec = .success
  | .session i (.control kind _) => i = k → kind ≠ .close
  | _ => True

instance (k : ℕ) (e : Event) : Decidable (Remains k e) :=
  match e with
  | .disconnect i => inferInstanceAs (Decidable (i ≠ k))
  | .session i (.writeDone _ ec) => inferInstanceAs (Decidable (i = k → ec = .success))
  | .session i (.control kind _) => inferInstanceAs (Decidable (i = k → kind ≠ .close))
  | .upgrade | .session _ (.acceptDone _) | .session _ (.readDone _ _ _)
  | .session _ (.pingDone _) | .session _ (.pongDone _) | .session _ (.closeDone _)
  | .session _ (.waitDone _ _) | .session _ (.call _) | .session _ .resume | .session _ (.tick _)
  | .session _ .expire => isTrue trivial

theorem Remains.staysOpen {e : Event} (h : Remains k e) : StaysOpen k e := by
  cases e with
  | session i e =>
    cases e with
    | writeDone j ec => exact h
    | _ => trivial
  | _ => trivial

theorem Remains.callback {e : Server.Event} (h : Remains k (.session i e)) (hi : i = k)
    (s : Server) (payload : Bytes) : s.callback callbacks e ≠ some (.close payload) := by
  cases e with
  | control kind other =>
    rw [Server.callback]
    split_ifs
    · cases kind with
      | ping => simp [Callbacks.control, callbacks]
      | pong => simp [Callbacks.control, callbacks]
      | close => exact absurd rfl (h hi)
    · simp
  | acceptDone ec | readDone ec chunk text | waitDone j ec =>
    rw [Server.callback]
    split_ifs <;> simp
  | _ => simp [Server.callback]

/-! ## Accepting -/

/-- Session `k` accepts with success. -/
def accepting (k : ℕ) : Event → Bool
  | .session i e => decide (i = k) && e.opens
  | _ => false

theorem stable_accepted (r : Room) :
    Stable (fun c => c ≠ .doAccept) fun s => ∀ k, (s k).accepted = (r.sessions k).accepted := by
  apply Stable.each (R := fun k s => s.accepted = (r.sessions k).accepted)
  · simp
  · simp
  · intro k s c _ hs
    rw [Server.call_accepted, hs]
  · intro k s u hu hs
    rw [Server.resume_accepted hu, hs]

theorem step_accepted {e : Event} (h : (system overflow readMessageMax).step r e = some t) :
    (t.sessions k).accepted = ((r.sessions k).accepted || accepting k e) := by
  cases e with
  | upgrade =>
    cases step_upgrade h
    have hnot : accepting k .upgrade = false := rfl
    rw [hnot, Bool.or_false]
    by_cases hk : k = r.created
    · rw [hk, call_self, Server.call_accepted]
    · rw [call_other hk]
  | disconnect i =>
    cases step_disconnect h
    exact (Bool.or_false _).symm
  | session i e =>
    obtain ⟨_, s, hs, rfl⟩ := step_session h
    have hreact := (stable_accepted { r with sessions := Function.update r.sessions i s }).react
      (by simp) (by simp) (by simp)
      (fun b (_ : Appends overflow i _ ((r.sessions i).callback callbacks e) b) => by simp)
      (fun k => rfl) k
    rw [hreact, accepting]
    by_cases hk : k = i
    · subst hk
      simp [Server.step_accepted hs]
    · simp [Function.update_of_ne hk, Ne.symm hk]

theorem opens_iff (s : Server) (e : Server.Event) :
    e.opens = true ↔ s.callback callbacks e = some .accept := by
  constructor
  · intro h
    cases e with
    | acceptDone ec =>
      have hec : ec.failed = false := by simpa [Server.Event.opens] using h
      simp [Server.callback, hec, callbacks]
    | _ => cases h
  · intro h
    rw [Server.callback_accept h]
    rfl

/-! ## One event -/

/-- Session `k` is sent nothing before it accepts, then the question, and once its client has
joined what is stored. -/
structure Served (overflow : ℤ → ℤ) (k : ℕ) (r : Room) : Prop where
  orderly : (r.mail k).Orderly
  handed : handedPayloads (r.sessions k).log = (r.mail k).carried
  isOpen : r.isOpen k = true
  opening : first k r.clients = none →
    (r.mail k).carried = if (r.sessions k).accepted then [question] else []
  serving : ∀ c, first k r.clients = some c →
    Script overflow c.nickname r.messages (r.mail k).carried

theorem served_initial : Served overflow k {} where
  orderly := Or.inl ⟨rfl, rfl⟩
  handed := rfl
  isOpen := rfl
  opening := fun _ => rfl
  serving := by simp [first]

theorem member_iff : k ∈ r.members ↔ ∃ c, first k r.clients = some c := by
  rw [← Option.ne_none_iff_exists', Ne, first_eq_none_iff, not_not]
  rfl

theorem step_isOpen {e : Event} (hopen : r.isOpen k = true) (hremains : Remains k e)
    (hcount : r.messages.length + 1 < 2 ^ 32 - 1)
    (h : (system overflow readMessageMax).step r e = some t) : t.isOpen k = true := by
  cases e with
  | upgrade =>
    cases step_upgrade h
    exact hopen
  | disconnect i =>
    cases step_disconnect h
    exact (Function.update_of_ne (Ne.symm hremains) _ _).trans hopen
  | session i e =>
    rw [(step_shares hcount h).2]
    exact hopen

theorem step_names {e : Event} (hcount : r.messages.length + 1 < 2 ^ 32 - 1)
    (h : (system overflow readMessageMax).step r e = some t) :
    first k t.clients = (first k r.clients).or (first k (r.introduced e)) := by
  cases e with
  | upgrade =>
    cases step_upgrade h
    exact (Option.or_none).symm
  | disconnect i =>
    cases step_disconnect h
    exact (Option.or_none).symm
  | session i e =>
    rw [(step_shares hcount h).1]
    exact enrol_first _ _

/-- A session whose client has not joined is told nothing. -/
theorem put_stranger {e : Server.Event} (hk : k ≠ i) (hmem : k ∉ r.members) :
    r.put overflow k (.session i e) = none := by
  rw [put, puts_other hk]
  cases htold : r.told overflow k i ((r.sessions i).callback callbacks e) with
  | none => rfl
  | some text => exact absurd (member_of_told hk htold) hmem

theorem first_introduced {e : Server.Event} (hk : k ≠ i) :
    first k (r.introduced (.session i e)) = none := by
  rw [introduced, introduction.eq_def]
  split
  · split_ifs
    · simp [first, Ne.symm hk]
    · rfl
  · rfl

section Step
variable {e : Event}

/-- What one event leaves of the parts of `Served` that do not depend on who has joined. -/
theorem Served.kept (hs : r.Served overflow k) (hcount : r.messages.length + 1 < 2 ^ 32 - 1)
    (hremains : Remains k e) (horderly : (t.mail k).Orderly)
    (h : (system overflow readMessageMax).step r e = some t)
    (hopening : first k t.clients = none →
      (t.mail k).carried = if (t.sessions k).accepted then [question] else [])
    (hserving : ∀ c, first k t.clients = some c →
      Script overflow c.nickname t.messages (t.mail k).carried) : t.Served overflow k where
  orderly := horderly
  handed := by
    obtain ⟨new, hhanded, hcarried⟩ := step_posts hs.orderly.single hremains.staysOpen h
    have hmail : (t.mail k).carried = (r.mail k).carried ++ new := hcarried
    rw [hhanded, hmail, hs.handed]
  isOpen := step_isOpen hs.isOpen hremains hcount h
  opening := hopening
  serving := hserving

/-- While its client has not joined, an event puts nothing out to session `k`, or it accepts, or
the client joins. -/
theorem stranger_cases (hr : r.Sound) (hfresh : r.Fresh) (hmem : k ∉ r.members)
    (hname : r.Introduces e) (h : (system overflow readMessageMax).step r e = some t) :
    (r.put overflow k e = none ∧ first k (r.introduced e) = none ∧ accepting k e = false) ∨
    (r.put overflow k e = some question ∧ first k (r.introduced e) = none ∧
      accepting k e = true ∧ (r.sessions k).accepted = false) ∨
    ∃ name, r.put overflow k e = some (greeting name (r.messages ++ [entry name])) ∧
      first k (r.introduced e) = some ⟨k, name⟩ ∧ r.stored overflow e = [entry name] ∧
      (r.sessions k).accepted = true := by
  cases e with
  | upgrade => exact Or.inl ⟨rfl, rfl, rfl⟩
  | disconnect i => exact Or.inl ⟨rfl, rfl, rfl⟩
  | session i e =>
    by_cases hk : k = i
    · subst hk
      obtain ⟨hext, s, hs, _⟩ := step_session h
      have hopens := opens_iff (r.sessions k) e
      rw [put, introduced, stored, accepting]
      cases hcall : (r.sessions k).callback callbacks e with
      | none =>
        rw [hcall] at hopens
        exact Or.inl ⟨rfl, rfl, by simpa using hopens⟩
      | some c =>
        rw [hcall] at hopens
        cases c with
        | accept =>
          refine Or.inr (Or.inl ⟨if_pos rfl, rfl, by simpa using hopens, ?_⟩)
          exact (hfresh.accepts k).fresh hcall hs
        | message input =>
          have htake := (hname input hcall).mpr hmem
          refine Or.inr (Or.inr ⟨input.drop 11, if_pos ⟨rfl, htake⟩, ?_, if_pos htake,
            hr.accepted_of_message hs hcall⟩)
          rw [introduction, if_pos htake]
          simp [first]
        | close payload =>
          exact Or.inl ⟨toldFarewell_self k r, rfl, by simpa using hopens⟩
        | _ => exact Or.inl ⟨rfl, rfl, by simpa using hopens⟩
    · exact Or.inl ⟨put_stranger hk hmem, first_introduced hk, by simp [accepting, Ne.symm hk]⟩

/-- What is put out to a member is what it is told, and reads as what is stored. -/
theorem put_member (hr : r.Sound) (hfresh : r.Fresh) (hmem : k ∈ r.members)
    (hopen : r.isOpen k = true) (hremains : Remains k e) (hname : r.Introduces e)
    (hcount : r.messages.length + 1 < 2 ^ 32 - 1)
    (hread : ∀ m ∈ r.stored overflow e, m.Readable)
    (hlt : ∀ m ∈ r.stored overflow e, m.payload.length < 2 ^ 31)
    (h : (system overflow readMessageMax).step r e = some t) :
    (r.put overflow k e = none ∧ r.stored overflow e = []) ∨
      ∃ text, r.put overflow k e = some text ∧
        (Parser.advance overflow text .success).valid = true ∧
        obtained overflow text = r.stored overflow e := by
  cases e with
  | upgrade => exact Or.inl ⟨rfl, rfl⟩
  | disconnect i => exact Or.inl ⟨rfl, rfl⟩
  | session i e =>
    have htold : r.put overflow k (.session i e) =
        r.told overflow k i ((r.sessions i).callback callbacks e) := by
      by_cases hk : k = i
      · subst hk
        obtain ⟨_, s, hs, _⟩ := step_session h
        rw [put]
        cases hcall : (r.sessions k).callback callbacks e with
        | none => rfl
        | some c =>
          cases c with
          | accept =>
            have hnot := (hfresh.accepts k).fresh hcall hs
            rw [hr.accepted k hmem] at hnot
            cases hnot
          | message input =>
            have htake : ¬ input.take 11 = nameString :=
              fun htake => (hname input hcall).mp htake hmem
            exact if_neg fun hboth => htake hboth.2
          | _ => rfl
      · exact puts_other hk _
    rw [htold]
    have hstores := told_of_stores overflow hmem hopen
      (c := (r.sessions i).callback callbacks e)
      (fun hi payload => hremains.callback hi _ payload) hcount
    cases hcase : r.told overflow k i ((r.sessions i).callback callbacks e) with
    | none =>
      left
      refine ⟨rfl, ?_⟩
      by_contra hne
      exact hstores hne hcase
    | some text =>
      right
      exact ⟨text, rfl, told_reads hread hlt hcase⟩

theorem Served.step (hr : r.Sound) (hfresh : r.Fresh) (hs : r.Served overflow k)
    (hremains : Remains k e) (hcalm : r.Calm overflow k e) (hname : r.Introduces e)
    (hb : t.Bounded) (hread : t.Readable) (hcount : t.messages.length < 2 ^ 31)
    (h : (system overflow readMessageMax).step r e = some t) : t.Served overflow k := by
  have hmessages := step_messages h
  have hlength := congrArg List.length hmessages
  rw [List.length_append] at hlength
  have hshort : r.messages.length + 1 < 2 ^ 32 - 1 := by omega
  have hclosed : (r.sessions k).accepted = false → (r.mail k).carried = [] := by
    intro hacc
    have hnone : first k r.clients = none := by
      rw [first_eq_none_iff]
      intro hmem
      rw [hr.accepted k hmem] at hacc
      cases hacc
    rw [hs.opening hnone, hacc]
    rfl
  obtain ⟨horderly, hcarried⟩ := step_mail hr hfresh hs.orderly hclosed hshort hremains.staysOpen
    hcalm hname h
  have hfirst := step_names (k := k) hshort h
  have haccepted := step_accepted (k := k) h
  apply hs.kept hshort hremains horderly h
  · intro hnone
    rw [hfirst, Option.or_eq_none_iff] at hnone
    have hmem : k ∉ r.members := first_eq_none_iff.mp hnone.1
    have hbefore := hs.opening hnone.1
    rcases stranger_cases hr hfresh hmem hname h with
      ⟨hput, _, hacc⟩ | ⟨hput, _, hacc, hnew⟩ | ⟨name, _, hjoined, _⟩
    · rw [hcarried, haccepted, hput, hacc, hbefore]
      simp
    · rw [hcarried, haccepted, hput, hacc, hbefore, hnew]
      rfl
    · rw [hjoined] at hnone
      cases hnone.2
  · intro c hc
    rw [hfirst] at hc
    cases hbefore : first k r.clients with
    | none =>
      rw [hbefore, Option.none_or] at hc
      have hmem : k ∉ r.members := first_eq_none_iff.mp hbefore
      rcases stranger_cases hr hfresh hmem hname h with
        ⟨_, hnone, _⟩ | ⟨_, hnone, _⟩ | ⟨name, hput, hjoined, hstored, hacc⟩
      · rw [hnone] at hc
        cases hc
      · rw [hnone] at hc
        cases hc
      · rw [hjoined] at hc
        cases hc
        rw [hcarried, hput, hs.opening hbefore, hacc, hmessages, hstored]
        exact ⟨r.messages ++ [entry name], [], rfl, by simp, by simp, by simp⟩
    | some c' =>
      rw [hbefore, Option.some_or] at hc
      cases hc
      have hmem : k ∈ r.members := member_iff.mpr ⟨c, hbefore⟩
      have hnew : ∀ m ∈ r.stored overflow e, m ∈ t.messages := by
        intro m hm
        rw [hmessages]
        exact List.mem_append_right _ hm
      have hscript := hs.serving c hbefore
      rcases put_member hr hfresh hmem hs.isOpen hremains hname hshort
        (fun m hm => hread m (hnew m hm)) (fun m hm => hb.payloads m (hnew m hm)) h with
        ⟨hput, hstored⟩ | ⟨text, hput, hvalid, hobtained⟩
      · rw [hcarried, hput, hmessages, hstored]
        simpa using hscript
      · rw [hcarried, hput, hmessages, ← hobtained]
        exact hscript.add hvalid

end Step

end Room
end BeastWebsocket.Chat
