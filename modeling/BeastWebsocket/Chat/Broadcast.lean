import BeastWebsocket.Chat.History
import BeastWebsocket.Chat.Output

/-! # What is posted to a session

A client decodes one group of messages from each frame that it receives. It obtains what a handler
posts to it while the text finds its output quiet: what is appended while a write is in flight
goes out behind a text that has been sent already, or is dropped with it.
-/
namespace BeastWebsocket.Chat
open Channel Transition

/-- What a client obtains from a frame. -/
def obtained (overflow : ℤ → ℤ) (text : Bytes) : List Message :=
  (Parser.advance overflow text .success).accepted

theorem obtained_frame (overflow : ℤ → ℤ) {m : Message} (hread : m.Readable)
    (hlt : m.payload.length < 2 ^ 31) : obtained overflow (frame [m]) = [m] := by
  have hall : ∀ m' ∈ [m], m'.Readable := by simpa using hread
  have hshort : ∀ m' ∈ [m], m'.payload.length < 2 ^ 31 := by simpa using hlt
  have hadvance : Parser.advance overflow (frame [m] ++ []) .success =
      ⟨[m], .success, .ok (frame [m]).length⟩ :=
    Parser.advance_frame [] (by simp) (by simp) hall hshort
  rw [List.append_nil] at hadvance
  rw [obtained, hadvance]
  rfl

namespace Room
variable {overflow : ℤ → ℤ} {readMessageMax : ℕ} {k : ℕ} {r t : Room}

/-- The messages that the event broadcasts to session `k`, or echoes to it. -/
def posted (overflow : ℤ → ℤ) (k : ℕ) (r : Room) : Event → List Message
  | .session i e =>
    if (r.told overflow k i ((r.sessions i).callback callbacks e)).isSome then
      r.stored overflow (.session i e)
    else []
  | _ => []

/-- The writes of session `k` succeed. -/
def StaysOpen (k : ℕ) : Event → Prop
  | .session i (.writeDone _ ec) => i = k → ec = .success
  | _ => True

instance (k : ℕ) (e : Event) : Decidable (StaysOpen k e) :=
  match e with
  | .session i (.writeDone _ ec) => inferInstanceAs (Decidable (i = k → ec = .success))
  | .upgrade | .disconnect _ | .session _ (.acceptDone _) | .session _ (.readDone _ _ _)
  | .session _ (.pingDone _) | .session _ (.pongDone _) | .session _ (.closeDone _)
  | .session _ (.waitDone _ _) | .session _ (.control _ _) | .session _ (.call _)
  | .session _ .resume | .session _ (.tick _) | .session _ .expire => isTrue trivial

/-- What a callback of session `i` puts out to session `k` finds its output quiet; once it has
joined, session `k` does not give a name again, and no client joins with an empty name or leaves
with a colon in its name. -/
def Heeds (overflow : ℤ → ℤ) (k i : ℕ) (r : Room) : Option Callback → Prop
  | some .accept => i = k → (r.mail k).Quiet
  | some (.message input) =>
    if input.take 11 = nameString then
      (i = k ∨ k ∈ r.members → (r.mail k).Quiet) ∧ (k ∈ r.members → i ≠ k ∧ input.drop 11 ≠ [])
    else
      i = k ∨ (Parser.advance overflow input .success).valid = true ∧ k ∈ r.others i →
        (r.mail k).Quiet
  | some (.close _) => k ∈ r.others i → ∀ m ∈ r.leaves i, (r.mail k).Quiet ∧ colon ∉ m.nickname
  | _ => True

instance (overflow : ℤ → ℤ) (k i : ℕ) (r : Room) (c : Option Callback) :
    Decidable (r.Heeds overflow k i c) :=
  match c with
  | some .accept => inferInstanceAs (Decidable (i = k → (r.mail k).Quiet))
  | some (.message input) =>
    inferInstanceAs (Decidable (if input.take 11 = nameString then _ else _))
  | some (.close _) => inferInstanceAs (Decidable (k ∈ r.others i →
      ∀ m ∈ r.leaves i, (r.mail k).Quiet ∧ colon ∉ m.nickname))
  | some (.handshake _) | some (.ping _) | some (.pong _) | some .timer | none => isTrue trivial

def Delivers (overflow : ℤ → ℤ) (k : ℕ) (r : Room) : Event → Prop
  | .session i e => r.Heeds overflow k i ((r.sessions i).callback callbacks e)
  | _ => True

instance (overflow : ℤ → ℤ) (k : ℕ) (r : Room) (e : Event) : Decidable (r.Delivers overflow k e) :=
  match e with
  | .session i e =>
    inferInstanceAs (Decidable (r.Heeds overflow k i ((r.sessions i).callback callbacks e)))
  | .upgrade | .disconnect _ => isTrue trivial

/-! ## What a session is told -/

section Told
variable {i : ℕ} {e : Server.Event} {text : Bytes}

theorem toldName_eq {name : Bytes} (h : r.toldName k name = some text) :
    text = frame [entry name] := by
  rw [toldName] at h
  cases hwritten : Serializer.advance (r.messages ++ [entry name]) [] with
  | error ex =>
    rw [hwritten] at h
    cases h
  | ok written =>
    rw [hwritten] at h
    obtain ⟨_, h⟩ := Option.ite_none_right_eq_some.mp h
    exact (Option.some.inj h).symm

theorem told_own {input : Bytes} (hname : input.take 11 ≠ nameString) :
    r.told overflow k k (some (.message input)) =
      if (Parser.advance overflow input .success).valid then some input else none := by
  rw [told, if_neg hname, toldFrame]
  simp

theorem toldFarewell_self (k : ℕ) (r : Room) : r.toldFarewell k k = none := by
  rw [toldFarewell, if_neg]
  rintro ⟨_, hself⟩
  exact self_notMem_others k r hself

theorem posted_of_told {i : ℕ} {e : Server.Event}
    (h : r.told overflow k i ((r.sessions i).callback callbacks e) = none) :
    r.posted overflow k (.session i e) = [] := by
  rw [posted, h]
  rfl

theorem posted_of_told_some {i : ℕ} {e : Server.Event} {text : Bytes}
    (h : r.told overflow k i ((r.sessions i).callback callbacks e) = some text) :
    r.posted overflow k (.session i e) = r.stored overflow (.session i e) := by
  rw [posted, h]
  rfl

theorem Heeds.name {input : Bytes} (hd : r.Heeds overflow k i (some (.message input)))
    (hname : input.take 11 = nameString) (hmem : k ∈ r.members) (hlt : input.length < 2 ^ 31)
    (h : r.toldName k (input.drop 11) = some text) :
    (r.mail k).Quiet ∧ obtained overflow text = [entry (input.drop 11)] := by
  rw [Heeds, if_pos hname] at hd
  obtain ⟨hquiet, hnew⟩ := hd
  refine ⟨hquiet (Or.inr hmem), ?_⟩
  rw [toldName_eq h]
  apply obtained_frame overflow (entry_readable_iff.mpr (hnew hmem).2)
  simp only [entry, List.length_drop]
  omega

theorem Heeds.frame {input : Bytes} (hd : r.Heeds overflow k i (some (.message input)))
    (hname : input.take 11 ≠ nameString) (h : r.toldFrame overflow k i input = some text) :
    (r.mail k).Quiet ∧ text = input := by
  rw [Heeds, if_neg hname] at hd
  obtain ⟨⟨hvalid, hto⟩, heq⟩ := Option.ite_none_right_eq_some.mp h
  exact ⟨hd (hto.imp Eq.symm (And.intro hvalid)), (Option.some.inj heq).symm⟩

theorem Heeds.farewell {payload : Bytes} (hd : r.Heeds overflow k i (some (.close payload)))
    (h : r.toldFarewell k i = some text) :
    (r.mail k).Quiet ∧ obtained overflow text = r.leaves i := by
  obtain ⟨⟨hleaves, hother⟩, heq⟩ := Option.ite_none_right_eq_some.mp h
  cases heq
  rcases onClose_cases i r with ⟨hnone, _⟩ | ⟨nickname, hone, _⟩
  · exact absurd hnone hleaves
  · rw [Heeds, hone] at hd
    rw [hone]
    obtain ⟨hquiet, hcolon⟩ := hd hother (farewell nickname) List.mem_cons_self
    refine ⟨hquiet, ?_⟩
    apply obtained_frame overflow (farewell_readable_iff.mpr hcolon)
    change (bytes "is leaving").length < 2 ^ 31
    decide

/-- A text that a member is told finds its output quiet, and carries what has been stored. -/
theorem Delivers.told (hd : r.Delivers overflow k (.session i e)) (hmem : k ∈ r.members)
    (hinput : ∀ input, (r.sessions i).callback callbacks e = some (.message input) →
      input.length < 2 ^ 31)
    (h : r.told overflow k i ((r.sessions i).callback callbacks e) = some text) :
    (r.mail k).Quiet ∧ obtained overflow text = r.stored overflow (.session i e) := by
  rw [Delivers] at hd
  rw [stored]
  cases hcall : (r.sessions i).callback callbacks e with
  | none =>
    rw [hcall] at h
    cases h
  | some c =>
    rw [hcall] at h hd
    cases c with
    | message input =>
      rw [Room.told] at h
      rw [stores]
      by_cases hname : input.take 11 = nameString
      · rw [if_pos hname] at h ⊢
        exact hd.name hname hmem (hinput input hcall) h
      · rw [if_neg hname] at h ⊢
        obtain ⟨hquiet, rfl⟩ := hd.frame hname h
        exact ⟨hquiet, rfl⟩
    | close payload => exact hd.farewell h
    | _ => cases h

end Told

/-! ## One event -/

/-- Session `k` has been sent frames from which it obtains what was posted to it, and has at most
one frame on its way. -/
def Kept (overflow : ℤ → ℤ) (k : ℕ) (r : Room) (e : Event) (t : Room) : Prop :=
  (t.mail k).Orderly ∧ ∃ frames, (t.mail k).carried = (r.mail k).carried ++ frames ∧
    frames.flatMap (obtained overflow) = r.posted overflow k e

theorem Kept.same {e : Event} (horderly : (t.mail k).Orderly)
    (hcarried : (t.mail k).carried = (r.mail k).carried) (hposted : r.posted overflow k e = []) :
    Kept overflow k r e t :=
  ⟨horderly, [], by rw [hcarried, List.append_nil], hposted.symm⟩

/-- A handler of another session. -/
theorem Kept.other {i : ℕ} {e : Server.Event} {s : Server} (hr : r.Sound) (hmem : k ∈ r.members)
    (hk : k ≠ i) (hd : r.Delivers overflow k (.session i e))
    (hinput : ∀ input, (r.sessions i).callback callbacks e = some (.message input) →
      input.length < 2 ^ 31)
    (horderly : (r.mail k).Orderly)
    (ht : t = { r with sessions := Function.update r.sessions i s }.react overflow i
      ((r.sessions i).callback callbacks e)) :
    Kept overflow k r (.session i e) t := by
  have hsessions : t.sessions k =
      hear (r.sessions k) (r.told overflow k i ((r.sessions i).callback callbacks e)) := by
    have hreact := react_other (r := { r with sessions := Function.update r.sessions i s }) overflow
      hk hr.nodup ((r.sessions i).callback callbacks e)
    have hsame : Function.update r.sessions i s k = r.sessions k := Function.update_of_ne hk _ _
    simp only [hsame] at hreact
    rw [ht]
    exact hreact
  cases htold : r.told overflow k i ((r.sessions i).callback callbacks e) with
  | none =>
    rw [htold] at hsessions
    have hmail : t.mail k = r.mail k := congrArg (fun s : Server => s.outbox) hsessions
    exact Kept.same (hmail ▸ horderly) (by rw [hmail]) (posted_of_told htold)
  | some text =>
    rw [htold] at hsessions
    obtain ⟨hquiet, hobtained⟩ := hd.told hmem hinput htold
    have hmail : t.mail k = (tell text (r.sessions k)).outbox :=
      congrArg (fun s : Server => s.outbox) hsessions
    obtain ⟨hsent, hcarried⟩ := Server.call_posts callbacks text hquiet (hr.accepted k hmem)
    refine ⟨hmail ▸ hsent, [text], ?_, ?_⟩
    · rw [hmail]
      exact hcarried
    · rw [posted_of_told_some htold, ← hobtained, List.flatMap_singleton]

/-- An event of the session itself that calls no callback. -/
theorem Kept.silent {e : Server.Event} {s : Server} (horderly : (r.mail k).Orderly)
    (hext : External readMessageMax e) (hopen : StaysOpen k (.session k e))
    (hs : (Server.system callbacks).step (r.sessions k) e = some s)
    (hcall : (r.sessions k).callback callbacks e = none)
    (ht : t.sessions k = s) : Kept overflow k r (.session k e) t := by
  have hop : (Outbox.system Byte).perform (r.mail k) ((r.sessions k).outboxOp e) =
      some (t.mail k) := by
    rw [mail, mail, ht]
    exact Server.refines_outbox _ e s hs
  have hposted : r.posted overflow k (.session k e) = [] := by
    apply posted_of_told
    rw [hcall]
    rfl
  cases e with
  | writeDone j ec =>
    have hec : ec = .success := hopen rfl
    rw [Server.outboxOp, if_pos hec] at hop
    obtain ⟨hquiet, hcarried⟩ := horderly.finish hop
    exact Kept.same hquiet.orderly hcarried hposted
  | call c => exact absurd hext id
  | resume => exact absurd hext id
  | _ =>
    have hmail : r.mail k = t.mail k := Option.some.inj hop
    exact Kept.same (hmail ▸ horderly) (by rw [hmail]) hposted

section Own
variable {e : Server.Event} {s : Server} {u : Room}

theorem obtained_question : obtained overflow (bytes "What is your name?") = [] := rfl

theorem Kept.accept (hquiet : (r.mail k).Quiet)
    (hs : (Server.system callbacks).step (r.sessions k) e = some s)
    (hcall : (r.sessions k).callback callbacks e = some .accept) (hu : u.sessions k = s) :
    Kept overflow k r (.session k e) ((u.onAccept k).resume k) := by
  obtain ⟨hframe, hacc⟩ := Server.frame_of_accept hs hcall
  have hsame : s.outbox = r.mail k := Server.outbox_of_callback hs (by simp [hcall])
  have hfed := onAccept_fed k u
  rw [hu] at hfed
  obtain ⟨horderly, hcarried⟩ := posts_own hfed (hsame ▸ hquiet) (by simp [hframe]) hacc (by decide)
  refine ⟨horderly, [bytes "What is your name?"], by rw [hcarried, hsame], ?_⟩
  rw [posted_of_told (by rw [hcall]; rfl), List.flatMap_singleton]
  exact obtained_question

/-- A valid frame is echoed. -/
theorem Kept.echo {input : Bytes} (hr : r.Sound) (hquiet : (r.mail k).Quiet)
    (hs : (Server.system callbacks).step (r.sessions k) e = some s)
    (hcall : (r.sessions k).callback callbacks e = some (.message input))
    (hname : input.take 11 ≠ nameString) (hu : u.sessions k = s) (hnodup : u.members.Nodup)
    (hvalid : (Parser.advance overflow input .success).valid = true) :
    Kept overflow k r (.session k e) ((u.receive overflow k input).resume k) := by
  obtain ⟨hsame, hframe, hacc⟩ := hr.arrived hs hcall
  have hfed := receive_fed (k := k) hvalid hnodup
  rw [hu] at hfed
  obtain ⟨horderly, hcarried⟩ := posts_own hfed (hsame ▸ hquiet) hframe hacc
    (accepted_ne_nil hvalid)
  rw [hsame] at hcarried
  refine ⟨horderly, [input], hcarried, ?_⟩
  have htold : r.told overflow k k ((r.sessions k).callback callbacks e) = some input := by
    rw [hcall, told_own hname, if_pos hvalid]
  rw [posted_of_told_some htold, stored, hcall, stores, if_neg hname, List.flatMap_singleton]
  rfl

/-- A frame that is not valid is read past. -/
theorem Kept.ignore {input : Bytes} (hr : r.Sound) (hquiet : (r.mail k).Quiet)
    (hs : (Server.system callbacks).step (r.sessions k) e = some s)
    (hcall : (r.sessions k).callback callbacks e = some (.message input))
    (hposted : r.posted overflow k (.session k e) = []) (hu : u.sessions k = s) :
    Kept overflow k r (.session k e) (((u.call k .doRead).launchTimer k .sendPing).resume k) := by
  obtain ⟨hsame, hframe, _⟩ := hr.arrived hs hcall
  have hread := Server.call_fed callbacks s (c := .doRead) (by simp)
  have htimer := launchTimer_fed (k := k) .sendPing (u.call k .doRead)
  rw [call_self, hu] at htimer
  obtain ⟨horderly, hcarried⟩ := rests_own (hread.trans htimer) (hsame ▸ hquiet) hframe
  rw [hsame] at hcarried
  exact Kept.same horderly hcarried hposted

theorem Kept.frame {input : Bytes} (hr : r.Sound) (hquiet : (r.mail k).Quiet)
    (hs : (Server.system callbacks).step (r.sessions k) e = some s)
    (hcall : (r.sessions k).callback callbacks e = some (.message input))
    (hname : input.take 11 ≠ nameString) (hu : u.sessions k = s) (hnodup : u.members.Nodup)
    (hrunning : u.thrown = false) :
    Kept overflow k r (.session k e)
      (if (u.receive overflow k input).thrown then u.receive overflow k input
        else (u.receive overflow k input).resume k) := by
  rcases receive_cases overflow k input u with hvalid | ⟨hvalid, hrest⟩
  · rw [receive_thrown hvalid, hrunning]
    exact Kept.echo hr hquiet hs hcall hname hu hnodup hvalid
  · have hposted : r.posted overflow k (.session k e) = [] := by
      apply posted_of_told
      rw [hcall, told_own hname, hvalid]
      rfl
    rcases hrest with heq | heq
    · have hmail : u.throw.mail k = r.mail k := by
        rw [← (hr.arrived hs hcall).1, ← hu]
        rfl
      rw [heq]
      exact Kept.same (hmail ▸ hquiet.orderly) (by rw [← hmail]; rfl) hposted
    · have hthrown : ((u.call k .doRead).launchTimer k .sendPing).thrown = false := hrunning
      rw [heq, hthrown]
      exact Kept.ignore hr hquiet hs hcall hposted hu

/-- A callback that puts nothing into the output of its session. -/
theorem Kept.rest (horderly : (r.mail k).Orderly)
    (hs : (Server.system callbacks).step (r.sessions k) e = some s)
    (hcall : (r.sessions k).callback callbacks e ≠ none)
    (htold : r.told overflow k k ((r.sessions k).callback callbacks e) = none)
    (hfill : Outbox.Filled [] s.outbox (t.mail k)) : Kept overflow k r (.session k e) t := by
  have hsame : s.outbox = r.mail k := Server.outbox_of_callback hs hcall
  rw [hsame] at hfill
  obtain ⟨hrest, hcarried⟩ := hfill.orderly horderly
  exact Kept.same hrest hcarried (posted_of_told htold)

/-- A handler of the session itself. -/
theorem Kept.own (hr : r.Sound) (hmem : k ∈ r.members) (horderly : (r.mail k).Orderly)
    (hrunning : r.thrown = false) (hext : External readMessageMax e)
    (hopen : StaysOpen k (.session k e)) (hd : r.Delivers overflow k (.session k e))
    (hs : (Server.system callbacks).step (r.sessions k) e = some s)
    (ht : t = { r with sessions := Function.update r.sessions k s }.react overflow k
      ((r.sessions k).callback callbacks e)) :
    Kept overflow k r (.session k e) t := by
  set arrived : Room := { r with sessions := Function.update r.sessions k s }
  have hself : arrived.sessions k = s := Function.update_self k s r.sessions
  rw [Delivers] at hd
  rw [ht]
  cases hcall : (r.sessions k).callback callbacks e with
  | none => exact Kept.silent horderly hext hopen hs hcall hself
  | some c =>
    rw [hcall] at hd
    have hne : (r.sessions k).callback callbacks e ≠ none := by simp [hcall]
    cases c with
    | accept => exact Kept.accept (hd rfl) hs hcall hself
    | message input =>
      by_cases hname : input.take 11 = nameString
      · rw [Heeds, if_pos hname] at hd
        exact absurd rfl (hd.2 hmem).1
      · have hquiet : (r.mail k).Quiet := by
          rw [Heeds, if_neg hname] at hd
          exact hd (Or.inl rfl)
        rw [react, onMessage, if_neg hname]
        exact Kept.frame hr hquiet hs hcall hname hself hr.nodup hrunning
    | close payload =>
      have hsessions : (arrived.onClose k).sessions k = s := by
        have hnodup : arrived.members.Nodup := hr.nodup
        rw [onClose_other hnodup, toldFarewell_self]
        exact hself
      apply Kept.rest horderly hs hne
      · rw [hcall]
        exact toldFarewell_self k r
      · rw [react, mail, hsessions]
        exact Outbox.Filled.refl s.outbox
    | pong payload =>
      apply Kept.rest horderly hs hne
      · rw [hcall]
        rfl
      · have htimer := launchTimer_fed (k := k) .sendPing arrived
        rw [hself] at htimer
        exact htimer.filled
    | timer =>
      apply Kept.rest horderly hs hne
      · rw [hcall]
        rfl
      · have htimer := onTimer_filled k arrived
        rw [mail, hself] at htimer
        exact htimer
    | _ =>
      apply Kept.rest horderly hs hne
      · rw [hcall]
        rfl
      · rw [react, mail, hself]
        exact Outbox.Filled.refl s.outbox

end Own

/-- Each event keeps what session `k`, which has joined, is sent in line with what is posted. -/
theorem Kept.step {e : Event} (hmax : readMessageMax < 2 ^ 31) (hr : r.Sound) (hb : r.Bounded)
    (hmem : k ∈ r.members) (horderly : (r.mail k).Orderly) (hopen : StaysOpen k e)
    (hd : r.Delivers overflow k e) (h : (system overflow readMessageMax).step r e = some t) :
    Kept overflow k r e t := by
  have hrunning := running_of_step h
  cases e with
  | upgrade =>
    cases step_upgrade h
    have hfill : Outbox.Filled [] (r.mail k)
        ((({ r with created := r.created + 1 } : Room).call r.created .doAccept).mail k) := by
      by_cases hk : k = r.created
      · have hfed := Server.call_fed callbacks (r.sessions k) (c := .doAccept) (by simp)
        rw [← hk, mail, mail, call_self]
        exact hfed.filled
      · rw [mail, mail, call_other hk]
        exact Outbox.Filled.refl _
    obtain ⟨hrest, hcarried⟩ := hfill.orderly horderly
    exact Kept.same hrest hcarried rfl
  | disconnect i =>
    cases step_disconnect h
    exact Kept.same horderly rfl rfl
  | session i e =>
    obtain ⟨hext, s, hs, ht⟩ := step_session h
    by_cases hk : k = i
    · subst hk
      exact Kept.own hr hmem horderly hrunning hext hopen hd hs ht
    · apply Kept.other hr hmem hk hd _ horderly ht
      intro input hcall
      exact Nat.lt_of_le_of_lt (hb.input_le hext hs hcall) hmax

end Room
end BeastWebsocket.Chat
