import BeastWebsocket.Chat.Broadcast
import BeastWebsocket.Transition.Trace

/-! # End-to-end delivery

A client that joins is sent a greeting. From the frames behind it the client obtains each message
that is posted to it once and in order while every text finds its output quiet.
-/
namespace BeastWebsocket.Chat
open Channel Transition

namespace Room
variable {overflow : ℤ → ℤ} {readMessageMax : ℕ} {k : ℕ} {r t : Room}

/-! ## The greeting -/

/-- What the client is sent when it joins: the greeting with its name, then all messages. -/
def Greeting (r s : Room) (hello : Bytes) : Prop :=
  ∃ name text n, s.messages = r.messages ++ [entry name] ∧
    Serializer.advance s.messages [] = .ok (text, n) ∧ hello = bytes "Hello " ++ name ++ text

/-- A session gets into the room by giving a name. -/
theorem joins_by_name {e : Event} (hnew : k ∉ r.members) (hmem : k ∈ t.members)
    (h : (system overflow readMessageMax).step r e = some t) :
    ∃ e' input, e = .session k e' ∧ input.take 11 = nameString ∧
      (r.sessions k).callback callbacks e' = some (.message input) := by
  rcases step_members h with hsame | ⟨i, e, input, rfl, hcall, hname, _, hadded⟩
  · rw [hsame] at hmem
    exact absurd hmem hnew
  · rw [hadded] at hmem
    rcases List.mem_append.mp hmem with hold | hone
    · exact absurd hold hnew
    · cases List.mem_singleton.mp hone
      exact ⟨e, input, rfl, hname, hcall⟩

/-- A client that joins while its output is quiet is sent the greeting as one frame. -/
theorem greeted_of_join {e : Event} (hr : r.Sound) (hnew : k ∉ r.members) (hmem : k ∈ t.members)
    (hd : r.Delivers overflow k e) (h : (system overflow readMessageMax).step r e = some t) :
    (t.mail k).Orderly ∧ ∃ hello, Greeting r t hello ∧
      (t.mail k).carried = (r.mail k).carried ++ [hello] := by
  obtain ⟨e, input, rfl, hname, hcall⟩ := joins_by_name hnew hmem h
  have hmessages := step_messages h
  have hrunning := running_of_step h
  have hquiet : (r.mail k).Quiet := by
    rw [Delivers, hcall, Heeds, if_pos hname] at hd
    exact hd.1 (Or.inl rfl)
  obtain ⟨_, s, hs, ht⟩ := step_session h
  set arrived : Room := { r with sessions := Function.update r.sessions k s }
  have hself : arrived.sessions k = s := Function.update_self k s r.sessions
  rw [stored, hcall, stores, if_pos hname] at hmessages
  rw [hcall, react, onMessage, if_pos hname] at ht
  cases hwritten : Serializer.advance (r.messages ++ [entry (input.drop 11)]) [] with
  | error ex =>
    have hthrows := join_throws (r := arrived) k hwritten
    rw [hthrows] at ht
    rw [ht] at hmem
    exact absurd hmem hnew
  | ok written =>
    have hthrown : (arrived.join k (input.drop 11)).thrown = false :=
      (join_thrown (u := arrived) (k := k) hwritten).trans hrunning
    have hfed := join_fed (u := arrived) (k := k) hwritten hr.nodup hnew
    obtain ⟨hsame, hframe, hacc⟩ := hr.arrived hs hcall
    rw [hself] at hfed
    obtain ⟨horderly, hcarried⟩ := posts_own hfed (hsame ▸ hquiet) hframe hacc
      (List.append_ne_nil_of_left_ne_nil (List.append_ne_nil_of_left_ne_nil (by decide) _) _)
    simp only [hthrown, Bool.false_eq_true, if_false] at ht
    have hwhole : Serializer.advance t.messages [] = .ok (written.1, written.2) := by
      rw [hmessages, hwritten]
    rw [ht, ← hsame]
    exact ⟨horderly, _, ⟨input.drop 11, written.1, written.2, ht ▸ hmessages, ht ▸ hwhole, rfl⟩,
      hcarried⟩

/-! ## A run -/

theorem member_stays {e : Event} (hmem : k ∈ r.members)
    (h : (system overflow readMessageMax).step r e = some t) : k ∈ t.members := by
  rcases step_members h with hsame | ⟨i, _, _, _, _, _, _, hadded⟩
  · rw [hsame]
    exact hmem
  · rw [hadded]
    exact List.mem_append_left [i] hmem

/-- Since `s` the client of session `k` has been sent what has been posted to it. -/
structure Delivered (overflow : ℤ → ℤ) (k : ℕ) (s : Room) (p : Room × List Message) : Prop where
  sound : p.1.Sound
  bounded : p.1.Bounded
  member : k ∈ p.1.members
  orderly : (p.1.mail k).Orderly
  frames : ∃ frames, (p.1.mail k).carried = (s.mail k).carried ++ frames ∧
    frames.flatMap (obtained overflow) = p.2

theorem Delivered.step (hmax : readMessageMax < 2 ^ 31) {s : Room} (p : Room × List Message)
    (e : Event) (q : Room × List Message) (hp : Delivered overflow k s p)
    (hgood : StaysOpen k e ∧ p.1.Delivers overflow k e)
    (h : ((system overflow readMessageMax).traced (posted overflow k)).step p e = some q) :
    Delivered overflow k s q := by
  obtain ⟨hstep, hlist⟩ := System.traced_step.mp h
  obtain ⟨horderly, new, hnew, hobtained⟩ := Kept.step hmax hp.sound hp.bounded hp.member
    hp.orderly hgood.1 hgood.2 hstep
  obtain ⟨frames, hframes, hposted⟩ := hp.frames
  refine ⟨hp.sound.step _ e _ hstep, hp.bounded.step hmax _ e _ hstep,
    member_stays hp.member hstep, horderly, frames ++ new, ?_, ?_⟩
  · rw [hnew, hframes, List.append_assoc]
  · rw [List.flatMap_append, hposted, hobtained, hlist]

end Room

/-- Once it has joined, a client is sent its greeting and then frames from which it obtains all
that is posted to it, each message once, and at most one of them is on its way. -/
theorem obtained_eq_posted (overflow : ℤ → ℤ) (readMessageMax : ℕ) (hmax : readMessageMax < 2 ^ 31)
    (k : ℕ) (es fs : List Room.Event) (e : Room.Event) {r s t : Room} {posted : List Message}
    (hrun : (Room.system overflow readMessageMax).run {} es = some r)
    (hjoin : (Room.system overflow readMessageMax).step r e = some s)
    (hnew : k ∉ r.members) (hmem : k ∈ s.members)
    (hgood : (Room.system overflow readMessageMax).Along
      (fun u e => Room.StaysOpen k e ∧ u.Delivers overflow k e) r (e :: fs))
    (htrace : ((Room.system overflow readMessageMax).traced (Room.posted overflow k)).run
      (s, []) fs = some (t, posted)) :
    ∃ hello frames, Room.Greeting r s hello ∧
      (t.mail k).sent ++ (t.mail k).flight =
        (r.mail k).sent ++ (r.mail k).flight ++ hello :: frames ∧
      (t.mail k).flight.length ≤ 1 ∧ frames.flatMap (obtained overflow) = posted := by
  have hsound : r.Sound := System.run_inductive Room.Sound.step Room.sound_initial hrun
  have hbounded : r.Bounded :=
    System.run_inductive (Room.Bounded.step hmax) Room.bounded_initial hrun
  obtain ⟨⟨hopen, hdelivers⟩, hrest⟩ := hgood s hjoin
  obtain ⟨horderly, hello, hgreeting, hcarried⟩ :=
    Room.greeted_of_join hsound hnew hmem hdelivers hjoin
  have hstart : Room.Delivered overflow k s (s, []) := {
    sound := hsound.step _ e _ hjoin
    bounded := hbounded.step hmax _ e _ hjoin
    member := hmem
    orderly := horderly
    frames := ⟨[], (List.append_nil _).symm, rfl⟩ }
  have hgoods : ((Room.system overflow readMessageMax).traced (Room.posted overflow k)).Along
      (fun p e => Room.StaysOpen k e ∧ p.1.Delivers overflow k e) (s, []) fs :=
    System.Along.traced (P := fun u e => Room.StaysOpen k e ∧ Room.Delivers overflow k u e) hrest
  have hend : Room.Delivered overflow k s (t, posted) :=
    System.run_invariant (Room.Delivered.step hmax) hstart hgoods htrace
  obtain ⟨frames, hframes, hposted⟩ := hend.frames
  refine ⟨hello, frames, hgreeting, ?_, hend.orderly.single, hposted⟩
  change (t.mail k).carried = _
  rw [hframes, hcarried, List.append_assoc]
  rfl

/-- A connection is upgraded and accepted, and its client is asked for its name. -/
def Room.asked (i : ℕ) : List Room.Event :=
  [.upgrade, .session i (.acceptDone .success), .session i (.writeDone 0 .success)]

def Room.named (i : ℕ) (name : Bytes) : Room.Event :=
  .session i (.readDone .success (nameString ++ name) true)

def Room.written (i : ℕ) : Room.Event := .session i (.writeDone 0 .success)

/-- The client `a` joins and receives what it is sent when `b` joins. -/
theorem obtained_eq_posted_two : ∃ r s t hello frames,
    (Room.system id 16777216).run {} (Room.asked 0) = some r ∧
    Room.Greeting r s hello ∧
    (Room.mail 0 t).sent ++ (Room.mail 0 t).flight =
      (Room.mail 0 r).sent ++ (Room.mail 0 r).flight ++ hello :: frames ∧
    (Room.mail 0 t).flight.length ≤ 1 ∧
    frames.flatMap (obtained id) = [Room.entry [98]] := by
  obtain ⟨hello, frames, h⟩ := obtained_eq_posted id 16777216 (by decide) 0 (Room.asked 0)
    (Room.written 0 :: Room.asked 1 ++ [Room.named 1 [98], Room.written 0]) (Room.named 0 [97])
    rfl rfl (by decide) (by decide) (by decide) rfl
  exact ⟨_, _, _, hello, frames, rfl, h⟩

/-- The client `c` joins before what `a` is sent when `b` joins has gone out, and `a` obtains the
message of `b` twice and that of `c` never. -/
theorem message_lost_behind_another : ∃ s t,
    (Room.system id 16777216).run {} (Room.asked 0 ++ [Room.named 0 [97], Room.written 0]) =
      some s ∧ s.members = [0] ∧ (Room.mail 0 s).flight = [] ∧
    ((Room.system id 16777216).traced (Room.posted id 0)).run (s, [])
      (Room.asked 1 ++ Room.asked 2 ++
        [Room.named 1 [98], Room.named 2 [99], Room.written 0, Room.written 0]) =
      some (t, [Room.entry [98], Room.entry [99]]) ∧
    (Room.mail 0 t).flight = [] ∧
    (Room.mail 0 t).sent = (Room.mail 0 s).sent ++
      [frame [Room.entry [98]], frame [Room.entry [98]] ++ frame [Room.entry [99]]] ∧
    [frame [Room.entry [98]], frame [Room.entry [98]] ++ frame [Room.entry [99]]].flatMap
      (obtained id) = [Room.entry [98], Room.entry [98]] :=
  ⟨_, _, rfl, rfl, rfl, rfl, rfl, rfl, by decide⟩

end BeastWebsocket.Chat
