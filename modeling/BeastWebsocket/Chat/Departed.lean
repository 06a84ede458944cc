import BeastWebsocket.Chat.Delivery

/-! # Clients whose socket is closed

An entry of `clients` is never erased. The broadcasts of a frame and of a farewell pass over the
clients whose socket is closed, that of a new name does not.
-/
namespace BeastWebsocket.Chat
open Transition

namespace Room
variable {overflow : ℤ → ℤ} {readMessageMax : ℕ} {i k : ℕ} {r t : Room}

/-- The handler of a session leaves the others whose socket is closed as they are: it appends
nothing to their output and calls no `do_write` on them. -/
def SparesClosed (overflow : ℤ → ℤ) (readMessageMax : ℕ) (r : Room) : Event → Prop
  | .session i e => ∀ t, (system overflow readMessageMax).step r (.session i e) = some t →
      ∀ k, k ≠ i → r.isOpen k = false → t.sessions k = r.sessions k
  | _ => True

/-- When a client gives its name, and the store is not too long to be sent, the sockets of all
other members are open. -/
def JoinsOpen (r : Room) : Event → Prop
  | .session i e => ∀ input, (r.sessions i).callback callbacks e = some (.message input) →
      input.take 11 = nameString → r.messages.length + 1 < 2 ^ 32 - 1 →
        ∀ k ∈ r.members, k ≠ i → r.isOpen k = true
  | _ => True

/-- What is told is on record. -/
theorem tell_ne (text : Bytes) (s : Server) : tell text s ≠ s := by
  intro h
  have hlog := congrArg (fun s : Server => s.log.length) h
  cases hacc : s.accepted with
  | false =>
    simp [tell, Server.call, Server.doWrite, hacc, Session.append, Session.emit] at hlog
  | true =>
    simp [tell, Server.call, Server.doWrite, hacc, Session.append, Session.asyncWrite,
      Session.emit] at hlog

theorem hear_eq_iff {s : Server} {told : Option Bytes} : hear s told = s ↔ told = none := by
  cases told with
  | none => simp [hear]
  | some text => simp [hear, tell_ne]

theorem toldName_eq_none_iff {name : Bytes} :
    r.toldName k name = none ↔ (r.messages.length + 1 < 2 ^ 32 - 1 → k ∉ r.members) := by
  rw [toldName, Serializer.advance]
  by_cases hlong : 2 ^ 32 - 1 ≤ (r.messages ++ [entry name]).length
  · rw [if_pos hlong]
    rw [List.length_append, List.length_singleton] at hlong
    apply iff_of_true rfl
    intro hshort
    omega
  · rw [if_neg hlong]
    rw [List.length_append, List.length_singleton] at hlong
    simp only [ite_eq_right_iff, reduceCtorEq, imp_false]
    constructor
    · intro hk _
      exact hk
    · intro h
      exact h (by omega)

/-- No broadcast but that of a name reaches a session whose socket is closed. -/
theorem told_closed (hclosed : r.isOpen k = false) (hk : k ≠ i) {c : Option Callback}
    (hname : ∀ input, c = some (.message input) → input.take 11 ≠ nameString) :
    r.told overflow k i c = none := by
  have hothers : k ∉ r.others i := by
    simp [others, hclosed]
  cases c with
  | none => rfl
  | some c =>
    cases c with
    | message input =>
      rw [told, if_neg (hname input rfl), toldFrame, if_neg]
      rintro ⟨_, hself | hmem⟩
      · exact hk hself
      · exact hothers hmem
    | close payload =>
      rw [told, toldFarewell, if_neg]
      rintro ⟨_, hmem⟩
      exact hothers hmem
    | _ => rfl

/-- A handler tells another session whose socket is closed nothing, exactly if that session is
no member to whom a new name is broadcast. -/
theorem told_closed_iff (hclosed : r.isOpen k = false) (hk : k ≠ i) {c : Option Callback} :
    r.told overflow k i c = none ↔ ∀ input, c = some (.message input) →
      input.take 11 = nameString → r.messages.length + 1 < 2 ^ 32 - 1 → k ∉ r.members := by
  by_cases hname : ∃ input, c = some (.message input) ∧ input.take 11 = nameString
  · obtain ⟨input, rfl, hname⟩ := hname
    rw [told, if_pos hname, toldName_eq_none_iff]
    constructor
    · intro h other hcall _
      exact h
    · intro h
      exact h input rfl hname
  · have hother : ∀ input, c = some (.message input) → input.take 11 ≠ nameString := by
      intro input hc htake
      exact hname ⟨input, hc, htake⟩
    apply iff_of_true (told_closed hclosed hk hother)
    intro input hc htake
    exact absurd htake (hother input hc)

/-- What a handler does to another session. -/
theorem step_other {e : Server.Event} (hr : r.Sound) (hk : k ≠ i)
    (h : (system overflow readMessageMax).step r (.session i e) = some t) :
    t.sessions k =
      hear (r.sessions k) (r.told overflow k i ((r.sessions i).callback callbacks e)) := by
  obtain ⟨_, s, _, rfl⟩ := step_session h
  set arrived : Room := { r with sessions := Function.update r.sessions i s } with harrived
  have hmembers : arrived.members.Nodup := hr.nodup
  rw [react_other overflow hk hmembers]
  have hsession : arrived.sessions k = r.sessions k := Function.update_of_ne hk s r.sessions
  rw [hsession]
  rfl

theorem sparesClosed_iff {e : Event} (hr : r.Sound)
    (h : (system overflow readMessageMax).step r e = some t) :
    r.SparesClosed overflow readMessageMax e ↔ r.JoinsOpen e := by
  cases e with
  | session i e =>
    have hsame : ∀ k, k ≠ i → r.isOpen k = false → (t.sessions k = r.sessions k ↔
        ∀ input, (r.sessions i).callback callbacks e = some (.message input) →
          input.take 11 = nameString → r.messages.length + 1 < 2 ^ 32 - 1 → k ∉ r.members) := by
      intro k hk hclosed
      rw [step_other hr hk h, hear_eq_iff, told_closed_iff hclosed hk]
    rw [SparesClosed, System.forall_step_iff h]
    constructor
    · intro hspares input hcall hname hshort k hmem hk
      by_contra hopen
      rw [Bool.not_eq_true] at hopen
      exact (hsame k hk hopen).mp (hspares k hk hopen) input hcall hname hshort hmem
    · intro hjoins k hk hclosed
      apply (hsame k hk hclosed).mpr
      intro input hcall hname hshort hmem
      have hopen := hjoins input hcall hname hshort k hmem hk
      rw [hclosed] at hopen
      cases hopen
  | _ => exact Iff.rfl

end Room

/-- The handlers leave the other sessions whose socket is closed as they are throughout a run,
exactly if no client gives its name while the socket of another member is closed. -/
theorem spares_closed_iff (overflow : ℤ → ℤ) (readMessageMax : ℕ) (es : List Room.Event) :
    (Room.system overflow readMessageMax).Along (Room.SparesClosed overflow readMessageMax) {} es ↔
      (Room.system overflow readMessageMax).Along Room.JoinsOpen {} es := by
  apply System.along_congr_of_invariant (I := Room.Sound)
  · exact Room.Sound.step
  · intro r e t hr h
    exact Room.sparesClosed_iff hr h
  · exact Room.sound_initial

/-- The client `a` joins and its socket is closed; the client `b` joins, and its name is appended
to the output of `a` and written. -/
theorem name_sent_to_closed : ∃ r t,
    (Room.system id 16777216).run {} (Room.asked 0 ++ [Room.named 0 [97], Room.written 0,
      .disconnect 0] ++ Room.asked 1) = some r ∧
    r.isOpen 0 = false ∧
    (Room.system id 16777216).step r (Room.named 1 [98]) = some t ∧
    (t.sessions 0).log = (r.sessions 0).log ++
      [.appended (frame [Room.entry [98]]), .started (.write (frame [Room.entry [98]]) true)] :=
  ⟨_, _, rfl, rfl, rfl, rfl⟩

end BeastWebsocket.Chat
