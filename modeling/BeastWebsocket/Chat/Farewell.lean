import BeastWebsocket.Chat.Delivery
import BeastWebsocket.Session.ControlFrames

/-! # The farewell of a client

`on_close` takes the name from `clients`, where a session stands under the first name that its
client has given, and stands only once it has given one.
-/
namespace BeastWebsocket.Chat
open Transition

namespace Room
variable {overflow : ℤ → ℤ} {readMessageMax : ℕ} {i j : ℕ} {r t : Room}

/-! ## The names that have been given -/

/-- The session and the name in a "My name is" frame. -/
def introduction (i : ℕ) : Option Callback → Option SessionBox
  | some (.message input) =>
    if input.take 11 = nameString then some ⟨i, input.drop 11⟩ else none
  | _ => none

def introduced (r : Room) : Event → List SessionBox
  | .session i e => (introduction i ((r.sessions i).callback callbacks e)).toList
  | _ => []

/-- The server beside the names that its clients have given, in order. -/
def introductions (overflow : ℤ → ℤ) (readMessageMax : ℕ) :
    System (Room × List SessionBox) Event :=
  (system overflow readMessageMax).traced introduced

/-- The entry of session `i` that comes first. -/
def first (i : ℕ) (l : List SessionBox) : Option SessionBox := l.find? fun c => c.session = i

/-- The entry of session `i` that comes last. -/
def latest (i : ℕ) (l : List SessionBox) : Option SessionBox := first i l.reverse

theorem first_session {l : List SessionBox} {c : SessionBox} (h : first i l = some c) :
    c.session = i := by
  have hsession := List.find?_some h
  simpa using hsession

theorem first_append (l m : List SessionBox) : first j (l ++ m) = (first j l).or (first j m) :=
  List.find?_append

theorem first_eq_none_iff {l : List SessionBox} :
    first i l = none ↔ i ∉ l.map SessionBox.session := by
  simp [first]

/-- `insert` puts the client behind the others, or finds one of its session there. -/
theorem insert_first (name : Bytes) (r : Room) :
    first j (r.insert i name).clients = (first j r.clients).or (first j [⟨i, name⟩]) := by
  rw [insert]
  split_ifs with hmem
  · by_cases hj : j = i
    · subst hj
      cases hfirst : first j r.clients with
      | none => exact absurd hmem (first_eq_none_iff.mp hfirst)
      | some c => rfl
    · have hother : first j [⟨i, name⟩] = none := by
        rw [first_eq_none_iff]
        simpa using hj
      rw [hother, Option.or_none]
  · exact first_append _ _

/-! ## What the handlers share -/

/-- The client in the box is inserted. -/
def enrol : Option SessionBox → Room → Room
  | none, r => r
  | some c, r => r.insert c.session c.nickname

theorem enrol_first (b : Option SessionBox) (r : Room) :
    first j (r.enrol b).clients = (first j r.clients).or (first j b.toList) := by
  cases b with
  | none => exact (Option.or_none).symm
  | some c => exact insert_first c.nickname r

theorem insert_shared (name : Bytes) (r : Room) :
    (r.insert i name).shared = r.shared.insert i name := by
  have hmembers : r.shared.members = r.members := rfl
  rw [insert, insert, hmembers]
  split_ifs <;> rfl

theorem join_shared {name : Bytes} (h : (r.join i name).thrown = false) :
    (r.join i name).shared = ((r.store [entry name]).insert i name).shared := by
  cases hwritten : Serializer.advance (r.messages ++ [entry name]) [] with
  | error ex =>
    rw [join_throws i hwritten] at h
    cases h
  | ok written =>
    rw [join_eq i hwritten]
    change (insert i name _).shared = _
    rw [insert_shared, broadcast_shared, insert_shared]
    rfl

theorem receive_shared {input : Bytes} (h : (r.receive overflow i input).thrown = false) :
    (r.receive overflow i input).shared =
      (r.store (Parser.advance overflow input .success).accepted).shared := by
  rw [Advance.accepted]
  rcases receive_cases overflow i input r with hvalid | ⟨hvalid, heq | heq⟩
  · rw [receive_eq i hvalid, hvalid]
    exact broadcast_shared _ _ _
  · rw [heq] at h
    cases h
  · rw [heq, hvalid, store]
    simp only [Bool.false_eq_true, if_false, List.append_nil]
    rfl

theorem onClose_shared (h : (r.onClose i).thrown = false) :
    (r.onClose i).shared = (r.store (r.leaves i)).shared := by
  rcases onClose_cases i r with ⟨hleaves, heq | heq⟩ | ⟨nickname, hleaves, heq⟩
  · rw [heq, hleaves, store, List.append_nil]
  · rw [heq] at h
    cases h
  · rw [heq, hleaves]
    exact broadcast_shared _ _ _

/-- A callback that does not throw stores its messages and inserts the client that gives its
name. -/
theorem react_shared (overflow : ℤ → ℤ) {c : Option Callback}
    (h : (r.react overflow i c).thrown = false) :
    (r.react overflow i c).shared =
      ((r.store (r.stores overflow i c)).enrol (introduction i c)).shared := by
  have hnothing : (r.store []).shared = r.shared := by
    rw [store, List.append_nil]
  cases c with
  | none => exact hnothing.symm
  | some c =>
    cases c with
    | message input =>
      have hmessage : (r.onMessage overflow i input).thrown = false := by
        rw [react] at h
        split_ifs at h with hthrown
        · exact absurd h (by simp [hthrown])
        · exact h
      have hresume : (r.react overflow i (some (.message input))).shared =
          (r.onMessage overflow i input).shared := by
        simp only [react]
        split_ifs <;> rfl
      rw [hresume]
      rw [onMessage] at hmessage ⊢
      rw [stores, introduction]
      split_ifs at hmessage ⊢ with hname
      · exact join_shared hmessage
      · exact receive_shared hmessage
    | close payload => exact onClose_shared h
    | timer => exact (onTimer_shared i r).trans hnothing.symm
    | _ => exact hnothing.symm

/-! ## The names that `clients` holds -/

/-- While the server runs, each session stands in `clients` under its first name, and a session
that has been created has set its control callback. -/
structure Registers (p : Room × List SessionBox) : Prop where
  listens : ∀ k, (p.1.sessions k).Listens
  hears : p.1.thrown = false → ∀ k < p.1.created, (p.1.sessions k).stream.controlCallback = true
  names : p.1.thrown = false → ∀ k, first k p.1.clients = first k p.2

theorem registers_initial : Registers ({}, []) where
  listens := fun _ h => by simp at h
  hears := fun _ k hk => absurd hk (Nat.not_lt_zero k)
  names := fun _ _ => rfl

theorem Leads.listens (h : Leads r t) {k : ℕ} (hk : (r.sessions k).Listens) :
    (t.sessions k).Listens :=
  (h k).invariant (I := Server.Listens) (fun _ _ _ hs _ hstep => hs.step hstep) hk

theorem Leads.controlCallback (h : Leads r t) {k : ℕ}
    (hk : (r.sessions k).stream.controlCallback = true) :
    (t.sessions k).stream.controlCallback = true := by
  apply (h k).invariant (I := fun s : Server => s.stream.controlCallback = true) _ hk
  intro s e s' hs _ hstep
  exact Server.controlCallback_kept hs hstep

/-- What a handler of a session makes of the data that is shared, unless its callback throws. -/
theorem step_shared {e : Server.Event} (ht : t.thrown = false)
    (h : (system overflow readMessageMax).step r (.session i e) = some t) :
    t.shared = ((r.store (r.stored overflow (.session i e))).enrol
      (introduction i ((r.sessions i).callback callbacks e))).shared := by
  obtain ⟨_, s, _, rfl⟩ := step_session h
  have hreact := react_shared overflow ht
  rw [hreact]
  cases introduction i ((r.sessions i).callback callbacks e) with
  | none => rfl
  | some c =>
    change (insert c.session c.nickname _).shared = (insert c.session c.nickname _).shared
    rw [insert_shared, insert_shared]
    rfl

theorem enrol_created (b : Option SessionBox) (r : Room) : (r.enrol b).created = r.created := by
  cases b with
  | none => rfl
  | some c =>
    rw [enrol, insert]
    split_ifs <;> rfl

theorem doAccept_hears {s : Server} (h : s.Listens) :
    (s.doAccept callbacks).stream.controlCallback = true := by
  rw [Server.doAccept]
  split_ifs with hacc
  · exact h (Or.inl hacc)
  · rfl

theorem step_created {e : Event} {k : ℕ} (hr : ∀ k, (r.sessions k).Listens)
    (hhears : ∀ k < r.created, (r.sessions k).stream.controlCallback = true)
    (ht : t.thrown = false) (h : (system overflow readMessageMax).step r e = some t)
    (hk : k < t.created) : (t.sessions k).stream.controlCallback = true := by
  have hleads := step_leads h
  cases e with
  | upgrade =>
    have heq := step_upgrade h
    have hcreated : t.created = r.created + 1 := congrArg created heq
    by_cases hnew : k = r.created
    · subst hnew
      rw [heq, call_self]
      exact doAccept_hears (hr _)
    · exact hleads.controlCallback (hhears k (by omega))
  | disconnect i =>
    have heq := step_disconnect h
    have hcreated : t.created = r.created := by rw [heq]
    exact hleads.controlCallback (hhears k (by omega))
  | session i e =>
    have hshared := congrArg created (step_shared ht h)
    have hcreated : t.created = r.created := hshared.trans (enrol_created _ _)
    exact hleads.controlCallback (hhears k (by omega))

/-- The names that an event adds to the list count behind those that `clients` holds. -/
theorem step_first {e : Event} {l : List SessionBox} {k : ℕ}
    (hr : first k r.clients = first k l) (ht : t.thrown = false)
    (h : (system overflow readMessageMax).step r e = some t) :
    first k t.clients = first k (l ++ r.introduced e) := by
  rw [first_append, ← hr]
  cases e with
  | upgrade =>
    rw [step_upgrade h]
    exact (Option.or_none).symm
  | disconnect i =>
    rw [step_disconnect h]
    exact (Option.or_none).symm
  | session i e =>
    have hclients := congrArg clients (step_shared ht h)
    change t.clients = (enrol _ _).clients at hclients
    rw [hclients, enrol_first]
    rfl

theorem Registers.step (p : Room × List SessionBox) (e : Event) (q : Room × List SessionBox)
    (hp : Registers p) (h : (introductions overflow readMessageMax).step p e = some q) :
    Registers q := by
  obtain ⟨hstep, hlist⟩ := System.traced_step.mp h
  have hrunning := running_of_step hstep
  constructor
  · intro k
    exact (step_leads hstep).listens (hp.listens k)
  · intro hq k hk
    exact step_created hp.listens (hp.hears hrunning) hq hstep hk
  · intro hq k
    rw [hlist]
    exact step_first (hp.names hrunning k) hq hstep

/-! ## The close frame -/

/-- The handler of a close frame whose session still has its socket open does not throw, and
stores the farewell with the name that the client has given last, if it has given one. -/
def Departs (overflow : ℤ → ℤ) (readMessageMax : ℕ) (p : Room × List SessionBox) : Event → Prop
  | .session i (.control .close payload) => p.1.isOpen i = true →
      ∀ t, (system overflow readMessageMax).step p.1 (.session i (.control .close payload)) =
        some t → t.thrown = false ∧
          t.messages = p.1.messages ++
            ((latest i p.2).map fun c => farewell c.nickname).toList
  | _ => True

/-- A client that closes an open connection has given a name, and has come back to its first
one. -/
def KeepsName (p : Room × List SessionBox) : Event → Prop
  | .session i (.control .close _) => p.1.isOpen i = true →
      ∃ c, first i p.2 = some c ∧ latest i p.2 = some c
  | _ => True

theorem onClose_unknown (hopen : r.isOpen i = true) (h : first i r.clients = none) :
    r.onClose i = r.throw := by
  rw [first] at h
  simp only [onClose, hopen, h, if_true]

theorem leaves_known {c : SessionBox} (hopen : r.isOpen i = true)
    (h : first i r.clients = some c) : r.leaves i = [farewell c.nickname] := by
  rw [first] at h
  rw [leaves, if_pos hopen, h]
  rfl

theorem onClose_known {c : SessionBox} (hopen : r.isOpen i = true)
    (h : first i r.clients = some c) : (r.onClose i).thrown = r.thrown := by
  have hleaves := leaves_known hopen h
  rcases onClose_cases i r with ⟨hnone, _⟩ | ⟨nickname, _, heq⟩
  · rw [hleaves] at hnone
    cases hnone
  · have hthrown := congrArg thrown (broadcast_shared (frame [farewell nickname]) (r.others i)
      (r.store [farewell nickname]))
    rw [heq]
    exact hthrown

/-- The farewell that is stored carries the latest name exactly if that is the first one. -/
theorem farewell_latest_iff {l : List SessionBox} {c : SessionBox} (hc : first i l = some c) :
    [farewell c.nickname] = ((latest i l).map fun c => farewell c.nickname).toList ↔
      latest i l = some c := by
  cases hlatest : latest i l with
  | none => simp
  | some d =>
    have hsession : d.session = c.session := (first_session hlatest).trans (first_session hc).symm
    cases c
    cases d
    simp only at hsession
    subst hsession
    simp [farewell, eq_comm]

/-- The handler of a close frame comes to `on_close`. -/
theorem step_close {p : Room × List SessionBox} {payload : Bytes} (hp : Registers p)
    (h : (system overflow readMessageMax).step p.1 (.session i (.control .close payload)) =
      some t) :
    ∃ arrived : Room, t = arrived.onClose i ∧ arrived.shared = p.1.shared := by
  have hcreated : i < p.1.created := by
    obtain ⟨_, h⟩ := Option.ite_none_left_eq_some.mp h
    obtain ⟨⟨hcreated, _⟩, _⟩ := Option.ite_none_right_eq_some.mp h
    exact hcreated
  have hcall : (p.1.sessions i).callback callbacks (.control .close payload) =
      some (.close payload) := by
    rw [Server.callback, hp.hears (running_of_step h) i hcreated]
    rfl
  obtain ⟨_, s, _, ht⟩ := step_session h
  rw [hcall] at ht
  exact ⟨_, ht, rfl⟩

/-- A session without a name is one whose client gave none, and a name is the first that its
client gave. -/
theorem close_iff {p : Room × List SessionBox} {payload : Bytes} (hp : Registers p)
    (hopen : p.1.isOpen i = true)
    (h : (system overflow readMessageMax).step p.1 (.session i (.control .close payload)) =
      some t) :
    (t.thrown = false ∧ t.messages =
        p.1.messages ++ ((latest i p.2).map fun c => farewell c.nickname).toList) ↔
      ∃ c, first i p.2 = some c ∧ latest i p.2 = some c := by
  have hrunning := running_of_step h
  obtain ⟨arrived, rfl, hshared⟩ := step_close hp h
  have hsocket : arrived.isOpen i = true := (congrArg (isOpen · i) hshared).trans hopen
  have hclients : first i arrived.clients = first i p.2 :=
    (congrArg (first i ·.clients) hshared).trans (hp.names hrunning i)
  cases hfirst : first i p.2 with
  | none =>
    have hthrows := onClose_unknown hsocket (hclients.trans hfirst)
    apply iff_of_false
    · rintro ⟨hthrown, -⟩
      rw [hthrows] at hthrown
      cases hthrown
    · rintro ⟨c, hc, -⟩
      cases hc
  | some c =>
    have hknown := hclients.trans hfirst
    have hthrown : (arrived.onClose i).thrown = false :=
      (onClose_known hsocket hknown).trans ((congrArg thrown hshared).trans hrunning)
    have hmessages : (arrived.onClose i).messages = p.1.messages ++ [farewell c.nickname] := by
      rw [onClose_messages, leaves_known hsocket hknown, messages_eq_of_shared hshared]
    rw [hthrown, hmessages, List.append_right_inj, farewell_latest_iff hfirst]
    simp

theorem departs_iff {p q : Room × List SessionBox} {e : Event} (hp : Registers p)
    (h : (introductions overflow readMessageMax).step p e = some q) :
    Departs overflow readMessageMax p e ↔ KeepsName p e := by
  obtain ⟨hstep, -⟩ := System.traced_step.mp h
  cases e with
  | session i e =>
    cases e with
    | control kind payload =>
      cases kind with
      | close =>
        apply forall_congr'
        intro hopen
        exact (System.forall_step_iff hstep).trans (close_iff hp hopen hstep)
      | _ => exact Iff.rfl
    | _ => exact Iff.rfl
  | _ => exact Iff.rfl

end Room

/-- Throughout a run each close frame of a session whose socket is open is handled without an
exception, and what it stores is the farewell with the latest name of the client, or nothing if
there is none, exactly if each client that so leaves has given a name and the first name it gave
is its latest. -/
theorem departs_along_iff (overflow : ℤ → ℤ) (readMessageMax : ℕ) (es : List Room.Event) :
    (Room.introductions overflow readMessageMax).Along (Room.Departs overflow readMessageMax)
        ({}, []) es ↔
      (Room.introductions overflow readMessageMax).Along Room.KeepsName ({}, []) es := by
  apply System.along_congr_of_invariant (I := Room.Registers)
  · exact Room.Registers.step
  · intro p e q hp h
    exact Room.departs_iff hp h
  · exact Room.registers_initial

def Room.closed (i : ℕ) : Room.Event := .session i (.control .close [])

/-- The client of the first connection gives the name `a`, and then the name `b`. -/
def Room.renamed : List Room.Event :=
  Room.asked 0 ++ [Room.named 0 [97], Room.written 0, Room.named 0 [98]]

set_option maxRecDepth 1024 in
/-- A client leaves before it has given a name, and the exception ends the program; a client that
is `a` first and then `b` leaves as `a`. -/
theorem unnamed_and_renamed_leave :
    (∃ r t, (Room.introductions id 16777216).run ({}, []) (Room.asked 0) = some (r, []) ∧
      r.isOpen 0 = true ∧ (Room.system id 16777216).step r (Room.closed 0) = some t ∧
      t.thrown = true) ∧
    ∃ p t, (Room.introductions id 16777216).run ({}, []) Room.renamed = some p ∧
      p.2 = [⟨0, [97]⟩, ⟨0, [98]⟩] ∧ p.1.isOpen 0 = true ∧
      (Room.system id 16777216).step p.1 (Room.closed 0) = some t ∧
      t.messages = p.1.messages ++ [Room.farewell [97]] :=
  ⟨⟨_, _, rfl, rfl, rfl, rfl⟩, ⟨_, _, rfl, by decide, rfl, rfl, by decide⟩⟩

end BeastWebsocket.Chat
