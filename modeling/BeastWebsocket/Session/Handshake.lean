import BeastWebsocket.Channel.Latch
import BeastWebsocket.Session.Gate
import BeastWebsocket.Session.Moves

/-! # The opening handshake

`do_accept` and `do_handshake` are guarded by a flag that is set when the handshake completes.
For both kinds of session the flag, the handshakes and the calls of the user's callback are a
latch.
-/
namespace BeastWebsocket
open Channel Transition

abbrev openingCalls (log : List Obs) : ℕ := (calledBacks log).countP Callback.isOpening

/-- One handshake at a time, and one call of the user's callback at most. -/
structure Session.OpensOnce {κ : Type} (x : Session κ) : Prop where
  handshakes : x.stream.handshakes ≤ 1
  calls : openingCalls x.log ≤ 1

theorem Callbacks.control_isOpening (cb : Callbacks) (kind : FrameType) (payload : Bytes) :
    (cb.control kind payload).toList.countP Callback.isOpening = 0 := by
  rw [control]
  split_ifs <;> rfl

namespace Move
variable {κ : Type} {cb : Callbacks} {x : Session κ} {m : Move}

/-- What a move is to the latch. -/
def latchOp : Move → Option Latch.Op
  | .start => some .start
  | .opened ec _ => some (.finish (!ec.failed))
  | _ => none

theorem callback_isOpening (h : ∀ ec c, m ≠ .opened ec c) :
    (m.callback cb x).toList.countP Callback.isOpening = 0 := by
  cases m with
  | opened ec c => exact absurd rfl (h ec c)
  | read ec chunk text | other timer =>
    rw [callback]
    split_ifs <;> rfl
  | control kind payload =>
    rw [callback]
    split_ifs
    · exact cb.control_isOpening kind payload
    · rfl
  | _ => rfl

theorem opens_eq_false (h : ∀ ec c, m ≠ .opened ec c) : m.opens = false := by
  cases m with
  | opened ec c => exact absurd rfl (h ec c)
  | _ => rfl

end Move

namespace Session
variable {κ : Type} {cb : Callbacks} {isOpen : Bool} {m : Move} {x y : Session κ}

/-- The latch of a session whose flag is `isOpen`. -/
def latch (cb : Callbacks) (isOpen : Bool) (x : Session κ) : Latch where
  listening := cb.onOpen
  set := isOpen
  pending := x.stream.handshakes
  calls := openingCalls x.log

theorem latch_eq {n k : ℕ} (hn : y.stream.handshakes = n) (hk : openingCalls y.log = k) :
    y.latch cb isOpen = ⟨cb.onOpen, isOpen, n, k⟩ := by
  rw [latch, hn, hk]

theorem Moves.openingCalls (h : Moves cb isOpen x m y) :
    openingCalls y.log = BeastWebsocket.openingCalls x.log +
      (m.callback cb x).toList.countP Callback.isOpening := by
  rw [BeastWebsocket.openingCalls, h.calledBacks, List.countP_append]

/-- A move of the session is one of the latch. -/
theorem Moves.latch (h : Moves cb isOpen x m y) :
    Latch.system.perform (x.latch cb isOpen) m.latchOp =
      some (y.latch cb (isOpen || m.opens)) := by
  have hcalls := h.openingCalls
  have hsame := h.handshakes_eq
  cases m with
  | start =>
    cases h with
    | refused hopen =>
      subst hopen
      rfl
    | started hopen =>
      subst hopen
      rw [latch_eq rfl hcalls]
      rfl
  | opened ec c =>
    obtain ⟨hc, hpos, hpending⟩ := h.handshake
    have hone : ((Move.opened ec c).callback cb x).toList.countP Callback.isOpening =
        if !ec.failed && cb.onOpen then 1 else 0 := by
      rw [Move.callback]
      split_ifs
      · simp [hc]
      · rfl
    rw [hone] at hcalls
    rw [latch_eq hpending hcalls]
    exact if_pos hpos
  | _ =>
    rw [Move.callback_isOpening (by simp)] at hcalls
    rw [latch_eq (hsame (by simp) (by simp)) hcalls, Move.opens_eq_false (by simp), Bool.or_false]
    rfl

end Session

/-! ## The server session -/

namespace Server
variable {cb : Callbacks} {s t : Server} {e : Event}

def latch (cb : Callbacks) (s : Server) : Latch := s.toSession.latch cb s.accepted

/-- `do_accept` starts no handshake while another is outstanding. -/
def AcceptsAlone (s : Server) : Event → Prop
  | .call .doAccept => s.accepted = true ∨ s.stream.handshakes = 0
  | _ => True

theorem move_opens (e : Event) : (s.move cb e).opens = e.opens := by
  cases e with
  | call c => cases c <;> rfl
  | _ => rfl

theorem opens_eq_false (h : ∀ ec, e ≠ .acceptDone ec) : e.opens = false := by
  cases e with
  | acceptDone ec => exact absurd rfl (h ec)
  | _ => rfl

theorem step_handshakes (hcall : e ≠ .call .doAccept) (hdone : ∀ ec, e ≠ .acceptDone ec)
    (ht : (system cb).step s e = some t) : t.stream.handshakes = s.stream.handshakes := by
  apply (moves_of_step ht).handshakes_eq
  · simpa using hcall
  · intro ec c
    simp [hdone]

theorem onAccept_handshakes (ec : ErrorCode) :
    (s.onAccept cb ec).stream.handshakes = s.stream.handshakes := by
  by_cases hec : ec = .success
  · subst hec
    change (Session.enterOpening cb .accept s.toSession).stream.handshakes = _
    rw [Session.enterOpening_stream]
  · exact (onAccept_failed hec).handshakes

/-- The server session refines the latch. -/
theorem refines_latch :
    (system cb).Refines Latch.system (latch cb) fun s e => (s.move cb e).latchOp := by
  intro s e t ht
  have hlatch := (moves_of_step ht).latch
  rw [move_opens, ← step_accepted ht] at hlatch
  exact hlatch

end Server

/-! ## The client session -/

namespace Client
variable {cb : Callbacks} {s t : Client}

def Event.opens : Event → Bool
  | .handshakeDone ec _ => !ec.failed
  | _ => false

theorem doHandshake_handshaked : (s.doHandshake cb).handshaked = s.handshaked := by
  rw [doHandshake]
  split_ifs <;> rfl

theorem operate_handshaked (f : Session Bool → Session Bool) :
    (s.operate f).handshaked = s.handshaked := by
  rw [operate]
  split_ifs <;> rfl

theorem doRead_handshaked : s.doRead.handshaked = s.handshaked := by
  rw [doRead]
  split_ifs <;> rfl

theorem doWrite_handshaked (nextRead : Bool) :
    (s.doWrite nextRead).handshaked = s.handshaked := by
  rw [doWrite]
  split_ifs <;> rfl

theorem writeOut_handshaked : s.writeOut.handshaked = s.handshaked := by
  rw [writeOut]
  split_ifs
  · exact doWrite_handshaked s.nextRead
  · rfl

theorem onWrite_handshaked (ec : ErrorCode) (nextRead : Bool) :
    (s.onWrite ec nextRead).handshaked = s.handshaked := by
  rw [onWrite, readOn]
  split_ifs
  · rfl
  · exact doRead_handshaked
  · rfl

theorem onRead_handshaked (ec : ErrorCode) : (s.onRead cb ec).handshaked = s.handshaked := by
  rw [onRead]
  split_ifs <;> rfl

theorem onHandshake_handshaked (ec : ErrorCode) :
    (s.onHandshake cb ec).handshaked = (s.handshaked || !ec.failed) := by
  rw [onHandshake]
  cases ec <;> simp [io, ErrorCode.failed]

theorem resume_handshaked (h : s.resume = some t) : t.handshaked = s.handshaked := by
  cases hf : s.frame with
  | idle => simp [resume, hf] at h
  | opening =>
    simp only [resume, hf, Option.some.injEq] at h
    subst h
    exact writeOut_handshaked
  | reading =>
    simp only [resume, hf, Option.some.injEq] at h
    subst h
    exact writeOut_handshaked

theorem call_handshaked (c : Call) : (s.call cb c).handshaked = s.handshaked := by
  cases c with
  | doHandshake => exact doHandshake_handshaked
  | doPing payload => exact operate_handshaked _
  | doPong payload => exact operate_handshaked _
  | doClose reason => exact operate_handshaked _
  | doRead => exact doRead_handshaked
  | doWrite nextRead => exact doWrite_handshaked nextRead
  | _ => rfl

/-- The flag is set by a handshake that succeeds, and by nothing else. -/
theorem step_handshaked {e : Event} (ht : (system cb).step s e = some t) :
    t.handshaked = (s.handshaked || e.opens) := by
  cases e with
  | call c =>
    cases ht
    simpa [Event.opens] using call_handshaked c
  | setNextRead b =>
    obtain ⟨_, ht⟩ := Option.ite_none_left_eq_some.mp ht
    cases ht
    exact (Bool.or_false _).symm
  | handshakeDone ec response =>
    obtain ⟨_, rfl⟩ := Session.handled_eq_some.mp ht
    exact onHandshake_handshaked ec
  | readDone ec chunk text =>
    obtain ⟨_, rfl⟩ := Session.handled_eq_some.mp ht
    rw [onRead_handshaked]
    exact (Bool.or_false _).symm
  | writeDone i ec =>
    obtain ⟨w, _, ht⟩ := Option.bind_eq_some_iff.mp ht
    obtain ⟨_, rfl⟩ := Session.handled_eq_some.mp ht
    rw [onWrite_handshaked]
    exact (Bool.or_false _).symm
  | closeDone ec =>
    obtain ⟨_, rfl⟩ := Session.handled_eq_some.mp ht
    rw [onClose]
    split_ifs <;> exact (Bool.or_false _).symm
  | pingDone ec | pongDone ec | control kind payload =>
    obtain ⟨_, rfl⟩ := Session.handled_eq_some.mp ht
    exact (Bool.or_false _).symm
  | resume => simpa [Event.opens] using resume_handshaked ht

def latch (cb : Callbacks) (s : Client) : Latch := s.toSession.latch cb s.handshaked

/-- `do_handshake` starts no handshake while another is outstanding. -/
def HandshakesAlone (s : Client) : Event → Prop
  | .call .doHandshake => s.handshaked = true ∨ s.stream.handshakes = 0
  | _ => True

theorem move_opens (e : Event) : e.move.opens = e.opens := by
  cases e with
  | call c => cases c <;> rfl
  | _ => rfl

theorem step_handshakes {e : Event} (hcall : e ≠ .call .doHandshake)
    (hdone : ∀ ec response, e ≠ .handshakeDone ec response)
    (ht : (system cb).step s e = some t) : t.stream.handshakes = s.stream.handshakes := by
  apply (moves_of_step ht).handshakes_eq
  · simpa using hcall
  · intro ec c
    simp [hdone]

/-- The client session refines the latch. -/
theorem refines_latch :
    (system cb).Refines Latch.system (latch cb) fun _ e => e.move.latchOp := by
  intro s e t ht
  have hlatch := (moves_of_step ht).latch
  rw [move_opens, ← step_handshaked ht] at hlatch
  exact hlatch

end Client

/-! ## Once -/

theorem Session.opensOnce_iff {κ : Type} {x : Session κ} {cb : Callbacks} {isOpen : Bool} :
    x.OpensOnce ↔ (x.latch cb isOpen).Once := by
  constructor
  · intro h
    exact ⟨h.handshakes, h.calls⟩
  · intro h
    exact ⟨h.pending, h.calls⟩

theorem Server.opensOnce_iff (cb : Callbacks) (es : List Server.Event) :
    (Server.system cb).Throughout (fun s => s.OpensOnce) {} es ↔
      (Server.system cb).Along Server.AcceptsAlone {} es := by
  have halone : ∀ (s : Server) (e : Server.Event),
      (∀ o ∈ (s.move cb e).latchOp, (s.latch cb).Alone o) ↔ s.AcceptsAlone e := by
    intro s e
    cases e with
    | call c =>
      cases c <;> simp [move, Move.latchOp, AcceptsAlone, Latch.Alone, latch, Session.latch]
    | _ => simp [move, Move.latchOp, AcceptsAlone, Latch.Alone]
  have honce : ∀ s : Server, s.OpensOnce ↔ (s.latch cb).Once := fun s => Session.opensOnce_iff
  simp only [honce]
  rw [← System.along_congr halone]
  exact Latch.once_iff Server.refines_latch (Latch.settled_initial cb.onOpen)
    (Latch.once_initial cb.onOpen)

theorem Client.opensOnce_iff (cb : Callbacks) (es : List Client.Event) :
    (Client.system cb).Throughout (fun s => s.OpensOnce) {} es ↔
      (Client.system cb).Along Client.HandshakesAlone {} es := by
  have halone : ∀ (s : Client) (e : Client.Event),
      (∀ o ∈ e.move.latchOp, (s.latch cb).Alone o) ↔ s.HandshakesAlone e := by
    intro s e
    cases e with
    | call c =>
      cases c <;> simp [Event.move, Move.latchOp, HandshakesAlone, Latch.Alone, latch,
        Session.latch]
    | _ => simp [Event.move, Move.latchOp, HandshakesAlone, Latch.Alone]
  have honce : ∀ s : Client, s.OpensOnce ↔ (s.latch cb).Once := fun s => Session.opensOnce_iff
  simp only [honce]
  rw [← System.along_congr halone]
  exact Latch.once_iff Client.refines_latch (Latch.settled_initial cb.onOpen)
    (Latch.once_initial cb.onOpen)

/-- In every state of a run one handshake at most is outstanding and the user's callback has been
called once at most, exactly when no handshake is started beside another. -/
theorem opens_once (cb : Callbacks) :
    (∀ es, (Server.system cb).Throughout (fun s => s.OpensOnce) {} es ↔
      (Server.system cb).Along Server.AcceptsAlone {} es) ∧
    (∀ es, (Client.system cb).Throughout (fun s => s.OpensOnce) {} es ↔
      (Client.system cb).Along Client.HandshakesAlone {} es) := by
  constructor
  · exact Server.opensOnce_iff cb
  · exact Client.opensOnce_iff cb

/-- The second call falls before the first handshake has completed. -/
def Server.acceptTwice : List Server.Event :=
  [.call .doAccept, .call .doAccept, .acceptDone .success, .resume, .acceptDone .success]

def Client.handshakeTwice : List Client.Event :=
  [.call .doHandshake, .call .doHandshake, .handshakeDone .success [72], .resume,
    .handshakeDone .success [72]]

theorem two_handshakes_outstanding :
    (∃ s t, (Server.system {}).run {} (Server.acceptTwice.take 2) = some s ∧
      s.stream.handshakes = 2 ∧ (Server.system {}).run {} Server.acceptTwice = some t ∧
      openingCalls t.log = 2) ∧
    (∃ s t, (Client.system {}).run {} (Client.handshakeTwice.take 2) = some s ∧
      s.stream.handshakes = 2 ∧ (Client.system {}).run {} Client.handshakeTwice = some t ∧
      openingCalls t.log = 2) := by
  constructor
  · exact ⟨_, _, rfl, rfl, rfl, rfl⟩
  · exact ⟨_, _, rfl, rfl, rfl, rfl⟩

end BeastWebsocket
