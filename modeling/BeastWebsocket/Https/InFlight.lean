import BeastWebsocket.Https.Client
import BeastWebsocket.Channel.Exchange
import Mathlib.Tactic.SplitIfs

/-! # Requests of the HTTPS client in flight

`do_write` writes at once, and a write that completes starts a read at once. There is neither a
queue, as the server has one, nor a flag.
-/
namespace BeastWebsocket.Https
open Channel Transition

namespace Client
variable {μ ρ : Type} {cb : Callbacks} {s t : Client μ ρ}

/-- `res_` is assigned while a read is outstanding. -/
@[simp] def Obs.isClash : Obs μ ρ → Bool
  | reset reads => decide (0 < reads)
  | _ => false

/-- How often `res_` has been assigned while a read was outstanding. -/
def clashes (log : List (Obs μ ρ)) : ℕ := log.countP Obs.isClash

theorem clashes_append {log : List (Obs μ ρ)} {o : Obs μ ρ} :
    clashes (log ++ [o]) = clashes log + if o.isClash then 1 else 0 := by
  rw [clashes, List.countP_append, List.countP_singleton]
  rfl

/-- The request in `msg_p_`, the writes and the reads. -/
def exchange (s : Client μ ρ) : Exchange (Owned μ) where
  slot := s.msgP
  sends := s.writes
  receives := s.reads
  clashes := clashes s.log

/-- One write and one read at most are outstanding, `msg_p_` owns the message that is being
written, and `res_` has never been assigned while a read was outstanding. -/
structure OneInFlight (s : Client μ ρ) : Prop where
  writes : s.writes.length ≤ 1
  reads : s.reads ≤ 1
  owned : ∀ p ∈ s.writes, s.msgP = some p
  undisturbed : ∀ n, Obs.reset n ∈ s.log → n = 0

/-- Past its guard, `do_write` is called while no write is outstanding, and `do_read` while no
read is; a write completes with success while no read is outstanding. -/
def Waits (s : Client μ ρ) : Event μ ρ → Prop
  | .call (.doWrite _) => s.handshake = true → s.writes = []
  | .call .doRead => s.handshake = true → s.reads = 0
  | .writeDone _ ec => ec = .success → s.reads = 0
  | _ => True

theorem clashes_eq_zero_iff {log : List (Obs μ ρ)} :
    clashes log = 0 ↔ ∀ n, Obs.reset n ∈ log → n = 0 := by
  rw [clashes, List.countP_eq_zero]
  constructor
  · intro h n hn
    have hquiet := h _ hn
    simp only [Obs.isClash, decide_eq_true_eq] at hquiet
    omega
  · intro h o ho
    cases o with
    | reset n => simp [h n ho]
    | _ => simp

theorem oneInFlight_iff : s.OneInFlight ↔ s.exchange.Single := by
  constructor
  · intro h
    exact ⟨h.writes, h.reads, h.owned, clashes_eq_zero_iff.mpr h.undisturbed⟩
  · intro h
    exact ⟨h.sends, h.receives, h.kept, clashes_eq_zero_iff.mp h.clear⟩

/-! ## What the functions do to the exchange -/

theorem emit_exchange {o : Obs μ ρ} (h : o.isClash = false) :
    (s.emit o).exchange = s.exchange := by
  rw [exchange, emit]
  simp only [clashes_append, h, Bool.false_eq_true, if_false, Nat.add_zero]
  rfl

theorem doRead_exchange (h : s.handshake = true) : s.doRead.exchange = s.exchange.receive := by
  rw [doRead, if_pos h]
  have hclash : clashes (s.log ++ [.reset s.reads] ++ [.started .read]) =
      clashes s.log + if 0 < s.reads then 1 else 0 := by
    rw [clashes_append, clashes_append]
    simp
  rw [exchange, Exchange.receive, Exchange.mk.injEq]
  exact ⟨rfl, rfl, rfl, hclash⟩

theorem doRead_closed (h : s.handshake = false) : s.doRead = s := by
  rw [doRead, h]
  rfl

theorem doWrite_exchange (msg : μ) (h : s.handshake = true) :
    (s.doWrite msg).exchange =
      { s.exchange with slot := some ⟨s.made, msg⟩, sends := s.writes ++ [⟨s.made, msg⟩] } := by
  rw [doWrite, if_pos h]
  exact emit_exchange rfl

theorem onHandshake_exchange (ec : ErrorCode) :
    (s.onHandshake cb ec).exchange = s.exchange := by
  rw [onHandshake]
  split_ifs
  · exact emit_exchange rfl
  · exact emit_exchange rfl
  · rfl

theorem onShutdown_exchange (ec : ErrorCode) : (s.onShutdown ec).exchange = s.exchange := by
  rw [onShutdown]
  split_ifs
  · exact emit_exchange rfl
  · rfl
  · exact emit_exchange rfl
  · rfl

theorem onRead_exchange (ec : ErrorCode) : (s.onRead cb ec).exchange = s.exchange := by
  rw [onRead]
  split_ifs
  · exact emit_exchange rfl
  · exact emit_exchange rfl
  · rfl

theorem readDone_exchange (ec : ErrorCode) (res : ρ) (rest : Bytes) :
    (s.readDone ec res rest).exchange =
      { s.exchange with receives := s.reads - 1 } := by
  have hfinished : ({ s with reads := s.reads - 1 }.emit (.finished .read ec)).exchange =
      { s.exchange with receives := s.reads - 1 } := emit_exchange rfl
  rw [readDone]
  split_ifs
  · exact hfinished
  · rw [← hfinished]
    exact emit_exchange rfl

theorem writeDone_exchange (i : ℕ) (p : Owned μ) (ec : ErrorCode) :
    (s.writeDone i p ec).exchange = { s.exchange with sends := s.writes.eraseIdx i } :=
  emit_exchange rfl

/-! ## Refinement -/

/-- What the event does to the exchange. -/
def exchangeOp (s : Client μ ρ) : Event μ ρ → Option (Exchange.Op (Owned μ))
  | .call (.doWrite msg) => if s.handshake then some (.send ⟨s.made, msg⟩) else none
  | .call .doRead => if s.handshake then some .receive else none
  | .writeDone i ec => some (.sent i (!ec.failed && s.handshake))
  | .readDone _ _ _ => some .received
  | _ => none

theorem writeDone_step {i : ℕ} {p : Owned μ} (ec : ErrorCode) (h : s.writes[i]? = some p) :
    (Exchange.system (Owned μ)).step s.exchange (.sent i (!ec.failed && s.handshake)) =
      some ((s.writeDone i p ec).onWrite ec).exchange := by
  have hlt : i < s.exchange.sends.length := (List.getElem?_eq_some_iff.mp h).1
  have hdone := writeDone_exchange (s := s) i p ec
  rw [Exchange.step_sent _ hlt, onWrite]
  by_cases hec : ec.failed = true
  · rw [if_pos hec, fail, emit_exchange rfl, hdone, hec]
    rfl
  · rw [Bool.not_eq_true] at hec
    rw [hec]
    cases hopen : s.handshake with
    | true =>
      have hread := doRead_exchange (s := s.writeDone i p ec) hopen
      rw [hdone] at hread
      simp only [Bool.false_eq_true, if_false, hread]
      rfl
    | false =>
      have hread := doRead_closed (s := s.writeDone i p ec) hopen
      simp only [Bool.false_eq_true, if_false, hread, hdone]
      rfl

theorem call_step (c : Call μ) :
    (Exchange.system (Owned μ)).perform s.exchange (s.exchangeOp (.call c)) =
      some (s.call c).exchange := by
  cases c with
  | doHandshake =>
    rw [call, doHandshake]
    split_ifs
    · rfl
    · exact congrArg some (emit_exchange rfl).symm
  | doRead =>
    rw [exchangeOp, call]
    cases hopen : s.handshake with
    | true =>
      rw [doRead_exchange hopen]
      rfl
    | false =>
      rw [doRead_closed hopen]
      rfl
  | doWrite msg =>
    rw [exchangeOp, call]
    cases hopen : s.handshake with
    | true =>
      rw [doWrite_exchange msg hopen]
      rfl
    | false =>
      rw [doWrite, hopen]
      rfl
  | doClose => exact congrArg some (emit_exchange rfl).symm

/-- Each event of the session is at most one step of the exchange. -/
theorem refines_exchange :
    (system cb).Refines (Exchange.system (Owned μ)) exchange (exchangeOp (ρ := ρ)) := by
  intro s e t ht
  cases e with
  | call c =>
    cases ht
    exact call_step c
  | handshakeDone ec =>
    obtain ⟨_, rfl⟩ := handled_eq_some.mp ht
    rw [onHandshake_exchange, handshakeDone, emit_exchange rfl]
    rfl
  | readDone ec res rest =>
    obtain ⟨hpos, rfl⟩ := handled_eq_some.mp ht
    rw [onRead_exchange, readDone_exchange]
    exact if_pos hpos
  | writeDone i ec =>
    obtain ⟨p, hp, rfl⟩ := Option.map_eq_some_iff.mp ht
    exact writeDone_step ec hp
  | shutdownDone ec =>
    obtain ⟨_, rfl⟩ := handled_eq_some.mp ht
    rw [onShutdown_exchange, shutdownDone, emit_exchange rfl]
    rfl

/-- A write is outstanding only behind the handshake. -/
def Opened (s : Client μ ρ) : Prop := s.writes ≠ [] → s.handshake = true

theorem Opened.call (hs : s.Opened) (c : Call μ) : (s.call c).Opened := by
  cases c with
  | doHandshake =>
    rw [Client.call, doHandshake]
    split_ifs <;> exact hs
  | doRead =>
    rw [Client.call, doRead]
    split_ifs <;> exact hs
  | doWrite msg =>
    rw [Client.call, doWrite]
    split_ifs with hopen
    · exact fun _ => hopen
    · exact hs
  | doClose => exact hs

theorem Opened.step (s : Client μ ρ) (e : Event μ ρ) (t : Client μ ρ) (hs : s.Opened)
    (h : (system cb).step s e = some t) : t.Opened := by
  cases e with
  | call c =>
    cases h
    exact hs.call c
  | handshakeDone ec =>
    obtain ⟨_, rfl⟩ := handled_eq_some.mp h
    rw [onHandshake]
    split_ifs
    · exact hs
    · exact fun _ => rfl
    · exact fun _ => rfl
  | readDone ec res rest =>
    obtain ⟨_, rfl⟩ := handled_eq_some.mp h
    rw [onRead, readDone]
    split_ifs <;> exact hs
  | writeDone i ec =>
    obtain ⟨p, hp, rfl⟩ := Option.map_eq_some_iff.mp h
    have hopen : s.handshake = true := hs (List.ne_nil_of_mem (List.mem_of_getElem? hp))
    intro _
    rw [onWrite, doRead]
    split_ifs <;> exact hopen
  | shutdownDone ec =>
    obtain ⟨_, rfl⟩ := handled_eq_some.mp h
    rw [onShutdown]
    split_ifs <;> exact hs

theorem waits_iff {e : Event μ ρ} (hs : s.Opened) (h : (system cb).step s e = some t) :
    (∀ o ∈ s.exchangeOp e, s.exchange.Free o) ↔ s.Waits e := by
  cases e with
  | call c =>
    cases c with
    | doRead =>
      cases hopen : s.handshake <;> simp [exchangeOp, Waits, hopen, Exchange.Free, exchange]
    | doWrite msg =>
      cases hopen : s.handshake <;> simp [exchangeOp, Waits, hopen, Exchange.Free, exchange]
    | _ => simp [exchangeOp, Waits]
  | writeDone i ec =>
    obtain ⟨p, hp, _⟩ := Option.map_eq_some_iff.mp h
    have hopen : s.handshake = true := hs (List.ne_nil_of_mem (List.mem_of_getElem? hp))
    simp [exchangeOp, Waits, hopen, Exchange.Free, exchange]
  | _ => simp [exchangeOp, Waits, Exchange.Free]

end Client

/-- In every state of a run one write and one read at most are outstanding, `msg_p_` owns the
message that is being written and `res_` has not been assigned under a read, exactly when each
request waits for the write before it, each write that succeeds for the response before its own,
and a `do_read` of user code, if there is one, for the read before it. -/
theorem one_in_flight_iff {μ ρ : Type} (cb : Client.Callbacks) (es : List (Client.Event μ ρ)) :
    (Client.system cb).Throughout Client.OneInFlight {} es ↔
      (Client.system cb).Along Client.Waits {} es := by
  have hsingle : Client.OneInFlight = fun s : Client μ ρ => s.exchange.Single := by
    funext s
    exact propext Client.oneInFlight_iff
  have hinitial : (Client.exchange ({} : Client μ ρ)).Single := Exchange.single_initial
  rw [hsingle, Client.refines_exchange.throughout_iff_along (C := Exchange.Free)
    (fun x o y hx hy => hx.step_iff hy) hinitial]
  apply System.along_congr_of_invariant (I := Client.Opened)
  · exact Client.Opened.step
  · intro s e t hs h
    exact Client.waits_iff hs h
  · intro h
    exact absurd rfl h

/-- The requests `a` and `b` are written at once; or `b` is written before the response to `a`
has come. -/
def Client.requests : List (Client.Event Char Unit) :=
  [.call .doHandshake, .handshakeDone .success, .call (.doWrite 'a')]

theorem two_requests_in_flight :
    (∃ s, (Client.system {}).run {} (Client.requests ++ [.call (.doWrite 'b')]) = some s ∧
      s.writes = [⟨0, 'a'⟩, ⟨1, 'b'⟩] ∧ s.msgP = some ⟨1, 'b'⟩) ∧
    ∃ s, (Client.system {}).run {} (Client.requests ++ [.writeDone 0 .success,
        .call (.doWrite 'b'), .writeDone 0 .success]) = some s ∧
      s.reads = 2 ∧ Client.Obs.reset 1 ∈ s.log :=
  ⟨⟨_, rfl, rfl, rfl⟩, ⟨_, rfl, rfl, by decide⟩⟩

end BeastWebsocket.Https
