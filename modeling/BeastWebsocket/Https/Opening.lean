import BeastWebsocket.Https.Server
import Mathlib.Tactic.SplitIfs

/-! # The flag of the handshake

The session sets `handshake` when a handshake succeeds, and nothing clears it.
-/
namespace BeastWebsocket.Https.Server
open Transition

variable {μ η ρ : Type} {s t : Server μ η ρ}

/-- The event completes the handshake with success. -/
def Event.opens : Event μ ρ → Bool
  | .handshakeDone .success _ => true
  | _ => false

/-- The flag, and what the record says about it. -/
def flags (s : Server μ η ρ) : Bool × Bool := (s.handshake, opened s.log)

theorem emit_flags {o : Obs μ η ρ} (h : o.isOpening = false) : (s.emit o).flags = s.flags := by
  simp only [flags, emit, opened, List.any_append, List.any_cons, List.any_nil, h, Bool.or_false]

theorem doRead_flags : s.doRead.flags = s.flags := by
  rw [doRead]
  split_ifs
  · exact emit_flags (s := { s with req := none, reads := s.reads + 1 }) rfl
  · rfl

theorem startFront_flags : s.startFront.flags = s.flags := by
  rw [startFront]
  cases s.items with
  | nil => rfl
  | cons msg rest => exact emit_flags (s := { s with writes := s.writes ++ [msg] }) rfl

theorem invokeNext_flags (cbs : List η) : (s.invokeNext cbs).flags = s.flags := by
  cases cbs with
  | nil =>
    rw [invokeNext, finishRequest]
    split_ifs
    · rfl
    · exact doRead_flags
  | cons cb rest => exact emit_flags (s := { s with running := some rest }) rfl

theorem doWrite_flags (msg : Response ρ) : (s.doWrite msg).flags = s.flags := by
  have hposted : (s.emit (.posted msg)).flags = s.flags := emit_flags rfl
  rw [doWrite]
  split_ifs
  · rw [push]
    split_ifs
    · exact startFront_flags.trans hposted
    · exact hposted
  · rfl

theorem call_flags (c : Call ρ) : (s.call c).flags = s.flags := by
  cases c with
  | doHandshake =>
    rw [call, doHandshake]
    split_ifs
    · rfl
    · exact emit_flags (s := { s with handshakes := s.handshakes + 1 }) rfl
  | doRead => exact doRead_flags
  | doWrite msg => exact doWrite_flags msg
  | doClose => exact emit_flags (s := { s with shutdowns := s.shutdowns + 1 }) rfl

theorem onWrite_flags (ec : ErrorCode) (close : Bool) : (s.onWrite ec close).flags = s.flags := by
  have hpop : s.pop.1.flags = s.flags := startFront_flags
  rw [onWrite]
  split_ifs
  · exact emit_flags rfl
  · exact emit_flags (s := { s with shutdowns := s.shutdowns + 1 }) rfl
  · exact emit_flags rfl
  · exact doRead_flags.trans hpop
  · exact hpop

theorem readDone_flags (ec : ErrorCode) (req : Request μ) (rest : Bytes) :
    (s.readDone ec req rest).flags = s.flags := by
  rw [readDone]
  split_ifs <;> simp [flags, emit]

theorem onRead_flags (cbs : List η) (ec : ErrorCode) : (s.onRead cbs ec).flags = s.flags := by
  rw [onRead]
  split_ifs
  · exact emit_flags (s := { s with shutdowns := s.shutdowns + 1 }) rfl
  · exact emit_flags rfl
  · exact invokeNext_flags cbs

theorem onShutdown_flags (ec : ErrorCode) : (s.onShutdown ec).flags = s.flags := by
  rw [onShutdown]
  split_ifs
  · exact emit_flags rfl
  · rfl

theorem onHandshake_flags (ec : ErrorCode) (bytesUsed : ℕ) :
    ((s.handshakeDone ec).onHandshake ec bytesUsed).flags =
      if ec.failed then s.flags else (true, true) := by
  rw [onHandshake]
  cases ec with
  | success =>
    rw [if_neg (by decide), doRead_flags]
    simp [flags, handshakeDone, emit, ErrorCode.failed]
  | _ => simp [flags, handshakeDone, fail, emit, ErrorCode.failed]

variable [DecidableEq μ] {regexMatch : Bytes → Bytes → Bool} {router : Router μ η}

theorem step_flags {e : Event μ ρ} (ht : (system regexMatch router).step s e = some t) :
    t.flags = if e.opens then (true, true) else s.flags := by
  cases e with
  | call c =>
    cases ht
    exact call_flags c
  | handshakeDone ec bytesUsed =>
    obtain ⟨_, rfl⟩ := handled_eq_some.mp ht
    rw [onHandshake_flags]
    cases ec <;> rfl
  | readDone ec req rest =>
    obtain ⟨_, rfl⟩ := handled_eq_some.mp ht
    exact (onRead_flags _ ec).trans (readDone_flags ec req rest)
  | writeDone i ec =>
    obtain ⟨msg, _, ht⟩ := Option.bind_eq_some_iff.mp ht
    obtain ⟨_, rfl⟩ := handled_eq_some.mp ht
    exact (onWrite_flags ec _).trans
      (emit_flags (s := { s with writes := s.writes.eraseIdx i }) rfl)
  | shutdownDone ec =>
    obtain ⟨_, rfl⟩ := handled_eq_some.mp ht
    exact (onShutdown_flags ec).trans
      (emit_flags (s := { s with shutdowns := s.shutdowns - 1 }) rfl)
  | resume =>
    obtain ⟨rest, _, rfl⟩ := Option.map_eq_some_iff.mp ht
    exact invokeNext_flags rest

theorem step_handshake {e : Event μ ρ} (ht : (system regexMatch router).step s e = some t) :
    t.handshake = (s.handshake || e.opens) := by
  have hflag := congrArg Prod.fst (step_flags ht)
  cases h : e.opens <;> simp_all [flags]

/-- The flag tells whether a handshake has succeeded. -/
theorem handshake_eq_opened {es : List (Event μ ρ)}
    (hrun : (system regexMatch router).run {} es = some s) : s.handshake = opened s.log := by
  refine System.run_inductive (I := fun u => u.handshake = opened u.log) ?_ rfl hrun
  intro u e v hu hv
  have hflags := step_flags hv
  cases h : e.opens <;> simp_all [flags]

end BeastWebsocket.Https.Server
