import BeastWebsocket.Https.Server
import BeastWebsocket.Channel.Window
import Mathlib.Tactic.SplitIfs

/-! # When the HTTPS server reads

Reads are started when the handshake is done, when a request has been processed and the queue is
not full, and when a response leaves the full queue. Nothing tells `do_read` that a read is
outstanding.
-/
namespace BeastWebsocket.Https
open Channel Transition

section Record
variable {μ η ρ : Type}

def Obs.countReply (n : ℕ) : Obs μ η ρ → ℕ
  | received _ => 0
  | posted _ => n + 1
  | _ => n

/-- The responses posted since the last request was received. -/
def replies (log : List (Obs μ η ρ)) : ℕ := log.foldl Obs.countReply 0

@[simp] theorem replies_append (log : List (Obs μ η ρ)) (o : Obs μ η ρ) :
    replies (log ++ [o]) = o.countReply (replies log) := by
  rw [replies, List.foldl_append]
  rfl

end Record

namespace Server
variable {μ η ρ : Type} {s t : Server μ η ρ}

def window (s : Server μ η ρ) : Window where
  dialled := handshaken s.log
  opening := s.handshakes
  isOpen := s.handshake
  reads := s.reads
  lost := readBroken s.log
  serving := s.running.isSome
  queued := s.items.length
  replies := replies s.log

/-! ## What the functions do to the window -/

theorem asyncHandshake_window :
    s.asyncHandshake.window =
      { s.window with dialled := true, opening := s.window.opening + 1 } := by
  simp [window, asyncHandshake, emit, Obs.countReply]

theorem asyncWrite_window (msg : Response ρ) : (s.asyncWrite msg).window = s.window := by
  simp [window, asyncWrite, emit, Obs.countReply]

theorem asyncShutdown_window : s.asyncShutdown.window = s.window := by
  simp [window, asyncShutdown, emit, Obs.countReply]

theorem fail_window (ec : ErrorCode) (what : String) : (s.fail ec what).window = s.window := by
  simp [window, fail, emit, Obs.countReply]

theorem doRead_window : s.doRead.window = s.window.ask := by
  rw [doRead]
  by_cases h : s.handshake = true
  · rw [if_pos h]
    simp [window, Window.ask, asyncRead, emit, Obs.countReply, h]
  · rw [if_neg h]
    rw [Bool.not_eq_true] at h
    simp [window, Window.ask, h]

theorem startFront_window : s.startFront.window = s.window := by
  rw [startFront]
  cases s.items with
  | nil => rfl
  | cons msg rest => exact asyncWrite_window msg

theorem doWrite_window (msg : Response ρ) (h : s.handshake = true) :
    (s.doWrite msg).window =
      { s.window with queued := s.window.queued + 1, replies := s.window.replies + 1 } := by
  rw [doWrite, if_pos h, push]
  split_ifs
  · rw [startFront_window]
    simp [window, emit, Obs.countReply]
  · simp [window, emit, Obs.countReply]

theorem pop_window : s.pop.1.window = { s.window with queued := s.window.queued - 1 } := by
  rw [pop, startFront_window]
  simp [window]

theorem finishRequest_window : s.finishRequest.window = s.window.serve queueLimit := by
  rw [finishRequest, Window.serve]
  by_cases hfull : queueLimit ≤ s.items.length
  · rw [if_pos (by simpa [isFull] using hfull), if_pos (by exact hfull)]
    rfl
  · rw [if_neg (by simpa [isFull] using hfull), if_neg (by exact hfull), doRead_window]
    rfl

theorem invokeNext_window (cbs : List η) :
    (s.invokeNext cbs).window =
      if cbs.isEmpty then s.window.serve queueLimit else { s.window with serving := true } := by
  cases cbs with
  | nil => exact finishRequest_window
  | cons cb rest => simp [invokeNext, window, emit, Obs.countReply]

theorem handshakeDone_window (ec : ErrorCode) :
    (s.handshakeDone ec).window = { s.window with opening := s.window.opening - 1 } := by
  simp [window, handshakeDone, emit, Obs.countReply]

theorem shutdownDone_window (ec : ErrorCode) : (s.shutdownDone ec).window = s.window := by
  simp [window, shutdownDone, emit, Obs.countReply]

theorem onShutdown_window (ec : ErrorCode) : (s.onShutdown ec).window = s.window := by
  rw [onShutdown]
  split_ifs
  · exact fail_window ec _
  · rfl

theorem writeDone_window (i : ℕ) (msg : Response ρ) (ec : ErrorCode) :
    (s.writeDone i msg ec).window = s.window := by
  simp [window, writeDone, emit, Obs.countReply]

theorem readDone_window (ec : ErrorCode) (req : Request μ) (rest : Bytes) :
    (s.readDone ec req rest).window =
      if ec.failed then { s.window with reads := s.window.reads - 1, lost := true }
      else { s.window with reads := s.window.reads - 1, replies := 0 } := by
  cases ec with
  | success =>
    have hreplies : replies ((s.log ++ [.finished .read .success]) ++ [.received req]) = 0 :=
      replies_append _ _
    simp [window, readDone, emit, ErrorCode.failed] at hreplies ⊢
    exact hreplies
  | _ => simp [window, readDone, emit, Obs.countReply, ErrorCode.failed]

/-- What the event does to the window, where a request may find no list of handlers. -/
def windowOp [DecidableEq μ] (regexMatch : Bytes → Bytes → Bool) (router : Router μ η)
    (s : Server μ η ρ) : Event μ ρ → Option Window.Op
  | .call .doHandshake => if s.handshake then none else some .dial
  | .call .doRead => some .read
  | .call (.doWrite _) => if s.handshake then some .post else none
  | .call .doClose => none
  | .handshakeDone ec _ => some (if ec.failed then .refused else .opened)
  | .readDone ec req _ =>
      some (if ec.failed then .broken
        else .arrive (router.dispatch regexMatch req).calls.isEmpty)
  | .writeDone i ec => s.writes[i]?.bind fun msg =>
      if ec.failed || msg.needEof || s.items.isEmpty then none else some .drain
  | .shutdownDone _ => none
  | .resume =>
      match s.running with
      | some [] => some .finish
      | _ => none

theorem handshakeDone_step (ec : ErrorCode) (bytesUsed : ℕ) (hidle : s.running = none)
    (h : 0 < s.handshakes) :
    (Window.system queueLimit).step s.window (if ec.failed then .refused else .opened) =
      some ((s.handshakeDone ec).onHandshake ec bytesUsed).window := by
  have hopening : 0 < s.window.opening := h
  have hserving : s.window.serving = false := congrArg Option.isSome hidle
  have hdone := handshakeDone_window (s := s) ec
  rw [onHandshake]
  by_cases hec : ec.failed = true
  · rw [if_pos hec, if_pos hec, fail_window, hdone]
    simp [Window.system, Window.step, hopening, hserving]
  · have hflag : ∀ b, ({ s.handshakeDone ec with handshake := true, buffer := b } :
        Server μ η ρ).window = { (s.handshakeDone ec).window with isOpen := true } := fun _ => rfl
    rw [if_neg hec, if_neg hec, doRead_window, hflag, hdone]
    simp [Window.system, Window.step, hopening, hserving]

theorem readDone_step (cbs : List η) (ec : ErrorCode) (req : Request μ) (rest : Bytes)
    (hidle : s.running = none) (h : 0 < s.reads) :
    (Window.system queueLimit).step s.window
        (if ec.failed then .broken else .arrive cbs.isEmpty) =
      some ((s.readDone ec req rest).onRead cbs ec).window := by
  have hreads : 0 < s.window.reads := h
  have hserving : s.window.serving = false := congrArg Option.isSome hidle
  have hdone := readDone_window (s := s) ec req rest
  rw [onRead]
  by_cases hec : ec.failed = true
  · rw [if_pos hec] at hdone ⊢
    have hclose : ((if ec = .endOfStream then (s.readDone ec req rest).doClose
        else if ec.failed then (s.readDone ec req rest).fail ec "read"
        else (s.readDone ec req rest).invokeNext cbs)).window =
        (s.readDone ec req rest).window := by
      rw [if_pos hec]
      split_ifs
      · exact asyncShutdown_window
      · exact fail_window ec _
    rw [hclose, hdone]
    simp [Window.system, Window.step, hreads, hserving]
  · have hopen : ec ≠ .endOfStream := by
      rintro rfl
      exact hec rfl
    rw [if_neg hec] at hdone ⊢
    rw [if_neg hopen, if_neg hec, invokeNext_window, hdone]
    cases hcbs : cbs.isEmpty <;>
      simp [Window.system, Window.step, Window.serve, Window.ask, hreads, hserving]

theorem writeDone_step {i : ℕ} {msg : Response ρ} (ec : ErrorCode) (hidle : s.running = none) :
    (Window.system queueLimit).perform s.window
        (if ec.failed || msg.needEof || s.items.isEmpty then none else some .drain) =
      some ((s.writeDone i msg ec).onWrite ec msg.needEof).window := by
  have hserving : s.window.serving = false := congrArg Option.isSome hidle
  have hdone := writeDone_window (s := s) i msg ec
  have hitems : (s.writeDone i msg ec).items = s.items := rfl
  have hfull : (s.writeDone i msg ec).pop.2 = decide (queueLimit ≤ s.window.queued) := rfl
  rw [onWrite, hitems, hfull]
  by_cases hec : ec.failed = true
  · rw [if_pos hec, fail_window, hdone, hec]
    rfl
  · rw [if_neg hec]
    by_cases heof : msg.needEof = true
    · rw [if_pos heof, doClose, asyncShutdown_window, hdone, heof, Bool.or_true]
      rfl
    · rw [if_neg heof]
      by_cases hempty : s.items.isEmpty = true
      · rw [if_pos hempty, hempty, Bool.or_true]
        have hfailed : ((s.writeDone i msg ec).emit .assertFailed).window =
            (s.writeDone i msg ec).window := by
          simp [window, emit, Obs.countReply]
        rw [hfailed, hdone]
        rfl
      · have hqueued : 0 < s.window.queued := by
          rw [List.isEmpty_iff] at hempty
          exact List.length_pos_iff.mpr hempty
        rw [if_neg hempty, if_neg (by simp [hec, heof, hempty])]
        by_cases hlimit : queueLimit ≤ s.window.queued
        · rw [if_pos (decide_eq_true hlimit), doRead_window, pop_window, hdone]
          simp [System.perform, Window.system, Window.step, hqueued, hserving, hlimit]
        · rw [if_neg (by simpa using hlimit), pop_window, hdone]
          simp [System.perform, Window.system, Window.step, hqueued, hserving, hlimit]

/-! ## Refinement -/

section Refinement
variable [DecidableEq μ] {regexMatch : Bytes → Bytes → Bool} {router : Router μ η}

/-- Each event of the session is at most one step of the window. -/
theorem refines_window :
    (system (ρ := ρ) regexMatch router).Refines (Window.system queueLimit) window
      (windowOp regexMatch router) := by
  intro s e t ht
  cases e with
  | call c =>
    cases ht
    cases c with
    | doHandshake =>
      rw [call, doHandshake, windowOp]
      by_cases h : s.handshake = true
      · rw [if_pos h, if_pos h]
        rfl
      · have hclosed : s.window.isOpen = false := Bool.not_eq_true _ ▸ h
        rw [if_neg h, if_neg h, asyncHandshake_window]
        simp [System.perform, Window.system, Window.step, hclosed]
    | doRead => exact congrArg some doRead_window.symm
    | doClose => exact congrArg some asyncShutdown_window.symm
    | doWrite msg =>
      rw [call, windowOp]
      by_cases h : s.handshake = true
      · rw [if_pos h, doWrite_window msg h]
        rfl
      · rw [if_neg h, doWrite, if_neg h]
        rfl
  | handshakeDone ec bytesUsed =>
    obtain ⟨⟨hidle, h⟩, rfl⟩ := handled_eq_some.mp ht
    exact handshakeDone_step ec bytesUsed hidle h
  | readDone ec req rest =>
    obtain ⟨⟨hidle, h⟩, rfl⟩ := handled_eq_some.mp ht
    exact readDone_step (router.dispatch regexMatch req).calls ec req rest hidle h
  | writeDone i ec =>
    obtain ⟨msg, hw, ht⟩ := Option.bind_eq_some_iff.mp ht
    obtain ⟨⟨hidle, _⟩, rfl⟩ := handled_eq_some.mp ht
    rw [windowOp, hw]
    exact writeDone_step ec hidle
  | shutdownDone ec =>
    obtain ⟨_, rfl⟩ := handled_eq_some.mp ht
    rw [onShutdown_window, shutdownDone_window]
    rfl
  | resume =>
    obtain ⟨rest, hrunning, rfl⟩ := Option.map_eq_some_iff.mp ht
    have hserving : s.window.serving = true := by
      rw [window, hrunning]
      rfl
    rw [windowOp, hrunning, invokeNext_window]
    cases rest with
    | nil => simp [System.perform, Window.system, Window.step, hserving]
    | cons cb rest =>
      have hkept : ({ s.window with serving := true } : Window) = s.window := by
        rw [← hserving]
      simp [System.perform, hkept]

end Refinement
end Server
end BeastWebsocket.Https
