import BeastWebsocket.Https.Queue
import BeastWebsocket.Transition.History

/-! # Shutting down an HTTPS connection

`on_read` shuts the stream down at its end, whatever is queued or being written, and `on_write`
after a response with `need_eof`. Neither knows of a shutdown that the other one has initiated.
-/
namespace BeastWebsocket.Https
open Channel Transition

section Record
variable {μ η ρ : Type}

/-- The responses ahead of any `need_eof` response that have not been sent. -/
def unsentAhead (log : List (Obs μ η ρ)) : List (Response ρ) :=
  ((posted log).takeWhile fun msg => !msg.needEof).drop (sent log).length

/-- A shutdown is the first one, no write is outstanding, and every response ahead of any
`need_eof` response has been sent. -/
def LawfulShutdown (past : List (Obs μ η ρ)) : Obs μ η ρ → Prop
  | .started .shutdown =>
      shutDown past = false ∧ (handed past).length = (written past).length ∧ unsentAhead past = []
  | _ => True

end Record

namespace Server
variable {μ η ρ : Type} {s t : Server μ η ρ}

def Orderly (s : Server μ η ρ) : Prop := EachAfter LawfulShutdown s.log

/-- User code does not call `do_close`. -/
def LeavesClosing : Event μ ρ → Prop
  | .call .doClose => False
  | _ => True

/-- Nothing is being written, and nothing is queued unless a `need_eof` response has failed. -/
def Idle (s : Server μ η ρ) : Prop :=
  s.writes = [] ∧ ∀ msg ∈ s.items.head?, msg.needEof = true

/-- The end of the stream finds the session idle and not shut down, and a `need_eof` response is
sent before any shutdown. -/
def ClosesOnce (s : Server μ η ρ) : Event μ ρ → Prop
  | .readDone .endOfStream _ _ => shutDown s.log = false ∧ s.Idle
  | .writeDone i .success =>
      ∀ msg ∈ s.writes[i]?, msg.needEof = true → shutDown s.log = false
  | _ => True

instance (e : Event μ ρ) : Decidable (LeavesClosing e) :=
  match e with
  | .call .doClose => isFalse id
  | .call .doHandshake | .call .doRead | .call (.doWrite _) | .handshakeDone _ _
  | .readDone _ _ _ | .writeDone _ _ | .shutdownDone _ | .resume => isTrue trivial

instance (s : Server μ η ρ) : Decidable s.Idle :=
  inferInstanceAs (Decidable (_ ∧ _))

instance (s : Server μ η ρ) (e : Event μ ρ) : Decidable (s.ClosesOnce e) :=
  match e with
  | .readDone .endOfStream _ _ => inferInstanceAs (Decidable (shutDown s.log = false ∧ s.Idle))
  | .writeDone i .success => inferInstanceAs (Decidable
      (∀ msg ∈ s.writes[i]?, msg.needEof = true → shutDown s.log = false))
  | .readDone .success _ _ | .readDone .eof _ _ | .readDone (.other _) _ _
  | .writeDone _ .endOfStream | .writeDone _ .eof | .writeDone _ (.other _)
  | .call _ | .handshakeDone _ _ | .shutdownDone _ | .resume => isTrue trivial

/-! ## Functions that do not shut down -/

theorem emit_orderly {o : Obs μ η ρ} (h : o.isShutdown = false) :
    (s.emit o).Orderly ↔ s.Orderly := by
  rw [Orderly, emit, EachAfter.snoc]
  apply and_iff_left
  cases o with
  | started op =>
    cases op with
    | shutdown => cases h
    | _ => trivial
  | _ => trivial

theorem doRead_orderly : s.doRead.Orderly ↔ s.Orderly := by
  rw [doRead]
  split_ifs
  · apply emit_orderly (s := { s with req := none, reads := s.reads + 1 }) rfl
  · rfl

theorem startFront_orderly : s.startFront.Orderly ↔ s.Orderly := by
  rw [startFront]
  cases s.items with
  | nil => rfl
  | cons msg rest => apply emit_orderly (s := { s with writes := s.writes ++ [msg] }) rfl

theorem invokeNext_orderly (cbs : List η) : (s.invokeNext cbs).Orderly ↔ s.Orderly := by
  cases cbs with
  | nil =>
    rw [invokeNext, finishRequest]
    split_ifs
    · rfl
    · apply doRead_orderly
  | cons cb rest => apply emit_orderly (s := { s with running := some rest }) rfl

theorem doWrite_orderly (msg : Response ρ) : (s.doWrite msg).Orderly ↔ s.Orderly := by
  have hposted : (s.emit (.posted msg)).Orderly ↔ s.Orderly := emit_orderly rfl
  rw [doWrite]
  split_ifs
  · rw [push]
    split_ifs
    · exact startFront_orderly.trans hposted
    · exact hposted
  · rfl

theorem readDone_orderly (ec : ErrorCode) (req : Request μ) (rest : Bytes) :
    (s.readDone ec req rest).Orderly ↔ s.Orderly := by
  have hdone : ({ s with reads := s.reads - 1 }.emit (.finished .read ec)).Orderly ↔ s.Orderly :=
    emit_orderly rfl
  rw [readDone]
  split_ifs
  · exact hdone
  · rw [emit_orderly rfl]
    exact hdone

theorem handshakeDone_orderly (ec : ErrorCode) (bytesUsed : ℕ) :
    ((s.handshakeDone ec).onHandshake ec bytesUsed).Orderly ↔ s.Orderly := by
  have hdone : (s.handshakeDone ec).Orderly ↔ s.Orderly := emit_orderly rfl
  rw [onHandshake]
  split_ifs
  · rw [fail, emit_orderly rfl]
    exact hdone
  · rw [doRead_orderly]
    exact hdone

theorem shutdownDone_orderly (ec : ErrorCode) :
    ((s.shutdownDone ec).onShutdown ec).Orderly ↔ s.Orderly := by
  have hdone : (s.shutdownDone ec).Orderly ↔ s.Orderly := emit_orderly rfl
  rw [onShutdown]
  split_ifs
  · rw [fail, emit_orderly rfl]
    exact hdone
  · exact hdone

/-! ## The two functions that do -/

/-- What a shutdown needs, read off the queue. -/
theorem lawful_iff (hs : s.pipeline.Sound Response.needEof) :
    LawfulShutdown s.log (.started .shutdown) ↔ shutDown s.log = false ∧ s.Idle := by
  have hcount : (handed s.log).length = (written s.log).length + s.writes.length := hs.count
  have hwrites : (handed s.log).length = (written s.log).length ↔ s.writes = [] := by
    rw [hcount, Nat.add_eq_left, List.length_eq_zero_iff]
  have hunsent : unsentAhead s.log = [] ↔ ∀ msg ∈ s.items.head?, msg.needEof = true := by
    have hqueue : unsentAhead s.log = s.items.takeWhile fun msg => !msg.needEof := hs.unsent
    rw [hqueue]
    cases s.items with
    | nil => simp
    | cons msg rest => simp [List.takeWhile_cons]
  rw [LawfulShutdown, hwrites, hunsent]
  rfl

theorem asyncShutdown_orderly (hs : s.pipeline.Sound Response.needEof) :
    s.asyncShutdown.Orderly ↔ s.Orderly ∧ shutDown s.log = false ∧ s.Idle := by
  have hsnoc : s.asyncShutdown.Orderly ↔ s.Orderly ∧ LawfulShutdown s.log (.started .shutdown) :=
    EachAfter.snoc
  rw [hsnoc, lawful_iff hs]

theorem onRead_orderly (hs : s.pipeline.Sound Response.needEof) (ho : s.Orderly) (cbs : List η)
    (ec : ErrorCode) (req : Request μ) (rest : Bytes) :
    ((s.readDone ec req rest).onRead cbs ec).Orderly ↔ s.ClosesOnce (.readDone ec req rest) := by
  have hdone : (s.readDone ec req rest).Orderly := (readDone_orderly ec req rest).mpr ho
  rw [onRead]
  by_cases hend : ec = .endOfStream
  · have hsound : (s.readDone ec req rest).pipeline.Sound Response.needEof := by
      rwa [readDone_pipeline]
    rw [if_pos hend, doClose, asyncShutdown_orderly hsound, and_iff_right hdone]
    subst hend
    simp [ClosesOnce, Idle, readDone, emit, ErrorCode.failed]
  · rw [if_neg hend]
    apply iff_of_true
    · split_ifs
      · exact (emit_orderly rfl).mpr hdone
      · exact (invokeNext_orderly cbs).mpr hdone
    · cases ec with
      | endOfStream => exact absurd rfl hend
      | _ => trivial

/-- A response with `need_eof` that has been sent leaves the session idle. -/
theorem sentLast_idle (hs : s.pipeline.Sound Response.needEof) {i : ℕ} {msg : Response ρ}
    (hw : s.writes[i]? = some msg) (heof : msg.needEof = true) :
    (s.writeDone i msg .success).pipeline.Sound Response.needEof ∧
      (s.writeDone i msg .success).Idle := by
  constructor
  · have hstep := onWrite_pipeline .success hw
    have hsuccess : ¬ ErrorCode.success.failed = true := by decide
    rw [if_neg hsuccess, onWrite, if_neg hsuccess, if_pos heof, doClose,
      asyncShutdown_pipeline] at hstep
    exact Pipeline.Sound.step _ _ _ hs hstep
  · obtain ⟨gone, hs⟩ := hs
    obtain ⟨q, hq, _, herase⟩ := hs.front hw
    have hitems : (s.writeDone i msg .success).items = msg :: q := hq
    refine ⟨herase, ?_⟩
    rw [hitems]
    simpa using heof

theorem onWrite_orderly (hs : s.pipeline.Sound Response.needEof) (ho : s.Orderly) {i : ℕ}
    {msg : Response ρ} (ec : ErrorCode) (hw : s.writes[i]? = some msg) :
    ((s.writeDone i msg ec).onWrite ec msg.needEof).Orderly ↔ s.ClosesOnce (.writeDone i ec) := by
  have hdone : (s.writeDone i msg ec).Orderly := (emit_orderly rfl).mpr ho
  rw [onWrite]
  cases ec with
  | success =>
    rw [if_neg (by decide)]
    by_cases heof : msg.needEof = true
    · obtain ⟨hsound, hidle⟩ := sentLast_idle hs hw heof
      rw [if_pos heof, doClose, asyncShutdown_orderly hsound, and_iff_right hdone,
        and_iff_left hidle]
      simp [ClosesOnce, hw, heof, writeDone, emit]
    · rw [if_neg heof]
      have hpop : (s.writeDone i msg .success).pop.1.Orderly := startFront_orderly.mpr hdone
      apply iff_of_true
      · split_ifs
        · exact (emit_orderly rfl).mpr hdone
        · exact doRead_orderly.mpr hpop
        · exact hpop
      · simp [ClosesOnce, hw, heof]
  | _ =>
    rw [if_pos (ErrorCode.failed_eq_true.mpr (by simp))]
    exact iff_of_true ((emit_orderly rfl).mpr hdone) trivial

variable [DecidableEq μ] {regexMatch : Bytes → Bytes → Bool} {router : Router μ η}

theorem step_orderly (s : Server μ η ρ) (e : Event μ ρ) (t : Server μ η ρ)
    (hs : s.pipeline.Sound Response.needEof) (hg : LeavesClosing e) (ho : s.Orderly)
    (ht : (system regexMatch router).step s e = some t) : t.Orderly ↔ s.ClosesOnce e := by
  cases e with
  | call c =>
    cases ht
    cases c with
    | doHandshake =>
      apply iff_of_true _ trivial
      rw [call, doHandshake]
      split_ifs
      · exact ho
      · exact (emit_orderly (s := { s with handshakes := s.handshakes + 1 }) rfl).mpr ho
    | doRead => exact iff_of_true (doRead_orderly.mpr ho) trivial
    | doWrite msg => exact iff_of_true ((doWrite_orderly msg).mpr ho) trivial
    | doClose => exact absurd hg id
  | handshakeDone ec bytesUsed =>
    obtain ⟨_, rfl⟩ := handled_eq_some.mp ht
    exact iff_of_true ((handshakeDone_orderly ec bytesUsed).mpr ho) trivial
  | readDone ec req rest =>
    obtain ⟨_, rfl⟩ := handled_eq_some.mp ht
    apply onRead_orderly hs ho
  | writeDone i ec =>
    obtain ⟨msg, hw, ht⟩ := Option.bind_eq_some_iff.mp ht
    obtain ⟨_, rfl⟩ := handled_eq_some.mp ht
    apply onWrite_orderly hs ho ec hw
  | shutdownDone ec =>
    obtain ⟨_, rfl⟩ := handled_eq_some.mp ht
    exact iff_of_true ((shutdownDone_orderly ec).mpr ho) trivial
  | resume =>
    obtain ⟨rest, _, rfl⟩ := Option.map_eq_some_iff.mp ht
    exact iff_of_true ((invokeNext_orderly rest).mpr ho) trivial

end Server

/-- Where user code leaves `do_close` to the session, every shutdown of a run is the first one
and finds no write outstanding and no response ahead of any `need_eof` response unsent, if and
only if the end of the stream only arrives while the session is idle and has not been shut down,
and each `need_eof` response is sent before any shutdown. -/
theorem orderly_shutdown_iff {μ η ρ : Type} [DecidableEq μ] (regexMatch : Bytes → Bytes → Bool)
    (router : Router μ η) (es : List (Server.Event μ ρ))
    (hcalls : (Server.system regexMatch router).Along (fun _ e => Server.LeavesClosing e) {} es) :
    (Server.system regexMatch router).Throughout Server.Orderly {} es ↔
      (Server.system regexMatch router).Along Server.ClosesOnce {} es :=
  System.throughout_iff_along (J := fun s => s.pipeline.Sound Response.needEof)
    Server.pipeline_sound Server.step_orderly hcalls Pipeline.sound_empty EachAfter.nil

/-- One request is answered, and the client ends its half of the stream after that. -/
def answeredThenEnd : List (Server.Event Unit ℕ) :=
  [.call .doHandshake, .handshakeDone .success 0, .readDone .success ⟨(), []⟩ [],
    .call (.doWrite ⟨0, false⟩), .resume, .writeDone 0 .success,
    .readDone .endOfStream ⟨(), []⟩ []]

theorem orderly_shutdown_answered :
    (Server.system (fun _ _ => true) oneHandler).Throughout Server.Orderly {} answeredThenEnd := by
  have hcalls : (Server.system (fun _ _ => true) oneHandler).Along
      (fun _ e => Server.LeavesClosing e) {} answeredThenEnd := by decide
  rw [orderly_shutdown_iff _ _ _ hcalls]
  decide

/-- The end of the stream arrives while the answer is being written. -/
def endWhileWriting : List (Server.Event Unit ℕ) :=
  [.call .doHandshake, .handshakeDone .success 0, .readDone .success ⟨(), []⟩ [],
    .call (.doWrite ⟨0, false⟩), .resume, .readDone .endOfStream ⟨(), []⟩ []]

theorem shutdown_while_writing :
    (Server.system (fun _ _ => true) oneHandler).Along (fun _ e => Server.LeavesClosing e) {}
        endWhileWriting ∧
      ∃ s, (Server.system (fun _ _ => true) oneHandler).run {} endWhileWriting = some s ∧
        s.writes = [⟨0, false⟩] ∧ ¬ s.Orderly := by
  refine ⟨by decide, _, rfl, rfl, ?_⟩
  intro h
  have hlawful := h _ (.started .shutdown) [] rfl
  exact absurd hlawful.2.1 (by decide)

end BeastWebsocket.Https
