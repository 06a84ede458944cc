import BeastWebsocket.Https.Opening
import BeastWebsocket.Channel.Pipeline

/-! # The response queue of the HTTPS server

The queue of the session is a queue with one writer: `do_write` posts to it, and a write that
completes with success and without `need_eof` takes its response out. It is jammed once a write
has failed or has carried `need_eof`, for then `on_write` returns before it informs the queue.
-/
namespace BeastWebsocket.Https
open Channel Transition

namespace Server
variable {μ η ρ : Type} {s t : Server μ η ρ}

def pipeline (s : Server μ η ρ) : Pipeline (Response ρ) where
  queue := s.items
  flight := s.writes
  posted := posted s.log
  started := handed s.log
  completed := written s.log
  sent := sent s.log
  jammed := broken s.log
  underflow := assertFailed s.log

/-- What the event does to the queue. -/
def queueOp (s : Server μ η ρ) : Event μ ρ → Option (Pipeline.Op (Response ρ))
  | .call (.doWrite msg) => if s.handshake then some (.post msg) else none
  | .writeDone i ec => some (if ec.failed then .broke i else .wrote i)
  | _ => none

/-! ## Functions that leave the queue alone -/

theorem asyncHandshake_pipeline : s.asyncHandshake.pipeline = s.pipeline := by
  simp [pipeline, asyncHandshake, emit]

theorem asyncShutdown_pipeline : s.asyncShutdown.pipeline = s.pipeline := by
  simp [pipeline, asyncShutdown, emit]

theorem fail_pipeline (ec : ErrorCode) (what : String) :
    (s.fail ec what).pipeline = s.pipeline := by
  simp [pipeline, fail, emit]

theorem doRead_pipeline : s.doRead.pipeline = s.pipeline := by
  rw [doRead]
  split_ifs
  · simp [pipeline, asyncRead, emit]
  · rfl

theorem handshakeDone_pipeline (ec : ErrorCode) : (s.handshakeDone ec).pipeline = s.pipeline := by
  simp [pipeline, handshakeDone, emit]

theorem shutdownDone_pipeline (ec : ErrorCode) : (s.shutdownDone ec).pipeline = s.pipeline := by
  simp [pipeline, shutdownDone, emit]

theorem readDone_pipeline (ec : ErrorCode) (req : Request μ) (rest : Bytes) :
    (s.readDone ec req rest).pipeline = s.pipeline := by
  rw [readDone]
  split_ifs <;> simp [pipeline, emit]

theorem onHandshake_pipeline (ec : ErrorCode) (bytesUsed : ℕ) :
    (s.onHandshake ec bytesUsed).pipeline = s.pipeline := by
  rw [onHandshake]
  split_ifs
  · exact fail_pipeline ec _
  · exact doRead_pipeline

theorem onShutdown_pipeline (ec : ErrorCode) : (s.onShutdown ec).pipeline = s.pipeline := by
  rw [onShutdown]
  split_ifs
  · exact fail_pipeline ec _
  · rfl

theorem finishRequest_pipeline : s.finishRequest.pipeline = s.pipeline := by
  rw [finishRequest]
  split_ifs
  · rfl
  · exact doRead_pipeline

theorem invokeNext_pipeline (cbs : List η) : (s.invokeNext cbs).pipeline = s.pipeline := by
  cases cbs with
  | nil => exact finishRequest_pipeline
  | cons cb rest => simp [pipeline, invokeNext, emit]

theorem onRead_pipeline (cbs : List η) (ec : ErrorCode) :
    (s.onRead cbs ec).pipeline = s.pipeline := by
  rw [onRead]
  split_ifs
  · exact asyncShutdown_pipeline
  · exact fail_pipeline ec _
  · exact invokeNext_pipeline cbs

/-! ## Functions that work on the queue -/

theorem startFront_pipeline : s.startFront.pipeline = s.pipeline.startFront := by
  cases h : s.items <;> simp [pipeline, startFront, Pipeline.startFront, asyncWrite, emit, h]

theorem doWrite_pipeline (msg : Response ρ) (h : s.handshake = true) :
    (s.doWrite msg).pipeline =
      if s.items.isEmpty then (s.pipeline.push msg).startFront else s.pipeline.push msg := by
  rw [doWrite, if_pos h]
  cases hq : s.items <;>
    simp [push, pipeline, startFront, Pipeline.startFront, Pipeline.push, asyncWrite, emit, hq,
      List.filterMap_cons]

theorem pop_pipeline (h : s.items.isEmpty = false) :
    s.pop.1.pipeline = s.pipeline.pop.startFront := by
  rw [pop, startFront_pipeline]
  simp only [pipeline, Pipeline.pop, h, Bool.or_false]

theorem writeDone_pipeline (i : ℕ) (msg : Response ρ) (ec : ErrorCode) :
    (s.writeDone i msg ec).pipeline =
      { s.pipeline with
        flight := s.pipeline.flight.eraseIdx i
        completed := s.pipeline.completed ++ [msg]
        sent := if ec.failed then s.pipeline.sent else s.pipeline.sent ++ [msg]
        jammed := s.pipeline.jammed || (ec.failed || msg.needEof) } := by
  cases ec <;> simp [pipeline, writeDone, emit, ErrorCode.failed, List.filterMap_cons]

theorem onWrite_rest_pipeline :
    (if s.items.isEmpty then s.emit .assertFailed
      else if s.pop.2 then s.pop.1.doRead else s.pop.1).pipeline = s.pipeline.pop.startFront := by
  by_cases h : s.items.isEmpty = true
  · rw [if_pos h]
    rw [List.isEmpty_iff] at h
    simp [pipeline, Pipeline.pop, Pipeline.startFront, emit, h, List.filterMap_cons]
  · rw [if_neg h]
    rw [Bool.not_eq_true] at h
    rw [← pop_pipeline h]
    split_ifs
    · exact doRead_pipeline
    · rfl

/-- A write that completes is one step of the queue. -/
theorem onWrite_pipeline {i : ℕ} {msg : Response ρ} (ec : ErrorCode)
    (hw : s.writes[i]? = some msg) :
    (Pipeline.system Response.needEof).step s.pipeline
        (if ec.failed then .broke i else .wrote i) =
      some ((s.writeDone i msg ec).onWrite ec msg.needEof).pipeline := by
  have hflight : s.pipeline.flight[i]? = some msg := hw
  have hdone := writeDone_pipeline (s := s) i msg ec
  rw [onWrite]
  by_cases hec : ec.failed = true
  · rw [if_pos hec, if_pos hec, fail_pipeline, hdone]
    simp [Pipeline.system, Pipeline.step, hflight, hec]
  · rw [if_neg hec, if_neg hec]
    by_cases heof : msg.needEof = true
    · rw [if_pos heof, doClose, asyncShutdown_pipeline, hdone]
      simp [Pipeline.system, Pipeline.step, hflight, hec, heof]
    · rw [if_neg heof, onWrite_rest_pipeline, hdone]
      simp [Pipeline.system, Pipeline.step, hflight, hec, heof]

/-! ## Refinement -/

variable [DecidableEq μ] {regexMatch : Bytes → Bytes → Bool} {router : Router μ η}

/-- Each event of the session is at most one step of its queue. -/
theorem refines_pipeline :
    (system (ρ := ρ) regexMatch router).Refines (Pipeline.system Response.needEof) pipeline
      queueOp := by
  intro s e t ht
  cases e with
  | call c =>
    cases ht
    cases c with
    | doHandshake =>
      apply congrArg some
      rw [call, doHandshake]
      split_ifs
      · rfl
      · exact asyncHandshake_pipeline.symm
    | doRead => exact congrArg some doRead_pipeline.symm
    | doClose => exact congrArg some asyncShutdown_pipeline.symm
    | doWrite msg =>
      by_cases h : s.handshake = true
      · rw [queueOp, if_pos h, call, doWrite_pipeline msg h]
        rfl
      · rw [queueOp, if_neg h, call, doWrite, if_neg h]
        rfl
  | handshakeDone ec bytesUsed =>
    obtain ⟨_, rfl⟩ := handled_eq_some.mp ht
    rw [onHandshake_pipeline, handshakeDone_pipeline]
    rfl
  | readDone ec req rest =>
    obtain ⟨_, rfl⟩ := handled_eq_some.mp ht
    rw [onRead_pipeline, readDone_pipeline]
    rfl
  | writeDone i ec =>
    obtain ⟨msg, hw, ht⟩ := Option.bind_eq_some_iff.mp ht
    obtain ⟨_, rfl⟩ := handled_eq_some.mp ht
    exact onWrite_pipeline ec hw
  | shutdownDone ec =>
    obtain ⟨_, rfl⟩ := handled_eq_some.mp ht
    rw [onShutdown_pipeline, shutdownDone_pipeline]
    rfl
  | resume =>
    obtain ⟨rest, _, rfl⟩ := Option.map_eq_some_iff.mp ht
    rw [invokeNext_pipeline]
    rfl

/-- The account of the queue is kept by every event. -/
theorem pipeline_sound (s : Server μ η ρ) (e : Event μ ρ) (t : Server μ η ρ)
    (hs : s.pipeline.Sound Response.needEof)
    (ht : (system regexMatch router).step s e = some t) : t.pipeline.Sound Response.needEof :=
  refines_pipeline.step_invariant (C := System.unguarded)
    (fun x o y hx _ => Pipeline.Sound.step x o y hx) hs (fun _ _ => trivial) ht

/-- Once a write has failed or carried `need_eof`, no event starts another one. -/
theorem broken_step (hs : s.pipeline.Sound Response.needEof) {e : Event μ ρ}
    (hbroken : broken s.log = true) (ht : (system regexMatch router).step s e = some t) :
    broken t.log = true ∧ handed t.log = handed s.log := by
  have hperform := refines_pipeline s e t ht
  cases hop : s.queueOp e with
  | none =>
    rw [hop] at hperform
    have heq : s.pipeline = t.pipeline := Option.some.inj hperform
    exact ⟨(congrArg Pipeline.jammed heq).symm.trans hbroken,
      (congrArg Pipeline.started heq).symm⟩
  | some o =>
    rw [hop] at hperform
    exact hs.jammed_step hbroken hperform

theorem broken_run (hs : s.pipeline.Sound Response.needEof) {es : List (Event μ ρ)}
    (hbroken : broken s.log = true) (hrun : (system regexMatch router).run s es = some t) :
    handed t.log = handed s.log := by
  have hkept : t.pipeline.Sound Response.needEof ∧ broken t.log = true ∧
      handed t.log = handed s.log := by
    refine System.run_inductive (I := fun u => u.pipeline.Sound Response.needEof ∧
      broken u.log = true ∧ handed u.log = handed s.log) ?_ ⟨hs, hbroken, rfl⟩ hrun
    rintro u e v ⟨hu, hb, hlog⟩ hv
    have hstep := broken_step hu hb hv
    exact ⟨pipeline_sound u e v hu hv, hstep.1, hstep.2.trans hlog⟩
  exact hkept.2.2

/-! ## The calls of `do_write` that the handshake lets through -/

def Event.response : Event μ ρ → List (Response ρ)
  | .call (.doWrite msg) => [msg]
  | _ => []

/-- The responses that a run hands to `do_write` after the handshake, in order. -/
def doWrites : Bool → List (Event μ ρ) → List (Response ρ)
  | _, [] => []
  | handshake, e :: es =>
      (if handshake then e.response else []) ++ doWrites (handshake || e.opens) es

theorem step_posted {e : Event μ ρ} (ht : (system regexMatch router).step s e = some t) :
    posted t.log = posted s.log ++ if s.handshake then e.response else [] := by
  have hperform := refines_pipeline s e t ht
  have hop : (s.queueOp e).elim [] Pipeline.Op.posts = if s.handshake then e.response else [] := by
    cases e with
    | call c =>
      cases c <;> cases hs : s.handshake <;>
        simp [queueOp, Event.response, hs, Pipeline.Op.posts]
    | writeDone i ec =>
      cases hec : ec.failed <;> simp [queueOp, Event.response, Pipeline.Op.posts, hec]
    | _ => simp [queueOp, Event.response]
  rw [← hop]
  cases ho : s.queueOp e with
  | none =>
    rw [ho] at hperform
    have heq : s.pipeline = t.pipeline := Option.some.inj hperform
    exact (congrArg Pipeline.posted heq).symm.trans (List.append_nil _).symm
  | some o =>
    rw [ho] at hperform
    exact Pipeline.posted_step hperform

theorem run_posted {es : List (Event μ ρ)} (hrun : (system regexMatch router).run s es = some t) :
    posted t.log = posted s.log ++ doWrites s.handshake es := by
  induction es generalizing s with
  | nil =>
    cases hrun
    exact (List.append_nil _).symm
  | cons e es ih =>
    obtain ⟨u, hu, hrun⟩ := System.run_cons_eq_some _ |>.mp hrun
    rw [ih hrun, step_posted hu, step_handshake hu, doWrites, List.append_assoc]

end Server

/-- The response queue of an HTTPS session, in every state that a run reaches: at most one write
is outstanding, the responses are handed to the stream in the order of the calls of `do_write`
after the handshake, and the assertion in `queue::on_write` holds. Until a completed write has
failed or carried `need_eof` a write is outstanding exactly when the queue is not empty; from
then on none is started. -/
theorem queue_serves_in_order {μ η ρ : Type} [DecidableEq μ] (regexMatch : Bytes → Bytes → Bool)
    (router : Router μ η) (es : List (Server.Event μ ρ)) (s : Server μ η ρ)
    (hrun : (Server.system regexMatch router).run {} es = some s) :
    s.writes.length ≤ 1 ∧ handed s.log <+: Server.doWrites false es ∧
      assertFailed s.log = false ∧
      (broken s.log = false → (s.items ≠ [] ↔ s.writes ≠ [])) ∧
      (broken s.log = true → ∀ es' t, (Server.system regexMatch router).run s es' = some t →
        handed t.log = handed s.log) := by
  have hs : s.pipeline.Sound Response.needEof :=
    System.run_inductive (I := fun u => u.pipeline.Sound Response.needEof) Server.pipeline_sound
      Pipeline.sound_empty hrun
  have hposted : posted s.log = Server.doWrites false es := Server.run_posted hrun
  refine ⟨hs.single, ?_, hs.filled, hs.busy_iff, ?_⟩
  · rw [← hposted]
    exact hs.in_order
  · intro hbroken es' t ht
    exact Server.broken_run hs hbroken ht

/-- Three responses, of which the second one ends the connection. -/
def threeResponses : List (Server.Event Unit ℕ) :=
  [.call .doHandshake, .handshakeDone .success 0, .call (.doWrite ⟨1, false⟩),
    .call (.doWrite ⟨2, true⟩), .call (.doWrite ⟨3, false⟩), .writeDone 0 .success,
    .writeDone 0 .success]

theorem queue_serves_in_order_three :
    ∃ s : Server Unit Unit ℕ,
      (Server.system (fun _ _ => true) {}).run {} threeResponses = some s ∧
        handed s.log = [⟨1, false⟩, ⟨2, true⟩] ∧
        handed s.log <+: Server.doWrites false threeResponses := by
  obtain ⟨s, hrun, hhanded⟩ : ∃ s : Server Unit Unit ℕ,
      (Server.system (fun _ _ => true) {}).run {} threeResponses = some s ∧
        handed s.log = [⟨1, false⟩, ⟨2, true⟩] := ⟨_, rfl, rfl⟩
  exact ⟨s, hrun, hhanded, (queue_serves_in_order _ _ threeResponses s hrun).2.1⟩

end BeastWebsocket.Https
