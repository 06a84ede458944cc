import BeastWebsocket.Https.Queue
import Mathlib.Data.List.Induction

/-! # Requests and their responses

Where each list of handlers posts one response, a request gets as many responses as lists are
invoked for it. The k-th response answers the k-th request exactly if there is one list for
every request.
-/
namespace BeastWebsocket.Https
open Channel Transition

section Record
variable {μ η ρ : Type}

/-- The requests received, the responses posted, each with the number of the request that it was
posted for, and how many of these were posted since a list of handlers was last invoked. -/
structure Tally (μ ρ : Type) where
  received : List (Request μ) := []
  produced : List (ℕ × Response ρ) := []
  fresh : ℕ := 0

def Tally.add (x : Tally μ ρ) : Obs μ η ρ → Tally μ ρ
  | .received req => { x with received := x.received ++ [req] }
  | .invoked _ => { x with fresh := 0 }
  | .posted msg =>
      { x with produced := x.produced ++ [(x.received.length, msg)], fresh := x.fresh + 1 }
  | _ => x

def tally (log : List (Obs μ η ρ)) : Tally μ ρ := log.foldl Tally.add {}

theorem tally_append (log : List (Obs μ η ρ)) (o : Obs μ η ρ) :
    tally (log ++ [o]) = (tally log).add o := by
  rw [tally, List.foldl_append]
  rfl

theorem tally_produced (log : List (Obs μ η ρ)) :
    (tally log).produced.map Prod.snd = posted log := by
  induction log using List.reverseRecOn with
  | nil => rfl
  | append_singleton log o ih =>
    have hposted : posted (log ++ [o]) = posted log ++ o.posted?.toList := by
      cases o <;> simp [posted, List.filterMap_cons]
    rw [hposted, ← ih, tally_append]
    cases o <;> simp [Tally.add]

end Record

/-- The numbers of the requests, each as often as lists of handlers are invoked for it. -/
def owed {μ η : Type} [DecidableEq μ] (regexMatch : Bytes → Bytes → Bool) (router : Router μ η)
    (reqs : List (Request μ)) : List ℕ :=
  (reqs.zipIdx 1).flatMap fun p =>
    List.replicate (router.dispatch regexMatch p.1).calls.length p.2

section Owed
variable {μ η : Type} [DecidableEq μ] {regexMatch : Bytes → Bytes → Bool} {router : Router μ η}

theorem owed_append (reqs : List (Request μ)) (req : Request μ) :
    owed regexMatch router (reqs ++ [req]) = owed regexMatch router reqs ++
      List.replicate (router.dispatch regexMatch req).calls.length (reqs.length + 1) := by
  simp [owed, List.zipIdx_append, Nat.add_comm]

theorem le_of_mem_owed {reqs : List (Request μ)} {k : ℕ}
    (h : k ∈ owed regexMatch router reqs) : k ≤ reqs.length := by
  induction reqs using List.reverseRecOn with
  | nil => cases h
  | append_singleton reqs req ih =>
    rw [owed_append, List.mem_append] at h
    rw [List.length_append, List.length_singleton]
    rcases h with h | h
    · exact Nat.le_succ_of_le (ih h)
    · exact Nat.le_of_eq (List.eq_of_mem_replicate h)

/-- Each request is owed one response exactly if one list of handlers is there for each. -/
theorem owed_iff (reqs : List (Request μ)) :
    owed regexMatch router reqs = List.range' 1 reqs.length ↔
      ∀ req ∈ reqs, router.Unique regexMatch req := by
  induction reqs using List.reverseRecOn with
  | nil => simp [owed]
  | append_singleton reqs req ih =>
    have hrange : List.range' 1 (reqs.length + 1) =
        List.range' 1 reqs.length ++ List.replicate 1 (reqs.length + 1) := by
      rw [List.range'_concat, Nat.one_mul, Nat.add_comm]
      rfl
    rw [owed_append, List.length_append, List.length_singleton, hrange, List.forall_mem_append,
      List.forall_mem_singleton, ← ih, Router.unique_iff]
    constructor
    · intro h
      have hnot : reqs.length + 1 ∉ owed regexMatch router reqs := by
        intro hmem
        have hle := le_of_mem_owed hmem
        omega
      have hrange' : reqs.length + 1 ∉ List.range' 1 reqs.length := by
        rw [List.mem_range']
        omega
      -- only the last request is owed a response under the last number
      have hcount := congrArg (List.count (reqs.length + 1)) h
      have hone : (router.dispatch regexMatch req).calls.length = 1 := by
        simpa [List.count_append, List.count_eq_zero.mpr hnot, List.count_eq_zero.mpr hrange']
          using hcount
      rw [hone] at h
      exact ⟨List.append_cancel_right h, hone⟩
    · rintro ⟨hreqs, hreq⟩
      rw [hreqs, hreq]

end Owed

namespace Server
variable {μ η ρ : Type} {s t : Server μ η ρ}

/-- `do_write` is called exactly once by each list of handlers that is invoked, before it
returns, and nowhere else. -/
def OneWriteEach (s : Server μ η ρ) : Event μ ρ → Prop
  | .call (.doWrite _) => s.running ≠ none ∧ (tally s.log).fresh = 0
  | .resume => (tally s.log).fresh = 1
  | _ => True

instance (s : Server μ η ρ) (e : Event μ ρ) : Decidable (s.OneWriteEach e) :=
  match e with
  | .call (.doWrite _) =>
      inferInstanceAs (Decidable (s.running ≠ none ∧ (tally s.log).fresh = 0))
  | .resume => inferInstanceAs (Decidable ((tally s.log).fresh = 1))
  | .call .doHandshake | .call .doRead | .call .doClose | .handshakeDone _ _ | .readDone _ _ _
  | .writeDone _ _ | .shutdownDone _ => isTrue trivial

/-- What the correspondence of requests and responses depends on. -/
def service (s : Server μ η ρ) : Tally μ ρ × Option (List η) := (tally s.log, s.running)

theorem emit_service (o : Obs μ η ρ) :
    (s.emit o).service = ((tally s.log).add o, s.running) := by
  rw [service, emit, tally_append]

theorem doRead_service : s.doRead.service = s.service := by
  rw [doRead]
  split_ifs
  · apply emit_service
  · rfl

theorem startFront_service : s.startFront.service = s.service := by
  rw [startFront]
  cases s.items with
  | nil => rfl
  | cons msg rest => apply emit_service

theorem push_service (msg : Response ρ) : (s.push msg).service = s.service := by
  rw [push]
  split_ifs
  · apply startFront_service
  · rfl

theorem finishRequest_service : s.finishRequest.service = (tally s.log, none) := by
  rw [finishRequest]
  split_ifs
  · rfl
  · apply doRead_service

theorem handshakeDone_service (ec : ErrorCode) (bytesUsed : ℕ) :
    ((s.handshakeDone ec).onHandshake ec bytesUsed).service = s.service := by
  have hdone : (s.handshakeDone ec).service = s.service := emit_service _
  rw [onHandshake]
  split_ifs
  · exact (emit_service _).trans hdone
  · exact doRead_service.trans hdone

theorem shutdownDone_service (ec : ErrorCode) :
    ((s.shutdownDone ec).onShutdown ec).service = s.service := by
  have hdone : (s.shutdownDone ec).service = s.service := emit_service _
  rw [onShutdown]
  split_ifs
  · exact (emit_service _).trans hdone
  · exact hdone

theorem writeDone_service (i : ℕ) (msg : Response ρ) (ec : ErrorCode) :
    ((s.writeDone i msg ec).onWrite ec msg.needEof).service = s.service := by
  have hdone : (s.writeDone i msg ec).service = s.service := emit_service _
  have hpop : (s.writeDone i msg ec).pop.1.service = s.service := startFront_service.trans hdone
  rw [onWrite]
  split_ifs
  · exact (emit_service _).trans hdone
  · exact (emit_service _).trans hdone
  · exact (emit_service _).trans hdone
  · exact doRead_service.trans hpop
  · exact hpop

theorem readDone_service (ec : ErrorCode) (req : Request μ) (rest : Bytes) :
    (s.readDone ec req rest).service =
      (if ec.failed then tally s.log else (tally s.log).add (η := η) (.received req),
        s.running) := by
  rw [readDone]
  split_ifs
  · apply emit_service
  · have hlog : tally (s.log ++ [Obs.finished (η := η) .read ec]) = tally s.log :=
      tally_append _ _
    rw [emit_service]
    change (Tally.add (tally (s.log ++ [.finished .read ec])) _, _) = _
    rw [hlog]
    rfl

variable [DecidableEq μ] {regexMatch : Bytes → Bytes → Bool} {router : Router μ η}

/-- Every list of handlers that has returned has posted one response; the ones that still run or
wait owe theirs to the last request. -/
def Answers (regexMatch : Bytes → Bytes → Bool) (router : Router μ η)
    (v : Tally μ ρ × Option (List η)) : Prop :=
  match v.2 with
  | none => v.1.produced.map Prod.fst = owed regexMatch router v.1.received
  | some rest =>
      v.1.fresh ≤ 1 ∧ v.1.produced.map Prod.fst ++
        List.replicate (rest.length + 1 - v.1.fresh) v.1.received.length =
          owed regexMatch router v.1.received

theorem invokeNext_answers {cbs : List η} (h : (tally s.log).produced.map Prod.fst ++
    List.replicate cbs.length (tally s.log).received.length =
      owed regexMatch router (tally s.log).received) :
    Answers regexMatch router (s.invokeNext cbs).service := by
  cases cbs with
  | nil =>
    rw [invokeNext, finishRequest_service]
    simpa [Answers] using h
  | cons cb rest =>
    rw [invokeNext, emit_service]
    exact ⟨Nat.zero_le 1, h⟩

theorem doWrite_answers (hs : Answers regexMatch router s.service) (msg : Response ρ)
    (hg : s.OneWriteEach (.call (.doWrite msg))) :
    Answers regexMatch router (s.doWrite msg).service := by
  rw [doWrite]
  by_cases h : s.handshake = true
  · obtain ⟨hrunning, hfresh⟩ := hg
    obtain ⟨rest, hrest⟩ := Option.ne_none_iff_exists'.mp hrunning
    rw [if_pos h, push_service, emit_service]
    rw [service, hrest] at hs
    rw [hrest]
    simp only [Answers, hfresh] at hs
    simp only [Answers, Tally.add, hfresh, List.map_append, List.append_assoc]
    exact ⟨Nat.le_refl 1, hs.2⟩
  · rwa [if_neg h]

theorem onRead_answers (hs : Answers regexMatch router s.service) (hidle : s.running = none)
    (ec : ErrorCode) (req : Request μ) (rest : Bytes) :
    Answers regexMatch router
      ((s.readDone ec req rest).onRead (router.dispatch regexMatch req).calls ec).service := by
  have hdone := readDone_service (s := s) ec req rest
  rw [service, hidle] at hs
  rw [onRead]
  by_cases hec : ec.failed = true
  · rw [if_pos hec, hidle] at hdone
    have hkept : Answers regexMatch router (s.readDone ec req rest).service := by
      rwa [hdone]
    split_ifs
    · rwa [doClose, asyncShutdown, emit_service]
    · rwa [fail, emit_service]
  · rw [if_neg hec] at hdone
    have hnot : ec ≠ .endOfStream := by
      rintro rfl
      exact hec rfl
    have htally : tally (s.readDone ec req rest).log = (tally s.log).add (η := η) (.received req) :=
      congrArg Prod.fst hdone
    rw [if_neg hnot, if_neg hec]
    apply invokeNext_answers
    rw [htally]
    simp only [Tally.add, owed_append, List.length_append, List.length_singleton]
    rw [show (tally s.log).produced.map Prod.fst = _ from hs]

theorem resume_answers (hs : Answers regexMatch router s.service) {rest : List η}
    (hrest : s.running = some rest) (hg : s.OneWriteEach .resume) :
    Answers regexMatch router (s.invokeNext rest).service := by
  rw [service, hrest] at hs
  have hfresh : (tally s.log).fresh = 1 := hg
  apply invokeNext_answers
  have howed := hs.2
  simp only [hfresh, Nat.add_sub_cancel] at howed
  exact howed

theorem step_answers (s : Server μ η ρ) (e : Event μ ρ) (t : Server μ η ρ)
    (hs : Answers regexMatch router s.service) (hg : s.OneWriteEach e)
    (ht : (system regexMatch router).step s e = some t) :
    Answers regexMatch router t.service := by
  cases e with
  | call c =>
    cases ht
    cases c with
    | doHandshake =>
      rw [call, doHandshake]
      split_ifs
      · exact hs
      · rwa [asyncHandshake, emit_service]
    | doRead => rwa [call, doRead_service]
    | doWrite msg => exact doWrite_answers hs msg hg
    | doClose => rwa [call, doClose, asyncShutdown, emit_service]
  | handshakeDone ec bytesUsed =>
    obtain ⟨_, rfl⟩ := handled_eq_some.mp ht
    rwa [handshakeDone_service]
  | readDone ec req rest =>
    obtain ⟨⟨hidle, _⟩, rfl⟩ := handled_eq_some.mp ht
    exact onRead_answers hs hidle ec req rest
  | writeDone i ec =>
    obtain ⟨msg, _, ht⟩ := Option.bind_eq_some_iff.mp ht
    obtain ⟨_, rfl⟩ := handled_eq_some.mp ht
    rwa [writeDone_service]
  | shutdownDone ec =>
    obtain ⟨_, rfl⟩ := handled_eq_some.mp ht
    rwa [shutdownDone_service]
  | resume =>
    obtain ⟨rest, hrest, rfl⟩ := Option.map_eq_some_iff.mp ht
    exact resume_answers hs hrest hg

end Server

/-- Where each list of handlers posts one response, synchronously, and nothing else does: in
every state of a run in which no handler is running, each request has been answered as often as
lists of handlers are there for it, in the order of the requests, and the responses are handed
to the stream in this order. So the k-th response is the one for the k-th request, for all
requests, if and only if there is exactly one list for each of them, in whatever order the
tables are iterated. -/
theorem responses_in_order_iff {μ η ρ : Type} [DecidableEq μ]
    (regexMatch : Bytes → Bytes → Bool) (router : Router μ η) (es : List (Server.Event μ ρ))
    (s : Server μ η ρ) (hcalls : (Server.system regexMatch router).Along Server.OneWriteEach {} es)
    (hrun : (Server.system regexMatch router).run {} es = some s) (hidle : s.running = none) :
    (tally s.log).produced.map Prod.fst = owed regexMatch router (tally s.log).received ∧
      handed s.log <+: (tally s.log).produced.map Prod.snd ∧
      ((tally s.log).produced.map Prod.fst = List.range' 1 (tally s.log).received.length ↔
        ∀ req ∈ (tally s.log).received, router.Unique regexMatch req) ∧
      ∀ router', router.Reordered router' → ∀ req,
        (router.Unique regexMatch req ↔ router'.Unique regexMatch req) := by
  have hnone : Server.Answers regexMatch router ({} : Server μ η ρ).service := rfl
  have hanswers : Server.Answers regexMatch router s.service :=
    System.run_invariant (I := fun u => Server.Answers regexMatch router u.service)
      Server.step_answers hnone hcalls hrun
  have hs : s.pipeline.Sound Response.needEof :=
    System.run_inductive (I := fun u => u.pipeline.Sound Response.needEof) Server.pipeline_sound
      Pipeline.sound_empty hrun
  rw [Server.service, hidle] at hanswers
  have howed : (tally s.log).produced.map Prod.fst =
      owed regexMatch router (tally s.log).received := hanswers
  refine ⟨howed, ?_, ?_, fun router' h req => h.unique_iff regexMatch req⟩
  · rw [tally_produced]
    exact hs.in_order
  · rw [howed]
    exact owed_iff _

/-- Two requests, each answered by the one list of handlers. -/
def twoAnswered : List (Server.Event Unit ℕ) :=
  [.call .doHandshake, .handshakeDone .success 0, .readDone .success ⟨(), []⟩ [],
    .call (.doWrite ⟨0, false⟩), .resume, .readDone .success ⟨(), []⟩ [],
    .call (.doWrite ⟨1, false⟩), .resume]

theorem responses_in_order_two :
    ∃ s, (Server.system (fun _ _ => true) oneHandler).run {} twoAnswered = some s ∧
      (tally s.log).produced.map Prod.fst = List.range' 1 (tally s.log).received.length := by
  have hcalls : (Server.system (fun _ _ => true) oneHandler).Along Server.OneWriteEach {}
      twoAnswered := by decide
  obtain ⟨s, hrun, hidle, hreceived⟩ : ∃ s,
      (Server.system (fun _ _ => true) oneHandler).run {} twoAnswered = some s ∧
        s.running = none ∧ (tally s.log).received = [⟨(), []⟩, ⟨(), []⟩] :=
    ⟨_, rfl, rfl, rfl⟩
  have hiff := (responses_in_order_iff _ _ twoAnswered s hcalls hrun hidle).2.2.1
  refine ⟨s, hrun, hiff.mpr ?_⟩
  rw [hreceived]
  unfold Router.Unique
  decide

/-- Two patterns that match the same targets, each with a list of handlers. -/
def overlapping : Router Unit Unit := { resourceMap := some [([1], some ()), ([2], some ())] }

/-- Two requests, each answered by both lists, and the first write. -/
def answeredTwice : List (Server.Event Unit ℕ) :=
  [.call .doHandshake, .handshakeDone .success 0, .readDone .success ⟨(), []⟩ [],
    .call (.doWrite ⟨0, false⟩), .resume, .call (.doWrite ⟨1, false⟩), .resume,
    .readDone .success ⟨(), []⟩ [], .call (.doWrite ⟨2, false⟩), .resume,
    .call (.doWrite ⟨3, false⟩), .resume, .writeDone 0 .success]

/-- The second response is one for the first request. -/
theorem overlapping_patterns :
    (Server.system (fun _ _ => true) overlapping).Along Server.OneWriteEach {} answeredTwice ∧
      ∃ s, (Server.system (fun _ _ => true) overlapping).run {} answeredTwice = some s ∧
        s.running = none ∧ handed s.log = [⟨0, false⟩, ⟨1, false⟩] ∧
        (tally s.log).produced.map Prod.fst = [1, 1, 2, 2] ∧
        (tally s.log).produced.map Prod.fst ≠ List.range' 1 (tally s.log).received.length :=
  ⟨by decide, _, rfl, rfl, rfl, rfl, by decide⟩

end BeastWebsocket.Https
