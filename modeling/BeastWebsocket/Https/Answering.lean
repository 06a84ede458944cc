import BeastWebsocket.Https.Correspondence
import BeastWebsocket.Https.Pipelining
import BeastWebsocket.Channel.Star
import Mathlib.Data.List.Forall2

/-! # A session that answers its requests

One list of handlers is there for each request, and it posts one response that fits the request.
The session then sends what fits the requests that it has received, one by one.
-/
namespace BeastWebsocket.Https
open Channel Transition

namespace Server
variable {μ η ρ : Type} {s t : Server μ η ρ} {fits : Request μ → Response ρ → Prop}

/-- The responses that have been posted fit the requests; only the request that is processed may
have none yet. -/
structure Fits (fits : Request μ → Response ρ → Prop) (v : Tally μ ρ × Option (List η)) :
    Prop where
  lists : ∀ rest ∈ v.2, rest = []
  fresh : v.2 ≠ none → v.1.fresh ≤ 1
  fit : List.Forall₂ fits (v.1.received.take v.1.produced.length) (v.1.produced.map Prod.snd)
  count : v.1.received.length = v.1.produced.length + if v.2.isSome then 1 - v.1.fresh else 0

/-- Between two requests as many responses have been posted as requests received. -/
theorem Fits.arrive {x : Tally μ ρ} (h : Fits (η := η) fits (x, none)) (req : Request μ) (cb : η) :
    Fits fits ((x.add (η := η) (.received req)).add (.invoked cb), some ([] : List η)) := by
  have hcount := h.count
  simp only [Option.isSome_none, Bool.false_eq_true, if_false, Nat.add_zero] at hcount
  constructor
  · rintro rest hrest
    exact (Option.some.inj hrest).symm
  · exact fun _ => Nat.zero_le 1
  · have hfit := h.fit
    simp only [Tally.add]
    rwa [List.take_append_of_le_length hcount.ge]
  · simp [Tally.add, hcount]

theorem Fits.post {x : Tally μ ρ} {rest : List η} (h : Fits fits (x, some rest))
    (hfresh : x.fresh = 0) {msg : Response ρ} (hmsg : ∀ req ∈ x.received.getLast?, fits req msg) :
    Fits fits (x.add (η := η) (.posted msg), some rest) := by
  have hcount := h.count
  simp only [Option.isSome_some, if_true, hfresh, Nat.sub_zero] at hcount
  constructor
  · exact h.lists
  · intro _
    simp [Tally.add, hfresh]
  · rcases List.eq_nil_or_concat' x.received with hnil | ⟨reqs, req, hreqs⟩
    · rw [hnil] at hcount
      simp at hcount
    · have hlength : reqs.length = x.produced.length := by
        rw [hreqs, List.length_append] at hcount
        exact Nat.add_right_cancel hcount
      have hfit := h.fit
      simp only [hreqs, ← hlength, List.take_left] at hfit
      have hlast : fits req msg := by
        apply hmsg
        rw [hreqs, List.getLast?_concat]
        rfl
      simp only [Tally.add, List.length_append, List.length_singleton, List.map_append, hreqs]
      rw [← hlength, List.take_of_length_le (by simp)]
      exact List.rel_append hfit (List.Forall₂.cons hlast List.Forall₂.nil)
  · simp [Tally.add, hcount, hfresh]

theorem Fits.finish {x : Tally μ ρ} {rest : List η} (h : Fits fits (x, some rest))
    (hfresh : x.fresh = 1) : Fits (η := η) fits (x, none) := by
  have hcount := h.count
  simp only [Option.isSome_some, if_true, hfresh] at hcount
  exact ⟨by simp, by simp, h.fit, by simpa using hcount⟩

/-! ## What user code does -/

section Serves
variable [DecidableEq μ] (regexMatch : Bytes → Bytes → Bool) (router : Router μ η)

/-- `do_handshake` is called once and `do_read` not at all. One list of handlers is there for each
request, and calls `do_write` once, with what fits the request. -/
def Serves (fits : Request μ → Response ρ → Prop) (s : Server μ η ρ) : Event μ ρ → Prop
  | .call .doHandshake => handshaken s.log = false
  | .call .doRead => False
  | .call (.doWrite msg) => s.running ≠ none ∧ (tally s.log).fresh = 0 ∧
      ∀ req ∈ (tally s.log).received.getLast?, fits req msg
  | .resume => (tally s.log).fresh = 1
  | .readDone .success req _ => router.Unique regexMatch req
  | _ => True

instance (fits : Request μ → Response ρ → Prop) [∀ req msg, Decidable (fits req msg)]
    (s : Server μ η ρ) (e : Event μ ρ) : Decidable (s.Serves regexMatch router fits e) :=
  match e with
  | .call .doHandshake => inferInstanceAs (Decidable (handshaken s.log = false))
  | .call .doRead => isFalse id
  | .call (.doWrite msg) => inferInstanceAs (Decidable (s.running ≠ none ∧
      (tally s.log).fresh = 0 ∧ ∀ req ∈ (tally s.log).received.getLast?, fits req msg))
  | .resume => inferInstanceAs (Decidable ((tally s.log).fresh = 1))
  | .readDone .success req _ => inferInstanceAs (Decidable (
      (router.forMethod regexMatch req).length = 1 ∨
        router.forMethod regexMatch req = [] ∧ (router.forAll regexMatch req).length = 1))
  | .readDone .endOfStream _ _ | .readDone .eof _ _ | .readDone (.other _) _ _ | .call .doClose
  | .handshakeDone _ _ | .writeDone _ _ | .shutdownDone _ => isTrue trivial

end Serves

/-- The session has posted what fits its requests, in their order, and counts right what it has
posted for the last one. -/
structure Answering (fits : Request μ → Response ρ → Prop) (s : Server μ η ρ) : Prop where
  fits : Fits fits s.service
  counted : s.running ≠ none → replies s.log = (tally s.log).fresh

theorem Answering.rest (hs : s.Answering fits) {rest : List η} (h : s.running = some rest) :
    rest = [] := hs.fits.lists rest h

/-- A handler that is not one of a request. -/
theorem Answering.same (hs : s.Answering fits) (hservice : t.service = s.service)
    (hreplies : s.running ≠ none → replies t.log = replies s.log) : t.Answering fits where
  fits := hservice ▸ hs.fits
  counted := by
    intro hrunning
    have htally : tally t.log = tally s.log := congrArg Prod.fst hservice
    have hsame : t.running = s.running := congrArg Prod.snd hservice
    rw [hsame] at hrunning
    rw [hreplies hrunning, htally, hs.counted hrunning]

theorem answering_initial : ({} : Server μ η ρ).Answering fits where
  fits := ⟨by simp [service], by simp [service], List.Forall₂.nil, rfl⟩
  counted := by simp

variable [DecidableEq μ] {regexMatch : Bytes → Bytes → Bool} {router : Router μ η}

theorem Answering.answersOnce (hs : s.Answering fits) {e : Event μ ρ}
    (h : s.Serves regexMatch router fits e) : s.AnswersOnce e := by
  cases e with
  | call c =>
    cases c with
    | doHandshake => exact h
    | doRead => exact h
    | doWrite msg => exact ⟨h.1, (hs.counted h.1).trans h.2.1⟩
    | doClose => trivial
  | _ => trivial

theorem Answering.doWrite (hs : s.Answering fits) {msg : Response ρ}
    (h : s.Serves regexMatch router fits (.call (.doWrite msg))) :
    (s.doWrite msg).Answering fits := by
  by_cases hopen : s.handshake = true
  · obtain ⟨hrunning, hfresh, hmsg⟩ := h
    have hreplies := congrArg Window.replies (doWrite_window msg hopen)
    have hservice : (s.doWrite msg).service =
        ((tally s.log).add (η := η) (.posted msg), s.running) := by
      rw [Server.doWrite, if_pos hopen, push_service, emit_service]
    obtain ⟨rest, hrest⟩ := Option.ne_none_iff_exists'.mp hrunning
    constructor
    · have hfits := hs.fits
      rw [service, hrest] at hfits
      rw [hservice, hrest]
      exact hfits.post hfresh hmsg
    · intro _
      have htally : tally (s.doWrite msg).log = _ := congrArg Prod.fst hservice
      rw [htally]
      have hbefore : s.window.replies = (tally s.log).fresh := hs.counted hrunning
      exact hreplies.trans (congrArg (· + 1) hbefore)
  · rw [Server.doWrite, if_neg hopen]
    exact hs

theorem Answering.read (hs : s.Answering fits) (hidle : s.running = none) (ec : ErrorCode)
    (req : Request μ) (rest : Bytes) (h : s.Serves regexMatch router fits (.readDone ec req rest)) :
    ((s.readDone ec req rest).onRead (router.dispatch regexMatch req).calls ec).Answering fits := by
  have hdone := readDone_service (s := s) ec req rest
  by_cases hec : ec = .success
  · subst hec
    have hunique : router.Unique regexMatch req := h
    rw [Router.unique_iff, List.length_eq_one_iff] at hunique
    obtain ⟨cb, hcb⟩ := hunique
    have hrun : (s.readDone .success req rest).onRead (router.dispatch regexMatch req).calls
        .success = { s.readDone .success req rest with running := some [] }.emit (.invoked cb) := by
      rw [hcb]
      rfl
    have htally : tally (s.readDone .success req rest).log =
        (tally s.log).add (η := η) (.received req) :=
      congrArg Prod.fst hdone
    rw [hrun]
    constructor
    · have hfits := hs.fits
      rw [service, hidle] at hfits
      rw [emit_service, htally]
      exact hfits.arrive req cb
    · intro _
      have hwindow := congrArg Window.replies (readDone_window (s := s) .success req rest)
      have hzero : replies (s.readDone .success req rest).log = 0 := hwindow
      change replies ((s.readDone .success req rest).log ++ [_]) =
        (tally ((s.readDone .success req rest).log ++ [_])).fresh
      rw [replies_append, hzero, tally_append]
      rfl
  · have hfailed : ec.failed = true := by simpa using hec
    rw [if_pos hfailed] at hdone
    apply hs.same _ (fun hrunning => absurd hidle hrunning)
    rw [onRead, if_pos hfailed]
    split_ifs
    · exact (emit_service _).trans hdone
    · exact (emit_service _).trans hdone

theorem Answering.step {e : Event μ ρ} (hs : s.Answering fits)
    (hg : s.Serves regexMatch router fits e) (ht : (system regexMatch router).step s e = some t) :
    t.Answering fits := by
  cases e with
  | call c =>
    cases ht
    cases c with
    | doHandshake =>
      rw [call, doHandshake]
      split_ifs
      · exact hs
      · apply hs.same (emit_service _)
        intro _
        exact congrArg Window.replies asyncHandshake_window
    | doRead => exact absurd hg id
    | doWrite msg => exact hs.doWrite hg
    | doClose =>
      apply hs.same (emit_service _)
      intro _
      exact congrArg Window.replies asyncShutdown_window
  | handshakeDone ec bytesUsed =>
    obtain ⟨⟨hidle, _⟩, rfl⟩ := handled_eq_some.mp ht
    exact hs.same (handshakeDone_service ec bytesUsed) fun hrunning => absurd hidle hrunning
  | readDone ec req rest =>
    obtain ⟨⟨hidle, _⟩, rfl⟩ := handled_eq_some.mp ht
    exact hs.read hidle ec req rest hg
  | writeDone i ec =>
    obtain ⟨msg, _, ht⟩ := Option.bind_eq_some_iff.mp ht
    obtain ⟨⟨hidle, _⟩, rfl⟩ := handled_eq_some.mp ht
    exact hs.same (writeDone_service i msg ec) fun hrunning => absurd hidle hrunning
  | shutdownDone ec =>
    obtain ⟨⟨hidle, _⟩, rfl⟩ := handled_eq_some.mp ht
    exact hs.same (shutdownDone_service ec) fun hrunning => absurd hidle hrunning
  | resume =>
    obtain ⟨rest, hrest, rfl⟩ := Option.map_eq_some_iff.mp ht
    cases hs.rest hrest
    have hfits := hs.fits
    rw [service, hrest] at hfits
    constructor
    · rw [invokeNext, finishRequest_service]
      exact hfits.finish hg
    · intro hrunning
      have hnone : (s.invokeNext []).running = none :=
        congrArg Prod.snd (finishRequest_service (s := s))
      exact absurd hnone hrunning

/-! ## The session as a whole -/

/-- What holds of a session whose user code serves its requests. -/
structure Serving (fits : Request μ → Response ρ → Prop) (s : Server μ η ρ) : Prop where
  answering : s.Answering fits
  pipeline : s.pipeline.Sound Response.needEof
  window : s.window.Held queueLimit

omit [DecidableEq μ] in
theorem serving_initial : ({} : Server μ η ρ).Serving fits :=
  ⟨answering_initial, Pipeline.sound_empty, Window.held_initial⟩

theorem Serving.step {e : Event μ ρ} (hs : s.Serving fits)
    (hg : s.Serves regexMatch router fits e) (ht : (system regexMatch router).step s e = some t) :
    t.Serving fits where
  answering := hs.answering.step hg ht
  pipeline := pipeline_sound s e t hs.pipeline ht
  window := refines_window.step_invariant (Window.Held.step (by decide)) hs.window
    (hs.answering.answersOnce hg).window ht

omit [DecidableEq μ] in
theorem Serving.one_each (hs : s.Serving fits) : s.reads ≤ 1 ∧ s.writes.length ≤ 1 :=
  ⟨hs.window.reads_le, hs.pipeline.single⟩

omit [DecidableEq μ] in
/-- What has been sent fits what has been received, one by one. -/
theorem Serving.sent_fits (hs : s.Serving fits) :
    List.Forall₂ fits ((tally s.log).received.take (handed s.log).length) (handed s.log) := by
  have hfit := hs.answering.fits.fit
  have hprefix : handed s.log <+: posted s.log := hs.pipeline.in_order
  have hlength : (tally s.log).produced.length = (posted s.log).length := by
    rw [← tally_produced, List.length_map]
  have hposted : (tally s.log).produced.map Prod.snd = posted s.log := tally_produced s.log
  simp only [service, hlength, hposted] at hfit
  have hshort := List.forall₂_take (handed s.log).length hfit
  rwa [List.take_take, Nat.min_eq_left hprefix.length_le, ← List.prefix_iff_eq_take.mp hprefix]
    at hshort

/-- The request that an event takes from the connection. -/
def Event.takes : Event μ ρ → Option (Request μ)
  | .readDone .success req _ => some req
  | _ => none

omit [DecidableEq μ] in
theorem received_of_service {v : Tally μ ρ × Option (List η)} (h : s.service = v) :
    (tally s.log).received = v.1.received :=
  congrArg (fun v => v.1.received) h

omit [DecidableEq μ] in
theorem call_received (c : Call ρ) : (tally (s.call c).log).received = (tally s.log).received := by
  cases c with
  | doHandshake =>
    rw [call, doHandshake]
    split_ifs
    · rfl
    · rw [asyncHandshake, emit, tally_append]
      rfl
  | doRead => exact received_of_service doRead_service
  | doWrite msg =>
    rw [call, doWrite]
    split_ifs
    · have hpush := push_service (s := s.emit (.posted msg)) msg
      exact received_of_service (hpush.trans (emit_service _))
    · rfl
  | doClose =>
    rw [call, doClose, asyncShutdown, emit, tally_append]
    rfl

omit [DecidableEq μ] in
theorem invokeNext_received (cbs : List η) :
    (tally (s.invokeNext cbs).log).received = (tally s.log).received := by
  cases cbs with
  | nil => exact received_of_service finishRequest_service
  | cons cb rest =>
    rw [invokeNext, emit, tally_append]
    rfl

theorem step_received {e : Event μ ρ} (ht : (system regexMatch router).step s e = some t) :
    (tally t.log).received = (tally s.log).received ++ e.takes.toList := by
  cases e with
  | call c =>
    cases ht
    rw [call_received]
    exact (List.append_nil _).symm
  | handshakeDone ec bytesUsed =>
    obtain ⟨_, rfl⟩ := handled_eq_some.mp ht
    rw [received_of_service (handshakeDone_service ec bytesUsed)]
    exact (List.append_nil _).symm
  | readDone ec req rest =>
    obtain ⟨_, rfl⟩ := handled_eq_some.mp ht
    have hdone := received_of_service (readDone_service (s := s) ec req rest)
    by_cases hec : ec = .success
    · subst hec
      have hrun := invokeNext_received (s := s.readDone .success req rest)
        (router.dispatch regexMatch req).calls
      exact hrun.trans hdone
    · have hfailed : ec.failed = true := by simpa using hec
      rw [if_pos hfailed] at hdone
      have htakes : (Event.readDone ec req rest : Event μ ρ).takes = none := by
        cases ec <;> first | rfl | exact absurd rfl hec
      rw [htakes, Option.toList_none, List.append_nil, onRead, if_pos hfailed]
      split_ifs
      · exact (received_of_service (emit_service _)).trans hdone
      · exact (received_of_service (emit_service _)).trans hdone
  | writeDone i ec =>
    obtain ⟨msg, _, ht⟩ := Option.bind_eq_some_iff.mp ht
    obtain ⟨_, rfl⟩ := handled_eq_some.mp ht
    rw [received_of_service (writeDone_service i msg ec)]
    exact (List.append_nil _).symm
  | shutdownDone ec =>
    obtain ⟨_, rfl⟩ := handled_eq_some.mp ht
    rw [received_of_service (shutdownDone_service ec)]
    exact (List.append_nil _).symm
  | resume =>
    obtain ⟨rest, _, rfl⟩ := Option.map_eq_some_iff.mp ht
    rw [invokeNext_received]
    exact (List.append_nil _).symm

theorem step_handed {e : Event μ ρ} (ht : (system regexMatch router).step s e = some t) :
    handed s.log <+: handed t.log := by
  have hperform := refines_pipeline s e t ht
  cases hop : s.queueOp e with
  | none =>
    rw [hop] at hperform
    have hsame : s.pipeline = t.pipeline := Option.some.inj hperform
    have hhanded : handed s.log = handed t.log := congrArg Pipeline.started hsame
    rw [hhanded]
  | some o =>
    rw [hop] at hperform
    exact Pipeline.started_step hperform

/-- The session at its end of the connection. -/
def spoke (regexMatch : Bytes → Bytes → Bool) (router : Router μ η) :
    Spoke (Server μ η ρ) (Event μ ρ) (Request μ) (Response ρ) where
  toSystem := system regexMatch router
  sent s := handed s.log
  takes := Event.takes
  grows _ _ _ h := step_handed h

end Server
end BeastWebsocket.Https
