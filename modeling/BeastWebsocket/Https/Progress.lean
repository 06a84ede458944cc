import BeastWebsocket.Https.Network

/-! # A client that waits gets its response

While a client waits for a response there is always something that can be done about it, and there
is less of it left each time.
-/
namespace BeastWebsocket.Https
open Channel Transition

section Record
variable {μ η ρ : Type}

theorem sent_le_written (log : List (Obs μ η ρ)) : (sent log).length ≤ (written log).length := by
  induction log with
  | nil => exact Nat.le_refl 0
  | cons o log ih =>
    rw [sent, written, List.filterMap_cons, List.filterMap_cons]
    cases o with
    | finished op ec =>
      cases op with
      | write msg =>
        cases ec with
        | success => exact Nat.succ_le_succ ih
        | _ => exact Nat.le_succ_of_le ih
      | _ => exact ih
    | _ => exact ih

end Record

namespace Server
variable {μ η ρ : Type} {s t : Server μ η ρ} {fits : Request μ → Response ρ → Prop}

/-- A read or a write completes with success. -/
def Event.completes : Event μ ρ → Bool
  | .readDone .success _ _ | .writeDone _ .success => true
  | _ => false

/-- The handler of a request answers it or returns. -/
def Event.handles : Event μ ρ → Bool
  | .call (.doWrite _) | .resume => true
  | _ => false

/-- No read has failed, and no write. -/
structure Unbroken (s : Server μ η ρ) : Prop where
  read : readBroken s.log = false
  written : (written s.log).length = (sent s.log).length

/-- What is left to do at the server about the requests that it has received. -/
def load (s : Server μ η ρ) : ℕ :=
  (if s.running.isSome then 1 + 2 * (1 - replies s.log) else 0) +
    ((posted s.log).length - (sent s.log).length)

theorem load_idle (h : s.running = none) :
    s.load = (posted s.log).length - (sent s.log).length := by
  rw [load, h]
  exact Nat.zero_add _

variable [DecidableEq μ] {regexMatch : Bytes → Bytes → Bool} {router : Router μ η}

theorem step_sent {e : Event μ ρ} (ht : (system regexMatch router).step s e = some t) :
    (sent t.log).length = (sent s.log).length + ((s.queueOp e).elim 0 Pipeline.Op.writes) ∧
      (written s.log).length + (sent t.log).length ≤
        (written t.log).length + (sent s.log).length := by
  have hperform := refines_pipeline s e t ht
  cases hop : s.queueOp e with
  | none =>
    rw [hop] at hperform
    have hsame : s.pipeline = t.pipeline := Option.some.inj hperform
    have hsent : sent s.log = sent t.log := congrArg Pipeline.sent hsame
    have hwritten : written s.log = written t.log := congrArg Pipeline.completed hsame
    rw [hsent, hwritten]
    exact ⟨rfl, Nat.le_refl _⟩
  | some o =>
    rw [hop] at hperform
    exact Pipeline.sent_step hperform

/-- What has failed stays so. -/
theorem Unbroken.of_step {e : Event μ ρ} (h : t.Unbroken)
    (ht : (system regexMatch router).step s e = some t) : s.Unbroken where
  read := by
    by_contra hread
    have hlost : s.window.lost = true := Bool.of_not_eq_false hread
    have hperform := refines_window s e t ht
    have hnow : t.window.lost = true :=
      System.perform_invariant (K := fun x => x.lost = true)
        (fun o _ hstep => Window.lost_step hlost hstep) hlost hperform
    have hfree : t.window.lost = false := h.read
    rw [hnow] at hfree
    cases hfree
  written := by
    have hstep := (step_sent ht).2
    have hle := sent_le_written s.log
    have hend := h.written
    omega

/-- A handler of the session that is no handler of a request. -/
theorem load_step_idle {e : Event μ ρ} (hs : s.running = none) (ht : t.running = none)
    (hresponse : e.response = []) (h : (system regexMatch router).step s e = some t)
    (hsent : (sent t.log).length ≤ (posted t.log).length) :
    t.load + (s.queueOp e).elim 0 Pipeline.Op.writes = s.load := by
  have hposted := step_posted h
  rw [hresponse, ite_self, List.append_nil] at hposted
  have hmore := (step_sent h).1
  rw [load_idle hs, load_idle ht, hposted]
  rw [hposted] at hsent
  omega

/-- A request is read. -/
theorem load_received {req : Request μ} {rest : Bytes} (hg : router.Unique regexMatch req)
    (ht : (system regexMatch router).step s (.readDone .success req rest) = some t) :
    t.load = s.load + 3 := by
  obtain ⟨⟨hidle, _⟩, _⟩ := handled_eq_some.mp ht
  have hperform := refines_window s _ t ht
  rw [Router.unique_iff, List.length_eq_one_iff] at hg
  obtain ⟨cb, hcb⟩ := hg
  have hop : s.windowOp regexMatch router (.readDone .success req rest) = some (.arrive false) := by
    rw [windowOp, hcb]
    rfl
  rw [hop] at hperform
  obtain ⟨_, hwindow⟩ := Option.ite_none_right_eq_some.mp hperform
  have hwindow := Option.some.inj hwindow
  have hserving : t.running.isSome = true := (congrArg Window.serving hwindow).symm
  have hreplies : replies t.log = 0 := (congrArg Window.replies hwindow).symm
  have hposted := step_posted ht
  have hsent := (step_sent ht).1
  simp only [Event.response, ite_self, List.append_nil] at hposted
  rw [load_idle hidle, load, hserving, hreplies, hposted, hsent]
  simp [queueOp]
  omega

/-- The request that is processed is answered. -/
theorem load_answered (hs : s.Serving fits) (hopen : s.handshake = true) {msg : Response ρ}
    (hg : s.Serves regexMatch router fits (.call (.doWrite msg)))
    (ht : (system regexMatch router).step s (.call (.doWrite msg)) = some t) :
    t.load + 1 = s.load := by
  have ht' : s.doWrite msg = t := Option.some.inj ht
  have hwindow := doWrite_window msg hopen
  rw [ht'] at hwindow
  obtain ⟨hrunning, hfresh, _⟩ := hg
  have hbefore : replies s.log = 0 := (hs.answering.counted hrunning).trans hfresh
  have hserving : t.running.isSome = s.running.isSome := congrArg Window.serving hwindow
  have hreplies : replies t.log = replies s.log + 1 := congrArg Window.replies hwindow
  have hposted := step_posted ht
  have hsent := (step_sent ht).1
  have hle : (sent s.log).length ≤ (posted s.log).length := hs.pipeline.sent_le
  rw [hopen, if_pos rfl, Event.response] at hposted
  have hsome : s.running.isSome = true := Option.isSome_iff_ne_none.mpr hrunning
  rw [load, load, hserving, hreplies, hbefore, hsome, hposted, hsent]
  simp [queueOp, hopen, Pipeline.Op.writes]
  omega

/-- The handler returns. -/
theorem load_resumed (hs : s.Serving fits) (hg : s.Serves regexMatch router fits .resume)
    (ht : (system regexMatch router).step s .resume = some t) : t.load + 1 = s.load := by
  have hposted := step_posted ht
  have hsent := (step_sent ht).1
  obtain ⟨rest, hrest, rfl⟩ := Option.map_eq_some_iff.mp ht
  cases hs.answering.rest hrest
  have hrunning : s.running ≠ none := by simp [hrest]
  have hfresh : (tally s.log).fresh = 1 := hg
  have hbefore : replies s.log = 1 := (hs.answering.counted hrunning).trans hfresh
  have hserving : (s.invokeNext []).running = none :=
    congrArg Prod.snd (finishRequest_service (s := s))
  simp only [Event.response, ite_self, List.append_nil] at hposted
  rw [load_idle hserving, load, hrest, hbefore, hposted, hsent]
  simp [queueOp]
  omega

/-- While nothing fails, what is left to do grows with each request and shrinks with all that is
done about it. -/
theorem Serving.load_step (hs : s.Serving fits) (hopen : s.handshake = true) {e : Event μ ρ}
    (hg : s.Serves regexMatch router fits e) (ht : (system regexMatch router).step s e = some t)
    (hunbroken : t.Unbroken) :
    t.load + (e.completes || e.handles).toNat = s.load + 4 * e.takes.toList.length := by
  have hle : (sent t.log).length ≤ (posted t.log).length := (hs.step hg ht).pipeline.sent_le
  have hread := hunbroken.read
  have hwritten := hunbroken.written
  cases e with
  | call c =>
    cases c with
    | doHandshake =>
      have hsame : s.call .doHandshake = s := by rw [call, doHandshake, if_pos hopen]
      cases ht
      rw [hsame]
      rfl
    | doRead => exact absurd hg id
    | doWrite msg => exact load_answered hs hopen hg ht
    | doClose =>
      cases ht
      have hwindow : s.doClose.window = s.window := asyncShutdown_window
      have hpipeline : s.doClose.pipeline = s.pipeline := asyncShutdown_pipeline
      have hreplies : replies s.doClose.log = replies s.log := congrArg Window.replies hwindow
      have hposted : posted s.doClose.log = posted s.log := congrArg Pipeline.posted hpipeline
      have hsent : sent s.doClose.log = sent s.log := congrArg Pipeline.sent hpipeline
      change s.doClose.load = s.load
      rw [load, load, hreplies, hposted, hsent]
      rfl
  | handshakeDone ec bytesUsed =>
    obtain ⟨⟨hidle, _⟩, heq⟩ := handled_eq_some.mp ht
    have hrunning : t.running = s.running := by
      rw [← heq]
      exact congrArg Prod.snd (handshakeDone_service ec bytesUsed)
    exact load_step_idle hidle (hrunning.trans hidle) rfl ht hle
  | readDone ec req rest =>
    cases ec with
    | success =>
      have hload := load_received hg ht
      change t.load + 1 = s.load + 4
      omega
    | endOfStream | eof | other v =>
      have hperform := refines_window s _ t ht
      obtain ⟨_, hlost⟩ := Option.ite_none_right_eq_some.mp hperform
      have hbroken : true = readBroken t.log := congrArg Window.lost (Option.some.inj hlost)
      rw [hread] at hbroken
      cases hbroken
  | writeDone i ec =>
    have hstep := ht
    obtain ⟨msg, _, ht⟩ := Option.bind_eq_some_iff.mp ht
    obtain ⟨⟨hidle, _⟩, heq⟩ := handled_eq_some.mp ht
    have hrunning : t.running = s.running := by
      rw [← heq]
      exact congrArg Prod.snd (writeDone_service i msg ec)
    have hload := load_step_idle hidle (hrunning.trans hidle) rfl hstep hle
    cases ec with
    | success => exact hload
    | endOfStream | eof | other v =>
      have hperform := refines_pipeline s _ t hstep
      obtain ⟨a, _, hbroke⟩ := Option.map_eq_some_iff.mp hperform
      have hdone : written s.log ++ [a] = written t.log := congrArg Pipeline.completed hbroke
      have hsent : sent s.log = sent t.log := congrArg Pipeline.sent hbroke
      have hbefore := sent_le_written s.log
      have hlength := congrArg List.length hdone
      rw [List.length_append, List.length_singleton] at hlength
      rw [← hsent] at hwritten
      omega
  | shutdownDone ec =>
    obtain ⟨⟨hidle, _⟩, heq⟩ := handled_eq_some.mp ht
    have hrunning : t.running = s.running := by
      rw [← heq]
      exact congrArg Prod.snd (shutdownDone_service ec)
    exact load_step_idle hidle (hrunning.trans hidle) rfl ht hle
  | resume => exact load_resumed hs hg ht

end Server

namespace Client
variable {μ ρ : Type} {s t : Client μ ρ} {l : List ρ}

/-- A read or a write completes with success. -/
def Event.completes : Event μ ρ → Bool
  | .readDone .success _ _ | .writeDone _ .success => true
  | _ => false

/-- While a response is missing and nothing fails, only a write that completes changes the
writes. -/
theorem Awaits.writes_step (hs : s.Awaits l) (hbusy : s.writes.length + s.reads = 1)
    {w : Event μ ρ} (hg : s.InTurn w) (h : (system {}).step s w = some t)
    (hfailed : failed t.log = false) (htakes : w.takes = none) :
    t.writes.length + w.completes.toNat = s.writes.length := by
  cases w with
  | call c =>
    cases h
    cases c with
    | doHandshake =>
      change (s.doHandshake).writes.length = s.writes.length
      rw [doHandshake]
      split_ifs <;> rfl
    | doRead => exact absurd hg id
    | doWrite msg =>
      obtain ⟨hwrites, hreads⟩ := hg
      rw [hwrites, hreads] at hbusy
      cases hbusy
    | doClose => rfl
  | handshakeDone ec =>
    obtain ⟨_, rfl⟩ := handled_eq_some.mp h
    change ((s.handshakeDone ec).onHandshake {} ec).writes.length = s.writes.length
    rw [onHandshake]
    split_ifs <;> rfl
  | readDone ec res rest =>
    obtain ⟨_, rfl⟩ := handled_eq_some.mp h
    cases ec with
    | success => cases htakes
    | endOfStream | eof | other v =>
      simp [onRead, readDone, fail, Client.emit, ErrorCode.failed, Obs.isFailed] at hfailed
  | writeDone i ec =>
    cases ec with
    | success => exact (sent_step hs h).2.1
    | endOfStream | eof | other v =>
      obtain ⟨p, _, rfl⟩ := Option.map_eq_some_iff.mp h
      simp [onWrite, fail, Client.emit, ErrorCode.failed, Obs.isFailed] at hfailed
  | shutdownDone ec =>
    obtain ⟨_, rfl⟩ := handled_eq_some.mp h
    change ((s.shutdownDone ec).onShutdown ec).writes.length = s.writes.length
    rw [onShutdown]
    split_ifs <;> rfl

end Client

namespace Network
variable {μ η ρ : Type} {x y : Network μ η ρ} {i : ℕ}

/-- Nothing has failed at either end of connection `i`. -/
structure Unbroken (x : Network μ η ρ) (i : ℕ) : Prop where
  server : (x.hub i).Unbroken
  client : Client.failed (x.spokes i).log = false

/-- The server has done the handshake, nothing has failed at either end of connection `i`, and none
has begun to shut it down, but for the server behind a response that ends the connection. -/
structure Working (x : Network μ η ρ) (i : ℕ) : Prop extends Unbroken x i where
  handshake : (x.hub i).handshake = true
  stays : Client.shutDown (x.spokes i).log = false
  ends : shutDown (x.hub i).log = true → ∃ msg ∈ sent (x.hub i).log, msg.needEof = true

/-- A read or a write completes with success at one end of connection `i`. -/
def completes (i : ℕ) : Event μ ρ → Bool
  | .hub (j, e) => decide (j = i) && e.completes
  | .spoke j w => decide (j = i) && w.completes

/-- The handler of a request on connection `i` answers it or returns. -/
def handles (i : ℕ) : Event μ ρ → Bool
  | .hub (j, e) => decide (j = i) && e.handles
  | .spoke _ _ => false

/-- What is left to do before the client has its response, where a request that the server has not
read counts as a read, an answer, a return and a write. -/
def work (x : Network μ η ρ) (i : ℕ) : ℕ :=
  (x.spokes i).writes.length +
    4 * ((Client.requested (x.spokes i).log).length - (x.heard i).length) + (x.hub i).load

variable [DecidableEq μ] [DecidableEq ρ] {regexMatch : Bytes → Bytes → Bool} {router : Router μ η}
  {fits : Request μ → Response ρ → Prop} {e : Event μ ρ}

/-- The client of connection `i` waits for a response, and none that it has ends the connection. -/
structure Waiting (regexMatch : Bytes → Bytes → Bool) (router : Router μ η)
    (fits : Request μ → Response ρ → Prop) (x : Network μ η ρ) (i : ℕ) : Prop where
  sound : x.Sound regexMatch router fits
  unbroken : x.Unbroken i
  handshake : (x.hub i).handshake = true
  turn : (x.spokes i).writes.length + (x.spokes i).reads = 1
  plain : ∀ msg ∈ x.told i, msg.needEof = false

omit [DecidableEq ρ] in
theorem Waiting.requested (hx : Waiting regexMatch router fits x i) :
    (Client.requested (x.spokes i).log).length = (x.told i).length + 1 := by
  rw [(hx.sound.awaits i).asked hx.unbroken.client, hx.turn]

omit [DecidableEq ρ] in
/-- The server has read the last request of the client or not, and it has answered each request
that it has read, but for the one that it is processing. -/
theorem Waiting.lengths (hx : Waiting regexMatch router fits x i) :
    (x.heard i).length ≤ (x.told i).length + 1 ∧
      (x.told i).length ≤ (handed (x.hub i).log).length ∧
      (handed (x.hub i).log).length ≤ (posted (x.hub i).log).length ∧
      (handed (x.hub i).log).length = (sent (x.hub i).log).length + (x.hub i).writes.length ∧
      (x.heard i).length = (posted (x.hub i).log).length +
        if (x.hub i).running.isSome then 1 - replies (x.hub i).log else 0 := by
  obtain ⟨hheard, htold⟩ := hx.sound.faithful i
  have hserving := hx.sound.serving i
  have hcount := hserving.answering.fits.count
  have hproduced : (tally (x.hub i).log).produced.length = (posted (x.hub i).log).length := by
    rw [← tally_produced, List.length_map]
  have hstarted : (handed (x.hub i).log).length =
      (written (x.hub i).log).length + (x.hub i).writes.length := hserving.pipeline.count
  simp only [Server.service, hx.sound.received, hproduced] at hcount
  refine ⟨?_, htold.length_le, hserving.pipeline.in_order.length_le, ?_, ?_⟩
  · rw [← hx.requested]
    exact hheard.length_le
  · rw [hstarted, hx.unbroken.server.written]
  · cases hrunning : (x.hub i).running with
    | none => simpa [hrunning] using hcount
    | some rest =>
      have hcounted := hserving.answering.counted (by simp [hrunning])
      simpa [hrunning, hcounted] using hcount

omit [DecidableEq ρ] in
theorem Waiting.work_le (hx : Waiting regexMatch router fits x i) : work x i ≤ 7 := by
  have hturn := hx.turn
  have hsingle : (x.hub i).writes.length ≤ 1 := (hx.sound.serving i).one_each.2
  obtain ⟨hheard, htold, hhanded, hsent, hcount⟩ := hx.lengths
  rw [work, hx.requested, Server.load]
  split_ifs at hcount ⊢ <;> omega

/-! ## Each step leaves less to do -/

theorem told_grows (x : Network μ η ρ) (e : Event μ ρ) (y : Network μ η ρ)
    (h : (system regexMatch router).step x e = some y) : x.told i <+: y.told i := by
  cases e with
  | hub e => rw [(Star.step_hub h).told]
  | spoke j w =>
    have hstep := Star.step_spoke h
    by_cases hi : i = j
    · subst hi
      rw [hstep.told]
      exact List.prefix_append _ _
    · rw [(hstep.others i hi).2]

/-- What has failed stays so. -/
theorem Unbroken.of_step (hy : y.Unbroken i) (h : (system regexMatch router).step x e = some y) :
    x.Unbroken i := by
  cases e with
  | hub e =>
    obtain ⟨j, e⟩ := e
    have hstep := Star.step_hub h
    obtain ⟨hs, hothers⟩ := Spoke.each_step hstep.hub
    refine ⟨?_, by rw [← hstep.spokes]; exact hy.client⟩
    by_cases hi : i = j
    · subst hi
      exact hy.server.of_step hs
    · rw [← hothers i hi]
      exact hy.server
  | spoke j w =>
    have hstep := Star.step_spoke h
    refine ⟨by rw [← hstep.hub]; exact hy.server, ?_⟩
    by_cases hi : i = j
    · subst hi
      have hlog := Client.step_log hstep.spoke
      obtain ⟨new, hnew⟩ := hlog
      have hend := hy.client
      rw [← hnew, Client.failed, List.any_append, Bool.or_eq_false_iff] at hend
      exact hend.1
    · rw [← (hstep.others i hi).1]
      exact hy.client

/-- As long as no response comes and nothing fails, the client waits. -/
theorem Waiting.next (hx : Waiting regexMatch router fits x i)
    (hg : x.Kept regexMatch router fits e) (h : (system regexMatch router).step x e = some y)
    (hsame : y.told i = x.told i) (hunbroken : y.Unbroken i)
    (hrequested : (Client.requested (x.spokes i).log).length ≤
      (Client.requested (y.spokes i).log).length)
    (hhandshake : (y.hub i).handshake = true) : Waiting regexMatch router fits y i := by
  have hsound := Sound.step x e y hx.sound hg h
  have hawaits := hsound.awaits i
  have hasked := hawaits.asked hunbroken.client
  have hturn := hawaits.turn
  have hbefore := hx.requested
  refine ⟨hsound, hunbroken, hhandshake, ?_, hsame ▸ hx.plain⟩
  rw [hsame] at hasked
  omega

/-- A step of the server. -/
theorem Waiting.hub_step (hx : Waiting regexMatch router fits x i) {j : ℕ} {e : Server.Event μ ρ}
    (hg : x.Kept regexMatch router fits (.hub (j, e)))
    (h : (system regexMatch router).step x (.hub (j, e)) = some y) (hunbroken : y.Unbroken i) :
    Waiting regexMatch router fits y i ∧
      work y i + (completes i (.hub (j, e)) || handles i (.hub (j, e))).toNat = work x i := by
  have hstep := Star.step_hub h
  obtain ⟨hs, hothers⟩ := Spoke.each_step hstep.hub
  have htold : y.told i = x.told i := congrFun hstep.told i
  have hspokes : y.spokes i = x.spokes i := congrFun hstep.spokes i
  have hheard := congrArg List.length (hstep.heard i)
  rw [Spoke.each_taken, List.length_append] at hheard
  by_cases hi : i = j
  · subst hi
    have hhandshake : (y.hub i).handshake = true := by
      rw [Server.step_handshake hs, hx.handshake, Bool.true_or]
    have hnow := hx.next hg h htold hunbroken (by rw [hspokes]) hhandshake
    refine ⟨hnow, ?_⟩
    have hload := (hx.sound.serving i).load_step hx.handshake hg hs hunbroken.server
    have hbound := hnow.lengths.1
    have hcounts : (completes i (.hub (i, e)) || handles i (.hub (i, e))) =
        (e.completes || e.handles) := by simp [completes, handles]
    have htakes : ((Server.spoke regexMatch router).takes e).toList = e.takes.toList := rfl
    rw [if_pos rfl, htakes] at hheard
    rw [htold] at hbound
    rw [hcounts, work, work, hspokes, hx.requested]
    omega
  · have hsame := hothers i hi
    have hnow := hx.next hg h htold hunbroken (by rw [hspokes]) (by rw [hsame]; exact hx.handshake)
    have hcounts : (completes i (.hub (j, e)) || handles i (.hub (j, e))) = false := by
      simp [completes, handles, Ne.symm hi]
    rw [if_neg (Ne.symm hi), List.length_nil, Nat.add_zero] at hheard
    refine ⟨hnow, ?_⟩
    rw [hcounts, work, work, hspokes, hsame, hheard]
    rfl

/-- A step of a client, which takes no response on connection `i`. -/
theorem Waiting.spoke_step (hx : Waiting regexMatch router fits x i) {j : ℕ}
    {w : Client.Event (Request μ) (Response ρ)} (hg : x.Kept regexMatch router fits (.spoke j w))
    (h : (system regexMatch router).step x (.spoke j w) = some y) (hunbroken : y.Unbroken i)
    (hsame : y.told i = x.told i) :
    Waiting regexMatch router fits y i ∧
      work y i + (completes i (.spoke j w) || handles i (.spoke j w)).toNat = work x i := by
  have hstep := Star.step_spoke h
  have hheard : y.heard i = x.heard i := congrFun hstep.heard i
  have hhandshake : (y.hub i).handshake = true := by
    rw [hstep.hub]
    exact hx.handshake
  by_cases hi : i = j
  · subst hi
    have hrequested := (Client.step_requested hstep.spoke).length_le
    have hnow := hx.next hg h hsame hunbroken hrequested hhandshake
    refine ⟨hnow, ?_⟩
    have htakes : w.takes = none := by
      have htold := hstep.told
      rw [hsame] at htold
      have hnil : w.takes.toList = [] := List.self_eq_append_right.mp htold
      simpa using hnil
    have hwrites := (hx.sound.awaits i).writes_step hx.turn hg hstep.spoke hunbroken.client htakes
    have hcounts : (completes i (.spoke i w) || handles i (.spoke i w) : Bool) = w.completes := by
      simp [completes, handles]
    rw [hcounts, work, work, hnow.requested, hx.requested, hsame, hheard, hstep.hub]
    omega
  · obtain ⟨hspoke, _⟩ := hstep.others i hi
    have hnow := hx.next hg h hsame hunbroken (by rw [hspoke]) hhandshake
    have hcounts : (completes i (.spoke j w) || handles i (.spoke j w)) = false := by
      simp [completes, handles, Ne.symm hi]
    refine ⟨hnow, ?_⟩
    rw [hcounts, work, work, hspoke, hheard, hstep.hub]
    rfl

theorem Waiting.step (hx : Waiting regexMatch router fits x i)
    (hg : x.Kept regexMatch router fits e) (h : (system regexMatch router).step x e = some y)
    (hunbroken : y.Unbroken i) (hsame : y.told i = x.told i) :
    Waiting regexMatch router fits y i ∧
      work y i + (completes i e || handles i e).toNat = work x i := by
  cases e with
  | hub e => exact hx.hub_step hg h hunbroken
  | spoke j w => exact hx.spoke_step hg h hunbroken hsame

theorem Waiting.run {fs : List (Event μ ρ)} (hx : Waiting regexMatch router fits x i)
    (hkept : (system regexMatch router).Along (Kept regexMatch router fits) x fs)
    (h : (system regexMatch router).run x fs = some y) (hunbroken : y.Unbroken i) :
    (x.told i).length < (y.told i).length ∨
      Waiting regexMatch router fits y i ∧
        work y i + fs.countP (fun e => completes i e || handles i e) ≤ work x i := by
  have hrun := System.run_descends
    (I := fun v => v.told i = x.told i ∧ Waiting regexMatch router fits v i)
    (fun v => (x.told i).length < (v.told i).length ∨ ¬ v.Unbroken i)
    (fun v => work v i) (fun e => completes i e || handles i e) ?_ ?_ ⟨rfl, hx⟩ hkept h
  · rcases hrun with (hgrown | hbroken) | ⟨⟨_, hend⟩, hwork⟩
    · exact Or.inl hgrown
    · exact absurd hunbroken hbroken
    · exact Or.inr ⟨hend, hwork⟩
  · rintro u e v (hgrown | hbroken) hv
    · exact Or.inl (Nat.lt_of_lt_of_le hgrown (told_grows u e v hv).length_le)
    · exact Or.inr fun hv' => hbroken (hv'.of_step hv)
  · rintro u e v ⟨hsame, hu⟩ hg hv
    have hgrows := told_grows (i := i) u e v hv
    by_cases hgrown : (u.told i).length < (v.told i).length
    · exact Or.inl (Or.inl (hsame ▸ hgrown))
    · by_cases hunbroken : v.Unbroken i
      · have hstays : v.told i = u.told i :=
          (hgrows.eq_of_length_le (Nat.le_of_not_lt hgrown)).symm
        obtain ⟨hnext, hwork⟩ := hu.step hg hv hunbroken hstays
        exact Or.inr ⟨⟨hstays.trans hsame, hnext⟩, Nat.le_of_eq hwork⟩
      · exact Or.inl (Or.inr hunbroken)

/-! ## Something can always be done -/

theorem exists_hub_step {e : Server.Event μ ρ} {t : Server μ η ρ}
    (ht : (Server.system regexMatch router).step (x.hub i) e = some t)
    (hnext : ∀ req ∈ e.takes, x.heard i ++ [req] <+: Client.requested (x.spokes i).log) :
    ∃ y, (system regexMatch router).step x (.hub (i, e)) = some y := by
  apply Star.exists_step_hub (Option.map_eq_some_iff.mpr ⟨t, ht, rfl⟩)
  rintro p hp
  obtain ⟨req, hreq, rfl⟩ := Option.map_eq_some_iff.mp hp
  exact hnext req hreq

omit [DecidableEq ρ] in
/-- Once the client has all that the server has begun to write, and nothing is being written, the
server is reading. -/
theorem Waiting.reads (hx : Waiting regexMatch router fits x i) (hidle : (x.hub i).running = none)
    (hwrites : (x.hub i).writes = [])
    (htold : (handed (x.hub i).log).length ≤ (x.told i).length) :
    (x.hub i).reads = 1 ∧ (x.heard i).length = (x.told i).length := by
  have hserving := hx.sound.serving i
  obtain ⟨hheard, hle, hhanded, hsent, hcount⟩ := hx.lengths
  have hsame : x.told i = handed (x.hub i).log :=
    (hx.sound.faithful i).2.eq_of_length_le htold
  have hfree : broken (x.hub i).log = false := by
    apply hserving.pipeline.free hx.unbroken.server.written
    intro msg hmsg
    apply hx.plain
    rw [hsame]
    exact hmsg
  have hitems : (x.hub i).items = [] := by
    by_contra hne
    exact (hserving.pipeline.busy_iff hfree).mp hne hwrites
  have hwaiting : (posted (x.hub i).log).length + min 1 (x.hub i).items.length =
      (handed (x.hub i).log).length + (x.hub i).items.length := hserving.pipeline.waiting
  have hsteady := hserving.window.steady hx.unbroken.server.read
  have hreads := hsteady.idle hx.handshake (congrArg Option.isSome hidle)
  have hroom : (x.hub i).window.queued < queueLimit := by
    change (x.hub i).items.length < queueLimit
    rw [hitems]
    exact Nat.zero_lt_succ 7
  rw [if_pos hroom] at hreads
  rw [hitems, List.length_nil, Nat.min_zero] at hwaiting
  rw [hidle, Option.isSome_none, if_neg Bool.false_ne_true] at hcount
  exact ⟨hreads, by omega⟩

theorem Waiting.progress (hx : Waiting regexMatch router fits x i) :
    (x.hub i).running ≠ none ∨
      ∃ e, completes i e = true ∧ ∃ y, (system regexMatch router).step x e = some y := by
  obtain ⟨hheard, htold⟩ := hx.sound.faithful i
  have hturn := hx.turn
  by_cases hidle : (x.hub i).running = none
  · right
    by_cases hreading : (x.spokes i).reads = 0
    · -- the request is still being written
      have hpos : 0 < (x.spokes i).writes.length := by omega
      have hfirst : (x.spokes i).writes[0]? = some (x.spokes i).writes[0] :=
        List.getElem?_eq_getElem hpos
      refine ⟨.spoke i (.writeDone 0 .success), by simp [completes, Client.Event.completes],
        Star.exists_step_spoke (Option.map_eq_some_iff.mpr ⟨_, hfirst, rfl⟩) ?_⟩
      rintro m hm
      cases hm
    · cases hwrites : (x.hub i).writes with
      | cons msg rest =>
        -- a response is being written
        have hfirst : (x.hub i).writes[0]? = some msg := by rw [hwrites]; rfl
        refine ⟨.hub (i, .writeDone 0 .success), by simp [completes, Server.Event.completes],
          exists_hub_step (Option.bind_eq_some_iff.mpr
            ⟨_, hfirst, Server.handled_eq_some.mpr ⟨⟨hidle, trivial⟩, rfl⟩⟩) ?_⟩
        rintro m hm
        cases hm
      | nil =>
        by_cases hsent : (x.told i).length < (handed (x.hub i).log).length
        · -- the response is on its way
          obtain ⟨msg, hmsg⟩ := Star.exists_next htold hsent
          have hread : (Client.system {}).step (x.spokes i) (.readDone .success msg []) = some _ :=
            if_pos (Nat.pos_of_ne_zero hreading)
          refine ⟨.spoke i (.readDone .success msg []), by simp [completes, Client.Event.completes],
            Star.exists_step_spoke hread ?_⟩
          rintro m hm
          cases hm
          exact hmsg
        · -- the server has not read the request
          obtain ⟨hreads, hlength⟩ := hx.reads hidle hwrites (Nat.le_of_not_lt hsent)
          have hrequested := hx.requested
          obtain ⟨req, hreq⟩ := Star.exists_next hheard
            (show (x.heard i).length < (Client.requested (x.spokes i).log).length by omega)
          refine ⟨.hub (i, .readDone .success req []), by simp [completes, Server.Event.completes],
            exists_hub_step (Server.handled_eq_some.mpr ⟨⟨hidle, by omega⟩, rfl⟩) ?_⟩
          rintro m hm
          cases hm
          exact hreq
  · exact Or.inl hidle

end Network

/-- A client waits for a response on a connection that works, and none that it has received ends the
connection. As long as the connection works and whatever else happens, `on_message` of the client is
called once more, or else a request of it is being processed or a read or a write of the connection
can complete; and of these, the answer and the return of the handler included, there have been at
most seven. -/
theorem response_comes {μ η ρ : Type} [DecidableEq μ] [DecidableEq ρ]
    (regexMatch : Bytes → Bytes → Bool) (router : Router μ η)
    (fits : Request μ → Response ρ → Prop) (es fs : List (Network.Event μ ρ))
    {x y : Network μ η ρ} {i : ℕ}
    (hkept : (Network.system regexMatch router).Along
      (Network.Kept regexMatch router fits) Network.initial es)
    (hrun : (Network.system regexMatch router).run Network.initial es = some x)
    (hworking : x.Working i) (hwaits : (x.spokes i).writes ≠ [] ∨ (x.spokes i).reads ≠ 0)
    (hplain : ∀ res ∈ Client.calledWith (x.spokes i).log, ∀ msg ∈ res, msg.needEof = false)
    (hfkept : (Network.system regexMatch router).Along
      (Network.Kept regexMatch router fits) x fs)
    (hfrun : (Network.system regexMatch router).run x fs = some y) (hend : y.Working i) :
    (Client.calledWith (x.spokes i).log).length < (Client.calledWith (y.spokes i).log).length ∨
      ((y.hub i).running ≠ none ∨ ∃ e, Network.completes i e = true ∧
        ∃ z, (Network.system regexMatch router).step y e = some z) ∧
      fs.countP (fun e => Network.completes i e || Network.handles i e) ≤ 7 := by
  have hx : x.Sound regexMatch router fits :=
    System.run_invariant Network.Sound.step Network.sound_initial hkept hrun
  have hy : y.Sound regexMatch router fits :=
    System.run_invariant Network.Sound.step hx hfkept hfrun
  have hturn := (hx.awaits i).turn
  have hwaiting : Network.Waiting regexMatch router fits x i := by
    refine ⟨hx, hworking.toUnbroken, hworking.handshake, ?_, ?_⟩
    · rw [← List.length_pos_iff] at hwaits
      omega
    · intro msg hmsg
      apply hplain (some msg) _ msg rfl
      rw [(hx.awaits i).called]
      exact List.mem_map_of_mem hmsg
  rw [(hx.awaits i).called, (hy.awaits i).called, List.length_map, List.length_map]
  rcases hwaiting.run hfkept hfrun hend.toUnbroken with hgrown | ⟨hlast, hwork⟩
  · exact Or.inl hgrown
  · refine Or.inr ⟨hlast.progress, ?_⟩
    have hbound := hwaiting.work_le
    omega

/-- "b" is answered with a response that ends the connection, while another client connects; the
server has begun to shut down. -/
def lastAnswered : List (Network.Event Unit Bytes) :=
  [.spoke 0 (.writeDone 0 .success), .hub (1, .call .doHandshake),
    .hub (0, .writeDone 0 .success), .hub (0, .readDone .success ⟨(), [98]⟩ []),
    .spoke 1 (.call .doHandshake), .hub (0, .call (.doWrite ⟨[98], true⟩)), .hub (0, .resume),
    .hub (0, .writeDone 0 .success)]

theorem response_comes_two :
    ∃ x, (Network.system (fun _ _ => true) oneHandler).run Network.initial (twoAsked.take 11) =
        some x ∧
      ∃ y, (Network.system (fun _ _ => true) oneHandler).run x lastAnswered = some y ∧
        (Client.calledWith (x.spokes 0).log).length =
          (Client.calledWith (y.spokes 0).log).length ∧
        ((Client.calledWith (x.spokes 0).log).length <
            (Client.calledWith (y.spokes 0).log).length ∨
          ((y.hub 0).running ≠ none ∨ ∃ e, Network.completes 0 e = true ∧
            ∃ z, (Network.system (fun _ _ => true) oneHandler).step y e = some z) ∧
          lastAnswered.countP (fun e => Network.completes 0 e || Network.handles 0 e) ≤ 7) :=
  ⟨_, rfl, _, rfl, rfl, response_comes (fun _ _ => true) oneHandler Repeats (twoAsked.take 11)
    lastAnswered (by decide) rfl ⟨⟨⟨rfl, rfl⟩, rfl⟩, rfl, rfl, by decide⟩ (Or.inl (by decide))
    (by decide) (by decide) rfl
    ⟨⟨⟨rfl, rfl⟩, rfl⟩, rfl, rfl, fun _ => ⟨⟨[98], true⟩, by decide, rfl⟩⟩⟩

end BeastWebsocket.Https
