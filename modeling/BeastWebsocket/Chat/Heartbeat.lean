import BeastWebsocket.Chat.Served
import BeastWebsocket.Session.Heartbeat

/-! # The heartbeat of the chat server

The timers of a session of the chat server are those of a monitor. A client that gives no sign for
ten seconds is sent a ping, and one that gives none for ten seconds behind it is closed.
-/
namespace BeastWebsocket
open Transition

namespace Chat.Room
variable {overflow : ℤ → ℤ} {readMessageMax : ℕ} {k i : ℕ} {r t : Room}

/-! ## The timers of a session -/

/-- A control frame arrives at session `k` only once it has accepted. -/
def HearsOpen (k : ℕ) (r : Room) : Event → Prop
  | .session i (.control _ _) => i = k → (r.sessions i).accepted = true
  | _ => True

instance (k : ℕ) (r : Room) (e : Event) : Decidable (HearsOpen k r e) :=
  match e with
  | .session i (.control _ _) => inferInstanceAs (Decidable (i = k → _))
  | .upgrade | .disconnect _ | .session _ (.acceptDone _) | .session _ (.readDone _ _ _)
  | .session _ (.writeDone _ _) | .session _ (.pingDone _) | .session _ (.pongDone _)
  | .session _ (.closeDone _) | .session _ (.waitDone _ _) | .session _ (.call _)
  | .session _ .resume | .session _ (.tick _) | .session _ .expire => isTrue trivial

/-- The timer of session `k` runs beside its callback, and between handlers no callback of the
session runs. -/
structure Tended (k : ℕ) (r : Room) : Prop where
  minds : (r.sessions k).Minds
  idle : r.thrown = false → (r.sessions k).frame = .idle

theorem tended_initial (k : ℕ) : Tended k {} where
  minds := Server.minds_initial
  idle := fun _ => rfl

theorem stable_minds (k : ℕ) (a : Bool) :
    Stable (fun c => c.plain = true) fun s => ∀ j, j = k → (s j).Minds ∧ (s j).accepted = a := by
  apply Stable.each (R := fun j s => j = k → s.Minds ∧ s.accepted = a)
  · rfl
  · rfl
  · intro j s c hc hs hj
    obtain ⟨hminds, hacc⟩ := hs hj
    exact ⟨hminds.call hc, (Server.call_accepted c).trans hacc⟩
  · intro j s u hu hs hj
    obtain ⟨hminds, hacc⟩ := hs hj
    exact ⟨hminds.resume hu, (Server.resume_accepted hu).trans hacc⟩

theorem launchTimer_self (k : ℕ) (f : OnTimer) (r : Room) :
    (r.launchTimer k f).sessions k = (r.sessions k).call callbacks (.launchTimerWith true) :=
  call_self k _ _

theorem react_minds {c : Option Callback} (hr : (r.sessions k).Minds)
    (hacc : ∀ b, c = some b → b.isSign = true ∨ b = .timer → (r.sessions k).accepted = true) :
    ((r.react overflow k c).sessions k).Minds := by
  have hall : ∀ j, j = k → (r.sessions j).Minds ∧ (r.sessions j).accepted =
      (r.sessions k).accepted := by
    rintro j rfl
    exact ⟨hr, rfl⟩
  have hP := stable_minds k (r.sessions k).accepted
  cases c with
  | none => exact hr
  | some c =>
    cases c with
    | accept =>
      have hcalls := hP.calls (i := k) (c := .append (bytes "What is your name?")) rfl hall
      exact (hP.returns (i := k) hcalls k rfl).1
    | message input =>
      have haccepted := hacc _ rfl (Or.inl rfl)
      obtain ⟨u, hu, _, heq | heq⟩ :=
        hP.onMessage overflow k input (fun b _ => rfl) hall
      · have hthrown : u.throw.thrown = true := rfl
        simp only [react, heq, hthrown, if_true]
        exact (hu k rfl).1
      · obtain ⟨hminds, hsame⟩ := hu k rfl
        have hlaunched : ((u.launchTimer k .sendPing).sessions k).Minds := by
          rw [launchTimer_self]
          exact hminds.launch (hsame.trans haccepted)
        simp only [react, heq]
        split_ifs
        · exact hlaunched
        · rw [resume_self]
          cases hv : ((u.launchTimer k .sendPing).sessions k).resume with
          | none => exact hlaunched
          | some v => exact hlaunched.resume hv
    | pong payload =>
      rw [react, onPong, launchTimer_self]
      exact hr.launch (hacc _ rfl (Or.inl rfl))
    | close payload => exact (hP.onClose (fun messages => rfl) hall k rfl).1
    | timer =>
      have haccepted := hacc _ rfl (Or.inr rfl)
      have hcall : ∀ c : Server.Call, c ≠ .launchTimer → (∀ target, c ≠ .launchTimerWith target) →
          ((r.call k c).sessions k).Minds := by
        intro c hc hc'
        rw [call_self]
        have hstep : (Server.system callbacks).step (r.sessions k) (.call c) =
            some ((r.sessions k).call callbacks c) := rfl
        apply hr.step _ hstep
        rintro c' heq
        cases heq
        exact ⟨hc, hc'⟩
      rw [react, onTimer]
      split
      · rw [launchTimer_self]
        apply (hcall (.doPing []) (by simp) (by simp)).launch
        rw [call_self, Server.call_accepted]
        exact haccepted
      · exact hcall (.doClose .normal) (by simp) (by simp)
    | _ => exact hr

/-- A sign of the client, or a timeout, finds the session accepted. -/
theorem accepted_of_callback {e : Server.Event} {s : Server} {b : Callback} (hsound : r.Sound)
    (hr : (r.sessions k).Minds) (hopen : HearsOpen k r (.session k e))
    (hs : (Server.system callbacks).step (r.sessions k) e = some s)
    (hcall : (r.sessions k).callback callbacks e = some b) (hb : b.isSign = true ∨ b = .timer) :
    (r.sessions k).accepted = true := by
  cases b with
  | message input => exact hsound.accepted_of_message hs hcall
  | pong payload =>
    obtain ⟨kind, frame, rfl⟩ := Server.callback_pong hcall
    exact hopen rfl
  | timer =>
    obtain ⟨j, ec, rfl⟩ := Server.callback_timer hcall
    obtain ⟨w, hw, _⟩ := Option.bind_eq_some_iff.mp hs
    exact (hr.waits (List.ne_nil_of_mem (List.mem_of_getElem? hw))).1
  | _ => simp [Callback.isSign] at hb

theorem call_frame {s : Server} (c : Server.Call) : (s.call callbacks c).frame = s.frame := by
  apply (Server.moves_of_call c).frame_eq
  cases c <;> rfl

theorem resume_frame (k : ℕ) (u : Room) : ((u.resume k).sessions k).frame = .idle := by
  rw [resume_self]
  cases hv : (u.sessions k).resume with
  | none =>
    by_contra hframe
    obtain ⟨v, hsome⟩ := Server.resume_isSome hframe
    exact absurd (hv.symm.trans hsome) (by simp)
  | some v =>
    obtain ⟨_, hspares, _⟩ := Server.resume_spares hv
    exact hspares.frame.trans Session.afterFrame_frame

theorem stable_idle (k : ℕ) :
    Stable (fun c => c ≠ .doAccept) fun s => ∀ j, j = k → (s j).frame = .idle := by
  apply Stable.each (R := fun j s => j = k → s.frame = .idle)
  · simp
  · simp
  · intro j s c hc hs hj
    exact (call_frame c).trans (hs hj)
  · intro j s u hu hs hj
    rw [Server.resume, hs hj] at hu
    cases hu

/-- A handler that calls neither `on_accept` nor `on_message` leaves no callback running. -/
theorem step_idle {e : Server.Event} {s s' : Server} (hs : s.frame = .idle)
    (haccept : s.callback callbacks e ≠ some .accept)
    (hmessage : ∀ input, s.callback callbacks e ≠ some (.message input))
    (h : (Server.system callbacks).step s e = some s') : s'.frame = .idle := by
  apply (Server.moves_of_step h).idle hs
  · intro c hm
    obtain ⟨rfl, _⟩ := Server.move_eq_opened.mp hm
    exact haccept rfl
  · intro chunk text hm
    rw [Server.move_eq_read] at hm
    subst hm
    exact hmessage _ rfl

theorem react_idle {c : Option Callback} (hthrown : (r.react overflow k c).thrown = false)
    (hr : c ≠ some .accept → (∀ input, c ≠ some (.message input)) →
      (r.sessions k).frame = .idle) : ((r.react overflow k c).sessions k).frame = .idle := by
  by_cases haccept : c = some .accept
  · subst haccept
    exact resume_frame k _
  · by_cases hmessage : ∃ input, c = some (.message input)
    · obtain ⟨input, rfl⟩ := hmessage
      simp only [react] at hthrown ⊢
      split_ifs at hthrown ⊢
      · exact absurd hthrown (by simp_all)
      · exact resume_frame k _
    · push Not at hmessage
      apply (stable_idle k).react (by simp) (by simp) (by simp) (fun b _ => by simp) _ k rfl
      rintro j rfl
      exact hr haccept hmessage

theorem Tended.step {e : Event} (hsound : r.Sound) (hr : r.Tended k) (hopen : r.HearsOpen k e)
    (h : (system overflow readMessageMax).step r e = some t) : t.Tended k := by
  have hrunning := running_of_step h
  cases e with
  | upgrade =>
    cases step_upgrade h
    by_cases hk : k = r.created
    · subst hk
      constructor
      · rw [call_self]
        have hstep : (Server.system callbacks).step (r.sessions r.created) (.call .doAccept) =
            some ((r.sessions r.created).call callbacks .doAccept) := rfl
        apply hr.minds.step _ hstep
        rintro c heq
        cases heq
        simp
      · intro _
        rw [call_self]
        exact (call_frame .doAccept).trans (hr.idle hrunning)
    · constructor
      · rw [call_other hk]
        exact hr.minds
      · intro _
        rw [call_other hk]
        exact hr.idle hrunning
  | disconnect i =>
    cases step_disconnect h
    exact ⟨hr.minds, fun _ => hr.idle hrunning⟩
  | session i e =>
    by_cases hk : k = i
    · subst hk
      obtain ⟨hext, s, hs, rfl⟩ := step_session h
      set arrived : Room := { r with sessions := Function.update r.sessions k s }
      have hself : arrived.sessions k = s := Function.update_self k s r.sessions
      constructor
      · apply react_minds
        · rw [hself]
          apply hr.minds.step _ hs
          rintro c rfl
          exact absurd hext id
        · intro b hcall hb
          rw [hself, Server.step_accepted hs,
            accepted_of_callback hsound hr.minds hopen hs hcall hb, Bool.true_or]
      · intro hthrown
        apply react_idle hthrown
        intro haccept hmessage
        rw [hself]
        exact step_idle (hr.idle hrunning) haccept hmessage hs
    · have hsession := step_other hsound hk h
      cases htold : r.told overflow k i ((r.sessions i).callback callbacks e) with
      | none =>
        rw [htold, hear] at hsession
        exact ⟨hsession ▸ hr.minds, fun _ => hsession ▸ hr.idle hrunning⟩
      | some text =>
        rw [htold, hear, tell] at hsession
        constructor
        · rw [hsession]
          exact (hr.minds.call rfl).call rfl
        · intro _
          rw [hsession, call_frame, call_frame]
          exact hr.idle hrunning

/-! ## The monitor of a session -/

/-- What session `k` knows of its client, with its timer. -/
def monitor (k : ℕ) (r : Room) : Monitor :=
  (r.sessions k).monitor (decide (r.timers k = .closeConnection))

/-- The waits of session `k` complete with errors that meet `C`. -/
def Completes (C : ErrorCode → Prop) (k : ℕ) : Event → Prop
  | .session i (.waitDone _ ec) => i = k → C ec
  | _ => True

instance (C : ErrorCode → Prop) [DecidablePred C] (k : ℕ) (e : Event) :
    Decidable (Completes C k e) :=
  match e with
  | .session i (.waitDone _ ec) => inferInstanceAs (Decidable (i = k → C ec))
  | .upgrade | .disconnect _ | .session _ (.acceptDone _) | .session _ (.readDone _ _ _)
  | .session _ (.writeDone _ _) | .session _ (.pingDone _) | .session _ (.pongDone _)
  | .session _ (.closeDone _) | .session _ (.control _ _) | .session _ (.call _)
  | .session _ .resume | .session _ (.tick _) | .session _ .expire => isTrue trivial

/-- Moves of the deadline, signs and lapses whose errors meet `C` lead from `x` to `y`. -/
abbrev Watches (C : ErrorCode → Prop) (x y : Monitor) : Prop :=
  (Monitor.system (seconds 10)).Reaches (Monitor.Lapses C) x y

theorem watches_of_rests {C : ErrorCode → Prop} {s s' : Server} (h : Server.Rests s s')
    (closing : Bool) : Watches C (s.monitor closing) (s'.monitor closing) := by
  rcases h.monitor closing with hsame | hmoved
  · exact System.Reaches.of_eq hsame.symm
  · rw [hmoved]
    exact System.Reaches.single (e := .move) trivial rfl

theorem stable_rests (k : ℕ) (s₀ : Server) :
    Stable (fun c => c.plain = true) fun s => ∀ j, j = k → Server.Rests s₀ (s j) := by
  apply Stable.each (R := fun j s => j = k → Server.Rests s₀ s)
  · rfl
  · rfl
  · intro j s c hc hs hj
    exact (hs hj).trans (Server.Rests.call hc s)
  · intro j s u hu hs hj
    exact (hs hj).trans (Server.Rests.resume hu)

theorem onClose_timers (i : ℕ) (r : Room) : (r.onClose i).timers = r.timers := by
  rcases onClose_cases i r with ⟨_, heq | heq⟩ | ⟨nickname, _, heq⟩
  · rw [heq]
  · rw [heq]
    rfl
  · rw [heq, broadcast_timers]
    rfl

/-- A callback that is no sign and no timeout leaves the monitor, but for its deadline. -/
theorem react_rests (overflow : ℤ → ℤ) {c : Option Callback}
    (hsign : ∀ b, c = some b → b.isSign = false) (htimer : c ≠ some .timer) :
    Server.Rests (r.sessions k) ((r.react overflow k c).sessions k) ∧
      (r.react overflow k c).timers = r.timers := by
  have hall : ∀ j, j = k → Server.Rests (r.sessions k) (r.sessions j) := by
    rintro j rfl
    exact Server.Rests.refl _
  have hP := stable_rests k (r.sessions k)
  cases c with
  | none => exact ⟨hall k rfl, rfl⟩
  | some c =>
    cases c with
    | accept =>
      have hcalls := hP.calls (i := k) (c := .append (bytes "What is your name?")) rfl hall
      exact ⟨hP.returns (i := k) hcalls k rfl, rfl⟩
    | close payload =>
      exact ⟨hP.onClose (fun messages => rfl) hall k rfl, onClose_timers k r⟩
    | timer => exact absurd rfl htimer
    | message input => exact absurd (hsign _ rfl) (by simp [Callback.isSign])
    | pong payload => exact absurd (hsign _ rfl) (by simp [Callback.isSign])
    | _ => exact ⟨hall k rfl, rfl⟩

/-- A callback that is a sign throws, or launches the timer anew. -/
theorem react_hears (overflow : ℤ → ℤ) {c : Callback} (hsign : c.isSign = true) :
    ∃ u : Room, Server.Rests (r.sessions k) (u.sessions k) ∧
      (r.react overflow k (some c) = u.throw ∨
        Server.Rests ((u.launchTimer k .sendPing).sessions k)
            ((r.react overflow k (some c)).sessions k) ∧
          (r.react overflow k (some c)).timers k = .sendPing) := by
  cases c with
  | message input =>
    have hall : ∀ j, j = k → Server.Rests (r.sessions k) (r.sessions j) := by
      rintro j rfl
      exact Server.Rests.refl _
    obtain ⟨u, hu, _, heq | heq⟩ :=
      (stable_rests k (r.sessions k)).onMessage overflow k input (fun b _ => rfl) hall
    · refine ⟨u, hu k rfl, Or.inl ?_⟩
      simp only [react, heq]
      exact if_pos rfl
    · refine ⟨u, hu k rfl, Or.inr ?_⟩
      have hlaunched : ∀ j, j = k → Server.Rests ((u.launchTimer k .sendPing).sessions k)
          ((u.launchTimer k .sendPing).sessions j) := by
        rintro j rfl
        exact Server.Rests.refl _
      simp only [react, heq]
      split_ifs
      · exact ⟨hlaunched k rfl, Function.update_self k _ _⟩
      · refine ⟨?_, Function.update_self k _ _⟩
        exact (stable_rests k _).returns (i := k) hlaunched k rfl
  | pong payload =>
    exact ⟨r, Server.Rests.refl _, Or.inr ⟨Server.Rests.refl _, Function.update_self k _ _⟩⟩
  | _ => cases hsign

theorem monitor_eq {timer : Timer} {closing : Bool} {b : List Beat}
    (htimer : (t.sessions k).timer = timer)
    (hclosing : decide (t.timers k = .closeConnection) = closing)
    (hbeats : beats (t.sessions k).log = b) : t.monitor k = ⟨timer, closing, .of b⟩ := by
  rw [monitor, Server.monitor, htimer, hclosing, hbeats]

/-- The function of the timer runs once its deadline has passed. -/
theorem onTimer_monitor {timer : Timer} {b : List Beat} (hacc : (r.sessions k).accepted = true)
    (htimer : (r.sessions k).timer = timer) (hbeats : beats (r.sessions k).log = b ++ [.timeout]) :
    (r.onTimer k).monitor k =
      Monitor.act (seconds 10) ⟨timer, decide (r.timers k = .closeConnection), .of b⟩ := by
  have hping : ((r.sessions k).call callbacks (.doPing [])).timer =
      timer.expiresAfter (seconds 10) := by
    rw [← htimer]
    exact (Server.operate_timer _).trans (if_pos hacc)
  have hclose : ((r.sessions k).call callbacks (.doClose .normal)).timer =
      timer.expiresAfter (seconds 10) := by
    rw [← htimer]
    exact (Server.operate_timer _).trans (if_pos hacc)
  have hprobe : beats ((r.sessions k).call callbacks (.doPing [])).log =
      b ++ [.timeout, .probe] := by
    rw [Server.beats_call, hbeats, Server.beat, if_pos hacc, List.append_assoc]
    rfl
  have hverdict : beats ((r.sessions k).call callbacks (.doClose .normal)).log =
      b ++ [.timeout, .verdict] := by
    rw [Server.beats_call, hbeats, Server.beat, if_pos hacc, List.append_assoc]
    rfl
  rw [onTimer]
  cases htimers : r.timers k with
  | sendPing =>
    set pinged := (r.call k (.doPing [])).launchTimer k .closeConnection
    have hself : pinged.sessions k =
        ((r.sessions k).call callbacks (.doPing [])).call callbacks (.launchTimerWith true) := by
      rw [launchTimer_self, call_self]
    have htimer' : (pinged.sessions k).timer = (timer.expiresAfter (seconds 10)).asyncWait := by
      rw [hself, ← hping]
      rfl
    have hclosing : decide (pinged.timers k = .closeConnection) = true := by
      simp [pinged, launchTimer, call]
    have hbeats' : beats (pinged.sessions k).log = b ++ [.timeout, .probe] := by
      rw [hself, Server.beats_call, hprobe]
      exact List.append_nil _
    rw [monitor_eq htimer' hclosing hbeats', Hearing.of_append]
    rfl
  | closeConnection =>
    have htimer' : ((r.call k (.doClose .normal)).sessions k).timer =
        timer.expiresAfter (seconds 10) := by
      rw [call_self, hclose]
    have hclosing : decide ((r.call k (.doClose .normal)).timers k = .closeConnection) = true := by
      simp [call, htimers]
    have hbeats' : beats ((r.call k (.doClose .normal)).sessions k).log =
        b ++ [.timeout, .verdict] := by
      rw [call_self, hverdict]
    rw [monitor_eq htimer' hclosing hbeats', Hearing.of_append]
    rfl

theorem step_lapse {j : ℕ} {ec : ErrorCode} (hr : r.Tended k)
    (h : (system overflow readMessageMax).step r (.session k (.waitDone j ec)) = some t) :
    (Monitor.system (seconds 10)).step (r.monitor k) (.lapse j ec) = some (t.monitor k) := by
  obtain ⟨_, s, hs, rfl⟩ := step_session h
  obtain ⟨w, hw, hadmits, htimer⟩ := Server.waitDone_timer hs
  obtain ⟨hacc, hcallback⟩ := hr.minds.waits (List.ne_nil_of_mem (List.mem_of_getElem? hw))
  have hbeats := Server.step_beats hs
  have haccepted := Server.step_accepted hs
  rw [hacc, Bool.true_or] at haccepted
  rw [hcallback, Timer.handle] at htimer
  set arrived : Room := { r with sessions := Function.update r.sessions k s }
  have hself : arrived.sessions k = s := Function.update_self k s r.sessions
  have hwait : (r.monitor k).timer.waits[j]? = some w := hw
  have hstep : (Monitor.system (seconds 10)).step (r.monitor k) (.lapse j ec) =
      some ((r.monitor k).lapse (seconds 10) j ec) := by
    simp [Monitor.system, Monitor.step, hwait, hadmits]
  rw [hstep, Monitor.lapse]
  by_cases hact : Counts ec ∧ (r.sessions k).timer.expired = true
  · have hpast : (r.monitor k).timer.expired = true := hact.2
    have hpast' : ((r.sessions k).timer.without j).expired = true := hact.2
    have hcall : (r.sessions k).callback callbacks (.waitDone j ec) = some .timer := by
      rw [Server.callback, if_pos ⟨hact.1, hact.2, hcallback⟩]
    have harrived : (arrived.sessions k).accepted = true := by rw [hself, haccepted]
    have hsame : (arrived.sessions k).timer = (r.sessions k).timer.without j := by
      rw [hself, htimer, if_pos hact.1, if_pos hpast', if_pos rfl]
    have htimes : beats (arrived.sessions k).log = beats (r.sessions k).log ++ [.timeout] := by
      rw [hself, hbeats, Server.beat, if_pos hact, hcallback, if_pos rfl]
    rw [hcall, if_pos hact.1, if_pos hpast, react, onTimer_monitor harrived hsame htimes]
    rfl
  · have hcall : (r.sessions k).callback callbacks (.waitDone j ec) = none := by
      rw [Server.callback, if_neg fun h => hact ⟨h.1, h.2.1⟩]
    have hnothing : beats (arrived.sessions k).log = beats (r.sessions k).log := by
      rw [hself, hbeats, Server.beat, if_neg hact, List.append_nil]
    rw [hcall, react]
    by_cases hcounts : Counts ec
    · have hahead : ¬ (r.monitor k).timer.expired = true := fun hexp => hact ⟨hcounts, hexp⟩
      have hahead' : ¬ ((r.sessions k).timer.without j).expired = true := hahead
      have hsame : (arrived.sessions k).timer = ((r.sessions k).timer.without j).asyncWait := by
        rw [hself, htimer, if_pos hcounts, if_neg hahead']
      rw [monitor_eq hsame rfl hnothing, if_pos hcounts, if_neg hahead]
      rfl
    · have hsame : (arrived.sessions k).timer = (r.sessions k).timer.without j := by
        rw [hself, htimer, if_neg hcounts]
      rw [monitor_eq hsame rfl hnothing, if_neg hcounts]
      rfl

theorem step_ticked {d : ℕ}
    (h : (system overflow readMessageMax).step r (.session k (.tick d)) = some t) :
    (Monitor.system (seconds 10)).step (r.monitor k) (.tick d) = some (t.monitor k) := by
  obtain ⟨_, s, hs, rfl⟩ := step_session h
  have hbeats : beats s.log = beats (r.sessions k).log ++ [.elapsed d] := Server.step_beats hs
  have htimer : s.timer = { (r.sessions k).timer with now := (r.sessions k).timer.now + d } := by
    cases hs
    rfl
  set arrived : Room := { r with sessions := Function.update r.sessions k s }
  have hself : arrived.sessions k = s := Function.update_self k s r.sessions
  rw [← hself] at hbeats htimer
  change _ = some (arrived.monitor k)
  rw [monitor_eq htimer rfl hbeats, Hearing.of_append]
  rfl

theorem step_fired (h : (system overflow readMessageMax).step r (.session k .expire) = some t) :
    (Monitor.system (seconds 10)).step (r.monitor k) .fire = some (t.monitor k) := by
  obtain ⟨_, s, hs, rfl⟩ := step_session h
  obtain ⟨hexp, hs⟩ := Option.ite_none_right_eq_some.mp hs
  set arrived : Room := { r with sessions := Function.update r.sessions k s }
  have hself : arrived.sessions k = s := Function.update_self k s r.sessions
  have hbeats : beats (arrived.sessions k).log = beats (r.sessions k).log := by
    rw [hself]
    cases hs
    rfl
  have htimer : (arrived.sessions k).timer =
      { (r.sessions k).timer with waits := (r.sessions k).timer.waits.map Timer.fire } := by
    rw [hself]
    cases hs
    rfl
  have hpast : (r.monitor k).timer.expired = true := hexp
  change _ = some (arrived.monitor k)
  rw [monitor_eq htimer rfl hbeats]
  exact if_pos hpast

/-- A callback launches the timer of its own session only. -/
theorem react_timers (hk : k ≠ i) (c : Option Callback) (r : Room) :
    (r.react overflow i c).timers k = r.timers k := by
  have hP : Stable (fun _ => True) (fun _ => True) := by
    constructor <;> simp
  have hlaunch : ∀ (f : OnTimer) (u : Room), (u.launchTimer i f).timers k = u.timers k :=
    fun _ _ => Function.update_of_ne hk _ _
  cases c with
  | none => rfl
  | some c =>
    cases c with
    | message input =>
      have hmessage : (r.onMessage overflow i input).timers k = r.timers k := by
        obtain ⟨u, _, htimers, heq | heq⟩ := hP.onMessage overflow i input (by simp) trivial
        · rw [heq]
          exact congrFun htimers k
        · rw [heq, hlaunch, htimers]
      simp only [react]
      split_ifs <;> exact hmessage
    | pong payload => exact hlaunch .sendPing r
    | close payload => exact congrFun (onClose_timers i r) k
    | timer =>
      rw [react, onTimer]
      split
      · exact hlaunch .closeConnection (r.call i (.doPing []))
      · rfl
    | _ => rfl

/-- The events of a session other than those of its clock. -/
theorem step_arrives {e : Server.Event} {s s' : Server} (hext : External readMessageMax e)
    (hclock : (∀ j ec, e ≠ .waitDone j ec) ∧ (∀ d, e ≠ .tick d) ∧ e ≠ .expire)
    (h : (Server.system callbacks).step s e = some s') :
    beats s'.log = beats s.log ++ Callback.signs (s.callback callbacks e) ∧
      s.timer.Moves (seconds 10) s'.timer := by
  obtain ⟨hwait, htick, hexpire⟩ := hclock
  have hbeats := Server.step_beats h
  cases e with
  | call c => exact absurd hext id
  | resume => exact absurd hext id
  | waitDone j ec => exact absurd rfl (hwait j ec)
  | tick d => exact absurd rfl (htick d)
  | expire => exact absurd rfl hexpire
  | writeDone j ec =>
    refine ⟨hbeats, Server.step_moves ?_ h⟩
    rw [Server.timerOp]
    split_ifs <;> simp
  | _ => exact ⟨hbeats, Server.step_moves (Or.inl rfl) h⟩

/-- A sign of the client. -/
theorem hears_watches {C : ErrorCode → Prop} {s : Server} {u : Room}
    (hdeadline : (r.sessions k).timer.expiry.isSome = true)
    (hbeats : beats s.log = beats (r.sessions k).log ++ [.sign])
    (htimer : (r.sessions k).timer.Moves (seconds 10) s.timer) (hu : Server.Rests s (u.sessions k))
    (ht : Server.Rests ((u.launchTimer k .sendPing).sessions k) (t.sessions k))
    (hsend : t.timers k = .sendPing) : Watches C (r.monitor k) (t.monitor k) := by
  have hmoves := htimer.trans hu.timer
  set moved : Monitor := { r.monitor k with timer := (u.sessions k).timer }
  have hmove : Watches C (r.monitor k) moved := by
    rcases hmoves with hsame | hmoved
    · apply System.Reaches.of_eq
      simp only [moved, hsame]
      rfl
    · apply System.Reaches.single (e := .move) trivial
      simp only [moved, hmoved]
      rfl
  have hhear : Watches C moved (((u.launchTimer k .sendPing).sessions k).monitor false) := by
    apply System.Reaches.single (e := .hear) trivial
    have hsome : moved.timer.expiry.isSome = true := hmoves.expiry hdeadline
    have hbeats' : beats ((u.launchTimer k .sendPing).sessions k).log =
        beats (r.sessions k).log ++ [.sign] := by
      rw [launchTimer_self, Server.beats_call, hu.beats, hbeats]
      exact List.append_nil _
    rw [Server.monitor, hbeats', Hearing.of_append, launchTimer_self]
    exact if_pos hsome
  have hrest := watches_of_rests (C := C) ht false
  have hend : t.monitor k = (t.sessions k).monitor false := by
    rw [monitor, hsend]
    rfl
  rw [hend]
  exact (hmove.trans hhear).trans hrest

theorem monitor_of_rests (C : ErrorCode → Prop)
    (hsession : Server.Rests (r.sessions k) (t.sessions k)) (htimers : t.timers k = r.timers k) :
    Watches C (r.monitor k) (t.monitor k) := by
  rw [monitor, monitor, htimers]
  exact watches_of_rests hsession _

/-- An event of the session itself that is none of its clock: what arrives is no sign of the client,
or it is one, and then the callback may throw. -/
theorem arrives_watches {e : Server.Event} (C : ErrorCode → Prop) (hsound : r.Sound)
    (hr : r.Tended k) (hopen : HearsOpen k r (.session k e))
    (hclock : (∀ j ec, e ≠ .waitDone j ec) ∧ (∀ d, e ≠ .tick d) ∧ e ≠ .expire)
    (h : (system overflow readMessageMax).step r (.session k e) = some t) :
    Watches C (r.monitor k) (t.monitor k) ∨
      t.thrown = true ∧ (t.monitor k).hearing = (r.monitor k).hearing.add .sign := by
  obtain ⟨hext, s, hs, rfl⟩ := step_session h
  obtain ⟨hbeats, htimer⟩ := step_arrives hext hclock hs
  set arrived : Room := { r with sessions := Function.update r.sessions k s }
  have hself : arrived.sessions k = s := Function.update_self k s r.sessions
  by_cases hsign : ∃ b, (r.sessions k).callback callbacks e = some b ∧ b.isSign = true
  · obtain ⟨b, hcall, hb⟩ := hsign
    have hsigns : beats s.log = beats (r.sessions k).log ++ [.sign] := by
      rw [hbeats, hcall, Callback.signs, Option.any_some, if_pos hb]
    obtain ⟨u, hu, hend⟩ := react_hears overflow (r := arrived) (k := k) hb
    rw [hself] at hu
    rw [hcall]
    rcases hend with hthrows | ⟨ht, hsend⟩
    · right
      rw [hthrows]
      refine ⟨rfl, ?_⟩
      change Hearing.of (beats (u.sessions k).log) = _
      rw [hu.beats, hsigns, Hearing.of_append]
      rfl
    · left
      have hacc := accepted_of_callback hsound hr.minds hopen hs hcall (Or.inl hb)
      exact hears_watches (hr.minds.deadline (Or.inl hacc)) hsigns htimer hu ht hsend
  · left
    push Not at hsign
    have hnone : Callback.signs ((r.sessions k).callback callbacks e) = [] := by
      cases hcall : (r.sessions k).callback callbacks e with
      | none => rfl
      | some b =>
        rw [Callback.signs, Option.any_some, if_neg (hsign b hcall)]
    have hnotimer : (r.sessions k).callback callbacks e ≠ some .timer := by
      intro hcall
      obtain ⟨j, ec, rfl⟩ := Server.callback_timer hcall
      exact hclock.1 j ec rfl
    rw [hnone, List.append_nil] at hbeats
    obtain ⟨hrests, htimers⟩ := react_rests overflow (r := arrived) (k := k)
      (fun b hcall => by simpa using hsign b hcall) hnotimer
    rw [hself] at hrests
    exact monitor_of_rests C (Server.Rests.trans ⟨hbeats, htimer⟩ hrests) (congrFun htimers k)

/-- Each handler of the server, seen from session `k`, is a run of its monitor, unless it throws. -/
theorem step_watches {e : Event} {C : ErrorCode → Prop} (hsound : r.Sound) (hr : r.Tended k)
    (hopen : r.HearsOpen k e) (hwaits : Completes C k e)
    (h : (system overflow readMessageMax).step r e = some t) :
    Watches C (r.monitor k) (t.monitor k) ∨
      t.thrown = true ∧ (t.monitor k).hearing = (r.monitor k).hearing.add .sign := by
  cases e with
  | upgrade =>
    left
    cases step_upgrade h
    refine monitor_of_rests C ?_ rfl
    by_cases hk : k = r.created
    · rw [hk, call_self]
      have hstep : (Server.system callbacks).step (r.sessions r.created) (.call .doAccept) =
          some ((r.sessions r.created).call callbacks .doAccept) := rfl
      apply Server.step_rests rfl _ hstep
      rw [Server.timerOp]
      split_ifs <;> simp
    · rw [call_other hk]
      exact Server.Rests.refl _
  | disconnect i =>
    left
    cases step_disconnect h
    exact System.Reaches.refl _
  | session i e =>
    by_cases hk : k = i
    · subst hk
      by_cases hclock : (∀ j ec, e ≠ .waitDone j ec) ∧ (∀ d, e ≠ .tick d) ∧ e ≠ .expire
      · exact arrives_watches C hsound hr hopen hclock h
      · left
        cases e with
        | waitDone j ec =>
          have hlapses : Monitor.Lapses C (r.monitor k) (.lapse j ec) := hwaits rfl
          exact System.Reaches.single hlapses (step_lapse hr h)
        | tick d =>
          have hlapses : Monitor.Lapses C (r.monitor k) (.tick d) := trivial
          exact System.Reaches.single hlapses (step_ticked h)
        | expire =>
          have hlapses : Monitor.Lapses C (r.monitor k) .fire := trivial
          exact System.Reaches.single hlapses (step_fired h)
        | _ => exact absurd (by simp) hclock
    · left
      have hsession := step_other hsound hk h
      have htimers : t.timers k = r.timers k := by
        obtain ⟨_, s, _, rfl⟩ := step_session h
        exact react_timers hk _ _
      apply monitor_of_rests C _ htimers
      rw [hsession]
      cases r.told overflow k i ((r.sessions i).callback callbacks e) with
      | none => exact Server.Rests.refl _
      | some text =>
        have happend : Server.Rests (r.sessions k)
            ((r.sessions k).call callbacks (.append text)) := Server.Rests.call rfl _
        rw [hear, tell]
        exact happend.trans (Server.Rests.call rfl _)

end Chat.Room
end BeastWebsocket
