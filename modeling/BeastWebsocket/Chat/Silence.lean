import BeastWebsocket.Chat.Heartbeat

/-! # Clients that have gone silent

A session of the chat server closes its connection only on a client that has left a ping without an
answer, and sooner or later on each that does.
-/
namespace BeastWebsocket
open Transition

namespace Chat.Room
variable {overflow : ℤ → ℤ} {readMessageMax : ℕ} {k : ℕ} {r t : Room} {e : Event}

/-- What session `k` knows of its client. -/
def hearing (k : ℕ) (r : Room) : Hearing := .of (beats (r.sessions k).log)

/-! ## No client is closed too early -/

/-- The verdicts of session `k` have not come early, and while the server runs none will. -/
structure Waits (k : ℕ) (r : Room) : Prop where
  sound : r.Sound
  tended : r.Tended k
  patient : (r.hearing k).Patient (seconds 10)
  accurate : r.thrown = false → (r.monitor k).Accurate (seconds 10)

theorem waits_initial (k : ℕ) : Waits k {} where
  sound := sound_initial
  tended := tended_initial k
  patient := Monitor.accurate_initial.patient
  accurate := fun _ => Monitor.accurate_initial

theorem Waits.step (hr : r.Waits k) (hopen : r.HearsOpen k e)
    (h : (system overflow readMessageMax).step r e = some t) : t.Waits k := by
  have hsound := hr.sound.step r e t h
  have htended := hr.tended.step hr.sound hopen h
  have hany : Completes (fun _ => True) k e := by
    cases e with
    | session i e => cases e <;> simp [Completes]
    | _ => trivial
  rcases step_watches hr.sound hr.tended hopen hany h with hwatches | ⟨hthrown, hsign⟩
  · have haccurate : (t.monitor k).Accurate (seconds 10) :=
      hwatches.invariant (fun _ _ _ hx _ hstep => hx.step hstep)
        (hr.accurate (running_of_step h))
    exact ⟨hsound, htended, haccurate.patient, fun _ => haccurate⟩
  · refine ⟨hsound, htended, ?_, ?_⟩
    · change (t.monitor k).hearing.Patient (seconds 10)
      rw [hsign]
      exact hr.patient
    · intro hrunning
      exact absurd (hthrown.symm.trans hrunning) (by simp)

/-! ## A client that has gone silent is closed -/

/-- Session `k` keeps watching its client. -/
structure Guards (k : ℕ) (r : Room) : Prop where
  sound : r.Sound
  fresh : r.Fresh
  tended : r.Tended k
  vigilant : r.thrown = false → (r.monitor k).Vigilant (seconds 10)

theorem guards_initial (k : ℕ) : Guards k {} where
  sound := sound_initial
  fresh := fresh_initial
  tended := tended_initial k
  vigilant := fun _ => Monitor.vigilant_initial

theorem Guards.step (hr : r.Guards k) (hopen : r.HearsOpen k e) (hwaits : Completes Counts k e)
    (h : (system overflow readMessageMax).step r e = some t) : t.Guards k := by
  refine ⟨hr.sound.step r e t h, hr.fresh.step hr.sound h, hr.tended.step hr.sound hopen h, ?_⟩
  intro hrunning
  rcases step_watches hr.sound hr.tended hopen hwaits h with hwatches | ⟨hthrown, _⟩
  · exact hwatches.invariant (fun _ _ _ hx ho hstep => hx.step ho hstep)
      (hr.vigilant (running_of_step h))
  · exact absurd (hthrown.symm.trans hrunning) (by simp)

/-- A session that has been created takes the steps that its stream and its clock take. -/
theorem step_of_session (overflow : ℤ → ℤ) {e : Server.Event} {s : Server}
    (hrunning : r.thrown = false) (hk : k < r.created) (hext : External readMessageMax e)
    (hs : (Server.system callbacks).step (r.sessions k) e = some s) :
    (system overflow readMessageMax).step r (.session k e) =
      some ({ r with sessions := Function.update r.sessions k s }.react overflow k
        ((r.sessions k).callback callbacks e)) := by
  refine (if_neg (by simp [hrunning])).trans ?_
  refine (if_pos ⟨hk, hext⟩).trans ?_
  rw [hs, Option.map_some]

/-- A client that has given a sign is that of a session that has been created. -/
theorem Guards.created (hr : r.Guards k) (hrunning : r.thrown = false)
    (hheard : (r.hearing k).heard = true) : k < r.created := by
  by_contra hk
  obtain ⟨hnew, _⟩ := hr.fresh.new hrunning k (by omega)
  rw [hearing, hnew] at hheard
  cases hheard

/-- The clock of session `k` moves on by `d`, and a wait completes. -/
def silent (k d : ℕ) (ec : ErrorCode) : List Event :=
  [.session k (.tick d), .session k .expire, .session k (.waitDone 0 ec)]

/-- The clock of a session moves on. -/
theorem Guards.ticks (overflow : ℤ → ℤ) (readMessageMax : ℕ) (hr : r.Guards k)
    (hrunning : r.thrown = false) (hk : k < r.created) (d : ℕ) :
    ∃ t, (system overflow readMessageMax).step r (.session k (.tick d)) = some t ∧ t.Guards k ∧
      t.thrown = false ∧ k < t.created := by
  have hext : External readMessageMax (.tick d) := trivial
  have hopen : HearsOpen k r (.session k (.tick d)) := trivial
  have hwaits : Completes Counts k (.session k (.tick d)) := trivial
  have hstep := step_of_session overflow hrunning hk hext rfl
  exact ⟨_, hstep, hr.step hopen hwaits hstep, hrunning, hk⟩

/-- A deadline that has passed fires the waits. -/
theorem Guards.expires (overflow : ℤ → ℤ) (readMessageMax : ℕ) (hr : r.Guards k)
    (hrunning : r.thrown = false) (hk : k < r.created)
    (hexp : (r.monitor k).timer.expired = true) :
    ∃ t, (system overflow readMessageMax).step r (.session k .expire) = some t ∧ t.Guards k ∧
      t.thrown = false ∧ k < t.created := by
  have hext : External readMessageMax .expire := trivial
  have hopen : HearsOpen k r (.session k .expire) := trivial
  have hwaits : Completes Counts k (.session k .expire) := trivial
  have hstep := step_of_session overflow hrunning hk hext (if_pos hexp)
  exact ⟨_, hstep, hr.step hopen hwaits hstep, hrunning, hk⟩

/-- A wait that can complete does. -/
theorem Guards.completes (overflow : ℤ → ℤ) (readMessageMax : ℕ) (hr : r.Guards k)
    (hrunning : r.thrown = false) (hk : k < r.created) {j : ℕ} {w : Wait} {ec : ErrorCode}
    (hw : (r.monitor k).timer.waits[j]? = some w) (hadmits : w.admits ec = true) :
    ∃ t, (system overflow readMessageMax).step r (.session k (.waitDone j ec)) = some t := by
  have hext : External readMessageMax (.waitDone j ec) := trivial
  have hidle := hr.tended.idle hrunning
  have hs : ∃ s, (Server.system callbacks).step (r.sessions k) (.waitDone j ec) = some s :=
    ⟨_, Option.bind_eq_some_iff.mpr ⟨w, hw, Session.handled_eq_some.mpr ⟨⟨hidle, hadmits⟩, rfl⟩⟩⟩
  obtain ⟨s, hs⟩ := hs
  exact ⟨_, step_of_session overflow hrunning hk hext hs⟩

/-- Until the verdict, the next timeout comes with the deadline. -/
theorem Guards.times_out (overflow : ℤ → ℤ) (readMessageMax : ℕ) (hr : r.Guards k)
    (hrunning : r.thrown = false) (hheard : (r.hearing k).heard = true)
    (hopen : (r.hearing k).closed = false) {d : ℕ} (hd : seconds 10 ≤ d) :
    ∃ ec t, Counts ec ∧ (system overflow readMessageMax).run r (silent k d ec) = some t ∧
      (t.hearing k).timeouts = (r.hearing k).timeouts + 1 := by
  have hk := hr.created hrunning hheard
  obtain ⟨w, ec, hcounts, hw, hadmits, hexp⟩ := (hr.vigilant hrunning).lapses hheard hopen hd
  obtain ⟨a, ha, hguards, harunning, hak⟩ := hr.ticks overflow readMessageMax hrunning hk d
  have hamonitor := Option.some.inj (step_ticked ha)
  have haexp : (a.monitor k).timer.expired = true := hamonitor ▸ hexp
  obtain ⟨b, hb, hbguards, hbrunning, hbk⟩ :=
    hguards.expires overflow readMessageMax harunning hak haexp
  have hbmonitor := (if_pos haexp).symm.trans (step_fired hb)
  have hfired := Option.some.inj hbmonitor
  have hbwaits : (b.monitor k).timer.waits[0]? = some w := by
    rw [← hfired, ← hamonitor]
    exact hw
  have hbexp : (b.monitor k).timer.expired = true := by
    rw [← hfired]
    exact haexp
  obtain ⟨t, ht⟩ := hbguards.completes overflow readMessageMax hbrunning hbk hbwaits hadmits
  refine ⟨ec, t, hcounts, ?_, ?_⟩
  · rw [silent, System.run_cons, ha, Option.bind_some, System.run_cons, hb, Option.bind_some,
      System.run_cons, ht]
    rfl
  · have hlapse := step_lapse hbguards.tended ht
    obtain ⟨_, _, hlapse⟩ := Option.bind_eq_some_iff.mp hlapse
    obtain ⟨_, hlapse⟩ := Option.ite_none_right_eq_some.mp hlapse
    change (t.monitor k).hearing.timeouts = _
    rw [← Option.some.inj hlapse, Monitor.lapse_timeouts hcounts hbexp, ← hfired, ← hamonitor]
    rfl

end Chat.Room

/-- In every run of the chat server, with any number of clients and in every order of the handlers:
each time a session has begun to close its connection, a ping had been out for ten seconds, and
behind it neither a message nor a pong had come from the client. -/
theorem Chat.closes_silent_only (overflow : ℤ → ℤ) (readMessageMax : ℕ) (es : List Room.Event)
    (k : ℕ) {r : Room}
    (hopen : (Room.system overflow readMessageMax).Along (Room.HearsOpen k) {} es)
    (hrun : (Room.system overflow readMessageMax).run {} es = some r) :
    ∀ v ∈ (r.hearing k).verdicts, ∃ out, v = some out ∧ seconds 10 ≤ out := by
  have hr : r.Waits k :=
    System.run_invariant (fun _ _ _ hs he ht => hs.step he ht) (Room.waits_initial k) hopen hrun
  exact hr.patient

/-- A client gives its name and is silent for ten seconds. -/
def Chat.pingedClient : List Room.Event :=
  Room.asked 0 ++ [Room.named 0 [97], Room.written 0] ++
    Room.silent 0 (seconds 10) .operationAborted

/-- It is silent for ten more. -/
def Chat.silentClient : List Room.Event := pingedClient ++ Room.silent 0 (seconds 10) .success

theorem Chat.closes_silent_only_client : ∃ r,
    (Room.system id 16777216).run {} silentClient = some r ∧
      (r.hearing 0).verdicts = [some (seconds 10)] ∧
      ∀ v ∈ (r.hearing 0).verdicts, ∃ out, v = some out ∧ seconds 10 ≤ out :=
  ⟨_, rfl, rfl, closes_silent_only id 16777216 silentClient 0 (by decide) rfl⟩

/-- In every run of the chat server in which the waits of a session do not fail: of a client that
has given a sign, a message or a pong, the session knows the timeouts since its last sign. It has
begun to close the connection behind that sign when there have been two, and not before. Until then,
whatever has happened, the next timeout comes once ten seconds have passed. -/
theorem Chat.closes_silent (overflow : ℤ → ℤ) (readMessageMax : ℕ) (es : List Room.Event) (k : ℕ)
    {r : Room} (hopen : (Room.system overflow readMessageMax).Along (Room.HearsOpen k) {} es)
    (hwaits : (Room.system overflow readMessageMax).Along
      (fun _ => Room.Completes Counts k) {} es)
    (hrun : (Room.system overflow readMessageMax).run {} es = some r)
    (hrunning : r.thrown = false) (hheard : (r.hearing k).heard = true) :
    ((r.hearing k).closed = true ↔ 2 ≤ (r.hearing k).timeouts) ∧
      ((r.hearing k).closed = false → ∀ d, seconds 10 ≤ d → ∃ ec t, Counts ec ∧
        (Room.system overflow readMessageMax).run r (Room.silent k d ec) = some t ∧
        (t.hearing k).timeouts = (r.hearing k).timeouts + 1) := by
  have hr : r.Guards k :=
    System.run_invariant (fun _ _ _ hs he ht => hs.step he.1 he.2 ht) (Room.guards_initial k)
      (hopen.and hwaits) hrun
  refine ⟨(hr.vigilant hrunning).closed, ?_⟩
  intro hnot d hd
  exact hr.times_out overflow readMessageMax hrunning hheard hnot hd

/-- The client is closed at the second timeout, and behind the first one the second can come. -/
theorem Chat.closes_silent_client :
    (∃ r, (Room.system id 16777216).run {} silentClient = some r ∧ (r.hearing 0).heard = true ∧
      (r.hearing 0).timeouts = 2 ∧
      ((r.hearing 0).closed = true ↔ 2 ≤ (r.hearing 0).timeouts)) ∧
    ∃ r, (Room.system id 16777216).run {} pingedClient = some r ∧ (r.hearing 0).closed = false ∧
      (r.hearing 0).timeouts = 1 ∧ ∃ ec t, Counts ec ∧
        (Room.system id 16777216).run r (Room.silent 0 (seconds 10) ec) = some t ∧
        (t.hearing 0).timeouts = 2 :=
  ⟨⟨_, rfl, rfl, rfl,
    (closes_silent id 16777216 silentClient 0 (by decide) (by decide) rfl rfl rfl).1⟩,
    _, rfl, rfl, rfl,
    (closes_silent id 16777216 pingedClient 0 (by decide) (by decide) rfl rfl rfl).2 rfl
      (seconds 10) (Nat.le_refl _)⟩

end BeastWebsocket
