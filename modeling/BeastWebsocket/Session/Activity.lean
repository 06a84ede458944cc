import BeastWebsocket.Session.Deadline
import BeastWebsocket.Session.Effect

/-! # A timeout behind the last operation

`do_accept`, `do_read`, `do_ping`, `do_pong` and `do_close` set a deadline ten seconds ahead when
they start their operation. `do_write` does not, so a session may time out while it writes.
-/
namespace BeastWebsocket
open Transition

def Op.isWrite : Op → Bool
  | .write _ _ => true
  | _ => false

def Op.isWait : Op → Bool
  | .wait => true
  | _ => false

/-- An operation and the time at which it is started. -/
abbrev Stamp := ℕ × Op

/-- What a step of the watch does to the clock and to the deadline. -/
theorem Watch.step_clock {d : ℕ} {x y : Watch} {o : Watch.Op}
    (h : (Watch.system d).step x o = some y) :
    x.timer.now ≤ y.timer.now ∧
      (y.timer.expiry = x.timer.expiry ∨ y.timer.expiry = some (x.timer.now + d)) := by
  cases o with
  | move =>
    cases h
    exact ⟨Nat.le_refl _, .inr rfl⟩
  | launch =>
    cases h
    exact ⟨Nat.le_refl _, .inl rfl⟩
  | lapse i ec callback =>
    obtain ⟨w, _, h⟩ := Option.bind_eq_some_iff.mp h
    obtain ⟨_, h⟩ := Option.ite_none_right_eq_some.mp h
    cases h
    simp only [Watch.lapse, Timer.handle]
    split_ifs
    · exact ⟨Nat.le_refl _, .inl rfl⟩
    · exact ⟨Nat.le_refl _, .inr rfl⟩
    · exact ⟨Nat.le_refl _, .inl rfl⟩
    · exact ⟨Nat.le_refl _, .inl rfl⟩
  | tick k =>
    cases h
    exact ⟨Nat.le_add_right _ k, .inl rfl⟩
  | fire =>
    obtain ⟨_, h⟩ := Option.ite_none_right_eq_some.mp h
    cases h
    exact ⟨Nat.le_refl _, .inl rfl⟩

namespace Server
variable {cb : Callbacks} {s t : Server} {p q : Server × List Stamp}

/-- The operations that the event starts on the stream other than by `on_timer`. -/
def begun (cb : Callbacks) (s : Server) : Event → List Op
  | .waitDone _ _ => []
  | e => (s.starts cb e).filter fun op => !op.isWait

/-- The same with the time. -/
def stamps (cb : Callbacks) (s : Server) (e : Event) : List Stamp :=
  (s.begun cb e).map fun op => (s.timer.now, op)

/-- The session, and when its run has started which operation. -/
def clocked (cb : Callbacks) : System (Server × List Stamp) Event :=
  (system cb).traced (stamps cb)

/-- The timeout action finds no operation that was started less than ten seconds ago. -/
def ActsIdle (p : Server × List Stamp) : Event → Prop
  | .waitDone _ ec =>
      Counts ec → p.1.timer.expired = true → ∀ a ∈ p.2, a.1 + seconds 10 ≤ p.1.timer.now
  | _ => True

instance (p : Server × List Stamp) (e : Event) : Decidable (ActsIdle p e) :=
  match e with
  | .waitDone _ ec => inferInstanceAs (Decidable (Counts ec → _ → ∀ a ∈ p.2, _))
  | .call _ | .acceptDone _ | .readDone _ _ _ | .writeDone _ _ | .pingDone _ | .pongDone _
  | .closeDone _ | .control _ _ | .resume | .tick _ | .expire => isTrue trivial

/-- The timeout action finds no write that was started after the deadline was last set, and
less than ten seconds ago. -/
def WritesOver (p : Server × List Stamp) : Event → Prop
  | .waitDone _ ec =>
      Counts ec → ∀ n ∈ p.1.timer.expiry, n ≤ p.1.timer.now → ∀ a ∈ p.2, a.2.isWrite = true →
        n < a.1 + seconds 10 → a.1 + seconds 10 ≤ p.1.timer.now
  | _ => True

/-- A write is started at an instant at which the deadline is set. -/
def WritesAtDeadline (cb : Callbacks) (p : Server × List Stamp) (e : Event) : Prop :=
  ∀ op ∈ p.1.begun cb e, op.isWrite = true → p.1.timer.expiry = some (p.1.timer.now + seconds 10)

theorem perform_watch {e : Event} (ht : (system cb).step s e = some t) :
    (Watch.system (seconds 10)).perform (watch (s, [])) (timerOp (s, []) e) =
      some (watch (t, [] ++ s.acted e)) :=
  refines_watch (s, []) e (t, [] ++ s.acted e) (System.traced_step.mpr ⟨ht, rfl⟩)

theorem step_clock {e : Event} (ht : (system cb).step s e = some t) :
    s.timer.now ≤ t.timer.now ∧
      (t.timer.expiry = s.timer.expiry ∨
        t.timer.expiry = some (s.timer.now + seconds 10)) := by
  have hwatch := perform_watch ht
  cases hop : timerOp (s, []) e with
  | none =>
    rw [hop] at hwatch
    have hsame : s.timer = t.timer := congrArg Watch.timer (Option.some.inj hwatch)
    rw [hsame]
    exact ⟨Nat.le_refl _, .inl rfl⟩
  | some o =>
    rw [hop] at hwatch
    exact Watch.step_clock hwatch

theorem mem_begun {e : Event} {op : Op} (h : op ∈ s.begun cb e) :
    op ∈ s.starts cb e ∧ op.isWait = false := by
  cases e with
  | waitDone i ec => cases h
  | _ =>
    obtain ⟨hstarts, hop⟩ := List.mem_filter.mp h
    exact ⟨hstarts, by simpa using hop⟩

theorem mem_readStarts {op : Op} (h : op ∈ s.readStarts) : s.mayRead = true := by
  rw [readStarts] at h
  rw [mayRead]
  split_ifs at h with hmay
  · exact hmay
  · cases h

theorem mem_writeStarts {op : Op} {text : Bool} (h : op ∈ s.writeStarts text) :
    op.isWrite = true := by
  rw [writeStarts] at h
  split_ifs at h
  · rw [List.mem_singleton.mp h]
    rfl
  · cases h

/-- All operations but a write move the deadline. -/
theorem timerOp_of_begun {e : Event} {op : Op} (h : op ∈ s.begun cb e)
    (hwrite : op.isWrite = false) (l : List ℕ) : timerOp (s, l) e = some .move := by
  obtain ⟨hstarts, hwait⟩ := mem_begun h
  cases e with
  | call c =>
    cases c with
    | doAccept =>
      simp only [starts] at hstarts
      split_ifs at hstarts with hacc
      · cases hstarts
      · exact if_neg hacc
    | doPing payload | doPong payload | doClose reason =>
      simp only [starts] at hstarts
      split_ifs at hstarts with hacc
      · exact if_pos hacc
      · cases hstarts
    | launchTimer | launchTimerWith target =>
      rw [List.mem_singleton.mp hstarts] at hwait
      cases hwait
    | doRead => exact if_pos (mem_readStarts hstarts)
    | doWrite =>
      rw [mem_writeStarts hstarts] at hwrite
      cases hwrite
    | _ => cases hstarts
  | writeDone i ec =>
    simp only [starts] at hstarts
    split_ifs at hstarts with hec
    · cases hstarts
    · simp [timerOp, hec, mem_readStarts hstarts]
  | resume =>
    simp only [starts, flushStarts] at hstarts
    split_ifs at hstarts with hout
    · rw [mem_writeStarts hstarts] at hwrite
      cases hwrite
    · have hempty : s.outputBuffer = [] := by simpa [List.length_pos_iff] using hout
      simp [timerOp, hempty, mem_readStarts hstarts]
  | waitDone i ec => cases h
  | _ => cases hstarts

theorem expiry_of_begun {e : Event} {op : Op} (h : op ∈ s.begun cb e)
    (hwrite : op.isWrite = false) (ht : (system cb).step s e = some t) :
    t.timer.expiry = some (s.timer.now + seconds 10) := by
  have hwatch := perform_watch ht
  rw [timerOp_of_begun h hwrite []] at hwatch
  have htimer := congrArg Watch.timer (Option.some.inj hwatch)
  rw [← show s.timer.expiresAfter (seconds 10) = t.timer from htimer]
  rfl

/-- The operations of a kind are covered by the deadline. -/
structure Covered (kind : Op → Bool) (p : Server × List Stamp) : Prop where
  past : ∀ a ∈ p.2, a.1 ≤ p.1.timer.now
  covered : ∀ a ∈ p.2, kind a.2 = true → ∃ n, p.1.timer.expiry = some n ∧ a.1 + seconds 10 ≤ n

theorem covered_initial (kind : Op → Bool) : Covered kind ({}, []) where
  past := by simp
  covered := by simp

theorem mem_stamps {e : Event} {a : Stamp} (h : a ∈ s.stamps cb e) :
    a.1 = s.timer.now ∧ a.2 ∈ s.begun cb e := by
  obtain ⟨op, hop, rfl⟩ := List.mem_map.mp h
  exact ⟨rfl, hop⟩

/-- An operation that was covered stays so: the deadline is only ever set ahead. -/
theorem covered_kept {a : Stamp} {e : Event} (hpast : a.1 ≤ s.timer.now)
    (h : ∃ n, s.timer.expiry = some n ∧ a.1 + seconds 10 ≤ n)
    (ht : (system cb).step s e = some t) :
    ∃ n, t.timer.expiry = some n ∧ a.1 + seconds 10 ≤ n := by
  obtain ⟨n, hn, hle⟩ := h
  rcases (step_clock ht).2 with hsame | hset
  · exact ⟨n, hsame.trans hn, hle⟩
  · exact ⟨_, hset, by omega⟩

theorem Covered.step {kind : Op → Bool} {e : Event} (hp : Covered kind p)
    (hbegun : ∀ op ∈ p.1.begun cb e, kind op = true →
      q.1.timer.expiry = some (p.1.timer.now + seconds 10))
    (h : (clocked cb).step p e = some q) : Covered kind q := by
  obtain ⟨ht, hlist⟩ := System.traced_step.mp h
  have hclock := (step_clock ht).1
  constructor
  · intro a ha
    rw [hlist, List.mem_append] at ha
    rcases ha with hold | hnew
    · exact Nat.le_trans (hp.past a hold) hclock
    · rw [(mem_stamps hnew).1]
      exact hclock
  · intro a ha hkind
    rw [hlist, List.mem_append] at ha
    rcases ha with hold | hnew
    · exact covered_kept (hp.past a hold) (hp.covered a hold hkind) ht
    · obtain ⟨hnow, hop⟩ := mem_stamps hnew
      have hmade : a.1 + seconds 10 = p.1.timer.now + seconds 10 := by rw [hnow]
      exact ⟨_, hbegun a.2 hop hkind, Nat.le_of_eq hmade⟩

/-- All operations but the writes are covered in every run. -/
theorem Covered.step_others {e : Event} (hp : Covered (fun op => !op.isWrite) p)
    (h : (clocked cb).step p e = some q) : Covered (fun op => !op.isWrite) q := by
  apply hp.step _ h
  intro op hop hkind
  exact expiry_of_begun hop (by simpa using hkind) (System.traced_step.mp h).1

/-- The writes are covered as well where the deadline is set when they are started. -/
theorem Covered.step_all {e : Event} (hp : Covered (fun _ => true) p)
    (hwrites : WritesAtDeadline cb p e) (h : (clocked cb).step p e = some q) :
    Covered (fun _ => true) q := by
  apply hp.step _ h
  intro op hop _
  have ht := (System.traced_step.mp h).1
  cases hwrite : op.isWrite with
  | false => exact expiry_of_begun hop hwrite ht
  | true =>
    rcases (step_clock ht).2 with hsame | hset
    · rw [hsame]
      exact hwrites op hop hwrite
    · exact hset

/-- What is covered by a deadline that has passed is over. -/
theorem Covered.over {kind : Op → Bool} (hp : Covered kind p) {n : ℕ}
    (hn : p.1.timer.expiry = some n) (hle : n ≤ p.1.timer.now) {a : Stamp} (ha : a ∈ p.2)
    (hkind : kind a.2 = true) : a.1 + seconds 10 ≤ p.1.timer.now := by
  obtain ⟨m, hm, hcovered⟩ := hp.covered a ha hkind
  rw [hn, Option.some.injEq] at hm
  omega

theorem Covered.actsIdle_iff (hp : Covered (fun op => !op.isWrite) p) (e : Event) :
    ActsIdle p e ↔ WritesOver p e := by
  cases e with
  | waitDone i ec =>
    constructor
    · intro h hcounts n hn hexp a ha _ _
      exact h hcounts (Watch.expired_iff.mpr ⟨n, hn, hexp⟩) a ha
    · intro h hcounts hexp a ha
      obtain ⟨n, hn, hle⟩ := Watch.expired_iff.mp hexp
      by_cases hlate : n < a.1 + seconds 10
      · cases hwrite : a.2.isWrite with
        | true => exact h hcounts n hn hle a ha hwrite hlate
        | false => exact hp.over hn hle ha (by simp [hwrite])
      · omega
  | _ => exact iff_of_true trivial trivial

theorem Covered.actsIdle (hp : Covered (fun _ => true) p) (e : Event) : ActsIdle p e := by
  cases e with
  | waitDone i ec =>
    intro _ hexp a ha
    obtain ⟨n, hn, hle⟩ := Watch.expired_iff.mp hexp
    exact hp.over hn hle ha rfl
  | _ => trivial

end Server

/-- In a run of the session the timeout action finds no operation that was started less than ten
seconds ago, exactly when it finds no such write behind the last setting of the deadline. It is
enough that each write is started at an instant at which the deadline is set. -/
theorem idle_timeout_iff (cb : Callbacks) (es : List Server.Event) :
    ((Server.clocked cb).Along Server.ActsIdle ({}, []) es ↔
      (Server.clocked cb).Along Server.WritesOver ({}, []) es) ∧
    ((Server.clocked cb).Along (Server.WritesAtDeadline cb) ({}, []) es →
      (Server.clocked cb).Along Server.ActsIdle ({}, []) es) := by
  constructor
  · apply System.along_congr_of_invariant (I := Server.Covered fun op => !op.isWrite)
    · intro p e q hp h
      exact hp.step_others h
    · intro p e q hp _
      exact hp.actsIdle_iff e
    · exact Server.covered_initial _
  · intro hwrites
    apply hwrites.of_invariant (I := Server.Covered fun _ => true)
    · intro p e q hp hw h
      exact hp.step_all hw h
    · intro p e q hp _ _
      exact hp.actsIdle e
    · exact Server.covered_initial _

/-- A message that arrives after nine seconds is answered; a second later the session times
out. -/
def Server.lateReply : List Server.Event :=
  [.call .doAccept, .acceptDone .success, .resume, .call .launchTimer, .tick (seconds 9),
    .readDone .success [104] true, .call (.append [105]), .resume, .tick (seconds 1), .expire]

theorem closed_while_writing :
    ∃ s t, (Server.clocked {}).run ({}, []) Server.lateReply =
        some (s, [(0, .handshake true), (0, .read), (seconds 9, .write [105] true)]) ∧
      s.timer.now = seconds 10 ∧ s.stream.writes.length = 1 ∧
      (Server.system {}).step s (.waitDone 0 .success) = some t ∧ t.stream.closes = 1 ∧
      ¬ (Server.clocked {}).Along Server.ActsIdle ({}, [])
        (Server.lateReply ++ [.waitDone 0 .success]) :=
  ⟨_, _, rfl, rfl, rfl, rfl, rfl, by decide⟩

end BeastWebsocket
