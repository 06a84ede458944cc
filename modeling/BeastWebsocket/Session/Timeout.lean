import BeastWebsocket.Session.Gate

/-! # The default action of the timer

Every member that starts an operation is guarded by `accepted`; `on_timer` reaches the
connection directly, and launches the timer again after it has closed the connection. What
may go wrong before the accept, beside another close, and after the end is exactly that.
-/
namespace BeastWebsocket
open Transition

/-- Operations on the stream other than the handshake. -/
def Op.isTraffic : Op → Bool
  | .handshake _ => false
  | .wait => false
  | _ => true

/-- An operation other than the handshake stands after an accept that succeeded. -/
def OpensFirst (past : List Obs) (o : Obs) : Prop :=
  ∀ op, o = .started op → op.isTraffic = true → opened past = true

namespace Server

variable {cb : Callbacks} {s t : Server}

/-- `on_timer` takes its default action: the wait was not a failure, the deadline has passed
and no callback is set. -/
def TimesOut (s : Server) (ec : ErrorCode) : Prop :=
  (ec.failed = true → ec = .operationAborted) ∧ s.timer.expired = true ∧ s.onTimerCb = false

theorem timerStarts_of_timesOut {ec : ErrorCode} (h : s.TimesOut ec) :
    s.timerStarts ec = [.close .normal, .wait] := by
  obtain ⟨hec, hexp, hcb⟩ := h
  have hok : ¬ (ec.failed = true ∧ ec ≠ .operationAborted) := fun hf => hf.2 (hec hf.1)
  rw [timerStarts, if_neg hok, if_pos hexp, hcb]
  rfl

theorem mem_timerStarts {ec : ErrorCode} (h : ¬ s.TimesOut ec) {op : Op}
    (hop : op ∈ s.timerStarts ec) : op = .wait := by
  by_cases hok : ec.failed = true ∧ ec ≠ .operationAborted
  · rw [timerStarts, if_pos hok] at hop
    cases hop
  · have hec : ec.failed = true → ec = .operationAborted := by
      intro hf
      by_contra hne
      exact hok ⟨hf, hne⟩
    rw [timerStarts, if_neg hok] at hop
    by_cases hexp : s.timer.expired = true
    · rw [if_pos hexp] at hop
      by_cases hcb : s.onTimerCb = true
      · rw [if_pos hcb] at hop
        cases hop
      · exact absurd ⟨hec, hexp, by simpa using hcb⟩ h
    · rw [if_neg hexp] at hop
      exact List.mem_singleton.mp hop

/-! ## One closing handshake at a time -/

/-- The events that start a closing handshake. -/
def StartsClose (s : Server) : Event → Prop
  | .call (.doClose _) => s.accepted = true
  | .waitDone _ ec => s.TimesOut ec
  | _ => False

/-- No closing handshake is started while one is outstanding. -/
def OneCloser (s : Server) (e : Event) : Prop := s.StartsClose e → s.stream.closes = 0

theorem countP_starts_of_close {e : Event} (h : s.StartsClose e) :
    (s.starts cb e).countP Op.isClose = 1 := by
  cases e with
  | call c =>
    cases c with
    | doClose reason =>
      have hacc : s.accepted = true := h
      simp [starts, hacc]
    | _ => exact absurd h id
  | waitDone i ec =>
    rw [starts, timerStarts_of_timesOut h]
    rfl
  | _ => exact absurd h id

theorem countP_starts_of_not {e : Event} (h : ¬ s.StartsClose e) :
    (s.starts cb e).countP Op.isClose = 0 := by
  have hread : s.readStarts.countP Op.isClose = 0 := by
    rw [readStarts]
    split_ifs <;> rfl
  have hwrite : ∀ text, (s.writeStarts text).countP Op.isClose = 0 := by
    intro text
    rw [writeStarts]
    split_ifs <;> rfl
  cases e with
  | call c =>
    cases c with
    | doClose reason => simp [starts, show s.accepted = false by simpa [StartsClose] using h]
    | doRead => exact hread
    | doWrite => exact hwrite _
    | doAccept =>
      rw [starts]
      split_ifs <;> rfl
    | doPing payload =>
      rw [starts]
      split_ifs <;> rfl
    | doPong payload =>
      rw [starts]
      split_ifs <;> rfl
    | _ => rfl
  | waitDone i ec =>
    rw [List.countP_eq_zero]
    intro op hop
    rw [mem_timerStarts h hop]
    simp
  | writeDone i ec =>
    rw [starts]
    split_ifs
    · rfl
    · exact hread
  | resume =>
    rw [starts, flushStarts]
    split_ifs
    · exact hwrite _
    · exact hread
  | _ => rfl

theorem closes_step_iff {e : Event} (hs : s.stream.closes ≤ 1)
    (ht : (system cb).step s e = some t) : t.stream.closes ≤ 1 ↔ s.OneCloser e := by
  have hledger := (step_performs ht).ledger
  by_cases h : s.StartsClose e
  · have hclosed : e.closed = 0 := by
      cases e <;> first | rfl | exact absurd h id
    rw [countP_starts_of_close h, hclosed] at hledger
    simp only [OneCloser, h, true_imp_iff]
    omega
  · rw [countP_starts_of_not h] at hledger
    simp only [OneCloser, h, false_imp_iff, iff_true]
    omega

end Server

/-- No state of a run has two closing handshakes outstanding exactly when none of its steps
starts one beside another. -/
theorem one_close (cb : Callbacks) (es : List Server.Event) :
    (Server.system cb).Throughout (fun s => s.stream.closes ≤ 1) {} es ↔
      (Server.system cb).Along Server.OneCloser {} es := by
  apply System.throughout_iff_along (J := fun _ => True) (G := System.unguarded)
  · intro s e t _ _
    trivial
  · intro s e t _ _ hs ht
    exact Server.closes_step_iff hs ht
  · exact System.along_unguarded _ es
  · trivial
  · exact Nat.zero_le 1

/-- The peer does not answer the close frame that the first timeout sends. -/
def Server.unansweredClose : List Server.Event :=
  [.call .doAccept, .acceptDone .success, .resume, .call .launchTimer,
    .tick (seconds 10), .expire, .waitDone 0 .success,
    .tick (seconds 10), .expire, .waitDone 0 .success]

theorem two_closes_outstanding :
    ∃ s, (Server.system {}).run {} Server.unansweredClose = some s ∧ s.stream.closes = 2 :=
  ⟨_, rfl, rfl⟩

/-! ## A session whose connection is over -/

namespace Server
variable {cb : Callbacks} {s t : Server}

/-- The events other than calls of user code. -/
def NoCall (_ : Server) : Event → Prop
  | .call _ => False
  | _ => True

/-- The handler that runs starts nothing: a write that completes finds the session not
readable, a wait fails or calls the user's callback, and a handler that runs on after its
callback finds no output and the session not readable. -/
def Silent (s : Server) : Event → Prop
  | .writeDone _ ec => ec = .success → s.readable = false
  | .waitDone _ ec => ec.failed = true ∧ ec ≠ .operationAborted ∨
      s.timer.expired = true ∧ s.onTimerCb = true
  | .resume => s.outputBuffer = [] ∧ s.readable = false
  | _ => True

instance (s : Server) (e : Event) : Decidable (s.Silent e) :=
  match e with
  | .writeDone _ ec => inferInstanceAs (Decidable (ec = .success → s.readable = false))
  | .waitDone _ ec => inferInstanceAs (Decidable (ec.failed = true ∧ ec ≠ .operationAborted ∨
      s.timer.expired = true ∧ s.onTimerCb = true))
  | .resume => inferInstanceAs (Decidable (s.outputBuffer = [] ∧ s.readable = false))
  | .call _ | .acceptDone _ | .readDone _ _ _ | .pingDone _ | .pongDone _ | .closeDone _
  | .control _ _ | .tick _ | .expire => isTrue trivial

theorem timerStarts_eq_nil {ec : ErrorCode} :
    s.timerStarts ec = [] ↔ ec.failed = true ∧ ec ≠ .operationAborted ∨
      s.timer.expired = true ∧ s.onTimerCb = true := by
  rw [timerStarts]
  split_ifs with hok hexp hcb <;> simp_all

theorem starts_eq_nil {e : Event} (hs : s.Gated) (hcall : s.NoCall e)
    (ht : (system cb).step s e = some t) : s.starts cb e = [] ↔ s.Silent e := by
  cases e with
  | call c => exact absurd hcall id
  | writeDone i ec =>
    obtain ⟨w, hw, _⟩ := Option.bind_eq_some_iff.mp ht
    have hacc := hs.accepted_of_write hw
    by_cases hec : ec = .success <;> simp [starts, readStarts, Silent, hec, hacc]
  | waitDone i ec => exact timerStarts_eq_nil
  | resume =>
    have hacc := hs.accepted_of_resume ht
    simp only [starts, flushStarts, writeStarts, readStarts, Silent, hacc]
    by_cases hout : s.outputBuffer = [] <;> simp [hout, List.length_pos_iff]
  | _ => exact iff_of_true rfl trivial

theorem quiet_step_iff {e : Event} {ops : List Op} (hs : s.Gated) (hcall : s.NoCall e)
    (hops : startedOps s.log = ops) (ht : (system cb).step s e = some t) :
    startedOps t.log = ops ↔ s.Silent e := by
  obtain ⟨new, hlog, hnew, _⟩ := (step_performs ht).record
  rw [← starts_eq_nil hs hcall ht, ← hnew, hlog, startedOps, project_append, ← startedOps, hops]
  exact List.append_right_eq_self

end Server

/-- After the end of the connection, and while user code makes no call, the session starts
no operation exactly when each of its handlers is silent. -/
theorem quiet_after_end (cb : Callbacks) (es fs : List Server.Event) (s : Server)
    (hrun : (Server.system cb).run {} es = some s) (_ : ended s.log = true)
    (hcalls : (Server.system cb).Along Server.NoCall s fs) :
    (Server.system cb).Throughout (fun t => startedOps t.log = startedOps s.log) s fs ↔
      (Server.system cb).Along Server.Silent s fs := by
  apply System.throughout_iff_along (J := Server.Gated) (G := Server.NoCall)
  · intro u e v hu hv
    exact hu.step hv
  · intro u e v hu hcall hops hv
    exact Server.quiet_step_iff hu hcall hops hv
  · exact hcalls
  · exact Server.gated_run hrun
  · rfl

/-- The peer closes a session that has launched its timer and is writing. -/
def Server.closedWhileWriting : List Server.Event :=
  [.call .doAccept, .acceptDone .success, .resume, .call .launchTimer, .call (.append [65]),
    .call .doWrite, .readDone .closed [] true]

/-- Behind the end the write completes while the session is not readable, and the wait fails. -/
theorem quiet_after_end_write :
    ∃ s, (Server.system {}).run {} Server.closedWhileWriting = some s ∧ ended s.log = true ∧
      ∃ t, (Server.system {}).run s [.writeDone 0 .success, .waitDone 0 (.other 1)] = some t ∧
        (Server.system {}).Throughout (fun t => startedOps t.log = startedOps s.log) s
          [.writeDone 0 .success, .waitDone 0 (.other 1)] :=
  ⟨_, rfl, rfl, _, rfl, (quiet_after_end {} Server.closedWhileWriting
    [.writeDone 0 .success, .waitDone 0 (.other 1)] _ rfl rfl
    (by simp [System.Along, Server.NoCall])).mpr (by decide)⟩

/-- The peer closes a session that has launched its timer. -/
def Server.closedByPeer : List Server.Event :=
  [.call .doAccept, .acceptDone .success, .resume, .call .launchTimer, .readDone .closed [] true]

/-- The last deadline passes. -/
def Server.lastDeadline : List Server.Event := [.tick (seconds 10), .expire, .waitDone 0 .success]

theorem restarts_after_end :
    ∃ s t, (Server.system {}).run {} Server.closedByPeer = some s ∧ ended s.log = true ∧
      (Server.system {}).run s Server.lastDeadline = some t ∧
      startedOps t.log = startedOps s.log ++ [.close .normal, .wait] :=
  ⟨_, _, rfl, rfl, rfl, rfl⟩

/-! ## Nothing but the handshake before the accept -/

theorem mem_startedOps {op : Op} {log : List Obs} : op ∈ startedOps log ↔ .started op ∈ log := by
  constructor
  · intro h
    obtain ⟨o, ho, hop⟩ := List.mem_filterMap.mp h
    cases o with
    | started op' =>
      cases hop
      exact ho
    | _ => cases hop
  · intro h
    exact List.mem_filterMap.mpr ⟨.started op, h, rfl⟩

/-- Entries that start operations only where they complete no accept keep the order of the
record exactly when an accept has succeeded before each of these operations. -/
theorem opensFirst_append {log new : List Obs} (h : opened new = true → startedOps new = []) :
    EachAfter OpensFirst (log ++ new) ↔ EachAfter OpensFirst log ∧
      ∀ op ∈ startedOps new, op.isTraffic = true → opened log = true := by
  rw [EachAfter.append]
  apply and_congr_right
  intro _
  constructor
  · intro hnew op hop htraffic
    obtain ⟨past, future, hsplit⟩ := List.append_of_mem (mem_startedOps.mp hop)
    have hopen : opened (log ++ past) = true := hnew past _ future hsplit op rfl htraffic
    have hclosed : opened new = false := by
      by_contra hc
      rw [h (by simpa using hc)] at hop
      cases hop
    rw [hsplit] at hclosed
    simp_all
  · intro hlog past o future hsplit op ho htraffic
    have hop : op ∈ startedOps new := by
      rw [mem_startedOps, hsplit, ← ho]
      simp
    simp [hlog op hop htraffic]

namespace Server
variable {cb : Callbacks} {s t : Server}

/-- The timer takes its default action only after an accept that succeeded. -/
def TimesOutOpen (s : Server) : Event → Prop
  | .waitDone _ ec => s.TimesOut ec → s.accepted = true
  | _ => True

/-- All other events that start an operation on the stream are guarded. -/
theorem accepted_of_starts {e : Event} {op : Op} (he : s.TimesOutOpen e)
    (hop : op ∈ s.starts cb e) (htraffic : op.isTraffic = true) : s.accepted = true := by
  by_contra hacc
  have hread : s.readStarts = [] := by simp [readStarts, hacc]
  have hwrite : ∀ text, s.writeStarts text = [] := by simp [writeStarts, hacc]
  cases e with
  | call c =>
    cases c with
    | doWrite => simp [starts, hwrite] at hop
    | _ => simp_all [starts, Op.isTraffic]
  | writeDone i ec => simp [starts, hread] at hop
  | waitDone i ec =>
    have hno : ¬ s.TimesOut ec := fun h => hacc (he h)
    rw [mem_timerStarts hno hop] at htraffic
    cases htraffic
  | resume => simp [starts, flushStarts, hread, hwrite] at hop
  | _ => simp [starts] at hop

theorem traffic_step_iff {e : Event} (hs : s.accepted = opened s.log)
    (hlog : EachAfter OpensFirst s.log) (ht : (system cb).step s e = some t) :
    EachAfter OpensFirst t.log ↔ s.TimesOutOpen e := by
  obtain ⟨new, hnew, hops, hopens⟩ := (step_performs ht).record
  have hfirst : opened new = true → startedOps new = [] := by
    rw [hopens, hops]
    cases e <;> simp [Event.opens, starts]
  rw [hnew, opensFirst_append hfirst, hops, ← hs]
  constructor
  · rintro ⟨_, h⟩
    cases e with
    | waitDone i ec =>
      intro htime
      exact h (.close .normal) (by simp [starts, timerStarts_of_timesOut htime]) rfl
    | _ => trivial
  · intro he
    exact ⟨hlog, fun op hop htraffic => accepted_of_starts he hop htraffic⟩

end Server

/-- Each read, write, ping, pong and close of a run is started after an accept that
succeeded exactly when the timer takes its default action only then. -/
theorem traffic_after_accept (cb : Callbacks) (es : List Server.Event) :
    (Server.system cb).Throughout (fun s => EachAfter OpensFirst s.log) {} es ↔
      (Server.system cb).Along Server.TimesOutOpen {} es := by
  apply System.throughout_iff_along (J := fun s => s.accepted = opened s.log)
    (G := System.unguarded)
  · intro s e t hs ht
    exact Server.step_opened hs ht
  · intro s e t hs _ hlog ht
    exact Server.traffic_step_iff hs hlog ht
  · exact System.along_unguarded _ es
  · rfl
  · exact EachAfter.nil

/-- The timer is launched while the accept is pending, and expires first. -/
def Server.slowAccept : List Server.Event :=
  [.call .doAccept, .call .launchTimer, .tick (seconds 10), .expire, .waitDone 0 .success]

theorem close_before_accept :
    ∃ s, (Server.system {}).run {} Server.slowAccept = some s ∧ opened s.log = false ∧
      s.stream.closes = 1 ∧ ¬ EachAfter OpensFirst s.log := by
  refine ⟨_, rfl, rfl, rfl, ?_⟩
  intro h
  have hopen := h
    [.started (.handshake true), .started .wait, .ticked (seconds 10), .finished .wait .success,
      .timeout] (.started (.close .normal)) [.started .wait] rfl (.close .normal) rfl rfl
  cases hopen

end BeastWebsocket
