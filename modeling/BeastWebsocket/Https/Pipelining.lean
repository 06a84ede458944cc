import BeastWebsocket.Https.Opening
import BeastWebsocket.Https.Reading

/-! # Reads on a pipelined connection

With at most one response for each request, posted while the request is processed, the queue
never holds more than its limit and reading goes on exactly while there is room in it. With more
responses, or later ones, a write that completes while the queue is full starts a read whether
or not one is outstanding, and this is the only way to a second read.
-/
namespace BeastWebsocket.Https
open Channel Transition

namespace Server
variable {μ η ρ : Type}

/-- `do_handshake` is called once, and `do_read` not at all. -/
def LeavesReading (s : Server μ η ρ) : Event μ ρ → Prop
  | .call .doHandshake => handshaken s.log = false
  | .call .doRead => False
  | _ => True

/-- In addition `do_write` is called at most once for each request, by one of its handlers. -/
def AnswersOnce (s : Server μ η ρ) : Event μ ρ → Prop
  | .call .doHandshake => handshaken s.log = false
  | .call .doRead => False
  | .call (.doWrite _) => s.running ≠ none ∧ replies s.log = 0
  | _ => True

/-- A write takes its response out of the full queue only while no read is outstanding. -/
def DrainsAlone (s : Server μ η ρ) : Event μ ρ → Prop
  | .writeDone i .success =>
      ∀ msg ∈ s.writes[i]?, msg.needEof = false → queueLimit ≤ s.items.length → s.reads = 0
  | _ => True

instance (s : Server μ η ρ) (e : Event μ ρ) : Decidable (s.LeavesReading e) :=
  match e with
  | .call .doHandshake => inferInstanceAs (Decidable (handshaken s.log = false))
  | .call .doRead => isFalse id
  | .call (.doWrite _) | .call .doClose | .handshakeDone _ _ | .readDone _ _ _
  | .writeDone _ _ | .shutdownDone _ | .resume => isTrue trivial

instance (s : Server μ η ρ) (e : Event μ ρ) : Decidable (s.AnswersOnce e) :=
  match e with
  | .call .doHandshake => inferInstanceAs (Decidable (handshaken s.log = false))
  | .call .doRead => isFalse id
  | .call (.doWrite _) => inferInstanceAs (Decidable (s.running ≠ none ∧ replies s.log = 0))
  | .call .doClose | .handshakeDone _ _ | .readDone _ _ _ | .writeDone _ _
  | .shutdownDone _ | .resume => isTrue trivial

instance (s : Server μ η ρ) (e : Event μ ρ) : Decidable (s.DrainsAlone e) :=
  match e with
  | .writeDone i .success => inferInstanceAs (Decidable
      (∀ msg ∈ s.writes[i]?, msg.needEof = false → queueLimit ≤ s.items.length → s.reads = 0))
  | .writeDone _ .endOfStream | .writeDone _ .eof | .writeDone _ (.other _)
  | .call _ | .handshakeDone _ _ | .readDone _ _ _ | .shutdownDone _ | .resume => isTrue trivial

/-! ## The conditions are those of the window -/

variable [DecidableEq μ] {regexMatch : Bytes → Bytes → Bool} {router : Router μ η}

/-- The steps of the window that a call of user code stands for. -/
def called : Window.Op → Prop
  | .dial => True
  | .read => True
  | .post => True
  | _ => False

theorem windowOp_called {s : Server μ η ρ} {e : Event μ ρ} {o : Window.Op}
    (ho : o ∈ s.windowOp regexMatch router e) (h : called o) :
    e = .call .doHandshake ∧ o = .dial ∨ e = .call .doRead ∧ o = .read ∨
      ∃ msg, e = .call (.doWrite msg) ∧ s.handshake = true ∧ o = .post := by
  cases e with
  | call c =>
    cases c with
    | doHandshake =>
      rw [windowOp] at ho
      split_ifs at ho
      · cases ho
      · cases ho
        exact .inl ⟨rfl, rfl⟩
    | doRead =>
      cases ho
      exact .inr (.inl ⟨rfl, rfl⟩)
    | doWrite msg =>
      rw [windowOp] at ho
      split_ifs at ho with hopen
      · cases ho
        exact .inr (.inr ⟨msg, rfl, hopen, rfl⟩)
      · cases ho
    | doClose => cases ho
  | handshakeDone ec bytesUsed =>
    cases ho
    split_ifs at h <;> exact absurd h id
  | readDone ec req rest =>
    cases ho
    split_ifs at h <;> exact absurd h id
  | writeDone i ec =>
    obtain ⟨msg, _, ho⟩ := Option.bind_eq_some_iff.mp ho
    split_ifs at ho
    cases ho
    exact absurd h id
  | shutdownDone ec => cases ho
  | resume =>
    rw [windowOp] at ho
    split at ho <;> cases ho
    exact absurd h id

theorem LeavesReading.unaided {s : Server μ η ρ} {e : Event μ ρ} (h : s.LeavesReading e) :
    ∀ o ∈ s.windowOp regexMatch router e, s.window.Unaided o := by
  intro o ho
  by_cases hcalled : called o
  · rcases windowOp_called ho hcalled with ⟨rfl, rfl⟩ | ⟨rfl, rfl⟩ | ⟨msg, rfl, _, rfl⟩
    · exact h
    · exact h
    · trivial
  · cases o with
    | dial => exact absurd trivial hcalled
    | read => exact absurd trivial hcalled
    | _ => trivial

theorem AnswersOnce.window {s : Server μ η ρ} {e : Event μ ρ} (h : s.AnswersOnce e) :
    ∀ o ∈ s.windowOp regexMatch router e, s.window.AnswersOnce o := by
  intro o ho
  by_cases hcalled : called o
  · rcases windowOp_called ho hcalled with ⟨rfl, rfl⟩ | ⟨rfl, rfl⟩ | ⟨msg, rfl, hopen, rfl⟩
    · exact h
    · exact h
    · exact ⟨hopen, Option.isSome_iff_ne_none.mpr h.1, h.2⟩
  · cases o with
    | dial => exact absurd trivial hcalled
    | read => exact absurd trivial hcalled
    | post => exact absurd trivial hcalled
    | _ => trivial

/-- Only a write that completes takes a response out of the queue. -/
theorem drainsAlone_other {s : Server μ η ρ} {e : Event μ ρ} (hwrite : ∀ i ec, e ≠ .writeDone i ec)
    {o : Window.Op} (ho : o ∈ s.windowOp regexMatch router e) :
    s.window.DrainsAlone queueLimit o := by
  cases e with
  | writeDone i ec => exact absurd rfl (hwrite i ec)
  | call c =>
    cases c with
    | doHandshake =>
      rw [windowOp] at ho
      split_ifs at ho
      · cases ho
      · cases ho
        trivial
    | doRead =>
      cases ho
      trivial
    | doWrite msg =>
      rw [windowOp] at ho
      split_ifs at ho
      · cases ho
        trivial
      · cases ho
    | doClose => cases ho
  | handshakeDone ec bytesUsed =>
    cases ho
    split_ifs <;> trivial
  | readDone ec req rest =>
    cases ho
    split_ifs <;> trivial
  | shutdownDone ec => cases ho
  | resume =>
    rw [windowOp] at ho
    split at ho
    · cases ho
      trivial
    · cases ho

theorem drainsAlone_iff (s : Server μ η ρ) (e : Event μ ρ) :
    (∀ o ∈ s.windowOp regexMatch router e, s.window.DrainsAlone queueLimit o) ↔
      s.DrainsAlone e := by
  cases e with
  | writeDone i ec =>
    cases hw : s.writes[i]? with
    | none => cases ec <;> simp [windowOp, DrainsAlone, hw]
    | some msg =>
      cases ec with
      | success =>
        cases hitems : s.items with
        | nil => simp [windowOp, DrainsAlone, hw, hitems, ErrorCode.failed, queueLimit]
        | cons front rest =>
          cases heof : msg.needEof <;>
            simp [windowOp, DrainsAlone, Window.DrainsAlone, window, hw, hitems, heof,
              ErrorCode.failed]
      | _ => simp [windowOp, DrainsAlone, hw, ErrorCode.failed]
  | _ =>
    apply iff_of_true _ trivial
    intro o ho
    exact drainsAlone_other (by simp) ho

/-- A run whose requests are answered at most once keeps its window steady until a read fails. -/
theorem steady_run {es : List (Event μ ρ)} {s : Server μ η ρ}
    (hcalls : (system regexMatch router).Along AnswersOnce {} es)
    (hrun : (system regexMatch router).run {} es = some s) :
    readBroken s.log = true ∨ s.window.Steady queueLimit := by
  have hlimit : 0 < queueLimit := by decide
  refine System.run_invariant
    (I := fun u => u.window.lost = true ∨ u.window.Steady queueLimit) ?_ ?_ hcalls hrun
  · intro u e v hu hg hv
    exact refines_window.step_invariant (Window.Steady.step hlimit) hu hg.window hv
  · exact .inr Window.steady_initial

end Server

/-- Where `do_handshake` is called once and `do_read` is left to the session, at most one read is
outstanding in every state of a run if and only if in all its steps a write takes its response
out of the full queue only while no read is outstanding. -/
theorem single_read_iff {μ η ρ : Type} [DecidableEq μ] (regexMatch : Bytes → Bytes → Bool)
    (router : Router μ η) (es : List (Server.Event μ ρ))
    (hcalls : (Server.system regexMatch router).Along Server.LeavesReading {} es) :
    (Server.system regexMatch router).Throughout (fun s => s.reads ≤ 1) {} es ↔
      (Server.system regexMatch router).Along Server.DrainsAlone {} es := by
  have hiff := Server.refines_window.throughout_iff_along_kept (K := fun x => x.reads ≤ 1)
    (fun x o y hx hg hk _ hy => Window.Settled.step x o y hx hg hk hy) Window.Settled.reads_iff
    (hcalls.mono fun s e h => h.unaided) Window.settled_initial (Nat.zero_le 1)
  rw [System.along_congr Server.drainsAlone_iff] at hiff
  exact hiff

/-- Eight requests, each answered by its handler, and no write completes. -/
def eightAnswered : List (Server.Event Unit ℕ) :=
  [.call .doHandshake, .handshakeDone .success 0] ++
    (List.replicate 8 [.readDone .success ⟨(), []⟩ [], .call (.doWrite ⟨0, false⟩),
      .resume]).flatten

/-- A response leaves the full queue while no read is outstanding, and a read is started. -/
theorem single_read_full :
    ∃ s, (Server.system (fun _ _ => true) oneHandler).run {}
        (eightAnswered ++ [.writeDone 0 .success]) = some s ∧ s.reads = 1 ∧
      (Server.system (fun _ _ => true) oneHandler).Throughout (fun s => s.reads ≤ 1) {}
        (eightAnswered ++ [.writeDone 0 .success]) := by
  have hcalls : (Server.system (fun _ _ => true) oneHandler).Along Server.LeavesReading {}
      (eightAnswered ++ [.writeDone 0 .success]) := by decide
  refine ⟨_, rfl, rfl, (single_read_iff _ _ _ hcalls).mpr ?_⟩
  decide

/-- A request is received and its handler returns; eight responses are posted later. -/
def lateResponses : List (Server.Event Unit ℕ) :=
  [.call .doHandshake, .handshakeDone .success 0, .readDone .success ⟨(), []⟩ [], .resume] ++
    List.replicate 8 (.call (.doWrite ⟨0, false⟩))

/-- A write that completes while eight responses are queued starts a second read. -/
theorem two_reads_outstanding :
    (Server.system (fun _ _ => true) oneHandler).Along Server.LeavesReading {}
        (lateResponses ++ [.writeDone 0 .success]) ∧
      ∃ s, (Server.system (fun _ _ => true) oneHandler).run {}
        (lateResponses ++ [.writeDone 0 .success]) = some s ∧ s.reads = 2 :=
  ⟨by decide, _, rfl, rfl⟩

/-- Where each request is answered at most once, while it is processed, and reads are left to the
session: after the handshake and before a read fails, between two handlers, at most eight
responses are queued and a read is outstanding exactly if there are fewer. -/
theorem reads_while_room {μ η ρ : Type} [DecidableEq μ] (regexMatch : Bytes → Bytes → Bool)
    (router : Router μ η) (es : List (Server.Event μ ρ)) (s : Server μ η ρ)
    (hcalls : (Server.system regexMatch router).Along Server.AnswersOnce {} es)
    (hrun : (Server.system regexMatch router).run {} es = some s) (hidle : s.running = none)
    (hopen : opened s.log = true) (hread : readBroken s.log = false) :
    s.items.length ≤ 8 ∧ s.reads = if s.items.length < 8 then 1 else 0 := by
  rcases Server.steady_run hcalls hrun with hlost | hsteady
  · rw [hread] at hlost
    cases hlost
  · have hflag : s.window.isOpen = true := (Server.handshake_eq_opened hrun).trans hopen
    have hserving : s.window.serving = false := congrArg Option.isSome hidle
    exact ⟨hsteady.bound, hsteady.idle hflag hserving⟩

theorem reads_while_room_full :
    ∃ s, (Server.system (fun _ _ => true) oneHandler).run {} eightAnswered = some s ∧
      s.items.length = 8 ∧ s.items.length ≤ 8 ∧ s.reads = if s.items.length < 8 then 1 else 0 := by
  have hcalls : (Server.system (fun _ _ => true) oneHandler).Along Server.AnswersOnce {}
      eightAnswered := by decide
  obtain ⟨s, hrun, hidle, hopen, hread, hfull⟩ : ∃ s,
      (Server.system (fun _ _ => true) oneHandler).run {} eightAnswered = some s ∧
        s.running = none ∧ opened s.log = true ∧ readBroken s.log = false ∧
        s.items.length = 8 := ⟨_, rfl, rfl, rfl, rfl, rfl⟩
  exact ⟨s, hrun, hfull, reads_while_room _ _ eightAnswered s hcalls hrun hidle hopen hread⟩

end BeastWebsocket.Https
