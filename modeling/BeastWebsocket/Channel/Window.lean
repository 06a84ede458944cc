import BeastWebsocket.Transition.System
import Mathlib.Data.Nat.Notation
import Mathlib.Tactic.SplitIfs

/-! # A window of unanswered requests

Once a connection is open, requests are read from it and served one at a time, and replies are
queued. The next read is started when a request has been served, unless `limit` replies are
queued; then it is started when a reply leaves the full queue. Nothing records that a read is
outstanding.
-/
namespace Channel
open Transition

/-- `replies` counts the replies posted since the last request arrived, and `lost` tells that a
read has failed. -/
structure Window where
  dialled : Bool := false
  opening : ℕ := 0
  isOpen : Bool := false
  reads : ℕ := 0
  lost : Bool := false
  serving : Bool := false
  queued : ℕ := 0
  replies : ℕ := 0

inductive Window.Op where
  | dial
  | opened
  | refused
  | read
  | arrive (served : Bool)
  | broken
  | finish
  | post
  | drain

namespace Window

/-- A read is only started on an open connection. -/
def ask (x : Window) : Window := { x with reads := x.reads + x.isOpen.toNat }

/-- The request is served: the next one is read unless the queue is full. -/
def serve (limit : ℕ) (x : Window) : Window :=
  if limit ≤ x.queued then { x with serving := false } else { x with serving := false }.ask

def step (limit : ℕ) (x : Window) : Op → Option Window
  | .dial =>
      if x.isOpen then none else some { x with dialled := true, opening := x.opening + 1 }
  | .opened =>
      if 0 < x.opening ∧ x.serving = false then
        some { x with opening := x.opening - 1, isOpen := true }.ask
      else none
  | .refused =>
      if 0 < x.opening ∧ x.serving = false then some { x with opening := x.opening - 1 } else none
  | .read => some x.ask
  | .arrive served =>
      if 0 < x.reads ∧ x.serving = false then
        let y := { x with reads := x.reads - 1, replies := 0, serving := true }
        some (if served then y.serve limit else y)
      else none
  | .broken =>
      if 0 < x.reads ∧ x.serving = false then some { x with reads := x.reads - 1, lost := true }
      else none
  | .finish => if x.serving then some (x.serve limit) else none
  | .post => some { x with queued := x.queued + 1, replies := x.replies + 1 }
  | .drain =>
      if 0 < x.queued ∧ x.serving = false then
        let y := { x with queued := x.queued - 1 }
        some (if limit ≤ x.queued then y.ask else y)
      else none

def system (limit : ℕ) : System Window Op := ⟨step limit⟩

/-- The connection is opened once, and reads are only started by the window itself. -/
def Unaided (x : Window) : Op → Prop
  | .dial => x.dialled = false
  | .read => False
  | _ => True

/-- A reply leaves the full queue only while no read is outstanding. -/
def DrainsAlone (limit : ℕ) (x : Window) : Op → Prop
  | .drain => limit ≤ x.queued → x.reads = 0
  | _ => True

/-- In addition a request is answered at most once, while it is served. -/
def AnswersOnce (x : Window) : Op → Prop
  | .dial => x.dialled = false
  | .read => False
  | .post => x.isOpen = true ∧ x.serving = true ∧ x.replies = 0
  | _ => True

/-- What holds as long as at most one read is outstanding. -/
structure Settled (x : Window) : Prop where
  fresh : x.dialled = false → x.opening = 0
  once : x.opening ≤ 1
  before : 0 < x.opening → x.isOpen = false
  closed : x.isOpen = false → x.reads = 0
  busy : x.serving = true → x.reads = 0

variable {limit : ℕ} {x y : Window}

theorem settled_initial : Settled {} := by
  constructor <;> simp

theorem Settled.open_of_read (hx : x.Settled) (h : 0 < x.reads) : x.isOpen = true := by
  cases hopen : x.isOpen with
  | false =>
    rw [hx.closed hopen] at h
    cases h
  | true => rfl

theorem Settled.serve (hx : x.Settled) (h : x.serving = true) : (x.serve limit).Settled := by
  cases hx
  rw [Window.serve]
  split_ifs <;> constructor <;> simp_all [ask]

/-- A request is read: it is served next. -/
theorem Settled.arrive (hx : x.Settled) (hread : x.reads ≤ 1) :
    Settled { x with reads := x.reads - 1, replies := 0, serving := true } := by
  have hone : x.reads - 1 = 0 := by omega
  cases hx
  constructor <;> simp_all

theorem Settled.step (x : Window) (o : Op) (y : Window) (hx : x.Settled) (hg : x.Unaided o)
    (hread : x.reads ≤ 1) (h : (system limit).step x o = some y) : y.Settled := by
  cases o with
  | dial =>
    obtain ⟨hopen, h⟩ := Option.ite_none_left_eq_some.mp h
    cases h
    have hzero := hx.fresh hg
    cases hx
    constructor <;> simp_all
  | opened =>
    obtain ⟨hpending, h⟩ := Option.ite_none_right_eq_some.mp h
    cases h
    cases hx
    constructor <;> simp_all [ask]
  | refused =>
    obtain ⟨hpending, h⟩ := Option.ite_none_right_eq_some.mp h
    cases h
    cases hx
    constructor <;> simp_all
  | read => exact absurd hg id
  | arrive served =>
    obtain ⟨hpending, h⟩ := Option.ite_none_right_eq_some.mp h
    cases h
    have hserving := hx.arrive hread
    cases served
    · exact hserving
    · exact hserving.serve rfl
  | broken =>
    obtain ⟨hpending, h⟩ := Option.ite_none_right_eq_some.mp h
    cases h
    cases hx
    constructor <;> simp_all
  | finish =>
    obtain ⟨hserving, h⟩ := Option.ite_none_right_eq_some.mp h
    cases h
    exact hx.serve hserving
  | post =>
    cases h
    cases hx
    constructor <;> assumption
  | drain =>
    obtain ⟨hpending, h⟩ := Option.ite_none_right_eq_some.mp h
    cases h
    cases hx
    split_ifs <;> constructor <;> simp_all [ask]

theorem Settled.serve_reads (hx : x.Settled) (h : x.serving = true) :
    (x.serve limit).reads ≤ 1 := by
  rw [Window.serve]
  split_ifs <;> simp [ask, hx.busy h, Bool.toNat_le]

/-- Only a reply that leaves the full queue can start a second read. -/
theorem Settled.reads_iff (x : Window) (o : Op) (y : Window) (hx : x.Settled) (hg : x.Unaided o)
    (hread : x.reads ≤ 1) (h : (system limit).step x o = some y) :
    y.reads ≤ 1 ↔ x.DrainsAlone limit o := by
  cases o with
  | dial =>
    obtain ⟨_, h⟩ := Option.ite_none_left_eq_some.mp h
    cases h
    exact iff_of_true hread trivial
  | opened =>
    obtain ⟨hpending, h⟩ := Option.ite_none_right_eq_some.mp h
    cases h
    apply iff_of_true _ trivial
    simp [ask, hx.closed (hx.before hpending.1)]
  | refused =>
    obtain ⟨_, h⟩ := Option.ite_none_right_eq_some.mp h
    cases h
    exact iff_of_true hread trivial
  | read => exact absurd hg id
  | arrive served =>
    obtain ⟨hpending, h⟩ := Option.ite_none_right_eq_some.mp h
    cases h
    apply iff_of_true _ trivial
    cases served
    · exact Nat.le_trans (Nat.sub_le x.reads 1) hread
    · exact (hx.arrive hread).serve_reads rfl
  | broken =>
    obtain ⟨_, h⟩ := Option.ite_none_right_eq_some.mp h
    cases h
    apply iff_of_true _ trivial
    exact Nat.le_trans (Nat.sub_le x.reads 1) hread
  | finish =>
    obtain ⟨hserving, h⟩ := Option.ite_none_right_eq_some.mp h
    cases h
    exact iff_of_true (hx.serve_reads hserving) trivial
  | post =>
    cases h
    exact iff_of_true hread trivial
  | drain =>
    obtain ⟨_, h⟩ := Option.ite_none_right_eq_some.mp h
    cases h
    by_cases hfull : limit ≤ x.queued
    · cases hopen : x.isOpen with
      | false => simp [DrainsAlone, hfull, ask, hx.closed hopen]
      | true => simp [DrainsAlone, hfull, ask]
    · simp [DrainsAlone, hfull, hread]

/-! ## At most one answer for each request -/

/-- Between two requests a read is outstanding exactly while the queue is not full; a request
that is served leaves room for its answer. -/
structure Steady (limit : ℕ) (x : Window) : Prop extends Settled x where
  empty : x.isOpen = false → x.queued = 0
  bound : x.queued ≤ limit
  idle : x.isOpen = true → x.serving = false → x.reads = if x.queued < limit then 1 else 0
  room : x.serving = true → x.queued + 1 ≤ limit + x.replies

theorem steady_initial : Steady limit {} where
  toSettled := settled_initial
  empty := by simp
  bound := Nat.zero_le limit
  idle := by simp
  room := by simp

theorem AnswersOnce.unaided {o : Op} (h : x.AnswersOnce o) : x.Unaided o := by
  cases o with
  | dial => exact h
  | read => exact h
  | _ => trivial

theorem Steady.open_of_queued (hx : Steady limit x) (h : 0 < x.queued) : x.isOpen = true := by
  cases hopen : x.isOpen with
  | false =>
    rw [hx.empty hopen] at h
    cases h
  | true => rfl

theorem Steady.reads_le (hx : Steady limit x) : x.reads ≤ 1 := by
  cases hopen : x.isOpen with
  | false => simp [hx.closed hopen]
  | true =>
    cases hserving : x.serving with
    | true => simp [hx.busy hserving]
    | false =>
      rw [hx.idle hopen hserving]
      split_ifs <;> decide

theorem Steady.arrive (hx : Steady limit x) (hserving : x.serving = false) (hread : 0 < x.reads) :
    Steady limit { x with reads := x.reads - 1, replies := 0, serving := true } where
  toSettled := hx.toSettled.arrive hx.reads_le
  empty := hx.empty
  bound := hx.bound
  idle := by simp
  room := by
    intro _
    have hreads := hx.idle (hx.open_of_read hread) hserving
    simp only
    split_ifs at hreads <;> omega

theorem Steady.serve (hx : Steady limit x) (h : x.serving = true) :
    Steady limit (x.serve limit) := by
  have hsettled : (x.serve limit).Settled := hx.toSettled.serve h
  have hreads := hx.busy h
  by_cases hfull : limit ≤ x.queued
  · have hnot : ¬ x.queued < limit := by omega
    rw [Window.serve, if_pos hfull] at hsettled ⊢
    refine ⟨hsettled, hx.empty, hx.bound, ?_, ?_⟩
    · simp [hreads, hnot]
    · simp
  · have hspace : x.queued < limit := by omega
    rw [Window.serve, if_neg hfull] at hsettled ⊢
    refine ⟨hsettled, hx.empty, hx.bound, ?_, ?_⟩
    · intro hopen _
      simp [ask, hreads, hspace, show x.isOpen = true from hopen]
    · simp [ask]

theorem Steady.post (hx : Steady limit x) (hg : x.AnswersOnce .post) :
    Steady limit { x with queued := x.queued + 1, replies := x.replies + 1 } := by
  obtain ⟨hopen, hserving, hreplies⟩ := hg
  have hroom := hx.room hserving
  refine ⟨⟨hx.fresh, hx.once, hx.before, hx.closed, hx.busy⟩, ?_, ?_, ?_, ?_⟩
  · simp [hopen]
  · simp only
    omega
  · simp [hserving]
  · intro _
    simp only
    omega

/-- A reply that leaves the full queue starts the read that was held back. -/
theorem Steady.drain (hx : Steady limit x) (hserving : x.serving = false) (h : 0 < x.queued)
    (hsettled : (if limit ≤ x.queued then { x with queued := x.queued - 1 }.ask
      else { x with queued := x.queued - 1 }).Settled) :
    Steady limit (if limit ≤ x.queued then { x with queued := x.queued - 1 }.ask
      else { x with queued := x.queued - 1 }) := by
  have hopen := hx.open_of_queued h
  have hreads := hx.idle hopen hserving
  have hbound := hx.bound
  have hspace : x.queued - 1 < limit := by omega
  by_cases hfull : limit ≤ x.queued
  · rw [if_neg (by omega)] at hreads
    rw [if_pos hfull] at hsettled ⊢
    refine ⟨hsettled, ?_, Nat.le_of_lt hspace, ?_, ?_⟩
    · simp [ask, hopen]
    · simp [ask, hopen, hreads, hspace]
    · simp [ask, hserving]
  · rw [if_pos (by omega)] at hreads
    rw [if_neg hfull] at hsettled ⊢
    refine ⟨hsettled, ?_, Nat.le_of_lt hspace, ?_, ?_⟩
    · simp [hopen]
    · simp [hreads, hspace]
    · simp [hserving]

theorem serve_lost : (x.serve limit).lost = x.lost := by
  rw [serve]
  split_ifs <;> rfl

theorem lost_step {o : Op} (hx : x.lost = true) (h : (system limit).step x o = some y) :
    y.lost = true := by
  cases o with
  | dial =>
    obtain ⟨_, h⟩ := Option.ite_none_left_eq_some.mp h
    cases h
    exact hx
  | read =>
    cases h
    exact hx
  | post =>
    cases h
    exact hx
  | arrive served =>
    obtain ⟨_, h⟩ := Option.ite_none_right_eq_some.mp h
    cases h
    cases served
    · exact hx
    · exact serve_lost.trans hx
  | finish =>
    obtain ⟨_, h⟩ := Option.ite_none_right_eq_some.mp h
    cases h
    exact serve_lost.trans hx
  | broken =>
    obtain ⟨_, h⟩ := Option.ite_none_right_eq_some.mp h
    cases h
    rfl
  | drain =>
    obtain ⟨_, h⟩ := Option.ite_none_right_eq_some.mp h
    cases h
    split_ifs <;> exact hx
  | _ =>
    obtain ⟨_, h⟩ := Option.ite_none_right_eq_some.mp h
    cases h
    exact hx

/-- Until a read fails, a window whose requests are answered at most once is steady. -/
theorem Steady.step (hlimit : 0 < limit) (x : Window) (o : Op) (y : Window)
    (hx : x.lost = true ∨ Steady limit x) (hg : x.AnswersOnce o)
    (h : (system limit).step x o = some y) : y.lost = true ∨ Steady limit y := by
  rcases hx with hlost | hx
  · exact .inl (lost_step hlost h)
  have hsettled := hx.toSettled.step x o y hg.unaided hx.reads_le h
  cases o with
  | dial =>
    obtain ⟨_, h⟩ := Option.ite_none_left_eq_some.mp h
    cases h
    exact .inr ⟨hsettled, hx.empty, hx.bound, hx.idle, hx.room⟩
  | opened =>
    obtain ⟨⟨hpending, hserving⟩, h⟩ := Option.ite_none_right_eq_some.mp h
    cases h
    have hopen := hx.before hpending
    refine .inr ⟨hsettled, ?_, hx.bound, ?_, hx.room⟩
    · simp [ask]
    · simp [ask, hx.closed hopen, hx.empty hopen, hlimit]
  | refused =>
    obtain ⟨_, h⟩ := Option.ite_none_right_eq_some.mp h
    cases h
    exact .inr ⟨hsettled, hx.empty, hx.bound, hx.idle, hx.room⟩
  | read => exact absurd hg id
  | arrive served =>
    obtain ⟨⟨hread, hserving⟩, h⟩ := Option.ite_none_right_eq_some.mp h
    cases h
    have harrive := hx.arrive hserving hread
    cases served
    · exact .inr harrive
    · exact .inr (harrive.serve rfl)
  | broken =>
    obtain ⟨_, h⟩ := Option.ite_none_right_eq_some.mp h
    cases h
    exact .inl rfl
  | finish =>
    obtain ⟨hserving, h⟩ := Option.ite_none_right_eq_some.mp h
    cases h
    exact .inr (hx.serve hserving)
  | post =>
    cases h
    exact .inr (hx.post hg)
  | drain =>
    obtain ⟨⟨hqueued, hserving⟩, h⟩ := Option.ite_none_right_eq_some.mp h
    cases h
    exact .inr (hx.drain hserving hqueued hsettled)

/-! ## After a read has failed -/

/-- No read is outstanding, and the queue has room, so that none will be started. -/
structure Over (limit : ℕ) (x : Window) : Prop where
  lost : x.lost = true
  isOpen : x.isOpen = true
  opening : x.opening = 0
  reads : x.reads = 0
  serving : x.serving = false
  queued : x.queued < limit

theorem Over.step {o : Op} (hx : Over limit x) (hg : x.AnswersOnce o)
    (h : (system limit).step x o = some y) : Over limit y := by
  have hlost := lost_step hx.lost h
  have hreads := hx.reads
  have hopening := hx.opening
  have hserving := hx.serving
  cases o with
  | dial =>
    obtain ⟨hopen, _⟩ := Option.ite_none_left_eq_some.mp h
    exact absurd hx.isOpen hopen
  | read => exact absurd hg id
  | post =>
    obtain ⟨_, hbusy, _⟩ := hg
    rw [hserving] at hbusy
    cases hbusy
  | finish =>
    obtain ⟨hbusy, _⟩ := Option.ite_none_right_eq_some.mp h
    rw [hserving] at hbusy
    cases hbusy
  | drain =>
    obtain ⟨_, h⟩ := Option.ite_none_right_eq_some.mp h
    have hroom := hx.queued
    rw [if_neg (by omega)] at h
    cases h
    exact ⟨hlost, hx.isOpen, hopening, hreads, hserving,
      Nat.lt_of_le_of_lt (Nat.sub_le _ _) hroom⟩
  | _ =>
    obtain ⟨⟨hpending, _⟩, _⟩ := Option.ite_none_right_eq_some.mp h
    omega

/-- A read that fails is the last one. -/
theorem Steady.over (hx : Steady limit x) (h : (system limit).step x .broken = some y) :
    Over limit y := by
  obtain ⟨⟨hread, hserving⟩, h⟩ := Option.ite_none_right_eq_some.mp h
  cases h
  have hopen := hx.open_of_read hread
  have hreads := hx.idle hopen hserving
  constructor
  · rfl
  · exact hopen
  · apply Nat.eq_zero_of_not_pos
    intro hopening
    have hclosed := hx.before hopening
    rw [hopen] at hclosed
    cases hclosed
  · simp only
    split_ifs at hreads <;> omega
  · exact hserving
  · split_ifs at hreads <;> omega

theorem lost_of_step {o : Op} (hx : x.lost = false) (h : (system limit).step x o = some y)
    (hy : y.lost = true) : o = .broken := by
  cases o with
  | broken => rfl
  | dial =>
    obtain ⟨_, h⟩ := Option.ite_none_left_eq_some.mp h
    cases h
    cases hx.symm.trans hy
  | read =>
    cases h
    cases hx.symm.trans hy
  | post =>
    cases h
    cases hx.symm.trans hy
  | arrive served =>
    obtain ⟨_, h⟩ := Option.ite_none_right_eq_some.mp h
    cases h
    cases served
    · cases hx.symm.trans hy
    · rw [if_pos rfl, serve_lost] at hy
      cases hx.symm.trans hy
  | finish =>
    obtain ⟨_, h⟩ := Option.ite_none_right_eq_some.mp h
    cases h
    rw [serve_lost] at hy
    cases hx.symm.trans hy
  | drain =>
    obtain ⟨_, h⟩ := Option.ite_none_right_eq_some.mp h
    cases h
    split_ifs at hy
    · cases hx.symm.trans hy
    · cases hx.symm.trans hy
  | _ =>
    obtain ⟨_, h⟩ := Option.ite_none_right_eq_some.mp h
    cases h
    cases hx.symm.trans hy

/-- A window whose requests are answered at most once: it is steady until a read fails, and over
from then on. -/
def Held (limit : ℕ) (x : Window) : Prop := x.lost = false ∧ Steady limit x ∨ Over limit x

theorem held_initial : Held limit {} := Or.inl ⟨rfl, steady_initial⟩

theorem Held.step (hlimit : 0 < limit) (x : Window) (o : Op) (y : Window) (hx : Held limit x)
    (hg : x.AnswersOnce o) (h : (system limit).step x o = some y) : Held limit y := by
  rcases hx with ⟨hlost, hx⟩ | hx
  · cases hy : y.lost with
    | true =>
      cases lost_of_step hlost h hy
      exact Or.inr (hx.over h)
    | false =>
      rcases Steady.step hlimit x o y (Or.inr hx) hg h with hlast | hnext
      · rw [hy] at hlast
        cases hlast
      · exact Or.inl ⟨hy, hnext⟩
  · exact Or.inr (hx.step hg h)

theorem Held.steady (hx : Held limit x) (h : x.lost = false) : Steady limit x := by
  rcases hx with ⟨_, hx⟩ | hx
  · exact hx
  · rw [hx.lost] at h
    cases h

theorem Held.reads_le (hx : Held limit x) : x.reads ≤ 1 := by
  rcases hx with ⟨_, hx⟩ | hx
  · exact hx.reads_le
  · rw [hx.reads]
    exact Nat.zero_le 1

end Window
end Channel
