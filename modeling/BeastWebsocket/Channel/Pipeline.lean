import BeastWebsocket.Transition.System
import Mathlib.Data.List.Basic

/-! # A queue with one writer

The front of the queue is written as soon as it is the front. A write that succeeds takes its
item out and starts the next one, unless the item is a `last` one. After the write of a `last`
item, and after a write that fails, the front stays where it is and the queue is jammed.
-/
namespace Channel
open Transition

structure Pipeline (α : Type*) where
  queue : List α := []
  flight : List α := []
  posted : List α := []
  started : List α := []
  completed : List α := []
  sent : List α := []
  jammed : Bool := false
  underflow : Bool := false

inductive Pipeline.Op (α : Type*) where
  | post (a : α)
  | wrote (i : ℕ)
  | broke (i : ℕ)

namespace Pipeline
variable {α : Type*}

def startFront (x : Pipeline α) : Pipeline α :=
  { x with flight := x.flight ++ x.queue.take 1, started := x.started ++ x.queue.take 1 }

def push (a : α) (x : Pipeline α) : Pipeline α :=
  { x with queue := x.queue ++ [a], posted := x.posted ++ [a] }

def pop (x : Pipeline α) : Pipeline α :=
  { x with queue := x.queue.tail, underflow := x.underflow || x.queue.isEmpty }

def step (last : α → Bool) (x : Pipeline α) : Op α → Option (Pipeline α)
  | .post a => some (if x.queue.isEmpty then (x.push a).startFront else x.push a)
  | .wrote i => x.flight[i]?.map fun a =>
      let y := { x with flight := x.flight.eraseIdx i, completed := x.completed ++ [a],
                        sent := x.sent ++ [a] }
      if last a then { y with jammed := true } else y.pop.startFront
  | .broke i => x.flight[i]?.map fun a =>
      { x with flight := x.flight.eraseIdx i, completed := x.completed ++ [a], jammed := true }

def system (last : α → Bool) : System (Pipeline α) (Op α) := ⟨step last⟩

def Op.posts : Op α → List α
  | .post a => [a]
  | _ => []

theorem posted_step {last : α → Bool} {x y : Pipeline α} {o : Op α}
    (h : (system last).step x o = some y) : y.posted = x.posted ++ o.posts := by
  cases o with
  | post a =>
    cases h
    by_cases hq : x.queue.isEmpty
    · rw [if_pos hq]
      rfl
    · rw [if_neg hq]
      rfl
  | wrote i =>
    obtain ⟨a, _, rfl⟩ := Option.map_eq_some_iff.mp h
    by_cases hlast : last a = true
    · rw [if_pos hlast]
      exact (List.append_nil _).symm
    · rw [if_neg hlast]
      exact (List.append_nil _).symm
  | broke i =>
    obtain ⟨a, _, rfl⟩ := Option.map_eq_some_iff.mp h
    exact (List.append_nil _).symm

/-- The items `gone` have left the queue; its front is in flight unless the queue is jammed. -/
structure Account (last : α → Bool) (gone : List α) (x : Pipeline α) : Prop where
  posted : x.posted = gone ++ x.queue
  started : x.started = gone ++ x.queue.take 1
  plain : ∀ a ∈ gone, last a = false
  flight : x.flight = if x.jammed then [] else x.queue.take 1
  held : x.jammed = true → x.queue ≠ []
  sent : x.sent = gone ∨
    x.jammed = true ∧ ∃ a, x.queue.head? = some a ∧ last a = true ∧ x.sent = gone ++ [a]
  count : x.started.length = x.completed.length + x.flight.length
  filled : x.underflow = false

def Sound (last : α → Bool) (x : Pipeline α) : Prop := ∃ gone, Account last gone x

variable {last : α → Bool} {gone : List α} {x y : Pipeline α}

theorem sound_empty : Sound last ({} : Pipeline α) := by
  refine ⟨[], ?_⟩
  constructor <;> simp

theorem Account.post (hx : Account last gone x) (a : α) :
    Account last gone (if x.queue.isEmpty then (x.push a).startFront else x.push a) := by
  cases hq : x.queue with
  | nil =>
    have hfree : x.jammed = false := by
      cases hj : x.jammed with
      | false => rfl
      | true => exact absurd hq (hx.held hj)
    cases hx
    constructor <;> simp_all [push, startFront]
  | cons b q =>
    cases hx
    constructor <;> simp_all [push]

/-- A write in flight is that of the front, and the queue is not jammed. -/
theorem Account.front (hx : Account last gone x) {i : ℕ} {a : α} (ha : x.flight[i]? = some a) :
    ∃ q, x.queue = a :: q ∧ x.jammed = false ∧ x.flight.eraseIdx i = [] := by
  cases hj : x.jammed with
  | true =>
    rw [hx.flight, if_pos hj] at ha
    cases ha
  | false =>
    have hflight := hx.flight
    rw [hj, if_neg Bool.false_ne_true] at hflight
    rw [hflight] at ha
    cases hq : x.queue with
    | nil =>
      rw [hq] at ha
      cases ha
    | cons b q =>
      rw [hq] at ha hflight
      cases i with
      | zero =>
        cases ha
        exact ⟨q, rfl, rfl, by rw [hflight]; rfl⟩
      | succ i => cases ha

theorem Account.sent_eq (hx : Account last gone x) (h : x.jammed = false) : x.sent = gone := by
  rcases hx.sent with hsent | ⟨hj, _⟩
  · exact hsent
  · rw [h] at hj
    cases hj

/-- The front is written: a `last` item stays, any other one makes place for the next. -/
theorem Account.wrote (hx : Account last gone x) {i : ℕ} {a : α} (ha : x.flight[i]? = some a)
    (h : (system last).step x (.wrote i) = some y) : Sound last y := by
  obtain ⟨q, hq, hfree, herase⟩ := hx.front ha
  have hsent := hx.sent_eq hfree
  obtain ⟨b, hb, rfl⟩ := Option.map_eq_some_iff.mp h
  rw [ha, Option.some.injEq] at hb
  subst hb
  cases hlast : last a with
  | true =>
    refine ⟨gone, ?_⟩
    cases hx
    constructor <;> simp_all
  | false =>
    have hplain : ∀ b ∈ gone ++ [a], last b = false := by
      intro b hb
      rcases List.mem_append.mp hb with hb | hb
      · exact hx.plain b hb
      · rwa [List.mem_singleton.mp hb]
    refine ⟨gone ++ [a], ?_⟩
    cases hx
    constructor <;> simp_all [pop, startFront]
    omega

theorem Account.broke (hx : Account last gone x) {i : ℕ} {a : α} (ha : x.flight[i]? = some a)
    (h : (system last).step x (.broke i) = some y) : Account last gone y := by
  obtain ⟨q, hq, hfree, herase⟩ := hx.front ha
  have hsent := hx.sent_eq hfree
  obtain ⟨b, _, rfl⟩ := Option.map_eq_some_iff.mp h
  cases hx
  constructor <;> simp_all

theorem Sound.step (x : Pipeline α) (o : Op α) (y : Pipeline α) (hx : Sound last x)
    (h : (system last).step x o = some y) : Sound last y := by
  obtain ⟨gone, hx⟩ := hx
  cases o with
  | post a =>
    cases h
    exact ⟨gone, hx.post a⟩
  | wrote i =>
    obtain ⟨a, ha, _⟩ := Option.map_eq_some_iff.mp h
    exact hx.wrote ha h
  | broke i =>
    obtain ⟨a, ha, _⟩ := Option.map_eq_some_iff.mp h
    exact ⟨gone, hx.broke ha h⟩

/-! ## What the account says -/

theorem Sound.single (hx : Sound last x) : x.flight.length ≤ 1 := by
  obtain ⟨gone, hx⟩ := hx
  rw [hx.flight]
  split_ifs
  · exact Nat.zero_le 1
  · exact List.length_take_le 1 x.queue

/-- Items are written in the order in which they are posted, without a gap. -/
theorem Sound.in_order (hx : Sound last x) : x.started <+: x.posted := by
  obtain ⟨gone, hx⟩ := hx
  rw [hx.started, hx.posted]
  exact (List.prefix_append_right_inj gone).mpr (List.take_prefix 1 x.queue)

theorem Sound.filled (hx : Sound last x) : x.underflow = false := by
  obtain ⟨gone, hx⟩ := hx
  exact hx.filled

/-- As many writes are in flight as have been started and not completed. -/
theorem Sound.count (hx : Sound last x) :
    x.started.length = x.completed.length + x.flight.length := by
  obtain ⟨gone, hx⟩ := hx
  exact hx.count

theorem Sound.busy_iff (hx : Sound last x) (h : x.jammed = false) :
    x.queue ≠ [] ↔ x.flight ≠ [] := by
  obtain ⟨gone, hx⟩ := hx
  rw [hx.flight, h, if_neg Bool.false_ne_true]
  cases x.queue <;> simp

/-- A jammed queue stays so and starts nothing. -/
theorem Sound.jammed_step (hx : Sound last x) {o : Op α} (hj : x.jammed = true)
    (h : (system last).step x o = some y) : y.jammed = true ∧ y.started = x.started := by
  obtain ⟨gone, hx⟩ := hx
  have hflight := hx.flight
  rw [if_pos hj] at hflight
  cases o with
  | post a =>
    have hheld : x.queue.isEmpty ≠ true := by
      rw [Ne, List.isEmpty_iff]
      exact hx.held hj
    cases h
    rw [if_neg hheld]
    exact ⟨hj, rfl⟩
  | wrote i =>
    obtain ⟨a, ha, _⟩ := Option.map_eq_some_iff.mp h
    simp [hflight] at ha
  | broke i =>
    obtain ⟨a, ha, _⟩ := Option.map_eq_some_iff.mp h
    simp [hflight] at ha

/-- Of the items posted before the first `last` one, those in the queue are the ones that have
not been sent. -/
theorem Sound.unsent (hx : Sound last x) :
    (x.posted.takeWhile fun a => !last a).drop x.sent.length =
      x.queue.takeWhile fun a => !last a := by
  obtain ⟨gone, hx⟩ := hx
  have hgone : ∀ a ∈ gone, (!last a) = true := by
    intro a ha
    rw [hx.plain a ha]
    rfl
  rw [hx.posted, List.takeWhile_append_of_pos hgone]
  rcases hx.sent with hsent | ⟨_, a, ha, hlast, hsent⟩
  · rw [hsent, List.drop_left]
  · obtain ⟨q, hq⟩ := List.head?_eq_some_iff.mp ha
    rw [hsent, hq, List.takeWhile_cons_of_neg (by simp [hlast])]
    simp

/-- What waits behind the items that have been started is in the queue, with one of these. -/
theorem Sound.waiting (hx : Sound last x) :
    x.posted.length + min 1 x.queue.length = x.started.length + x.queue.length := by
  obtain ⟨gone, hx⟩ := hx
  rw [hx.posted, hx.started, List.length_append, List.length_append, List.length_take]
  omega

theorem Sound.sent_le (hx : Sound last x) : x.sent.length ≤ x.posted.length := by
  obtain ⟨gone, hx⟩ := hx
  rw [hx.posted, List.length_append]
  rcases hx.sent with hsent | ⟨hj, a, _, _, hsent⟩
  · rw [hsent]
    exact Nat.le_add_right _ _
  · have hpos := List.length_pos_iff.mpr (hx.held hj)
    rw [hsent, List.length_append, List.length_singleton]
    omega

/-- Where no write has failed, only a `last` item that has been started jams the queue. -/
theorem Sound.free (hx : Sound last x) (hsent : x.completed.length = x.sent.length)
    (hplain : ∀ a ∈ x.started, last a = false) : x.jammed = false := by
  obtain ⟨gone, hx⟩ := hx
  by_contra hjammed
  have hj : x.jammed = true := by simpa using hjammed
  have hpos := List.length_pos_iff.mpr (hx.held hj)
  have hcount := hx.count
  have hflight := hx.flight
  rw [if_pos hj] at hflight
  rw [hflight, hx.started, List.length_append, List.length_take, List.length_nil] at hcount
  rcases hx.sent with hgone | ⟨_, a, ha, hlast, _⟩
  · -- the write of the front has failed
    rw [hgone] at hsent
    omega
  · have hmem : a ∈ x.started := by
      obtain ⟨q, hq⟩ := List.head?_eq_some_iff.mp ha
      rw [hx.started, hq]
      simp
    rw [hplain a hmem] at hlast
    cases hlast

/-- A write that completes with success. -/
def Op.writes : Op α → ℕ
  | .wrote _ => 1
  | _ => 0

theorem sent_step {o : Op α} (h : (system last).step x o = some y) :
    y.sent.length = x.sent.length + o.writes ∧
      x.completed.length + y.sent.length ≤ y.completed.length + x.sent.length := by
  cases o with
  | post a =>
    cases h
    split_ifs <;> exact ⟨rfl, Nat.le_refl _⟩
  | wrote i =>
    obtain ⟨a, _, rfl⟩ := Option.map_eq_some_iff.mp h
    dsimp only
    split_ifs
    all_goals
      refine ⟨List.length_append, ?_⟩
      simp only [pop, startFront, List.length_append, List.length_singleton]
      omega
  | broke i =>
    obtain ⟨a, _, rfl⟩ := Option.map_eq_some_iff.mp h
    refine ⟨rfl, ?_⟩
    simp only [List.length_append, List.length_singleton]
    omega

/-- What has been started stays so. -/
theorem started_step {o : Op α} (h : (system last).step x o = some y) :
    x.started <+: y.started := by
  cases o with
  | post a =>
    cases h
    split_ifs
    · exact List.prefix_append _ _
    · exact List.prefix_rfl
  | wrote i =>
    obtain ⟨a, _, rfl⟩ := Option.map_eq_some_iff.mp h
    dsimp only
    split_ifs
    · exact List.prefix_rfl
    · exact List.prefix_append _ _
  | broke i =>
    obtain ⟨a, _, rfl⟩ := Option.map_eq_some_iff.mp h
    exact List.prefix_rfl

end Pipeline
end Channel
