import BeastWebsocket.Transition.System
import Mathlib.Data.List.Basic

/-! # A buffer emptied by asynchronous writers

Starting a write hands the current content of the buffer over without taking it out. A
write that finishes empties the whole buffer, a write that is dropped leaves it alone. The
record of what was appended and of what finished writes carried tells whether each byte
goes out once.
-/
namespace Channel
open Transition

structure Outbox (α : Type*) where
  buffer : List α := []
  flight : List (List α) := []
  sent : List (List α) := []
  appended : List α := []

inductive Outbox.Op (α : Type*) where
  | append (b : List α)
  | start
  | finish (i : ℕ)
  | drop (i : ℕ)

namespace Outbox
variable {α : Type*}

def step (x : Outbox α) : Op α → Option (Outbox α)
  | .append b => some { x with buffer := x.buffer ++ b, appended := x.appended ++ b }
  | .start => some { x with flight := x.flight ++ [x.buffer] }
  | .finish i => x.flight[i]?.map fun p =>
      { x with buffer := [], flight := x.flight.eraseIdx i, sent := x.sent ++ [p] }
  | .drop i => x.flight[i]?.map fun _ => { x with flight := x.flight.eraseIdx i }

def system (α : Type*) : System (Outbox α) (Op α) := ⟨step⟩

/-- What finished writes carried, followed by the buffer, is what was appended. -/
def Balanced (x : Outbox α) : Prop := x.sent.flatten ++ x.buffer = x.appended

/-- A write that finishes carries what the buffer then holds. -/
def Carries (x : Outbox α) : Op α → Prop
  | .finish i => ∀ p ∈ x.flight[i]?, p = x.buffer
  | _ => True

/-- No write is started while another is in flight. -/
def Alone (x : Outbox α) : Op α → Prop
  | .start => x.flight = []
  | _ => True

/-- Nothing is added to the buffer, and no further write takes its content, while a write
is in flight. -/
def Undisturbed (x : Outbox α) : Op α → Prop
  | .append b => b = [] ∨ x.flight = []
  | .start => x.buffer = [] ∨ x.flight = []
  | _ => True

/-- Only a write that finishes takes something out of the buffer. -/
theorem perform_prefix {x y : Outbox α} {o : Option (Op α)} (h : (system α).perform x o = some y)
    (hfinish : ∀ i, o ≠ some (.finish i)) : x.buffer <+: y.buffer := by
  cases o with
  | none =>
    cases h
    exact List.prefix_rfl
  | some o =>
    cases o with
    | append b =>
      cases h
      exact List.prefix_append x.buffer b
    | start =>
      cases h
      exact List.prefix_rfl
    | finish i => exact absurd rfl (hfinish i)
    | drop i =>
      obtain ⟨p, _, rfl⟩ := Option.map_eq_some_iff.mp h
      exact List.prefix_rfl

/-- Emptying the buffer keeps the balance exactly when the write carried all of it. -/
theorem Balanced.step_iff (x : Outbox α) (o : Op α) (y : Outbox α) (hx : x.Balanced)
    (h : (system α).step x o = some y) : y.Balanced ↔ x.Carries o := by
  cases o with
  | append b =>
    cases h
    have hbal : x.sent.flatten ++ x.buffer = x.appended := hx
    exact iff_of_true (by simp [Balanced, ← hbal]) trivial
  | start =>
    cases h
    exact iff_of_true hx trivial
  | finish i =>
    obtain ⟨p, hp, rfl⟩ := Option.map_eq_some_iff.mp h
    have hbal : x.sent.flatten ++ x.buffer = x.appended := hx
    simp [Balanced, Carries, hp, ← hbal]
  | drop i =>
    obtain ⟨p, _, rfl⟩ := Option.map_eq_some_iff.mp h
    exact iff_of_true hx trivial

theorem single_step_iff (x : Outbox α) (o : Op α) (y : Outbox α) (hx : x.flight.length ≤ 1)
    (h : (system α).step x o = some y) : y.flight.length ≤ 1 ↔ x.Alone o := by
  cases o with
  | append b =>
    cases h
    exact iff_of_true hx trivial
  | start =>
    cases h
    simp [Alone]
  | finish i =>
    obtain ⟨p, _, rfl⟩ := Option.map_eq_some_iff.mp h
    exact iff_of_true (Nat.le_trans (List.length_eraseIdx_le x.flight i) hx) trivial
  | drop i =>
    obtain ⟨p, _, rfl⟩ := Option.map_eq_some_iff.mp h
    exact iff_of_true (Nat.le_trans (List.length_eraseIdx_le x.flight i) hx) trivial

/-- The account of an undisturbed outbox: each write in flight carries the buffer, so only
writes of an empty buffer overlap. -/
structure Exact (x : Outbox α) : Prop where
  balance : x.Balanced
  carried : ∀ p ∈ x.flight, p = x.buffer
  overlap : 2 ≤ x.flight.length → x.buffer = []

theorem balanced_empty : Balanced ({} : Outbox α) := rfl

theorem exact_empty : Exact ({} : Outbox α) where
  balance := balanced_empty
  carried := by simp
  overlap := by simp

theorem Exact.carries {x : Outbox α} (hx : x.Exact) (o : Op α) : x.Carries o := by
  cases o with
  | finish i => exact fun p hp => hx.carried p (List.mem_of_getElem? hp)
  | _ => trivial

theorem Exact.append {x y : Outbox α} {b : List α} (hx : x.Exact)
    (hg : x.Undisturbed (.append b)) (h : (system α).step x (.append b) = some y) : y.Exact := by
  refine ⟨(hx.balance.step_iff x _ y h).mpr trivial, ?_, ?_⟩
  all_goals
    cases h
    rcases hg with rfl | hnone
  · simpa using hx.carried
  · simp [hnone]
  · simpa using hx.overlap
  · simp [hnone]

theorem Exact.start {x y : Outbox α} (hx : x.Exact) (hg : x.Undisturbed .start)
    (h : (system α).step x .start = some y) : y.Exact := by
  refine ⟨(hx.balance.step_iff x _ y h).mpr trivial, ?_, ?_⟩
  · cases h
    intro p hp
    rcases List.mem_append.mp hp with hp | hp
    · exact hx.carried p hp
    · exact List.mem_singleton.mp hp
  · cases h
    intro hlen
    rcases hg with hempty | hnone
    · exact hempty
    · simp [hnone] at hlen

/-- Any write in flight beside the one that finishes carries nothing. -/
theorem Exact.finish {x y : Outbox α} {i : ℕ} (hx : x.Exact)
    (h : (system α).step x (.finish i) = some y) : y.Exact := by
  refine ⟨(hx.balance.step_iff x _ y h).mpr (hx.carries _), ?_, ?_⟩
  · obtain ⟨p, hp, rfl⟩ := Option.map_eq_some_iff.mp h
    intro q hq
    have hlen : 2 ≤ x.flight.length := by
      have hi : i < x.flight.length := (List.getElem?_eq_some_iff.mp hp).1
      have hrest := List.length_pos_of_mem hq
      rw [List.length_eraseIdx_of_lt hi] at hrest
      omega
    rw [hx.carried q (List.mem_of_mem_eraseIdx hq), hx.overlap hlen]
  · obtain ⟨p, _, rfl⟩ := Option.map_eq_some_iff.mp h
    exact fun _ => rfl

theorem Exact.drop {x y : Outbox α} {i : ℕ} (hx : x.Exact)
    (h : (system α).step x (.drop i) = some y) : y.Exact := by
  refine ⟨(hx.balance.step_iff x _ y h).mpr trivial, ?_, ?_⟩
  · obtain ⟨p, _, rfl⟩ := Option.map_eq_some_iff.mp h
    exact fun q hq => hx.carried q (List.mem_of_mem_eraseIdx hq)
  · obtain ⟨p, _, rfl⟩ := Option.map_eq_some_iff.mp h
    exact fun hlen => hx.overlap (Nat.le_trans hlen (List.length_eraseIdx_le x.flight i))

/-- An undisturbed step keeps the account exact. -/
theorem Exact.step (x : Outbox α) (o : Op α) (y : Outbox α) (hx : x.Exact)
    (hg : x.Undisturbed o) (h : (system α).step x o = some y) : y.Exact := by
  cases o with
  | append b => exact hx.append hg h
  | start => exact hx.start hg h
  | finish i => exact hx.finish h
  | drop i => exact hx.drop h

/-! ## One whole buffer at a time -/

/-- What has been sent, and what is being sent. -/
def carried (x : Outbox α) : List (List α) := x.sent ++ x.flight

/-- Nothing is left to send. -/
structure Quiet (x : Outbox α) : Prop where
  buffer : x.buffer = []
  flight : x.flight = []

instance (x : Outbox α) : Decidable x.Quiet :=
  decidable_of_iff (x.buffer = [] ∧ x.flight = [])
    ⟨fun h => ⟨h.1, h.2⟩, fun h => ⟨h.buffer, h.flight⟩⟩

/-- Nothing is left to send, or all of it is in flight. -/
def Orderly (x : Outbox α) : Prop := x.Quiet ∨ x.flight = [x.buffer]

/-- From `x` to `y` the bytes `b` have been appended, and no write has been started or finished. -/
structure Filled (b : List α) (x y : Outbox α) : Prop where
  buffer : y.buffer = x.buffer ++ b
  flight : y.flight = x.flight
  sent : y.sent = x.sent

section Posting
variable {x y z : Outbox α} {b c : List α}

theorem Quiet.orderly (hx : x.Quiet) : x.Orderly := Or.inl hx

theorem Orderly.single (hx : x.Orderly) : x.flight.length ≤ 1 := by
  rcases hx with hquiet | hflight
  · rw [hquiet.flight]
    exact Nat.zero_le 1
  · rw [hflight]
    exact Nat.le_refl 1

theorem Filled.refl (x : Outbox α) : Filled [] x x := ⟨(List.append_nil _).symm, rfl, rfl⟩

theorem Filled.trans (h : Filled b x y) (h' : Filled c y z) : Filled (b ++ c) x z where
  buffer := by rw [h'.buffer, h.buffer, List.append_assoc]
  flight := h'.flight.trans h.flight
  sent := h'.sent.trans h.sent

theorem Filled.append (x : Outbox α) (b : List α) (h : (system α).step x (.append b) = some y) :
    Filled b x y := by
  cases h
  exact ⟨rfl, rfl, rfl⟩

theorem Filled.orderly (h : Filled [] x y) (hx : x.Orderly) :
    y.Orderly ∧ y.carried = x.carried := by
  have hbuffer : y.buffer = x.buffer := by rw [h.buffer, List.append_nil]
  constructor
  · rcases hx with hquiet | hflight
    · exact Or.inl ⟨hbuffer.trans hquiet.buffer, h.flight.trans hquiet.flight⟩
    · exact Or.inr (by rw [h.flight, hflight, hbuffer])
  · rw [carried, carried, h.sent, h.flight]

/-- What is put into a quiet outbox goes out as one frame. -/
theorem Quiet.post (hx : x.Quiet) (hfill : Filled b x y) (h : (system α).step y .start = some z) :
    z.Orderly ∧ z.carried = x.carried ++ [b] := by
  have hbuffer : y.buffer = b := by
    rw [hfill.buffer, hx.buffer, List.nil_append]
  cases h
  constructor
  · right
    simp [hfill.flight, hx.flight]
  · simp [carried, hbuffer, hfill.flight, hfill.sent, hx.flight]

theorem Orderly.finish {i : ℕ} (hx : x.Orderly) (h : (system α).step x (.finish i) = some y) :
    y.Quiet ∧ y.carried = x.carried := by
  obtain ⟨p, hp, rfl⟩ := Option.map_eq_some_iff.mp h
  rcases hx with hquiet | hflight
  · rw [hquiet.flight] at hp
    cases hp
  · rw [hflight] at hp
    cases i with
    | zero =>
      cases hp
      exact ⟨⟨rfl, by simp [hflight]⟩, by simp [carried, hflight]⟩
    | succ i => cases hp

/-- What a step takes out of the buffer for a write. -/
def hands (x : Outbox α) : Option (Op α) → List (List α)
  | some .start => [x.buffer]
  | _ => []

/-- Unless a write ends, what is carried grows by what is handed over. -/
theorem perform_carried {o : Option (Op α)} (hfinish : ∀ i, o ≠ some (.finish i))
    (hdrop : ∀ i, o ≠ some (.drop i)) (h : (system α).perform x o = some y) :
    y.carried = x.carried ++ x.hands o := by
  cases o with
  | none =>
    cases h
    exact (List.append_nil _).symm
  | some o =>
    cases o with
    | append b =>
      cases h
      exact (List.append_nil _).symm
    | start =>
      cases h
      exact (List.append_assoc _ _ _).symm
    | finish i => exact absurd rfl (hfinish i)
    | drop i => exact absurd rfl (hdrop i)

/-- Where one write at most is in flight, what is carried stays when it finishes. -/
theorem finish_carried {i : ℕ} (hx : x.flight.length ≤ 1)
    (h : (system α).step x (.finish i) = some y) : y.carried = x.carried := by
  obtain ⟨p, hp, rfl⟩ := Option.map_eq_some_iff.mp h
  obtain ⟨hi, hp⟩ := List.getElem?_eq_some_iff.mp hp
  obtain ⟨q, hflight⟩ := List.length_eq_one_iff.mp (show x.flight.length = 1 by omega)
  have hzero : i = 0 := by omega
  subst hzero
  simp only [hflight, List.getElem_cons_zero] at hp
  simp [carried, hflight, hp]

end Posting

/-! ## What is handed over behind the first text -/

/-- Of the texts `l` that have been handed over, the first is `first`, and the others meet `P`, as
does what is left to hand over. -/
structure Headed (first : List α) (P : List α → Prop) (l : List (List α)) (x : Outbox α) :
    Prop where
  handed : ∃ rest, l = first :: rest ∧ ∀ m ∈ rest, P m
  buffer : x.buffer = [] ∨ P x.buffer

/-- What a step appends meets `P`, and so does what it hands over. -/
def Keeps (P : List α → Prop) (x : Outbox α) : Option (Op α) → Prop
  | some (.append b) => P b
  | some .start => P x.buffer
  | _ => True

theorem Headed.perform {x y : Outbox α} {first : List α} {P : List α → Prop} {l : List (List α)}
    {o : Option (Op α)} (happend : ∀ a b, P a → P b → P (a ++ b)) (hx : Headed first P l x)
    (hkeeps : x.Keeps P o) (h : (system α).perform x o = some y) :
    Headed first P (l ++ x.hands o) y := by
  obtain ⟨⟨rest, rfl, hrest⟩, hbuffer⟩ := hx
  cases o with
  | none =>
    cases h
    exact ⟨⟨rest, List.append_nil _, hrest⟩, hbuffer⟩
  | some o =>
    cases o with
    | append b =>
      have hb : P b := hkeeps
      cases h
      refine ⟨⟨rest, List.append_nil _, hrest⟩, Or.inr ?_⟩
      rcases hbuffer with hempty | hmeets
      · simpa [hempty] using hb
      · exact happend _ _ hmeets hb
    | start =>
      have hnow : P x.buffer := hkeeps
      cases h
      refine ⟨⟨rest ++ [x.buffer], rfl, ?_⟩, hbuffer⟩
      rw [List.forall_mem_append]
      exact ⟨hrest, by simpa using hnow⟩
    | finish i =>
      obtain ⟨p, _, rfl⟩ := Option.map_eq_some_iff.mp h
      exact ⟨⟨rest, List.append_nil _, hrest⟩, Or.inl rfl⟩
    | drop i =>
      obtain ⟨p, _, rfl⟩ := Option.map_eq_some_iff.mp h
      exact ⟨⟨rest, List.append_nil _, hrest⟩, hbuffer⟩

end Outbox
end Channel
