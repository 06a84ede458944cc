import BeastWebsocket.Transition.System
import Mathlib.Data.List.Basic

/-! # Requests and responses with one place for each

A request is kept in the one slot there is while it is sent, and once it is sent its response is
received into the one place there is. Nothing refuses a second request before the first is sent,
or before its response has come.
-/
namespace Channel
open Transition

/-- `clashes` counts the receives that were started while another was under way. -/
structure Exchange (α : Type*) where
  slot : Option α := none
  sends : List α := []
  receives : ℕ := 0
  clashes : ℕ := 0

inductive Exchange.Op (α : Type*) where
  | send (a : α)
  | sent (i : ℕ) (ok : Bool)
  | receive
  | received

namespace Exchange
variable {α : Type*}

def receive (x : Exchange α) : Exchange α :=
  { x with receives := x.receives + 1,
           clashes := x.clashes + if 0 < x.receives then 1 else 0 }

def step (x : Exchange α) : Op α → Option (Exchange α)
  | .send a => some { x with slot := some a, sends := x.sends ++ [a] }
  | .sent i ok =>
      if i < x.sends.length then
        let y := { x with sends := x.sends.eraseIdx i }
        some (if ok then y.receive else y)
      else none
  | .receive => some x.receive
  | .received => if 0 < x.receives then some { x with receives := x.receives - 1 } else none

def system (α : Type*) : System (Exchange α) (Op α) := ⟨step⟩

theorem step_sent {x : Exchange α} {i : ℕ} (ok : Bool) (h : i < x.sends.length) :
    (system α).step x (.sent i ok) =
      some (if ok then { x with sends := x.sends.eraseIdx i }.receive
        else { x with sends := x.sends.eraseIdx i }) :=
  if_pos h

/-- One request is sent and one response received at a time; the request that is sent is in the
slot, and no receive has met another. -/
structure Single (x : Exchange α) : Prop where
  sends : x.sends.length ≤ 1
  receives : x.receives ≤ 1
  kept : ∀ a ∈ x.sends, x.slot = some a
  clear : x.clashes = 0

/-- A request finds no other being sent, and a receive no other under way. -/
def Free (x : Exchange α) : Op α → Prop
  | .send _ => x.sends = []
  | .sent _ ok => ok = true → x.receives = 0
  | .receive => x.receives = 0
  | .received => True

theorem single_initial : Single ({} : Exchange α) where
  sends := Nat.zero_le 1
  receives := Nat.zero_le 1
  kept := by simp
  clear := rfl

variable {x y : Exchange α}

theorem Single.receive_iff (hx : x.Single) : x.receive.Single ↔ x.receives = 0 := by
  have hclear := hx.clear
  constructor
  · intro h
    have hone : x.receives + 1 ≤ 1 := h.receives
    omega
  · intro h
    refine ⟨hx.sends, ?_, hx.kept, ?_⟩
    · simp [receive, h]
    · simp [receive, h, hclear]

theorem Single.send_iff (hx : x.Single) (a : α) :
    ({ x with slot := some a, sends := x.sends ++ [a] } : Exchange α).Single ↔ x.sends = [] := by
  constructor
  · intro h
    have hone : (x.sends ++ [a]).length ≤ 1 := h.sends
    rw [List.length_append, List.length_singleton] at hone
    exact List.eq_nil_of_length_eq_zero (by omega)
  · intro h
    refine ⟨?_, hx.receives, ?_, hx.clear⟩
    · simp [h]
    · simp [h]

theorem Single.erase (hx : x.Single) (i : ℕ) :
    ({ x with sends := x.sends.eraseIdx i } : Exchange α).Single where
  sends := Nat.le_trans (List.length_eraseIdx_le x.sends i) hx.sends
  receives := hx.receives
  kept a ha := hx.kept a (List.mem_of_mem_eraseIdx ha)
  clear := hx.clear

theorem Single.step_iff {o : Op α} (hx : x.Single) (h : (system α).step x o = some y) :
    y.Single ↔ x.Free o := by
  cases o with
  | send a =>
    cases h
    exact hx.send_iff a
  | sent i ok =>
    obtain ⟨_, h⟩ := Option.ite_none_right_eq_some.mp h
    cases h
    cases ok with
    | false =>
      apply iff_of_true (hx.erase i)
      intro hok
      cases hok
    | true =>
      simp only [Free, if_true, forall_const]
      exact (hx.erase i).receive_iff
  | receive =>
    cases h
    exact hx.receive_iff
  | received =>
    obtain ⟨_, h⟩ := Option.ite_none_right_eq_some.mp h
    cases h
    apply iff_of_true _ trivial
    exact ⟨hx.sends, Nat.le_trans (Nat.sub_le _ _) hx.receives, hx.kept, hx.clear⟩

end Exchange
end Channel
