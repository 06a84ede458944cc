import BeastWebsocket.Session.Timer
import BeastWebsocket.Transition.System
import Mathlib.Data.List.Nodup
import Mathlib.Tactic.SplitIfs

/-! # A timer that is waited on

Each deadline is acted on once while a wait is launched beside no other, and none that completes
behind a deadline finds it acted on already.
-/
namespace BeastWebsocket
open Transition

/-- The handler of a wait that completes with this error acts if the deadline has passed. -/
def Counts (ec : ErrorCode) : Prop := ¬ (ec.failed = true ∧ ec ≠ .operationAborted)

instance (ec : ErrorCode) : Decidable (Counts ec) := inferInstanceAs (Decidable (¬ _))

/-- The handler of a wait gives up, takes the action, or waits again. The default action sets
a deadline `d` ahead and waits for it. -/
def Timer.handle (d : ℕ) (ec : ErrorCode) (callback : Bool) (t : Timer) : Timer :=
  if Counts ec then
    if t.expired then if callback then t else (t.expiresAfter d).asyncWait
    else t.asyncWait
  else t

/-- The timer once a wait has left it. -/
def Timer.without (i : ℕ) (t : Timer) : Timer := { t with waits := t.waits.eraseIdx i }

theorem Timer.without_expired (i : ℕ) (t : Timer) : (t.without i).expired = t.expired := rfl

theorem Timer.handle_waits (d : ℕ) (ec : ErrorCode) (callback : Bool) (t : Timer) :
    (t.handle d ec callback).waits.length ≤ t.waits.length + 1 := by
  rw [handle]
  split_ifs <;> simp [expiresAfter, asyncWait]

/-- A timer, and the deadlines on which the action has been taken. -/
structure Watch where
  timer : Timer := {}
  acted : List ℕ := []

namespace Watch

/-- What happens to the timer. In `lapse` a wait completes and its handler runs. -/
inductive Op where
  | move
  | launch
  | lapse (i : ℕ) (ec : ErrorCode) (callback : Bool)
  | tick (d : ℕ)
  | fire

/-- A wait completes and its handler runs. -/
def lapse (d i : ℕ) (ec : ErrorCode) (callback : Bool) (x : Watch) : Watch where
  timer := (x.timer.without i).handle d ec callback
  acted :=
    if Counts ec ∧ x.timer.expired = true then x.acted ++ x.timer.expiry.toList else x.acted

/-- Deadlines are set `d` ahead. -/
def step (d : ℕ) (x : Watch) : Op → Option Watch
  | .move => some { x with timer := x.timer.expiresAfter d }
  | .launch => some { x with timer := x.timer.asyncWait }
  | .lapse i ec callback => x.timer.waits[i]?.bind fun w =>
      if w.admits ec then some (x.lapse d i ec callback) else none
  | .tick k => some { x with timer.now := x.timer.now + k }
  | .fire =>
      if x.timer.expired then some { x with timer.waits := x.timer.waits.map Timer.fire } else none

def system (d : ℕ) : System Watch Op := ⟨step d⟩

/-- At most one wait is outstanding, and no deadline is acted on twice. -/
structure Single (x : Watch) : Prop where
  waits : x.timer.waits.length ≤ 1
  once : x.acted.Nodup

/-- What is known of every run: the deadlines acted on have passed, none of them lies behind the
current one, and the last is the latest. -/
structure Past (x : Watch) : Prop where
  reached : ∀ e ∈ x.acted, e ≤ x.timer.now
  before : ∀ e ∈ x.acted, ∀ n ∈ x.timer.expiry, e ≤ n
  last : ∀ e ∈ x.acted, ∀ m ∈ x.acted.getLast?, e ≤ m

/-- A wait is launched beside no other, and the action is taken on no deadline that it was last
taken on. -/
def ActsOnce (x : Watch) : Op → Prop
  | .launch => x.timer.waits = []
  | .lapse _ ec _ =>
      Counts ec → x.timer.expired = true → ∀ m ∈ x.acted.getLast?, x.timer.expiry ≠ some m
  | _ => True

variable {d : ℕ} {x y : Watch}

theorem past_initial : Past {} := by
  constructor <;> simp

theorem single_initial : Single {} := by
  constructor <;> simp

theorem expired_iff {t : Timer} : t.expired = true ↔ ∃ e, t.expiry = some e ∧ e ≤ t.now := by
  rw [Timer.expired]
  cases t.expiry <;> simp

/-- A deadline that is set anew lies behind all that have been acted on. -/
theorem Past.move (hx : x.Past) : Past { x with timer := x.timer.expiresAfter d } where
  reached := hx.reached
  before := by
    intro e he n hn
    have hle := hx.reached e he
    cases hn
    exact Nat.le_add_right_of_le hle
  last := hx.last

theorem Past.act (hx : x.Past) (hexp : x.timer.expired = true) (i : ℕ) :
    Past ⟨x.timer.without i, x.acted ++ x.timer.expiry.toList⟩ := by
  obtain ⟨n, hn, hle⟩ := expired_iff.mp hexp
  have hbound : ∀ e ∈ x.acted ++ [n], e ≤ n := by
    intro e he
    rcases List.mem_append.mp he with he | he
    · exact hx.before e he n hn
    · exact Nat.le_of_eq (List.mem_singleton.mp he)
  rw [hn]
  constructor
  · intro e he
    exact Nat.le_trans (hbound e he) hle
  · intro e he m hm
    have hm' : some n = some m := hn ▸ hm
    cases hm'
    exact hbound e he
  · intro e he m hm
    simp only [Option.toList_some, List.getLast?_append, List.getLast?_singleton,
      Option.some_or, Option.mem_some] at hm
    subst hm
    exact hbound e he

/-- The last deadline acted on is the only one that the current one can be. -/
theorem Past.not_mem_iff (hx : x.Past) {n : ℕ} (hn : x.timer.expiry = some n) :
    n ∉ x.acted ↔ ∀ m ∈ x.acted.getLast?, x.timer.expiry ≠ some m := by
  rw [hn]
  constructor
  · intro hnot m hm heq
    cases heq
    exact hnot (List.mem_of_getLast? hm)
  · intro hlast hmem
    have hne : x.acted ≠ [] := List.ne_nil_of_mem hmem
    have hm : x.acted.getLast? = some (x.acted.getLast hne) := List.getLast?_eq_some_getLast hne
    have hle := hx.last n hmem _ hm
    have hge := hx.before _ (List.getLast_mem hne) n hn
    exact hlast _ hm (congrArg some (Nat.le_antisymm hle hge))

theorem Past.lapse (hx : x.Past) (i : ℕ) (ec : ErrorCode) (callback : Bool) :
    (x.lapse d i ec callback).Past := by
  rw [Watch.lapse, Timer.handle]
  by_cases hec : Counts ec
  · by_cases hexp : x.timer.expired = true
    · have hact := hx.act hexp i
      have hmoved := hact.move (d := d)
      rw [if_pos hec, if_pos (And.intro hec hexp), if_pos (x.timer.without_expired i ▸ hexp)]
      split_ifs
      · exact hact
      · exact ⟨hmoved.reached, hmoved.before, hmoved.last⟩
    · have hnot : ¬ (Counts ec ∧ x.timer.expired = true) := fun h => hexp h.2
      rw [if_pos hec, if_neg hnot, if_neg (x.timer.without_expired i ▸ hexp)]
      exact ⟨hx.reached, hx.before, hx.last⟩
  · have hnot : ¬ (Counts ec ∧ x.timer.expired = true) := fun h => hec h.1
    rw [if_neg hec, if_neg hnot]
    exact ⟨hx.reached, hx.before, hx.last⟩

theorem Past.step (x : Watch) (o : Op) (y : Watch) (hx : x.Past)
    (h : (system d).step x o = some y) : y.Past := by
  cases o with
  | move =>
    cases h
    exact hx.move
  | launch =>
    cases h
    exact ⟨hx.reached, hx.before, hx.last⟩
  | lapse i ec callback =>
    obtain ⟨w, _, h⟩ := Option.bind_eq_some_iff.mp h
    obtain ⟨_, h⟩ := Option.ite_none_right_eq_some.mp h
    cases h
    exact hx.lapse i ec callback
  | tick k =>
    cases h
    refine ⟨?_, hx.before, hx.last⟩
    intro e he
    exact Nat.le_add_right_of_le (hx.reached e he)
  | fire =>
    obtain ⟨_, h⟩ := Option.ite_none_right_eq_some.mp h
    cases h
    exact ⟨hx.reached, hx.before, hx.last⟩

theorem Single.same (hx : x.Single) (hwaits : y.timer.waits.length ≤ x.timer.waits.length)
    (hacted : y.acted = x.acted) : y.Single where
  waits := Nat.le_trans hwaits hx.waits
  once := hacted ▸ hx.once

/-- The handler of a wait leaves no more waits than there were. -/
theorem lapse_waits {i : ℕ} {w : Wait} (hw : x.timer.waits[i]? = some w) (ec : ErrorCode)
    (callback : Bool) :
    (x.lapse d i ec callback).timer.waits.length ≤ x.timer.waits.length := by
  have hi : i < x.timer.waits.length := (List.getElem?_eq_some_iff.mp hw).1
  have herase := List.length_eraseIdx_of_lt hi
  have hhandle := Timer.handle_waits d ec callback (x.timer.without i)
  simp only [Timer.without, herase] at hhandle
  simp only [lapse, Timer.without]
  omega

theorem Single.lapse_iff (hx : x.Single) (hpast : x.Past) {i : ℕ} {w : Wait}
    (hw : x.timer.waits[i]? = some w) (ec : ErrorCode) (callback : Bool) :
    (x.lapse d i ec callback).Single ↔ x.ActsOnce (.lapse i ec callback) := by
  have hwaits := Nat.le_trans (lapse_waits (d := d) hw ec callback) hx.waits
  have hiff : (x.lapse d i ec callback).Single ↔ (x.lapse d i ec callback).acted.Nodup :=
    ⟨Single.once, fun h => ⟨hwaits, h⟩⟩
  rw [hiff, lapse]
  by_cases hact : Counts ec ∧ x.timer.expired = true
  · obtain ⟨n, hn, _⟩ := expired_iff.mp hact.2
    rw [if_pos hact]
    simp only [ActsOnce, hact, true_imp_iff]
    rw [← hpast.not_mem_iff hn, hn, Option.toList_some, List.nodup_append]
    constructor
    · rintro ⟨_, _, hdisjoint⟩ hmem
      exact hdisjoint n hmem n (List.mem_singleton_self n) rfl
    · intro hnot
      refine ⟨hx.once, List.nodup_singleton n, ?_⟩
      intro a ha b hb heq
      rw [List.mem_singleton] at hb
      subst heq hb
      exact hnot ha
  · rw [if_neg hact]
    apply iff_of_true hx.once
    intro hec hexp
    exact absurd ⟨hec, hexp⟩ hact

theorem Single.step_iff (x : Watch) (o : Op) (y : Watch) (hpast : x.Past) (hx : x.Single)
    (h : (system d).step x o = some y) : y.Single ↔ x.ActsOnce o := by
  cases o with
  | move =>
    cases h
    exact iff_of_true (hx.same (by simp [Timer.expiresAfter]) rfl) trivial
  | launch =>
    cases h
    constructor
    · intro hy
      have hwaits := hy.waits
      rw [Timer.asyncWait, List.length_append, List.length_singleton] at hwaits
      exact List.length_eq_zero_iff.mp (by omega)
    · intro hnone
      refine ⟨?_, hx.once⟩
      rw [Timer.asyncWait, show x.timer.waits = [] from hnone]
      exact Nat.le_refl 1
  | lapse i ec callback =>
    obtain ⟨w, hw, h⟩ := Option.bind_eq_some_iff.mp h
    obtain ⟨_, h⟩ := Option.ite_none_right_eq_some.mp h
    cases h
    apply hx.lapse_iff hpast hw
  | tick k =>
    cases h
    exact iff_of_true (hx.same (Nat.le_refl _) rfl) trivial
  | fire =>
    obtain ⟨_, h⟩ := Option.ite_none_right_eq_some.mp h
    cases h
    exact iff_of_true (hx.same (by simp) rfl) trivial

/-! ## A condition on the launches alone -/

/-- A wait is only launched beside no other, on a deadline that has not been acted on. -/
def LaunchesFresh (x : Watch) : Op → Prop
  | .launch => x.timer.waits = [] ∧ ∀ m ∈ x.acted.getLast?, x.timer.expiry ≠ some m
  | _ => True

/-- At most one wait is outstanding, and none on a deadline that has been acted on. -/
structure Fresh (x : Watch) : Prop extends Past x where
  waits : x.timer.waits.length ≤ 1
  ahead : x.timer.waits ≠ [] → ∀ m ∈ x.acted.getLast?, x.timer.expiry ≠ some m

theorem fresh_initial : Fresh {} where
  toPast := past_initial
  waits := Nat.zero_le 1
  ahead := by simp

theorem Past.ahead_of_moved (hx : x.Past) (hd : 0 < d) :
    ∀ m ∈ x.acted.getLast?, (x.timer.expiresAfter d).expiry ≠ some m := by
  intro m hm heq
  have hle := hx.reached m (List.mem_of_getLast? hm)
  have hmoved : x.timer.now + d = m := Option.some.inj heq
  omega

/-- The handler of the only wait either leaves none, or waits on a deadline not acted on. -/
theorem Fresh.lapse (hx : x.Fresh) (hd : 0 < d) {i : ℕ} {w : Wait}
    (hw : x.timer.waits[i]? = some w) (ec : ErrorCode) (callback : Bool)
    (hpast : (x.lapse d i ec callback).Past) : (x.lapse d i ec callback).Fresh := by
  refine ⟨hpast, Nat.le_trans (lapse_waits hw ec callback) hx.waits, ?_⟩
  have hi : i < x.timer.waits.length := (List.getElem?_eq_some_iff.mp hw).1
  have hone := hx.waits
  have hsome : x.timer.waits ≠ [] := List.ne_nil_of_length_pos (by omega)
  have hlast : x.timer.waits.eraseIdx i = [] := by
    rw [← List.length_eq_zero_iff, List.length_eraseIdx_of_lt hi]
    omega
  rw [Watch.lapse, Timer.handle]
  by_cases hec : Counts ec
  · by_cases hexp : x.timer.expired = true
    · have hact := hx.toPast.act hexp i
      rw [if_pos hec, if_pos (And.intro hec hexp), if_pos (x.timer.without_expired i ▸ hexp)]
      split_ifs
      · intro hwaits
        exact absurd hlast hwaits
      · intro _
        exact hact.ahead_of_moved hd
    · have hnot : ¬ (Counts ec ∧ x.timer.expired = true) := fun h => hexp h.2
      rw [if_pos hec, if_neg hnot, if_neg (x.timer.without_expired i ▸ hexp)]
      intro _
      exact hx.ahead hsome
  · rw [if_neg hec]
    intro hwaits
    exact absurd hlast hwaits

theorem Fresh.step (hd : 0 < d) (x : Watch) (o : Op) (y : Watch) (hx : x.Fresh)
    (hg : x.LaunchesFresh o) (h : (system d).step x o = some y) : y.Fresh := by
  have hpast := hx.toPast.step x o y h
  cases o with
  | move =>
    cases h
    refine ⟨hpast, ?_, fun _ => hx.toPast.ahead_of_moved hd⟩
    simpa [Timer.expiresAfter] using hx.waits
  | launch =>
    cases h
    refine ⟨hpast, ?_, fun _ => hg.2⟩
    simp [Timer.asyncWait, hg.1]
  | lapse i ec callback =>
    obtain ⟨w, hw, h⟩ := Option.bind_eq_some_iff.mp h
    obtain ⟨_, h⟩ := Option.ite_none_right_eq_some.mp h
    cases h
    exact hx.lapse hd hw ec callback hpast
  | tick k =>
    cases h
    exact ⟨hpast, hx.waits, hx.ahead⟩
  | fire =>
    obtain ⟨_, h⟩ := Option.ite_none_right_eq_some.mp h
    cases h
    refine ⟨hpast, ?_, ?_⟩
    · simpa using hx.waits
    · simpa using hx.ahead

theorem Fresh.actsOnce (hx : x.Fresh) {o : Op} (hg : x.LaunchesFresh o)
    (h : (system d).step x o = some y) : x.ActsOnce o := by
  cases o with
  | launch => exact hg.1
  | lapse i ec callback =>
    obtain ⟨w, hw, _⟩ := Option.bind_eq_some_iff.mp h
    intro _ _
    exact hx.ahead (List.ne_nil_of_mem (List.mem_of_getElem? hw))
  | _ => trivial

/-! ## The deadline and the waits -/

variable {o : Option Op}

theorem perform_deadline (h : (system d).perform x o = some y)
    (hx : x.timer.expiry.isSome = true) : y.timer.expiry.isSome = true := by
  cases o with
  | none =>
    cases h
    exact hx
  | some o =>
    cases o with
    | lapse i ec callback =>
      obtain ⟨w, _, h⟩ := Option.bind_eq_some_iff.mp h
      obtain ⟨_, h⟩ := Option.ite_none_right_eq_some.mp h
      cases h
      change ((x.timer.without i).handle d ec callback).expiry.isSome = true
      rw [Timer.handle]
      split_ifs
      · exact hx
      · rfl
      · exact hx
      · exact hx
    | move =>
      cases h
      rfl
    | fire =>
      obtain ⟨_, h⟩ := Option.ite_none_right_eq_some.mp h
      cases h
      exact hx
    | _ =>
      cases h
      exact hx

/-- A wait is outstanding only where one has been, or has been launched. -/
theorem perform_waits (ho : o ≠ some .launch) (h : (system d).perform x o = some y)
    (hy : y.timer.waits ≠ []) : x.timer.waits ≠ [] := by
  cases o with
  | none =>
    cases h
    exact hy
  | some o =>
    cases o with
    | launch => exact absurd rfl ho
    | lapse i ec callback =>
      obtain ⟨w, hw, _⟩ := Option.bind_eq_some_iff.mp h
      exact List.ne_nil_of_mem (List.mem_of_getElem? hw)
    | move =>
      cases h
      simpa [Timer.expiresAfter] using hy
    | tick k =>
      cases h
      exact hy
    | fire =>
      obtain ⟨_, h⟩ := Option.ite_none_right_eq_some.mp h
      cases h
      simpa using hy

end Watch

end BeastWebsocket
