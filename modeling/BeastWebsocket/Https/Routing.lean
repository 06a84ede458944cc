import BeastWebsocket.Session.Record

/-! # The routing tables of the HTTPS server

The two tables of a server and the two loops of `process_request` over them. A table lists its
entries in the order in which the loop comes to them, which is any order for an unordered map.
-/
namespace BeastWebsocket.Https
variable {μ η : Type}

structure Request (μ : Type) where
  method : μ
  target : Bytes
deriving DecidableEq

/-- `resource_map_t`: the patterns, each with a pointer to its list of handlers. -/
abbrev ResourceMap (η : Type) := List (Bytes × Option η)

structure Router (μ η : Type) where
  methodMap : Option (List (μ × ResourceMap η)) := none
  resourceMap : Option (ResourceMap η) := none

/-- One list of handlers for all methods. -/
def oneHandler : Router Unit Unit := { resourceMap := some [([], some ())] }

/-- The lists of handlers that `process_request` has invoked, in order, and its local flag. -/
structure Dispatch (η : Type) where
  calls : List η := []
  invoked : Bool := false

section Loops
variable (regexMatch : Bytes → Bytes → Bool) (target : Bytes)

/-- The body of the loop over the entries for the method. -/
def methodVisit (d : Dispatch η) (value : Bytes × Option η) : Dispatch η :=
  if regexMatch target value.1 then
    match value.2 with
    | some cb => { calls := d.calls ++ [cb], invoked := true }
    | none => d
  else d

/-- The body of the loop over the entries for all methods. -/
def resourceVisit (d : Dispatch η) (value : Bytes × Option η) : Dispatch η :=
  if regexMatch target value.1 then
    match value.2 with
    | some cb => if d.invoked then d else { d with calls := d.calls ++ [cb] }
    | none => d
  else d

end Loops

namespace Router
variable [DecidableEq μ] (regexMatch : Bytes → Bytes → Bool)

/-- The entries that the first loop goes through. -/
def methodEntries (r : Router μ η) (method : μ) : ResourceMap η :=
  match r.methodMap with
  | some methods => (methods.lookup method).getD []
  | none => []

def dispatch (r : Router μ η) (req : Request μ) : Dispatch η :=
  let d := (r.methodEntries req.method).foldl (methodVisit regexMatch req.target) {}
  match r.resourceMap with
  | some resources => resources.foldl (resourceVisit regexMatch req.target) d
  | none => d

end Router

/-! ## What the loops invoke -/

section Matching
variable (regexMatch : Bytes → Bytes → Bool) (target : Bytes)

/-- The lists of handlers that stand in a table under patterns that the target matches. -/
def matching (resources : ResourceMap η) : List η :=
  resources.filterMap fun value => if regexMatch target value.1 then value.2 else none

theorem foldl_methodVisit (d : Dispatch η) (resources : ResourceMap η) :
    resources.foldl (methodVisit regexMatch target) d =
      ⟨d.calls ++ matching regexMatch target resources,
        d.invoked || !(matching regexMatch target resources).isEmpty⟩ := by
  induction resources generalizing d with
  | nil => simp [matching]
  | cons value resources ih =>
    rw [List.foldl_cons, ih]
    obtain ⟨pattern, cb⟩ := value
    by_cases h : regexMatch target pattern = true
    · cases cb <;> simp [methodVisit, matching, h]
    · simp [methodVisit, matching, h]

theorem foldl_resourceVisit (d : Dispatch η) (resources : ResourceMap η) :
    resources.foldl (resourceVisit regexMatch target) d =
      if d.invoked then d
      else { d with calls := d.calls ++ matching regexMatch target resources } := by
  induction resources generalizing d with
  | nil => simp [matching]
  | cons value resources ih =>
    rw [List.foldl_cons, ih]
    obtain ⟨pattern, cb⟩ := value
    by_cases h : regexMatch target pattern = true
    · cases cb <;> cases hd : d.invoked <;> simp [resourceVisit, matching, h, hd]
    · simp [resourceVisit, matching, h]

/-- The order of a table only orders the lists that match. -/
theorem matching_perm {resources resources' : ResourceMap η} (h : resources.Perm resources') :
    (matching regexMatch target resources).Perm (matching regexMatch target resources') :=
  h.filterMap _

end Matching

namespace Router
variable [DecidableEq μ] (regexMatch : Bytes → Bytes → Bool) (r : Router μ η) (req : Request μ)

/-- The lists of handlers for the method of the request that match its target. -/
def forMethod : List η := matching regexMatch req.target (r.methodEntries req.method)

/-- The lists of handlers for all methods that match the target of the request. -/
def forAll : List η := matching regexMatch req.target (r.resourceMap.getD [])

/-- Every list for the method is invoked, or if there is none every list for all methods. -/
theorem dispatch_calls :
    (r.dispatch regexMatch req).calls =
      if r.forMethod regexMatch req = [] then r.forAll regexMatch req
      else r.forMethod regexMatch req := by
  rw [dispatch, foldl_methodVisit]
  cases hr : r.resourceMap with
  | none =>
    have hall : r.forAll regexMatch req = [] := by
      rw [forAll, hr]
      rfl
    by_cases h : r.forMethod regexMatch req = []
    · rw [if_pos h, hall]
      exact h
    · rw [if_neg h]
      rfl
  | some resources =>
    simp only [foldl_resourceVisit]
    by_cases h : r.forMethod regexMatch req = []
    · rw [if_pos h]
      rw [forMethod] at h
      simp [forAll, hr, h]
    · rw [if_neg h]
      rw [forMethod] at h
      simp [forMethod, h]

/-- Exactly one list of handlers is there for the request: one for its method, or none for its
method and one for all. -/
def Unique : Prop :=
  (r.forMethod regexMatch req).length = 1 ∨
    r.forMethod regexMatch req = [] ∧ (r.forAll regexMatch req).length = 1

theorem unique_iff :
    r.Unique regexMatch req ↔ (r.dispatch regexMatch req).calls.length = 1 := by
  rw [dispatch_calls]
  by_cases h : r.forMethod regexMatch req = []
  · rw [if_pos h]
    simp [Unique, h]
  · rw [if_neg h]
    simp [Unique, h]

/-- The same tables, in another order. -/
structure Reordered (r r' : Router μ η) : Prop where
  methods : ∀ method, (r.methodEntries method).Perm (r'.methodEntries method)
  resources : (r.resourceMap.getD []).Perm (r'.resourceMap.getD [])

/-- The order of the tables does not tell whether there is one list for a request. -/
theorem Reordered.unique_iff {r r' : Router μ η} (h : r.Reordered r') :
    r.Unique regexMatch req ↔ r'.Unique regexMatch req := by
  have hmethod := matching_perm regexMatch req.target (h.methods req.method)
  have hall := matching_perm regexMatch req.target h.resources
  rw [Unique, Unique, ← List.length_eq_zero_iff, ← List.length_eq_zero_iff, forMethod, forMethod,
    forAll, forAll, hmethod.length_eq, hall.length_eq]

end Router
end BeastWebsocket.Https
