import MockApi.Endpoint.Definition
import MockApi.Route.Pattern

/-!
# Registries

A registry holds endpoints in the order in which their identities were first registered. Registering
an endpoint with a known identity replaces the one that was there and keeps its place and its time
of creation.

Requests are answered by the first endpoint that answers the method and whose pattern matches the
path.
-/

namespace MockApi

/-- Endpoints in order of first registration. -/
structure Registry where
  /-- The endpoints in order. -/
  endpoints : List Endpoint

namespace Registry

/-- The registry without endpoints. -/
def empty : Registry := ⟨[]⟩

/-- The identities in order. -/
def identities (registry : Registry) : List Text := registry.endpoints.map Endpoint.identity

/-- The number of endpoints. -/
def size (registry : Registry) : Nat := registry.endpoints.length

/-- The endpoint with an identity. -/
def get? (registry : Registry) (identity : Text) : Option Endpoint :=
  registry.endpoints.find? (·.identity = identity)

/-- Whether an identity is registered. -/
def contains (registry : Registry) (identity : Text) : Bool :=
  registry.endpoints.any (·.identity = identity)

/-! ## Editing -/

/-- The first of some values that is not vacant, or the last. -/
def firstGiven : List Value → Value → Value
  | [], last => last
  | value :: values, last => if value.isVacant then firstGiven values last else value

/-- The endpoint as it is stored at a time, in place of an older one or not. -/
def stamped (endpoint : Endpoint) (older? : Option Endpoint) (now : Text) : Endpoint :=
  { endpoint with
    createdAt := firstGiven ((older?.map Endpoint.createdAt).toList ++ [endpoint.createdAt])
      (.text now)
    updatedAt := .text now }

/-- The endpoints with one registered at a time, the endpoint as it is stored, and whether its
identity is new. -/
def saveIn (endpoint : Endpoint) (now : Text) : List Endpoint → List Endpoint × Endpoint × Bool
  | [] => ([stamped endpoint none now], stamped endpoint none now, true)
  | older :: rest =>
    if older.identity = endpoint.identity then
      (stamped endpoint (some older) now :: rest, stamped endpoint (some older) now, false)
    else
      let saved := saveIn endpoint now rest
      (older :: saved.1, saved.2)

/-- The registry with an endpoint registered at a time, the endpoint as it is stored, and whether
its identity is new. -/
def save (registry : Registry) (endpoint : Endpoint) (now : Text) : Registry × Endpoint × Bool :=
  let saved := saveIn endpoint now registry.endpoints
  (⟨saved.1⟩, saved.2)

/-- The registry with an endpoint registered at a time. -/
def upsert (registry : Registry) (endpoint : Endpoint) (now : Text) : Registry :=
  (registry.save endpoint now).1

/-- The registry without the endpoint of an identity. -/
def delete (registry : Registry) (identity : Text) : Registry :=
  ⟨registry.endpoints.filter (·.identity ≠ identity)⟩

/-- The registry without the endpoint of an identity, and whether there was one. -/
def remove (registry : Registry) (identity : Text) : Registry × Bool :=
  let rest := registry.delete identity
  (rest, rest.size ≠ registry.size)

/-- The registry without its endpoints, and how many there were. -/
def clear (registry : Registry) : Registry × Nat := (empty, registry.size)

/-! ## Routing -/

/-- The first endpoint that answers a method and a path, with what its pattern captures. -/
def find? (registry : Registry) (method path : Text) : Option (Endpoint × Table Text) :=
  registry.endpoints.findSome? fun endpoint ↦
    if endpoint.method.answers method then
      (Route.match? endpoint.path path).map fun captures ↦ (endpoint, captures)
    else none

/-! ## Operations -/

/-- Something that is done with a registry. -/
inductive Operation
  /-- An endpoint is registered at a time. -/
  | save (endpoint : Endpoint) (now : Text)
  /-- The endpoint of an identity is deleted. -/
  | remove (identity : Text)
  /-- All endpoints are deleted. -/
  | clear
  /-- The endpoint of an identity is looked up. -/
  | look (identity : Text)

/-- What an operation tells. -/
inductive Answer
  /-- The endpoint as it is stored, and whether its identity was new. -/
  | saved (stored : Endpoint) (created : Bool)
  /-- Whether there was an endpoint to delete. -/
  | removed (found : Bool)
  /-- How many endpoints there were. -/
  | cleared (count : Nat)
  /-- The endpoint, if there is one. -/
  | looked (endpoint? : Option Endpoint)

/-- The registry after an operation, and what the operation tells. -/
def perform (registry : Registry) : Operation → Registry × Answer
  | .save endpoint now =>
    let (registry, stored, created) := registry.save endpoint now
    (registry, .saved stored created)
  | .remove identity =>
    let (registry, found) := registry.remove identity
    (registry, .removed found)
  | .clear =>
    let (registry, count) := registry.clear
    (registry, .cleared count)
  | .look identity => (registry, .looked (registry.get? identity))

/-- The registry after several operations, one after another. -/
def performAll (registry : Registry) (operations : List Operation) : Registry :=
  operations.foldl (fun registry operation ↦ (registry.perform operation).1) registry

/-! ## The first laws -/

@[simp] theorem stamped_identity (endpoint : Endpoint) (older? : Option Endpoint) (now : Text) :
    (stamped endpoint older? now).identity = endpoint.identity := rfl

/-- What is in a registry after registering was there before, or is the endpoint registered. -/
theorem mem_saveIn {endpoint other : Endpoint} {now : Text} {endpoints : List Endpoint}
    (h : other ∈ (saveIn endpoint now endpoints).1) :
    other ∈ endpoints ∨ ∃ older?, other = stamped endpoint older? now := by
  induction endpoints with
  | nil => exact .inr ⟨none, List.mem_singleton.mp h⟩
  | cons older rest ih =>
    unfold saveIn at h
    split at h
    · rcases List.mem_cons.mp h with rfl | h
      · exact .inr ⟨some older, rfl⟩
      · exact .inl (List.mem_cons_of_mem _ h)
    · rcases List.mem_cons.mp h with rfl | h
      · exact .inl List.mem_cons_self
      · exact (ih h).imp_left (List.mem_cons_of_mem _)

theorem identities_saveIn (endpoint : Endpoint) (now : Text) (endpoints : List Endpoint) :
    (saveIn endpoint now endpoints).1.map Endpoint.identity
      = if endpoint.identity ∈ endpoints.map Endpoint.identity then endpoints.map Endpoint.identity
        else endpoints.map Endpoint.identity ++ [endpoint.identity] := by
  induction endpoints with
  | nil => simp [saveIn]
  | cons older rest ih =>
    unfold saveIn
    by_cases h : older.identity = endpoint.identity
    · simp [h]
    · rw [if_neg h]
      simp only [List.map_cons, List.mem_cons, Ne.symm h, false_or]
      rw [ih]
      by_cases hm : endpoint.identity ∈ rest.map Endpoint.identity <;> simp [hm]

/-- Registering keeps the identities in order and adds a new one at the end. -/
theorem identities_upsert (registry : Registry) (endpoint : Endpoint) (now : Text) :
    (registry.upsert endpoint now).identities
      = if endpoint.identity ∈ registry.identities then registry.identities
        else registry.identities ++ [endpoint.identity] :=
  identities_saveIn endpoint now registry.endpoints

theorem identities_delete (registry : Registry) (identity : Text) :
    (registry.delete identity).identities = registry.identities.filter (· ≠ identity) := by
  simp [delete, identities, List.filter_map, Function.comp_def]

theorem saveIn_snd (endpoint : Endpoint) (now : Text) (endpoints : List Endpoint) :
    (saveIn endpoint now endpoints).2
      = (stamped endpoint (endpoints.find? (·.identity = endpoint.identity)) now,
        !endpoints.any (·.identity = endpoint.identity)) := by
  induction endpoints with
  | nil => rfl
  | cons older rest ih =>
    unfold saveIn
    by_cases h : older.identity = endpoint.identity
    · simp [h]
    · simp [h, ih]

/-- Registering tells what is stored, and whether there was nothing under the identity before. -/
theorem save_eq (registry : Registry) (endpoint : Endpoint) (now : Text) :
    registry.save endpoint now = (registry.upsert endpoint now,
      stamped endpoint (registry.get? endpoint.identity) now,
      !registry.contains endpoint.identity) :=
  Prod.ext rfl (saveIn_snd endpoint now registry.endpoints)

theorem find?_saveIn (endpoint : Endpoint) (now identity : Text) (endpoints : List Endpoint) :
    (saveIn endpoint now endpoints).1.find? (·.identity = identity)
      = if endpoint.identity = identity then some (saveIn endpoint now endpoints).2.1
        else endpoints.find? (·.identity = identity) := by
  induction endpoints with
  | nil => by_cases hi : endpoint.identity = identity <;> simp [saveIn, hi]
  | cons older rest ih =>
    unfold saveIn
    by_cases h : older.identity = endpoint.identity
    · by_cases hi : endpoint.identity = identity <;> simp [h, hi]
    · rw [if_neg h]
      by_cases hi : endpoint.identity = identity
      · have hne : older.identity ≠ identity := hi ▸ h
        simpa [hi, hne] using ih
      · simp only [List.find?_cons, ih, if_neg hi]

/-- Registering puts the endpoint under its identity and leaves the other ones alone. -/
theorem get?_upsert (registry : Registry) (endpoint : Endpoint) (now identity : Text) :
    (registry.upsert endpoint now).get? identity
      = if endpoint.identity = identity
        then some (stamped endpoint (registry.get? endpoint.identity) now)
        else registry.get? identity := by
  refine (find?_saveIn endpoint now identity registry.endpoints).trans ?_
  rw [saveIn_snd]
  rfl

/-- Deleting tells whether there was something under the identity before. -/
theorem remove_eq (registry : Registry) (identity : Text) :
    registry.remove identity = (registry.delete identity, registry.contains identity) := by
  refine Prod.ext rfl (Bool.eq_iff_iff.mpr (decide_eq_true_iff.trans ?_))
  have hsize : (registry.delete identity).size = registry.size ↔
      ∀ endpoint ∈ registry.endpoints, decide (endpoint.identity ≠ identity) = true :=
    List.length_filter_eq_length_iff
  rw [ne_eq, hsize]
  simp [contains]

theorem get?_delete (registry : Registry) (identity other : Text) :
    (registry.delete identity).get? other
      = if identity = other then none else registry.get? other := by
  unfold delete get?
  rw [List.find?_filter]
  by_cases h : identity = other
  · simp [h]
  · rw [if_neg h]
    congr 1
    funext endpoint
    by_cases ho : endpoint.identity = other <;> simp [ho, Ne.symm h]

theorem isSome_get?_iff {registry : Registry} {identity : Text} :
    (registry.get? identity).isSome = true ↔ identity ∈ registry.identities := by
  simp [get?, identities]

theorem contains_iff {registry : Registry} {identity : Text} :
    registry.contains identity = true ↔ identity ∈ registry.identities := by
  simp [contains, identities]

end Registry

end MockApi
