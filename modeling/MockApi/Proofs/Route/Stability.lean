import MockApi.Route.Registry

/-!
# Routing under edits

A request keeps its endpoint while other endpoints come and go. What is found for a request depends
on the first endpoint that serves it, and edits of other identities neither move that endpoint nor
put one in front of it that serves the request: new identities go to the end, and an endpoint that
is replaced gives its place to one that serves the same requests.

The last point needs identities to tell endpoints apart by path and method. An identity is a path
and the name of a method with a hyphen between them; no name of a method has a hyphen, so it can be
taken apart at the last one.
-/

namespace MockApi

/-! ## Identities -/

/-- A text without the separator is what comes after the last separator. -/
theorem Text.afterLast_append {sep : Nat} {s : Text} (h : sep ∉ s) (t : Text) :
    Text.afterLast sep (t ++ sep :: s) = s := by
  have hs : ∀ c ∈ s.reverse, decide (c ≠ sep) = true := fun c hc ↦
    decide_eq_true fun heq ↦ h (heq ▸ List.mem_reverse.mp hc)
  rw [afterLast, List.reverse_append, List.reverse_cons, List.append_assoc,
    List.takeWhile_append_of_pos hs]
  simp

theorem Method.hyphen_notMem_toUpper_name (method : Method) :
    '-'.toNat ∉ Text.toUpper method.name := by
  cases method <;> decide +kernel

theorem Method.toUpper_name (method : Method) : Text.toUpper method.name = method.name := by
  cases method <;> decide +kernel

theorem Method.name_injective {m n : Method} (h : m.name = n.name) : m = n :=
  Option.some.inj ((ofName?_name m).symm.trans ((congrArg ofName? h).trans (ofName?_name n)))

/-- Endpoints of one identity have the same path and the same method. -/
theorem Endpoint.path_and_method_of_identity {a b : Endpoint} (h : a.identity = b.identity) :
    a.path = b.path ∧ a.method = b.method := by
  have hname : Text.toUpper a.method.name = Text.toUpper b.method.name := by
    rw [← Text.afterLast_append a.method.hyphen_notMem_toUpper_name a.path,
      ← Text.afterLast_append b.method.hyphen_notMem_toUpper_name b.path]
    exact congrArg (Text.afterLast '-'.toNat) h
  unfold identity identityOf at h
  rw [hname] at h
  rw [Method.toUpper_name, Method.toUpper_name] at hname
  exact ⟨List.append_cancel_right h, Method.name_injective hname⟩

/-! ## Serving -/

/-- What an endpoint makes of a request: itself and what its pattern captures, if it serves it. -/
def Endpoint.serve? (method path : Text) (endpoint : Endpoint) : Option (Endpoint × Table Text) :=
  if endpoint.method.answers method then
    (Route.match? endpoint.path path).map fun captures ↦ (endpoint, captures)
  else none

/-- An endpoint answers the method of a request, and its pattern matches the path. -/
def Endpoint.Serves (endpoint : Endpoint) (method path : Text) : Prop :=
  endpoint.method.answers method = true ∧ (Route.match? endpoint.path path).isSome = true

variable {method path : Text} {endpoint : Endpoint}

theorem Endpoint.isSome_serve?_iff :
    (endpoint.serve? method path).isSome = true ↔ endpoint.Serves method path := by
  unfold serve? Serves
  cases endpoint.method.answers method <;> simp

/-- The endpoint that is told is the one that was asked. -/
theorem Endpoint.eq_of_serve? {other : Endpoint} {captures : Table Text}
    (h : endpoint.serve? method path = some (other, captures)) : endpoint = other := by
  unfold serve? at h
  split at h
  · obtain ⟨_, -, heq⟩ := Option.map_eq_some_iff.mp h
    exact congrArg Prod.fst heq
  · cases h

/-- Endpoints of one identity serve the same requests. -/
theorem Endpoint.serves_of_identity {other : Endpoint} (h : endpoint.identity = other.identity) :
    endpoint.Serves method path ↔ other.Serves method path := by
  obtain ⟨hpath, hmethod⟩ := path_and_method_of_identity h
  unfold Serves
  rw [hpath, hmethod]

theorem Endpoint.serve?_eq_none (h : ¬endpoint.Serves method path) :
    endpoint.serve? method path = none := by
  rwa [← isSome_serve?_iff, Option.not_isSome_iff_eq_none] at h

namespace Registry

theorem find?_eq (registry : Registry) (method path : Text) :
    registry.find? method path = registry.endpoints.findSome? (Endpoint.serve? method path) := rfl

/-! ## One edit -/

section Edit

variable {endpoints : List Endpoint} {served : Endpoint} {captures : Table Text}

/-- An endpoint of another identity than the one found serves the request only behind it. -/
theorem not_serves_of_findSome? {older : Endpoint} {rest : List Endpoint}
    (h : (older :: rest).findSome? (Endpoint.serve? method path) = some (served, captures))
    (hne : older.identity ≠ served.identity) : ¬older.Serves method path := by
  intro hserves
  obtain ⟨⟨other, found⟩, hfound⟩ :=
    Option.isSome_iff_exists.mp (Endpoint.isSome_serve?_iff.mpr hserves)
  rw [List.findSome?_cons, hfound] at h
  have hother : other = served := congrArg Prod.fst (Option.some.inj h)
  rw [Endpoint.eq_of_serve? hfound, hother] at hne
  exact hne rfl

/-- What is found goes on to be found if the endpoints behind the first one are replaced by others
among which it is still found. -/
theorem findSome?_cons_of_some {older : Endpoint} {rest rest' : List Endpoint}
    {found : Endpoint × Table Text}
    (h : (older :: rest).findSome? (Endpoint.serve? method path) = some found)
    (hrest : rest.findSome? (Endpoint.serve? method path) = some found →
      rest'.findSome? (Endpoint.serve? method path) = some found) :
    (older :: rest').findSome? (Endpoint.serve? method path) = some found := by
  rw [List.findSome?_cons] at h ⊢
  cases hserve : older.serve? method path with
  | some other =>
    rw [hserve] at h
    exact h
  | none =>
    rw [hserve] at h
    exact hrest h

theorem findSome?_saveIn_of_some (now : Text) (hne : endpoint.identity ≠ served.identity)
    (h : endpoints.findSome? (Endpoint.serve? method path) = some (served, captures)) :
    (saveIn endpoint now endpoints).1.findSome? (Endpoint.serve? method path)
      = some (served, captures) := by
  induction endpoints with
  | nil => cases h
  | cons older rest ih =>
    unfold saveIn
    by_cases hidentity : older.identity = endpoint.identity
    · -- the old endpoint did not serve the request, so neither does the new one in its place
      have holder : ¬older.Serves method path :=
        not_serves_of_findSome? h (hidentity ▸ hne)
      have hstored : ¬(stamped endpoint (some older) now).Serves method path := by
        rwa [Endpoint.serves_of_identity ((stamped_identity ..).trans hidentity.symm)]
      rw [List.findSome?_cons, Endpoint.serve?_eq_none holder] at h
      rw [if_pos hidentity, List.findSome?_cons, Endpoint.serve?_eq_none hstored]
      exact h
    · rw [if_neg hidentity]
      exact findSome?_cons_of_some h ih

theorem findSome?_filter_of_some {identity : Text} (hne : identity ≠ served.identity)
    (h : endpoints.findSome? (Endpoint.serve? method path) = some (served, captures)) :
    (endpoints.filter (·.identity ≠ identity)).findSome? (Endpoint.serve? method path)
      = some (served, captures) := by
  induction endpoints with
  | nil => cases h
  | cons older rest ih =>
    by_cases hidentity : older.identity = identity
    · have holder : ¬older.Serves method path := not_serves_of_findSome? h (hidentity ▸ hne)
      rw [List.findSome?_cons, Endpoint.serve?_eq_none holder] at h
      rw [List.filter_cons_of_neg (by simpa using hidentity)]
      exact ih h
    · rw [List.filter_cons_of_pos (by simpa using hidentity)]
      exact findSome?_cons_of_some h ih

end Edit

variable {registry : Registry}

/-- No endpoint serves a request for which nothing is found. -/
theorem find?_eq_none_iff : registry.find? method path = none ↔
    ∀ endpoint ∈ registry.endpoints, ¬endpoint.Serves method path := by
  rw [find?_eq, List.findSome?_eq_none_iff]
  simp only [← Endpoint.isSome_serve?_iff, Option.not_isSome_iff_eq_none]

/-- An operation leaves the endpoint of an identity alone. -/
def Operation.Spares (identity : Text) : Operation → Prop
  | .save endpoint _ => endpoint.identity ≠ identity
  | .remove other => other ≠ identity
  | .clear => False
  | .look _ => True

/-- An operation brings in no endpoint that serves a request. -/
def Operation.BringsNothing (method path : Text) : Operation → Prop
  | .save endpoint _ => ¬endpoint.Serves method path
  | .remove _ | .clear | .look _ => True

theorem find?_perform_of_some {served : Endpoint} {captures : Table Text}
    (h : registry.find? method path = some (served, captures)) {operation : Operation}
    (hspares : operation.Spares served.identity) :
    (registry.perform operation).1.find? method path = some (served, captures) := by
  cases operation with
  | save endpoint now => exact findSome?_saveIn_of_some now hspares h
  | remove identity => exact findSome?_filter_of_some hspares h
  | clear => cases hspares
  | look identity => exact h

theorem find?_perform_of_none (h : registry.find? method path = none) {operation : Operation}
    (hnothing : operation.BringsNothing method path) :
    (registry.perform operation).1.find? method path = none := by
  rw [find?_eq_none_iff] at h ⊢
  intro endpoint hendpoint
  cases operation with
  | save new now =>
    rcases mem_saveIn hendpoint with hold | ⟨older?, rfl⟩
    · exact h endpoint hold
    · rwa [Endpoint.serves_of_identity (stamped_identity new older? now)]
  | remove identity => exact h endpoint (List.mem_filter.mp hendpoint).1
  | clear => cases hendpoint
  | look identity => exact h endpoint hendpoint

/-! ## Many edits -/

/-- **Routing is stable.** What is found for a request stays exactly what it is through any
operations on other identities, and a request that nothing serves stays so through any operations
that do not bring in an endpoint that serves it. -/
theorem find?_performAll (registry : Registry) (method path : Text) (operations : List Operation) :
    (∀ served captures, registry.find? method path = some (served, captures) →
      (∀ operation ∈ operations, operation.Spares served.identity) →
      (registry.performAll operations).find? method path = some (served, captures)) ∧
    (registry.find? method path = none →
      (∀ operation ∈ operations, operation.BringsNothing method path) →
      (registry.performAll operations).find? method path = none) := by
  induction operations generalizing registry with
  | nil => exact ⟨fun _ _ h _ ↦ h, fun h _ ↦ h⟩
  | cons operation operations ih =>
    obtain ⟨hserved, hunserved⟩ := ih (registry.perform operation).1
    refine ⟨fun served captures h hspares ↦ ?_, fun h hnothing ↦ ?_⟩
    · obtain ⟨hfirst, hrest⟩ := List.forall_mem_cons.mp hspares
      exact hserved served captures (find?_perform_of_some h hfirst) hrest
    · obtain ⟨hfirst, hrest⟩ := List.forall_mem_cons.mp hnothing
      exact hunserved (find?_perform_of_none h hfirst) hrest

/-- An endpoint for any kind of thing comes in behind the one for users, is replaced and goes again:
users are answered by their own endpoint all the while, and nothing answers a shorter path. -/
theorem find?_performAll_users :
    let user : Endpoint := ⟨"/users/:id", .get, .standard, [], [], .null, .null⟩
    let thing : Endpoint := ⟨"/:kind/:id", .any, .standard, [], [], .null, .null⟩
    let captures : Table Text := [("id", "7")]
    let operations : List Operation :=
      [.save thing "t1", .save { thing with response := ⟨404, 0, []⟩ } "t2", .remove thing.identity]
    (performAll ⟨[user]⟩ operations).find? "get" "/users/7" = some (user, captures) ∧
      (performAll ⟨[user]⟩ operations).find? "get" "/users" = none := by
  intro user thing captures operations
  have hne : thing.identity ≠ user.identity := by decide +kernel
  have hnothing : ¬thing.Serves "get" "/users" := by
    rw [← Endpoint.isSome_serve?_iff]
    decide +kernel
  have hspares : ∀ operation ∈ operations, operation.Spares user.identity := by
    simp only [operations, List.forall_mem_cons, List.not_mem_nil, false_imp_iff, implies_true,
      and_true]
    exact ⟨hne, hne, hne⟩
  have hbrings : ∀ operation ∈ operations, operation.BringsNothing "get" "/users" := by
    simp only [operations, List.forall_mem_cons, List.not_mem_nil, false_imp_iff, implies_true,
      and_true]
    exact ⟨hnothing, hnothing, trivial⟩
  exact ⟨(find?_performAll ⟨[user]⟩ "get" "/users/7" operations).1 user captures rfl hspares,
    (find?_performAll ⟨[user]⟩ "get" "/users" operations).2 rfl hbrings⟩

end Registry

end MockApi
