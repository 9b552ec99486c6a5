import Mathlib.Data.Finset.Card
import MockApi.Proofs.Route.History

/-!
# Registering several endpoints

Endpoints that are registered one after another may repeat identities, and some of them may be
registered already. What becomes of a registered endpoint depends on nothing but itself and those
endpoints of the batch that have its identity; the ones with new identities come in behind. So the
effect of a batch is taken apart identity by identity.

Registering the same endpoints a second time goes through older versions of an endpoint again, but
the last version is the same, and the time of creation has been settled the first time.
-/

namespace MockApi

/-- What an endpoint is apart from the time of its last update. -/
def Endpoint.lasting (endpoint : Endpoint) :
    (Text × Method × Response × Table Text × List Scenario) × Value :=
  (endpoint.content, endpoint.createdAt)

namespace Registry

/-- Endpoints to be registered one after another, each with the time of its registration. -/
abbrev Batch := List (Endpoint × Text)

namespace Batch

/-- The identities of a batch in order, repeated ones included. -/
def identities (batch : Batch) : List Text := batch.map (·.1.identity)

/-- The part of a batch that has an identity. -/
def having (batch : Batch) (identity : Text) : Batch := batch.filter (·.1.identity = identity)

/-- The part of a batch that has other identities. -/
def lacking (batch : Batch) (identity : Text) : Batch := batch.filter (·.1.identity ≠ identity)

variable {entry : Endpoint × Text} {identity : Text}

theorem having_cons_of_eq (h : entry.1.identity = identity) (batch : Batch) :
    having (entry :: batch) identity = entry :: having batch identity :=
  List.filter_cons_of_pos (by simpa using h)

theorem having_cons_of_ne (h : entry.1.identity ≠ identity) (batch : Batch) :
    having (entry :: batch) identity = having batch identity :=
  List.filter_cons_of_neg (by simpa using h)

theorem lacking_cons_of_eq (h : entry.1.identity = identity) (batch : Batch) :
    lacking (entry :: batch) identity = lacking batch identity :=
  List.filter_cons_of_neg (by simpa using h)

theorem lacking_cons_of_ne (h : entry.1.identity ≠ identity) (batch : Batch) :
    lacking (entry :: batch) identity = entry :: lacking batch identity :=
  List.filter_cons_of_pos (by simpa using h)

/-- Which endpoints are in a part of a batch does not depend on the times. -/
theorem map_fst_having (batch : Batch) (identity : Text) :
    (having batch identity).map Prod.fst
      = (batch.map Prod.fst).filter (·.identity = identity) := by
  rw [having, List.filter_map]
  rfl

theorem map_fst_lacking (batch : Batch) (identity : Text) :
    (lacking batch identity).map Prod.fst
      = (batch.map Prod.fst).filter (·.identity ≠ identity) := by
  rw [lacking, List.filter_map]
  rfl

end Batch

/-- The registry with the endpoints of a batch registered. -/
def saveAll (registry : Registry) (batch : Batch) : Registry :=
  registry.performAll (batch.map fun entry ↦ .save entry.1 entry.2)

/-- What stands under an identity after all of a batch was registered there. -/
def renewed (older? : Option Endpoint) (batch : Batch) : Option Endpoint :=
  batch.foldl (fun older? entry ↦ some (stamped entry.1 older? entry.2)) older?

variable {registry : Registry} {endpoint : Endpoint} {now : Text} {batch : Batch}

@[simp] theorem saveAll_nil (registry : Registry) : registry.saveAll [] = registry := rfl

theorem saveAll_cons (registry : Registry) (entry : Endpoint × Text) (batch : Batch) :
    registry.saveAll (entry :: batch) = (registry.upsert entry.1 entry.2).saveAll batch := rfl

@[simp] theorem renewed_nil (older? : Option Endpoint) : renewed older? [] = older? := rfl

theorem renewed_cons (older? : Option Endpoint) (entry : Endpoint × Text) (batch : Batch) :
    renewed older? (entry :: batch) = renewed (some (stamped entry.1 older? entry.2)) batch := rfl

/-! ## New identities -/

/-- An endpoint with a new identity comes in behind. -/
theorem saveIn_of_notMem {endpoints : List Endpoint}
    (h : endpoint.identity ∉ endpoints.map Endpoint.identity) :
    (saveIn endpoint now endpoints).1 = endpoints ++ [stamped endpoint none now] := by
  induction endpoints with
  | nil => rfl
  | cons older rest ih =>
    rw [List.map_cons, List.mem_cons, not_or] at h
    rw [saveIn, if_neg (Ne.symm h.1)]
    dsimp only
    rw [ih h.2, List.cons_append]

/-- Endpoints with new identities come in one behind the other. -/
theorem saveAll_of_nodup (h : (registry.identities ++ batch.identities).Nodup) :
    registry.saveAll batch
      = ⟨registry.endpoints ++ batch.map fun entry ↦ stamped entry.1 none entry.2⟩ := by
  induction batch generalizing registry with
  | nil => simp
  | cons entry batch ih =>
    have hnew : entry.1.identity ∉ registry.identities := fun hmem ↦
      List.disjoint_of_nodup_append h hmem List.mem_cons_self
    have hupsert : registry.upsert entry.1 entry.2
        = ⟨registry.endpoints ++ [stamped entry.1 none entry.2]⟩ :=
      congrArg Registry.mk (saveIn_of_notMem hnew)
    have hrest :
        ((registry.upsert entry.1 entry.2).identities ++ Batch.identities batch).Nodup := by
      rw [identities_upsert, if_neg hnew, List.append_assoc]
      exact h
    rw [saveAll_cons, ih hrest, hupsert, List.map_cons, List.append_assoc, List.singleton_append]

/-! ## One identity and the others -/

/-- **A batch goes identity by identity.** What becomes of the first endpoint and what becomes of
the others have nothing to do with each other. -/
theorem saveAll_endpoints_cons (older : Endpoint) (rest : List Endpoint) (batch : Batch) :
    (saveAll ⟨older :: rest⟩ batch).endpoints
      = (renewed (some older) (batch.having older.identity)).toList
        ++ (saveAll ⟨rest⟩ (batch.lacking older.identity)).endpoints := by
  induction batch generalizing older rest with
  | nil => rfl
  | cons entry batch ih =>
    by_cases h : entry.1.identity = older.identity
    · have hupsert : upsert ⟨older :: rest⟩ entry.1 entry.2
          = ⟨stamped entry.1 (some older) entry.2 :: rest⟩ := by
        rw [upsert, save, saveIn, if_pos h.symm]
      have hidentity : (stamped entry.1 (some older) entry.2).identity = older.identity := h
      rw [saveAll_cons, hupsert, ih, hidentity, Batch.having_cons_of_eq h,
        Batch.lacking_cons_of_eq h, renewed_cons]
    · have hupsert : upsert ⟨older :: rest⟩ entry.1 entry.2
          = ⟨older :: (upsert ⟨rest⟩ entry.1 entry.2).endpoints⟩ := by
        rw [upsert, save, saveIn, if_neg (Ne.symm h)]
        rfl
      rw [saveAll_cons, hupsert, ih, Batch.having_cons_of_ne h, Batch.lacking_cons_of_ne h,
        saveAll_cons]

/-- What a batch leaves under an identity. -/
theorem get?_saveAll (registry : Registry) (batch : Batch) (identity : Text) :
    (registry.saveAll batch).get? identity
      = renewed (registry.get? identity) (batch.having identity) := by
  induction batch generalizing registry with
  | nil => rfl
  | cons entry batch ih =>
    rw [saveAll_cons, ih, get?_upsert]
    by_cases h : entry.1.identity = identity
    · rw [if_pos h, h, Batch.having_cons_of_eq h, renewed_cons]
    · rw [if_neg h, Batch.having_cons_of_ne h]

/-! ## The number of endpoints -/

/-- Registering makes a registry larger if the identity is new. -/
theorem size_upsert (registry : Registry) (endpoint : Endpoint) (now : Text) :
    (registry.upsert endpoint now).size
      = registry.size + if endpoint.identity ∈ registry.identities then 0 else 1 := by
  have hsize (registry : Registry) : registry.size = registry.identities.length :=
    (List.length_map _).symm
  rw [hsize, hsize, identities_upsert]
  split
  · rfl
  · exact List.length_append

/-- Registering tells whether the registry is larger. -/
theorem size_save (registry : Registry) (endpoint : Endpoint) (now : Text) :
    (registry.save endpoint now).1.size
      = registry.size + (registry.save endpoint now).2.2.toNat := by
  rw [save_eq, size_upsert]
  by_cases h : endpoint.identity ∈ registry.identities
  · rw [if_pos h, contains_iff.mpr h]
    rfl
  · rw [if_neg h, Bool.eq_false_iff.mpr (mt contains_iff.mp h)]
    rfl

/-- A batch makes a registry larger by the identities that are new, each counted once. -/
theorem size_saveAll (registry : Registry) (batch : Batch) :
    (registry.saveAll batch).size = registry.size
      + (batch.identities.toFinset \ registry.identities.toFinset).card := by
  induction batch generalizing registry with
  | nil => simp [Batch.identities]
  | cons entry batch ih =>
    have hcons : (Batch.identities (entry :: batch)).toFinset
        = insert entry.1.identity (Batch.identities batch).toFinset := List.toFinset_cons
    rw [saveAll_cons, ih, size_upsert, identities_upsert, hcons]
    by_cases h : entry.1.identity ∈ registry.identities
    · rw [if_pos h, if_pos h, Finset.insert_sdiff_of_mem _ (List.mem_toFinset.mpr h), Nat.add_zero]
    · have hnew : insert entry.1.identity (Batch.identities batch).toFinset
            \ registry.identities.toFinset
          = insert entry.1.identity ((Batch.identities batch).toFinset
            \ (registry.identities ++ [entry.1.identity]).toFinset) := by
        ext identity
        simp only [Finset.mem_sdiff, Finset.mem_insert, List.mem_toFinset, List.mem_append,
          List.mem_singleton]
        by_cases hidentity : identity = entry.1.identity
        · simp [hidentity, h]
        · simp [hidentity]
      rw [if_neg h, if_neg h, hnew, Finset.card_insert_of_notMem (by simp), Nat.add_assoc,
        Nat.add_comm 1]

/-! ## The last version -/

/-- The last endpoint of a batch is the one that stays. -/
theorem content_renewed (older? : Option Endpoint) (batch : Batch) :
    (renewed older? batch).map Endpoint.content
      = ((batch.map Prod.fst).getLast?.or older?).map Endpoint.content := by
  induction batch using List.reverseRecOn with
  | nil => rfl
  | append_singleton batch entry _ =>
    have hlast : renewed older? (batch ++ [entry])
        = some (stamped entry.1 (renewed older? batch) entry.2) := List.foldl_append
    rw [hlast, List.map_append, List.map_singleton, List.getLast?_concat]
    rfl

/-- The time of creation stays once it is given. -/
theorem createdAt_renewed {older : Endpoint} (h : older.createdAt.isVacant = false)
    (batch : Batch) :
    (renewed (some older) batch).map Endpoint.createdAt = some older.createdAt := by
  induction batch generalizing older with
  | nil => rfl
  | cons entry batch ih =>
    have hkept : (stamped entry.1 (some older) entry.2).createdAt = older.createdAt :=
      if_neg (by simp [h])
    rw [renewed_cons, ih (by rw [hkept, h]), hkept]

theorem isVacant_firstGiven {values : List Value} {last : Value} (h : last.isVacant = false) :
    (firstGiven values last).isVacant = false := by
  induction values with
  | nil => exact h
  | cons value values ih =>
    unfold firstGiven
    split
    · exact ih
    · rename_i hgiven
      exact Bool.not_eq_true _ ▸ hgiven

/-- What is stored has a time of creation. -/
theorem isVacant_createdAt_stamped (endpoint : Endpoint) (older? : Option Endpoint)
    (h : now ≠ []) : (stamped endpoint older? now).createdAt.isVacant = false :=
  isVacant_firstGiven (List.isEmpty_eq_false_iff.mpr h)

/-! ## The same endpoints again -/

/-- Under one identity, the same endpoints leave the same once more. -/
theorem lasting_renewed_renewed (older? : Option Endpoint) {batch batch' : Batch}
    (hsame : batch'.map Prod.fst = batch.map Prod.fst) (hnow : ∀ entry ∈ batch, entry.2 ≠ []) :
    (renewed (renewed older? batch) batch').map Endpoint.lasting
      = (renewed older? batch).map Endpoint.lasting := by
  have hcontent : (renewed (renewed older? batch) batch').map Endpoint.content
      = (renewed older? batch).map Endpoint.content := by
    rw [content_renewed, hsame, content_renewed older? batch]
    cases hlast : (batch.map Prod.fst).getLast? with
    | some last => rfl
    | none => rw [Option.none_or, content_renewed, hlast]
  have hcreated : (renewed (renewed older? batch) batch').map Endpoint.createdAt
      = (renewed older? batch).map Endpoint.createdAt := by
    cases batch with
    | nil => rw [List.map_eq_nil_iff.mp hsame, renewed_nil]
    | cons entry batch =>
      -- the first endpoint of the batch settles the time of creation
      have hgiven := isVacant_createdAt_stamped entry.1 older? (hnow entry List.mem_cons_self)
      obtain ⟨stored, hstored, hkept⟩ := Option.map_eq_some_iff.mp (createdAt_renewed hgiven batch)
      rw [renewed_cons, hstored, createdAt_renewed (by rw [hkept, hgiven])]
      rfl
  cases hfirst : renewed older? batch with
  | none =>
    rw [hfirst] at hcontent
    rw [Option.map_eq_none_iff.mp hcontent, Option.map_none]
  | some stored =>
    rw [hfirst] at hcontent hcreated
    obtain ⟨again, hagain, hcontent⟩ := Option.map_eq_some_iff.mp hcontent
    rw [hagain] at hcreated ⊢
    exact congrArg some (Prod.ext hcontent (Option.some.inj hcreated))

/-- A batch leaves an identity where it registers something. -/
theorem exists_renewed_eq_some {older? : Option Endpoint} {batch : Batch} {identity : Text}
    (hsome : older?.isSome = true ∨ batch ≠ [])
    (holder : ∀ older ∈ older?, older.identity = identity)
    (hbatch : ∀ entry ∈ batch, entry.1.identity = identity) :
    ∃ stored, renewed older? batch = some stored ∧ stored.identity = identity := by
  induction batch generalizing older? with
  | nil =>
    obtain ⟨older, rfl⟩ := Option.isSome_iff_exists.mp (hsome.resolve_right (· rfl))
    exact ⟨older, rfl, holder older rfl⟩
  | cons entry batch ih =>
    obtain ⟨hentry, hbatch⟩ := List.forall_mem_cons.mp hbatch
    exact ih (.inl rfl) (fun older holder ↦ Option.some.inj holder ▸ hentry) hbatch

/-- The step by one identity: once more, the first endpoint and the others stay what they are. -/
theorem lasting_saveAll_step {older? : Option Endpoint} {rest : List Endpoint}
    {batch batch' : Batch} {identity : Text}
    (hcut : registry.endpoints = (renewed older? (batch.having identity)).toList
      ++ (saveAll ⟨rest⟩ (batch.lacking identity)).endpoints)
    (hstored : ∃ stored, renewed older? (batch.having identity) = some stored ∧
      stored.identity = identity)
    (hsame : batch'.map Prod.fst = batch.map Prod.fst) (hnow : ∀ entry ∈ batch, entry.2 ≠ [])
    (hrest : ((saveAll ⟨rest⟩ (batch.lacking identity)).saveAll
        (batch'.lacking identity)).endpoints.map Endpoint.lasting
      = (saveAll ⟨rest⟩ (batch.lacking identity)).endpoints.map Endpoint.lasting) :
    (registry.saveAll batch').endpoints.map Endpoint.lasting
      = registry.endpoints.map Endpoint.lasting := by
  obtain ⟨stored, hstored, rfl⟩ := hstored
  have hregistry : registry
      = ⟨stored :: (saveAll ⟨rest⟩ (batch.lacking stored.identity)).endpoints⟩ := by
    rw [hstored] at hcut
    exact congrArg Registry.mk hcut
  have hhead : (renewed (some stored) (batch'.having stored.identity)).map Endpoint.lasting
      = some stored.lasting := by
    have hpart : (batch'.having stored.identity).map Prod.fst
        = (batch.having stored.identity).map Prod.fst := by
      rw [Batch.map_fst_having, Batch.map_fst_having, hsame]
    rw [← hstored, lasting_renewed_renewed older? hpart fun entry hentry ↦
      hnow entry (List.mem_of_mem_filter hentry), hstored, Option.map_some]
  rw [hregistry, saveAll_endpoints_cons, List.map_append, hrest, ← Option.toList_map, hhead]
  rfl

theorem Batch.map_fst_lacking_eq {batch batch' : Batch}
    (hsame : batch'.map Prod.fst = batch.map Prod.fst) (identity : Text) :
    (batch'.lacking identity).map Prod.fst = (batch.lacking identity).map Prod.fst := by
  rw [map_fst_lacking, map_fst_lacking, hsame]

theorem lasting_saveAll_saveAll_empty {batch batch' : Batch}
    (hsame : batch'.map Prod.fst = batch.map Prod.fst) (hnow : ∀ entry ∈ batch, entry.2 ≠ []) :
    ((saveAll ⟨[]⟩ batch).saveAll batch').endpoints.map Endpoint.lasting
      = (saveAll ⟨[]⟩ batch).endpoints.map Endpoint.lasting := by
  induction hlength : batch.length using Nat.strongRecOn generalizing batch batch' with
  | ind n ih =>
    cases batch with
    | nil => rw [List.map_eq_nil_iff.mp hsame, saveAll_nil]
    | cons entry batch =>
      have hcut : (saveAll ⟨[]⟩ (entry :: batch)).endpoints
          = (renewed none (Batch.having (entry :: batch) entry.1.identity)).toList
            ++ (saveAll ⟨[]⟩ (Batch.lacking (entry :: batch) entry.1.identity)).endpoints := by
        rw [Batch.having_cons_of_eq rfl, Batch.lacking_cons_of_eq rfl]
        exact saveAll_endpoints_cons (stamped entry.1 none entry.2) [] batch
      have hshorter : (Batch.lacking (entry :: batch) entry.1.identity).length < n := by
        rw [Batch.lacking_cons_of_eq rfl, ← hlength]
        exact Nat.lt_succ_of_le (List.length_filter_le ..)
      refine lasting_saveAll_step hcut (exists_renewed_eq_some (.inr ?_) nofun ?_) hsame hnow
        (ih _ hshorter (Batch.map_fst_lacking_eq hsame _)
          (fun entry hentry ↦ hnow entry (List.mem_of_mem_filter hentry)) rfl)
      · rw [Batch.having_cons_of_eq rfl]
        exact List.cons_ne_nil _ _
      · exact fun entry hentry ↦ by simpa using (List.mem_filter.mp hentry).2

/-- **The same endpoints again.** Registering the endpoints of a batch a second time changes nothing
but the times of the last updates. -/
theorem lasting_saveAll_saveAll (endpoints : List Endpoint) {batch batch' : Batch}
    (hsame : batch'.map Prod.fst = batch.map Prod.fst) (hnow : ∀ entry ∈ batch, entry.2 ≠ []) :
    ((saveAll ⟨endpoints⟩ batch).saveAll batch').endpoints.map Endpoint.lasting
      = (saveAll ⟨endpoints⟩ batch).endpoints.map Endpoint.lasting := by
  induction endpoints generalizing batch batch' with
  | nil => exact lasting_saveAll_saveAll_empty hsame hnow
  | cons older rest ih =>
    refine lasting_saveAll_step (saveAll_endpoints_cons older rest batch)
      (exists_renewed_eq_some (.inl rfl) (fun _ h ↦ by rw [← Option.some.inj h]) ?_) hsame hnow
      (ih (Batch.map_fst_lacking_eq hsame _) fun entry hentry ↦
        hnow entry (List.mem_of_mem_filter hentry))
    exact fun entry hentry ↦ by simpa using (List.mem_filter.mp hentry).2

end Registry

end MockApi
