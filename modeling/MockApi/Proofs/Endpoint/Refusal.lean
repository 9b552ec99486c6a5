import MockApi.Endpoint.Definition
import MockApi.Proofs.Json.Sending

/-!
# What is said about a refused payload

A payload that describes no endpoint is refused with a problem. The problem is about one of the
entries that payloads have, and what it repeats is a text that stands in the payload. Reading a
payload fails without a problem only if something in it cannot be written.

So a payload that can be written is refused in words, and these can be sent if all texts of the
payload can.
-/

namespace MockApi

variable {stack : Stack}

open Value (PartOf)

namespace PayloadProblem

/-- The entries that problems are about. -/
def fields : List Text :=
  ["endpointId", "method", "statusCode", "delay", "responseTemplate", "headers", "scenarios",
    "condition"]

/-- The text that a problem repeats. -/
def given? : PayloadProblem → Option Text
  | methodUnsupported given | integerUnreadable _ given => some given
  | _ => none

/-- A problem that a value can have. -/
structure Concerns (problem : PayloadProblem) (value : Value) : Prop where
  /-- The problem is about a known entry. -/
  field : ∀ field ∈ problem.field?, field ∈ fields
  /-- What the problem repeats stands in the value. -/
  given : ∀ given ∈ problem.given?, PartOf (.text given) value

variable {problem : PayloadProblem} {part value : Value}

theorem Concerns.mono (h : problem.Concerns part) (hpart : PartOf part value) :
    problem.Concerns value :=
  ⟨h.field, fun given hgiven ↦ (h.given given hgiven).trans hpart⟩

/-- A problem that repeats nothing does not depend on the value. -/
theorem concerns_of_field (hfield : ∀ field ∈ problem.field?, field ∈ fields)
    (hgiven : problem.given? = none) : problem.Concerns value :=
  ⟨hfield, by simp [hgiven]⟩

end PayloadProblem

/-- An error that a value can lead to. -/
def PayloadError.Concerns [Stack] (value : Value) : PayloadError → Prop
  | .invalid problem => problem.Concerns value
  | .failed _ => ¬value.Writable

theorem PayloadError.Concerns.mono {error : PayloadError} {part value : Value}
    (h : error.Concerns part) (hpart : PartOf part value) : error.Concerns value := by
  cases error with
  | invalid problem => exact PayloadProblem.Concerns.mono h hpart
  | failed failure => exact fun hvalue ↦ h (hvalue.of_partOf hpart)

/-- A step that fails with nothing but errors that a value can lead to. -/
def FailsOn [Stack] {α : Type} (value : Value) (x : Except PayloadError α) : Prop :=
  ∀ error, x = .error error → error.Concerns value

namespace FailsOn

variable {α β : Type} {value : Value}

theorem ok (a : α) : FailsOn value (.ok a) := fun _ h ↦ by cases h

theorem bind {x : Except PayloadError α} {f : α → Except PayloadError β} (hx : FailsOn value x)
    (hf : ∀ a, x = .ok a → FailsOn value (f a)) : FailsOn value (x >>= f) := by
  intro error h
  rcases bind_eq_error_iff.mp h with h | ⟨a, ha, h⟩
  · exact hx error h
  · exact hf a ha error h

theorem invalid {x : Except PayloadProblem α}
    (hx : ∀ problem, x = .error problem → problem.Concerns value) :
    FailsOn value (x.mapError .invalid) := by
  intro error h
  obtain ⟨problem, hproblem, rfl⟩ := mapError_eq_error_iff.mp h
  exact hx problem hproblem

theorem failed {x : Except Failure α} (hx : value.Writable → ∃ a, x = .ok a) :
    FailsOn value (x.mapError .failed) := by
  intro error h
  obtain ⟨failure, hfailure, rfl⟩ := mapError_eq_error_iff.mp h
  intro hwritable
  obtain ⟨a, ha⟩ := hx hwritable
  rw [ha] at hfailure
  cases hfailure

end FailsOn

/-! ## Single entries -/

namespace Payload

variable {payload : Entries} {identity : Nat} {name : Text} {value : Value}
  {problem : PayloadProblem}

theorem partOf_of_get? (h : payload.get? name = some value) :
    PartOf value (.object identity payload) :=
  .entry (Table.mem_of_get?_eq_some h) (.refl value)

theorem partOf_entry (h : entry payload name ≠ .null) :
    PartOf (entry payload name) (.object identity payload) := by
  unfold entry at h ⊢
  cases hget : payload.get? name with
  | none =>
    rw [hget] at h
    exact absurd rfl h
  | some value => exact partOf_of_get? hget

/-- What can be wrong with an integer. -/
theorem integer_eq_error_cases (h : integer name value = .error problem) :
    problem = .integerExpected name ∨
      ∃ t, value = .text t ∧ problem = .integerUnreadable name t := by
  unfold integer at h
  split at h
  · cases h
  · split at h
    · cases h
    · exact .inl (Except.error.inj h).symm
  · split at h
    · cases h
    · exact .inr ⟨_, rfl, (Except.error.inj h).symm⟩
  · exact .inl (Except.error.inj h).symm

/-- What can be wrong with an integer between bounds. -/
theorem boundedInteger_eq_error_cases {default minimum : Nat} {maximum? : Option Nat}
    (h : boundedInteger payload name default minimum maximum? = .error problem) :
    (∃ value, payload.get? name = some value ∧ integer name value = .error problem) ∨
      problem = .tooSmall name minimum ∨ ∃ maximum, problem = .tooLarge name maximum := by
  unfold boundedInteger at h
  split at h
  · cases h
  · rename_i value hvalue
    rcases bind_eq_error_iff.mp h with h | ⟨n, -, h⟩
    · exact .inl ⟨value, hvalue, h⟩
    · by_cases hlow : n < minimum
      · exact .inr (.inl (by simpa [hlow, eq_comm] using h))
      · cases maximum? with
        | none => simp [hlow] at h
        | some maximum =>
          by_cases hhigh : maximum < n
          · exact .inr (.inr ⟨maximum, by simpa [hlow, hhigh, eq_comm] using h⟩)
          · simp [hlow, hhigh] at h

/-- What can be wrong with a method. -/
theorem method_eq_error_cases (h : method value = .error problem) :
    problem = .methodMissing ∨ ∃ t, value = .text t ∧ problem = .methodUnsupported t := by
  unfold method at h
  split at h
  · split at h
    · exact .inl (Except.error.inj h).symm
    · split at h
      · cases h
      · exact .inr ⟨_, rfl, (Except.error.inj h).symm⟩
  · exact .inl (Except.error.inj h).symm

theorem field_of_integer (h : integer name value = .error problem) :
    problem.field? = some name := by
  obtain rfl | ⟨t, -, rfl⟩ := integer_eq_error_cases h <;> rfl

theorem field_of_boundedInteger {default minimum : Nat} {maximum? : Option Nat}
    (h : boundedInteger payload name default minimum maximum? = .error problem) :
    problem.field? = some name := by
  obtain ⟨value, -, hinteger⟩ | rfl | ⟨maximum, rfl⟩ := boundedInteger_eq_error_cases h
  · exact field_of_integer hinteger
  · rfl
  · rfl

theorem field_of_method (h : method value = .error problem) : problem.field? = some "method" := by
  obtain rfl | ⟨t, -, rfl⟩ := method_eq_error_cases h <;> rfl

theorem concerns_of_integer (hname : name ∈ PayloadProblem.fields)
    (h : integer name value = .error problem) : problem.Concerns value := by
  refine ⟨fun field hfield ↦ ?_, fun given hgiven ↦ ?_⟩
  · rw [field_of_integer h] at hfield
    exact Option.some.inj hfield ▸ hname
  · obtain rfl | ⟨t, rfl, rfl⟩ := integer_eq_error_cases h
    · cases hgiven
    · exact Option.some.inj hgiven ▸ PartOf.refl (.text t)

theorem concerns_of_boundedInteger {default minimum : Nat} {maximum? : Option Nat}
    (hname : name ∈ PayloadProblem.fields)
    (h : boundedInteger payload name default minimum maximum? = .error problem) :
    problem.Concerns (.object identity payload) := by
  have hfield : ∀ field ∈ problem.field?, field ∈ PayloadProblem.fields := fun field hfield ↦ by
    rw [field_of_boundedInteger h] at hfield
    exact Option.some.inj hfield ▸ hname
  obtain ⟨value, hvalue, hinteger⟩ | rfl | ⟨maximum, rfl⟩ := boundedInteger_eq_error_cases h
  · exact (concerns_of_integer hname hinteger).mono (partOf_of_get? hvalue)
  · exact PayloadProblem.concerns_of_field hfield rfl
  · exact PayloadProblem.concerns_of_field hfield rfl

theorem concerns_of_status {default : Nat} (h : status payload default = .error problem) :
    problem.Concerns (.object identity payload) :=
  concerns_of_boundedInteger (by decide) h

theorem concerns_of_delay {default : Nat} (h : delay payload default = .error problem) :
    problem.Concerns (.object identity payload) :=
  concerns_of_boundedInteger (by decide) h

theorem failsOn_template (default : Text) :
    FailsOn (.object identity payload) (template payload default) := by
  unfold template
  split
  · exact .ok _
  · exact .ok _
  · exact .ok _
  · rename_i hgiven _
    refine .failed fun hwritable ↦ Value.exists_toJson_eq_ok_iff.mpr ?_
    exact hwritable.of_partOf (partOf_entry hgiven)
  · intro error h
    obtain rfl := Except.error.inj h
    exact PayloadProblem.concerns_of_field (by decide) rfl

theorem concerns_of_method (h : method value = .error problem) : problem.Concerns value := by
  have hfield : ∀ field ∈ problem.field?, field ∈ PayloadProblem.fields := fun field hfield ↦ by
    rw [field_of_method h] at hfield
    exact Option.some.inj hfield ▸ by decide
  obtain rfl | ⟨t, rfl, rfl⟩ := method_eq_error_cases h
  · exact PayloadProblem.concerns_of_field hfield rfl
  · exact ⟨hfield, fun given hgiven ↦ Option.some.inj hgiven ▸ PartOf.refl (.text t)⟩

end Payload

/-! ## Scenarios -/

namespace Scenario

variable {payload : Entries} {identity : Nat} {index : Int} {default : Response}
  {value : Value} {error : PayloadError}

theorem concerns_of_conditionOfPayload {problem : PayloadProblem}
    (h : conditionOfPayload index payload = .error problem) : problem.Concerns value := by
  unfold conditionOfPayload at h
  split at h
  · cases h
  · split at h
    · cases h
    · obtain rfl := Except.error.inj h
      refine PayloadProblem.concerns_of_field ?_ rfl
      simp [PayloadProblem.field?, PayloadProblem.fields]

/-- A name that can be written is shown in full. -/
theorem exists_nameOfPayload (h : (Value.object identity payload).Writable) :
    ∃ t, nameOfPayload index payload = .ok t := by
  unfold nameOfPayload
  dsimp only
  split
  · exact ⟨_, rfl⟩
  · rename_i hgiven
    refine Value.exists_shown_eq_ok (h.of_partOf (Payload.partOf_entry fun hnull ↦ ?_))
    exact hgiven (by rw [hnull]; rfl)

theorem failsOn_ofPayload (index : Int) (default : Response) (value : Value) :
    FailsOn value (ofPayload index default value) := by
  cases value with
  | object identity payload =>
    refine .bind (.invalid fun _ ↦ concerns_of_conditionOfPayload) fun condition _ ↦ ?_
    refine .bind (.failed exists_nameOfPayload) fun name _ ↦ ?_
    refine .bind (.invalid fun _ ↦ Payload.concerns_of_status) fun status _ ↦ ?_
    refine .bind (.invalid fun _ ↦ Payload.concerns_of_delay) fun delay _ ↦ ?_
    exact .bind (Payload.failsOn_template default.template) fun template _ ↦ .ok _
  | _ =>
    intro error h
    obtain rfl := Except.error.inj h
    refine PayloadProblem.concerns_of_field ?_ rfl
    simp [PayloadProblem.field?, PayloadProblem.fields]

theorem failsOn_ofPayloads {payloads : List Value} (index : Nat)
    (h : ∀ payload ∈ payloads, PartOf payload value) :
    FailsOn value (ofPayloads default index payloads) := by
  induction payloads generalizing index with
  | nil => exact .ok _
  | cons payload payloads ih =>
    obtain ⟨hpayload, hpayloads⟩ := List.forall_mem_cons.mp h
    refine .bind ?_ fun scenario _ ↦ .bind (ih (index + 1) hpayloads) fun scenarios _ ↦ .ok _
    exact fun error herror ↦ (failsOn_ofPayload index default payload error herror).mono hpayload

end Scenario

/-! ## Endpoints -/

namespace Endpoint

variable {payload : Entries} {identity : Nat} {value : Value} {problem : PayloadProblem}
  {error : PayloadError}

theorem concerns_of_pathOfPayload (h : pathOfPayload payload = .error problem) :
    problem.Concerns value := by
  have hproblem : problem = .pathMissing := by
    unfold pathOfPayload at h
    split at h
    · split at h
      · exact (Except.error.inj h).symm
      · cases h
    · exact (Except.error.inj h).symm
  rw [hproblem]
  exact PayloadProblem.concerns_of_field (by decide) rfl

theorem concerns_of_rawHeaders (h : rawHeaders payload = .error problem) :
    problem.Concerns value := by
  unfold rawHeaders at h
  split at h
  · cases h
  · split at h
    · cases h
    · obtain rfl := Except.error.inj h
      exact PayloadProblem.concerns_of_field (by decide) rfl

theorem concerns_of_rawScenarios (h : rawScenarios payload = .error problem) :
    problem.Concerns value := by
  unfold rawScenarios at h
  split at h
  · cases h
  · split at h
    · cases h
    · obtain rfl := Except.error.inj h
      exact PayloadProblem.concerns_of_field (by decide) rfl

theorem concerns_of_methodOfPayload (h : methodOfPayload payload = .error problem) :
    problem.Concerns (.object identity payload) := by
  unfold methodOfPayload at h
  split at h
  · cases h
  · rename_i value hvalue
    exact (Payload.concerns_of_method h).mono (Payload.partOf_of_get? hvalue)

/-- What is read as a header is part of the payload. -/
theorem partOf_of_rawHeaders {headers : Entries} {header : Text × Value}
    (h : rawHeaders payload = .ok headers) (hheader : header ∈ headers) :
    PartOf header.2 (.object identity payload) := by
  unfold rawHeaders at h
  split at h
  · rename_i hentry
    obtain rfl := Except.ok.inj h
    have hpart : PartOf (Payload.entry payload "headers") (.object identity payload) :=
      Payload.partOf_entry (by rw [hentry]; nofun)
    rw [hentry] at hpart
    exact (PartOf.entry hheader (.refl _)).trans hpart
  · split at h
    · obtain rfl := Except.ok.inj h
      cases hheader
    · cases h

/-- What is read as a scenario is part of the payload. -/
theorem partOf_of_rawScenarios {items : List Value} {item : Value}
    (h : rawScenarios payload = .ok items) (hitem : item ∈ items) :
    PartOf item (.object identity payload) := by
  unfold rawScenarios at h
  split at h
  · rename_i hentry
    obtain rfl := Except.ok.inj h
    have hpart : PartOf (Payload.entry payload "scenarios") (.object identity payload) :=
      Payload.partOf_entry (by rw [hentry]; nofun)
    rw [hentry] at hpart
    exact (PartOf.item hitem (.refl _)).trans hpart
  · split at h
    · obtain rfl := Except.ok.inj h
      cases hitem
    · cases h

/-- **What reading a payload can fail with.** A problem of the payload, or a failure that comes from
a value in it that cannot be written. -/
theorem failsOn_ofPayload (value : Value) : FailsOn value (ofPayload value) := by
  cases value with
  | object identity payload =>
    -- one line per step of the reader, in its order
    refine .bind (.invalid fun _ ↦ concerns_of_pathOfPayload) fun path _ ↦ ?_
    refine .bind (.invalid fun _ ↦ concerns_of_rawHeaders) fun raw hraw ↦ ?_
    refine .bind (.invalid fun _ ↦ concerns_of_methodOfPayload) fun method _ ↦ ?_
    refine .bind (.invalid fun _ ↦ Payload.concerns_of_status) fun status _ ↦ ?_
    refine .bind (.invalid fun _ ↦ Payload.concerns_of_delay) fun delay _ ↦ ?_
    refine .bind (Payload.failsOn_template _) fun template _ ↦ ?_
    refine .bind ?_ fun headers _ ↦ ?_
    · intro error h
      obtain ⟨header, hheader, h⟩ := exists_of_mapM_eq_error h
      have hpart : PartOf header.2 (.object identity payload) :=
        partOf_of_rawHeaders (mapError_eq_ok_iff.mp hraw) hheader
      refine FailsOn.bind (.failed fun hwritable ↦ ?_) (fun _ _ ↦ .ok _) error h
      exact Value.exists_shown_eq_ok (hwritable.of_partOf hpart)
    refine .bind (.invalid fun _ ↦ concerns_of_rawScenarios) fun items hitems ↦ ?_
    refine .bind (Scenario.failsOn_ofPayloads 0 fun item hitem ↦ ?_) fun scenarios _ ↦ .ok _
    exact partOf_of_rawScenarios (mapError_eq_ok_iff.mp hitems) hitem
  | _ =>
    intro error h
    obtain rfl := Except.error.inj h
    exact PayloadProblem.concerns_of_field (by simp [PayloadProblem.field?]) rfl

end Endpoint

/-! ## Words -/

namespace PayloadProblem

variable {problem : PayloadProblem} {value : Value}

theorem Concerns.isEncodable_field (h : problem.Concerns value) :
    ∀ field ∈ problem.field?, field.IsEncodable := by
  have hfields : ∀ field ∈ fields, field.IsEncodable := by decide
  exact fun field hfield ↦ hfields field (h.field field hfield)

/-- The words on a problem of a value can be sent if the texts of the value can. -/
theorem Concerns.isEncodable_message (h : problem.Concerns value)
    (htexts : ∀ t, PartOf (.text t) value → t.IsEncodable) : problem.message.IsEncodable := by
  have hfield := h.isEncodable_field
  have hgiven (t : Text) (ht : t ∈ problem.given?) : t.IsEncodable := htexts t (h.given t ht)
  cases problem with
  | methodUnsupported given =>
    have hmethods : (Text.join ", " (Method.allowed.map Method.name)).IsEncodable := by decide
    simp [message, hgiven given rfl, hmethods, Method.name]
  | integerExpected entry => simp [message, hfield entry rfl]
  | integerUnreadable entry given => simp [message, hfield entry rfl, hgiven given rfl]
  | tooSmall entry minimum => simp [message, hfield entry rfl]
  | tooLarge entry maximum => simp [message, hfield entry rfl]
  | _ => simp [message]

end PayloadProblem

end MockApi
