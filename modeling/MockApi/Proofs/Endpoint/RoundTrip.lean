import MockApi.Endpoint.Definition
import MockApi.Proofs.Number.Layout
import MockApi.Proofs.Outcome

/-!
# Endpoints and their payloads

A payload is read with leniency, and what comes out of it is in a fixed form: a path with a slash in
front and no white space at its ends, statuses within their bounds, and scenarios with names. The
payload of an endpoint in this form is read as the same endpoint again, whatever its other fields
hold, so one reading settles the form for good.
-/

namespace MockApi

variable {stack : Stack}

/-! ## Values shown in full -/

theorem Value.quotedWithin_ne_nil {levels : Nat} {value : Value} {t : Text}
    (hcontainer : value.isContainer = true) (h : value.quotedWithin levels = .ok t) : t ≠ [] := by
  cases value with
  | list identity items =>
    cases levels with
    | zero => cases h
    | succ levels =>
      obtain ⟨ts, -, h⟩ := bind_eq_ok_iff.mp h
      exact Except.ok.inj h ▸ List.cons_ne_nil _ _
  | object identity entries =>
    cases levels with
    | zero => cases h
    | succ levels =>
      obtain ⟨ts, -, h⟩ := bind_eq_ok_iff.mp h
      exact Except.ok.inj h ▸ List.cons_ne_nil _ _
  | _ => cases hcontainer

/-- Something that is given is shown as something. -/
theorem Value.shown_ne_nil {value : Value} {t : Text} (hgiven : value.isVacant = false)
    (h : value.shown = .ok t) : t ≠ [] := by
  cases value with
  | null | undefined => cases hgiven
  | bool b =>
    simp only [shown, quotedWithin] at h
    obtain rfl := Except.ok.inj h
    cases b <;> decide
  | number x =>
    simp only [shown, quotedWithin] at h
    exact Number.ne_nil_of_write_literal h
  | text u =>
    obtain rfl := Except.ok.inj h
    exact List.isEmpty_eq_false_iff.mp hgiven
  | list | object => exact quotedWithin_ne_nil rfl h

/-! ## The fixed form -/

/-- A status within the bounds. -/
def IsStatus (n : Nat) : Prop := 100 ≤ n ∧ n ≤ 599

instance (n : Nat) : Decidable (IsStatus n) := inferInstanceAs (Decidable (_ ∧ _))

/-- A scenario as it comes out of a payload. -/
structure Scenario.WellFormed (scenario : Scenario) : Prop where
  /-- The scenario has a name. -/
  named : scenario.name ≠ []
  /-- The status is within the bounds. -/
  status : IsStatus scenario.status

/-- An endpoint as it comes out of a payload. -/
structure Endpoint.WellFormed (endpoint : Endpoint) : Prop where
  /-- The path starts with a slash. -/
  slash : endpoint.path.head? = some '/'.toNat
  /-- The path has no white space at its ends. -/
  trimmed : Text.trim endpoint.path = endpoint.path
  /-- The status is within the bounds. -/
  status : IsStatus endpoint.response.status
  /-- The scenarios are in their fixed form. -/
  scenarios : ∀ scenario ∈ endpoint.scenarios, scenario.WellFormed

/-! ## What comes out of payloads -/

namespace Payload

variable {payload : Entries} {name : Text} {default n : Nat}

/-- When an integer between bounds is read, and as what. -/
theorem boundedInteger_eq_ok_iff {minimum : Nat} {maximum? : Option Nat} :
    boundedInteger payload name default minimum maximum? = .ok n ↔
      (payload.get? name = none ∧ default = n) ∨
      ∃ value, payload.get? name = some value ∧ integer name value = .ok n ∧ minimum ≤ n ∧
        ∀ maximum ∈ maximum?, n ≤ maximum := by
  unfold boundedInteger
  cases hvalue : payload.get? name with
  | none => simp
  | some value =>
    dsimp only
    cases hinteger : integer name value with
    | error problem => simp [hinteger]
    | ok m =>
      by_cases hlow : m < minimum
      · simp [hinteger, hlow]
        omega
      · cases maximum? with
        | none =>
          simp [hinteger, hlow]
          omega
        | some maximum =>
          by_cases hhigh : maximum < m
          · simp [hinteger, hlow, hhigh]
            omega
          · simp [hinteger, hlow, hhigh]
            omega

theorem isStatus_of_status (hdefault : IsStatus default) (h : status payload default = .ok n) :
    IsStatus n := by
  rcases boundedInteger_eq_ok_iff.mp h with ⟨-, rfl⟩ | ⟨value, -, -, hlow, hhigh⟩
  · exact hdefault
  · exact ⟨hlow, hhigh 599 rfl⟩

/-- A status is read as it is written. -/
theorem status_int (hvalue : payload.get? "statusCode" = some (.int n)) (h : IsStatus n) :
    status payload default = .ok n :=
  boundedInteger_eq_ok_iff.mpr (.inr ⟨.int n, hvalue, rfl, h.1, fun _ hmaximum ↦
    Option.some.inj hmaximum ▸ h.2⟩)

/-- A delay is read as it is written. -/
theorem delay_int (hvalue : payload.get? "delay" = some (.int n)) :
    delay payload default = .ok n :=
  boundedInteger_eq_ok_iff.mpr (.inr ⟨.int n, hvalue, rfl, Nat.zero_le n, fun _ hmaximum ↦ by
    cases hmaximum⟩)

/-- A template is read as it is written. -/
theorem template_text {t default : Text}
    (hvalue : payload.get? "responseTemplate" = some (.text t)) :
    template payload default = .ok t := by
  rw [template, entry, hvalue]
  rfl

end Payload

namespace Scenario

variable {scenario : Scenario} {index : Int} {default : Response}

theorem wellFormed_of_ofPayload {payload : Value} (hdefault : IsStatus default.status)
    (h : ofPayload index default payload = .ok scenario) : scenario.WellFormed := by
  cases payload with
  | object identity payload =>
    unfold ofPayload at h
    obtain ⟨condition, -, h⟩ := bind_eq_ok_iff.mp h
    obtain ⟨name, hname, h⟩ := bind_eq_ok_iff.mp h
    obtain ⟨status, hstatus, h⟩ := bind_eq_ok_iff.mp h
    obtain ⟨delay, -, h⟩ := bind_eq_ok_iff.mp h
    obtain ⟨template, -, h⟩ := bind_eq_ok_iff.mp h
    obtain rfl := Except.ok.inj h
    refine ⟨?_, Payload.isStatus_of_status hdefault (mapError_eq_ok_iff.mp hstatus)⟩
    replace hname : nameOfPayload index payload = .ok name := mapError_eq_ok_iff.mp hname
    unfold nameOfPayload at hname
    dsimp only at hname
    split at hname
    · exact Except.ok.inj hname ▸ List.cons_ne_nil _ _
    · rename_i hgiven
      exact Value.shown_ne_nil (Bool.not_eq_true _ ▸ hgiven) hname
  | _ => cases h

theorem wellFormed_of_ofPayloads {index : Nat} {payloads : List Value} {scenarios : List Scenario}
    (hdefault : IsStatus default.status) (h : ofPayloads default index payloads = .ok scenarios) :
    ∀ scenario ∈ scenarios, scenario.WellFormed := by
  induction payloads generalizing index scenarios with
  | nil => exact Except.ok.inj h ▸ List.forall_mem_nil _
  | cons payload payloads ih =>
    obtain ⟨scenario, hscenario, h⟩ := bind_eq_ok_iff.mp h
    obtain ⟨rest, hrest, h⟩ := bind_eq_ok_iff.mp h
    obtain rfl := Except.ok.inj h
    exact List.forall_mem_cons.mpr ⟨wellFormed_of_ofPayload hdefault hscenario, ih hrest⟩

/-- The payload of a scenario is read as the scenario, whatever would have stood in for what is
missing. -/
theorem ofPayload_toPayload (h : scenario.WellFormed) (index : Int) (default : Response) :
    ofPayload index default scenario.toPayload = .ok scenario := by
  have hname : nameOfPayload index
      [("name", .text scenario.name), ("condition", .text scenario.condition),
        ("statusCode", .int scenario.status), ("delay", .int scenario.delay),
        ("responseTemplate", .text scenario.template)] = .ok scenario.name := by
    refine if_neg ?_
    rw [Bool.not_eq_true]
    exact List.isEmpty_eq_false_iff.mpr h.named
  rw [toPayload, Value.ofEntries, ofPayload, hname, Payload.status_int rfl h.status,
    Payload.delay_int rfl, Payload.template_text rfl]
  rfl

theorem ofPayloads_toPayload {scenarios : List Scenario}
    (h : ∀ scenario ∈ scenarios, scenario.WellFormed) (index : Nat) (default : Response) :
    ofPayloads default index (scenarios.map toPayload) = .ok scenarios := by
  induction scenarios generalizing index with
  | nil => rfl
  | cons scenario scenarios ih =>
    obtain ⟨hscenario, hscenarios⟩ := List.forall_mem_cons.mp h
    rw [List.map_cons, ofPayloads, ofPayload_toPayload hscenario, ok_bind, ih hscenarios]
    rfl

end Scenario

namespace Endpoint

variable {endpoint : Endpoint} {payload : Entries}

theorem path_of_pathOfPayload {path : Text} (h : pathOfPayload payload = .ok path) :
    path.head? = some '/'.toNat ∧ Text.trim path = path := by
  have hslash : Text.isBlank '/'.toNat = false := by decide
  unfold pathOfPayload at h
  split at h
  · rename_i t _
    split at h
    · cases h
    · rename_i c rest htrim
      have hfront : Text.isBlank c = false :=
        Text.eq_false_of_mem_head?_trimWhile (t := t) (by rw [← Text.trim, htrim]; rfl)
      have hback : ∀ d ∈ (c :: rest).getLast?, Text.isBlank d = false := fun d hd ↦
        Text.eq_false_of_mem_getLast?_trimWhile (t := t) (by rwa [← Text.trim, htrim])
      obtain rfl := Except.ok.inj h
      split
      · rename_i hc
        exact ⟨congrArg some hc,
          Text.trimWhile_of_ends (fun d hd ↦ Option.some.inj hd ▸ hfront) hback⟩
      · refine ⟨rfl, Text.trimWhile_of_ends (fun d hd ↦ Option.some.inj hd ▸ hslash) ?_⟩
        rwa [List.getLast?_cons_cons]
  · cases h

/-- A path in its fixed form is read as it is written. -/
theorem pathOfPayload_text {path : Text} (hvalue : payload.get? "endpointId" = some (.text path))
    (hslash : path.head? = some '/'.toNat) (htrim : Text.trim path = path) :
    pathOfPayload payload = .ok path := by
  obtain ⟨rest, rfl⟩ := List.head?_eq_some_iff.mp hslash
  rw [pathOfPayload, Payload.entry, hvalue]
  dsimp only [Option.getD_some]
  rw [htrim]
  exact congrArg _ (if_pos rfl)

theorem wellFormed_of_ofPayload {payload : Value} (h : ofPayload payload = .ok endpoint) :
    endpoint.WellFormed := by
  cases payload with
  | object identity payload =>
    unfold ofPayload at h
    obtain ⟨path, hpath, h⟩ := bind_eq_ok_iff.mp h
    obtain ⟨raw, -, h⟩ := bind_eq_ok_iff.mp h
    obtain ⟨method, -, h⟩ := bind_eq_ok_iff.mp h
    obtain ⟨status, hstatus, h⟩ := bind_eq_ok_iff.mp h
    obtain ⟨delay, -, h⟩ := bind_eq_ok_iff.mp h
    obtain ⟨template, -, h⟩ := bind_eq_ok_iff.mp h
    obtain ⟨headers, -, h⟩ := bind_eq_ok_iff.mp h
    obtain ⟨payloads, -, h⟩ := bind_eq_ok_iff.mp h
    obtain ⟨scenarios, hscenarios, h⟩ := bind_eq_ok_iff.mp h
    obtain rfl := Except.ok.inj h
    obtain ⟨hslash, htrim⟩ := path_of_pathOfPayload (mapError_eq_ok_iff.mp hpath)
    have hbounds : IsStatus status :=
      Payload.isStatus_of_status (by decide) (mapError_eq_ok_iff.mp hstatus)
    exact ⟨hslash, htrim, hbounds, Scenario.wellFormed_of_ofPayloads hbounds hscenarios⟩
  | _ => cases h

theorem mapM_shown_text (headers : Table Text) :
    (headers.map fun (name, value) ↦ (name, Value.text value)).mapM (fun (name, value) ↦ do
      return (name, ← value.shown.mapError PayloadError.failed)) = .ok headers := by
  rw [mapM_eq_ok_iff, List.forall₂_map_left_iff, List.forall₂_same]
  exact fun header _ ↦ rfl

/-- **Endpoints in their fixed form are read as they are written.** -/
theorem WellFormed.ofPayload_toPayload (h : endpoint.WellFormed) :
    ofPayload endpoint.toPayload = .ok endpoint := by
  have hmethod {payload : Entries}
      (hvalue : payload.get? "method" = some (.text endpoint.method.name)) :
      methodOfPayload payload = .ok endpoint.method := by
    rw [methodOfPayload, hvalue]
    exact Payload.method_name endpoint.method
  have hheaders {payload : Entries} {entries : Entries}
      (hvalue : payload.get? "headers" = some (.ofEntries entries)) :
      rawHeaders payload = .ok entries := by
    rw [rawHeaders, Payload.entry, hvalue]
    rfl
  have hscenarios {payload : Entries} {items : List Value}
      (hvalue : payload.get? "scenarios" = some (.ofItems items)) :
      rawScenarios payload = .ok items := by
    rw [rawScenarios, Payload.entry, hvalue]
    rfl
  rw [toPayload, Value.ofEntries, ofPayload, pathOfPayload_text rfl h.slash h.trimmed,
    hheaders rfl, hmethod rfl, Payload.status_int rfl h.status, Payload.delay_int rfl,
    Payload.template_text rfl, hscenarios rfl]
  simp only [mapError_ok, ok_bind, mapM_shown_text, Scenario.ofPayloads_toPayload h.scenarios]
  rfl

end Endpoint

end MockApi
