import MockApi.Proofs.Endpoint.Refusal
import MockApi.Proofs.Endpoint.RoundTrip
import MockApi.Proofs.Number.Order

/-!
# The schema of payloads

What an endpoint's payload has to be like is a list of demands, each with the entry that is named if
it is not met. The demands on the payload itself come first, then those on its scenarios one by one.
The reader of payloads goes through them in this order: it succeeds if all are met, and otherwise
fails with a problem about the first one that is not. Each step of the reader upholds its own
demands, and steps one after another uphold theirs one after another, so the schema follows the
reader and says no more and no less.
-/

namespace MockApi

variable {stack : Stack}

/-! ## Demands -/

/-- Something that is demanded of a payload. -/
structure Demand where
  /-- The entry that is named if the demand is not met. -/
  field? : Option Text
  /-- The demand is met. -/
  Met : Prop

section Demands

variable {α β : Type} {demand : Demand} {demands rest : List Demand}

/-- The first of some demands that is not met. -/
def Demand.IsFirstUnmet (demand : Demand) (demands : List Demand) : Prop :=
  ∃ before after, demands = before ++ demand :: after ∧ (∀ earlier ∈ before, earlier.Met) ∧
    ¬demand.Met

/-- An outcome upholds demands: it is a result if all of them are met, and otherwise a problem about
the first one that is not. -/
inductive Upholds (demands : List Demand) : Except PayloadError α → Prop
  /-- All demands are met. -/
  | ok (a : α) (hmet : ∀ demand ∈ demands, demand.Met) : Upholds demands (.ok a)
  /-- One is not. -/
  | invalid {problem : PayloadProblem} {demand : Demand} (hfirst : demand.IsFirstUnmet demands)
    (hfield : problem.field? = demand.field?) : Upholds demands (.error (.invalid problem))

namespace Demand.IsFirstUnmet

theorem not_forall (h : demand.IsFirstUnmet demands) : ¬∀ demand ∈ demands, demand.Met := by
  obtain ⟨before, after, rfl, -, hunmet⟩ := h
  exact fun hall ↦ hunmet (hall demand (List.mem_append_right before List.mem_cons_self))

theorem append (h : demand.IsFirstUnmet demands) (rest : List Demand) :
    demand.IsFirstUnmet (demands ++ rest) := by
  obtain ⟨before, after, rfl, hbefore, hunmet⟩ := h
  exact ⟨before, after ++ rest, by simp, hbefore, hunmet⟩

theorem prepend (hmet : ∀ earlier ∈ demands, earlier.Met) (h : demand.IsFirstUnmet rest) :
    demand.IsFirstUnmet (demands ++ rest) := by
  obtain ⟨before, after, rfl, hbefore, hunmet⟩ := h
  refine ⟨demands ++ before, after, by simp, fun earlier hearlier ↦ ?_, hunmet⟩
  exact (List.mem_append.mp hearlier).elim (hmet earlier) (hbefore earlier)

theorem head (h : ¬demand.Met) (rest : List Demand) : demand.IsFirstUnmet (demand :: rest) :=
  ⟨[], rest, rfl, by simp, h⟩

end Demand.IsFirstUnmet

namespace Upholds

/-- Two steps uphold the demands of the first and then those of the second. -/
theorem bind {x : Except PayloadError α} {f : α → Except PayloadError β} (hx : Upholds demands x)
    (hf : ∀ a, x = .ok a → Upholds rest (f a)) : Upholds (demands ++ rest) (x >>= f) := by
  cases hx with
  | ok a hmet =>
    have hnext := hf a rfl
    rw [ok_bind]
    generalize f a = y at hnext ⊢
    cases hnext with
    | ok b hrest => exact .ok b (List.forall_mem_append.mpr ⟨hmet, hrest⟩)
    | invalid hfirst hfield => exact .invalid (hfirst.prepend hmet) hfield
  | invalid hfirst hfield => exact .invalid (hfirst.append rest) hfield

/-- A step that succeeds upholds one demand that is met. -/
theorem met (a : α) (hmet : demand.Met) : Upholds [demand] (.ok a) :=
  .ok a (List.forall_mem_singleton.mpr hmet)

/-- A step with one demand, and then others. -/
theorem cons {x : Except PayloadError α} {f : α → Except PayloadError β} (hx : Upholds [demand] x)
    (hf : ∀ a, x = .ok a → Upholds rest (f a)) : Upholds (demand :: rest) (x >>= f) :=
  hx.bind hf

/-- A step without demands succeeds, and then come the others. -/
theorem free {x : Except PayloadError α} {f : α → Except PayloadError β} (hx : ∃ a, x = .ok a)
    (hf : ∀ a, x = .ok a → Upholds rest (f a)) : Upholds rest (x >>= f) := by
  obtain ⟨a, ha⟩ := hx
  rw [ha, ok_bind]
  exact hf a ha

/-- What is made of the result in the end does not matter. -/
theorem map {x : Except PayloadError α} {g : α → β} (hx : Upholds demands x) :
    Upholds demands (x >>= fun a ↦ .ok (g a)) := by
  cases hx with
  | ok a hmet => exact .ok (g a) hmet
  | invalid hfirst hfield => exact .invalid hfirst hfield

/-- A demand that is met need not be upheld. -/
theorem of_met {x : Except PayloadError α} (hmet : demand.Met) (hx : Upholds rest x) :
    Upholds (demand :: rest) x :=
  (met () hmet).cons fun _ _ ↦ hx

/-- A demand that is not met is a problem about its entry. -/
theorem refused {problem : PayloadProblem} (hunmet : ¬demand.Met)
    (hfield : problem.field? = demand.field?) (rest : List Demand) :
    Upholds (demand :: rest) (.error (.invalid problem) : Except PayloadError α) :=
  .invalid (.head hunmet rest) hfield

/-- A step upholds a demand if it succeeds just when the demand is met and all its failures are
problems about the entry. -/
theorem of_iff {x : Except PayloadError α} (hok : (∃ a, x = .ok a) ↔ demand.Met)
    (hfield : ∀ error, x = .error error →
      ∃ problem, error = .invalid problem ∧ problem.field? = demand.field?) :
    Upholds [demand] x := by
  cases x with
  | ok a => exact .met a (hok.mp ⟨a, rfl⟩)
  | error error =>
    obtain ⟨problem, rfl, hproblem⟩ := hfield error rfl
    exact refused (fun hmet ↦ by simpa using hok.mpr hmet) hproblem []

/-- The same for a step that fails with nothing but problems. -/
theorem of_problem {x : Except PayloadProblem α} (hok : (∃ a, x = .ok a) ↔ demand.Met)
    (hfield : ∀ problem, x = .error problem → problem.field? = demand.field?) :
    Upholds [demand] (x.mapError .invalid) := by
  refine of_iff (by simpa [mapError_eq_ok_iff] using hok) fun error herror ↦ ?_
  obtain ⟨problem, hproblem, rfl⟩ := mapError_eq_error_iff.mp herror
  exact ⟨problem, rfl, hfield problem hproblem⟩

theorem exists_ok_iff {x : Except PayloadError α} (h : Upholds demands x) :
    (∃ a, x = .ok a) ↔ ∀ demand ∈ demands, demand.Met := by
  cases h with
  | ok a hmet => exact iff_of_true ⟨a, rfl⟩ hmet
  | invalid hfirst hfield => exact iff_of_false (by simp) hfirst.not_forall

theorem exists_problem {x : Except PayloadError α} {error : PayloadError} (h : Upholds demands x)
    (herror : x = .error error) : ∃ problem, error = .invalid problem ∧
      ∃ demand : Demand, demand.IsFirstUnmet demands ∧ problem.field? = demand.field? := by
  subst herror
  cases h with
  | invalid hfirst hfield => exact ⟨_, rfl, _, hfirst, hfield⟩

end Upholds

end Demands

/-! ## What single entries have to be -/

namespace Value

/-- A value stands for an integer: it is a number with this exact value, or a text that writes
it. -/
def StandsFor (n : Int) : Value → Prop
  | number x => x.extended? = (Number.int n).extended?
  | text t => integerOfText t.trim = .ok n
  | _ => False

/-- Objects. -/
def IsObject (value : Value) : Prop := ∃ identity entries, value = .object identity entries

/-- Lists. -/
def IsList (value : Value) : Prop := ∃ identity items, value = .list identity items

/-- Texts. -/
def IsText (value : Value) : Prop := ∃ t, value = .text t

/-- The entries of an object; other values have none. -/
def entries : Value → Entries
  | object _ entries => entries
  | _ => []

/-- The items of a list; other values have none. -/
def items : Value → List Value
  | list _ items => items
  | _ => []

end Value

namespace Payload

variable {payload : Entries} {identity : Nat} {name : Text} {value : Value}
  {problem : PayloadProblem} {default minimum : Nat} {maximum? : Option Nat}

/-- If there is such an entry, it stands for an integer between bounds. -/
def IsBounded (payload : Entries) (name : Text) (minimum : Nat) (maximum? : Option Nat) : Prop :=
  ∀ value ∈ payload.get? name, ∃ n : Int, value.StandsFor n ∧ minimum ≤ n ∧
    ∀ maximum ∈ maximum?, n ≤ maximum

/-- What is demanded of a status code, if there is one. -/
def statusDemand (payload : Entries) : Demand :=
  ⟨some "statusCode", IsBounded payload "statusCode" 100 (some 599)⟩

/-- What is demanded of a delay, if there is one. -/
def delayDemand (payload : Entries) : Demand := ⟨some "delay", IsBounded payload "delay" 0 none⟩

/-- What is demanded of a template. -/
def templateDemand (payload : Entries) : Demand :=
  ⟨some "responseTemplate",
    entry payload "responseTemplate" = .null ∨ (entry payload "responseTemplate").IsText⟩

/-- What is demanded of an entry that may be vacant and is of some kind otherwise. -/
def optionalDemand (payload : Entries) (name : Text) (kind : Value → Prop) : Demand :=
  ⟨some name, (entry payload name).isVacant ∨ kind (entry payload name)⟩

/-- What is demanded of a method, if there is one. -/
def methodDemand (payload : Entries) : Demand :=
  ⟨some "method", ∀ value ∈ payload.get? "method", ∃ t, value = .text t ∧
    (t.trim.toUpper ∈ Method.allowed.map Method.name ∨ t.trim.toUpper ∈ Method.wildcards)⟩

theorem integer_eq_ok_iff {n : Int} : integer name value = .ok n ↔ value.StandsFor n := by
  have hsome (m : Int) : (Number.int m).extended? = (Number.int n).extended? ↔ m = n := by
    simp [Number.extended?]
  cases value with
  | number x =>
    cases x with
    | int m => simp [integer, Value.StandsFor, hsome]
    | double x =>
      have hwhole : x.toInt? = some n ↔ (Number.double x).extended? = (Number.int n).extended? :=
        Double.toInt?_eq_some_iff
      rw [Value.StandsFor, ← hwhole, integer]
      cases x.toInt? <;> simp
  | text t =>
    rw [Value.StandsFor, integer]
    cases integerOfText t.trim <;> simp
  | _ => simp [integer, Value.StandsFor]

theorem exists_boundedInteger_eq_ok_iff :
    (∃ n, boundedInteger payload name default minimum maximum? = .ok n) ↔
      IsBounded payload name minimum maximum? := by
  simp only [boundedInteger_eq_ok_iff, integer_eq_ok_iff, IsBounded]
  cases hvalue : payload.get? name with
  | none => simp
  | some value =>
    constructor
    · rintro ⟨n, ⟨hnone, -⟩ | ⟨value', hvalue', hn, hlow, hhigh⟩⟩
      · cases hnone
      · rintro value'' ⟨⟩
        cases hvalue'
        exact ⟨n, hn, by exact_mod_cast hlow, fun maximum hmaximum ↦ by
          exact_mod_cast hhigh maximum hmaximum⟩
    · intro h
      obtain ⟨n, hn, hlow, hhigh⟩ := h value rfl
      obtain ⟨k, rfl⟩ := Int.eq_ofNat_of_zero_le (Int.le_trans (Int.natCast_nonneg minimum) hlow)
      exact ⟨k, .inr ⟨value, rfl, hn, by exact_mod_cast hlow, fun maximum hmaximum ↦ by
        exact_mod_cast hhigh maximum hmaximum⟩⟩

theorem upholds_status :
    Upholds [statusDemand payload] ((status payload default).mapError .invalid) :=
  .of_problem exists_boundedInteger_eq_ok_iff fun _ ↦ field_of_boundedInteger

theorem upholds_delay :
    Upholds [delayDemand payload] ((delay payload default).mapError .invalid) :=
  .of_problem exists_boundedInteger_eq_ok_iff fun _ ↦ field_of_boundedInteger

theorem upholds_template {default : Text} (hwritable : (Value.object identity payload).Writable) :
    Upholds [templateDemand payload] (template payload default) := by
  unfold template
  split
  · rename_i t hentry
    exact .met _ (.inr ⟨t, hentry⟩)
  · rename_i hentry _
    exact .met _ (.inl hentry)
  · rename_i hentry _
    exact .met _ (.inl hentry)
  · rename_i hentry hgiven _
    obtain ⟨t, ht⟩ := Value.exists_toJson_eq_ok_iff.mpr (hwritable.of_partOf (partOf_entry hgiven))
    rw [ht]
    exact .met t (.inl hentry)
  · rename_i htext hnull _ _
    refine .refused ?_ rfl []
    rintro (hentry | ⟨t, hentry⟩)
    · exact hnull hentry
    · exact htext t hentry

/-- Of an entry that is not of its kind, it is demanded to be vacant. -/
theorem upholds_vacant {α : Type} {value : Value} {kind : Value → Prop} {a : α}
    (hkind : ¬kind value) (hfield : problem.field? = some name) :
    Upholds [⟨some name, value.isVacant ∨ kind value⟩]
      ((if value.isVacant then .ok a else .error problem : Except PayloadProblem α).mapError
        .invalid) := by
  by_cases hvacant : value.isVacant
  · rw [if_pos hvacant]
    exact .met a (.inl hvacant)
  · rw [if_neg hvacant]
    exact .refused (not_or.mpr ⟨hvacant, hkind⟩) hfield []

theorem exists_ofName?_eq_some_iff {t : Text} : (∃ m, Method.ofName? t = some m) ↔
    t.trim.toUpper ∈ Method.allowed.map Method.name ∨ t.trim.toUpper ∈ Method.wildcards := by
  unfold Method.ofName?
  by_cases hwild : t.trim.toUpper ∈ Method.wildcards
  · simp [hwild]
  · simp [hwild, ← Option.isSome_iff_exists, List.find?_isSome]

theorem exists_method_eq_ok_iff : (∃ m, method value = .ok m) ↔ ∃ t, value = .text t ∧
    (t.trim.toUpper ∈ Method.allowed.map Method.name ∨ t.trim.toUpper ∈ Method.wildcards) := by
  cases value with
  | text t =>
    simp only [method, Value.text.injEq, exists_eq_left', ← exists_ofName?_eq_some_iff]
    by_cases hblank : t.trim = []
    · have hnone : Method.ofName? t = none := by
        rw [Method.ofName?, hblank]
        decide
      simp [hblank, hnone]
    · cases Method.ofName? t <;> simp [hblank]
  | _ => simp [method]

end Payload

/-! ## Scenarios -/

namespace Scenario

variable {payload : Entries} {index : Int}

/-- What is demanded of a scenario. -/
def demands (value : Value) : List Demand :=
  let payload := value.entries
  [⟨some "scenarios", value.IsObject⟩, Payload.optionalDemand payload "condition" Value.IsText,
    Payload.statusDemand payload, Payload.delayDemand payload, Payload.templateDemand payload]

theorem upholds_condition : Upholds [Payload.optionalDemand payload "condition" Value.IsText]
    ((conditionOfPayload index payload).mapError .invalid) := by
  unfold Payload.optionalDemand conditionOfPayload
  generalize Payload.entry payload "condition" = value
  cases value with
  | text t => exact .met t (.inr ⟨t, rfl⟩)
  | _ => exact Payload.upholds_vacant (by rintro ⟨t, h⟩; cases h) rfl

theorem upholds_ofPayload {value : Value} (hwritable : value.Writable) (index : Int)
    (default : Response) : Upholds (demands value) (ofPayload index default value) := by
  cases value with
  | object identity payload =>
    refine .of_met ⟨identity, payload, rfl⟩ ?_
    refine .cons upholds_condition fun condition _ ↦ ?_
    refine .free ?_ fun name _ ↦ ?_
    · obtain ⟨t, ht⟩ : ∃ t, nameOfPayload index payload = .ok t := exists_nameOfPayload hwritable
      exact ⟨t, mapError_eq_ok_iff.mpr ht⟩
    refine .cons Payload.upholds_status fun status _ ↦ ?_
    refine .cons Payload.upholds_delay fun delay _ ↦ ?_
    exact (Payload.upholds_template hwritable).map
  | _ =>
    refine .refused ?_ rfl _
    rintro ⟨identity, entries, h⟩
    cases h

theorem upholds_ofPayloads {default : Response} {payloads : List Value}
    (hwritable : ∀ payload ∈ payloads, payload.Writable) (index : Nat) :
    Upholds (payloads.flatMap demands) (ofPayloads default index payloads) := by
  induction payloads generalizing index with
  | nil => exact .ok [] (by simp)
  | cons payload payloads ih =>
    obtain ⟨hpayload, hpayloads⟩ := List.forall_mem_cons.mp hwritable
    rw [List.flatMap_cons]
    refine (upholds_ofPayload hpayload index default).bind fun scenario _ ↦ ?_
    exact (ih hpayloads (index + 1)).map

end Scenario

/-! ## Endpoints -/

namespace Endpoint

variable {payload : Entries} {value : Value}

/-- What is demanded of the payload of an endpoint. -/
def demands (value : Value) : List Demand :=
  let payload := value.entries
  [⟨none, value.IsObject⟩,
    ⟨some "endpointId", ∃ t, Payload.entry payload "endpointId" = .text t ∧ t.trim ≠ []⟩,
    Payload.optionalDemand payload "headers" Value.IsObject, Payload.methodDemand payload,
    Payload.statusDemand payload, Payload.delayDemand payload, Payload.templateDemand payload,
    Payload.optionalDemand payload "scenarios" Value.IsList]
    ++ (Payload.entry payload "scenarios").items.flatMap Scenario.demands

theorem upholds_path : Upholds
    [⟨some "endpointId", ∃ t, Payload.entry payload "endpointId" = .text t ∧ t.trim ≠ []⟩]
    ((pathOfPayload payload).mapError .invalid) := by
  unfold pathOfPayload
  generalize Payload.entry payload "endpointId" = value
  cases value with
  | text t =>
    dsimp only
    split
    · rename_i hblank
      exact .refused (by simp [hblank]) rfl []
    · rename_i c rest htrim
      exact .met _ ⟨t, rfl, by simp [htrim]⟩
  | _ => exact .refused (by simp) rfl []

theorem upholds_rawHeaders : Upholds [Payload.optionalDemand payload "headers" Value.IsObject]
    ((rawHeaders payload).mapError .invalid) := by
  unfold Payload.optionalDemand rawHeaders
  generalize Payload.entry payload "headers" = value
  cases value with
  | object identity entries =>
    exact .met entries (.inr ⟨identity, entries, rfl⟩)
  | _ => exact Payload.upholds_vacant (by rintro ⟨identity, entries, h⟩; cases h) rfl

theorem upholds_methodOfPayload :
    Upholds [Payload.methodDemand payload] ((methodOfPayload payload).mapError .invalid) := by
  unfold Payload.methodDemand methodOfPayload
  cases payload.get? "method" with
  | none => exact .ok Method.get (by simp)
  | some value =>
    refine .of_problem ?_ fun _ ↦ Payload.field_of_method
    simpa using Payload.exists_method_eq_ok_iff

theorem upholds_rawScenarios : Upholds [Payload.optionalDemand payload "scenarios" Value.IsList]
    ((rawScenarios payload).mapError .invalid) := by
  unfold Payload.optionalDemand rawScenarios
  generalize Payload.entry payload "scenarios" = value
  cases value with
  | list identity items =>
    exact .met items (.inr ⟨identity, items, rfl⟩)
  | _ => exact Payload.upholds_vacant (by rintro ⟨identity, items, h⟩; cases h) rfl

theorem eq_items_of_rawScenarios {items : List Value} (h : rawScenarios payload = .ok items) :
    items = (Payload.entry payload "scenarios").items := by
  unfold rawScenarios at h
  split at h
  · rename_i hlist
    cases h
    rw [hlist]
    rfl
  · rename_i hother
    split at h
    · cases h
      cases hvalue : Payload.entry payload "scenarios" with
      | list identity items => exact absurd hvalue (hother identity items)
      | _ => rfl
    · cases h

/-- **The reader of payloads upholds the demands on them,** if they can be written. -/
theorem upholds_ofPayload (hwritable : value.Writable) :
    Upholds (demands value) (ofPayload value) := by
  cases value with
  | object identity payload =>
    refine .of_met ⟨identity, payload, rfl⟩ ?_
    refine .cons upholds_path fun path _ ↦ ?_
    refine .cons upholds_rawHeaders fun raw hraw ↦ ?_
    refine .cons upholds_methodOfPayload fun method _ ↦ ?_
    refine .cons Payload.upholds_status fun status _ ↦ ?_
    refine .cons Payload.upholds_delay fun delay _ ↦ ?_
    refine .cons (Payload.upholds_template hwritable) fun template _ ↦ ?_
    refine .free ?_ fun headers _ ↦ ?_
    · refine exists_mapM_eq_ok_iff.mpr fun header hheader ↦ ?_
      have hpart : Value.PartOf header.2 (.object identity payload) :=
        partOf_of_rawHeaders (mapError_eq_ok_iff.mp hraw) hheader
      obtain ⟨t, ht⟩ := Value.exists_shown_eq_ok (hwritable.of_partOf hpart)
      exact ⟨(header.1, t), by simp [ht]⟩
    refine .cons upholds_rawScenarios fun items hitems ↦ ?_
    replace hitems := mapError_eq_ok_iff.mp hitems
    have hparts : ∀ item ∈ items, item.Writable := fun item hitem ↦
      hwritable.of_partOf (partOf_of_rawScenarios hitems hitem)
    obtain rfl := eq_items_of_rawScenarios hitems
    exact (Scenario.upholds_ofPayloads hparts 0).map
  | _ =>
    refine .refused ?_ rfl _
    rintro ⟨identity, entries, h⟩
    cases h

/-- **The payloads of endpoints are those that meet the schema.** Of the payloads that can be
written, exactly those are read that meet all demands. Any other is refused with a problem that is
about the entry of the first demand that is not met. What is read has a path with a slash in front,
a method of those that endpoints are defined for, and statuses within the bounds. -/
theorem ofPayload_schema (hwritable : value.Writable) :
    ((∃ endpoint, ofPayload value = .ok endpoint) ↔ ∀ demand ∈ demands value, demand.Met) ∧
    (∀ error, ofPayload value = .error error → ∃ problem, error = .invalid problem ∧
      ∃ demand : Demand, demand.IsFirstUnmet (demands value) ∧ problem.field? = demand.field?) ∧
    ∀ endpoint, ofPayload value = .ok endpoint → endpoint.WellFormed ∧
      (endpoint.method = .any ∨ endpoint.method ∈ Method.allowed) := by
  have hupholds := upholds_ofPayload hwritable
  refine ⟨hupholds.exists_ok_iff, fun _ ↦ hupholds.exists_problem, fun endpoint h ↦ ?_⟩
  refine ⟨wellFormed_of_ofPayload h, ?_⟩
  cases endpoint.method <;> decide

theorem ofPayload_schema_users :
    letI : Stack := .usual
    let users : Value := .ofEntries [("endpointId", .text "users"), ("method", .text " any "),
      ("statusCode", .text " 404 ")]
    let delayed : Value := .ofEntries [("endpointId", .text "users"),
      ("scenarios", .ofItems [.ofEntries [("delay", .int (-1)), ("responseTemplate", .int 1)]])]
    (∀ demand ∈ demands users, demand.Met) ∧
      ∃ demand : Demand, demand.field? = some "delay" ∧ demand.IsFirstUnmet (demands delayed) := by
  intro users delayed
  have husers : @Value.Writable .usual users := Value.exists_toJson_eq_ok_iff.mp ⟨_, rfl⟩
  have hdelayed : @Value.Writable .usual delayed := Value.exists_toJson_eq_ok_iff.mp ⟨_, rfl⟩
  have hrefused : @ofPayload .usual delayed = .error (.invalid (.tooSmall "delay" 0)) := rfl
  obtain ⟨problem, hproblem, demand, hfirst, hfield⟩ := (ofPayload_schema hdelayed).2.1 _ hrefused
  cases hproblem
  exact ⟨(ofPayload_schema husers).1.mp ⟨_, rfl⟩, demand, hfield.symm, hfirst⟩

end Endpoint

end MockApi
