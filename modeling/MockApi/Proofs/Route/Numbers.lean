import Mathlib
import MockApi.Proofs.Json.Numbers
import MockApi.Proofs.Json.Writing
import MockApi.Proofs.Route.Dispatch
import MockApi.Server.Reply

/-!
# The numbers in responses

The body of a response is read from the filled-in template, and its numbers stand there. Names of
numbers that are not finite are refused, but a numeral beyond the doubles is read as an infinity. A
response with such a number is a result like any other; it is only when the response is written that
it has no standard JSON.
-/

namespace MockApi

variable {stack : Stack}

namespace Dispatch

variable {settings : DispatchSettings} {registry : Registry} {request : DispatchRequest}
  {mode : RenderMode} {response : Response} {context : RequestContext} {answer : Served}
  {value : Value}

/-- A body is read from the filled-in template. -/
theorem exists_text_of_body (h : body mode response context = .ok (.ok value)) :
    ∃ text, Template.render mode response.template context = .ok text ∧
      Json.read false text = .ok value := by
  unfold body at h
  obtain ⟨text, htext, h⟩ := bind_eq_ok_iff.mp h
  refine ⟨text, htext, ?_⟩
  split at h
  · rename_i value' hread
    obtain rfl := Except.ok.inj (Except.ok.inj h)
    exact hread
  · cases h
  · cases h

/-- A body with a number that is not finite makes no reply, unless its status goes without one. -/
theorem ofResult_of_nonFinite (hbody : answer.body = .ok value)
    (hnested : value.NestedWithin Stack.writing) (hshort : value.HasShortIntegers)
    (hnonFinite : ¬value.HasFiniteNumbers)
    (hbare : Reply.bareStatuses.contains answer.selection.response.status = false) :
    Reply.ofResult (.served answer) = .error (.failed .numberNotFinite) := by
  simp only [Reply.ofResult, hbody, hbare, Bool.false_eq_true, if_false, Reply.json]
  cases hwrite : Json.write .standard value with
  | ok document =>
    have hfinite := (Json.exists_write_eq_ok_iff hnested hshort).mp ⟨document, hwrite⟩ rfl
    exact absurd hfinite hnonFinite
  | error failure =>
    rw [Json.eq_numberNotFinite_of_write hnested hshort hwrite]
    rfl

/-- **The numbers of a response.** Every double in the body is the nearest one to a numeral that
stands in the filled-in template. So it is no NaN, and it is an infinity exactly if that numeral is
beyond the doubles; without such numerals all numbers are finite. The body is written in every style
with names for other numbers, and as standard JSON if and only if all its numbers are finite. If
they are not, the response makes no reply, unless its status goes without a body. -/
theorem dispatch_body_numbers
    (h : (dispatch settings registry request).value = .ok (.served answer))
    (hbody : answer.body = .ok value) :
    (∃ text, Template.render settings.renderMode answer.selection.response.template answer.context
        = .ok text ∧
      (∀ x, Value.PartOf (.double x) value → ∃ s d, s <:+: text ∧ Numeral.decimal? s = some d ∧
        x = d.toDouble ∧ x ≠ .nan ∧ (x.isInfinite = true ↔ d.Overflows)) ∧
      ((∀ s d, s <:+: text → Numeral.decimal? s = some d → ¬d.Overflows) →
        value.HasFiniteNumbers)) ∧
    (∀ style, (∃ document, Json.write style value = .ok document) ↔
      (style.namesNonFinite = false → value.HasFiniteNumbers)) ∧
    (¬value.HasFiniteNumbers →
      Reply.bareStatuses.contains answer.selection.response.status = false →
      Reply.ofResult (.served answer) = .error (.failed .numberNotFinite)) := by
  obtain ⟨-, -, hanswer⟩ := served_of_dispatch h
  rw [hbody] at hanswer
  obtain ⟨text, hrender, hread⟩ := exists_text_of_body hanswer
  obtain ⟨hnested, hshort⟩ := Json.fits_of_read hread
  replace hnested := hnested.mono Stack.reading_le_writing
  have hstands := Json.doublesStandIn_of_read hread
  refine ⟨⟨text, hrender, fun x hx ↦ ?_, fun hnone x hx ↦ ?_⟩,
    fun style ↦ Json.exists_write_eq_ok_iff hnested hshort,
    ofResult_of_nonFinite hbody hnested hshort⟩
  · obtain ⟨s, d, hs, hd, rfl⟩ := hstands hx
    exact ⟨s, d, hs, hd, rfl, d.toDouble_ne_nan, Numeral.Decimal.isInfinite_toDouble_iff⟩
  · obtain ⟨s, d, hs, hd, rfl⟩ := hstands hx
    refine ⟨?_, ?_⟩
    · rw [Bool.eq_false_iff, ne_eq, Double.isNaN_iff]
      exact d.toDouble_ne_nan
    · rw [Bool.eq_false_iff, ne_eq, Numeral.Decimal.isInfinite_toDouble_iff]
      exact hnone s d hs hd

/-- What is answered for `/n` by an endpoint with the given template and the given body, registered
at noon. -/
def plainAnswer (template : Text) (body : Value) : Served :=
  ⟨⟨"/n", .get, ⟨200, 0, template⟩, [], [], .text "noon", .text "noon"⟩,
    ⟨⟨200, 0, template⟩, none⟩, ⟨.ofEntries [], .ofEntries [], .null⟩, .ok body⟩

/-- A list with a zero in it can be written as standard JSON. -/
theorem dispatch_body_numbers_zero :
    letI : Stack := .usual
    let registry : Registry := ⟨[(plainAnswer "[0.0]" .null).endpoint]⟩
    let value : Value := .ofItems [.double (Double.zeroOf false)]
    (dispatch ⟨"/api", .singlePass⟩ registry ⟨"GET", "/n", .null, .null, .null⟩).value
        = .ok (.served (plainAnswer "[0.0]" value)) ∧
      (plainAnswer "[0.0]" value).body = .ok value ∧
      ∃ document, Json.write .standard value = .ok document := by
  intro registry value
  have hanswer : (@dispatch .usual ⟨"/api", .singlePass⟩ registry
      ⟨"GET", "/n", .null, .null, .null⟩).value = .ok (.served (plainAnswer "[0.0]" value)) := by
    simp only [registry, value]
    cbv
  have hfinite : value.HasFiniteNumbers :=
    Value.hasFiniteNumbers_list.mpr
      (List.forall_mem_singleton.mpr (Value.hasFiniteNumbers_double.mpr ⟨rfl, rfl⟩))
  exact ⟨hanswer, rfl, ((dispatch_body_numbers hanswer rfl).2.1 .standard).mpr fun _ ↦ hfinite⟩

/-- A numeral beyond the doubles in a template: the body has an infinity, and there is no reply. -/
theorem dispatch_infinity :
    letI : Stack := .usual
    let template : Text := "\x7b\"a\":1e400\x7d"
    let registry : Registry := ⟨[(plainAnswer template .null).endpoint]⟩
    let value : Value := .ofEntries [("a", .double (.infinite false))]
    (dispatch ⟨"/api", .singlePass⟩ registry ⟨"GET", "/n", .null, .null, .null⟩).value
        = .ok (.served (plainAnswer template value)) ∧
      (plainAnswer template value).body = .ok value ∧ ¬value.HasFiniteNumbers ∧
      Reply.ofResult (.served (plainAnswer template value))
        = .error (.failed .numberNotFinite) := by
  intro template registry value
  have hanswer : (@dispatch .usual ⟨"/api", .singlePass⟩ registry
      ⟨"GET", "/n", .null, .null, .null⟩).value = .ok (.served (plainAnswer template value)) := by
    simp only [template, registry, value]
    cbv
  have hnonFinite : ¬value.HasFiniteNumbers := by
    intro hfinite
    have hinfinity := List.forall_mem_singleton.mp (Value.hasFiniteNumbers_object.mp hfinite)
    cases (Value.hasFiniteNumbers_double.mp hinfinity).2
  refine ⟨hanswer, rfl, hnonFinite, ?_⟩
  simp only [template, value]
  cbv

end Dispatch

end MockApi
