import Mathlib.Data.List.Lex
import MockApi.Proofs.Number.Decimal
import MockApi.Proofs.Number.Order
import MockApi.Proofs.Value.Texts
import MockApi.Value.Order

/-!
# Coherence of the relational operators

All four relational operators read their answer off one order of their operands, and the order of
the operands the other way round is the opposite one. So exactly one of "less", "greater" and "both
at most and at least" holds wherever there is an order: between two values that become texts, and
between two values that count as numbers other than NaN. Texts are ordered by code points and
numbers by their exact values. Both of these are linear orders, so that "less" is transitive among
either.

Three things are in the way of an order: NaN, which every operator answers with "no"; an integer
that is no double, for which the question of NaN fails; and a list nested beyond the limit, which
has no text. Integers of three hundred digits are doubles.
-/

namespace MockApi

variable {stack : Stack}

/-! ## The order of texts -/

namespace Text

theorem order_eq_lt_iff {s t : Text} : order s t = .lt ↔ s < t := by
  unfold order
  by_cases h : s < t
  · rw [if_pos h]
    exact iff_of_true rfl h
  · rw [if_neg h]
    refine iff_of_false ?_ h
    split <;> simp

theorem swap_order (s t : Text) : (order s t).swap = order t s := by
  unfold order
  rcases lt_trichotomy s t with h | rfl | h
  · rw [if_pos h, if_neg h.not_gt, if_neg h.ne']
    rfl
  · simp
  · rw [if_pos h, if_neg h.not_gt, if_neg h.ne']
    rfl

end Text

/-! ## Integers that are doubles -/

/-- An integer of at most three hundred digits. -/
def IsModest (n : Int) : Prop := (Nat.toDigits 10 n.natAbs).length ≤ 300

instance (n : Int) : Decidable (IsModest n) := inferInstanceAs (Decidable (_ ≤ _))

theorem IsModest.isShort {n : Int} (h : IsModest n) : IsShort n := Nat.le_trans h (by decide)

theorem Double.tenTo_le_limit : tenTo 300 ≤ limit := by decide +kernel

theorem Double.lt_tenTo_of_length_le {n k : Nat} (hk : 0 < k)
    (h : (Nat.toDigits 10 n).length ≤ k) : n < tenTo k :=
  (Nat.length_toDigits_le_iff (by decide) hk).mp h

theorem IsModest.lt_limit {n : Int} (h : IsModest n) : n.natAbs < Double.limit :=
  Nat.lt_of_lt_of_le (Double.lt_tenTo_of_length_le (by decide) h) Double.tenTo_le_limit

theorem Number.testNaN_eq {x : Number} (h : ∀ n, x = .int n → IsModest n) :
    x.testNaN = .ok (x = nan) := by
  cases x with
  | int n =>
    rw [testNaN_int, if_neg (Nat.not_le_of_lt (h n rfl).lt_limit)]
    simp [nan]
  | double x => cases x <;> rfl

/-! ## Relations -/

namespace Relation

/-- The relation the other way round. -/
def converse : Relation → Relation
  | less => greater
  | lessEqual => greaterEqual
  | greater => less
  | greaterEqual => lessEqual

/-- Answers to the four relations that go together. -/
structure Coherent (answer : Relation → Bool) : Prop where
  /-- Exactly one holds of "less", "greater" and "both at most and at least". -/
  exactlyOne : (answer less).toNat + (answer greater).toNat +
    (answer lessEqual && answer greaterEqual).toNat = 1
  /-- "At most" is "not greater". -/
  lessEqual_eq : answer lessEqual = !answer greater

theorem coherent_holds (o : Ordering) : Coherent (·.holds o) := by
  cases o <;> exact ⟨rfl, rfl⟩

theorem holds_converse (r : Relation) (o : Ordering) : r.converse.holds o.swap = r.holds o := by
  cases r <;> cases o <;> rfl

end Relation

/-! ## The order of values -/

namespace Value

/-- A value with modest integers, that does not count as a huge one either. -/
structure HasModestIntegers [Stack] (value : Value) : Prop where
  /-- Its integers are modest. -/
  held : ∀ ⦃n⦄, PartOf (.int n) value → IsModest n
  /-- If it counts as an integer, that is a modest one. -/
  coerced : ∀ ⦃n⦄, value.toNumber = .ok (.int n) → IsModest n

theorem HasModestIntegers.showsShortIntegers {value : Value} (h : value.HasModestIntegers) :
    value.ShowsShortIntegers :=
  fun _ hn ↦ (h.held hn.partOf).isShort

/-- A value that is a text or is replaced by one. -/
def BecomesText [Stack] (value : Value) : Prop := ∃ t, value.toPrimitive = .ok (text t)

/-- Two values with an order: both become texts, or neither of them counts as NaN. -/
def Ordered [Stack] (a b : Value) : Prop :=
  a.BecomesText ∧ b.BecomesText ∨
    ∃ x y, a.toNumber = .ok x ∧ b.toNumber = .ok y ∧ x ≠ .nan ∧ y ≠ .nan

/-- Values count as the number that their plain values count as. -/
theorem toPrimitive_bind_toNumber (value : Value) :
    value.toPrimitive >>= toNumber = value.toNumber := by
  cases value with
  | list identity items =>
    rw [toPrimitive_of_container rfl]
    cases h : (list identity items).toText <;> simp [toNumber, h, Except.map]
  | object identity entries =>
    rw [toPrimitive_of_container rfl]
    cases h : (object identity entries).toText <;> simp [toNumber, h, Except.map]
  | _ => rfl

theorem exists_toNumber_plain {plain value : Value} (h : value.toPrimitive = .ok plain) :
    ∃ x, plain.toNumber = .ok x := by
  cases hcontainer : value.isContainer with
  | false =>
    obtain rfl := Except.ok.inj ((toPrimitive_of_not_container hcontainer).symm.trans h)
    cases value with
    | list | object => cases hcontainer
    | _ => exact ⟨_, rfl⟩
  | true =>
    obtain ⟨t, -, rfl⟩ := map_eq_ok_iff.mp ((toPrimitive_of_container hcontainer).symm.trans h)
    exact ⟨_, rfl⟩

/-- A value counts as a number if it has a plain value. -/
theorem toNumber_eq_ok_iff {value : Value} {x : Number} :
    value.toNumber = .ok x ↔ ∃ plain, value.toPrimitive = .ok plain ∧ plain.toNumber = .ok x := by
  rw [← toPrimitive_bind_toNumber, bind_eq_ok_iff]

variable {a b c : Value}

theorem order?_of_texts {s t : Text} (ha : a.toPrimitive = .ok (text s))
    (hb : b.toPrimitive = .ok (text t)) : order? a b = .ok (some (Text.order s t)) := by
  simp only [order?, ha, hb, ok_bind]
  rfl

/-- Values of which one does not become a text are ordered as numbers. -/
theorem order?_eq_bind (htext : ¬(a.BecomesText ∧ b.BecomesText)) : order? a b = do
    let x ← a.toNumber
    let y ← b.toNumber
    if ← x.testNaN then return none
    if ← y.testNaN then return none
    return x.compare? y := by
  rw [← toPrimitive_bind_toNumber a, ← toPrimitive_bind_toNumber b, order?]
  cases hp : a.toPrimitive with
  | error f => rfl
  | ok p =>
    obtain ⟨x, hx⟩ := exists_toNumber_plain hp
    rw [ok_bind, ok_bind, hx]
    cases hq : b.toPrimitive with
    | error f => rfl
    | ok q =>
      have hne (s t : Text) (hs : p = text s) (ht : q = text t) : False :=
        htext ⟨⟨s, hs ▸ hp⟩, ⟨t, ht ▸ hq⟩⟩
      simp only [ok_bind, hx]

/-- Two numbers are in some order if both can be tested for NaN, and neither is. -/
theorem order?_eq_some_iff {o : Ordering} (htext : ¬(a.BecomesText ∧ b.BecomesText)) :
    order? a b = .ok (some o) ↔ ∃ x y, a.toNumber = .ok x ∧ b.toNumber = .ok y ∧
      x.testNaN = .ok false ∧ y.testNaN = .ok false ∧ x.compare? y = some o := by
  rw [order?_eq_bind htext]
  constructor
  · intro h
    obtain ⟨x, hx, h⟩ := bind_eq_ok_iff.mp h
    obtain ⟨y, hy, h⟩ := bind_eq_ok_iff.mp h
    obtain ⟨xnan, hxnan, h⟩ := bind_eq_ok_iff.mp h
    cases xnan with
    | true => cases h
    | false =>
      obtain ⟨ynan, hynan, h⟩ := bind_eq_ok_iff.mp h
      cases ynan with
      | true => cases h
      | false => exact ⟨x, y, hx, hy, hxnan, hynan, Except.ok.inj h⟩
  · rintro ⟨x, y, hx, hy, hxnan, hynan, ho⟩
    simp [hx, hy, hxnan, hynan, ho]

theorem order?_of_numbers {x y : Number} (ha : a.HasModestIntegers) (hb : b.HasModestIntegers)
    (htext : ¬(a.BecomesText ∧ b.BecomesText)) (hx : a.toNumber = .ok x) (hy : b.toNumber = .ok y) :
    order? a b = .ok (x.compare? y) := by
  have hxnan := Number.testNaN_eq fun n hn ↦ ha.coerced (hn ▸ hx)
  have hynan := Number.testNaN_eq fun n hn ↦ hb.coerced (hn ▸ hy)
  simp only [order?_eq_bind htext, hx, hy, ok_bind, hxnan, hynan, decide_eq_true_eq]
  -- NaN is tested for, and has no order anyway
  split
  · rename_i hnan
    rw [Number.compare?_eq_none_iff.mpr (.inl hnan)]
    rfl
  · split
    · rename_i hnan
      rw [Number.compare?_eq_none_iff.mpr (.inr hnan)]
      rfl
    · rfl

/-- Of values that do not both become texts, those have an order that do not count as NaN. -/
theorem ordered_iff_of_numbers {x y : Number} (htext : ¬(a.BecomesText ∧ b.BecomesText))
    (hx : a.toNumber = .ok x) (hy : b.toNumber = .ok y) : Ordered a b ↔ x ≠ .nan ∧ y ≠ .nan := by
  constructor
  · rintro (hboth | ⟨x', y', hx', hy', hnan⟩)
    · exact absurd hboth htext
    · obtain rfl := Except.ok.inj (hx.symm.trans hx')
      obtain rfl := Except.ok.inj (hy.symm.trans hy')
      exact hnan
  · exact fun ⟨hxnan, hynan⟩ ↦ .inr ⟨x, y, hx, hy, hxnan, hynan⟩

/-- The order of two values, one way round and the other. -/
theorem exists_order? (ha : a.HasModestIntegers) (hb : b.HasModestIntegers)
    (hlista : a.ListedWithin Stack.texts) (hlistb : b.ListedWithin Stack.texts) :
    ∃ o?, order? a b = .ok o? ∧ order? b a = .ok (o?.map Ordering.swap) ∧
      (o?.isSome = true ↔ Ordered a b) := by
  by_cases htext : a.BecomesText ∧ b.BecomesText
  · obtain ⟨⟨s, hs⟩, ⟨t, ht⟩⟩ := htext
    refine ⟨some (Text.order s t), order?_of_texts hs ht, ?_,
      iff_of_true rfl (.inl ⟨⟨s, hs⟩, ⟨t, ht⟩⟩)⟩
    rw [order?_of_texts ht hs, ← Text.swap_order]
    rfl
  · obtain ⟨p, hp⟩ := (exists_toPrimitive_iff ha.showsShortIntegers).mpr hlista
    obtain ⟨q, hq⟩ := (exists_toPrimitive_iff hb.showsShortIntegers).mpr hlistb
    obtain ⟨x, hpx⟩ := exists_toNumber_plain hp
    obtain ⟨y, hqy⟩ := exists_toNumber_plain hq
    have hx : a.toNumber = .ok x := toNumber_eq_ok_iff.mpr ⟨p, hp, hpx⟩
    have hy : b.toNumber = .ok y := toNumber_eq_ok_iff.mpr ⟨q, hq, hqy⟩
    refine ⟨x.compare? y, order?_of_numbers ha hb htext hx hy, ?_, ?_⟩
    · rw [order?_of_numbers hb ha (mt And.symm htext) hy hx, Number.swap_compare?]
    · rw [ordered_iff_of_numbers htext hx hy, Option.isSome_iff_ne_none, ne_eq,
        Number.compare?_eq_none_iff, not_or]

/-- A value nested beyond the limit has no order to any other. -/
theorem order?_of_not_listedWithin (ha : a.ShowsShortIntegers) (hb : b.ShowsShortIntegers)
    (h : ¬(a.ListedWithin Stack.texts ∧ b.ListedWithin Stack.texts)) :
    order? a b = .error .nestingTooDeep :=
  toPrimitive_bind_eq_error ha hb h _

/-! ## The relational operators -/

theorem compare_of_some {o : Ordering} (h : order? a b = .ok (some o)) (r : Relation) :
    compare r a b = .ok (r.holds o) := by
  rw [compare, h]
  rfl

theorem compare_of_none (h : order? a b = .ok none) (r : Relation) :
    compare r a b = .ok false := by
  rw [compare, h]
  rfl

theorem compare_of_not_listedWithin (ha : a.ShowsShortIntegers) (hb : b.ShowsShortIntegers)
    (h : ¬(a.ListedWithin Stack.texts ∧ b.ListedWithin Stack.texts)) (r : Relation) :
    compare r a b = .error .nestingTooDeep := by
  rw [compare, order?_of_not_listedWithin ha hb h, error_bind]

theorem compare_less_eq_true_iff :
    compare .less a b = .ok true ↔ order? a b = .ok (some .lt) := by
  rw [compare, bind_eq_ok_iff]
  constructor
  · rintro ⟨o?, ho, h⟩
    cases o? with
    | none => cases h
    | some o =>
      obtain rfl : o = .lt := of_decide_eq_true (Except.ok.inj h)
      exact ho
  · exact fun h ↦ ⟨_, h, rfl⟩

theorem compare_converse (ha : a.HasModestIntegers) (hb : b.HasModestIntegers) (r : Relation) :
    compare r a b = compare r.converse b a := by
  by_cases hlisted : a.ListedWithin Stack.texts ∧ b.ListedWithin Stack.texts
  · obtain ⟨o?, hab, hba, -⟩ := exists_order? ha hb hlisted.1 hlisted.2
    cases o? with
    | none => rw [compare_of_none hab, compare_of_none hba]
    | some o => rw [compare_of_some hab, compare_of_some hba, Relation.holds_converse]
  · rw [compare_of_not_listedWithin ha.showsShortIntegers hb.showsShortIntegers hlisted,
      compare_of_not_listedWithin hb.showsShortIntegers ha.showsShortIntegers (mt And.symm hlisted)]

theorem compare_less_of_texts {s t : Text} (hs : a.toPrimitive = .ok (text s))
    (ht : b.toPrimitive = .ok (text t)) : compare .less a b = .ok true ↔ s < t := by
  rw [compare_less_eq_true_iff, order?_of_texts hs ht, ← Text.order_eq_lt_iff, Except.ok.injEq,
    Option.some.injEq]

theorem compare_less_of_numbers {x y : Number} (ha : a.HasModestIntegers)
    (hb : b.HasModestIntegers) (htext : ¬(a.BecomesText ∧ b.BecomesText))
    (hx : a.toNumber = .ok x) (hy : b.toNumber = .ok y) : compare .less a b = .ok true ↔
      ∃ u v, x.extended? = some u ∧ y.extended? = some v ∧ u < v := by
  rw [compare_less_eq_true_iff, order?_of_numbers ha hb htext hx hy, Except.ok.injEq,
    Number.compare?_eq_lt_iff]

/-- "Less" is transitive among values that become texts, and among those that do not. -/
theorem compare_less_trans (hab : a.BecomesText ↔ b.BecomesText)
    (hbc : b.BecomesText ↔ c.BecomesText) (h : compare .less a b = .ok true)
    (h' : compare .less b c = .ok true) : compare .less a c = .ok true := by
  by_cases htext : b.BecomesText
  · obtain ⟨s, hs⟩ := hab.mpr htext
    obtain ⟨t, ht⟩ := htext
    obtain ⟨u, hu⟩ := hbc.mp ⟨t, ht⟩
    exact (compare_less_of_texts hs hu).mpr
      (((compare_less_of_texts hs ht).mp h).trans ((compare_less_of_texts ht hu).mp h'))
  · have hnota : ¬a.BecomesText := mt hab.mp htext
    rw [compare_less_eq_true_iff] at h h' ⊢
    obtain ⟨x, y, hx, hy, hxnan, -, hxy⟩ := (order?_eq_some_iff fun hboth ↦ hnota hboth.1).mp h
    obtain ⟨y', z, hy', hz, -, hznan, hyz⟩ := (order?_eq_some_iff fun hboth ↦ htext hboth.1).mp h'
    obtain rfl := Except.ok.inj (hy.symm.trans hy')
    exact (order?_eq_some_iff fun hboth ↦ hnota hboth.1).mpr
      ⟨x, z, hx, hz, hxnan, hznan, Number.compare?_lt_trans hxy hyz⟩

/-- **The relational operators are coherent.** A relation holds of two values if the converse holds
the other way round. Values nested within the limit have coherent answers if both become texts or
neither counts as NaN, and no relation holds between them otherwise; every relation fails for a list
nested beyond the limit. "Less" is the order of the texts or that of the exact values, and
transitive. -/
theorem compare_coherent (ha : a.HasModestIntegers) (hb : b.HasModestIntegers) :
    (∀ r, compare r a b = compare r.converse b a) ∧
    (a.ListedWithin Stack.texts ∧ b.ListedWithin Stack.texts → Ordered a b →
      ∃ answer, (∀ r, compare r a b = .ok (answer r)) ∧ Relation.Coherent answer) ∧
    (a.ListedWithin Stack.texts ∧ b.ListedWithin Stack.texts → ¬Ordered a b →
      ∀ r, compare r a b = .ok false) ∧
    (¬(a.ListedWithin Stack.texts ∧ b.ListedWithin Stack.texts) →
      ∀ r, compare r a b = .error .nestingTooDeep) ∧
    (∀ s t, a.toPrimitive = .ok (text s) → b.toPrimitive = .ok (text t) →
      (compare .less a b = .ok true ↔ s < t)) ∧
    (∀ x y, a.toNumber = .ok x → b.toNumber = .ok y → ¬(a.BecomesText ∧ b.BecomesText) →
      (compare .less a b = .ok true ↔
        ∃ u v, x.extended? = some u ∧ y.extended? = some v ∧ u < v)) ∧
    ∀ a b c : Value, (a.BecomesText ↔ b.BecomesText) → (b.BecomesText ↔ c.BecomesText) →
      compare .less a b = .ok true → compare .less b c = .ok true →
        compare .less a c = .ok true := by
  refine ⟨compare_converse ha hb, ?ordered, ?unordered,
    compare_of_not_listedWithin ha.showsShortIntegers hb.showsShortIntegers,
    fun s t ↦ compare_less_of_texts,
    fun x y hx hy htext ↦ compare_less_of_numbers ha hb htext hx hy,
    fun a b c ↦ compare_less_trans⟩
  case ordered =>
    intro hlisted hordered
    obtain ⟨o?, ho, -, hsome⟩ := exists_order? ha hb hlisted.1 hlisted.2
    obtain ⟨o, rfl⟩ := Option.isSome_iff_exists.mp (hsome.mpr hordered)
    exact ⟨fun r ↦ r.holds o, compare_of_some ho, Relation.coherent_holds o⟩
  case unordered =>
    intro hlisted hordered
    obtain ⟨o?, ho, -, hsome⟩ := exists_order? ha hb hlisted.1 hlisted.2
    obtain rfl := Option.not_isSome_iff_eq_none.mp (mt hsome.mp hordered)
    exact compare_of_none ho

/-- A list of a number becomes a text that is compared as a number. -/
theorem compare_coherent_list :
    letI : Stack := .usual
    (list 1 [int 2]).HasModestIntegers ∧ (int 10).HasModestIntegers ∧
      Ordered (list 1 [int 2]) (int 10) ∧
      compare .less (list 1 [int 2]) (int 10) = .ok true ∧
      compare .greater (int 10) (list 1 [int 2]) = .ok true := by
  let stack : Stack := .usual
  have hcounts : (list 1 [int 2]).toNumber = .ok (.int 2) := by decide +kernel
  have hlist : (list 1 [int 2]).HasModestIntegers := by
    refine ⟨fun n hn ↦ ?_, fun n hn ↦ ?_⟩
    · cases hn with
      | item hitem hn =>
        obtain rfl := List.mem_singleton.mp hitem
        cases hn
        decide
    · cases hcounts.symm.trans hn
      decide
  have hint : (int 10).HasModestIntegers := by
    refine ⟨fun n hn ↦ ?_, fun n hn ↦ ?_⟩
    · cases hn
      decide
    · cases hn
      decide
  have hless : compare .less (list 1 [int 2]) (int 10) = .ok true := by decide +kernel
  exact ⟨hlist, hint, .inr ⟨.int 2, .int 10, hcounts, rfl, by decide, by decide⟩, hless,
    ((compare_coherent hlist hint).1 .less).symm.trans hless⟩

/-- No relation of a list nested beyond the limit to a text is decided. -/
theorem compare_nested :
    letI : Stack := .usual
    (nested 3000).HasModestIntegers ∧ (text "x").HasModestIntegers ∧
      compare .less (nested 3000) (text "x") = .error .nestingTooDeep := by
  let stack : Stack := .usual
  have hshort := (hasShortIntegers_nested 3000).showsShortIntegers
  have hdeep : ¬(nested 3000).ListedWithin Stack.texts := mt listedWithin_nested.mp (by decide)
  have hnested : (nested 3000).HasModestIntegers := by
    refine ⟨fun n hn ↦ absurd hn not_partOf_int_nested, fun n hn ↦ ?_⟩
    obtain ⟨plain, hplain, -⟩ := toNumber_eq_ok_iff.mp hn
    exact absurd ((exists_toPrimitive_iff hshort).mp ⟨plain, hplain⟩) hdeep
  have htext : (text "x").HasModestIntegers := by
    refine ⟨fun n hn ↦ ?_, fun n hn ↦ ?_⟩
    · cases hn
    · have hnan : (text "x").toNumber = .ok .nan := by decide +kernel
      cases hnan.symm.trans hn
  exact ⟨hnested, htext, compare_of_not_listedWithin hshort htext.showsShortIntegers
    (fun hlisted ↦ hdeep hlisted.1) .less⟩

end Value

end MockApi
