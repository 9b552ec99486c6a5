import MockApi.Proofs.Number.Numeral
import MockApi.Proofs.Value.Texts
import MockApi.Value.Property

/-!
# What values answer to keys

Lists and texts answer to their length, to the plain decimals of their indices, and to nothing else.
A key is told to be an index by three tests that do not agree on what a digit is: the first takes
everything that looks like a digit, the reading takes the decimal digits of all scripts, up to a
limit on their number, and the comparison takes the ASCII decimal without zeros in front. A key
that passes the last test passes all of them; but a key that passes the first and cannot be read
fails instead of being answered with `undefined`.

Apart from these keys, and from keys that have no text, only `null` and `undefined` refuse an
answer.
-/

namespace MockApi

variable {stack : Stack}

/-! ## Reading what looks like a number -/

namespace Numeral

/-- Only a sign is taken off the front. -/
theorem mem_splitSign {t : Text} {c : Nat} (h : c ∈ t) (hminus : c ≠ '-'.toNat)
    (hplus : c ≠ '+'.toNat) : c ∈ (splitSign t).2 := by
  cases t with
  | nil => cases h
  | cons d t =>
    have htail (hd : c ≠ d) : c ∈ t := (List.mem_cons.mp h).resolve_left hd
    rw [splitSign]
    split
    · rename_i hd
      exact htail fun heq ↦ hminus (heq.trans hd)
    split
    · rename_i hd
      exact htail fun heq ↦ hplus (heq.trans hd)
    · exact h

theorem ne_sign_of_isDigitLike {c : Nat} (h : Text.isDigitLike c = true) :
    c ≠ '-'.toNat ∧ c ≠ '+'.toNat ∧ c ≠ '_'.toNat := by
  refine ⟨?_, ?_, ?_⟩ <;> rintro rfl <;> exact absurd h (by decide)

theorem isMargin_eq_false_of_isDigitLike {c : Nat} (h : Text.isDigitLike c = true) :
    isMargin c = false := by
  rw [isMargin, Text.isBlank_eq_false_of_isDigitLike h, Bool.false_and]

end Numeral

/-- Everything in a written integer that looks like a digit is a decimal digit. -/
theorem isDigit_of_integerOfText {t : Text} {n : Int} (h : integerOfText t = .ok n) {c : Nat}
    (hc : c ∈ t) (hlike : Text.isDigitLike c = true) : Text.isDigit c = true := by
  obtain ⟨hminus, hplus, hscore⟩ := Numeral.ne_sign_of_isDigitLike hlike
  have htrim := Text.mem_trimWhile hc (Numeral.isMargin_eq_false_of_isDigitLike hlike)
  have hbody := Numeral.mem_splitSign htrim hminus hplus
  by_contra hdigit
  -- the digits end in front of it, and so there is something left
  have hstop : (Text.isDigit c || decide (c = '_'.toNat)) = false := by
    rw [Bool.or_eq_false_iff, decide_eq_false_iff_not]
    exact ⟨by simpa using hdigit, hscore⟩
  have hleft := Text.mem_dropWhile (p := fun c ↦ Text.isDigit c || c = '_'.toNat) hbody hstop
  simp only [integerOfText] at h
  split at h
  · cases h
  split at h
  · cases h
  split at h
  · cases h
  · rename_i hempty
    simp only [Bool.not_eq_true, Bool.not_eq_false', List.isEmpty_iff] at hempty
    rw [hempty] at hleft
    cases hleft

/-- Decimal digits are read as an integer, up to the limit on their number. -/
theorem integerOfText_digits {t : Text} (hne : t ≠ []) (h : ∀ c ∈ t, Text.isDigit c = true) :
    integerOfText t = if decimalDigitLimit < t.length then .error (.numeralTooLong t.length)
      else .ok (Text.digitsValue t) := by
  have hlike : ∀ c ∈ t, Text.isDigitLike c = true := fun c hc ↦ by
    rw [Text.isDigitLike, h c hc, Bool.true_or]
  have htrim : Text.trimWhile Numeral.isMargin t = t :=
    Text.trimWhile_eq_self fun c hc ↦ Numeral.isMargin_eq_false_of_isDigitLike (hlike c hc)
  have hsign : Numeral.splitSign t = (false, t) := by
    obtain ⟨c, t, rfl⟩ := List.exists_cons_of_ne_nil hne
    obtain ⟨hminus, hplus, -⟩ := Numeral.ne_sign_of_isDigitLike (hlike c List.mem_cons_self)
    rw [Numeral.splitSign, if_neg hminus, if_neg hplus]
  have hscore : '_'.toNat ∉ t := fun hmem ↦
    (Numeral.ne_sign_of_isDigitLike (hlike _ hmem)).2.2 rfl
  have hbody : ∀ c ∈ t, (Text.isDigit c || decide (c = '_'.toNat)) = true := fun c hc ↦ by
    rw [h c hc, Bool.true_or]
  have htake := List.takeWhile_eq_self_iff.mpr hbody
  have hdrop := List.dropWhile_eq_nil_iff.mpr hbody
  simp only [integerOfText, htrim, hsign, htake, hdrop, Text.splitOn_of_notMem hscore]
  simp [hne]

namespace Value

/-! ## Keys -/

/-- A key that passes for an index and cannot be read: all of it looks like digits, but some of it
is no decimal digit, or there is too much of it. -/
def Unreadable (key : Text) : Prop :=
  key ≠ [] ∧ (∀ c ∈ key, Text.isDigitLike c = true) ∧
    ((∃ c ∈ key, Text.isDigit c = false) ∨ decimalDigitLimit < key.length)

instance (key : Text) : Decidable (Unreadable key) := inferInstanceAs (Decidable (_ ∧ _ ∧ _))

theorem not_unreadable_length : ¬Unreadable "length" := by decide

/-- A key that does not look like an index is none, without being read. -/
theorem index?_of_not_digitLike {key : Text}
    (h : ¬(key ≠ [] ∧ ∀ c ∈ key, Text.isDigitLike c = true)) :
    index? key = .ok none := by
  rw [← List.all_eq_true] at h
  rw [index?, if_neg h]
  rfl

/-- A key of decimal digits is read, up to the limit, and is the index that it writes if it is the
plain decimal of that. -/
theorem index?_digits {key : Text} (hne : key ≠ []) (h : ∀ c ∈ key, Text.isDigit c = true) :
    index? key = if decimalDigitLimit < key.length then .error (.numeralTooLong key.length)
      else .ok (if Text.ofNat (Text.digitsValue key) = key then some (Text.digitsValue key)
        else none) := by
  have hlike : key.all Text.isDigitLike = true := List.all_eq_true.mpr fun c hc ↦ by
    rw [Text.isDigitLike, h c hc, Bool.true_or]
  have hplain : Text.ofInt (Text.digitsValue key) = Text.ofNat (Text.digitsValue key) := by
    rw [Text.ofInt, if_neg (by omega), Int.natAbs_natCast]
  rw [index?, if_pos ⟨hne, hlike⟩, integerOfText_digits hne h]
  split
  · rfl
  · rw [ok_bind, hplain, Int.toNat_natCast]
    rfl

/-- Reading an index fails for unreadable keys and for no others. -/
theorem exists_index?_eq_error_iff {key : Text} :
    (∃ f, index? key = .error f) ↔ Unreadable key := by
  by_cases hlike : key ≠ [] ∧ ∀ c ∈ key, Text.isDigitLike c = true
  · obtain ⟨hne, hlike⟩ := hlike
    rw [Unreadable, and_iff_right hne, and_iff_right hlike]
    by_cases hdigits : ∀ c ∈ key, Text.isDigit c = true
    · have hother : ¬∃ c ∈ key, Text.isDigit c = false := by
        rintro ⟨c, hc, hnot⟩
        rw [hdigits c hc] at hnot
        cases hnot
      rw [index?_digits hne hdigits, or_iff_right hother]
      split <;> simp [*]
    · have hother : ∃ c ∈ key, Text.isDigit c = false := by simpa using hdigits
      refine iff_of_true ?_ (.inl hother)
      rw [index?, if_pos ⟨hne, List.all_eq_true.mpr hlike⟩]
      obtain ⟨c, hc, hnot⟩ := hother
      cases hread : integerOfText key with
      | error f => exact ⟨f, rfl⟩
      | ok n =>
        rw [isDigit_of_integerOfText hread hc (hlike c hc)] at hnot
        cases hnot
  · rw [index?_of_not_digitLike hlike]
    exact iff_of_false (by simp) fun h ↦ hlike ⟨h.1, h.2.1⟩

/-- The plain decimal of an index names it. -/
theorem index?_ofNat {i : Nat} (h : ¬Unreadable (Text.ofNat i)) :
    index? (Text.ofNat i) = .ok (some i) := by
  have hdigits : ∀ c ∈ Text.ofNat i, Text.isDigit c = true := fun c hc ↦
    Text.isDigit_of_isAsciiDigit (Text.isAsciiDigit_of_mem_ofNat hc)
  have hne := Text.ofNat_ne_nil i
  have hshort : ¬decimalDigitLimit < (Text.ofNat i).length := fun hlong ↦
    h ⟨hne, fun c hc ↦ by rw [Text.isDigitLike, hdigits c hc, Bool.true_or], .inr hlong⟩
  rw [index?_digits hne hdigits, if_neg hshort, Text.digitsValue_ofNat, if_pos rfl]

/-- A key that names an index is the plain decimal of it. -/
theorem eq_ofNat_of_index? {key : Text} {i : Nat} (h : index? key = .ok (some i)) :
    key = Text.ofNat i := by
  by_cases hlike : key ≠ [] ∧ ∀ c ∈ key, Text.isDigitLike c = true
  · obtain ⟨hne, hlike⟩ := hlike
    have hdigits : ∀ c ∈ key, Text.isDigit c = true := by
      rw [index?, if_pos ⟨hne, List.all_eq_true.mpr hlike⟩] at h
      obtain ⟨n, hread, -⟩ := bind_eq_ok_iff.mp h
      exact fun c hc ↦ isDigit_of_integerOfText hread hc (hlike c hc)
    rw [index?_digits hne hdigits] at h
    split at h
    · cases h
    · obtain ⟨hplain, heq⟩ := Option.ite_none_right_eq_some.mp (Except.ok.inj h)
      rw [← Option.some.inj heq, hplain]
  · rw [index?_of_not_digitLike hlike] at h
    cases h

/-! ## Answers -/

/-- What a value that answers to indices answers with: the items of a list and, one by one, the code
points of a text. -/
def items? : Value → Option (List Value)
  | list _ items => some items
  | text t => some (t.map fun c ↦ text [c])
  | _ => none

theorem property_of_items? {target key : Value} {items : List Value} {name : Text}
    (hitems : target.items? = some items) (hname : key.toText = .ok name) :
    target.property key = sequenceProperty items name := by
  rw [property, hname]
  cases target with
  | list | text =>
    cases hitems
    rfl
  | _ => cases hitems

variable {items : List Value} {name : Text}

theorem sequenceProperty_length :
    sequenceProperty items "length" = .ok (.int items.length) := if_pos rfl

theorem sequenceProperty_of_ne (h : name ≠ "length") :
    sequenceProperty items name = (index? name).map fun
      | some i => items[i]?.getD .undefined
      | none => .undefined := by
  rw [sequenceProperty, if_neg h]
  rcases index? name with f | _ | i <;> rfl

/-- No index has the name of the length. -/
theorem ofNat_ne_length (i : Nat) : Text.ofNat i ≠ "length" := by
  intro heq
  have hletter : 'l'.toNat ∈ Text.ofNat i := by
    rw [heq]
    decide
  exact absurd (Text.isAsciiDigit_of_mem_ofNat hletter) (by decide)

theorem exists_sequenceProperty_eq_error_iff :
    (∃ f, sequenceProperty items name = .error f) ↔ Unreadable name := by
  by_cases hlength : name = "length"
  · rw [hlength, sequenceProperty_length]
    exact iff_of_false (by simp) not_unreadable_length
  · rw [← exists_index?_eq_error_iff, sequenceProperty_of_ne hlength]
    rcases index? name with f | i <;> simp [Except.map]

/-- Only `null` and `undefined` refuse a key that has a text and can be read. -/
theorem exists_property_eq_error_iff (target key : Value) :
    (∃ f, target.property key = .error f) ↔ target.isNullish = true ∨ ¬key.HasText ∨
      ∃ items name, target.items? = some items ∧ key.toText = .ok name ∧ Unreadable name := by
  cases hname : key.toText with
  | error f =>
    have htext : ¬key.HasText := by
      rw [← exists_toText_iff, hname]
      simp
    refine iff_of_true ⟨f, ?_⟩ (.inr (.inl htext))
    rw [property, hname]
    rfl
  | ok name =>
    have htext : key.HasText := exists_toText_iff.mp ⟨name, hname⟩
    cases hitems : target.items? with
    | some items =>
      have hnullish : target.isNullish = false := by
        cases target with
        | null | undefined => cases hitems
        | _ => rfl
      rw [property_of_items? hitems hname, exists_sequenceProperty_eq_error_iff]
      simp [hnullish, htext]
    | none =>
      rw [property, hname]
      cases target with
      | list | text => cases hitems
      | _ => simp [isNullish, htext]

/-- **What fails, and what lists and texts answer.** A property fails exactly if the target is
`null` or `undefined`, or the key has no text, or the target answers to indices and the key passes
for one and cannot be read. With every other key a list or a text answers with its length, with the
item whose index the key writes in plain decimal, and otherwise with `undefined`. -/
theorem property_answers (target key : Value) :
    ((∃ f, target.property key = .error f) ↔ target.isNullish = true ∨ ¬key.HasText ∨
      ∃ items name, target.items? = some items ∧ key.toText = .ok name ∧ Unreadable name) ∧
    ∀ items name, target.items? = some items → key.toText = .ok name → ¬Unreadable name →
      (name = "length" → target.property key = .ok (.int items.length)) ∧
      (∀ i item, items[i]? = some item → name = Text.ofNat i → target.property key = .ok item) ∧
      (name ≠ "length" → (∀ i < items.length, name ≠ Text.ofNat i) →
        target.property key = .ok .undefined) := by
  refine ⟨exists_property_eq_error_iff target key, fun items name hitems hname hreadable ↦ ?_⟩
  rw [property_of_items? hitems hname]
  refine ⟨?_, ?_, ?_⟩
  · rintro rfl
    exact sequenceProperty_length
  · rintro i item hitem rfl
    rw [sequenceProperty_of_ne (ofNat_ne_length i), index?_ofNat hreadable]
    exact congrArg (fun item? ↦ Except.ok (Option.getD item? .undefined)) hitem
  · intro hlength hnone
    rw [sequenceProperty_of_ne hlength]
    cases hindex : index? name with
    | error f => exact absurd (exists_index?_eq_error_iff.mp ⟨f, hindex⟩) hreadable
    | ok index =>
      cases index with
      | none => rfl
      | some i =>
        -- the index is behind the last item
        have hbehind : items[i]? = none := by
          rw [List.getElem?_eq_none_iff]
          exact Nat.le_of_not_lt fun hi ↦ hnone i hi (eq_ofNat_of_index? hindex)
        exact congrArg (fun item? ↦ Except.ok (Option.getD item? .undefined)) hbehind

/-- A number as a key answers with the item that stands at it. -/
theorem property_answers_index :
    letI : Stack := .usual
    ¬Unreadable (Text.ofNat 1) ∧
      (list 1 [text "a", text "b"]).property (int 1) = .ok (text "b") := by
  have hreadable : ¬Unreadable (Text.ofNat 1) := by decide
  exact ⟨hreadable, ((@property_answers .usual (list 1 [text "a", text "b"]) (int 1)).2 _ _ rfl rfl
    hreadable).2.1 1 _ rfl rfl⟩

/-- A superscript passes for an index and cannot be read as a number. -/
theorem property_superscript :
    letI : Stack := .usual
    (list 1 [text "a"]).isNullish = false ∧ (text [0xB2]).HasText ∧
      (list 1 [text "a"]).property (text [0xB2]) = .error (.notAnInteger [0xB2]) :=
  ⟨rfl, exists_toText_iff.mp ⟨_, @toText_text .usual _⟩, rfl⟩

end Value

end MockApi
