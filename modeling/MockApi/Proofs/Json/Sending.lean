import MockApi.Proofs.Json.Writing
import MockApi.Proofs.Number.Layout
import MockApi.Text.Utf8

/-!
# Which values can be sent

What is sent is standard JSON in UTF-8. A value can be sent if it is not nested too deep, its
integers are short, its doubles are finite, and no surrogate stands in a text or a key. These are
the only obstacles, and each of them is one at any place inside the value.
-/

namespace MockApi

namespace Text

/-! ## Texts without surrogates -/

/-- A text without surrogates. -/
def IsEncodable (t : Text) : Prop := ∀ c ∈ t, isSurrogate c = false

instance (t : Text) : Decidable t.IsEncodable := inferInstanceAs (Decidable (∀ _ ∈ t, _))

theorem isNone_encode?_iff {t : Text} : (Utf8.encode? t).isNone = true ↔ ¬t.IsEncodable := by
  unfold Utf8.encode? IsEncodable
  split
  · rename_i h
    simpa using h
  · rename_i h
    simpa using h

@[simp] theorem isEncodable_nil : IsEncodable [] := List.forall_mem_nil _

@[simp] theorem isEncodable_cons {c : Nat} {t : Text} :
    IsEncodable (c :: t) ↔ isSurrogate c = false ∧ t.IsEncodable := List.forall_mem_cons

@[simp] theorem isEncodable_append {t u : Text} :
    IsEncodable (t ++ u) ↔ t.IsEncodable ∧ u.IsEncodable := List.forall_mem_append

theorem isSurrogate_of_lt {c : Nat} (h : c < 0xD800) : isSurrogate c = false := by
  simp only [isSurrogate, Bool.and_eq_false_iff, decide_eq_false_iff_not]
  omega

/-- Characters are no surrogates. -/
@[simp] theorem isEncodable_ofString (s : String) : (ofString s).IsEncodable := by
  intro c hc
  obtain ⟨char, -, rfl⟩ := List.mem_map.mp hc
  have hvalid : char.toNat < 0xD800 ∨ 0xDFFF < char.toNat ∧ char.toNat < 0x110000 := char.valid
  simp only [isSurrogate, Bool.and_eq_false_iff, decide_eq_false_iff_not]
  omega

@[simp] theorem isEncodable_ofNat (n : Nat) : IsEncodable (ofNat n) := by
  intro c hc
  have hdigit := isAsciiDigit_iff.mp (isAsciiDigit_of_mem_ofNat hc)
  exact isSurrogate_of_lt (by omega)

@[simp] theorem isEncodable_ofInt (n : Int) : IsEncodable (ofInt n) := by
  unfold ofInt
  split
  · exact isEncodable_cons.mpr ⟨by decide, isEncodable_ofNat n.natAbs⟩
  · exact isEncodable_ofNat n.natAbs

theorem isEncodable_join {sep : Text} (hsep : sep.IsEncodable) {ts : List Text} :
    IsEncodable (join sep ts) ↔ ∀ t ∈ ts, t.IsEncodable := by
  induction ts with
  | nil => simp [join]
  | cons t ts ih =>
    cases ts with
    | nil => simp [join]
    | cons u us =>
      rw [join_cons_cons, isEncodable_append, isEncodable_append, List.forall_mem_cons, ih,
        and_assoc, and_iff_right hsep]

end Text

/-! ## Numbers -/

namespace DoubleNotation

theorem isEncodable_write_json (x : Double) : (json.write x).IsEncodable := by
  refine forall_mem_write (fun c hc ↦ ?_) (by decide) (by decide) (by decide) x
  have hdigit := Text.isAsciiDigit_iff.mp hc
  exact Text.isSurrogate_of_lt (by omega)

end DoubleNotation

/-- A number that standard JSON has a text for. -/
def Number.IsSendable : Number → Prop
  | .int n => IsShort n
  | .double x => x.isNaN = false ∧ x.isInfinite = false

namespace Json

theorem exists_writeNumber_standard_iff {x : Number} :
    (∃ t, writeNumber .standard x = .ok t ∧ t.IsEncodable) ↔ x.IsSendable := by
  cases x with
  | int n =>
    rw [Number.IsSendable, ← integerText_eq_ok_iff]
    refine exists_congr fun t ↦ and_iff_left_of_imp fun h ↦ ?_
    replace h : integerText n = .ok t := h
    unfold integerText at h
    split at h
    · exact Except.ok.inj h ▸ Text.isEncodable_ofInt n
    · cases h
  | double x =>
    have hwrite : writeNumber .standard (.double x)
        = if x.isNaN || x.isInfinite then .error .numberNotFinite
          else .ok (DoubleNotation.json.write x) := rfl
    rw [hwrite, Number.IsSendable]
    cases hnan : x.isNaN with
    | true => simp
    | false =>
      cases hinfinite : x.isInfinite with
      | true => simp
      | false => simpa using DoubleNotation.isEncodable_write_json x

/-! ## Texts and brackets -/

theorem lt_of_shortEscape? {c letter : Nat} (h : shortEscape? c = some letter) : c < 0x80 := by
  have hmarks : Text.quotationMark < 0x80 ∧ Text.backslash < 0x80 := by decide
  unfold shortEscape? at h
  grind

theorem isEncodable_escape {c : Nat} :
    (escape false c).IsEncodable ↔ Text.isSurrogate c = false := by
  have hshort : ∀ c < 0x80, ∀ letter ∈ shortEscape? c,
      Text.IsEncodable [Text.backslash, letter] := by decide
  have hcontrol : ∀ c < 0x20, (unitEscape c).IsEncodable := by decide
  unfold escape
  split
  · rename_i letter hletter
    have hc : c < 0x80 := lt_of_shortEscape? hletter
    exact iff_of_true (hshort c hc letter hletter) (Text.isSurrogate_of_lt (by omega))
  · split
    · rename_i hc
      exact iff_of_true (hcontrol c hc) (Text.isSurrogate_of_lt (by omega))
    · simp

theorem isEncodable_flatMap_escape {t : Text} :
    Text.IsEncodable (t.flatMap (escape false)) ↔ t.IsEncodable := by
  refine List.forall_mem_flatMap.trans (forall₂_congr fun c _ ↦ ?_)
  exact isEncodable_escape

theorem isEncodable_writeText {t : Text} : (writeText false t).IsEncodable ↔ t.IsEncodable := by
  have hmark : Text.isSurrogate Text.quotationMark = false := by decide
  rw [writeText, List.cons_append, Text.isEncodable_cons, Text.isEncodable_append,
    Text.isEncodable_cons, and_iff_right hmark, and_iff_left ⟨hmark, Text.isEncodable_nil⟩,
    isEncodable_flatMap_escape]

theorem isEncodable_writeKey {key : Text} :
    (writeKey .standard key).IsEncodable ↔ key.IsEncodable := by
  rw [writeKey, Text.isEncodable_append]
  exact (and_iff_left (Text.isEncodable_ofString _)).trans isEncodable_writeText

theorem isEncodable_bracketed {level opening closing : Nat} {items : List Text}
    (hopening : Text.isSurrogate opening = false) (hclosing : Text.isSurrogate closing = false) :
    (bracketed .standard level opening closing items).IsEncodable
      ↔ ∀ item ∈ items, item.IsEncodable := by
  have hcomma : Text.IsEncodable [','.toNat] := by decide
  cases items with
  | nil => simp [bracketed, hopening, hclosing]
  | cons item items =>
    have hbracketed : bracketed .standard level opening closing (item :: items)
        = opening :: (Text.join [','.toNat] (item :: items) ++ [] ++ [closing]) := rfl
    rw [hbracketed, Text.isEncodable_cons, Text.isEncodable_append, Text.isEncodable_append,
      Text.isEncodable_join hcomma]
    simp [hopening, hclosing]

end Json

/-! ## Values -/

/-- A value nested no more than `levels` deep that can be sent. -/
def Value.SendsWithin : Nat → Value → Prop
  | _, .number x => x.IsSendable
  | _, .text t => t.IsEncodable
  | 0, .list .. | 0, .object .. => False
  | levels + 1, .list _ items => ∀ item ∈ items, item.SendsWithin levels
  | levels + 1, .object _ entries =>
    ∀ entry ∈ entries, entry.1.IsEncodable ∧ entry.2.SendsWithin levels
  | _, .null | _, .undefined | _, .bool _ => True

namespace Value

variable {levels : Nat}

theorem sendsWithin_number {x : Number} : (number x).SendsWithin levels ↔ x.IsSendable := by
  cases levels <;> exact Iff.rfl

@[simp] theorem sendsWithin_text {t : Text} : (text t).SendsWithin levels ↔ t.IsEncodable := by
  cases levels <;> exact Iff.rfl

@[simp] theorem sendsWithin_int {n : Int} : (int n).SendsWithin levels ↔ IsShort n :=
  sendsWithin_number

@[simp] theorem sendsWithin_bool (b : Bool) : (bool b).SendsWithin levels := by
  cases levels <;> trivial

@[simp] theorem sendsWithin_null : null.SendsWithin levels := by
  cases levels <;> trivial

@[simp] theorem sendsWithin_undefined : undefined.SendsWithin levels := by
  cases levels <;> trivial

theorem sendsWithin_ofItems_iff (hlevels : 0 < levels) {items : List Value} :
    (ofItems items).SendsWithin levels ↔ ∀ item ∈ items, item.SendsWithin (levels - 1) := by
  obtain ⟨k, rfl⟩ := Nat.exists_eq_add_one.mpr hlevels
  exact Iff.rfl

theorem sendsWithin_ofEntries_iff (hlevels : 0 < levels) {entries : Entries} :
    (ofEntries entries).SendsWithin levels ↔
      ∀ entry ∈ entries, entry.1.IsEncodable ∧ entry.2.SendsWithin (levels - 1) := by
  obtain ⟨k, rfl⟩ := Nat.exists_eq_add_one.mpr hlevels
  exact Iff.rfl

/-- In a value that can be sent, all texts can. -/
theorem SendsWithin.isEncodable {t : Text} {value : Value} (h : value.SendsWithin levels)
    (hpart : PartOf (.text t) value) : t.IsEncodable := by
  induction hpart generalizing levels with
  | refl => exact sendsWithin_text.mp h
  | item hitem _ ih =>
    cases levels with
    | zero => cases h
    | succ levels => exact ih (h _ hitem)
  | entry hentry _ ih =>
    cases levels with
    | zero => cases h
    | succ levels => exact ih (h _ hentry).2

/-- No surrogate stands in a text or a key of a value. -/
structure HasEncodableTexts (value : Value) : Prop where
  /-- None stands in a text. -/
  texts : ∀ ⦃t⦄, PartOf (.text t) value → t.IsEncodable
  /-- None stands in a key. -/
  keys : ∀ ⦃identity entries⦄, PartOf (.object identity entries) value →
    ∀ entry ∈ entries, entry.1.IsEncodable

theorem hasEncodableTexts_list {identity : Nat} {items : List Value} :
    (list identity items).HasEncodableTexts ↔ ∀ item ∈ items, item.HasEncodableTexts := by
  constructor
  · intro h item hitem
    exact ⟨fun t ht ↦ h.texts (.item hitem ht), fun _ _ hpart ↦ h.keys (.item hitem hpart)⟩
  · intro h
    refine ⟨(forall_partOf_list fun _ ↦ rfl).mpr fun item hitem ↦ (h item hitem).texts, ?_⟩
    intro _ entries hpart
    cases hpart with
    | item hitem hpart => exact (h _ hitem).keys hpart

theorem hasEncodableTexts_object {identity : Nat} {entries : List (Text × Value)} :
    (object identity entries).HasEncodableTexts ↔
      ∀ entry ∈ entries, entry.1.IsEncodable ∧ entry.2.HasEncodableTexts := by
  constructor
  · intro h entry hentry
    exact ⟨h.keys (.refl _) entry hentry, fun t ht ↦ h.texts (.entry hentry ht),
      fun _ _ hpart ↦ h.keys (.entry hentry hpart)⟩
  · intro h
    refine ⟨(forall_partOf_object fun _ ↦ rfl).mpr fun entry hentry ↦ (h entry hentry).2.texts, ?_⟩
    intro _ entries hpart
    cases hpart with
    | refl => exact fun entry hentry ↦ (h entry hentry).1
    | entry hentry hpart => exact (h _ hentry).2.keys hpart

theorem sendsWithin_of_scalar {value : Value} (hcontainer : value.isContainer = false)
    (hshort : value.HasShortIntegers) (hfinite : value.HasFiniteNumbers)
    (htexts : value.HasEncodableTexts) : value.SendsWithin levels := by
  cases value with
  | list | object => cases hcontainer
  | number x =>
    refine sendsWithin_number.mpr ?_
    cases x with
    | int n => exact hasShortIntegers_int.mp hshort
    | double x => exact hasFiniteNumbers_double.mp hfinite
  | text t => exact sendsWithin_text.mpr (htexts.texts (.refl _))
  | null => exact sendsWithin_null
  | undefined => exact sendsWithin_undefined
  | bool b => exact sendsWithin_bool b

/-- What is short, finite and without surrogates can be sent if it is not nested too deep. -/
theorem sendsWithin_of_parts {value : Value} (hnested : value.NestedWithin levels)
    (hshort : value.HasShortIntegers) (hfinite : value.HasFiniteNumbers)
    (htexts : value.HasEncodableTexts) : value.SendsWithin levels := by
  induction levels generalizing value with
  | zero =>
    cases value with
    | list | object => cases hnested
    | _ => exact sendsWithin_of_scalar rfl hshort hfinite htexts
  | succ levels ih =>
    cases value with
    | list identity items =>
      exact fun item hitem ↦ ih (hnested item hitem) (hasShortIntegers_list.mp hshort item hitem)
        (hasFiniteNumbers_list.mp hfinite item hitem) (hasEncodableTexts_list.mp htexts item hitem)
    | object identity entries =>
      intro entry hentry
      obtain ⟨hkey, hvalue⟩ := hasEncodableTexts_object.mp htexts entry hentry
      exact ⟨hkey, ih (hnested entry hentry) (hasShortIntegers_object.mp hshort entry hentry)
        (hasFiniteNumbers_object.mp hfinite entry hentry) hvalue⟩
    | _ => exact sendsWithin_of_scalar rfl hshort hfinite htexts

end Value

namespace Json

variable {levels depth : Nat} {value : Value}

theorem exists_bracketed_standard_iff {α : Type} {opening closing : Nat} {items : List α}
    {f : α → Except Failure Text} (hopening : Text.isSurrogate opening = false)
    (hclosing : Text.isSurrogate closing = false) :
    (∃ t, (items.mapM f >>= fun ts ↦ .ok (bracketed .standard depth opening closing ts)) = .ok t ∧
      t.IsEncodable) ↔ ∀ item ∈ items, ∃ t, f item = .ok t ∧ t.IsEncodable := by
  rw [← exists_mapM_eq_ok_and_iff]
  constructor
  · rintro ⟨t, h, ht⟩
    obtain ⟨ts, hts, h⟩ := bind_eq_ok_iff.mp h
    obtain rfl := Except.ok.inj h
    exact ⟨ts, hts, (isEncodable_bracketed hopening hclosing).mp ht⟩
  · rintro ⟨ts, hts, ht⟩
    exact ⟨_, by rw [hts]; rfl, (isEncodable_bracketed hopening hclosing).mpr ht⟩

theorem exists_writeWithin_standard_iff_of_scalar (hcontainer : value.isContainer = false) :
    (∃ t, writeWithin .standard levels depth value = .ok t ∧ t.IsEncodable)
      ↔ value.SendsWithin levels := by
  cases value with
  | number x =>
    rw [writeWithin, Value.sendsWithin_number]
    exact exists_writeNumber_standard_iff
  | text t =>
    rw [writeWithin, Value.sendsWithin_text]
    simpa [JsonStyle.standard] using isEncodable_writeText
  | list | object => cases hcontainer
  | bool b =>
    rw [writeWithin]
    cases b <;> simp
  | null | undefined =>
    rw [writeWithin]
    simp

/-- **Which values can be sent.** -/
theorem exists_writeWithin_standard_iff :
    (∃ t, writeWithin .standard levels depth value = .ok t ∧ t.IsEncodable)
      ↔ value.SendsWithin levels := by
  induction levels generalizing depth value with
  | zero =>
    cases value with
    | list | object => simp [writeWithin, Value.SendsWithin]
    | _ => exact exists_writeWithin_standard_iff_of_scalar rfl
  | succ levels ih =>
    cases value with
    | list identity items =>
      rw [writeWithin, Value.SendsWithin]
      exact (exists_bracketed_standard_iff (by decide) (by decide)).trans
        (forall₂_congr fun item _ ↦ ih)
    | object identity entries =>
      rw [writeWithin, Value.SendsWithin]
      refine (exists_bracketed_standard_iff (by decide) (by decide)).trans
        (forall₂_congr fun entry _ ↦ ?_)
      -- the entry is written as its key followed by its value, and each of them can fail
      rw [← isEncodable_writeKey, ← @ih (depth + 1)]
      constructor
      · rintro ⟨t, h, ht⟩
        obtain ⟨t', h', h⟩ := bind_eq_ok_iff.mp h
        obtain rfl := Except.ok.inj h
        obtain ⟨hkey, ht'⟩ := Text.isEncodable_append.mp ht
        exact ⟨hkey, t', h', ht'⟩
      · rintro ⟨hkey, t', h', ht'⟩
        refine ⟨writeKey .standard entry.1 ++ t', ?_, Text.isEncodable_append.mpr ⟨hkey, ht'⟩⟩
        dsimp only
        rw [h']
        rfl
    | _ => exact exists_writeWithin_standard_iff_of_scalar rfl

end Json

end MockApi
