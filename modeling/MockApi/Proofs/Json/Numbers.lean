import Mathlib.Data.List.TakeWhile
import MockApi.Proofs.Json.Reading
import MockApi.Proofs.Number.Decimal

/-!
# The numbers of a document

Every double that is read from a document without names for other numbers stands there as a numeral.
So it is no NaN, and it is an infinity exactly if its numeral is beyond the doubles.
-/

namespace MockApi

variable {stack : Stack}

namespace Json

variable {t rest : Text}

/-! ## Numerals -/

/-- The double is read from a numeral that stands in the text. -/
def StandsIn (x : Double) (t : Text) : Prop :=
  ∃ s d, s <:+: t ∧ Numeral.decimal? s = some d ∧ x = d.toDouble

theorem StandsIn.mono {x : Double} {u : Text} (h : StandsIn x t) (hpart : t <:+: u) :
    StandsIn x u := by
  obtain ⟨s, d, hs, hd, hx⟩ := h
  exact ⟨s, d, hs.trans hpart, hd, hx⟩

theorem eq_append_of_spanDigits (t : Text) : t = (spanDigits t).1 ++ (spanDigits t).2 :=
  List.takeWhile_append_dropWhile.symm

theorem isAsciiDigit_of_mem_spanDigits {c : Nat} (h : c ∈ (spanDigits t).1) :
    Text.isAsciiDigit c = true :=
  List.mem_takeWhile_imp h

/-- What the reader takes for the digits before the point are digits. -/
theorem eq_append_of_readWhole {whole : Text} (h : readWhole t = some (whole, rest)) :
    t = whole ++ rest ∧ whole ≠ [] ∧ ∀ c ∈ whole, Text.isAsciiDigit c = true := by
  unfold readWhole at h
  split at h
  · cases h
  · rename_i c t'
    split at h
    · rename_i hzero
      obtain ⟨rfl, rfl⟩ := Prod.mk.inj (Option.some.inj h)
      refine ⟨rfl, List.cons_ne_nil _ _, List.forall_mem_singleton.mpr ?_⟩
      rw [hzero]
      decide
    · split at h
      · rename_i hdigit
        have hspan := Option.some.inj h
        have hwhole : (spanDigits (c :: t')).1 = whole := congrArg Prod.fst hspan
        have hrest : (spanDigits (c :: t')).2 = rest := congrArg Prod.snd hspan
        rw [← hwhole, ← hrest]
        refine ⟨eq_append_of_spanDigits _, ?_, fun _ ↦ isAsciiDigit_of_mem_spanDigits⟩
        simp [spanDigits, hdigit]
      · cases h

/-- A fraction with the point in front. -/
def fractionText : Option Text → Text
  | none => []
  | some digits => '.'.toNat :: digits

theorem eq_append_of_readFraction (t : Text) :
    t = fractionText (readFraction t).1 ++ (readFraction t).2 ∧
      ∀ digits ∈ (readFraction t).1, ∀ c ∈ digits, Text.isAsciiDigit c = true := by
  unfold readFraction
  split
  · exact ⟨rfl, by simp⟩
  · rename_i c t'
    dsimp only
    split
    · rename_i hpoint
      refine ⟨?_, fun digits hdigits ↦ ?_⟩
      · rw [fractionText, List.cons_append, ← eq_append_of_spanDigits, hpoint.1]
      · obtain rfl := Option.some.inj hdigits
        exact fun _ ↦ isAsciiDigit_of_mem_spanDigits
    · exact ⟨rfl, by simp⟩

/-- Digits have no sign in front. -/
theorem splitSign_digits {digits : Text} (h : ∀ c ∈ digits, Text.isAsciiDigit c = true)
    (rest : Text) (hne : digits ≠ []) :
    Numeral.splitSign (digits ++ rest) = (false, digits ++ rest) := by
  obtain ⟨c, digits, rfl⟩ := List.exists_cons_of_ne_nil hne
  have hc := Text.isAsciiDigit_iff.mp (h c List.mem_cons_self)
  have hminus : c ≠ '-'.toNat := by simp; omega
  have hplus : c ≠ '+'.toNat := by simp; omega
  rw [List.cons_append, Numeral.splitSign, if_neg hminus, if_neg hplus]

/-- A sign in front of digits is split off whatever stands behind them. -/
theorem exists_of_splitSign (t : Text) : ∃ sign, t = sign ++ (Numeral.splitSign t).2 ∧
    ∀ digits, digits ≠ [] → (∀ c ∈ digits, Text.isAsciiDigit c = true) →
      Numeral.splitSign (sign ++ digits) = ((Numeral.splitSign t).1, digits) := by
  have hnone (digits : Text) (hne : digits ≠ []) (h : ∀ c ∈ digits, Text.isAsciiDigit c = true) :
      Numeral.splitSign ([] ++ digits) = (false, digits) := by
    have hdigits := splitSign_digits h [] hne
    rwa [List.append_nil] at hdigits
  unfold Numeral.splitSign
  split
  · rename_i c t'
    split
    · rename_i hminus
      exact ⟨[c], rfl, fun digits _ _ ↦ by simp [hminus]⟩
    · split
      · rename_i hplus
        exact ⟨[c], rfl, fun digits _ _ ↦ by simp [hplus]⟩
      · exact ⟨[], rfl, hnone⟩
  · exact ⟨[], rfl, hnone⟩

/-- What the reader takes for an exponent is one on its own. -/
theorem exists_of_readExponent (t : Text) : ∃ s, t = s ++ (readExponent t).2 ∧
    Numeral.exponent? s = some (readExponent t).1 ∧
      ∀ c ∈ s.head?, c = 'e'.toNat ∨ c = 'E'.toNat := by
  unfold readExponent
  split
  · exact ⟨[], rfl, rfl, by simp⟩
  · rename_i c t'
    dsimp only
    split
    · rename_i hletter
      obtain ⟨sign, hsign, hsplit⟩ := exists_of_splitSign t'
      have hdigits : ∀ c ∈ (spanDigits (Numeral.splitSign t').2).1, Text.isAsciiDigit c = true :=
        fun _ ↦ isAsciiDigit_of_mem_spanDigits
      refine ⟨c :: (sign ++ (spanDigits (Numeral.splitSign t').2).1), ?_, ?_, ?_⟩
      · rw [List.cons_append, List.append_assoc, ← eq_append_of_spanDigits, ← hsign]
      · have hall : (spanDigits (Numeral.splitSign t').2).1.all Text.isDigit = true :=
          List.all_eq_true.mpr fun c hc ↦ Text.isDigit_of_isAsciiDigit (hdigits c hc)
        rw [Numeral.exponent?, hsplit _ hletter.2 hdigits]
        dsimp only
        rw [if_pos ⟨hletter.1, hletter.2, hall⟩]
      · simpa using hletter.1
    · exact ⟨[], rfl, rfl, by simp⟩

/-- Sign, digits, fraction and exponent make up a numeral. -/
theorem decimal?_append {negative : Bool} {whole s : Text} {fraction : Option Text}
    {exponent : Option Int} (hwhole : ∀ c ∈ whole, Text.isAsciiDigit c = true) (hne : whole ≠ [])
    (hfraction : ∀ digits ∈ fraction, ∀ c ∈ digits, Text.isAsciiDigit c = true)
    (hexponent : Numeral.exponent? s = some exponent)
    (hhead : ∀ c ∈ s.head?, c = 'e'.toNat ∨ c = 'E'.toNat) :
    Numeral.decimal? ((if negative then ['-'.toNat] else [])
      ++ (whole ++ (fractionText fraction ++ s))) = some ⟨negative, whole, fraction, exponent⟩ := by
  have hletter : ∀ c ∈ s.head?, Text.isDigit c = false ∧ c ≠ '.'.toNat := by
    intro c hc
    rcases hhead c hc with rfl | rfl <;> decide
  have hsign : Numeral.splitSign ((if negative then ['-'.toNat] else [])
      ++ (whole ++ (fractionText fraction ++ s)))
        = (negative, whole ++ (fractionText fraction ++ s)) := by
    cases negative with
    | true => rfl
    | false => exact splitSign_digits hwhole _ hne
  have hwholeSpan : Numeral.spanDigits (whole ++ (fractionText fraction ++ s))
      = (whole, fractionText fraction ++ s) := by
    refine Numeral.spanDigits_append hwhole ?_
    cases fraction with
    | none => exact fun c hc ↦ (hletter c hc).1
    | some digits => exact fun c hc ↦ Option.some.inj hc ▸ by decide
  simp only [Numeral.decimal?, hsign, hwholeSpan]
  cases fraction with
  | none =>
    cases s with
    | nil => simp [fractionText, hne, hexponent]
    | cons c s =>
      have hpoint : ¬c = 0x2E := (hletter c rfl).2
      simp [fractionText, hne, hpoint, hexponent]
  | some digits =>
    have hspan : Numeral.spanDigits (digits ++ s) = (digits, s) :=
      Numeral.spanDigits_append (hfraction digits rfl) fun c hc ↦ (hletter c hc).1
    simp [fractionText, hne, hspan, hexponent]

/-! ## Documents -/

/-- Every double in a value is read from a numeral in the text. -/
def DoublesStandIn (value : Value) (t : Text) : Prop :=
  ∀ ⦃x⦄, Value.PartOf (.double x) value → StandsIn x t

theorem DoublesStandIn.mono {value : Value} {u : Text} (h : DoublesStandIn value t)
    (hpart : t <:+: u) : DoublesStandIn value u :=
  fun _ hx ↦ (h hx).mono hpart

theorem doublesStandIn_of_scalar {value : Value} (hcontainer : value.isContainer = false)
    (h : ∀ x, value = .double x → StandsIn x t) : DoublesStandIn value t :=
  (Value.forall_partOf_scalar hcontainer).mpr h

theorem doublesStandIn_list {items : List Value} (h : ∀ item ∈ items, DoublesStandIn item t) :
    DoublesStandIn (.ofItems items) t :=
  (Value.forall_partOf_list fun _ ↦ rfl).mpr h

theorem doublesStandIn_object {entries : Entries}
    (h : ∀ entry ∈ entries, DoublesStandIn entry.2 t) : DoublesStandIn (.ofEntries entries) t :=
  (Value.forall_partOf_object fun _ ↦ rfl).mpr h

variable {value : Value}

theorem doublesStandIn_of_readNumber {negative : Bool} {start : Text}
    (hstart : start = (if negative then ['-'.toNat] else []) ++ t)
    (h : readNumber negative start t = .ok (value, rest)) : DoublesStandIn value start := by
  unfold readNumber at h
  split at h
  · cases h
  · rename_i whole t₁ hwhole
    obtain ⟨rfl, hne, hdigits⟩ := eq_append_of_readWhole hwhole
    obtain ⟨hfraction, hfractionDigits⟩ := eq_append_of_readFraction t₁
    obtain ⟨s, hexponent, hexponent?, hhead⟩ := exists_of_readExponent (readFraction t₁).2
    dsimp only at h
    split at h
    · split at h
      · cases h
      · obtain ⟨rfl, -⟩ := Prod.mk.inj (Except.ok.inj h)
        exact doublesStandIn_of_scalar rfl (by simp [Value.int, Value.double])
    · obtain ⟨rfl, -⟩ := Prod.mk.inj (Except.ok.inj h)
      refine doublesStandIn_of_scalar rfl fun x hx ↦
        ⟨_, _, ?_, decimal?_append hdigits hne hfractionDigits hexponent? hhead,
          by simpa [Value.double] using hx.symm⟩
      -- the numeral is what the reader has gone over
      refine List.IsPrefix.isInfix ⟨(readExponent (readFraction t₁).2).2, ?_⟩
      rw [hstart]
      conv_rhs => rw [hfraction, hexponent]
      simp only [List.append_assoc]

theorem doublesStandIn_of_readScalar (h : readScalar false t = .ok (value, rest)) :
    DoublesStandIn value t := by
  rcases exists_of_readScalar h with ⟨entry, hentry, rfl⟩ | ⟨hnames, -⟩ | ⟨negative, digits, ht, h⟩
  · have hscalar : ∀ entry ∈ literals, entry.2.isContainer = false ∧ ∀ x, entry.2 ≠ .double x := by
      simp [literals, Value.isContainer, Value.double]
    exact doublesStandIn_of_scalar (hscalar _ hentry).1 fun x hx ↦
      absurd hx ((hscalar _ hentry).2 x)
  · cases hnames
  · exact doublesStandIn_of_readNumber ht h

theorem doublesStandIn_of_readValue {levels size : Nat}
    (h : readValue false size levels t = .ok (value, rest)) : DoublesStandIn value t := by
  refine readValue_induction (motive := fun _ t value ↦ DoublesStandIn value t)
    (fun _ _ _ ↦ doublesStandIn_of_scalar rfl (by simp [Value.double]))
    (fun _ _ _ _ ↦ doublesStandIn_of_readScalar)
    (fun _ _ items hitems ↦ doublesStandIn_list fun item hitem ↦ ?_)
    (fun _ _ written hwritten ↦ doublesStandIn_object fun entry hentry ↦ ?_) h
  · obtain ⟨_, hsuffix, hstands⟩ := hitems item hitem
    exact hstands.mono hsuffix.isInfix
  · obtain ⟨_, hsuffix, hstands⟩ := hwritten entry (Table.mem_of_mem_ofList hentry)
    exact hstands.mono hsuffix.isInfix

/-- **Doubles stand in the document.** Without names for other numbers, every double that is read is
the nearest one to a numeral that stands in the text. -/
theorem doublesStandIn_of_read (h : read false t = .ok value) : DoublesStandIn value t := by
  obtain ⟨rest, hvalue⟩ := exists_of_read h
  exact (doublesStandIn_of_readValue hvalue).mono (skipSpace_suffix t).isInfix

end Json

end MockApi
