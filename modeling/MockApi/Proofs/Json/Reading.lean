import MockApi.Proofs.Json.Nesting
import MockApi.Proofs.Number.Numeral
import MockApi.Proofs.Value.Writing

/-!
# Values fresh from a document

The reader keeps the limits of the writer: integers with too many digits and nesting beyond the
limit are refused. So what was read can be written again.
-/

namespace MockApi

variable {stack : Stack}

namespace Json

variable {value : Value} {t rest : Text} {namesNonFinite : Bool} {size levels : Nat}

/-! ## Scalars -/

/-- A numeral is read as an integer with few digits or as a double. -/
theorem exists_of_readNumber {negative : Bool} {start : Text}
    (h : readNumber negative start t = .ok (value, rest)) :
    (∃ n, value = .int n ∧ IsShort n) ∨ ∃ x, value = .double x := by
  unfold readNumber at h
  split at h
  · cases h
  · rename_i whole rest' _
    dsimp only at h
    split at h
    · split at h
      · cases h
      · rename_i hlength
        obtain ⟨rfl, -⟩ := Prod.mk.inj (Except.ok.inj h)
        refine .inl ⟨_, rfl, ?_⟩
        have hlt : Text.digitsValue whole < 10 ^ decimalDigitLimit :=
          Nat.lt_of_lt_of_le (Text.digitsValue_lt whole)
            (Nat.pow_le_pow_right (by decide) (Nat.le_of_not_lt hlength))
        refine (Nat.length_toDigits_le_iff (by decide) (by decide)).mpr ?_
        cases negative with
        | false => simpa using hlt
        | true => simpa using hlt
    · obtain ⟨rfl, -⟩ := Prod.mk.inj (Except.ok.inj h)
      exact .inr ⟨_, rfl⟩

/-- What is neither a text nor a container is a literal, the name of a number that is not finite, or
a numeral with its sign. -/
theorem exists_of_readScalar (h : readScalar namesNonFinite t = .ok (value, rest)) :
    (∃ entry ∈ literals, value = entry.2) ∨
      (namesNonFinite = true ∧ ∃ x, value = .double x) ∨
      ∃ negative digits, t = (if negative then ['-'.toNat] else []) ++ digits ∧
        readNumber negative t digits = .ok (value, rest) := by
  unfold readScalar at h
  split at h
  · rename_i name literal rest' hliteral
    obtain ⟨rfl, -⟩ := Prod.mk.inj (Except.ok.inj h)
    obtain ⟨entry, hentry, hfound⟩ := List.exists_of_findSome?_eq_some hliteral
    obtain ⟨_, -, hentry'⟩ := Option.map_eq_some_iff.mp hfound
    obtain ⟨rfl, -⟩ := Prod.mk.inj hentry'
    exact .inl ⟨_, hentry, rfl⟩
  · split at h
    · rename_i hnames
      obtain ⟨rfl, -⟩ := Prod.mk.inj (Except.ok.inj h)
      exact .inr (.inl ⟨hnames, _, rfl⟩)
    · cases h
  · split at h
    · split at h
      · rename_i c t' _ _ hminus
        exact .inr (.inr ⟨true, t', congrArg (· :: t') hminus, h⟩)
      · exact .inr (.inr ⟨false, _, rfl, h⟩)
    · cases h

/-! ## Containers -/

section Containers

variable {item : Text → Except JsonFault (Value × Text)} {p : Value → Prop}

/-- Behind an item the list ends, or further items are read. -/
theorem exists_of_readItems_succ (hwalks : ∀ t, Walks levels t (item t)) {n : Nat}
    {done items : List Value} (h : readItems item (n + 1) done t = .ok (items, rest)) :
    ∃ value left, item t = .ok (value, left) ∧
      (items = (value :: done).reverse ∨
        ∃ t', t' <:+ t ∧ readItems item n (value :: done) t' = .ok (items, rest)) := by
  unfold readItems at h
  obtain ⟨⟨value, left⟩, hvalue, h⟩ := bind_eq_ok_iff.mp h
  refine ⟨value, left, hvalue, ?_⟩
  have hskipped : skipSpace left <:+ t := by
    have hwalk := hwalks t
    rw [hvalue] at hwalk
    exact (skipSpace_suffix left).trans hwalk
  dsimp only at h
  split at h
  · rename_i c left' hskip
    rw [hskip] at hskipped
    split at h
    · exact .inl (Prod.mk.inj (Except.ok.inj h)).1.symm
    · split at h
      · have hbehind := (skipSpace_suffix left').trans (List.suffix_cons c left')
        exact .inr ⟨_, hbehind.trans hskipped, h⟩
      · cases h
  · cases h

/-- Behind an entry the object ends, or further entries are read. -/
theorem exists_of_readEntries_succ (hwalks : ∀ t, Walks levels t (item t)) {n : Nat}
    {done entries : List (Text × Value)}
    (h : readEntries item (n + 1) done t = .ok (entries, rest)) :
    ∃ key value t' left, t' <:+ t ∧ item t' = .ok (value, left) ∧
      (entries = ((key, value) :: done).reverse ∨ ∃ t'', t'' <:+ t ∧
        readEntries item n ((key, value) :: done) t'' = .ok (entries, rest)) := by
  unfold readEntries at h
  obtain ⟨⟨key, t'⟩, hkey, h⟩ := bind_eq_ok_iff.mp h
  obtain ⟨⟨value, left⟩, hvalue, h⟩ := bind_eq_ok_iff.mp h
  have hsuffix : t' <:+ t := by
    have hwalk : Walks levels t (readKey t) := walks_readKey
    rwa [hkey] at hwalk
  refine ⟨key, value, t', left, hsuffix, hvalue, ?_⟩
  have hskipped : skipSpace left <:+ t := by
    have hwalk := hwalks t'
    rw [hvalue] at hwalk
    exact (skipSpace_suffix left).trans (List.IsSuffix.trans hwalk hsuffix)
  dsimp only at h
  split at h
  · rename_i c left' hskip
    rw [hskip] at hskipped
    split at h
    · exact .inl (Prod.mk.inj (Except.ok.inj h)).1.symm
    · split at h
      · have hbehind := (skipSpace_suffix left').trans (List.suffix_cons c left')
        exact .inr ⟨_, hbehind.trans hskipped, h⟩
      · cases h
  · cases h

/-- What holds of every value that is read from an end of the text holds of all items. -/
theorem forall_mem_of_readItems (hwalks : ∀ t, Walks levels t (item t))
    (hitem : ∀ t' value rest, t' <:+ t → item t' = .ok (value, rest) → p value)
    {n : Nat} {done items : List Value} (hdone : ∀ value ∈ done, p value)
    (h : readItems item n done t = .ok (items, rest)) : ∀ value ∈ items, p value := by
  induction n generalizing done t with
  | zero => cases h
  | succ n ih =>
    obtain ⟨value, left, hvalue, hend⟩ := exists_of_readItems_succ hwalks h
    have hdone' : ∀ value' ∈ value :: done, p value' :=
      List.forall_mem_cons.mpr ⟨hitem _ _ _ List.suffix_rfl hvalue, hdone⟩
    rcases hend with rfl | ⟨t', hsuffix, hrest⟩
    · exact fun value' hvalue' ↦ hdone' value' (List.mem_reverse.mp hvalue')
    · exact ih (fun t'' value rest ht'' ↦ hitem t'' value rest (ht''.trans hsuffix)) hdone' hrest

/-- The same for the values of all entries. -/
theorem forall_mem_of_readEntries (hwalks : ∀ t, Walks levels t (item t))
    (hitem : ∀ t' value rest, t' <:+ t → item t' = .ok (value, rest) → p value)
    {n : Nat} {done entries : List (Text × Value)} (hdone : ∀ entry ∈ done, p entry.2)
    (h : readEntries item n done t = .ok (entries, rest)) : ∀ entry ∈ entries, p entry.2 := by
  induction n generalizing done t with
  | zero => cases h
  | succ n ih =>
    obtain ⟨key, value, t', left, hsuffix, hvalue, hend⟩ := exists_of_readEntries_succ hwalks h
    have hdone' : ∀ entry ∈ (key, value) :: done, p entry.2 :=
      List.forall_mem_cons.mpr ⟨hitem _ _ _ hsuffix hvalue, hdone⟩
    rcases hend with rfl | ⟨t'', hsuffix', hrest⟩
    · exact fun entry hentry ↦ hdone' entry (List.mem_reverse.mp hentry)
    · exact ih (fun u value rest hu ↦ hitem u value rest (hu.trans hsuffix')) hdone' hrest

end Containers

/-! ## Values -/

/-- How a value was read from a text: as a text, as another scalar, or as a container of values with
one level less. -/
inductive ReadsAs (namesNonFinite : Bool) (size : Nat) : Nat → Text → Value → Text → Prop
  | text {levels : Nat} {t s rest : Text}
      (h : readText (t.length + 1) [] false t = .ok (s, rest)) :
      ReadsAs namesNonFinite size levels (Text.quotationMark :: t) (.text s) rest
  | scalar {levels : Nat} {t rest : Text} {value : Value}
      (h : readScalar namesNonFinite t = .ok (value, rest)) :
      ReadsAs namesNonFinite size levels t value rest
  | emptyList {levels : Nat} {t rest : Text} :
      ReadsAs namesNonFinite size (levels + 1) t (.ofItems []) rest
  | list {levels : Nat} {t t' rest : Text} {items : List Value} (hsuffix : t' <:+ t)
      (h : readItems (readValue namesNonFinite size levels) size [] t' = .ok (items, rest)) :
      ReadsAs namesNonFinite size (levels + 1) t (.ofItems items) rest
  | emptyObject {levels : Nat} {t rest : Text} :
      ReadsAs namesNonFinite size (levels + 1) t (.ofEntries []) rest
  | object {levels : Nat} {t t' rest : Text} {written : List (Text × Value)} (hsuffix : t' <:+ t)
      (h : readEntries (readValue namesNonFinite size levels) size [] t' = .ok (written, rest)) :
      ReadsAs namesNonFinite size (levels + 1) t (.ofEntries (Table.ofList written)) rest

/-- Every value was read in one of these ways. -/
theorem readsAs_of_readValue (h : readValue namesNonFinite size levels t = .ok (value, rest)) :
    ReadsAs namesNonFinite size levels t value rest := by
  unfold readValue at h
  split at h
  · cases h
  rename_i c t'
  have hinside {t'' : Text} (hskip : skipSpace t' = t'') : t'' <:+ c :: t' := by
    rw [← hskip]
    exact (skipSpace_suffix t').trans (List.suffix_cons c t')
  split at h
  · rename_i hmark
    obtain ⟨⟨s, rest'⟩, htext, h⟩ := bind_eq_ok_iff.mp h
    obtain ⟨rfl, rfl⟩ := Prod.mk.inj (Except.ok.inj h)
    rw [hmark]
    exact .text htext
  -- an opening bracket is refused without a level left, and so is a brace
  split at h
  · split at h
    · cases h
    · dsimp only at h
      split at h
      · rename_i hskip
        split at h
        · obtain ⟨rfl, -⟩ := Prod.mk.inj (Except.ok.inj h)
          exact .emptyList
        · obtain ⟨⟨items, rest'⟩, hitems, h⟩ := bind_eq_ok_iff.mp h
          obtain ⟨rfl, rfl⟩ := Prod.mk.inj (Except.ok.inj h)
          exact .list (hinside hskip) hitems
      · cases h
  split at h
  · split at h
    · cases h
    · dsimp only at h
      split at h
      · rename_i hskip
        split at h
        · obtain ⟨rfl, -⟩ := Prod.mk.inj (Except.ok.inj h)
          exact .emptyObject
        · obtain ⟨⟨written, rest'⟩, hwritten, h⟩ := bind_eq_ok_iff.mp h
          obtain ⟨rfl, rfl⟩ := Prod.mk.inj (Except.ok.inj h)
          exact .object (hinside hskip) hwritten
      · cases h
  · exact .scalar h

/-- **Induction along the reading.** A value is a text or another scalar, or it is made of values
that are read from ends of the text with one level less. -/
theorem readValue_induction {motive : Nat → Text → Value → Prop}
    (text : ∀ levels t s, motive levels t (.text s))
    (scalar : ∀ levels t value rest, readScalar namesNonFinite t = .ok (value, rest) →
      motive levels t value)
    (list : ∀ levels t items, (∀ item ∈ items, ∃ t', t' <:+ t ∧ motive levels t' item) →
      motive (levels + 1) t (.ofItems items))
    (object : ∀ levels t written,
      (∀ entry ∈ written, ∃ t', t' <:+ t ∧ motive levels t' entry.2) →
      motive (levels + 1) t (.ofEntries (Table.ofList written)))
    (h : readValue namesNonFinite size levels t = .ok (value, rest)) : motive levels t value := by
  induction levels generalizing t value rest with
  | zero =>
    cases readsAs_of_readValue h with
    | text => exact text _ _ _
    | scalar h => exact scalar _ _ _ _ h
  | succ levels ih =>
    cases readsAs_of_readValue h with
    | text => exact text _ _ _
    | scalar h => exact scalar _ _ _ _ h
    | emptyList => exact list _ _ [] (List.forall_mem_nil _)
    | emptyObject => exact object _ _ [] (List.forall_mem_nil _)
    | list hsuffix hitems =>
      exact list _ _ _ (forall_mem_of_readItems (fun _ ↦ walks_readValue)
        (fun t'' _ _ hsuffix' hvalue ↦ ⟨t'', hsuffix'.trans hsuffix, ih hvalue⟩)
        (List.forall_mem_nil _) hitems)
    | object hsuffix hwritten =>
      exact object _ _ _ (forall_mem_of_readEntries
        (p := fun value ↦ ∃ t'', t'' <:+ t ∧ motive levels t'' value)
        (fun _ ↦ walks_readValue)
        (fun t'' _ _ hsuffix' hvalue ↦ ⟨t'', hsuffix'.trans hsuffix, ih hvalue⟩)
        (List.forall_mem_nil _) hwritten)

/-- A document is the value that is read behind the blanks in front. -/
theorem exists_of_read (h : read namesNonFinite t = .ok value) :
    ∃ rest, readValue namesNonFinite t.length Stack.reading (skipSpace t) = .ok (value, rest) := by
  unfold read readDocument at h
  split at h
  · cases h
  · obtain ⟨⟨value', rest⟩, hvalue, h⟩ := bind_eq_ok_iff.mp h
    dsimp only at h
    split at h
    · obtain rfl := Except.ok.inj h
      exact ⟨rest, hvalue⟩
    · cases h

/-! ## Limits -/

/-- A value that could be read with some levels left. -/
def Fits (levels : Nat) (value : Value) : Prop :=
  value.NestedWithin levels ∧ value.HasShortIntegers

theorem fits_of_scalar (hcontainer : value.isContainer = false) (hint : ∀ n, value ≠ .int n) :
    Fits levels value :=
  ⟨Value.nestedWithin_of_scalar hcontainer, Value.hasShortIntegers_of_scalar hcontainer hint⟩

theorem fits_of_readScalar (h : readScalar namesNonFinite t = .ok (value, rest)) :
    Fits levels value := by
  have hdouble (x : Double) : Fits levels (.double x) :=
    fits_of_scalar rfl (by simp [Value.int, Value.double])
  rcases exists_of_readScalar h with ⟨entry, hentry, rfl⟩ | ⟨-, x, rfl⟩ | ⟨negative, digits, -, h⟩
  · have hscalar : ∀ entry ∈ literals, entry.2.isContainer = false ∧ ∀ n, entry.2 ≠ .int n := by
      simp [literals, Value.isContainer, Value.int]
    exact fits_of_scalar (hscalar _ hentry).1 (hscalar _ hentry).2
  · exact hdouble x
  · rcases exists_of_readNumber h with ⟨n, rfl, hshort⟩ | ⟨x, rfl⟩
    · exact ⟨Value.nestedWithin_of_scalar rfl, Value.hasShortIntegers_int.mpr hshort⟩
    · exact hdouble x

theorem fits_list {items : List Value} (h : ∀ item ∈ items, Fits levels item) :
    Fits (levels + 1) (.ofItems items) :=
  ⟨fun item hitem ↦ (h item hitem).1,
    Value.hasShortIntegers_list.mpr fun item hitem ↦ (h item hitem).2⟩

theorem fits_object {entries : Entries} (h : ∀ entry ∈ entries, Fits levels entry.2) :
    Fits (levels + 1) (.ofEntries entries) :=
  ⟨fun entry hentry ↦ (h entry hentry).1,
    Value.hasShortIntegers_object.mpr fun entry hentry ↦ (h entry hentry).2⟩

theorem fits_of_readValue (h : readValue namesNonFinite size levels t = .ok (value, rest)) :
    Fits levels value := by
  refine readValue_induction (motive := fun levels _ value ↦ Fits levels value)
    (fun _ _ _ ↦ fits_of_scalar rfl (by simp [Value.int])) (fun _ _ _ _ ↦ fits_of_readScalar)
    (fun _ _ items hitems ↦ fits_list fun item hitem ↦ ?_)
    (fun _ _ written hwritten ↦ fits_object fun entry hentry ↦ ?_) h
  · obtain ⟨_, -, hfits⟩ := hitems item hitem
    exact hfits
  · -- of the entries under one key, the table keeps the last
    obtain ⟨_, -, hfits⟩ := hwritten entry (Table.mem_of_mem_ofList hentry)
    exact hfits

/-- **What was read is within the limits.** -/
theorem fits_of_read (h : read namesNonFinite t = .ok value) : Fits Stack.reading value := by
  obtain ⟨rest, hvalue⟩ := exists_of_read h
  exact fits_of_readValue hvalue

end Json

end MockApi
