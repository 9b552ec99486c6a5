import MockApi.Json.Reader
import MockApi.Proofs.Json.Compact
import MockApi.Proofs.Number.Numeral
import MockApi.Proofs.Table

/-!
# Reading what was written

A plain value is read back from its compact text, unless it is nested beyond the limit. The
induction runs over the value, and what it says of each part holds in front of anything that may
follow a value inside a document: a comma, a closing bracket or brace, or nothing. Numbers need
that, since they have no end of their own.
-/

namespace MockApi

variable {stack : Stack}

/-! ## Digits -/

namespace Text

/-- No zero stands in front of the digits of a positive number. -/
theorem ne_zero_of_mem_head?_ofNat {n : Nat} (h : 0 < n) :
    ∀ c ∈ (ofNat n).head?, c ≠ '0'.toNat := by
  induction n using Nat.strongRecOn with
  | ind n ih =>
    unfold ofNat at ih ⊢
    by_cases hsmall : n < 10
    · have hall : ∀ n < 10, 0 < n → ∀ c ∈ ((Nat.toDigits 10 n).map Char.toNat).head?,
          c ≠ '0'.toNat := by decide
      exact hall n hsmall h
    · -- the first digit is that of the number without its last digit
      have hsplit : Nat.toDigits 10 n = Nat.toDigits 10 (n / 10) ++ Nat.toDigits 10 (n % 10) := by
        rw [Nat.toDigits_append_toDigits (by decide) (by omega) (by omega), Nat.div_add_mod]
      have hne : (Nat.toDigits 10 (n / 10)).map Char.toNat ≠ [] := ofNat_ne_nil (n / 10)
      rw [hsplit, List.map_append, List.head?_append_of_ne_nil _ hne]
      exact ih (n / 10) (by omega) (by omega)

theorem exists_ofInt_eq_cons (n : Int) :
    ∃ c tail, ofInt n = c :: tail ∧ (c = '-'.toNat ∨ isAsciiDigit c = true) := by
  obtain ⟨c, tail, h⟩ := List.exists_cons_of_ne_nil (ofInt_ne_nil n)
  exact ⟨c, tail, h, eq_or_isAsciiDigit_of_mem_ofInt (h ▸ List.mem_cons_self)⟩

end Text

namespace Json

/-! ## Texts -/

theorem unescape?_of_shortEscape? {c letter : Nat} (h : shortEscape? c = some letter) :
    unescape? letter = some c ∧ letter ≠ 'u'.toNat := by
  unfold shortEscape? at h
  split at h
  · cases h
    rename_i hc
    rcases hc with rfl | rfl <;> decide
  · repeat' split at h
    all_goals
      cases h <;> subst_vars <;> decide

/-- The four digits of a control character are read as its number. -/
theorem hexValue?_hex : ∀ c < 0x20,
    (Text.hex 4 c).length = 4 ∧ Text.hexValue? (Text.hex 4 c) = some c := by
  decide +kernel

variable {opening : Nat} {done rest : Text}

/-! The steps of reading a text: the closing mark, a code point that stands for itself, a short
escape, a numbered escape. -/

theorem readText_mark (afterHigh : Bool) :
    readText opening done afterHigh (Text.quotationMark :: rest) = .ok (done.reverse, rest) := by
  rw [readText.eq_def]
  rfl

theorem readText_cons {afterHigh : Bool} {c : Nat} (hmark : c ≠ Text.quotationMark)
    (hcontrol : ¬c < 0x20) (hbackslash : c ≠ Text.backslash) :
    readText opening done afterHigh (c :: rest) = readText opening (c :: done) false rest := by
  rw [readText.eq_def]
  exact (if_neg hmark).trans ((if_neg hcontrol).trans (if_pos hbackslash))

theorem readText_short {afterHigh : Bool} {letter c : Nat} (hletter : letter ≠ 'u'.toNat)
    (h : unescape? letter = some c) :
    readText opening done afterHigh (Text.backslash :: letter :: rest)
      = readText opening (c :: done) false rest := by
  rw [readText.eq_def]
  simp only [if_neg hletter, h]
  rfl

theorem readText_unit {afterHigh : Bool} {w x y z unit next : Nat}
    (h : Text.hexValue? [w, x, y, z] = some unit) :
    readText opening done afterHigh
        (Text.backslash :: 'u'.toNat :: w :: x :: y :: z :: next :: rest)
      = readText opening (pushUnit done afterHigh unit) (isHigh unit) (next :: rest) := by
  rw [readText.eq_def]
  simp only [h]
  rfl

/-- A code point is read back from its escape, if anything follows that. -/
theorem readText_escape (c : Nat) (hrest : rest ≠ []) :
    readText opening done false (escape false c ++ rest)
      = readText opening (c :: done) false rest := by
  unfold escape
  cases hshort : shortEscape? c with
  | some letter =>
    obtain ⟨hletter, hu⟩ := unescape?_of_shortEscape? hshort
    exact readText_short hu hletter
  | none =>
    have hmark : c ≠ Text.quotationMark ∧ c ≠ Text.backslash := by
      by_contra hnot
      rw [shortEscape?, if_pos (by tauto)] at hshort
      cases hshort
    by_cases hcontrol : c < 0x20
    · obtain ⟨hlength, hvalue⟩ := hexValue?_hex c hcontrol
      obtain ⟨next, rest, rfl⟩ := List.exists_cons_of_ne_nil hrest
      obtain ⟨w, x, y, z, hdigits⟩ := List.length_eq_four.mp hlength
      rw [hdigits] at hvalue
      have hlow : isHigh c = false := by
        rw [isHigh, decide_eq_false (by omega), Bool.false_and]
      have hpush : pushUnit done false c = c :: done := by
        cases done <;> rfl
      simp only [if_pos hcontrol, unitEscape, hdigits, List.cons_append, List.nil_append]
      rw [readText_unit hvalue, hlow, hpush]
    · simp only [if_neg hcontrol, Bool.false_and, Bool.false_eq_true, if_false, List.cons_append,
        List.nil_append]
      exact readText_cons hmark.1 hcontrol hmark.2

/-- A text is read back up to its closing mark. -/
theorem readText_flatMap_escape (t rest : Text) :
    readText opening done false (t.flatMap (escape false) ++ Text.quotationMark :: rest)
      = .ok (done.reverse ++ t, rest) := by
  induction t generalizing done with
  | nil => rw [List.flatMap_nil, List.nil_append, readText_mark, List.append_nil]
  | cons c t ih =>
    rw [List.flatMap_cons, List.append_assoc, readText_escape c (by simp), ih]
    simp

/-! ## Numbers -/

/-- What may follow a value inside a document. -/
def EndsValue (rest : Text) : Prop :=
  ∀ c ∈ rest.head?, c = ','.toNat ∨ c = ']'.toNat ∨ c = 0x7D

theorem endsValue_nil : EndsValue [] := by
  intro c hc
  cases hc

theorem endsValue_cons {c : Nat} (h : c = ','.toNat ∨ c = ']'.toNat ∨ c = 0x7D) (rest : Text) :
    EndsValue (c :: rest) := by
  intro d hd
  cases hd
  exact h

theorem readWhole_ofNat (n : Nat) (hrest : EndsValue rest) :
    readWhole (Text.ofNat n ++ rest) = some (Text.ofNat n, rest) := by
  have hdigits : ∀ c ∈ Text.ofNat n, Text.isAsciiDigit c = true :=
    fun c ↦ Text.isAsciiDigit_of_mem_ofNat
  have hstop : ∀ c ∈ rest.head?, Text.isAsciiDigit c = false := by
    intro c hc
    rcases hrest c hc with rfl | rfl | rfl <;> decide
  by_cases hzero : n = 0
  · rw [hzero]
    rfl
  · have hhead := Text.ne_zero_of_mem_head?_ofNat (Nat.pos_of_ne_zero hzero)
    have hspan : spanDigits (Text.ofNat n ++ rest) = (Text.ofNat n, rest) := by
      rw [spanDigits, Text.takeWhile_append_of_stop hdigits hstop,
        Text.dropWhile_append_of_stop hdigits hstop]
    obtain ⟨c, digits, hc⟩ := List.exists_cons_of_ne_nil (Text.ofNat_ne_nil n)
    rw [hc] at hdigits hhead hspan ⊢
    rw [List.cons_append] at hspan ⊢
    rw [readWhole, if_neg (hhead c rfl), if_pos (hdigits c List.mem_cons_self), hspan]

theorem readNumber_ofNat {n : Nat} (h : (Nat.toDigits 10 n).length ≤ decimalDigitLimit)
    (hrest : EndsValue rest) (negative : Bool) (start : Text) :
    readNumber negative start (Text.ofNat n ++ rest)
      = .ok (.int (if negative then -(n : Int) else n), rest) := by
  have hfraction : readFraction rest = (none, rest) := by
    cases rest with
    | nil => rfl
    | cons c rest =>
      have hpoint : c ≠ '.'.toNat := by
        rcases hrest c rfl with rfl | rfl | rfl <;> decide
      rw [readFraction]
      exact if_neg fun hand ↦ hpoint hand.1
  have hexponent : readExponent rest = (none, rest) := by
    cases rest with
    | nil => rfl
    | cons c rest =>
      have hletter : ¬(c = 'e'.toNat ∨ c = 'E'.toNat) := by
        rcases hrest c rfl with rfl | rfl | rfl <;> decide
      rw [readExponent]
      exact if_neg fun hand ↦ hletter hand.1
  unfold readNumber
  rw [readWhole_ofNat n hrest]
  dsimp only
  rw [hfraction, hexponent, Text.length_ofNat, if_neg (Nat.not_lt.mpr h), Text.digitsValue_ofNat]
  rfl

theorem readName?_eq_none {α : Type} {table : List (Text × α)} {t : Text}
    (h : ∀ entry ∈ table, entry.1.isPrefixOf? t = none) : readName? table t = none := by
  rw [readName?, List.findSome?_eq_none_iff]
  intro entry hentry
  rw [h entry hentry, Option.map_none]

theorem isPrefixOf?_cons_of_ne {a b : Nat} (h : a ≠ b) (s t : Text) :
    List.isPrefixOf? (a :: s) (b :: t) = none :=
  if_neg fun heq ↦ h (beq_iff_eq.mp heq)

/-- No literal and no name of a number starts like an integer. -/
theorem readName?_of_isAsciiDigit {c : Nat} (hc : Text.isAsciiDigit c = true) (t : Text) :
    readName? literals (c :: t) = none ∧ readName? nonFiniteNames (c :: t) = none ∧
      readName? literals ('-'.toNat :: c :: t) = none ∧
      readName? nonFiniteNames ('-'.toNat :: c :: t) = none := by
  have hne (a : Nat) (ha : Text.isAsciiDigit a = false) : a ≠ c := by
    rintro rfl
    rw [hc] at ha
    cases ha
  refine ⟨?_, ?_, ?_, ?_⟩ <;> apply readName?_eq_none <;>
    simp only [literals, nonFiniteNames, List.forall_mem_cons, List.not_mem_nil, false_imp_iff,
      implies_true, and_true]
  · exact ⟨isPrefixOf?_cons_of_ne (hne _ (by decide)) _ _,
      isPrefixOf?_cons_of_ne (hne _ (by decide)) _ _,
      isPrefixOf?_cons_of_ne (hne _ (by decide)) _ _⟩
  · exact ⟨isPrefixOf?_cons_of_ne (hne _ (by decide)) _ _,
      isPrefixOf?_cons_of_ne (hne _ (by decide)) _ _,
      isPrefixOf?_cons_of_ne (hne _ (by decide)) _ _⟩
  · exact ⟨rfl, rfl, rfl⟩
  · exact ⟨rfl, rfl, isPrefixOf?_cons_of_ne (hne _ (by decide)) _ _⟩

/-- The written form of an integer is read back, whatever ends the value. -/
theorem readScalar_ofInt {namesNonFinite : Bool} {n : Int} (h : IsShort n)
    (hrest : EndsValue rest) :
    readScalar namesNonFinite (Text.ofInt n ++ rest) = .ok (.int n, rest) := by
  obtain ⟨c, digits, hdigits⟩ := List.exists_cons_of_ne_nil (Text.ofNat_ne_nil n.natAbs)
  have hc : Text.isAsciiDigit c = true :=
    Text.isAsciiDigit_of_mem_ofNat (hdigits ▸ List.mem_cons_self)
  have hminus : c ≠ '-'.toNat := by
    rintro rfl
    cases hc
  obtain ⟨hliteral, hname, hliteral', hname'⟩ := readName?_of_isAsciiDigit hc (digits ++ rest)
  have hread (negative : Bool) (start : Text) := readNumber_ofNat h hrest negative start
  rw [hdigits, List.cons_append] at hread
  unfold readScalar Text.ofInt
  by_cases hnegative : n < 0
  · have hn : -(n.natAbs : Int) = n := by omega
    rw [if_pos hnegative, hdigits, List.cons_append, List.cons_append, hliteral', hname']
    dsimp only
    rw [if_pos rfl, hread, if_pos rfl, hn]
  · have hn : (n.natAbs : Int) = n := by omega
    rw [if_neg hnegative, hdigits, List.cons_append, hliteral, hname]
    dsimp only
    rw [if_neg hminus, hread, if_neg Bool.false_ne_true, hn]

/-! ## Starts of documents -/

/-- A text starts with visible ASCII below the closing brace, other than a closing bracket. -/
def StartsValue (t : Text) : Prop := ∃ c tail, t = c :: tail ∧ 0x20 < c ∧ c < 0x7D ∧ c ≠ ']'.toNat

theorem StartsValue.append {t : Text} (h : StartsValue t) (rest : Text) :
    StartsValue (t ++ rest) := by
  obtain ⟨c, tail, rfl, hc⟩ := h
  exact ⟨c, tail ++ rest, rfl, hc⟩

theorem skipSpace_cons {c : Nat} (h : isSpace c = false) (t : Text) :
    skipSpace (c :: t) = c :: t :=
  List.dropWhile_cons_of_neg (by simp [h])

/-- There is no white space to be skipped in front of a value. -/
theorem StartsValue.skipSpace {t : Text} (h : StartsValue t) : skipSpace t = t := by
  obtain ⟨c, tail, rfl, hlow, -⟩ := h
  refine skipSpace_cons ?_ tail
  simp only [isSpace, Bool.or_eq_false_iff, decide_eq_false_iff_not]
  omega

theorem startsValue_writeText (t : Text) : StartsValue (writeText false t) :=
  ⟨Text.quotationMark, _, rfl, by decide⟩

variable {key text : Text → Prop} {value : Value}

theorem startsValue_compactText (h : value.IsPlain key text) : StartsValue (compactText value) := by
  cases h with
  | null => exact ⟨'n'.toNat, _, rfl, by decide⟩
  | bool b =>
    cases b
    · exact ⟨'f'.toNat, _, rfl, by decide⟩
    · exact ⟨'t'.toNat, _, rfl, by decide⟩
  | @int n hn =>
    obtain ⟨c, tail, hc, hstart⟩ := Text.exists_ofInt_eq_cons n
    refine ⟨c, tail, hc, ?_⟩
    rcases hstart with rfl | hdigit
    · decide
    · rw [Text.isAsciiDigit_iff] at hdigit
      simp only [Char.reduceToNat]
      omega
  | text => exact startsValue_writeText _
  | list =>
    rw [compactText_list]
    exact ⟨'['.toNat, _, rfl, by decide⟩
  | object =>
    rw [compactText_object]
    exact ⟨0x7B, _, rfl, by decide⟩

theorem startsValue_join {t : Text} (h : StartsValue t) (sep : Text) (ts : List Text)
    (rest : Text) : StartsValue (Text.join sep (t :: ts) ++ rest) := by
  obtain ⟨tail, htail⟩ := Text.exists_join_cons_eq_append sep t ts
  rw [htail, List.append_assoc]
  exact h.append _

/-! ## Items and entries -/

section Containers

variable {item : Text → Except JsonFault (Value × Text)} {p : Value → Prop}

theorem readItems_join {items : List Value} (hne : items ≠ []) {n : Nat} (hn : items.length ≤ n)
    (hstarts : ∀ v ∈ items, StartsValue (compactText v))
    (hitem : ∀ v ∈ items, ∀ rest, EndsValue rest →
      item (compactText v ++ rest) = okIf (p v) (.failed .nestingTooDeep) (v, rest))
    (done : List Value) :
    readItems item n done (Text.join [','.toNat] (items.map compactText) ++ ']'.toNat :: rest)
      = okIf (∀ v ∈ items, p v) (.failed .nestingTooDeep) (done.reverse ++ items, rest) := by
  induction items generalizing n done with
  | nil => exact absurd rfl hne
  | cons v items ih =>
    obtain ⟨n, rfl⟩ : ∃ k, n = k + 1 := ⟨n - 1, by simp at hn; omega⟩
    obtain ⟨hv, hitems⟩ := List.forall_mem_cons.mp hitem
    rw [readItems]
    cases items with
    | nil =>
      rw [List.map_singleton, Text.join, hv _ (endsValue_cons (by decide) rest)]
      rw [List.forall_mem_singleton]
      refine okIf_bind_ok ?_
      dsimp only
      rw [skipSpace_cons (by decide)]
      simp
    | cons w items =>
      obtain ⟨-, hstarts⟩ := List.forall_mem_cons.mp hstarts
      have hskip := (startsValue_join (hstarts w List.mem_cons_self) [','.toNat]
        (items.map compactText) (']'.toNat :: rest)).skipSpace
      rw [List.map_cons, List.map_cons, Text.join_cons_cons, List.append_assoc, List.append_assoc,
        List.singleton_append, hv _ (endsValue_cons (by decide) _), List.forall_mem_cons]
      refine okIf_bind ?_
      dsimp only
      rw [skipSpace_cons (by decide)]
      dsimp only
      rw [if_neg (by decide), if_pos rfl, hskip, ← List.map_cons,
        ih (by simp) (by simpa using hn) hstarts hitems]
      simp

/-- A key is read back together with its colon. -/
theorem readKey_writeKey (name : Text) {t : Text} (h : StartsValue t) :
    readKey (writeKey .compact name ++ t) = .ok (name, t) := by
  have hread : ∀ opening, readText opening [] false
      (name.flatMap (escape false) ++ (Text.quotationMark :: ':'.toNat :: t))
        = .ok (name, ':'.toNat :: t) := fun opening ↦ readText_flatMap_escape name _
  have hshape : writeKey .compact name ++ t = Text.quotationMark ::
      (name.flatMap (escape false) ++ (Text.quotationMark :: ':'.toNat :: t)) := by
    simp [writeKey_compact, writeText]
  rw [hshape, readKey, if_neg (by simp)]
  dsimp only
  rw [hread, ok_bind]
  dsimp only
  rw [skipSpace_cons (by decide)]
  dsimp only
  rw [if_pos rfl, h.skipSpace]
  rfl

theorem startsValue_entryText (entry : Text × Value) : StartsValue (entryText entry) :=
  ((startsValue_writeText _).append _).append _

theorem readEntries_join {entries : List (Text × Value)} (hne : entries ≠ []) {n : Nat}
    (hn : entries.length ≤ n) (hstarts : ∀ entry ∈ entries, StartsValue (compactText entry.2))
    (hitem : ∀ entry ∈ entries, ∀ rest, EndsValue rest →
      item (compactText entry.2 ++ rest) = okIf (p entry.2) (.failed .nestingTooDeep)
        (entry.2, rest))
    (done : List (Text × Value)) :
    readEntries item n done (Text.join [','.toNat] (entries.map entryText) ++ 0x7D :: rest)
      = okIf (∀ entry ∈ entries, p entry.2) (.failed .nestingTooDeep)
        (done.reverse ++ entries, rest) := by
  induction entries generalizing n done with
  | nil => exact absurd rfl hne
  | cons entry entries ih =>
    obtain ⟨n, rfl⟩ : ∃ k, n = k + 1 := ⟨n - 1, by simp at hn; omega⟩
    obtain ⟨hentry, hentries⟩ := List.forall_mem_cons.mp hitem
    obtain ⟨hstart, hstarts⟩ := List.forall_mem_cons.mp hstarts
    have hkey (rest : Text) : readKey (entryText entry ++ rest)
        = .ok (entry.1, compactText entry.2 ++ rest) := by
      rw [entryText, List.append_assoc, readKey_writeKey _ (hstart.append rest)]
    rw [readEntries]
    cases entries with
    | nil =>
      rw [List.map_singleton, Text.join, hkey, ok_bind]
      dsimp only
      rw [hentry _ (endsValue_cons (by decide) rest), List.forall_mem_singleton]
      refine okIf_bind_ok ?_
      dsimp only
      rw [skipSpace_cons (by decide)]
      simp
    | cons next entries =>
      have hskip := (startsValue_join (startsValue_entryText next) [','.toNat]
        (entries.map entryText) (0x7D :: rest)).skipSpace
      rw [List.map_cons, List.map_cons, Text.join_cons_cons, List.append_assoc, List.append_assoc,
        List.singleton_append, hkey, ok_bind]
      dsimp only
      rw [hentry _ (endsValue_cons (by decide) _), List.forall_mem_cons]
      refine okIf_bind ?_
      dsimp only
      rw [skipSpace_cons (by decide)]
      dsimp only
      rw [if_neg (by decide), if_pos rfl, hskip, ← List.map_cons,
        ih (by simp) (by simpa using hn) hstarts hentries]
      simp

end Containers

/-! ## Values -/

section Values

variable {namesNonFinite : Bool} {size levels : Nat}

theorem readValue_mark : readValue namesNonFinite size levels (Text.quotationMark :: rest)
    = readText (rest.length + 1) [] false rest >>= fun found ↦ .ok (.text found.1, found.2) := by
  cases levels <;> rfl

theorem readValue_scalar {c : Nat} (hmark : c ≠ Text.quotationMark) (hbracket : c ≠ '['.toNat)
    (hbrace : c ≠ 0x7B) : readValue namesNonFinite size levels (c :: rest)
      = readScalar namesNonFinite (c :: rest) := by
  unfold readValue
  cases levels <;> rw [if_neg hmark, if_neg hbracket, if_neg hbrace]

/-- Reading a list is reading its items, unless there are none. -/
theorem readValue_bracket {c : Nat} {tail : Text} (h : skipSpace rest = c :: tail)
    (hc : c ≠ ']'.toNat) : readValue namesNonFinite size (levels + 1) ('['.toNat :: rest)
      = readItems (readValue namesNonFinite size levels) size [] (skipSpace rest) >>= fun found ↦
        .ok (.ofItems found.1, found.2) := by
  rw [readValue, if_neg (by decide), if_pos rfl, h]
  exact if_neg hc

/-- Reading an object is reading its entries, unless there are none. -/
theorem readValue_brace {c : Nat} {tail : Text} (h : skipSpace rest = c :: tail)
    (hc : c ≠ 0x7D) : readValue namesNonFinite size (levels + 1) (0x7B :: rest)
      = readEntries (readValue namesNonFinite size levels) size [] (skipSpace rest) >>= fun found ↦
        .ok (.ofEntries (Table.ofList found.1), found.2) := by
  rw [readValue, if_neg (by decide), if_neg (by decide), if_pos rfl, h]
  exact if_neg hc

/-- The value is read back in front of any text in which it ends, unless it is nested too deep. -/
def ReadsBack (namesNonFinite : Bool) (size : Nat) (value : Value) : Prop :=
  ∀ ⦃levels rest⦄, EndsValue rest →
    readValue namesNonFinite size levels (compactText value ++ rest)
      = okIf (value.NestedWithin levels) (.failed .nestingTooDeep) (value, rest)

theorem readsBack_int {n : Int} (hn : IsShort n) : ReadsBack namesNonFinite size (.int n) := by
  intro levels rest hrest
  obtain ⟨c, tail, hc, hstart⟩ := Text.exists_ofInt_eq_cons n
  have hne (d : Nat) (hd : d ≠ '-'.toNat ∧ Text.isAsciiDigit d = false) : c ≠ d := by
    rintro rfl
    rcases hstart with hstart | hstart
    · exact hd.1 hstart
    · rw [hd.2] at hstart
      cases hstart
  have hread : readScalar namesNonFinite (Text.ofInt n ++ rest) = .ok (.int n, rest) :=
    readScalar_ofInt hn hrest
  rw [hc] at hread
  rw [okIf_of (Value.nestedWithin_of_scalar rfl), Value.int, compactText, hc]
  exact (readValue_scalar (hne _ (by decide)) (hne _ (by decide)) (hne _ (by decide))).trans hread

theorem readsBack_text (t : Text) : ReadsBack namesNonFinite size (.text t) := by
  intro levels rest _
  rw [okIf_of (Value.nestedWithin_of_scalar rfl), compactText, writeText, List.append_assoc,
    List.cons_append, readValue_mark, List.singleton_append, readText_flatMap_escape]
  rfl

theorem readsBack_list {items : List Value} (hsize : items.length ≤ size)
    (hstarts : ∀ v ∈ items, StartsValue (compactText v))
    (h : ∀ v ∈ items, ReadsBack namesNonFinite size v) :
    ReadsBack namesNonFinite size (.list 0 items) := by
  intro levels rest _
  rw [compactText_list, List.cons_append, List.append_assoc, List.singleton_append]
  cases levels with
  | zero => exact (okIf_of_not fun hnested ↦ hnested).symm
  | succ levels =>
    by_cases hne : items = []
    · -- a closing bracket right behind the opening one is read on its own
      subst hne
      rw [okIf_of (by intro v hv; cases hv)]
      rfl
    · obtain ⟨first, others, rfl⟩ := List.exists_cons_of_ne_nil hne
      have hstart := startsValue_join (hstarts first List.mem_cons_self) [','.toNat]
        (others.map compactText) (']'.toNat :: rest)
      have hskip := hstart.skipSpace
      obtain ⟨c, tail, hc, -, -, hbracket⟩ := hstart
      rw [List.map_cons, readValue_bracket (hskip.trans hc) hbracket, hskip, ← List.map_cons,
        readItems_join hne hsize hstarts fun v hv rest hrest ↦ h v hv hrest]
      exact okIf_bind_ok rfl

theorem readsBack_object {entries : List (Text × Value)} (hdistinct : (Table.names entries).Nodup)
    (hsize : entries.length ≤ size)
    (hstarts : ∀ entry ∈ entries, StartsValue (compactText entry.2))
    (h : ∀ entry ∈ entries, ReadsBack namesNonFinite size entry.2) :
    ReadsBack namesNonFinite size (.object 0 entries) := by
  intro levels rest _
  have htable : Table.ofList entries = entries := Table.ofList_eq_self hdistinct
  rw [compactText_object, List.cons_append, List.append_assoc, List.singleton_append]
  cases levels with
  | zero => exact (okIf_of_not fun hnested ↦ hnested).symm
  | succ levels =>
    by_cases hne : entries = []
    · subst hne
      rw [okIf_of (by intro entry hentry; cases hentry)]
      rfl
    · obtain ⟨first, others, rfl⟩ := List.exists_cons_of_ne_nil hne
      have hstart := startsValue_join (startsValue_entryText first) [','.toNat]
        (others.map entryText) (0x7D :: rest)
      have hskip := hstart.skipSpace
      obtain ⟨c, tail, hc, -, hbrace, -⟩ := hstart
      rw [List.map_cons, readValue_brace (hskip.trans hc) (Nat.ne_of_lt hbrace), hskip,
        ← List.map_cons,
        readEntries_join hne hsize hstarts fun entry hentry rest hrest ↦ h entry hentry hrest]
      exact okIf_bind_ok (by rw [List.reverse_nil, List.nil_append, htable]; rfl)

/-- Plain values are read back if there are as many steps as code points. -/
theorem readsBack_of_isPlain (h : value.IsPlain key text)
    (hsize : (compactText value).length ≤ size) : ReadsBack namesNonFinite size value := by
  induction h with
  | null =>
    intro levels rest _
    rw [okIf_of (Value.nestedWithin_of_scalar rfl)]
    exact readValue_scalar (by decide) (by decide) (by decide)
  | bool b =>
    intro levels rest _
    rw [okIf_of (Value.nestedWithin_of_scalar rfl)]
    cases b <;> exact readValue_scalar (by decide) (by decide) (by decide)
  | int hn => exact readsBack_int hn
  | text => exact readsBack_text _
  | @list items hplain ih =>
    rw [compactText_list, List.length_cons, List.length_append] at hsize
    have hlength := Text.length_le_length_join ','.toNat (items.map compactText)
    rw [List.length_map] at hlength
    -- no item has a longer text than the list, and there are no more items than code points
    refine readsBack_list (by rw [List.length_singleton] at hsize; omega)
      (fun v hv ↦ startsValue_compactText (hplain v hv)) fun v hv ↦ ih v hv ?_
    have hle := Text.length_le_length_join_of_mem [','.toNat]
      (List.mem_map_of_mem (f := compactText) hv)
    omega
  | @object entries hdistinct _ hplain ih =>
    rw [compactText_object, List.length_cons, List.length_append] at hsize
    have hlength := Text.length_le_length_join ','.toNat (entries.map entryText)
    rw [List.length_map] at hlength
    refine readsBack_object hdistinct (by rw [List.length_singleton] at hsize; omega)
      (fun entry hentry ↦ startsValue_compactText (hplain entry hentry))
      fun entry hentry ↦ ih entry hentry ?_
    have hle := Text.length_le_length_join_of_mem [','.toNat]
      (List.mem_map_of_mem (f := entryText) hentry)
    rw [entryText, List.length_append] at hle
    omega

/-- **Written values are read back.** A plain value is read from its compact text, unless it is
nested beyond the limit, and that is the fault then. -/
theorem read_compactText (h : value.IsPlain key text) :
    read namesNonFinite (compactText value)
      = okIf (value.NestedWithin Stack.reading) (.failed .nestingTooDeep) value := by
  have hstart := startsValue_compactText h
  have hmark : (compactText value).head? ≠ some 0xFEFF := by
    obtain ⟨c, tail, hc, -, hlow, -⟩ := hstart
    rw [hc, List.head?_cons, ne_eq, Option.some.injEq]
    omega
  have hread : readValue namesNonFinite (compactText value).length Stack.reading
      (compactText value ++ [])
        = okIf (value.NestedWithin Stack.reading) (.failed .nestingTooDeep) (value, []) :=
    readsBack_of_isPlain h (Nat.le_refl _) endsValue_nil
  rw [List.append_nil] at hread
  rw [read, if_neg hmark, readDocument, hstart.skipSpace, hread]
  exact okIf_bind_ok rfl

end Values

end Json

end MockApi
