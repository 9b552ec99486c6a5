import MockApi.Proofs.Json.Reading
import MockApi.Proofs.Json.RoundTrip

/-!
# Places of values in documents

Reading a document fails in three ways: the document breaks the grammar, it names a number that is
not finite although there are no names for those, or a value in it is beyond a limit. The first way
is told by the grammar. For the others the reader has to get to a place where a value is expected,
which is a relation between the document and its ends: a value is expected at the start, behind an
opening bracket, behind the comma after an item, and behind the colon of a key.

The reader goes from place to place from the left. A fault that is not one of the grammar is met at
such a place, and a fault that is met at such a place is that of the document.
-/

namespace MockApi.Json

variable {stack : Stack}

variable {namesNonFinite : Bool} {t t' rest : Text} {levels : Nat} {fault : JsonFault}

/-! ## Faults of texts and keys -/

theorem exists_malformed_of_readText {opening : Nat} {done : Text} {afterHigh : Bool}
    (h : readText opening done afterHigh t = .error fault) :
    ∃ problem left, fault = .malformed problem left := by
  fun_induction readText opening done afterHigh t with
  | case1 | case3 | case5 | case7 | case8 | case10 => exact ⟨_, _, (Except.error.inj h).symm⟩
  | case2 => cases h
  | case4 | case6 | case9 =>
    rename_i ih
    exact ih h

theorem exists_malformed_of_readKey (h : readKey t = .error fault) :
    ∃ problem left, fault = .malformed problem left := by
  unfold readKey at h
  split at h
  · exact ⟨_, _, (Except.error.inj h).symm⟩
  · rename_i c rest
    split at h
    · exact ⟨_, _, (Except.error.inj h).symm⟩
    · rcases bind_eq_error_iff.mp h with htext | ⟨⟨key, left⟩, -, h⟩
      · exact exists_malformed_of_readText htext
      · dsimp only at h
        split at h
        · split at h
          · cases h
          · exact ⟨_, _, (Except.error.inj h).symm⟩
        · exact ⟨_, _, (Except.error.inj h).symm⟩

/-! ## Places of values -/

/-- What a value belongs to. -/
inductive Place
  /-- The value is the whole document. -/
  | document
  /-- The value is an item of a list. -/
  | list
  /-- The value is that of an entry of an object. -/
  | object

/-- While a document is read, a value is expected at an end of it, with some levels left. -/
inductive Expects [Stack] (namesNonFinite : Bool) (t : Text) : Place → Nat → Text → Prop
  /-- A document is a value. -/
  | start : Expects namesNonFinite t .document Stack.reading (skipSpace t)
  /-- The first item of a list stands behind the bracket. -/
  | firstItem {place : Place} {levels c : Nat} {rest tail : Text}
      (h : Expects namesNonFinite t place (levels + 1) ('['.toNat :: rest))
      (hskip : skipSpace rest = c :: tail) (hopen : c ≠ ']'.toNat) :
      Expects namesNonFinite t .list levels (skipSpace rest)
  /-- Another item stands behind an item and a comma. -/
  | nextItem {levels : Nat} {t' left rest : Text} {value : Value}
      (h : Expects namesNonFinite t .list levels t')
      (hvalue : readValue namesNonFinite t.length levels t' = .ok (value, left))
      (hcomma : skipSpace left = ','.toNat :: rest) :
      Expects namesNonFinite t .list levels (skipSpace rest)
  /-- The value of the first entry of an object stands behind the brace and a key. -/
  | firstEntry {place : Place} {levels c : Nat} {rest tail t' key : Text}
      (h : Expects namesNonFinite t place (levels + 1) (0x7B :: rest))
      (hskip : skipSpace rest = c :: tail) (hopen : c ≠ 0x7D)
      (hkey : readKey (skipSpace rest) = .ok (key, t')) :
      Expects namesNonFinite t .object levels t'
  /-- The value of another entry stands behind an entry, a comma and a key. -/
  | nextEntry {levels : Nat} {t' left rest t'' key : Text} {value : Value}
      (h : Expects namesNonFinite t .object levels t')
      (hvalue : readValue namesNonFinite t.length levels t' = .ok (value, left))
      (hcomma : skipSpace left = ','.toNat :: rest)
      (hkey : readKey (skipSpace rest) = .ok (key, t'')) :
      Expects namesNonFinite t .object levels t''

theorem suffix_of_readValue {size : Nat} {value : Value} {left : Text}
    (h : readValue namesNonFinite size levels t = .ok (value, left)) : left <:+ t := by
  have hwalks : Walks levels t (readValue namesNonFinite size levels t) := walks_readValue
  rwa [h] at hwalks

theorem suffix_of_readKey {key left : Text} (h : readKey t = .ok (key, left)) : left <:+ t := by
  have hwalks : Walks 0 t (readKey t) := walks_readKey
  rwa [h] at hwalks

/-- What stands behind a comma is an end of what the comma follows, and a shorter one. -/
theorem skipSpace_suffix_of_comma {left : Text} (hcomma : skipSpace left = ','.toNat :: rest) :
    skipSpace rest <:+ left ∧ (skipSpace rest).length < left.length := by
  have hleft : ','.toNat :: rest <:+ left := hcomma ▸ skipSpace_suffix left
  have hrest : skipSpace rest <:+ rest := skipSpace_suffix rest
  refine ⟨hrest.trans ((List.suffix_cons _ rest).trans hleft), ?_⟩
  have hlength := hleft.length_le
  have := hrest.length_le
  rw [List.length_cons] at hlength
  omega

variable {place : Place}

/-- Values are expected at ends of the document. -/
theorem Expects.suffix (h : Expects namesNonFinite t place levels t') : t' <:+ t := by
  induction h with
  | start => exact skipSpace_suffix t
  | @firstItem _ _ _ rest _ _ _ _ ih =>
    exact (skipSpace_suffix rest).trans ((List.suffix_cons _ rest).trans ih)
  | nextItem _ hvalue hcomma ih =>
    exact (skipSpace_suffix_of_comma hcomma).1.trans ((suffix_of_readValue hvalue).trans ih)
  | @firstEntry _ _ _ rest _ _ _ _ _ _ hkey ih =>
    exact (suffix_of_readKey hkey).trans
      ((skipSpace_suffix rest).trans ((List.suffix_cons _ rest).trans ih))
  | nextEntry _ hvalue hcomma hkey ih =>
    exact (suffix_of_readKey hkey).trans
      ((skipSpace_suffix_of_comma hcomma).1.trans ((suffix_of_readValue hvalue).trans ih))

/-! ## From a fault to its place -/

/-- Reading a value is refused at its start: no level is left for the bracket, or the value is no
text and no container and cannot be read. -/
def IsRefusedAt (namesNonFinite : Bool) (levels : Nat) (t : Text) (fault : JsonFault) : Prop :=
  (levels = 0 ∧ (∃ c rest, t = c :: rest ∧ (c = '['.toNat ∨ c = 0x7B)) ∧
    fault = .failed .nestingTooDeep) ∨
  readScalar namesNonFinite t = .error fault

section Faults

variable {value : Value} {n : Nat}

/-- A reader that ends with a fault other than those of the grammar has found no broken grammar. -/
theorem error_malformed_ne {α : Type} {problem : JsonProblem} {left : Nat}
    (hfault : ∀ problem left, fault ≠ .malformed problem left) :
    (Except.error (.malformed problem left) : Except JsonFault α) ≠ .error fault :=
  fun h ↦ hfault problem left (Except.error.inj h).symm

/-- A fault in a list is that of an item. -/
theorem exists_expects_of_readItems (hfault : ∀ problem left, fault ≠ .malformed problem left)
    {done : List Value} (hexpects : Expects namesNonFinite t .list levels t')
    (h : readItems (readValue namesNonFinite t.length levels) n done t' = .error fault) :
    ∃ t'', Expects namesNonFinite t .list levels t'' ∧
      readValue namesNonFinite t.length levels t'' = .error fault := by
  induction n generalizing done t' with
  | zero => exact absurd h (error_malformed_ne hfault)
  | succ n ih =>
    unfold readItems at h
    rcases bind_eq_error_iff.mp h with hitem | ⟨⟨value, left⟩, hvalue, h⟩
    · exact ⟨t', hexpects, hitem⟩
    · dsimp only at h
      split at h
      · rename_i c rest hskip
        split at h
        · cases h
        · split at h
          · rename_i hcomma
            rw [hcomma] at hskip
            exact ih (.nextItem hexpects hvalue hskip) h
          · exact absurd h (error_malformed_ne hfault)
      · exact absurd h (error_malformed_ne hfault)

/-- A fault in an object is that of the value of an entry. -/
theorem exists_expects_of_readEntries (hfault : ∀ problem left, fault ≠ .malformed problem left)
    {done : List (Text × Value)}
    (hexpects : ∀ key t'', readKey t' = .ok (key, t'') →
      Expects namesNonFinite t .object levels t'')
    (h : readEntries (readValue namesNonFinite t.length levels) n done t' = .error fault) :
    ∃ t'', Expects namesNonFinite t .object levels t'' ∧
      readValue namesNonFinite t.length levels t'' = .error fault := by
  induction n generalizing done t' with
  | zero => exact absurd h (error_malformed_ne hfault)
  | succ n ih =>
    unfold readEntries at h
    rcases bind_eq_error_iff.mp h with hkey | ⟨⟨key, t''⟩, hkey, h⟩
    · obtain ⟨problem, left, heq⟩ := exists_malformed_of_readKey hkey
      exact absurd heq (hfault _ _)
    have hplace := hexpects key t'' hkey
    rcases bind_eq_error_iff.mp h with hentry | ⟨⟨value, left⟩, hvalue, h⟩
    · exact ⟨t'', hplace, hentry⟩
    · dsimp only at h
      split at h
      · rename_i c rest hskip
        split at h
        · cases h
        · split at h
          · rename_i hcomma
            rw [hcomma] at hskip
            exact ih (fun key' t₃ hkey' ↦ .nextEntry hplace hvalue hskip hkey') h
          · exact absurd h (error_malformed_ne hfault)
      · exact absurd h (error_malformed_ne hfault)

/-- A fault of a value is met at its start, in the items of a list or in the entries of an
object. -/
theorem readValue_fault_cases {size : Nat}
    (hfault : ∀ problem left, fault ≠ .malformed problem left)
    (h : readValue namesNonFinite size levels t = .error fault) :
    IsRefusedAt namesNonFinite levels t fault ∨
      (∃ below rest c tail, levels = below + 1 ∧ t = '['.toNat :: rest ∧
        skipSpace rest = c :: tail ∧ c ≠ ']'.toNat ∧
        readItems (readValue namesNonFinite size below) size [] (skipSpace rest) = .error fault) ∨
      ∃ below rest c tail, levels = below + 1 ∧ t = 0x7B :: rest ∧
        skipSpace rest = c :: tail ∧ c ≠ 0x7D ∧
        readEntries (readValue namesNonFinite size below) size [] (skipSpace rest) =
          .error fault := by
  unfold readValue at h
  split at h
  · exact absurd h (error_malformed_ne hfault)
  rename_i c rest
  split at h
  · rcases bind_eq_error_iff.mp h with htext | ⟨_, -, h⟩
    · obtain ⟨problem, left, heq⟩ := exists_malformed_of_readText htext
      exact absurd heq (hfault _ _)
    · cases h
  split at h
  · rename_i hc
    split at h
    · exact .inl (.inl ⟨rfl, ⟨c, rest, rfl, .inl hc⟩, (Except.error.inj h).symm⟩)
    · rename_i below
      dsimp only at h
      split at h
      · rename_i c' rest' hskip
        split at h
        · cases h
        · rename_i hclose
          rcases bind_eq_error_iff.mp h with hitems | ⟨_, -, h⟩
          · exact .inr (.inl ⟨below, rest, c', rest', rfl, by rw [hc], hskip, hclose,
              hskip ▸ hitems⟩)
          · cases h
      · exact absurd h (error_malformed_ne hfault)
  split at h
  · rename_i hc
    split at h
    · exact .inl (.inl ⟨rfl, ⟨c, rest, rfl, .inr hc⟩, (Except.error.inj h).symm⟩)
    · rename_i below
      dsimp only at h
      split at h
      · rename_i c' rest' hskip
        split at h
        · cases h
        · rename_i hclose
          rcases bind_eq_error_iff.mp h with hentries | ⟨_, -, h⟩
          · exact .inr (.inr ⟨below, rest, c', rest', rfl, by rw [hc], hskip, hclose,
              hskip ▸ hentries⟩)
          · cases h
      · exact absurd h (error_malformed_ne hfault)
  · exact .inl (.inr h)

/-- A fault of a value is met at a place where a value is expected, here or further on. -/
theorem exists_isRefusedAt_of_readValue (hfault : ∀ problem left, fault ≠ .malformed problem left)
    (hexpects : Expects namesNonFinite t place levels t')
    (h : readValue namesNonFinite t.length levels t' = .error fault) :
    ∃ place levels t'', Expects namesNonFinite t place levels t'' ∧
      IsRefusedAt namesNonFinite levels t'' fault := by
  -- the values in a container have one level less
  induction levels generalizing place t' with
  | zero =>
    rcases readValue_fault_cases hfault h with
      hrefused | ⟨_, _, _, _, hlevels, -⟩ | ⟨_, _, _, _, hlevels, -⟩
    · exact ⟨place, 0, t', hexpects, hrefused⟩
    · cases hlevels
    · cases hlevels
  | succ levels ih =>
    rcases readValue_fault_cases hfault h with hrefused |
      ⟨below, rest, c, tail, hlevels, rfl, hskip, hopen, hitems⟩ |
      ⟨below, rest, c, tail, hlevels, rfl, hskip, hopen, hentries⟩
    · exact ⟨place, levels + 1, t', hexpects, hrefused⟩
    · cases hlevels
      obtain ⟨t'', hplace, hitem⟩ :=
        exists_expects_of_readItems hfault (.firstItem hexpects hskip hopen) hitems
      exact ih hplace hitem
    · cases hlevels
      obtain ⟨t'', hplace, hentry⟩ := exists_expects_of_readEntries hfault
        (fun key t'' hkey ↦ .firstEntry hexpects hskip hopen hkey) hentries
      exact ih hplace hentry

/-- A fault of a document, other than one of the grammar, is met at a place where a value is
expected. -/
theorem exists_isRefusedAt_of_read (hfault : ∀ problem left, fault ≠ .malformed problem left)
    (h : read namesNonFinite t = .error fault) :
    ∃ place levels t', Expects namesNonFinite t place levels t' ∧
      IsRefusedAt namesNonFinite levels t' fault := by
  unfold read readDocument at h
  split at h
  · exact absurd h (error_malformed_ne hfault)
  · rcases bind_eq_error_iff.mp h with hvalue | ⟨⟨value, rest⟩, -, h⟩
    · exact exists_isRefusedAt_of_readValue hfault .start hvalue
    · dsimp only at h
      split at h
      · cases h
      · exact absurd h (error_malformed_ne hfault)

end Faults

/-! ## From a place to the fault -/

/-- Wherever what a value belongs to is read, reading ends with the fault. -/
def Fails (namesNonFinite : Bool) (t : Text) (place : Place) (levels : Nat) (t' : Text)
    (fault : JsonFault) : Prop :=
  match place with
  | .document => readValue namesNonFinite t.length levels t' = .error fault
  | .list => ∀ n done, t'.length < n →
    readItems (readValue namesNonFinite t.length levels) n done t' = .error fault
  | .object => ∀ n done start key, start.length < n → readKey start = .ok (key, t') →
    readEntries (readValue namesNonFinite t.length levels) n done start = .error fault

/-- A value that cannot be read takes along what it belongs to. -/
theorem fails_of_readValue (h : readValue namesNonFinite t.length levels t' = .error fault) :
    Fails namesNonFinite t place levels t' fault := by
  cases place with
  | document => exact h
  | list =>
    intro n done hn
    obtain ⟨n, rfl⟩ := Nat.exists_eq_succ_of_ne_zero (Nat.ne_zero_of_lt hn)
    rw [readItems, h, error_bind]
  | object =>
    intro n done start key hn hkey
    obtain ⟨n, rfl⟩ := Nat.exists_eq_succ_of_ne_zero (Nat.ne_zero_of_lt hn)
    rw [readEntries, hkey, ok_bind]
    dsimp only
    rw [h, error_bind]

/-- Reading fails with the fault that is met where a value is expected. -/
theorem read_of_fails (hmark : t.head? ≠ some 0xFEFF)
    (h : Expects namesNonFinite t place levels t')
    (hfails : Fails namesNonFinite t place levels t' fault) :
    read namesNonFinite t = .error fault := by
  induction h with
  | start =>
    rw [read, if_neg hmark, readDocument]
    rw [Fails] at hfails
    rw [hfails, error_bind]
  | @firstItem place levels c rest tail hplace hskip hopen ih =>
    -- what is behind the bracket is shorter than the document, which bounds the items
    have hlength := hplace.suffix.length_le
    have hshorter := (skipSpace_suffix rest).length_le
    rw [List.length_cons] at hlength
    refine ih (fails_of_readValue ?_)
    rw [readValue_bracket hskip hopen, hfails t.length [] (by omega), error_bind]
  | @nextItem levels t' left rest value hplace hvalue hcomma ih =>
    refine ih fun n done hn ↦ ?_
    obtain ⟨n, rfl⟩ := Nat.exists_eq_succ_of_ne_zero (Nat.ne_zero_of_lt hn)
    have hleft := (suffix_of_readValue hvalue).length_le
    have hshorter := (skipSpace_suffix_of_comma hcomma).2
    rw [readItems, hvalue, ok_bind]
    dsimp only
    rw [hcomma]
    exact hfails n (value :: done) (by omega)
  | @firstEntry place levels c rest tail t' key hplace hskip hopen hkey ih =>
    have hlength := hplace.suffix.length_le
    have hshorter := (skipSpace_suffix rest).length_le
    rw [List.length_cons] at hlength
    refine ih (fails_of_readValue ?_)
    rw [readValue_brace hskip hopen, hfails t.length [] _ key (by omega) hkey, error_bind]
  | @nextEntry levels t' left rest t'' key value hplace hvalue hcomma hkey ih =>
    refine ih fun n done start key' hn hstart ↦ ?_
    obtain ⟨n, rfl⟩ := Nat.exists_eq_succ_of_ne_zero (Nat.ne_zero_of_lt hn)
    have hbehind := (suffix_of_readKey hstart).length_le
    have hleft := (suffix_of_readValue hvalue).length_le
    have hshorter := (skipSpace_suffix_of_comma hcomma).2
    rw [readEntries, hstart, ok_bind]
    dsimp only
    rw [hvalue, ok_bind]
    dsimp only
    rw [hcomma]
    exact hfails n ((key', value) :: done) _ key (by omega) hkey

/-! ## Numbers that are not finite -/

theorem readNumber_ne_nonFinite {negative : Bool} {start name : Text} :
    readNumber negative start t ≠ .error (.nonFinite name) := by
  intro h
  unfold readNumber at h
  split at h
  · cases h
  dsimp only at h
  split at h
  · split at h <;> cases h
  · cases h

/-- A document is refused for the name of a number that is not finite. -/
theorem exists_mem_nonFiniteNames_of_read {name : Text}
    (h : read namesNonFinite t = .error (.nonFinite name)) : ∃ x, (name, x) ∈ nonFiniteNames := by
  obtain ⟨_, _, t', -, ⟨-, -, hdeep⟩ | h⟩ := exists_isRefusedAt_of_read (by simp) h
  · cases hdeep
  unfold readScalar at h
  split at h
  · cases h
  · rename_i x _ _ hname
    split at h
    · cases h
    · cases h
      obtain ⟨entry, hentry, hfound⟩ := List.exists_of_findSome?_eq_some hname
      obtain ⟨_, -, hentry'⟩ := Option.map_eq_some_iff.mp hfound
      obtain ⟨rfl, -⟩ := Prod.mk.inj hentry'
      exact ⟨x, hentry⟩
  · split at h
    · split at h
      · exact absurd h readNumber_ne_nonFinite
      · exact absurd h readNumber_ne_nonFinite
    · cases h

end MockApi.Json
