import MockApi.Json.Reader
import MockApi.Proofs.Outcome

/-!
# How deep documents are read

Reading a document fails for its nesting only if the document opens more brackets than the limit
allows levels. Every reader leaves an end of the text it is given, so what one reader finds in the
text that another has left was in the text all along.
-/

namespace MockApi.Json

variable {stack : Stack}

/-- The number of opening brackets and braces in a text, inside quotes or not. -/
def openings (t : Text) : Nat := t.countP fun c ↦ c = '['.toNat || c = 0x7B

theorem openings_le_of_suffix {t rest : Text} (h : rest <:+ t) : openings rest ≤ openings t :=
  h.sublist.countP_le

theorem openings_cons {c : Nat} (hc : c = '['.toNat ∨ c = 0x7B) (t : Text) :
    openings (c :: t) = openings t + 1 := List.countP_cons_of_pos (by simpa using hc)

/-- What reading a text may come to: success leaves an end of the text, and failure for nesting
takes more than `levels` openings. -/
def Walks {α : Type} (levels : Nat) (t : Text) : Except JsonFault (α × Text) → Prop
  | .ok (_, rest) => rest <:+ t
  | .error fault => fault = .failed .nestingTooDeep → levels < openings t

variable {α β : Type} {levels : Nat} {t : Text}

theorem walks_malformed {problem : JsonProblem} {left : Nat} :
    Walks levels t (.error (.malformed problem left) : Except JsonFault (α × Text)) := by
  intro h
  cases h

theorem Walks.mono {rest : Text} {result : Except JsonFault (α × Text)}
    (h : Walks levels rest result) (hrest : rest <:+ t) : Walks levels t result := by
  cases result with
  | error fault => exact fun hfault ↦ Nat.lt_of_lt_of_le (h hfault) (openings_le_of_suffix hrest)
  | ok found => exact List.IsSuffix.trans h hrest

theorem Walks.bind {result : Except JsonFault (α × Text)}
    {next : α × Text → Except JsonFault (β × Text)} (h : Walks levels t result)
    (hnext : ∀ a rest, Walks levels rest (next (a, rest))) : Walks levels t (result >>= next) := by
  cases result with
  | error fault => exact h
  | ok found => exact (hnext found.1 found.2).mono h

/-- An opening in front makes room for one more level. -/
theorem Walks.below {c : Nat} {result : Except JsonFault (α × Text)} (h : Walks levels t result)
    (hc : c = '['.toNat ∨ c = 0x7B) : Walks (levels + 1) (c :: t) result := by
  cases result with
  | error fault =>
    intro hfault
    rw [openings_cons hc]
    exact Nat.succ_lt_succ (h hfault)
  | ok found => exact List.IsSuffix.trans h (List.suffix_cons c t)

theorem skipSpace_suffix (t : Text) : skipSpace t <:+ t := List.dropWhile_suffix _

/-! ## Scalars -/

/-- Every step of reading a text takes one code point, or an escape of two or six. -/
theorem walks_readText {opening : Nat} {done : Text} {afterHigh : Bool} :
    Walks levels t (readText opening done afterHigh t) := by
  fun_induction readText opening done afterHigh t with
  | case1 | case3 | case5 | case7 | case8 | case10 => exact walks_malformed
  | case2 => exact List.suffix_cons ..
  | case4 =>
    rename_i ih
    exact ih.mono (List.suffix_cons ..)
  | case6 =>
    rename_i ih
    exact ih.mono ⟨[_, _, _, _, _, _], rfl⟩
  | case9 =>
    rename_i ih
    exact ih.mono ⟨[_, _], rfl⟩

theorem readFraction_suffix (t : Text) : (readFraction t).2 <:+ t := by
  unfold readFraction spanDigits
  split
  · exact List.suffix_rfl
  · dsimp only
    split
    · exact (List.dropWhile_suffix _).trans (List.suffix_cons ..)
    · exact List.suffix_rfl

theorem splitSign_suffix (t : Text) : (Numeral.splitSign t).2 <:+ t := by
  unfold Numeral.splitSign
  split
  · split
    · exact List.suffix_cons ..
    · split
      · exact List.suffix_cons ..
      · exact List.suffix_rfl
  · exact List.suffix_rfl

theorem readExponent_suffix (t : Text) : (readExponent t).2 <:+ t := by
  unfold readExponent spanDigits
  split
  · exact List.suffix_rfl
  · dsimp only
    split
    · exact (List.dropWhile_suffix _).trans ((splitSign_suffix _).trans (List.suffix_cons ..))
    · exact List.suffix_rfl

theorem readWhole_suffix {whole rest : Text} (h : readWhole t = some (whole, rest)) :
    rest <:+ t := by
  unfold readWhole spanDigits at h
  split at h
  · cases h
  · split at h
    · cases h
      exact List.suffix_cons ..
    · split at h
      · cases h
        exact List.dropWhile_suffix _
      · cases h

theorem walks_readNumber {negative : Bool} {start : Text} :
    Walks levels t (readNumber negative start t) := by
  unfold readNumber
  split
  · exact walks_malformed
  · rename_i whole rest hwhole
    have hrest := (readExponent_suffix _).trans
      ((readFraction_suffix rest).trans (readWhole_suffix hwhole))
    dsimp only
    split
    · split
      · intro h
        cases h
      · exact hrest
    · exact hrest

theorem readName?_suffix {table : List (Text × α)} {entry : Text × α} {rest : Text}
    (h : readName? table t = some (entry, rest)) : rest <:+ t := by
  obtain ⟨entry', -, hentry⟩ := List.exists_of_findSome?_eq_some h
  obtain ⟨rest', hrest, heq⟩ := Option.map_eq_some_iff.mp hentry
  cases heq
  exact ⟨_, (Text.eq_append_of_isPrefixOf? hrest).symm⟩

theorem walks_readScalar {namesNonFinite : Bool} :
    Walks levels t (readScalar namesNonFinite t) := by
  unfold readScalar
  split
  · rename_i hliteral
    exact readName?_suffix hliteral
  · rename_i hname
    split
    · exact readName?_suffix hname
    · intro h
      cases h
  · split
    · split
      · exact walks_readNumber.mono (List.suffix_cons ..)
      · exact walks_readNumber
    · exact walks_malformed

/-! ## Containers -/

variable {item : Text → Except JsonFault (Value × Text)}

theorem walks_readItems (hitem : ∀ t, Walks levels t (item t)) {n : Nat} {done : List Value} :
    Walks levels t (readItems item n done t) := by
  induction n generalizing done t with
  | zero => exact walks_malformed
  | succ n ih =>
    unfold readItems
    refine (hitem t).bind fun value rest ↦ ?_
    refine Walks.mono ?_ (skipSpace_suffix rest)
    dsimp only
    split
    · rename_i c rest' hskip
      rw [hskip]
      split
      · exact List.suffix_cons ..
      · split
        · exact ih.mono ((skipSpace_suffix _).trans (List.suffix_cons ..))
        · exact walks_malformed
    · exact walks_malformed

theorem walks_readKey : Walks levels t (readKey t) := by
  cases t with
  | nil => exact walks_malformed
  | cons c t =>
    simp only [readKey]
    split
    · exact walks_malformed
    · refine (walks_readText.bind fun key rest ↦ ?_).mono (List.suffix_cons c t)
      refine Walks.mono ?_ (skipSpace_suffix rest)
      dsimp only
      split
      · rename_i c rest' hskip
        rw [hskip]
        split
        · exact (skipSpace_suffix _).trans (List.suffix_cons ..)
        · exact walks_malformed
      · exact walks_malformed

theorem walks_readEntries (hitem : ∀ t, Walks levels t (item t)) {n : Nat}
    {done : List (Text × Value)} : Walks levels t (readEntries item n done t) := by
  induction n generalizing done t with
  | zero => exact walks_malformed
  | succ n ih =>
    unfold readEntries
    refine walks_readKey.bind fun key rest ↦ (hitem rest).bind fun value rest ↦ ?_
    refine Walks.mono ?_ (skipSpace_suffix rest)
    dsimp only
    split
    · rename_i c rest' hskip
      rw [hskip]
      split
      · exact List.suffix_cons ..
      · split
        · exact ih.mono ((skipSpace_suffix _).trans (List.suffix_cons ..))
        · exact walks_malformed
    · exact walks_malformed

theorem walks_nestingTooDeep {c : Nat} (hc : c = '['.toNat ∨ c = 0x7B) :
    Walks 0 (c :: t) (.error (.failed .nestingTooDeep) : Except JsonFault (α × Text)) := by
  intro _
  rw [openings_cons hc]
  exact Nat.succ_pos _

theorem walks_readValue {namesNonFinite : Bool} {size : Nat} :
    Walks levels t (readValue namesNonFinite size levels t) := by
  induction levels generalizing t with
  | zero =>
    unfold readValue
    split
    · exact walks_malformed
    rename_i c rest
    split
    · refine Walks.mono ?_ (List.suffix_cons c rest)
      exact walks_readText.bind fun text rest ↦ List.suffix_rfl
    split
    · rename_i hc
      exact walks_nestingTooDeep (.inl hc)
    split
    · rename_i hc
      exact walks_nestingTooDeep (.inr hc)
    · exact walks_readScalar
  | succ levels ih =>
    unfold readValue
    split
    · exact walks_malformed
    rename_i c rest
    split
    · refine Walks.mono ?_ (List.suffix_cons c rest)
      exact walks_readText.bind fun text rest ↦ List.suffix_rfl
    split
    · -- the opening bracket makes up for the level that the items have less
      rename_i hc
      refine Walks.below ?_ (.inl hc)
      refine Walks.mono ?_ (skipSpace_suffix rest)
      dsimp only
      split
      · rename_i c rest' hskip
        rw [hskip]
        split
        · exact List.suffix_cons ..
        · exact (walks_readItems fun t ↦ ih).bind fun items rest ↦ List.suffix_rfl
      · exact walks_malformed
    split
    · rename_i hc
      refine Walks.below ?_ (.inr hc)
      refine Walks.mono ?_ (skipSpace_suffix rest)
      dsimp only
      split
      · rename_i c rest' hskip
        rw [hskip]
        split
        · exact List.suffix_cons ..
        · exact (walks_readEntries fun t ↦ ih).bind fun written rest ↦ List.suffix_rfl
      · exact walks_malformed
    · exact walks_readScalar

/-- **Only documents with many brackets are nested too deep.** There are more opening ones than the
limit. -/
theorem lt_openings_of_read {namesNonFinite : Bool}
    (h : read namesNonFinite t = .error (.failed .nestingTooDeep)) :
    Stack.reading < openings t := by
  unfold read at h
  split at h
  · cases h
  unfold readDocument at h
  have hwalks : Walks Stack.reading (skipSpace t)
      (readValue namesNonFinite t.length Stack.reading (skipSpace t)) := walks_readValue
  cases hvalue : readValue namesNonFinite t.length Stack.reading (skipSpace t) with
  | error fault =>
    rw [hvalue] at h hwalks
    cases h
    exact Nat.lt_of_lt_of_le (hwalks rfl) (openings_le_of_suffix (skipSpace_suffix t))
  | ok found =>
    rw [hvalue, ok_bind] at h
    dsimp only at h
    split at h <;> cases h

end MockApi.Json
