/-!
# Text

A text is a list of code points. Code points are plain numbers rather than `Char`, because texts
that arrive through `\u` escapes may hold surrogates, and those have to survive until a text is
encoded. Length, index and order are those of lists, so all of them work on code points.

Every other layer is built on the handful of operations here: splitting at a code point, cutting at
the first occurrence of one, and searching for a text inside another.
-/

namespace MockApi

/-- A finite sequence of code points, each given by its number in the Unicode code space. -/
abbrev Text := List Nat

namespace Text

/-- The code points of a string. -/
def ofString (s : String) : Text := s.toList.map Char.toNat

instance : Coe String Text := ⟨ofString⟩

/-- Surrogates are the code points that stand for no character of their own. -/
def isSurrogate (c : Nat) : Bool := 0xD800 ≤ c && c ≤ 0xDFFF

/-- The string of a text, if every code point is a character. -/
def toString? (t : Text) : Option String :=
  if t.all (fun c ↦ !isSurrogate c && c < 0x110000) then some (String.ofList (t.map Char.ofNat))
  else none

/-! ## Cutting and joining -/

/-- The pieces between the occurrences of `sep`; there is one more piece than occurrences. -/
def splitOn (sep : Nat) : Text → List Text
  | [] => [[]]
  | c :: t =>
    if c = sep then [] :: splitOn sep t
    else match splitOn sep t with
      | [] => [[c]]
      | piece :: pieces => (c :: piece) :: pieces

/-- The parts before and after the first occurrence of `sep`, if there is one. -/
def cut? (sep : Nat) : Text → Option (Text × Text)
  | [] => none
  | c :: t => if c = sep then some ([], t) else (cut? sep t).map fun (l, r) ↦ (c :: l, r)

/-- The part before the first occurrence of `sep`, or the whole text. -/
def before (sep : Nat) (t : Text) : Text := t.takeWhile (· ≠ sep)

/-- The part after the last occurrence of `sep`, or the whole text. -/
def afterLast (sep : Nat) (t : Text) : Text := (t.reverse.takeWhile (· ≠ sep)).reverse

/-- The texts one after another with `sep` between neighbours. -/
def join (sep : Text) : List Text → Text
  | [] => []
  | [t] => t
  | t :: ts => t ++ sep ++ join sep ts

/-- The parts before and after the first occurrence of the text `needle`. -/
def cutAt? (needle : Text) : Text → Option (Text × Text)
  | [] => if needle.isEmpty then some ([], []) else none
  | c :: t =>
    match needle.isPrefixOf? (c :: t) with
    | some rest => some ([], rest)
    | none => (cutAt? needle t).map fun (l, r) ↦ (c :: l, r)

/-- Whether `needle` occurs in the text. -/
def includes (needle : Text) (t : Text) : Bool := (cutAt? needle t).isSome

/-- The text less the code points satisfying `p` at its end. -/
def dropEndWhile (p : Nat → Bool) (t : Text) : Text := (t.reverse.dropWhile p).reverse

/-- The text less the code points satisfying `p` at both ends. -/
def trimWhile (p : Nat → Bool) (t : Text) : Text := dropEndWhile p (t.dropWhile p)

/-! ## ASCII letters -/

/-- The lower-case form of an ASCII letter; every other code point is left alone. -/
def asciiLower (c : Nat) : Nat :=
  if 'A'.toNat ≤ c && c ≤ 'Z'.toNat then c + 32 else c

/-- The text with its ASCII letters in lower case. -/
def toAsciiLower (t : Text) : Text := t.map asciiLower

/-- An ASCII letter of either case. -/
def isAsciiLetter (c : Nat) : Bool :=
  ('a'.toNat ≤ c && c ≤ 'z'.toNat) || ('A'.toNat ≤ c && c ≤ 'Z'.toNat)

/-- An ASCII decimal digit. -/
def isAsciiDigit (c : Nat) : Bool := '0'.toNat ≤ c && c ≤ '9'.toNat

/-- The value of a hexadecimal digit. -/
def hexDigit? (c : Nat) : Option Nat :=
  if isAsciiDigit c then some (c - '0'.toNat)
  else if 'a'.toNat ≤ c && c ≤ 'f'.toNat then some (c - 'a'.toNat + 10)
  else if 'A'.toNat ≤ c && c ≤ 'F'.toNat then some (c - 'A'.toNat + 10)
  else none

/-- The number that hexadecimal digits write, if all of them are such digits. -/
def hexValue? (t : Text) : Option Nat :=
  t.foldl (fun acc c ↦ acc.bind fun n ↦ (hexDigit? c).map fun d ↦ 16 * n + d) (some 0)

/-- A number in hexadecimal, in lower case, with zeros in front up to `width` digits. -/
def hex (width n : Nat) : Text :=
  let digits := (Nat.toDigits 16 n).map Char.toNat
  List.replicate (width - digits.length) '0'.toNat ++ digits

/-! ## The first laws -/

theorem splitOn_ne_nil (sep : Nat) (t : Text) : splitOn sep t ≠ [] := by
  cases t with
  | nil => simp [splitOn]
  | cons c t =>
    unfold splitOn
    split
    · simp
    · split <;> simp

theorem join_cons_cons (sep t u : Text) (ts : List Text) :
    join sep (t :: u :: ts) = t ++ sep ++ join sep (u :: ts) := rfl

theorem exists_join_cons_eq_append (sep t : Text) (ts : List Text) :
    ∃ tail, join sep (t :: ts) = t ++ tail := by
  cases ts with
  | nil => exact ⟨[], (List.append_nil t).symm⟩
  | cons u ts => exact ⟨sep ++ join sep (u :: ts), List.append_assoc ..⟩

/-- There are no more texts than code points in their join and one. -/
theorem length_le_length_join (sep : Nat) (ts : List Text) :
    ts.length ≤ (join [sep] ts).length + 1 := by
  induction ts with
  | nil => exact Nat.zero_le _
  | cons t ts ih =>
    cases ts with
    | nil => simp
    | cons u ts =>
      simp only [join_cons_cons, List.length_append, List.length_cons, List.length_nil] at ih ⊢
      omega

theorem length_le_length_join_of_mem (sep : Text) {t : Text} {ts : List Text} (h : t ∈ ts) :
    t.length ≤ (join sep ts).length := by
  induction ts with
  | nil => cases h
  | cons u ts ih =>
    cases ts with
    | nil => exact Nat.le_of_eq (congrArg List.length (List.mem_singleton.mp h))
    | cons w ts =>
      simp only [join_cons_cons, List.length_append]
      rcases List.mem_cons.mp h with rfl | h
      · omega
      · exact Nat.le_add_left_of_le (ih h)

/-- Joining the pieces with the separator gives the text back. -/
theorem join_splitOn (sep : Nat) (t : Text) : join [sep] (splitOn sep t) = t := by
  induction t with
  | nil => rfl
  | cons c t ih =>
    unfold splitOn
    cases h : splitOn sep t with
    | nil => exact absurd h (splitOn_ne_nil sep t)
    | cons p ps =>
      rw [h] at ih
      by_cases hc : c = sep
      · rw [if_pos hc]
        simp [join, ih, hc]
      · rw [if_neg hc]
        cases ps with
        | nil => simpa [join] using ih
        | cons q qs => simpa [join] using ih

/-- No piece holds the separator. -/
theorem notMem_of_mem_splitOn {sep : Nat} {t piece : Text} (h : piece ∈ splitOn sep t) :
    sep ∉ piece := by
  induction t generalizing piece with
  | nil => simp_all [splitOn]
  | cons c t ih =>
    unfold splitOn at h
    by_cases hc : c = sep
    · rw [if_pos hc] at h
      rcases List.mem_cons.mp h with rfl | h
      · simp
      · exact ih h
    · rw [if_neg hc] at h
      cases hs : splitOn sep t with
      | nil => exact absurd hs (splitOn_ne_nil sep t)
      | cons p ps =>
        rw [hs] at h ih
        rcases List.mem_cons.mp h with rfl | h
        · simp [Ne.symm hc, ih List.mem_cons_self]
        · exact ih (List.mem_cons_of_mem _ h)

theorem cut?_eq_some {sep : Nat} {t l r : Text} (h : cut? sep t = some (l, r)) :
    t = l ++ sep :: r ∧ sep ∉ l := by
  induction t generalizing l with
  | nil => simp [cut?] at h
  | cons c t ih =>
    unfold cut? at h
    split at h
    · simp only [Option.some.injEq, Prod.mk.injEq] at h
      obtain ⟨rfl, rfl⟩ := h
      simp_all
    · cases ht : cut? sep t with
      | none => simp [ht] at h
      | some p =>
        obtain ⟨l', r'⟩ := p
        simp only [ht, Option.map_some, Option.some.injEq, Prod.mk.injEq] at h
        obtain ⟨rfl, rfl⟩ := h
        obtain ⟨h₁, h₂⟩ := ih ht
        rename_i hc
        exact ⟨by simp [h₁], by simp [h₂, Ne.symm hc]⟩

theorem isPrefixOf?_append (t rest : Text) : t.isPrefixOf? (t ++ rest) = some rest := by
  induction t with
  | nil => rfl
  | cons c t ih =>
    have step : List.isPrefixOf? (c :: t) (c :: t ++ rest)
        = if (c == c) = true then List.isPrefixOf? t (t ++ rest) else none := rfl
    rw [step, if_pos (beq_self_eq_true c), ih]

theorem eq_append_of_isPrefixOf? {s t left : Text} (h : s.isPrefixOf? t = some left) :
    t = s ++ left := by
  induction s generalizing t with
  | nil => exact Option.some.inj h
  | cons a s ih =>
    cases t with
    | nil => cases h
    | cons b t =>
      have step : List.isPrefixOf? (a :: s) (b :: t) =
          if (a == b) = true then List.isPrefixOf? s t else none := rfl
      rw [step, Option.ite_none_right_eq_some, beq_iff_eq] at h
      obtain ⟨rfl, h⟩ := h
      rw [ih h, List.cons_append]

end Text

end MockApi
