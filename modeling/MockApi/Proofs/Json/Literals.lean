import MockApi.Proofs.Json.Nesting
import MockApi.Proofs.Json.RoundTrip

/-!
# Quoted texts part by part

A text of a document stands between quotation marks and is made of parts: code points that stand for
themselves, short escapes and numbered escapes. Each part carries what makes it one, so that every
list of parts is a quoted text, and every quoted text that the reader accepts is one of these.

A numbered escape has room for sixteen bits, and code points beyond are written as two of them, a
high and a low surrogate. The reader joins such a pair if the escapes stand next to each other,
which takes one part of memory: the part in front, if it is still waiting for its other half.
-/

namespace MockApi

variable {stack : Stack}

/-- A part of a quoted text. -/
inductive LiteralPart
  /-- A code point that stands for itself. -/
  | raw (c : Nat) (hcontrol : 0x20 ≤ c) (hmark : c ≠ Text.quotationMark)
      (hbackslash : c ≠ Text.backslash)
  /-- A letter behind a backslash, and the code point that it stands for. -/
  | short (letter c : Nat) (h : Json.unescape? letter = some c)
  /-- Four hexadecimal digits behind a backslash and a `u`, and the number that they write. -/
  | numbered (digits : Text) (unit : Nat) (hlength : digits.length = 4)
      (h : Text.hexValue? digits = some unit)

namespace LiteralPart

/-- How the part is written. -/
def source : LiteralPart → Text
  | raw c .. => [c]
  | short letter .. => [Text.backslash, letter]
  | numbered digits .. => Text.backslash :: 'u'.toNat :: digits

/-- What the part stands for by itself. -/
def code : LiteralPart → Nat
  | raw c .. => c
  | short _ c _ => c
  | numbered _ unit .. => unit

/-- An escaped high surrogate. -/
def opensPair : LiteralPart → Bool
  | numbered _ unit .. => Json.isHigh unit
  | _ => false

/-- An escaped low surrogate. -/
def closesPair : LiteralPart → Bool
  | numbered _ unit .. => Json.isLow unit
  | _ => false

/-- The quoted text of some parts. -/
def literal (parts : List LiteralPart) : Text :=
  Text.quotationMark :: (parts.flatMap source ++ [Text.quotationMark])

/-- The text that some parts stand for, surrogates joined. -/
def decode : List LiteralPart → Text
  | [] => []
  | [part] => [part.code]
  | part :: next :: rest =>
    if part.opensPair && next.closesPair then Json.joinPair part.code next.code :: decode rest
    else part.code :: decode (next :: rest)

/-- No escaped high surrogate stands in front of an escaped low one. -/
def Pairless (parts : List LiteralPart) : Prop :=
  parts.IsChain fun part next ↦ (part.opensPair && next.closesPair) = false

/-! ## Parts and what they stand for -/

theorem length_decode_le (parts : List LiteralPart) : (decode parts).length ≤ parts.length := by
  fun_induction decode parts with
  | case1 | case2 => rfl
  | case3 part next rest hpair ih =>
    simp only [List.length_cons]
    omega
  | case4 part next rest hpair ih =>
    simp only [List.length_cons] at ih ⊢
    omega

/-- Without pairs every part stands for itself; a pair leaves one code point of two. -/
theorem map_code_eq_decode_iff {parts : List LiteralPart} :
    parts.map code = decode parts ↔ Pairless parts := by
  fun_induction decode parts with
  | case1 => simp [Pairless]
  | case2 part => simp [Pairless]
  | case3 part next rest hpair ih =>
    have hne : ¬Pairless (part :: next :: rest) := by
      rw [Pairless, List.isChain_cons_cons, hpair]
      simp
    refine iff_of_false (fun heq ↦ ?_) hne
    have hlength := congrArg List.length heq
    have hle := length_decode_le rest
    simp only [List.length_map, List.length_cons] at hlength
    omega
  | case4 part next rest hpair ih =>
    rw [Pairless, List.isChain_cons_cons, List.map_cons, List.cons.injEq, ih,
      Bool.eq_false_iff.mpr hpair]
    simp [Pairless]

/-! ## Reading the parts -/

/-- The code points read so far, last first, with those of one more part. -/
def push (done : Text) (afterHigh : Bool) : LiteralPart → Text
  | numbered _ unit .. => Json.pushUnit done afterHigh unit
  | part => part.code :: done

/-- A part is read as a whole, if anything follows. -/
theorem readText_source {opening : Nat} {done rest : Text} {afterHigh : Bool} (part : LiteralPart)
    (hrest : rest ≠ []) : Json.readText opening done afterHigh (part.source ++ rest) =
      Json.readText opening (part.push done afterHigh) part.opensPair rest := by
  cases part with
  | raw c hcontrol hmark hbackslash =>
    exact Json.readText_cons hmark (Nat.not_lt.mpr hcontrol) hbackslash
  | short letter c h =>
    refine Json.readText_short ?_ h
    rintro rfl
    cases h
  | numbered digits unit hlength h =>
    obtain ⟨next, rest, rfl⟩ := List.exists_cons_of_ne_nil hrest
    obtain ⟨w, x, y, z, rfl⟩ := List.length_eq_four.mp hlength
    exact Json.readText_unit h

theorem le_joinPair (high low : Nat) : 0x10000 ≤ Json.joinPair high low :=
  Nat.le_trans (Nat.le_add_right ..) (Nat.le_add_right ..)

/-- A joined pair, as a code point that stands for itself. -/
def joined (high low : Nat) : LiteralPart :=
  have hle := le_joinPair high low
  raw (Json.joinPair high low) (Nat.le_trans (by decide) hle)
    (Nat.ne_of_gt (Nat.lt_of_lt_of_le (by decide) hle))
    (Nat.ne_of_gt (Nat.lt_of_lt_of_le (by decide) hle))

/-- Nothing is joined to a pair. -/
theorem decode_joined (high low : Nat) (parts : List LiteralPart) :
    decode (joined high low :: parts) = Json.joinPair high low :: decode parts := by
  cases parts <;> rfl

theorem isHigh_eq_false_of_isLow {c : Nat} (h : Json.isLow c = true) : Json.isHigh c = false := by
  simp only [Json.isLow, Json.isHigh, Bool.and_eq_true, decide_eq_true_eq, Bool.and_eq_false_iff,
    decide_eq_false_iff_not] at h ⊢
  omega

theorem push_of_pair {part next : LiteralPart} (done : Text)
    (h : (part.opensPair && next.closesPair) = true) :
    next.push (part.code :: done) part.opensPair = Json.joinPair part.code next.code :: done ∧
      next.opensPair = false := by
  cases next with
  | numbered digits unit hlength hunit =>
    exact ⟨if_pos h, isHigh_eq_false_of_isLow (Bool.and_eq_true_iff.mp h).2⟩
  | _ => simp [closesPair] at h

theorem push_of_not_pair {part next : LiteralPart} (done : Text)
    (h : ¬(part.opensPair && next.closesPair) = true) :
    next.push (part.code :: done) part.opensPair = next.code :: part.code :: done := by
  cases next with
  | numbered digits unit hlength hunit => exact if_neg h
  | _ => rfl

/-- What is read after a part. Of the code points read before, only the last one can change, and it
is put off to the next part whether it does. -/
theorem readText_parts {opening : Nat} {rest : Text} (done : Text) (part : LiteralPart)
    (parts : List LiteralPart) :
    Json.readText opening (part.code :: done) part.opensPair
        (parts.flatMap source ++ Text.quotationMark :: rest) =
      .ok (done.reverse ++ decode (part :: parts), rest) := by
  induction parts generalizing done part with
  | nil =>
    rw [List.flatMap_nil, List.nil_append, Json.readText_mark, List.reverse_cons]
    rfl
  | cons next parts ih =>
    rw [List.flatMap_cons, List.append_assoc, readText_source next (by simp)]
    by_cases hpair : (part.opensPair && next.closesPair) = true
    · -- the pair goes on as one code point that waits for nothing
      obtain ⟨hpush, hopens⟩ := push_of_pair done hpair
      have hjoined := ih done (joined part.code next.code)
      rw [decode_joined] at hjoined
      rw [hpush, hopens, decode, if_pos hpair]
      exact hjoined
    · rw [push_of_not_pair done hpair, ih _ next, decode, if_neg hpair]
      simp

theorem push_nil (part : LiteralPart) : part.push [] false = [part.code] := by
  cases part <;> rfl

/-- Parts are read up to the closing mark. -/
theorem readText_flatMap_source {opening : Nat} (parts : List LiteralPart) (rest : Text) :
    Json.readText opening [] false (parts.flatMap source ++ Text.quotationMark :: rest) =
      .ok (decode parts, rest) := by
  cases parts with
  | nil => exact Json.readText_mark false
  | cons part parts =>
    rw [List.flatMap_cons, List.append_assoc, readText_source part (by simp), push_nil]
    exact readText_parts [] part parts

/-- **A quoted text is read as what its parts stand for.** -/
theorem read_literal (namesNonFinite : Bool) (parts : List LiteralPart) :
    Json.read namesNonFinite (literal parts) = .ok (.text (decode parts)) := by
  have hskip : Json.skipSpace (literal parts) = literal parts := rfl
  rw [Json.read, if_neg (by simp [literal, Text.quotationMark]), Json.readDocument, hskip]
  rw [literal, Json.readValue_mark, readText_flatMap_source]
  rfl

/-- What the reader takes for a text is made of parts. -/
theorem exists_parts_of_readText {opening : Nat} {done t s rest : Text} {afterHigh : Bool}
    (h : Json.readText opening done afterHigh t = .ok (s, rest)) :
    ∃ parts : List LiteralPart, t = parts.flatMap source ++ Text.quotationMark :: rest := by
  fun_induction Json.readText opening done afterHigh t with
  | case1 | case3 | case5 | case7 | case8 | case10 => cases h
  | case2 done afterHigh rest' =>
    obtain ⟨-, rfl⟩ := Prod.mk.inj (Except.ok.inj h)
    exact ⟨[], rfl⟩
  | case4 done afterHigh c rest' hmark hcontrol hbackslash ih =>
    obtain ⟨parts, rfl⟩ := ih h
    exact ⟨raw c (Nat.le_of_not_lt hcontrol) hmark hbackslash :: parts, rfl⟩
  | case6 done afterHigh escape hmark hcontrol hbackslash a b c d next rest' unit hunit ih =>
    obtain ⟨parts, hparts⟩ := ih h
    obtain rfl : escape = Text.backslash := Decidable.not_not.mp hbackslash
    exact ⟨numbered [a, b, c, d] unit rfl hunit :: parts, by rw [hparts]; rfl⟩
  | case9 done afterHigh escape hmark hcontrol hbackslash letter rest' hletter c hc ih =>
    obtain ⟨parts, rfl⟩ := ih h
    obtain rfl : escape = Text.backslash := Decidable.not_not.mp hbackslash
    exact ⟨short letter c hc :: parts, rfl⟩

/-- A document that starts with a mark is a text with blanks behind it. -/
theorem exists_readText_of_read {namesNonFinite : Bool} {t : Text} {value : Value}
    (h : Json.read namesNonFinite (Text.quotationMark :: t) = .ok value) :
    ∃ s rest, Json.readText (t.length + 1) [] false t = .ok (s, rest) ∧
      Json.skipSpace rest = [] := by
  have hskip : Json.skipSpace (Text.quotationMark :: t) = Text.quotationMark :: t := rfl
  rw [Json.read, if_neg (by simp [Text.quotationMark]), Json.readDocument, hskip,
    Json.readValue_mark] at h
  obtain ⟨_, hvalue, h⟩ := bind_eq_ok_iff.mp h
  obtain ⟨⟨s, rest⟩, htext, hvalue⟩ := bind_eq_ok_iff.mp hvalue
  obtain rfl := Except.ok.inj hvalue
  refine ⟨s, rest, htext, ?_⟩
  dsimp only at h
  split at h
  · rename_i hempty
    exact List.isEmpty_iff.mp hempty
  · cases h

/-- **Which texts between marks are read.** Those that are made of parts. -/
theorem exists_read_iff_exists_literal {namesNonFinite : Bool} {body : Text} :
    (∃ value, Json.read namesNonFinite
        (Text.quotationMark :: (body ++ [Text.quotationMark])) = .ok value) ↔
      ∃ parts, Text.quotationMark :: (body ++ [Text.quotationMark]) = literal parts := by
  constructor
  · rintro ⟨value, h⟩
    obtain ⟨s, rest, htext, hblank⟩ := exists_readText_of_read h
    obtain ⟨parts, hparts⟩ := exists_parts_of_readText htext
    obtain rfl | ⟨init, c, rfl⟩ := List.eq_nil_or_concat' rest
    · exact ⟨parts, by rw [literal, hparts]⟩
    · -- behind the text are blanks only, and the last mark is none of them
      rw [← List.cons_append, ← List.append_assoc] at hparts
      have hlast : Text.quotationMark = c := by
        simpa using (List.append_inj' hparts rfl).2
      have hspace := List.dropWhile_eq_nil_iff.mp hblank c (by simp)
      rw [← hlast] at hspace
      cases hspace
  · rintro ⟨parts, h⟩
    exact ⟨_, h ▸ read_literal namesNonFinite parts⟩

end LiteralPart

end MockApi
