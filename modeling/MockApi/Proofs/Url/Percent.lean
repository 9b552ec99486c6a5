import Mathlib.Data.List.SplitBy
import MockApi.Proofs.Text.Utf8
import MockApi.Url.Percent

/-!
# Percent-encoding

The octets of a text are written one by one: an unreserved character stands for itself, and every
other octet is escaped. What is written so is ASCII throughout, so decoding takes it in one run, and
an escape is read as the octet it was written for whatever follows.

Nothing that separates the parts of a URL is written without an escape.
-/

namespace MockApi.Percent

open Text (IsScalarText)
open Text.Utf8 (Octets encodeCodePoint decodeLenient)

/-! ## Encoding -/

/-- Letters, digits and the four marks that need no escape. -/
def isUnreserved (c : Nat) : Bool :=
  Text.isAsciiLetter c || Text.isAsciiDigit c || c = '-'.toNat || c = '.'.toNat || c = '_'.toNat
    || c = '~'.toNat

/-- A hexadecimal digit, in upper case. -/
def hexDigit (n : Nat) : Nat := if n < 10 then '0'.toNat + n else 'A'.toNat + (n - 10)

/-- An octet as it is written. -/
def encodeOctet (b : Nat) : Text :=
  if isUnreserved b then [b] else ['%'.toNat, hexDigit (b / 0x10), hexDigit (b % 0x10)]

/-- A text as it is written. -/
def encode (t : Text) : Text := (t.flatMap encodeCodePoint).flatMap encodeOctet

/-! ## What is written -/

/-- Unreserved characters and percent signs, which is all that is ever written. -/
def isWritten (c : Nat) : Bool := isUnreserved c || c = '%'.toNat

theorem isWritten_hexDigit {n : Nat} (h : n < 0x10) : isWritten (hexDigit n) = true := by
  have hall : ∀ n : Fin 0x10, isWritten (hexDigit n) = true := by decide
  exact hall ⟨n, h⟩

theorem isWritten_of_mem_encodeOctet {b c : Nat} (h : b < 0x100) (hc : c ∈ encodeOctet b) :
    isWritten c = true := by
  unfold encodeOctet at hc
  split at hc
  · rename_i hunreserved
    rw [List.mem_singleton.mp hc, isWritten, hunreserved, Bool.true_or]
  · rcases List.mem_cons.mp hc with rfl | hc
    · rfl
    · rcases List.mem_cons.mp hc with rfl | hc
      · exact isWritten_hexDigit (by omega)
      · rw [List.mem_singleton.mp hc]
        exact isWritten_hexDigit (by omega)

variable {t : Text}

theorem lt_of_mem_octets (h : t.IsScalarText) {b : Nat} (hb : b ∈ t.flatMap encodeCodePoint) :
    b < 0x100 := by
  obtain ⟨c, hc, hb⟩ := List.mem_flatMap.mp hb
  exact Text.Utf8.lt_of_mem_encodeCodePoint (h c hc).1 hb

theorem isWritten_of_mem_encode (h : t.IsScalarText) {c : Nat} (hc : c ∈ encode t) :
    isWritten c = true := by
  obtain ⟨b, hb, hc⟩ := List.mem_flatMap.mp hc
  exact isWritten_of_mem_encodeOctet (lt_of_mem_octets h hb) hc

/-- What is not written otherwise than by an escape is not in a written text. -/
theorem notMem_encode (h : t.IsScalarText) {c : Nat} (hc : isWritten c = false) :
    c ∉ encode t := by
  intro hmem
  rw [isWritten_of_mem_encode h hmem] at hc
  cases hc

theorem isAscii_of_isWritten {c : Nat} (h : isWritten c = true) : c < 0x80 := by
  have hletters : 'a'.toNat = 97 ∧ 'z'.toNat = 122 ∧ 'A'.toNat = 65 ∧ 'Z'.toNat = 90 ∧
      '0'.toNat = 48 ∧ '9'.toNat = 57 := by decide
  have hmarks : '-'.toNat = 45 ∧ '.'.toNat = 46 ∧ '_'.toNat = 95 ∧ '~'.toNat = 126 ∧
      '%'.toNat = 37 := by decide
  simp only [isWritten, isUnreserved, Text.isAsciiLetter, Text.isAsciiDigit, Bool.or_eq_true,
    Bool.and_eq_true, decide_eq_true_eq] at h
  omega

/-- Unreserved characters stand for themselves. -/
theorem encode_eq_self (h : ∀ c ∈ t, isUnreserved c = true) : encode t = t := by
  induction t with
  | nil => rfl
  | cons c t ih =>
    obtain ⟨hc, ht⟩ := List.forall_mem_cons.mp h
    have hascii : c < 0x80 := isAscii_of_isWritten (by rw [isWritten, hc, Bool.true_or])
    have hpoint : encodeCodePoint c = [c] := if_pos hascii
    have hoctet : encodeOctet c = [c] := if_pos hc
    have hrest : (t.flatMap encodeCodePoint).flatMap encodeOctet = t := ih ht
    rw [encode, List.flatMap_cons, hpoint, List.flatMap_append, hrest, List.flatMap_singleton,
      hoctet, List.singleton_append]

/-! ## Decoding -/

/-- Other than a percent sign, a code point stands for itself. -/
theorem octets_cons_of_ne {c : Nat} (h : c ≠ '%'.toNat) (t : Text) :
    octets (c :: t) = c :: octets t := by
  match t with
  | [] | [_] => rfl
  | a :: b :: rest => rw [octets, if_neg h]

theorem hexValue?_hexDigit {b : Nat} (h : b < 0x100) :
    Text.hexValue? [hexDigit (b / 0x10), hexDigit (b % 0x10)] = some b := by
  have hdigit : ∀ n : Fin 0x10, Text.hexDigit? (hexDigit n) = some n.val := by decide
  have hhigh := hdigit ⟨b / 0x10, by omega⟩
  have hlow := hdigit ⟨b % 0x10, by omega⟩
  simp only at hhigh hlow
  simp only [Text.hexValue?, List.foldl_cons, List.foldl_nil, Option.bind_some, hhigh, hlow,
    Option.map_some]
  congr 1
  omega

/-- An octet is read back, whatever follows it. -/
theorem octets_encodeOctet_append {b : Nat} (h : b < 0x100) (rest : Text) :
    octets (encodeOctet b ++ rest) = b :: octets rest := by
  unfold encodeOctet
  split
  · rename_i hunreserved
    refine octets_cons_of_ne ?_ rest
    rintro rfl
    exact absurd hunreserved (by decide)
  · simp only [List.cons_append, List.nil_append]
    rw [octets, if_pos rfl, hexValue?_hexDigit h]

theorem octets_flatMap_encodeOctet {bs : Octets} (h : ∀ b ∈ bs, b < 0x100) :
    octets (bs.flatMap encodeOctet) = bs := by
  induction bs with
  | nil => rfl
  | cons b bs ih =>
    obtain ⟨hb, hbs⟩ := List.forall_mem_cons.mp h
    rw [List.flatMap_cons, octets_encodeOctet_append hb, ih hbs]

/-- ASCII is taken in one run. -/
theorem decode_ascii (h : ∀ c ∈ t, c < 0x80) : decode t = decodeLenient (octets t) := by
  cases t with
  | nil => rfl
  | cons c t =>
    have hchain : List.IsChain
        (fun a b ↦ (decide (a < 0x80) == decide (b < 0x80)) = true) (c :: t) := by
      refine List.Pairwise.isChain (List.pairwise_of_forall_mem_list fun a ha b hb ↦ ?_)
      rw [decide_eq_true (h a ha), decide_eq_true (h b hb)]
      rfl
    have hruns : runs (c :: t) = [c :: t] :=
      List.splitBy_of_isChain (List.cons_ne_nil c t) hchain
    have hall : (c :: t).all (· < 0x80) = true := by simpa using h
    rw [decode, hruns, List.flatMap_singleton, decodeRun, if_pos hall]

/-- **Decoding undoes encoding.** -/
theorem decode_encode (h : t.IsScalarText) : decode (encode t) = t := by
  have hascii : ∀ c ∈ encode t, c < 0x80 :=
    fun c hc ↦ isAscii_of_isWritten (isWritten_of_mem_encode h hc)
  rw [decode_ascii hascii, encode, octets_flatMap_encodeOctet fun b ↦ lt_of_mem_octets h,
    Text.Utf8.decodeLenient_flatMap_encodeCodePoint h]

end MockApi.Percent
