import Mathlib.Data.List.DropRight
import Mathlib.Data.List.TakeWhile
import MockApi.Text.Basic

/-!
# Spans of texts

What readers take off the front of a text and what they leave is told by the span of code points
that satisfy a predicate: it ends at the first one that does not, whatever follows. Trimming takes
such spans off both ends.
-/

namespace MockApi.Text

variable {p : Nat → Bool} {t rest : Text}

/-! ## Spans -/

theorem takeWhile_append_of_stop (h : ∀ c ∈ t, p c = true) (hrest : ∀ c ∈ rest.head?, p c = false) :
    (t ++ rest).takeWhile p = t := by
  rw [List.takeWhile_append_of_pos h]
  cases rest with
  | nil => simp
  | cons c rest => rw [List.takeWhile_cons_of_neg (by simp [hrest c rfl]), List.append_nil]

theorem dropWhile_append_of_stop (h : ∀ c ∈ t, p c = true) (hrest : ∀ c ∈ rest.head?, p c = false) :
    (t ++ rest).dropWhile p = rest := by
  rw [List.dropWhile_append_of_pos h]
  cases rest with
  | nil => rfl
  | cons c rest => rw [List.dropWhile_cons_of_neg (by simp [hrest c rfl])]

/-- What is put behind a span that stops, or stops in front of it, is left over. -/
theorem takeWhile_append_of_ends (h : (∃ c ∈ t, p c = false) ∨ ∀ c ∈ rest.head?, p c = false) :
    (t ++ rest).takeWhile p = t.takeWhile p ∧ (t ++ rest).dropWhile p = t.dropWhile p ++ rest := by
  induction t with
  | nil =>
    obtain ⟨c, hc, -⟩ | h := h
    · cases hc
    · have hnil : ∀ c ∈ ([] : Text), p c = true := by simp
      exact ⟨takeWhile_append_of_stop hnil h, dropWhile_append_of_stop hnil h⟩
  | cons c t ih =>
    by_cases hc : p c = true
    · have htail : (∃ d ∈ t, p d = false) ∨ ∀ d ∈ rest.head?, p d = false := by
        refine h.imp_left fun ⟨d, hd, hpd⟩ ↦ ?_
        rcases List.mem_cons.mp hd with rfl | hd
        · rw [hc] at hpd
          cases hpd
        · exact ⟨d, hd, hpd⟩
      obtain ⟨htake, hdrop⟩ := ih htail
      simp only [List.cons_append, List.takeWhile_cons_of_pos hc, List.dropWhile_cons_of_pos hc,
        htake, hdrop, and_self]
    · simp only [List.cons_append, List.takeWhile_cons_of_neg hc, List.dropWhile_cons_of_neg hc,
        and_self]

theorem mem_dropWhile {c : Nat} (h : c ∈ t) (hc : p c = false) : c ∈ t.dropWhile p := by
  rw [← List.takeWhile_append_dropWhile (p := p) (l := t), List.mem_append] at h
  refine h.resolve_left fun hspan ↦ ?_
  have hp : p c = true := List.all_eq_true.mp (List.all_takeWhile ..) c hspan
  rw [hc] at hp
  cases hp

theorem eq_false_of_mem_head?_dropWhile {c : Nat} (h : c ∈ (t.dropWhile p).head?) :
    p c = false := by
  have hnot := List.head?_dropWhile_not p t
  rwa [Option.mem_def.mp h] at hnot

/-! ## Trimming -/

theorem trimWhile_eq_self (h : ∀ c ∈ t, p c = false) : trimWhile p t = t := by
  have hdrop (l : Text) (hl : ∀ c ∈ l, p c = false) : l.dropWhile p = l :=
    dropWhile_append_of_stop (t := []) (by simp) fun c hc ↦ hl c (List.mem_of_mem_head? hc)
  rw [trimWhile, dropEndWhile, hdrop t h, hdrop _ (by simpa using h), List.reverse_reverse]

/-- Trimming takes away nothing else. -/
theorem mem_trimWhile {c : Nat} (h : c ∈ t) (hc : p c = false) : c ∈ trimWhile p t := by
  have hfront : c ∈ t.dropWhile p := mem_dropWhile h hc
  exact List.mem_reverse.mpr (mem_dropWhile (List.mem_reverse.mpr hfront) hc)

/-- What is trimmed starts with something else than what is taken away. -/
theorem eq_false_of_mem_head?_trimWhile {c : Nat} (h : c ∈ (trimWhile p t).head?) :
    p c = false := by
  have hfront : trimWhile p t <+: t.dropWhile p := List.rdropWhile_prefix p _
  obtain ⟨rest, hrest⟩ := hfront
  refine eq_false_of_mem_head?_dropWhile (p := p) (t := t) ?_
  rw [← hrest, List.head?_append, Option.mem_def.mp h]
  rfl

/-- What is trimmed ends with something else than what is taken away. -/
theorem eq_false_of_mem_getLast?_trimWhile {c : Nat} (h : c ∈ (trimWhile p t).getLast?) :
    p c = false := by
  rw [trimWhile, dropEndWhile, List.getLast?_reverse] at h
  exact eq_false_of_mem_head?_dropWhile h

/-- Nothing is trimmed from a text that starts and ends with something else. -/
theorem trimWhile_of_ends (hfront : ∀ c ∈ t.head?, p c = false)
    (hback : ∀ c ∈ t.getLast?, p c = false) : trimWhile p t = t := by
  have hdrop (u : Text) (hu : ∀ c ∈ u.head?, p c = false) : u.dropWhile p = u :=
    dropWhile_append_of_stop (List.forall_mem_nil _) hu
  rw [trimWhile, dropEndWhile, hdrop t hfront, hdrop t.reverse, List.reverse_reverse]
  rwa [List.head?_reverse]

/-- Trimming takes away what satisfies the predicate in front of a text. -/
theorem trimWhile_append_left {u : Text} (hu : ∀ c ∈ u, p c = true) :
    trimWhile p (u ++ t) = trimWhile p t := by
  rw [trimWhile, List.dropWhile_append_of_pos hu, ← trimWhile]

/-- Trimming takes away what satisfies the predicate behind a text. -/
theorem trimWhile_append {u : Text} (hu : ∀ c ∈ u, p c = true) :
    trimWhile p (t ++ u) = trimWhile p t := by
  have hback : ∀ c ∈ u.reverse, p c = true := fun c hc ↦ hu c (List.mem_reverse.mp hc)
  have hgone : u.dropWhile p = [] := List.dropWhile_eq_nil_iff.mpr hu
  unfold trimWhile dropEndWhile
  rw [List.dropWhile_append]
  split
  · rename_i hempty
    rw [List.isEmpty_iff.mp hempty, hgone]
  · rw [List.reverse_append, List.dropWhile_append_of_pos hback]

/-- A text is what is trimmed between what is taken away. -/
theorem exists_eq_append_trimWhile (p : Nat → Bool) (t : Text) :
    ∃ front back, t = front ++ trimWhile p t ++ back ∧ (∀ c ∈ front, p c = true) ∧
      ∀ c ∈ back, p c = true := by
  have hback : t.dropWhile p = trimWhile p t ++ ((t.dropWhile p).reverse.takeWhile p).reverse := by
    rw [trimWhile, dropEndWhile, ← List.reverse_append, List.takeWhile_append_dropWhile,
      List.reverse_reverse]
  refine ⟨t.takeWhile p, ((t.dropWhile p).reverse.takeWhile p).reverse, ?_, ?_, ?_⟩
  · rw [List.append_assoc, ← hback, List.takeWhile_append_dropWhile]
  · exact List.all_eq_true.mp (List.all_takeWhile ..)
  · exact fun c hc ↦ List.all_eq_true.mp (List.all_takeWhile ..) c (List.mem_reverse.mp hc)

theorem mem_of_mem_trimWhile {c : Nat} (h : c ∈ trimWhile p t) : c ∈ t := by
  obtain ⟨front, back, heq, -, -⟩ := exists_eq_append_trimWhile p t
  rw [heq]
  exact List.mem_append_left _ (List.mem_append_right _ h)

/-- What is left of a text, or is taken away. -/
theorem mem_trimWhile_or {c : Nat} (h : c ∈ t) : c ∈ trimWhile p t ∨ p c = true :=
  (Bool.eq_false_or_eq_true (p c)).symm.imp_left (mem_trimWhile h)

/-- Two ways of trimming agree if the second takes away what the first does, and nothing of what the
first leaves. -/
theorem trimWhile_congr {q : Nat → Bool} (h : ∀ c ∈ t, p c = true → q c = true)
    (hleft : ∀ c ∈ trimWhile p t, q c = false) : trimWhile q t = trimWhile p t := by
  obtain ⟨front, back, heq, hfront, hback⟩ := exists_eq_append_trimWhile p t
  have hq (margin : Text) (hsub : ∀ c ∈ margin, c ∈ t) (hmargin : ∀ c ∈ margin, p c = true) :
      ∀ c ∈ margin, q c = true := fun c hc ↦ h c (hsub c hc) (hmargin c hc)
  have hfrontq := hq front (fun c hc ↦ by rw [heq]; simp [hc]) hfront
  have hbackq := hq back (fun c hc ↦ by rw [heq]; simp [hc]) hback
  calc trimWhile q t = trimWhile q (front ++ trimWhile p t ++ back) := by rw [← heq]
    _ = trimWhile q (trimWhile p t) := by
      rw [trimWhile_append hbackq, trimWhile_append_left hfrontq]
    _ = trimWhile p t := trimWhile_eq_self hleft

/-! ## Cuts -/

section Cut

variable {sep : Nat}

theorem before_eq_self (h : sep ∉ t) : before sep t = t :=
  List.takeWhile_eq_self_iff.mpr fun _ hc ↦ decide_eq_true fun heq ↦ h (heq ▸ hc)

theorem before_append_sep (t rest : Text) : before sep (t ++ sep :: rest) = before sep t := by
  have hstop : ∀ c ∈ (sep :: rest).head?, decide (c ≠ sep) = false := by simp
  exact (takeWhile_append_of_ends (.inr hstop)).1

theorem before_append (h : sep ∉ t) (rest : Text) : before sep (t ++ sep :: rest) = t := by
  rw [before_append_sep, before_eq_self h]

/-- Nothing is in front of the first separator but what has no separator. -/
theorem cut?_append_of_notMem (h : sep ∉ t) (rest : Text) :
    cut? sep (t ++ rest) = (cut? sep rest).map fun (l, r) ↦ (t ++ l, r) := by
  induction t with
  | nil => simp
  | cons c t ih =>
    obtain ⟨hc, ht⟩ := not_or.mp (mt List.mem_cons.mpr h)
    rw [List.cons_append, cut?, if_neg (Ne.symm hc), ih ht, Option.map_map]
    rfl

theorem cut?_append (h : sep ∉ t) (rest : Text) : cut? sep (t ++ sep :: rest) = some (t, rest) := by
  rw [cut?_append_of_notMem h, cut?, if_pos rfl]
  simp

theorem cut?_eq_none (h : sep ∉ t) : cut? sep t = none := by
  cases hcut : cut? sep t with
  | none => rfl
  | some parts =>
    refine absurd ?_ h
    rw [(cut?_eq_some hcut).1]
    exact List.mem_append_right _ List.mem_cons_self

/-! ### Pieces between separators -/

/-- The pieces on both sides of a separator are pieces of the whole. -/
theorem splitOn_append (t rest : Text) :
    splitOn sep (t ++ sep :: rest) = splitOn sep t ++ splitOn sep rest := by
  induction t with
  | nil => simp [splitOn]
  | cons c t ih =>
    obtain ⟨piece, pieces, hpieces⟩ := List.exists_cons_of_ne_nil (splitOn_ne_nil sep t)
    rw [List.cons_append, splitOn, splitOn, ih, hpieces]
    by_cases hc : c = sep
    · rw [if_pos hc, if_pos hc]
      rfl
    · rw [if_neg hc, if_neg hc]
      rfl

theorem splitOn_of_notMem {piece : Text} (h : sep ∉ piece) : splitOn sep piece = [piece] := by
  induction piece with
  | nil => rfl
  | cons c piece ih =>
    obtain ⟨hc, hpiece⟩ := not_or.mp (List.mem_cons.not.mp h)
    rw [splitOn, if_neg (Ne.symm hc), ih hpiece]

theorem splitOn_append_sep {piece : Text} (h : sep ∉ piece) (t : Text) :
    splitOn sep (piece ++ sep :: t) = piece :: splitOn sep t := by
  rw [splitOn_append, splitOn_of_notMem h, List.singleton_append]

/-- The pieces of joined texts without the separator are these texts. -/
theorem splitOn_join {pieces : List Text} (hne : pieces ≠ []) (h : ∀ p ∈ pieces, sep ∉ p) :
    splitOn sep (join [sep] pieces) = pieces := by
  induction pieces with
  | nil => exact absurd rfl hne
  | cons piece pieces ih =>
    have hpiece := h piece List.mem_cons_self
    cases pieces with
    | nil => exact splitOn_of_notMem hpiece
    | cons next pieces =>
      rw [join_cons_cons, List.append_assoc, List.singleton_append, splitOn_append_sep hpiece,
        ih (List.cons_ne_nil next pieces) fun p hp ↦ h p (List.mem_cons_of_mem _ hp)]

theorem mem_join_iff {c : Nat} {pieces : List Text} (hc : c ≠ sep) :
    c ∈ join [sep] pieces ↔ ∃ p ∈ pieces, c ∈ p := by
  induction pieces with
  | nil => simp [join]
  | cons piece pieces ih =>
    cases pieces with
    | nil => simp [join]
    | cons next pieces => simp [join_cons_cons, ih, hc]

/-- Taking code points other than the separator out of a text takes them out of its pieces. -/
theorem splitOn_filter {keep : Nat → Bool} (hsep : keep sep = true) (t : Text) :
    splitOn sep (t.filter keep) = (splitOn sep t).map (List.filter keep) := by
  induction t with
  | nil => rfl
  | cons c t ih =>
    obtain ⟨piece, pieces, hpieces⟩ := List.exists_cons_of_ne_nil (splitOn_ne_nil sep t)
    rw [hpieces, List.map_cons] at ih
    by_cases hc : c = sep
    · rw [hc, List.filter_cons_of_pos hsep]
      simp [splitOn, ih, hpieces]
    · cases hkeep : keep c with
      | true =>
        rw [List.filter_cons_of_pos hkeep]
        simp [splitOn, hc, ih, hpieces, hkeep]
      | false =>
        rw [List.filter_cons_of_neg (by simp [hkeep])]
        simp [splitOn, hc, ih, hpieces, hkeep]

end Cut

/-! ## Starts and parts of texts -/

theorem isPrefixOf?_append_of_ends {s : Text} (h : ∀ c ∈ rest.head?, c ∉ s) :
    s.isPrefixOf? (t ++ rest) = (s.isPrefixOf? t).map (· ++ rest) := by
  induction s generalizing t with
  | nil => rfl
  | cons a s ih =>
    have hs : ∀ c ∈ rest.head?, c ∉ s := fun c hc hmem ↦ h c hc (List.mem_cons_of_mem a hmem)
    cases t with
    | nil =>
      cases rest with
      | nil => rfl
      | cons b rest =>
        have hne : (a == b) = false := by
          rw [beq_eq_false_iff_ne]
          rintro rfl
          exact h a rfl List.mem_cons_self
        change (if (a == b) = true then s.isPrefixOf? rest else none) = none
        rw [hne]
        rfl
    | cons b t =>
      change (if (a == b) = true then s.isPrefixOf? (t ++ rest) else none) =
        (if (a == b) = true then s.isPrefixOf? t else none).map (· ++ rest)
      rw [ih hs, apply_ite (Option.map (· ++ rest))]
      rfl

theorem includes_cons (needle : Text) (c : Nat) (t : Text) :
    includes needle (c :: t) = ((needle.isPrefixOf? (c :: t)).isSome || includes needle t) := by
  rw [includes, cutAt?]
  cases needle.isPrefixOf? (c :: t) with
  | some left => rfl
  | none => simp [includes]

/-- What is looked for is not found across a code point that it does not have. -/
theorem includes_append_cons {needle : Text} {c : Nat} (hne : needle ≠ []) (hc : c ∉ needle)
    (t rest : Text) :
    includes needle (t ++ c :: rest) = (includes needle t || includes needle rest) := by
  have hends : ∀ d ∈ (c :: rest).head?, d ∉ needle := fun d hd ↦ Option.some.inj hd ▸ hc
  induction t with
  | nil =>
    have hprefix : needle.isPrefixOf? (c :: rest) = none := by
      have happend := isPrefixOf?_append_of_ends (t := []) hends
      cases needle with
      | nil => exact absurd rfl hne
      | cons a needle => exact happend
    have hnil : includes needle [] = false := by simp [includes, cutAt?, hne]
    rw [List.nil_append, includes_cons, hprefix, hnil]
    rfl
  | cons d t ih =>
    rw [List.cons_append, includes_cons, ih, ← List.cons_append, isPrefixOf?_append_of_ends hends,
      includes_cons, Option.isSome_map, Bool.or_assoc]

end MockApi.Text
