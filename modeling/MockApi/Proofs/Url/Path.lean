import Mathlib.Data.List.TakeWhile
import MockApi.Proofs.Endpoint.RoundTrip
import MockApi.Proofs.Route.Matching
import MockApi.Url.Basic

/-!
# Paths given as URLs

A path that is given as a URL is its own path only if nothing in it looks like another part of a
URL. Query and fragment are cut off, and the prefix that all requests share is dropped. With a colon
and two slashes in it the path is taken for a full URL: then tabs and line ends are lost, and what
follows two slashes in front is the authority, which a third slash leaves empty.

Everything that is cut off in this way takes segments along.
-/

namespace MockApi.Url

open Route

/-! ## Parts that are cut off -/

theorem of_mem_beforeQuery {url : Text} {c : Nat} (h : c ∈ beforeQuery url) :
    c ∈ url ∧ c ≠ '?'.toNat ∧ c ≠ '#'.toNat := by
  have hquery := List.mem_takeWhile_imp h
  have hfront := (List.takeWhile_sublist _).mem h
  have hfragment := List.mem_takeWhile_imp hfront
  exact ⟨(List.takeWhile_sublist _).mem hfront, by simpa using hquery, by simpa using hfragment⟩

/-- A URL has no query and no fragment. -/
def IsPlain (url : Text) : Prop := '?'.toNat ∉ url ∧ '#'.toNat ∉ url

theorem IsPlain.of_subset {url t : Text} (h : IsPlain url) (hsub : t ⊆ url) : IsPlain t :=
  ⟨fun hmem ↦ h.1 (hsub hmem), fun hmem ↦ h.2 (hsub hmem)⟩

theorem IsPlain.beforeQuery_eq {url : Text} (h : IsPlain url) : beforeQuery url = url := by
  rw [beforeQuery, Text.before_eq_self h.2, Text.before_eq_self h.1]

/-! ## Full URLs -/

/-- Whether a code point stays in a full URL: tabs and line ends do not. -/
def isKept (c : Nat) : Bool := c ≠ 0x09 && c ≠ 0x0A && c ≠ 0x0D

/-- A text starts with exactly two slashes. -/
def HasAuthority (t : Text) : Prop := ("//" : Text) <+: t ∧ ¬("///" : Text) <+: t

instance (t : Text) : Decidable (HasAuthority t) := inferInstanceAs (Decidable (_ ∧ _))

theorem dropScheme_slash_cons (t : Text) : dropScheme ('/'.toNat :: t) = '/'.toNat :: t := by
  have hcut : Text.cut? ':'.toNat ('/'.toNat :: t) =
      (Text.cut? ':'.toNat t).map fun parts ↦ ('/'.toNat :: parts.1, parts.2) :=
    if_neg (by decide)
  rw [dropScheme, hcut]
  cases Text.cut? ':'.toNat t <;> rfl

theorem dropScheme_clean_slash_cons (t : Text) :
    dropScheme (clean ('/'.toNat :: t)) = ('/'.toNat :: t).filter isKept := by
  have hclean : clean ('/'.toNat :: t) = '/'.toNat :: t.filter isKept := by
    rw [clean, List.dropWhile_cons_of_neg (by decide)]
    rfl
  rw [hclean, dropScheme_slash_cons]
  rfl

theorem colon_mem_of_includes {url : Text} (h : Text.includes "://" url = true) :
    ':'.toNat ∈ url := by
  induction url with
  | nil => cases h
  | cons c t ih =>
    rw [Text.includes_cons, Bool.or_eq_true] at h
    obtain h | h := h
    · obtain ⟨rest, hprefix⟩ := Option.isSome_iff_exists.mp h
      rw [Text.eq_append_of_isPrefixOf? hprefix]
      exact List.mem_append_left rest (by decide)
    · exact List.mem_cons_of_mem c (ih h)

/-- What a path is reduced to as a URL if none of it is cut off but tabs, line ends and two slashes
in front of a third one. -/
def reduced (url : Text) : Text :=
  if Text.includes "://" url then
    let t := url.filter isKept
    if ("///" : Text) <+: t then t.drop 2 else t
  else url

theorem segments_reduced (url : Text) : segments (reduced url) =
    segments (if Text.includes "://" url then url.filter isKept else url) := by
  unfold reduced
  split
  · dsimp only
    split
    · rename_i hslashes
      obtain ⟨rest, hrest⟩ := hslashes
      rw [← hrest]
      change segments ('/'.toNat :: rest) =
        segments ('/'.toNat :: '/'.toNat :: '/'.toNat :: rest)
      simp only [segments_slash_cons]
    · rfl
  · rfl

/-- The end of an authority takes at least one segment off a URL without query and fragment. -/
theorem length_segments_dropWhile_lt {c : Nat} {tail : Text} (hplain : IsPlain (c :: tail))
    (hc : c ≠ '/'.toNat) :
    (segments ((c :: tail).dropWhile fun c ↦ !endsAuthority c)).length <
      (segments (c :: tail)).length := by
  have hends : ∀ d ∈ c :: tail, endsAuthority d = decide (d = '/'.toNat) := by
    intro d hd
    have hquery : d ≠ '?'.toNat := fun heq ↦ hplain.1 (heq ▸ hd)
    have hfragment : d ≠ '#'.toNat := fun heq ↦ hplain.2 (heq ▸ hd)
    simp only [endsAuthority, hquery, hfragment, decide_false, Bool.or_false]
  have hne : ((c :: tail).takeWhile fun c ↦ !endsAuthority c) ≠ [] := by
    have hc' : (!endsAuthority c) = true := by
      rw [hends c List.mem_cons_self, decide_eq_false hc]
      rfl
    rw [List.takeWhile_cons_of_pos (p := fun c ↦ !endsAuthority c) hc']
    exact List.cons_ne_nil _ _
  have hslash : '/'.toNat ∉ (c :: tail).takeWhile fun c ↦ !endsAuthority c :=
    fun hmem ↦ absurd (List.mem_takeWhile_imp hmem) (by decide)
  have htile := List.takeWhile_append_dropWhile (p := fun c ↦ !endsAuthority c) (l := c :: tail)
  cases hdrop : (c :: tail).dropWhile fun c ↦ !endsAuthority c with
  | nil =>
    rw [hdrop, List.append_nil] at htile
    rw [← htile, segments_of_notMem hne hslash]
    exact Nat.one_pos
  | cons d rest =>
    have hd : d = '/'.toNat := by
      have hmem : d ∈ c :: tail := (List.dropWhile_suffix _).subset (hdrop ▸ List.mem_cons_self)
      have hstop : (!endsAuthority d) = false :=
        Text.eq_false_of_mem_head?_dropWhile (p := fun c ↦ !endsAuthority c) (t := c :: tail)
          (by rw [hdrop]; rfl)
      rw [hends d hmem, Bool.not_eq_false'] at hstop
      exact of_decide_eq_true hstop
    rw [hdrop, hd] at htile
    rw [hd, ← htile, segments_append_slash hne hslash, segments_slash_cons]
    exact Nat.lt_succ_self _

/-- A full URL has no more segments than the path that it was given as. -/
theorem length_segments_filter_le (url : Text) :
    (segments (url.filter isKept)).length ≤ (segments url).length := by
  rw [segments_filter (by decide)]
  exact (List.length_filter_le ..).trans (List.length_map ..).le

theorem length_segments_reduced_le (url : Text) :
    (segments (reduced url)).length ≤ (segments url).length := by
  rw [segments_reduced]
  split
  · exact length_segments_filter_le url
  · exact le_rfl

section Slash

variable {t p : Text}

/-- Nothing that is found in a path marks another part of a URL. -/
theorem of_mem_rawPath (h : rawPath ('/'.toNat :: t) = .ok p) {c : Nat} (hc : c ∈ p) :
    c ≠ '?'.toNat ∧ c ≠ '#'.toNat ∧
      (Text.includes "://" ('/'.toNat :: t) = true → isKept c = true) := by
  unfold rawPath at h
  split at h
  · unfold fullPath at h
    rw [dropScheme_clean_slash_cons] at h
    have hkept {s : Text} (hs : s <:+ ('/'.toNat :: t).filter isKept)
        (hmem : c ∈ beforeQuery s) :
        c ≠ '?'.toNat ∧ c ≠ '#'.toNat ∧
          (Text.includes "://" ('/'.toNat :: t) = true → isKept c = true) := by
      obtain ⟨hs', hquery, hfragment⟩ := of_mem_beforeQuery hmem
      exact ⟨hquery, hfragment, fun _ ↦ (List.mem_filter.mp (hs.subset hs')).2⟩
    split at h
    · cases h
      exact hkept List.suffix_rfl hc
    · rename_i rest hrest
      dsimp only at h
      split at h
      · cases h
        have hsuffix : rest <:+ ('/'.toNat :: t).filter isKept :=
          ⟨_, (Text.eq_append_of_isPrefixOf? hrest).symm⟩
        exact hkept ((List.dropWhile_suffix _).trans hsuffix) hc
      · cases h
  · rename_i hfull
    cases h
    obtain ⟨-, hquery, hfragment⟩ := of_mem_beforeQuery hc
    exact ⟨hquery, hfragment, fun h ↦ absurd h hfull⟩

/-- A path without other parts of a URL is its own path, but for what a full URL loses. -/
theorem rawPath_eq_reduced (hplain : IsPlain ('/'.toNat :: t))
    (hauthority : Text.includes "://" ('/'.toNat :: t) = true →
      ¬HasAuthority (('/'.toNat :: t).filter isKept)) :
    rawPath ('/'.toNat :: t) = .ok (reduced ('/'.toNat :: t)) := by
  unfold rawPath reduced
  split
  · rename_i hfull
    have hkept : IsPlain (('/'.toNat :: t).filter isKept) :=
      hplain.of_subset (List.filter_subset_self _)
    have hno := hauthority hfull
    unfold fullPath
    rw [dropScheme_clean_slash_cons]
    dsimp only
    split
    · rename_i hnone
      have hslashes : ¬("///" : Text) <+: ('/'.toNat :: t).filter isKept := by
        rintro ⟨rest, hrest⟩
        have hsome : ("//" : Text).isPrefixOf? (("//" : Text) ++ '/'.toNat :: rest) =
            some ('/'.toNat :: rest) := Text.isPrefixOf?_append _ _
        rw [← hrest] at hnone
        exact absurd (hnone.symm.trans hsome) (by simp)
      rw [if_neg hslashes, hkept.beforeQuery_eq]
    · rename_i rest hrest
      have heq := Text.eq_append_of_isPrefixOf? hrest
      have hslashes : ("///" : Text) <+: ('/'.toNat :: t).filter isKept := by
        by_contra hnot
        exact hno ⟨⟨rest, heq.symm⟩, hnot⟩
      rw [if_pos hslashes]
      -- a third slash ends the authority at once
      obtain ⟨tail, htail⟩ := hslashes
      have hthird : rest = '/'.toNat :: tail := by
        rw [heq] at htail
        have hsame : ("//" : Text) ++ '/'.toNat :: tail = ("//" : Text) ++ rest := htail
        exact (List.append_cancel_left hsame).symm
      rw [heq, hthird]
      have hrestPlain : IsPlain ('/'.toNat :: tail) := by
        rw [← hthird]
        exact hkept.of_subset (by rw [heq]; exact List.subset_append_right _ _)
      change Except.ok (beforeQuery ('/'.toNat :: tail)) = _
      rw [hrestPlain.beforeQuery_eq]
      rfl
  · rw [hplain.beforeQuery_eq]

/-- An authority takes a segment along. -/
theorem length_segments_lt_of_hasAuthority (hplain : IsPlain ('/'.toNat :: t))
    (hfull : Text.includes "://" ('/'.toNat :: t) = true)
    (hauthority : HasAuthority (('/'.toNat :: t).filter isKept))
    (h : rawPath ('/'.toNat :: t) = .ok p) :
    (segments p).length < (segments (('/'.toNat :: t).filter isKept)).length := by
  obtain ⟨⟨rest, hrest⟩, hthird⟩ := hauthority
  have hkept : IsPlain (('/'.toNat :: t).filter isKept) :=
    hplain.of_subset (List.filter_subset_self _)
  have hrestPlain : IsPlain rest :=
    hkept.of_subset (by rw [← hrest]; exact List.subset_append_right _ _)
  obtain ⟨c, tail, rfl⟩ : ∃ c tail, rest = c :: tail := by
    refine List.exists_cons_of_ne_nil ?_
    rintro rfl
    -- the colon is neither lost nor a slash
    have hcolon : ':'.toNat ∈ ('/'.toNat :: t).filter isKept :=
      List.mem_filter.mpr ⟨colon_mem_of_includes hfull, by decide⟩
    rw [← hrest] at hcolon
    exact absurd hcolon (by decide)
  have hslash : c ≠ '/'.toNat := by
    rintro rfl
    exact hthird ⟨tail, hrest⟩
  have hprefix : ("//" : Text).isPrefixOf? (("//" : Text) ++ c :: tail) = some (c :: tail) :=
    Text.isPrefixOf?_append _ _
  have hpath : p = beforeQuery ((c :: tail).dropWhile fun c ↦ !endsAuthority c) := by
    rw [rawPath, if_pos hfull, fullPath, dropScheme_clean_slash_cons, ← hrest, hprefix] at h
    dsimp only at h
    split at h
    · exact (Except.ok.inj h).symm
    · cases h
  have hafter : IsPlain ((c :: tail).dropWhile fun c ↦ !endsAuthority c) :=
    hrestPlain.of_subset (List.dropWhile_suffix _).subset
  have hslashes : segments (('/'.toNat :: t).filter isKept) = segments (c :: tail) := by
    rw [← hrest]
    exact (segments_slash_cons _).trans (segments_slash_cons _)
  rw [hpath, hafter.beforeQuery_eq, hslashes]
  exact length_segments_dropWhile_lt hrestPlain hslash

end Slash

/-! ## The prefix of all requests -/

/-- A path is a prefix or goes on below it. -/
def IsBelow (start path : Text) : Prop := path = start ∨ start ++ ['/'.toNat] <+: path

instance (start path : Text) : Decidable (IsBelow start path) := inferInstanceAs (Decidable (_ ∨ _))

/-- The prefix as it is dropped, without slashes at its end. -/
def stem (sharedPrefix : Text) : Text := Text.dropEndWhile (· = '/'.toNat) sharedPrefix

/-- The prefix takes its segments off the paths below it and leaves all others alone. -/
theorem dropPrefix_cases (sharedPrefix p : Text) :
    ¬IsBelow (stem sharedPrefix) p ∧ dropPrefix sharedPrefix p = p ∨
      IsBelow (stem sharedPrefix) p ∧
        segments p = segments (stem sharedPrefix) ++ segments (dropPrefix sharedPrefix p) := by
  rw [dropPrefix, ← stem]
  generalize stem sharedPrefix = start
  by_cases hempty : start.isEmpty = true
  · obtain rfl := List.isEmpty_iff.mp hempty
    rw [if_pos hempty]
    by_cases hbelow : IsBelow [] p
    · exact .inr ⟨hbelow, rfl⟩
    · exact .inl ⟨hbelow, rfl⟩
  rw [if_neg hempty]
  split
  · rename_i hprefix
    have heq := Text.eq_append_of_isPrefixOf? hprefix
    rw [List.append_nil] at heq
    refine .inr ⟨.inl heq, ?_⟩
    rw [heq]
    exact (List.append_nil _).symm
  · rename_i c rest hprefix
    have heq := Text.eq_append_of_isPrefixOf? hprefix
    by_cases hc : c = '/'.toNat
    · rw [if_pos hc]
      refine .inr ⟨.inr ⟨rest, by rw [heq, hc, List.append_assoc]; rfl⟩, ?_⟩
      rw [heq, hc, segments_append, segments_slash_cons]
    · rw [if_neg hc]
      refine .inl ⟨?_, rfl⟩
      rintro (hsame | ⟨tail, htail⟩)
      · rw [heq] at hsame
        exact absurd (List.append_right_eq_self.mp hsame) (List.cons_ne_nil c rest)
      · rw [heq, List.append_assoc] at htail
        cases List.append_cancel_left htail
        exact hc rfl
  · rename_i hprefix
    refine .inl ⟨?_, rfl⟩
    rintro (rfl | ⟨tail, htail⟩)
    · have hself := Text.isPrefixOf?_append p []
      rw [List.append_nil, hprefix] at hself
      cases hself
    · rw [← htail, List.append_assoc, Text.isPrefixOf?_append] at hprefix
      cases hprefix

/-- An empty path is a slash. -/
def orSlash (t : Text) : Text := if t.isEmpty then "/" else t

theorem segments_orSlash (t : Text) : segments (orSlash t) = segments t := by
  cases t <;> rfl

theorem path_of_rawPath {url p : Text} (h : rawPath url = .ok p) (sharedPrefix : Text) :
    path sharedPrefix url = .ok (orSlash (dropPrefix sharedPrefix p)) := by
  rw [path, h]
  rfl

/-- What is matched against patterns has the segments of the path, less those of the prefix if the
path is below it. -/
theorem exists_rawPath_of_path {sharedPrefix url q : Text} (h : path sharedPrefix url = .ok q) :
    ∃ p, rawPath url = .ok p ∧
      (¬IsBelow (stem sharedPrefix) p ∧ segments q = segments p ∨
        IsBelow (stem sharedPrefix) p ∧
          segments p = segments (stem sharedPrefix) ++ segments q) := by
  obtain ⟨p, hp, -⟩ := bind_eq_ok_iff.mp h
  rw [path_of_rawPath hp, Except.ok.injEq] at h
  refine ⟨p, hp, ?_⟩
  rw [← h, segments_orSlash]
  exact (dropPrefix_cases sharedPrefix p).imp_left fun ⟨hbelow, hdrop⟩ ↦ ⟨hbelow, by rw [hdrop]⟩

end MockApi.Url
