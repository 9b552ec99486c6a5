import MockApi.Proofs.Url.Path

/-!
# Parts behind the path

What stands behind the path of a URL, a query or a fragment, is no part of the path. It can
nevertheless change the path, in one way: with a colon and two slashes anywhere in a URL, the whole
of it is taken for a full one. Then a path is left as it is only if it has none of what full URLs
lose or take for something else, and that is a property of the path alone.

In the same way, a fragment can bring parameters. They are looked for behind the first question
mark, which is in the fragment if there is none in front of it.
-/

namespace MockApi.Url

/-- A code point marks the end of a path. -/
def IsPathEnd (c : Nat) : Prop := c = '?'.toNat ∨ c = '#'.toNat

namespace IsPathEnd

variable {c : Nat}

theorem notMem (h : IsPathEnd c) {needle : Text} (hquery : '?'.toNat ∉ needle)
    (hfragment : '#'.toNat ∉ needle) : c ∉ needle := by
  obtain rfl | rfl := h
  · exact hquery
  · exact hfragment

theorem isSchemePart_eq_false (h : IsPathEnd c) : isSchemePart c = false := by
  obtain rfl | rfl := h <;> rfl

theorem ne_colon (h : IsPathEnd c) : c ≠ ':'.toNat := by
  obtain rfl | rfl := h <;> decide

theorem gt_space (h : IsPathEnd c) : 0x20 < c := by
  obtain rfl | rfl := h <;> decide

theorem isKept (h : IsPathEnd c) : isKept c = true := by
  obtain rfl | rfl := h <;> rfl

theorem endsAuthority (h : IsPathEnd c) : endsAuthority c = true := by
  obtain rfl | rfl := h <;> rfl

end IsPathEnd

variable {mark : Nat} {url rest : Text}

/-! ## The part in front -/

theorem beforeQuery_eq_takeWhile (url : Text) :
    beforeQuery url = url.takeWhile fun c ↦ c ≠ '?'.toNat && c ≠ '#'.toNat := by
  rw [beforeQuery, Text.before, Text.before, List.takeWhile_takeWhile]
  simp only [decide_eq_true_eq, Bool.decide_and]

/-- A URL is its path with nothing behind it, or with something behind the end of the path. -/
theorem exists_eq_beforeQuery_append (url : Text) : url = beforeQuery url ∨
    ∃ mark rest, IsPathEnd mark ∧ url = beforeQuery url ++ mark :: rest := by
  have htile := List.takeWhile_append_dropWhile
    (p := fun c ↦ c ≠ '?'.toNat && c ≠ '#'.toNat) (l := url)
  rw [← beforeQuery_eq_takeWhile] at htile
  cases hdrop : url.dropWhile fun c ↦ c ≠ '?'.toNat && c ≠ '#'.toNat with
  | nil => exact .inl (by rw [hdrop, List.append_nil] at htile; exact htile.symm)
  | cons mark rest =>
    have hstop := Text.eq_false_of_mem_head?_dropWhile
      (p := fun c ↦ c ≠ '?'.toNat && c ≠ '#'.toNat) (t := url) (by rw [hdrop]; rfl)
    refine .inr ⟨mark, rest, ?_, by rw [← hdrop, htile]⟩
    simpa [IsPathEnd, or_iff_not_imp_left] using hstop

theorem isPlain_beforeQuery (url : Text) : IsPlain (beforeQuery url) :=
  ⟨fun h ↦ (of_mem_beforeQuery h).2.1 rfl, fun h ↦ (of_mem_beforeQuery h).2.2 rfl⟩

theorem beforeQuery_append (h : IsPathEnd mark) (url rest : Text) :
    beforeQuery (url ++ mark :: rest) = beforeQuery url := by
  have hstop : ∀ c ∈ (mark :: rest).head?, (c ≠ '?'.toNat && c ≠ '#'.toNat) = false := by
    rintro c ⟨rfl⟩
    obtain rfl | rfl := h <;> rfl
  rw [beforeQuery_eq_takeWhile, beforeQuery_eq_takeWhile]
  exact (Text.takeWhile_append_of_ends (.inr hstop)).1

/-! ## Full URLs -/

theorem clean_append (h : IsPathEnd mark) (url rest : Text) :
    clean (url ++ mark :: rest) = clean url ++ mark :: rest.filter isKept := by
  have hstop : ∀ c ∈ (mark :: rest).head?, decide (c ≤ 0x20) = false := by
    rintro c ⟨rfl⟩
    exact decide_eq_false (Nat.not_le.mpr h.gt_space)
  rw [clean, (Text.takeWhile_append_of_ends (.inr hstop)).2, List.filter_append]
  congr 1
  exact List.filter_cons_of_pos h.isKept

/-- What stands in front of the first colon is no scheme if it has anything else in it. -/
theorem dropScheme_eq_self {t : Text} {c : Nat} (hc : c ∈ Text.before ':'.toNat t)
    (hpart : isSchemePart c = false) : dropScheme t = t := by
  unfold dropScheme
  split
  · rename_i scheme after hcut
    obtain ⟨rfl, hscheme⟩ := Text.cut?_eq_some hcut
    rw [Text.before_append hscheme] at hc
    have hall : scheme.all isSchemePart = false :=
      List.all_eq_false.mpr ⟨c, hc, by rw [hpart]; decide⟩
    rw [hall, Bool.and_false]
    rfl
  · rfl

theorem dropScheme_append (h : IsPathEnd mark) (t rest : Text) :
    dropScheme (t ++ mark :: rest) = dropScheme t ++ mark :: rest := by
  by_cases hcolon : ':'.toNat ∈ t
  · obtain ⟨scheme, after, rfl, hscheme⟩ := List.eq_append_cons_of_mem hcolon
    rw [dropScheme, List.append_assoc, List.cons_append, Text.cut?_append hscheme, dropScheme,
      Text.cut?_append hscheme]
    dsimp only
    split
    · rfl
    · rw [List.append_assoc, List.cons_append]
  · have hmark : mark ∈ Text.before ':'.toNat (t ++ mark :: rest) := by
      have hall : ∀ c ∈ t, decide (c ≠ ':'.toNat) = true :=
        fun c hc ↦ decide_eq_true fun heq ↦ hcolon (heq ▸ hc)
      rw [Text.before, List.takeWhile_append_of_pos hall,
        List.takeWhile_cons_of_pos (p := fun c ↦ decide (c ≠ ':'.toNat))
          (decide_eq_true h.ne_colon)]
      exact List.mem_append_right t List.mem_cons_self
    rw [dropScheme_eq_self hmark h.isSchemePart_eq_false, dropScheme, Text.cut?_eq_none hcolon]

/-- The path of a full URL does not depend on what is behind it. -/
theorem fullPath_append (h : IsPathEnd mark) (url rest : Text) :
    fullPath (url ++ mark :: rest) = fullPath url := by
  have hslashes : ∀ c ∈ (mark :: rest.filter isKept).head?, c ∉ ("//" : Text) := by
    rintro c ⟨rfl⟩
    exact h.notMem (by decide) (by decide)
  rw [fullPath, fullPath, clean_append h, dropScheme_append h,
    Text.isPrefixOf?_append_of_ends hslashes]
  cases ("//" : Text).isPrefixOf? (dropScheme (clean url)) with
  | none => exact congrArg Except.ok (beforeQuery_append h _ _)
  | some left =>
    -- the authority ends at the end of the path at the latest
    have hends : ∀ c ∈ (mark :: rest.filter isKept).head?, (!endsAuthority c) = false := by
      rintro c ⟨rfl⟩
      rw [h.endsAuthority]
      rfl
    obtain ⟨htake, hdrop⟩ := Text.takeWhile_append_of_ends (t := left) (.inr hends)
    simp only [Option.map_some, htake, hdrop, beforeQuery_append h]

theorem fullPath_beforeQuery (url : Text) : fullPath (beforeQuery url) = fullPath url := by
  obtain heq | ⟨mark, rest, hmark, heq⟩ := exists_eq_beforeQuery_append url
  · rw [← heq]
  · conv_rhs => rw [heq, fullPath_append hmark]

/-- What is behind the path of a URL counts only for whether the URL is taken for a full one. -/
theorem rawPath_append (h : IsPathEnd mark) (url rest : Text) :
    rawPath (url ++ mark :: rest) =
      if Text.includes "://" url = true ∨ Text.includes "://" rest = true then fullPath url
      else .ok (beforeQuery url) := by
  rw [rawPath, Text.includes_append_cons (by decide) (h.notMem (by decide) (by decide)),
    fullPath_append h, beforeQuery_append h]
  simp only [Bool.or_eq_true]

/-! ## Paths that stay as they are -/

/-- A path has nothing that is lost or taken for something else in a full URL. -/
structure IsSteady (t : Text) : Prop where
  /-- Tabs and line ends are lost. -/
  kept : ∀ c ∈ t, isKept c = true
  /-- Controls and spaces are lost in front. -/
  front : ∀ c ∈ t.head?, 0x20 < c
  /-- A scheme is in front of a path. -/
  scheme : dropScheme t = t
  /-- Two slashes are in front of an authority. -/
  authority : ¬("//" : Text) <+: t

theorem clean_sublist (url : Text) : (clean url).Sublist url :=
  List.filter_sublist.trans (List.dropWhile_sublist _)

theorem dropScheme_sublist (t : Text) : (dropScheme t).Sublist t := by
  unfold dropScheme
  split
  · rename_i scheme after hcut
    obtain ⟨rfl, -⟩ := Text.cut?_eq_some hcut
    split
    · exact (List.sublist_cons_self _ _).trans (List.sublist_append_right _ _)
    · exact List.Sublist.refl _
  · exact List.Sublist.refl _

theorem beforeQuery_sublist (url : Text) : (beforeQuery url).Sublist url :=
  (List.takeWhile_sublist _).trans (List.takeWhile_sublist _)

theorem clean_eq_self_iff {t : Text} :
    clean t = t ↔ (∀ c ∈ t, isKept c = true) ∧ ∀ c ∈ t.head?, 0x20 < c := by
  constructor
  · intro h
    have hdrop : t.dropWhile (· ≤ 0x20) = t := by
      refine (List.dropWhile_sublist _).antisymm ?_
      conv_lhs => rw [← h]
      exact List.filter_sublist
    have hkept : t.filter isKept = t := by
      conv_rhs => rw [← h, clean, hdrop]
      rfl
    refine ⟨List.filter_eq_self.mp hkept, fun c hc ↦ Nat.not_le.mp ?_⟩
    rw [← hdrop] at hc
    exact of_decide_eq_false (Text.eq_false_of_mem_head?_dropWhile hc)
  · rintro ⟨hkept, hfront⟩
    have hstop : ∀ c ∈ t.head?, decide (c ≤ 0x20) = false :=
      fun c hc ↦ decide_eq_false (Nat.not_le.mpr (hfront c hc))
    have hdrop : t.dropWhile (· ≤ 0x20) = t :=
      Text.dropWhile_append_of_stop (List.forall_mem_nil _) hstop
    rw [clean, hdrop]
    exact List.filter_eq_self.mpr hkept

/-- What is lost on the way to the path does not come back. -/
theorem dropScheme_clean_eq_self_iff {t : Text} :
    dropScheme (clean t) = t ↔ clean t = t ∧ dropScheme t = t := by
  constructor
  · intro h
    have hclean : clean t = t := by
      refine (clean_sublist t).antisymm ?_
      conv_lhs => rw [← h]
      exact dropScheme_sublist _
    exact ⟨hclean, by rwa [hclean] at h⟩
  · rintro ⟨hclean, hscheme⟩
    rw [hclean, hscheme]

/-- The path of a full URL is a part of what is left without the scheme, and it is behind two
slashes in front. -/
theorem sublist_of_fullPath {p : Text} (h : fullPath url = .ok p) :
    p.Sublist (dropScheme (clean url)) ∧
      ∀ left, dropScheme (clean url) = ("//" : Text) ++ left → p.Sublist left := by
  unfold fullPath at h
  split at h
  · rename_i hprefix
    cases h
    refine ⟨beforeQuery_sublist _, fun left hleft ↦ ?_⟩
    rw [hleft, Text.isPrefixOf?_append] at hprefix
    cases hprefix
  · rename_i left hprefix
    have hslashes := Text.eq_append_of_isPrefixOf? hprefix
    dsimp only at h
    split at h
    · cases h
      have hleft := (beforeQuery_sublist (left.dropWhile fun c ↦ !endsAuthority c)).trans
        (List.dropWhile_sublist _)
      refine ⟨?_, fun other hother ↦ ?_⟩
      · rw [hslashes]
        exact hleft.trans (List.sublist_append_right _ _)
      · rwa [← List.append_cancel_left (hslashes.symm.trans hother)]
    · cases h

/-- A path is its own path in a full URL if and only if it has nothing that is lost there or taken
for something else. -/
theorem fullPath_eq_beforeQuery_iff :
    fullPath url = .ok (beforeQuery url) ↔ IsSteady (beforeQuery url) := by
  have hplain := isPlain_beforeQuery url
  rw [← fullPath_beforeQuery]
  generalize beforeQuery url = t at hplain ⊢
  constructor
  · intro h
    obtain ⟨hsub, hbehind⟩ := sublist_of_fullPath h
    have hwhole : dropScheme (clean t) = t :=
      ((dropScheme_sublist _).trans (clean_sublist t)).antisymm hsub
    obtain ⟨hclean, hscheme⟩ := dropScheme_clean_eq_self_iff.mp hwhole
    obtain ⟨hkept, hfront⟩ := clean_eq_self_iff.mp hclean
    refine ⟨hkept, hfront, hscheme, fun ⟨left, hleft⟩ ↦ ?_⟩
    -- behind two slashes there is not enough left for the path
    have hle := (hbehind left (hwhole.trans hleft.symm)).length_le
    rw [← hleft, List.length_append] at hle
    have htwo : List.length ("//" : Text) = 2 := rfl
    omega
  · intro h
    have hnone : ("//" : Text).isPrefixOf? t = none := by
      cases hprefix : ("//" : Text).isPrefixOf? t with
      | none => rfl
      | some left =>
        exact absurd ⟨left, (Text.eq_append_of_isPrefixOf? hprefix).symm⟩ h.authority
    rw [fullPath, clean_eq_self_iff.mpr ⟨h.kept, h.front⟩, h.scheme, hnone, hplain.beforeQuery_eq]

theorem isSteady_slash_cons_iff {t : Text} : IsSteady ('/'.toNat :: t) ↔
    (∀ c ∈ '/'.toNat :: t, isKept c = true) ∧ ¬("//" : Text) <+: '/'.toNat :: t := by
  constructor
  · intro h
    exact ⟨h.kept, h.authority⟩
  · rintro ⟨hkept, hauthority⟩
    refine ⟨hkept, ?_, dropScheme_slash_cons t, hauthority⟩
    rintro c ⟨rfl⟩
    decide

/-! ## Paths with something behind them -/

theorem orSlash_inj {t u : Text} (h : orSlash t = orSlash u) (hnil : u ≠ []) (hslash : u ≠ "/") :
    t = u := by
  have hu : orSlash u = u := if_neg (by simpa using hnil)
  rw [hu, orSlash] at h
  split at h
  · exact absurd h.symm hslash
  · exact h

/-- **Parts behind the path.** A URL has the same path with something behind it as without, whatever
prefix is dropped, unless it becomes a full one by that and has a path that is lost in parts or
taken for something else. -/
theorem forall_path_append_iff (h : IsPathEnd mark) (url rest : Text) :
    (∀ sharedPrefix, path sharedPrefix (url ++ mark :: rest) = path sharedPrefix url) ↔
      Text.includes "://" url = true ∨ Text.includes "://" rest = false ∨
        IsSteady (beforeQuery url) := by
  have hraw := rawPath_append h url rest
  rw [← fullPath_eq_beforeQuery_iff]
  constructor
  · intro hsame
    by_contra! hnot
    obtain ⟨hurl, hrest, hpath⟩ := hnot
    rw [if_pos (.inr (by simpa using hrest))] at hraw
    have hown : rawPath url = .ok (beforeQuery url) := if_neg hurl
    have hunsteady : ¬IsSteady (beforeQuery url) := fullPath_eq_beforeQuery_iff.not.mp hpath
    have hnil : beforeQuery url ≠ [] := by
      intro hempty
      rw [hempty] at hunsteady
      exact hunsteady ⟨by decide, by decide, by decide, by decide⟩
    have hslash : beforeQuery url ≠ "/" := by
      intro hroot
      rw [hroot] at hunsteady
      exact hunsteady (isSteady_slash_cons_iff.mpr ⟨by decide, by decide⟩)
    have hempty := hsame []
    rw [path_of_rawPath hown] at hempty
    cases hfull : fullPath url with
    | error fault =>
      rw [path, hraw, hfull] at hempty
      cases hempty
    | ok p =>
      rw [path_of_rawPath (hraw.trans hfull), Except.ok.injEq] at hempty
      exact hpath (hfull.trans (congrArg Except.ok (orSlash_inj hempty hnil hslash)))
  · intro hcases sharedPrefix
    have hsame : rawPath (url ++ mark :: rest) = rawPath url := by
      rw [hraw, rawPath]
      obtain hurl | hrest | hpath := hcases
      · rw [if_pos (.inl hurl), if_pos hurl]
      · simp [hrest]
      · rw [hpath, ite_self, ite_self]
    rw [path, path, hsame]

/-! ## Parameters in fragments -/

theorem query?_append_of_notMem (h : '?'.toNat ∉ url) (rest : Text) :
    query? (url ++ rest) = query? rest := by
  rw [query?, Text.cut?_append_of_notMem h, Option.map_map]
  rfl

/-- The parameters of a URL with a fragment are those in front of the fragment if there is a query,
and those inside the fragment otherwise. -/
theorem queryParameters_append_fragment (url fragment : Text) :
    queryParameters (url ++ '#'.toNat :: fragment) =
      if '?'.toNat ∈ url then queryParameters url else queryParameters fragment := by
  by_cases h : '?'.toNat ∈ url
  · obtain ⟨front, rest, rfl, hfront⟩ := List.eq_append_cons_of_mem h
    rw [if_pos h, List.append_assoc, List.cons_append]
    simp only [queryParameters, query?, Text.cut?_append hfront, Option.map_some,
      Text.before_append_sep]
  · have hmark : '?'.toNat ∉ url ++ ['#'.toNat] := by
      rw [List.mem_append, List.mem_singleton]
      exact not_or.mpr ⟨h, by decide⟩
    rw [if_neg h, List.append_cons, queryParameters, query?_append_of_notMem hmark,
      queryParameters]

theorem queryParameters_of_notMem (h : '?'.toNat ∉ url) : queryParameters url = [] := by
  rw [queryParameters, query?, Text.cut?_eq_none h]
  rfl

/-- **Fragments.** A fragment makes no difference to the parameters of a URL if and only if there is
a question mark in front of it or it has no parameters of its own. It makes no difference to the
path, whatever prefix is dropped, if and only if the URL is a full one without it, or it has no
colon and two slashes in it, or the path has nothing that is lost in a full URL or taken for
something else. -/
theorem fragment_iff (url fragment : Text) :
    (queryParameters (url ++ '#'.toNat :: fragment) = queryParameters url ↔
      '?'.toNat ∈ url ∨ queryParameters fragment = []) ∧
    ((∀ sharedPrefix, path sharedPrefix (url ++ '#'.toNat :: fragment) = path sharedPrefix url) ↔
      Text.includes "://" url = true ∨ Text.includes "://" fragment = false ∨
        IsSteady (beforeQuery url)) := by
  refine ⟨?_, forall_path_append_iff (.inr rfl) url fragment⟩
  rw [queryParameters_append_fragment]
  by_cases h : '?'.toNat ∈ url
  · rw [if_pos h]
    exact iff_of_true rfl (.inl h)
  · rw [if_neg h, queryParameters_of_notMem h, or_iff_right h]

/-- A fragment brings a parameter, and another one makes an authority of a segment. -/
theorem fragment_matters :
    queryParameters "/list#top?page=2" ≠ queryParameters "/list" ∧
      path "/api" "//shop/list#from=http://home" ≠ path "/api" "//shop/list" := by
  have hpage : queryParameters "/list#top?page=2" = ([("page", .int 2)] : Entries) := rfl
  have hshop : path "/api" "//shop/list#from=http://home" = .ok "/list" := rfl
  have hlist : path "/api" "//shop/list" = .ok "//shop/list" := rfl
  rw [hpage, hshop, hlist]
  exact ⟨List.cons_ne_nil _ _, by decide⟩

end MockApi.Url
