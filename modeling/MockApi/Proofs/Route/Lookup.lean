import MockApi.Proofs.Route.Dispatch
import MockApi.Proofs.Url.Parts

/-!
# What is found for a URL

A request finds its endpoint through the segments of its path. So neither repeated slashes nor
slashes at the end make a difference, with one exception: whether a path is below the prefix of all
requests is told from its text. Two paths with the same segments find the same if the prefix is
dropped from both or from none, and only then.

A query makes no difference either, unless it makes a full URL of a path that full URLs do not leave
as it is.
-/

namespace MockApi

variable {stack : Stack}

open Route Url

/-! ## Routes -/

namespace Registry

/-- What is found for a method and a URL: the first endpoint that answers the method and the path of
the URL, with what it captures, if there is one. -/
def route (registry : Registry) (sharedPrefix method url : Text) :
    Except Url.Fault (Option (Endpoint × Table Text)) :=
  (path sharedPrefix url).map (registry.find? method)

/-- What is found depends on the segments of a path only. -/
theorem find?_congr (registry : Registry) (method : Text) {p q : Text}
    (h : segments p = segments q) : registry.find? method p = registry.find? method q := by
  have hmatch (pattern : Text) : match? pattern p = match? pattern q := by
    rw [match?, match?, h]
  simp only [find?, hmatch]

/-- A single endpoint is found if it answers the method and matches the path. -/
theorem find?_singleton {endpoint : Endpoint} {method : Text}
    (h : endpoint.method.answers method = true) (q : Text) :
    (Registry.mk [endpoint]).find? method q =
      (match? endpoint.path q).map fun captures ↦ (endpoint, captures) := by
  rw [find?, List.findSome?_singleton, if_pos h]

end Registry

/-! ## Slashes -/

namespace Url

/-- A path as it is requested: a slash is in front, and nothing but the path is there. -/
structure IsBare (p : Text) : Prop where
  /-- A slash is in front. -/
  slash : p.head? = some '/'.toNat
  /-- There is no query and no fragment. -/
  plain : IsPlain p
  /-- The path is not taken for a full URL. -/
  notFull : Text.includes "://" p = false

instance (p : Text) : Decidable (IsPlain p) := inferInstanceAs (Decidable (_ ∧ _))

theorem IsBare.rawPath_eq {p : Text} (h : IsBare p) : rawPath p = .ok p := by
  rw [rawPath, h.notFull, h.plain.beforeQuery_eq]
  rfl

/-- The segments that are looked up for a bare path. -/
theorem IsBare.exists_path {p : Text} (h : IsBare p) (sharedPrefix : Text) :
    ∃ looked, path sharedPrefix p = .ok looked ∧
      (¬IsBelow (stem sharedPrefix) p ∧ segments looked = segments p ∨
        IsBelow (stem sharedPrefix) p ∧
          segments p = segments (stem sharedPrefix) ++ segments looked) := by
  have hpath := path_of_rawPath h.rawPath_eq sharedPrefix
  obtain ⟨p', hp', hcases⟩ := exists_rawPath_of_path hpath
  cases h.rawPath_eq.symm.trans hp'
  exact ⟨_, hpath, hcases⟩

/-- A prefix is gone or has a segment, once the slashes at its end are. -/
theorem segments_stem_ne_nil {sharedPrefix : Text} (h : stem sharedPrefix ≠ []) :
    segments (stem sharedPrefix) ≠ [] := by
  have hlast : (stem sharedPrefix).getLast h ∈
      (sharedPrefix.reverse.dropWhile (· = '/'.toNat)).head? := by
    rw [← List.getLast?_reverse]
    exact List.getLast?_eq_some_getLast h
  have hslash : (stem sharedPrefix).getLast h ≠ '/'.toNat :=
    of_decide_eq_false (Text.eq_false_of_mem_head?_dropWhile hlast)
  obtain ⟨s, hs, -⟩ := (exists_mem_segments_iff hslash).mpr (List.getLast_mem h)
  exact List.ne_nil_of_mem hs

end Url

namespace Registry

variable {p q : Text}

/-- Something is found for a path below the prefix that is not found for a path with the same
segments that is not below it. -/
theorem exists_route_ne (hp : IsBare p) (hq : IsBare q) (hsegments : segments p = segments q)
    {sharedPrefix : Text} (hbelow : IsBelow (stem sharedPrefix) p)
    (hnot : ¬IsBelow (stem sharedPrefix) q) (method : Text) :
    ∃ registry : Registry,
      registry.route sharedPrefix method p ≠ registry.route sharedPrefix method q := by
  obtain ⟨p', hp', hcases⟩ := hp.exists_path sharedPrefix
  have hshort := (hcases.resolve_left fun h ↦ h.1 hbelow).2
  obtain ⟨q', hq', hcases⟩ := hq.exists_path sharedPrefix
  have hwhole := (hcases.resolve_right fun h ↦ hnot h.1).2
  have hstem : stem sharedPrefix ≠ [] := by
    intro hempty
    rw [hempty] at hnot
    obtain ⟨t, rfl⟩ := List.head?_eq_some_iff.mp hq.slash
    exact hnot (.inr ⟨t, rfl⟩)
  have hlength : (segments p').length ≠ (segments q').length := by
    have hpos := List.length_pos_iff.mpr (segments_stem_ne_nil hstem)
    rw [hwhole, ← hsegments, hshort, List.length_append]
    omega
  -- the path that is looked up for the one is a pattern that the other does not match
  let endpoint : Endpoint := ⟨p', .any, .standard, [], [], .null, .null⟩
  have hanswers : endpoint.method.answers method = true := rfl
  refine ⟨⟨[endpoint]⟩, fun hsame ↦ ?_⟩
  rw [route, route, hp', hq'] at hsame
  have hfound := Except.ok.inj hsame
  rw [find?_singleton hanswers, find?_singleton hanswers,
    match?_eq_none_of_length_ne hlength, Option.map_none,
    Option.map_eq_none_iff] at hfound
  have hself := isSome_match?_self p'
  rw [hfound] at hself
  cases hself

/-- **Slashes and routes.** Two paths with the same segments find the same endpoint with the same
captures, whatever is registered, if and only if both are below the prefix of all requests or none
is. Slashes behind the prefix never make a difference. -/
theorem route_slashes_iff (hp : IsBare p) (hq : IsBare q) (hsegments : segments p = segments q)
    (sharedPrefix : Text) :
    (∀ (registry : Registry) (method : Text), ∃ found,
      registry.route sharedPrefix method p = .ok found ∧
        registry.route sharedPrefix method q = .ok found) ↔
      (IsBelow (stem sharedPrefix) p ↔ IsBelow (stem sharedPrefix) q) := by
  constructor
  · intro hsame
    have hroute (registry : Registry) : registry.route sharedPrefix [] p =
        registry.route sharedPrefix [] q := by
      obtain ⟨found, hfound, hother⟩ := hsame registry []
      rw [hfound, hother]
    constructor
    · intro hbelow
      by_contra hnot
      obtain ⟨registry, hne⟩ := exists_route_ne hp hq hsegments hbelow hnot []
      exact hne (hroute registry)
    · intro hbelow
      by_contra hnot
      obtain ⟨registry, hne⟩ := exists_route_ne hq hp hsegments.symm hbelow hnot []
      exact hne (hroute registry).symm
  · intro hiff registry method
    obtain ⟨p', hp', hpcases⟩ := hp.exists_path sharedPrefix
    obtain ⟨q', hq', hqcases⟩ := hq.exists_path sharedPrefix
    have hsame : segments p' = segments q' := by
      obtain ⟨hnot, hwhole⟩ | ⟨hbelow, hshort⟩ := hpcases
      · have hother := (hqcases.resolve_right fun h ↦ hnot (hiff.mpr h.1)).2
        rw [hwhole, hother, hsegments]
      · have hother := (hqcases.resolve_left fun h ↦ h.1 (hiff.mp hbelow)).2
        rw [hsegments, hother] at hshort
        exact (List.append_cancel_left hshort).symm
    refine ⟨registry.find? method p', by rw [route, hp']; rfl, ?_⟩
    rw [route, hq', find?_congr registry method hsame]
    rfl

/-- Slashes behind the prefix make no difference. -/
theorem route_slashes_iff_users :
    IsBare "/api/users//7/" ∧ IsBare "/api//users/7" ∧
      segments "/api/users//7/" = segments "/api//users/7" ∧
      ∀ (registry : Registry) (method : Text), ∃ found,
        registry.route "/api/" method "/api/users//7/" = .ok found ∧
          registry.route "/api/" method "/api//users/7" = .ok found := by
  have hp : IsBare "/api/users//7/" := ⟨rfl, by decide, by decide⟩
  have hq : IsBare "/api//users/7" := ⟨rfl, by decide, by decide⟩
  have hsegments : segments "/api/users//7/" = segments "/api//users/7" := by decide
  exact ⟨hp, hq, hsegments, (route_slashes_iff hp hq hsegments "/api/").mpr (by decide)⟩

/-- A second slash in front of the prefix makes a difference. -/
theorem route_doubled_slash :
    let endpoint : Endpoint := ⟨"/users", .get, .standard, [], [], .null, .null⟩
    let registry : Registry := ⟨[endpoint]⟩
    IsBare "/api/users" ∧ IsBare "//api/users" ∧ segments "/api/users" = segments "//api/users" ∧
      registry.route "/api" "GET" "/api/users" = .ok (some (endpoint, [])) ∧
      registry.route "/api" "GET" "//api/users" = .ok none :=
  ⟨⟨rfl, by decide, by decide⟩, ⟨rfl, by decide, by decide⟩, by decide, rfl, rfl⟩

end Registry

/-! ## Queries -/

namespace Dispatch

/-- What a request is answered with once it is told what is found for it. -/
def answer [Stack] (mode : RenderMode) (registry : Registry) (request : DispatchRequest) :
    Option (Endpoint × Table Text) → Waited (Except DispatchFailure DispatchResult)
  | some (endpoint, captures) => serve mode request endpoint captures
  | none => ⟨[], .ok (.notFound request.method.toUpper request.url registry.identities)⟩

theorem dispatch_eq_answer (settings : DispatchSettings) (registry : Registry)
    (request : DispatchRequest) {p : Text} (h : path settings.pathPrefix request.url = .ok p) :
    dispatch settings registry request = answer settings.renderMode registry request
      (registry.find? request.method.toUpper p) := by
  simp only [dispatch, h]
  cases registry.find? request.method.toUpper p <;> rfl

/-- URLs lead to the same: all have one and the same path, whatever prefix is dropped, and whatever
the rest of a request is, the same endpoint is found with the same captures under each of them, or
none is found under any. -/
structure LeadTogether [Stack] (urls : List Text) : Prop where
  /-- There is one path. -/
  path : ∀ sharedPrefix, ∃ p, ∀ url ∈ urls, Url.path sharedPrefix url = .ok p
  /-- There is one endpoint, or there is none. -/
  found : ∀ (settings : DispatchSettings) (registry : Registry) (request : DispatchRequest),
    ∃ found, ∀ url ∈ urls, dispatch settings registry { request with url := url } =
      answer settings.renderMode registry { request with url := url } found

/-- URLs that have the same path lead to the same. -/
theorem leadTogether_iff {urls : List Text} : LeadTogether urls ↔
    ∀ sharedPrefix, ∃ p, ∀ url ∈ urls, Url.path sharedPrefix url = .ok p := by
  refine ⟨LeadTogether.path, fun h ↦ ⟨h, fun settings registry request ↦ ?_⟩⟩
  obtain ⟨p, hp⟩ := h settings.pathPrefix
  refine ⟨registry.find? request.method.toUpper p, fun url hurl ↦ ?_⟩
  exact dispatch_eq_answer settings registry { request with url := url } (hp url hurl)

/-- **Queries and routes.** A path leads to the same with either of two queries and without one if
and only if it is not refused itself and one of the following holds: it is taken for a full URL on
its own; neither query has a colon and two slashes in it; the path has no tabs and no line ends and
does not start with two slashes. -/
theorem leadTogether_queries_iff {p : Text} (hslash : p.head? = some '/'.toNat) (hp : IsPlain p)
    (query₁ query₂ : Text) :
    LeadTogether [p, p ++ '?'.toNat :: query₁, p ++ '?'.toNat :: query₂] ↔
      (∀ authority ∈ authority? p, Authority.isValid authority) ∧
        (Text.includes "://" p = true ∨
          (Text.includes "://" query₁ = false ∧ Text.includes "://" query₂ = false) ∨
          (∀ c ∈ p, isKept c = true) ∧ ¬("//" : Text) <+: p) := by
  have hsteady : IsSteady (beforeQuery p) ↔
      (∀ c ∈ p, isKept c = true) ∧ ¬("//" : Text) <+: p := by
    obtain ⟨t, rfl⟩ := List.head?_eq_some_iff.mp hslash
    rw [hp.beforeQuery_eq, isSteady_slash_cons_iff]
  have hsame (query : Text) := forall_path_append_iff (.inl rfl) p query
  rw [leadTogether_iff, ← hsteady]
  constructor
  · intro h
    have hquery (query : Text) (hmem : p ++ '?'.toNat :: query ∈
        [p, p ++ '?'.toNat :: query₁, p ++ '?'.toNat :: query₂]) := (hsame query).mp
      fun sharedPrefix ↦ by
        obtain ⟨t, ht⟩ := h sharedPrefix
        rw [ht _ hmem, ht p List.mem_cons_self]
    have h₁ := hquery query₁ (by simp)
    have h₂ := hquery query₂ (by simp)
    obtain ⟨t, ht⟩ := h []
    exact ⟨(exists_path_eq_ok_iff [] p).mp ⟨t, ht p List.mem_cons_self⟩, by tauto⟩
  · rintro ⟨hauthority, hcases⟩ sharedPrefix
    obtain ⟨t, ht⟩ := (exists_path_eq_ok_iff sharedPrefix p).mpr hauthority
    have h₁ := (hsame query₁).mpr (by tauto) sharedPrefix
    have h₂ := (hsame query₂).mpr (by tauto) sharedPrefix
    refine ⟨t, ?_⟩
    simp only [List.forall_mem_cons, List.not_mem_nil, false_implies, implies_true, h₁, h₂, ht,
      and_self]

/-- A path leads to the same whether a request says where it comes from or which page it asks
for. -/
theorem leadTogether_queries_iff_list :
    letI : Stack := .usual
    LeadTogether ["/shop/list", "/shop/list?from=http://home", "/shop/list?page=2"] :=
  (leadTogether_queries_iff rfl ⟨by decide, by decide⟩ "from=http://home" "page=2").mpr
    ⟨by decide, .inr (.inr ⟨by decide, by decide⟩)⟩

/-- A query makes an authority of a segment, and another one has a path refused. -/
theorem queries_matter :
    letI : Stack := .usual
    path "/api" "//shop/list" = .ok "//shop/list" ∧
      path "/api" "//shop/list?from=http://home" = .ok "/list" ∧
      path "/api" "//[" = .ok "//[" ∧
      path "/api" "//[?from=http://home" = .error (.badAuthority "[") ∧
      ¬LeadTogether ["//shop/list", "//shop/list?from=http://home", "//shop/list?page=2"] ∧
      ¬LeadTogether ["//[", "//[?from=http://home", "//[?page=2"] := by
  let stack : Stack := .usual
  have hlist : path "/api" "//shop/list" = .ok "//shop/list" := rfl
  have hfrom : path "/api" "//shop/list?from=http://home" = .ok "/list" := rfl
  have hrefused : path "/api" "//[?from=http://home" = .error (.badAuthority "[") := rfl
  refine ⟨hlist, hfrom, rfl, hrefused, fun h ↦ ?_, fun h ↦ ?_⟩
  · obtain ⟨p, hp⟩ := h.path "/api"
    have hplain := hlist.symm.trans (hp "//shop/list" (by simp))
    have hquery := hfrom.symm.trans (hp "//shop/list?from=http://home" (by simp))
    have hne : Text.ofString "//shop/list" ≠ "/list" := by decide
    exact hne (Except.ok.inj (hplain.trans hquery.symm))
  · obtain ⟨p, hp⟩ := h.path "/api"
    cases hrefused.symm.trans (hp "//[?from=http://home" (by simp))

end Dispatch

end MockApi
