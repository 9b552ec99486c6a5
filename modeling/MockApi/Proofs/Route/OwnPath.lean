import MockApi.Proofs.Route.Lookup
import MockApi.Proofs.Route.Stability

/-!
# Endpoints at their own paths

An endpoint is asked for under its own path when a request comes with the pattern filled in as its
URL. The endpoint is found there as long as nothing in the URL looks like something else than a
path: a query or a fragment, the prefix that all requests share, or, in a URL that is taken for a
full one, an authority or code points that full URLs lose. Otherwise a segment that the pattern asks
for is missing.

The second half is a matter of counting. Whatever is taken for something else takes segments along,
and a pattern matches no path with fewer segments than its own.
-/

namespace MockApi

variable {stack : Stack}

namespace Route

open Url

variable {pattern : Text}

/-! ## Reachable paths -/

/-- Nothing in a filled pattern looks like another part of a URL. -/
structure IsReachable (pattern url : Text) : Prop where
  /-- There is no query and no fragment. -/
  plain : IsPlain url
  /-- A full URL has no authority. -/
  authority : Text.includes "://" url = true → ¬HasAuthority (url.filter isKept)
  /-- A full URL loses no code point of a segment that has to be met exactly. -/
  exact : Text.includes "://" url = true →
    ∀ p ∈ segments pattern, captureName? p = none → ∀ c ∈ p, isKept c = true
  /-- A full URL loses no segment. -/
  lasting : Text.includes "://" url = true → ∀ s ∈ segments url, ∃ c ∈ s, isKept c = true
  /-- What is left of the URL is not below the prefix of all requests. -/
  notBelow : ¬IsBelow "/api" (reduced url)

/-- Patterns with a slash in front are filled in to paths with a slash in front. -/
theorem IsFilled.exists_eq_slash_cons {path : Text} (h : IsFilled pattern path)
    (hslash : pattern.head? = some '/'.toNat) : ∃ t, path = '/'.toNat :: t := by
  obtain ⟨rest, rfl⟩ := List.head?_eq_some_iff.mp hslash
  obtain ⟨fillings, hall, rfl⟩ := h
  have hsplit : Text.splitOn '/'.toNat ('/'.toNat :: rest) = [] :: Text.splitOn '/'.toNat rest :=
    if_pos rfl
  rw [hsplit] at hall
  obtain ⟨first, others, hfirst, hothers, rfl⟩ := List.forall₂_cons_left_iff.mp hall
  rw [hfirst.eq_nil_iff.mpr rfl]
  cases others with
  | nil => exact absurd (List.forall₂_nil_right_iff.mp hothers) (Text.splitOn_ne_nil _ _)
  | cons second others => exact ⟨_, rfl⟩

section Reachable

variable {t q : Text}

/-- What a pattern asks for exactly is in every path that it matches. -/
theorem mem_of_meets {p : Text} (hsub : segments q ⊆ segments p)
    (hmeets : List.Forall₂ Meets (segments pattern) (segments q)) {s : Text}
    (hs : s ∈ segments pattern) (hname : captureName? s = none) {c : Nat} (hc : c ∈ s) :
    c ∈ p := by
  obtain ⟨s', hs', hmeet⟩ := exists_mem_of_forall₂_left hmeets hs
  have hslash : c ≠ '/'.toNat := fun heq ↦ (of_mem_segments hs).2 (heq ▸ hc)
  obtain rfl := hmeet hname
  exact (exists_mem_segments_iff hslash).mp ⟨s, hsub hs', hc⟩

/-- The marks of a filled pattern are in segments that have to be met exactly. -/
theorem exists_exact_of_mark {url : Text}
    (hfills : List.Forall₂ Fills (segments pattern) (segments url)) {c : Nat} (hmark : c ∈ marks)
    (hslash : c ≠ '/'.toNat) (hc : c ∈ url) :
    ∃ s ∈ segments pattern, captureName? s = none ∧ c ∈ s := by
  obtain ⟨s, hs, hcs⟩ := (exists_mem_segments_iff hslash).mpr hc
  obtain ⟨p, hp, hfill⟩ := exists_mem_of_forall₂_right hfills hs
  obtain ⟨rfl, hname⟩ := hfill.eq_of_mem hmark hcs
  exact ⟨s, hp, hname, hcs⟩

/-- A pattern that matches what is looked up for it is reachable. -/
theorem isReachable_of_meets (hfills : List.Forall₂ Fills (segments pattern)
      (segments ('/'.toNat :: t))) (hpath : path "/api" ('/'.toNat :: t) = .ok q)
    (hmeets : List.Forall₂ Meets (segments pattern) (segments q)) :
    IsReachable pattern ('/'.toNat :: t) := by
  obtain ⟨p, hraw, hprefix⟩ := exists_rawPath_of_path hpath
  have hstem : segments (stem "/api") = [Text.ofString "api"] := rfl
  rw [hstem, List.singleton_append] at hprefix
  have hsub : segments q ⊆ segments p := by
    obtain ⟨-, heq⟩ | ⟨-, heq⟩ := hprefix
    · exact heq ▸ List.Subset.refl _
    · exact heq ▸ List.subset_cons_self _ _
  have hexact {s : Text} (hs : s ∈ segments pattern) (hname : captureName? s = none) {c : Nat}
      (hc : c ∈ s) := of_mem_rawPath hraw (mem_of_meets hsub hmeets hs hname hc)
  have hplain : IsPlain ('/'.toNat :: t) := by
    constructor
    · intro hc
      obtain ⟨s, hs, hname, hcs⟩ := exists_exact_of_mark hfills (by decide) (by decide) hc
      exact (hexact hs hname hcs).1 rfl
    · intro hc
      obtain ⟨s, hs, hname, hcs⟩ := exists_exact_of_mark hfills (by decide) (by decide) hc
      exact (hexact hs hname hcs).2.1 rfl
  -- no segment is lost on the way from the URL to what is looked up
  have hlength : (segments q).length = (segments ('/'.toNat :: t)).length :=
    hmeets.length_eq.symm.trans hfills.length_eq
  have hle : (segments q).length ≤ (segments p).length := by
    obtain ⟨-, heq⟩ | ⟨-, heq⟩ := hprefix
    · exact (congrArg List.length heq).le
    · exact heq ▸ Nat.le_succ _
  have hfilter := length_segments_filter_le ('/'.toNat :: t)
  have hauthority : Text.includes "://" ('/'.toNat :: t) = true →
      ¬HasAuthority (('/'.toNat :: t).filter isKept) := by
    intro hfull hhas
    have hlt := length_segments_lt_of_hasAuthority hplain hfull hhas hraw
    omega
  obtain rfl : p = reduced ('/'.toNat :: t) :=
    Except.ok.inj (hraw.symm.trans (rawPath_eq_reduced hplain hauthority))
  have hreduced := length_segments_reduced_le ('/'.toNat :: t)
  refine ⟨hplain, hauthority, fun hfull s hs hname c hc ↦ (hexact hs hname hc).2.2 hfull, ?_, ?_⟩
  · intro hfull s hs
    rw [segments_reduced, if_pos hfull] at hle
    have hkept : (((segments ('/'.toNat :: t)).map (List.filter isKept)).filter (· ≠ [])).length =
        ((segments ('/'.toNat :: t)).map (List.filter isKept)).length := by
      rw [← segments_filter (by decide), List.length_map]
      omega
    have hne := List.length_filter_eq_length_iff.mp hkept _ (List.mem_map_of_mem hs)
    obtain ⟨c, hc⟩ := List.exists_mem_of_ne_nil _ (of_decide_eq_true hne)
    exact ⟨c, List.mem_filter.mp hc⟩
  · obtain ⟨hbelow, -⟩ | ⟨-, heq⟩ := hprefix
    · exact hbelow
    · rw [heq, List.length_cons] at hreduced
      omega

/-- What is looked up for a reachable pattern has the segments that the pattern asks for. -/
theorem IsReachable.meets (h : IsReachable pattern ('/'.toNat :: t))
    (hfills : List.Forall₂ Fills (segments pattern) (segments ('/'.toNat :: t))) :
    ∃ q, path "/api" ('/'.toNat :: t) = .ok q ∧
      List.Forall₂ Meets (segments pattern) (segments q) := by
  have hraw := rawPath_eq_reduced h.plain h.authority
  obtain ⟨q, hq⟩ : ∃ q, path "/api" ('/'.toNat :: t) = .ok q := by
    rw [path, hraw]
    exact ⟨_, rfl⟩
  refine ⟨q, hq, ?_⟩
  obtain ⟨p, hp, hprefix⟩ := exists_rawPath_of_path hq
  rw [hraw, Except.ok.injEq] at hp
  obtain ⟨-, heq⟩ | ⟨hbelow, -⟩ := hprefix
  · rw [heq, ← hp, segments_reduced]
    split
    · rename_i hfull
      have hkept : ∀ s ∈ (segments ('/'.toNat :: t)).map (List.filter isKept),
          decide (s ≠ []) = true := by
        intro kept hkept
        obtain ⟨s, hs, rfl⟩ := List.mem_map.mp hkept
        obtain ⟨c, hc, hkeep⟩ := h.lasting hfull s hs
        exact decide_eq_true (List.ne_nil_of_mem (List.mem_filter.mpr ⟨hc, hkeep⟩))
      rw [segments_filter (by decide), List.filter_eq_self.mpr hkept, List.forall₂_map_right_iff]
      have hboth := (List.forall₂_and_left _ _).mpr ⟨h.exact hfull, hfills⟩
      refine hboth.imp fun p s hps hname ↦ ?_
      obtain rfl := hps.2.meets hname
      exact (List.filter_eq_self.mpr (hps.1 hname)).symm
    · exact hfills.imp fun _ _ ↦ Fills.meets
  · rw [← hp] at hbelow
    exact absurd hbelow h.notBelow

end Reachable

/-- A pattern matches what is looked up for it exactly if it is reachable. -/
theorem exists_path_match?_iff {t : Text}
    (hfills : List.Forall₂ Fills (segments pattern) (segments ('/'.toNat :: t))) :
    (∃ q captures, path "/api" ('/'.toNat :: t) = .ok q ∧ match? pattern q = some captures) ↔
      IsReachable pattern ('/'.toNat :: t) := by
  constructor
  · rintro ⟨q, captures, hq, hmatch⟩
    exact isReachable_of_meets hfills hq (isSome_match?_iff.mp (by rw [hmatch]; rfl))
  · intro h
    obtain ⟨q, hq, hmeets⟩ := h.meets hfills
    obtain ⟨captures, hmatch⟩ := Option.isSome_iff_exists.mp (isSome_match?_iff.mpr hmeets)
    exact ⟨q, captures, hq, hmatch⟩

end Route

namespace Dispatch

open Route

/-! ## Dispatching the own path -/

variable {mode : RenderMode} {endpoint : Endpoint} {request : DispatchRequest}

/-- A single endpoint is found if it answers the method and matches the path. -/
theorem find?_upsert_empty {method path now : Text}
    (hmethod : endpoint.method.answers method = true) :
    (Registry.empty.upsert endpoint now).find? method path =
      (match? endpoint.path path).map fun captures ↦
        (Registry.stamped endpoint none now, captures) := by
  have hanswers : (Registry.stamped endpoint none now).method.answers method = true := hmethod
  exact Registry.find?_singleton hanswers path

theorem answers_of_own_method
    (h : endpoint.method = .any ∨ request.method = endpoint.method.name) :
    endpoint.method.answers request.method.toUpper = true := by
  obtain h | h := h
  · simp [Method.answers, h]
  · simp [Method.answers, h, Method.toUpper_name]

/-- What an endpoint answers with names the endpoint. -/
theorem exists_served_of_serve {captures : Table Text} {result : DispatchResult}
    (h : (serve mode request endpoint captures).value = .ok result) :
    ∃ answer, result = .served answer ∧ answer.endpoint = endpoint := by
  obtain ⟨context, selection, rendered, -, -, -, hresult⟩ := exists_eq_served_of_serve h
  exact ⟨_, hresult, rfl⟩

/-- **Endpoints at their own paths.** An endpoint that a payload defines is alone in a registry, and
a request comes with its method, which may be any for an endpoint that answers any, and with its
pattern filled in as the URL. If the path is reachable, then the endpoint is found and answers
everything that it can answer, and no request is told that no endpoint was found. If the path is not
reachable, then no request is answered by the endpoint. -/
theorem dispatch_own_path {payload : Value} (hpayload : Endpoint.ofPayload payload = .ok endpoint)
    (hurl : IsFilled endpoint.path request.url)
    (hmethod : endpoint.method = .any ∨ request.method = endpoint.method.name)
    (mode : RenderMode) (now : Text) :
    let stored := Registry.stamped endpoint none now
    let outcome := (dispatch ⟨"/api", mode⟩ (Registry.empty.upsert endpoint now) request).value
    (IsReachable endpoint.path request.url → ∃ path captures,
      Url.path "/api" request.url = .ok path ∧ match? endpoint.path path = some captures ∧
      ((∃ result, outcome = .ok result) ↔
        ∃ context, request.context captures = .ok context ∧ Answers mode stored context) ∧
      ∀ result, outcome = .ok result → ∃ answer, result = .served answer ∧
        answer.endpoint = stored) ∧
    (¬IsReachable endpoint.path request.url →
      outcome = .ok (.notFound request.method.toUpper request.url [endpoint.identity]) ∨
        ∃ fault, outcome = .error (.badUrl fault)) := by
  intro stored outcome
  have hanswers := answers_of_own_method hmethod
  obtain ⟨t, ht⟩ :=
    hurl.exists_eq_slash_cons (Endpoint.wellFormed_of_ofPayload hpayload).slash
  have hfills := hurl.forall₂_segments
  rw [ht] at hfills
  constructor
  · intro hreachable
    rw [ht] at hreachable
    obtain ⟨path, captures, hpath, hmatch⟩ := (exists_path_match?_iff hfills).mpr hreachable
    rw [← ht] at hpath
    have houtcome : outcome = (serve mode request stored captures).value := by
      simp only [outcome, dispatch, hpath, find?_upsert_empty hanswers, hmatch, Option.map_some]
      rfl
    rw [houtcome]
    exact ⟨path, captures, hpath, hmatch, exists_serve_eq_ok_iff,
      fun result ↦ exists_served_of_serve⟩
  · intro hunreachable
    rw [ht] at hunreachable
    cases hpath : Url.path "/api" request.url with
    | error fault => exact .inr ⟨fault, by simp only [outcome, dispatch, hpath]⟩
    | ok path =>
      have hnone : match? endpoint.path path = none := by
        rw [Option.eq_none_iff_forall_ne_some]
        intro captures hmatch
        exact hunreachable ((exists_path_match?_iff hfills).mp ⟨path, captures, ht ▸ hpath, hmatch⟩)
      refine .inl ?_
      simp only [outcome, dispatch, hpath, find?_upsert_empty hanswers, hnone, Option.map_none]
      rfl

/-- An endpoint for a proxy is found although its path is taken for a full URL. -/
theorem dispatch_own_path_proxy :
    letI : Stack := .usual
    let payload : Value := .ofEntries [("endpointId", .text "/get/http://:host")]
    let endpoint : Endpoint := ⟨"/get/http://:host", .get, .standard, [], [], .null, .null⟩
    let request : DispatchRequest :=
      ⟨"GET", "/get/http://localhost", .ofEntries [], .ofEntries [], .null⟩
    Endpoint.ofPayload payload = .ok endpoint ∧ IsFilled endpoint.path request.url ∧
      request.method = endpoint.method.name ∧ IsReachable endpoint.path request.url ∧
      ∃ path captures,
        Url.path "/api" request.url = .ok path ∧ match? endpoint.path path = some captures ∧
        ∀ result, (dispatch ⟨"/api", .singlePass⟩ (Registry.empty.upsert endpoint "now")
          request).value = .ok result → ∃ answer, result = .served answer ∧
            answer.endpoint = Registry.stamped endpoint none "now" := by
  intro payload endpoint request
  let stack : Stack := .usual
  have hpayload : Endpoint.ofPayload payload = .ok endpoint := rfl
  have hfilled : IsFilled endpoint.path request.url := by
    refine ⟨[[], "get", "http:", [], "localhost"], ?_, rfl⟩
    change List.Forall₂ Fills ([[], "get", "http:", [], ":host"] : List Text) _
    simp only [List.forall₂_cons, List.forall₂_nil_left_iff, and_true]
    decide
  have hreachable : IsReachable endpoint.path request.url :=
    ⟨⟨by decide, by decide⟩, fun _ ↦ by decide, fun _ ↦ by decide, fun _ ↦ by decide, by decide⟩
  obtain ⟨path, captures, hpath, hmatch, -, hserved⟩ :=
    (dispatch_own_path hpayload hfilled (.inr rfl) .singlePass "now").1 hreachable
  exact ⟨hpayload, hfilled, rfl, hreachable, path, captures, hpath, hmatch, hserved⟩

/-- An endpoint below the prefix of all requests is not found at its own path. -/
theorem dispatch_below_prefix :
    letI : Stack := .usual
    let payload : Value := .ofEntries [("endpointId", .text "/api/users")]
    let endpoint : Endpoint := ⟨"/api/users", .get, .standard, [], [], .null, .null⟩
    Endpoint.ofPayload payload = .ok endpoint ∧ IsFilled endpoint.path "/api/users" ∧
      (dispatch ⟨"/api", .singlePass⟩ (Registry.empty.upsert endpoint "now")
        ⟨"GET", "/api/users", .ofEntries [], .ofEntries [], .null⟩).value =
          .ok (.notFound "GET" "/api/users" ["/api/users-GET"]) := by
  intro payload endpoint
  let stack : Stack := .usual
  have hpayload : Endpoint.ofPayload payload = .ok endpoint := rfl
  have hfilled : IsFilled endpoint.path "/api/users" := by
    refine ⟨[[], "api", "users"], ?_, rfl⟩
    change List.Forall₂ Fills ([[], "api", "users"] : List Text) _
    simp only [List.forall₂_cons, List.forall₂_nil_left_iff, and_true]
    decide
  exact ⟨hpayload, hfilled, rfl⟩

end Dispatch

end MockApi
