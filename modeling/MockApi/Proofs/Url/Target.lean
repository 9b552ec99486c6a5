import Mathlib.Data.List.SplitBy
import MockApi.Proofs.Json.Sending
import MockApi.Proofs.Url.Parts
import MockApi.Proofs.Url.Percent
import MockApi.Server.Request

/-!
# Targets of requests

A request is sent to a target, a path with or without a query behind a question mark. On its way to
a server the path is decoded, while the query is left alone, and the server puts both together to a
URL again. If there is nothing to decode in the path, then this URL is the target, except that a
question mark without a query is lost; and such a mark makes no difference for where a request goes.
-/

namespace MockApi

/-! ## Decoding -/

namespace Percent

/-- A slash in front stays where it is. -/
theorem exists_decode_slash_cons (t : Text) :
    ∃ rest, decode ('/'.toNat :: t) = '/'.toNat :: rest := by
  have hjoin : (runs ('/'.toNat :: t)).flatten = '/'.toNat :: t := List.flatten_splitBy ..
  unfold decode
  cases hruns : runs ('/'.toNat :: t) with
  | nil =>
    rw [hruns] at hjoin
    cases hjoin
  | cons run others =>
    cases run with
    | nil => exact absurd (hruns ▸ List.mem_cons_self) (List.nil_notMem_splitBy _ ('/'.toNat :: t))
    | cons c run =>
      rw [hruns, List.flatten_cons, List.cons_append] at hjoin
      obtain rfl : c = '/'.toNat := (List.cons.inj hjoin).1
      rw [List.flatMap_cons, decodeRun]
      split
      · rw [octets_cons_of_ne (by decide), Text.Utf8.decodeLenient_ascii (by decide),
          List.cons_append]
        exact ⟨_, rfl⟩
      · exact ⟨_, rfl⟩

end Percent

/-! ## Question marks without a query -/

namespace Url

variable {t : Text}

/-- A question mark without a query gives no parameters. -/
theorem queryParameters_append (h : '?'.toNat ∉ t) :
    queryParameters (t ++ ['?'.toNat]) = queryParameters t := by
  rw [queryParameters, query?, Text.cut?_append h, queryParameters, query?, Text.cut?_eq_none h]
  rfl

/-- Two URLs lead to the same path with the same query, and both or neither can be told. -/
structure LeadAlike (url other : Text) : Prop where
  /-- The paths are the same, whatever prefix is dropped. -/
  path_eq : ∀ sharedPrefix, path sharedPrefix url = path sharedPrefix other
  /-- The parameters of the queries are the same. -/
  queryParameters_eq : queryParameters url = queryParameters other
  /-- Both can be sent if one can. -/
  isEncodable_iff : url.IsEncodable ↔ other.IsEncodable

theorem LeadAlike.refl (url : Text) : LeadAlike url url := ⟨fun _ ↦ rfl, rfl, Iff.rfl⟩

/-- A target as it is sent: visible ASCII without number signs, with a slash in front. -/
structure IsTarget (target : Text) : Prop where
  /-- A slash is in front. -/
  slash : target.head? = some '/'.toNat
  /-- All code points are visible ASCII. -/
  visible : ∀ c ∈ target, 0x20 < c ∧ c < 0x7F
  /-- There is no fragment. -/
  fragment : '#'.toNat ∉ target

theorem IsTarget.clean_eq {target : Text} (h : IsTarget target) : clean target = target := by
  obtain ⟨t, rfl⟩ := List.head?_eq_some_iff.mp h.slash
  rw [clean, List.dropWhile_cons_of_neg (by decide), List.filter_eq_self]
  intro c hc
  have hvisible := h.visible c hc
  simp only [Bool.and_eq_true, decide_eq_true_eq]
  omega

end Url

/-! ## Requests sent to targets -/

namespace HttpRequest

open Url (IsTarget IsPlain LeadAlike)

/-- The request that arrives at a server if it is sent to a target. -/
def sentTo (target method : Text) (body : Text.Utf8.Octets) : HttpRequest where
  method := method
  path := Percent.decode (Text.before '?'.toNat target)
  query := ((Text.cut? '?'.toNat target).map Prod.snd).getD []
  body := body

/-- There is nothing to decode in the path of a target. -/
def IsDecoded (target : Text) : Prop :=
  Percent.decode (Text.before '?'.toNat target) = Text.before '?'.toNat target

instance (target : Text) : Decidable (IsDecoded target) := inferInstanceAs (Decidable (_ = _))

/-- The path and the query of a request put together. -/
def joined (request : HttpRequest) : Text :=
  if request.query.isEmpty then request.path
  else request.path ++ '?'.toNat :: request.query

theorem target_of_joined {request : HttpRequest} {joined url : Text}
    (hjoined : request.joined = joined) (h : Text.before '#'.toNat (Url.clean joined) = url) :
    request.target = match Text.cut? '?'.toNat url with
      | some (path, []) => path
      | _ => url := by
  rw [← h, ← hjoined]
  rfl

variable {target method : Text} {body : Text.Utf8.Octets}

/-- The URL that a server makes of a request is not empty. -/
theorem target_sentTo_ne_nil (h : target.head? = some '/'.toNat) :
    (sentTo target method body).target ≠ [] := by
  obtain ⟨t, rfl⟩ := List.head?_eq_some_iff.mp h
  have hbefore : Text.before '?'.toNat ('/'.toNat :: t) = '/'.toNat :: Text.before '?'.toNat t :=
    List.takeWhile_cons_of_pos (by decide)
  obtain ⟨path, hpath⟩ := Percent.exists_decode_slash_cons (Text.before '?'.toNat t)
  have hslash : ∃ u, (sentTo ('/'.toNat :: t) method body).joined = '/'.toNat :: u := by
    unfold joined sentTo
    rw [hbefore, hpath]
    split
    · exact ⟨_, rfl⟩
    · exact ⟨_, rfl⟩
  obtain ⟨u, hu⟩ := hslash
  have hclean : ∃ u', Text.before '#'.toNat (Url.clean ('/'.toNat :: u)) = '/'.toNat :: u' := by
    rw [Url.clean, List.dropWhile_cons_of_neg (by decide), List.filter_cons_of_pos (by decide)]
    exact ⟨_, List.takeWhile_cons_of_pos (by decide)⟩
  obtain ⟨u', hu'⟩ := hclean
  rw [target_of_joined hu hu']
  split
  · rename_i hcut
    rintro rfl
    have heq := (Text.cut?_eq_some hcut).1
    exact absurd (List.cons.inj heq).1 (by decide)
  · exact List.cons_ne_nil _ _

/-- Without anything to decode, the URL that a server makes of a request is the target, but for a
question mark without a query. -/
theorem target_sentTo (h : IsTarget target) (hdecoded : IsDecoded target) (method : Text)
    (body : Text.Utf8.Octets) :
    (sentTo target method body).target = target ∨
      IsPlain (sentTo target method body).target ∧
        (sentTo target method body).target ++ ['?'.toNat] = target := by
  have hwhole {url : Text} (hslash : url.head? = some '/'.toNat) (hsub : url ⊆ target) :
      Text.before '#'.toNat (Url.clean url) = url := by
    have hurl : IsTarget url :=
      ⟨hslash, fun c hc ↦ h.visible c (hsub hc), fun hc ↦ h.fragment (hsub hc)⟩
    rw [hurl.clean_eq, Text.before_eq_self hurl.fragment]
  unfold IsDecoded at hdecoded
  -- no query, an empty query behind a bare mark, or a query with something in it
  cases hcut : Text.cut? '?'.toNat target with
  | none =>
    have hmark : '?'.toNat ∉ target := fun hmem ↦ by
      obtain ⟨front, rest, rfl, hfront⟩ := List.eq_append_cons_of_mem hmem
      rw [Text.cut?_append hfront] at hcut
      cases hcut
    have hjoined : (sentTo target method body).joined = target := by
      rw [joined, sentTo, hcut, hdecoded]
      exact Text.before_eq_self hmark
    rw [target_of_joined hjoined (hwhole h.slash (List.Subset.refl _)), hcut]
    exact .inl rfl
  | some parts =>
    obtain ⟨path, query⟩ := parts
    obtain ⟨rfl, hpath⟩ := Text.cut?_eq_some hcut
    rw [Text.before_append hpath] at hdecoded
    cases query with
    | nil =>
      have hjoined : (sentTo (path ++ ['?'.toNat]) method body).joined = path := by
        rw [joined, sentTo, hcut, Text.before_append hpath]
        exact hdecoded
      have hslash : path.head? = some '/'.toNat := by
        cases path with
        | nil => exact absurd h.slash (by decide)
        | cons c path => exact h.slash
      rw [target_of_joined hjoined (hwhole hslash (List.subset_append_left _ _)),
        Text.cut?_eq_none hpath]
      exact .inr ⟨⟨hpath, fun hmem ↦ h.fragment (List.mem_append_left _ hmem)⟩, rfl⟩
    | cons c query =>
      have hjoined : (sentTo (path ++ '?'.toNat :: c :: query) method body).joined
          = path ++ '?'.toNat :: c :: query := by
        rw [joined, sentTo, hcut, Text.before_append hpath, hdecoded]
        rfl
      rw [target_of_joined hjoined (hwhole h.slash (List.Subset.refl _)), hcut]
      exact .inl rfl

/-- Without anything to decode, the URL that a server makes of a request leads where the target
leads. -/
theorem leadAlike_target_sentTo (h : IsTarget target) (hdecoded : IsDecoded target) :
    LeadAlike (sentTo target method body).target target := by
  rcases target_sentTo h hdecoded method body with heq | ⟨hplain, heq⟩
  · rw [heq]
    exact .refl target
  · generalize (sentTo target method body).target = url at hplain heq ⊢
    obtain rfl := heq
    obtain ⟨c, t, rfl⟩ : ∃ c t, url = c :: t := by
      refine List.exists_cons_of_ne_nil ?_
      rintro rfl
      exact absurd h.slash (by decide)
    obtain rfl : c = '/'.toNat := Option.some.inj h.slash
    refine ⟨fun sharedPrefix ↦ ?_, (Url.queryParameters_append hplain.1).symm, ?_⟩
    · -- nothing follows the mark that could make a full URL
      exact ((Url.forall_path_append_iff (.inl rfl) _ []).mpr (.inr (.inl rfl)) sharedPrefix).symm
    · rw [Text.isEncodable_append]
      exact (and_iff_left (by decide)).symm

end HttpRequest

end MockApi
