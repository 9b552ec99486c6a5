import MockApi.Proofs.Json.Sending
import MockApi.Server.Reply

/-!
# Which replies are made

A reply is made if and only if its content and its headers can be sent. Then it has the headers it
was given, and one more for the type of the body unless that is among them.
-/

namespace MockApi

variable {stack : Stack}

namespace Reply

/-- A reply with a status and a value for its body. -/
structure Carries [Stack] (reply : Reply) (status : Nat) (content : Value) : Prop where
  /-- The reply has the status. -/
  status_eq : reply.status = status
  /-- The body is the value as a document. -/
  body_eq : Json.write .standard content = .ok reply.body

variable {status : Nat} {content : Value} {reply : Reply}

/-! ## Headers -/

/-- A header in Latin-1, with a name that is so in lower case. -/
def IsSendableHeader (header : Text × Text) : Prop :=
  (∀ c ∈ header.1, (Text.latinLower? c).isSome = true) ∧ ∀ c ∈ header.2, Text.isLatin c = true

theorem encodeHeader_eq_ok_iff {header sent : Text × Text} : encodeHeader header = .ok sent ↔
    Text.toLatinLower? header.1 = some sent.1 ∧ (∀ c ∈ header.2, Text.isLatin c = true) ∧
      header.2 = sent.2 := by
  obtain ⟨name, value⟩ := sent
  unfold encodeHeader Text.toLatin?
  cases Text.toLatinLower? header.1 with
  | none => simp
  | some name' =>
    rw [← List.all_eq_true]
    by_cases hvalue : header.2.all Text.isLatin = true
    · simp only [hvalue, if_true, Except.ok.injEq, Prod.mk.injEq, Option.some.injEq, true_and]
    · simp [hvalue]

theorem exists_toLatinLower?_iff {t : Text} : (∃ name, Text.toLatinLower? t = some name) ↔
    ∀ c ∈ t, (Text.latinLower? c).isSome = true := by
  unfold Text.toLatinLower?
  induction t with
  | nil => simp
  | cons c t ih =>
    rw [List.forall_mem_cons, ← ih]
    cases hc : Text.latinLower? c with
    | none => simp [List.mapM_cons, hc]
    | some d => simp [List.mapM_cons, hc, Option.bind_eq_some_iff]

theorem exists_encodeHeader_iff {header : Text × Text} :
    (∃ sent, encodeHeader header = .ok sent) ↔ IsSendableHeader header := by
  rw [IsSendableHeader, ← exists_toLatinLower?_iff]
  simp only [encodeHeader_eq_ok_iff]
  constructor
  · rintro ⟨sent, hname, hvalue, -⟩
    exact ⟨⟨sent.1, hname⟩, hvalue⟩
  · rintro ⟨⟨name, hname⟩, hvalue⟩
    exact ⟨(name, header.2), hname, hvalue, rfl⟩

theorem exists_mapM_encodeHeader_iff {headers : Table Text} :
    (∃ sent, headers.mapM encodeHeader = .ok sent) ↔ ∀ header ∈ headers, IsSendableHeader header :=
  exists_mapM_eq_ok_iff.trans (forall₂_congr fun _ _ ↦ exists_encodeHeader_iff)

/-- The headers of a reply with JSON for its body. -/
def typed (sent : List (Text × Text)) : List (Text × Text) :=
  if sent.any fun (name, _) ↦ name = contentType then sent
  else sent ++ [(contentType, jsonType)]

/-! ## Replies with JSON -/

theorem json_eq_ok_iff_of_headers {headers : Table Text} : json status headers content = .ok reply ↔
    ∃ body sent, (Json.write .standard content = .ok body ∧ body.IsEncodable) ∧
      headers.mapM encodeHeader = .ok sent ∧ ⟨status, typed sent, body⟩ = reply := by
  unfold json
  cases hwrite : Json.write .standard content with
  | error failure => simp [Except.mapError]
  | ok body =>
    rw [mapError_ok, ok_bind]
    by_cases hbody : body.IsEncodable
    · have hsent : ¬(Text.Utf8.encode? body).isNone = true := by
        rw [Text.isNone_encode?_iff, not_not]
        exact hbody
      rw [if_neg hsent]
      simp [hbody, bind_eq_ok_iff, typed]
    · rw [if_pos (Text.isNone_encode?_iff.mpr hbody)]
      simp [hbody]

theorem json_eq_ok_iff : json status [] content = .ok reply ↔
    ∃ body, (Json.write .standard content = .ok body ∧ body.IsEncodable) ∧
      ⟨status, [(contentType, jsonType)], body⟩ = reply := by
  rw [json_eq_ok_iff_of_headers]
  simp [typed]

/-- Which contents and headers make a reply. -/
theorem exists_json_eq_ok_iff_of_headers {headers : Table Text} :
    (∃ reply, json status headers content = .ok reply) ↔
      content.SendsWithin Stack.writing ∧ ∀ header ∈ headers, IsSendableHeader header := by
  rw [← Json.exists_writeWithin_standard_iff, ← exists_mapM_encodeHeader_iff]
  simp only [json_eq_ok_iff_of_headers]
  constructor
  · rintro ⟨reply, body, sent, hbody, hsent, -⟩
    exact ⟨⟨body, hbody⟩, sent, hsent⟩
  · rintro ⟨⟨body, hbody⟩, sent, hsent⟩
    exact ⟨_, body, sent, hbody, hsent, rfl⟩

/-- Which contents make a reply. -/
theorem exists_json_eq_ok_iff :
    (∃ reply, json status [] content = .ok reply) ↔ content.SendsWithin Stack.writing :=
  exists_json_eq_ok_iff_of_headers.trans (and_iff_left (List.forall_mem_nil _))

theorem carries_of_json (h : json status [] content = .ok reply) :
    reply.Carries status content := by
  obtain ⟨body, ⟨hbody, -⟩, rfl⟩ := json_eq_ok_iff.mp h
  exact ⟨rfl, hbody⟩

/-- What can be sent is carried by a reply. -/
theorem exists_carries (h : content.SendsWithin Stack.writing) (status : Nat) :
    ∃ reply, json status [] content = .ok reply ∧ reply.Carries status content := by
  obtain ⟨reply, hreply⟩ := exists_json_eq_ok_iff.mpr h
  exact ⟨reply, hreply, carries_of_json hreply⟩

end Reply

end MockApi
