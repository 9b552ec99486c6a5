import MockApi.Proofs.Definitions.Document
import MockApi.Proofs.Endpoint.Refusal
import MockApi.Proofs.Json.Reading
import MockApi.Proofs.Route.Batch
import MockApi.Proofs.Server.Reply
import MockApi.Server.Answer

/-!
# Importing documents

All payloads of a document are read before the first endpoint is registered. So a document with a
payload that describes no endpoint leaves the server alone, and the reply names the first such
payload. Otherwise the endpoints are registered as a batch, each at a reading of the clock of its
own.
-/

namespace MockApi

variable {stack : Stack}

open Value (PartOf)

/-- No integer in the content of a request has too many digits, as it was read. -/
theorem HttpRequest.hasShortIntegers_of_content {request : HttpRequest} {value : Value}
    (h : request.content = .ok value) : value.HasShortIntegers := by
  have hempty : (Value.ofEntries []).HasShortIntegers :=
    Value.hasShortIntegers_object.mpr (List.forall_mem_nil _)
  unfold content at h
  split at h
  · exact Except.ok.inj h ▸ hempty
  · split at h
    · rename_i hread
      obtain ⟨t, -, hread⟩ := Option.map_eq_some_iff.mp hread
      exact Except.ok.inj h ▸ (Json.fits_of_read hread).2
    · cases h
    · exact Except.ok.inj h ▸ hempty
    · exact Except.ok.inj h ▸ hempty

/-! ## Registering at the clock -/

/-- The endpoints with the times at which they are registered after some readings of the clock. -/
def Clock.dated (clock : Clock) : Nat → List Endpoint → Registry.Batch
  | _, [] => []
  | readings, endpoint :: endpoints =>
    (endpoint, clock.stamp (readings + 1)) :: clock.dated (readings + 1) endpoints

namespace Clock

variable {clock : Clock}

@[simp] theorem map_fst_dated (clock : Clock) (readings : Nat) (endpoints : List Endpoint) :
    (clock.dated readings endpoints).map Prod.fst = endpoints := by
  induction endpoints generalizing readings with
  | nil => rfl
  | cons endpoint endpoints ih => rw [dated, List.map_cons, ih]

theorem ne_nil_of_mem_dated (hclock : ∀ n, clock.stamp n ≠ []) {readings : Nat}
    {endpoints : List Endpoint} : ∀ entry ∈ clock.dated readings endpoints, entry.2 ≠ [] := by
  induction endpoints generalizing readings with
  | nil => exact List.forall_mem_nil _
  | cons endpoint endpoints ih => exact List.forall_mem_cons.mpr ⟨hclock _, ih⟩

end Clock

namespace Registry

/-- The identities of endpoints that are not registered. -/
def newcomers (registry : Registry) (endpoints : List Endpoint) : Finset Text :=
  (endpoints.map Endpoint.identity).toFinset \ registry.identities.toFinset

end Registry

namespace Server

variable {clock : Clock} {server : Server} {request : HttpRequest} {document : Value}
  {entries : List Value} {endpoints : List Endpoint}

theorem upsertAll_registry (clock : Clock) (server : Server) (endpoints : List Endpoint) :
    (server.upsertAll clock endpoints).registry
      = server.registry.saveAll (clock.dated server.readings endpoints) := by
  induction endpoints generalizing server with
  | nil => rfl
  | cons endpoint endpoints ih => exact ih (server.upsert clock endpoint)

/-- A server with endpoints registered: under each of their identities stands the last of them, and
under other identities stands what stood there before. -/
structure Imported (server : Server) (endpoints : List Endpoint) (loaded : Server) : Prop where
  /-- The last endpoint of an identity is registered. -/
  last : ∀ endpoint ∈ endpoints, (loaded.registry.get? endpoint.identity).map Endpoint.content
    = (endpoints.filter (·.identity = endpoint.identity)).getLast?.map Endpoint.content
  /-- Other identities are left alone. -/
  others : ∀ identity ∉ endpoints.map Endpoint.identity,
    loaded.registry.get? identity = server.registry.get? identity

/-- There is a last endpoint of an identity that is among those to be registered. -/
theorem exists_getLast?_filter {endpoint : Endpoint} (h : endpoint ∈ endpoints) :
    ∃ last, (endpoints.filter (·.identity = endpoint.identity)).getLast? = some last := by
  have hmem : endpoint ∈ endpoints.filter (·.identity = endpoint.identity) :=
    List.mem_filter.mpr ⟨h, by simp⟩
  exact ⟨_, List.getLast?_eq_getLast_of_ne_nil (List.ne_nil_of_mem hmem)⟩

theorem imported_upsertAll (clock : Clock) (server : Server) (endpoints : List Endpoint) :
    server.Imported endpoints (server.upsertAll clock endpoints) := by
  have hget (identity : Text) : ((server.upsertAll clock endpoints).registry.get? identity)
      = Registry.renewed (server.registry.get? identity)
        ((clock.dated server.readings endpoints).having identity) := by
    rw [upsertAll_registry, Registry.get?_saveAll]
  constructor
  · intro endpoint hendpoint
    -- whatever the identity held before, the batch has an endpoint for it
    obtain ⟨last, hlast⟩ := exists_getLast?_filter hendpoint
    rw [hget, Registry.content_renewed, Registry.Batch.map_fst_having, Clock.map_fst_dated, hlast]
    rfl
  · intro identity hidentity
    have hnone : (clock.dated server.readings endpoints).having identity = [] := by
      rw [← List.map_eq_nil_iff (f := Prod.fst), Registry.Batch.map_fst_having,
        Clock.map_fst_dated, List.filter_eq_nil_iff]
      intro endpoint hendpoint h
      exact hidentity (List.mem_map.mpr ⟨endpoint, hendpoint, by simpa using h⟩)
    rw [hget, hnone, Registry.renewed_nil]

/-- Registering tells how many endpoints more there are. -/
theorem size_registerAll (clock : Clock) (server : Server) (endpoints : List Endpoint) :
    server.registry.size + (server.registerAll clock endpoints).2
      = (server.upsertAll clock endpoints).registry.size := by
  induction endpoints generalizing server with
  | nil => rfl
  | cons endpoint endpoints ih =>
    have hone : (server.upsert clock endpoint).registry.size
        = server.registry.size + (server.register clock endpoint).2.toNat :=
      Registry.size_save server.registry endpoint (clock.stamp (server.readings + 1))
    have hcount : (server.registerAll clock (endpoint :: endpoints)).2
        = ((server.upsert clock endpoint).registerAll clock endpoints).2
          + (server.register clock endpoint).2.toNat := rfl
    have hrest := ih (server.upsert clock endpoint)
    rw [hone] at hrest
    refine Eq.trans ?_ hrest
    omega

/-- The number of endpoints grows by the identities that are new. -/
theorem size_upsertAll (clock : Clock) (server : Server) (endpoints : List Endpoint) :
    (server.upsertAll clock endpoints).registry.size
      = server.registry.size + (server.registry.newcomers endpoints).card := by
  have hidentities (readings : Nat) : Registry.Batch.identities (clock.dated readings endpoints)
      = endpoints.map Endpoint.identity := by
    conv_rhs => rw [← Clock.map_fst_dated clock readings endpoints, List.map_map]
    rfl
  rw [upsertAll_registry, Registry.size_saveAll, hidentities, Registry.newcomers]

/-! ## Replies -/

/-- The content of a reply on something wrong. -/
def complaint (message : Text) (field? : Option Text) : Value :=
  .ofEntries (("kind", .text "validation_error") :: ("error", .text message)
    :: field?.toList.map fun field ↦ ("field", .text field))

theorem invalidReply_eq (message : Text) (field? : Option Text) :
    invalidReply message field? = Reply.json 400 [] (complaint message field?) := by
  cases field? with
  | none => rfl
  | some field => rfl

theorem sendsWithin_complaint {message : Text} {field? : Option Text}
    (hmessage : message.IsEncodable) (hfield : ∀ field ∈ field?, field.IsEncodable) :
    (complaint message field?).SendsWithin Stack.writing := by
  refine (Value.sendsWithin_ofEntries_iff Stack.writing_pos).mpr ?_
  cases field? with
  | none => simpa [complaint] using hmessage
  | some field => simpa using ⟨hmessage, hfield field rfl⟩

/-- The content of the reply on an import. -/
def importReport (total created : Nat) : Value :=
  .ofEntries [("message", .text ("Successfully loaded " ++ Text.ofNat total ++ " endpoints.")),
    ("total", .int total), ("created", .int created), ("updated", .int (total - created))]

theorem sendsWithin_importReport {total created : Nat} (h : IsShort total)
    (hcreated : created ≤ total) : (importReport total created).SendsWithin Stack.writing := by
  have hcreated' : IsShort created := h.mono (by omega)
  have hupdated : IsShort (total - created) := h.mono (by omega)
  refine (Value.sendsWithin_ofEntries_iff Stack.writing_pos).mpr ?_
  simp [h, hcreated', hupdated]

/-! ## The import -/

theorem answer_of_load [Framework] (clock : Clock)
    (hasked : server.adminAction? request = some .load)
    (hcontent : request.content = .ok document) :
    server.answer clock request
      = ((server.load clock document).1, ⟨[], (server.load clock document).2⟩) := by
  rw [answer_of_asked hasked, administer, withContent_of_ok hcontent]

/-- A document with a payload that describes no endpoint is refused, and the reply names the first
such payload. -/
theorem load_of_refused (clock : Clock) (server : Server) (hwritable : document.Writable)
    (hentries : Definitions.payloads document = .ok entries)
    (htexts : ∀ t, PartOf (.text t) document → t.IsEncodable)
    (hrefused : ∃ entry ∈ entries, ∀ endpoint, Endpoint.ofPayload entry ≠ .ok endpoint) :
    ∃ good bad rest problem reply, entries = good ++ bad :: rest ∧
      (∀ entry ∈ good, ∃ endpoint, Endpoint.ofPayload entry = .ok endpoint) ∧
      Endpoint.ofPayload bad = .error (.invalid problem) ∧
      server.load clock document = (server, .ok reply) ∧
      reply.Carries 400 (complaint ("import: endpoint #" ++ Text.ofNat good.length ++ ": "
        ++ problem.message) problem.field?) := by
  have hdocument : Definitions.ofDocument document = Definitions.ofPayloads 0 entries := by
    rw [Definitions.ofDocument, hentries, ok_bind]
  cases hread : Definitions.ofPayloads 0 entries with
  | ok endpoints =>
    obtain ⟨entry, hentry, hnone⟩ := hrefused
    have hmem := List.mem_map_of_mem (f := Endpoint.ofPayload) hentry
    rw [Definitions.ofPayloads_eq_ok_iff.mp hread] at hmem
    obtain ⟨endpoint, -, hendpoint⟩ := List.mem_map.mp hmem
    exact absurd hendpoint.symm (hnone endpoint)
  | error error =>
    obtain ⟨good, bad, rest, hsplit, hgood, hbad⟩ := Definitions.exists_of_ofPayloads_eq_error hread
    -- the payload can be written like the document, so a problem is all that is wrong with it
    have hpart : PartOf bad document :=
      Definitions.partOf_of_payloads hentries
        (hsplit ▸ List.mem_append_right good List.mem_cons_self)
    rcases hbad with ⟨problem, hbad, rfl⟩ | ⟨failure, hbad⟩
    · have hproblem : problem.Concerns document :=
        PayloadProblem.Concerns.mono (Endpoint.failsOn_ofPayload bad _ hbad) hpart
      have hmessage : ("import: endpoint #" ++ Text.ofNat good.length ++ ": "
          ++ problem.message).IsEncodable := by
        simp [hproblem.isEncodable_message htexts]
      obtain ⟨reply, hreply, hcarries⟩ :=
        Reply.exists_carries (sendsWithin_complaint hmessage hproblem.isEncodable_field) 400
      refine ⟨good, bad, rest, problem, reply, hsplit, hgood, hbad, ?_, hcarries⟩
      rw [load, hdocument, hread]
      dsimp only
      rw [invalidReply_eq, ← hreply, Nat.zero_add]
      rfl
    · exact absurd (hwritable.of_partOf hpart) (Endpoint.failsOn_ofPayload bad _ hbad)

/-- A document whose payloads all describe endpoints is registered. -/
theorem load_of_accepted (hentries : Definitions.payloads document = .ok entries)
    (haccepted : entries.map Endpoint.ofPayload = endpoints.map .ok) :
    server.load clock document = (server.upsertAll clock endpoints, Reply.json 200 []
      (importReport entries.length (server.registry.newcomers endpoints).card)) := by
  have hdocument : Definitions.ofDocument document = .ok endpoints := by
    rw [Definitions.ofDocument, hentries, ok_bind, Definitions.ofPayloads_eq_ok_iff.mpr haccepted]
  have hlength : endpoints.length = entries.length := by
    rw [← List.length_map (f := Except.ok (ε := PayloadError)), ← haccepted, List.length_map]
  have hcount : (server.registerAll clock endpoints).2
      = (server.registry.newcomers endpoints).card :=
    Nat.add_left_cancel ((size_registerAll clock server endpoints).trans
      (size_upsertAll clock server endpoints))
  rw [load, hdocument]
  dsimp only
  rw [registerAll_fst, hcount, hlength, importReport]

/-- The identities that are new to a registry are those of endpoints to be registered. -/
theorem card_newcomers_le (registry : Registry) (endpoints : List Endpoint) :
    (registry.newcomers endpoints).card ≤ endpoints.length := by
  refine (Finset.card_le_card Finset.sdiff_subset).trans ?_
  refine (List.toFinset_card_le _).trans_eq ?_
  exact List.length_map _

/-- Once endpoints are registered, none of their identities is new. -/
theorem Imported.newcomers_eq_empty {loaded : Server} (h : server.Imported endpoints loaded) :
    loaded.registry.newcomers endpoints = ∅ := by
  refine Finset.sdiff_eq_empty_iff_subset.mpr fun identity hidentity ↦ ?_
  obtain ⟨endpoint, hendpoint, rfl⟩ := List.mem_map.mp (List.mem_toFinset.mp hidentity)
  obtain ⟨last, hlast⟩ := exists_getLast?_filter hendpoint
  have hkept := h.last endpoint hendpoint
  rw [hlast] at hkept
  obtain ⟨stored, hstored, -⟩ := Option.map_eq_some_iff.mp hkept
  refine List.mem_toFinset.mpr (Registry.isSome_get?_iff.mp ?_)
  rw [hstored, Option.isSome_some]

/-- Registering the same endpoints again changes nothing but the times of the last updates. -/
theorem lasting_upsertAll_upsertAll (hclock : ∀ n, clock.stamp n ≠ []) :
    ((server.upsertAll clock endpoints).upsertAll clock endpoints).registry.endpoints.map
        Endpoint.lasting
      = (server.upsertAll clock endpoints).registry.endpoints.map Endpoint.lasting := by
  rw [upsertAll_registry, upsertAll_registry]
  refine Registry.lasting_saveAll_saveAll server.registry.endpoints ?_
    (Clock.ne_nil_of_mem_dated hclock)
  rw [Clock.map_fst_dated, Clock.map_fst_dated]

theorem adminAction?_upsertAll (clock : Clock) (server : Server) (endpoints : List Endpoint)
    (request : HttpRequest) :
    (server.upsertAll clock endpoints).adminAction? request = server.adminAction? request := by
  rw [adminAction?, upsertAll_settings, adminAction?]

/-- **Import.** If a payload of a document describes no endpoint, the server is left alone, and the
reply names the first such payload, as long as the document is not nested too deep. Otherwise the
last endpoint of each identity is registered, and the reply counts the identities that were new;
importing the same document again registers nothing new and changes nothing but the times of the
last updates. -/
theorem answer_import [Framework] (hclock : ∀ n, clock.stamp n ≠ [])
    (hasked : server.adminAction? request = some .load)
    (hcontent : request.content = .ok document)
    (hentries : Definitions.payloads document = .ok entries)
    (htexts : ∀ t, PartOf (.text t) document → t.IsEncodable) :
    (document.NestedWithin Stack.ready →
      (∃ entry ∈ entries, ∀ endpoint, Endpoint.ofPayload entry ≠ .ok endpoint) →
      ∃ good bad rest problem reply, entries = good ++ bad :: rest ∧
        (∀ entry ∈ good, ∃ endpoint, Endpoint.ofPayload entry = .ok endpoint) ∧
        Endpoint.ofPayload bad = .error (.invalid problem) ∧
        server.answer clock request = (server, ⟨[], .ok reply⟩) ∧
        reply.Carries 400 (complaint ("import: endpoint #" ++ Text.ofNat good.length ++ ": "
          ++ problem.message) problem.field?)) ∧
    ∀ endpoints, entries.map Endpoint.ofPayload = endpoints.map .ok →
      ∃ loaded outcome again outcome',
        server.answer clock request = (loaded, ⟨[], outcome⟩) ∧
        loaded.answer clock request = (again, ⟨[], outcome'⟩) ∧
        server.Imported endpoints loaded ∧
        again.registry.endpoints.map Endpoint.lasting
          = loaded.registry.endpoints.map Endpoint.lasting ∧
        (IsShort entries.length →
          (∃ reply, outcome = .ok reply ∧ reply.Carries 200
            (importReport entries.length (server.registry.newcomers endpoints).card)) ∧
          ∃ reply, outcome' = .ok reply ∧ reply.Carries 200 (importReport entries.length 0)) := by
  constructor
  · intro hnested hrefused
    have hwritable : document.Writable :=
      ⟨hnested, HttpRequest.hasShortIntegers_of_content hcontent⟩
    obtain ⟨good, bad, rest, problem, reply, hsplit, hgood, hbad, hload, hcarries⟩ :=
      load_of_refused clock server hwritable hentries htexts hrefused
    refine ⟨good, bad, rest, problem, reply, hsplit, hgood, hbad, ?_, hcarries⟩
    rw [answer_of_load clock hasked hcontent, hload]
  · intro endpoints haccepted
    have himported := imported_upsertAll clock server endpoints
    have hagain : (server.upsertAll clock endpoints).adminAction? request = some .load := by
      rw [adminAction?_upsertAll, hasked]
    have hcreated : (server.registry.newcomers endpoints).card ≤ entries.length := by
      have hlength := congrArg List.length haccepted
      rw [List.length_map, List.length_map] at hlength
      exact hlength ▸ card_newcomers_le server.registry endpoints
    have hfirst := answer_of_load clock hasked hcontent
    have hsecond := answer_of_load clock hagain hcontent
    rw [load_of_accepted hentries haccepted] at hfirst hsecond
    rw [himported.newcomers_eq_empty, Finset.card_empty] at hsecond
    refine ⟨_, _, _, _, hfirst, hsecond, himported, lasting_upsertAll_upsertAll hclock,
      fun hshort ↦ ⟨?_, ?_⟩⟩
    · exact Reply.exists_carries (sendsWithin_importReport hshort hcreated) 200
    · exact Reply.exists_carries (sendsWithin_importReport hshort (Nat.zero_le _)) 200

/-- A document with two versions of an endpoint, of which the second one stays. -/
theorem answer_import_versions :
    letI : Stack := .usual
    letI : Framework := .bare
    let clock : Clock :=
      ⟨fun n ↦ "t" ++ Text.ofNat n, "now", fun _ ↦ .zeroOf false, .zeroOf false⟩
    let settings : Settings :=
      ⟨Options.default, .singlePass, .firstMatch, "info", .info, 3000, "/__admin__", []⟩
    let server : Server := ⟨settings, .empty, .zero clock.now, 0⟩
    let request : HttpRequest := ⟨"POST", "/__admin__/endpoints/import", [], Text.ofString
      "[\x7b\"endpointId\":\"a\"\x7d,\x7b\"endpointId\":\"/a\",\"response\":\"1\"\x7d]"⟩
    let older : Endpoint := ⟨"/a", .get, ⟨200, 0, "\x7b\x7d"⟩, [], [], .null, .null⟩
    let newer : Endpoint := { older with response := ⟨200, 0, "1"⟩ }
    ∃ loaded outcome again outcome',
      server.answer clock request = (loaded, ⟨[], outcome⟩) ∧
      loaded.answer clock request = (again, ⟨[], outcome'⟩) ∧
      server.Imported [older, newer] loaded ∧
      again.registry.endpoints.map Endpoint.lasting
        = loaded.registry.endpoints.map Endpoint.lasting ∧
      (∃ reply, outcome = .ok reply ∧ reply.Carries 200 (importReport 2 1)) ∧
      ∃ reply, outcome' = .ok reply ∧ reply.Carries 200 (importReport 2 0) := by
  intro clock settings server request older newer
  let framework : Framework := .bare
  let entries : List Value := [.ofEntries [("endpointId", .text "a")],
    .ofEntries [("endpointId", .text "/a"), ("response", .text "1")]]
  have hclock (n : Nat) : clock.stamp n ≠ [] := List.append_ne_nil_of_left_ne_nil (by decide) _
  have hasked : server.adminAction? request = some .load := by decide
  have hcontent : @HttpRequest.content .usual request = .ok (.ofItems entries) := by
    let stack : Stack := .usual
    refine HttpRequest.content_of_read (List.cons_ne_nil _ _) (t := request.body) (by decide) ?_
    simp only [request, entries]
    cbv
  have hentries : Definitions.payloads (.ofItems entries) = .ok entries := rfl
  have hsends : (Value.ofItems entries).SendsWithin 2 := by
    simp [Value.sendsWithin_ofItems_iff, Value.sendsWithin_ofEntries_iff, entries]
  have haccepted : entries.map (@Endpoint.ofPayload .usual) = [older, newer].map .ok := rfl
  have hnew : (server.registry.newcomers [older, newer]).card = 1 := by decide
  obtain ⟨loaded, outcome, again, outcome', hloaded, hagain, himported, hlasting, hreplies⟩ :=
    (answer_import hclock hasked hcontent hentries
      fun t ht ↦ hsends.isEncodable ht).2 [older, newer] haccepted
  obtain ⟨hfirst, hsecond⟩ := hreplies (by decide)
  exact ⟨loaded, outcome, again, outcome', hloaded, hagain, himported, hlasting, hnew ▸ hfirst,
    hsecond⟩

end Server

end MockApi
