import MockApi.Proofs.Definitions.Document
import MockApi.Proofs.Route.Export
import MockApi.Proofs.Server.Run

/-!
# What servers hold

Whatever a server is asked, its endpoints are in the fixed form of what comes out of payloads: those
of the demonstration are, those of files and of requests are read from payloads, and nothing else is
registered. In particular, every scenario has a name.
-/

namespace MockApi

variable {stack : Stack}

namespace Definitions

variable {endpoints : List Endpoint}

theorem wellFormed_demo : ∀ endpoint ∈ demo, endpoint.WellFormed := by
  refine List.forall_mem_cons.mpr ⟨?_, List.forall_mem_singleton.mpr ?_⟩
  · exact ⟨by decide, by decide, by decide,
      List.forall_mem_singleton.mpr ⟨by decide, by decide⟩⟩
  · exact ⟨by decide, by decide, by decide,
      List.forall_mem_singleton.mpr ⟨by decide, by decide⟩⟩

/-- What a document defines comes out of payloads. -/
theorem wellFormed_of_ofDocument {document : Value} (h : ofDocument document = .ok endpoints) :
    ∀ endpoint ∈ endpoints, endpoint.WellFormed := by
  obtain ⟨entries, -, h⟩ := bind_eq_ok_iff.mp h
  intro endpoint hendpoint
  have hmem : Except.ok endpoint ∈ entries.map Endpoint.ofPayload := by
    rw [ofPayloads_eq_ok_iff.mp h]
    exact List.mem_map_of_mem hendpoint
  obtain ⟨payload, -, hpayload⟩ := List.mem_map.mp hmem
  exact Endpoint.wellFormed_of_ofPayload hpayload

theorem wellFormed_of_load [YamlLibrary] {files : File.Files} {path : Text}
    (h : load files path = .ok endpoints) : ∀ endpoint ∈ endpoints, endpoint.WellFormed := by
  unfold load at h
  dsimp only at h
  split at h
  · cases h
  · cases h
  · obtain ⟨document, -, h⟩ := bind_eq_ok_iff.mp h
    split at h
    · rename_i hdocument
      obtain rfl := Except.ok.inj h
      exact wellFormed_of_ofDocument hdocument
    · cases h
    · cases h

end Definitions

namespace Server

/-- All endpoints are in their fixed form. -/
def IsFormed (server : Server) : Prop :=
  ∀ endpoint ∈ server.registry.endpoints, endpoint.WellFormed

variable {server : Server}

theorem isFormed_upsert (h : server.IsFormed) (clock : Clock) {endpoint : Endpoint}
    (hendpoint : endpoint.WellFormed) : (server.upsert clock endpoint).IsFormed := by
  intro other hother
  rcases Registry.mem_saveIn hother with hother | ⟨older?, rfl⟩
  · exact h other hother
  · exact Registry.wellFormed_stamped hendpoint older? _

theorem isFormed_upsertAll (h : server.IsFormed) (clock : Clock) {endpoints : List Endpoint}
    (hendpoints : ∀ endpoint ∈ endpoints, endpoint.WellFormed) :
    (server.upsertAll clock endpoints).IsFormed := by
  induction endpoints generalizing server with
  | nil => exact h
  | cons endpoint endpoints ih =>
    obtain ⟨hendpoint, hendpoints⟩ := List.forall_mem_cons.mp hendpoints
    exact ih (isFormed_upsert h clock hendpoint) hendpoints

theorem isFormed_reset (clock : Clock) (server : Server) : (server.reset clock).IsFormed := by
  have hcleared : IsFormed
      { server with registry := server.registry.clear.1, metrics := .zero clock.now } :=
    fun _ hendpoint ↦ absurd hendpoint List.not_mem_nil
  refine isFormed_upsertAll hcleared clock ?_
  unfold seeds
  split
  · exact Definitions.wellFormed_demo
  · exact List.forall_mem_nil _

theorem isFormed_save (h : server.IsFormed) (clock : Clock) (payload : Value) :
    (server.save clock payload).1.IsFormed := by
  unfold save
  split
  · exact h
  · exact h
  · rename_i hpayload
    exact isFormed_upsert h clock (Endpoint.wellFormed_of_ofPayload hpayload)

theorem isFormed_load (h : server.IsFormed) (clock : Clock) (document : Value) :
    (server.load clock document).1.IsFormed := by
  unfold load
  split
  · exact h
  · exact h
  · rename_i endpoints hdocument
    rw [registerAll_fst]
    exact isFormed_upsertAll h clock (Definitions.wellFormed_of_ofDocument hdocument)

theorem isFormed_withContent (h : server.IsFormed) {α : Type} {request : HttpRequest}
    {next : Value → Server × Waited (Except ServiceFailure α)}
    (hnext : ∀ content, (next content).1.IsFormed) :
    (server.withContent request next).1.IsFormed := by
  unfold withContent
  split
  · exact hnext _
  · exact h

theorem isFormed_administer [Framework] (h : server.IsFormed) (clock : Clock)
    (request : HttpRequest) (action : AdminAction) :
    (server.administer clock request action).1.IsFormed := by
  cases action with
  | health | metrics | list => exact h
  | save => exact isFormed_withContent h fun payload ↦ isFormed_save h clock payload
  | load => exact isFormed_withContent h fun document ↦ isFormed_load h clock document
  | look =>
    rw [administer]
    split <;> exact h
  | delete =>
    rw [administer]
    split
    · exact fun endpoint hendpoint ↦ h endpoint (List.mem_of_mem_filter hendpoint)
    · exact h
  | rehearse => exact isFormed_withContent h fun payload ↦ h
  | reset => exact isFormed_reset clock server

theorem isFormed_respond (h : server.IsFormed) (request : HttpRequest) :
    (server.respond request).1.IsFormed := by
  refine isFormed_withContent h fun body ↦ ?_
  dsimp only
  split <;> exact h

/-- An answer leaves the endpoints in their fixed form. -/
theorem isFormed_answer [Framework] (h : server.IsFormed) (clock : Clock) (request : HttpRequest) :
    (server.answer clock request).1.IsFormed := by
  unfold answer
  split
  · exact isFormed_administer h clock request _
  · split
    · exact isFormed_respond h request
    · exact h

/-- A run leaves the endpoints in their fixed form. -/
theorem isFormed_answerEach [Framework] (h : server.IsFormed) (run : List (Clock × HttpRequest)) :
    (server.answerEach run).1.IsFormed := by
  induction run generalizing server with
  | nil => exact h
  | cons step run ih => exact ih (isFormed_answer h step.1 step.2)

theorem wellFormed_of_loadFiles [YamlLibrary] {files : File.Files} {paths : List Value}
    {endpoints : List Endpoint} (h : loadFiles files paths = .ok endpoints) :
    ∀ endpoint ∈ endpoints, endpoint.WellFormed := by
  induction paths generalizing endpoints with
  | nil => exact Except.ok.inj h ▸ List.forall_mem_nil _
  | cons path paths ih =>
    cases path with
    | text path =>
      obtain ⟨loaded, hloaded, h⟩ := bind_eq_ok_iff.mp h
      obtain ⟨others, hothers, h⟩ := bind_eq_ok_iff.mp h
      obtain rfl := Except.ok.inj h
      exact List.forall_mem_append.mpr
        ⟨Definitions.wellFormed_of_load (mapError_eq_ok_iff.mp hloaded), ih hothers⟩
    | _ => cases h

/-- A server starts with endpoints in their fixed form. -/
theorem isFormed_start [YamlLibrary] {clock : Clock} {files : File.Files} {settings : Settings}
    (h : start clock files settings = .ok server) : server.IsFormed := by
  obtain ⟨paths, -, h⟩ := bind_eq_ok_iff.mp h
  obtain ⟨endpoints, hendpoints, h⟩ := bind_eq_ok_iff.mp h
  obtain rfl := Except.ok.inj h
  exact isFormed_upsertAll (isFormed_reset clock _) clock (wellFormed_of_loadFiles hendpoints)

end Server

end MockApi
