import MockApi.Proofs.Outcome
import MockApi.Server.Answer

/-!
# Runs of a server

A server answers requests one after another, and time goes on in between: every request may come
with a clock of its own. What holds of a single answer is carried along a run by induction on its
requests. The settings never change, so the same requests ask for the same actions all along.
-/

namespace MockApi

variable {stack : Stack}

/-! ## Actions of administration -/

/-- The path below which the actions of administration are. -/
def Settings.adminStem (settings : Settings) : Text :=
  Text.dropEndWhile (· = '/'.toNat) settings.adminPrefix

namespace AdminAction

theorem mem_all (action : AdminAction) : action ∈ all := by
  cases action <;> decide

/-- A request asks for no more than one action. -/
theorem eq_of_isAskedBy {action other : AdminAction} {stem : Text} {request : HttpRequest}
    (h : action.isAskedBy stem request = true) (h' : other.isAskedBy stem request = true) :
    action = other := by
  have hinjective : ∀ action ∈ all, ∀ other ∈ all,
      action.method = other.method → action.path = other.path → action = other := by decide
  simp only [isAskedBy, Bool.and_eq_true, decide_eq_true_eq] at h h'
  exact hinjective action action.mem_all other other.mem_all (h.1.symm.trans h'.1)
    (List.append_cancel_left (h.2.symm.trans h'.2))

theorem find?_isAskedBy_eq_some_iff {action : AdminAction} {stem : Text} {request : HttpRequest} :
    all.find? (·.isAskedBy stem request) = some action ↔
      action.isAskedBy stem request = true := by
  have hasked (other : AdminAction) (h : all.find? (·.isAskedBy stem request) = some other) :
      other.isAskedBy stem request = true := by
    simpa using List.find?_some h
  constructor
  · exact hasked action
  · intro h
    cases hfound : all.find? (·.isAskedBy stem request) with
    | none => exact absurd h (List.find?_eq_none.mp hfound action action.mem_all)
    | some other => rw [eq_of_isAskedBy (hasked other hfound) h]

end AdminAction

namespace Server

/-! ## Runs -/

section

variable [Framework]

theorem answerEach_cons {clock : Clock} {server after : Server} {request : HttpRequest}
    {reply : Waited (Except ServiceFailure Reply)}
    (h : server.answer clock request = (after, reply)) (run : List (Clock × HttpRequest)) :
    server.answerEach ((clock, request) :: run) =
      ((after.answerEach run).1, reply :: (after.answerEach run).2) := by
  rw [answerEach, h]

theorem answerEach_append (server : Server) (run run' : List (Clock × HttpRequest)) :
    (server.answerEach (run ++ run')).1 = ((server.answerEach run).1.answerEach run').1 := by
  induction run generalizing server with
  | nil => rfl
  | cons step run ih => exact ih (server.answer step.1 step.2).1

end

/-! ## What an answer leaves alone -/

/-- Nothing but the registry and the count of readings is different. -/
def Keeps (server after : Server) : Prop :=
  after.settings = server.settings ∧ after.metrics = server.metrics

theorem keeps_refl (server : Server) : server.Keeps server := ⟨rfl, rfl⟩

theorem keeps_upsertAll (clock : Clock) (server : Server) (endpoints : List Endpoint) :
    server.Keeps (server.upsertAll clock endpoints) :=
  ⟨upsertAll_settings clock server endpoints, upsertAll_metrics clock server endpoints⟩

theorem keeps_withContent {α : Type} {server : Server} {request : HttpRequest}
    {next : Value → Server × Waited (Except ServiceFailure α)}
    (h : ∀ content, server.Keeps (next content).1) :
    server.Keeps (server.withContent request next).1 := by
  unfold withContent
  split
  · exact h _
  · exact server.keeps_refl

theorem keeps_save (clock : Clock) (server : Server) (payload : Value) :
    server.Keeps (server.save clock payload).1 := by
  unfold save
  split <;> exact ⟨rfl, rfl⟩

theorem keeps_load (clock : Clock) (server : Server) (document : Value) :
    server.Keeps (server.load clock document).1 := by
  unfold load
  split
  · exact server.keeps_refl
  · exact server.keeps_refl
  · rename_i endpoints _
    rw [registerAll_fst]
    exact keeps_upsertAll clock server endpoints

/-- Administration other than a reset changes nothing but the registry. -/
theorem keeps_administer [Framework] (clock : Clock) (server : Server) (request : HttpRequest)
    {action : AdminAction} (h : action ≠ .reset) :
    server.Keeps (server.administer clock request action).1 := by
  cases action with
  | health | metrics | list => exact server.keeps_refl
  | save => exact keeps_withContent fun payload ↦ keeps_save clock server payload
  | load => exact keeps_withContent fun document ↦ keeps_load clock server document
  | look =>
    rw [administer]
    split <;> exact server.keeps_refl
  | delete =>
    rw [administer]
    split <;> exact ⟨rfl, rfl⟩
  | rehearse => exact keeps_withContent fun payload ↦ server.keeps_refl
  | reset => exact absurd rfl h

theorem reset_settings (clock : Clock) (server : Server) :
    (server.reset clock).settings = server.settings := upsertAll_settings clock _ _

theorem reset_metrics (clock : Clock) (server : Server) :
    (server.reset clock).metrics = .zero clock.now := upsertAll_metrics clock _ _

theorem settings_respond (server : Server) (request : HttpRequest) :
    (server.respond request).1.settings = server.settings := by
  unfold respond withContent
  split
  · dsimp only
    split <;> rfl
  · rfl

theorem settings_answer [Framework] (clock : Clock) (server : Server) (request : HttpRequest) :
    (server.answer clock request).1.settings = server.settings := by
  unfold answer
  split
  · rename_i action _
    by_cases h : action = .reset
    · rw [h]
      exact reset_settings clock server
    · exact (keeps_administer clock server request h).1
  · split
    · exact settings_respond server request
    · rfl

theorem settings_answerEach [Framework] (server : Server) (run : List (Clock × HttpRequest)) :
    (server.answerEach run).1.settings = server.settings := by
  induction run generalizing server with
  | nil => rfl
  | cons step run ih => exact (ih _).trans (settings_answer step.1 server step.2)

/-! ## What requests ask for -/

/-- What a request asks for depends on the settings alone. -/
theorem adminAction?_of_settings {server other : Server} (h : server.settings = other.settings)
    (request : HttpRequest) : server.adminAction? request = other.adminAction? request := by
  rw [adminAction?, adminAction?, h]

theorem adminAction?_eq_some_iff {server : Server} {request : HttpRequest} {action : AdminAction} :
    server.adminAction? request = some action ↔ server.settings.adminEnabled = true ∧
      action.isAskedBy server.settings.adminStem request = true := by
  unfold adminAction?
  cases server.settings.adminEnabled with
  | false => simp
  | true =>
    rw [if_pos rfl, and_iff_right rfl]
    exact AdminAction.find?_isAskedBy_eq_some_iff

end Server

end MockApi
