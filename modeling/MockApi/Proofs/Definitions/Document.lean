import MockApi.Definitions.Document
import MockApi.Proofs.Value.Writing

/-!
# Reading documents of definitions

The payloads of a document are parts of it. They are read one by one, and reading ends with the
first one that describes no endpoint.
-/

namespace MockApi

variable {stack : Stack}

open Value (PartOf)

namespace Definitions

variable {document : Value} {entries : List Value} {endpoints : List Endpoint} {index : Nat}
  {error : DocumentError}

theorem partOf_of_payloads {entry : Value} (h : payloads document = .ok entries)
    (hentry : entry ∈ entries) : PartOf entry document := by
  unfold payloads at h
  split at h
  · split at h
    · rename_i hget
      obtain rfl := Except.ok.inj h
      exact .entry (Table.mem_of_get?_eq_some hget) (.item hentry (.refl entry))
    · cases h
    · obtain rfl := Except.ok.inj h
      exact List.mem_singleton.mp hentry ▸ .refl _
  · obtain rfl := Except.ok.inj h
    exact .item hentry (.refl entry)
  · cases h

/-- Payloads are read if they all describe endpoints, and they are read in order. -/
theorem ofPayloads_eq_ok_iff :
    ofPayloads index entries = .ok endpoints ↔
      entries.map Endpoint.ofPayload = endpoints.map .ok := by
  induction entries generalizing endpoints index with
  | nil =>
    rw [ofPayloads, List.map_nil, eq_comm, eq_comm (b := endpoints.map _), List.map_eq_nil_iff]
    exact ⟨fun h ↦ Except.ok.inj h, fun h ↦ congrArg _ h⟩
  | cons entry entries ih =>
    rw [ofPayloads, List.map_cons]
    split
    · rename_i h
      simp [h, eq_comm, List.map_eq_cons_iff]
    · rename_i h
      simp [h, eq_comm, List.map_eq_cons_iff]
    · rename_i endpoint h
      rw [bind_eq_ok_iff, h, eq_comm (b := endpoints.map _), List.map_eq_cons_iff]
      constructor
      · rintro ⟨endpoints', h', hresult⟩
        exact ⟨endpoint, endpoints', (Except.ok.inj hresult).symm, rfl, (ih.mp h').symm⟩
      · rintro ⟨endpoint', endpoints', rfl, hfirst, hrest⟩
        refine ⟨endpoints', ih.mpr hrest.symm, ?_⟩
        rw [Except.ok.inj hfirst, pure_eq_ok]

/-- Reading ends at the first payload that describes no endpoint. -/
theorem exists_of_ofPayloads_eq_error (h : ofPayloads index entries = .error error) :
    ∃ good bad rest, entries = good ++ bad :: rest ∧
      (∀ entry ∈ good, ∃ endpoint, Endpoint.ofPayload entry = .ok endpoint) ∧
      ((∃ problem, Endpoint.ofPayload bad = .error (.invalid problem) ∧
        error = .invalidEntry (index + good.length) problem) ∨
      ∃ failure, Endpoint.ofPayload bad = .error (.failed failure)) := by
  induction entries generalizing index with
  | nil => cases h
  | cons entry entries ih =>
    rw [ofPayloads] at h
    split at h
    · rename_i problem hproblem
      refine ⟨[], entry, entries, rfl, List.forall_mem_nil _, .inl ⟨problem, hproblem, ?_⟩⟩
      exact (Except.error.inj h).symm
    · rename_i failure hfailure
      exact ⟨[], entry, entries, rfl, List.forall_mem_nil _, .inr ⟨failure, hfailure⟩⟩
    · rename_i endpoint hendpoint
      rcases bind_eq_error_iff.mp h with h | ⟨endpoints, -, h⟩
      · obtain ⟨good, bad, rest, rfl, hgood, hbad⟩ := ih h
        refine ⟨entry :: good, bad, rest, rfl, List.forall_mem_cons.mpr ⟨⟨_, hendpoint⟩, hgood⟩, ?_⟩
        rw [List.length_cons, Nat.add_comm good.length, ← Nat.add_assoc]
        exact hbad
      · cases h

end Definitions

end MockApi
