import MockApi.Definitions.File
import MockApi.Proofs.Definitions.Document
import MockApi.Proofs.Endpoint.Refusal
import MockApi.Proofs.Json.Limits

/-!
# Loading files of definitions

A file of JSON is absent, holds a document or does not. An entry of a document either describes an
endpoint or has a problem of its own, and every error has a wording. What is left are the limits: a
file with a value beyond one of them gives neither endpoints nor an error with a wording. A document
that can be read and made ready for JSON holds no such value.
-/

namespace MockApi

variable {stack : Stack}

open Value (PartOf)

namespace Definitions

variable {document : Value} {files : File.Files} {path text : Text} {failure : Failure}

/-- A document that can be written has no entry beyond a limit. -/
theorem ofDocument_ne_failed (hwritable : document.Writable) :
    ofDocument document ≠ .error (.failed failure) := by
  intro h
  rcases bind_eq_error_iff.mp h with hpayloads | ⟨entries, hentries, h⟩
  · unfold payloads at hpayloads
    split at hpayloads
    · split at hpayloads <;> cases hpayloads
    · cases hpayloads
    · cases hpayloads
  · obtain ⟨good, bad, rest, hsplit, -, ⟨problem, -, herror⟩ | ⟨failure, hbad⟩⟩ :=
      exists_of_ofPayloads_eq_error h
    · cases herror
    · have hpart : PartOf bad document :=
        partOf_of_payloads hentries (hsplit ▸ List.mem_append_right good List.mem_cons_self)
      exact Endpoint.failsOn_ofPayload bad _ hbad (hwritable.of_partOf hpart)

/-- A value beyond a limit stands in the file under a path, taken as JSON. -/
inductive IsBeyondLimit [Stack] (files : File.Files) (path : Text) (failure : Failure) : Prop
  /-- The value cannot be read. -/
  | unread {text : Text} (h : files.read (File.normalPath path) = .ok text)
      (hbeyond : Json.IsBeyondLimit true (Text.unifyLineEnds text) failure)
  /-- The value is read, but a payload needs it as a text. -/
  | unready {text : Text} {document : Value} (h : files.read (File.normalPath path) = .ok text)
      (hread : Json.read true (Text.unifyLineEnds text) = .ok document)
      (hfailed : ofDocument document = .error (.failed failure))

/-- What was read is beyond a limit only if it is nested too deep to be made ready for JSON. -/
theorem IsBeyondLimit.not_nestedWithin (hbeyond : IsBeyondLimit files path failure)
    (h : files.read (File.normalPath path) = .ok text)
    (hread : Json.read true (Text.unifyLineEnds text) = .ok document) :
    ¬document.NestedWithin Stack.ready := by
  intro hnested
  cases hbeyond with
  | unread h' hbeyond =>
    cases h.symm.trans h'
    have hfailed := Json.read_eq_failed_iff.mpr hbeyond
    rw [hread] at hfailed
    cases hfailed
  | unready h' hread' hfailed =>
    cases h.symm.trans h'
    cases hread.symm.trans hread'
    exact ofDocument_ne_failed ⟨hnested, (Json.fits_of_read hread).2⟩ hfailed

/-- The file under a path in its normal form is refused with an error and its wording. -/
inductive Refuses [Stack] (files : File.Files) (path : Text) : LoadError → Text → Prop
  /-- There is no file. -/
  | missing (h : files.read path = .error .missing) :
      Refuses files path (.missing path) ("Definition file not found: " ++ path)
  /-- There is a directory. -/
  | directory (h : files.read path = .error .directory) :
      Refuses files path (.directory path) ("[Errno 21] Is a directory: " ++ path.quoted)
  /-- The file is no JSON. -/
  | notJson {text detail : Text} {fault : JsonFault} (h : files.read path = .ok text)
      (hread : Json.read true (Text.unifyLineEnds text) = .error fault)
      (hdetail : Json.faultMessage? (Text.unifyLineEnds text) fault = some detail) :
      Refuses files path (.notJson path detail) (undecodableMessage path detail)
  /-- The document in the file defines no endpoints. -/
  | document {text message : Text} {document : Value} {error : DocumentError}
      (h : files.read path = .ok text)
      (hread : Json.read true (Text.unifyLineEnds text) = .ok document)
      (herror : ofDocument document = .error error)
      (hmessage : error.message? path = some message) :
      Refuses files path (.document path error) message

theorem Refuses.message? {error : LoadError} {message : Text}
    (h : Refuses files path error message) : error.message? = some message := by
  cases h with
  | missing | directory | notJson => rfl
  | document _ _ _ hmessage => exact hmessage

theorem Refuses.ne_failed {error : LoadError} {message : Text}
    (h : Refuses files path error message) : error ≠ .failed failure := by
  cases h <;> simp

/-- A document defines endpoints, or there is a wording for why it does not, or a value in it is
beyond a limit. -/
theorem ofDocument_cases (document : Value) (path : Text) :
    (∃ endpoints, ofDocument document = .ok endpoints) ∨
      (∃ error message, ofDocument document = .error error ∧ error.message? path = some message ∧
        ∀ failure, error ≠ .failed failure) ∨
      ∃ failure, ofDocument document = .error (.failed failure) := by
  cases h : ofDocument document with
  | ok endpoints => exact .inl ⟨endpoints, rfl⟩
  | error error =>
    cases error with
    | notAList => exact .inr (.inl ⟨_, _, rfl, rfl, nofun⟩)
    | invalidEntry => exact .inr (.inl ⟨_, _, rfl, rfl, nofun⟩)
    | failed failure => exact .inr (.inr ⟨failure, rfl⟩)

/-! ## Files -/

variable [YamlLibrary]

theorem decode_of_json (hjson : isYaml path = false) (text : Text) :
    decode path text = match Json.read true (Text.unifyLineEnds text) with
      | .ok document => .ok document
      | .error (.failed failure) => .error (.failed failure)
      | .error fault =>
        .error (.notJson path ((Json.faultMessage? (Text.unifyLineEnds text) fault).getD [])) := by
  unfold decode
  exact if_neg (by simp [hjson])

theorem load_of_text (htext : files.read (File.normalPath path) = .ok text) :
    load files path = decode (File.normalPath path) text >>= fun document ↦
      match ofDocument document with
      | .ok endpoints => .ok endpoints
      | .error (.failed failure) => .error (.failed failure)
      | .error error => .error (.document (File.normalPath path) error) := by
  unfold load
  dsimp only
  rw [htext]
  rfl

theorem load_of_missing (h : files.read (File.normalPath path) = .error .missing) :
    load files path = .error (.missing (File.normalPath path)) := by
  unfold load
  dsimp only
  rw [h]
  rfl

theorem load_of_directory (h : files.read (File.normalPath path) = .error .directory) :
    load files path = .error (.directory (File.normalPath path)) := by
  unfold load
  dsimp only
  rw [h]
  rfl

/-- What becomes of a file of JSON whose text can be read. -/
theorem load_text_cases (hjson : isYaml (File.normalPath path) = false)
    (htext : files.read (File.normalPath path) = .ok text) :
    (∃ endpoints, load files path = .ok endpoints) ∨
      (∃ error message, load files path = .error error ∧
        Refuses files (File.normalPath path) error message) ∨
      ∃ failure, load files path = .error (.failed failure) ∧
        IsBeyondLimit files path failure := by
  rw [load_of_text htext, decode_of_json hjson]
  cases hread : Json.read true (Text.unifyLineEnds text) with
  | ok document =>
    rw [ok_bind]
    rcases ofDocument_cases document (File.normalPath path) with
      ⟨endpoints, hendpoints⟩ | ⟨error, message, herror, hmessage, hfailed⟩ | ⟨failure, hfailed⟩
    · rw [hendpoints]
      exact .inl ⟨endpoints, rfl⟩
    · have hrefuses := Refuses.document htext hread herror hmessage
      rw [herror]
      cases error with
      | notAList | invalidEntry => exact .inr (.inl ⟨_, _, rfl, hrefuses⟩)
      | failed failure => exact absurd rfl (hfailed failure)
    · rw [hfailed]
      exact .inr (.inr ⟨failure, rfl, .unready htext hread hfailed⟩)
  | error fault =>
    cases fault with
    | malformed | nonFinite => exact .inr (.inl ⟨_, _, rfl, .notJson htext hread rfl⟩)
    | failed failure =>
      exact .inr (.inr ⟨failure, rfl, .unread htext (Json.read_eq_failed_iff.mp hread)⟩)

/-- **What becomes of a file of JSON.** It gives its endpoints, it is refused with a wording, or a
value in it is beyond a limit. -/
theorem load_cases (files : File.Files) (hjson : isYaml (File.normalPath path) = false) :
    (∃ endpoints, load files path = .ok endpoints) ∨
      (∃ error message, load files path = .error error ∧
        Refuses files (File.normalPath path) error message) ∨
      ∃ failure, load files path = .error (.failed failure) ∧
        IsBeyondLimit files path failure := by
  cases hread : files.read (File.normalPath path) with
  | error absence =>
    cases absence with
    | missing => exact .inr (.inl ⟨_, _, load_of_missing hread, .missing hread⟩)
    | directory => exact .inr (.inl ⟨_, _, load_of_directory hread, .directory hread⟩)
  | ok text =>
    rcases load_text_cases hjson hread with hok | hrefuses | ⟨failure, hload, hbeyond⟩
    · exact .inl hok
    · exact .inr (.inl hrefuses)
    · exact .inr (.inr ⟨failure, hload, hbeyond⟩)

/-- A file of JSON fails to load for the values beyond a limit only. -/
theorem load_eq_failed_iff (hjson : isYaml (File.normalPath path) = false) :
    load files path = .error (.failed failure) ↔ IsBeyondLimit files path failure := by
  constructor
  · intro h
    rcases load_cases files hjson with ⟨_, hload⟩ | ⟨_, _, hload, hrefuses⟩ |
      ⟨_, hload, hbeyond⟩
    · rw [hload] at h
      cases h
    · exact absurd (Except.error.inj (hload.symm.trans h)) hrefuses.ne_failed
    · cases Except.error.inj (hload.symm.trans h)
      exact hbeyond
  · intro h
    cases h with
    | unread htext hbeyond =>
      rw [load_of_text htext, decode_of_json hjson, Json.read_eq_failed_iff.mpr hbeyond]
      rfl
    | unready htext hread hfailed =>
      rw [load_of_text htext, decode_of_json hjson, hread, ok_bind, hfailed]

end Definitions

end MockApi
