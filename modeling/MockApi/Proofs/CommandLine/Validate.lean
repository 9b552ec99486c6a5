import MockApi.CommandLine.Run
import MockApi.Proofs.Definitions.Loading
import MockApi.Proofs.Definitions.Review

/-!
# Validating files

Files are validated one after another. The findings of a file depend on nothing but the file, and
those of all files are joined in the order of the files: the number of endpoints, the errors and the
warnings. A file that is refused is an error and does not keep the others from being looked at. Only
a file with a value beyond a limit does, and nothing is printed then.

The findings are printed at the end. A message that the terminal cannot take ends the command after
the messages before it.
-/

namespace MockApi

variable {stack : Stack}

namespace Definitions

/-- There are no errors among the issues of endpoints if and only if no condition is broken. -/
theorem errors_review_eq_nil_iff {endpoints : List Endpoint} :
    errors (review endpoints) = [] ↔ ∀ endpoint ∈ endpoints, ∀ scenario ∈ endpoint.scenarios,
      ¬Condition.IsBroken scenario.condition := by
  classical
  rw [errors, review, List.filter_flatMap, List.flatMap_eq_nil_iff]
  refine forall₂_congr fun endpoint _ ↦ ?_
  have hlength := (@Endpoint.forall₂_errors_issues stack endpoint).length_eq
  rw [← List.length_eq_zero_iff, ← errors, ← hlength, List.length_map,
    List.length_eq_zero_iff, List.filter_eq_nil_iff]
  simp

end Definitions

namespace CommandLine

open Definitions (IsBeyondLimit Refuses load_cases load_eq_failed_iff)

/-! ## Printing -/

namespace Terminal

variable {terminal : Terminal} {t u : Text} {lines : List Text}

/-- A text that can be printed. -/
def Prints (terminal : Terminal) (t : Text) : Prop := ∀ c ∈ t, terminal.takes c = true

theorem all_takes_iff : t.all terminal.takes = true ↔ terminal.Prints t := List.all_eq_true

theorem prints_append : terminal.Prints (t ++ u) ↔ terminal.Prints t ∧ terminal.Prints u :=
  List.forall_mem_append

theorem prints_of_ascii (terminal : Terminal) (h : ∀ c ∈ t, c < 0x80) : terminal.Prints t :=
  fun c hc ↦ terminal.takes_of_lt (h c hc)

theorem prints_ofNat (terminal : Terminal) (n : Nat) : terminal.Prints (Text.ofNat n) := by
  refine terminal.prints_of_ascii fun c hc ↦ ?_
  have hdigit := Text.isAsciiDigit_iff.mp (Text.isAsciiDigit_of_mem_ofNat hc)
  omega

theorem length_takeWhile_iff :
    (lines.takeWhile (·.all terminal.takes)).length = lines.length ↔
      ∀ line ∈ lines, terminal.Prints line := by
  have hstart := List.takeWhile_prefix (l := lines) (·.all terminal.takes)
  have hall : lines.takeWhile (·.all terminal.takes) = lines ↔
      ∀ line ∈ lines, terminal.Prints line := by
    rw [List.takeWhile_eq_self_iff]
    exact forall₂_congr fun _ _ ↦ all_takes_iff
  exact ⟨fun h ↦ hall.mp (hstart.eq_of_length h), fun h ↦ congrArg _ (hall.mpr h)⟩

/-- Lines that can be printed are printed. -/
theorem print_of_prints (h : ∀ line ∈ lines, terminal.Prints line) :
    terminal.print lines = .ok (linesText lines) :=
  if_pos (length_takeWhile_iff.mpr h)

/-- A line that cannot be printed ends the printing. -/
theorem print_of_not_prints (h : ¬∀ line ∈ lines, terminal.Prints line) :
    terminal.print lines
      = .error (.notPrintable (linesText (lines.takeWhile (·.all terminal.takes)))) :=
  if_neg fun hlength ↦ h (length_takeWhile_iff.mp hlength)

end Terminal

variable {files : File.Files} {path : Text} {paths : List Text} {findings after : Findings}

/-! ## Reports -/

/-- Of what is printed, the messages decide whether it can be printed. -/
theorem Findings.forall_prints_report_iff {terminal : Terminal} :
    (∀ line ∈ findings.report, terminal.Prints line) ↔
      ∀ message ∈ findings.errors ++ findings.warnings, terminal.Prints message := by
  have hlist {heading : Text} (hheading : ∀ c ∈ heading, c < 0x80) (messages : List Text) :
      (∀ line ∈ messageList heading messages, terminal.Prints line) ↔
        ∀ message ∈ messages, terminal.Prints message := by
    have hdash : terminal.Prints "   - " := terminal.prints_of_ascii (by decide)
    have hmessage (message : Text) : terminal.Prints ("   - " ++ message) ↔
        terminal.Prints message := Terminal.prints_append.trans (and_iff_right hdash)
    unfold messageList
    split
    · rename_i hempty
      rw [List.isEmpty_iff.mp hempty]
    · simp [hmessage, terminal.prints_of_ascii hheading]
  have htotal : terminal.Prints ("Endpoints checked: " ++ Text.ofNat findings.checked) :=
    Terminal.prints_append.mpr ⟨terminal.prints_of_ascii (by decide), terminal.prints_ofNat _⟩
  have hpassed : terminal.Prints "All validations passed!" := terminal.prints_of_ascii (by decide)
  unfold report
  dsimp only
  rw [List.cons_append, List.cons_append, List.forall_mem_cons, List.forall_mem_append,
    List.forall_mem_append, hlist (by decide), hlist (by decide), List.forall_mem_append]
  refine (and_iff_right htotal).trans (and_iff_left ?_)
  split
  · exact List.forall_mem_singleton.mpr hpassed
  · exact List.forall_mem_nil _

/-- The complaint about a file that is refused is the wording. -/
theorem loadComplaint_of_refuses {error : LoadError} {message : Text}
    (h : Refuses files path error message) : loadComplaint error = .ok message := by
  have hmessage := h.message?
  unfold loadComplaint
  split
  · exact absurd rfl h.ne_failed
  · rw [hmessage]
    rfl

/-! ## Joining findings -/

/-- Findings and those that come later. -/
def Findings.append (findings later : Findings) : Findings :=
  ⟨findings.checked + later.checked, findings.errors ++ later.errors,
    findings.warnings ++ later.warnings⟩

theorem Findings.append_assoc (findings later latest : Findings) :
    (findings.append later).append latest = findings.append (later.append latest) := by
  simp only [append, Nat.add_assoc, List.append_assoc]

@[simp] theorem Findings.append_empty (findings : Findings) :
    findings.append .empty = findings := by
  simp [append, empty]

@[simp] theorem Findings.empty_append (findings : Findings) :
    Findings.empty.append findings = findings := by
  simp [append, empty]

/-! ## The findings of files -/

section Files

variable [YamlLibrary]

/-- What is found in a single file. -/
def findingsOf [Stack] (files : File.Files) (path : Text) : Findings :=
  match Definitions.load files path with
  | .error error => ⟨0, [(error.message?).getD []], []⟩
  | .ok endpoints =>
    let issues := Definitions.review endpoints
    let located (issue : Issue) : Text := path ++ ": " ++ issue.message
    ⟨endpoints.length, (Definitions.errors issues).map located,
      (Definitions.warnings issues).map located⟩

/-- The findings of several files, in order. -/
def findingsOfAll [Stack] (files : File.Files) (paths : List Text) : Findings :=
  ⟨(paths.map fun path ↦ (findingsOf files path).checked).sum,
    paths.flatMap fun path ↦ (findingsOf files path).errors,
    paths.flatMap fun path ↦ (findingsOf files path).warnings⟩

theorem findingsOfAll_cons (files : File.Files) (path : Text) (paths : List Text) :
    findingsOfAll files (path :: paths) =
      (findingsOf files path).append (findingsOfAll files paths) := rfl

/-- A file of JSON keeps its findings to itself. -/
theorem addFile_of_not_isBeyondLimit (hjson : Definitions.isYaml (File.normalPath path) = false)
    (hlimits : ∀ failure, ¬IsBeyondLimit files path failure) (findings : Findings) :
    findings.addFile files path = .ok (findings.append (findingsOf files path)) := by
  unfold Findings.addFile findingsOf
  rcases load_cases files hjson with ⟨endpoints, h⟩ | ⟨error, message, h, hrefuses⟩ |
    ⟨failure, -, hbeyond⟩
  · rw [h]
    rfl
  · rw [h]
    dsimp only
    rw [loadComplaint_of_refuses hrefuses, hrefuses.message?]
    simp [Findings.append]
  · exact absurd hbeyond (hlimits failure)

theorem addFile_of_isBeyondLimit (hjson : Definitions.isYaml (File.normalPath path) = false)
    {failure : Failure} (h : IsBeyondLimit files path failure) (findings : Findings) :
    findings.addFile files path = .error (.failed failure) := by
  rw [Findings.addFile, (load_eq_failed_iff hjson).mpr h]
  rfl

/-! ## All files -/

/-- Going through files of JSON joins their findings, unless one of them holds a value beyond a
limit. -/
theorem foldlM_addFile_eq_ok_iff
    (hjson : ∀ path ∈ paths, Definitions.isYaml (File.normalPath path) = false) :
    paths.foldlM (Findings.addFile files) findings = .ok after ↔
      (∀ path ∈ paths, ∀ failure, ¬IsBeyondLimit files path failure) ∧
        after = findings.append (findingsOfAll files paths) := by
  induction paths generalizing findings with
  | nil =>
    have hnone : findingsOfAll files [] = .empty := rfl
    rw [List.foldlM_nil, hnone, Findings.append_empty, pure_eq_ok, Except.ok.injEq, eq_comm]
    exact (and_iff_right (List.forall_mem_nil _)).symm
  | cons path paths ih =>
    obtain ⟨hfirst, hrest⟩ := List.forall_mem_cons.mp hjson
    rw [List.foldlM_cons, List.forall_mem_cons, findingsOfAll_cons]
    by_cases hlimits : ∀ failure, ¬IsBeyondLimit files path failure
    · rw [addFile_of_not_isBeyondLimit hfirst hlimits, ok_bind, ih hrest, Findings.append_assoc,
        and_iff_right hlimits]
    · obtain ⟨failure, hbeyond⟩ := not_forall_not.mp hlimits
      rw [addFile_of_isBeyondLimit hfirst hbeyond, error_bind]
      exact iff_of_false nofun fun h ↦ hlimits h.1.1

/-- A file fails to load, or a condition in it is not blank and does not compile. -/
def IsFaulty [Stack] (files : File.Files) (path : Text) : Prop :=
  (∃ error, Definitions.load files path = .error error) ∨
    ∃ endpoints, Definitions.load files path = .ok endpoints ∧ ∃ endpoint ∈ endpoints,
      ∃ scenario ∈ endpoint.scenarios, Condition.isBlank scenario.condition = false ∧
        ∃ error, Condition.compile scenario.condition = .error error

theorem errors_findingsOf_ne_nil_iff :
    (findingsOf files path).errors ≠ [] ↔ IsFaulty files path := by
  unfold findingsOf IsFaulty
  cases Definitions.load files path with
  | error error => simp
  | ok endpoints =>
    simp only [ne_eq, List.map_eq_nil_iff, Definitions.errors_review_eq_nil_iff,
      Condition.isBroken_iff, reduceCtorEq, exists_false, false_or, Except.ok.injEq,
      exists_eq_left', not_forall, not_not, exists_prop]

theorem errors_findingsOfAll_ne_nil_iff :
    (findingsOfAll files paths).errors ≠ [] ↔ ∃ path ∈ paths, IsFaulty files path := by
  rw [findingsOfAll, ne_eq, List.flatMap_eq_nil_iff]
  simp only [← errors_findingsOf_ne_nil_iff, not_forall, exists_prop, ne_eq]

/-- The findings of files without a value beyond a limit are printed. -/
theorem validate_of_not_isBeyondLimit (around : Surroundings)
    (hjson : ∀ path ∈ paths, Definitions.isYaml (File.normalPath path) = false)
    (hlimits : ∀ path ∈ paths, ∀ failure, ¬IsBeyondLimit around.files path failure) :
    validate around paths =
      around.terminal.print (findingsOfAll around.files paths).report >>= fun output ↦
        .ok (.printing (if (findingsOfAll around.files paths).errors.isEmpty then 0 else 1)
          output []) := by
  have hfindings : paths.foldlM (Findings.addFile around.files) .empty
      = .ok (Findings.empty.append (findingsOfAll around.files paths)) :=
    (foldlM_addFile_eq_ok_iff hjson).mpr ⟨hlimits, rfl⟩
  rw [validate, hfindings, ok_bind, Findings.empty_append]
  rfl

/-- **Validating survives every file within the limits.** A file of JSON gives its endpoints or is
refused with a wording, unless a value in it is beyond a limit; in a document that is read, such a
value is nested too deep to be made ready for JSON. If no file holds one, validating goes through
all of them. What is printed are the number of all endpoints and the messages about all files, in
order, as long as the terminal takes the messages, and the exit code tells whether a file fails to
load or a condition is broken. -/
theorem validate_files (around : Surroundings)
    (hjson : ∀ path ∈ paths, Definitions.isYaml (File.normalPath path) = false) :
    let findings := findingsOfAll around.files paths
    let WithinLimits := ∀ path ∈ paths, ∀ failure, ¬IsBeyondLimit around.files path failure
    let Printable := ∀ message ∈ findings.errors ++ findings.warnings,
      around.terminal.Prints message
    (∀ path ∈ paths,
      (∃ endpoints, Definitions.load around.files path = .ok endpoints) ∨
      (∃ error message, Definitions.load around.files path = .error error ∧
        Refuses around.files (File.normalPath path) error message) ∨
      ∃ failure, Definitions.load around.files path = .error (.failed failure) ∧
        IsBeyondLimit around.files path failure) ∧
    (∀ path ∈ paths, ∀ text document failure,
      around.files.read (File.normalPath path) = .ok text →
      Json.read true (Text.unifyLineEnds text) = .ok document →
      IsBeyondLimit around.files path failure → ¬document.NestedWithin Stack.ready) ∧
    ((∃ outcome, validate around paths = .ok outcome) ↔ WithinLimits ∧ Printable) ∧
    (∀ outcome, validate around paths = .ok outcome →
      outcome = .printing outcome.exitCode (linesText findings.report) [] ∧
      (outcome.exitCode = 1 ↔ ∃ path ∈ paths, IsFaulty around.files path) ∧
      (outcome.exitCode = 0 ↔ ¬∃ path ∈ paths, IsFaulty around.files path)) ∧
    (WithinLimits → ¬Printable → validate around paths = .error (.notPrintable
      (linesText (findings.report.takeWhile (·.all around.terminal.takes))))) := by
  intro findings WithinLimits Printable
  have hcomplete (hlimits : WithinLimits) (hprintable : Printable) :
      validate around paths = .ok (.printing (if findings.errors.isEmpty then 0 else 1)
        (linesText findings.report) []) := by
    rw [validate_of_not_isBeyondLimit around hjson hlimits,
      Terminal.print_of_prints (Findings.forall_prints_report_iff.mpr hprintable)]
    rfl
  have hcut (hlimits : WithinLimits) (hprintable : ¬Printable) :
      validate around paths = .error (.notPrintable
        (linesText (findings.report.takeWhile (·.all around.terminal.takes)))) := by
    rw [validate_of_not_isBeyondLimit around hjson hlimits,
      Terminal.print_of_not_prints (mt Findings.forall_prints_report_iff.mp hprintable)]
    rfl
  have hneeded (outcome : Outcome) (h : validate around paths = .ok outcome) :
      WithinLimits ∧ Printable := by
    obtain ⟨_, hfindings, -⟩ := bind_eq_ok_iff.mp h
    have hlimits : WithinLimits := ((foldlM_addFile_eq_ok_iff hjson).mp hfindings).1
    refine ⟨hlimits, by_contra fun hprintable ↦ ?_⟩
    rw [hcut hlimits hprintable] at h
    cases h
  refine ⟨fun path hpath ↦ load_cases around.files (hjson path hpath),
    fun _ _ _ _ _ htext hread hbeyond ↦ hbeyond.not_nestedWithin htext hread,
    ⟨fun ⟨outcome, h⟩ ↦ hneeded outcome h, fun h ↦ ⟨_, hcomplete h.1 h.2⟩⟩,
    fun outcome h ↦ ?_, hcut⟩
  obtain ⟨hlimits, hprintable⟩ := hneeded outcome h
  obtain rfl := Except.ok.inj ((hcomplete hlimits hprintable).symm.trans h)
  rw [← errors_findingsOfAll_ne_nil_iff]
  refine ⟨rfl, ?_⟩
  change (_ ↔ findings.errors ≠ []) ∧ (_ ↔ ¬findings.errors ≠ [])
  cases findings.errors <;> simp [Outcome.printing]

end Files

/-- A file that is missing does not keep the next one from being looked at. -/
theorem validate_files_missing :
    letI : Stack := .usual
    letI : YamlLibrary := .bare
    let around : Surroundings :=
      ⟨[("a.json", "[]")], [], .stopped "2020-01-01", false, .utf8⟩
    let paths : List Text := ["b.json", "a.json"]
    (∀ path ∈ paths, Definitions.isYaml (File.normalPath path) = false) ∧
      (∀ path ∈ paths, ∀ failure, ¬IsBeyondLimit around.files path failure) ∧
      (∃ path ∈ paths, IsFaulty around.files path) ∧
      validate around paths = .ok (.printing 1 (linesText ["Endpoints checked: 0",
        "Errors found:", "   - Definition file not found: b.json"]) []) := by
  intro around paths
  have hjson : ∀ path ∈ paths, Definitions.isYaml (File.normalPath path) = false := by decide
  have houtcome : @validate .bare .usual around paths
      = .ok (.printing 1 (linesText ["Endpoints checked: 0", "Errors found:",
        "   - Definition file not found: b.json"]) []) := rfl
  obtain ⟨-, -, hlimits, houtcomes, -⟩ := @validate_files .usual paths .bare around hjson
  exact ⟨hjson, (hlimits.mp ⟨_, houtcome⟩).1, (houtcomes _ houtcome).2.1.mp rfl, houtcome⟩

/-- A file that is an integer of 4301 digits keeps the next one from being looked at. -/
theorem validate_long_integer :
    letI : Stack := .usual
    letI : YamlLibrary := .bare
    let around : Surroundings :=
      ⟨[("a.json", List.replicate 4301 '1'.toNat), ("b.json", "[]")], [], .stopped "2020-01-01",
        false, .utf8⟩
    Definitions.load around.files "a.json" = .error (.failed (.numeralTooLong 4301)) ∧
      validate around ["a.json", "b.json"] = .error (.failed (.numeralTooLong 4301)) := by
  intro around
  let stack : Stack := .usual
  let library : YamlLibrary := .bare
  have hjson : Definitions.isYaml (File.normalPath "a.json") = false := by decide
  have hbeyond : IsBeyondLimit around.files "a.json" (.numeralTooLong 4301) := by
    have hread : around.files.read (File.normalPath "a.json") =
        .ok (List.replicate 4301 '1'.toNat) := rfl
    refine .unread hread ?_
    rw [Text.unifyLineEnds_eq_self fun h ↦ absurd (List.eq_of_mem_replicate h) (by decide)]
    exact Json.isBeyondLimit_ones (by decide)
  refine ⟨(load_eq_failed_iff hjson).mpr hbeyond, ?_⟩
  rw [validate, List.foldlM_cons, addFile_of_isBeyondLimit hjson hbeyond]
  rfl

end CommandLine

end MockApi
