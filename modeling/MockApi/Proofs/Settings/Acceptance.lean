import MockApi.Proofs.Number.Numeral
import MockApi.Proofs.Value.Writing
import MockApi.Settings.Source

/-!
# What is accepted as settings

Options are checked one after another, and two ends are as they should be: a complaint about an
option, or settings that a server can run with. The port is what stands between. The check reads it
as an integer and throws the integer away, so a text, a truth value or a double that reads as a port
is accepted and kept as it is; and what cannot be read as an integer at all ends neither in settings
nor in a complaint. The condition under which all is well is sharp for options that are texts where
they have to be.

Options arrive in an object, in a file that holds one, or in variables of an environment on top of
other options. The variable for the port is read with care, so with it all is well again.
-/

namespace MockApi

variable {stack : Stack}

/-- Whether an error is a complaint about what was given, and not a failure on the way to one. -/
def SettingsError.isComplaint : SettingsError → Bool
  | unknownOptions _ | unknownRenderMode _ | unknownRoutePolicy _ | unknownLogLevel _ => true
  | portOutOfRange _ | portNotAnInteger _ | prefixWithoutSlash .. => true
  | notYaml .. | notAMapping _ => true
  | fileMissing _ | fileIsDirectory _ => false
  | valuesMissing | unknownArgument _ | notText _ | badType _ | failed _ => false

/-- The options that have to be texts. -/
def OptionName.textNames : List OptionName :=
  [host, logLevel, apiPrefix, routePolicy, renderMode, adminPrefix]

/-- A value is an integer that can be the number of a port. -/
def Value.IsPort (value : Value) : Prop := ∃ n : Int, value = .int n ∧ 0 < n ∧ n < 65536

namespace Options

variable {options : Options}

/-! ## Kinds of options -/

/-- The options that have to be texts are texts. -/
def HasTexts (options : Options) : Prop :=
  ∀ name ∈ OptionName.textNames, ∃ t, options name = .text t

/-- The options that choose among known values choose one of them; the level of logging may be
written in any case. -/
structure IsChosen (options : Options) : Prop where
  /-- The render mode is a known one. -/
  renderMode : ∃ mode : RenderMode, options .renderMode = .text mode.name
  /-- The route policy is a known one. -/
  routePolicy : ∃ policy : RoutePolicy, options .routePolicy = .text policy.name
  /-- The level of logging is a known one, whatever its case. -/
  logLevel : ∃ t, options .logLevel = .text t ∧ ∃ level : LogLevel, level.name = t.toAsciiLower

/-- The prefixes are paths, of which the one that all requests share may be empty. -/
structure IsPrefixed (options : Options) : Prop where
  /-- The prefix of the admin routes begins with a slash. -/
  adminPrefix : ∃ t, options .adminPrefix = .text t ∧ t.head? = some '/'.toNat
  /-- The shared prefix is empty or begins with a slash. -/
  apiPrefix : ∃ t, options .apiPrefix = .text t ∧ (t = [] ∨ t.head? = some '/'.toNat)

/-- Options that a server can run with. -/
structure IsUsable (options : Options) : Prop extends IsChosen options, IsPrefixed options where
  /-- The port is an integer between 1 and 65535. -/
  port : (options .port).IsPort

/-- Options whose check ends as it should: unless an earlier check complains, the port can be read
as an integer and put into a complaint, and if it is in range and nothing else is wrong, then it is
an integer from the start. -/
def IsSound (options : Options) : Prop :=
  options.IsChosen → (options .port).HasShortIntegers ∧
    ∃ n, Settings.integerOf .port (options .port) = .ok n ∧
      (0 < n → n < 65536 → options.IsPrefixed → options .port = .int n)

/-- The port is given as an integer that is not too long. -/
def HasShortPort (options : Options) : Prop := ∃ n, options .port = .int n ∧ IsShort n

theorem HasShortPort.isSound (h : options.HasShortPort) : options.IsSound := by
  obtain ⟨n, hport, hn⟩ := h
  intro _
  rw [hport]
  exact ⟨Value.hasShortIntegers_int.mpr hn, n, rfl, fun _ _ _ ↦ rfl⟩

end Options

namespace Settings

variable {options options' : Options} {name : OptionName}

/-- An outcome as it should be: settings that a server can run with, or a complaint. -/
def IsProper : Except SettingsError Settings → Prop
  | .ok settings => settings.options.IsUsable
  | .error error => error.isComplaint

/-! ## The checks one by one -/

theorem choice_of_text {α : Type} {ofName? : Text → Option α} {complaint : Text → SettingsError}
    {t : Text} (h : options name = .text t) : choice options name ofName? complaint =
      match ofName? t with
      | some a => .ok a
      | none => .error (complaint t) := by
  unfold choice given
  rw [h]
  cases hfound : ofName? t with
  | some a => simp [hfound]
  | none => simp [hfound, Value.shown]

theorem prefixOf_of_slash {t : Text} (h : options name = .text t)
    (hslash : t.head? = some '/'.toNat) : prefixOf options name = .ok t := by
  rw [prefixOf, textOf, h, ok_bind, if_pos hslash, pure_eq_ok]

theorem prefixOf_of_ne_slash {t : Text} (h : options name = .text t)
    (hslash : t.head? ≠ some '/'.toNat) :
    prefixOf options name = .error (.prefixWithoutSlash name t) := by
  rw [prefixOf, textOf, h, ok_bind, if_neg hslash, throw_eq_error]

/-- What is left to do once the port is known. -/
def finish (options : Options) (renderMode : RenderMode) (routePolicy : RoutePolicy)
    (logLevelName : Text) (logLevel : LogLevel) (port : Nat) : Except SettingsError Settings := do
  let adminPrefix ← prefixOf options .adminPrefix
  let pathPrefix ←
    if (options .apiPrefix).isVacant then pure [] else prefixOf options .apiPrefix
  return ⟨options, renderMode, routePolicy, logLevelName, logLevel, port, adminPrefix, pathPrefix⟩

/-- Options that choose well get as far as the port. -/
theorem ofOptions_of_isChosen (h : options.IsChosen) :
    ∃ renderMode routePolicy logLevelName logLevel, ofOptions options =
      portOf options >>= finish options renderMode routePolicy logLevelName logLevel := by
  obtain ⟨mode, hmode⟩ := h.renderMode
  obtain ⟨policy, hpolicy⟩ := h.routePolicy
  obtain ⟨t, ht, level, hlevel⟩ := h.logLevel
  have hfound : LogLevel.ofName? t = some level := by
    rw [LogLevel.ofName?, ← hlevel]
    cases level <;> decide
  refine ⟨mode, policy, t, level, ?_⟩
  unfold ofOptions
  rw [choice_of_text hmode, RenderMode.ofName?_name, choice_of_text hpolicy,
    RoutePolicy.ofName?_name, textOf, ht]
  simp only [ok_bind, hfound, pure_eq_ok]
  rfl

/-- Options that do not choose well get a complaint. -/
theorem ofOptions_of_not_isChosen (htexts : options.HasTexts) (h : ¬options.IsChosen) :
    ∃ error, ofOptions options = .error error ∧ error.isComplaint := by
  obtain ⟨mode, hmode⟩ := htexts .renderMode (by decide)
  obtain ⟨policy, hpolicy⟩ := htexts .routePolicy (by decide)
  obtain ⟨level, hlevel⟩ := htexts .logLevel (by decide)
  unfold ofOptions
  rw [choice_of_text hmode, choice_of_text hpolicy, textOf, hlevel]
  cases hfoundMode : RenderMode.ofName? mode with
  | none => exact ⟨_, rfl, rfl⟩
  | some foundMode =>
    cases hfoundPolicy : RoutePolicy.ofName? policy with
    | none => exact ⟨_, rfl, rfl⟩
    | some foundPolicy =>
      cases hfoundLevel : LogLevel.ofName? level with
      | none => exact ⟨.unknownLogLevel level, by simp [hfoundLevel], rfl⟩
      | some foundLevel =>
        have hmodeName : foundMode.name = mode := by simpa using List.find?_some hfoundMode
        have hpolicyName : foundPolicy.name = policy := by simpa using List.find?_some hfoundPolicy
        have hlevelName : foundLevel.name = level.toAsciiLower := by
          simpa using List.find?_some hfoundLevel
        exact absurd ⟨⟨foundMode, hmodeName ▸ hmode⟩, ⟨foundPolicy, hpolicyName ▸ hpolicy⟩,
          ⟨level, hlevel, foundLevel, hlevelName⟩⟩ h

/-- With good prefixes, everything goes well once the port is known. -/
theorem finish_of_isPrefixed (h : options.IsPrefixed) (renderMode : RenderMode)
    (routePolicy : RoutePolicy) (logLevelName : Text) (logLevel : LogLevel) (port : Nat) :
    ∃ settings, finish options renderMode routePolicy logLevelName logLevel port = .ok settings ∧
      settings.options = options := by
  obtain ⟨t, ht, hslash⟩ := h.adminPrefix
  obtain ⟨s, hs, hshared⟩ := h.apiPrefix
  unfold finish
  rw [prefixOf_of_slash ht hslash, ok_bind]
  by_cases hempty : s = []
  · rw [if_pos (by simp [hs, hempty, Value.isVacant])]
    exact ⟨_, rfl, rfl⟩
  · rw [if_neg (by simp [hs, hempty, Value.isVacant]),
      prefixOf_of_slash hs (hshared.resolve_left hempty)]
    exact ⟨_, rfl, rfl⟩

/-- Without, there is a complaint. -/
theorem finish_of_not_isPrefixed (htexts : options.HasTexts) (h : ¬options.IsPrefixed)
    (renderMode : RenderMode) (routePolicy : RoutePolicy) (logLevelName : Text)
    (logLevel : LogLevel) (port : Nat) :
    ∃ error, finish options renderMode routePolicy logLevelName logLevel port = .error error ∧
      error.isComplaint := by
  obtain ⟨t, ht⟩ := htexts .adminPrefix (by decide)
  obtain ⟨s, hs⟩ := htexts .apiPrefix (by decide)
  unfold finish
  by_cases hslash : t.head? = some '/'.toNat
  · obtain ⟨hempty, hshared⟩ := not_or.mp fun hshared : s = [] ∨ s.head? = some '/'.toNat ↦
      h ⟨⟨t, ht, hslash⟩, ⟨s, hs, hshared⟩⟩
    rw [prefixOf_of_slash ht hslash, ok_bind, if_neg (by simp [hs, hempty, Value.isVacant]),
      prefixOf_of_ne_slash hs hshared]
    exact ⟨_, rfl, rfl⟩
  · rw [prefixOf_of_ne_slash ht hslash]
    exact ⟨_, rfl, rfl⟩

/-! ## The port -/

/-- An integer read from a text has no more digits than the limit. -/
theorem isShort_of_integerOfText {t : Text} {n : Int} (h : integerOfText t = .ok n) :
    IsShort n := by
  simp only [integerOfText] at h
  set parts := Numeral.splitSign (Text.trimWhile Numeral.isMargin t)
  set digits := (Text.splitOn '_'.toNat (parts.2.takeWhile fun c ↦
    Text.isDigit c || decide (c = '_'.toNat))).flatten
  split_ifs at h with hempty hlong hrest hsign
  all_goals
    cases h
    refine (Nat.length_toDigits_le_iff (by decide) (by decide)).mpr ?_
    have hlt := (Text.digitsValue_lt digits).trans_le
      (Nat.pow_le_pow_right (by decide) (Nat.le_of_not_lt hlong))
    simpa using hlt

/-- A port that reads as an integer in range is taken for this integer. -/
theorem portOf_of_mem_range {n : Int} (h : integerOf .port (options .port) = .ok n) (hpos : 0 < n)
    (hlt : n < 65536) : portOf options = .ok n.toNat := by
  simp [portOf, h, hpos, hlt]

/-- A port that reads as an integer out of range gets a complaint that shows it, if it can be
shown. -/
theorem portOf_of_not_mem_range {n : Int} (h : integerOf .port (options .port) = .ok n)
    (hrange : ¬(0 < n ∧ n < 65536)) : portOf options =
      ((options .port).shown.mapError .failed) >>= fun t ↦ .error (.portOutOfRange t) := by
  rw [portOf, h, ok_bind, if_neg (by simpa using hrange)]
  rfl

/-- Why a port cannot be read as an integer is never put into a complaint. -/
theorem isComplaint_of_integerOf_eq_error {value : Value} {error : SettingsError}
    (h : integerOf name value = .error error) : error.isComplaint = false := by
  unfold integerOf at h
  split at h
  · cases h
  · cases h
  · split at h
    · cases h
    · cases h
      rfl
  · obtain ⟨failure, -, rfl⟩ := mapError_eq_error_iff.mp h
    rfl
  · cases h
    rfl

/-- A value that reads as a short integer can be shown. -/
theorem hasShortIntegers_of_integerOf {value : Value} {n : Int} (h : integerOf name value = .ok n)
    (hn : IsShort n) : value.HasShortIntegers := by
  cases value with
  | number x =>
    cases x with
    | int m =>
      cases h
      exact Value.hasShortIntegers_int.mpr hn
    | double x => exact Value.hasShortIntegers_of_scalar rfl (by simp [Value.int])
  | list | object => cases h
  | null | undefined | bool | text =>
    exact Value.hasShortIntegers_of_scalar rfl (by simp [Value.int])

/-- A value that reads as an integer in range is a port if it is this integer. -/
theorem isPort_iff_of_integerOf {value : Value} {n : Int} (h : integerOf name value = .ok n)
    (hrange : 0 < n ∧ n < 65536) : value.IsPort ↔ value = .int n := by
  constructor
  · rintro ⟨m, rfl, -⟩
    cases h
    rfl
  · rintro rfl
    exact ⟨n, rfl, hrange⟩

/-- A value that reads as an integer can be shown unless it is too long an integer. -/
theorem exists_shown_of_integerOf {value : Value} {n : Int} (h : integerOf name value = .ok n) :
    (∃ t, value.shown = .ok t) ↔ value.HasShortIntegers := by
  refine Value.exists_shown_iff_of_scalar ?_
  cases value with
  | list | object => cases h
  | _ => rfl

/-! ## All checks -/

/-- Once the port is known, all is well unless the options are accepted with a port in another
form than that of an integer. -/
theorem isProper_finish_iff (htexts : options.HasTexts) (hchosen : options.IsChosen)
    (renderMode : RenderMode) (routePolicy : RoutePolicy) (logLevelName : Text)
    (logLevel : LogLevel) (port : Nat) :
    IsProper (finish options renderMode routePolicy logLevelName logLevel port) ↔
      (options.IsPrefixed → (options .port).IsPort) := by
  by_cases hprefixed : options.IsPrefixed
  · obtain ⟨settings, hsettings, hoptions⟩ :=
      finish_of_isPrefixed hprefixed renderMode routePolicy logLevelName logLevel port
    rw [hsettings, forall_prop_of_true hprefixed]
    simp only [IsProper, hoptions]
    exact ⟨fun h ↦ h.port, fun h ↦ ⟨hchosen, hprefixed, h⟩⟩
  · obtain ⟨error, herror, hcomplaint⟩ :=
      finish_of_not_isPrefixed htexts hprefixed renderMode routePolicy logLevelName logLevel port
    rw [herror]
    exact iff_of_true hcomplaint fun h ↦ absurd h hprefixed

/-- **Which options end as they should.** -/
theorem isProper_ofOptions_iff (htexts : options.HasTexts) :
    IsProper (ofOptions options) ↔ options.IsSound := by
  by_cases hchosen : options.IsChosen
  · obtain ⟨mode, policy, level, number, heq⟩ := ofOptions_of_isChosen hchosen
    rw [heq, Options.IsSound, forall_prop_of_true hchosen]
    cases hn : integerOf .port (options .port) with
    | error error =>
      have hport : portOf options = .error error := by
        rw [portOf, hn, error_bind]
      rw [hport, error_bind]
      simp [IsProper, isComplaint_of_integerOf_eq_error hn]
    | ok n =>
      by_cases hrange : 0 < n ∧ n < 65536
      · have hlt : n.natAbs < 65536 := by omega
        have hshort : (options .port).HasShortIntegers :=
          hasShortIntegers_of_integerOf hn (Value.isShort_of_lt (hlt.trans (by decide)))
        have hport : (options .port).IsPort ↔ options .port = .int n :=
          isPort_iff_of_integerOf hn hrange
        rw [portOf_of_mem_range hn hrange.1 hrange.2, ok_bind, isProper_finish_iff htexts hchosen]
        simp [hshort, hrange, hport]
      · have hshown := @exists_shown_of_integerOf stack _ _ _ hn
        rw [portOf_of_not_mem_range hn hrange, ← hshown]
        cases hvalue : (options .port).shown with
        | error failure => simp [IsProper, Except.mapError, SettingsError.isComplaint]
        | ok t =>
          have hvacuous : 0 < n → n < 65536 → options.IsPrefixed → options .port = .int n :=
            fun hpos hlt ↦ absurd ⟨hpos, hlt⟩ hrange
          simpa [IsProper, SettingsError.isComplaint] using hvacuous
  · obtain ⟨error, herror, hcomplaint⟩ := ofOptions_of_not_isChosen htexts hchosen
    rw [herror]
    exact iff_of_true hcomplaint fun h ↦ absurd h hchosen

/-! ## Objects and files -/

/-- The entries of a table that have to be texts are texts. -/
def HasTexts (entries : Entries) : Prop :=
  ∀ name ∈ OptionName.textNames, ∀ value, (name.spelling, value) ∈ entries → ∃ t, value = .text t

theorem hasTexts_set {value : Value} (h : options.HasTexts)
    (hvalue : name ∈ OptionName.textNames → ∃ t, value = .text t) :
    (options.set name value).HasTexts := by
  intro other hother
  by_cases heq : other = name
  · subst heq
    rw [Options.set_self]
    exact hvalue hother
  · rw [Options.set_of_ne options value heq]
    exact h other hother

theorem hasTexts_setEntries {entries : Entries} (h : options.HasTexts)
    (hentries : HasTexts entries) : (options.setEntries entries).HasTexts := by
  induction entries generalizing options with
  | nil => exact h
  | cons entry entries ih =>
    obtain ⟨key, value⟩ := entry
    have hrest : HasTexts entries := fun name hname value hmem ↦
      hentries name hname value (List.mem_cons_of_mem _ hmem)
    rw [Options.setEntries, List.foldl_cons]
    refine ih ?_ hrest
    dsimp only
    split
    · rename_i name hname
      have hspelling : name.spelling = key := by simpa using List.find?_some hname
      exact hasTexts_set h fun hmem ↦
        hentries name hmem value (hspelling ▸ List.mem_cons_self)
    · exact h

theorem hasTexts_singlePath (h : options.HasTexts) : (singlePath options).HasTexts := by
  unfold singlePath
  split
  · exact hasTexts_set h fun hmem ↦ absurd hmem (by decide)
  · exact h

theorem hasTexts_default : Options.default.HasTexts := by
  intro name hname
  simp only [OptionName.textNames, List.mem_cons, List.not_mem_nil, or_false] at hname
  obtain rfl | rfl | rfl | rfl | rfl | rfl := hname <;> exact ⟨_, rfl⟩

/-- The options of an object are texts where the entries are, and unknown names are a complaint. -/
theorem optionsOfEntries_cases {entries : Entries} (hentries : HasTexts entries) :
    (∃ options, optionsOfEntries entries = .ok options ∧ options.HasTexts) ∨
      ∃ error, optionsOfEntries entries = .error error ∧ error.isComplaint := by
  unfold optionsOfEntries
  split
  · exact .inl ⟨_, rfl, hasTexts_singlePath (hasTexts_setEntries hasTexts_default hentries)⟩
  · exact .inr ⟨_, rfl, rfl⟩

/-! ### A port and nothing else -/

theorem unknownNames_eq_nil {entries : Entries}
    (h : ∀ key ∈ entries.names, OptionName.ofSpelling? key ≠ none) : unknownNames entries = [] := by
  have hnone : entries.names.filter (fun key ↦ (OptionName.ofSpelling? key).isNone) = [] := by
    simpa [List.filter_eq_nil_iff] using h
  rw [unknownNames, hnone, List.mergeSort_nil]

theorem optionsOfEntries_port (value : Value) :
    optionsOfEntries [("port", value)] = .ok (Options.default.set .port value) := by
  rw [optionsOfEntries, unknownNames_eq_nil (by simp [Table.names]; decide)]
  rfl

theorem hasTexts_port (value : Value) : HasTexts [("port", value)] := by
  intro name hname value' hmem
  have hne : ∀ name ∈ OptionName.textNames, name.spelling ≠ "port" := by decide
  obtain ⟨hport, -⟩ := Prod.mk.inj (List.mem_singleton.mp hmem)
  exact absurd hport (hne name hname)

/-! ## Environments -/

/-- The options with one variable of an environment on top. -/
def applyVariable (environment : Environment) (options : Options) (name : OptionName) :
    Except SettingsError Options := do
  match environment.get? (variableName name) with
  | some raw => return options.set name (← ofVariable name raw)
  | none => return options

theorem applyEnvironment_eq_foldlM (environment : Environment) (options : Options) :
    applyEnvironment environment options
      = OptionName.all.foldlM (applyVariable environment) options := rfl

theorem applyVariable_eq_ok_iff {environment : Environment} :
    applyVariable environment options name = .ok options' ↔
      environment.get? (variableName name) = none ∧ options' = options ∨
      ∃ raw value, environment.get? (variableName name) = some raw ∧
        ofVariable name raw = .ok value ∧ options' = options.set name value := by
  unfold applyVariable
  cases hraw : environment.get? (variableName name) with
  | none => simp [eq_comm]
  | some raw =>
    simp only [pure_eq_ok, bind_eq_ok_iff, Except.ok.injEq]
    simp [eq_comm]

/-- A variable for an option that has to be a text gives a text. -/
theorem exists_text_of_ofVariable {raw : Text} {value : Value} (h : ofVariable name raw = .ok value)
    (hname : name ∈ OptionName.textNames) : ∃ t, value = .text t := by
  simp only [OptionName.textNames, List.mem_cons, List.not_mem_nil, or_false] at hname
  obtain rfl | rfl | rfl | rfl | rfl | rfl := hname <;> cases h <;> exact ⟨_, rfl⟩

/-- The variable for the port gives a short integer. -/
theorem exists_int_of_ofVariable {raw : Text} {value : Value}
    (h : ofVariable .port raw = .ok value) : ∃ n, value = .int n ∧ IsShort n := by
  unfold ofVariable at h
  cases hn : integerOfText raw with
  | error failure => simp [hn] at h
  | ok n =>
    simp only [hn] at h
    cases h
    exact ⟨n, rfl, isShort_of_integerOfText hn⟩

/-- What is wrong with a variable is put into a complaint. -/
theorem isComplaint_of_ofVariable {raw : Text} {error : SettingsError}
    (h : ofVariable name raw = .error error) : error.isComplaint := by
  unfold ofVariable at h
  split at h
  · split at h
    · cases h
    · cases h
      rfl
  all_goals cases h

variable {environment : Environment}

theorem hasTexts_applyEnvironment (h : options.HasTexts)
    (hoptions : applyEnvironment environment options = .ok options') : options'.HasTexts := by
  rw [applyEnvironment_eq_foldlM] at hoptions
  refine foldlM_invariant (fun before name after hbefore hstep ↦ ?_) h hoptions
  obtain ⟨-, rfl⟩ | ⟨raw, value, -, hvalue, rfl⟩ := applyVariable_eq_ok_iff.mp hstep
  · exact hbefore
  · exact hasTexts_set hbefore fun hname ↦ exists_text_of_ofVariable hvalue hname

theorem isComplaint_of_applyEnvironment {error : SettingsError}
    (h : applyEnvironment environment options = .error error) : error.isComplaint := by
  rw [applyEnvironment_eq_foldlM] at h
  obtain ⟨before, name, hstep⟩ := exists_of_foldlM_eq_error h
  unfold applyVariable at hstep
  split at hstep
  · obtain hvalue | ⟨value, -, h⟩ := bind_eq_error_iff.mp hstep
    · exact isComplaint_of_ofVariable hvalue
    · cases h
  · cases hstep

/-- With a variable for it, the port is a short integer whatever it was before. -/
theorem hasShortPort_applyEnvironment {raw : Text}
    (hraw : environment.get? (variableName .port) = some raw)
    (h : applyEnvironment environment options = .ok options') : options'.HasShortPort := by
  have hset {before after : Options} (hstep : applyVariable environment before .port = .ok after) :
      after.HasShortPort := by
    obtain ⟨hnone, -⟩ | ⟨raw', value, -, hvalue, rfl⟩ := applyVariable_eq_ok_iff.mp hstep
    · cases hraw.symm.trans hnone
    · obtain ⟨n, rfl, hn⟩ := exists_int_of_ofVariable hvalue
      exact ⟨n, Options.set_self before .port (.int n), hn⟩
  rw [applyEnvironment_eq_foldlM] at h
  have hmem : OptionName.port ∈ OptionName.all := by decide
  refine foldlM_establishes hmem (fun before after ↦ hset)
    (fun before name after hbefore hstep ↦ ?_) h
  by_cases hname : name = .port
  · subst hname
    exact hset hstep
  · obtain ⟨-, rfl⟩ | ⟨raw', value, -, -, rfl⟩ := applyVariable_eq_ok_iff.mp hstep
    · exact hbefore
    · rw [Options.HasShortPort, Options.set_of_ne before value (Ne.symm hname)]
      exact hbefore

/-! ## All ways to settings -/

/-- Options that are given or refused with a complaint end as they should if and only if they are
sound when given. -/
theorem isProper_bind_ofOptions_iff {loaded : Except SettingsError Options}
    (htexts : ∀ options, loaded = .ok options → options.HasTexts)
    (hcomplaint : ∀ error, loaded = .error error → error.isComplaint) :
    IsProper (loaded >>= ofOptions) ↔ ∀ options, loaded = .ok options → options.IsSound := by
  cases loaded with
  | error error => simpa [IsProper] using hcomplaint error rfl
  | ok options => simpa using isProper_ofOptions_iff (htexts options rfl)

/-- **An accepted configuration is a usable one,** under the condition that is named. An object, a
file that holds one as the library reads it, and an environment on top of any options give settings
that a server can run with or a complaint, if and only if the options they make are sound; and an
environment with a variable for the port always does. -/
theorem isProper_iff [YamlLibrary] {entries : Entries} {base : Options}
    (hentries : HasTexts entries) (hbase : base.HasTexts) (environment : Environment)
    (path : Text) :
    (IsProper (ofEntries entries) ↔
      ∀ options, optionsOfEntries entries = .ok options → options.IsSound) ∧
    (∀ text identity,
      YamlLibrary.read path (Text.unifyLineEnds text) = .ok (.object identity entries) →
      (IsProper (ofYaml path text) ↔
        ∀ options, optionsOfEntries entries = .ok options → options.IsSound)) ∧
    (IsProper (ofEnvironment environment base) ↔
      ∀ options, applyEnvironment environment base = .ok options → options.IsSound) ∧
    ((environment.get? (variableName .port)).isSome →
      IsProper (ofEnvironment environment base)) := by
  have hobject : IsProper (ofEntries entries) ↔
      ∀ options, optionsOfEntries entries = .ok options → options.IsSound := by
    obtain ⟨options, hoptions, hoptionsTexts⟩ | ⟨error, herror, hcomplaint⟩ :=
      optionsOfEntries_cases hentries
    · exact isProper_bind_ofOptions_iff (by simp [hoptions, hoptionsTexts]) (by simp [hoptions])
    · exact isProper_bind_ofOptions_iff (by simp [herror]) (by simp [herror, hcomplaint])
  have henvironment : IsProper (ofEnvironment environment base) ↔
      ∀ options, applyEnvironment environment base = .ok options → options.IsSound :=
    isProper_bind_ofOptions_iff (fun _ ↦ hasTexts_applyEnvironment hbase)
      fun _ ↦ isComplaint_of_applyEnvironment
  refine ⟨hobject, fun text identity hread ↦ ?_, henvironment, fun hport ↦ ?_⟩
  · have hyaml : ofYaml path text = ofEntries entries := by
      rw [ofYaml, hread]
    rw [hyaml]
    exact hobject
  · obtain ⟨raw, hraw⟩ := Option.isSome_iff_exists.mp hport
    exact henvironment.mpr fun options hoptions ↦
      (hasShortPort_applyEnvironment hraw hoptions).isSound

/-- A port that is an integer, given by itself, in a file and in a variable. -/
theorem isProper_iff_port :
    letI : Stack := .usual
    letI : YamlLibrary := ⟨fun _ text ↦
      if text = "port: 8080" then .ok (.ofEntries [("port", .int 8080)])
      else .error (.malformed [])⟩
    IsProper (ofEntries [("port", .int 8080)]) ∧ IsProper (ofYaml "c.yaml" "port: 8080") ∧
      IsProper (ofEnvironment [] Options.default) ∧
      IsProper (ofEnvironment [("MOCKINGBIRD_PORT", "8080")]
        (Options.default.set .port .null)) := by
  let library : YamlLibrary := ⟨fun _ text ↦
    if text = "port: 8080" then .ok (.ofEntries [("port", .int 8080)])
    else .error (.malformed [])⟩
  have htexts := hasTexts_port (.int 8080)
  have hnull : (Options.default.set .port .null).HasTexts :=
    hasTexts_set hasTexts_default fun hmem ↦ absurd hmem (by decide)
  obtain ⟨hobject, hfile, hdefault, -⟩ := isProper_iff htexts hasTexts_default [] "c.yaml"
  obtain ⟨-, -, -, hport⟩ :=
    isProper_iff htexts hnull [("MOCKINGBIRD_PORT", "8080")] "c.yaml"
  have hread : YamlLibrary.read "c.yaml" (Text.unifyLineEnds "port: 8080")
      = .ok (.ofEntries [("port", .int 8080)]) := rfl
  have hsound (options : Options)
      (hoptions : optionsOfEntries [("port", .int 8080)] = .ok options) : options.IsSound := by
    cases (optionsOfEntries_port (.int 8080)).symm.trans hoptions
    exact Options.HasShortPort.isSound ⟨8080, rfl, by decide⟩
  refine ⟨hobject.mpr hsound, (hfile _ _ hread).mpr hsound, hdefault.mpr ?_, hport (by decide)⟩
  rintro _ ⟨⟩
  exact Options.HasShortPort.isSound ⟨5000, rfl, by decide⟩

/-- A port given as a text is accepted and kept as a text, and what is no integer ends neither
in settings nor in a complaint. -/
theorem ofEntries_port :
    letI : Stack := .usual
    (∃ settings, ofEntries [("port", .text "8080")] = .ok settings ∧
      settings.options .port = .text "8080" ∧ ¬settings.options.IsUsable) ∧
    ofEntries [("port", .null)] = .error (.badType .port) ∧
    ofEntries [("port", .text "abc")] = .error (.failed (.notAnInteger "abc")) := by
  unfold ofEntries
  refine ⟨?_, ?_, ?_⟩
  · rw [optionsOfEntries_port]
    refine ⟨_, rfl, rfl, fun husable ↦ ?_⟩
    obtain ⟨n, hport, -⟩ := husable.port
    cases hport
  · rw [optionsOfEntries_port]
    rfl
  · rw [optionsOfEntries_port]
    rfl

end Settings

end MockApi
