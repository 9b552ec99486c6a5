import MockApi.Proofs.Json.Reading
import MockApi.Proofs.Table
import MockApi.Proofs.Template.Commutation

/-!
# Parameters between quotation marks

A template that puts quotation marks around a parameter is safe for exactly those texts that stand
inside a document as they are. Any other text breaks the document, or the document has another
value.

That no text gets around this is a matter of length. A text that is read is no longer than what was
written for it, and only as long if it was written as it is. So if the parameter closes its mark
early or holds an escape, no text in the rest of the document is long enough to be it.
-/

namespace MockApi

variable {stack : Stack}

namespace Json

variable {t s rest : Text} {value : Value} {namesNonFinite : Bool} {size levels : Nat}

/-! ## Lengths of texts that are read -/

theorem length_pushUnit_le (done : Text) (afterHigh : Bool) (unit : Nat) :
    (pushUnit done afterHigh unit).length ≤ done.length + 1 := by
  unfold pushUnit
  split
  · split <;> simp
  · simp

/-- **A text is no longer than what was written for it.** It is as long only if it stands there as
it is: every escape is longer than what it stands for. -/
theorem exists_of_readText {opening : Nat} {done : Text} {afterHigh : Bool}
    (h : readText opening done afterHigh t = .ok (s, rest)) :
    ∃ raw, t = raw ++ Text.quotationMark :: rest ∧ s.length ≤ done.length + raw.length ∧
      (s.length = done.length + raw.length → Unescaped raw ∧ s = done.reverse ++ raw) := by
  fun_induction readText opening done afterHigh t with
  | case1 | case3 | case5 | case7 | case8 | case10 => cases h
  | case2 done afterHigh rest' =>
    obtain ⟨rfl, rfl⟩ := Prod.mk.inj (Except.ok.inj h)
    exact ⟨[], rfl, by simp, fun _ ↦ ⟨List.forall_mem_nil _, (List.append_nil _).symm⟩⟩
  | case4 done afterHigh c rest' hmark hcontrol hbackslash ih =>
    obtain ⟨raw, rfl, hle, heq⟩ := ih h
    rw [List.length_cons] at hle heq
    refine ⟨c :: raw, rfl, by rw [List.length_cons]; omega, fun hlength ↦ ?_⟩
    obtain ⟨hraw, rfl⟩ := heq (by rw [hlength, List.length_cons]; omega)
    have hc : 0x20 ≤ c ∧ c ≠ Text.quotationMark ∧ c ≠ Text.backslash :=
      ⟨Nat.le_of_not_lt hcontrol, hmark, hbackslash⟩
    exact ⟨List.forall_mem_cons.mpr ⟨hc, hraw⟩, by simp⟩
  | case6 done afterHigh escape _ _ _ a b c d next rest' unit _ ih =>
    -- six code points stand for one, or for the second half of one
    obtain ⟨raw, heq, hle, -⟩ := ih h
    have hdone := length_pushUnit_le done afterHigh unit
    have hlength : (escape :: 'u'.toNat :: a :: b :: c :: d :: raw).length = raw.length + 6 := rfl
    exact ⟨escape :: 'u'.toNat :: a :: b :: c :: d :: raw, by rw [heq]; rfl, by omega,
      fun _ ↦ by omega⟩
  | case9 done afterHigh escape _ _ _ letter rest' _ c _ ih =>
    obtain ⟨raw, rfl, hle, -⟩ := ih h
    rw [List.length_cons] at hle
    have hlength : (escape :: letter :: raw).length = raw.length + 2 := rfl
    exact ⟨escape :: letter :: raw, rfl, by omega, fun _ ↦ by omega⟩

/-! ## Texts among other values -/

theorem readScalar_ne_text : readScalar namesNonFinite t ≠ .ok (.text s, rest) := by
  intro h
  rcases exists_of_readScalar h with ⟨entry, hentry, htext⟩ | ⟨-, x, htext⟩ | ⟨_, _, -, h⟩
  · have hscalar : ∀ entry ∈ literals, entry.2 ≠ .text s := by simp [literals]
    exact hscalar _ hentry htext.symm
  · cases htext
  · rcases exists_of_readNumber h with ⟨n, htext, -⟩ | ⟨x, htext⟩
    · cases htext
    · cases htext

/-- A text is read from between quotation marks. -/
theorem exists_of_readValue_text
    (h : readValue namesNonFinite size levels t = .ok (.text s, rest)) :
    ∃ raw, t = Text.quotationMark :: (raw ++ Text.quotationMark :: rest) ∧ s.length ≤ raw.length ∧
      (s.length = raw.length → Unescaped raw ∧ s = raw) := by
  cases readsAs_of_readValue h with
  | text htext =>
    obtain ⟨raw, rfl, hle, heq⟩ := exists_of_readText htext
    simp only [List.length_nil, Nat.zero_add, List.reverse_nil, List.nil_append] at hle heq
    exact ⟨raw, rfl, hle, heq⟩
  | scalar hscalar => exact absurd hscalar readScalar_ne_text

theorem exists_eq_text_of_readValue
    (h : readValue namesNonFinite size levels (Text.quotationMark :: t) = .ok (value, rest)) :
    ∃ s, value = .text s := by
  rw [readValue_mark] at h
  obtain ⟨⟨s, rest'⟩, -, h⟩ := bind_eq_ok_iff.mp h
  exact ⟨s, (Prod.mk.inj (Except.ok.inj h)).1.symm⟩

theorem length_lt_of_readValue_text
    (h : readValue namesNonFinite size levels t = .ok (.text s, rest)) : s.length < t.length := by
  obtain ⟨raw, rfl, hle, -⟩ := exists_of_readValue_text h
  simp only [List.length_cons, List.length_append]
  omega

/-- The entries that are read are at least one, and texts among them are shorter than what they are
read from. -/
theorem exists_of_readEntries {n : Nat} {done entries : List (Text × Value)}
    (h : readEntries (readValue namesNonFinite size levels) n done t = .ok (entries, rest)) :
    ∃ new, entries = done.reverse ++ new ∧ new ≠ [] ∧
      ∀ entry ∈ new, ∀ s, entry.2 = .text s → s.length < t.length := by
  induction n generalizing done t with
  | zero => cases h
  | succ n ih =>
    obtain ⟨key, value, t', left, hsuffix, hvalue, hend⟩ :=
      exists_of_readEntries_succ (fun _ ↦ walks_readValue) h
    have hfirst : ∀ s, value = .text s → s.length < t.length := by
      rintro s rfl
      exact Nat.lt_of_lt_of_le (length_lt_of_readValue_text hvalue) hsuffix.length_le
    rcases hend with rfl | ⟨t'', hsuffix', hrest⟩
    · exact ⟨[(key, value)], List.reverse_cons, List.cons_ne_nil _ _,
        List.forall_mem_singleton.mpr hfirst⟩
    · obtain ⟨new, rfl, -, hnew⟩ := ih hrest
      refine ⟨(key, value) :: new, by simp, List.cons_ne_nil _ _,
        List.forall_mem_cons.mpr ⟨hfirst, fun entry hentry s hs ↦ ?_⟩⟩
      exact Nat.lt_of_lt_of_le (hnew entry hentry s hs) hsuffix'.length_le

/-! ## An object with one text -/

/-- The text `v`, as it is, between quotation marks under `id`, and a closing brace. -/
def quotedEntry (v : Text) : Text := "\"id\":\"" ++ (v ++ "\"\x7d")

/-- The document of an object with the text `v`, as it is, between quotation marks under `id`. -/
def quotedId (v : Text) : Text := 0x7B :: quotedEntry v

/-- The object with the text `v` under `id`. -/
def idObject (v : Text) : Value := .ofEntries [("id", .text v)]

theorem isPlain_idObject (v : Text) : (idObject v).IsPlain (fun _ ↦ True) (· = v) :=
  .object (by simp [Table.names]) (fun _ _ ↦ trivial) (List.forall_mem_singleton.mpr (.text rfl))

theorem nestedWithin_idObject (v : Text) {levels : Nat} (h : 0 < levels) :
    (idObject v).NestedWithin levels := by
  cases levels with
  | zero => cases h
  | succ levels => exact List.forall_mem_singleton.mpr (Value.nestedWithin_of_scalar rfl)

theorem Unescaped.compactText_idObject {v : Text} (h : Unescaped v) :
    compactText (idObject v) = quotedId v := by
  have hkey : writeKey .compact "id" = Text.ofString "\"id\":" := rfl
  rw [idObject, Value.ofEntries, compactText_object, List.map_singleton, Text.join, entryText, hkey,
    compactText, h.writeText_eq]
  simp [quotedId, quotedEntry, Text.ofString, Text.quotationMark]

/-- The reader finds the key and goes on behind the colon. -/
theorem readEntries_quotedId {item : Text → Except JsonFault (Value × Text)} {n : Nat} (v : Text) :
    readEntries item (n + 1) [] (quotedEntry v)
      = item (Text.quotationMark :: (v ++ "\"\x7d")) >>= fun (value, t) ↦ match skipSpace t with
        | c :: rest =>
          if c = 0x7D then .ok ([(Text.ofString "id", value)], rest)
          else if c = ','.toNat then
            readEntries item n [(Text.ofString "id", value)] (skipSpace rest)
          else fault .expectedComma (c :: rest)
        | [] => fault .expectedComma [] := by
  have hstart : StartsValue (Text.quotationMark :: (v ++ "\"\x7d")) :=
    ⟨_, _, rfl, by decide, by decide, by decide⟩
  have hkey : readKey (quotedEntry v) = .ok ("id", _) :=
    readKey_writeKey "id" hstart
  rw [readEntries, hkey]
  rfl

/-- No text but one that stands as it is gets past the marks around it. -/
theorem unescaped_of_readEntries {v : Text} {written : List (Text × Value)} {n : Nat}
    (h : readEntries (readValue namesNonFinite size levels) (n + 1) []
      (quotedEntry v) = .ok (written, rest))
    (hlast : written.getLast? = some (Text.ofString "id", .text v)) : Unescaped v := by
  rw [readEntries_quotedId] at h
  obtain ⟨⟨value, t⟩, hvalue, h⟩ := bind_eq_ok_iff.mp h
  obtain ⟨s, rfl⟩ := exists_eq_text_of_readValue hvalue
  obtain ⟨raw, heq, hle, hself⟩ := exists_of_readValue_text hvalue
  have hlength : v.length + 2 = raw.length + t.length + 1 := by
    have hlength := congrArg List.length heq
    simp [Text.ofString] at hlength
    omega
  dsimp only at h
  split at h
  · rename_i c t' hskip
    have hrest : t'.length < t.length := by
      have hle := (skipSpace_suffix t).length_le
      rw [hskip, List.length_cons] at hle
      exact hle
    split at h
    · -- the only entry is the text between the marks, as long as what was written there
      obtain ⟨rfl, -⟩ := Prod.mk.inj (Except.ok.inj h)
      obtain ⟨-, hs⟩ := Prod.mk.inj (Option.some.inj hlast)
      obtain rfl := Value.text.inj hs
      obtain ⟨hraw, rfl⟩ := hself (by omega)
      exact hraw
    · split at h
      · -- what is left for further entries is too short
        obtain ⟨new, rfl, hne, hnew⟩ := exists_of_readEntries h
        rw [List.getLast?_append_of_ne_nil _ hne] at hlast
        have hlt := hnew _ (List.mem_of_getLast? hlast) v rfl
        have hskip' := (skipSpace_suffix t').length_le
        omega
      · cases h
  · cases h

/-- The document is read entry by entry, with one level less than there are. -/
theorem read_quotedId (v : Text) : read namesNonFinite (quotedId v)
    = readEntries (readValue namesNonFinite (v.length + 9) (Stack.reading - 1)) (v.length + 9) []
        (quotedEntry v) >>= fun found ↦
          if (skipSpace found.2).isEmpty then .ok (.ofEntries (Table.ofList found.1))
          else fault .extraData (skipSpace found.2) := by
  have hlength : (quotedId v).length = v.length + 9 := by
    simp [quotedId, quotedEntry, Text.ofString]
  have hentry : skipSpace (quotedEntry v)
      = Text.quotationMark :: ("id\":\"" ++ (v ++ "\"\x7d")) := rfl
  have hskip : skipSpace (quotedId v) = 0x7B :: quotedEntry v := rfl
  have hself : skipSpace (quotedEntry v) = quotedEntry v := rfl
  have hmark : ¬(quotedId v).head? = some 0xFEFF := by rw [quotedId, List.head?_cons]; decide
  have hlevels : Stack.reading = Stack.reading - 1 + 1 :=
    (Nat.sub_add_cancel Stack.reading_pos).symm
  rw [read, if_neg hmark, readDocument, hskip, hlength, hlevels,
    readValue_brace hentry (by decide), hself, ← hlevels]
  cases readEntries (readValue namesNonFinite (v.length + 9) (Stack.reading - 1)) (v.length + 9) []
    (quotedEntry v) with
  | error fault => rfl
  | ok found => rfl

/-- **Which texts are safe between quotation marks.** Reading gives the object with the text back if
and only if the text stands as it is. -/
theorem read_quotedId_eq_ok_iff {v : Text} :
    read false (quotedId v) = .ok (idObject v) ↔ Unescaped v := by
  constructor
  · intro h
    rw [read_quotedId] at h
    obtain ⟨⟨written, rest⟩, hwritten, h⟩ := bind_eq_ok_iff.mp h
    dsimp only at h
    split at h
    · have hentries := Except.ok.inj h
      simp only [idObject, Value.ofEntries, Value.object.injEq, true_and] at hentries
      exact unescaped_of_readEntries hwritten (Table.getLast?_of_ofList_eq_singleton hentries)
    · cases h
  · intro h
    rw [← h.compactText_idObject, read_compactText (isPlain_idObject v)]
    exact okIf_of (nestedWithin_idObject v Stack.reading_pos)

/-! ## Texts that nest too deep -/

/-- A bracket more than there are levels is one too many. -/
theorem readValue_replicate (t : Text) : readValue namesNonFinite (size + 1) levels
    (List.replicate (levels + 1) '['.toNat ++ t) = .error (.failed .nestingTooDeep) := by
  induction levels with
  | zero => rfl
  | succ levels ih =>
    rw [List.replicate_succ, List.cons_append]
    have hskip : skipSpace (List.replicate (levels + 1) '['.toNat ++ t)
        = '['.toNat :: (List.replicate levels '['.toNat ++ t) := rfl
    have hself : skipSpace (List.replicate (levels + 1) '['.toNat ++ t)
        = List.replicate (levels + 1) '['.toNat ++ t := rfl
    rw [readValue_bracket hskip (by decide), hself, readItems, ih]
    rfl

/-- A text that closes the mark and puts brackets behind an entry of its own. -/
def bracketsBehind (n : Nat) : Text := "\",\"\":" ++ List.replicate n '['.toNat

theorem not_unescaped_bracketsBehind (n : Nat) : ¬Unescaped (bracketsBehind n) := fun h ↦
  absurd (h Text.quotationMark (by simp [bracketsBehind, Text.ofString, Text.quotationMark]))
    (by decide)

theorem read_bracketsBehind {n : Nat} (hn : Stack.reading ≤ n) :
    read namesNonFinite (quotedId (bracketsBehind n)) = .error (.failed .nestingTooDeep) := by
  obtain ⟨k, rfl⟩ := Nat.exists_eq_add_of_le hn
  have hbrackets : bracketsBehind (Stack.reading + k) ++ "\"\x7d"
      = Text.quotationMark :: ','.toNat :: (writeKey .compact []
        ++ (List.replicate (Stack.reading - 1 + 1) '['.toNat
          ++ (List.replicate k '['.toNat ++ "\"\x7d"))) := by
    rw [bracketsBehind, List.replicate_add, List.append_assoc, List.append_assoc,
      Nat.sub_add_cancel Stack.reading_pos]
    rfl
  have hstart (t : Text) : StartsValue (List.replicate (Stack.reading - 1 + 1) '['.toNat ++ t) :=
    ⟨_, _, List.cons_append, by decide, by decide, by decide⟩
  rw [read_quotedId, readEntries_quotedId, hbrackets, readValue_mark, readText_mark]
  -- behind the comma stands the key of an entry, and its value has one bracket too many
  have hskip (t : Text) : skipSpace (writeKey .compact [] ++ t) = writeKey .compact [] ++ t := rfl
  have hcomma (t : Text) : skipSpace (','.toNat :: t) = ','.toNat :: t := rfl
  simp only [ok_bind, hcomma]
  rw [if_neg (by decide), if_pos trivial, hskip, readEntries, readKey_writeKey [] (hstart _),
    ok_bind]
  dsimp only
  rw [readValue_replicate]
  rfl

end Json

namespace Template

open Json

/-! ## The template -/

/-- The template of an object with a parameter of the path between quotation marks. -/
def idTemplate : Text := "\x7b\"id\":\"\x7b\x7bpath.id\x7d\x7d\"\x7d"

variable {context : RequestContext} {v : Text}

theorem becomes_idTemplate (hid : (entriesOf context.path).get? "id" = some (.text v)) :
    Becomes context idTemplate True (quotedId v) := by
  have hshape : IsPlaceholder .path (some "id") "\x7b\x7bpath.id\x7d\x7d" :=
    @IsPlaceholder.entry .path [] "id" (List.forall_mem_nil _) (by decide)
  have hpiece : renderPiece context context.body.isTruthy
      (.placeholder .path (some "id") "\x7b\x7bpath.id\x7d\x7d")
        = okIf True .nestingTooDeep v := by
    rw [okIf_of trivial, Piece.placeholder, renderPiece, RequestContext.get, hid]
    exact Value.toReplacement_text v
  have hentry :=
    (becomes_of_isPlaceholder hshape hpiece).append_verbatim (u := "\"\x7d") (by decide)
  exact (hentry.verbatim_append (t := "\"id\":\"") (by decide)).brace (by decide)

theorem render_idTemplate (hid : (entriesOf context.path).get? "id" = some (.text v))
    (hbody : context.body.isHuge = false) :
    render .singlePass idTemplate context = .ok (quotedId v) := by
  rw [render, renderSinglePass_eq_fillIn hbody, (becomes_idTemplate hid).fillIn_eq, okIf_of trivial]

/-- The body is what is read from the document with the parameter in it. -/
theorem body_idTemplate_eq (hid : (entriesOf context.path).get? "id" = some (.text v))
    (hbody : context.body.isHuge = false) (status delay : Nat) :
    Dispatch.body .singlePass ⟨status, delay, idTemplate⟩ context
      = match read false (quotedId v) with
        | .ok value => .ok (.ok value)
        | .error (.failed .nestingTooDeep) => .error .nestingTooDeep
        | .error fault =>
          .ok (.error (.notJson status (quotedId v)
            ((faultMessage? (quotedId v) fault).getD []))) := by
  rw [Dispatch.body]
  dsimp only
  rw [render_idTemplate hid hbody]
  rfl

/-- **The boundary of safe quoting.** The parameter takes the place of the placeholder as it is. The
response has the object with the parameter for its body if and only if the parameter stands as it is
in a document. With any other parameter, the response is no JSON or has another body, unless the
parameter opens so many brackets that the document is nested beyond the limit. -/
theorem body_idTemplate (hid : (entriesOf context.path).get? "id" = some (.text v))
    (hbody : context.body.isHuge = false) (status delay : Nat) :
    let body := Dispatch.body .singlePass ⟨status, delay, idTemplate⟩ context
    render .singlePass idTemplate context = .ok (quotedId v) ∧
      (body = .ok (.ok (idObject v)) ↔ Unescaped v) ∧
      (¬Unescaped v →
        (∃ reason, body = .ok (.error (.notJson status (quotedId v) reason))) ∨
        (∃ value, value ≠ idObject v ∧ body = .ok (.ok value)) ∨
        (Stack.reading ≤ openings v ∧ body = .error .nestingTooDeep)) := by
  intro body
  have heq : body = _ := body_idTemplate_eq hid hbody status delay
  have hobject : Json.read false (quotedId v) = .ok (idObject v) ↔ Unescaped v :=
    read_quotedId_eq_ok_iff
  refine ⟨render_idTemplate hid hbody, ?_, fun hescaped ↦ ?_⟩
  · rw [heq, ← hobject]
    split
    · rename_i value hread
      simp [hread]
    · rename_i hread
      simp [hread]
    · rename_i hread
      simp [hread]
  · rw [heq]
    split
    · rename_i value hread
      refine .inr (.inl ⟨value, ?_, rfl⟩)
      rintro rfl
      exact hescaped (hobject.mp hread)
    · rename_i hread
      have hmany := lt_openings_of_read hread
      have hopenings : openings (quotedId v) = openings v + 1 := by
        simp [openings, quotedId, quotedEntry, Text.ofString, List.countP_append]
      exact .inr (.inr ⟨by omega, rfl⟩)
    · exact .inl ⟨_, rfl⟩

/-- A parameter that closes its mark and repeats the key: the object has another text. -/
theorem body_idTemplate_repeated :
    letI : Stack := .usual
    let v : Text := "1\",\"id\":\"2"
    let context : RequestContext := ⟨.ofEntries [("id", .text v)], .ofEntries [], .null⟩
    (entriesOf context.path).get? "id" = some (.text v) ∧ context.body.isHuge = false ∧
      Dispatch.body .singlePass ⟨200, 0, idTemplate⟩ context ≠ .ok (.ok (idObject v)) := by
  intro v context
  let stack : Stack := .usual
  have hid : (entriesOf context.path).get? "id" = some (.text v) := rfl
  have hescaped : ¬Unescaped v := by decide
  exact ⟨hid, rfl, fun h ↦ hescaped ((body_idTemplate hid rfl 200 0).2.1.mp h)⟩

/-- A parameter with as many brackets as there are levels leaves the request without a result. -/
theorem body_idTemplate_brackets :
    letI : Stack := .usual
    let v : Text := bracketsBehind Stack.reading
    let context : RequestContext := ⟨.ofEntries [("id", .text v)], .ofEntries [], .null⟩
    ¬Unescaped v ∧
      Dispatch.body .singlePass ⟨200, 0, idTemplate⟩ context = .error .nestingTooDeep := by
  intro v context
  let stack : Stack := .usual
  refine ⟨not_unescaped_bracketsBehind Stack.reading, ?_⟩
  rw [body_idTemplate_eq (v := v) rfl rfl, read_bracketsBehind (Nat.le_refl _)]

end Template

end MockApi
