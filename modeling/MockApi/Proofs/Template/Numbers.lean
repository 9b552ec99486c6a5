import MockApi.Proofs.Number.ScriptText
import MockApi.Proofs.Table
import MockApi.Proofs.Template.Alone
import MockApi.Proofs.Template.Documents
import MockApi.Proofs.Value.Document

/-!
# Doubles in templates

A double in the body is written in one notation by the placeholder of its entry and in another one
as part of the whole body. Both are close to the number texts of JavaScript, and here it is told
exactly for which doubles they have the same text as JavaScript, and for which as each other.
-/

namespace MockApi

variable {stack : Stack}

namespace Value

theorem toText_double (x : Double) : (double x).toText = .ok (DoubleNotation.display.write x) := by
  rw [toText, double, textWithin]
  rfl

/-- A finite double as a document. -/
theorem documentText_double (negative : Bool) (m : Nat) (e : Int) :
    (double (.finite negative m e)).documentText
      = DoubleNotation.document.write (.finite negative m e) := by
  have hready : (double (.finite negative m e)).ready = jsonNumber (.finite negative m e) := rfl
  have hinteger : DoubleNotation.document.integer? (.finite negative m e)
      = (Double.finite negative m e).toInt?.filter (·.natAbs < Double.tenTo 21) := rfl
  rw [documentText, hready, jsonNumber, if_neg (by simp [Double.isNaN, Double.isInfinite]),
    DoubleNotation.write, hinteger]
  cases (Double.finite negative m e).toInt?.filter (·.natAbs < Double.tenTo 21) <;> rfl

theorem writable_double (x : Double) : (double x).Writable :=
  ⟨nestedWithin_of_scalar rfl, hasShortIntegers_of_scalar rfl (by simp [int, double])⟩

theorem toJson_double (negative : Bool) (m : Nat) (e : Int) :
    (double (.finite negative m e)).toJson
      = .ok (DoubleNotation.document.write (.finite negative m e)) := by
  rw [toJson_eq (writable_double _), documentText_double]

end Value

/-- A double in the notation of substituted values brings no brace along. -/
theorem notMem_write_display {x : Double} :
    Template.openBrace ∉ DoubleNotation.display.write x := by
  intro hmem
  refine DoubleNotation.forall_mem_write (p := (· ≠ Template.openBrace)) (fun c hc ↦ ?_)
    (by decide) (by decide) (by decide) x _ hmem rfl
  rintro rfl
  exact absurd hc (by decide)

namespace Template

variable {mode : RenderMode} {identity : Nat} {entries : Entries} {name : Text}
  {context : RequestContext} {x : Double}

/-- The placeholder of a double in the body. -/
theorem render_entry_double (hbody : context.body = .object identity entries)
    (hget : entries.get? name = some (.double x)) (hname : IsPlainName name)
    (hwritable : ∀ v ∈ written mode (Reference.entry .body name).spelled context, v.Writable) :
    render mode (Reference.entry .body name).spelled context
      = .ok (DoubleNotation.display.write x) := by
  have hplain : (Reference.entry .body name).IsPlain := fun _ hsome ↦ Option.some.inj hsome ▸ hname
  have hvalue : replacement? context (Reference.entry .body name).piece = some (.double x) := by
    have hentries : entriesOf (context.get .body) = entries := by
      rw [RequestContext.get, hbody]
      rfl
    change (entriesOf (context.get .body)).get? name = some (.double x)
    rw [hentries, hget]
  have hhuge : context.body.isHuge = false := by
    rw [hbody]
    rfl
  have htext : replacementText (Reference.entry .body name).piece (.double x)
      = DoubleNotation.display.write x := by
    change (Value.double x).toText.toOption.getD [] = _
    rw [Value.toText_double]
    rfl
  have hbrace : openBrace ∉ replacementText (Reference.entry .body name).piece (.double x) :=
    htext ▸ notMem_write_display
  rw [render_spelled mode hplain hvalue
    (fun _ hpart ↦ hbrace (hpart.subset List.mem_cons_self)) hhuge hwritable, htext]

/-- The placeholder of an object as the body. -/
theorem render_body_object (hbody : context.body = .object identity entries)
    (hwritable : ∀ v ∈ written mode (Reference.whole .body).spelled context, v.Writable)
    (hbraces : mode = .sequential → ¬[openBrace, openBrace] <:+: context.body.documentText) :
    render mode (Reference.whole .body).spelled context = .ok context.body.documentText := by
  have hplain : (Reference.whole .body).IsPlain := fun _ hsome ↦ by cases hsome
  have hvalue : replacement? context (Reference.whole .body).piece = some context.body := by
    have htruthy : context.body.isTruthy = true := by
      rw [hbody]
      rfl
    exact if_pos htruthy
  have htext : replacementText (Reference.whole .body).piece context.body
      = context.body.documentText := by
    change context.body.toJson.toOption.getD [] = _
    rw [Value.toJson_eq (hwritable _ (mem_written_spelled hplain hvalue))]
    rfl
  have hhuge : context.body.isHuge = false := by
    rw [hbody]
    rfl
  rw [render_spelled mode hplain hvalue (by rwa [htext]) hhuge hwritable, htext]

end Template

/-- **Doubles as JavaScript writes them.** The shortest decimal of a double decides. A substituted
value has the text of JavaScript unless the point stands four or five zeros in front of the digits,
where an exponent is used too early, or the double is whole and not what its shortest decimal is,
since whole numbers below `10 ^ 21` are written in full. A document has the text of JavaScript
unless the point stands four to eight zeros in front, where an exponent has a zero too many as well,
or the double is whole as before. The two have the same text but for those four to eight zeros. In
either mode the placeholder of an entry becomes the one text, and the placeholder of the body, if
the other entries bring no placeholder along, becomes a document with the other one. -/
theorem double_texts {m : Nat} {e : Int} (h : Double.IsCanonical m e) (negative : Bool) :
    let x : Double := .finite negative m e
    let d := Double.shortest m e
    let plain := DoubleNotation.display.write x
    let json := DoubleNotation.document.write x
    let inFull := ∀ n : Nat, (n : ℚ) = m * 2 ^ e → n < Double.tenTo 21 → d.value = n
    Double.IsShortest m e d ∧ (Value.double x).toText = .ok plain ∧
      (Value.double x).toJson = .ok json ∧
      (plain = x.scriptText ↔ inFull ∧ ¬(-5 ≤ d.point ∧ d.point ≤ -4)) ∧
      (json = x.scriptText ↔ inFull ∧ ¬(-8 ≤ d.point ∧ d.point ≤ -4)) ∧
      (plain = json ↔ ¬(-8 ≤ d.point ∧ d.point ≤ -4)) ∧
      (∀ n : Nat, (n : ℚ) = m * 2 ^ e → n < Double.twoTo 53 →
        plain = x.scriptText ∧ json = x.scriptText) ∧
      ∀ (mode : RenderMode) (identity : Nat) (entries : Entries) (name : Text)
        (context : RequestContext), context.body = .object identity entries →
        entries.names.Nodup → (name, Value.double x) ∈ entries →
        let entry := (Template.Reference.entry .body name).spelled
        let body := (Template.Reference.whole .body).spelled
        (Template.IsPlainName name → (∀ v ∈ Template.written mode entry context, v.Writable) →
          Template.render mode entry context = .ok plain) ∧
        ((∀ v ∈ Template.written mode body context, v.Writable) →
          (mode = .sequential →
            ¬[Template.openBrace, Template.openBrace] <:+: context.body.documentText) →
          Template.render mode body context = .ok context.body.documentText) ∧
        context.body.documentText
          = 0x7B :: (Text.join [','.toNat] (entries.map Value.entryDocument) ++ [0x7D]) ∧
        Value.entryDocument (name, .double x) = Json.writeKey .compact name ++ json := by
  intro x d plain json inFull
  have hplain : plain = x.scriptText ↔ inFull ∧ ¬(-5 ≤ d.point ∧ d.point ≤ -4) :=
    DoubleNotation.write_eq_scriptText_iff rfl
      (fun _ ↦ DoubleNotation.writeDecimal_display_iff) h
  have hjson : json = x.scriptText ↔ inFull ∧ ¬(-8 ≤ d.point ∧ d.point ≤ -4) :=
    DoubleNotation.write_eq_scriptText_iff rfl (fun _ ↦ DoubleNotation.writeDecimal_json_iff) h
  refine ⟨Double.isShortest_shortest h, Value.toText_double x, Value.toJson_double negative m e,
    hplain, hjson, DoubleNotation.write_display_eq_document_iff h, fun n hn hlt ↦ ?_,
    fun mode identity entries name context hbody hnames hentry ↦ ⟨fun hname hwritable ↦ ?_,
      fun hwritable hbraces ↦ Template.render_body_object hbody hwritable hbraces, ?_, ?_⟩⟩
  · -- up to 53 bits a whole number is its own shortest decimal
    have hsmall : n < Double.tenTo 21 := hlt.trans (by decide)
    have hpoint : 1 ≤ d.point := Double.one_le_point_shortest h hn hsmall
    have hvalue : inFull := fun i hi _ ↦ by
      rw [hi, ← hn]
      exact Double.value_shortest_of_lt h hn hlt
    exact ⟨hplain.mpr ⟨hvalue, by omega⟩, hjson.mpr ⟨hvalue, by omega⟩⟩
  · exact Template.render_entry_double hbody (Table.get?_of_mem hnames hentry) hname hwritable
  · rw [hbody, Value.documentText_object]
  · rw [Value.entryDocument, Value.documentText_double]

/-- One hundred-thousandth in a body. JavaScript writes it without an exponent. -/
theorem double_texts_small :
    letI : Stack := .usual
    let x : Double := .finite false 5902958103587057 (-69)
    let context : RequestContext := ⟨.ofEntries [], .ofEntries [], .ofEntries [("a", .double x)]⟩
    Double.IsCanonical 5902958103587057 (-69) ∧ Double.IsShortest 5902958103587057 (-69) ⟨1, -5⟩ ∧
      (Value.double x).toText ≠ .ok x.scriptText ∧ (Value.double x).toJson ≠ .ok x.scriptText ∧
      (Value.double x).toText ≠ (Value.double x).toJson ∧
      (∀ mode, Template.render mode "\x7b\x7bbody.a\x7d\x7d" context = .ok "1e-5") ∧
      ∀ mode, Template.render mode "\x7b\x7bbody\x7d\x7d" context = .ok "\x7b\"a\":1e-05\x7d" := by
  intro x context
  let stack : Stack := .usual
  have hread : Double.ofDecimal false 1 (-5) = x := by decide +kernel
  have hcanonical : Double.IsCanonical 5902958103587057 (-69) :=
    Double.isCanonical_of_ofDecimal hread
  have hshortest : Double.shortest 5902958103587057 (-69) = ⟨1, -5⟩ := by decide +kernel
  have hpoint : (⟨1, -5⟩ : Double.Decimal).point = -4 := by decide
  have hdisplay : DoubleNotation.display.write x = "1e-5" := by decide +kernel
  obtain ⟨hdigits, htext, hjson, hplain, hdocument, hsame, -, hrender⟩ :=
    double_texts hcanonical false
  rw [hshortest] at hdigits hplain hdocument hsame
  rw [hpoint] at hplain hdocument hsame
  have hbody : context.body.documentText = "\x7b\"a\":1e-05\x7d" := by decide +kernel
  have hwritable (mode : RenderMode) (template : Text) :
      ∀ v ∈ Template.written mode template context, v.Writable := by
    have hobject : context.body.Writable :=
      ⟨fun entry hentry ↦ List.mem_singleton.mp hentry ▸ Value.nestedWithin_of_scalar rfl,
        Value.hasShortIntegers_object.mpr fun entry hentry ↦
          List.mem_singleton.mp hentry ▸ (Value.writable_double x).short⟩
    have hall : ∀ v ∈ Template.written .sequential template context, v.Writable :=
      List.forall_mem_cons.mpr ⟨Value.writable_double x, List.forall_mem_singleton.mpr hobject⟩
    cases mode with
    | sequential => exact hall
    | singlePass =>
      intro v hv
      obtain ⟨piece, -, hpiece⟩ := List.mem_filterMap.mp hv
      exact hall v (Template.mem_written_of_replacement? hpiece)
  rw [htext, hjson]
  refine ⟨hcanonical, hdigits, fun heq ↦ ?_, fun heq ↦ ?_, fun heq ↦ ?_, fun mode ↦ ?_,
    fun mode ↦ ?_⟩
  · exact (hplain.mp (Except.ok.inj heq)).2 (by decide)
  · exact (hdocument.mp (Except.ok.inj heq)).2 (by decide)
  · exact hsame.mp (Except.ok.inj heq) (by decide)
  · obtain ⟨hentry, -⟩ := hrender mode 0 _ "a" context rfl (by decide) List.mem_cons_self
    rw [← hdisplay]
    exact hentry (by decide) (hwritable mode _)
  · obtain ⟨-, hwhole, -⟩ := hrender mode 0 _ "a" context rfl (by decide) List.mem_cons_self
    rw [hbody] at hwhole
    exact hwhole (hwritable mode _) fun _ ↦ by decide +kernel

/-- Where numbers are not written like in JavaScript: a small number that needs no exponent, a whole
number beyond 53 bits, and an exponent of one digit in a document. -/
theorem double_texts_differ :
    letI : Stack := .usual
    (Double.scriptText (.finite false 5902958103587057 (-69)) = "0.00001" ∧
      (Value.double (.finite false 5902958103587057 (-69))).toText = .ok "1e-5") ∧
    (Double.scriptText (.finite false 4503599627370496 8) = "1152921504606847000" ∧
      (Value.double (.finite false 4503599627370496 8)).toText = .ok "1152921504606846976" ∧
      (Value.double (.finite false 4503599627370496 8)).toJson = .ok "1152921504606846976") ∧
    Double.scriptText (.finite false 7555786372591432 (-76)) = "1e-7" ∧
      (Value.double (.finite false 7555786372591432 (-76))).toText = .ok "1e-7" ∧
      (Value.double (.finite false 7555786372591432 (-76))).toJson = .ok "1e-07" := by
  refine ⟨⟨?_, ?_⟩, ⟨?_, ?_, ?_⟩, ?_, ?_, ?_⟩ <;> decide +kernel

end MockApi
