import MockApi.Proofs.Condition.Levels
import MockApi.Proofs.Template.Alone
import MockApi.Proofs.Url.Query
import MockApi.Proofs.Value.Equality

/-!
# Integers of queries

An integer that a URL brings in its query goes four ways: it is read as the value of a parameter,
compared with what a condition writes, put in the place of a placeholder, and coerced from its text
and to it. None of them takes it for a double on the way, so it is the same integer at the end of
each, whatever its size, up to the limit on the digits that can be written and read.
-/

namespace MockApi

variable {stack : Stack}

/-! ## In conditions -/

namespace Expr

/-- An integer in a condition. A negative one is the negation of a literal. -/
def ofInt (n : Int) : Expr :=
  if n < 0 then unary .negate (literal (.number (.int (-n)))) else literal (.number (.int n))

theorem evaluateWithin_ofInt (bindings : Bindings) (levels : Nat) (n : Int) :
    (ofInt n).evaluateWithin bindings (levels + 2) = .ok (.int n) := by
  unfold ofInt
  split
  · have hvalue : (unary .negate (literal (.number (.int (-n))))).evaluateWithin bindings
        (levels + 2) = .ok (.int (- -n)) := rfl
    rw [hvalue, Int.neg_neg]
  · rfl

end Expr

/-- What writes an integer spells it in a condition, too. -/
theorem Spells.ofInt {n : Int} (h : IsShort n) :
    ∃ levels ≤ 2, Spells (Text.ofInt n) .unary levels (Expr.ofInt n) := by
  have hliteral {m : Int} (hm : 0 ≤ m) (hshort : IsShort m) :
      Spells (Text.ofInt m) .unary 1 (.literal (.number (.int m))) := by
    have hprintable : (Literal.number (.int m)).Printable := ⟨hm, hshort⟩
    exact (Spells.literal hprintable).loosen (by decide)
  by_cases hnegative : n < 0
  · have hminus := (hliteral (m := -n) (by omega) (h.mono (by omega))).unary .negate
    have htext : Text.ofInt n = UnaryOp.negate.symbol.spelling ++ Text.ofInt (-n) := by
      rw [Text.ofInt, if_pos hnegative, Text.ofInt, if_neg (by omega), Int.natAbs_neg]
      rfl
    rw [Expr.ofInt, if_pos hnegative, htext]
    exact ⟨2, Nat.le_refl 2, hminus⟩
  · rw [Expr.ofInt, if_neg hnegative]
    exact ⟨1, by decide, hliteral (by omega) h⟩

namespace Condition

/-- The comparison of a parameter with an integer. -/
theorem compile_query_ofInt {n : Int} (h : IsShort n) :
    compile ("query.k === " ++ Text.ofInt n) = .ok ⟨"query.k === " ++ Text.ofInt n,
      .binary .strictEqual (.member (.name .query) (.literal (.text "k"))) (Expr.ofInt n)⟩ := by
  have hproperty : Spells "query.k" (.chain .equality) 1
      (.member (.name .query) (.literal (.text "k"))) :=
    (Spells.property .query (by decide) (by decide) (by decide)).loosen (by decide)
  obtain ⟨levels, hle, hint⟩ := Spells.ofInt h
  have hoperand : Spells (Text.ofInt n) Level.equality.operandKind levels (Expr.ofInt n) :=
    hint.loosen (by decide)
  have hgap : ∀ c ∈ (↑" " : Text), Text.isBlank c = true := by decide
  exact (hproperty.operator hgap (.binary .strictEqual) hoperand).compile_of_le_four (by omega)

/-- An integer equals itself. -/
theorem evaluate_query_ofInt {n : Int} {identity : Nat} {bindings : Bindings} (source : Text)
    (h : bindings.query = .object identity [("k", .int n)]) :
    evaluate ⟨source, .binary .strictEqual (.member (.name .query) (.literal (.text "k")))
      (Expr.ofInt n)⟩ bindings = .ok (.bool true) := by
  have hequal : (Value.int n).strictEquals (.int n) = true :=
    Number.equals_iff.mpr ⟨_, rfl, rfl⟩
  have hvalue (stack : Stack) :
      (Value.object identity [("k", .int n)]).property (.text "k") = .ok (.int n) := by
    rw [Value.property, Value.toText_text]
    rfl
  have hproperty : (Expr.member (.name .query) (.literal (.text "k"))).evaluateWithin bindings 3 =
      .ok (.int n) := by
    simp only [Expr.evaluateWithin, ok_bind, Bindings.get, h]
    exact hvalue _
  have hwithin : (Expr.binary .strictEqual (.member (.name .query) (.literal (.text "k")))
      (Expr.ofInt n)).evaluateWithin bindings 4 = .ok (.bool true) := by
    rw [Expr.evaluateWithin, hproperty, Expr.evaluateWithin_ofInt, ok_bind, ok_bind]
    exact congrArg (Except.ok ∘ Value.bool) hequal
  rw [evaluate, Expr.evaluate_of_evaluateWithin_four hwithin]
  rfl

end Condition

/-! ## In queries, placeholders and coercions -/

variable {n : Int}

theorem isUnreserved_of_mem_ofInt {c : Nat} (h : c ∈ Text.ofInt n) :
    Percent.isUnreserved c = true := by
  rcases Text.eq_or_isAsciiDigit_of_mem_ofInt h with rfl | hdigit
  · decide
  · rw [Percent.isUnreserved, hdigit]
    simp

/-- A written integer is read as the value of a parameter. -/
theorem Url.queryParameters_ofInt (h : IsShort n) :
    queryParameters ("/p?k=" ++ Text.ofInt n) = [(("k" : Text), Value.int n)] := by
  have hname : (↑"k" : Text).IsScalarText := by decide
  have hscalar : IsScalarPair ("k", Text.ofInt n) := by
    refine ⟨hname, fun c hc ↦ ?_⟩
    have hwritten : Percent.isWritten c = true := by
      rw [Percent.isWritten, isUnreserved_of_mem_ofInt hc, Bool.true_or]
    have hascii := Percent.isAscii_of_isWritten hwritten
    refine ⟨by omega, ?_⟩
    simp only [Text.isSurrogate, Bool.and_eq_false_imp, decide_eq_true_eq, decide_eq_false_iff_not]
    omega
  have hquery : writeQuery [("k", Text.ofInt n)] = "k=" ++ Text.ofInt n := by
    have hpair : writePair ("k", Text.ofInt n) = "k=" ++ Percent.encode (Text.ofInt n) := rfl
    rw [writeQuery, List.map_singleton, hpair,
      Percent.encode_eq_self fun c ↦ isUnreserved_of_mem_ofInt]
    rfl
  have hpath : '?'.toNat ∉ (↑"/p" : Text) := by decide
  have hread := queryParameters_append_writeQuery hpath (List.forall_mem_singleton.mpr hscalar)
  have hfull : isFull ("k", Text.ofInt n) = true := by
    simp [isFull, Text.ofInt_ne_nil]
    decide
  rw [hquery, List.filter_cons_of_pos hfull] at hread
  have hvalue : parameterValue (Text.ofInt n) = .int n := by
    rw [parameterValue, Number.ofText?_ofInt h]
    rfl
  exact hread.trans (congrArg (fun value ↦ [(("k" : Text), value)]) hvalue)

theorem toText_int (h : IsShort n) : (Value.int n).toText = .ok (Text.ofInt n) := by
  rw [Value.toText, Value.int, Value.textWithin]
  exact if_pos h

theorem entryText_int (h : IsShort n) : Template.entryText (.int n) = Text.ofInt n := by
  have htext : (Value.int n).toReplacement = .ok (Text.ofInt n) := toText_int h
  rw [Template.entryText, htext]
  rfl

/-- The placeholder of a parameter by itself becomes the integer in either mode, if everything that
is written besides can be. -/
theorem Template.render_query_int {identity : Nat} {context : RequestContext} (mode : RenderMode)
    (h : IsShort n) (hquery : context.query = .object identity [("k", .int n)])
    (hbody : context.body.isHuge = false)
    (hwritable : ∀ v ∈ written mode "\x7b\x7bquery.k\x7d\x7d" context, v.Writable) :
    render mode "\x7b\x7bquery.k\x7d\x7d" context = .ok (Text.ofInt n) := by
  let reference : Reference := .entry .query "k"
  have hplain : reference.IsPlain := fun name hname ↦ Option.some.inj hname ▸ by decide
  have hvalue : replacement? context reference.piece = some (.int n) := by
    have hentries : context.get .query = .object identity [("k", .int n)] := hquery
    change (entriesOf (context.get .query)).get? "k" = some (.int n)
    rw [hentries]
    rfl
  have htext : replacementText reference.piece (.int n) = Text.ofInt n := entryText_int h
  have hbraces : ¬[openBrace, openBrace] <:+: replacementText reference.piece (.int n) := by
    rw [htext]
    intro hpart
    have hmem : openBrace ∈ Text.ofInt n := hpart.subset List.mem_cons_self
    exact absurd (isUnreserved_of_mem_ofInt hmem) (by decide)
  rw [← htext]
  exact render_spelled mode hplain hvalue (fun _ ↦ hbraces) hbody hwritable

theorem Value.looseEquals_int_text (h : IsShort n) :
    (Value.int n).looseEquals (.text (Text.ofInt n)) = .ok true := by
  have hnumber : numberOfText (Text.ofInt n) = .int n := by
    rw [numberOfText, Number.ofText?_ofInt h, Option.getD_some]
  have hequal : (Number.int n).equals (.int n) = true := Number.equals_iff.mpr ⟨_, rfl, rfl⟩
  have hloose : (Value.int n).looseEquals (.text (Text.ofInt n)) =
      .ok ((Number.int n).equals (numberOfText (Text.ofInt n))) := rfl
  rw [hloose, hnumber, hequal]

/-- **Integers come through unchanged.** An integer that a query writes is read as itself, a
condition that compares it with what is written holds, its placeholder becomes what was written, in
either mode and with anything else in the request that can be written, and coercion takes the
integer to its text and back. -/
theorem int_preserved {n : Int} (h : IsShort n) :
    let written : Text := Text.ofInt n
    let read : Entries := Url.queryParameters ("/p?k=" ++ written)
    let source : Text := "query.k === " ++ written
    let template : Text := "\x7b\x7bquery.k\x7d\x7d"
    read = [(("k" : Text), Value.int n)] ∧
      (∃ condition, Condition.compile source = .ok condition ∧
        condition.tree =
          .binary .strictEqual (.member (.name .query) (.literal (.text "k"))) (Expr.ofInt n) ∧
        ∀ (identity : Nat) (bindings : Bindings), bindings.query = .object identity read →
          condition.evaluate bindings = .ok (.bool true) ∧ condition.test bindings = .ok true) ∧
      (∀ (identity : Nat) (context : RequestContext) (mode : RenderMode),
        context.query = .object identity read → context.body.isHuge = false →
        (∀ value ∈ Template.written mode template context, value.Writable) →
        Template.render mode template context = .ok written) ∧
      (Value.int n).toText = .ok written ∧ Number.ofText? written = some (.int n) ∧
      (Value.int n).looseEquals (.text written) = .ok true ∧
      (Value.text written).looseEquals (.int n) = .ok true := by
  intro written read source template
  have hread : read = [(("k" : Text), Value.int n)] := Url.queryParameters_ofInt h
  have hloose := @Value.looseEquals_int_text stack n h
  rw [hread]
  refine ⟨rfl, ⟨_, Condition.compile_query_ofInt h, rfl, fun identity bindings hquery ↦ ?_⟩,
    fun identity context mode hquery ↦ Template.render_query_int mode h hquery, toText_int h,
    Number.ofText?_ofInt h, hloose, (Value.looseEquals_comm _ _).trans hloose⟩
  have hvalue := @Condition.evaluate_query_ofInt stack _ _ _ source hquery
  refine ⟨hvalue, ?_⟩
  rw [Condition.test, hvalue]
  rfl

/-- A negative integer that is no double, in a request with a path parameter of its own and a body
that brings the placeholder of the integer along. -/
theorem int_preserved_no_double :
    letI : Stack := .usual
    let n : Int := -9007199254740993
    let written : Text := "-9007199254740993"
    let context : RequestContext := ⟨.ofEntries [("k", .int 1)], .ofEntries [("k", .int n)],
      .text "\x7b\x7bquery.k\x7d\x7d"⟩
    IsShort n ∧ Url.queryParameters ("/p?k=" ++ written) = [(("k" : Text), Value.int n)] ∧
      (∃ condition, Condition.compile ("query.k === " ++ written) = .ok condition ∧
        condition.test context.bindings = .ok true) ∧
      (∀ mode, Template.render mode "\x7b\x7bquery.k\x7d\x7d" context = .ok written) ∧
      (Value.int n).looseEquals (.text written) = .ok true := by
  intro n written context
  have hshort : IsShort n := by decide +kernel
  have hwritten : Text.ofInt n = written := by decide +kernel
  obtain ⟨hread, ⟨condition, hcompile, -, htest⟩, hrender, -, -, hloose, -⟩ :=
    @int_preserved .usual _ hshort
  rw [hread] at htest hrender
  rw [hwritten] at hread hcompile hrender hloose
  have hint {m : Int} (hm : IsShort m) : @Value.Writable .usual (.int m) :=
    Value.writable_iff.mpr ⟨Value.nestedWithin_of_scalar rfl, Value.hasShortIntegers_int.mpr hm⟩
  have hwritable : ∀ value ∈ Template.written .sequential "\x7b\x7bquery.k\x7d\x7d" context,
      @Value.Writable .usual value := by
    refine List.forall_mem_cons.mpr ⟨hint (by decide), List.forall_mem_cons.mpr ⟨hint hshort, ?_⟩⟩
    refine List.forall_mem_singleton.mpr (Value.writable_iff.mpr
      ⟨Value.nestedWithin_of_scalar rfl, ?_⟩)
    exact Value.hasShortIntegers_of_scalar rfl (by simp [Value.int])
  refine ⟨hshort, hread, ⟨condition, hcompile, (htest 2 _ rfl).2⟩, fun mode ↦ ?_, hloose⟩
  refine hrender 0 context mode rfl rfl fun value hvalue ↦ ?_
  cases mode with
  | sequential => exact hwritable value hvalue
  | singlePass =>
    obtain ⟨piece, -, hpiece⟩ := List.mem_filterMap.mp hvalue
    exact hwritable value (Template.mem_written_of_replacement? hpiece)

end MockApi
