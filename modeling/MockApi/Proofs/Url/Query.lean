import MockApi.Proofs.Table
import MockApi.Proofs.Text.Span
import MockApi.Proofs.Url.Percent
import MockApi.Url.Basic

/-!
# Queries that were written

A query is written from pairs of texts, each side percent-encoded. Reading it takes the same way
back in three steps: the parts between ampersands are the pairs, the equals sign in a part divides
its two sides, and each side is decoded. None of the separators can be in what is encoded, so no
step goes wrong whatever the texts are.

What is read is the table of the pairs that have something on both sides.
-/

namespace MockApi.Url

open Percent (encode)
open Text (IsScalarText)

/-! ## Writing -/

/-- A pair as it is written in a query. -/
def writePair (pair : Text × Text) : Text := encode pair.1 ++ '='.toNat :: encode pair.2

/-- The query that pairs are written as. -/
def writeQuery (pairs : List (Text × Text)) : Text := Text.join ['&'.toNat] (pairs.map writePair)

/-- Whether a pair has something on both sides. -/
def isFull (pair : Text × Text) : Bool := pair.1 ≠ [] && pair.2 ≠ []

/-- A pair of texts of scalar values. -/
def IsScalarPair (pair : Text × Text) : Prop := pair.1.IsScalarText ∧ pair.2.IsScalarText

instance (pair : Text × Text) : Decidable (IsScalarPair pair) :=
  inferInstanceAs (Decidable (_ ∧ _))

variable {pair : Text × Text} {pairs : List (Text × Text)}

/-- A written pair holds its equals sign and what encoding leaves. -/
theorem notMem_writePair (h : IsScalarPair pair) {c : Nat} (hc : Percent.isWritten c = false)
    (hequals : c ≠ '='.toNat) : c ∉ writePair pair := by
  intro hmem
  rcases List.mem_append.mp hmem with hmem | hmem
  · exact Percent.notMem_encode h.1 hc hmem
  · rcases List.mem_cons.mp hmem with hmem | hmem
    · exact hequals hmem
    · exact Percent.notMem_encode h.2 hc hmem

theorem notMem_writeQuery (h : ∀ pair ∈ pairs, IsScalarPair pair) {c : Nat}
    (hc : Percent.isWritten c = false) (hequals : c ≠ '='.toNat) (hamp : c ≠ '&'.toNat) :
    c ∉ writeQuery pairs := by
  intro hmem
  obtain ⟨part, hpart, hmem⟩ := (Text.mem_join_iff hamp).mp hmem
  obtain ⟨pair, hpair, rfl⟩ := List.mem_map.mp hpart
  exact notMem_writePair (h pair hpair) hc hequals hmem

/-! ## Reading -/

/-- A written pair is read as its parameter, unless one of its sides is empty. -/
theorem parameter?_writePair (h : IsScalarPair pair) : parameter? (writePair pair) =
    if isFull pair then some (pair.1, parameterValue pair.2) else none := by
  have hequals : Percent.isWritten '='.toNat = false := by decide
  have hname : '='.toNat ∉ encode pair.1 := Percent.notMem_encode h.1 hequals
  have hvalue : '='.toNat ∉ encode pair.2 := Percent.notMem_encode h.2 hequals
  rw [parameter?, writePair, Text.splitOn_append_sep hname, Text.splitOn_of_notMem hvalue]
  dsimp only
  rw [Percent.decode_encode h.1, Percent.decode_encode h.2]
  by_cases hfull : isFull pair = true
  · rw [if_pos hfull, if_neg]
    simpa [isFull] using hfull
  · rw [if_neg hfull, if_pos]
    simpa [isFull, or_iff_not_imp_left] using hfull

/-- The parts of a written query are the pairs; without pairs there is one part that gives
nothing. -/
theorem filterMap_splitOn_writeQuery (h : ∀ pair ∈ pairs, IsScalarPair pair) :
    (Text.splitOn '&'.toNat (writeQuery pairs)).filterMap parameter? =
      (pairs.map writePair).filterMap parameter? := by
  cases pairs with
  | nil => rfl
  | cons pair pairs =>
    rw [writeQuery, Text.splitOn_join (by simp)]
    intro part hpart
    obtain ⟨pair, hpair, rfl⟩ := List.mem_map.mp hpart
    exact notMem_writePair (h pair hpair) (by decide) (by decide)

theorem filterMap_parameter?_writePair (h : ∀ pair ∈ pairs, IsScalarPair pair) :
    (pairs.map writePair).filterMap parameter? =
      (pairs.filter isFull).map fun pair ↦ (pair.1, parameterValue pair.2) := by
  induction pairs with
  | nil => rfl
  | cons pair pairs ih =>
    obtain ⟨hpair, hpairs⟩ := List.forall_mem_cons.mp h
    rw [List.map_cons, List.filterMap_cons, parameter?_writePair hpair, ih hpairs]
    by_cases hfull : isFull pair = true
    · rw [if_pos hfull, List.filter_cons_of_pos hfull, List.map_cons]
    · rw [if_neg hfull, List.filter_cons_of_neg hfull]

/-- A written query is read as the table of the pairs with something on both sides. -/
theorem queryParameters_append_writeQuery {path : Text} (hpath : '?'.toNat ∉ path)
    (h : ∀ pair ∈ pairs, IsScalarPair pair) :
    queryParameters (path ++ '?'.toNat :: writeQuery pairs) =
      Table.ofList ((pairs.filter isFull).map fun pair ↦
        (pair.1, parameterValue pair.2)) := by
  have hfragment : '#'.toNat ∉ writeQuery pairs :=
    notMem_writeQuery h (by decide) (by decide) (by decide)
  rw [queryParameters, query?, Text.cut?_append hpath]
  dsimp only [Option.map_some]
  rw [Text.before_eq_self hfragment, parameters, filterMap_splitOn_writeQuery h,
    filterMap_parameter?_writePair h]

/-- **Reading a query undoes writing it.** The names are those of the pairs with something on both
sides, in the order in which they come first, and each name has its last value, as the number that
the value writes if there is one. Pairs with an empty side make no difference, wherever they
stand. -/
theorem queryParameters_write {path : Text} (hpath : '?'.toNat ∉ path)
    {pairs : List (Text × Text)} (h : ∀ pair ∈ pairs, IsScalarPair pair) :
    let full := pairs.filter isFull
    let read := queryParameters (path ++ '?'.toNat :: writeQuery pairs)
    read.names = (full.map Prod.fst).eraseDups ∧
      ∀ name, read.get? name = (full.reverse.lookup name).map fun value ↦
        (Number.ofText? value).elim (.text value) .number := by
  have hvalue (value : Text) : parameterValue value =
      (Number.ofText? value).elim (.text value) .number := by
    unfold parameterValue
    cases Number.ofText? value <;> rfl
  intro full read
  have hread : read = Table.ofList (full.map fun pair ↦ (pair.1, parameterValue pair.2)) :=
    queryParameters_append_writeQuery hpath h
  constructor
  · rw [hread, Table.names_ofList, List.map_map]
    rfl
  · intro name
    simp only [← hvalue]
    rw [hread, Table.get?_ofList, ← List.map_reverse]
    exact Table.get?_map parameterValue full.reverse name

/-- Names and values may hold separators and anything else; of two values of a name the last one
counts, and it is a number here. -/
theorem queryParameters_write_orders :
    let pairs : List (Text × Text) := [("größe & 100%", "a=b+c#?"), ("page", "first"), ("", "x"),
      ("page", "0x10"), ("empty", "")]
    let read := queryParameters ("/orders?" ++ writeQuery pairs)
    '?'.toNat ∉ Text.ofString "/orders" ∧ (∀ pair ∈ pairs, IsScalarPair pair) ∧
      read.names = [("größe & 100%" : Text), "page"] ∧
      read.get? "größe & 100%" = some (.text "a=b+c#?") ∧ read.get? "page" = some (.int 16) := by
  intro pairs read
  have hpath : '?'.toNat ∉ Text.ofString "/orders" := by decide
  have hpairs : ∀ pair ∈ pairs, IsScalarPair pair := by decide
  obtain ⟨hnames, hvalues⟩ := queryParameters_write hpath hpairs
  exact ⟨hpath, hpairs, hnames.trans (by decide), (hvalues _).trans rfl, (hvalues _).trans rfl⟩

end MockApi.Url
