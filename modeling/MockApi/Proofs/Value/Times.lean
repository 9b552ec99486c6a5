import MockApi.Proofs.Json.Sending

/-!
# Values that are the same but for times

Registered endpoints and reports on a server carry times, and two servers that are otherwise alike
differ in them. Times are texts under certain names, or numbers under others if they are measured.
Whether a value can be sent, and how writing it fails, does not depend on them.
-/

namespace MockApi

/-- A text for a time: it is not empty and can be sent. -/
structure Text.IsTime (t : Text) : Prop where
  /-- The text is not empty. -/
  ne_nil : t ≠ []
  /-- The text can be sent. -/
  isEncodable : t.IsEncodable

namespace Value

/-- Two values of which either both are the same or both are times. -/
inductive SameTime : Value → Value → Prop
  /-- Both are the same. -/
  | refl (value : Value) : SameTime value value
  /-- Both are times. -/
  | times {t u : Text} (ht : t.IsTime) (hu : u.IsTime) : SameTime (.text t) (.text u)

/-- The names under which times stand. -/
def timeNames : List Text := ["createdAt", "updatedAt", "timestamp", "start_time"]

/-- The names under which measured times stand: how long a server has been counting requests, and
how long the dispatch of a request took. -/
def measureNames : List Text := ["uptime_seconds", "latencyMs"]

/-- Two values that are the same, apart from times under the names of times. -/
inductive SameButTimes : Value → Value → Prop
  /-- A value is the same as itself. -/
  | refl (value : Value) : SameButTimes value value
  /-- Differences may add up. -/
  | trans {value other another : Value} (h : SameButTimes value other)
    (h' : SameButTimes other another) : SameButTimes value another
  /-- An item of a list may differ in times. -/
  | item {identity : Nat} {before after : List Value} {value other : Value}
    (h : SameButTimes value other) :
    SameButTimes (.list identity (before ++ value :: after))
      (.list identity (before ++ other :: after))
  /-- An entry of an object may differ in times. -/
  | entry {identity : Nat} {before after : List (Text × Value)} {name : Text} {value other : Value}
    (h : SameButTimes value other) :
    SameButTimes (.object identity (before ++ (name, value) :: after))
      (.object identity (before ++ (name, other) :: after))
  /-- A time under one of the names may be any other time. -/
  | time {identity : Nat} {before after : List (Text × Value)} {name : Text} {value other : Value}
    (hname : name ∈ timeNames) (h : SameTime value other) :
    SameButTimes (.object identity (before ++ (name, value) :: after))
      (.object identity (before ++ (name, other) :: after))
  /-- A measured time under one of the names may be any other one. -/
  | measure {identity : Nat} {before after : List (Text × Value)} {name : Text} {x y : Double}
    (hname : name ∈ measureNames) (hx : Number.IsSendable (.double x))
    (hy : Number.IsSendable (.double y)) :
    SameButTimes (.object identity (before ++ (name, .double x) :: after))
      (.object identity (before ++ (name, .double y) :: after))

theorem SameTime.isVacant_eq {value other : Value} (h : value.SameTime other) :
    value.isVacant = other.isVacant := by
  cases h with
  | refl => rfl
  | times ht hu =>
    exact (List.isEmpty_eq_false_iff.mpr ht.ne_nil).trans
      (List.isEmpty_eq_false_iff.mpr hu.ne_nil).symm

/-- Lists are the same but for times if their items are. -/
theorem SameButTimes.ofItems {items others : List Value}
    (h : List.Forall₂ SameButTimes items others) :
    (ofItems items).SameButTimes (ofItems others) := by
  suffices hbehind : ∀ before, (Value.ofItems (before ++ items)).SameButTimes
      (Value.ofItems (before ++ others)) from hbehind []
  induction h with
  | nil => exact fun before ↦ .refl _
  | @cons item other items others hitem _ ih =>
    intro before
    have hrest := ih (before ++ [other])
    rw [List.append_assoc, List.append_assoc] at hrest
    exact .trans (.item hitem) hrest

/-- Two entries with the same name and values that may differ in times. -/
inductive SameEntry : Text × Value → Text × Value → Prop
  /-- The values are the same but for times. -/
  | value {name : Text} {value other : Value} (h : SameButTimes value other) :
    SameEntry (name, value) (name, other)
  /-- The values are times. -/
  | time {name : Text} {value other : Value} (hname : name ∈ timeNames)
    (h : SameTime value other) : SameEntry (name, value) (name, other)
  /-- The values are measured times. -/
  | measure {name : Text} {x y : Double} (hname : name ∈ measureNames)
    (hx : Number.IsSendable (.double x)) (hy : Number.IsSendable (.double y)) :
    SameEntry (name, .double x) (name, .double y)

@[simp] theorem SameEntry.refl (entry : Text × Value) : SameEntry entry entry :=
  .value (.refl entry.2)

/-- Objects are the same but for times if their entries are. -/
theorem SameButTimes.ofEntries {entries others : Entries}
    (h : List.Forall₂ SameEntry entries others) :
    (ofEntries entries).SameButTimes (ofEntries others) := by
  suffices hbehind : ∀ before, (Value.ofEntries (before ++ entries)).SameButTimes
      (Value.ofEntries (before ++ others)) from hbehind []
  induction h with
  | nil => exact fun before ↦ .refl _
  | @cons entry other entries others hentry _ ih =>
    intro before
    have hrest := ih (before ++ [other])
    rw [List.append_assoc, List.append_assoc] at hrest
    refine .trans ?_ hrest
    cases hentry with
    | value h => exact .entry h
    | time hname h => exact .time hname h
    | measure hname hx hy => exact .measure hname hx hy

end Value

namespace Json

/-! ## Writing -/

/-- Two documents that both can be sent or both not. -/
def AlikeSendable (t u : Text) : Prop := t.IsEncodable ↔ u.IsEncodable

/-- Two values that are written alike at every depth. -/
def WrittenAlike (value other : Value) : Prop :=
  ∀ levels depth, Agree AlikeSendable (writeWithin .standard levels depth value)
    (writeWithin .standard levels depth other)

theorem WrittenAlike.refl (value : Value) : WrittenAlike value value :=
  fun _ _ ↦ .refl (fun t ↦ (Iff.rfl : AlikeSendable t t)) _

theorem alikeSendable_bracketed {depth opening closing : Nat} {items others : List Text}
    (hopening : Text.isSurrogate opening = false) (hclosing : Text.isSurrogate closing = false)
    (h : List.Forall₂ AlikeSendable items others) :
    AlikeSendable (bracketed .standard depth opening closing items)
      (bracketed .standard depth opening closing others) := by
  rw [AlikeSendable, isEncodable_bracketed hopening hclosing,
    isEncodable_bracketed hopening hclosing]
  induction h with
  | nil => exact Iff.rfl
  | cons hitem _ ih =>
    rw [List.forall_mem_cons, List.forall_mem_cons]
    exact and_congr hitem ih

/-- Putting another value in place of an item changes nothing if the two are written alike. -/
theorem WrittenAlike.item {identity : Nat} {before after : List Value} {value other : Value}
    (h : WrittenAlike value other) :
    WrittenAlike (.list identity (before ++ value :: after))
      (.list identity (before ++ other :: after)) := by
  intro levels depth
  cases levels with
  | zero => exact .error _
  | succ levels =>
    rw [writeWithin, writeWithin]
    refine (Agree.mapM ?_).bind fun _ _ hitems ↦
      .ok (alikeSendable_bracketed (by decide) (by decide) hitems)
    refine List.rel_append (List.forall₂_same.mpr fun item _ ↦ ?_)
      (.cons (h levels (depth + 1)) (List.forall₂_same.mpr fun item _ ↦ ?_)) <;>
    exact WrittenAlike.refl item levels (depth + 1)

/-- Putting another value under a name changes nothing if the two are written alike. -/
theorem WrittenAlike.entry {identity : Nat} {before after : List (Text × Value)} {name : Text}
    {value other : Value} (h : WrittenAlike value other) :
    WrittenAlike (.object identity (before ++ (name, value) :: after))
      (.object identity (before ++ (name, other) :: after)) := by
  intro levels depth
  cases levels with
  | zero => exact .error _
  | succ levels =>
    rw [writeWithin, writeWithin]
    refine (Agree.mapM ?_).bind fun _ _ hentries ↦
      .ok (alikeSendable_bracketed (by decide) (by decide) hentries)
    have hentry (key : Text) {value other : Value} (h : WrittenAlike value other) :
        Agree AlikeSendable
          (writeWithin .standard levels (depth + 1) value >>= fun t ↦
            .ok (writeKey .standard key ++ t))
          (writeWithin .standard levels (depth + 1) other >>= fun t ↦
            .ok (writeKey .standard key ++ t)) := by
      refine (h levels (depth + 1)).bind fun t u htu ↦ .ok ?_
      rw [AlikeSendable, Text.isEncodable_append, Text.isEncodable_append]
      exact and_congr_right' htu
    refine List.rel_append (List.forall₂_same.mpr fun entry _ ↦ ?_)
      (.cons (hentry name h) (List.forall₂_same.mpr fun entry _ ↦ ?_)) <;>
    exact hentry entry.1 (.refl entry.2)

/-- Times are written alike. -/
theorem writtenAlike_of_sameTime {value other : Value} (h : value.SameTime other) :
    WrittenAlike value other := by
  cases h with
  | refl => exact .refl _
  | times ht hu =>
    intro levels depth
    rw [writeWithin, writeWithin]
    exact .ok (iff_of_true (isEncodable_writeText.mpr ht.isEncodable)
      (isEncodable_writeText.mpr hu.isEncodable))

/-- Measured times are written alike. -/
theorem writtenAlike_double {x y : Double} (hx : Number.IsSendable (.double x))
    (hy : Number.IsSendable (.double y)) : WrittenAlike (.double x) (.double y) := by
  obtain ⟨t, ht, hsent⟩ := exists_writeNumber_standard_iff.mpr hx
  obtain ⟨u, hu, hsent'⟩ := exists_writeNumber_standard_iff.mpr hy
  intro levels depth
  rw [Value.double, Value.double, writeWithin, writeWithin, ht, hu]
  exact .ok (iff_of_true hsent hsent')

/-- Values that are the same but for times are written alike: both can be sent, or both documents
hold surrogates, or writing fails alike. -/
theorem writtenAlike_of_sameButTimes {value other : Value} (h : value.SameButTimes other) :
    WrittenAlike value other := by
  induction h with
  | refl value => exact .refl value
  | trans _ _ ih ih' =>
    intro levels depth
    have htrans (t u v : Text) (h : AlikeSendable t u) (h' : AlikeSendable u v) :
        AlikeSendable t v := Iff.trans h h'
    exact (ih levels depth).trans htrans (ih' levels depth)
  | item _ ih => exact ih.item
  | entry _ ih => exact ih.entry
  | time _ h => exact (writtenAlike_of_sameTime h).entry
  | measure _ hx hy => exact (writtenAlike_double hx hy).entry

end Json

end MockApi
