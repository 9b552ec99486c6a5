import MockApi.Table
import MockApi.Text.Digit
import MockApi.Text.Line

/-!
# Grammars of command lines

A command line consists of options and positional arguments in any order. Options have long names,
which may be cut short as long as they stay unambiguous, and some have a single letter besides; a
value follows its option or is attached to it. After a divider everything is positional.

Positional arguments are taken run by run: of every run between options, as many positions are
filled as the run allows, so a position that takes any number of arguments is used up by the first
run that reaches it. What is left over is kept apart.
-/

namespace MockApi.CommandLine

/-- What an option does. -/
inductive OptionKind
  /-- It asks for help. -/
  | help
  /-- It asks for the version. -/
  | version
  /-- It stands for itself. -/
  | switch
  /-- It takes a value, which may not be just any text. -/
  | value (accepts : Text → Bool)

/-- An option of a grammar. -/
structure OptionSpec where
  /-- The long name, with two dashes. -/
  name : Text
  /-- The short name, with one dash and one letter. -/
  short? : Option Text
  /-- What the option does. -/
  kind : OptionKind

/-- How many arguments a position takes. -/
inductive Arity
  | one
  | any
  | atLeastOne
  /-- One argument and everything after it, options and all. -/
  | remainder
deriving DecidableEq, Repr

/-- A grammar of command lines. -/
structure Grammar where
  /-- The options. -/
  options : List OptionSpec
  /-- The positions. -/
  positions : List Arity

/-- Why the arguments of a command line are not used. -/
inductive Stop
  /-- Help was asked for. -/
  | help
  /-- The version was asked for. -/
  | version
  /-- The arguments do not follow the grammar. -/
  | misuse
deriving DecidableEq, Repr

/-- The arguments of a command line, sorted. -/
structure Arguments where
  /-- The names of the switches that were given. -/
  switches : List Text
  /-- The values of options under their names. -/
  values : Table Text
  /-- The arguments of each position that was filled. -/
  positional : List (List Text)
  /-- Whether every position that needs an argument was filled. -/
  complete : Bool
  /-- Arguments that belong nowhere. -/
  extras : List Text
deriving DecidableEq, Repr

/-- No arguments. -/
def Arguments.empty : Arguments := ⟨[], [], [], true, []⟩

/-- A text attached to an option. -/
structure Attached where
  /-- Whether an equals sign stands in between. -/
  marked : Bool
  /-- The text. -/
  text : Text
deriving DecidableEq, Repr

/-- An option that was recognized. -/
structure Recognized where
  /-- The option. -/
  spec : OptionSpec
  /-- Whether its short name was used. -/
  isShort : Bool
  /-- What is attached to it. -/
  attached? : Option Attached

/-- An argument as it is looked at. -/
inductive Word
  /-- An argument that is no option. -/
  | plain (t : Text)
  /-- The divider after which there are no options. -/
  | divider
  /-- An argument that looks like an option, and the option that it is. -/
  | option (t : Text) (recognized? : Option Recognized)

/-- The dash. -/
def dash : Nat := 0x2D

/-- The argument that divides. -/
def dividerText : Text := [dash, dash]

/-- The argument that a word was. -/
def Word.text : Word → Text
  | plain t => t
  | divider => dividerText
  | option t _ => t

/-- Whether a word is an option. -/
def Word.isOption : Word → Bool
  | option .. => true
  | plain _ | divider => false

/-- Whether a word is the divider. -/
def Word.isDivider : Word → Bool
  | divider => true
  | plain _ | option .. => false

/-! ## Recognizing options -/

namespace Grammar

/-- The option of a name, and whether the name is the short one. -/
def find? (grammar : Grammar) (t : Text) : Option (OptionSpec × Bool) :=
  (grammar.options.find? fun spec ↦ spec.name = t || spec.short? = some t).map fun spec ↦
    (spec, spec.name ≠ t)

/-- The options that a long name cut short may stand for. -/
def abbreviated (grammar : Grammar) (t : Text) : List Recognized :=
  let (start, attached?) : Text × Option Attached := match Text.cut? '='.toNat t with
    | some (start, text) => (start, some ⟨true, text⟩)
    | none => (t, none)
  (grammar.options.filter fun spec ↦ start.isPrefixOf spec.name).map (⟨·, false, attached?⟩)

/-- The options that a letter with something attached may stand for. -/
def lettered (grammar : Grammar) (t : Text) : List Recognized :=
  (grammar.options.filter fun spec ↦ spec.short? = some (t.take 2)).map
    (⟨·, true, some ⟨false, t.drop 2⟩⟩)

/-- The option that an argument names, possibly with a value attached after an equals sign. -/
def named? (grammar : Grammar) (t : Text) : Option Recognized :=
  match grammar.find? t, Text.cut? '='.toNat t with
  | some (spec, isShort), _ => some ⟨spec, isShort, none⟩
  | none, some (name, text) =>
    (grammar.find? name).map fun (spec, isShort) ↦ ⟨spec, isShort, some ⟨true, text⟩⟩
  | none, none => none

end Grammar

/-- Whether an argument writes a negative number. A line feed at the end does not count. -/
def isNegativeNumber : Text → Bool
  | [] => false
  | c :: t =>
    let t := Text.dropFinalLineFeed t
    c = dash && (!t.isEmpty && t.all Text.isDigit || match Text.cut? '.'.toNat t with
      | some (whole, fraction) =>
        whole.all Text.isDigit && !fraction.isEmpty && fraction.all Text.isDigit
      | none => false)

/-- An argument in front of the divider as a word. -/
def wordOf (grammar : Grammar) (t : Text) : Except Stop Word :=
  match t with
  | c :: d :: _ =>
    if c ≠ dash then .ok (.plain t)
    else match grammar.named? t with
      | some recognized => .ok (.option t (some recognized))
      | none =>
        match if d = dash then grammar.abbreviated t else grammar.lettered t with
        | [recognized] => .ok (.option t (some recognized))
        | _ :: _ :: _ => .error .misuse
        | [] => .ok (if isNegativeNumber t || t.contains 0x20 then .plain t else .option t none)
  | _ => .ok (.plain t)

/-- The words of a command line. -/
def wordsOf (grammar : Grammar) : List Text → Except Stop (List Word)
  | [] => .ok []
  | t :: ts =>
    if t = dividerText then .ok (.divider :: ts.map .plain)
    else do return (← wordOf grammar t) :: (← wordsOf grammar ts)

/-! ## Options -/

/-- The arguments with an option taken into account, and its value if it takes one. -/
def Arguments.take (arguments : Arguments) (spec : OptionSpec) (value? : Option Text) :
    Except Stop Arguments :=
  match spec.kind, value? with
  | .help, _ => .error .help
  | .version, _ => .error .version
  | .switch, _ => .ok { arguments with switches := arguments.switches ++ [spec.name] }
  | .value accepts, some value =>
    if accepts value then .ok { arguments with values := arguments.values.insert spec.name value }
    else .error .misuse
  | .value _, none => .error .misuse

/-- Whether an option takes a value. -/
def OptionSpec.takesValue (spec : OptionSpec) : Bool :=
  match spec.kind with
  | .value _ => true
  | .help | .version | .switch => false

/-- Options that share one argument. -/
structure Cluster where
  /-- The options in order, with their values. -/
  taken : List (OptionSpec × Option Text)
  /-- The last option, if its value is still to come. -/
  waiting? : Option OptionSpec
  /-- Letters that are no options. -/
  extras : List Text

/-- The options in an argument that begins with an option without a value and goes on with a text.
More options may follow a short name, but not an equals sign. -/
def clusterOf (grammar : Grammar) (spec : OptionSpec) (isShort marked : Bool) :
    Text → Except Stop Cluster
  | [] => .error .misuse
  | c :: t =>
    if !isShort || marked || c = dash then .error .misuse
    else match grammar.find? [dash, c] with
      | none => .ok ⟨[(spec, none)], none, [dash :: c :: t]⟩
      | some (next, _) => do
        let cluster ← match t with
          | [] =>
            if next.takesValue then pure ⟨[], some next, []⟩
            else pure ⟨[(next, none)], none, []⟩
          | d :: u =>
            let isMark : Bool := d = '='.toNat
            if next.takesValue then
              pure ⟨[(next, some (if isMark then u else d :: u))], none, []⟩
            else if isMark then clusterOf grammar next true true u
            else clusterOf grammar next true false (d :: u)
        return { cluster with taken := (spec, none) :: cluster.taken }

/-- The options in an argument. -/
def Recognized.cluster (grammar : Grammar) (recognized : Recognized) : Except Stop Cluster :=
  let spec := recognized.spec
  match recognized.attached? with
  | none => .ok (if spec.takesValue then ⟨[], some spec, []⟩ else ⟨[(spec, none)], none, []⟩)
  | some attached =>
    if spec.takesValue then .ok ⟨[(spec, some attached.text)], none, []⟩
    else clusterOf grammar spec recognized.isShort attached.marked attached.text

/-- The arguments with the options of one argument taken into account, and whether the next word
went into a value. -/
def Arguments.takeCluster (arguments : Arguments) (cluster : Cluster) (next? : Option Word) :
    Except Stop (Arguments × Bool) := do
  let (last, took) ← match cluster.waiting?, next? with
    | none, _ => pure ([], false)
    | some spec, some (.plain value) => pure ([(spec, some value)], true)
    | some _, _ => throw .misuse
  let arguments ← (cluster.taken ++ last).foldlM (fun arguments (spec, value?) ↦
    arguments.take spec value?) { arguments with extras := arguments.extras ++ cluster.extras }
  return (arguments, took)

/-! ## Positions -/

/-- The words that a position takes from the start, and those after them. -/
def Arity.split? (arity : Arity) (words : List Word) : Option (List Word × List Word) :=
  let dividers := words.takeWhile Word.isDivider
  let others := words.dropWhile Word.isDivider
  match arity, others with
  | .any, _ => some (words.takeWhile (!·.isOption), words.dropWhile (!·.isOption))
  | .one, .plain t :: rest =>
    some (dividers ++ .plain t :: rest.takeWhile Word.isDivider, rest.dropWhile Word.isDivider)
  | .atLeastOne, .plain _ :: _ =>
    some (words.takeWhile (!·.isOption), words.dropWhile (!·.isOption))
  | .remainder, .plain _ :: _ => some (words, [])
  | _, _ => none

/-- The arguments that a position gets for its words; the first divider is not one of them, unless
everything is taken. -/
def Arity.arguments (arity : Arity) (words : List Word) : List Text :=
  match arity with
  | .remainder => words.map Word.text
  | .one | .any | .atLeastOne => (words.map Word.text).erase dividerText

/-- What filling positions from the start of some words leaves. -/
structure Filling where
  /-- The arguments of the positions that were filled. -/
  filled : List (List Text)
  /-- The positions that were not. -/
  left : List Arity
  /-- The words that were not taken. -/
  words : List Word

/-- Fills positions from the start of some words, as many as possible. -/
def fill : List Arity → List Word → Filling
  | [], words => ⟨[], [], words⟩
  | arity :: arities, words =>
    match arity.split? words with
    | none => ⟨[], arity :: arities, words⟩
    | some (taken, rest) =>
      let filling := fill arities rest
      { filling with filled := arity.arguments taken :: filling.filled }

/-! ## Command lines -/

/-- Whether a position needs an argument. -/
def Arity.isRequired : Arity → Bool
  | one | atLeastOne => true
  | any | remainder => false

/-- The arguments after all words: what takes no arguments is filled, the rest is left over. -/
def Arguments.finish (arguments : Arguments) (arities : List Arity) (words : List Word) :
    Arguments :=
  let filling := fill arities words
  { arguments with
    positional := arguments.positional ++ filling.filled
    complete := !filling.left.any Arity.isRequired
    extras := arguments.extras ++ filling.words.map Word.text }

/-- Sorts words into arguments; `steps` bounds the number of options and runs. -/
def sort (grammar : Grammar) :
    Nat → List Arity → List Word → Arguments → Except Stop Arguments
  | 0, arities, words, arguments => .ok (arguments.finish arities words)
  | steps + 1, arities, words, arguments =>
    match words.takeWhile (!·.isOption), words.dropWhile (!·.isOption) with
    | _, [] => .ok (arguments.finish arities words)
    | [], .option _ (some recognized) :: rest => do
      let cluster ← recognized.cluster grammar
      let (arguments, took) ← arguments.takeCluster cluster rest.head?
      sort grammar steps arities (if took then rest.tail else rest) arguments
    | [], word :: rest =>
      sort grammar steps arities rest { arguments with extras := arguments.extras ++ [word.text] }
    | run, rest =>
      let filling := fill arities words
      let arguments := { arguments with positional := arguments.positional ++ filling.filled }
      if filling.words.length < words.length then
        sort grammar steps filling.left filling.words arguments
      else sort grammar steps filling.left rest
        { arguments with extras := arguments.extras ++ run.map Word.text }

/-- The arguments of a command line under a grammar. -/
def Grammar.parse (grammar : Grammar) (line : List Text) : Except Stop Arguments := do
  let words ← wordsOf grammar line
  sort grammar words.length grammar.positions words .empty

/-- Nothing is taken from an empty line, and a position that needs an argument is not filled. -/
theorem fill_nil_of_required {arity : Arity} (h : arity.isRequired = true) (arities : List Arity) :
    fill (arity :: arities) [] = ⟨[], arity :: arities, []⟩ := by
  cases arity <;> simp_all [Arity.isRequired, fill, Arity.split?]

end MockApi.CommandLine
