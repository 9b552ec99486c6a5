import MockApi.Table

/-!
# Files and their paths

Files are found by their paths, which are compared in a normal form: empty parts and parts that
stand for the same directory are dropped. What a file holds is told by the suffix of its name.
-/

namespace MockApi.File

/-- The slash between the parts of a path. -/
def separator : Nat := 0x2F

/-- The dot, which stands in front of a suffix and for the same directory. -/
def dot : Nat := 0x2E

/-- The parts of a path that count. -/
def parts (path : Text) : List Text :=
  (Text.splitOn separator path).filter fun part ↦ part ≠ [] && part ≠ [dot]

/-- What an absolute path begins with: one slash, or two of them if there are exactly two. -/
def root (path : Text) : Text :=
  match path.takeWhile (· = separator) with
  | [] => []
  | [_, _] => [separator, separator]
  | _ => [separator]

/-- The normal form of a path. -/
def normalPath (path : Text) : Text :=
  let normal := root path ++ Text.join [separator] (parts path)
  if normal.isEmpty then [dot] else normal

/-- The suffix of a name with its dot, unless the dot begins or ends the name. -/
def suffixOfName (name : Text) : Text :=
  match Text.splitOn dot name.reverse with
  | last :: rest@(_ :: _) => if last.isEmpty || rest = [[]] then [] else dot :: last.reverse
  | _ => []

/-- The suffix of the last part of a path. -/
def suffix (path : Text) : Text := suffixOfName ((parts path).getLast?.getD [])

/-- The texts of files under the normal forms of their paths. -/
abbrev Files := Table Text

/-- Why a file cannot be read. -/
inductive Absence
  /-- There is nothing under the path. -/
  | missing
  /-- There is a directory under the path. -/
  | directory
deriving DecidableEq, Repr

/-- Whether a path leads to a directory that holds one of the files, or the directory itself. -/
def Files.isDirectory (files : Files) (path : Text) : Bool :=
  path = [dot] || files.any fun (name, _) ↦ ((path ++ [separator]).isPrefixOf name)

/-- The part of a path that stands for the directory above. -/
def parent : Text := [dot, dot]

/-- The parts of a path without the steps up. A step up is possible in a directory only, and not out
of the directory that paths start from. -/
def Files.resolve? (files : Files) (path : Text) : Option (List Text) :=
  (parts path).foldl (fun done? part ↦ done?.bind fun done ↦
    if part ≠ parent then some (done ++ [part])
    else if done ≠ [] && files.isDirectory (Text.join [separator] done) then some done.dropLast
    else none) (some [])

/-- The text of the file under a path. -/
def Files.read (files : Files) (path : Text) : Except Absence Text :=
  match files.resolve? path with
  | none => .error .missing
  | some resolved =>
    let path := normalPath (root path ++ Text.join [separator] resolved)
    match files.get? path with
    | some text => .ok text
    | none => .error (if files.isDirectory path then .directory else .missing)

end MockApi.File
