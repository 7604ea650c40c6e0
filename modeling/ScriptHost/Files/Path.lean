import ScriptHost.Text.Lines

/-!
# Paths

A path is a text with `/` between its parts. Its components leave out empty parts and parts that
are a single point, except for a point at the start of a relative path.

* `Path.components` : the components of a path.
* `Path.fileName?`, `Path.stem?` : the last component, and its part in front of the extension.
* `Path.withExtension` : a path with another extension.
-/

namespace ScriptHost.Path

open Text

/-- The character between the parts of a path. -/
def separator : Char := '/'

/-- The parts of a path between separators. -/
def parts (path : String) : List String := (fields separator path.toList).map String.ofList

/-- Whether a path starts at the root. -/
def isAbsolute (path : String) : Bool := path.toList.head? == some separator

/-- A path that starts at a directory, unless it is absolute. -/
def join (directory path : String) : String :=
  if isAbsolute path then path
  else if directory.isEmpty || directory.toList.getLast? == some separator then directory ++ path
  else directory ++ "/" ++ path

/-- Whether a part of a path is no component of its own. -/
def isIdle (part : String) : Bool := part == "" || part == "."

/-- The components of a path. -/
def components (path : String) : List String :=
  match parts path with
  | "." :: rest => "." :: rest.filter fun part => !isIdle part
  | all => all.filter fun part => !isIdle part

/-- The last component, if it is a name. -/
def fileName? (path : String) : Option String :=
  match (components path).getLast? with
  | some name => if name == "." || name == ".." then none else some name
  | none => none

/-- The position of the last point of a name, unless the name starts with it. -/
def lastPoint? (name : List Char) : Option Nat :=
  let tail := name.reverse.takeWhile (· != '.')
  if tail.length + 1 < name.length then some (name.length - tail.length - 1) else none

/-- The part of a name in front of its last point. -/
def stemOf (name : String) : String :=
  match lastPoint? name.toList with
  | some n => String.ofList (name.toList.take n)
  | none => name

/-- The last component without its extension. -/
def stem? (path : String) : Option String := (fileName? path).map stemOf

/-- What stands behind the last point of a name. -/
def extensionOf? (name : String) : Option String :=
  (lastPoint? name.toList).map fun n => String.ofList (name.toList.drop (n + 1))

/-- A text without the parts at its end that are no components. -/
def trimIdle : Nat → List Char → List Char
  | 0, cs => cs
  | bound + 1, cs =>
    match cs.reverse with
    | '/' :: rest => trimIdle bound rest.reverse
    | '.' :: '/' :: rest => trimIdle bound rest.reverse
    | _ => cs

/-- A path whose last component has another extension; a path without a name stays as it is. -/
def withExtension (path extension : String) : String :=
  match fileName? path with
  | none => path
  | some name =>
    let whole := trimIdle path.length path.toList
    let front := whole.take (whole.length - name.length)
    String.ofList front ++ stemOf name ++ "." ++ extension

/-- The components in front of the last one. -/
def parentComponents (path : String) : List String := (components path).dropLast

end ScriptHost.Path
