import ScriptHost.Declaration
import ScriptHost.TagIndex
import ScriptHost.Text.Lines

/-!
# Scanning a script

A script is read line by line before it is run. A tag line starts with `#` in its first column and
holds comma separated tags for the declaration on the next line. Tag lines that follow each other
stack; any other line in between drops them. Tag lines are removed from the script, and line ends
become line feeds.

* `Source.Line.ofChars` : what a line is.
* `Source.scan` : the script without its tag lines, its declarations and its tag index.
-/

namespace ScriptHost

open Text

namespace Source

/-- The character that starts a tag line. -/
def tagMarker : Char := '#'

/-- What a line of a script is. -/
inductive Line where
  /-- A tag line, with its tags in order. -/
  | tags (tokens : List String)
  /-- A line that declares a function. -/
  | declaration (name : String) (arity : Nat)
  | other
  deriving DecidableEq, Repr

/-- The tags of a tag line, from what stands behind the marker. -/
def tagTokens (cs : List Char) : List String :=
  (((fields ',' cs).map trim).filter fun token => !token.isEmpty).map String.ofList

/-- What a line is. -/
def Line.ofChars (line : List Char) : Line :=
  match line with
  | '#' :: rest => .tags (tagTokens rest)
  | _ =>
    match FunctionDecl.parseLine? line with
    | some (name, arity) => if name.isEmpty then .other else .declaration (String.ofList name) arity
    | none => .other

/-- What the scan of some lines finds. -/
structure Found where
  /-- The lines that are not tag lines. -/
  kept : List (List Char)
  declarations : List FunctionDecl
  tags : TagIndex

/-- Scans lines, the first of which has the given number. `pending` holds the tags of the tag lines
just before it, and `index` what was found so far. -/
def scanLines (number : Nat) (pending : List String) (index : TagIndex) :
    List (List Char) → Found
  | [] => ⟨[], [], index⟩
  | line :: rest =>
    match Line.ofChars line with
    | .tags tokens =>
      scanLines (number + 1) (pending ++ tokens) (tokens.foldl TagIndex.addTag index) rest
    | .declaration name arity =>
      let attached := pending.foldl (fun index tag => index.attach name tag) index
      let found := scanLines (number + 1) [] attached rest
      { found with
        kept := line :: found.kept
        declarations := ⟨name, arity, number⟩ :: found.declarations }
    | .other =>
      let found := scanLines (number + 1) [] index rest
      { found with kept := line :: found.kept }

/-- A script after its scan. -/
structure Scan where
  /-- The script without tag lines, each line ended by a line feed. -/
  source : String
  declarations : List FunctionDecl
  tags : TagIndex
  deriving DecidableEq, Repr

/-- The lines of a script: carriage returns that belong to a line end are dropped, and then the
text is cut into lines. -/
def scriptLines (source : String) : List (List Char) := lines (joinLineEnds source.toList)

/-- Scans a script. -/
def scan (source : String) : Scan :=
  let found := scanLines 1 [] {} (scriptLines source)
  ⟨String.ofList (unlines found.kept), found.declarations, found.tags⟩

end Source

end ScriptHost
