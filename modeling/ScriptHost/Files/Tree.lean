import ScriptHost.Files.Path
import ScriptHost.Text.Utf8

/-!
# File trees

The files and directories that a host sees. A location is the list of names from the root, and a
path leads from the root or from the working directory to a location, by way of directories that
are there. Names are texts. There are no links, and everything that is there can be read and written.

* `FileTree.locate?` : the location that a path leads to.
* `FileTree.readText?` : the text of a file.
* `FileTree.writeFile?`, `FileTree.rename?`, `FileTree.removeFile?`, `FileTree.makeParents` :
  the changes, and whether they could be made.
-/

namespace ScriptHost

/-- What is at a location. -/
inductive FileNode where
  | directory
  | file (content : ByteArray)
  deriving DecidableEq

/-- The names on the way from the root. -/
abbrev Location := List String

/-- Files and directories. -/
structure FileTree where
  /-- Where relative paths start. -/
  workingDirectory : Location
  nodes : List (Location × FileNode)

namespace FileTree

/-- A tree that holds nothing but its working directory. -/
def empty (workingDirectory : Location) : FileTree :=
  ⟨workingDirectory,
    (List.range workingDirectory.length).map fun n => (workingDirectory.take (n + 1), .directory)⟩

/-- What is at a location; the root is a directory. -/
def node? (tree : FileTree) (location : Location) : Option FileNode :=
  if location.isEmpty then some .directory else tree.nodes.lookup location

/-- Whether there is a directory at a location. -/
def isDirectoryAt (tree : FileTree) (location : Location) : Bool :=
  tree.node? location == some .directory

/-- Puts a node at a location, in the place of what is there. -/
def put (tree : FileTree) (location : Location) (node : FileNode) : FileTree :=
  { tree with nodes := tree.nodes.filter (fun entry => entry.1 ≠ location) ++ [(location, node)] }

/-- Takes away what is at a location. -/
def erase (tree : FileTree) (location : Location) : FileTree :=
  { tree with nodes := tree.nodes.filter fun entry => entry.1 ≠ location }

/-! ## Paths -/

/-- Follows the parts of a path. Every part is looked up in a directory. -/
def follow? (tree : FileTree) (location : Location) : List String → Option Location
  | [] => some location
  | part :: parts =>
    if !tree.isDirectoryAt location then none
    else if Path.isIdle part then follow? tree location parts
    else if part == ".." then follow? tree location.dropLast parts
    else if (tree.node? (location ++ [part])).isSome then follow? tree (location ++ [part]) parts
    else none

/-- Where a path starts. -/
def start (tree : FileTree) (path : String) : Location :=
  if Path.isAbsolute path then [] else tree.workingDirectory

/-- The location that a path leads to, if there is something. -/
def locate? (tree : FileTree) (path : String) : Option Location :=
  if path.isEmpty then none else tree.follow? (tree.start path) (Path.parts path)

/-- What a path leads to. -/
def lookup? (tree : FileTree) (path : String) : Option FileNode :=
  (tree.locate? path).bind tree.node?

/-- Whether a path leads to something. -/
def contains (tree : FileTree) (path : String) : Bool := (tree.locate? path).isSome

/-- Whether a path leads to a file. -/
def isFile (tree : FileTree) (path : String) : Bool :=
  match tree.lookup? path with
  | some (.file _) => true
  | _ => false

/-- The text of a file, if a path leads to one and it is text. -/
def readText? (tree : FileTree) (path : String) : Option String :=
  match tree.lookup? path with
  | some (.file content) => String.fromUTF8? content
  | _ => none

/-- The most bytes that a name in a directory can have. -/
def nameLimit : Nat := 255

/-- Whether a directory can hold something of a name: one that is not too long and has no null
character. -/
def fits (name : String) : Bool :=
  name.utf8ByteSize ≤ nameLimit && name.toList.all fun c => c.toNat ≠ 0

/-- The location of a name that a path gives to a file: the directory around it is there. -/
def target? (tree : FileTree) (path : String) : Option Location :=
  match (Path.parts path).getLast? with
  | none => none
  | some name =>
    if Path.isIdle name || name == ".." || !fits name then none
    else (tree.follow? (tree.start path) (Path.parts path).dropLast).bind fun directory =>
      if tree.isDirectoryAt directory then some (directory ++ [name]) else none

/-! ## Changes -/

/-- Writes a file. -/
def writeFile? (tree : FileTree) (path : String) (content : ByteArray) : Option FileTree :=
  (tree.target? path).bind fun location =>
    if tree.isDirectoryAt location then none else some (tree.put location (.file content))

/-- Gives a file another path, in the place of a file that is there. -/
def rename? (tree : FileTree) (source target : String) : Option FileTree :=
  match tree.locate? source, tree.target? target with
  | some old, some new =>
    match tree.node? old with
    | some (.file content) =>
      if tree.isDirectoryAt new then none
      else some ((tree.erase old).put new (.file content))
    | _ => none
  | _, _ => none

/-- Takes away a file. -/
def removeFile? (tree : FileTree) (path : String) : Option FileTree :=
  if tree.isFile path then (tree.locate? path).map tree.erase else none

/-- Makes the directories on the way along some components, from a location on. What was made
before a step that cannot be taken stays. -/
def makeFrom (tree : FileTree) (location : Location) : List String → FileTree × Bool
  | [] => (tree, true)
  | part :: parts =>
    if Path.isIdle part then makeFrom tree location parts
    else if part == ".." then makeFrom tree location.dropLast parts
    else
      let next := location ++ [part]
      match tree.node? next with
      | some .directory => makeFrom tree next parts
      | some (.file _) => (tree, false)
      | none => if fits part then makeFrom (tree.put next .directory) next parts else (tree, false)

/-- Makes the directories around the last component of a path, and says whether that went well. -/
def makeParents (tree : FileTree) (path : String) : FileTree × Bool :=
  tree.makeFrom (tree.start path) (Path.parentComponents path)

/-! ## Contents -/

/-- The files below a directory with the names on the way to them. -/
def filesBelow (tree : FileTree) (directory : Location) : List (Location × ByteArray) :=
  tree.nodes.filterMap fun entry =>
    match entry.2 with
    | .file content =>
      if directory.isPrefixOf entry.1 && directory.length < entry.1.length then
        some (entry.1.drop directory.length, content)
      else none
    | .directory => none

end FileTree

end ScriptHost
