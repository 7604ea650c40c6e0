import ScriptHost.Text.Alphabetic
import ScriptHost.Text.Blank
import ScriptHost.Text.Search

/-!
# Function declarations

A declaration line holds `function `, a name and a parameter list in parentheses, on one line. This
is a rule on the text of a line and not on the grammar of the script language, so comments and
strings can hold declarations too.

* `FunctionDecl.parseLine? line` : the name, which may be empty, and the arity of a declaration
  line.
* `FunctionDecl.countParameters list` : the arity of a parameter list.
-/

namespace ScriptHost

open Text

/-- A function declared in a script. -/
structure FunctionDecl where
  name : String
  arity : Nat
  /-- The line, from one, in the script as written. -/
  line : Nat
  deriving DecidableEq, Repr

namespace FunctionDecl

/-- The word that starts a declaration, with the blank behind it. -/
def keyword : List Char := "function ".toList

/-- The characters that end a parameter: a space, a comma and the closing parenthesis. -/
def endsParameter (c : Char) : Bool := c == ' ' || c == ',' || c == ')'

/-- Counts the parameters of a list: a parameter has a letter, and is over at the next space, comma
or closing parenthesis. `reading` says whether a letter was seen since the last one was over. -/
def countParameters (reading : Bool) : List Char → Nat
  | [] => 0
  | c :: rest =>
    if isAlphabetic c then countParameters true rest
    else if reading && endsParameter c then countParameters false rest + 1
    else countParameters reading rest

/-- The name and the arity of a line that declares a function. The name is what stands between the
keyword and the opening parenthesis, without blanks around it; it is empty for a function without
a name. -/
def parseLine? (line : List Char) : Option (List Char × Nat) :=
  match after? keyword line with
  | none => none
  | some rest =>
    match upTo? '(' rest with
    | none => none
    | some (name, fromOpening) =>
      match upTo? ')' fromOpening with
      | none => none
      | some (parameters, _) => some (trim name, countParameters false (parameters ++ [')']))

end FunctionDecl

end ScriptHost
