/-!
# Commands and their options

The first argument of the command line names a command, and the others are its options. An option is
written `--name value` or `--name=value`, and a flag `--name`.

* `Command` : what the command line asks for.
* `readOptions` : the options that some arguments give.
* `Command.parse` : the command of a command line.
-/

namespace ScriptHost.CommandLine

/-- How a component is driven. -/
structure RunOptions where
  script : String
  frames : Nat := 1
  editor : Bool := false
  /-- The frame after which the script is reloaded. -/
  reloadAt? : Option Nat := none
  /-- The file with the variables to start from. -/
  stateIn? : Option String := none
  /-- The file that the variables are saved to. -/
  stateOut? : Option String := none
  deriving DecidableEq, Repr

/-- What the command line asks for. -/
inductive Command where
  /-- Lists what a script declares. -/
  | inspect (script : String)
  /-- Builds every script of a directory. -/
  | check (directory : String)
  /-- Calls one function of a script. -/
  | call (script function : String) (arguments : List String)
  /-- Drives a script through its life. -/
  | run (options : RunOptions)
  deriving DecidableEq, Repr

/-- Why there is no command to run. -/
inductive Refusal where
  /-- Help is asked for. -/
  | help
  /-- The arguments are wrong. -/
  | invalid
  deriving DecidableEq, Repr

/-! ## Options -/

/-- What an option is given with. -/
inductive OptionKind where
  /-- Nothing. -/
  | flag
  /-- A text. -/
  | text
  /-- A text, and the option can be given several times. -/
  | texts
  /-- A natural number. -/
  | number
  deriving DecidableEq, Repr

/-- An option of a command. -/
structure OptionRule where
  name : String
  kind : OptionKind
  required : Bool := false
  deriving DecidableEq, Repr

/-- The options that were given, in order, with their values. -/
abbrev Given := List (String × String)

namespace Given

/-- The value of an option. -/
def value? (given : Given) (name : String) : Option String := given.lookup name

/-- The value of an option that is always given. -/
def value (given : Given) (name : String) : String := (given.value? name).getD ""

/-- All values of an option. -/
def values (given : Given) (name : String) : List String :=
  (given.filter fun entry => entry.1 == name).map Prod.snd

/-- Whether an option is given. -/
def has (given : Given) (name : String) : Bool := (given.value? name).isSome

end Given

/-- The largest number that an option takes. -/
def greatestNumber : Nat := Nat.pow 2 64 - 1

/-- The value of some decimal digits. -/
def readNumber (digits : List Char) : Nat :=
  digits.foldl (fun n c => 10 * n + (c.toNat - '0'.toNat)) 0

/-- The number that a text stands for: digits, perhaps with a plus sign in front. -/
def number? (text : String) : Option Nat :=
  let digits :=
    match text.toList with
    | '+' :: digits => digits
    | digits => digits
  if digits.isEmpty || !digits.all Char.isDigit then none
  else
    let n := readNumber digits
    if n ≤ greatestNumber then some n else none

/-- One argument of the command line. -/
inductive Argument where
  /-- `--`, behind which no options stand. -/
  | separator
  /-- `--name` or `--name=value`. -/
  | long (name : String) (value? : Option String)
  /-- A single minus sign with letters behind it. -/
  | short (letters : List Char)
  | plain (text : String)
  deriving DecidableEq, Repr

namespace Argument

/-- The form of an argument. -/
def ofText (text : String) : Argument :=
  match text.toList with
  | ['-', '-'] => .separator
  | '-' :: '-' :: rest =>
    let name := rest.takeWhile (· != '=')
    let value? :=
      match rest.dropWhile (· != '=') with
      | _ :: value => some (String.ofList value)
      | [] => none
    .long (String.ofList name) value?
  | '-' :: c :: rest => .short (c :: rest)
  | _ => .plain text

/-- Whether an argument asks for help. -/
def asksHelp : Argument → Bool
  | long name value? => name == "help" && value?.isNone
  | short letters => letters.head? == some 'h'
  | _ => false

/-- The argument as the value of the option in front of it. -/
def plain? : Argument → Option String
  | plain text => some text
  | _ => none

end Argument

/-- Adds an option to those given. It may stand a second time only if it can be repeated, and a
number has to be one. -/
def addOption (rule : OptionRule) (value : String) (given : Given) : Except Refusal Given :=
  if rule.kind ≠ .texts && given.has rule.name then .error .invalid
  else if rule.kind = .number && (number? value).isNone then .error .invalid
  else .ok (given ++ [(rule.name, value)])

/-- Reads arguments from left to right, up to the first that is wrong or asks for help. -/
def readOptions (rules : List OptionRule) (given : Given) : List String → Except Refusal Given
  | [] => .ok given
  | first :: rest =>
    let argument := Argument.ofText first
    if argument.asksHelp then .error .help
    else
      match argument with
      | .separator => if rest.isEmpty then .ok given else .error .invalid
      | .long name value? =>
        match rules.find? (fun rule => rule.name == name), value? with
        | none, _ => .error .invalid
        | some rule, some value =>
          if rule.kind = .flag then .error .invalid
          else (addOption rule value given).bind fun given => readOptions rules given rest
        | some rule, none =>
          if rule.kind = .flag then
            (addOption rule "" given).bind fun given => readOptions rules given rest
          else
            match rest with
            | [] => .error .invalid
            | second :: rest =>
              match (Argument.ofText second).plain? with
              | none => .error .invalid
              | some value =>
                (addOption rule value given).bind fun given => readOptions rules given rest
      | _ => .error .invalid

/-- The options of a command, all that it requires among them. -/
def options (rules : List OptionRule) (arguments : List String) : Except Refusal Given :=
  (readOptions rules [] arguments).bind fun given =>
    if rules.all fun rule => !rule.required || given.has rule.name then .ok given
    else .error .invalid

/-! ## Commands -/

namespace Command

/-- The options of each command. -/
def rules? : String → Option (List OptionRule)
  | "inspect" => some [⟨"script", .text, true⟩]
  | "check" => some [⟨"scripts-dir", .text, true⟩]
  | "call" => some [⟨"script", .text, true⟩, ⟨"function", .text, true⟩, ⟨"arg", .texts, false⟩]
  | "run" =>
    some [⟨"script", .text, true⟩, ⟨"frames", .number, false⟩, ⟨"editor", .flag, false⟩,
      ⟨"reload-at", .number, false⟩, ⟨"state-in", .text, false⟩, ⟨"state-out", .text, false⟩]
  | _ => none

/-- The options of a run. -/
def runOptions (given : Given) : RunOptions where
  script := given.value "script"
  frames := ((given.value? "frames").bind number?).getD 1
  editor := given.has "editor"
  reloadAt? := (given.value? "reload-at").bind number?
  stateIn? := given.value? "state-in"
  stateOut? := given.value? "state-out"

/-- The command with a name and options. -/
def ofGiven? (name : String) (given : Given) : Option Command :=
  match name with
  | "inspect" => some (.inspect (given.value "script"))
  | "check" => some (.check (given.value "scripts-dir"))
  | "call" => some (.call (given.value "script") (given.value "function") (given.values "arg"))
  | "run" => some (.run (runOptions given))
  | _ => none

/-- Help on the command line itself or on one command. -/
def helpOn : List String → Refusal
  | [] => .help
  | [name] => if name == "help" || (rules? name).isSome then .help else .invalid
  | _ => .invalid

/-- The command of a command line. -/
def parse : List String → Except Refusal Command
  | [] => .error .invalid
  | name :: arguments =>
    if name == "help" then .error (helpOn arguments)
    else if (Argument.ofText name).asksHelp then .error .help
    else
      match rules? name with
      | none => .error .invalid
      | some rules => do
        let given ← options rules arguments
        match ofGiven? name given with
        | some command => return command
        | none => throw .invalid

end Command

end ScriptHost.CommandLine
