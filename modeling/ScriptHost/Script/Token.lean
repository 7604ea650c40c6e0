import ScriptHost.Script.Numeral

/-!
# Tokens of the script language

* `Token` : names, reserved words, symbols, numbers and strings.
* `Token.scan` : the tokens of a text, each with its line.
-/

namespace ScriptHost.Script

/-- Why a text is no script. -/
inductive ParseError where
  | malformed (line : Nat) (reason : String)
  /-- Statements and expressions are nested too deeply. -/
  | tooDeep
  /-- A function needs more of something than there is. -/
  | tooMany (what : String)
  deriving DecidableEq, Repr

/-- A token of the script language. -/
inductive Token where
  | name (text : String)
  | reserved (text : String)
  | symbol (text : String)
  | number (value : Value)
  | string (bytes : ByteArray)
  deriving DecidableEq

/-- A token and the line that it ends on. -/
structure Lexeme where
  token : Token
  line : Nat
  deriving DecidableEq

namespace Token

/-- The words that are no names. -/
def reservedWords : List String :=
  ["and", "break", "do", "else", "elseif", "end", "false", "for", "function", "goto", "if", "in",
    "local", "nil", "not", "or", "repeat", "return", "then", "true", "until", "while"]

/-- The symbols; of two that both fit, the first counts. -/
def symbols : List (List Char) :=
  ["...", "..", "==", "~=", "<=", ">=", "//", "::", "<<", ">>", "+", "-", "*", "/", "%", "^", "#",
    "&", "~", "|", "<", ">", "=", "(", ")", "\x7b", "\x7d", "[", "]", ";", ":", ",", "."].map
    String.toList

/-- Whether a character can start a name. -/
def startsName (c : Char) : Bool := c.isAlpha || c == '_'

/-- Whether a character can stand in a name. -/
def inName (c : Char) : Bool := startsName c || c.isDigit

/-- Whether a character ends a line. -/
def isLineEnd (c : Char) : Bool := c == '\n' || c == '\r'

/-- What follows a line end that starts with `first`; a carriage return and a line feed, in either
order, are one line end. -/
def afterLineEnd (first : Char) : List Char → List Char
  | c :: rest => if isLineEnd c && c != first then rest else c :: rest
  | [] => []

/-- The bytes of a character. -/
def bytesOf (c : Char) : List UInt8 := (String.singleton c).toUTF8.toList

/-! ## Long brackets -/

/-- The level of a long bracket behind its first bracket, and what follows the second. -/
def longOpening? (cs : List Char) : Option (Nat × List Char) :=
  match cs.dropWhile (· == '=') with
  | '[' :: rest => some ((cs.takeWhile (· == '=')).length, rest)
  | _ => none

/-- What follows a long closing bracket, from behind its first bracket. -/
def longClosing? (level : Nat) (cs : List Char) : Option (List Char) :=
  if (cs.takeWhile (· == '=')).length = level then
    match cs.dropWhile (· == '=') with
    | ']' :: rest => some rest
    | _ => none
  else none

/-- The text up to a long closing bracket, with line feeds for line ends; what follows it, and the
line there. -/
def longText? : Nat → Nat → Nat → List Char → Option (List Char × List Char × Nat)
  | 0, _, _, _ => none
  | _, _, _, [] => none
  | bound + 1, level, line, c :: rest =>
    if isLineEnd c then do
      let (text, rest, line) ← longText? bound level (line + 1) (afterLineEnd c rest)
      some ('\n' :: text, rest, line)
    else
      let more := do
        let (text, rest, line) ← longText? bound level line rest
        some (c :: text, rest, line)
      if c == ']' then
        match longClosing? level rest with
        | some rest => some ([], rest, line)
        | none => more
      else more

/-- The text of a long bracket; a line end right behind the opening is left out. -/
def longBracket? (level line : Nat) (cs : List Char) : Option (List Char × List Char × Nat) :=
  match cs with
  | c :: rest =>
    if isLineEnd c then longText? (cs.length + 1) level (line + 1) (afterLineEnd c rest)
    else longText? (cs.length + 1) level line cs
  | [] => none

/-! ## Quoted strings -/

/-- A number as UTF-8 has it, up to thirty-one bits; `low` holds the bytes that follow. -/
def utf8Bytes (code : Nat) : List UInt8 :=
  if code < 0x80 then [code.toUInt8]
  else if code < 0x800 then [(0xC0 + code / 64).toUInt8, low code]
  else if code < 0x10000 then [(0xE0 + code / 4096).toUInt8, low (code / 64), low code]
  else if code < 0x200000 then
    [(0xF0 + code / 262144).toUInt8, low (code / 4096), low (code / 64), low code]
  else if code < 0x4000000 then
    [(0xF8 + code / 16777216).toUInt8, low (code / 262144), low (code / 4096), low (code / 64),
      low code]
  else
    [(0xFC + code / 1073741824).toUInt8, low (code / 16777216), low (code / 262144),
      low (code / 4096), low (code / 64), low code]
where
  /-- A continuation byte with the last six bits of a number. -/
  low (code : Nat) : UInt8 := (0x80 + code % 64).toUInt8

/-- The byte that a letter behind a backslash stands for. -/
def escapedByte? (c : Char) : Option UInt8 :=
  match c with
  | 'a' => some 7
  | 'b' => some 8
  | 't' => some 9
  | 'n' => some 10
  | 'v' => some 11
  | 'f' => some 12
  | 'r' => some 13
  | '\\' => some 92
  | '"' => some 34
  | '\'' => some 39
  | _ => none

/-- Reads an escape from behind its backslash: its bytes and what follows it. -/
def escape? (cs : List Char) : Option (List UInt8 × List Char) :=
  match cs with
  | 'x' :: a :: b :: rest => do
    let high ← Numeral.hexValue? a
    let low ← Numeral.hexValue? b
    some ([(16 * high + low).toUInt8], rest)
  | 'u' :: '{' :: rest =>
    let digits := rest.takeWhile fun c => (Numeral.hexValue? c).isSome
    let code := Numeral.readHex digits
    match rest.dropWhile fun c => (Numeral.hexValue? c).isSome with
    | '}' :: rest =>
      if digits.isEmpty || Nat.pow 2 31 ≤ code then none else some (utf8Bytes code, rest)
    | _ => none
  | c :: rest =>
    if c.isDigit then
      let digits := (cs.takeWhile Char.isDigit).take 3
      let code := Decimal.readDigits digits
      if code < 256 then some ([code.toUInt8], cs.drop digits.length) else none
    else (escapedByte? c).map fun b => ([b], rest)
  | [] => none

/-- The blanks that the escape `z` skips, and how many lines end among them. -/
def skipBlanks : Nat → Nat → List Char → List Char × Nat
  | 0, line, cs => (cs, line)
  | _, line, [] => ([], line)
  | bound + 1, line, c :: rest =>
    if isLineEnd c then skipBlanks bound (line + 1) (afterLineEnd c rest)
    else if Numeral.isSpace c then skipBlanks bound line rest
    else (c :: rest, line)

/-- The bytes of a string up to its closing quote; what follows it, and the line there. -/
def quoted? : Nat → Char → Nat → List Char → Option (List UInt8 × List Char × Nat)
  | 0, _, _, _ => none
  | _, _, _, [] => none
  | bound + 1, quote, line, c :: rest =>
    if c == quote then some ([], rest, line)
    else if isLineEnd c then none
    else if c == '\\' then
      match rest with
      | 'z' :: rest =>
        let (rest, line) := skipBlanks rest.length line rest
        quoted? bound quote line rest
      | e :: rest =>
        if isLineEnd e then do
          let (bytes, rest, line) ← quoted? bound quote (line + 1) (afterLineEnd e rest)
          some (10 :: bytes, rest, line)
        else do
          let (escaped, rest) ← escape? (e :: rest)
          let (bytes, rest, line) ← quoted? bound quote line rest
          some (escaped ++ bytes, rest, line)
      | [] => none
    else do
      let (bytes, rest, line) ← quoted? bound quote line rest
      some (bytesOf c ++ bytes, rest, line)

/-! ## Numbers -/

/-- Cuts a numeral from the front of a text: all digits, letters and points, and the signs behind
the letter of an exponent. -/
def numeralText (letters : List Char) : List Char → List Char × List Char
  | [] => ([], [])
  | c :: '+' :: rest =>
    if letters.contains c then
      let (text, rest) := numeralText letters rest
      (c :: '+' :: text, rest)
    else if inName c || c == '.' then ([c], '+' :: rest)
    else ([], c :: '+' :: rest)
  | c :: '-' :: rest =>
    if letters.contains c then
      let (text, rest) := numeralText letters rest
      (c :: '-' :: text, rest)
    else if inName c || c == '.' then ([c], '-' :: rest)
    else ([], c :: '-' :: rest)
  | c :: rest =>
    if inName c || c == '.' then
      let (text, rest) := numeralText letters rest
      (c :: text, rest)
    else ([], c :: rest)

/-- The letters of exponents in a numeral that starts with the given characters. -/
def exponentLetters : List Char → List Char
  | '0' :: 'x' :: _ | '0' :: 'X' :: _ => ['p', 'P']
  | _ => ['e', 'E']

/-! ## Tokens -/

/-- Reads a symbol. -/
def symbol? (cs : List Char) : Option (List Char × List Char) :=
  (symbols.find? (·.isPrefixOf cs)).map fun text => (text, cs.drop text.length)

/-- The token of a name or a reserved word. -/
def ofWord (text : List Char) : Token :=
  let word := String.ofList text
  if reservedWords.contains word then reserved word else name word

/-- Whether a text starts with a numeral. -/
def startsNumeral : List Char → Bool
  | '.' :: c :: _ => c.isDigit
  | c :: _ => c.isDigit
  | [] => false

/-- What stands at the front of a text. -/
inductive Step where
  /-- Blanks or a comment, and the line behind them. -/
  | skip (rest : List Char) (line : Nat)
  | token (token : Token) (rest : List Char) (line : Nat)
  | error (reason : String)

/-- Reads what stands behind two dashes: a comment. -/
def comment (line : Nat) (cs : List Char) : Step :=
  let toLineEnd := Step.skip (cs.dropWhile fun c => !isLineEnd c) line
  match cs with
  | '[' :: rest =>
    match longOpening? rest with
    | some (level, rest) =>
      match longBracket? level line rest with
      | some (_, rest, line) => .skip rest line
      | none => .error "unfinished long comment"
    | none => toLineEnd
  | _ => toLineEnd

/-- Reads a numeral. -/
def numeral (line : Nat) (cs : List Char) : Step :=
  let (text, rest) := numeralText (exponentLetters cs) cs
  match Numeral.read? text with
  | some value => .token (number value) rest line
  | none => .error "malformed number"

/-- Reads a symbol, a numeral or a name. -/
def plain (line : Nat) (cs : List Char) : Step :=
  match cs with
  | [] => .skip [] line
  | c :: _ =>
    if startsName c then .token (ofWord (cs.takeWhile inName)) (cs.dropWhile inName) line
    else if startsNumeral cs then numeral line cs
    else match symbol? cs with
      | some (text, rest) => .token (symbol (String.ofList text)) rest line
      | none => .error "unexpected symbol"

/-- Reads what stands at the front of a text. -/
def step (line : Nat) (cs : List Char) : Step :=
  match cs with
  | '-' :: '-' :: rest => comment line rest
  | '[' :: rest =>
    match longOpening? rest with
    | some (level, rest) =>
      match longBracket? level line rest with
      | some (text, rest, line) => .token (string (String.ofList text).toUTF8) rest line
      | none => .error "unfinished long string"
    | none =>
      if rest.head? == some '=' then .error "invalid long string delimiter"
      else .token (symbol "[") rest line
  | c :: rest =>
    if isLineEnd c then .skip (afterLineEnd c rest) (line + 1)
    else if Numeral.isSpace c then .skip rest line
    else if c == '"' || c == '\'' then
      match quoted? (rest.length + 1) c line rest with
      | some (bytes, rest, line) => .token (string ⟨bytes.toArray⟩) rest line
      | none => .error "unfinished string"
    else plain line cs
  | [] => .skip [] line

/-- The tokens of a text, up to the first that is malformed, and what is wrong with that. Each step
takes a character at least, so the length of the text bounds their number. -/
def scanWithin : Nat → Nat → List Char → List Lexeme × Option ParseError
  | _, _, [] => ([], none)
  | 0, line, _ :: _ => ([], some (.malformed line "text too long"))
  | bound + 1, line, c :: rest =>
    match step line (c :: rest) with
    | .skip rest line => scanWithin bound line rest
    | .token token rest line =>
      let (lexemes, failure?) := scanWithin bound line rest
      (⟨token, line⟩ :: lexemes, failure?)
    | .error reason => ([], some (.malformed line reason))

/-- The tokens of a text, up to the first that is malformed, and what is wrong with that. -/
def scan (text : String) : List Lexeme × Option ParseError :=
  scanWithin text.toList.length 1 text.toList

end Token

end ScriptHost.Script
