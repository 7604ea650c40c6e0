/-!
# Lines

Texts as lists of lines. A line ends with a line feed or at the end of the text; a carriage return
in front of the line feed belongs to the line end.

* `joinLineEnds cs` : `cs` with every carriage return in front of a line feed dropped.
* `pieces cs` : the parts of `cs` between line feeds, without an empty last part.
* `lines cs` : the lines of `cs`, without their ends.
* `fields separator cs` : the parts of `cs` between the separators, empty ones included.
* `unlines ls` : the lines `ls`, each followed by a line feed.
-/

namespace ScriptHost.Text

/-- The text with every carriage return in front of a line feed dropped. -/
def joinLineEnds : List Char → List Char
  | [] => []
  | '\r' :: '\n' :: rest => '\n' :: joinLineEnds rest
  | c :: rest => c :: joinLineEnds rest

/-- Puts a character in front of the first of some parts, or makes it a part of its own. -/
def consHead (c : Char) : List (List Char) → List (List Char)
  | [] => [[c]]
  | part :: parts => (c :: part) :: parts

/-- The parts between line feeds; a text that ends with a line feed has no further part. -/
def pieces : List Char → List (List Char)
  | [] => []
  | c :: rest => if c = '\n' then [] :: pieces rest else consHead c (pieces rest)

/-- The lines of a text, without the line feeds and carriage returns that end them. -/
def lines (cs : List Char) : List (List Char) := pieces (joinLineEnds cs)

/-- The lines, each followed by a line feed. -/
def unlines : List (List Char) → List Char
  | [] => []
  | line :: rest => line ++ '\n' :: unlines rest

/-- The parts of a text between separators; a text without one is a single part. -/
def fields (separator : Char) : List Char → List (List Char)
  | [] => [[]]
  | c :: rest =>
    if c = separator then [] :: fields separator rest else consHead c (fields separator rest)

@[simp] theorem pieces_nil : pieces [] = [] := rfl

@[simp] theorem pieces_lineFeed (rest : List Char) : pieces ('\n' :: rest) = [] :: pieces rest := by
  simp [pieces]

theorem pieces_cons_of_ne {c : Char} (rest : List Char) (h : c ≠ '\n') :
    pieces (c :: rest) = consHead c (pieces rest) := by
  simp [pieces, h]

/-- A first line without line feeds is the first piece. -/
theorem pieces_append_lineFeed {line : List Char} (rest : List Char) (h : '\n' ∉ line) :
    pieces (line ++ '\n' :: rest) = line :: pieces rest := by
  induction line with
  | nil => simp
  | cons c line ih =>
    have hc : c ≠ '\n' := fun e => h (by simp [e])
    have hl : '\n' ∉ line := fun m => h (by simp [m])
    rw [List.cons_append, pieces_cons_of_ne _ hc, ih hl, consHead]

/-- Lines written one after the other are read back. -/
theorem pieces_unlines {ls : List (List Char)} (h : ∀ line ∈ ls, '\n' ∉ line) :
    pieces (unlines ls) = ls := by
  induction ls with
  | nil => rfl
  | cons line rest ih =>
    rw [unlines, pieces_append_lineFeed _ (h line (by simp)),
      ih (fun l hl => h l (by simp [hl]))]

end ScriptHost.Text
