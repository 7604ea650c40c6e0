import ScriptHost.Proofs.Tags.Lines

/-!
# Declaration lines

What is read off a line that declares a function: the name between the keyword and the parameter
list, and the number of parameters that have a letter.

* `Text.Tight`, `Text.trim_padded` : a text without the blanks that were put around it.
* `FunctionDecl.keyword_first_of_free` : behind a text without the keyword, the keyword is the first.
* `FunctionDecl.Lists` : a text that lists parameters.
* `FunctionDecl.Lists.count_eq` : the parameters of a list that are counted.
* `FunctionDecl.parseLine?_of_lists` : the name and the arity of a declaration line.
-/

namespace ScriptHost

namespace Text

/-! ## Blanks -/

/-- All characters are blank. -/
def AllBlank (cs : List Char) : Prop := ∀ c ∈ cs, isBlank c = true

instance (cs : List Char) : Decidable (AllBlank cs) := List.decidableBAll _ cs

/-- A text that neither starts nor ends with a blank. -/
structure Tight (cs : List Char) : Prop where
  first_not_blank : ∀ c ∈ cs.head?, isBlank c = false
  last_not_blank : ∀ c ∈ cs.getLast?, isBlank c = false

/-- The code points of the blank characters. -/
def blankPoints : List Nat :=
  [0x09, 0x0A, 0x0B, 0x0C, 0x0D, 0x20, 0x85, 0xA0, 0x1680, 0x2000, 0x2001, 0x2002, 0x2003, 0x2004,
    0x2005, 0x2006, 0x2007, 0x2008, 0x2009, 0x200A, 0x2028, 0x2029, 0x202F, 0x205F, 0x3000]

theorem toNat_mem_blankPoints {c : Char} (h : isBlank c = true) : c.toNat ∈ blankPoints := by
  simp only [isBlank, Bool.or_eq_true, Bool.and_eq_true, decide_eq_true_eq, beq_iff_eq] at h
  simp only [blankPoints, List.mem_cons, List.not_mem_nil, or_false]
  omega

/-- Blank characters are not alphabetic. -/
theorem not_isAlphabetic_of_isBlank {c : Char} (h : isBlank c = true) : isAlphabetic c = false := by
  have all : ∀ n ∈ blankPoints, isAlphabetic (Char.ofNat n) = false := by decide +kernel
  have point := all c.toNat (toNat_mem_blankPoints h)
  rwa [Char.ofNat_toNat] at point

theorem AllBlank.not_mem {cs : List Char} (h : AllBlank cs) {c : Char} (visible : isBlank c = false) :
    c ∉ cs := by
  intro m
  rw [h c m] at visible
  cases visible

/-- Without the blanks at its start a text starts behind them. -/
theorem trimLeft_append {front cs : List Char} (blank : AllBlank front)
    (visible : ∀ c ∈ cs.head?, isBlank c = false) : trimLeft (front ++ cs) = cs := by
  rw [trimLeft, List.dropWhile_append_of_pos blank]
  cases cs with
  | nil => rfl
  | cons c cs => exact trimLeft_cons_of_not_blank cs (visible c rfl)

theorem trimRight_append {cs back : List Char} (blank : AllBlank back)
    (visible : ∀ c ∈ cs.getLast?, isBlank c = false) : trimRight (cs ++ back) = cs := by
  have reversed : trimLeft (back.reverse ++ cs.reverse) = cs.reverse := by
    refine trimLeft_append (fun c m => blank c (List.mem_reverse.1 m)) ?_
    rw [List.head?_reverse]
    exact visible
  rw [trimRight, List.reverse_append, ← trimLeft, reversed, List.reverse_reverse]

/-- Blanks around a text that has none at its ends are all that is cut off. -/
theorem trim_padded {front cs back : List Char} (front_blank : AllBlank front)
    (back_blank : AllBlank back) (tight : Tight cs) : trim (front ++ cs ++ back) = cs := by
  cases cs with
  | nil =>
    have all : AllBlank (front ++ back) := by
      intro c m
      rcases List.mem_append.1 m with m | m
      · exact front_blank c m
      · exact back_blank c m
    have nothing : trimLeft (front ++ back ++ []) = [] := trimLeft_append all (by simp)
    rw [List.append_nil] at nothing
    rw [List.append_nil, trim, nothing, trimRight_nil]
  | cons c cs =>
    have starts : trimLeft (front ++ (c :: cs ++ back)) = c :: cs ++ back :=
      trimLeft_append front_blank (by simpa using tight.first_not_blank)
    rw [trim, List.append_assoc, starts]
    exact trimRight_append back_blank tight.last_not_blank

end Text

namespace FunctionDecl

open Text

/-! ## The keyword -/

/-- The blank at the end of the keyword is its only one, so that of two occurrences the second
starts behind the first. Behind a text without the keyword the keyword is the first. -/
theorem keyword_first_of_free {before rest front back : List Char} (free : ¬keyword <:+: before)
    (same : before ++ keyword ++ rest = front ++ keyword ++ back) :
    before.length ≤ front.length := by
  refine Nat.le_of_not_lt fun less => ?_
  have size : keyword.length = 9 := by decide
  have last : keyword[8]? = some ' ' := by decide
  have visible : ∀ i < 8, keyword[i]? ≠ some ' ' := by decide
  -- The earlier occurrence ends with a blank, which is not inside the later one.
  have blank : (front ++ (keyword ++ back))[front.length + 8]? = some ' ' := by
    rw [List.getElem?_append_right (Nat.le_add_right _ _), Nat.add_sub_cancel_left,
      List.getElem?_append_left (by omega), last]
  rw [← List.append_assoc, ← same, List.append_assoc] at blank
  by_cases within : front.length + 9 ≤ before.length
  · refine free ⟨front, before.drop (front.length + 9), ?_⟩
    have start := congrArg (List.take (front.length + 9)) same
    rw [List.append_assoc, List.take_append_of_le_length within,
      List.take_left' (by rw [List.length_append, size])] at start
    rw [← start, List.take_append_drop]
  · rw [List.getElem?_append_right (by omega), List.getElem?_append_left (by omega)] at blank
    exact visible _ (by omega) blank

/-! ## Parameter lists -/

/-- A parameter of a function: a name of ASCII letters, digits and underscores that does not start
with a digit, or the three dots that stand for all further arguments. -/
inductive IsParameter : List Char → Prop where
  | name {c : Char} {cs : List Char} : (c.isAlpha ∨ c = '_') →
      (∀ d ∈ cs, d.isAlphanum ∨ d = '_') → IsParameter (c :: cs)
  | dots : IsParameter ['.', '.', '.']

/-- A text lists parameters, with a comma between two of them and blanks around each. -/
inductive Lists : List Char → List (List Char) → Prop where
  | none {blanks : List Char} : AllBlank blanks → Lists blanks []
  | last {front parameter back : List Char} : AllBlank front → IsParameter parameter →
      AllBlank back → Lists (front ++ parameter ++ back) [parameter]
  | more {front parameter back rest : List Char} {first : List Char}
      {others : List (List Char)} : AllBlank front → IsParameter parameter → AllBlank back →
      Lists rest (first :: others) →
      Lists (front ++ parameter ++ back ++ ',' :: rest) (parameter :: first :: others)

/-- Whether a parameter has a letter. -/
def hasLetter (parameter : List Char) : Bool := parameter.any Char.isAlpha

/-- The characters of a parameter are those of ASCII that end no parameter. -/
theorem IsParameter.plain {parameter : List Char} (h : IsParameter parameter) :
    ∀ c ∈ parameter, isAlphabetic c = c.isAlpha ∧ endsParameter c = false := by
  have plain : ∀ c : Char, c.isAlphanum ∨ c = '_' ∨ c = '.' →
      isAlphabetic c = c.isAlpha ∧ endsParameter c = false := by
    rintro c (alphanum | rfl | rfl)
    · have small : c.toNat < 0x80 := by
        have ranges : c.isAlphanum = ((decide ('A'.val ≤ c.val ∧ c.val ≤ 'Z'.val)
            || (decide ('a'.val ≤ c.val) && decide (c.val ≤ 'z'.val)))
              || (decide ('0'.val ≤ c.val) && decide (c.val ≤ '9'.val))) := rfl
        simp only [ranges, Bool.or_eq_true, Bool.and_eq_true, decide_eq_true_eq,
          UInt32.le_iff_toNat_le] at alphanum
        simp at alphanum
        omega
      refine ⟨isAlphabetic_of_lt small, ?_⟩
      unfold endsParameter
      simp only [Bool.or_eq_false_iff, beq_eq_false_iff_ne]
      refine ⟨⟨?_, ?_⟩, ?_⟩ <;> rintro rfl <;> revert alphanum <;> decide
    · exact ⟨isAlphabetic_of_lt (by decide), by decide⟩
    · exact ⟨isAlphabetic_of_lt (by decide), by decide⟩
  cases h with
  | @name c cs first others =>
    intro d m
    rcases List.mem_cons.1 m with rfl | m
    · rcases first with letter | rfl
      · exact plain d (.inl (by simp [Char.isAlphanum, letter]))
      · exact plain '_' (.inr (.inl rfl))
    · rcases others d m with alphanum | rfl
      · exact plain d (.inl alphanum)
      · exact plain '_' (.inr (.inl rfl))
  | dots =>
    intro d m
    simp only [List.mem_cons, List.not_mem_nil, or_false, or_self] at m
    exact plain d (.inr (.inr m))

/-! ## Counting -/

variable {reading : Bool}

/-- Characters that end no parameter say at most that a letter was read. -/
theorem countParameters_run {run : List Char} (plain : ∀ c ∈ run, endsParameter c = false)
    (rest : List Char) :
    countParameters reading (run ++ rest)
      = countParameters (reading || run.any isAlphabetic) rest := by
  induction run generalizing reading with
  | nil => simp
  | cons c run ih =>
    obtain ⟨here, behind⟩ := List.forall_mem_cons.1 plain
    rw [List.cons_append, countParameters, List.any_cons]
    cases letter : isAlphabetic c with
    | true => simp [ih behind]
    | false => simp [here, ih behind]

/-- Blanks are no parameter. -/
theorem countParameters_blanks {blanks : List Char} (blank : AllBlank blanks) (rest : List Char) :
    countParameters false (blanks ++ rest) = countParameters false rest := by
  induction blanks with
  | nil => rfl
  | cons c blanks ih =>
    obtain ⟨here, behind⟩ := List.forall_mem_cons.1 blank
    rw [List.cons_append, countParameters, not_isAlphabetic_of_isBlank here]
    simp [ih behind]

/-- A parameter that was read is over at the next comma or parenthesis at the latest, whichever
blanks stand in front of that; a space among them ends it before. -/
theorem countParameters_stop {blanks : List Char} (blank : AllBlank blanks) {stop : Char}
    (ends : endsParameter stop = true) (rest : List Char) :
    countParameters reading (blanks ++ stop :: rest)
      = (if reading then 1 else 0) + countParameters false rest := by
  induction blanks generalizing reading with
  | nil =>
    rw [List.nil_append, countParameters, not_isAlphabetic_of_endsParameter ends, ends]
    cases reading <;> simp [Nat.add_comm]
  | cons c blanks ih =>
    obtain ⟨here, behind⟩ := List.forall_mem_cons.1 blank
    rw [List.cons_append, countParameters, not_isAlphabetic_of_isBlank here]
    -- A space ends a parameter that was read, and then none is being read at the stop.
    cases reading <;> simp [ih behind, Nat.add_comm]

/-- One parameter of a list, with the comma or the parenthesis behind it. -/
theorem countParameters_item {front parameter back : List Char} (front_blank : AllBlank front)
    (isParameter : IsParameter parameter) (back_blank : AllBlank back) {stop : Char}
    (ends : endsParameter stop = true) (rest : List Char) :
    countParameters false (front ++ parameter ++ back ++ stop :: rest)
      = (if hasLetter parameter then 1 else 0) + countParameters false rest := by
  have letters : parameter.any isAlphabetic = hasLetter parameter := by
    rw [hasLetter, Bool.eq_iff_iff, List.any_eq_true, List.any_eq_true]
    refine exists_congr fun c => and_congr_right fun m => ?_
    rw [(isParameter.plain c m).1]
  rw [List.append_assoc, List.append_assoc, countParameters_blanks front_blank,
    countParameters_run (fun c m => (isParameter.plain c m).2), countParameters_stop back_blank ends,
    Bool.false_or, letters]

/-- A list has as many parameters as there are with a letter. -/
theorem Lists.count_eq {list : List Char} {parameters : List (List Char)}
    (h : Lists list parameters) :
    countParameters false (list ++ [')']) = parameters.countP hasLetter := by
  have closing : endsParameter ')' = true := by decide
  have comma : endsParameter ',' = true := by decide
  induction h with
  | none blank => exact countParameters_blanks blank [')']
  | last front isParameter back =>
    rw [countParameters_item front isParameter back closing]
    simp [countParameters, List.countP_cons]
  | @more front parameter back rest first others front_blank isParameter back_blank _ ih =>
    rw [List.append_assoc, List.cons_append,
      countParameters_item front_blank isParameter back_blank comma, ih,
      List.countP_cons (l := first :: others), Nat.add_comm]

/-- A list of parameters has no parenthesis. -/
theorem Lists.not_mem_closing {list : List Char} {parameters : List (List Char)}
    (h : Lists list parameters) : ')' ∉ list := by
  have visible : isBlank ')' = false := by decide
  have other {parameter : List Char} (isParameter : IsParameter parameter) : ')' ∉ parameter := by
    intro m
    have plain := (isParameter.plain _ m).2
    revert plain
    decide
  induction h with
  | none blank => exact blank.not_mem visible
  | last front isParameter back =>
    simp [front.not_mem visible, other isParameter, back.not_mem visible]
  | more front isParameter back _ ih =>
    simp [front.not_mem visible, other isParameter, back.not_mem visible, ih]

/-! ## Declaration lines -/

/-- A line that holds the keyword, behind a text without it, a name with blanks around it, and a list
of parameters in parentheses declares a function of that name. Its arity is the number of parameters
that have a letter, and so the number of all parameters when each of them has one. -/
theorem parseLine?_of_lists {before front title back list : List Char}
    {parameters : List (List Char)} (free : ¬keyword <:+: before) (front_blank : AllBlank front)
    (tight : Tight title) (unopened : '(' ∉ title) (back_blank : AllBlank back)
    (lists : Lists list parameters) (after : List Char) :
    let line := before ++ keyword ++ (front ++ title ++ back ++ '(' :: (list ++ ')' :: after))
    parseLine? line = some (title, parameters.countP hasLetter)
      ∧ ((∀ parameter ∈ parameters, hasLetter parameter = true) →
        parseLine? line = some (title, parameters.length)) := by
  intro line
  have visible : isBlank '(' = false := by decide
  have opening_first : '(' ∉ front ++ title ++ back := by
    simp [front_blank.not_mem visible, unopened, back_blank.not_mem visible]
  let heading : Heading line :=
    ⟨before, front ++ title ++ back, list, after, rfl, fun _ _ => keyword_first_of_free free,
      opening_first, lists.not_mem_closing⟩
  have name : title = trim heading.title := (trim_padded front_blank back_blank tight).symm
  have arity : parameters.countP hasLetter = heading.arity := by
    rw [Heading.arity, ← countParameters_eq]
    exact lists.count_eq.symm
  have parsed : parseLine? line = some (title, parameters.countP hasLetter) :=
    parseLine?_eq_some_iff.2 ⟨heading, name, arity⟩
  refine ⟨parsed, fun all => ?_⟩
  rw [parsed, List.countP_eq_length.2 all]

/-- Of a name with a number, an underscore, the dots and a name with an underscore, those with a
letter are counted, whatever stands around the declaration. -/
theorem parseLine?_of_lists_of_tick :
    let list := [' ', 'a', '1', '\t', ',', ' ', '_', ' ', ',', '.', '.', '.', ',', 'n', '_']
    let parameters := [['a', '1'], ['_'], ['.', '.', '.'], ['n', '_']]
    ¬keyword <:+: ['x', ' ', '='] ∧ Tight ['g', '.', 'h'] ∧ Lists list parameters
      ∧ parseLine? (['x', ' ', '='] ++ keyword
          ++ ([' '] ++ ['g', '.', 'h'] ++ ['\t'] ++ '(' :: (list ++ ')' :: [' ', '(', 'y', ')'])))
        = some (['g', '.', 'h'], 2) := by
  intro list parameters
  have free : ¬keyword <:+: ['x', ' ', '='] := by decide
  have tight : Tight ['g', '.', 'h'] := by
    constructor
    · simp only [List.head?_cons, Option.mem_def, Option.some.injEq, forall_eq']
      decide
    · simp only [List.getLast?_cons_cons, List.getLast?_singleton, Option.mem_def,
        Option.some.injEq, forall_eq']
      decide
  have lists : Lists list parameters := by
    refine @Lists.more [' '] ['a', '1'] ['\t'] _ _ _ (by decide) ?_ (by decide) ?_
    · exact .name (by decide) (List.forall_mem_singleton.2 (by decide))
    refine @Lists.more [' '] ['_'] [' '] _ _ _ (by decide) ?_ (by decide) ?_
    · exact .name (by decide) (List.forall_mem_nil _)
    refine @Lists.more [] ['.', '.', '.'] [] _ _ _ (by decide) .dots (by decide) ?_
    refine @Lists.last [] ['n', '_'] [] (by decide) ?_ (by decide)
    exact .name (by decide) (List.forall_mem_singleton.2 (by decide))
  exact ⟨free, tight, lists, (parseLine?_of_lists free (by decide) tight (by decide) (by decide)
    lists [' ', '(', 'y', ')']).1⟩

end FunctionDecl

end ScriptHost
