import ScriptHost.Source

/-!
# Lines, and the parts of a line

What a text is cut into, said without the functions that cut it.

* `Text.EndsJoined` : a text, and the text with a line feed for each carriage return and line feed.
* `Text.CutInto` : a text and its lines.
* `Text.fields_eq_iff`, `Text.after?_eq_some_iff`, `Text.upTo?_eq_some_iff` : what a list of fields
  and what a search gives.
* `FunctionDecl.Heading` : where the parts of a declaration stand in a line.
-/

namespace ScriptHost

namespace Text

/-! ## Line ends -/

/-- A carriage return and a line feed. -/
def lineEnd : List Char := ['\r', '\n']

/-- A text, and the same text with a line feed in the place of every `lineEnd`. -/
inductive EndsJoined : List Char → List Char → Prop where
  | rest {cs : List Char} : ¬lineEnd <:+: cs → EndsJoined cs cs
  | first {front back joined : List Char} : ¬lineEnd <:+: front → EndsJoined back joined →
      EndsJoined (front ++ lineEnd ++ back) (front ++ '\n' :: joined)

theorem joinLineEnds_lineEnd (cs : List Char) :
    joinLineEnds (lineEnd ++ cs) = '\n' :: joinLineEnds cs := by
  rw [lineEnd, List.cons_append, List.cons_append, List.nil_append, joinLineEnds]

/-- A character with which no line end starts is kept. -/
theorem joinLineEnds_cons {c : Char} {cs : List Char} (h : ¬lineEnd <+: c :: cs) :
    joinLineEnds (c :: cs) = c :: joinLineEnds cs := by
  rw [joinLineEnds]
  rintro back rfl rfl
  exact h ⟨back, rfl⟩

/-- A line end starts a text after its first character in no other place than behind it. -/
theorem lineEnd_prefix_cons_iff {c : Char} {cs : List Char} :
    lineEnd <+: c :: cs ↔ c = '\r' ∧ cs.head? = some '\n' := by
  rw [lineEnd, List.cons_prefix_cons]
  cases cs with
  | nil => simp
  | cons d cs =>
    rw [List.cons_prefix_cons]
    simp [eq_comm]

/-- A part without line ends is kept, unless one starts at its last character. -/
theorem joinLineEnds_append {front back : List Char} (h : ¬lineEnd <:+: front)
    (apart : front.getLast? = some '\r' → back.head? ≠ some '\n') :
    joinLineEnds (front ++ back) = front ++ joinLineEnds back := by
  induction front with
  | nil => rfl
  | cons c front ih =>
    rw [List.infix_cons_iff, not_or, lineEnd_prefix_cons_iff] at h
    have here : ¬lineEnd <+: c :: (front ++ back) := by
      rw [lineEnd_prefix_cons_iff]
      cases front with
      | nil => exact fun both => apart (by simp [both.1]) both.2
      | cons d front => exact h.1
    rw [List.cons_append, joinLineEnds_cons here, ih h.2, List.cons_append]
    intro last
    apply apart
    rw [List.getLast?_cons, last]
    rfl

theorem joinLineEnds_eq_self {cs : List Char} (h : ¬lineEnd <:+: cs) :
    joinLineEnds cs = cs := by
  have kept : joinLineEnds (cs ++ []) = cs ++ joinLineEnds [] := joinLineEnds_append h (by simp)
  rwa [List.append_nil, joinLineEnds, List.append_nil] at kept

theorem EndsJoined.cons {c : Char} {cs joined : List Char} (here : ¬lineEnd <+: c :: cs)
    (h : EndsJoined cs joined) : EndsJoined (c :: cs) (c :: joined) := by
  cases h with
  | rest free => exact .rest (by rw [List.infix_cons_iff]; exact not_or.2 ⟨here, free⟩)
  | @first front back joined free tail =>
    refine @EndsJoined.first (c :: front) _ _ ?_ tail
    rw [List.infix_cons_iff]
    refine not_or.2 ⟨fun start => here ?_, free⟩
    rw [List.append_assoc, ← List.cons_append]
    exact start.trans (List.prefix_append _ _)

theorem endsJoined_joinLineEnds (cs : List Char) : EndsJoined cs (joinLineEnds cs) := by
  induction cs using joinLineEnds.induct with
  | case1 => exact .rest (by simp [lineEnd])
  | case2 cs ih => exact @EndsJoined.first [] _ _ (by simp [lineEnd]) ih
  | case3 c cs other ih =>
    have here : ¬lineEnd <+: c :: cs := by
      rintro ⟨back, same⟩
      obtain ⟨rfl, rfl⟩ := List.cons.inj same
      exact other back rfl rfl
    rw [joinLineEnds_cons here]
    exact ih.cons here

/-- There is one text with line feeds for line ends, and `joinLineEnds` gives it. -/
theorem endsJoined_iff {cs joined : List Char} :
    EndsJoined cs joined ↔ joined = joinLineEnds cs := by
  constructor
  · intro h
    induction h with
    | rest free => exact (joinLineEnds_eq_self free).symm
    | first free _ ih =>
      rw [List.append_assoc, joinLineEnds_append free (by simp [lineEnd]), joinLineEnds_lineEnd, ih]
  · rintro rfl
    exact endsJoined_joinLineEnds cs

/-! ## Lines -/

/-- A text and its lines. A line ends with a line feed, with a carriage return and a line feed, or
with the text; at the end of the text there is no empty line. -/
inductive CutInto : List Char → List (List Char) → Prop where
  | nil : CutInto [] []
  | last {line : List Char} : line ≠ [] → '\n' ∉ line → CutInto line [line]
  | lineFeed {line cs : List Char} {ls : List (List Char)} : '\n' ∉ line →
      line.getLast? ≠ some '\r' → CutInto cs ls → CutInto (line ++ '\n' :: cs) (line :: ls)
  | lineEnd {line cs : List Char} {ls : List (List Char)} : '\n' ∉ line →
      CutInto cs ls → CutInto (line ++ lineEnd ++ cs) (line :: ls)

theorem not_lineEnd_inside {line : List Char} (h : '\n' ∉ line) : ¬lineEnd <:+: line :=
  fun inside => h (inside.subset (by simp [lineEnd]))

theorem pieces_of_not_mem {line : List Char} (proper : line ≠ []) (h : '\n' ∉ line) :
    pieces line = [line] := by
  induction line with
  | nil => exact absurd rfl proper
  | cons c line ih =>
    obtain ⟨hc, hl⟩ := not_or.1 (mt List.mem_cons.2 h)
    rw [pieces_cons_of_ne line (Ne.symm hc)]
    cases line with
    | nil => rfl
    | cons d line => rw [ih (List.cons_ne_nil d line) hl, consHead]

theorem CutInto.lines_eq {cs : List Char} {ls : List (List Char)} (h : CutInto cs ls) :
    lines cs = ls := by
  induction h with
  | nil => rfl
  | @last line proper free =>
    rw [lines, joinLineEnds_eq_self (not_lineEnd_inside free), pieces_of_not_mem proper free]
  | @lineFeed line cs ls free ends _ ih =>
    have kept : joinLineEnds (line ++ '\n' :: cs) = line ++ '\n' :: joinLineEnds cs := by
      rw [joinLineEnds_append (not_lineEnd_inside free) fun last => absurd last ends,
        joinLineEnds_cons (by simp [lineEnd_prefix_cons_iff])]
    rw [lines, kept, pieces_append_lineFeed _ free, ← lines, ih]
  | @lineEnd line cs ls free _ ih =>
    rw [lines, List.append_assoc,
      joinLineEnds_append (not_lineEnd_inside free) (by simp [Text.lineEnd]), joinLineEnds_lineEnd,
      pieces_append_lineFeed _ free, ← lines, ih]

/-- Every text can be cut into lines. -/
theorem exists_cutInto (cs : List Char) : ∃ ls, CutInto cs ls := by
  -- The first line feed ends a line, and what follows it is shorter.
  induction size : cs.length using Nat.strongRecOn generalizing cs with
  | ind n ih =>
    by_cases m : '\n' ∈ cs
    · obtain ⟨front, back, rfl, free⟩ := List.eq_append_cons_of_mem m
      obtain ⟨ls, cut⟩ := ih back.length (by simp at size; omega) back rfl
      by_cases ends : front.getLast? = some '\r'
      · obtain ⟨line, rfl⟩ := List.getLast?_eq_some_iff.1 ends
        refine ⟨line :: ls, ?_⟩
        have whole := CutInto.lineEnd (fun m : '\n' ∈ line => free (by simp [m])) cut
        simpa [lineEnd] using whole
      · exact ⟨front :: ls, .lineFeed free ends cut⟩
    · cases cs with
      | nil => exact ⟨[], .nil⟩
      | cons c cs => exact ⟨[c :: cs], .last (List.cons_ne_nil c cs) m⟩

/-- A text is cut into lines in one way, and `lines` gives them. -/
theorem cutInto_iff {cs : List Char} {ls : List (List Char)} : CutInto cs ls ↔ ls = lines cs := by
  constructor
  · exact fun h => h.lines_eq.symm
  · rintro rfl
    obtain ⟨ls, cut⟩ := exists_cutInto cs
    rw [cut.lines_eq]
    exact cut

/-! ## Parts of a line -/

theorem fields_eq_splitOn (separator : Char) (cs : List Char) :
    fields separator cs = cs.splitOn separator := by
  induction cs with
  | nil => rfl
  | cons c cs ih =>
    rw [fields, ih, List.splitOn, List.splitOn, List.splitOnP_cons_eq_if_modifyHead]
    by_cases same : c = separator
    · simp [same]
    · rw [if_neg same, if_neg (by simpa using same)]
      cases parts : cs.splitOnP fun x => x == separator with
      | nil => exact absurd parts (List.splitOnP_ne_nil _ _)
      | cons part parts => rfl

theorem fields_append (separator : Char) (front back : List Char) :
    fields separator (front ++ separator :: back)
      = fields separator front ++ fields separator back := by
  rw [fields_eq_splitOn, fields_eq_splitOn, fields_eq_splitOn]
  exact List.splitOnP_append_cons front back (beq_self_eq_true separator)

theorem not_mem_of_mem_fields {separator : Char} {cs part : List Char}
    (m : part ∈ fields separator cs) : separator ∉ part := by
  induction cs generalizing part with
  | nil =>
    rw [List.mem_singleton.1 m]
    exact List.not_mem_nil
  | cons c cs ih =>
    rw [fields] at m
    split at m
    case isTrue =>
      rcases List.mem_cons.1 m with rfl | m
      · exact List.not_mem_nil
      · exact ih m
    case isFalse different =>
      cases parts : fields separator cs with
      | nil =>
        rw [parts, consHead, List.mem_singleton] at m
        rw [m, List.mem_singleton]
        exact fun same => different same.symm
      | cons first others =>
        rw [parts] at m ih
        rcases List.mem_cons.1 m with rfl | m
        · rw [List.mem_cons, not_or]
          exact ⟨fun same => different same.symm, ih List.mem_cons_self⟩
        · exact ih (List.mem_cons_of_mem first m)

/-- The fields of a text are the parts that make it with separators between them. -/
theorem fields_eq_iff {separator : Char} {cs : List Char} {parts : List (List Char)} :
    fields separator cs = parts
      ↔ parts ≠ [] ∧ (∀ part ∈ parts, separator ∉ part) ∧ cs = [separator].intercalate parts := by
  constructor
  · rintro rfl
    refine ⟨?_, fun part m => not_mem_of_mem_fields m, ?_⟩
    · rw [fields_eq_splitOn]
      exact List.splitOn_ne_nil _ _
    · rw [fields_eq_splitOn, List.intercalate_splitOn]
  · rintro ⟨proper, free, rfl⟩
    rw [fields_eq_splitOn]
    exact List.splitOn_intercalate separator free proper

/-- What follows a pattern is what follows its first occurrence. -/
theorem after?_eq_some_iff {pattern cs rest : List Char} :
    after? pattern cs = some rest
      ↔ ∃ before, cs = before ++ pattern ++ rest
        ∧ ∀ front back, cs = front ++ pattern ++ back → before.length ≤ front.length := by
  induction cs with
  | nil =>
    rw [after?]
    constructor
    · intro found
      split at found
      case isTrue empty =>
        cases found
        exact ⟨[], by simp [List.isEmpty_iff.1 empty], by simp⟩
      case isFalse => cases found
    · rintro ⟨before, same, _⟩
      obtain ⟨front, rfl⟩ := List.append_eq_nil_iff.1 same.symm
      rw [if_pos (List.isEmpty_iff.2 (List.append_eq_nil_iff.1 front).2)]
  | cons c cs ih =>
    rw [after?]
    split
    case isTrue here =>
      obtain ⟨back, same⟩ := List.isPrefixOf_iff_prefix.1 here
      rw [← same, List.drop_left]
      constructor
      · rintro ⟨⟩
        exact ⟨[], rfl, by simp⟩
      · rintro ⟨before, split, least⟩
        have empty : before = [] := List.length_eq_zero_iff.1 (Nat.le_zero.1 (least [] back rfl))
        rw [empty, List.nil_append] at split
        rw [List.append_cancel_left split]
    case isFalse elsewhere =>
      -- The first occurrence starts behind the first character.
      have later : ∀ front back, c :: cs = front ++ pattern ++ back →
          ∃ tail, front = c :: tail ∧ cs = tail ++ pattern ++ back := by
        intro front back same
        cases front with
        | nil => exact absurd (List.isPrefixOf_iff_prefix.2 ⟨back, same.symm⟩) elsewhere
        | cons d tail =>
          obtain ⟨rfl, rest⟩ := List.cons.inj same
          exact ⟨tail, rfl, rest⟩
      rw [ih]
      constructor
      · rintro ⟨before, split, least⟩
        refine ⟨c :: before, by rw [split]; rfl, ?_⟩
        intro front back same
        obtain ⟨tail, rfl, behind⟩ := later front back same
        exact Nat.succ_le_succ (least tail back behind)
      · rintro ⟨before, split, least⟩
        obtain ⟨tail, rfl, behind⟩ := later before rest split
        refine ⟨tail, behind, ?_⟩
        intro front back same
        exact Nat.le_of_succ_le_succ (least (c :: front) back (by rw [same]; rfl))

/-- The text is cut in front of its first `stop`. -/
theorem upTo?_eq_some_iff {stop : Char} {cs front back : List Char} :
    upTo? stop cs = some (front, back)
      ↔ stop ∉ front ∧ ∃ rest, back = stop :: rest ∧ cs = front ++ stop :: rest := by
  constructor
  · intro found
    induction cs generalizing front with
    | nil => cases found
    | cons c cs ih =>
      rw [upTo?] at found
      split at found
      case isTrue same =>
        cases found
        exact ⟨List.not_mem_nil, cs, by rw [same], by rw [same]; rfl⟩
      case isFalse different =>
        obtain ⟨⟨tail, _⟩, inside, same⟩ := Option.map_eq_some_iff.1 found
        obtain ⟨rfl, rfl⟩ := Prod.mk.inj same
        obtain ⟨free, rest, rfl, rfl⟩ := ih inside
        refine ⟨?_, rest, rfl, rfl⟩
        rw [List.mem_cons, not_or]
        exact ⟨fun same => different same.symm, free⟩
  · rintro ⟨free, rest, rfl, rfl⟩
    exact upTo?_append rest free

end Text

namespace FunctionDecl

open Text

theorem not_isAlphabetic_of_endsParameter {c : Char} (h : endsParameter c = true) :
    isAlphabetic c = false := by
  simp only [endsParameter, Bool.or_eq_true, beq_iff_eq] at h
  rcases h with (rfl | rfl) | rfl <;> decide +kernel

/-- A part of a parameter list counts when it has a letter. The first part counts, too, when a
letter stands in front of it. -/
theorem countParameters_append (parameters : List Char) (reading : Bool) :
    ∃ part parts, parameters.splitOnP endsParameter = part :: parts
      ∧ countParameters reading (parameters ++ [')'])
        = (if reading || part.any isAlphabetic then 1 else 0)
          + parts.countP (List.any · isAlphabetic) := by
  -- A letter that was read belongs to the first part, whose beginning is in front of the list.
  induction parameters generalizing reading with
  | nil => cases reading <;> exact ⟨[], [], rfl, by decide⟩
  | cons c parameters ih =>
    rw [List.splitOnP_cons_eq_if_modifyHead, List.cons_append, countParameters]
    by_cases stop : endsParameter c = true
    · have letter : isAlphabetic c = false := not_isAlphabetic_of_endsParameter stop
      obtain ⟨part, parts, cut, count⟩ := ih false
      refine ⟨[], part :: parts, by rw [if_pos stop, cut], ?_⟩
      rw [letter, stop, count, List.countP_cons]
      cases reading <;> simp [Nat.add_comm, count]
    · rw [Bool.not_eq_true] at stop
      obtain ⟨part, parts, cut, count⟩ := ih (reading || isAlphabetic c)
      refine ⟨c :: part, parts, by simp [stop, cut], ?_⟩
      cases letter : isAlphabetic c <;> simp_all

/-- A parameter list has as many parameters as there are parts with a letter between spaces and
commas. -/
theorem countParameters_eq (parameters : List Char) :
    countParameters false (parameters ++ [')'])
      = (parameters.splitOnP endsParameter).countP (List.any · isAlphabetic) := by
  obtain ⟨part, parts, cut, count⟩ := countParameters_append parameters false
  rw [count, cut, List.countP_cons, Bool.false_or, Nat.add_comm]

/-- Where the parts of a declaration stand in a line: each of the keyword, the opening and the
closing parenthesis is the first one behind the part before it. -/
structure Heading (line : List Char) where
  (before title parameters after : List Char)
  line_eq : line = before ++ keyword ++ (title ++ '(' :: (parameters ++ ')' :: after))
  keyword_first : ∀ front back, line = front ++ keyword ++ back → before.length ≤ front.length
  opening_first : '(' ∉ title
  closing_first : ')' ∉ parameters

variable {line : List Char}

/-- The number of parts of the parameter list that have a letter. -/
def Heading.arity (heading : Heading line) : Nat :=
  (heading.parameters.splitOnP endsParameter).countP (List.any · isAlphabetic)

/-- The opening parenthesis in front of a parameter list is no parameter. -/
theorem Heading.arity_eq (heading : Heading line) :
    heading.arity = countParameters false ('(' :: heading.parameters ++ [')']) := by
  have opening : isAlphabetic '(' = false := by decide +kernel
  rw [List.cons_append, countParameters, opening, Bool.false_and, Heading.arity, countParameters_eq]
  simp

theorem parseLine?_eq_some_iff {name : List Char} {arity : Nat} :
    parseLine? line = some (name, arity)
      ↔ ∃ heading : Heading line, name = trim heading.title ∧ arity = heading.arity := by
  constructor
  · intro found
    unfold parseLine? at found
    split at found
    case h_1 => cases found
    case h_2 rest behind =>
    split at found
    case h_1 => cases found
    case h_2 title fromOpening opening =>
    split at found
    case h_1 => cases found
    case h_2 list after closing =>
    cases found
    obtain ⟨before, rfl, least⟩ := after?_eq_some_iff.1 behind
    obtain ⟨opening_first, rest, rfl, rfl⟩ := upTo?_eq_some_iff.1 opening
    obtain ⟨closing_first, after, rfl, same⟩ := upTo?_eq_some_iff.1 closing
    cases list with
    | nil => exact absurd (List.cons.inj same).1 (by decide)
    | cons c parameters =>
      obtain ⟨rfl, rfl⟩ := List.cons.inj same
      have closing_first : ')' ∉ parameters := fun m => closing_first (List.mem_cons_of_mem _ m)
      refine ⟨⟨before, title, parameters, after, rfl, least, opening_first, closing_first⟩, rfl, ?_⟩
      rw [Heading.arity_eq]
  · rintro ⟨heading, rfl, rfl⟩
    have behind := after?_eq_some_iff.2 ⟨heading.before, heading.line_eq, heading.keyword_first⟩
    have opening := upTo?_append (heading.parameters ++ ')' :: heading.after) heading.opening_first
    have free : ')' ∉ '(' :: heading.parameters := by
      rw [List.mem_cons, not_or]
      exact ⟨by decide, heading.closing_first⟩
    have closing := upTo?_append heading.after free
    rw [List.cons_append] at closing
    rw [parseLine?, behind]
    dsimp only
    rw [opening]
    dsimp only
    rw [closing]
    dsimp only
    rw [← Heading.arity_eq]

end FunctionDecl

end ScriptHost
