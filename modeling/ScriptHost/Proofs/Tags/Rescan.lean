import ScriptHost.Proofs.Entries
import ScriptHost.Proofs.Tags.Scan

/-!
# Scanning a script again

A scan takes carriage returns off its lines before it puts a line feed behind each of them. A
carriage return that is left at the end of a line makes a line end with that line feed, and another
scan takes it off, too; everything else that a scan does is done for good.

* `Text.dropReturn` : a line without a carriage return at its end.
* `Text.lines_unlines` : the lines of a text that is made of lines.
* `Text.lineEnd_infix_unlines_iff` : when such a text has a carriage return in front of a line feed.
* `FunctionDecl.parseLine?_append` : what stands behind a declaration does not count.
* `Source.scan_scan` : what the scan of a cleaned text gives.
-/

namespace ScriptHost

/-! ## Line ends -/

namespace Text

/-- Only a text without line ends has the same characters after its line ends are joined. -/
theorem joinLineEnds_eq_self_iff {cs : List Char} : joinLineEnds cs = cs ↔ ¬lineEnd <:+: cs := by
  constructor
  · intro same
    have joined := endsJoined_joinLineEnds cs
    generalize joinLineEnds cs = written at same joined
    cases joined with
    | rest free => exact free
    | @first front back joined free tail =>
      rw [lineEnd, List.append_assoc] at same
      have behind := List.append_cancel_left same
      exact absurd (List.cons.inj behind).1 (by decide)
  · exact joinLineEnds_eq_self

/-- A line without a carriage return at its end. -/
def dropReturn (line : List Char) : List Char :=
  if line.getLast? = some '\r' then line.dropLast else line

theorem dropReturn_append (front : List Char) : dropReturn (front ++ ['\r']) = front := by
  simp [dropReturn]

theorem dropReturn_of_ne {line : List Char} (h : line.getLast? ≠ some '\r') :
    dropReturn line = line := if_neg h

theorem length_dropReturn_le (line : List Char) : (dropReturn line).length ≤ line.length := by
  unfold dropReturn
  split <;> simp

theorem dropReturn_eq_self_iff {line : List Char} :
    dropReturn line = line ↔ line.getLast? ≠ some '\r' := by
  constructor
  · intro same ends
    obtain ⟨front, rfl⟩ := List.getLast?_eq_some_iff.1 ends
    rw [dropReturn_append] at same
    have lengths := congrArg List.length same
    simp at lengths
  · exact dropReturn_of_ne

/-- A line without two carriage returns at its end. -/
def dropReturns (line : List Char) : List Char := dropReturn (dropReturn line)

theorem dropReturns_eq_self_iff {line : List Char} :
    dropReturns line = line ↔ line.getLast? ≠ some '\r' := by
  constructor
  · intro same ends
    obtain ⟨front, rfl⟩ := List.getLast?_eq_some_iff.1 ends
    have lengths := congrArg List.length same
    rw [dropReturns, dropReturn_append, List.length_append, List.length_singleton] at lengths
    have shorter := length_dropReturn_le front
    omega
  · intro apart
    rw [dropReturns, dropReturn_of_ne apart, dropReturn_of_ne apart]

theorem not_mem_dropReturn {line : List Char} {c : Char} (h : c ∉ line) : c ∉ dropReturn line := by
  unfold dropReturn
  split
  · exact fun m => h (List.mem_of_mem_dropLast m)
  · exact h

/-- Joining the line ends of a text takes a carriage return off the end of its first line. -/
theorem joinLineEnds_line {line : List Char} (free : '\n' ∉ line) (rest : List Char) :
    joinLineEnds (line ++ '\n' :: rest) = dropReturn line ++ '\n' :: joinLineEnds rest := by
  by_cases ends : line.getLast? = some '\r'
  · obtain ⟨front, rfl⟩ := List.getLast?_eq_some_iff.1 ends
    have inside : '\n' ∉ front := fun m => free (List.mem_append_left _ m)
    have cut : front ++ ['\r'] ++ '\n' :: rest = front ++ (lineEnd ++ rest) := by simp [lineEnd]
    rw [dropReturn_append, cut, joinLineEnds_append (not_lineEnd_inside inside) (by simp [lineEnd]),
      joinLineEnds_lineEnd]
  · rw [dropReturn_of_ne ends,
      joinLineEnds_append (not_lineEnd_inside free) fun last => absurd last ends,
      joinLineEnds_cons (by simp [lineEnd_prefix_cons_iff])]

section

variable {ls : List (List Char)} (free : ∀ line ∈ ls, '\n' ∉ line)

include free

/-- A text of lines has its lines. -/
theorem unlines_inj {others : List (List Char)} (others_free : ∀ line ∈ others, '\n' ∉ line) :
    unlines others = unlines ls ↔ others = ls := by
  refine ⟨fun same => ?_, congrArg unlines⟩
  rw [← pieces_unlines others_free, same, pieces_unlines free]

theorem joinLineEnds_unlines : joinLineEnds (unlines ls) = unlines (ls.map dropReturn) := by
  induction ls with
  | nil => rfl
  | cons line ls ih =>
    obtain ⟨here, later⟩ := List.forall_mem_cons.1 free
    rw [unlines, joinLineEnds_line here, ih later, List.map_cons, unlines]

theorem not_mem_map_dropReturn : ∀ line ∈ ls.map dropReturn, '\n' ∉ line := by
  intro shortened m
  obtain ⟨line, there, rfl⟩ := List.mem_map.1 m
  exact not_mem_dropReturn (free line there)

/-- The lines of a text that is made of lines are these, but for a carriage return. -/
theorem lines_unlines : lines (unlines ls) = ls.map dropReturn := by
  rw [lines, joinLineEnds_unlines free, pieces_unlines (not_mem_map_dropReturn free)]

/-- Lines with a line feed behind each have a line end where a line ends with a carriage return. -/
theorem lineEnd_infix_unlines_iff :
    lineEnd <:+: unlines ls ↔ ∃ line ∈ ls, line.getLast? = some '\r' := by
  rw [← not_iff_not, ← joinLineEnds_eq_self_iff, joinLineEnds_unlines free,
    unlines_inj free (not_mem_map_dropReturn free), map_eq_self_iff]
  simp [dropReturn_eq_self_iff]

end

/-- No line of a text has a line feed. -/
theorem not_mem_of_mem_lines {cs line : List Char} (m : line ∈ lines cs) : '\n' ∉ line := by
  obtain ⟨ls, cut⟩ := exists_cutInto cs
  rw [cut.lines_eq] at m
  induction cut with
  | nil => cases m
  | last _ free =>
    rw [List.mem_singleton.1 m]
    exact free
  | lineFeed free _ _ ih =>
    rcases List.mem_cons.1 m with rfl | m
    · exact free
    · exact ih m
  | lineEnd free _ ih =>
    rcases List.mem_cons.1 m with rfl | m
    · exact free
    · exact ih m

/-- What stands at the end of a text with its line ends joined comes from an end of the text. -/
theorem exists_suffix_of_joinLineEnds {cs tail : List Char} (h : tail <:+ joinLineEnds cs) :
    ∃ rest, rest <:+ cs ∧ joinLineEnds rest = tail := by
  induction cs using joinLineEnds.induct with
  | case1 => exact ⟨[], List.suffix_rfl, (List.suffix_nil.1 h).symm⟩
  | case2 cs ih =>
    rcases List.suffix_cons_iff.1 h with whole | inside
    · exact ⟨_, List.suffix_rfl, whole.symm⟩
    · obtain ⟨rest, suffix, same⟩ := ih inside
      exact ⟨rest, suffix.trans (List.suffix_append lineEnd cs), same⟩
  | case3 c cs other ih =>
    have here : ¬lineEnd <+: c :: cs := by
      rintro ⟨back, same⟩
      obtain ⟨rfl, rfl⟩ := List.cons.inj same
      exact other back rfl rfl
    rw [joinLineEnds_cons here] at h
    rcases List.suffix_cons_iff.1 h with whole | inside
    · exact ⟨_, List.suffix_rfl, by rw [joinLineEnds_cons here, whole]⟩
    · obtain ⟨rest, suffix, same⟩ := ih inside
      exact ⟨rest, suffix.trans (List.suffix_cons c cs), same⟩

/-- Some carriage returns and a line feed. -/
def returnsEnd (count : Nat) : List Char := List.replicate count '\r' ++ ['\n']

/-- The first line feed of a text with its line ends joined stood there or was a line end. -/
theorem starts_of_lineFeed_starts {cs : List Char} (h : ['\n'] <+: joinLineEnds cs) :
    ['\n'] <+: cs ∨ lineEnd <+: cs := by
  by_cases ends : lineEnd <+: cs
  · exact .inr ends
  · cases cs with
    | nil => exact .inl h
    | cons c cs =>
      rw [joinLineEnds_cons ends, List.cons_prefix_cons] at h
      exact .inl (List.cons_prefix_cons.2 ⟨h.1, List.nil_prefix⟩)

/-- The first carriage return of such a text stood there, and not in front of a line feed. -/
theorem exists_of_return_prefix {cs tail : List Char} (h : '\r' :: tail <+: joinLineEnds cs) :
    ∃ rest, cs = '\r' :: rest ∧ ¬['\n'] <+: rest ∧ tail <+: joinLineEnds rest := by
  by_cases ends : lineEnd <+: cs
  · obtain ⟨rest, rfl⟩ := ends
    rw [joinLineEnds_lineEnd, List.cons_prefix_cons] at h
    exact absurd h.1 (by decide)
  · cases cs with
    | nil => exact absurd (List.prefix_nil.1 h) (List.cons_ne_nil _ _)
    | cons c rest =>
      rw [joinLineEnds_cons ends, List.cons_prefix_cons] at h
      obtain ⟨rfl, starts⟩ := h
      exact ⟨rest, rfl, fun feed => ends (List.cons_prefix_cons.2 ⟨rfl, feed⟩), starts⟩

/-- In front of a line feed, joining the line ends takes a carriage return away. -/
theorem returnsEnd_at_start {count : Nat} {cs : List Char}
    (h : returnsEnd (count + 1) <+: joinLineEnds cs) : returnsEnd (count + 2) <+: cs := by
  induction count generalizing cs with
  | zero =>
    obtain ⟨rest, rfl, free, starts⟩ := exists_of_return_prefix h
    have joined : lineEnd <+: rest := (starts_of_lineFeed_starts starts).resolve_left free
    exact List.cons_prefix_cons.2 ⟨rfl, joined⟩
  | succ count ih =>
    obtain ⟨rest, rfl, _, starts⟩ := exists_of_return_prefix h
    exact List.cons_prefix_cons.2 ⟨rfl, ih starts⟩

theorem returnsEnd_inside {count : Nat} {cs : List Char}
    (h : returnsEnd (count + 1) <:+: joinLineEnds cs) : returnsEnd (count + 2) <:+: cs := by
  obtain ⟨tail, starts, suffix⟩ := List.infix_iff_prefix_suffix.1 h
  obtain ⟨rest, rest_suffix, rfl⟩ := exists_suffix_of_joinLineEnds suffix
  exact (returnsEnd_at_start starts).isInfix.trans rest_suffix.isInfix

/-- Joining line ends leaves the last character. -/
theorem getLast?_joinLineEnds (cs : List Char) : (joinLineEnds cs).getLast? = cs.getLast? := by
  induction cs using joinLineEnds.induct with
  | case1 => rfl
  | case2 cs ih => simp [joinLineEnds, List.getLast?_cons, ih]
  | case3 c cs other ih => simp [joinLineEnds, List.getLast?_cons, ih]

/-- When a line of a text ends with a carriage return, this stood in front of a line end or at the
end of the text. -/
theorem CutInto.returnsEnd_or_getLast? {cs line : List Char} {ls : List (List Char)}
    (cut : CutInto cs ls) (m : line ∈ ls) (ends : line.getLast? = some '\r') :
    returnsEnd 2 <:+: cs ∨ cs.getLast? = some '\r' := by
  have behind (front : List Char) {rest : List Char}
      (h : returnsEnd 2 <:+: rest ∨ rest.getLast? = some '\r') :
      returnsEnd 2 <:+: front ++ rest ∨ (front ++ rest).getLast? = some '\r' := by
    refine h.imp (fun inside => inside.trans (List.suffix_append front rest).isInfix) ?_
    intro last
    rw [List.getLast?_append, last]
    rfl
  induction cut with
  | nil => cases m
  | last _ _ =>
    rw [List.mem_singleton.1 m] at ends
    exact .inr ends
  | @lineFeed first cs ls _ apart _ ih =>
    rcases List.mem_cons.1 m with rfl | m
    · exact absurd ends apart
    · rw [List.append_cons]
      exact behind _ (ih m)
  | @lineEnd first cs ls _ _ ih =>
    rcases List.mem_cons.1 m with rfl | m
    · obtain ⟨front, rfl⟩ := List.getLast?_eq_some_iff.1 ends
      exact .inl ⟨front, cs, by simp [returnsEnd, Text.lineEnd]⟩
    · exact behind _ (ih m)

/-- The same, seen from the text before its line ends were joined. -/
theorem returnsEnd_or_getLast? {cs line : List Char} (m : line ∈ lines (joinLineEnds cs))
    (ends : line.getLast? = some '\r') : returnsEnd 3 <:+: cs ∨ cs.getLast? = some '\r' := by
  refine ((cutInto_iff.2 rfl).returnsEnd_or_getLast? m ends).imp returnsEnd_inside ?_
  rw [getLast?_joinLineEnds]
  exact id

end Text

/-! ## Declarations -/

namespace FunctionDecl

open Text

variable {line : List Char} {c : Char}

/-- A declaration goes on standing in a line when a character is put behind it. -/
def Heading.append (heading : Heading line) (c : Char) : Heading (line ++ [c]) where
  before := heading.before
  title := heading.title
  parameters := heading.parameters
  after := heading.after ++ [c]
  line_eq := by
    conv => lhs; rw [heading.line_eq]
    simp
  keyword_first := by
    intro front back same
    rcases List.eq_nil_or_concat back with rfl | ⟨rest, last, rfl⟩
    · -- The keyword would end the longer line, but it stands in the line.
      have longer := congrArg List.length same
      have whole := congrArg List.length heading.line_eq
      simp only [List.length_append, List.length_cons, List.length_nil] at longer whole
      omega
    · rw [List.concat_eq_append, ← List.append_assoc] at same
      exact heading.keyword_first front rest (List.append_inj_left' same rfl)
  opening_first := heading.opening_first
  closing_first := heading.closing_first

/-- A declaration ends with a closing parenthesis, so another character behind the line is no part
of it. -/
theorem Heading.exists_append (other : c ≠ ')') (heading : Heading (line ++ [c])) :
    ∃ shorter : Heading line,
      shorter.title = heading.title ∧ shorter.parameters = heading.parameters := by
  obtain ⟨before, title, parameters, after, line_eq, keyword_first, opening_first, closing_first⟩ :=
    heading
  rcases List.eq_nil_or_concat after with rfl | ⟨rest, last, rfl⟩
  · have ends : line ++ [c]
        = (before ++ keyword ++ (title ++ '(' :: parameters)) ++ [')'] := by simp [line_eq]
    exact absurd (List.cons.inj (List.append_inj_right' ends rfl)).1 other
  · have split : line ++ [c]
        = (before ++ keyword ++ (title ++ '(' :: (parameters ++ ')' :: rest))) ++ [last] := by
      simp [line_eq]
    refine ⟨⟨before, title, parameters, rest, List.append_inj_left' split rfl, ?_, opening_first,
      closing_first⟩, rfl, rfl⟩
    intro front back same
    exact keyword_first front (back ++ [c]) (by simp [same])

/-- A character behind a line declares nothing, unless it closes a parenthesis. -/
theorem parseLine?_append (other : c ≠ ')') (line : List Char) :
    parseLine? (line ++ [c]) = parseLine? line := by
  refine Option.ext fun found => ?_
  obtain ⟨name, arity⟩ := found
  rw [parseLine?_eq_some_iff, parseLine?_eq_some_iff]
  constructor
  · rintro ⟨heading, rfl, rfl⟩
    obtain ⟨shorter, title, parameters⟩ := heading.exists_append other
    exact ⟨shorter, by rw [title], by rw [Heading.arity, Heading.arity, parameters]⟩
  · rintro ⟨heading, rfl, rfl⟩
    exact ⟨heading.append c, rfl, rfl⟩

end FunctionDecl

/-! ## Scans -/

namespace Source

open Text

variable {ls : List (List Char)} {line : List Char} {number : Nat} {pending : List String}
  {index : TagIndex}

/-- A line that is no tag line goes on saying what it did without a carriage return. -/
theorem ofChars_dropReturn (h : ¬IsTagLine line) :
    ¬IsTagLine (dropReturn line) ∧ Line.ofChars (dropReturn line) = Line.ofChars line := by
  by_cases ends : line.getLast? = some '\r'
  · obtain ⟨front, rfl⟩ := List.getLast?_eq_some_iff.1 ends
    have shorter : ¬IsTagLine front := by
      intro tagLine
      refine h ?_
      obtain ⟨rest, rfl⟩ := List.head?_eq_some_iff.1 tagLine
      rfl
    rw [dropReturn_append, ofChars_eq_of_not_isTagLine shorter, ofChars_eq_of_not_isTagLine h,
      FunctionDecl.parseLine?_append (by decide)]
    exact ⟨shorter, rfl⟩
  · rw [dropReturn_of_ne ends]
    exact ⟨h, rfl⟩

theorem ofChars_dropReturns (h : ¬IsTagLine line) :
    ¬IsTagLine (dropReturns line) ∧ Line.ofChars (dropReturns line) = Line.ofChars line := by
  obtain ⟨shorter, once⟩ := ofChars_dropReturn h
  obtain ⟨shortest, twice⟩ := ofChars_dropReturn shorter
  exact ⟨shortest, twice.trans once⟩

/-! A scan that meets no tag line keeps its lines and its tags. -/

section

variable (plain : ∀ line ∈ ls, ¬IsTagLine line)

include plain

theorem kept_scanLines_plain : (scanLines number pending index ls).kept = ls := by
  rw [kept_scanLines, List.filter_eq_self]
  intro line m
  simpa using plain line m

theorem tags_scanLines_plain : (scanLines number [] index ls).tags = index := by
  induction ls generalizing number with
  | nil => rfl
  | cons line ls ih =>
    obtain ⟨here, later⟩ := List.forall_mem_cons.1 plain
    cases kind : Line.ofChars line with
    | tags tokens => exact absurd (isTagLine_iff.2 ⟨tokens, kind⟩) here
    | declaration name arity => rw [scanLines_declaration kind]; exact ih later
    | other => rw [scanLines_other kind]; exact ih later

end

/-! Without the tag lines, declarations move up. -/

/-- The number of tag lines. -/
def countTagLines (ls : List (List Char)) : Nat := ls.countP fun line => IsTagLine line

/-- A declaration with its line moved up by the tag lines above it. The lines `ls` are counted from
`start`, and `above` tag lines stand in front of them. -/
def movedUp (ls : List (List Char)) (start above : Nat) (d : FunctionDecl) : FunctionDecl :=
  { d with line := d.line - (above + countTagLines (ls.take (d.line - start))) }

section

variable {d : FunctionDecl} {start above : Nat}

/-- Above a declaration that is found behind a line stands that line. -/
theorem take_of_mem_declarations
    (m : d ∈ (scanLines (start + 1) pending index ls).declarations) :
    (line :: ls).take (d.line - start) = line :: ls.take (d.line - (start + 1)) := by
  obtain ⟨i, _, line_eq⟩ := mem_declarations_scanLines.1 m
  have next : d.line - start = d.line - (start + 1) + 1 := by omega
  rw [next, List.take_succ_cons]

theorem movedUp_of_isTagLine (m : d ∈ (scanLines (start + 1) pending index ls).declarations)
    (h : IsTagLine line) :
    movedUp (line :: ls) start above d = movedUp ls (start + 1) (above + 1) d := by
  rw [movedUp, movedUp, take_of_mem_declarations m, countTagLines,
    List.countP_cons_of_pos (by simpa using h), Nat.add_right_comm]
  rfl

theorem movedUp_of_not_isTagLine (m : d ∈ (scanLines (start + 1) pending index ls).declarations)
    (h : ¬IsTagLine line) :
    movedUp (line :: ls) start above d = movedUp ls (start + 1) above d := by
  rw [movedUp, movedUp, take_of_mem_declarations m, countTagLines,
    List.countP_cons_of_neg (by simpa using h)]
  rfl

/-- The declaration of the first line moves up by the lines in front of it. -/
theorem movedUp_first (name : String) (arity : Nat) :
    movedUp ls start above ⟨name, arity, start⟩ = ⟨name, arity, start - above⟩ := by
  rw [movedUp, Nat.sub_self]
  rfl

end

/-- Without the tag lines, and with lines that say the same, the same declarations are found, each
moved up by the tag lines above it. -/
theorem declarations_scanLines_kept {shorten : List Char → List Char}
    (same : ∀ line, ¬IsTagLine line → Line.ofChars (shorten line) = Line.ofChars line)
    {start number above : Nat} (start_eq : start = number + above) (pending : List String)
    (index others : TagIndex) :
    (scanLines number [] others
        ((ls.filter fun line => !IsTagLine line).map shorten)).declarations
      = (scanLines start pending index ls).declarations.map (movedUp ls start above) := by
  -- Both scans go on together; `above` counts the tag lines that only one of them has met.
  induction ls generalizing start number above pending index with
  | nil => rfl
  | cons line ls ih =>
    by_cases tagLine : IsTagLine line
    · obtain ⟨tokens, kind⟩ := isTagLine_iff.1 tagLine
      have further : start + 1 = number + (above + 1) := by omega
      rw [List.filter_cons_of_neg (by simpa using tagLine), scanLines_tags kind, ih further]
      exact List.map_congr_left fun d m => (movedUp_of_isTagLine m tagLine).symm
    · have further : start + 1 = number + 1 + above := by omega
      rw [List.filter_cons_of_pos (by simpa using tagLine), List.map_cons]
      cases kind : Line.ofChars line with
      | tags tokens => exact absurd (isTagLine_iff.2 ⟨tokens, kind⟩) tagLine
      | declaration name arity =>
        rw [scanLines_declaration kind, scanLines_declaration ((same line tagLine).trans kind)]
        dsimp only
        rw [List.map_cons, movedUp_first, start_eq, Nat.add_sub_cancel, ← start_eq, List.foldl_nil,
          ih further]
        refine congrArg (_ :: ·) (List.map_congr_left fun d m => ?_)
        exact (movedUp_of_not_isTagLine m tagLine).symm
      | other =>
        rw [scanLines_other kind, scanLines_other ((same line tagLine).trans kind)]
        dsimp only
        rw [ih further]
        exact List.map_congr_left fun d m => (movedUp_of_not_isTagLine m tagLine).symm

/-! ## Cleaned texts -/

/-- In a text of lines that are no tag lines, no marker stands at the start of a line. -/
theorem apart_of_marker (plain : ∀ line ∈ ls, ¬IsTagLine line) (free : ∀ line ∈ ls, '\n' ∉ line)
    {front back : List Char} (same : unlines ls = front ++ tagMarker :: back) :
    front ≠ [] ∧ front.getLast? ≠ some '\n' := by
  induction ls generalizing front with
  | nil => exact absurd same.symm (by simp [unlines])
  | cons line ls ih =>
    obtain ⟨here, later⟩ := List.forall_mem_cons.1 plain
    obtain ⟨unbroken, others⟩ := List.forall_mem_cons.1 free
    rw [unlines] at same
    rcases List.append_eq_append_iff.1 same with ⟨between, rfl, rest⟩ | ⟨between, rfl, rest⟩
    · -- The marker stands behind the first line.
      cases between with
      | nil => exact absurd (List.cons.inj rest).1 (by decide)
      | cons c between =>
        obtain ⟨rfl, inside⟩ := List.cons.inj rest
        obtain ⟨proper, apart⟩ := ih later others inside
        obtain ⟨rest, last, rfl⟩ := (List.eq_nil_or_concat between).resolve_left proper
        refine ⟨by simp, ?_⟩
        simpa [List.getLast?_cons] using apart
    · -- The marker stands in the first line.
      cases between with
      | nil => exact absurd (List.cons.inj rest).1 (by decide)
      | cons c between =>
        obtain ⟨rfl, _⟩ := List.cons.inj rest
        refine ⟨?_, fun feed => unbroken (List.mem_append_left _ (List.mem_of_getLast? feed))⟩
        rintro rfl
        exact here rfl

/-- The lines of a script that its scan keeps. -/
def keptLines (source : String) : List (List Char) :=
  (scriptLines source).filter fun line => !IsTagLine line

section

variable (source : String)

theorem mem_keptLines {source : String} :
    line ∈ keptLines source ↔ line ∈ scriptLines source ∧ ¬IsTagLine line := by
  simp [keptLines]

theorem unbroken_keptLines : ∀ line ∈ keptLines source, '\n' ∉ line :=
  fun _ m => not_mem_of_mem_lines (mem_keptLines.1 m).1

theorem toList_source_scan : (scan source).source.toList = unlines (keptLines source) := by
  rw [scan, String.toList_ofList, kept_scanLines, keptLines]

/-- The lines of a cleaned text are those that were kept, but for two carriage returns. -/
theorem scriptLines_source_scan :
    scriptLines (scan source).source = (keptLines source).map dropReturns := by
  rw [scriptLines, toList_source_scan, joinLineEnds_unlines (unbroken_keptLines source),
    lines_unlines (not_mem_map_dropReturn (unbroken_keptLines source)), List.map_map]
  rfl

/-- A cleaned text has no tag line. -/
theorem plain_source_scan : ∀ line ∈ scriptLines (scan source).source, ¬IsTagLine line := by
  rw [scriptLines_source_scan, List.forall_mem_map]
  exact fun line m => (ofChars_dropReturns (mem_keptLines.1 m).2).1

theorem tags_scan : (scan source).tags = (scanLines 1 [] {} (scriptLines source)).tags := rfl

theorem declarations_scan :
    (scan source).declarations = (scanLines 1 [] {} (scriptLines source)).declarations := rfl

/-- No tags are found in a cleaned text. -/
theorem tags_scan_scan : (scan (scan source).source).tags = {} := by
  rw [tags_scan, tags_scanLines_plain (plain_source_scan source)]

/-- The declarations of a cleaned text are those of the script, moved up. -/
theorem declarations_scan_scan :
    (scan (scan source).source).declarations
      = (scan source).declarations.map (movedUp (scriptLines source) 1 0) := by
  have same (line : List Char) (h : ¬IsTagLine line) := (ofChars_dropReturns h).2
  rw [declarations_scan, declarations_scan, scriptLines_source_scan, keptLines]
  exact declarations_scanLines_kept same (Nat.add_zero 1).symm [] {} {}

/-- A cleaned text stays as it is when no line that was kept ends with a carriage return. -/
theorem source_scan_scan_iff :
    (scan (scan source).source).source = (scan source).source
      ↔ ∀ line ∈ keptLines source, line.getLast? ≠ some '\r' := by
  have free : ∀ line ∈ (keptLines source).map dropReturns, '\n' ∉ line := by
    rw [← scriptLines_source_scan]
    exact fun _ m => not_mem_of_mem_lines m
  have again : (scan (scan source).source).source.toList
      = unlines ((keptLines source).map dropReturns) := by
    rw [← scriptLines_source_scan, scan, String.toList_ofList,
      kept_scanLines_plain (plain_source_scan source)]
  rw [← String.toList_inj, again, toList_source_scan,
    unlines_inj (unbroken_keptLines source) free, map_eq_self_iff]
  exact forall₂_congr fun _ _ => dropReturns_eq_self_iff

end

/-- A cleaned text is scanned a second time without changing anything but its line ends. It has no
tag line; no tags are found in it; and the same declarations are found in the same order, each moved
up by the tag lines above it. It stays as it is if and only if it has no carriage return in front of
a line feed, which is so if and only if no line that was kept ended with a carriage return. Then the
script had three of them in front of a line feed, or one at its end. -/
theorem scan_scan (source : String) :
    (∀ front back, (scan source).source.toList = front ++ tagMarker :: back →
        front ≠ [] ∧ front.getLast? ≠ some '\n')
      ∧ (scan (scan source).source).tags = {}
      ∧ (scan (scan source).source).declarations = (scan source).declarations.map (fun d =>
          { d with line := d.line - countTagLines ((scriptLines source).take (d.line - 1)) })
      ∧ ((scan (scan source).source).source = (scan source).source
        ↔ ¬lineEnd <:+: (scan source).source.toList)
      ∧ (lineEnd <:+: (scan source).source.toList
        ↔ ∃ line ∈ scriptLines source, ¬IsTagLine line ∧ line.getLast? = some '\r')
      ∧ (lineEnd <:+: (scan source).source.toList →
        ['\r', '\r', '\r', '\n'] <:+: source.toList ∨ source.toList.getLast? = some '\r') := by
  have ends : lineEnd <:+: (scan source).source.toList
      ↔ ∃ line ∈ scriptLines source, ¬IsTagLine line ∧ line.getLast? = some '\r' := by
    rw [toList_source_scan, lineEnd_infix_unlines_iff (unbroken_keptLines source)]
    simp [mem_keptLines, and_assoc]
  refine ⟨?_, tags_scan_scan source, ?_, ?_, ends, ?_⟩
  · intro front back same
    rw [toList_source_scan] at same
    exact apart_of_marker (fun _ m => (mem_keptLines.1 m).2) (unbroken_keptLines source) same
  · rw [declarations_scan_scan]
    refine List.map_congr_left fun d _ => ?_
    rw [movedUp, Nat.zero_add]
  · rw [source_scan_scan_iff, ends]
    simp [mem_keptLines]
  · intro inside
    obtain ⟨line, m, _, last⟩ := ends.1 inside
    exact returnsEnd_or_getLast? m last

/-- A carriage return at the end of a script stays in front of the line feed that the scan puts
there, until it is scanned again. The declaration below the tag line moves up. -/
theorem scan_scan_of_return :
    let cleaned := (scan "#Update\nfunction f() end\r").source
    lineEnd <:+: cleaned.toList ∧ (scan cleaned).source ≠ cleaned ∧ (scan cleaned).tags = {}
      ∧ (scan cleaned).declarations = [⟨"f", 0, 1⟩] := by
  obtain ⟨_, tags, declarations, stays, ends, _⟩ := scan_scan "#Update\nfunction f() end\r"
  have inside := ends.2 ⟨"function f() end\r".toList, by decide +kernel, by decide, by decide⟩
  refine ⟨inside, fun same => stays.1 same inside, tags, ?_⟩
  rw [declarations]
  decide +kernel

end Source

end ScriptHost
