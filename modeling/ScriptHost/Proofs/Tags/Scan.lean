import ScriptHost.Proofs.Tags.Attachments
import ScriptHost.Proofs.Tags.Lines

/-!
# What a scan finds

A scan goes through the lines of a script once and carries the tags of the last tag lines along.
Said without that walk, what it finds is a matter of single lines, and of which tag lines stand in
front of a declaration.

* `Source.HasToken`, `Source.Declares` : what a line is, by its text.
* `Source.Listed` : a declaration stands in a line with its number.
* `Source.Attached` : a tag line and a declaration with nothing but tag lines from one to the other.
* `Source.scan_reports` : the cleaned text, the declarations, the tags and the attachments of every
  script.
-/

namespace ScriptHost.Source

open Text

/-! ## Single lines -/

/-- A tag line starts with the marker. -/
def IsTagLine (line : List Char) : Prop := line.head? = some tagMarker

instance : DecidablePred IsTagLine := fun line => inferInstanceAs (Decidable (line.head? = _))

/-- A tag line has a token: without the blanks around it, it is one of the parts between the
commas, and not empty. -/
def HasToken (line : List Char) (token : String) : Prop :=
  ∃ parts, line = tagMarker :: [','].intercalate parts ∧ (∀ part ∈ parts, ',' ∉ part)
    ∧ ∃ part ∈ parts, trim part ≠ [] ∧ token = String.ofList (trim part)

/-- A line that is no tag line declares a function, whose name is not empty. -/
def Declares (line : List Char) (name : String) (arity : Nat) : Prop :=
  ¬IsTagLine line ∧ ∃ heading : FunctionDecl.Heading line, trim heading.title ≠ []
    ∧ name = String.ofList (trim heading.title) ∧ arity = heading.arity

variable {line : List Char} {name token function tag : String} {arity : Nat}

theorem ofChars_eq_tags_iff {tokens : List String} :
    Line.ofChars line = .tags tokens
      ↔ ∃ rest, line = tagMarker :: rest ∧ tokens = tagTokens rest := by
  constructor
  · intro h
    unfold Line.ofChars at h
    split at h
    case h_1 rest =>
      cases h
      exact ⟨rest, rfl, rfl⟩
    case h_2 =>
      split at h
      · split at h <;> cases h
      · cases h
  · rintro ⟨rest, rfl, rfl⟩
    rfl

theorem isTagLine_iff : IsTagLine line ↔ ∃ tokens, Line.ofChars line = .tags tokens := by
  rw [IsTagLine]
  constructor
  · intro h
    obtain ⟨rest, rfl⟩ := List.head?_eq_some_iff.1 h
    exact ⟨tagTokens rest, ofChars_eq_tags_iff.2 ⟨rest, rfl, rfl⟩⟩
  · rintro ⟨tokens, h⟩
    obtain ⟨rest, rfl, _⟩ := ofChars_eq_tags_iff.1 h
    rfl

theorem mem_tagTokens_iff {cs : List Char} :
    token ∈ tagTokens cs
      ↔ ∃ part ∈ fields ',' cs, trim part ≠ [] ∧ token = String.ofList (trim part) := by
  rw [tagTokens, List.mem_map]
  constructor
  · rintro ⟨_, m, rfl⟩
    obtain ⟨kept, proper⟩ := List.mem_filter.1 m
    obtain ⟨part, inside, rfl⟩ := List.mem_map.1 kept
    exact ⟨part, inside, by simpa using proper, rfl⟩
  · rintro ⟨part, m, proper, rfl⟩
    exact ⟨trim part, List.mem_filter.2 ⟨List.mem_map_of_mem m, by simpa using proper⟩, rfl⟩

theorem hasToken_iff :
    HasToken line token ↔ ∃ tokens, Line.ofChars line = .tags tokens ∧ token ∈ tokens := by
  constructor
  · rintro ⟨parts, rfl, free, part, m, proper, rfl⟩
    have cut : fields ',' ([','].intercalate parts) = parts :=
      fields_eq_iff.2 ⟨List.ne_nil_of_mem m, free, rfl⟩
    refine ⟨_, ofChars_eq_tags_iff.2 ⟨_, rfl, rfl⟩, mem_tagTokens_iff.2 ⟨part, ?_, proper, rfl⟩⟩
    rw [cut]
    exact m
  · rintro ⟨tokens, h, m⟩
    obtain ⟨rest, rfl, rfl⟩ := ofChars_eq_tags_iff.1 h
    obtain ⟨_, free, same⟩ := fields_eq_iff.1 (Eq.refl (fields ',' rest))
    exact ⟨fields ',' rest, by rw [← same], free, mem_tagTokens_iff.1 m⟩

/-- A line that is no tag line is what the search for a declaration gives. -/
theorem ofChars_eq_of_not_isTagLine (h : ¬IsTagLine line) :
    Line.ofChars line
      = match FunctionDecl.parseLine? line with
        | some (name, arity) =>
          if name.isEmpty then .other else .declaration (String.ofList name) arity
        | none => .other := by
  unfold Line.ofChars
  split
  case h_1 => exact absurd rfl h
  case h_2 => rfl

theorem declares_iff :
    Declares line name arity ↔ Line.ofChars line = .declaration name arity := by
  by_cases tagLine : IsTagLine line
  · obtain ⟨tokens, h⟩ := isTagLine_iff.1 tagLine
    rw [h]
    exact iff_of_false (fun declares => declares.1 tagLine) nofun
  · rw [ofChars_eq_of_not_isTagLine tagLine]
    constructor
    · rintro ⟨_, heading, proper, rfl, rfl⟩
      rw [FunctionDecl.parseLine?_eq_some_iff.2 ⟨heading, rfl, rfl⟩]
      dsimp only
      rw [if_neg (by simpa using proper)]
    · intro h
      split at h
      case h_1 title arity found =>
        split at h
        case isTrue => cases h
        case isFalse proper =>
          cases h
          obtain ⟨heading, rfl, rfl⟩ := FunctionDecl.parseLine?_eq_some_iff.1 found
          exact ⟨tagLine, heading, by simpa using proper, rfl, rfl⟩
      case h_2 => cases h

theorem HasToken.isTagLine (h : HasToken line token) : IsTagLine line := by
  obtain ⟨tokens, h, _⟩ := hasToken_iff.1 h
  exact isTagLine_iff.2 ⟨tokens, h⟩

/-! ## Lines in their order -/

/-- A declaration stands in a line with its number, when the lines are counted from `number`. -/
def Listed (ls : List (List Char)) (number : Nat) (d : FunctionDecl) : Prop :=
  ∃ i, (∃ line ∈ ls[i]?, Declares line d.name d.arity) ∧ d.line = number + i

/-- The first line that is no tag line declares a function. -/
def Leads (ls : List (List Char)) (function : String) : Prop :=
  ∃ i : Nat, (∀ k, k < i → ∃ line ∈ ls[k]?, IsTagLine line)
    ∧ ∃ line ∈ ls[i]?, ∃ arity, Declares line function arity

/-- A tag line has the tag, and the first line below it that is no tag line declares the
function. -/
def Attached (ls : List (List Char)) (function tag : String) : Prop :=
  ∃ j i : Nat, j < i ∧ (∃ line ∈ ls[j]?, HasToken line tag)
    ∧ (∀ k, j ≤ k → k < i → ∃ line ∈ ls[k]?, IsTagLine line)
    ∧ ∃ line ∈ ls[i]?, ∃ arity, Declares line function arity

variable {ls : List (List Char)} {number : Nat} {d : FunctionDecl}

theorem listed_cons :
    Listed (line :: ls) number d
      ↔ (Declares line d.name d.arity ∧ d.line = number) ∨ Listed ls (number + 1) d := by
  constructor
  · rintro ⟨i, there, same⟩
    cases i with
    | zero =>
      obtain ⟨_, ⟨⟩, declares⟩ := there
      exact .inl ⟨declares, same⟩
    | succ i => exact .inr ⟨i, there, by omega⟩
  · rintro (⟨declares, same⟩ | ⟨i, there, same⟩)
    · exact ⟨0, ⟨line, rfl, declares⟩, same⟩
    · exact ⟨i + 1, there, by omega⟩

theorem not_leads_nil : ¬Leads [] function := by
  rintro ⟨i, _, line, there, _⟩
  cases there

theorem leads_cons :
    Leads (line :: ls) function
      ↔ (∃ arity, Declares line function arity) ∨ (IsTagLine line ∧ Leads ls function) := by
  constructor
  · rintro ⟨i, above, there⟩
    cases i with
    | zero =>
      obtain ⟨_, ⟨⟩, declares⟩ := there
      exact .inl declares
    | succ i =>
      obtain ⟨_, ⟨⟩, tagLine⟩ := above 0 (Nat.zero_lt_succ i)
      exact .inr ⟨tagLine, i, fun k below => above (k + 1) (Nat.succ_lt_succ below), there⟩
  · rintro (declares | ⟨tagLine, i, above, there⟩)
    · exact ⟨0, fun k below => absurd below (Nat.not_lt_zero k), line, rfl, declares⟩
    · refine ⟨i + 1, ?_, there⟩
      intro k below
      cases k with
      | zero => exact ⟨line, rfl, tagLine⟩
      | succ k => exact above k (Nat.lt_of_succ_lt_succ below)

theorem not_attached_nil : ¬Attached [] function tag := by
  rintro ⟨j, i, _, _, _, line, there, _⟩
  cases there

theorem attached_cons :
    Attached (line :: ls) function tag
      ↔ (HasToken line tag ∧ Leads ls function) ∨ Attached ls function tag := by
  constructor
  · rintro ⟨j, i, below, token, between, there⟩
    obtain ⟨i, rfl⟩ := Nat.exists_eq_add_one_of_ne_zero (Nat.ne_zero_of_lt below)
    cases j with
    | zero =>
      obtain ⟨_, ⟨⟩, token⟩ := token
      refine .inl ⟨token, i, ?_, there⟩
      exact fun k less => between (k + 1) (Nat.zero_le _) (Nat.succ_lt_succ less)
    | succ j =>
      refine .inr ⟨j, i, Nat.lt_of_succ_lt_succ below, token, ?_, there⟩
      exact fun k more less => between (k + 1) (Nat.succ_le_succ more) (Nat.succ_lt_succ less)
  · rintro (⟨token, leads⟩ | ⟨j, i, below, token, between, there⟩)
    · obtain ⟨i, above, there⟩ := leads
      refine ⟨0, i + 1, Nat.zero_lt_succ i, ⟨line, rfl, token⟩, ?_, there⟩
      intro k _ less
      cases k with
      | zero => exact ⟨line, rfl, token.isTagLine⟩
      | succ k => exact above k (Nat.lt_of_succ_lt_succ less)
    · refine ⟨j + 1, i + 1, Nat.succ_lt_succ below, token, ?_, there⟩
      intro k more less
      obtain ⟨k, rfl⟩ := Nat.exists_eq_add_one_of_ne_zero (Nat.ne_zero_of_lt more)
      exact between k (Nat.le_of_succ_le_succ more) (Nat.lt_of_succ_lt_succ less)

/-! ## The scan -/

variable {pending : List String} {index : TagIndex}

/-! One step, for each kind of line. -/

theorem scanLines_tags {tokens : List String} (h : Line.ofChars line = .tags tokens) :
    scanLines number pending index (line :: ls)
      = scanLines (number + 1) (pending ++ tokens) (tokens.foldl TagIndex.addTag index) ls := by
  rw [scanLines, h]

theorem scanLines_declaration (h : Line.ofChars line = .declaration name arity) :
    scanLines number pending index (line :: ls)
      = let attached := pending.foldl (fun index tag => index.attach name tag) index
        let found := scanLines (number + 1) [] attached ls
        { found with
          kept := line :: found.kept
          declarations := ⟨name, arity, number⟩ :: found.declarations } := by
  rw [scanLines, h]

theorem scanLines_other (h : Line.ofChars line = .other) :
    scanLines number pending index (line :: ls)
      = let found := scanLines (number + 1) [] index ls
        { found with kept := line :: found.kept } := by
  rw [scanLines, h]

/-- The scan keeps the lines that are no tag lines. -/
theorem kept_scanLines :
    (scanLines number pending index ls).kept = ls.filter fun line => !IsTagLine line := by
  -- What is waiting and what was found change with each line; the lines that are kept depend on
  -- neither.
  induction ls generalizing number pending index with
  | nil => rfl
  | cons line ls ih =>
    cases kind : Line.ofChars line with
    | tags tokens =>
      have tagLine : IsTagLine line := isTagLine_iff.2 ⟨tokens, kind⟩
      rw [scanLines_tags kind, ih, List.filter_cons_of_neg (by simpa using tagLine)]
    | declaration name arity =>
      have notTagLine : ¬IsTagLine line := (declares_iff.2 kind).1
      rw [scanLines_declaration kind, List.filter_cons_of_pos (by simpa using notTagLine), ← ih]
    | other =>
      have notTagLine : ¬IsTagLine line := by simp [isTagLine_iff, kind]
      rw [scanLines_other kind, List.filter_cons_of_pos (by simpa using notTagLine), ← ih]

/-- The scan finds the declarations of the lines, with their numbers. -/
theorem mem_declarations_scanLines :
    d ∈ (scanLines number pending index ls).declarations ↔ Listed ls number d := by
  induction ls generalizing number pending index with
  | nil => simp [scanLines, Listed]
  | cons line ls ih =>
    rw [listed_cons, declares_iff]
    cases kind : Line.ofChars line with
    | tags tokens =>
      rw [scanLines_tags kind, ih]
      simp
    | declaration name arity =>
      rw [scanLines_declaration kind, List.mem_cons, ih]
      refine or_congr_left ?_
      constructor
      · rintro rfl
        exact ⟨rfl, rfl⟩
      · obtain ⟨_, _, _⟩ := d
        rintro ⟨⟨⟩, rfl⟩
        rfl
    | other =>
      rw [scanLines_other kind, ih]
      simp

theorem ascending_declarations_scanLines :
    (scanLines number pending index ls).declarations.Pairwise fun a b => a.line < b.line := by
  induction ls generalizing number pending index with
  | nil => exact List.Pairwise.nil
  | cons line ls ih =>
    cases kind : Line.ofChars line with
    | tags tokens =>
      rw [scanLines_tags kind]
      exact ih
    | declaration name arity =>
      rw [scanLines_declaration kind]
      refine List.Pairwise.cons ?_ ih
      intro d m
      obtain ⟨i, _, same⟩ := mem_declarations_scanLines.1 m
      exact same ▸ Nat.lt_of_lt_of_le (Nat.lt_succ_self number) (Nat.le_add_right _ i)
    | other =>
      rw [scanLines_other kind]
      exact ih

/-- Tags that are noted are in the set of all tags. -/
theorem noted_foldl_addTag (h : NameSet.Ascending index.tags) (tokens : List String) :
    NameSet.Ascending (tokens.foldl TagIndex.addTag index).tags
      ∧ ∀ token, token ∈ (tokens.foldl TagIndex.addTag index).tags
        ↔ token ∈ index.tags ∨ token ∈ tokens := by
  induction tokens generalizing index with
  | nil => exact ⟨h, by simp⟩
  | cons first tokens ih =>
    have added : NameSet.Ascending (index.addTag first).tags := h.insert first
    obtain ⟨ascending, members⟩ := ih added
    refine ⟨ascending, ?_⟩
    intro token
    rw [List.foldl_cons, members, TagIndex.addTag, NameSet.mem_insert, List.mem_cons]
    exact or_assoc.trans or_left_comm

theorem tags_foldl_attach (index : TagIndex) (function : String) (tags : List String) :
    (tags.foldl (fun index tag => index.attach function tag) index).tags = index.tags := by
  induction tags generalizing index with
  | nil => rfl
  | cons tag tags ih => exact ih _

/-- The scan notes the tokens of the lines, in ascending order. -/
theorem noted_scanLines (h : NameSet.Ascending index.tags) (ls : List (List Char)) (number : Nat)
    (pending : List String) :
    NameSet.Ascending (scanLines number pending index ls).tags.tags
      ∧ ∀ token, token ∈ (scanLines number pending index ls).tags.tags
        ↔ token ∈ index.tags ∨ ∃ line ∈ ls, HasToken line token := by
  induction ls generalizing number pending index with
  | nil => exact ⟨h, by simp [scanLines]⟩
  | cons line ls ih =>
    cases kind : Line.ofChars line with
    | tags tokens =>
      obtain ⟨noted, members⟩ := noted_foldl_addTag h tokens
      obtain ⟨ascending, found⟩ := ih noted (number + 1) (pending ++ tokens)
      rw [scanLines_tags kind]
      refine ⟨ascending, ?_⟩
      intro token
      rw [found, members, List.exists_mem_cons_iff, hasToken_iff, kind, or_assoc]
      simp
    | declaration name arity =>
      have same := tags_foldl_attach index name pending
      obtain ⟨ascending, found⟩ := ih (same ▸ h) (number + 1) []
      rw [scanLines_declaration kind]
      refine ⟨ascending, ?_⟩
      intro token
      rw [found, same, List.exists_mem_cons_iff, hasToken_iff, kind]
      simp
    | other =>
      obtain ⟨ascending, found⟩ := ih h (number + 1) []
      rw [scanLines_other kind]
      refine ⟨ascending, ?_⟩
      intro token
      rw [found, List.exists_mem_cons_iff, hasToken_iff, kind]
      simp

/-! ## The attachments -/

/-- What the scan attaches: the tags that are waiting, to the function that the lines lead to, and
the tags of the tag lines. -/
theorem describes_scanLines {relation : String → String → Prop}
    (h : TagIndex.Describes index relation) :
    TagIndex.Describes (scanLines number pending index ls).tags fun function tag =>
      relation function tag ∨ (tag ∈ pending ∧ Leads ls function) ∨ Attached ls function tag := by
  induction ls generalizing number pending index relation with
  | nil =>
    refine h.congr ?_
    intro function tag
    simp [not_leads_nil, not_attached_nil]
  | cons line ls ih =>
    cases kind : Line.ofChars line with
    | tags tokens =>
      rw [scanLines_tags kind]
      refine (ih (h.foldl_addTag tokens)).congr ?_
      intro function tag
      -- The tags of the line wait for the same function as the tags above it.
      have leads : Leads (line :: ls) function ↔ Leads ls function := by
        simp [leads_cons, declares_iff, isTagLine_iff, kind]
      have attached : Attached (line :: ls) function tag
          ↔ (tag ∈ tokens ∧ Leads ls function) ∨ Attached ls function tag := by
        simp [attached_cons, hasToken_iff, kind]
      rw [leads, attached, List.mem_append, or_and_right, or_assoc]
    | declaration name arity =>
      rw [scanLines_declaration kind]
      refine (ih (h.foldl_attach name pending)).congr ?_
      intro function tag
      -- What was waiting is attached now, and nothing waits for the lines below.
      have leads : Leads (line :: ls) function ↔ name = function := by
        simp [leads_cons, declares_iff, isTagLine_iff, kind]
      have attached : Attached (line :: ls) function tag ↔ Attached ls function tag := by
        simp [attached_cons, hasToken_iff, kind]
      rw [leads, attached, eq_comm, and_comm, or_comm (b := relation function tag), or_assoc]
      simp
    | other =>
      rw [scanLines_other kind]
      refine (ih h).congr ?_
      intro function tag
      -- What was waiting is dropped.
      have leads : ¬Leads (line :: ls) function := by
        simp [leads_cons, declares_iff, isTagLine_iff, kind]
      have attached : Attached (line :: ls) function tag ↔ Attached ls function tag := by
        simp [attached_cons, hasToken_iff, kind]
      rw [attached]
      simp [leads]

/-! ## Scripts -/

/-- The lines of a text, after each carriage return and line feed was made a line feed. -/
def HasLines (source : String) (ls : List (List Char)) : Prop :=
  ∃ joined, EndsJoined source.toList joined ∧ CutInto joined ls

/-- What a scan of some lines has to give. Lines are counted from one. -/
structure Scan.Reports (scan : Scan) (ls : List (List Char)) : Prop where
  source_eq : scan.source.toList = unlines (ls.filter fun line => !IsTagLine line)
  declarations_ascending : scan.declarations.Pairwise fun a b => a.line < b.line
  mem_declarations_iff : ∀ d, d ∈ scan.declarations ↔ Listed ls 1 d
  tags_ascending : NameSet.Ascending scan.tags.tags
  mem_tags_iff : ∀ tag, tag ∈ scan.tags.tags ↔ ∃ line ∈ ls, HasToken line tag
  attachments : TagIndex.Describes scan.tags (Attached ls)

theorem hasLines_iff {source : String} : HasLines source ls ↔ ls = scriptLines source := by
  constructor
  · rintro ⟨joined, ends, cut⟩
    rw [cutInto_iff.1 cut, endsJoined_iff.1 ends, scriptLines]
  · rintro rfl
    exact ⟨_, endsJoined_iff.2 rfl, cutInto_iff.2 rfl⟩

/-- Every script has one list of lines, and its scan reports what the lines hold: the lines that are
no tag lines, each with a line feed; a declaration for each line that declares a function, in order
and with the number of the line; every tag of a tag line; and an attachment, in both maps, for each
tag line and each declaration below it with nothing but tag lines between them. -/
theorem scan_reports (source : String) :
    ∃ ls, (∀ others, HasLines source others ↔ others = ls) ∧ (scan source).Reports ls := by
  refine ⟨scriptLines source, fun others => hasLines_iff, ?_⟩
  have empty : NameSet.Ascending ({} : TagIndex).tags := NameSet.ascending_nil
  obtain ⟨ascending, noted⟩ := noted_scanLines empty (scriptLines source) 1 []
  constructor
  case source_eq =>
    rw [← kept_scanLines]
    exact String.toList_ofList
  case declarations_ascending => exact ascending_declarations_scanLines
  case mem_declarations_iff => exact fun d => mem_declarations_scanLines
  case tags_ascending => exact ascending
  case mem_tags_iff =>
    intro tag
    rw [scan, noted]
    simp
  case attachments =>
    refine (describes_scanLines TagIndex.describes_empty).congr ?_
    intro function tag
    simp

end ScriptHost.Source
