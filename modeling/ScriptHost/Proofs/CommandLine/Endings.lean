import ScriptHost.CommandLine.Run
import ScriptHost.Proofs.Instance.Steady

/-!
# Commands that scripts end

A script can leave the program, or go on for ever. What is seen of it then is the first part of what
would have happened otherwise.

* `Event.watched_cases` : a journal shows no end of the program, or its first end.
* `Event.calls_watched` : the calls that are seen are the first ones.
* `settle_cases` : the outcomes of a command.
-/

namespace ScriptHost

namespace Event

variable {α : Type}

/-! ## Journals -/

theorem seen_suffix (journal : List Event) : seen journal <:+ journal := by
  have early := List.takeWhile_prefix (l := journal.reverse) fun event => event.ending?.isNone
  have late := List.reverse_suffix.2 early
  rw [List.reverse_reverse] at late
  exact late

/-- What happens later is no end of the program if it is none itself. -/
theorem endingOf?_cons {event : Event} (goes_on : event.ending? = none) (journal : List Event) :
    endingOf? (event :: journal) = endingOf? journal := by
  unfold endingOf?
  rw [List.reverse_cons, List.findSome?_append, List.findSome?_singleton, goes_on, Option.or_none]

/-- When nothing ends the program, all is seen. -/
theorem watched_of_goes_on {ran : α × List Event} (goes_on : endingOf? ran.2 = none) :
    watched ran = (.ok ran.1, ran.2) := by
  unfold watched
  rw [goes_on]

/-- When the program ends, nothing comes of what was running. -/
theorem watched_of_ended {ran : α × List Event} {ending : Ending}
    (ended : endingOf? ran.2 = some ending) : watched ran = (.error ending, seen ran.2) := by
  unfold watched
  rw [ended]

/-- Either the program goes on, and all is seen, or what is seen ends with its end. -/
theorem watched_cases (ran : α × List Event) :
    (endingOf? ran.2 = none ∧ watched ran = (.ok ran.1, ran.2))
      ∨ ∃ ending, endingOf? ran.2 = some ending ∧ watched ran = (.error ending, seen ran.2) := by
  cases ended : endingOf? ran.2 with
  | none => exact .inl ⟨rfl, watched_of_goes_on ended⟩
  | some ending => exact .inr ⟨ending, rfl, watched_of_ended ended⟩

/-- The calls that are seen are the first ones. -/
theorem calls_watched (ran : α × List Event) : calls (watched ran).2 <+: calls ran.2 := by
  rcases watched_cases ran with ⟨_, all⟩ | ⟨ending, _, part⟩
  · simp only [all, List.prefix_rfl]
  · rw [part]
    exact List.reverse_prefix.2 ((seen_suffix ran.2).filter isCall)

end Event

namespace CommandLine

/-! ## Outcomes -/

/-- A command that has an outcome does all that it does, or is left with an exit code. -/
theorem settle_cases {files : FileTree} {outcome after : Outcome}
    (settled : outcome.settle files = some after) :
    (Event.endingOf? outcome.journal = none ∧ after = outcome)
      ∨ ∃ code, Event.endingOf? outcome.journal = some (.exit code)
        ∧ after = ⟨code, [], files, Event.seen outcome.journal⟩ := by
  unfold Outcome.settle at settled
  rcases Event.watched_cases (outcome, outcome.journal) with ⟨goes_on, all⟩ | ⟨ending, ended, part⟩
  · rw [all] at settled
    exact .inl ⟨goes_on, (Option.some.inj settled).symm⟩
  · rw [part] at settled
    cases ending with
    | exit code => exact .inr ⟨code, ended, (Option.some.inj settled).symm⟩
    | endless => cases settled

/-- Whatever is printed, a command leaves the files that it leaves. -/
theorem files_printed (room? : Option Nat) (outcome : Outcome) :
    (outcome.printed room?).files = outcome.files := by
  unfold Outcome.printed
  split
  · rfl
  · split <;> rfl

/-- Lines that the output takes are printed. -/
theorem printed_of_fits {room? : Option Nat} {outcome : Outcome}
    (fits : ∀ room, room? = some room → outcome.lines.length ≤ room) :
    outcome.printed room? = outcome := by
  unfold Outcome.printed
  cases room? with
  | none => rfl
  | some room => exact if_pos (fits room rfl)

/-- A program that goes well has printed its lines. -/
theorem printed_of_exitCode_zero {room? : Option Nat} {outcome : Outcome}
    (exit : (outcome.printed room?).exitCode = 0) : outcome.printed room? = outcome := by
  refine printed_of_fits ?_
  rintro room rfl
  refine Decidable.byContradiction fun long => ?_
  have code : (outcome.printed (some room)).exitCode = unwrittenCode :=
    congrArg Outcome.exitCode (if_neg long)
  rw [code] at exit
  cases exit

/-- A command leaves the files as they are, or as it leaves them when no script ends the program. -/
theorem files_execute {room? : Option Nat} {files : FileTree} {command : Command} {after : Outcome}
    (ended : execute room? files command = some after) :
    after.files = files ∨ after.files = (carryOut files command).files := by
  obtain ⟨settled, settled_eq, rfl⟩ := Option.map_eq_some_iff.1 ended
  rw [files_printed]
  rcases settle_cases settled_eq with ⟨_, rfl⟩ | ⟨code, _, rfl⟩
  · exact .inr rfl
  · exact .inl rfl

end CommandLine

end ScriptHost
