import ScriptHost.Script.Eval

/-!
# Rounds

Loops repeat rounds, and so do functions that end with a call in their place. How often is not
bounded: either one of the rounds is the last, or the program goes on for ever.

* `repeatM_step_of_ends` : rounds that end give what the last one gives.
* `repeatFrom?_eq_some_iff` : rounds give something exactly if they end.
* `run_repeating` : the first round, and those behind it.
* `run_repeating_of_turns` : rounds that leave everything as it is never end.
* `run_execute_of_turns` : nor does a loop with such a condition and body, nor what follows it.
-/

namespace ScriptHost.Script

variable {σ α : Type} {round : σ → Computation (σ ⊕ α)} {state : σ} {world : World}

/-! ## The last round -/

section Turns

variable (turn : Turn round state world) {now : World}

theorem Turn.step_of_later {next : σ}
    (ran : (round turn.next).run turn.now = .ok (.inl next) now) :
    turn.step = .inl ⟨next, now, fun _ ends => turn.leads _ (.later ran ends)⟩ := by
  unfold Turn.step
  split
  next other => cases ran.symm.trans other; rfl
  next other => cases ran.symm.trans other
  next other => cases ran.symm.trans other

theorem Turn.step_of_answered {answer : α}
    (ran : (round turn.next).run turn.now = .ok (.inr answer) now) :
    turn.step = .inr (some ⟨.ok answer now, turn.leads _ (.answered ran)⟩) := by
  unfold Turn.step
  split
  next other => cases ran.symm.trans other
  next other => cases ran.symm.trans other; rfl
  next other => cases ran.symm.trans other

theorem Turn.step_of_raised {value : Value}
    (ran : (round turn.next).run turn.now = .error value now) :
    turn.step = .inr (some ⟨.error value now, turn.leads _ (.raised ran)⟩) := by
  unfold Turn.step
  split
  next other => cases ran.symm.trans other
  next other => cases ran.symm.trans other
  next other => cases ran.symm.trans other; rfl

end Turns

/-- Rounds that end give what the last one gives, wherever they began. -/
theorem repeatM_step_of_ends {next : σ} {now : World} {result : EStateM.Result Value World α}
    (ends : Ends round next now result)
    (leads : ∀ result, Ends round next now result → Ends round state world result) :
    repeatM (m := Id) Turn.step (⟨next, now, leads⟩ : Turn round state world)
      = some ⟨result, leads result ends⟩ := by
  induction ends with
  | answered ran =>
    rw [repeatM_eq_of_monadTail, repeatM.body, Turn.step_of_answered _ ran]
    rfl
  | raised ran =>
    rw [repeatM_eq_of_monadTail, repeatM.body, Turn.step_of_raised _ ran]
    rfl
  | later ran _ ih =>
    rw [repeatM_eq_of_monadTail, repeatM.body, Turn.step_of_later _ ran]
    exact ih _

/-- Rounds give something exactly if they end, and then what the last one gives. -/
theorem repeatFrom?_eq_some_iff {result : EStateM.Result Value World α} :
    repeatFrom? round state world = some result ↔ Ends round state world result := by
  constructor
  · intro gives
    obtain ⟨last, _, rfl⟩ := Option.map_eq_some_iff.1 gives
    exact last.property
  · intro ends
    exact congrArg (Option.map Subtype.val) (repeatM_step_of_ends ends fun _ => id)

/-! ## The first round -/

theorem run_repeating (round : σ → Computation (σ ⊕ α)) (state : σ) (world : World) :
    (repeating round state).run world
      = match (round state).run world with
        | .ok (.inl next) after =>
          (repeatFrom? round next after).getD ((endProgram .endless).run after)
        | .ok (.inr result) after => .ok result after
        | .error raised after => .error raised after := by
  unfold repeating
  rw [EStateM.run_bind]
  cases (round state).run world with
  | ok went after => cases went <;> rfl
  | error raised after => rfl

/-- Rounds that leave everything as it is never end. -/
theorem run_repeating_of_turns (turns : (round state).run world = .ok (.inl state) world) :
    (repeating round state).run world = (endProgram .endless).run world := by
  have never (result : EStateM.Result Value World α) : ¬Ends round state world result := by
    intro ends
    induction ends with
    | answered ran =>
      rw [turns] at ran
      cases ran
    | raised ran =>
      rw [turns] at ran
      cases ran
    | later ran _ ih =>
      rw [turns] at ran
      cases ran
      exact ih turns
  have nothing : repeatFrom? round state world = none := by
    cases given : repeatFrom? round state world with
    | none => rfl
    | some result => exact absurd (repeatFrom?_eq_some_iff.1 given) (never result)
  rw [run_repeating, turns]
  dsimp only
  rw [nothing]
  rfl

/-! ## Loops that never end -/

theorem run_repeatWhile_of_turns {condition : Computation Bool} {body : Computation Flow}
    (holds : condition.run world = .ok true world) (turns : body.run world = .ok .next world) :
    (repeatWhile condition body).run world = (endProgram .endless).run world := by
  unfold repeatWhile
  refine run_repeating_of_turns ?_
  rw [EStateM.run_bind, holds]
  dsimp only
  rw [if_pos rfl, EStateM.run_bind, turns]
  rfl

/-- A loop whose condition holds and whose body goes on, and that leaves everything as it is, ends
the program: nothing behind the loop is run. -/
theorem run_execute_of_turns {frame : Frame} {condition : Expr} {body : List Stat}
    {found : List Value} (holds : (values frame condition).run world = .ok found world)
    (truthy : (firstOf found).truthy = true)
    (turns : (execute frame body).run world = .ok .next world) (rest : List Stat) :
    (execute frame (.whileLoop condition body :: rest)).run world
      = (endProgram .endless).run world := by
  have looped : (executeCompound frame (.whileLoop condition body)).run world
      = (endProgram .endless).run world := by
    rw [executeCompound]
    refine run_repeatWhile_of_turns ?_ turns
    rw [EStateM.run_bind, holds]
    exact congrArg (EStateM.Result.ok · world) truthy
  show ((executeCompound frame (.whileLoop condition body)) >>= _).run world = _
  rw [EStateM.run_bind, looped]
  rfl

end ScriptHost.Script
