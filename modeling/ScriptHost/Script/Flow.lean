import ScriptHost.Script.Operators

/-!
# Flow

How statements end, and what that means for the statements around them. The bodies of loops and of
labels are computations. How often one runs is not bounded.

* `Flow` : how a statement ends.
* `repeatWhile`, `numericLoop`, `genericLoop` : the loops.
* `repeatFrom` : a label.
* `closeAfter` : closes a value when statements end.
-/

namespace ScriptHost.Script

/-- How a statement ends. -/
inductive Flow where
  | next
  | left
  | returned (values : List Value)
  /-- The function ends, and a call of another function takes the place of its call. -/
  | passed (request : Request)
  /-- What follows a label comes next. -/
  | jumped (label : String)

/-- Goes on with what follows a statement, or with what follows a label; `behind` looks for that. -/
@[inline] def Flow.andThen (first rest : Computation Flow) (behind : String → Computation Flow) :
    Computation Flow := do
  match ← first with
  | .next => rest
  | .jumped label => behind label
  | flow => return flow

/-- How a loop goes on behind its body: with the next round, if there is one, or with what follows
the loop. -/
def Flow.behindBody {σ : Type} (flow : Flow) (state? : Option σ) : σ ⊕ Flow :=
  match flow, state? with
  | .next, some state => .inl state
  | .next, none | .left, _ => .inr .next
  | flow, _ => .inr flow

/-! ## Loops with a condition, and labels -/

/-- Repeats a body as long as a condition holds. -/
def repeatWhile (condition : Computation Bool) (body : Computation Flow) : Computation Flow :=
  repeating (fun () => do
    if ← condition then return (← body).behindBody (some ())
    else return .inr .next) ()

/-- Runs what follows a label, and again whenever it jumps there. -/
def repeatFrom (label : String) (body : Computation Flow) : Computation Flow :=
  repeating (fun () => do
    match ← body with
    | .jumped target => if target = label then return .inl () else return .inr (.jumped target)
    | flow => return .inr flow) ()

/-! ## Loops over numbers -/

/-- Runs a body with the integers from `n` on, `step` apart, `count` of them. -/
def countRounds (body : Value → Computation Flow) (n step : Int64) : Nat → Computation Flow
  | 0 => return .next
  | count + 1 => do
    match ← body (.integer n) with
    | .next => countRounds body (n + step) step count
    | .left => return .next
    | flow => return flow

/-- Runs a body with the doubles from `first` up or down to `last`, `step` apart; the first of them
in any case. -/
def floatRounds (body : Value → Computation Flow) (first step last : Float) : Computation Flow :=
  repeating (fun x => do
    let flow ← body (.ofFloat x true)
    let following := x + step
    let within := if 0.0 < step then following ≤ last else last ≤ following
    return flow.behindBody (if within then some following else none)) first

/-- The least and the greatest integer. -/
def integerRange : Int × Int := (Int64.minValue.toInt, Int64.maxValue.toInt)

/-- The integer next to a double, in the direction from which a loop comes; none if it has more than
sixty-four bits. -/
def integerTowards? (step : Int64) (x : Float) : Option Int :=
  match Decimal.Binary.ofFloat x with
  | .finite negative m =>
    let num : Int := Int.ofNat (m.mantissa * Nat.pow 2 m.exponent.toNat)
    let num := if negative then -num else num
    let den : Int := Int.ofNat (Nat.pow 2 (-m.exponent).toNat)
    let exact := if step < 0 then -(Int.fdiv (-num) den) else Int.fdiv num den
    if integerRange.1 ≤ exact ∧ exact ≤ integerRange.2 then some exact else none
  | _ => none

/-- The last integer that a loop can reach whose limit is a number; none if it reaches none. A limit
that no integer comes near is as good as the greatest or the least integer. -/
def lastInteger? (step : Int64) (limit : Value) : Option Int :=
  match limit with
  | .integer n => some n.toInt
  | limit =>
    match integerTowards? step (floatOf limit) with
    | some n => some n
    | none =>
      if 0.0 < floatOf limit then (if step < 0 then none else some integerRange.2)
      else if 0 < step then none
      else some integerRange.1

/-- How many rounds a loop over integers takes. -/
def roundCount (first step last : Int) : Nat :=
  if 0 < step then (if first ≤ last then ((last - first) / step + 1).toNat else 0)
  else (if last ≤ first then ((first - last) / (-step) + 1).toNat else 0)

/-- A bound of a loop over numbers as a number. -/
def Scene.bound (scene : Scene) (what : String) (value : Value) : Computation Value := do
  match asNumber? value with
  | some number => return number
  | none =>
    scene.fail ("bad 'for' " ++ what ++ " (number expected, got " ++ (← operandName value) ++ ")")

/-- Runs a body with the numbers of a loop: with integers if the first number and the step are
integers. -/
def numericLoop (scene : Scene) (first last step : Value) (body : Value → Computation Flow) :
    Computation Flow := do
  match first, step with
  | .integer n, .integer d =>
    if d = 0 then scene.fail "'for' step is zero"
    let last ← scene.bound "limit" last
    match lastInteger? d last with
    | some limit => countRounds body n d (roundCount n.toInt d.toInt limit)
    | none => return .next
  | _, _ =>
    let last := floatOf (← scene.bound "limit" last)
    let step := floatOf (← scene.bound "step" step)
    let first := floatOf (← scene.bound "initial value" first)
    if step == 0.0 then scene.fail "'for' step is zero"
    let beyond := if 0.0 < step then last < first else first < last
    if beyond then return .next else floatRounds body first step last

/-! ## Values that are closed -/

/-- The local variable whose value is closed, and its value. -/
def closing? : List LocalName → List Value → Option (String × Value)
  | [], _ => none
  | ⟨name, some .closing⟩ :: _, values => some (name, firstOf values)
  | _ :: names, values => closing? names values.tail

/-- Closes a value; `raised` is the error that ends the statements in front, nil if there is
none. -/
def closeValue (scene : Scene) (value raised : Value) : Computation Unit := do
  let _ ← scene.callHandler "close" (← metafield value "__close") [value, raised]

/-- Runs statements and then closes a value, however they end. The values nil and false need not be
closed. -/
def closeAfter (scene : Scene) (name : String) (value : Value) (body : Computation Flow) :
    Computation Flow := do
  if !value.truthy then body
  else
    if (← metafield value "__close") = .nil then
      scene.fail ("variable '" ++ name ++ "' got a non-closable value")
    let flow ← catching body fun raised => do
      closeValue scene value raised
      raise raised
    closeValue scene value .nil
    return flow

/-! ## Loops over what a function gives -/

/-- Calls a function for the next values as long as the first of them is not nil, and runs a body
with them. The function gets a state and the value that was first the last time. -/
def iterate (scene : Scene) (function state : Value) (body : List Value → Computation Flow)
    (first : Value) : Computation Flow :=
  repeating (fun last => do
    if !function.isFunction && (← metafield function "__call") = .nil then
      scene.fail ("attempt to call a " ++ (← operandName function)
        ++ " value (for iterator 'for iterator')")
    let results ← scene.callHandler "for iterator" function [state, last]
    if firstOf results = .nil then return .inr .next
    return (← body results).behindBody (some (firstOf results))) first

/-- Runs a body with the values that a function gives. A loop starts with the function, a state, the
value in front of the first, and a value that is closed behind the loop. -/
def genericLoop (scene : Scene) (start : List Value) (body : List Value → Computation Flow) :
    Computation Flow :=
  closeAfter scene "(for state)" (firstOf (start.drop 3))
    (iterate scene (firstOf start) (firstOf (start.drop 1)) body (firstOf (start.drop 2)))

end ScriptHost.Script
