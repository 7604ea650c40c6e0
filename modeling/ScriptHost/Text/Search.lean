/-!
# Searching in a text

* `after? pattern cs` : what follows the first occurrence of `pattern` in `cs`.
* `upTo? stop cs` : the text before the first `stop`, and the text from that `stop` on.
-/

namespace ScriptHost.Text

/-- What follows the first occurrence of `pattern`. -/
def after? (pattern : List Char) : List Char → Option (List Char)
  | [] => if pattern.isEmpty then some [] else none
  | c :: rest =>
    if pattern.isPrefixOf (c :: rest) then some ((c :: rest).drop pattern.length)
    else after? pattern rest

/-- The text before the first `stop`, and the text from that `stop` on. -/
def upTo? (stop : Char) : List Char → Option (List Char × List Char)
  | [] => none
  | c :: rest =>
    if c = stop then some ([], c :: rest)
    else (upTo? stop rest).map fun (front, back) => (c :: front, back)

/-- The first `stop` of a text is found behind a part that has none. -/
theorem upTo?_append {stop : Char} {front : List Char} (rest : List Char) (h : stop ∉ front) :
    upTo? stop (front ++ stop :: rest) = some (front, stop :: rest) := by
  induction front with
  | nil => simp [upTo?]
  | cons c front ih =>
    have hc : c ≠ stop := fun e => h (by simp [e])
    have hf : stop ∉ front := fun m => h (by simp [m])
    simp [upTo?, hc, ih hf]

end ScriptHost.Text
