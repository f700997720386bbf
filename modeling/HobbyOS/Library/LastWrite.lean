import Mathlib.Logic.Function.Basic
import HobbyOS.Library.TransitionSystem

namespace HobbyOS.Library

/-!
# Maps that are overwritten one key at a time

Every event gives one key a value.  After a history of events a key has the
value of the last event about it, or its initial value if there was none.
-/

variable
  {Key Value Event : Type}
  [DecidableEq Key]
  (key : Event → Key)
  (value : Event → Value)

/-- The value of the last event about a key, or the initial value. -/
def lastValue
    (initial : Key → Value)
    (events : List Event)
    (asked : Key) :
    Value :=
  match events.reverse.find? fun event => key event = asked with
  | some event => value event
  | none => initial asked

/-- One event overwrites the value of its key and nothing else. -/
def Overwrites
    (event : Event)
    (before after : Key → Value) :
    Prop :=
  after = Function.update before (key event) (value event)

/-- A further event overwrites the value of its key. -/
theorem lastValue_snoc
    (initial : Key → Value)
    (events : List Event)
    (event : Event) :
    lastValue key value initial (events ++ [event]) =
      Function.update (lastValue key value initial events)
        (key event) (value event) := by
  funext asked
  by_cases about : key event = asked
  · simp [lastValue, about]
  · simp [lastValue, about, Ne.symm about]

/-- A run of overwriting events ends with the last values. -/
theorem Run.eq_lastValue
    {initial final : Key → Value}
    {events : List Event}
    (run : Run (Overwrites key value) initial events final) :
    final = lastValue key value initial events := by
  induction run with
  | nil =>
      rfl
  | snoc _ overwrites inductionHypothesis =>
      rw [lastValue_snoc, ← inductionHypothesis]
      exact overwrites

end HobbyOS.Library
