import Mathlib.Data.List.DropRight

/-!
# Since the last time

What a device keeps of its history often begins with the last time that one thing happened.
-/

namespace Chip8

variable {α : Type} [DecidableEq α]

/-- What came in a history after the last `mark`, or all of it if there was none. -/
def since (mark : α) (history : List α) : List α :=
  history.rtakeWhile (· ≠ mark)

theorem since_concat_self
    (mark : α) (history : List α) :
    since mark (history ++ [mark]) = [] :=
  List.rtakeWhile_concat_neg _ _ _ (by simp)

theorem since_concat
    {mark event : α} (hne : event ≠ mark) (history : List α) :
    since mark (history ++ [event]) = since mark history ++ [event] :=
  List.rtakeWhile_concat_pos _ _ _ (by simpa using hne)

end Chip8
