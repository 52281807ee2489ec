import Mathlib.Data.List.Basic

/-!
# Failures since the last success

A history lists its newest entry first. `failed` says of an entry whether it is a failure or a
success; an entry that is neither says nothing.
-/
namespace Facet
variable {α : Type*} (failed : α → Option Bool)

def failuresSince : List α → ℕ
  | [] => 0
  | a :: history =>
    match failed a with
    | some true => failuresSince history + 1
    | some false => 0
    | none => failuresSince history

variable {failed} {a : α} {history : List α}

theorem failuresSince_failure (h : failed a = some true) :
    failuresSince failed (a :: history) = failuresSince failed history + 1 := by
  simp only [failuresSince, h]

theorem failuresSince_success (h : failed a = some false) :
    failuresSince failed (a :: history) = 0 := by
  simp only [failuresSince, h]

theorem failuresSince_neither (h : failed a = none) :
    failuresSince failed (a :: history) = failuresSince failed history := by
  simp only [failuresSince, h]

end Facet
