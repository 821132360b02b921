import EvalEngine.Exceptions

namespace EvalEngine.QueryResults

open EvalEngine.Exceptions

variable {α : Type*}

/-- `Result.scalar_one_or_none` on the rows that a query matched. -/
def scalarOneOrNone : List α → Except PyException (Option α)
  | [] => .ok none
  | [x] => .ok (some x)
  | _ => .error .multipleResultsFound

/-- `Result.scalar_one` on the rows that a query matched. -/
def scalarOne : List α → Except PyException α
  | [] => .error .noResultFound
  | [x] => .ok x
  | _ => .error .multipleResultsFound

theorem scalarOneOrNone_some {xs : List α} {x : α} (h : scalarOneOrNone xs = .ok (some x)) :
    xs = [x] := by
  obtain _ | ⟨y, _ | ⟨z, xs⟩⟩ := xs
  · cases h
  · cases h; rfl
  · cases h

end EvalEngine.QueryResults
