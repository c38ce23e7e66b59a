import Mathlib.Data.List.Basic

/-!
# Records of named members

A record is read member by member, by name: the members stand in any order, one
that is given twice is refused, and one the reader does not ask for is passed over.
-/

namespace Members

variable {V α : Type} {name : String} {ms ms' : List (String × V)}

/-- All that is given under a name. -/
def under (name : String) (ms : List (String × V)) : List V :=
  (ms.filter fun m => m.1 = name).map Prod.snd

/-- A member that must be there. -/
def field (read : V → Option α) (name : String) (ms : List (String × V)) : Option α :=
  match under name ms with
  | [v] => read v
  | _ => none

/-- A member that defaults to `d`. -/
def fieldOr (d : α) (read : V → Option α) (name : String) (ms : List (String × V)) : Option α :=
  match under name ms with
  | [] => some d
  | [v] => read v
  | _ => none

@[simp] theorem under_nil : under name ([] : List (String × V)) = [] := rfl

@[simp] theorem under_cons (n : String) (v : V) :
    under name ((n, v) :: ms) = if n = name then v :: under name ms else under name ms := by
  by_cases h : n = name
  · simp [under, h]
  · simp [under, h]

@[simp] theorem under_append : under name (ms ++ ms') = under name ms ++ under name ms' := by
  simp [under]

end Members
