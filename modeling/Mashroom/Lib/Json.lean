import Mathlib.Algebra.Ring.Nat
import Mathlib.Data.Rat.Defs

/-!
# Json — JSON values and what becomes of them in a text

A value has one of eight kinds; integers are of two kinds, signed and unsigned, of 64 bits each.  The text of a value
does not tell the two apart: a number that is read back is signed if it fits (`reread`).  A reader that asks for a
kind gets a value of that kind or nothing.
-/

/-- A JSON value. -/
inductive Json where
  | null
  | bool (b : Bool)
  | int64 (z : ℤ)
  | uint64 (n : ℕ)
  | double (q : ℚ)
  | string (s : List Char)
  | array (elems : List Json)
  | object (members : List (List Char × Json))

namespace Json

/-- The member of an object under a name. -/
def member? (members : List (List Char × Json)) (name : List Char) : Option Json :=
  (members.find? fun m => m.1 = name).map Prod.snd

/-- `if_object` -/
def asObject : Json → Option (List (List Char × Json))
  | .object members => some members
  | _ => none

/-- `if_array` -/
def asArray : Json → Option (List Json)
  | .array elems => some elems
  | _ => none

/-- `if_string` -/
def asString : Json → Option (List Char)
  | .string s => some s
  | _ => none

/-- `if_uint64` -/
def asUint64 : Json → Option ℕ
  | .uint64 n => some n
  | _ => none

/-- `if_int64` -/
def asInt64 : Json → Option ℤ
  | .int64 z => some z
  | _ => none

mutual

/-- The value that is read from the text of a value. -/
def reread : Json → Json
  | .null => .null
  | .bool b => .bool b
  | .int64 z => .int64 z
  | .uint64 n => if n < 2 ^ 63 then .int64 n else .uint64 n
  | .double q => .double q
  | .string s => .string s
  | .array elems => .array (rereadElems elems)
  | .object members => .object (rereadMembers members)

/-- The elements of an array, read back. -/
def rereadElems : List Json → List Json
  | [] => []
  | j :: elems => reread j :: rereadElems elems

/-- The members of an object, read back. -/
def rereadMembers : List (List Char × Json) → List (List Char × Json)
  | [] => []
  | (name, j) :: members => (name, reread j) :: rereadMembers members

end

/-- An object has the same names after it is read back. -/
theorem member?_reread (members : List (List Char × Json)) (name : List Char) :
    member? (rereadMembers members) name = (member? members name).map reread := by
  induction members with
  | nil => rfl
  | cons m members ih =>
    obtain ⟨name', j⟩ := m
    by_cases h : name' = name
    · simp [rereadMembers, member?, h]
    · simpa [rereadMembers, member?, h] using ih

/-- A member that is found is there. -/
theorem member?_of_mem {members : List (List Char × Json)} {name : List Char} {j : Json}
    (h : member? members name = some j) : (name, j) ∈ members := by
  obtain ⟨m, hm, rfl⟩ := Option.map_eq_some_iff.mp h
  have hname : m.1 = name := by simpa using List.find?_some hm
  rw [← hname]
  exact List.mem_of_find?_eq_some hm

end Json
