import Mashroom.Data.Msg

/-!
# Data.Properties — what is searched for, and under which key results are kept
-/

namespace Mashroom

structure SearchParamTableVersion where
  param : ℕ
  tVer : ℕ
  deriving DecidableEq

/-- The properties of a search.  The set of parameters is used for its members only. -/
structure SearchProperties where
  parameters : List SearchParamTableVersion
  fromDate : ℤ
  toDate : ℤ
  position : Option Coord
  gridType : Option RepresentationType
  center : Option TableCode
  fcstUnit : Option TimeForecast
  level : Option Level

structure CommonDataProperties where
  center : Option TableCode
  tableVersion : Option ℕ
  parameter : Option ℕ
  deriving DecidableEq

/-- `Grib1CommonDataProperties(center,table_version,parameter)` of a message. -/
def GribMsgDataInfo.key (info : GribMsgDataInfo) : CommonDataProperties where
  center := some info.center
  tableVersion := some info.tableVersion
  parameter := some info.parameter

/-- An optional property asks for something else than `x`. -/
def Differs {α : Type} (property : Option α) (x : α) : Prop := ∃ y ∈ property, x ≠ y

instance {α : Type} [DecidableEq α] (property : Option α) (x : α) : Decidable (Differs property x) :=
  match property with
  | none => .isFalse (by simp [Differs])
  | some y => if h : x = y then .isFalse (by simp [Differs, h]) else .isTrue ⟨y, rfl, h⟩

theorem not_differs {α : Type} {property : Option α} {x : α} : ¬ Differs property x ↔ ∀ y ∈ property, x = y := by
  unfold Differs
  push Not
  rfl

/-- The filter on parameters: a set that is not empty must contain the parameter. -/
def SearchProperties.skipsParameter (props : SearchProperties) (info : GribMsgDataInfo) : Prop :=
  props.parameters ≠ [] ∧ { param := info.parameter, tVer := info.tableVersion } ∉ props.parameters

instance (props : SearchProperties) (info : GribMsgDataInfo) : Decidable (props.skipsParameter info) :=
  inferInstanceAs (Decidable (_ ∧ _))

theorem SearchProperties.not_skipsParameter {props : SearchProperties} {info : GribMsgDataInfo} :
    ¬ props.skipsParameter info ↔
      props.parameters = [] ∨ { param := info.parameter, tVer := info.tableVersion } ∈ props.parameters := by
  unfold skipsParameter
  rw [not_and_or, not_not, not_not]

end Mashroom
