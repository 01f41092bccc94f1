import Mathlib.Data.Finset.Insert
import Mathlib.Data.Finset.Basic
import Mashroom.Lib.Json
import Mashroom.Lib.Keyed
import Mashroom.Mapped

/-!
# Sys.Settings — user and server configurations, and their JSON

A configuration is known by its name.  `TimePeriod` and its JSON are OsterLib's: the type `τ` and the fields of
`PeriodLib`.  What is read is a value of the kind that is asked for, or an exception.
-/

namespace Mashroom

/-- The text of a name or of a field. -/
abbrev Name := List Char

/-- What OsterLib says of periods. -/
structure PeriodLib (τ : Type) where
  /-- `TimePeriod()` -/
  none : τ
  /-- seven days -/
  week : τ
  toJson : τ → Json
  fromJson : Json → Option τ

/-! ## Users -/

namespace User

/-- `BIN_F | ARCHIVED` -/
def binArchived : ℕ := 2 + 2 ^ 30

structure Settings (τ : Type) where
  name : Name
  indexUpdateTi : τ
  mashroomUpdateTi : τ
  defaultFormat : ℕ := binArchived
  deriving DecidableEq

section Json

variable {τ : Type} (lib : PeriodLib τ)

/-- `user::Settings()` -/
def Settings.empty : Settings τ where
  name := []
  indexUpdateTi := lib.none
  mashroomUpdateTi := lib.none

def defaultConfig : Settings τ where
  name := "default".toList
  indexUpdateTi := lib.week
  mashroomUpdateTi := lib.week

/-- `to_json`, which leaves the format out. -/
def Settings.toJson (val : Settings τ) : Json := .object [
  ("name".toList, .string val.name),
  ("mashroom-update-ti".toList, lib.toJson val.mashroomUpdateTi),
  ("index-update-ti".toList, lib.toJson val.indexUpdateTi)]

/-- `from_json`: every exception is caught. -/
def Settings.fromJson (val : Json) : Option (Settings τ) := do
  let members ← val.asObject
  let name ← (← Json.member? members "name".toList).asString
  let mashroomUpdateTi ← lib.fromJson (← Json.member? members "mashroom-update-ti".toList)
  let indexUpdateTi ← lib.fromJson (← Json.member? members "index-update-ti".toList)
  return { name, indexUpdateTi, mashroomUpdateTi }

end Json

end User

/-! ## Servers -/

namespace Server

structure Settings where
  host : List Char := []
  service : List Char := []
  protocol : ℕ := 6
  timeoutSeconds : ℤ := 20
  port : ℤ
  reuseAddress : Bool := true
  deriving DecidableEq

structure Config where
  settings : Settings
  acceptedAddresses : Finset (List Char) := ∅
  name : Name := []
  deriving DecidableEq

namespace Config

/-- `Config()`: `port_` keeps what its storage held. -/
def empty (storage : ℤ) : Config where
  settings := { port := storage }

/-- `operator bool`: the port is tested as `!port_ > 0`, and the protocol is never negative. -/
def valid (c : Config) : Bool :=
  c.settings.host ≠ [] && (c.settings.service ≠ [] || c.settings.port = 0) && 1 ≤ c.settings.timeoutSeconds &&
    c.name ≠ []

/-- `get_default_server_config`, with the number that `getprotobyname` has for `tcp`. -/
def getDefault (tcp : ℕ) (storage : ℤ) : Config where
  settings := {
    host := "10.10.10.10".toList, service := "32396".toList, protocol := tcp, timeoutSeconds := 20, port := storage }
  name := "default".toList

def toJson (val : Config) : Json := .object [
  ("name".toList, .string val.name),
  ("host".toList, .string val.settings.host),
  ("service".toList, .string val.settings.service),
  ("port".toList, .int64 val.settings.port),
  ("protocol".toList, .uint64 val.settings.protocol),
  ("timeout".toList, .int64 val.settings.timeoutSeconds)]

/-- A member of a kind.  `at` and the accessors throw exceptions that the handler does not name. -/
def field {α : Type} (as : Json → Option α) (members : List (List Char × Json)) (name : Name) : Except Fault α :=
  match Json.member? members name with
  | some j => match as j with
    | some a => .ok a
    | none => .error .exception
  | none => .error .exception

/-- `from_json`: what is no object gives an empty configuration. -/
def fromJson (storage : ℤ) (val : Json) : Except Fault Config :=
  match val.asObject with
  | none => .ok (empty storage)
  | some c => do
    let name ← field Json.asString c "name".toList
    let host ← field Json.asString c "host".toList
    let service ← field Json.asString c "service".toList
    let port ← field Json.asUint64 c "port".toList
    let protocol ← field Json.asUint64 c "protocol".toList
    let timeout ← field Json.asInt64 c "timeout".toList
    let accaddr ← field Json.asArray c "accaddr".toList
    let addresses ← accaddr.mapM fun addr => match addr.asString with
      | some a => .ok a
      | none => .error .exception
    return {
      name
      settings := {
        host, service, port := (port % 2 ^ 16 : ℕ), protocol := protocol % 2 ^ 32
        timeoutSeconds := toSigned 32 timeout }
      acceptedAddresses := addresses.toFinset }

/-- **What `to_json` makes of a server configuration, `from_json` never reads**, neither as it is nor from a text: the
port is asked for as an unsigned number and written as a signed one. -/
theorem fromJson_toJson (storage : ℤ) (c : Config) :
    fromJson storage c.toJson = .error .exception ∧ fromJson storage c.toJson.reread = .error .exception := by
  refine ⟨?_, ?_⟩
  · rfl
  · rfl

end Config

end Server

end Mashroom
