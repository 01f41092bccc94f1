import Mashroom.Sys.Current

/-!
# Sys.Setup — changing a configuration

`setup_user_config` and `setup_server_config` are for configurations that are there under the name of the one that is
given.  Both insert it into their set, where nothing is inserted under a name that is there: the state stays as it is
(`setupUserConfig_eq`, `setupServerConfig_eq`).  So what is stored is what was given only if it was so before.
-/

namespace Mashroom.Config

variable {τ : Type} (env : ConfigEnv τ)

/-- `get_user_config`: `empty_config_` when there is none, and under the empty name. -/
def getUserConfig (c : Config τ) (name : Name) : User.Settings τ :=
  if name = [] then User.Settings.empty env.toPeriodLib
  else if c.configs.contains name then (c.configs.find? name).getD (User.Settings.empty env.toPeriodLib)
  else User.Settings.empty env.toPeriodLib

/-- The user configuration under its name is the one that was given, and the others are as before. -/
structure UserSetUp (c c' : Config τ) (settings : User.Settings τ) : Prop where
  given : c'.getUserConfig env settings.name = settings
  users : ∀ other, other.name ≠ settings.name → (other ∈ c'.configs ↔ other ∈ c.configs)
  servers : ∀ other, other ∈ c'.serverConfigs ↔ other ∈ c.serverConfigs

/-- The server configuration under its name is the one that was given, and the others are as before. -/
structure ServerSetUp (c c' : Config τ) (settings : Server.Config) : Prop where
  given : getServerConfig c'.serverConfigs settings.name = settings
  users : ∀ other, other ∈ c'.configs ↔ other ∈ c.configs
  servers : ∀ other, other.name ≠ settings.name → (other ∈ c'.serverConfigs ↔ other ∈ c.serverConfigs)

section Setup

variable (c : Config τ)

/-- The state stays as it is. -/
theorem setupUserConfig_eq (settings : User.Settings τ) :
    c.setupUserConfig settings = (c, c.configs.contains settings.name) := by
  unfold setupUserConfig
  split
  · rename_i hthere
    rw [Keyed.insert_of_contains hthere, hthere]
  · rename_i hthere
    rw [Bool.eq_false_iff.mpr hthere]

/-- The state stays as it is. -/
theorem setupServerConfig_eq (settings : Server.Config) :
    c.setupServerConfig settings = (c, c.serverConfigs.contains settings.name && settings.valid) := by
  unfold setupServerConfig
  split
  · rename_i hthere
    rw [Keyed.insert_of_contains hthere.1, hthere.1, hthere.2, Bool.and_self]
  · rename_i hthere
    rw [← Bool.and_eq_true, Bool.not_eq_true] at hthere
    rw [hthere]

/-- **A configuration is changed** exactly where nothing is to be changed: where a call that returns true finds what it
is given under the name already.  The other configurations are never changed. -/
theorem setup_iff (env : ConfigEnv τ) (c : Config τ) :
    (∀ settings, ((c.setupUserConfig settings).2 = true → UserSetUp env c (c.setupUserConfig settings).1 settings) ↔
      (c.configs.contains settings.name = true → c.getUserConfig env settings.name = settings)) ∧
    ∀ settings, ((c.setupServerConfig settings).2 = true → ServerSetUp c (c.setupServerConfig settings).1 settings) ↔
      (c.serverConfigs.contains settings.name = true → settings.valid = true →
        getServerConfig c.serverConfigs settings.name = settings) := by
  refine ⟨fun settings => ?_, fun settings => ?_⟩
  · rw [setupUserConfig_eq]
    exact ⟨fun h hthere => (h hthere).given, fun h hthere => ⟨h hthere, fun _ _ => Iff.rfl, fun _ => Iff.rfl⟩⟩
  · rw [setupServerConfig_eq, Bool.and_eq_true, and_imp]
    exact ⟨fun h hthere hvalid => (h hthere hvalid).given,
      fun h hthere hvalid => ⟨h hthere hvalid, fun _ => Iff.rfl, fun _ _ => Iff.rfl⟩⟩

end Setup

/-- Settings under the name `a`, which are brought up to date after so many days. -/
def everyDays (days : ℕ) : User.Settings ℕ where
  name := ['a']
  indexUpdateTi := days
  mashroomUpdateTi := days

/-- A state with these settings and no servers. -/
def weekly : Config ℕ where
  configDir := []
  serverConfigDir := []
  serverConfig := .empty 0
  userConfig := everyDays 7
  configs := Keyed.empty.insert (everyDays 7)
  serverConfigs := .empty

/-- Settings that are to be changed from a week to a day are a week still. -/
theorem setup_weekly : (weekly.setupUserConfig (everyDays 1)).2 = true ∧
    (weekly.setupUserConfig (everyDays 1)).1.getUserConfig ConfigState.daysEnv ['a'] = everyDays 7 ∧
    ¬ UserSetUp ConfigState.daysEnv weekly (weekly.setupUserConfig (everyDays 1)).1 (everyDays 1) := by
  have hgiven : (weekly.setupUserConfig (everyDays 1)).1.getUserConfig ConfigState.daysEnv ['a'] = everyDays 7 := by
    decide
  refine ⟨by decide, hgiven, fun h => ?_⟩
  have hwrong : everyDays 7 = everyDays 1 := hgiven.symm.trans h.given
  exact absurd hwrong (by decide)

end Mashroom.Config
