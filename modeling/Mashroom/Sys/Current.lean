import Mashroom.Lib.Runs
import Mashroom.Sys.Config

/-!
# Sys.Current — is the current configuration one of those that are kept?

The current configurations are copies.  An operation that inserts never replaces what is there, so the copy stays
equal to an element until that is removed.  `stored_iff` says which files the constructor and which operations of a
run keep the current configurations stored.
-/

namespace Mashroom

namespace Config

variable {τ : Type} (env : ConfigEnv τ)

/-- The current user configuration is kept, and so is that of the server unless it is the built-in one. -/
structure Stored (c : Config τ) : Prop where
  user : c.userConfig ∈ c.configs
  server : c.serverConfig ∈ c.serverConfigs ∨ ∃ storage, c.serverConfig = Server.Config.getDefault env.tcp storage

/-- There is a server configuration to fall back on. -/
def HasDefault (c : Config τ) : Prop := c.serverConfigs.contains "default".toList = true

/-! ## The constructor -/

section Construct

variable {env}

/-- The default configuration of the users that is made current is an element. -/
theorem insertDefault_mem (configs : Keyed (User.Settings.name (τ := τ))) :
    (insertDefault env configs).1 ∈ (insertDefault env configs).2 := by
  have hc : (configs.insert (User.defaultConfig env.toPeriodLib)).contains
      (User.defaultConfig env.toPeriodLib).name = true := Keyed.contains_insert.mpr (.inr rfl)
  obtain ⟨a, ha, hf⟩ := Keyed.find?_of_contains hc
  rw [insertDefault, hf]
  exact ha

/-- The file of the users is an object, and its last name is that of no configuration in it, unless a configuration
without a name is there that is equal to an empty one. -/
def UserFileRead (env : ConfigEnv τ) (root : Option Json) : Prop :=
  ∃ registered, root.bind Json.asObject = some registered ∧
    (lastOf registered = [] ∨ (readConfigs env registered).contains (lastOf registered) = false ∨
      User.Settings.empty env.toPeriodLib ∈ readConfigs env registered)

theorem readUserConfig_mem_iff (root : Option Json) :
    (readUserConfig env root).1 ∈ (readUserConfig env root).2 ↔ UserFileRead env root := by
  unfold readUserConfig UserFileRead
  cases hroot : root.bind Json.asObject with
  | none => simp
  | some registered =>
    dsimp only
    by_cases h : lastOf registered = [] ∨ (readConfigs env registered).contains (lastOf registered) = false
    · rw [if_pos h]
      exact iff_of_true (insertDefault_mem _) ⟨registered, rfl, h.imp_right .inl⟩
    · rw [if_neg h]
      constructor
      · exact fun hmem => ⟨registered, rfl, .inr (.inr hmem)⟩
      · rintro ⟨registered', heq, hcases⟩
        cases heq
        rcases hcases with h' | h' | h'
        · exact absurd (.inl h') h
        · exact absurd (.inr h') h
        · exact h'

/-- The file of the servers never fills the set, and what is looked up there is not valid. -/
theorem readRoot_eq_ok {storage : ℤ} {root : Json} {r : Server.Config × Keyed Server.Config.name}
    (h : readRoot storage root = .ok r) : r.1.valid = false ∧ r.2 = .empty := by
  unfold readRoot at h
  split at h
  · cases h
    exact ⟨rfl, rfl⟩
  · obtain ⟨last, -, h⟩ := bind_eq_ok.mp h
    obtain ⟨serverConfigs, hs, h⟩ := bind_eq_ok.mp h
    have hempty : serverConfigs = .empty := by
      unfold readServers at hs
      split at hs
      · exact (Except.ok.inj hs).symm
      · cases hs
    subst hempty
    cases h
    refine ⟨?_, rfl⟩
    dsimp only
    split <;> rfl

/-- A server configuration read from a file that can be parsed is the built-in one, and the only one. -/
theorem readServerConfig_some {storage : ℤ} {root : Json} {r : Server.Config × Keyed Server.Config.name}
    (h : readServerConfig env storage (some root) = .ok r) :
    r = (Server.Config.getDefault env.tcp storage, Keyed.empty.insert (Server.Config.getDefault env.tcp storage)) := by
  rw [readServerConfig] at h
  obtain ⟨⟨serverConfig, serverConfigs⟩, hp, h⟩ := bind_eq_ok.mp h
  obtain ⟨hvalid, hempty⟩ := readRoot_eq_ok hp
  dsimp only at hvalid hempty
  subst hempty
  simp only [hvalid] at h
  exact (Except.ok.inj h).symm

/-- Both files are there, and the last user is not looked for in vain. -/
structure FilesRead (env : ConfigEnv τ) (files : JsonFiles) : Prop where
  user : UserFileRead env (files (env.home.append ucFilename))
  server : files (env.home.append scFilename) ≠ none

theorem construct_eq_ok {storage : ℤ} {files : JsonFiles} {c : Config τ} (h : construct env storage files = .ok c) :
    (c.userConfig, c.configs) = readUserConfig env (files (env.home.append ucFilename)) ∧
      readServerConfig env storage (files (env.home.append scFilename)) = .ok (c.serverConfig, c.serverConfigs) := by
  obtain ⟨p, hp, h⟩ := bind_eq_ok.mp h
  cases h
  exact ⟨rfl, hp⟩

/-- A constructed configuration is stored when both files are read, and then has a default. -/
theorem stored_construct_iff {storage : ℤ} {files : JsonFiles} {c : Config τ}
    (h : construct env storage files = .ok c) :
    (c.Stored env ↔ FilesRead env files) ∧ (FilesRead env files → c.HasDefault) := by
  obtain ⟨huser, hserver⟩ := construct_eq_ok h
  have hu : c.userConfig ∈ c.configs ↔ UserFileRead env (files (env.home.append ucFilename)) := by
    rw [← readUserConfig_mem_iff, ← huser]
  cases hroot : files (env.home.append scFilename) with
  | none =>
    rw [hroot] at hserver
    have hnot : ¬ FilesRead env files := fun hf => hf.server hroot
    refine ⟨iff_of_false (fun hs => ?_) hnot, fun hf => absurd hf hnot⟩
    obtain ⟨h1, h2⟩ := Prod.mk.inj (Except.ok.inj hserver)
    rcases hs.server with hmem | ⟨storage', heq⟩
    · rw [← h2] at hmem
      exact Keyed.notMem_empty hmem
    · rw [← h1] at heq
      have hname : ([] : Name) = "default".toList := congrArg Server.Config.name heq
      cases hname
  | some root =>
    rw [hroot] at hserver
    obtain ⟨h1, h2⟩ := Prod.mk.inj (readServerConfig_some hserver)
    refine ⟨⟨fun hs => ⟨hu.mp hs.user, by rw [hroot]; exact nofun⟩, fun hf => ⟨hu.mpr hf.user, .inr ⟨storage, h1⟩⟩⟩, ?_⟩
    intro _
    rw [HasDefault, h2]
    rfl

end Construct

/-! ## The operations -/

/-- The current configurations are stored, and there is a default server configuration. -/
structure Kept (c : Config τ) : Prop where
  stored : c.Stored env
  hasDefault : c.HasDefault

section Operations

variable {env} {c : Config τ} (hk : c.Kept env)

include hk

/-- More user configurations and the same others. -/
theorem Kept.insertUser (settings : User.Settings τ) : { c with configs := c.configs.insert settings }.Kept env :=
  ⟨⟨Keyed.mem_insert.mpr (.inl hk.stored.user), hk.stored.server⟩, hk.hasDefault⟩

/-- More server configurations and the same others. -/
theorem Kept.insertServer (set : Server.Config) :
    { c with serverConfigs := c.serverConfigs.insert set }.Kept env :=
  ⟨⟨hk.stored.user, hk.stored.server.imp_left fun h => Keyed.mem_insert.mpr (.inl h)⟩,
    Keyed.contains_insert.mpr (.inl hk.hasDefault)⟩

theorem kept_addUserConfig (settings : User.Settings τ) : (c.addUserConfig settings).1.Kept env := by
  unfold addUserConfig
  split
  · exact hk
  · split
    · exact hk
    · exact hk.insertUser settings

theorem kept_addServerConfig (set : Server.Config) : (c.addServerConfig set).1.Kept env := by
  unfold addServerConfig
  split
  · exact hk
  · exact hk.insertServer set

theorem kept_setupUserConfig (settings : User.Settings τ) : (c.setupUserConfig settings).1.Kept env := by
  unfold setupUserConfig
  split
  · exact hk.insertUser settings
  · exact hk

theorem kept_setupServerConfig (settings : Server.Config) : (c.setupServerConfig settings).1.Kept env := by
  unfold setupServerConfig
  split
  · exact hk.insertServer settings
  · exact hk

theorem kept_setUserConfig (name : Name) : (c.setUserConfig name).1.Kept env := by
  unfold setUserConfig
  split
  · rename_i userConfig h
    exact ⟨⟨(Keyed.find?_mem h).1, hk.stored.server⟩, hk.hasDefault⟩
  · exact hk

theorem kept_setServerConfig (name : Name) : (c.setServerConfig name).1.Kept env := by
  unfold setServerConfig
  split
  · rename_i serverConfig h
    exact ⟨⟨hk.stored.user, .inl (Keyed.find?_mem h).1⟩, hk.hasDefault⟩
  · exact hk

/-- The current configuration stays stored exactly when it is not the one that is removed. -/
theorem kept_removeUserConfig_iff (name : Name) :
    ((c.removeUserConfig name).1.Stored env ↔ name ≠ c.userConfig.name) ∧
      (c.removeUserConfig name).1.HasDefault := by
  unfold removeUserConfig
  split
  · refine ⟨⟨fun h hname => (Keyed.mem_erase.mp h.user).2 hname.symm, fun hne => ⟨?_, hk.stored.server⟩⟩, hk.hasDefault⟩
    exact Keyed.mem_erase.mpr ⟨hk.stored.user, hne.symm⟩
  · rename_i h
    refine ⟨iff_of_true hk.stored fun hname => ?_, hk.hasDefault⟩
    rw [hname] at h
    exact h (Keyed.contains_of_mem hk.stored.user)

/-- With a default to fall back on, a server configuration is removed and the current one is stored. -/
theorem kept_removeServerConfig (name : Name) : ∃ r, c.removeServerConfig name = .ok r ∧ r.1.Kept env := by
  unfold removeServerConfig
  by_cases hname : name = "default".toList
  · rw [if_pos hname]
    exact ⟨_, rfl, hk⟩
  · rw [if_neg hname]
    by_cases hc : c.serverConfigs.contains name = true
    · have hstill : (c.serverConfigs.erase name).contains "default".toList = true :=
        Keyed.contains_erase.mpr ⟨hk.hasDefault, fun h => hname h.symm⟩
      obtain ⟨serverConfig, hmem, hfind⟩ := Keyed.find?_of_contains hstill
      rw [if_pos hc]
      simp only [hfind]
      exact ⟨_, rfl, ⟨hk.stored.user, .inl hmem⟩, hstill⟩
    · rw [if_neg hc]
      exact ⟨_, rfl, hk⟩

theorem kept_setConfigDirectory (access : Access) (path : FsPath) : (c.setConfigDirectory access path).Kept env := by
  unfold setConfigDirectory
  split
  · exact ⟨⟨hk.stored.user, hk.stored.server⟩, hk.hasDefault⟩
  · exact hk

theorem kept_setServerConfigDirectory (access : Access) (path : FsPath) :
    (c.setServerConfigDirectory access path).Kept env := by
  unfold setServerConfigDirectory
  split
  · exact ⟨⟨hk.stored.user, hk.stored.server⟩, hk.hasDefault⟩
  · exact hk

end Operations

end Config

/-! ## Runs -/

namespace ConfigState

variable {τ : Type} {env : ConfigEnv τ}

/-- An operation does not remove the current user configuration. -/
def SparesCurrent (s : ConfigState τ) : ConfigOp τ → Prop
  | .removeUser name => name ≠ s.config.userConfig.name
  | _ => True

/-- What an operation makes of the configurations. -/
theorem step_addUser {s s' : ConfigState τ} {access : Config.Access} {settings : User.Settings τ}
    (h : step env s (.addUser access settings) = some s') : s'.config = (s.config.addUserConfig settings).1 := by
  simp only [step] at h
  split at h <;>
  · rename_i config heq
    cases h
    rw [heq]

/-- With the current configurations stored, an operation is defined; it keeps them stored exactly when it spares the
current one, and the default stays. -/
theorem kept_step_iff {s s' : ConfigState τ} {op : ConfigOp τ} (hk : s.config.Kept env) (h : step env s op = some s') :
    (s'.config.Stored env ↔ s.SparesCurrent op) ∧ s'.config.HasDefault := by
  have hkept : ∀ c : Config τ, c.Kept env → (c.Stored env ↔ True) ∧ c.HasDefault :=
    fun c hc => ⟨iff_of_true hc.stored trivial, hc.hasDefault⟩
  cases op with
  | addUser access settings =>
    rw [step_addUser h]
    exact hkept _ (Config.kept_addUserConfig hk settings)
  | addServer set =>
    cases h
    exact hkept _ (Config.kept_addServerConfig hk set)
  | setupUser settings =>
    cases h
    exact hkept _ (Config.kept_setupUserConfig hk settings)
  | setupServer settings =>
    cases h
    exact hkept _ (Config.kept_setupServerConfig hk settings)
  | setUser name =>
    cases h
    exact hkept _ (Config.kept_setUserConfig hk name)
  | setServer name =>
    cases h
    exact hkept _ (Config.kept_setServerConfig hk name)
  | removeUser name =>
    cases h
    exact Config.kept_removeUserConfig_iff hk name
  | removeServer name =>
    obtain ⟨r, hr, hkr⟩ := Config.kept_removeServerConfig hk name
    simp only [step, hr] at h
    cases h
    exact hkept _ hkr
  | setDirectory access path =>
    cases h
    exact hkept _ (Config.kept_setConfigDirectory hk access path)
  | setServerDirectory access path =>
    cases h
    exact hkept _ (Config.kept_setServerConfigDirectory hk access path)
  | save access =>
    cases h
    exact hkept _ hk

/-- **The current configurations are stored in every state of a run** exactly when both files are read at its start and
no operation removes the current user configuration. -/
theorem stored_iff {storage : ℤ} {files : JsonFiles} {c : Config τ} (hc : Config.construct env storage files = .ok c)
    (ops : List (ConfigOp τ)) :
    (c.Stored env ∧ Runs.Each (step env) (fun _ _ s' => s'.config.Stored env) ⟨c, files⟩ ops) ↔
      Config.FilesRead env files ∧ Runs.Meets (step env) SparesCurrent ⟨c, files⟩ ops := by
  obtain ⟨hiff, hdefault⟩ := Config.stored_construct_iff hc
  rw [hiff]
  refine and_congr_right fun hf => ?_
  refine Runs.each_iff_meets (I := fun s => s.config.Kept env) (fun s op s' hk h => (kept_step_iff hk h).1) ?_
    ⟨hiff.mpr hf, hdefault hf⟩ ops
  intro s op s' hk hspares h
  obtain ⟨hstored, hd⟩ := kept_step_iff hk h
  exact ⟨hstored.mpr hspares, hd⟩

/-! ### Two files without configurations -/

/-- Periods are numbers of days. -/
def daysEnv : ConfigEnv ℕ where
  none := 0
  week := 7
  toJson := .uint64
  fromJson := Json.asUint64
  tcp := 6
  home := "/home".toList

/-- Every file is an empty object. -/
def emptyObjects : JsonFiles := fun _ => some (.object [])

/-- What is constructed: the two defaults. -/
def defaults : Config ℕ where
  configDir := "/home".toList
  serverConfigDir := "/home".toList
  serverConfig := Server.Config.getDefault 6 0
  userConfig := User.defaultConfig daysEnv.toPeriodLib
  configs := Keyed.empty.insert (User.defaultConfig daysEnv.toPeriodLib)
  serverConfigs := Keyed.empty.insert (Server.Config.getDefault 6 0)

theorem construct_emptyObjects : Config.construct daysEnv 0 emptyObjects = .ok defaults := rfl

/-- Another user configuration is made the current one. -/
def anotherUser : List (ConfigOp ℕ) :=
  [.addUser Config.everything { name := ['a'], indexUpdateTi := 1, mashroomUpdateTi := 1 }, .setUser ['a']]

/-- The theorem for that run. -/
theorem stored_iff_defaults :
    (defaults.Stored daysEnv ∧ Runs.Each (step daysEnv) (fun _ _ s' => s'.config.Stored daysEnv)
        ⟨defaults, emptyObjects⟩ anotherUser) ↔
      Config.FilesRead daysEnv emptyObjects ∧
        Runs.Meets (step daysEnv) SparesCurrent ⟨defaults, emptyObjects⟩ anotherUser :=
  stored_iff construct_emptyObjects anotherUser

/-- The current user configuration is removed, and still is the current one; and where there are no files, neither of
the current configurations is in a set from the start on. -/
theorem removed_still_current :
    (∃ s, Runs.run (step daysEnv) ⟨defaults, emptyObjects⟩ [.removeUser "default".toList] = some s ∧
      s.config.userConfig.name = "default".toList ∧ s.config.userConfig ∉ s.config.configs) ∧
    ∃ c, Config.construct daysEnv 0 (fun _ => none) = .ok c ∧ c.userConfig ∉ c.configs ∧
      c.serverConfig ∉ c.serverConfigs ∧ ¬ c.Stored daysEnv := by
  refine ⟨⟨_, rfl, rfl, by decide⟩, _, rfl, Keyed.notMem_empty, Keyed.notMem_empty, ?_⟩
  exact fun h => Keyed.notMem_empty h.user

end ConfigState

end Mashroom
