import Mashroom.Sys.Current

/-!
# Sys.Reload — what a new program finds of the saved configurations

`save` writes the users as members of an object, the constructor looks for an array under `configs`; `save` writes the
servers as an array under `configs`, the constructor looks for an object.  So the constructor finds the defaults in what
was saved, whatever it was.  `reloads_iff` says when these are what the program had.
-/

namespace Mashroom

namespace Config

variable {τ : Type} (env : ConfigEnv τ)

/-- The configurations of a program and of a new one are the same. -/
structure Restores (c c' : Config τ) : Prop where
  users : c'.configs.Same c.configs
  servers : c'.serverConfigs.Same c.serverConfigs
  user : c'.userConfig = c.userConfig
  server : c'.serverConfig = c.serverConfig

/-- After it is saved, a new program with the same files restores it. -/
def Reloads (access : Access) (storage : ℤ) (files : JsonFiles) (c : Config τ) : Prop :=
  ∃ c', construct env storage (c.save env access files) = .ok c' ∧ c.Restores c'

/-! ## What is saved -/

/-- A file of a directory is written, and is the file of that name that a new program reads. -/
def Writes (access : Access) (dir name : FsPath) : Prop :=
  (access.accessible dir = true ∧ access.opens (dir.append name) = true) ∧ dir.append name = env.home.append name

instance (access : Access) (dir name : FsPath) : Decidable (Writes env access dir name) :=
  inferInstanceAs (Decidable (_ ∧ _))

section Save

variable {env} {access : Access} {files : JsonFiles} {c : Config τ}

/-- The two files never have one path. -/
theorem append_ne (dir dir' : FsPath) : dir.append ucFilename ≠ dir'.append scFilename := by
  intro h
  have huser : ∀ c ∈ ucFilename, c ≠ '/' := List.forall_mem_ne'.mpr (by decide)
  have hserver : ∀ c ∈ scFilename, c ≠ '/' := List.forall_mem_ne'.mpr (by decide)
  have hname := congrArg FsPath.filename h
  rw [FsPath.filename_append huser, FsPath.filename_append hserver] at hname
  exact absurd hname (by decide)

theorem writeFile_of_ne {dir name path : FsPath} {val : Json} (h : path ≠ dir.append name) :
    writeFile access files dir name val path = files path := by
  unfold writeFile
  split
  · exact Function.update_of_ne h _ _
  · rfl

/-- What a new program reads after a file is written. -/
theorem writeFile_home {dir name : FsPath} {val : Json} : writeFile access files dir name val (env.home.append name) =
    if Writes env access dir name then some val.reread else files (env.home.append name) := by
  by_cases hw : access.accessible dir = true ∧ access.opens (dir.append name) = true
  · by_cases hpath : dir.append name = env.home.append name
    · rw [writeFile, if_pos hw, if_pos ⟨hw, hpath⟩, ← hpath, Function.update_self]
    · rw [if_neg fun h => hpath h.2, writeFile_of_ne (Ne.symm hpath)]
  · rw [writeFile, if_neg hw, if_neg fun h => hw h.1]

theorem save_users : c.save env access files (env.home.append ucFilename) =
    if Writes env access c.configDir ucFilename then some (c.userJson env).reread
    else files (env.home.append ucFilename) := by
  rw [save, writeServerConfig, writeFile_of_ne (append_ne _ _), writeUserConfig, writeFile_home]

theorem save_servers : c.save env access files (env.home.append scFilename) =
    if Writes env access c.serverConfigDir scFilename then some c.serverJson.reread
    else files (env.home.append scFilename) := by
  rw [save, writeServerConfig, writeFile_home, writeUserConfig, writeFile_of_ne (append_ne _ _).symm]

/-! ## What is read of it -/

/-- Every member that is written for the users is an object. -/
theorem member?_userJson {name : Name} {j : Json}
    (h : Json.member? (Json.rereadMembers (c.configs.entries.map fun settings =>
      (settings.name, settings.toJson env.toPeriodLib))) name = some j) : j.asString = none ∧ j.asArray = none := by
  rw [Json.member?_reread] at h
  obtain ⟨j', hj', rfl⟩ := Option.map_eq_some_iff.mp h
  obtain ⟨settings, -, heq⟩ := List.mem_map.mp (Json.member?_of_mem hj')
  cases heq
  exact ⟨rfl, rfl⟩

/-- Of the saved users only the default is read, which is not among them. -/
theorem readUserConfig_userJson : readUserConfig env (some (c.userJson env).reread) =
    (User.defaultConfig env.toPeriodLib, Keyed.empty.insert (User.defaultConfig env.toPeriodLib)) := by
  have hlast : lastOf (Json.rereadMembers (c.configs.entries.map fun settings =>
      (settings.name, settings.toJson env.toPeriodLib))) = [] := by
    unfold lastOf
    cases hm : Json.member? (Json.rereadMembers (c.configs.entries.map fun settings =>
        (settings.name, settings.toJson env.toPeriodLib))) "last".toList with
    | none => rfl
    | some j => rw [Option.bind_some, (member?_userJson hm).1, Option.getD_none]
  have hconfigs : readConfigs env (Json.rereadMembers (c.configs.entries.map fun settings =>
      (settings.name, settings.toJson env.toPeriodLib))) = .empty := by
    unfold readConfigs
    cases hm : Json.member? (Json.rereadMembers (c.configs.entries.map fun settings =>
        (settings.name, settings.toJson env.toPeriodLib))) "configs".toList with
    | none => rfl
    | some j =>
      rw [Option.bind_some, (member?_userJson hm).2, Option.getD_none]
      rfl
  simp only [readUserConfig, userJson, Json.reread, Option.bind_some, Json.asObject, hlast, hconfigs, true_or, if_true]
  rfl

/-- Of the saved servers only the default is read. -/
theorem readServerConfig_serverJson (storage : ℤ) : readServerConfig env storage (some c.serverJson.reread) =
    .ok (Server.Config.getDefault env.tcp storage, Keyed.empty.insert (Server.Config.getDefault env.tcp storage)) := by
  have hok : ∃ r, readServerConfig env storage (some c.serverJson.reread) = .ok r := ⟨_, rfl⟩
  obtain ⟨r, hr⟩ := hok
  rw [hr, readServerConfig_some hr]

end Save

/-! ## When it is what was saved -/

/-- The users are the default only, where they are written.  They are not where the directory is not the home, from
which a new program reads, or where the directory or the file is not accessible: then `config.json` of the home is as
it was, and it must already hold the users and the current one. -/
def UsersReload (access : Access) (files : JsonFiles) (c : Config τ) : Prop :=
  if Writes env access c.configDir ucFilename then
    c.userConfig = User.defaultConfig env.toPeriodLib ∧ ∀ a, a ∈ c.configs ↔ a = User.defaultConfig env.toPeriodLib
  else (readUserConfig env (files (env.home.append ucFilename))).1 = c.userConfig ∧
    (readUserConfig env (files (env.home.append ucFilename))).2.Same c.configs

/-- The servers are the built-in one only, with the port that the storage of the new one holds, where they are written.
Where they are not, `server.json` of the home is as it was, and it must already hold the servers and the current
one. -/
def ServersReload (access : Access) (storage : ℤ) (files : JsonFiles) (c : Config τ) : Prop :=
  if Writes env access c.serverConfigDir scFilename then
    c.serverConfig = Server.Config.getDefault env.tcp storage ∧
      ∀ a, a ∈ c.serverConfigs ↔ a = Server.Config.getDefault env.tcp storage
  else ∃ r, readServerConfig env storage (files (env.home.append scFilename)) = .ok r ∧ r.1 = c.serverConfig ∧
    r.2.Same c.serverConfigs

variable {env}

/-- What is restored of the users and of the servers. -/
theorem reloads_iff_read {access : Access} {storage : ℤ} {files : JsonFiles} {c : Config τ} :
    Reloads env access storage files c ↔
      ((readUserConfig env (c.save env access files (env.home.append ucFilename))).1 = c.userConfig ∧
        (readUserConfig env (c.save env access files (env.home.append ucFilename))).2.Same c.configs) ∧
      ∃ r, readServerConfig env storage (c.save env access files (env.home.append scFilename)) = .ok r ∧
        r.1 = c.serverConfig ∧ r.2.Same c.serverConfigs := by
  constructor
  · rintro ⟨c', hc, hr⟩
    obtain ⟨huser, hserver⟩ := construct_eq_ok hc
    refine ⟨?_, _, hserver, hr.server, hr.servers⟩
    rw [← huser]
    exact ⟨hr.user, hr.users⟩
  · rintro ⟨⟨h1, h2⟩, r, hr, h3, h4⟩
    let users := readUserConfig env (c.save env access files (env.home.append ucFilename))
    refine ⟨⟨env.home, env.home, r.1, users.1, users.2, r.2⟩, ?_, ⟨h2, h4, h1, h3⟩⟩
    rw [construct, hr]
    rfl

/-- **A new program restores what was saved** exactly when that are the defaults, as far as it was written. -/
theorem reloads_iff (access : Access) (storage : ℤ) (files : JsonFiles) (c : Config τ) :
    Reloads env access storage files c ↔ UsersReload env access files c ∧ ServersReload env access storage files c := by
  rw [reloads_iff_read, save_users, save_servers]
  refine and_congr ?_ ?_
  · unfold UsersReload
    split
    · rw [readUserConfig_userJson, eq_comm]
      refine and_congr_right fun _ => forall_congr' fun a => ?_
      rw [Keyed.mem_insert_empty]
      exact Iff.comm
    · rfl
  · unfold ServersReload
    split
    · simp only [readServerConfig_serverJson, Except.ok.injEq, exists_eq_left']
      rw [eq_comm]
      refine and_congr_right fun _ => forall_congr' fun a => ?_
      rw [Keyed.mem_insert_empty]
      exact Iff.comm
    · rfl

/-! ### A second user configuration -/

/-- What `defaults` are with another user configuration. -/
def twoUsers : Config ℕ :=
  { ConfigState.defaults with
    configs := ConfigState.defaults.configs.insert { name := ['a'], indexUpdateTi := 1, mashroomUpdateTi := 1 } }

/-- A user configuration is added to the defaults, which saves; a new program does not find it. -/
theorem added_user_not_reloaded : ∃ files,
    Runs.run (ConfigState.step ConfigState.daysEnv) ⟨ConfigState.defaults, ConfigState.emptyObjects⟩
      [.addUser everything { name := ['a'], indexUpdateTi := 1, mashroomUpdateTi := 1 }] = some ⟨twoUsers, files⟩ ∧
    ¬ Reloads ConfigState.daysEnv everything 0 files twoUsers := by
  refine ⟨_, rfl, fun h => ?_⟩
  have husers := (reloads_iff_read.mp h).1.2
  rw [save_users, if_pos ⟨⟨rfl, rfl⟩, rfl⟩, readUserConfig_userJson] at husers
  have hmem : (⟨['a'], 1, 1, User.binArchived⟩ : User.Settings ℕ) ∈ twoUsers.configs := by decide
  have hdefault := Keyed.mem_insert_empty.mp ((husers _).mpr hmem)
  exact absurd hdefault (by decide)

end Config

end Mashroom
