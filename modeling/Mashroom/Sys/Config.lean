import Mathlib.Logic.Function.Basic
import Mashroom.Program.Tokens
import Mashroom.Sys.Settings

/-!
# Sys.Config — the configurations of the program

A `Config` keeps user and server configurations in sets, and a copy of the current one of each.  The constructor reads
both from files, `save` writes them.  A file is what `parse_json_from_file` makes of it, nothing when it fails; what is
written is read back as `Json.reread`.  The operations are those of the source, one definition each.
-/

namespace Mashroom

/-- What the program is told by the system. -/
structure ConfigEnv (τ : Type) extends PeriodLib τ where
  /-- the number of the protocol `tcp` -/
  tcp : ℕ
  /-- `get_config_dir` -/
  home : FsPath

/-- The files that can be parsed. -/
abbrev JsonFiles := FsPath → Option Json

/-- `uc_filename` -/
def ucFilename : FsPath := "config.json".toList

/-- `sc_filename` -/
def scFilename : FsPath := "server.json".toList

structure Config (τ : Type) where
  configDir : FsPath
  serverConfigDir : FsPath
  serverConfig : Server.Config
  userConfig : User.Settings τ
  configs : Keyed (User.Settings.name (τ := τ))
  serverConfigs : Keyed Server.Config.name

namespace Config

variable {τ : Type} (env : ConfigEnv τ)

/-! ## The constructor -/

/-- Whether an object has a string under `last`, and which. -/
def lastOf (members : List (List Char × Json)) : Name :=
  ((Json.member? members "last".toList).bind Json.asString).getD []

/-- The loop over `configs`: what is corrupted is left out. -/
def insertAll (elems : List Json) : Keyed (User.Settings.name (τ := τ)) :=
  elems.foldl (fun configs j => match User.Settings.fromJson env.toPeriodLib j with
    | some settings => configs.insert settings
    | none => configs) .empty

/-- The configurations in the file of the users. -/
def readConfigs (members : List (List Char × Json)) : Keyed (User.Settings.name (τ := τ)) :=
  insertAll env (((Json.member? members "configs".toList).bind Json.asArray).getD [])

/-- `*configs_.insert(default_config()).first`, and the set after it. -/
def insertDefault (configs : Keyed (User.Settings.name (τ := τ))) :
    User.Settings τ × Keyed (User.Settings.name (τ := τ)) :=
  let configs := configs.insert (User.defaultConfig env.toPeriodLib)
  ((configs.find? (User.defaultConfig env.toPeriodLib).name).getD (User.defaultConfig env.toPeriodLib), configs)

/-- `read_user_config`: the current configuration and the set.  Nothing is made of a last name that is there. -/
def readUserConfig (root : Option Json) : User.Settings τ × Keyed (User.Settings.name (τ := τ)) :=
  match root.bind Json.asObject with
  | none => (User.Settings.empty env.toPeriodLib, .empty)
  | some registered =>
    let last := lastOf registered
    let configs := readConfigs env registered
    if last = [] ∨ configs.contains last = false then insertDefault env configs
    else (User.Settings.empty env.toPeriodLib, configs)

/-- The last name in the file of the servers, which must be a string. -/
def lastServer (members : List (List Char × Json)) : Except Fault Name :=
  match Json.member? members "last".toList with
  | none => .ok []
  | some j => match j.asString with
    | some last => .ok last
    | none => .error .exception

/-- The loop over `configs`, which must be an object to be gone through, and is then taken for an array. -/
def readServers (members : List (List Char × Json)) : Except Fault (Keyed Server.Config.name) :=
  match (Json.member? members "configs".toList).bind Json.asObject with
  | none => .ok .empty
  | some _ => .error .exception

/-- `get_server_config`: `empty_server_config_`, whose storage is cleared, when there is none. -/
def getServerConfig (serverConfigs : Keyed Server.Config.name) (name : Name) : Server.Config :=
  (serverConfigs.find? name).getD (.empty 0)

/-- What is made of an object in the file of the servers. -/
def readNameConfigs (storage : ℤ) (nameConfigs : List (List Char × Json)) :
    Except Fault (Server.Config × Keyed Server.Config.name) := do
  let last ← lastServer nameConfigs
  let serverConfigs ← readServers nameConfigs
  return (if last ≠ [] then getServerConfig serverConfigs last else .empty storage, serverConfigs)

/-- What is made of the value in the file of the servers. -/
def readRoot (storage : ℤ) (root : Json) : Except Fault (Server.Config × Keyed Server.Config.name) :=
  match root.asObject with
  | none => .ok (.empty storage, .empty)
  | some nameConfigs => readNameConfigs storage nameConfigs

/-- `read_server_config`: the current configuration and the set. -/
def readServerConfig (storage : ℤ) (root : Option Json) :
    Except Fault (Server.Config × Keyed Server.Config.name) :=
  match root with
  | none => .ok (.empty storage, .empty)
  | some root => do
    let (serverConfig, serverConfigs) ← readRoot storage root
    let serverConfig := if serverConfig.valid then serverConfig else Server.Config.getDefault env.tcp storage
    return (serverConfig, if serverConfigs.entries = [] then serverConfigs.insert serverConfig else serverConfigs)

/-- `Config()`, where the storage of the port of a server configuration held `storage`. -/
def construct (storage : ℤ) (files : JsonFiles) : Except Fault (Config τ) := do
  let (userConfig, configs) := readUserConfig env (files (env.home.append ucFilename))
  let (serverConfig, serverConfigs) ← readServerConfig env storage (files (env.home.append scFilename))
  return { configDir := env.home, serverConfigDir := env.home, serverConfig, userConfig, configs, serverConfigs }

/-! ## Saving -/

/-- What the file system lets the program do. -/
structure Access where
  /-- `directory_accessible` -/
  accessible : FsPath → Bool
  /-- the stream opens the file -/
  opens : FsPath → Bool

/-- Everything can be read and written. -/
def everything : Access where
  accessible := fun _ => true
  opens := fun _ => true

/-- A value written to a file of a directory, if the directory is accessible and the file opens. -/
def writeFile (access : Access) (files : JsonFiles) (dir name : FsPath) (val : Json) : JsonFiles :=
  if access.accessible dir ∧ access.opens (dir.append name) then
    Function.update files (dir.append name) (some val.reread)
  else files

variable (c : Config τ)

/-- The object that `write_user_config` writes: the configurations under their names. -/
def userJson : Json :=
  .object (c.configs.entries.map fun settings => (settings.name, settings.toJson env.toPeriodLib))

/-- The object that `write_server_config` writes. -/
def serverJson : Json := .object [
  ("last".toList, .string c.serverConfig.name),
  ("configs".toList, .array (c.serverConfigs.entries.map Server.Config.toJson))]

def writeUserConfig (access : Access) (files : JsonFiles) : JsonFiles :=
  writeFile access files c.configDir ucFilename (c.userJson env)

def writeServerConfig (access : Access) (files : JsonFiles) : JsonFiles :=
  writeFile access files c.serverConfigDir scFilename c.serverJson

def save (access : Access) (files : JsonFiles) : JsonFiles :=
  c.writeServerConfig access (c.writeUserConfig env access files)

/-! ## The operations -/

/-- `set_config_directory` -/
def setConfigDirectory (access : Access) (path : FsPath) : Config τ :=
  if access.accessible path then { c with configDir := path } else c

/-- `set_server_config_directory` -/
def setServerConfigDirectory (access : Access) (path : FsPath) : Config τ :=
  if access.accessible path then { c with serverConfigDir := path } else c

/-- `add_user_config`, which saves when it returns true. -/
def addUserConfig (settings : User.Settings τ) : Config τ × Bool :=
  if settings.name = [] then (c, false)
  else if c.configs.contains settings.name then (c, false)
  else ({ c with configs := c.configs.insert settings }, true)

def addServerConfig (set : Server.Config) : Config τ × Bool :=
  if c.serverConfigs.contains set.name then (c, false)
  else ({ c with serverConfigs := c.serverConfigs.insert set }, true)

/-- `remove_server_config`: the default configuration becomes the current one, and must be there. -/
def removeServerConfig (name : Name) : Except Fault (Config τ × Bool) :=
  if name = "default".toList then .ok (c, false)
  else if c.serverConfigs.contains name then
    let serverConfigs := c.serverConfigs.erase name
    match serverConfigs.find? "default".toList with
    | some serverConfig => .ok ({ c with serverConfigs, serverConfig }, true)
    | none => .error .element
  else .ok (c, false)

def removeUserConfig (name : Name) : Config τ × Bool :=
  if c.configs.contains name then ({ c with configs := c.configs.erase name }, true) else (c, false)

/-- `setup_user_config`, which inserts what is there already. -/
def setupUserConfig (settings : User.Settings τ) : Config τ × Bool :=
  if c.configs.contains settings.name then ({ c with configs := c.configs.insert settings }, true) else (c, false)

/-- `setup_server_config`, which inserts what is there already. -/
def setupServerConfig (settings : Server.Config) : Config τ × Bool :=
  if c.serverConfigs.contains settings.name ∧ settings.valid then
    ({ c with serverConfigs := c.serverConfigs.insert settings }, true)
  else (c, false)

def setServerConfig (name : Name) : Config τ × Bool :=
  match c.serverConfigs.find? name with
  | some serverConfig => ({ c with serverConfig }, true)
  | none => (c, false)

def setUserConfig (name : Name) : Config τ × Bool :=
  match c.configs.find? name with
  | some userConfig => ({ c with userConfig }, true)
  | none => (c, false)

end Config

/-! ## Runs of the program -/

/-- The operations on the configurations, with what the file system allows where they ask it. -/
inductive ConfigOp (τ : Type) where
  | addUser (access : Config.Access) (settings : User.Settings τ)
  | addServer (set : Server.Config)
  | setupUser (settings : User.Settings τ)
  | setupServer (settings : Server.Config)
  | setUser (name : Name)
  | setServer (name : Name)
  | removeUser (name : Name)
  | removeServer (name : Name)
  | setDirectory (access : Config.Access) (path : FsPath)
  | setServerDirectory (access : Config.Access) (path : FsPath)
  | save (access : Config.Access)

/-- The configurations in memory and the files. -/
structure ConfigState (τ : Type) where
  config : Config τ
  files : JsonFiles

namespace ConfigState

variable {τ : Type} (env : ConfigEnv τ)

/-- One operation. -/
def step (s : ConfigState τ) : ConfigOp τ → Option (ConfigState τ)
  | .addUser access settings =>
    match s.config.addUserConfig settings with
    | (config, true) => some { config, files := config.save env access s.files }
    | (config, false) => some { s with config }
  | .addServer set => some { s with config := (s.config.addServerConfig set).1 }
  | .setupUser settings => some { s with config := (s.config.setupUserConfig settings).1 }
  | .setupServer settings => some { s with config := (s.config.setupServerConfig settings).1 }
  | .setUser name => some { s with config := (s.config.setUserConfig name).1 }
  | .setServer name => some { s with config := (s.config.setServerConfig name).1 }
  | .removeUser name => some { s with config := (s.config.removeUserConfig name).1 }
  | .removeServer name =>
    match s.config.removeServerConfig name with
    | .ok (config, _) => some { s with config }
    | .error _ => none
  | .setDirectory access path => some { s with config := s.config.setConfigDirectory access path }
  | .setServerDirectory access path => some { s with config := s.config.setServerConfigDirectory access path }
  | .save access => some { s with files := s.config.save env access s.files }

end ConfigState

end Mashroom
