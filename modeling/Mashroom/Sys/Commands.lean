import Mashroom.Lib.Runs
import Mashroom.Sys.ServerOptions

/-!
# Sys.Commands — sessions of commands for the configurations

`program-config` and `server-config` are the commands that change configurations.  The object that the options of a user
configuration are put in, `settings_`, is never made, so that nothing is added or redefined, and `remove` is notified
twice.  Over a session the user configurations are those at the start without the removed ones (`users_run`), and a
server configuration that was not there at the start is what an `add` of the session made of its options
(`servers_run`).
-/

namespace Mashroom

/-! ## The user configurations -/

/-- What the parser of the options of a user configuration keeps between commands. -/
structure ConfigSession (τ : Type) where
  config : Config τ
  /-- `settings_` -/
  settings : Option (User.Settings τ) := none

/-- The options of a user configuration; the periods have default values. -/
structure ProgramConfigVars (τ : Type) where
  name : Option Name := none
  indexUpdTimePeriod : τ
  mashroomUpdTimePeriod : τ

/-- The options of `program-config`.  What `ProgramConfigOptions` is given is not parsed, or stored. -/
structure ProgramVars (τ : Type) where
  add : Option (Option (ProgramConfigVars τ)) := none
  redefine : Option (Option (ProgramConfigVars τ)) := none
  getConfig : Option Name := none
  printAll : Bool := false
  remove : Option Name := none

namespace ConfigSession

open ServerConfigOptions

variable {τ : Type} (s : ConfigSession τ)

/-- `ProgramConfigOptions::execute`: the object is there, and is given what was stored. -/
def executeOptions (vm : ProgramConfigVars τ) : ConfigSession τ :=
  match s.settings, vm.name with
  | none, _ | _, none => s
  | some settings, some name => { s with settings := some { settings with
      name, indexUpdateTi := vm.indexUpdTimePeriod, mashroomUpdateTi := vm.mashroomUpdTimePeriod } }

/-- `add_user_config_notifier` -/
def addNotifier : Option (ProgramConfigVars τ) → ConfigSession τ
  | none => s
  | some vm => s.executeOptions vm

/-- `redefine_user_config_notifier`: the name is read off the object after it was released. -/
def redefineNotifier (args : Option (ProgramConfigVars τ)) : Except Fault (ConfigSession τ) :=
  let s := s.addNotifier args
  match s.settings with
  | none => .ok s
  | some settings =>
    match s.config.setupUserConfig settings with
    | (config, true) => .ok { config }
    | (_, false) => .error .element

/-- The notifier of `remove`, where it was stored. -/
def notifyRemove : Option Name → ConfigSession τ × Option Err
  | none => (s, none)
  | some name =>
    match s.config.removeUserConfig name with
    | (config, true) => ({ s with config }, none)
    | (config, false) => ({ s with config }, some .commandInputX1Error)

/-- `ProgramConfig::execute`, with `err_` after it. -/
def executeProgram (vm : ProgramVars τ) : Except Fault (ConfigSession τ × Option Err) :=
  match vm.add, vm.redefine with
  | some args, _ => .ok (s.addNotifier args, none)
  | none, some args => do
    let s ← s.redefineNotifier args
    return (s, none)
  | none, none =>
    if vm.getConfig.isSome || vm.printAll then .ok (s, none) else .ok (s.notifyRemove vm.remove)

/-- `AbstractCLIParser::parse`: where `execute` left no error the options are notified, and `err_` is what `try_notify`
returns. -/
def program (vm : ProgramVars τ) : Except Fault (ConfigSession τ × Option Err) := do
  let (s, err) ← s.executeProgram vm
  match err with
  | some err => return (s, some err)
  | none => return ((s.notifyRemove vm.remove).1, none)

/-! ## Commands -/

/-- A command, `server-config` by the first of its options that is there, with what the storage of a new server
configuration holds: zero, as `make_unique` initialises it. -/
inductive Command (τ : Type) where
  | program (vm : ProgramVars τ)
  | serverAdd (storage : ℤ) (vm : Vars)
  | serverSetup (storage : ℤ) (vm : Vars)
  | serverRemove (name : Name)
  | serverSet (name : Name)
  | serverPrint

variable (sys : Addresses)

/-- One command. -/
def step (s : ConfigSession τ) : Command τ → Option (ConfigSession τ)
  | .program vm =>
    match s.program vm with
    | .ok (s, _) => some s
    | .error _ => none
  | .serverAdd storage vm => some { s with config := (ServerConfig.add sys storage vm s.config).1 }
  | .serverSetup storage vm => some { s with config := (ServerConfig.setup sys storage vm s.config).1 }
  | .serverRemove name =>
    match s.config.removeServerConfig name with
    | .ok (config, _) => some { s with config }
    | .error _ => none
  | .serverSet name => some { s with config := (s.config.setServerConfig name).1 }
  | .serverPrint => some s

/-! ## What a command does to the user configurations -/

/-- Nothing but the user configurations changes, and of these the removed one is gone. -/
structure Removes (removed : Option Name) (s s' : ConfigSession τ) : Prop where
  rest : s' = { s with config := { s.config with configs := s'.config.configs } }
  configs : ∀ a, a ∈ s'.config.configs ↔ a ∈ s.config.configs ∧ removed ≠ some a.name

/-- The name that a command removes. -/
def Command.removed : Command τ → Option Name
  | .program vm => vm.remove
  | .serverAdd .. | .serverSetup .. | .serverRemove _ | .serverSet _ | .serverPrint => none

section Users

variable {s} {s' s'' : ConfigSession τ} {removed : Option Name}

theorem Removes.refl (s : ConfigSession τ) : Removes none s s := ⟨rfl, fun a => by simp⟩

/-- Removing the same again removes nothing. -/
theorem Removes.trans (h : Removes removed s s') (h' : Removes removed s' s'') : Removes removed s s'' := by
  refine ⟨?_, fun a => ?_⟩
  · rw [h'.rest, h.rest]
  · rw [h'.configs, h.configs, and_assoc, and_self]

theorem removes_notifyRemove (s : ConfigSession τ) (removed : Option Name) :
    Removes removed s (s.notifyRemove removed).1 := by
  cases removed with
  | none => exact .refl s
  | some name =>
    unfold notifyRemove Config.removeUserConfig
    by_cases hthere : s.config.configs.contains name = true
    · simp only [hthere, if_true]
      refine ⟨rfl, fun a => ?_⟩
      simp [Keyed.mem_erase, eq_comm]
    · simp only [hthere, if_false, Bool.false_eq_true]
      refine ⟨rfl, fun a => ⟨fun ha => ⟨ha, ?_⟩, And.left⟩⟩
      rintro heq
      obtain rfl := Option.some.inj heq
      exact hthere (Keyed.contains_of_mem ha)

/-- Without the object the options are put nowhere. -/
theorem addNotifier_eq (h : s.settings = none) (args : Option (ProgramConfigVars τ)) : s.addNotifier args = s := by
  cases args with
  | none => rfl
  | some vm => simp [addNotifier, executeOptions, h]

theorem redefineNotifier_eq (h : s.settings = none) (args : Option (ProgramConfigVars τ)) :
    s.redefineNotifier args = .ok s := by
  simp [redefineNotifier, addNotifier_eq h, h]

/-- `program-config` never fails without the object, and does no more than remove. -/
theorem program_spec (h : s.settings = none) (vm : ProgramVars τ) :
    ∃ s' err, s.program vm = .ok (s', err) ∧ Removes vm.remove s s' := by
  -- what is left by the branches that change nothing is notified once
  have hnotified (hex : s.executeProgram vm = .ok (s, none)) :
      ∃ s' err, s.program vm = .ok (s', err) ∧ Removes vm.remove s s' := by
    refine ⟨_, none, ?_, removes_notifyRemove s vm.remove⟩
    rw [program, hex]
    rfl
  cases hadd : vm.add with
  | some args => exact hnotified (by simp [executeProgram, hadd, addNotifier_eq h])
  | none => cases hredefine : vm.redefine with
    | some args =>
      exact hnotified (by
        simp [executeProgram, hadd, hredefine, redefineNotifier_eq h, bind, Except.bind, pure, Except.pure])
    | none =>
      by_cases hprint : (vm.getConfig.isSome || vm.printAll) = true
      · exact hnotified (by simp [executeProgram, hadd, hredefine, hprint])
      · have hex : s.executeProgram vm = .ok (s.notifyRemove vm.remove) := by
          simp only [executeProgram, hadd, hredefine, hprint, Bool.false_eq_true, if_false]
        have hfirst := removes_notifyRemove s vm.remove
        cases herr : (s.notifyRemove vm.remove).2 with
        | some err =>
          refine ⟨_, some err, ?_, hfirst⟩
          rw [program, hex]
          simp [bind, Except.bind, pure, Except.pure, herr]
        | none =>
          refine ⟨_, none, ?_, hfirst.trans (removes_notifyRemove _ vm.remove)⟩
          rw [program, hex]
          simp [bind, Except.bind, pure, Except.pure, herr]

end Users

/-! ## What the commands for servers do -/

/-- The server configurations in memory: those of the set, and the current one. -/
def Known (c : Config τ) (a : Server.Config) : Prop := a ∈ c.serverConfigs ∨ a = c.serverConfig

section Servers

variable {c : Config τ} {a : Server.Config} {name : Name}

/-- The user configurations are left alone, and what is in memory was there. -/
structure Chooses (c c' : Config τ) : Prop where
  configs : c'.configs = c.configs
  userConfig : c'.userConfig = c.userConfig
  known : ∀ a, Known c' a → Known c a

theorem Chooses.refl (c : Config τ) : Chooses c c := ⟨rfl, rfl, fun _ h => h⟩

theorem chooses_removeServerConfig {r : Config τ × Bool} (h : c.removeServerConfig name = .ok r) : Chooses c r.1 := by
  unfold Config.removeServerConfig at h
  split at h
  · obtain rfl := Except.ok.inj h
    exact .refl c
  · split at h
    · dsimp only at h
      cases hdefault : (c.serverConfigs.erase name).find? "default".toList with
      | none => rw [hdefault] at h; cases h
      | some serverConfig =>
        rw [hdefault] at h
        obtain rfl := Except.ok.inj h
        refine ⟨rfl, rfl, fun a ha => .inl ?_⟩
        obtain ha | rfl := ha
        · exact (Keyed.mem_erase.mp ha).1
        · exact (Keyed.mem_erase.mp (Keyed.find?_mem hdefault).1).1
    · obtain rfl := Except.ok.inj h
      exact .refl c

theorem chooses_setServerConfig (c : Config τ) (name : Name) : Chooses c (c.setServerConfig name).1 := by
  unfold Config.setServerConfig
  cases hname : c.serverConfigs.find? name with
  | none => exact .refl c
  | some serverConfig =>
    refine ⟨rfl, rfl, fun a ha => .inl ?_⟩
    obtain ha | rfl := ha
    · exact ha
    · exact (Keyed.find?_mem hname).1

/-- `add` leaves the user configurations alone, and what is new is what it made of the options. -/
theorem add_spec (storage : ℤ) (vm : Vars) (c : Config τ) :
    (ServerConfig.add sys storage vm c).1.configs = c.configs ∧
      (ServerConfig.add sys storage vm c).1.userConfig = c.userConfig ∧
      ∀ a, Known (ServerConfig.add sys storage vm c).1 a → Known c a ∨ parse sys storage vm = .ok a := by
  unfold ServerConfig.add
  cases parse sys storage vm with
  | error err => exact ⟨rfl, rfl, fun a => .inl⟩
  | ok set =>
    by_cases hthere : c.serverConfigs.contains set.name = true
    · simp only [Config.addServerConfig, hthere, if_true]
      exact ⟨trivial, trivial, fun a => .inl⟩
    · simp only [Config.addServerConfig, hthere, if_false, Bool.false_eq_true]
      refine ⟨trivial, trivial, ?_⟩
      rintro a (ha | rfl)
      · obtain ha | ⟨rfl, -⟩ := Keyed.mem_insert.mp ha
        · exact .inl (.inl ha)
        · exact .inr rfl
      · exact .inl (.inr rfl)

end Servers

/-! ## Sessions -/

section Sessions

variable {s s' : ConfigSession τ} {cmds : List (Command τ)}

/-- What a command does: it removes a user configuration, or nothing; and it makes a server configuration, or none. -/
theorem step_spec {c : Command τ} (h : s.settings = none) (hstep : step sys s c = some s') :
    s'.settings = none ∧ s'.config.userConfig = s.config.userConfig ∧
      (∀ a, a ∈ s'.config.configs ↔ a ∈ s.config.configs ∧ c.removed ≠ some a.name) ∧
      ∀ a, Known s'.config a → Known s.config a ∨
        ∃ storage vm, c = .serverAdd storage vm ∧ parse sys storage vm = .ok a := by
  -- the commands for servers remove no user configuration
  have hserver {config : Config τ} (hconfigs : config.configs = s.config.configs) (a : User.Settings τ) :
      a ∈ config.configs ↔ a ∈ s.config.configs ∧ none ≠ some a.name := by simp [hconfigs]
  have hchooses {config : Config τ} (hc : Chooses s.config config) (a : Server.Config) (ha : Known config a) :
      Known s.config a ∨ ∃ storage vm, c = .serverAdd storage vm ∧ parse sys storage vm = .ok a :=
    .inl (hc.known a ha)
  cases c with
  | program vm =>
    obtain ⟨t, err, ht, hremoves⟩ := program_spec h vm
    rw [step, ht] at hstep
    obtain rfl : t = s' := Option.some.inj hstep
    have hrest := hremoves.rest
    refine ⟨by rw [hrest]; exact h, by rw [hrest], hremoves.configs, fun a ha => .inl ?_⟩
    rw [hrest] at ha
    exact ha
  | serverAdd storage vm =>
    obtain rfl := Option.some.inj hstep
    obtain ⟨hconfigs, huser, hknown⟩ := add_spec sys storage vm s.config
    refine ⟨h, huser, hserver hconfigs, fun a ha => ?_⟩
    exact (hknown a ha).imp_right fun hmade => ⟨storage, vm, rfl, hmade⟩
  | serverSetup storage vm =>
    obtain rfl := Option.some.inj hstep
    have hc : Chooses s.config (ServerConfig.setup sys storage vm s.config).1 := by
      rw [ServerConfig.setup_same]
      exact .refl _
    exact ⟨h, hc.userConfig, hserver hc.configs, hchooses hc⟩
  | serverRemove name =>
    cases hr : s.config.removeServerConfig name with
    | error err => simp only [step, hr, reduceCtorEq] at hstep
    | ok r =>
      simp only [step, hr] at hstep
      obtain rfl := Option.some.inj hstep
      have hc := chooses_removeServerConfig hr
      exact ⟨h, hc.userConfig, hserver hc.configs, hchooses hc⟩
  | serverSet name =>
    obtain rfl := Option.some.inj hstep
    have hc := chooses_setServerConfig s.config name
    exact ⟨h, hc.userConfig, hserver hc.configs, hchooses hc⟩
  | serverPrint =>
    obtain rfl := Option.some.inj hstep
    exact ⟨h, rfl, hserver rfl, hchooses (.refl _)⟩

/-- **No command adds or changes a user configuration**: over a session those are left that were there and were not
removed, and the current one stays. -/
theorem users_run (h : s.settings = none) (hrun : Runs.run (step sys) s cmds = some s') :
    s'.config.userConfig = s.config.userConfig ∧
      ∀ a, a ∈ s'.config.configs ↔ a ∈ s.config.configs ∧ ∀ c ∈ cmds, c.removed ≠ some a.name := by
  refine Runs.run_induction
    (R := fun s cmds s' => s.settings = none → s'.config.userConfig = s.config.userConfig ∧
      ∀ a, a ∈ s'.config.configs ↔ a ∈ s.config.configs ∧ ∀ c ∈ cmds, c.removed ≠ some a.name)
    (fun s _ => ⟨rfl, fun a => by simp⟩) (fun s c t cmds s' hstep ih h => ?_) hrun h
  obtain ⟨ht, huser, hconfigs, -⟩ := step_spec sys h hstep
  obtain ⟨huser', hconfigs'⟩ := ih ht
  refine ⟨huser'.trans huser, fun a => ?_⟩
  rw [hconfigs', hconfigs, List.forall_mem_cons, and_assoc]

/-- Every text is an address. -/
def anyAddress : Addresses where
  ipv4 := fun _ => false
  ipv6 := fun _ => true

/-- The program with one user configuration, and no server. -/
def oneUser : ConfigSession ℕ where
  config := {
    configDir := []
    serverConfigDir := []
    serverConfig := .empty 1
    userConfig := Config.everyDays 1
    configs := Keyed.empty.insert (Config.everyDays 1)
    serverConfigs := Keyed.empty }

/-- A user configuration is added and removed, and a server configuration is added. -/
def addRemove : List (Command ℕ) := [
  .program { add := some (some ⟨some ['b'], 1, 1⟩) },
  .program { remove := some ['a'] },
  .serverAdd 0 { host := some ['h'], name := some ['n'], port := some 2000 }]

/-- The state after these commands. -/
def added : ConfigSession ℕ where
  config := {
    configDir := []
    serverConfigDir := []
    serverConfig := .empty 1
    userConfig := Config.everyDays 1
    configs := Keyed.empty
    serverConfigs := Keyed.empty.insert (configured anyAddress 0 none ['h'] ['n'] 2000 20) }

theorem run_addRemove : Runs.run (step anyAddress) oneUser addRemove = some added := rfl

/-- The theorem for these commands. -/
theorem users_run_addRemove : added.config.userConfig = oneUser.config.userConfig ∧
    ∀ a, a ∈ added.config.configs ↔ a ∈ oneUser.config.configs ∧ ∀ c ∈ addRemove, c.removed ≠ some a.name :=
  users_run anyAddress rfl run_addRemove

/-- What is in memory after a session was there, or was made by an `add` of the session. -/
theorem known_run (h : s.settings = none) (hrun : Runs.run (step sys) s cmds = some s') {a : Server.Config}
    (ha : Known s'.config a) :
    Known s.config a ∨ ∃ storage vm, .serverAdd storage vm ∈ cmds ∧ parse sys storage vm = .ok a := by
  refine Runs.run_induction
    (R := fun s cmds s' => s.settings = none → Known s'.config a →
      Known s.config a ∨ ∃ storage vm, .serverAdd storage vm ∈ cmds ∧ parse sys storage vm = .ok a)
    (fun s _ => .inl) (fun s c t cmds s' hstep ih h ha => ?_) hrun h ha
  obtain ⟨ht, -, -, hknown⟩ := step_spec sys h hstep
  obtain ha | ⟨storage, vm, hmem, hmade⟩ := ih ht ha
  · obtain ha | ⟨storage, vm, rfl, hmade⟩ := hknown a ha
    · exact .inl ha
    · exact .inr ⟨storage, vm, List.mem_cons_self, hmade⟩
  · exact .inr ⟨storage, vm, List.mem_cons_of_mem _ hmem, hmade⟩

/-- **A server configuration that a session brings is made of the options of an `add`**, and is valid only if the port
given there is none and its own is the zero that it was initialised with. -/
theorem servers_run (h : s.settings = none) (hrun : Runs.run (step sys) s cmds = some s') {a : Server.Config}
    (ha : Known s'.config a) (hnew : ¬ Known s.config a) :
    ∃ storage addrs host name port timeout, a = configured sys storage addrs host name port timeout ∧
      .serverAdd storage ⟨addrs, some host, some name, some port, timeout⟩ ∈ cmds ∧
      (a.valid = true → (port < 1025 ∨ 65535 < port) ∧ storage = 0) := by
  obtain ⟨storage, vm, hmem, hmade⟩ := (known_run sys h hrun ha).resolve_left hnew
  obtain ⟨addrs, host, name, port, timeout, rfl, rfl⟩ := parse_ok hmade
  refine ⟨storage, addrs, host, name, port, timeout, rfl, hmem, fun hvalid => ?_⟩
  exact ((configured_valid_iff sys storage addrs host name port timeout).mp hvalid).2

/-- The theorem for the server that is added. -/
theorem servers_run_addRemove : ∃ storage addrs host name port timeout,
    configured anyAddress 0 none ['h'] ['n'] 2000 20 = configured anyAddress storage addrs host name port timeout ∧
      .serverAdd storage ⟨addrs, some host, some name, some port, timeout⟩ ∈ addRemove ∧
      ((configured anyAddress 0 none ['h'] ['n'] 2000 20).valid = true →
        (port < 1025 ∨ 65535 < port) ∧ storage = 0) :=
  servers_run anyAddress rfl run_addRemove (.inl (Keyed.mem_insert_empty.mpr rfl)) (by
    rintro (h | h)
    · exact absurd h Keyed.notMem_empty
    · exact absurd (congrArg Server.Config.name h) (by decide))

end Sessions

end ConfigSession

end Mashroom
