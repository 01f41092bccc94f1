import Mathlib.Data.Finset.Lattice.Lemmas
import Mashroom.Sys.Setup

/-!
# Sys.ServerOptions — the options of a server configuration

`server-config --add` parses the options of the new configuration with a parser of its own.  The notifiers of the
options run in the order of their names, each one only where no other reported an error, and report errors in `err_`;
`parse` then assigns to `err_` what `try_notify` returns, which knows exceptions only.  So the configuration is added
whatever the values that boost stores are, unless one of its name is there: with what comes before the first option
that is not valid (`add_configured`), and with its addresses as far as the first that is not one of IPv6.  Of valid
options comes a configuration that is not valid (`configured_valid_iff`).
-/

namespace Mashroom

namespace ServerConfigOptions

/-- The codes of `ErrorCode` that the parser reports. -/
inductive Err where
  | commandInputX1Error
  | invalidHostX1
  | toFewArguments
  | invalidArgument
  deriving DecidableEq

/-- What the system says of addresses. -/
structure Addresses where
  /-- `inet_pton(AF_INET,…)` is positive -/
  ipv4 : Name → Bool
  /-- `inet_pton(AF_INET6,…)` is positive -/
  ipv6 : Name → Bool

/-- `is_correct_address` -/
def Addresses.isCorrect (sys : Addresses) (text : Name) : Bool := sys.ipv4 text || sys.ipv6 text

/-- The variables that were stored; `timeout` has a default value. -/
structure Vars where
  acceptedAddresses : Option (List Name) := none
  host : Option Name := none
  name : Option Name := none
  port : Option ℤ := none
  timeout : ℤ := 20

/-- The parser: `err_` and `config()`, which is there when the options are notified. -/
structure Parser where
  err : Option Err := none
  config : Server.Config

variable (sys : Addresses)

/-- `add_addresses`, on the addresses so far: each address is looked at as one of IPv4, and then as one of IPv6. -/
def addAddresses : List Name → Finset Name → Finset Name × Option Err
  | [], accepted => (accepted, none)
  | addr :: addrs, accepted =>
    let accepted := if sys.ipv4 addr then insert addr accepted else accepted
    if sys.ipv6 addr then addAddresses addrs (insert addr accepted) else (accepted, some .commandInputX1Error)

/-- `host_notifier` -/
def hostNotifier (input : Name) (config : Server.Config) : Server.Config × Option Err :=
  if sys.isCorrect input then ({ config with settings := { config.settings with host := input } }, none)
  else (config, some .invalidHostX1)

/-- `port_notifier` -/
def portNotifier (input : ℤ) (config : Server.Config) : Server.Config × Option Err :=
  if input < 1025 ∨ 65535 < input then (config, some .commandInputX1Error)
  else ({ config with settings := { config.settings with port := input } }, none)

/-- `timeout_notifier` -/
def timeoutNotifier (timeout : ℤ) (config : Server.Config) : Server.Config × Option Err :=
  if timeout < 0 then (config, some .commandInputX1Error)
  else ({ config with settings := { config.settings with timeoutSeconds := timeout } }, none)

/-- A notifier of an option, which does nothing after an error. -/
def notifier (f : Server.Config → Server.Config × Option Err) (p : Parser) : Parser :=
  match p.err with
  | some _ => p
  | none => { config := (f p.config).1, err := (f p.config).2 }

/-- The notifier of `accepted-addresses` -/
def notifyAddresses (args : List Name) : Parser → Parser := notifier fun config =>
  if args ≠ [] then
    let (accepted, err) := addAddresses sys args config.acceptedAddresses
    ({ config with acceptedAddresses := accepted }, err)
  else (config, some .commandInputX1Error)

/-- The notifier of `host` -/
def notifyHost (arg : Name) : Parser → Parser := notifier fun config =>
  if arg ≠ [] then hostNotifier sys arg config else (config, some .commandInputX1Error)

/-- The notifier of `name` -/
def notifyName (arg : Name) : Parser → Parser := notifier fun config =>
  if arg ≠ [] then ({ config with name := arg }, none) else (config, some .commandInputX1Error)

/-- The notifier of `port` -/
def notifyPort (arg : ℤ) : Parser → Parser := notifier (portNotifier arg)

/-- The notifier of `timeout` -/
def notifyTimeout (arg : ℤ) : Parser → Parser := notifier (timeoutNotifier arg)

/-- An option that is stored. -/
def notifyStored {α : Type} (f : α → Parser → Parser) : Option α → Parser → Parser
  | none, p => p
  | some arg, p => f arg p

/-- `po::notify`: the options that are required, and then the notifiers in the order of the names. -/
def notify (vm : Vars) (p : Parser) : Except Err Parser :=
  if vm.host = none ∨ vm.name = none ∨ vm.port = none then .error .toFewArguments
  else
    .ok (notifyTimeout vm.timeout (notifyStored notifyPort vm.port (notifyStored notifyName vm.name
      (notifyStored (notifyHost sys) vm.host (notifyStored (notifyAddresses sys) vm.acceptedAddresses p)))))

/-- `AbstractCLIParser::parse`, on the options that were stored: `execute` makes a new configuration, whose port is what
its storage holds, zero by `make_unique`, and `err_` becomes what `try_notify` returns. -/
def parse (storage : ℤ) (vm : Vars) : Except Err Server.Config := do
  let p ← notify sys vm { config := .empty storage }
  return p.config

/-! ## What the notifiers make of the options -/

/-- The option of the addresses is valid, or is not there. -/
def addressesOk : Option (List Name) → Bool
  | none => true
  | some addrs => addrs ≠ [] && addrs.all sys.ipv6

/-- The addresses that are accepted: those of IPv6 before the first other one, and that one if it is of IPv4. -/
def acceptedOf (addrs : List Name) : List Name :=
  addrs.takeWhile sys.ipv6 ++ (addrs.dropWhile sys.ipv6).head?.toList.filter sys.ipv4

/-- The host is valid, and what comes before it. -/
def hostOk (addrs : Option (List Name)) (host : Name) : Bool :=
  addressesOk sys addrs && host ≠ [] && sys.isCorrect host

/-- The name is valid, and what comes before it. -/
def nameOk (addrs : Option (List Name)) (host name : Name) : Bool := hostOk sys addrs host && name ≠ []

/-- The port is valid, and what comes before it. -/
def portOk (addrs : Option (List Name)) (host name : Name) (port : ℤ) : Bool :=
  nameOk sys addrs host name && 1025 ≤ port && port ≤ 65535

/-- Every option is valid. -/
def timeoutOk (addrs : Option (List Name)) (host name : Name) (port timeout : ℤ) : Bool :=
  portOk sys addrs host name port && 0 ≤ timeout

/-- The configuration that the options before the first that is not valid make. -/
def configured (storage : ℤ) (addrs : Option (List Name)) (host name : Name) (port timeout : ℤ) : Server.Config where
  settings := {
    host := if hostOk sys addrs host then host else []
    port := if portOk sys addrs host name port then port else storage
    timeoutSeconds := if timeoutOk sys addrs host name port timeout then timeout else 20 }
  acceptedAddresses := (acceptedOf sys (addrs.getD [])).toFinset
  name := if nameOk sys addrs host name then name else []

section Notifiers

/-- The addresses that `add_addresses` adds, and whether it comes to their end. -/
theorem addAddresses_eq : ∀ (addrs : List Name) (accepted : Finset Name),
    addAddresses sys addrs accepted = (accepted ∪ (acceptedOf sys addrs).toFinset,
      if addrs.all sys.ipv6 then none else some .commandInputX1Error)
  | [], accepted => by simp [addAddresses, acceptedOf]
  | addr :: addrs, accepted => by
    unfold addAddresses
    by_cases h6 : sys.ipv6 addr = true
    · -- of IPv6: in the set, whatever it is as an address of IPv4
      have hset : insert addr (if sys.ipv4 addr then insert addr accepted else accepted) = insert addr accepted := by
        split <;> simp
      have hacc : acceptedOf sys (addr :: addrs) = addr :: acceptedOf sys addrs := by
        simp [acceptedOf, h6]
      simp only [h6, if_true, hset, addAddresses_eq addrs, hacc, List.toFinset_cons, List.all_cons, Bool.true_and,
        Finset.insert_union, Finset.union_insert]
    · have hacc : acceptedOf sys (addr :: addrs) = [addr].filter sys.ipv4 := by
        simp [acceptedOf, h6]
      simp only [h6, hacc, List.all_cons, Bool.false_and, Bool.false_eq_true, if_false]
      by_cases h4 : sys.ipv4 addr = true
      · simp only [h4, if_true, List.filter_cons, List.filter_nil, List.toFinset_cons, List.toFinset_nil,
          Finset.union_insert, Finset.union_empty]
      · simp [h4]

/-- What the notifiers so far made: an error unless all was valid, and the configuration. -/
structure Notified (ok : Bool) (config : Server.Config) (p : Parser) : Prop where
  config_eq : p.config = config
  err_iff : p.err = none ↔ ok = true

/-- A notifier that stores a value which is valid, and reports one which is not. -/
theorem Notified.notifier {ok valid : Bool} {config stored : Server.Config} {p : Parser}
    {f : Server.Config → Server.Config × Option Err} (h : Notified ok config p)
    (hstore : valid = true → f config = (stored, none))
    (hreport : valid = false → (f config).1 = config ∧ (f config).2 ≠ none) :
    Notified (ok && valid) (if ok && valid then stored else config) (notifier f p) := by
  obtain ⟨err, pconfig⟩ := p
  obtain ⟨rfl, herr⟩ := h
  cases ok with
  | false =>
    obtain ⟨e, rfl⟩ : ∃ e, err = some e := Option.ne_none_iff_exists'.mp (by simpa using herr)
    exact ⟨rfl, by simp [ServerConfigOptions.notifier]⟩
  | true =>
    obtain rfl : err = none := by simpa using herr
    cases valid with
    | true =>
      have hf := hstore rfl
      simp only [ServerConfigOptions.notifier] at hf ⊢
      exact ⟨by simp [hf], by simp [hf]⟩
    | false =>
      have hf := hreport rfl
      exact ⟨by simpa [ServerConfigOptions.notifier] using hf.1, by simpa [ServerConfigOptions.notifier] using hf.2⟩

/-- The addresses come first. -/
theorem notified_addresses (storage : ℤ) (addrs : Option (List Name)) :
    Notified (addressesOk sys addrs)
      { Server.Config.empty storage with acceptedAddresses := (acceptedOf sys (addrs.getD [])).toFinset }
      (notifyStored (notifyAddresses sys) addrs { config := .empty storage }) := by
  rcases addrs with _ | _ | ⟨addr, addrs⟩
  · exact ⟨rfl, by simp [notifyStored, addressesOk]⟩
  · exact ⟨rfl, by simp [notifyStored, notifyAddresses, ServerConfigOptions.notifier, addressesOk]⟩
  · refine ⟨?_, ?_⟩
    · simp [notifyStored, notifyAddresses, ServerConfigOptions.notifier, addAddresses_eq, Server.Config.empty]
    · simp [notifyStored, notifyAddresses, ServerConfigOptions.notifier, addAddresses_eq, addressesOk]

section Steps

variable {ok : Bool} {config : Server.Config} {p : Parser}

theorem Notified.host (h : Notified ok config p) (host : Name) :
    Notified (ok && (host ≠ [] && sys.isCorrect host)) { config with settings := { config.settings with
      host := if ok && (host ≠ [] && sys.isCorrect host) then host else config.settings.host } }
      (notifyHost sys host p) := by
  have hstep : Notified (ok && (host ≠ [] && sys.isCorrect host))
      (if ok && (host ≠ [] && sys.isCorrect host) then { config with settings := { config.settings with host } }
        else config) (notifyHost sys host p) := by
    refine h.notifier (fun hvalid => ?_) (fun hvalid => ?_)
    · simp only [ne_eq, Bool.and_eq_true, decide_eq_true_eq] at hvalid
      simp [hvalid.1, hostNotifier, hvalid.2]
    · by_cases hne : host = []
      · simp [hne]
      · simp only [ne_eq, hne, not_false_eq_true, decide_true, Bool.true_and] at hvalid
        simp [hne, hostNotifier, hvalid]
  refine ⟨hstep.config_eq.trans ?_, hstep.err_iff⟩
  split <;> rfl

theorem Notified.name (h : Notified ok config p) (name : Name) :
    Notified (ok && name ≠ []) { config with name := if ok && name ≠ [] then name else config.name }
      (notifyName name p) := by
  have hstep : Notified (ok && name ≠ []) (if ok && name ≠ [] then { config with name } else config)
      (notifyName name p) := by
    refine h.notifier (fun hvalid => ?_) (fun hvalid => ?_)
    · simp only [ne_eq, decide_eq_true_eq] at hvalid
      simp [hvalid]
    · simp only [ne_eq, decide_eq_false_iff_not, not_not] at hvalid
      simp [hvalid]
  refine ⟨hstep.config_eq.trans ?_, hstep.err_iff⟩
  split <;> rfl

theorem Notified.port (h : Notified ok config p) (port : ℤ) :
    Notified (ok && (1025 ≤ port && port ≤ 65535)) { config with settings := { config.settings with
      port := if ok && (1025 ≤ port && port ≤ 65535) then port else config.settings.port } } (notifyPort port p) := by
  have hstep : Notified (ok && (1025 ≤ port && port ≤ 65535))
      (if ok && (1025 ≤ port && port ≤ 65535) then { config with settings := { config.settings with port } }
        else config) (notifyPort port p) := by
    refine h.notifier (fun hvalid => ?_) (fun hvalid => ?_)
    · simp only [Bool.and_eq_true, decide_eq_true_eq] at hvalid
      rw [portNotifier, if_neg (by omega)]
    · have hout : port < 1025 ∨ 65535 < port := by
        simp only [Bool.and_eq_false_iff, decide_eq_false_iff_not] at hvalid
        omega
      simp [portNotifier, hout]
  refine ⟨hstep.config_eq.trans ?_, hstep.err_iff⟩
  split <;> rfl

theorem Notified.timeout (h : Notified ok config p) (timeout : ℤ) :
    Notified (ok && 0 ≤ timeout) { config with settings := { config.settings with
      timeoutSeconds := if ok && 0 ≤ timeout then timeout else config.settings.timeoutSeconds } }
      (notifyTimeout timeout p) := by
  have hstep : Notified (ok && 0 ≤ timeout)
      (if ok && 0 ≤ timeout then { config with settings := { config.settings with timeoutSeconds := timeout } }
        else config) (notifyTimeout timeout p) := by
    refine h.notifier (fun hvalid => ?_) (fun hvalid => ?_)
    · simp only [decide_eq_true_eq] at hvalid
      rw [timeoutNotifier, if_neg (by omega)]
    · have hneg : timeout < 0 := by simpa using hvalid
      simp [timeoutNotifier, hneg]
  refine ⟨hstep.config_eq.trans ?_, hstep.err_iff⟩
  split <;> rfl

end Steps

end Notifiers

/-- **What the notifiers make of the options**: what they report is lost, what they stored is not. -/
theorem parse_eq (storage : ℤ) (addrs : Option (List Name)) (host name : Name) (port timeout : ℤ) :
    parse sys storage {
      acceptedAddresses := addrs, host := some host, name := some name, port := some port, timeout } =
      .ok (configured sys storage addrs host name port timeout) := by
  have h := ((((notified_addresses sys storage addrs).host sys host).name name).port port).timeout timeout
  have hconfig := h.config_eq
  simp only [parse, notify, reduceCtorEq, or_self, if_false, Except.bind, bind, pure, Except.pure]
  refine congrArg Except.ok (hconfig.trans ?_)
  simp only [configured, hostOk, nameOk, portOk, timeoutOk, Server.Config.empty, Bool.and_assoc]

/-- Where an option that is required was not stored, nothing is notified. -/
theorem parse_required (storage : ℤ) {vm : Vars} (h : vm.host = none ∨ vm.name = none ∨ vm.port = none) :
    parse sys storage vm = .error .toFewArguments := by
  simp [parse, notify, h, bind, Except.bind]

variable {sys} in
/-- What is made of options was made of those that are required. -/
theorem parse_ok {storage : ℤ} {vm : Vars} {config : Server.Config} (h : parse sys storage vm = .ok config) :
    ∃ addrs host name port timeout, vm = ⟨addrs, some host, some name, some port, timeout⟩ ∧
      config = configured sys storage addrs host name port timeout := by
  obtain ⟨addrs, host, name, port, timeout⟩ := vm
  cases host with
  | none => rw [parse_required sys storage (.inl rfl)] at h; cases h
  | some host => cases name with
    | none => rw [parse_required sys storage (.inr (.inl rfl))] at h; cases h
    | some name => cases port with
      | none => rw [parse_required sys storage (.inr (.inr rfl))] at h; cases h
      | some port =>
        rw [parse_eq] at h
        exact ⟨addrs, host, name, port, timeout, rfl, (Except.ok.inj h).symm⟩

/-- **Of valid options comes a configuration that is not valid**, as it has a port and no service: one is valid when its
port was left out, and the port's storage holds zero, as it does in the code. -/
theorem configured_valid_iff (storage : ℤ) (addrs : Option (List Name)) (host name : Name) (port timeout : ℤ) :
    (configured sys storage addrs host name port timeout).valid = true ↔
      nameOk sys addrs host name = true ∧ (port < 1025 ∨ 65535 < port) ∧ storage = 0 := by
  have hport (h : portOk sys addrs host name port = true) : 1025 ≤ port ∧ port ≤ 65535 := by
    simp only [portOk, Bool.and_eq_true, decide_eq_true_eq] at h
    exact ⟨h.1.2, h.2⟩
  have hname (h : nameOk sys addrs host name = true) : hostOk sys addrs host = true ∧ name ≠ [] := by
    simpa [nameOk] using h
  have hhost (h : hostOk sys addrs host = true) : host ≠ [] := by
    simp only [hostOk, Bool.and_eq_true, ne_eq, decide_eq_true_eq] at h
    exact h.1.2
  by_cases hn : nameOk sys addrs host name = true
  · obtain ⟨hh, hne⟩ := hname hn
    by_cases hp : portOk sys addrs host name port = true
    · have hrange := hport hp
      have hzero : ¬ port = 0 := by omega
      have hin : ¬ (port < 1025 ∨ 65535 < port) := by omega
      simp [Server.Config.valid, configured, hp, hzero, hin]
    · have hout : port < 1025 ∨ 65535 < port := by
        simp only [portOk, hn, Bool.true_and, Bool.and_eq_true, decide_eq_true_eq] at hp
        omega
      have htime : timeoutOk sys addrs host name port timeout = false := by simp [timeoutOk, hp]
      simp [Server.Config.valid, configured, hp, hn, hh, htime, hne, hhost hh, hout]
  · simp [Server.Config.valid, configured, hn]

end ServerConfigOptions

/-! ## Adding a configuration -/

namespace ServerConfig

open ServerConfigOptions

variable {τ : Type} (sys : Addresses) (storage : ℤ) (vm : Vars) (config : Config τ)

/-- `execute`, with `add`: what `add_server_config` returns is not looked at. -/
def add : Config τ × Option Err :=
  match parse sys storage vm with
  | .ok set => ((config.addServerConfig set).1, none)
  | .error _ => (config, some .invalidArgument)

/-- `execute`, with `setup` -/
def setup : Config τ × Option Err :=
  match parse sys storage vm with
  | .ok settings => ((config.setupServerConfig settings).1, none)
  | .error err => (config, some err)

/-- **A configuration is added whatever the values of its options are**, so long as it is given a host, a name and a
port, and none of its name is there: with the options before the first that is not valid, and without the others, its
name among them. -/
theorem add_configured : add sys storage vm config =
    match vm.host, vm.name, vm.port with
    | some host, some name, some port =>
      ((config.addServerConfig (configured sys storage vm.acceptedAddresses host name port vm.timeout)).1, none)
    | _, _, _ => (config, some .invalidArgument) := by
  obtain ⟨addrs, host, name, port, timeout⟩ := vm
  unfold add
  cases host with
  | none => rw [parse_required sys storage (.inl rfl)]
  | some host => cases name with
    | none => rw [parse_required sys storage (.inr (.inl rfl))]
    | some name => cases port with
      | none => rw [parse_required sys storage (.inr (.inr rfl))]
      | some port => rw [parse_eq]

/-- Nothing is ever set up: the configuration of a name that is there stays. -/
theorem setup_same : (setup sys storage vm config).1 = config := by
  unfold setup
  cases parse sys storage vm with
  | error err => rfl
  | ok settings =>
    change (config.setupServerConfig settings).1 = config
    rw [Config.setupServerConfig_eq]

end ServerConfig

end Mashroom
