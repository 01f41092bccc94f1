import Mashroom.Network.Accepting
import Mashroom.Network.Formats
import Mashroom.Sys.Config

/-!
# Program.Launching — the server of the program

The program has one server, made when it is first launched.  `launch` is for a server that is `INACTIVE`; `listen` makes
it `READY`, and nothing makes it `INACTIVE` again, as `close` does not call `at_closing`.  `close` waits for the loop
that accepts connections, and leaves the socket listening.  So once it has returned no command makes the program accept
a client again, and clients go on connecting to it (`closed_run`).
-/

namespace Mashroom

open Network

/-- A `Server`.  The pool is left out. -/
structure ServerInstance (κ : Type) where
  settings : Server.Settings
  status : Status := .inactive
  /-- `accepter` is there -/
  accepter : Bool := false
  /-- `interrupted` of the accepter -/
  interrupted : Bool := false
  /-- the listening socket, and the loop of `accept` -/
  acceptor : Acceptor κ := { running := false }

/-- `CommonServer::launch`: what it throws ends the program, as the notifiers are `noexcept`. -/
def ServerInstance.launch {κ : Type} (i : ServerInstance κ) (launched : Bool) : Option (ServerInstance κ) :=
  if launched then
    some { i with
      status := .ready, accepter := true, interrupted := false, acceptor := { i.acceptor with running := true } }
  else none

/-- The program, with its configurations. -/
structure ServerProgram (τ κ : Type) where
  config : Config τ
  /-- `server_` -/
  server : Option (ServerInstance κ) := none
  /-- the command waits in `close` for the result of `accept` -/
  waiting : Bool := false

namespace ServerProgram

variable {τ κ : Type}

/-- What the system answers to a launch. -/
structure LaunchAnswers where
  /-- the socket is made and bound -/
  made : Bool
  /-- `::listen`, the accepter and the thread -/
  launched : Bool

/-- What happens next. -/
inductive Action (κ : Type) where
  /-- `launch_notifier` -/
  | launch (name : Name) (answers : LaunchAnswers)
  /-- `close_server`, or `shutdown_server` -/
  | close
  /-- the loop of `accept` sees that it is interrupted -/
  | interrupt
  /-- `close` returns -/
  | closed
  /-- clients, and the loop of `accept` -/
  | network (a : Acceptor.Action κ)

/-- `deploy_server`: an exception is caught. -/
def deployServer (p : ServerProgram τ κ) (made : Bool) : ServerProgram τ κ :=
  if made then { p with server := some { settings := p.config.serverConfig.settings } } else p

/-- `launch_server` -/
def launchServer (p : ServerProgram τ κ) (answers : LaunchAnswers) : Option (ServerProgram τ κ) :=
  let p := if p.server.isNone then p.deployServer answers.made else p
  match p.server with
  | none => some p
  | some i =>
    if i.status = .inactive then (i.launch answers.launched).map fun i => { p with server := some i }
    else some p

/-- `launch_notifier` -/
def launchNotifier (p : ServerProgram τ κ) (name : Name) (answers : LaunchAnswers) : Option (ServerProgram τ κ) :=
  if name = [] ∨ name = p.config.serverConfig.name then p.launchServer answers
  else
    match p.config.setServerConfig name with
    | (_, false) => some p
    | (config, true) => { p with config }.launchServer answers

/-- `CommonServer::close`, as far as the result of `accept`. -/
def closeServer (p : ServerProgram τ κ) : ServerProgram τ κ :=
  match p.server with
  | none => p
  | some i => { p with server := some { i with interrupted := i.interrupted || i.accepter }, waiting := true }

/-- A step of the program: of the commands, of the loop of `accept`, or of the system. -/
def step (p : ServerProgram τ κ) : Action κ → Option (ServerProgram τ κ)
  | .launch name answers => if p.waiting then none else p.launchNotifier name answers
  | .close => if p.waiting then none else some p.closeServer
  | .interrupt =>
    match p.server with
    | none => none
    | some i =>
      if i.acceptor.running ∧ i.interrupted then
        some { p with server := some { i with accepter := false, acceptor := { i.acceptor with running := false } } }
      else none
  | .closed =>
    match p.server with
    | none => none
    | some i => if p.waiting ∧ i.acceptor.running = false then some { p with waiting := false } else none
  | .network a =>
    match p.server with
    | none => none
    | some i =>
      -- before `listen` there is no queue
      if i.status = .ready then (i.acceptor.step a).map fun acceptor => { p with server := some { i with acceptor } }
      else none

/-! ## One step -/

/-- A server is there because it was launched, and a command waits for a loop that is to end. -/
structure Launched (p : ServerProgram τ κ) : Prop where
  ready : ∀ i, p.server = some i → i.status = .ready
  accepter : ∀ i, p.server = some i → i.acceptor.running = true → i.accepter = true
  interrupted : p.waiting = true → ∃ i, p.server = some i ∧ (i.acceptor.running = true → i.interrupted = true)

/-- A server that is launched for the first time. -/
def fresh (settings : Server.Settings) : ServerInstance κ where
  settings := settings
  status := .ready
  accepter := true
  acceptor := {}

section Step

variable {p p' : ServerProgram τ κ} {i : ServerInstance κ}

/-- Nothing is launched where there is a server, and a new one has the settings of the current configuration. -/
theorem launchServer_spec (hp : p.Launched) {answers : LaunchAnswers} (h : p.launchServer answers = some p') :
    p' = p ∨ p.server = none ∧ p' = { p with server := some (fresh p.config.serverConfig.settings) } := by
  unfold launchServer at h
  cases hs : p.server with
  | some i =>
    rw [hs] at h
    have hready : i.status ≠ .inactive := by
      rw [hp.ready i hs]
      decide
    simp only [Option.isNone_some, Bool.false_eq_true, if_false, hs, hready] at h
    exact .inl (Option.some.inj h).symm
  | none =>
    rw [hs] at h
    cases hmade : answers.made with
    | false =>
      simp only [Option.isNone_none, if_true, deployServer, hmade, Bool.false_eq_true, if_false, hs] at h
      exact .inl (Option.some.inj h).symm
    | true =>
      cases hlaunched : answers.launched with
      | false => simp [deployServer, hmade, ServerInstance.launch, hlaunched] at h
      | true =>
        simp only [Option.isNone_none, if_true, deployServer, hmade, ServerInstance.launch, hlaunched,
          Option.map_some, Option.some.injEq] at h
        exact .inr ⟨rfl, h.symm⟩

/-- A launch changes the server only where there is none, and leaves the command not waiting. -/
theorem launch_spec (hp : p.Launched) {name : Name} {answers : LaunchAnswers}
    (h : p.launchNotifier name answers = some p') :
    p'.waiting = p.waiting ∧
      (p'.server = p.server ∨ p.server = none ∧ ∃ settings, p'.server = some (fresh settings)) := by
  unfold launchNotifier at h
  split at h
  · obtain rfl | ⟨hnone, rfl⟩ := launchServer_spec hp h
    · exact ⟨rfl, .inl rfl⟩
    · exact ⟨rfl, .inr ⟨hnone, _, rfl⟩⟩
  · split at h
    · obtain rfl := Option.some.inj h
      exact ⟨rfl, .inl rfl⟩
    · rename_i config _
      have hconfig : Launched { p with config } := ⟨hp.ready, hp.accepter, hp.interrupted⟩
      obtain rfl | ⟨hnone, rfl⟩ := launchServer_spec hconfig h
      · exact ⟨rfl, .inl rfl⟩
      · exact ⟨rfl, .inr ⟨hnone, _, rfl⟩⟩

/-- What a step does to a server that is there. -/
theorem step_cases (hp : p.Launched) {a : Action κ} (h : step p a = some p') :
    ((∃ name answers, a = .launch name answers) ∧ p.waiting = false ∧ p'.waiting = false ∧
      (p'.server = p.server ∨ p.server = none ∧ ∃ settings, p'.server = some (fresh settings))) ∨
    (a = .close ∧ p.waiting = false ∧ p' = p.closeServer) ∨
    (∃ i, p.server = some i ∧ a = .interrupt ∧ i.acceptor.running = true ∧ i.interrupted = true ∧
      p' = { p with server := some { i with accepter := false, acceptor := { i.acceptor with running := false } } }) ∨
    (∃ i, p.server = some i ∧ a = .closed ∧ p.waiting = true ∧ i.acceptor.running = false ∧
      p' = { p with waiting := false }) ∨
    ∃ i b acceptor, p.server = some i ∧ a = .network b ∧ i.acceptor.step b = some acceptor ∧
      p' = { p with server := some { i with acceptor } } := by
  cases a with
  | launch name answers =>
    simp only [step] at h
    split at h
    · cases h
    · rename_i hwaiting
      obtain ⟨hsame, hserver⟩ := launch_spec hp h
      rw [Bool.not_eq_true] at hwaiting
      exact .inl ⟨⟨name, answers, rfl⟩, hwaiting, hsame.trans hwaiting, hserver⟩
  | close =>
    simp only [step] at h
    split at h
    · cases h
    · rename_i hwaiting
      exact .inr (.inl ⟨rfl, by simpa using hwaiting, (Option.some.inj h).symm⟩)
  | interrupt =>
    cases hs : p.server with
    | none => simp [step, hs] at h
    | some i =>
      simp only [step, hs] at h
      obtain ⟨⟨hrunning, hinterrupted⟩, rfl⟩ := Runs.guard_eq_some h
      exact .inr (.inr (.inl ⟨i, rfl, rfl, hrunning, hinterrupted, rfl⟩))
  | closed =>
    cases hs : p.server with
    | none => simp [step, hs] at h
    | some i =>
      simp only [step, hs] at h
      obtain ⟨⟨hwaiting, hrunning⟩, rfl⟩ := Runs.guard_eq_some h
      exact .inr (.inr (.inr (.inl ⟨i, rfl, rfl, hwaiting, hrunning, rfl⟩)))
  | network b =>
    cases hs : p.server with
    | none => simp [step, hs] at h
    | some i =>
      simp only [step, hs] at h
      rw [if_pos (hp.ready i hs), Option.map_eq_some_iff] at h
      obtain ⟨acceptor, hb, rfl⟩ := h
      exact .inr (.inr (.inr (.inr ⟨i, b, acceptor, rfl, rfl, hb, rfl⟩)))

theorem launched_fresh {settings : Server.Settings} (hserver : p.server = some (fresh settings))
    (hwaiting : p.waiting = false) : p.Launched := by
  refine ⟨fun i hi => ?_, fun i hi _ => ?_, fun hw => ?_⟩
  · obtain rfl := Option.some.inj (hserver.symm.trans hi)
    rfl
  · obtain rfl := Option.some.inj (hserver.symm.trans hi)
    rfl
  · rw [hwaiting] at hw
    cases hw

theorem Launched.step (hp : p.Launched) {a : Action κ} (h : step p a = some p') : p'.Launched := by
  obtain ⟨-, -, hwaiting, hserver | ⟨-, settings, hserver⟩⟩ | ⟨rfl, hwaiting, rfl⟩ | ⟨i, hi, rfl, -, -, rfl⟩ |
    ⟨i, hi, rfl, -, hrunning, rfl⟩ | ⟨i, b, acceptor, hi, rfl, hb, rfl⟩ := step_cases hp h
  · refine ⟨by rw [hserver]; exact hp.ready, by rw [hserver]; exact hp.accepter, fun hw => ?_⟩
    rw [hwaiting] at hw
    cases hw
  · exact launched_fresh hserver hwaiting
  · -- a loop that goes on has an accepter, which is interrupted now
    unfold closeServer
    cases hi : p.server with
    | none => exact hp
    | some i =>
      refine ⟨?_, ?_, fun _ => ⟨_, rfl, fun hrunning => ?_⟩⟩
      · rintro _ ⟨⟩
        exact hp.ready i hi
      · rintro _ ⟨⟩
        exact hp.accepter i hi
      · simp [hp.accepter i hi hrunning]
  · refine ⟨?_, ?_, fun _ => ⟨_, rfl, fun hrunning => by cases hrunning⟩⟩
    · rintro _ ⟨⟩
      exact hp.ready i hi
    · rintro _ ⟨⟩ hrunning
      cases hrunning
  · exact ⟨hp.ready, hp.accepter, fun hw => by cases hw⟩
  · have hkeeps : acceptor.running = true → i.acceptor.running = true := fun h => Acceptor.running_of_step hb h
    refine ⟨?_, ?_, fun hw => ⟨_, rfl, fun hrunning => ?_⟩⟩
    · rintro _ ⟨⟩
      exact hp.ready i hi
    · rintro _ ⟨⟩ hrunning
      exact hp.accepter i hi (hkeeps hrunning)
    · obtain ⟨j, hj, hinterrupted⟩ := hp.interrupted hw
      obtain rfl := Option.some.inj (hi.symm.trans hj)
      exact hinterrupted (hkeeps hrunning)

end Step

/-! ## Runs -/

/-- The clients that connect. -/
def connects (as : List (Action κ)) : List κ := as.filterMap fun
  | .network (.connect client) => some client
  | _ => none

/-- A server whose loop is over, and what it is after clients connected. -/
structure Over (i i' : ServerInstance κ) (clients : List κ) : Prop where
  settings : i'.settings = i.settings
  running : i'.acceptor.running = false
  taken : i'.acceptor.taken = i.acceptor.taken
  backlog : i'.acceptor.backlog = i.acceptor.backlog ++ clients

section Runs

variable {p p' : ServerProgram τ κ} {i i' i'' : ServerInstance κ}

theorem Over.refl (h : i.acceptor.running = false) : Over i i [] := ⟨rfl, h, rfl, (List.append_nil _).symm⟩

theorem Over.trans {clients clients' : List κ} (h : Over i i' clients) (h' : Over i' i'' clients') :
    Over i i'' (clients ++ clients') := by
  refine ⟨h'.settings.trans h.settings, h'.running, h'.taken.trans h.taken, ?_⟩
  rw [h'.backlog, h.backlog, List.append_assoc]

/-- No step makes a loop go on that is over. -/
theorem over_step (hp : p.Launched) (hi : p.server = some i) (hrunning : i.acceptor.running = false) {a : Action κ}
    (h : step p a = some p') : ∃ i', p'.server = some i' ∧ Over i i' (connects [a]) := by
  obtain ⟨⟨name, answers, rfl⟩, -, -, hserver | ⟨hnone, -⟩⟩ | ⟨rfl, -, rfl⟩ | ⟨j, hj, rfl, hon, -⟩ |
    ⟨j, hj, rfl, -, -, rfl⟩ | ⟨j, b, acceptor, hj, rfl, hb, rfl⟩ := step_cases hp h
  · exact ⟨i, hserver.trans hi, .refl hrunning⟩
  · rw [hi] at hnone
    cases hnone
  · refine ⟨{ i with interrupted := i.interrupted || i.accepter }, by rw [closeServer, hi], ?_⟩
    exact ⟨rfl, hrunning, rfl, (List.append_nil _).symm⟩
  · obtain rfl := Option.some.inj (hi.symm.trans hj)
    rw [hrunning] at hon
    cases hon
  · exact ⟨i, hi, .refl hrunning⟩
  · obtain rfl := Option.some.inj (hi.symm.trans hj)
    obtain ⟨client, rfl, rfl⟩ := Acceptor.step_of_not_running hb hrunning
    exact ⟨_, rfl, rfl, hrunning, rfl, rfl⟩

theorem over_run {as : List (Action κ)} (h : Runs.run step p as = some p') (hp : p.Launched) (hi : p.server = some i)
    (hrunning : i.acceptor.running = false) : ∃ i', p'.server = some i' ∧ Over i i' (connects as) := by
  refine Runs.run_induction
    (R := fun p as p' => ∀ i, p.Launched → p.server = some i → i.acceptor.running = false →
      ∃ i', p'.server = some i' ∧ Over i i' (connects as))
    (fun p i _ hi hrunning => ⟨i, hi, .refl hrunning⟩) (fun p a q as p' hstep ih i hp hi hrunning => ?_)
    h i hp hi hrunning
  obtain ⟨j, hj, hover⟩ := over_step hp hi hrunning hstep
  obtain ⟨i', hi', hover'⟩ := ih j (hp.step hstep) hj hover.running
  have hconnects : connects (a :: as) = connects [a] ++ connects as := by
    rw [connects, connects, connects, ← List.filterMap_append, List.singleton_append]
  refine ⟨i', hi', ?_⟩
  rw [hconnects]
  exact hover.trans hover'

/-- Every state that the program comes to. -/
theorem launched_run {config : Config τ} {as : List (Action κ)} (h : Runs.run step { config } as = some p) :
    p.Launched := by
  have hempty : Launched (κ := κ) { config } := ⟨by simp, by simp, by simp⟩
  exact Runs.invariant_run (C := fun _ _ => True) (fun _ _ _ hp _ => hp.step) hempty (Runs.meets_of_mem (by simp) _) h

/-- **Once `close` has returned, the program accepts no client again, whatever it is told**: the server stays, with its
settings and without its loop, and the clients that connect are left waiting one after the other. -/
theorem closed_run {config : Config τ} {before after : List (Action κ)}
    (h : Runs.run step { config } (before ++ [.closed]) = some p) (h' : Runs.run step p after = some p') :
    ∃ i i', p.server = some i ∧ p'.server = some i' ∧ Over i i' (connects after) := by
  rw [Runs.run_append] at h
  obtain ⟨q, hq, hclosed⟩ := Option.bind_eq_some_iff.mp h
  rw [Runs.run_cons] at hclosed
  obtain ⟨q', hstep, hq'⟩ := Option.bind_eq_some_iff.mp hclosed
  obtain rfl : q' = p := Option.some.inj hq'
  have hlaunched := launched_run hq
  obtain ⟨⟨name, answers, hact⟩, -⟩ | ⟨hact, -⟩ | ⟨i, -, hact, -⟩ | ⟨i, hi, -, -, hrunning, rfl⟩ |
    ⟨i, b, acceptor, -, hact, -⟩ := step_cases hlaunched hstep
  · cases hact
  · cases hact
  · cases hact
  · obtain ⟨i', hi', hover⟩ := over_run h' (hlaunched.step hstep) hi hrunning
    exact ⟨i, i', hi, hi', hover⟩
  · cases hact

/-- No configurations. -/
def noConfigs : Config ℕ where
  configDir := []
  serverConfigDir := []
  serverConfig := .empty 0
  userConfig := ⟨[], 0, 0, 0⟩
  configs := .empty
  serverConfigs := .empty

/-- A client is accepted, and the server closed. -/
def launchedClosed : List (Action ℕ) :=
  [.launch [] ⟨true, true⟩, .network (.connect 1), .network (.accept (.socket none)), .close, .interrupt]

/-- The theorem for another launch, and another client. -/
theorem closed_run_again : ∃ p p' : ServerProgram ℕ ℕ,
    Runs.run step { config := noConfigs } (launchedClosed ++ [.closed]) = some p ∧
      Runs.run step p [.launch [] ⟨true, true⟩, .network (.connect 2)] = some p' ∧
      ∃ i i', p.server = some i ∧ p'.server = some i' ∧ Over i i' [2] := by
  obtain ⟨p, hp⟩ : ∃ p : ServerProgram ℕ ℕ,
      Runs.run step { config := noConfigs } (launchedClosed ++ [.closed]) = some p := ⟨_, rfl⟩
  obtain ⟨p', hp'⟩ : ∃ p', Runs.run step p [.launch [] ⟨true, true⟩, .network (.connect 2)] = some p' := by
    obtain rfl := Option.some.inj hp
    exact ⟨_, rfl⟩
  exact ⟨p, p', hp, hp', closed_run hp hp'⟩

end Runs

end ServerProgram

end Mashroom
