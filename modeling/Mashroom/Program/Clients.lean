import Mathlib.Data.List.Basic
import Mashroom.Mapped

/-!
# Program.Clients — the list of clients and a connection that fails

`connectInternal` reconnects the first client without a socket, or appends a new client and connects it; when that
throws it takes a client out of the list again.  What the system answers is in `System`.  `rollsBack_iff` says for
which answers the list is as it was.
-/

namespace Mashroom.Network

/-! ## What the system answers -/

/-- The error numbers that the sockets distinguish. -/
inductive Errno where
  | eacces
  | eperm
  | eaddrinuse
  | eagain
  | ealready
  | ebadf
  | econnrefused
  | efault
  | einprogress
  | eisconn
  | enetunreach
  | enotsock
  | etimedout
  | eaddrnotavail
  | eafnosupport
  | eprototype
  | eintr
  | einval
  | emfile
  | eprotonosupport
  | enobufs
  | enomem
  | other (code : ℕ)
  deriving DecidableEq

/-- The classes of exceptions that the handlers distinguish. -/
inductive Exc where
  | runtimeError
  | invalidArgument
  | other
  deriving DecidableEq

/-- What `inet_pton` makes of a host. -/
inductive HostFamily where
  | iPv4
  | iPv6
  | invalid
  deriving DecidableEq

/-- The clients behind the pointers, and what the system answers to the calls of one connection. -/
structure System (ι : Type) where
  hasSocket : ι → Bool
  /-- where the next instance is made -/
  fresh : ι
  /-- there is memory for the objects -/
  memory : Bool
  family : List Char → HostFamily
  /-- `::socket` -/
  socket : Except Errno Unit
  /-- `getsockopt` finds no error on the new socket -/
  noError : Bool
  /-- `::connect` -/
  connect : List Char → ℕ → Except Errno Unit

section Calls

variable {ι : Type} (s : System ι) (host : List Char) (port : ℕ)

/-- The constructor of a socket, and whether it then has a descriptor.  The case of IPv6 has no `break`. -/
def makeSocket : Except Exc Bool :=
  if s.memory then
    match s.family host with
    | .invalid => .error .invalidArgument
    | .iPv6 => .error .invalidArgument
    | .iPv4 =>
      match s.socket with
      | .ok () => .ok true
      | .error .eafnosupport => .error .invalidArgument
      | .error .einval => .error .invalidArgument
      | .error .emfile => .error .invalidArgument
      | .error .eprotonosupport => .error .invalidArgument
      | .error .enobufs => .error .runtimeError
      | .error .enomem => .error .runtimeError
      | .error .eacces => .error .runtimeError
      | .error _ => .ok false
  else .error .other

/-- `__connect_throw__`, which lets the numbers that it does not list pass. -/
def connectThrow : Errno → Except Exc Unit
  | .eacces | .eperm | .eaddrinuse | .eagain | .ealready | .ebadf | .econnrefused | .efault | .einprogress
  | .eisconn | .enetunreach | .enotsock | .etimedout => .error .runtimeError
  | .eaddrnotavail | .eafnosupport | .eprototype => .error .invalidArgument
  | _ => .ok ()

/-- `connect()` of a client whose socket has a descriptor or not. -/
def connectClient (descriptor : Bool) : Except Exc Unit :=
  if descriptor ∧ s.noError then
    match s.connect host port with
    | .ok () => .ok ()
    | .error err => connectThrow err
  else .error .runtimeError

/-- `connect(host,port)` of a client without a socket: it makes one, whose descriptor is read through a pointer, and
does not look at what `::connect` answers. -/
def reconnectClient : Except Fault (Except Exc Unit) :=
  match makeSocket s host with
  | .error err => .ok (.error err)
  | .ok descriptor => if descriptor then .ok (.ok ()) else .error .null

end Calls

/-! ## The list of clients -/

/-- `clients_`: pointers, any of which may be null. -/
abbrev Clients (ι : Type) := List (Option ι)

namespace Clients

variable {ι : Type} (s : System ι) (clients : Clients ι) (host : List Char) (port : ℕ)

/-- The condition of the search: `client && !client->connection_established()`. -/
def unconnected : Option ι → Bool
  | some client => !s.hasSocket client
  | none => false

/-- `pop_back`, which has no meaning for an empty list. -/
def popBack : Except Fault (Clients ι) :=
  if clients = [] then .error .element else .ok clients.dropLast

/-- The body of the second `try`: the instance is made, then appended, then connected. -/
def appendNew : Clients ι × Except Exc Unit :=
  match makeSocket s host with
  | .error err => (clients, .error err)
  | .ok descriptor => (clients ++ [some s.fresh], connectClient s host port descriptor)

/-- `__connect_internal__`: the list, and the position of the client or none for the end of the list.  The test
before `pop_back` ends at its semicolon. -/
def connectInternal : Except Fault (Clients ι × Option ℕ) :=
  match clients.findIdx? (unconnected s) with
  | some found => do
    match ← reconnectClient s host with
    | .ok () => return (clients, some found)
    | .error _ => return (clients.eraseIdx found, none)
  | none =>
    match appendNew s clients host port with
    | (clients', .ok ()) => return (clients', some clients.length)
    | (clients', .error err) =>
      match err with
      | .runtimeError => do
        let clients' ← popBack clients'
        return (clients', none)
      | .invalidArgument => do
        let clients' ← popBack clients'
        return (clients', none)
      | .other => .error .exit

/-! ## When the list is as it was -/

/-- Something fails on the way: the socket is not made, or not usable, or `::connect` answers with an error. -/
def Fails : Prop :=
  makeSocket s host ≠ .ok true ∨ (clients.findIdx? (unconnected s) = none ∧ s.noError = false) ∨
    s.connect host port ≠ .ok ()

/-- When connecting fails, the clients are those that there were, in the same order, except at most one unconnected
client, unless the program ends. -/
def RollsBack : Prop := Fails s clients host port →
  connectInternal s clients host port = .error .exit ∨
  ∃ after found, connectInternal s clients host port = .ok (after, found) ∧
    (after = clients ∨ ∃ i client, clients[i]? = some (some client) ∧ s.hasSocket client = false ∧
      after = clients.eraseIdx i)

/-- The error numbers of `::socket` for which the constructor throws. -/
def socketErrors : List Errno :=
  [.eafnosupport, .einval, .emfile, .eprotonosupport, .enobufs, .enomem, .eacces]

/-- The error numbers of `::connect` for which `connect` throws. -/
def connectErrors : List Errno :=
  [.eacces, .eperm, .eaddrinuse, .eagain, .ealready, .ebadf, .econnrefused, .efault, .einprogress, .eisconn,
    .enetunreach, .enotsock, .etimedout, .eaddrnotavail, .eafnosupport, .eprototype]

/-- `::socket` fails and the constructor does not notice. -/
def SocketUnnoticed : Prop :=
  s.memory = true ∧ s.family host = .iPv4 ∧ ∃ err, err ∉ socketErrors ∧ s.socket = .error err

/-- `::connect` fails and `connect` does not notice. -/
def ConnectUnnoticed : Prop :=
  s.noError = true ∧ ∃ err, err ∉ connectErrors ∧ s.connect host port = .error err

/-- With an unconnected client, no failure of `::socket` is overlooked.  With none, there is no memory, or the host is
an IPv4 address, `::socket` does not make the constructor throw, and no failure of `::connect` is overlooked. -/
def Tidy : Prop :=
  if clients.findIdx? (unconnected s) = none then
    s.memory = false ∨ SocketUnnoticed s host ∨
      (s.family host = .iPv4 ∧ s.socket = .ok () ∧ ¬ ConnectUnnoticed s host port)
  else ¬ SocketUnnoticed s host

/-! ### What the calls do -/

section Calls

variable {s host port}

/-- When the constructor has a descriptor, when it has none and does not notice, and when there is no memory. -/
theorem makeSocket_spec :
    (makeSocket s host = .ok true ↔ s.memory = true ∧ s.family host = .iPv4 ∧ s.socket = .ok ()) ∧
      (makeSocket s host = .ok false ↔ SocketUnnoticed s host) ∧
      (makeSocket s host = .error .other ↔ s.memory = false) := by
  unfold SocketUnnoticed
  cases hm : s.memory with
  | false => simp [makeSocket, hm]
  | true =>
    cases hf : s.family host with
    | invalid => simp [makeSocket, hm, hf]
    | iPv6 => simp [makeSocket, hm, hf]
    | iPv4 =>
      cases hs : s.socket with
      | ok u => simp [makeSocket, hm, hf, hs]
      | error err => cases err <;> simp [makeSocket, hm, hf, hs, socketErrors]

theorem connectThrow_eq_ok {err : Errno} : connectThrow err = .ok () ↔ err ∉ connectErrors := by
  cases err <;> simp [connectThrow, connectErrors]

theorem connectThrow_ne_other (err : Errno) : connectThrow err ≠ .error .other := by
  cases err <;> simp [connectThrow]

/-- A client with a descriptor that connects without an exception is connected, or its failure is overlooked. -/
theorem connectClient_eq_ok {descriptor : Bool} : connectClient s host port descriptor = .ok () ↔
    descriptor = true ∧ ((s.noError = true ∧ s.connect host port = .ok ()) ∨ ConnectUnnoticed s host port) := by
  unfold connectClient ConnectUnnoticed
  by_cases hd : descriptor = true ∧ s.noError = true
  · rw [if_pos hd]
    obtain ⟨rfl, hn⟩ := hd
    cases hc : s.connect host port with
    | ok u => simp [hn]
    | error err => simp [hn, connectThrow_eq_ok]
  · rw [if_neg hd]
    refine iff_of_false (by simp) ?_
    rintro ⟨h1, ⟨h2, -⟩ | ⟨h2, -⟩⟩
    · exact hd ⟨h1, h2⟩
    · exact hd ⟨h1, h2⟩

theorem connectClient_ne_other (descriptor : Bool) : connectClient s host port descriptor ≠ .error .other := by
  unfold connectClient
  split
  · split
    · simp
    · exact connectThrow_ne_other _
  · simp

end Calls

/-! ### The two branches -/

section Branches

variable {s clients host port}

/-- The client that the search finds is there and has no socket. -/
theorem unconnected_of_findIdx {found : ℕ} (h : clients.findIdx? (unconnected s) = some found) :
    ∃ client, clients[found]? = some (some client) ∧ s.hasSocket client = false := by
  obtain ⟨hlt, hp, -⟩ := List.findIdx?_eq_some_iff_getElem.mp h
  cases hc : clients[found] with
  | none =>
    rw [hc] at hp
    cases hp
  | some client =>
    rw [hc] at hp
    exact ⟨client, by rw [List.getElem?_eq_getElem hlt, hc], by simpa [unconnected] using hp⟩

/-- Where the search finds none, no client is unconnected. -/
theorem connected_of_findIdx (h : clients.findIdx? (unconnected s) = none) {i : ℕ} {client : ι}
    (hi : clients[i]? = some (some client)) : s.hasSocket client = true := by
  have hp := List.findIdx?_eq_none_iff.mp h _ (List.mem_of_getElem? hi)
  simpa [unconnected] using hp

/-- Where there is no unconnected client, the list must be what it was. -/
theorem rollsBack_of_findIdx (h : clients.findIdx? (unconnected s) = none) : RollsBack s clients host port ↔
    (Fails s clients host port → connectInternal s clients host port = .error .exit ∨
      ∃ found, connectInternal s clients host port = .ok (clients, found)) := by
  refine imp_congr_right fun _ => or_congr_right ?_
  constructor
  · rintro ⟨after, found, heq, rfl | ⟨i, client, hi, hs, -⟩⟩
    · exact ⟨found, heq⟩
    · rw [connected_of_findIdx h hi] at hs
      cases hs
  · rintro ⟨found, heq⟩
    exact ⟨clients, found, heq, .inl rfl⟩

theorem popBack_ne_self (found : Option ℕ) :
    (popBack clients >>= fun clients' => .ok (clients', none)) ≠ .ok (clients, found) := by
  unfold popBack
  split
  · simp
  · rename_i hne
    intro h
    have hlen := congrArg List.length (congrArg Prod.fst (Except.ok.inj h))
    simp only [List.length_dropLast] at hlen
    have := List.length_pos_iff.mpr hne
    omega

theorem popBack_append (x : Option ι) : popBack (clients ++ [x]) = .ok clients := by
  rw [popBack, if_neg (by simp), List.dropLast_concat]

/-- An unconnected client is reconnected, or taken out, or its socket is used without a descriptor. -/
theorem rollsBack_reconnect {found : ℕ} (h : clients.findIdx? (unconnected s) = some found) :
    RollsBack s clients host port ↔ ¬ SocketUnnoticed s host := by
  obtain ⟨client, hclient, hsocket⟩ := unconnected_of_findIdx h
  rw [← makeSocket_spec.2.1]
  cases hm : makeSocket s host with
  | error err =>
    refine iff_of_true (fun _ => .inr ⟨clients.eraseIdx found, none, ?_, .inr ⟨found, client, hclient, hsocket, rfl⟩⟩)
      (by simp)
    simp [connectInternal, h, reconnectClient, hm]
  | ok descriptor =>
    cases descriptor with
    | true =>
      refine iff_of_true (fun _ => .inr ⟨clients, some found, ?_, .inl rfl⟩) (by simp)
      simp [connectInternal, h, reconnectClient, hm]
    | false =>
      have hnull : connectInternal s clients host port = .error .null := by
        simp [connectInternal, h, reconnectClient, hm]
      refine iff_of_false (fun hroll => ?_) (by simp)
      obtain hexit | ⟨after, found, hok, -⟩ := hroll (.inl (by simp [hm]))
      · rw [hnull] at hexit
        cases hexit
      · rw [hnull] at hok
        cases hok

theorem popBack_ne_exit : (popBack clients >>= fun clients' => .ok (clients', (none : Option ℕ))) ≠ .error .exit := by
  unfold popBack
  split
  · simp
  · simp

/-- Creating the instance throws: a client is taken out though none was appended. -/
theorem connectInternal_notMade (h : clients.findIdx? (unconnected s) = none) {err : Exc}
    (hm : makeSocket s host = .error err) (herr : err ≠ .other) :
    connectInternal s clients host port = popBack clients >>= fun clients' => .ok (clients', none) := by
  cases err with
  | runtimeError => simp only [connectInternal, h, appendNew, hm, pure_eq_ok]
  | invalidArgument => simp only [connectInternal, h, appendNew, hm, pure_eq_ok]
  | other => exact absurd rfl herr

/-- Creating the instance throws: the program ends for want of memory, and else a client is lost. -/
theorem rollsBack_notMade (h : clients.findIdx? (unconnected s) = none) {err : Exc}
    (hm : makeSocket s host = .error err) : RollsBack s clients host port ↔ s.memory = false := by
  rw [rollsBack_of_findIdx h, ← makeSocket_spec.2.2, hm]
  by_cases herr : err = .other
  · subst herr
    refine iff_of_true (fun _ => .inl ?_) rfl
    simp [connectInternal, h, appendNew, hm]
  · refine iff_of_false (fun hroll => ?_) fun heq => herr (Except.error.inj heq)
    obtain hexit | ⟨found, hok⟩ := hroll (.inl (by simp [hm]))
    · rw [connectInternal_notMade h hm herr] at hexit
      exact popBack_ne_exit hexit
    · rw [connectInternal_notMade h hm herr] at hok
      exact popBack_ne_self found hok

/-- The instance is made: it is taken out again when connecting it throws. -/
theorem connectInternal_made (h : clients.findIdx? (unconnected s) = none) {descriptor : Bool}
    (hm : makeSocket s host = .ok descriptor) : connectInternal s clients host port =
      if connectClient s host port descriptor = .ok () then .ok (clients ++ [some s.fresh], some clients.length)
      else .ok (clients, none) := by
  cases hc : connectClient s host port descriptor with
  | ok u => simp [connectInternal, h, appendNew, hm, hc]
  | error err =>
    cases err with
    | runtimeError => simp [connectInternal, h, appendNew, hm, hc, popBack_append]
    | invalidArgument => simp [connectInternal, h, appendNew, hm, hc, popBack_append]
    | other => exact absurd hc (connectClient_ne_other descriptor)

theorem rollsBack_made (h : clients.findIdx? (unconnected s) = none) {descriptor : Bool}
    (hm : makeSocket s host = .ok descriptor) :
    RollsBack s clients host port ↔ ¬ (descriptor = true ∧ ConnectUnnoticed s host port) := by
  rw [rollsBack_of_findIdx h, connectInternal_made h hm]
  by_cases hc : connectClient s host port descriptor = .ok ()
  · rw [if_pos hc]
    obtain ⟨hd, hcases⟩ := connectClient_eq_ok.mp hc
    constructor
    · rintro hroll ⟨-, hnoise, err, herr, hconnect⟩
      obtain hexit | ⟨found, hok⟩ := hroll (.inr (.inr (by simp [hconnect])))
      · cases hexit
      · have hlen := congrArg List.length (congrArg Prod.fst (Except.ok.inj hok))
        simp at hlen
    · intro hnot hfails
      obtain ⟨hn, hconnect⟩ := hcases.resolve_right fun hu => hnot ⟨hd, hu⟩
      subst hd
      rcases hfails with hf | ⟨-, hf⟩ | hf
      · exact absurd hm hf
      · rw [hn] at hf
        cases hf
      · exact absurd hconnect hf
  · rw [if_neg hc]
    exact iff_of_true (fun _ => .inr ⟨none, rfl⟩) fun hu => hc (connectClient_eq_ok.mpr ⟨hu.1, .inr hu.2⟩)

end Branches

/-- **A connection that fails leaves the list as it was**, but for the one unconnected client, exactly when the
answers of the system are `Tidy`. -/
theorem rollsBack_iff : RollsBack s clients host port ↔ Tidy s clients host port := by
  cases h : clients.findIdx? (unconnected s) with
  | some found =>
    rw [rollsBack_reconnect h, Tidy, if_neg (by simp [h])]
  | none =>
    rw [Tidy, if_pos h]
    cases hm : makeSocket s host with
    | error err =>
      rw [rollsBack_notMade h hm]
      constructor
      · exact .inl
      · rintro (h | h | ⟨hf, hs, -⟩)
        · exact h
        · rw [← makeSocket_spec.2.1, hm] at h
          cases h
        · by_contra hmem
          have hok : makeSocket s host = .ok true := makeSocket_spec.1.mpr ⟨by simpa using hmem, hf, hs⟩
          rw [hm] at hok
          cases hok
    | ok descriptor =>
      rw [rollsBack_made h hm]
      cases descriptor with
      | true =>
        obtain ⟨hmem, hf, hs⟩ := makeSocket_spec.1.mp hm
        have hnot : ¬ SocketUnnoticed s host := by
          rw [← makeSocket_spec.2.1, hm]
          simp
        simp [hmem, hf, hs, hnot]
      | false =>
        have hun := makeSocket_spec.2.1.mp hm
        exact iff_of_true (by simp) (.inr (.inl hun))

/-! ### A host that is no address -/

/-- One connected client, and a host name. -/
def hostName : System ℕ where
  hasSocket _ := true
  fresh := 1
  memory := true
  family _ := .invalid
  socket := .ok ()
  noError := true
  connect _ _ := .ok ()

/-- The name `localhost` is not an address: the client that was there is dropped, and from an empty list an element
is removed. -/
theorem hostName_drops_client :
    connectInternal hostName [some 0] "localhost".toList 80 = .ok ([], none) ∧
      connectInternal hostName [] "localhost".toList 80 = .error .element ∧
      ¬ RollsBack hostName [some 0] "localhost".toList 80 ∧ ¬ RollsBack hostName [] "localhost".toList 80 := by
  have hone : connectInternal hostName [some 0] "localhost".toList 80 = .ok ([], none) := by decide
  have hempty : connectInternal hostName [] "localhost".toList 80 = .error .element := by decide
  refine ⟨hone, hempty, ?_, ?_⟩
  · intro hroll
    obtain h | ⟨after, found, h, hafter⟩ := hroll (.inl (by decide))
    · rw [hone] at h
      cases h
    · rw [hone] at h
      cases h
      rcases hafter with hafter | ⟨i, client, -, hs, -⟩
      · cases hafter
      · cases hs
  · intro hroll
    obtain h | ⟨after, found, h, -⟩ := hroll (.inl (by decide)) <;>
    · rw [hempty] at h
      cases h

end Clients

end Mashroom.Network
