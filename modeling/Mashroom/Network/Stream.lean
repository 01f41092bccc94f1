import Mathlib.Logic.Relation
import Mathlib.Order.WellFounded
import Mashroom.Lib.Codec

/-!
# Network.Stream — messages over a stream of octets

`send_message` puts the length of a message before its octets and sends both in a loop, as many octets at a time as
the socket takes.  The receiver first fills a buffer of eight octets, reads the length from it, and then fills a
buffer of that length.  A `Connection` is the sender, the octets under way and the receiver; its steps are the turns
of the two loops, in any order and with any number of octets.  Every message is received as it was sent, one after
the other (`receives_all`).

The octets that were sent and not yet received, with what the receiver has of a message and what the sender has left
to send, are always the rest of the messages: this is the invariant `Inv`.
-/

namespace Mashroom.Network

/-- What OsterLib makes of a message, and of a length. -/
structure Wire (M : Type) where
  /-- what `serialize_network` appends to the buffer -/
  serialize : M → List UInt8
  /-- `serial_size` -/
  serialSize : M → ℕ
  /-- what `serialize_network` appends for a `uint64_t` -/
  serializeLength : ℕ → List UInt8
  /-- `deserialize_network` of a `uint64_t`, if it succeeds -/
  deserializeLength : List UInt8 → Option ℕ

namespace Wire

variable {M : Type} (w : Wire M)

/-- The size is the number of octets, and a length is read back from its eight octets. -/
structure Documented : Prop where
  serialSize : ∀ m, w.serialSize m = (w.serialize m).length
  fits : ∀ m, w.serialSize m < 2 ^ 64
  length : ∀ n, (w.serializeLength n).length = 8
  roundTrip : ∀ n < 2 ^ 64, w.deserializeLength (w.serializeLength n) = some n

/-- The buffer of `__send__`: the length, and the message. -/
def sendBuffer (m : M) : List UInt8 := w.serializeLength (w.serialSize m) ++ w.serialize m

end Wire

/-! ## The two loops -/

/-- What `::send` returns: how many octets it took, or `-1`. -/
inductive SendResult where
  | moved (cur : ℕ)
  | failed

/-- The variables of the loop in `send`. -/
structure Sending where
  buffer : List UInt8
  sent : ℕ

namespace Sending

/-- A turn of the loop.  Without a value `send` returns `-1`. -/
def turn (st : Sending) : SendResult → Option Sending
  | .moved cur => some { st with sent := st.sent + cur }
  | .failed => none

/-- The octets that are left to send. -/
def left (st : Sending) : List UInt8 := st.buffer.drop st.sent

end Sending

/-- What `::recv` gives: octets, none, or `-1`. -/
inductive RecvResult where
  | moved (octets : List UInt8)
  | nothing
  | failed

/-- The variables of the loop in `receive`. -/
structure Receiving where
  buffer : List UInt8
  n : ℕ
  retry : ℕ := 0

namespace Receiving

/-- The octets of `buffer` from `p` on are replaced. -/
def overwrite (buffer : List UInt8) (p : ℕ) (octets : List UInt8) : List UInt8 :=
  buffer.take p ++ octets ++ buffer.drop (p + octets.length)

/-- A turn of the loop.  Without a value `receive` returns `-1`; an interrupted call is a failed one, since
`read_num` is compared with `EINTR` in place of `errno`. -/
def turn (st : Receiving) : RecvResult → Option Receiving
  | .moved octets => some {
      buffer := overwrite st.buffer (st.buffer.length - st.n) octets
      n := st.n - octets.length }
  | .nothing => if st.retry < 10 then some { st with retry := st.retry + 1 } else none
  | .failed => none

/-- A buffer of `n` octets, none of them received. -/
def fresh (n : ℕ) : Receiving := { buffer := List.replicate n 0, n }

/-- The octets that were received. -/
def filled (st : Receiving) : List UInt8 := st.buffer.take (st.buffer.length - st.n)

variable {st st' : Receiving} {octets : List UInt8}

@[simp] theorem filled_fresh (n : ℕ) : (fresh n).filled = [] := by
  simp [fresh, filled]

theorem filled_of_n (h : st.n = 0) : st.filled = st.buffer := by
  rw [filled, h, Nat.sub_zero, List.take_length]

theorem filled_length : st.filled.length = st.buffer.length - st.n := by
  rw [filled, List.length_take]
  omega

/-- Received octets come after those that were received before. -/
theorem filled_turn (hn : st.n ≤ st.buffer.length) (ho : octets.length ≤ st.n)
    (h : st.turn (.moved octets) = some st') : st'.filled = st.filled ++ octets ∧
      st'.buffer.length = st.buffer.length ∧ st'.n = st.n - octets.length := by
  cases h
  have hlen : (overwrite st.buffer (st.buffer.length - st.n) octets).length = st.buffer.length := by
    simp only [overwrite, List.length_append, List.length_take, List.length_drop]
    omega
  refine ⟨?_, hlen, rfl⟩
  have hfront : (st.buffer.take (st.buffer.length - st.n) ++ octets).length =
      st.buffer.length - (st.n - octets.length) := by
    simp only [List.length_append, List.length_take]
    omega
  unfold filled
  rw [hlen]
  exact List.take_left' hfront

end Receiving

/-! ## The connection -/

/-- Which buffer the receiver fills. -/
inductive Phase where
  | length
  | message
  deriving DecidableEq

/-- The sender, the octets under way, and the receiver. -/
structure Connection (M : Type) where
  /-- the messages that `send_message` is still to be called with -/
  pending : List M
  sending : Option Sending := none
  channel : List UInt8 := []
  phase : Phase := .length
  receiving : Receiving := .fresh 8
  /-- the buffers left by the calls of `receive_any_message`, and nothing for one that could not read the length -/
  received : List (Option (List UInt8)) := []

section Connection

variable {M : Type} (w : Wire M)

/-- One step of either side. -/
inductive Step : Connection M → Connection M → Prop
  /-- `send_message` makes the buffer -/
  | start {c m ms} (hp : c.pending = m :: ms) (hs : c.sending = none) :
      Step c { c with pending := ms, sending := some { buffer := w.sendBuffer m, sent := 0 } }
  /-- the socket takes `cur` octets -/
  | send {c st st'} (cur : ℕ) (hs : c.sending = some st) (hpos : 0 < cur) (hcur : cur ≤ st.buffer.length - st.sent)
      (ht : st.turn (.moved cur) = some st') :
      Step c { c with sending := some st', channel := c.channel ++ st.left.take cur }
  /-- the loop of `send` ends -/
  | sent {c st} (hs : c.sending = some st) (hdone : ¬ st.sent < st.buffer.length) : Step c { c with sending := none }
  /-- the socket gives `k` octets -/
  | recv {c st'} (k : ℕ) (hpos : 0 < k) (hn : k ≤ c.receiving.n) (hk : k ≤ c.channel.length)
      (ht : c.receiving.turn (.moved (c.channel.take k)) = some st') :
      Step c { c with channel := c.channel.drop k, receiving := st' }
  /-- the loop of `receive` ends, and the length is read -/
  | length {c sz} (hph : c.phase = .length) (hn : c.receiving.n = 0)
      (hd : w.deserializeLength c.receiving.buffer = some sz) :
      Step c { c with phase := .message, receiving := .fresh sz }
  /-- the length cannot be read -/
  | invalid {c} (hph : c.phase = .length) (hn : c.receiving.n = 0)
      (hd : w.deserializeLength c.receiving.buffer = none) :
      Step c { c with receiving := .fresh 8, received := c.received ++ [none] }
  /-- the loop of `receive` ends, and the handler takes the buffer -/
  | message {c} (hph : c.phase = .message) (hn : c.receiving.n = 0) :
      Step c { c with
        phase := .length, receiving := .fresh 8, received := c.received ++ [some c.receiving.buffer] }

/-- Some number of steps. -/
def Steps : Connection M → Connection M → Prop := Relation.ReflTransGen (Step w)

/-! ## Nothing is lost or mixed -/

/-- What the receiver has of the octets of a message, with those of its length. -/
def Connection.got (c : Connection M) : List UInt8 :=
  match c.phase with
  | .length => c.receiving.filled
  | .message => w.serializeLength c.receiving.buffer.length ++ c.receiving.filled

/-- What the sender has left to send of a message. -/
def Connection.unsent (c : Connection M) : List UInt8 := c.sending.elim [] Sending.left

/-- The messages are those that were received, and those whose octets are on their way. -/
structure Inv (ms : List M) (c : Connection M) : Prop where
  fits : c.receiving.n ≤ c.receiving.buffer.length
  length : c.phase = .length → c.receiving.buffer.length = 8
  message : c.phase = .message → c.receiving.buffer.length < 2 ^ 64
  stream : ∃ todo : List M, c.received ++ todo.map (some ∘ w.serialize) = ms.map (some ∘ w.serialize) ∧
    c.got w ++ c.channel ++ c.unsent ++ c.pending.flatMap w.sendBuffer = todo.flatMap w.sendBuffer

variable {w} {ms : List M} {c c' : Connection M}

theorem inv_start (ms : List M) : Inv w ms { pending := ms } where
  fits := le_refl 8
  length _ := rfl
  message h := by cases h
  stream := ⟨ms, rfl, rfl⟩

/-- The sender only moves octets towards the receiver. -/
theorem inv_of_sender (hi : Inv w ms c) (hph : c'.phase = c.phase) (hr : c'.receiving = c.receiving)
    (hrec : c'.received = c.received)
    (h : c'.channel ++ c'.unsent ++ c'.pending.flatMap w.sendBuffer =
      c.channel ++ c.unsent ++ c.pending.flatMap w.sendBuffer) : Inv w ms c' := by
  obtain ⟨todo, hms, hstream⟩ := hi.stream
  have hgot : c'.got w = c.got w := by
    unfold Connection.got
    rw [hph, hr]
  refine ⟨?_, ?_, ?_, todo, ?_, ?_⟩
  · rw [hr]
    exact hi.fits
  · rw [hph, hr]
    exact hi.length
  · rw [hph, hr]
    exact hi.message
  · rw [hrec]
    exact hms
  · rw [hgot, ← hstream]
    simp only [List.append_assoc] at h ⊢
    rw [h]

/-- Octets that are received come after those the receiver has. -/
theorem inv_recv (hi : Inv w ms c) {k : ℕ} {st' : Receiving} (hn : k ≤ c.receiving.n) (hk : k ≤ c.channel.length)
    (ht : c.receiving.turn (.moved (c.channel.take k)) = some st') :
    Inv w ms { c with channel := c.channel.drop k, receiving := st' } := by
  have hlen : (c.channel.take k).length = k := List.length_take_of_le hk
  obtain ⟨hfilled, hbuffer, hn'⟩ := Receiving.filled_turn hi.fits (hlen.trans_le hn) ht
  obtain ⟨todo, hms, hstream⟩ := hi.stream
  have hgot : Connection.got w { c with channel := c.channel.drop k, receiving := st' } =
      c.got w ++ c.channel.take k := by
    unfold Connection.got
    cases c.phase with
    | length => exact hfilled
    | message =>
      show w.serializeLength st'.buffer.length ++ st'.filled = _
      rw [hfilled, hbuffer, List.append_assoc]
  refine ⟨?_, ?_, ?_, todo, hms, ?_⟩
  · show st'.n ≤ st'.buffer.length
    rw [hn', hbuffer]
    exact (Nat.sub_le _ _).trans hi.fits
  · intro hph
    exact hbuffer.trans (hi.length hph)
  · intro hph
    exact hbuffer.trans_lt (hi.message hph)
  · rw [hgot, List.append_assoc _ (List.take k _), List.take_append_drop]
    exact hstream

/-- With the octets of a length at the front of the stream, there is a message to come. -/
theorem exists_next (hw : w.Documented) {head rest : List UInt8} (hlen : head.length = 8) {todo : List M}
    (h : head ++ rest = todo.flatMap w.sendBuffer) : ∃ m todo', todo = m :: todo' ∧
      head = w.serializeLength (w.serialSize m) ∧ rest = w.serialize m ++ todo'.flatMap w.sendBuffer := by
  cases todo with
  | nil =>
    have hnil := congrArg List.length h
    simp [hlen] at hnil
  | cons m todo' =>
    rw [List.flatMap_cons, Wire.sendBuffer, List.append_assoc] at h
    obtain ⟨hhead, hrest⟩ := List.append_inj h (hlen.trans (hw.length _).symm)
    exact ⟨m, todo', rfl, hhead, hrest⟩

/-- The length that is read is the one of the next message. -/
theorem length_next (hw : w.Documented) (hi : Inv w ms c) (hph : c.phase = .length) (hn : c.receiving.n = 0) :
    ∃ m, c.receiving.buffer = w.serializeLength (w.serialSize m) := by
  obtain ⟨todo, -, hstream⟩ := hi.stream
  have hgot : c.got w = c.receiving.buffer := by
    unfold Connection.got
    rw [hph]
    exact Receiving.filled_of_n hn
  rw [hgot, List.append_assoc, List.append_assoc] at hstream
  obtain ⟨m, -, -, hhead, -⟩ := exists_next hw (hi.length hph) hstream
  exact ⟨m, hhead⟩

/-- The receiver makes room for the next message. -/
theorem inv_length (hw : w.Documented) (hi : Inv w ms c) (hph : c.phase = .length) (hn : c.receiving.n = 0) {sz : ℕ}
    (hd : w.deserializeLength c.receiving.buffer = some sz) :
    Inv w ms { c with phase := .message, receiving := .fresh sz } := by
  obtain ⟨m, hm⟩ := length_next hw hi hph hn
  rw [hm, hw.roundTrip _ (hw.fits m)] at hd
  obtain rfl := Option.some.inj hd
  obtain ⟨todo, hms, hstream⟩ := hi.stream
  refine ⟨?_, (by rintro ⟨⟩), ?_, todo, hms, ?_⟩
  · simp [Receiving.fresh]
  · intro _
    simpa [Receiving.fresh] using hw.fits m
  · have hgot : c.got w = w.serializeLength (w.serialSize m) := by
      unfold Connection.got
      rw [hph]
      exact (Receiving.filled_of_n hn).trans hm
    rw [← hstream, hgot]
    simp [Connection.got, Receiving.fresh, Receiving.filled, Connection.unsent]

/-- What the receiver takes for the next message is the next message. -/
theorem inv_message (hw : w.Documented) (hi : Inv w ms c) (hph : c.phase = .message) (hn : c.receiving.n = 0) :
    Inv w ms { c with
      phase := .length, receiving := .fresh 8, received := c.received ++ [some c.receiving.buffer] } := by
  obtain ⟨todo, hms, hstream⟩ := hi.stream
  have hgot : c.got w = w.serializeLength c.receiving.buffer.length ++ c.receiving.buffer := by
    unfold Connection.got
    rw [hph, ← Receiving.filled_of_n hn]
  rw [hgot, List.append_assoc, List.append_assoc, List.append_assoc] at hstream
  obtain ⟨m, todo', rfl, hhead, hrest⟩ := exists_next hw (hw.length _) hstream
  have hsize : c.receiving.buffer.length = w.serialSize m := by
    have hdec := congrArg w.deserializeLength hhead
    rw [hw.roundTrip _ (hi.message hph), hw.roundTrip _ (hw.fits m)] at hdec
    exact Option.some.inj hdec
  obtain ⟨hbuffer, hrest⟩ := List.append_inj hrest (hsize.trans (hw.serialSize m))
  refine ⟨le_refl 8, fun _ => rfl, (by rintro ⟨⟩), todo', ?_, ?_⟩
  · rw [← hms, hbuffer]
    simp
  · rw [← hrest]
    simp [Connection.got, Connection.unsent]

/-- **One step**: what is under way stays the rest of the messages. -/
theorem step_inv (hw : w.Documented) (hi : Inv w ms c) (hs : Step w c c') : Inv w ms c' := by
  cases hs with
  | start hp hs =>
    refine inv_of_sender hi rfl rfl rfl ?_
    simp [Connection.unsent, Sending.left, hp, hs]
  | send cur hs hpos hcur ht =>
    refine inv_of_sender hi rfl rfl rfl ?_
    cases ht
    simp [Connection.unsent, Sending.left, hs, ← List.drop_drop, List.take_append_drop]
  | sent hs hdone =>
    refine inv_of_sender hi rfl rfl rfl ?_
    simp [Connection.unsent, Sending.left, hs, List.drop_eq_nil_of_le (Nat.not_lt.mp hdone)]
  | recv k hpos hn hk ht => exact inv_recv hi hn hk ht
  | length hph hn hd => exact inv_length hw hi hph hn hd
  | invalid hph hn hd =>
    obtain ⟨m, hm⟩ := length_next hw hi hph hn
    rw [hm, hw.roundTrip _ (hw.fits m)] at hd
    cases hd
  | message hph hn => exact inv_message hw hi hph hn

theorem steps_inv (hw : w.Documented) (hs : Steps w { pending := ms } c) : Inv w ms c := by
  induction hs with
  | refl => exact inv_start ms
  | tail _ hs ih => exact step_inv hw ih hs

/-! ## Everything arrives -/

/-- Where no step is left, nothing is under way. -/
theorem nothing_left (h : ∀ c', ¬ Step w c c') :
    c.pending = [] ∧ c.unsent = [] ∧ c.channel = [] ∧ c.receiving.n ≠ 0 := by
  have hsending : c.sending = none := by
    cases hs : c.sending with
    | none => rfl
    | some st =>
      by_cases hlt : st.sent < st.buffer.length
      · exact absurd (Step.send 1 hs Nat.one_pos (by omega) rfl) (h _)
      · exact absurd (Step.sent hs hlt) (h _)
  have hn : c.receiving.n ≠ 0 := by
    intro hn
    cases hph : c.phase with
    | length =>
      cases hd : w.deserializeLength c.receiving.buffer with
      | none => exact h _ (Step.invalid hph hn hd)
      | some sz => exact h _ (Step.length hph hn hd)
    | message => exact h _ (Step.message hph hn)
  refine ⟨?_, ?_, ?_, hn⟩
  · cases hp : c.pending with
    | nil => rfl
    | cons m ms => exact absurd (Step.start hp hsending) (h _)
  · unfold Connection.unsent
    rw [hsending]
    rfl
  · by_contra hne
    exact h _ (Step.recv 1 Nat.one_pos (Nat.one_le_iff_ne_zero.mpr hn) (List.length_pos_of_ne_nil hne) rfl)

/-- Where no step is left, all messages were received. -/
theorem received_of_stuck (hw : w.Documented) (hi : Inv w ms c) (h : ∀ c', ¬ Step w c c') :
    c.received = ms.map (some ∘ w.serialize) := by
  obtain ⟨hpending, hunsent, hchannel, hn⟩ := nothing_left h
  obtain ⟨todo, hms, hstream⟩ := hi.stream
  rw [hpending, hunsent, hchannel, List.flatMap_nil, List.append_nil, List.append_nil, List.append_nil] at hstream
  have hfits := hi.fits
  have hfilled : c.receiving.filled.length = c.receiving.buffer.length - c.receiving.n := Receiving.filled_length
  unfold Connection.got at hstream
  cases hph : c.phase with
  | length =>
    rw [hph] at hstream
    have hlen := hi.length hph
    cases todo with
    | nil => simpa using hms
    | cons m todo' =>
      -- there are fewer octets than a length has
      have hlength := congrArg List.length hstream
      simp only [List.flatMap_cons, Wire.sendBuffer, List.length_append, hw.length, hfilled] at hlength
      omega
  | message =>
    rw [hph] at hstream
    obtain ⟨m, todo', -, hhead, hrest⟩ := exists_next hw (hw.length _) hstream
    have hdec := congrArg w.deserializeLength hhead
    rw [hw.roundTrip _ (hi.message hph), hw.roundTrip _ (hw.fits m), Option.some_inj, hw.serialSize] at hdec
    -- there are fewer octets than the message has
    have hlength := congrArg List.length hrest
    simp only [List.length_append, hfilled] at hlength
    omega

variable (w) in
/-- What is still to do: an octet that is sent counts less than one that is not, and one that is received nothing. -/
def Connection.todo (c : Connection M) : ℕ :=
  (c.pending.map fun m => 4 * (w.sendBuffer m).length + 2).sum +
    c.sending.elim 0 (fun st => 4 * st.left.length + 1) + 3 * c.channel.length +
    match c.phase with
    | .length => if c.receiving.n = 0 then 2 else 0
    | .message => 1

theorem step_todo (hs : Step w c c') : c'.todo w < c.todo w := by
  cases hs with
  | start hp hs =>
    simp only [Connection.todo, hp, hs, Sending.left, List.map_cons, List.sum_cons, Option.elim_some, Option.elim_none,
      List.drop_zero]
    omega
  | send cur hs hpos hcur ht =>
    cases ht
    simp only [Connection.todo, hs, Sending.left, Option.elim_some, List.length_append, List.length_take,
      List.length_drop]
    omega
  | sent hs hdone =>
    simp only [Connection.todo, hs, Option.elim_some, Option.elim_none]
    omega
  | recv k hpos hn hk ht =>
    cases hph : c.phase with
    | length =>
      simp only [Connection.todo, hph, List.length_drop]
      split <;> split <;> omega
    | message =>
      simp only [Connection.todo, hph, List.length_drop]
      omega
  | length hph hn hd =>
    simp only [Connection.todo, hph, hn, if_true]
    omega
  | invalid hph hn hd =>
    simp only [Connection.todo, hph, hn, if_true, Receiving.fresh, OfNat.ofNat_ne_zero, if_false]
    omega
  | message hph hn =>
    simp only [Connection.todo, hph, Receiving.fresh, OfNat.ofNat_ne_zero, if_false]
    omega

/-- What was received are the octets of the first messages. -/
theorem Inv.received_eq (hi : Inv w ms c) : c.received = (ms.take c.received.length).map (some ∘ w.serialize) := by
  obtain ⟨todo, hms, -⟩ := hi.stream
  rw [List.map_take, ← hms, List.take_left]

theorem step_received (hs : Step w c c') : c'.received.length ≤ c.received.length + 1 := by
  cases hs with
  | invalid => exact (List.length_append).le
  | message => exact (List.length_append).le
  | _ => exact Nat.le_succ _

/-- A run goes on until `k` messages are received. -/
theorem exists_received_from (hw : w.Documented) {k : ℕ} (hk : k ≤ ms.length) (hs : Steps w { pending := ms } c)
    (hle : c.received.length ≤ k) : ∃ c', Steps w { pending := ms } c' ∧ c'.received.length = k := by
  induction hn : c.todo w using Nat.strong_induction_on generalizing c with
  | _ n ih =>
    obtain heq | hlt := hle.eq_or_lt
    · exact ⟨c, hs, heq⟩
    · by_cases hstuck : ∀ c', ¬ Step w c c'
      · have hall := congrArg List.length (received_of_stuck hw (steps_inv hw hs) hstuck)
        rw [List.length_map] at hall
        omega
      · push Not at hstuck
        obtain ⟨c', hc⟩ := hstuck
        exact ih (c'.todo w) (hn ▸ step_todo hc) (hs.tail hc) ((step_received hc).trans hlt) rfl

/-- There is a run in which the first `k` messages are received, and no others. -/
theorem exists_received (hw : w.Documented) {k : ℕ} (hk : k ≤ ms.length) :
    ∃ c, Steps w { pending := ms } c ∧ c.received.length = k :=
  exists_received_from hw hk .refl (Nat.zero_le k)

/-- **Every message is received, as it was sent and in order**: in any state that is reached the first messages are
received, there is no run without an end, and where it ends all of them are. -/
theorem receives_all (hw : w.Documented) (ms : List M) :
    (∀ c, Steps w { pending := ms } c → c.received <+: ms.map (some ∘ w.serialize) ∧
      ((∀ c', ¬ Step w c c') → c.received = ms.map (some ∘ w.serialize))) ∧
    WellFounded fun c' c => Step w c c' := by
  constructor
  · intro c hs
    have hi := steps_inv hw hs
    obtain ⟨todo, hms, -⟩ := hi.stream
    exact ⟨⟨_, hms⟩, received_of_stuck hw hi⟩
  · exact Subrelation.wf step_todo (measure (Connection.todo w)).wf

end Connection

/-! ### Messages of one octet -/

/-- A message is one octet, and a length is written with its highest octet first. -/
def oneOctet : Wire UInt8 where
  serialize b := [b]
  serialSize _ := 1
  serializeLength := Codec.octets 8
  deserializeLength buf := some (Codec.number buf)

theorem oneOctet_documented : oneOctet.Documented where
  serialSize _ := rfl
  fits _ := Nat.one_lt_two_pow (by decide)
  length := Codec.octets_length 8
  roundTrip _ hn := congrArg some (Codec.number_octets (hn.trans_eq (by decide)))

theorem receives_all_oneOctet :
    (∀ c, Steps oneOctet { pending := [1, 2] } c → c.received <+: [some [1], some [2]] ∧
      ((∀ c', ¬ Step oneOctet c c') → c.received = [some [1], some [2]])) ∧
    WellFounded fun c' c => Step oneOctet c c' :=
  receives_all oneOctet_documented [1, 2]

end Mashroom.Network
