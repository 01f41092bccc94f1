import Mathlib.Data.Finset.Insert
import Mathlib.Data.Finset.Erase
import Mashroom.Lib.Runs
import Mashroom.Lib.Shared

/-!
# Network.Socket — who closes a descriptor

A socket shares its descriptor with its copies through a `std::shared_ptr`.  The destructor closes the descriptor with
the last share; the assignments close the descriptor of the socket that is assigned whether it is shared or not
(`owned_iff_safe`).
-/

namespace Mashroom.Network

/-- What `socket_` points to: the `int` that `std::make_shared` made, known by the number of the socket it was made
for. -/
structure Block where
  id : ℕ
  fd : ℤ
  deriving DecidableEq

/-- The sockets, each with its `socket_`, and the descriptors of the system. -/
structure Sockets where
  objs : Objects Block := []
  opened : Finset ℤ := ∅
  /-- a descriptor was closed that was not open -/
  misclosed : Bool := false

namespace Sockets

/-- `__descriptor__()` -/
def descriptor (socket : Option Block) : ℤ := (socket.map Block.fd).getD (-1)

/-- `::close(fd)`, which does nothing to a number that is no descriptor. -/
def close (s : Sockets) (fd : ℤ) : Sockets where
  objs := s.objs
  opened := s.opened.erase fd
  misclosed := s.misclosed || decide (0 ≤ fd ∧ fd ∉ s.opened)

/-- The `socket_` of a socket is set. -/
def setSocket (s : Sockets) (i : ℕ) (socket : Option Block) : Sockets := { s with objs := s.objs.set i (some socket) }

/-! ## The members -/

/-- `Socket(raw_socket_id,…)`, of a number that the system gives for a new descriptor or `-1`. -/
def construct (s : Sockets) (fd : ℤ) : Sockets :=
  { s with
    objs := s.objs ++ [some (some { id := s.objs.length, fd })]
    opened := if 0 ≤ fd then insert fd s.opened else s.opened }

/-- `operator=(const Socket&)`, of sockets that have the given `socket_`s. -/
def copyAssign (s : Sockets) (i : ℕ) (this other : Option Block) : Sockets :=
  if descriptor other = descriptor this then s.setSocket i other
  else (s.close (descriptor this)).setSocket i other

/-- `operator=(Socket&&)` -/
def moveAssign (s : Sockets) (i j : ℕ) (this other : Option Block) : Sockets :=
  if descriptor other ≠ descriptor this then
    ((s.close (descriptor this)).setSocket j none).setSocket i other
  else s

/-- `~Socket()` -/
def destroy (s : Sockets) (i : ℕ) (this : Option Block) : Sockets :=
  let s' : Sockets :=
    match this with
    | some b => if s.objs.useCount b ≤ 1 then s.close (descriptor this) else s
    | none => s
  { s' with objs := s'.objs.set i none }

/-- What is done with sockets.  The constructors make the next socket. -/
inductive Op where
  | construct (fd : ℤ)
  | default
  | copyConstruct (j : ℕ)
  | moveConstruct (j : ℕ)
  | copyAssign (i j : ℕ)
  | moveAssign (i j : ℕ)
  | destroy (i : ℕ)

/-- A socket without a descriptor is made. -/
def default (s : Sockets) : Sockets := { s with objs := s.objs ++ [some none] }

/-- One operation, of sockets that exist.  Copying and moving to a new socket is assigning to one without a
descriptor. -/
def step (s : Sockets) : Op → Option Sockets
  | .construct fd => if fd = -1 ∨ 0 ≤ fd ∧ fd ∉ s.opened then some (s.construct fd) else none
  | .default => some s.default
  | .copyConstruct j => s.objs[j]?.join.map fun other => s.default.copyAssign s.objs.length none other
  | .moveConstruct j => s.objs[j]?.join.map fun other => s.default.moveAssign s.objs.length j none other
  | .copyAssign i j => s.objs[i]?.join.bind fun this => s.objs[j]?.join.map fun other => s.copyAssign i this other
  | .moveAssign i j => s.objs[i]?.join.bind fun this => s.objs[j]?.join.map fun other => s.moveAssign i j this other
  | .destroy i => s.objs[i]?.join.map fun this => s.destroy i this

/-! ## Ownership -/

/-- A socket refers to the descriptor. -/
def Refers (s : Sockets) (fd : ℤ) : Prop := ∃ i b, s.objs.Holds i b ∧ b.fd = fd

/-- The descriptors that are open are those that a socket refers to, and each was closed once at most. -/
structure Owned (s : Sockets) : Prop where
  opened : ∀ fd, 0 ≤ fd → (fd ∈ s.opened ↔ s.Refers fd)
  once : s.misclosed = false

/-- What the operations rest on: a descriptor is that of one block. -/
structure Sound (s : Sockets) : Prop extends s.Owned where
  block : ∀ i j b b', s.objs.Holds i b → s.objs.Holds j b' → b.fd = b'.fd → 0 ≤ b.fd → b = b'

/-- Assigning a socket of another descriptor to a socket is safe when its own descriptor is not shared. -/
def SafeAssign (s : Sockets) (this other : Option Block) : Prop :=
  descriptor other = descriptor this ∨ descriptor this < 0 ∨ ∀ b ∈ this, s.objs.useCount b ≤ 1

/-- The operations that keep the ownership. -/
def Safe (s : Sockets) : Op → Prop
  | .copyAssign i j | .moveAssign i j =>
    ∀ this other, s.objs[i]?.join = some this → s.objs[j]?.join = some other → s.SafeAssign this other
  | .construct _ | .default | .copyConstruct _ | .moveConstruct _ | .destroy _ => True

section Lemmas

variable {s : Sockets} {i j : ℕ} {b : Block} {socket this other : Option Block}

theorem holds_of_join (h : s.objs[i]?.join = some (some b)) : s.objs.Holds i b := Option.join_eq_some_iff.mp h

theorem lt_of_join (h : s.objs[i]?.join = some socket) : i < s.objs.length := by
  by_contra hi
  rw [List.getElem?_eq_none (by omega)] at h
  cases h

theorem descriptor_eq_iff {fd : ℤ} (h : 0 ≤ fd) : descriptor socket = fd ↔ ∃ b ∈ socket, b.fd = fd := by
  cases socket with
  | none =>
    refine iff_of_false ?_ (by simp)
    show ¬ (-1 : ℤ) = fd
    omega
  | some b => simp [descriptor]

/-- Other sockets than `i` refer to the descriptor. -/
def RefersElsewhere (s : Sockets) (i : ℕ) (fd : ℤ) : Prop := ∃ k b, k ≠ i ∧ s.objs.Holds k b ∧ b.fd = fd

theorem refers_iff (hi : s.objs[i]?.join = some this) {fd : ℤ} (h : 0 ≤ fd) :
    s.Refers fd ↔ descriptor this = fd ∨ s.RefersElsewhere i fd := by
  rw [descriptor_eq_iff h]
  constructor
  · rintro ⟨k, b, hk, hfd⟩
    by_cases hne : k = i
    · subst hne
      have hthis : some (some b) = some this := by rw [← hi, show s.objs[k]? = some (some (some b)) from hk]; rfl
      exact .inl ⟨b, (Option.some.inj hthis).symm, hfd⟩
    · exact .inr ⟨k, b, hne, hk, hfd⟩
  · rintro (⟨b, rfl, hfd⟩ | ⟨k, b, -, hk, hfd⟩)
    · exact ⟨i, b, holds_of_join hi, hfd⟩
    · exact ⟨k, b, hk, hfd⟩

/-- The references after a socket is set. -/
theorem refers_setSocket (hi : i < s.objs.length) {fd : ℤ} (h : 0 ≤ fd) :
    (s.setSocket i socket).Refers fd ↔ descriptor socket = fd ∨ s.RefersElsewhere i fd := by
  have hjoin : (s.setSocket i socket).objs[i]?.join = some socket := by
    show (s.objs.set i (some socket))[i]?.join = some socket
    rw [List.getElem?_set_self hi]
    rfl
  have helse : (s.setSocket i socket).RefersElsewhere i fd ↔ s.RefersElsewhere i fd := by
    constructor
    · rintro ⟨k, b, hne, hk, hfd⟩
      exact ⟨k, b, hne, (Objects.holds_set_ne hne).mp hk, hfd⟩
    · rintro ⟨k, b, hne, hk, hfd⟩
      exact ⟨k, b, hne, (Objects.holds_set_ne hne).mpr hk, hfd⟩
  rw [refers_iff hjoin h, helse]

/-- The use count is above one when others refer to the descriptor. -/
theorem Sound.useCount_le_one_iff (hs : s.Sound) (hi : s.objs.Holds i b) (h : 0 ≤ b.fd) :
    s.objs.useCount b ≤ 1 ↔ ¬ s.RefersElsewhere i b.fd := by
  rw [Objects.useCount_le_one_iff hi]
  constructor
  · rintro hall ⟨k, b', hne, hk, hfd⟩
    obtain rfl := hs.block i k b b' hi hk hfd.symm h
    exact hne (hall k hk)
  · intro hnone k hk
    by_contra hne
    exact hnone ⟨k, b, hne, hk, rfl⟩

theorem Sound.safeAssign_iff (hs : s.Sound) (hi : s.objs[i]?.join = some this)
    (hne : descriptor other ≠ descriptor this) :
    s.SafeAssign this other ↔ (0 ≤ descriptor this → ¬ s.RefersElsewhere i (descriptor this)) := by
  unfold SafeAssign
  rw [or_iff_right hne]
  cases this with
  | none => exact iff_of_true (.inl (by decide)) fun h => absurd h (by decide)
  | some b =>
    have hb := holds_of_join hi
    have hfd : descriptor (some b) = b.fd := rfl
    rw [hfd]
    by_cases h : 0 ≤ b.fd
    · simp [← hs.useCount_le_one_iff hb h, h]
    · exact iff_of_true (.inl (by omega)) fun h' => absurd h' h

/-! ### What an operation closes -/

/-- A state whose references are those of `s` without socket `i`, and `other`, and in which the descriptor of `i` was
closed. -/
structure Reassigned (s : Sockets) (i : ℕ) (this other : Option Block) (s' : Sockets) : Prop where
  refers : ∀ fd, 0 ≤ fd → (s'.Refers fd ↔ descriptor other = fd ∨ s.RefersElsewhere i fd)
  opened : s'.opened = s.opened.erase (descriptor this)
  misclosed : s'.misclosed = (s.misclosed || decide (0 ≤ descriptor this ∧ descriptor this ∉ s.opened))

/-- The ownership is kept when the descriptor that is closed was not shared. -/
theorem Reassigned.owned_iff {s' : Sockets} (h : s.Reassigned i this other s') (hs : s.Sound)
    (hi : s.objs[i]?.join = some this) (hother : 0 ≤ descriptor other → descriptor other ∈ s.opened)
    (hne : descriptor other ≠ descriptor this) :
    s'.Owned ↔ (0 ≤ descriptor this → ¬ s.RefersElsewhere i (descriptor this)) := by
  constructor
  · intro ho hnonneg helse
    have hopen := (ho.opened _ hnonneg).mpr ((h.refers _ hnonneg).mpr (.inr helse))
    rw [h.opened] at hopen
    exact Finset.notMem_erase _ _ hopen
  · intro hnot
    refine ⟨fun fd hfd => ?_, ?_⟩
    · rw [h.opened, h.refers fd hfd, Finset.mem_erase, hs.opened fd hfd, refers_iff hi hfd]
      constructor
      · rintro ⟨hfdne, hthis | helse⟩
        · exact absurd hthis.symm hfdne
        · exact .inr helse
      · rintro (rfl | helse)
        · exact ⟨hne, (refers_iff hi hfd).mp ((hs.opened _ hfd).mp (hother hfd))⟩
        · refine ⟨?_, .inr helse⟩
          rintro rfl
          exact hnot hfd helse
    · have hopen : 0 ≤ descriptor this → descriptor this ∈ s.opened := fun hnonneg =>
        (hs.opened _ hnonneg).mpr ((refers_iff hi hnonneg).mpr (.inl rfl))
      rw [h.misclosed, hs.once, Bool.false_or, decide_eq_false_iff_not]
      rintro ⟨hnonneg, hclosed⟩
      exact hclosed (hopen hnonneg)

theorem opened_of_join (hs : s.Sound) (hj : s.objs[j]?.join = some other) (h : 0 ≤ descriptor other) :
    descriptor other ∈ s.opened :=
  (hs.opened _ h).mpr ((refers_iff hj h).mpr (.inl rfl))

theorem copyAssign_reassigned (hi : s.objs[i]?.join = some this) (hne : descriptor other ≠ descriptor this) :
    s.Reassigned i this other (s.copyAssign i this other) := by
  rw [copyAssign, if_neg hne]
  exact ⟨fun fd hfd => refers_setSocket (s := s.close (descriptor this)) (lt_of_join hi) hfd, rfl, rfl⟩

theorem moveAssign_reassigned (hi : s.objs[i]?.join = some this) (hj : s.objs[j]?.join = some other)
    (hne : descriptor other ≠ descriptor this) : s.Reassigned i this other (s.moveAssign i j this other) := by
  have hij : j ≠ i := by
    rintro rfl
    rw [hi] at hj
    exact hne (congrArg descriptor (Option.some.inj hj).symm)
  rw [moveAssign, if_pos hne]
  refine ⟨fun fd hfd => ?_, rfl, rfl⟩
  have hlen : i < ((s.close (descriptor this)).setSocket j none).objs.length := by
    show i < (s.objs.set j (some none)).length
    rw [List.length_set]
    exact lt_of_join hi
  rw [refers_setSocket hlen hfd]
  -- what `j` referred to is what `i` refers to
  constructor
  · rintro (hother | ⟨k, b, hk, hb, hfd⟩)
    · exact .inl hother
    · by_cases hkj : k = j
      · subst hkj
        exact absurd ((Objects.holds_set_self (lt_of_join hj)).mp hb) (by simp)
      · exact .inr ⟨k, b, hk, (Objects.holds_set_ne hkj).mp hb, hfd⟩
  · rintro (hother | ⟨k, b, hk, hb, hbfd⟩)
    · exact .inl hother
    · by_cases hkj : k = j
      · subst hkj
        have hsome : some (some b) = some other := by rw [← hj, show s.objs[k]? = some (some (some b)) from hb]; rfl
        obtain rfl := Option.some.inj hsome
        exact .inl hbfd
      · exact .inr ⟨k, b, hk, (Objects.holds_set_ne hkj).mpr hb, hbfd⟩

/-- A socket is given a block of the same descriptor. -/
theorem copyAssign_same (hs : s.Sound) (hi : s.objs[i]?.join = some this)
    (heq : descriptor other = descriptor this) : (s.copyAssign i this other).Owned := by
  rw [copyAssign, if_pos heq]
  refine ⟨fun fd hfd => ?_, hs.once⟩
  rw [refers_setSocket (lt_of_join hi) hfd, heq, ← refers_iff hi hfd]
  exact hs.opened fd hfd

/-! ### The invariant -/

/-- A state whose sockets hold what sockets held before. -/
theorem Sound.of_holds {s' : Sockets} (hs : s.Sound) (ho : s'.Owned)
    (h : ∀ k b, s'.objs.Holds k b → ∃ k', s.objs.Holds k' b) : s'.Sound where
  toOwned := ho
  block k l b b' hk hl hfd hnonneg := by
    obtain ⟨k', hk'⟩ := h k b hk
    obtain ⟨l', hl'⟩ := h l b' hl
    exact hs.block k' l' b b' hk' hl' hfd hnonneg

theorem setSocket_holds (hi : i < s.objs.length) {k : ℕ} (h : (s.setSocket i socket).objs.Holds k b) :
    socket = some b ∨ s.objs.Holds k b := by
  by_cases hk : k = i
  · subst hk
    exact .inl (Option.some.inj ((Objects.holds_set_self hi).mp h))
  · exact .inr ((Objects.holds_set_ne hk).mp h)

theorem copyAssign_holds (hi : s.objs[i]?.join = some this) (hother : ∀ b ∈ other, ∃ k, s.objs.Holds k b) (k : ℕ)
    (b : Block) (h : (s.copyAssign i this other).objs.Holds k b) : ∃ k', s.objs.Holds k' b := by
  unfold copyAssign at h
  split at h
  · obtain rfl | h := setSocket_holds (lt_of_join hi) h
    · exact hother b rfl
    · exact ⟨k, h⟩
  · obtain rfl | h := setSocket_holds (s := s.close (descriptor this)) (lt_of_join hi) h
    · exact hother b rfl
    · exact ⟨k, h⟩

theorem moveAssign_holds (hi : s.objs[i]?.join = some this) (hj : s.objs[j]?.join = some other) (k : ℕ)
    (b : Block) (h : (s.moveAssign i j this other).objs.Holds k b) : ∃ k', s.objs.Holds k' b := by
  unfold moveAssign at h
  split at h
  · obtain rfl | h := setSocket_holds (by simpa [setSocket, close] using lt_of_join hi) h
    · exact ⟨j, holds_of_join hj⟩
    · obtain h0 | h := setSocket_holds (s := s.close (descriptor this)) (lt_of_join hj) h
      · cases h0
      · exact ⟨k, h⟩
  · exact ⟨k, h⟩

theorem owned_copyAssign_iff (hs : s.Sound) (hi : s.objs[i]?.join = some this) (hj : s.objs[j]?.join = some other) :
    (s.copyAssign i this other).Owned ↔ s.SafeAssign this other := by
  by_cases heq : descriptor other = descriptor this
  · exact iff_of_true (copyAssign_same hs hi heq) (.inl heq)
  · rw [(copyAssign_reassigned hi heq).owned_iff hs hi (opened_of_join hs hj) heq, hs.safeAssign_iff hi heq]

theorem owned_moveAssign_iff (hs : s.Sound) (hi : s.objs[i]?.join = some this) (hj : s.objs[j]?.join = some other) :
    (s.moveAssign i j this other).Owned ↔ s.SafeAssign this other := by
  by_cases heq : descriptor other = descriptor this
  · rw [moveAssign, if_neg (not_not.mpr heq)]
    exact iff_of_true hs.toOwned (.inl heq)
  · rw [(moveAssign_reassigned hi hj heq).owned_iff hs hi (opened_of_join hs hj) heq, hs.safeAssign_iff hi heq]

/-! ### New sockets, and destroyed ones -/

theorem construct_sound (hs : s.Sound) {fd : ℤ} (h : fd = -1 ∨ 0 ≤ fd ∧ fd ∉ s.opened) : (s.construct fd).Sound := by
  have hrefers : ∀ fd', (s.construct fd).Refers fd' ↔ s.Refers fd' ∨ fd = fd' := by
    intro fd'
    constructor
    · rintro ⟨k, b, hk, hfd⟩
      obtain hk | ⟨-, hb⟩ := Objects.holds_concat.mp hk
      · exact .inl ⟨k, b, hk, hfd⟩
      · obtain rfl := Option.some.inj (Option.some.inj hb)
        exact .inr hfd
    · rintro (⟨k, b, hk, hfd⟩ | rfl)
      · exact ⟨k, b, Objects.holds_concat.mpr (.inl hk), hfd⟩
      · exact ⟨s.objs.length, { id := s.objs.length, fd }, Objects.holds_concat.mpr (.inr ⟨rfl, rfl⟩), rfl⟩
  refine ⟨⟨fun fd' hfd' => ?_, hs.once⟩, fun k l b b' hk hl hfd hnonneg => ?_⟩
  · rw [hrefers, ← hs.opened fd' hfd']
    show fd' ∈ (if 0 ≤ fd then insert fd s.opened else s.opened) ↔ _
    split
    · rw [Finset.mem_insert, or_comm, eq_comm]
    · rename_i hneg
      have hne : fd ≠ fd' := by omega
      simp [hne]
  · -- the new descriptor is not that of a socket before
    have hnew : ∀ {k b}, s.objs.Holds k b → 0 ≤ b.fd → b.fd ≠ fd := by
      intro m c hm hc heq
      obtain hneg | ⟨-, hnot⟩ := h
      · omega
      · exact hnot ((hs.opened _ (heq ▸ hc)).mpr ⟨m, c, hm, heq⟩)
    obtain hk | ⟨-, hb⟩ := Objects.holds_concat.mp hk
    · obtain hl | ⟨-, hb'⟩ := Objects.holds_concat.mp hl
      · exact hs.block k l b b' hk hl hfd hnonneg
      · obtain rfl := Option.some.inj (Option.some.inj hb')
        exact absurd hfd (hnew hk hnonneg)
    · obtain rfl := Option.some.inj (Option.some.inj hb)
      obtain hl | ⟨-, hb'⟩ := Objects.holds_concat.mp hl
      · exact absurd hfd.symm (hnew hl (hfd ▸ hnonneg))
      · exact Option.some.inj (Option.some.inj hb')

theorem default_sound (hs : s.Sound) : s.default.Sound := by
  have hholds : ∀ k b, s.default.objs.Holds k b ↔ s.objs.Holds k b := fun k b =>
    Objects.holds_concat.trans (or_iff_left (by simp))
  have hrefers : ∀ fd, s.default.Refers fd ↔ s.Refers fd := fun fd =>
    exists₂_congr fun k b => and_congr_left' (hholds k b)
  refine hs.of_holds ⟨fun fd hfd => ?_, hs.once⟩ fun k b hk => ⟨k, (hholds k b).mp hk⟩
  rw [hrefers]
  exact hs.opened fd hfd

theorem default_join (hj : s.objs[j]?.join = some other) : s.default.objs[j]?.join = some other := by
  show (s.objs ++ [some none])[j]?.join = some other
  rw [List.getElem?_append_left (lt_of_join hj), hj]

theorem default_join_new : s.default.objs[s.objs.length]?.join = some none := by
  show (s.objs ++ [some none])[s.objs.length]?.join = some none
  simp

/-- A state whose references are those of `s` without socket `i`, where the descriptor of `i` is closed unless others
refer to it. -/
theorem sound_of_destroyed {s' : Sockets} (hs : s.Sound) (hi : s.objs[i]?.join = some this)
    (hobjs : s'.objs = s.objs.set i none) (hmis : s'.misclosed = false)
    (hopened : ∀ fd, 0 ≤ fd → (fd ∈ s'.opened ↔
      fd ∈ s.opened ∧ (descriptor this = fd → s.RefersElsewhere i fd))) : s'.Sound := by
  have hi' := lt_of_join hi
  have hholds : ∀ k b, s'.objs.Holds k b ↔ k ≠ i ∧ s.objs.Holds k b := by
    intro k b
    rw [hobjs]
    by_cases hk : k = i
    · subst hk
      refine iff_of_false (fun h => ?_) fun h => h.1 rfl
      exact absurd ((Objects.holds_set_self hi').mp h) (by simp)
    · rw [Objects.holds_set_ne hk]
      exact ⟨fun h => ⟨hk, h⟩, fun h => h.2⟩
  refine hs.of_holds ⟨fun fd hfd => ?_, hmis⟩ fun k b hk => ⟨k, ((hholds k b).mp hk).2⟩
  have hrefers : s'.Refers fd ↔ s.RefersElsewhere i fd := by
    refine exists₂_congr fun k b => ?_
    rw [hholds, and_assoc]
  rw [hopened fd hfd, hrefers, hs.opened fd hfd, refers_iff hi hfd]
  tauto

theorem destroy_sound (hs : s.Sound) (hi : s.objs[i]?.join = some this) : (s.destroy i this).Sound := by
  cases this with
  | none =>
    refine sound_of_destroyed hs hi rfl hs.once fun fd hfd => ?_
    have hne : descriptor none ≠ fd := by
      rintro rfl
      exact absurd hfd (by decide)
    simp [destroy, hne]
  | some b =>
    have hb := holds_of_join hi
    by_cases hcount : s.objs.useCount b ≤ 1
    · have hobjs : (s.destroy i (some b)).objs = s.objs.set i none := by
        simp only [destroy, if_pos hcount]
        rfl
      have hclosed : (s.destroy i (some b)).opened = s.opened.erase b.fd := by
        simp only [destroy, if_pos hcount]
        rfl
      have hmis : (s.destroy i (some b)).misclosed = false := by
        have hopen : 0 ≤ b.fd → b.fd ∈ s.opened := fun h => (hs.opened _ h).mpr ⟨i, b, hb, rfl⟩
        simp only [destroy, if_pos hcount]
        show (s.misclosed || decide (0 ≤ b.fd ∧ b.fd ∉ s.opened)) = false
        rw [hs.once, Bool.false_or, decide_eq_false_iff_not]
        rintro ⟨h, hnot⟩
        exact hnot (hopen h)
      refine sound_of_destroyed hs hi hobjs hmis fun fd hfd => ?_
      rw [hclosed, Finset.mem_erase]
      constructor
      · rintro ⟨hne, hmem⟩
        exact ⟨hmem, fun heq => absurd heq.symm hne⟩
      · rintro ⟨hmem, helse⟩
        refine ⟨?_, hmem⟩
        rintro rfl
        exact (hs.useCount_le_one_iff hb hfd).mp hcount (helse rfl)
    · have hdestroy : s.destroy i (some b) = { s with objs := s.objs.set i none } := by
        simp only [destroy, if_neg hcount]
      rw [hdestroy]
      refine sound_of_destroyed hs hi rfl hs.once fun fd hfd => ?_
      refine ⟨fun hmem => ⟨hmem, ?_⟩, fun h => h.1⟩
      rintro rfl
      by_contra helse
      exact hcount ((hs.useCount_le_one_iff hb hfd).mpr helse)

/-! ### The steps -/

/-- An operation keeps the ownership exactly when it is safe. -/
theorem owned_step_iff {op : Op} {s' : Sockets} (hs : s.Sound) (h : s.step op = some s') : s'.Owned ↔ s.Safe op := by
  cases op with
  | construct fd =>
    obtain ⟨hfd, rfl⟩ := Runs.guard_eq_some h
    exact iff_of_true (construct_sound hs hfd).toOwned trivial
  | default =>
    obtain rfl := Option.some.inj h
    exact iff_of_true (default_sound hs).toOwned trivial
  | copyConstruct j =>
    obtain ⟨other, hj, rfl⟩ := Option.map_eq_some_iff.mp h
    refine iff_of_true ?_ trivial
    rw [owned_copyAssign_iff (default_sound hs) default_join_new (default_join hj)]
    exact .inr (.inl (by decide))
  | moveConstruct j =>
    obtain ⟨other, hj, rfl⟩ := Option.map_eq_some_iff.mp h
    refine iff_of_true ?_ trivial
    rw [owned_moveAssign_iff (default_sound hs) default_join_new (default_join hj)]
    exact .inr (.inl (by decide))
  | copyAssign i j =>
    obtain ⟨this, hi, h⟩ := Option.bind_eq_some_iff.mp h
    obtain ⟨other, hj, rfl⟩ := Option.map_eq_some_iff.mp h
    rw [owned_copyAssign_iff hs hi hj]
    simp [Safe, hi, hj]
  | moveAssign i j =>
    obtain ⟨this, hi, h⟩ := Option.bind_eq_some_iff.mp h
    obtain ⟨other, hj, rfl⟩ := Option.map_eq_some_iff.mp h
    rw [owned_moveAssign_iff hs hi hj]
    simp [Safe, hi, hj]
  | destroy i =>
    obtain ⟨this, hi, rfl⟩ := Option.map_eq_some_iff.mp h
    exact iff_of_true (destroy_sound hs hi).toOwned trivial

theorem Sound.step {op : Op} {s' : Sockets} (hs : s.Sound) (hsafe : s.Safe op) (h : s.step op = some s') :
    s'.Sound := by
  have ho := (owned_step_iff hs h).mpr hsafe
  cases op with
  | construct fd =>
    obtain ⟨hfd, rfl⟩ := Runs.guard_eq_some h
    exact construct_sound hs hfd
  | default =>
    obtain rfl := Option.some.inj h
    exact default_sound hs
  | copyConstruct j =>
    obtain ⟨other, hj, rfl⟩ := Option.map_eq_some_iff.mp h
    exact (default_sound hs).of_holds ho (copyAssign_holds default_join_new fun b hb =>
      ⟨j, holds_of_join (hb ▸ default_join hj)⟩)
  | moveConstruct j =>
    obtain ⟨other, hj, rfl⟩ := Option.map_eq_some_iff.mp h
    exact (default_sound hs).of_holds ho (moveAssign_holds default_join_new (default_join hj))
  | copyAssign i j =>
    obtain ⟨this, hi, h⟩ := Option.bind_eq_some_iff.mp h
    obtain ⟨other, hj, rfl⟩ := Option.map_eq_some_iff.mp h
    exact hs.of_holds ho (copyAssign_holds hi fun b hb => ⟨j, holds_of_join (hb ▸ hj)⟩)
  | moveAssign i j =>
    obtain ⟨this, hi, h⟩ := Option.bind_eq_some_iff.mp h
    obtain ⟨other, hj, rfl⟩ := Option.map_eq_some_iff.mp h
    exact hs.of_holds ho (moveAssign_holds hi hj)
  | destroy i =>
    obtain ⟨this, hi, rfl⟩ := Option.map_eq_some_iff.mp h
    exact destroy_sound hs hi

end Lemmas

/-- **Who owns a descriptor**: after every operation of a run the open descriptors are those that a socket refers to,
and none was closed twice, exactly when no socket is assigned one of another descriptor while its own is shared. -/
theorem owned_iff_safe (ops : List Op) :
    Runs.Each step (fun _ _ s' => s'.Owned) {} ops ↔ Runs.Meets step Safe {} ops := by
  refine @Runs.each_iff_meets _ _ step (fun _ _ s' => s'.Owned) Safe Sound (fun _ _ _ hs h => owned_step_iff hs h)
    (fun _ _ _ hs hsafe h => hs.step hsafe h) {} ?_ ops
  refine ⟨⟨fun fd _ => ?_, rfl⟩, fun i j b b' hb _ _ _ => absurd hb.lt (by simp)⟩
  refine iff_of_false (Finset.notMem_empty fd) ?_
  rintro ⟨i, b, hb, -⟩
  exact absurd hb.lt (by simp)

/-- A socket whose copy is assigned an empty socket refers to a descriptor that is closed. -/
theorem not_owned :
    ¬ Runs.Each step (fun _ _ s' => s'.Owned) {} [.construct 5, .copyConstruct 0, .default, .copyAssign 1 2] := by
  intro h
  have ho := ((((h _ rfl).2 _ rfl).2 _ rfl).2 _ rfl).1
  have hopen := (ho.opened 5 (by decide)).mpr ⟨0, { id := 0, fd := 5 }, rfl, rfl⟩
  exact absurd hopen (by decide)

end Sockets

end Mashroom.Network
