import Mathlib.Data.Int.Basic
import Mathlib.Data.List.Forall2
import Mashroom.Lib.Octets

/-!
# Mapped — a file mapped into memory, and what can go wrong when it is read

The decoder reads a `mmap`ed file through raw pointers.  A pointer into the mapping is its offset from the
first octet, and every read is checked here: the result of the code is `.error` where C++ gives the read, or
what is done with it, no meaning.
-/

namespace Mashroom

/-- Why a run of the code has no result. -/
inductive Fault where
  /-- a read outside the mapped file -/
  | outside
  /-- a read through a null pointer -/
  | null
  /-- a read through a pointer whose object is destroyed -/
  | dangling
  /-- a computation or a branch on a value that was never initialised -/
  | indeterminate
  /-- a signed overflow, a shift that is too far, a division by zero or a conversion out of range -/
  | arithmetic
  /-- an element access past the end of a container -/
  | element
  /-- an exception that leaves the function -/
  | exception
  /-- the end of a function that should have returned a value -/
  | noReturn
  /-- `exit(1)` -/
  | exit
  deriving DecidableEq

section Bind

variable {ε α β : Type}

@[simp] theorem ok_bind (a : α) (g : α → Except ε β) : (Except.ok a >>= g) = g a := rfl

@[simp] theorem pure_eq_ok (a : α) : (pure a : Except ε α) = .ok a := rfl

@[simp] theorem error_bind (e : ε) (g : α → Except ε β) : (Except.error e >>= g) = .error e := rfl

/-- A computation in two steps has a result when both have. -/
theorem bind_eq_ok {x : Except ε α} {g : α → Except ε β} {b : β} :
    (x >>= g) = .ok b ↔ ∃ a, x = .ok a ∧ g a = .ok b := by
  cases x <;> simp

/-- The computation has a result. -/
def Defined (x : Except ε α) : Prop := ∃ a, x = .ok a

theorem Defined.ok (a : α) : Defined (.ok a : Except ε α) := ⟨a, rfl⟩

/-- What every step keeps, a run through a list keeps. -/
theorem foldlM_keeps {g : β → α → Except ε β} {I : β → Prop} {l : List α} {b b' : β} (h : l.foldlM g b = .ok b')
    (hb : I b) (hstep : ∀ a ∈ l, ∀ b b', g b a = .ok b' → I b → I b') : I b' := by
  induction l generalizing b with
  | nil =>
    cases h
    exact hb
  | cons a l ih =>
    obtain ⟨ha, hl⟩ := List.forall_mem_cons.mp hstep
    rw [List.foldlM_cons] at h
    obtain ⟨b₁, h1, h⟩ := bind_eq_ok.mp h
    exact ih h (ha b b₁ h1 hb) hl

/-- A computation for each element of a list has a result when all have. -/
theorem mapM_eq_ok {g : α → Except ε β} {l : List α} {l' : List β} :
    l.mapM g = .ok l' ↔ List.Forall₂ (fun a b => g a = .ok b) l l' := by
  induction l generalizing l' with
  | nil =>
    rw [List.mapM_nil, List.forall₂_nil_left_iff]
    simp [eq_comm]
  | cons a l ih =>
    simp only [List.mapM_cons, bind_eq_ok, pure_eq_ok, Except.ok.injEq, ih, List.forall₂_cons_left_iff]
    constructor
    · rintro ⟨b, hb, bs, hbs, rfl⟩
      exact ⟨b, bs, hb, hbs, rfl⟩
    · rintro ⟨b, bs, hb, hbs, rfl⟩
      exact ⟨b, hb, bs, hbs, rfl⟩

theorem mapM_ok_iff {g : α → Except ε β} {l : List α} : (∃ l', l.mapM g = .ok l') ↔ ∀ a ∈ l, ∃ b, g a = .ok b := by
  induction l with
  | nil => simp
  | cons a l ih =>
    simp only [List.mapM_cons, bind_eq_ok, pure_eq_ok, Except.ok.injEq, List.forall_mem_cons, ← ih]
    constructor
    · rintro ⟨-, b, hb, bs, hbs, rfl⟩
      exact ⟨⟨b, hb⟩, bs, hbs⟩
    · rintro ⟨⟨b, hb⟩, bs, hbs⟩
      exact ⟨_, b, hb, bs, hbs, rfl⟩

theorem mapM_of_forall {g : α → Except ε β} {h : α → β} {l : List α} (hl : ∀ a ∈ l, g a = .ok (h a)) :
    l.mapM g = .ok (l.map h) := by
  rw [mapM_eq_ok, List.forall₂_map_right_iff]
  exact List.forall₂_same.mpr hl

theorem exists_of_mapM {g : α → Except ε β} {l : List α} {l' : List β} (hl : l.mapM g = .ok l') :
    ∀ b ∈ l', ∃ a ∈ l, g a = .ok b := by
  rw [mapM_eq_ok] at hl
  induction hl with
  | nil => intro b hb; cases hb
  | cons hab _ ih =>
    intro b hb
    rcases List.mem_cons.mp hb with rfl | hb
    · exact ⟨_, List.mem_cons_self, hab⟩
    · obtain ⟨a, ha, hg⟩ := ih b hb
      exact ⟨a, List.mem_cons_of_mem _ ha, hg⟩

theorem eq_map_of_mapM {g : α → Except ε β} {h : α → β} {l : List α} {l' : List β} (hl : l.mapM g = .ok l')
    (hg : ∀ a ∈ l, ∀ b, g a = .ok b → b = h a) : l' = l.map h := by
  rw [mapM_eq_ok] at hl
  induction hl with
  | nil => rfl
  | cons hab _ ih =>
    rw [List.map_cons, hg _ List.mem_cons_self _ hab, ih fun a ha => hg a (List.mem_cons_of_mem _ ha)]

end Bind

/-- The octets of a mapped file. -/
abbrev File := List UInt8

/-- The octet at an offset. -/
def octet (f : File) (p : ℕ) : Except Fault ℕ :=
  if p < f.length then .ok (Octets.octet f p) else .error .outside

/-- The octet at a computed offset, which may lie before the file. -/
def octetAt (f : File) (z : ℤ) : Except Fault ℕ :=
  if 0 ≤ z then octet f z.toNat else .error .outside

/-- `read_bytes<n,false>`: the big-endian number in the `n` octets from `p`. -/
def readBytes (f : File) (p : ℕ) : ℕ → Except Fault ℕ
  | 0 => .ok 0
  | n + 1 => do
    let hi ← readBytes f p n
    let lo ← octet f (p + n)
    return hi * 256 + lo

section Reads

variable {f : File}

theorem octet_ok {p : ℕ} (h : p < f.length) : octet f p = .ok (Octets.octet f p) := if_pos h

theorem octet_outside {p : ℕ} (h : f.length ≤ p) : octet f p = .error .outside := if_neg (by omega)

theorem octet_eq_ok {p v : ℕ} : octet f p = .ok v ↔ p < f.length ∧ v = Octets.octet f p := by
  unfold octet
  split <;> simp_all [eq_comm]

@[simp] theorem octetAt_natCast (p : ℕ) : octetAt f p = octet f p := by
  simp [octetAt]

theorem readBytes_ok {p : ℕ} : ∀ {n : ℕ}, p + n ≤ f.length → readBytes f p n = .ok (Octets.be f p n)
  | 0, _ => rfl
  | n + 1, h => by
    rw [readBytes, readBytes_ok (by omega), ok_bind, octet_ok (by omega), ok_bind]
    rfl

theorem readBytes_outside {p : ℕ} : ∀ {n : ℕ}, f.length < p + (n + 1) → readBytes f p (n + 1) = .error .outside
  | 0, h => by
    rw [readBytes, readBytes, ok_bind, octet_outside (by omega)]
    rfl
  | n + 1, h => by
    by_cases hn : f.length < p + (n + 1)
    · rw [readBytes, readBytes_outside hn, error_bind]
    · rw [readBytes, readBytes_ok (by omega), ok_bind, octet_outside (by omega)]
      rfl

theorem readBytes_eq_ok {p n v : ℕ} :
    readBytes f p (n + 1) = .ok v ↔ p + (n + 1) ≤ f.length ∧ v = Octets.be f p (n + 1) := by
  by_cases h : p + (n + 1) ≤ f.length
  · rw [readBytes_ok h]
    simp [h, eq_comm]
  · rw [readBytes_outside (by omega)]
    simp [h]

end Reads

/-! ## Machine integers -/

/-- The value of a conversion to an unsigned type of `w` bits. -/
def toUnsigned (w : ℕ) (z : ℤ) : ℕ := (z % 2 ^ w).toNat

/-- The value of a conversion to a signed type of `w` bits. -/
def toSigned (w : ℕ) (z : ℤ) : ℤ := Int.bmod z (2 ^ w)

/-- The result of an `int` operation, which must fit. -/
def cInt (z : ℤ) : Except Fault ℤ :=
  if -2 ^ 31 ≤ z ∧ z < 2 ^ 31 then .ok z else .error .arithmetic

theorem cInt_ok {z : ℤ} (h : -2 ^ 31 ≤ z) (h' : z < 2 ^ 31) : cInt z = .ok z := if_pos ⟨h, h'⟩

theorem cInt_eq_ok {z v : ℤ} : cInt z = .ok v ↔ v = z ∧ -2 ^ 31 ≤ z ∧ z < 2 ^ 31 := by
  unfold cInt
  split
  · exact ⟨fun h => ⟨(Except.ok.inj h).symm, ‹_›⟩, fun h => by rw [h.1]⟩
  · exact ⟨nofun, fun h => absurd h.2 ‹_›⟩

end Mashroom
