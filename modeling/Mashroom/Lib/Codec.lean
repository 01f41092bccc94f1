import Mathlib.Tactic.Ring
import Mashroom.Lib.Dict

/-!
# Codec — writing values to octets and reading them back

A codec writes a value as octets and reads one from the front of a buffer; what comes after the value in the
buffer does not matter, and where it ends follows from the size of the value read.  `ReadsBack c a` says that `a`
is read back from its octets.  Words, pairs, options, counted lists and dictionaries read back what their parts
do.
-/

/-- How the values of a type are written, and read from the front of a buffer. -/
structure Codec (ε α : Type) where
  encode : α → List UInt8
  decode : List UInt8 → Except ε α

namespace Codec

variable {ε α β κ ν : Type}

/-- The number of octets written for a value. -/
def size (c : Codec ε α) (a : α) : ℕ := (c.encode a).length

/-- A value is read back from its octets, whatever comes after them. -/
def ReadsBack (c : Codec ε α) (a : α) : Prop := ∀ rest, c.decode (c.encode a ++ rest) = .ok a

/-! ## Words -/

/-- The `n` octets of a number, the highest first. -/
def octets : ℕ → ℕ → List UInt8
  | 0, _ => []
  | n + 1, x => octets n (x / 256) ++ [.ofNat x]

/-- The number in a list of octets, the highest first. -/
def number (bs : List UInt8) : ℕ := bs.foldl (fun acc b => acc * 256 + b.toNat) 0

@[simp] theorem octets_length : ∀ n x, (octets n x).length = n
  | 0, _ => rfl
  | n + 1, x => by simp [octets, octets_length n]

/-- The high octets of a number, and the low ones. -/
theorem octets_add (k : ℕ) : ∀ j n, octets (k + j) n = octets k (n / 256 ^ j) ++ octets j n
  | 0, n => by rw [pow_zero, Nat.div_one, octets, List.append_nil, Nat.add_zero]
  | j + 1, n => by
    rw [← Nat.add_assoc, octets, octets_add k j, Nat.div_div_eq_div_mul, ← pow_succ', List.append_assoc, octets]

theorem number_append (as bs : List UInt8) : number (as ++ bs) = number as * 256 ^ bs.length + number bs := by
  have hfold : ∀ (bs : List UInt8) (acc : ℕ),
      bs.foldl (fun acc b => acc * 256 + b.toNat) acc = acc * 256 ^ bs.length + number bs := by
    intro bs
    induction bs with
    | nil => intro acc; simp [number]
    | cons b bs ih =>
      intro acc
      rw [number, List.foldl_cons, List.foldl_cons, ih, ih, List.length_cons]
      ring
  rw [number, List.foldl_append, hfold]
  rfl

theorem number_lt (bs : List UInt8) : number bs < 256 ^ bs.length := by
  induction bs using List.reverseRecOn with
  | nil => exact Nat.one_pos
  | append_singleton bs b ih =>
    have hb := b.toNat_lt
    rw [number_append, List.length_append, List.length_singleton, pow_one, pow_succ]
    simp only [number, List.foldl_cons, List.foldl_nil] at ih ⊢
    omega

/-- Of a number that does not fit, the low octets are left. -/
theorem number_octets_mod : ∀ k n, number (octets k n) = n % 256 ^ k
  | 0, n => by rw [pow_zero, Nat.mod_one]; rfl
  | k + 1, n => by
    rw [octets, number_append, number_octets_mod k, Nat.pow_succ', Nat.mod_mul, add_comm]
    simp only [number, List.foldl_cons, List.foldl_nil, List.length_singleton, pow_one, UInt8.toNat_ofNat']
    ring

theorem number_octets {n x : ℕ} (h : x < 256 ^ n) : number (octets n x) = x := by
  rw [number_octets_mod, Nat.mod_eq_of_lt h]

/-- Numbers in `n` octets.  A shorter buffer is the error `e`. -/
def word (e : ε) (n : ℕ) : Codec ε ℕ where
  encode := octets n
  decode buf := if n ≤ buf.length then .ok (number (buf.take n)) else .error e

theorem word_readsBack (e : ε) {n x : ℕ} (h : x < 256 ^ n) : (word e n).ReadsBack x := by
  intro rest
  have hlen : n ≤ (octets n x ++ rest).length := by simp
  have hdec : (word e n).decode (octets n x ++ rest) = .ok (number ((octets n x ++ rest).take n)) := if_pos hlen
  exact hdec.trans (by rw [List.take_left' (octets_length n x), number_octets h])

/-! ## Composition -/

/-- The codec of a type that is written as another. -/
def map (c : Codec ε α) (f : α → β) (g : β → α) : Codec ε β where
  encode b := c.encode (g b)
  decode buf := f <$> c.decode buf

theorem map_readsBack {c : Codec ε α} {f : α → β} {g : β → α} {b : β} (h : c.ReadsBack (g b)) (hfg : f (g b) = b) :
    (map c f g).ReadsBack b := by
  intro rest
  show f <$> c.decode (c.encode (g b) ++ rest) = _
  rw [h rest]
  exact congrArg Except.ok hfg

/-- A value of the first codec, then one of the second. -/
def pair (c : Codec ε α) (c' : Codec ε β) : Codec ε (α × β) where
  encode p := c.encode p.1 ++ c'.encode p.2
  decode buf := do
    let a ← c.decode buf
    let b ← c'.decode (buf.drop (c.size a))
    return (a, b)

/-- After a value is read, the rest of the buffer starts where the next one was written. -/
theorem drop_size (c : Codec ε α) (a : α) (rest : List UInt8) : (c.encode a ++ rest).drop (c.size a) = rest :=
  List.drop_left' rfl

theorem pair_decode {c : Codec ε α} {c' : Codec ε β} (buf : List UInt8) :
    (pair c c').decode buf = c.decode buf >>= fun a => c'.decode (buf.drop (c.size a)) >>= fun b => .ok (a, b) := rfl

theorem pair_readsBack {c : Codec ε α} {c' : Codec ε β} {p : α × β} (h : c.ReadsBack p.1) (h' : c'.ReadsBack p.2) :
    (pair c c').ReadsBack p := by
  intro rest
  have happ : (pair c c').encode p ++ rest = c.encode p.1 ++ (c'.encode p.2 ++ rest) := List.append_assoc ..
  rw [happ, pair_decode, h]
  show (c'.decode ((c.encode p.1 ++ (c'.encode p.2 ++ rest)).drop (c.size p.1)) >>= _) = _
  rw [drop_size, h']
  rfl

/-- An optional value: whether there is one, then the value. -/
def option (flag : Codec ε Bool) (c : Codec ε α) : Codec ε (Option α) where
  encode
    | none => flag.encode false
    | some a => flag.encode true ++ c.encode a
  decode buf := do
    let present ← flag.decode buf
    if present then some <$> c.decode (buf.drop (flag.size present)) else return none

theorem option_decode {flag : Codec ε Bool} {c : Codec ε α} (buf : List UInt8) :
    (option flag c).decode buf = flag.decode buf >>= fun present =>
      if present then some <$> c.decode (buf.drop (flag.size present)) else .ok none := rfl

theorem option_readsBack {flag : Codec ε Bool} {c : Codec ε α} {o : Option α} (hf : ∀ b, flag.ReadsBack b)
    (h : ∀ a ∈ o, c.ReadsBack a) : (option flag c).ReadsBack o := by
  intro rest
  cases o with
  | none =>
    have hdec : flag.decode ((option flag c).encode none ++ rest) = .ok false := hf false rest
    rw [option_decode, hdec]
    rfl
  | some a =>
    have happ : (option flag c).encode (some a) ++ rest = flag.encode true ++ (c.encode a ++ rest) :=
      List.append_assoc ..
    rw [happ, option_decode, hf true]
    show some <$> c.decode ((flag.encode true ++ (c.encode a ++ rest)).drop (flag.size true)) = _
    rw [drop_size, h a rfl]
    rfl

/-- `n` values, one after the other. -/
def decodeMany (c : Codec ε α) : ℕ → List UInt8 → Except ε (List α)
  | 0, _ => .ok []
  | n + 1, buf => do
    let a ← c.decode buf
    let as ← decodeMany c n (buf.drop (c.size a))
    return a :: as

theorem decodeMany_flatMap {c : Codec ε α} : ∀ {as : List α} (rest : List UInt8), (∀ a ∈ as, c.ReadsBack a) →
    c.decodeMany as.length (as.flatMap c.encode ++ rest) = .ok as
  | [], _, _ => rfl
  | a :: as, rest, h => by
    obtain ⟨ha, has⟩ := List.forall_mem_cons.mp h
    rw [List.flatMap_cons, List.append_assoc, List.length_cons, decodeMany, ha]
    show (c.decodeMany as.length ((c.encode a ++ (as.flatMap c.encode ++ rest)).drop (c.size a)) >>= _) = _
    rw [drop_size, decodeMany_flatMap rest has]
    rfl

/-- The number of elements, then the elements. -/
def list (count : Codec ε ℕ) (c : Codec ε α) : Codec ε (List α) where
  encode as := count.encode as.length ++ as.flatMap c.encode
  decode buf := do
    let n ← count.decode buf
    c.decodeMany n (buf.drop (count.size n))

theorem list_decode {count : Codec ε ℕ} {c : Codec ε α} (buf : List UInt8) :
    (list count c).decode buf = count.decode buf >>= fun n => c.decodeMany n (buf.drop (count.size n)) := rfl

theorem list_readsBack {count : Codec ε ℕ} {c : Codec ε α} {as : List α} (hn : count.ReadsBack as.length)
    (h : ∀ a ∈ as, c.ReadsBack a) : (list count c).ReadsBack as := by
  intro rest
  have happ : (list count c).encode as ++ rest = count.encode as.length ++ (as.flatMap c.encode ++ rest) :=
    List.append_assoc ..
  rw [happ, list_decode, hn]
  show c.decodeMany as.length ((count.encode as.length ++ (as.flatMap c.encode ++ rest)).drop (count.size as.length))
    = _
  rw [drop_size, decodeMany_flatMap rest h]

/-! ## Dictionaries -/

section Dict

variable [DecidableEq κ]

/-- The number of entries, then the entries, each a key and its value. -/
def dict (count : Codec ε ℕ) (key : Codec ε κ) (value : Codec ε ν) : Codec ε (Dict κ ν) :=
  map (list count (pair key value)) (fun es => (es.map fun e => (⟨e.1, e.2⟩ : Sigma fun _ : κ => ν)).toAList)
    fun d => d.entries.map fun e => (e.1, e.2)

theorem toAList_entries (d : Dict κ ν) : d.entries.toAList = d := by
  refine AList.ext ?_
  have h : ∀ l : List (Sigma fun _ : κ => ν), l.NodupKeys → l.dedupKeys = l := by
    intro l hl
    induction l with
    | nil => rfl
    | cons e l ih =>
      obtain ⟨he, hl⟩ := List.nodupKeys_cons.mp hl
      rw [List.dedupKeys_cons, ih hl, List.kinsert_def, List.kerase_of_notMem_keys he]
  exact h _ d.nodupKeys

/-- Of entries under one key one is kept. -/
theorem length_toAList_le (l : List (Sigma fun _ : κ => ν)) : l.toAList.entries.length ≤ l.length := by
  induction l with
  | nil => exact Nat.le_refl 0
  | cons e l ih =>
    have herase := (List.kerase_sublist e.1 l.toAList.entries).length_le
    rw [AList.toAList_cons, AList.entries_insert, List.length_cons, List.length_cons]
    omega

theorem dict_readsBack {count : Codec ε ℕ} {key : Codec ε κ} {value : Codec ε ν} {d : Dict κ ν}
    (hn : count.ReadsBack d.entries.length) (hk : ∀ e ∈ d.entries, key.ReadsBack e.1)
    (hv : ∀ e ∈ d.entries, value.ReadsBack e.2) : (dict count key value).ReadsBack d := by
  refine map_readsBack (list_readsBack (by rwa [List.length_map]) fun p hp => ?_) ?_
  · obtain ⟨e, he, rfl⟩ := List.mem_map.mp hp
    exact pair_readsBack (hk e he) (hv e he)
  · rw [List.map_map]
    exact (congrArg List.toAList (List.map_id' _)).trans (toAList_entries d)

/-- A dictionary starts with the number of its entries. -/
theorem dict_count {count : Codec ε ℕ} {key : Codec ε κ} {value : Codec ε ν} {d : Dict κ ν}
    (hn : count.ReadsBack d.entries.length) (rest : List UInt8) :
    count.decode ((dict count key value).encode d ++ rest) = .ok d.entries.length := by
  show count.decode (count.encode (d.entries.map _).length ++ _ ++ rest) = _
  rw [List.length_map, List.append_assoc, hn]

end Dict

end Codec
