import Mashroom.Lib.Buffered
import Mashroom.Mapped

/-!
# Grib1.WriteIeee — writing an array through a buffer

`wrtieee` writes an array of numbers, between two copies of a header if one is asked for, through a buffer of `BUFSIZ`
octets.  Before a number it looks whether the buffer is full, and not whether the number still fits.  So it stays within
the buffer for every array exactly when `BUFSIZ` is a multiple of four, and then writes what it would write without one
(`wrtieee_iff`).
-/

namespace Mashroom

/-- The octets of `h4`, from the last one: those of an `unsigned long`, the lowest first in `h4`. -/
def h4Octets (l : ℕ) : List UInt8 :=
  [UInt8.ofNat (l >>> 24 &&& 255), UInt8.ofNat (l >>> 16 &&& 255), UInt8.ofNat (l >>> 8 &&& 255),
    UInt8.ofNat (l &&& 255)]

/-- `wrtieee_header`: what is put, with the shifts of an `unsigned int`. -/
def wrtieeeHeader (n : UInt32) : List UInt8 :=
  [(n >>> 24 &&& 255).toUInt8, (n >>> 16 &&& 255).toUInt8, (n >>> 8 &&& 255).toUInt8, (n &&& 255).toUInt8]

section Write

variable {F : Type} (bufsiz : ℕ) (flt2ieee : F → Fin 4 → UInt8)

/-- What `flt2ieee` puts into the buffer. -/
def ieeeOctets (x : F) : List UInt8 := List.ofFn (flt2ieee x)

/-- A write to the buffer must stay within it. -/
def within {α : Type} (x : Option α) : Except Fault α :=
  match x with
  | some a => .ok a
  | none => .error .outside

/-- The loop over the array: the buffer is written when it is full, and four octets are put into it. -/
def writeLoop (array : List F) (buff : Buffered UInt8 bufsiz) : Except Fault (Buffered UInt8 bufsiz) :=
  array.foldlM (fun buff x => within (buff.put (ieeeOctets flt2ieee x))) buff

/-- `wrtieee`: what is written. -/
def wrtieee (array : List F) (header : Bool) : Except Fault (List UInt8) :=
  if header then do
    let l ← cInt (array.length * 4)
    let buff ← within (Buffered.empty.add (h4Octets l.toNat))
    let buff ← writeLoop bufsiz flt2ieee array buff
    let buff ← within (buff.put (h4Octets l.toNat))
    return buff.text
  else do
    let buff ← writeLoop bufsiz flt2ieee array .empty
    return buff.text

/-- What is to be written: the numbers, between two headers if they are asked for. -/
def plainIeee (array : List F) (header : Bool) : List UInt8 :=
  let data := array.flatMap (ieeeOctets flt2ieee)
  let h4 := wrtieeeHeader (.ofNat (array.length * 4))
  if header then h4 ++ data ++ h4 else data

/-! ## The buffer and the plain writer -/

variable {bufsiz flt2ieee}

theorem within_bind {α β : Type} (x : Option α) (f : α → Option β) :
    within (x.bind f) = within x >>= fun a => within (f a) := by
  cases x <;> rfl

/-- The loop puts the numbers one after the other. -/
theorem writeLoop_eq (array : List F) (buff : Buffered UInt8 bufsiz) :
    writeLoop bufsiz flt2ieee array buff = within (buff.puts (array.map (ieeeOctets flt2ieee))) := by
  induction array generalizing buff with
  | nil => rfl
  | cons x array ih =>
    rw [writeLoop, List.foldlM_cons, List.map_cons, Buffered.puts_cons]
    show within (buff.put (ieeeOctets flt2ieee x)) >>= writeLoop bufsiz flt2ieee array = _
    cases buff.put (ieeeOctets flt2ieee x) with
    | none => rfl
    | some buff' => exact ih buff'

/-- An empty buffer is not emptied. -/
theorem put_empty (piece : List UInt8) :
    (Buffered.empty : Buffered UInt8 bufsiz).put piece = Buffered.empty.add piece := by
  have hroom : (Buffered.empty : Buffered UInt8 bufsiz).room = .empty := by
    unfold Buffered.room
    split <;> rfl
  rw [Buffered.put, hroom]

/-- The pieces of a file. -/
def ieeePieces (flt2ieee : F → Fin 4 → UInt8) (array : List F) (header : Bool) : List (List UInt8) :=
  let h4 := h4Octets (array.length * 4)
  if header then h4 :: (array.map (ieeeOctets flt2ieee) ++ [h4]) else array.map (ieeeOctets flt2ieee)

/-- The file is what is put into the buffer. -/
theorem wrtieee_eq {array : List F} {header : Bool} (h : header = true → array.length < 2 ^ 29) :
    wrtieee bufsiz flt2ieee array header =
      Buffered.text <$> within ((Buffered.empty : Buffered UInt8 bufsiz).puts (ieeePieces flt2ieee array header)) := by
  unfold wrtieee ieeePieces
  cases header with
  | false =>
    simp only [Bool.false_eq_true, if_false, writeLoop_eq]
    rfl
  | true =>
    have hlength := h rfl
    have hint : cInt (array.length * 4) = .ok (array.length * 4 : ℕ) := by
      rw [cInt_ok (by omega) (by omega)]
      simp
    simp only [if_true, hint, ok_bind, Int.toNat_natCast, Buffered.puts_cons, put_empty, Buffered.puts_append,
      within_bind, writeLoop_eq]
    simp only [map_bind]
    rfl

/-- An octet of the header, with a shift that an `unsigned int` has. -/
theorem headerOctet_eq {l : ℕ} (hl : l < 2 ^ 32) {k : UInt32} (hk : k.toNat < 32) :
    (UInt32.ofNat l >>> k &&& 255).toUInt8 = UInt8.ofNat (l >>> k.toNat &&& 255) := by
  apply UInt8.toNat_inj.mp
  rw [UInt32.toNat_toUInt8, UInt32.toNat_and, UInt32.toNat_shiftRight, UInt32.toNat_ofNat_of_lt' hl,
    Nat.mod_eq_of_lt hk, UInt8.toNat_ofNat']
  rfl

/-- The header that `wrtieee` writes is that of `wrtieee_header`. -/
theorem h4Octets_eq {l : ℕ} (hl : l < 2 ^ 32) : h4Octets l = wrtieeeHeader (.ofNat l) := by
  unfold h4Octets wrtieeeHeader
  rw [headerOctet_eq hl (by decide), headerOctet_eq hl (by decide), headerOctet_eq hl (by decide)]
  have hlow : (UInt32.ofNat l &&& 255).toUInt8 = UInt8.ofNat (l &&& 255) := by
    have hzero := headerOctet_eq hl (show (0 : UInt32).toNat < 32 from Nat.zero_lt_succ 31)
    rwa [UInt32.shiftRight_zero] at hzero
  rw [hlow]
  rfl

/-- The pieces are what is to be written. -/
theorem flatten_ieeePieces {array : List F} {header : Bool} (h : header = true → array.length < 2 ^ 29) :
    (ieeePieces flt2ieee array header).flatten = plainIeee flt2ieee array header := by
  unfold ieeePieces plainIeee
  cases header with
  | false => simp only [Bool.false_eq_true, if_false, List.flatMap_def]
  | true =>
    have hlength := h rfl
    simp only [if_true, List.flatten_cons, List.flatten_append, List.flatten_nil, List.append_nil,
      h4Octets_eq (show array.length * 4 < 2 ^ 32 by omega), List.flatMap_def, List.append_assoc]

theorem length_of_mem_ieeePieces {array : List F} {header : Bool} {piece : List UInt8}
    (h : piece ∈ ieeePieces flt2ieee array header) : piece.length = 4 := by
  have hdata {piece : List UInt8} (h : piece ∈ array.map (ieeeOctets flt2ieee)) : piece.length = 4 := by
    obtain ⟨x, -, rfl⟩ := List.mem_map.mp h
    exact List.length_ofFn
  unfold ieeePieces at h
  cases header with
  | false => exact hdata h
  | true =>
    simp only [if_true, List.mem_cons, List.mem_append, List.not_mem_nil, or_false] at h
    obtain rfl | h | rfl := h
    · rfl
    · exact hdata h
    · rfl

/-- A buffer that holds every array has room for whole numbers. -/
theorem dvd_of_within [Inhabited F] (h : ∀ array, wrtieee bufsiz flt2ieee array false ≠ .error .outside) :
    0 < bufsiz ∧ 4 ∣ bufsiz := by
  refine Buffered.dvd_of_replicate (by norm_num) (List.length_ofFn (f := flt2ieee default)) fun n => ?_
  have hn := h (List.replicate n default)
  rw [wrtieee_eq (by simp)] at hn
  cases hputs : (Buffered.empty : Buffered UInt8 bufsiz).puts
      (ieeePieces flt2ieee (List.replicate n default) false) with
  | none =>
    rw [hputs] at hn
    exact absurd rfl hn
  | some w =>
    refine ⟨w, ?_⟩
    rw [← hputs]
    simp [ieeePieces, ieeeOctets]

/-- **The buffer makes no difference exactly when it has room for whole numbers**: for every array and with a header or
without, what is written is the header, the numbers and the header.  With a buffer of another size some array is written
past its end. -/
theorem wrtieee_iff [Inhabited F] (bufsiz : ℕ) (flt2ieee : F → Fin 4 → UInt8) :
    ((∀ array header, (header = true → array.length < 2 ^ 29) →
        wrtieee bufsiz flt2ieee array header = .ok (plainIeee flt2ieee array header)) ↔ 0 < bufsiz ∧ 4 ∣ bufsiz) ∧
      (¬ (0 < bufsiz ∧ 4 ∣ bufsiz) → ∃ array, wrtieee bufsiz flt2ieee array false = .error .outside) := by
  refine ⟨⟨fun h => ?_, ?_⟩, fun hsize => ?_⟩
  · have hwithin : ∀ array, wrtieee bufsiz flt2ieee array false ≠ .error .outside := by
      intro array
      rw [h array false (by simp)]
      exact fun h => by cases h
    exact dvd_of_within hwithin
  · rintro ⟨hpos, hdvd⟩ array header hlength
    have hempty : 4 ∣ (Buffered.empty : Buffered UInt8 bufsiz).pending.length := ⟨0, rfl⟩
    obtain ⟨w, hw, -⟩ := Buffered.puts_of_dvd hdvd hpos hempty
      fun piece (h : piece ∈ ieeePieces flt2ieee array header) => length_of_mem_ieeePieces h
    have htext := Buffered.text_puts hw
    rw [Buffered.text_empty, List.nil_append, flatten_ieeePieces hlength] at htext
    rw [wrtieee_eq hlength, hw, ← htext]
    rfl
  · by_contra hnone
    exact hsize (dvd_of_within fun array harray => hnone ⟨array, harray⟩)

end Write

end Mashroom
