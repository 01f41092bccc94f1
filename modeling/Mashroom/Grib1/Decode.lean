import Mashroom.Grib1.Message

/-!
# Grib1.Decode — the two decoders of packed values

`Message.extractValue` decodes one value by its number, `Message.extractAll` all of them.  Both read the bits of
the data section through a cursor (`tbits`, the number of bits in it, the pointer to the next octet).  Local
variables that the source leaves without a value are `none`: computing with one is a fault.
-/

namespace Mashroom

/-! ## The bit cursor -/

/-- The bits read so far, how many of them are still to be used, and the next octet. -/
structure BitCursor where
  tbits : ℕ
  tBits : ℕ
  bits : ℤ
  deriving DecidableEq

/-- The value of a local variable that may be uninitialised. -/
def useLocal : Option ℕ → Except Fault ℕ
  | some x => .ok x
  | none => .error .indeterminate

namespace BitCursor

/-- `tbits = (tbits * 256) + *bits++; t_bits += 8`, in 32 bits -/
def takeOctet (f : File) (c : BitCursor) : Except Fault BitCursor := do
  let o ← octetAt f c.bits
  return { tbits := (c.tbits * 256 + o) % 2 ^ 32, tBits := c.tBits + 8, bits := c.bits + 1 }

/-- `tbits = (tbits << 16) | (bits[0] << 8) | bits[1]; bits += 2; t_bits += 16`, in 32 bits -/
def takeTwo (f : File) (c : BitCursor) : Except Fault BitCursor := do
  let b0 ← octetAt f c.bits
  let b1 ← octetAt f (c.bits + 1)
  return { tbits := c.tbits <<< 16 % 2 ^ 32 ||| b0 <<< 8 ||| b1, tBits := c.tBits + 16, bits := c.bits + 2 }

/-- `while (t_bits < n_bit)` take an octet.  Each turn adds 8 bits, so `nBit` turns are enough. -/
def fill (f : File) (nBit : ℕ) : ℕ → BitCursor → Except Fault BitCursor
  | 0, c => .ok c
  | k + 1, c => if c.tBits < nBit then do
      let c' ← c.takeOctet f
      fill f nBit k c'
    else .ok c

/-- `t_bits -= n_bit; (tbits >> t_bits) & jmask` -/
def use (nBit : ℕ) (jmask : Option ℕ) (c : BitCursor) : Except Fault (ℕ × BitCursor) := do
  let mask ← useLocal jmask
  let tBits := c.tBits - nBit
  return (c.tbits >>> tBits &&& mask, { c with tBits })

end BitCursor

/-- `(1 << n_bit) - 1` as an `int` -/
def fillMask (nBit : ℕ) : Except Fault ℕ :=
  if nBit < 31 then .ok (2 ^ nBit - 1) else .error .arithmetic

/-- `map_masks` -/
def mapMasks : List ℕ := [128, 64, 32, 16, 8, 4, 2, 1]

namespace Message

variable (m : Message) (lib : OsterLib) (f : File)

/-! ## One value -/

/-- The raw integer of value `n` without a bit map: the bits are taken from octet `11 + 2 * (n - 1)` of the
section on, two octets at once when there are more than 8. -/
def rawValue (nBit : ℕ) (n : ℤ) : Except Fault ℕ := do
  let jmask ← fillMask nBit
  let k ← cInt (n - 1)
  let k ← cInt (2 * k)
  let c : BitCursor := { tbits := 0, tBits := 0, bits := m.section4.buf + 11 + k }
  let c ← if 8 < nBit then c.takeTwo f else .ok c
  let c ← c.fill f nBit nBit
  let (raw, _) ← c.use nBit (some jmask)
  return raw

/-- The raw integer of value `n` with a bit map, `none` for an undefined value.  `bbits` has a value only when
`n` is a multiple of 8, `jmask` never has one. -/
def rawValueBitmap (nBit : ℕ) (n : ℤ) : Except Fault (Option ℕ) := do
  let bms ← deref m.section3.buf
  let k ← cInt (n - 1)
  let bitmap : ℤ := bms + k
  let maskIdx := (n % 8).toNat
  let bbits ← if maskIdx = 0 then some <$> octetAt f bitmap else .ok none
  let bits ← useLocal bbits
  if bits &&& mapMasks.getD maskIdx 0 = 0 then return none
  else
    let c ← BitCursor.fill f nBit nBit { tbits := 0, tBits := 0, bits := m.section4.buf }
    let (raw, _) ← c.use nBit none
    return some raw

/-- `extract_value` -/
def extractValue (n : ℤ) : Except Fault ℚ := do
  let d ← m.section1.decimalScaleFactor lib f
  let decScale := lib.intPower 10 (-d)
  let e ← m.section4.scaleFactor lib f
  let scale := decScale * lib.intPower 2 e
  let nBit ← m.section4.bitPerValue f
  let refValue ← m.section4.refValue lib f
  let refVal := refValue * decScale
  let flags ← m.section4.getDataFlag f
  if flags.complexPack ∨ flags.sphericalHarmCoefs then return lib.undefined
  else if nBit = 0 then return refVal
  else
    let flags1 ← m.section1.section1Flags f
    if flags1.sec3Inc then
      match ← m.rawValueBitmap f nBit n with
      | none => return lib.undefined
      | some raw => return refVal + scale * raw
    else
      let raw ← m.rawValue f nBit n
      return refVal + scale * raw

/-! ## All values -/

/-- `result[i] = value`, which must be an element of the vector -/
def store (result : List ℚ) (i : ℕ) (value : ℚ) : Except Fault (List ℚ) :=
  if i < result.length then .ok (result.set i value) else .error .element

/-- The locals of the loop with a bit map. -/
structure BitmapLocals where
  bitmap : ℤ
  bbits : Option ℕ
  cursor : BitCursor
  result : List ℚ

/-- `bitmap += i - 1; if (mask_idx == 0) bbits = *bitmap++;` -/
def bitmapLoad (i : ℕ) (s : BitmapLocals) : Except Fault BitmapLocals :=
  let bitmap := s.bitmap + (i - 1)
  if i % 8 = 0 then do
    let o ← octetAt f bitmap
    return { s with bitmap := bitmap + 1, bbits := some o }
  else return { s with bitmap }

/-- The rest of a turn: the scale factor itself is the multiplier, and `jmask` has no value. -/
def bitmapTest (nBit : ℕ) (refValue : ℚ) (e : ℤ) (i : ℕ) (s : BitmapLocals) : Except Fault BitmapLocals := do
  let bits ← useLocal s.bbits
  if bits &&& mapMasks.getD (i % 8) 0 = 0 then
    let result ← store s.result i lib.undefined
    return { s with result }
  else
    let c ← s.cursor.fill f nBit nBit
    let (raw, cursor) ← c.use nBit none
    let result ← store s.result i (refValue + e * raw)
    return { s with cursor, result }

/-- One turn of the loop with a bit map. -/
def bitmapTurn (nBit : ℕ) (refValue : ℚ) (e : ℤ) (i : ℕ) (s : BitmapLocals) : Except Fault BitmapLocals := do
  let s ← bitmapLoad f i s
  bitmapTest lib f nBit refValue e i s

/-- The locals of the loop without a bit map. -/
structure PlainLocals where
  cursor : BitCursor
  result : List ℚ

/-- One turn of the loop without a bit map. -/
def plainTurn (nBit : ℕ) (jmask : ℕ) (refValue : ℚ) (e : ℤ) (i : ℕ) (s : PlainLocals) :
    Except Fault PlainLocals := do
  let c ← if 8 < (nBit : ℤ) - s.cursor.tBits then s.cursor.takeTwo f else .ok s.cursor
  let c ← c.fill f nBit nBit
  let (raw, cursor) ← c.use nBit (some jmask)
  let result ← store s.result i (refValue + e * raw)
  return { cursor, result }

/-- `for (i = 0; i < n; ++i)`, from `i` on. -/
def forLoop {σ : Type} (turn : ℕ → σ → Except Fault σ) : ℕ → ℕ → σ → Except Fault σ
  | 0, _, s => .ok s
  | n + 1, i, s => do
    let s' ← turn i s
    forLoop turn n (i + 1) s'

/-- `extract_all` -/
def extractAll : Except Fault (List ℚ) := do
  let flags ← m.section4.getDataFlag f
  if flags.complexPack ∨ flags.sphericalHarmCoefs then return []
  else
    let nBit ← m.section4.bitPerValue f
    let refValue ← m.section4.refValue lib f
    if nBit = 0 then return [refValue]
    else
      let e ← m.section4.scaleFactor lib f
      let flags1 ← m.section1.section1Flags f
      if flags1.sec3Inc then
        let bms ← deref m.section3.buf
        let n ← m.section2.nxny f
        let s ← forLoop (bitmapTurn lib f nBit refValue e) n 0 {
          bitmap := bms
          bbits := none
          cursor := { tbits := 0, tBits := 0, bits := m.section4.buf }
          result := List.replicate n 0 }
        return s.result
      else
        let jmask ← fillMask nBit
        let n ← m.section2.nxny f
        let s ← forLoop (plainTurn f nBit jmask refValue e) n 0 {
          cursor := { tbits := 0, tBits := 0, bits := m.section4.buf }
          result := [] }
        return s.result

end Message

end Mashroom
