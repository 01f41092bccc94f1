import Mathlib.Data.Rat.Lemmas
import Mashroom.Network.Parts
import Mashroom.Proc.WriteText

/-!
# Proc.ReadText — the text files, read

The reader goes through the header line by line, by the tokens it expects, and through the rows by words.  The header
gives a series its centre, table version, parameter, forecast and level; what the source assigns to `fcst_unit_` and
`level_` of the common properties is kept with the additional ones here, where the writer takes it from.  Only the lines
that a writer can put in a place are told apart there.
-/

namespace Mashroom

/-! ## Words of a line -/

/-- The separators of words. -/
def isSeparator (c : Char) : Bool := c = ' ' ∨ c = '\t'

/-- `split_ignore`: the words between separators. -/
def splitIgnore (s : List Char) : List (List Char) :=
  match _hs : s.dropWhile isSeparator with
  | [] => []
  | c :: cs => (c :: cs.takeWhile fun c => !isSeparator c) :: splitIgnore (cs.dropWhile fun c => !isSeparator c)
termination_by s.length
decreasing_by
  have h₁ := (List.dropWhile_suffix (l := cs) fun c => !isSeparator c).length_le
  have h₂ := (List.dropWhile_suffix (l := s) isSeparator).length_le
  rw [_hs, List.length_cons] at h₂
  omega

section Split

variable {s w : List Char} {c : Char}

theorem splitIgnore_separator (hc : isSeparator c = true) : splitIgnore (c :: s) = splitIgnore s := by
  rw [splitIgnore, splitIgnore, List.dropWhile_cons_of_pos hc]

theorem splitIgnore_nil : splitIgnore [] = [] := by
  rw [splitIgnore]
  rfl

theorem not_separator_of_word (hw : Word w) : ∀ c ∈ w, isSeparator c = false := by
  intro c hc
  obtain ⟨h₁, h₂, -⟩ := hw.2 c hc
  simp [isSeparator, h₁, h₂]

/-- A word and a separator come first. -/
theorem splitIgnore_word (hw : Word w) (hc : isSeparator c = true) :
    splitIgnore (w ++ c :: s) = w :: splitIgnore s := by
  have hsep := not_separator_of_word hw
  obtain ⟨a, w', rfl⟩ := List.exists_cons_of_ne_nil hw.1
  have ha : ¬ isSeparator a = true := by simp [hsep a List.mem_cons_self]
  have hall : ∀ x ∈ w', (!isSeparator x) = true := by
    intro x hx
    rw [hsep x (List.mem_cons_of_mem _ hx)]
    rfl
  have hdrop : (a :: w' ++ c :: s).dropWhile isSeparator = a :: (w' ++ c :: s) := List.dropWhile_cons_of_neg ha
  have hstop : ¬ (!isSeparator c) = true := by simp [hc]
  rw [splitIgnore]
  split
  · rename_i h
    rw [hdrop] at h
    cases h
  · rename_i h
    rw [hdrop] at h
    obtain ⟨rfl, rfl⟩ := List.cons.inj h
    have htake : (c :: s).takeWhile (fun c => !isSeparator c) = [] := List.takeWhile_cons_of_neg hstop
    have hdrop' : (c :: s).dropWhile (fun c => !isSeparator c) = c :: s := List.dropWhile_cons_of_neg hstop
    rw [List.takeWhile_append_of_pos hall, List.dropWhile_append_of_pos hall, htake, hdrop', List.append_nil,
      splitIgnore_separator hc]

theorem splitIgnore_replicate {n : ℕ} : splitIgnore (List.replicate n ' ' ++ s) = splitIgnore s := by
  induction n with
  | zero => rfl
  | succ n ih => rw [List.replicate_succ, List.cons_append, splitIgnore_separator (by decide), ih]

/-- A word that is filled up, and a tab. -/
theorem splitIgnore_setw {n : ℕ} (hw : Word w) : splitIgnore (setw n w ++ '\t' :: s) = w :: splitIgnore s := by
  have htab : isSeparator '\t' = true := by decide
  unfold setw
  cases hn : n - w.length with
  | zero =>
    rw [List.replicate_zero, List.append_nil, splitIgnore_word hw htab]
  | succ m =>
    rw [List.append_assoc, List.replicate_succ, List.cons_append, splitIgnore_word hw (by decide),
      splitIgnore_replicate, splitIgnore_separator htab]

/-- Words that are filled up, each before a tab. -/
theorem splitIgnore_flatMap {n : ℕ} {ws : List (List Char)} (h : ∀ w ∈ ws, Word w) :
    splitIgnore (ws.flatMap fun w => setw n w ++ ['\t']) = ws := by
  induction ws with
  | nil => exact splitIgnore_nil
  | cons w ws ih =>
    rw [List.flatMap_cons, List.append_assoc, List.singleton_append, splitIgnore_setw (h w List.mem_cons_self),
      ih fun w hw => h w (List.mem_cons_of_mem _ hw)]

end Split

/-! ## Lines -/

/-- How values are printed, and parsed by `std::from_chars`: as words that give the same value. -/
structure ValueText where
  print : ℚ → List Char
  parse : List Char → Option ℚ
  word : ∀ v, Word (print v)
  ne_nan : ∀ v, print v ≠ ['N', 'a', 'N']
  parse_print : ∀ v, parse (print v) = some v

/-- A line of a file. -/
inductive TextLine where
  | header (l : HeaderLine)
  /-- a row: its time, as a date and a time of day, and the rest of the line -/
  | row (time : ℤ) (cells : List Char)

/-- What a cell is printed as. -/
def cellText (text : ValueText) (c : Option ℚ) : List Char := c.elim ['N', 'a', 'N'] text.print

def cellsText (text : ValueText) (cells : List (Option ℚ)) : List Char :=
  '\t' :: (cells.map (cellText text)).flatMap fun w => setw 9 w ++ ['\t']

def TextFile.lines (text : ValueText) (f : TextFile) : List TextLine :=
  f.header.map TextLine.header ++ f.rows.map fun r => .row r.time (cellsText text r.cells)

/-! ## The reader -/

/-- A reader of lines. -/
abbrev LineReader := StateT (List TextLine) (Except Fault)

/-- `std::getline`, whose failure is an error wherever it is asked for. -/
def getline : LineReader TextLine
  | [] => .error .exception
  | l :: ls => .ok (l, ls)

/-- `get_txt_token`: the value behind the token. -/
def getTxtToken (token : String) : LineReader HeaderValue := do
  match ← getline with
  | .header (.param _ t v) => if t = token then return v else throw .exception
  | _ => throw .exception

/-- `get_txt_token` of an unsigned type of so many bits. -/
def getTxtNumber (bits : ℕ) (token : String) : LineReader ℕ := do
  match ← getTxtToken token with
  | .num n => if n < 2 ^ bits then return n else throw .exception
  | _ => throw .exception

def getTxtCoord (token : String) : LineReader ℚ := do
  match ← getTxtToken token with
  | .coord q => return q
  | _ => throw .exception

def getTxtGrid (token : String) : LineReader RepresentationType := do
  match ← getTxtToken token with
  | .grid g => return g
  | _ => throw .exception

/-- The counts of a forecast that has them. -/
def getCounts (result : TimeForecast) : LineReader TimeForecast :=
  if result.isIntervaled then do
    let N ← getTxtNumber 16 "N avg/acc"
    let NAvgAccMissed ← getTxtNumber 8 "N missed"
    return { result with N, NAvgAccMissed }
  else return result

/-- The periods of a forecast: of one in two octets, `P1` is set twice. -/
def getPeriods (result : TimeForecast) : LineReader TimeForecast :=
  if result.octetDoubled then do
    let tmp ← getTxtNumber 16 "P1"
    let result := { result with P1 := (tmp >>> 8) &&& 127 }
    return { result with P1 := tmp &&& 127 }
  else if result.isUniqueValue then do
    let P1 ← getTxtNumber 8 "P1"
    return { result with P1 }
  else do
    let P1 ← getTxtNumber 8 "P1"
    let P2 ← getTxtNumber 8 "P2"
    return { result with P1, P2 }

/-- `get_txt_structure<TimeForecast>` -/
def getTimeForecast : LineReader TimeForecast := do
  let _ ← getline
  let tf ← getTxtNumber 8 "time frame"
  let tri ← getTxtNumber 32 "time range indicator"
  let result ← getCounts { tf, tri, P1 := 0, P2 := 0 }
  getPeriods result

/-- `get_txt_structure<Level>`: heights and bounds are passed over. -/
def getLevel : LineReader Level := do
  let _ ← getline
  let levelType ← getTxtNumber 8 "tag"
  let octet11 ← getTxtNumber 8 "o11"
  let octet12 ← getTxtNumber 8 "o12"
  if ← Level.isBounded levelType then
    let _ ← getline
    let _ ← getline
    return { levelType, octet11, octet12 }
  else
    let _ ← getline
    return { levelType, octet11, octet12 }

/-- `get_common_data_properties` -/
def getSeries : LineReader ExtractDataProperties := do
  let _ ← getTxtToken "name"
  let parameter ← getTxtNumber 8 "indicator"
  let tableVersion ← getTxtNumber 8 "table version"
  let center ← getTxtNumber 8 "center"
  let fcst ← getTimeForecast
  let level ← getLevel
  return { add := { fcst, level }, cmn := ⟨some center, some tableVersion, some parameter⟩ }

/-- So many series. -/
def getAllSeries : ℕ → LineReader (List ExtractDataProperties)
  | 0 => pure []
  | n + 1 => do
    let k ← getSeries
    let ks ← getAllSeries n
    return k :: ks

/-- `HeaderInfo`, of which the data is read by the version and the series. -/
structure HeaderInfo where
  paramInfo : List ExtractDataProperties
  pos : Coord
  gridT : RepresentationType
  version : ℕ

def readHeader : LineReader HeaderInfo := do
  let version ← getTxtNumber 31 "version"
  let lat ← getTxtCoord "latitude"
  let lon ← getTxtCoord "longitude"
  let gridT ← getTxtGrid "grid"
  let n ← getTxtNumber 64 "parameters"
  let paramInfo ← getAllSeries n
  return { paramInfo, pos := ⟨lat, lon⟩, gridT, version }

variable (table : ParameterTable) (text : ValueText)

/-- The name over a column, against the table. -/
def checkName (k : ExtractDataProperties) (name : List Char) : Except Fault Unit := do
  let center ← optionalValue k.cmn.center
  let tableVersion ← optionalValue k.cmn.tableVersion
  let parameter ← optionalValue k.cmn.parameter
  match table.name center tableVersion parameter with
  | none => return
  | some n => if name = n then return else .error .exception

def checkNames : List ExtractDataProperties → List (List Char) → Except Fault Unit
  | k :: ks, name :: names => do
    checkName table k name
    checkNames ks names
  | _, _ => return

/-- The values of a row, each put at the end of its series. -/
def readCells (time : ℤ) :
    List ExtractDataProperties → List (List Char) → ExtractedValues → Except Fault ExtractedValues
  | k :: ks, w :: ws, result =>
    if w = ['N', 'a', 'N'] then readCells time ks ws result
    else
      match text.parse w with
      | none => .error .exception
      | some value => readCells time ks ws (result.update k (· ++ [{ timeDate := time * nsPerSecond, value }]))
  | _, _, result => .ok result

/-- The loop over the rows, to the end of the file. -/
def readRows (keys : List ExtractDataProperties) : List TextLine → ExtractedValues → Except Fault ExtractedValues
  | [], result => .ok result
  | .header _ :: _, _ => .error .exception
  | .row time cells :: ls, result => do
    if (splitIgnore cells).length < keys.length then .error .exception
    else
      let result ← readCells text time keys (splitIgnore cells) result
      readRows keys ls result

/-- `read_data`: the line before the names is not looked at. -/
def readData (info : HeaderInfo) (ls : List TextLine) : Except Fault ExtractedValues := do
  if info.version ≠ 1 then .error .exception
  else
    let (_, ls) ← getline ls
    match ← getline ls with
    | (.header (.names s), ls) =>
      let names := splitIgnore s
      if info.paramInfo.length + 1 ≠ names.length then .error .exception
      else
        checkNames table info.paramInfo names.tail
        readRows text info.paramInfo ls ∅
    | _ => .error .exception

/-- The lines up to the one of the type. -/
def skipToType : List TextLine → List TextLine
  | [] => []
  | .header (.param 0 "type" v) :: ls => .header (.param 0 "type" v) :: ls
  | _ :: ls => skipToType ls

/-- The reader by the type and the format that the file tells: other types than series are not read. -/
def readTyped (ls : List TextLine) : Except Fault ExtractedValues := do
  let (type, ls) ← getTxtNumber 8 "type" (skipToType ls)
  if type = 0 then
    let (format, ls) ← getTxtNumber 31 "format" ls
    if format = 0 then
      let (info, ls) ← readHeader ls
      readData table text info ls
    else .error .exception
  else if type ≤ 3 then .ok ∅
  else .error .exception

/-- `read_txt_file`, on the lines of the file: the second line counts only if the first is another one. -/
def readTxtFile : List TextLine → Except Fault ExtractedValues
  | .header (.mark "Mashroom") :: ls => readTyped table text ls
  | _ :: .header (.mark "\\header") :: ls => readTyped table text ls
  | _ => .error .exception

/-! ## The header, read -/

/-- A reader takes some lines, whatever follows. -/
def Reads {α : Type} (x : LineReader α) (ls : List HeaderLine) (a : α) : Prop :=
  ∀ rest, x (ls.map TextLine.header ++ rest) = .ok (a, rest)

section Reads

variable {α β : Type} {x : LineReader α} {g : α → LineReader β} {ls ls' : List HeaderLine} {a : α} {b : β}

theorem Reads.pure (a : α) : Reads (Pure.pure a) [] a := fun _ => rfl

theorem Reads.bind (hx : Reads x ls a) (hg : Reads (g a) ls' b) : Reads (x >>= g) (ls ++ ls') b := by
  intro rest
  have hrun : (x >>= g) ((ls ++ ls').map TextLine.header ++ rest) =
      x ((ls ++ ls').map TextLine.header ++ rest) >>= fun r => g r.1 r.2 := rfl
  rw [hrun, List.map_append, List.append_assoc, hx, ok_bind]
  exact hg rest

/-- A line that is read, and then the rest. -/
theorem Reads.line {l : HeaderLine} (hx : Reads x [l] a) (hg : Reads (g a) ls b) : Reads (x >>= g) (l :: ls) b :=
  hx.bind hg

/-- A check of what was read takes no more lines. -/
theorem Reads.check (hx : Reads x ls a) (hg : Reads (g a) [] b) : Reads (x >>= g) ls b := by
  have hread := hx.bind hg
  rw [List.append_nil] at hread
  exact hread

/-- A reader that puts together what it read takes no more lines. -/
theorem Reads.bind_pure {h : α → β} (hx : Reads x ls a) : Reads (x >>= fun a => Pure.pure (h a)) ls (h a) :=
  hx.check (Reads.pure (h a))

theorem reads_getline (l : HeaderLine) : Reads getline [l] (.header l) := fun _ => rfl

theorem reads_token (indent : ℕ) (token : String) (v : HeaderValue) :
    Reads (getTxtToken token) [.param indent token v] v := by
  refine Reads.check (reads_getline _) ?_
  dsimp only
  rw [if_pos rfl]
  exact Reads.pure v

theorem reads_number {bits indent n : ℕ} {token : String} (h : n < 2 ^ bits) :
    Reads (getTxtNumber bits token) [.param indent token (.num n)] n := by
  refine Reads.check (reads_token indent token _) ?_
  dsimp only
  rw [if_pos h]
  exact Reads.pure n

theorem reads_coord {indent : ℕ} {token : String} (q : ℚ) :
    Reads (getTxtCoord token) [.param indent token (.coord q)] q :=
  Reads.check (reads_token indent token _) (Reads.pure q)

theorem reads_grid {indent : ℕ} {token : String} (r : RepresentationType) :
    Reads (getTxtGrid token) [.param indent token (.grid r)] r :=
  Reads.check (reads_token indent token _) (Reads.pure r)

end Reads

/-- A forecast as it is read: of two octets the second comes back as the first, without its highest bit. -/
def TimeForecast.reread (t : TimeForecast) : TimeForecast where
  N := if t.isIntervaled then t.N else 65535
  NAvgAccMissed := if t.isIntervaled then t.NAvgAccMissed else 0
  P1 := if t.octetDoubled then (t.P1 <<< 8 ||| t.P2) % 2 ^ 16 &&& 127 else t.P1
  P2 := if t.octetDoubled ∨ t.isUniqueValue then 0 else t.P2
  tf := t.tf
  tri := t.tri

/-- The properties of a series as they are read, with the centre of the search. -/
def ExtractDataProperties.reread (searched : TableCode) (k : ExtractDataProperties) : ExtractDataProperties where
  add := { fcst := k.add.fcst.reread, level := k.add.level }
  cmn := { k.cmn with center := some searched }

section Header

variable {t : TimeForecast} {l : Level} {k : ExtractDataProperties}

theorem reads_getCounts (hN : t.N < 2 ^ 16) (hmissed : t.NAvgAccMissed < 2 ^ 8) :
    Reads (getCounts { tf := t.tf, tri := t.tri, P1 := 0, P2 := 0 })
      (if t.isIntervaled then [.param 1 "N avg/acc" (.num t.N), .param 1 "N missed" (.num t.NAvgAccMissed)] else [])
      { t.reread with P1 := 0, P2 := 0 } := by
  unfold getCounts
  by_cases hint : t.isIntervaled
  · have hint' : ({ tf := t.tf, tri := t.tri, P1 := 0, P2 := 0 } : TimeForecast).isIntervaled := hint
    rw [if_pos hint, if_pos hint']
    simp only [TimeForecast.reread, if_pos hint]
    exact Reads.line (reads_number hN) (Reads.line (reads_number hmissed) (Reads.pure _))
  · have hint' : ¬ ({ tf := t.tf, tri := t.tri, P1 := 0, P2 := 0 } : TimeForecast).isIntervaled := hint
    rw [if_neg hint, if_neg hint']
    simp only [TimeForecast.reread, if_neg hint]
    exact Reads.pure _

theorem reads_getPeriods (hP1 : t.P1 < 2 ^ 8) (hP2 : t.P2 < 2 ^ 8) :
    Reads (getPeriods { t.reread with P1 := 0, P2 := 0 })
      (if t.octetDoubled then [.param 1 "P1" (.num ((t.P1 <<< 8 ||| t.P2) % 2 ^ 16))]
      else if t.isUniqueValue then [.param 1 "P1" (.num t.P1)]
      else [.param 1 "P1" (.num t.P1), .param 1 "P2" (.num t.P2)])
      t.reread := by
  unfold getPeriods
  by_cases hdoubled : t.octetDoubled
  · have hdoubled' : ({ t.reread with P1 := 0, P2 := 0 } : TimeForecast).octetDoubled := hdoubled
    have hvalue :
        ({ t.reread with P1 := (t.P1 <<< 8 ||| t.P2) % 2 ^ 16 &&& 127, P2 := 0 } : TimeForecast) = t.reread := by
      simp only [TimeForecast.reread, hdoubled, if_true, true_or]
    rw [if_pos hdoubled, if_pos hdoubled', ← hvalue]
    exact Reads.line (reads_number (Nat.mod_lt _ (by decide))) (Reads.pure _)
  · have hdoubled' : ¬ ({ t.reread with P1 := 0, P2 := 0 } : TimeForecast).octetDoubled := hdoubled
    rw [if_neg hdoubled, if_neg hdoubled']
    by_cases hunique : t.isUniqueValue
    · have hunique' : ({ t.reread with P1 := 0, P2 := 0 } : TimeForecast).isUniqueValue := hunique
      have hvalue : ({ t.reread with P1 := t.P1, P2 := 0 } : TimeForecast) = t.reread := by
        simp only [TimeForecast.reread, hdoubled, hunique, if_false, if_true, or_true]
      rw [if_pos hunique, if_pos hunique', ← hvalue]
      exact Reads.line (reads_number hP1) (Reads.pure _)
    · have hunique' : ¬ ({ t.reread with P1 := 0, P2 := 0 } : TimeForecast).isUniqueValue := hunique
      have hvalue : ({ t.reread with P1 := t.P1, P2 := t.P2 } : TimeForecast) = t.reread := by
        simp only [TimeForecast.reread, hdoubled, hunique, if_false, or_false]
      rw [if_neg hunique, if_neg hunique', ← hvalue]
      exact Reads.line (reads_number hP1) (Reads.line (reads_number hP2) (Reads.pure _))

theorem reads_getTimeForecast (h : t.Fits) : Reads getTimeForecast t.lines t.reread := by
  obtain ⟨hN, h8⟩ := h
  simp only [List.mem_cons, List.not_mem_nil, or_false, forall_eq_or_imp, forall_eq] at h8
  obtain ⟨hmissed, hP1, hP2, htf, htri⟩ := h8
  unfold TimeForecast.lines
  simp only [List.cons_append, List.nil_append]
  exact Reads.line (reads_getline _) (Reads.line (reads_number htf)
    (Reads.line (reads_number (lt_trans htri (by decide)))
      (Reads.bind (reads_getCounts hN hmissed) (reads_getPeriods hP1 hP2))))

theorem reads_getLevel (h : l.Fits) {ls : List HeaderLine} (hls : l.lines = .ok ls) : Reads getLevel ls l := by
  have h8 := h.nat8
  simp only [List.mem_cons, List.not_mem_nil, or_false, forall_eq_or_imp, forall_eq] at h8
  obtain ⟨htype, h11, h12⟩ := h8
  obtain ⟨bounded, hbounded, hls⟩ := bind_eq_ok.mp hls
  cases hls
  have hread : Reads (liftM (Level.isBounded l.levelType) : LineReader Bool) [] bounded := by
    intro rest
    rw [hbounded]
    rfl
  refine Reads.line (reads_getline _) (Reads.line (reads_number htype)
    (Reads.line (reads_number h11) (Reads.line (reads_number h12) (Reads.bind hread ?_))))
  cases bounded with
  | true => exact Reads.line (reads_getline _) (Reads.line (reads_getline _) (Reads.pure _))
  | false => exact Reads.line (reads_getline _) (Reads.pure _)

/-- The C++ types hold the properties of a series. -/
structure ExtractDataProperties.Fits (k : ExtractDataProperties) : Prop where
  cmn : k.cmn.Fits
  fcst : k.add.fcst.Fits
  level : k.add.level.Fits

variable {table : ParameterTable} {text : ValueText} {props : SearchProperties} {searched : TableCode}
  {keys : List ExtractDataProperties}

theorem reads_getSeries (hk : k.Fits) (hsearched : searched < 2 ^ 8) (hprops : props.center = some searched)
    {ls : List HeaderLine} (hls : seriesLines table props k = .ok ls) : Reads getSeries ls (k.reread searched) := by
  obtain ⟨center, tableVersion, parameter, name, searched', level, hcmn, -, hsearched', hlevel, rfl⟩ :=
    seriesLines_eq_ok.mp hls
  obtain rfl := Option.some.inj (hprops.symm.trans hsearched')
  have hvalue : k.reread searched =
      ⟨⟨k.add.fcst.reread, k.add.level⟩, ⟨some searched, some tableVersion, some parameter⟩⟩ := by
    simp only [ExtractDataProperties.reread, hcmn]
  rw [hvalue]
  simp only [List.cons_append, List.nil_append]
  refine Reads.line (reads_token _ _ _) (Reads.line (reads_number ?_) (Reads.line (reads_number ?_)
    (Reads.line (reads_number hsearched) (Reads.bind (reads_getTimeForecast hk.fcst) ?_))))
  · exact hk.cmn.parameter parameter (by rw [hcmn, Option.mem_some_iff])
  · exact hk.cmn.tableVersion tableVersion (by rw [hcmn, Option.mem_some_iff])
  · exact (reads_getLevel hk.level hlevel).bind_pure

theorem reads_getAllSeries (hkeys : ∀ k ∈ keys, k.Fits) (hsearched : searched < 2 ^ 8)
    (hprops : props.center = some searched) {series : List (List HeaderLine)}
    (hls : keys.mapM (seriesLines table props) = .ok series) :
    Reads (getAllSeries keys.length) series.flatten (keys.map (ExtractDataProperties.reread searched)) := by
  rw [mapM_eq_ok] at hls
  induction hls with
  | nil => exact Reads.pure []
  | cons hk _ ih =>
    rw [List.flatten_cons]
    refine Reads.bind (reads_getSeries (hkeys _ List.mem_cons_self) hsearched hprops hk) ?_
    exact (ih fun k hk => hkeys k (List.mem_cons_of_mem _ hk)).bind_pure

end Header

/-! ## The file, read -/

section File

variable {table : ParameterTable} {text : ValueText} {props : SearchProperties} {searched : TableCode}
  {keys : List ExtractDataProperties} {f : TextFile}

/-- The C++ types hold what a header tells. -/
structure HeaderFits (props : SearchProperties) (keys : List ExtractDataProperties) : Prop where
  center : ∀ n ∈ props.center, n < 2 ^ 8
  series : ∀ k ∈ keys, k.Fits
  count : keys.length < 2 ^ 64

theorem word_of_columnName {k : ExtractDataProperties} {name : List Char} (h : columnName table k = .ok name) :
    Word name := by
  unfold columnName at h
  split at h
  · cases h
  · rename_i n hn
    cases h
    exact table.word _ _ _ _ hn

theorem words_of_columnNames {names : List (List Char)} (hnames : keys.mapM (columnName table) = .ok names) :
    ∀ name ∈ names, Word name := by
  intro name hname
  obtain ⟨k, -, hk⟩ := exists_of_mapM hnames name hname
  exact word_of_columnName hk

/-- The names over the columns, by words. -/
theorem splitIgnore_names {names : List (List Char)} (hnames : keys.mapM (columnName table) = .ok names) :
    splitIgnore (setw 18 "Time".toList ++ ['\t'] ++ names.flatMap fun n => setw 10 n ++ ['\t']) =
      "Time".toList :: names := by
  rw [List.append_assoc, List.singleton_append, splitIgnore_setw (by decide),
    splitIgnore_flatMap (words_of_columnNames hnames)]

theorem reads_readHeader (hfits : HeaderFits props keys) (hprops : props.center = some searched)
    {header : List HeaderLine} (hh : getFileHeader table props keys = .ok header) :
    ∃ ls info,
      header = [.mark "Mashroom", .mark "\\header", .param 0 "type" (.num 0), .param 0 "format" (.num 0)] ++ ls ∧
      Reads readHeader ls info ∧ info.paramInfo = keys.map (ExtractDataProperties.reread searched) ∧
      info.version = 1 := by
  obtain ⟨pos, -, hh⟩ := bind_eq_ok.mp hh
  obtain ⟨grid, -, hh⟩ := bind_eq_ok.mp hh
  obtain ⟨series, hseries, hh⟩ := bind_eq_ok.mp hh
  cases hh
  have hsearched := hfits.center _ hprops
  refine ⟨[_] ++ ([_] ++ ([_] ++ ([_] ++ ([_] ++ series.flatten)))),
    ⟨keys.map (ExtractDataProperties.reread searched), ⟨pos.lat, pos.lon⟩, grid, 1⟩, rfl, ?_, rfl, rfl⟩
  exact Reads.bind (reads_number (by decide)) (Reads.bind (reads_coord _) (Reads.bind (reads_coord _)
    (Reads.bind (reads_grid _) (Reads.bind (reads_number hfits.count)
      (reads_getAllSeries hfits.series hsearched hprops hseries).bind_pure))))

/-- The reader comes to the rows with the properties it read, if the names over the columns are theirs. -/
theorem readTxtFile_lines (hfits : HeaderFits props keys) (hprops : props.center = some searched)
    (hh : textHeader table props keys = .ok f.header) {names : List (List Char)}
    (hnames : keys.mapM (columnName table) = .ok names) :
    readTxtFile table text (f.lines text) =
      (checkNames table (keys.map (ExtractDataProperties.reread searched)) names >>= fun _ =>
        readRows text (keys.map (ExtractDataProperties.reread searched))
          (f.rows.map fun r => .row r.time (cellsText text r.cells)) ∅) := by
  obtain ⟨header, hheader, hh⟩ := bind_eq_ok.mp hh
  obtain ⟨columns, hcolumns, hh⟩ := bind_eq_ok.mp hh
  obtain ⟨ls, info, rfl, hread, hinfo, hversion⟩ := reads_readHeader hfits hprops hheader
  rw [getDataHeader, hnames, ok_bind] at hcolumns
  cases hcolumns
  have hlines : f.lines text = .header (.mark "Mashroom") :: .header (.mark "\\header") ::
      (([.param 0 "type" (.num 0)] : List HeaderLine).map TextLine.header ++
        (([.param 0 "format" (.num 0)] : List HeaderLine).map TextLine.header ++ (ls.map TextLine.header ++
          (.header (.mark "\\data") :: .header (.names (setw 18 "Time".toList ++ ['\t'] ++
            names.flatMap fun n => setw 10 n ++ ['\t'])) ::
            f.rows.map fun r => .row r.time (cellsText text r.cells))))) := by
    rw [TextFile.lines, ← Except.ok.inj hh]
    simp
  have hskip : ∀ ls, skipToType (.header (.mark "\\header") ::
      (([.param 0 "type" (.num 0)] : List HeaderLine).map TextLine.header ++ ls)) =
      ([.param 0 "type" (.num 0)] : List HeaderLine).map TextLine.header ++ ls := fun _ => rfl
  have hfirst : ∀ ls, readTxtFile table text (.header (.mark "Mashroom") :: ls) = readTyped table text ls :=
    fun _ => rfl
  rw [hlines, hfirst, readTyped, hskip, reads_number (by decide), ok_bind]
  dsimp only
  rw [if_pos rfl, reads_number (by decide), ok_bind]
  dsimp only
  rw [if_pos rfl, hread, ok_bind]
  have hcount : ¬ (info.paramInfo.length + 1 ≠ ("Time".toList :: names).length) := by
    rw [hinfo, List.length_map, List.length_cons, (mapM_eq_ok.mp hnames).length_eq]
    exact fun h => h rfl
  simp only [readData, hversion, getline, ok_bind, splitIgnore_names hnames, if_neg hcount, List.tail_cons, ne_eq,
    not_true_eq_false, if_false]
  rw [hinfo]

/-- The values of a row, under the properties of their columns. -/
def rowPairs (keys : List ExtractDataProperties) (r : TextRow) : List (ExtractDataProperties × ExtractedValue) :=
  (keys.zip r.cells).filterMap fun kc => kc.2.map fun value => (kc.1, { timeDate := r.time * nsPerSecond, value })

theorem words_of_cells {cells : List (Option ℚ)} : ∀ w ∈ cells.map (cellText text), Word w := by
  intro w hw
  obtain ⟨c, -, rfl⟩ := List.mem_map.mp hw
  cases c with
  | none =>
    have hnan : Word ['N', 'a', 'N'] := by decide
    exact hnan
  | some v => exact text.word v

theorem splitIgnore_cellsText {cells : List (Option ℚ)} :
    splitIgnore (cellsText text cells) = cells.map (cellText text) := by
  rw [cellsText, splitIgnore_separator (by decide), splitIgnore_flatMap words_of_cells]

/-- A printed value is read, and `NaN` is passed over. -/
theorem readCells_eq {time : ℤ} {cells : List (Option ℚ)} {result : ExtractedValues} :
    readCells text time keys (cells.map (cellText text)) result =
      .ok (Dict.pushAll result (rowPairs keys { time, cells })) := by
  induction keys generalizing cells result with
  | nil => rfl
  | cons k keys ih =>
    cases cells with
    | nil => rfl
    | cons c cells =>
      cases c with
      | none =>
        rw [List.map_cons, readCells, cellText, Option.elim_none, if_pos rfl, ih]
        rfl
      | some v =>
        rw [List.map_cons, readCells, cellText, Option.elim_some, if_neg (text.ne_nan v)]
        simp only [text.parse_print]
        rw [ih]
        rfl

/-- The rows are read where they have a cell for each series. -/
theorem readRows_iff {rows : List TextRow} {result r : ExtractedValues} :
    readRows text keys (rows.map fun r => .row r.time (cellsText text r.cells)) result = .ok r ↔
      (∀ row ∈ rows, keys.length ≤ row.cells.length) ∧ r = Dict.pushAll result (rows.flatMap (rowPairs keys)) := by
  induction rows generalizing result with
  | nil => simp [readRows, Dict.pushAll, eq_comm]
  | cons row rows ih =>
    rw [List.map_cons, readRows, splitIgnore_cellsText, List.length_map, List.forall_mem_cons, List.flatMap_cons,
      Dict.pushAll_append]
    by_cases hlength : row.cells.length < keys.length
    · rw [if_pos hlength]
      simp [not_le.mpr hlength]
    · rw [if_neg hlength, readCells_eq, ok_bind, ih]
      simp [not_lt.mp hlength]

theorem checkNames_self {names : List (List Char)} (hheaded : ∀ k ∈ keys, k.Headed table)
    (hnames : keys.mapM (columnName table) = .ok names) : checkNames table keys names = .ok () := by
  rw [mapM_eq_ok] at hnames
  induction hnames with
  | nil => rfl
  | @cons k name keys names hk _ ih =>
    have hcheck : checkName table k name = .ok () := by
      obtain ⟨center, tableVersion, parameter, n, hcmn, hn, -⟩ := hheaded _ List.mem_cons_self
      simp only [columnName, hcmn, Option.getD_some, hn, Except.ok.injEq] at hk
      simp only [checkName, hcmn, optionalValue, ok_bind, hn, hk, if_true]
      rfl
    rw [checkNames, hcheck, ok_bind]
    exact ih fun k hk => hheaded k (List.mem_cons_of_mem _ hk)

/-- **What is read of a written file**, when it can be read. -/
theorem of_readTxtFile (hfits : HeaderFits props keys) (hprops : props.center = some searched)
    (hh : textHeader table props keys = .ok f.header) {r : ExtractedValues}
    (hr : readTxtFile table text (f.lines text) = .ok r) : (∀ row ∈ f.rows, keys.length ≤ row.cells.length) ∧
      r = Dict.pushAll ∅ (f.rows.flatMap (rowPairs (keys.map (ExtractDataProperties.reread searched)))) := by
  obtain ⟨header, -, hcolumns⟩ := bind_eq_ok.mp hh
  obtain ⟨columns, hcolumns, -⟩ := bind_eq_ok.mp hcolumns
  obtain ⟨names, hnames, -⟩ := bind_eq_ok.mp hcolumns
  rw [readTxtFile_lines hfits hprops hh hnames] at hr
  obtain ⟨-, -, hr⟩ := bind_eq_ok.mp hr
  have hrows := readRows_iff.mp hr
  rw [List.length_map] at hrows
  exact hrows

/-- **A written file is read**, where its series are read as they were, and each has a cell in each row. -/
theorem readTxtFile_of_reread (hfits : HeaderFits props keys) (hprops : props.center = some searched)
    (hheaded : ∀ k ∈ keys, k.Headed table) (hh : textHeader table props keys = .ok f.header)
    (hreread : ∀ k ∈ keys, k.reread searched = k) (hcells : ∀ row ∈ f.rows, keys.length ≤ row.cells.length) :
    readTxtFile table text (f.lines text) = .ok (Dict.pushAll ∅ (f.rows.flatMap (rowPairs keys))) := by
  obtain ⟨header, -, hcolumns⟩ := bind_eq_ok.mp hh
  obtain ⟨columns, hcolumns, -⟩ := bind_eq_ok.mp hcolumns
  obtain ⟨names, hnames, -⟩ := bind_eq_ok.mp hcolumns
  have hmap : keys.map (ExtractDataProperties.reread searched) = keys :=
    (List.map_congr_left hreread).trans (List.map_id' _)
  rw [readTxtFile_lines hfits hprops hh hnames, hmap, checkNames_self hheaded hnames, ok_bind]
  exact readRows_iff.mpr ⟨hcells, rfl⟩

end File

/-! ## Values as fractions -/

/-- The digits of a number. -/
def digits (n : ℕ) : List Char := Nat.toDigits 10 n

theorem isDigit_of_mem_digits {n : ℕ} {c : Char} (h : c ∈ digits n) : c.isDigit = true :=
  Nat.isDigit_of_mem_toDigits (by decide) (by decide) h

theorem ne_of_mem_digits {n : ℕ} {c : Char} (h : c ∈ digits n) : c ∉ [' ', '\t', '\n', '/', '-', 'N'] := by
  intro hc
  have hdigit := isDigit_of_mem_digits h
  simp only [List.mem_cons, List.not_mem_nil, or_false] at hc
  rcases hc with rfl | rfl | rfl | rfl | rfl | rfl <;> exact absurd hdigit (by decide)

def fractionPrint (v : ℚ) : List Char :=
  (if v.num < 0 then ['-'] else []) ++ digits v.num.natAbs ++ if v.den = 1 then [] else '/' :: digits v.den

/-- The number behind the stroke, if there is one. -/
def denominator : List Char → ℕ
  | [] => 1
  | _ :: ds => Nat.ofDigitChars 10 ds 0

def fractionParse (s : List Char) : Option ℚ :=
  let sign : ℤ := if s.head? = some '-' then -1 else 1
  let s := if s.head? = some '-' then s.tail else s
  let num := Nat.ofDigitChars 10 (s.takeWhile (· ≠ '/')) 0
  some (sign * num / denominator (s.dropWhile (· ≠ '/')))

theorem ofDigitChars_digits (n : ℕ) : Nat.ofDigitChars 10 (digits n) 0 = n :=
  Nat.ofDigitChars_toDigits (by decide) (by decide)

section Fraction

variable {n d : ℕ} {l : List Char}

theorem ne_stroke : ∀ c ∈ digits n, decide (c ≠ '/') = true := by
  intro c hc
  refine decide_eq_true ?_
  rintro rfl
  exact ne_of_mem_digits hc (by simp)

theorem takeWhile_digits : (digits n ++ if d = 1 then [] else '/' :: digits d).takeWhile (· ≠ '/') = digits n := by
  rw [List.takeWhile_append_of_pos ne_stroke]
  split <;> simp

theorem dropWhile_digits : (digits n ++ if d = 1 then [] else '/' :: digits d).dropWhile (· ≠ '/') =
    if d = 1 then [] else '/' :: digits d := by
  rw [List.dropWhile_append_of_pos ne_stroke]
  split <;> simp

theorem denominator_digits : denominator (if d = 1 then [] else '/' :: digits d) = d := by
  split
  · rename_i hd
    exact hd.symm
  · exact ofDigitChars_digits d

theorem head_digits : (digits n ++ l).head? ≠ some '-' := by
  intro h
  have hne : digits n ≠ [] := Nat.toDigits_ne_nil
  rw [List.head?_append_of_ne_nil _ hne] at h
  exact ne_of_mem_digits (List.mem_of_head? h) (by simp)

/-- A fraction without a sign. -/
theorem fractionParse_digits :
    fractionParse (digits n ++ if d = 1 then [] else '/' :: digits d) = some ((n : ℚ) / d) := by
  simp only [fractionParse, if_neg head_digits, takeWhile_digits, dropWhile_digits, ofDigitChars_digits,
    denominator_digits]
  simp

theorem fractionParse_neg : fractionParse ('-' :: (digits n ++ if d = 1 then [] else '/' :: digits d)) =
    some (-((n : ℚ) / d)) := by
  simp only [fractionParse, List.head?_cons, if_true, List.tail_cons, takeWhile_digits, dropWhile_digits,
    ofDigitChars_digits, denominator_digits]
  simp [neg_div]

end Fraction

/-- Fractions in lowest terms. -/
def fractionText : ValueText where
  print := fractionPrint
  parse := fractionParse
  word v := by
    refine ⟨?_, fun c hc => ?_⟩
    · simp [fractionPrint, digits, Nat.toDigits_ne_nil]
    · have hmem : c = '-' ∨ c = '/' ∨ c ∈ digits v.num.natAbs ∨ c ∈ digits v.den := by
        unfold fractionPrint at hc
        split at hc <;> split at hc <;> simp at hc <;> tauto
      rcases hmem with rfl | rfl | h | h
      · decide
      · decide
      · have := ne_of_mem_digits h
        simp only [List.mem_cons, not_or] at this
        tauto
      · have := ne_of_mem_digits h
        simp only [List.mem_cons, not_or] at this
        tauto
  ne_nan v h := by
    have hN : 'N' ∈ fractionPrint v := by rw [h]; simp
    have hmem : 'N' ∈ digits v.num.natAbs ∨ 'N' ∈ digits v.den := by
      unfold fractionPrint at hN
      split at hN <;> split at hN <;> simp at hN <;> tauto
    rcases hmem with h | h
    · exact ne_of_mem_digits h (by simp)
    · exact ne_of_mem_digits h (by simp)
  parse_print v := by
    have hv : (v.num : ℚ) / v.den = v := Rat.num_div_den v
    rw [fractionPrint]
    by_cases hneg : v.num < 0
    · have hnum : (v.num.natAbs : ℚ) = -v.num := by
        rw [Nat.cast_natAbs, abs_of_neg hneg, Int.cast_neg]
      rw [if_pos hneg, List.append_assoc, List.singleton_append, fractionParse_neg, hnum, neg_div, neg_neg, hv]
    · have hnum : (v.num.natAbs : ℚ) = v.num := by
        rw [Nat.cast_natAbs, abs_of_nonneg (not_lt.mp hneg)]
      rw [if_neg hneg, List.nil_append, fractionParse_digits, hnum, hv]

end Mashroom
