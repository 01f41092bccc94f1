import Mashroom.Lib.TextStream
import Mashroom.Proc.ReadText

/-!
# Proc.RawText — the text files, read from their characters

The reader of a file, from its first character on.  A file begins with a signature and the marker of its header, and
there is a marker before its data.  Of the first two only one is asked for, and the line before the data is compared
with its marker only when there is none (`readTxtFile_marked_iff`).
-/

namespace Mashroom.RawText

open TextStream

/-- What the reader calls: `parameter_table`, and the standard library for numbers and times. -/
structure TextLib where
  table : ParameterTable
  values : ValueText
  coords : ValueText
  /-- `std::chrono::parse` of the characters that are left: the time, and the stream behind it -/
  time : List Char → Option ℤ × TextStream
  time_size : ∀ rest, (time rest).2.size ≤ (ofText rest).size

/-! ## Tokens -/

/-- A reader of a stream. -/
abbrev Reader := StateT TextStream (Except Fault)

/-- `std::getline`, whose failure is an error. -/
def readLine : Reader (List Char) := fun s =>
  match s.getline [] with
  | (true, buffer, s) => .ok (buffer, s)
  | (false, _, _) => .error .exception

/-- `get_txt_token` of a line: the characters behind the token. -/
def tokenValue (token : String) (buffer : List Char) : Except Fault (List Char) :=
  let view := buffer.dropWhile isSeparator
  if token.toList ++ [':'] <+: view then .ok (view.drop (token.toList.length + 1)) else .error .exception

/-- The number of the digits that come first, below a bound. -/
def fromDigits (bound : ℕ) (s : List Char) : Except Fault ℕ :=
  let digits := s.takeWhile Char.isDigit
  if digits = [] then .error .exception
  else if Nat.ofDigitChars 10 digits 0 < bound then .ok (Nat.ofDigitChars 10 digits 0)
  else .error .exception

/-- `std::from_chars` to an unsigned type of so many bits. -/
def fromChars (bits : ℕ) (s : List Char) : Except Fault ℕ := fromDigits (2 ^ bits) s

/-- `std::from_chars` to `int` -/
def fromCharsInt : List Char → Except Fault ℤ
  | '-' :: s => do
    let n ← fromDigits (2 ^ 31 + 1) s
    return -n
  | s => do
    let n ← fromDigits (2 ^ 31) s
    return n

/-- `get_txt_token` of the next line. -/
def getTxtToken (token : String) : Reader (List Char) := do
  let buffer ← readLine
  tokenValue token buffer

def getTxtNumber (bits : ℕ) (token : String) : Reader ℕ := do
  let value ← getTxtToken token
  fromChars bits value

def getTxtInt (token : String) : Reader ℤ := do
  let value ← getTxtToken token
  fromCharsInt value

/-! ## The header -/

/-- The counts of a forecast that has them. -/
def getCounts (result : TimeForecast) : Reader TimeForecast :=
  if result.isIntervaled then do
    let N ← getTxtNumber 16 "N avg/acc"
    let NAvgAccMissed ← getTxtNumber 8 "N missed"
    return { result with N, NAvgAccMissed }
  else return result

/-- The periods of a forecast: of one in two octets, `P1` is set twice. -/
def getPeriods (result : TimeForecast) : Reader TimeForecast :=
  if result.octetDoubled then do
    let tmp ← getTxtNumber 16 "P1"
    let result := { result with P1 := (tmp >>> 8) &&& 127 }
    return { result with P1 := tmp &&& 127 }
  else if result.isUniqueValue then do
    let P1 ← getTxtNumber 8 "P1"
    return { result with P1 }
  else do
    let P1 ← getTxtNumber 8 "P1"
    let P2 ← getTxtNumber 8 "P2"
    return { result with P1, P2 }

/-- `get_txt_structure<TimeForecast>` -/
def getTimeForecast : Reader TimeForecast := do
  let _ ← readLine
  let tf ← getTxtNumber 8 "time frame"
  let tri ← getTxtNumber 32 "time range indicator"
  let result ← getCounts { tf, tri, P1 := 0, P2 := 0 }
  getPeriods result

/-- `get_txt_structure<Level>`: heights and bounds are passed over. -/
def getLevel : Reader Level := do
  let _ ← readLine
  let levelType ← getTxtNumber 8 "tag"
  let octet11 ← getTxtNumber 8 "o11"
  let octet12 ← getTxtNumber 8 "o12"
  if ← Level.isBounded levelType then
    let _ ← readLine
    let _ ← readLine
    return { levelType, octet11, octet12 }
  else
    let _ ← readLine
    return { levelType, octet11, octet12 }

/-- `get_common_data_properties`: the forecast and the level are kept with the additional ones. -/
def getCommonDataProperties : Reader ExtractDataProperties := do
  let _ ← getTxtToken "name"
  let parameter ← getTxtNumber 8 "indicator"
  let tableVersion ← getTxtNumber 8 "table version"
  let center ← getTxtNumber 8 "center"
  let fcst ← getTimeForecast
  let level ← getLevel
  return { add := { fcst, level }, cmn := ⟨some center, some tableVersion, some parameter⟩ }

/-- The loop over the parameters. -/
def getParamInfo : ℕ → Reader (List ExtractDataProperties)
  | 0 => pure []
  | n + 1 => do
    let k ← getCommonDataProperties
    let ks ← getParamInfo n
    return k :: ks

structure HeaderInfo where
  paramInfo : List ExtractDataProperties
  pos : Coord
  /-- the number of the representation, which may be none of the table -/
  gridT : ℕ
  version : ℤ

section Code

variable (lib : TextLib)

def getTxtCoord (token : String) : Reader ℚ := do
  let value ← getTxtToken token
  match lib.coords.parse value with
  | some q => return q
  | none => throw .exception

def readHeader : Reader HeaderInfo := do
  let version ← getTxtInt "version"
  let lat ← getTxtCoord lib "latitude"
  let lon ← getTxtCoord lib "longitude"
  let gridT ← getTxtNumber 8 "grid"
  let numberOfParameters ← getTxtNumber 64 "parameters"
  let paramInfo ← getParamInfo numberOfParameters
  return { paramInfo, pos := ⟨lat, lon⟩, gridT, version }

/-! ## The data -/

/-- `stream >> std::chrono::parse(..)`: from a stream at its end nothing is taken. -/
def parseTime (s : TextStream) : Option ℤ × TextStream := if s.eof then (none, s) else lib.time s.rest

theorem size_parseTime (s : TextStream) : (parseTime lib s).2.size ≤ s.size := by
  obtain ⟨rest, eof⟩ := s
  cases eof with
  | true => exact le_rfl
  | false => exact lib.time_size rest

/-- The loop over the rows, to the end of the file. -/
def readRows (keys : List ExtractDataProperties) (s : TextStream) (result : ExtractedValues) :
    Except Fault ExtractedValues :=
  match _ht : parseTime lib s with
  | (none, s') => if s'.eof then .ok result else .error .exception
  | (some time, s') =>
    match _hl : s'.getline [] with
    | (false, _, _) => .error .exception
    | (true, buffer, s'') => do
      let values := splitIgnore buffer
      if values.length < keys.length then .error .exception
      else
        let result ← readCells lib.values time keys values result
        readRows keys s'' result
termination_by s.size
decreasing_by
  have htime := size_parseTime lib s
  have hline : (s'.getline []).2.2.size < s'.size := size_getline (by rw [_hl])
  rw [_ht] at htime
  rw [_hl] at hline
  exact lt_of_lt_of_le hline htime

/-- `read_data`: the line of the marker is compared with it only when there is no line. -/
def readData (headerInfo : HeaderInfo) (s : TextStream) : Except Fault ExtractedValues :=
  if headerInfo.version = 1 then
    let (found, buffer, s) := s.getline []
    if found = false ∧ buffer ≠ "\\data".toList then .error .exception
    else do
      let (buffer, s) ← readLine s
      let dataHeadNames := splitIgnore buffer
      if headerInfo.paramInfo.length + 1 ≠ dataHeadNames.length then .error .exception
      else
        checkNames lib.table headerInfo.paramInfo dataHeadNames.tail
        readRows lib headerInfo.paramInfo s ∅
  else .error .exception

/-! ## The file -/

/-- The test of the first lines: the second one is read only if the first is not the signature. -/
def readSignature (s : TextStream) : Except Fault (List Char × TextStream) :=
  let (found, buffer, s) := s.getline []
  if found = false ∨ buffer ≠ "Mashroom".toList then
    let (found, buffer, s) := s.getline buffer
    if found = false ∨ buffer ≠ "\\header".toList then .error .exception else .ok (buffer, s)
  else .ok (buffer, s)

/-- The lines up to the one of the type. -/
def skipToType (buffer : List Char) (s : TextStream) : List Char × TextStream :=
  match _hl : s.getline buffer with
  | (false, buffer, s') => (buffer, s')
  | (true, buffer, s') => if "type:".toList <+: buffer then (buffer, s') else skipToType buffer s'
termination_by s.size
decreasing_by
  have hline : (s.getline _).2.2.size < s.size := size_getline (by rw [_hl])
  rw [_hl] at hline
  exact hline

/-- The type that a line tells. -/
def typeOf (buffer : List Char) : Except Fault ℕ := do
  let value ← tokenValue "type" buffer
  fromChars 8 value

/-- The reader by the type and the format that the file tells: other types than series are not read. -/
def readTyped (buffer : List Char) (s : TextStream) : Except Fault ExtractedValues := do
  let (buffer, s) := skipToType buffer s
  let type ← typeOf buffer
  if type = 0 then
    let (format, s) ← getTxtInt "format" s
    if format = 0 then
      let (headerInfo, s) ← readHeader lib s
      readData lib headerInfo s
    else .error .exception
  else if type ≤ 3 then .ok ∅
  else .error .exception

/-- `read_txt_file`, on the characters of a file that is open. -/
def readTxtFile (content : List Char) : Except Fault ExtractedValues := do
  let (buffer, s) ← readSignature (ofText content)
  readTyped lib buffer s

end Code

/-! ## Lines, read -/

/-- What is behind a line: nothing, or a newline and more. -/
def behind (more : Option (List Char)) : List Char := more.elim [] ('\n' :: ·)

/-- A reader takes some lines, whatever follows. -/
def Reads {α : Type} (x : Reader α) (lines : List Line) (a : α) : Prop :=
  ∀ rest, x (ofText (unlines lines ++ rest)) = .ok (a, ofText rest)

/-- What a reader does, and then the next one. -/
theorem bind_run {σ α β : Type} (x : StateT σ (Except Fault) α) (g : α → StateT σ (Except Fault) β) (s : σ) :
    (x >>= g) s = x s >>= fun r => g r.1 r.2 := rfl

section Reads

variable {α β : Type} {x : Reader α} {g : α → Reader β} {lines lines' : List Line} {line : Line} {a : α} {b : β}
  {s : TextStream} {buffer : List Char} {more : Option (List Char)}

theorem Reads.pure (a : α) : Reads (Pure.pure a) [] a := fun _ => rfl

theorem Reads.bind (hx : Reads x lines a) (hg : Reads (g a) lines' b) : Reads (x >>= g) (lines ++ lines') b := by
  intro rest
  rw [bind_run, unlines_append, hx, ok_bind]
  exact hg rest

/-- A line that is read, and then the rest. -/
theorem Reads.cons (hx : Reads x [line] a) (hg : Reads (g a) lines b) : Reads (x >>= g) (line :: lines) b :=
  hx.bind hg

/-- The line is in the string, whether or not one was found. -/
theorem getline_behind (buffer : List Char) (line : Line) (more : Option (List Char)) :
    ∃ found s, (ofText (line.chars ++ behind more)).getline buffer = (found, line.chars, s) := by
  cases more with
  | some rest => exact ⟨true, _, getline_line buffer line⟩
  | none =>
    have hlast := getline_last buffer line
    exact ⟨_, _, by rw [behind, Option.elim_none, List.append_nil]; exact hlast⟩

theorem readLine_line (line : Line) (rest : List Char) :
    readLine (ofText (line.chars ++ '\n' :: rest)) = .ok (line.chars, ofText rest) := by
  rw [readLine, ofText, getline_line]
  rfl

theorem readLine_eof (h : s.eof = true) : readLine s = .error .exception := by
  rw [readLine, getline_eof _ h]

theorem reads_readLine (line : Line) : Reads readLine [line] line.chars := by
  intro rest
  rw [unlines_cons]
  exact readLine_line line rest

/-- What stands behind a token that begins a line, behind its tabs. -/
theorem tokenValue_self (indent : ℕ) {token : String} (value : List Char)
    (h : token.toList.head?.any isSeparator = false) :
    tokenValue token (List.replicate indent '\t' ++ (token.toList ++ ':' :: value)) = .ok value := by
  have htoken : (token.toList ++ ':' :: value).dropWhile isSeparator = token.toList ++ ':' :: value := by
    cases htoken : token.toList with
    | nil => exact List.dropWhile_cons_of_neg (by simp [isSeparator])
    | cons c cs =>
      have hc : isSeparator c = false := by
        rw [htoken] at h
        exact h
      exact List.dropWhile_cons_of_neg (by rw [hc]; exact Bool.false_ne_true)
  have htabs : ∀ c ∈ List.replicate indent '\t', isSeparator c = true := by
    intro c hc
    rw [List.eq_of_mem_replicate hc]
    rfl
  have hprefix : token.toList ++ [':'] <+: token.toList ++ ':' :: value := ⟨value, by simp⟩
  simp [tokenValue, List.dropWhile_append_of_pos htabs, htoken, hprefix]

theorem reads_getTxtToken {token : String} {value : List Char} (h : token.toList.head?.any isSeparator = false)
    (hline : line.chars = token.toList ++ ':' :: value) : Reads (getTxtToken token) [line] value := by
  have hvalue : tokenValue token (token.toList ++ ':' :: value) = .ok value := tokenValue_self 0 value h
  have hcheck : Reads (liftM (tokenValue token line.chars) : Reader (List Char)) [] value := by
    intro rest
    rw [hline, hvalue]
    rfl
  exact (reads_readLine line).bind hcheck

/-- A token whose value is taken as it is. -/
theorem Reads.check {h : α → Except Fault β} (hx : Reads x lines a) (ha : h a = .ok b) :
    Reads (x >>= fun a => liftM (h a)) lines b := by
  have hcheck : Reads (liftM (h a) : Reader β) [] b := by
    intro rest
    rw [ha]
    rfl
  have hread := Reads.bind (g := fun a => liftM (h a)) hx hcheck
  rw [List.append_nil] at hread
  exact hread

end Reads

/-! ## The names over the columns -/

section Names

variable {table : ParameterTable} {k : ExtractDataProperties} {keys : List ExtractDataProperties}

/-- The centre, the table version and the parameter of a series are there. -/
def Complete (k : ExtractDataProperties) : Prop :=
  k.cmn.center.isSome ∧ k.cmn.tableVersion.isSome ∧ k.cmn.parameter.isSome

/-- A name that is taken over the column of a series. -/
def headName (table : ParameterTable) (k : ExtractDataProperties) : List Char :=
  (table.name (k.cmn.center.getD 0) (k.cmn.tableVersion.getD 0) (k.cmn.parameter.getD 0)).getD ['x']

theorem word_headName : Word (headName table k) := by
  unfold headName
  cases hname : table.name (k.cmn.center.getD 0) (k.cmn.tableVersion.getD 0) (k.cmn.parameter.getD 0) with
  | none =>
    have hx : Word ['x'] := by decide
    exact hx
  | some name => exact table.word _ _ _ _ hname

theorem complete_of_checkName {name : List Char} (h : checkName table k name = .ok ()) : Complete k := by
  obtain ⟨center, hcenter, h⟩ := bind_eq_ok.mp h
  obtain ⟨tableVersion, htableVersion, h⟩ := bind_eq_ok.mp h
  obtain ⟨parameter, hparameter, -⟩ := bind_eq_ok.mp h
  have hsome : ∀ {α : Type} {o : Option α} {a : α}, optionalValue o = .ok a → o.isSome = true := by
    intro α o a ho
    cases o with
    | none => cases ho
    | some _ => rfl
  exact ⟨hsome hcenter, hsome htableVersion, hsome hparameter⟩

theorem checkName_headName (h : Complete k) : checkName table k (headName table k) = .ok () := by
  obtain ⟨center, hcenter⟩ := Option.isSome_iff_exists.mp h.1
  obtain ⟨tableVersion, htableVersion⟩ := Option.isSome_iff_exists.mp h.2.1
  obtain ⟨parameter, hparameter⟩ := Option.isSome_iff_exists.mp h.2.2
  simp only [checkName, headName, hcenter, htableVersion, hparameter, optionalValue, ok_bind, Option.getD_some]
  cases table.name center tableVersion parameter with
  | none => rfl
  | some name => exact if_pos rfl

theorem complete_of_checkNames {names : List (List Char)} (hlength : keys.length = names.length)
    (h : checkNames table keys names = .ok ()) : ∀ k ∈ keys, Complete k := by
  induction keys generalizing names with
  | nil => simp
  | cons k keys ih =>
    cases names with
    | nil => cases hlength
    | cons name names =>
      obtain ⟨⟨⟩, hname, h⟩ := bind_eq_ok.mp h
      intro k' hk'
      rcases List.mem_cons.mp hk' with rfl | hk'
      · exact complete_of_checkName hname
      · exact ih (Nat.succ.inj hlength) h k' hk'

theorem checkNames_headName (h : ∀ k ∈ keys, Complete k) :
    checkNames table keys (keys.map (headName table)) = .ok () := by
  induction keys with
  | nil => rfl
  | cons k keys ih =>
    rw [List.map_cons, checkNames, checkName_headName (h k List.mem_cons_self), ok_bind]
    exact ih fun k hk => h k (List.mem_cons_of_mem _ hk)

theorem newline_of_word {w : List Char} (h : Word w) : '\n' ∉ w := fun hmem => (h.2 _ hmem).2.2 rfl

/-- Words that are filled up, each before a tab, are on one line. -/
theorem newline_words {width : ℕ} {ws : List (List Char)} (h : ∀ w ∈ ws, Word w) :
    '\n' ∉ ws.flatMap fun w => setw width w ++ ['\t'] := by
  intro hmem
  obtain ⟨w, hw, hmem⟩ := List.mem_flatMap.mp hmem
  have hnewline := newline_of_word (h w hw)
  simp [setw, hnewline] at hmem

theorem words_headName : ∀ w ∈ "Time".toList :: keys.map (headName table), Word w := by
  intro w hw
  rcases List.mem_cons.mp hw with rfl | hw
  · decide
  · obtain ⟨k, -, rfl⟩ := List.mem_map.mp hw
    exact word_headName

/-- The line of the names. -/
def namesLine (table : ParameterTable) (keys : List ExtractDataProperties) : Line where
  chars := ("Time".toList :: keys.map (headName table)).flatMap fun w => setw 0 w ++ ['\t']
  newline := newline_words words_headName

theorem splitIgnore_namesLine :
    splitIgnore (namesLine table keys).chars = "Time".toList :: keys.map (headName table) :=
  splitIgnore_flatMap words_headName

end Names

/-! ## The data, read -/

section Data

variable {lib : TextLib} {headerInfo : HeaderInfo} {s : TextStream} {r : ExtractedValues} {line : Line}

/-- At the end of the file there are no more rows. -/
theorem readRows_eof {keys : List ExtractDataProperties} (h : s.eof = true) : readRows lib keys s r = .ok r := by
  have htime : parseTime lib s = (none, s) := if_pos h
  rw [readRows]
  split
  · rename_i s' hs
    rw [htime] at hs
    rw [← (Prod.mk.inj hs).2, if_pos h]
  · rename_i hs
    rw [htime] at hs
    cases hs

/-- The header of data that is read. -/
theorem complete_of_readData (h : readData lib headerInfo s = .ok r) :
    headerInfo.version = 1 ∧ ∀ k ∈ headerInfo.paramInfo, Complete k := by
  unfold readData at h
  by_cases hversion : headerInfo.version = 1
  · rw [if_pos hversion] at h
    dsimp only at h
    split at h
    · cases h
    · obtain ⟨⟨buffer, s'⟩, -, h⟩ := bind_eq_ok.mp h
      dsimp only at h
      split at h
      · cases h
      · rename_i hlength
        obtain ⟨⟨⟩, hnames, -⟩ := bind_eq_ok.mp h
        refine ⟨hversion, complete_of_checkNames ?_ hnames⟩
        rw [List.length_tail]
        omega
  · rw [if_neg hversion] at h
    cases h

/-- Names over no rows are read, whatever line is before them. -/
theorem readData_namesLine (line : Line) (hversion : headerInfo.version = 1)
    (h : ∀ k ∈ headerInfo.paramInfo, Complete k) :
    readData lib headerInfo
      (ofText (line.chars ++ '\n' :: (namesLine lib.table headerInfo.paramInfo).chars)) = .ok ∅ := by
  have hmark : (ofText (line.chars ++ '\n' :: (namesLine lib.table headerInfo.paramInfo).chars)).getline [] =
      (true, line.chars, ofText (namesLine lib.table headerInfo.paramInfo).chars) := getline_line [] line
  have hnames : readLine (ofText (namesLine lib.table headerInfo.paramInfo).chars) =
      .ok ((namesLine lib.table headerInfo.paramInfo).chars, ⟨[], true⟩) := by
    have hne : (namesLine lib.table headerInfo.paramInfo).chars ≠ [] := by simp [namesLine, setw]
    rw [readLine, ofText, getline_last, decide_eq_true hne]
  unfold readData
  rw [if_pos hversion, hmark]
  dsimp only
  rw [if_neg (by simp), hnames, ok_bind]
  dsimp only
  rw [splitIgnore_namesLine, if_neg (by simp), List.tail_cons, checkNames_headName h, ok_bind]
  exact readRows_eof rfl

theorem readData_eof (h : s.eof = true) : readData lib headerInfo s ≠ .ok r := by
  intro hr
  unfold readData at hr
  rw [getline_eof _ h] at hr
  dsimp only at hr
  split at hr
  · rw [if_pos ⟨rfl, by decide⟩] at hr
    cases hr
  · cases hr

/-- A file that ends with the line before the names has no data. -/
theorem readData_line : readData lib headerInfo (ofText line.chars) ≠ .ok r := by
  intro h
  unfold readData at h
  rw [ofText, getline_last] at h
  dsimp only at h
  rw [readLine_eof rfl] at h
  split at h
  · split at h <;> cases h
  · cases h

end Data

/-! ## The first lines -/

def signature : List Char := "Mashroom".toList

def headerMark : List Char := "\\header".toList

def dataMark : List Char := "\\data".toList

def signatureLine : Line := ⟨signature, by decide⟩

def headerLine : Line := ⟨headerMark, by decide⟩

def dataLine : Line := ⟨dataMark, by decide⟩

/-- A text by its first two lines. -/
def fileOf (first second : Line) (more : Option (List Char)) : List Char :=
  first.chars ++ '\n' :: (second.chars ++ behind more)

/-- A line that begins as the one of the type. -/
def TypeLine (line : List Char) : Prop := "type:".toList <+: line

/-- A line that tells one of the types. -/
def KnownType (line : List Char) : Prop := ∃ t ≤ 3, typeOf line = .ok t

section Signature

variable {lib : TextLib} {first second line : Line} {more : Option (List Char)} {rest buffer : List Char}
  {s : TextStream} {r : ExtractedValues}

/-- A text has one line, or a first and a second one. -/
theorem exists_fileOf (content : List Char) :
    (∃ line : Line, content = line.chars) ∨ ∃ first second more, content = fileOf first second more := by
  rcases exists_line content with hline | ⟨first, rest, rfl⟩
  · exact .inl hline
  · rcases exists_line rest with ⟨second, rfl⟩ | ⟨second, rest, rfl⟩
    · exact .inr ⟨first, second, none, by rw [fileOf, behind, Option.elim_none, List.append_nil]⟩
    · exact .inr ⟨first, second, some rest, rfl⟩

theorem getline_fileOf : (ofText (fileOf first second more)).getline buffer =
    (true, first.chars, ofText (second.chars ++ behind more)) := getline_line _ first

/-- Behind the signature the second line is not read yet. -/
theorem readSignature_signature (h : first.chars = signature) :
    readSignature (ofText (first.chars ++ '\n' :: rest)) = .ok (signature, ofText rest) := by
  have hline : (ofText (first.chars ++ '\n' :: rest)).getline [] = (true, first.chars, ofText rest) :=
    getline_line [] first
  have hfirst : ¬ (true = false ∨ first.chars ≠ "Mashroom".toList) := by
    rintro (hfound | hne)
    · cases hfound
    · exact hne h
  unfold readSignature
  rw [hline]
  dsimp only
  rw [if_neg hfirst, h]

/-- The marker of the header is enough. -/
theorem readSignature_header (h : first.chars ≠ signature) (hsecond : second.chars = headerMark) :
    readSignature (ofText (fileOf first second (some rest))) = .ok (headerMark, ofText rest) := by
  have hline : (ofText (second.chars ++ behind (some rest))).getline first.chars =
      (true, second.chars, ofText rest) := getline_line _ second
  have hmark : ¬ (true = false ∨ second.chars ≠ "\\header".toList) := by
    rintro (hfound | hne)
    · cases hfound
    · exact hne hsecond
  unfold readSignature
  rw [getline_fileOf]
  dsimp only
  rw [if_pos (.inr h), hline]
  dsimp only
  rw [if_neg hmark, hsecond]

/-- One of the two has to be there. -/
theorem readSignature_neither (h : first.chars ≠ signature) (hsecond : second.chars ≠ headerMark) :
    readSignature (ofText (fileOf first second more)) = .error .exception := by
  obtain ⟨found, s, hline⟩ := getline_behind first.chars second more
  unfold readSignature
  rw [getline_fileOf]
  dsimp only
  rw [if_pos (.inr h), hline]
  dsimp only
  rw [if_pos (.inr hsecond)]

/-! ## The type -/

theorem skipToType_eof (h : s.eof = true) : skipToType buffer s = (buffer, s) := by
  rw [skipToType]
  split
  · rename_i hline
    rw [getline_eof _ h] at hline
    cases hline
    rfl
  · rename_i hline
    rw [getline_eof _ h] at hline
    cases hline

/-- A line of the type is where the search ends. -/
theorem skipToType_type (buffer : List Char) (more : Option (List Char)) (h : TypeLine line.chars) :
    ∃ s, skipToType buffer (ofText (line.chars ++ behind more)) = (line.chars, s) ∧
      ∀ rest, more = some rest → s = ofText rest := by
  obtain ⟨found, s, hline⟩ := getline_behind buffer line more
  have hs : ∀ rest, more = some rest → s = ofText rest := by
    rintro rest rfl
    have hnext : (ofText (line.chars ++ behind (some rest))).getline buffer = (true, line.chars, ofText rest) :=
      getline_line buffer line
    rw [hnext] at hline
    exact (congrArg (fun x => x.2.2) hline).symm
  refine ⟨s, ?_, hs⟩
  rw [skipToType]
  split
  · rename_i heq
    rw [hline] at heq
    cases heq
    rfl
  · rename_i heq
    rw [hline] at heq
    cases heq
    exact if_pos h

/-- Other lines are passed over. -/
theorem skipToType_other (h : ¬ TypeLine line.chars) :
    skipToType buffer (ofText (line.chars ++ '\n' :: rest)) = skipToType line.chars (ofText rest) := by
  have hline : (ofText (line.chars ++ '\n' :: rest)).getline buffer = (true, line.chars, ofText rest) :=
    getline_line buffer line
  rw [skipToType]
  split
  · rename_i heq
    rw [hline] at heq
    cases heq
  · rename_i heq
    rw [hline] at heq
    cases heq
    exact if_neg h

/-- What is read of a single line. -/
theorem readTxtFile_line : readTxtFile lib line.chars ≠ .ok r := by
  intro h
  obtain ⟨⟨buffer, s⟩, hsignature, h⟩ := bind_eq_ok.mp h
  have hlast : (ofText line.chars).getline [] = (decide (line.chars ≠ []), line.chars, ⟨[], true⟩) :=
    getline_last [] line
  unfold readSignature at hsignature
  rw [hlast] at hsignature
  dsimp only at hsignature
  split at hsignature
  · rw [getline_eof _ rfl] at hsignature
    dsimp only at hsignature
    rw [if_pos (.inl rfl)] at hsignature
    cases hsignature
  · rename_i hfirst
    have hchars : line.chars = "Mashroom".toList := not_not.mp fun hne => hfirst (.inr hne)
    cases hsignature
    dsimp only at h
    rw [readTyped, skipToType_eof rfl, hchars] at h
    obtain ⟨type, htype, -⟩ := bind_eq_ok.mp h
    cases htype

/-- The type that is told decides what is read. -/
theorem known_of_readTyped (htype : TypeLine second.chars)
    (h : readTyped lib buffer (ofText (second.chars ++ behind more)) = .ok r) : KnownType second.chars := by
  obtain ⟨s, hskip, -⟩ := skipToType_type buffer more htype
  rw [readTyped, hskip] at h
  obtain ⟨type, hknown, h⟩ := bind_eq_ok.mp h
  refine ⟨type, ?_, hknown⟩
  split at h
  · omega
  · split at h
    · assumption
    · cases h

/-- Other types than series have nothing behind them. -/
theorem readTyped_other {type : ℕ} (buffer : List Char) (more : Option (List Char)) (htype : TypeLine second.chars)
    (hknown : typeOf second.chars = .ok type) (hpos : type ≠ 0) (hle : type ≤ 3) :
    readTyped lib buffer (ofText (second.chars ++ behind more)) = .ok ∅ := by
  obtain ⟨s, hskip, -⟩ := skipToType_type buffer more htype
  unfold readTyped
  rw [hskip]
  dsimp only
  rw [hknown, ok_bind, if_neg hpos, if_pos hle]

end Signature

/-! ## A header without series -/

section Header

variable (lib : TextLib)

/-- A line of a token and a printed position. -/
def coordLine (token : String) (h : '\n' ∉ token.toList ++ [':']) : Line where
  chars := token.toList ++ ':' :: lib.coords.print 0
  newline := by
    intro hmem
    rw [List.append_cons] at hmem
    rcases List.mem_append.mp hmem with hmem | hmem
    · exact h hmem
    · exact newline_of_word (lib.coords.word 0) hmem

/-- The lines behind the one of the format, up to the marker of the data. -/
def headerLines : List Line :=
  [⟨"version:1".toList, by decide⟩, coordLine lib "latitude" (by decide), coordLine lib "longitude" (by decide),
    ⟨"grid:0".toList, by decide⟩, ⟨"parameters:0".toList, by decide⟩]

/-- The header that they tell. -/
def noSeries : HeaderInfo where
  paramInfo := []
  pos := ⟨0, 0⟩
  gridT := 0
  version := 1

theorem reads_coordLine {token : String} (hline : '\n' ∉ token.toList ++ [':'])
    (h : token.toList.head?.any isSeparator = false) :
    Reads (getTxtCoord lib token) [coordLine lib token hline] 0 := by
  have hparse : Reads (match lib.coords.parse (lib.coords.print 0) with
      | some q => pure q
      | none => throw Fault.exception : Reader ℚ) [] 0 := by
    rw [lib.coords.parse_print]
    exact Reads.pure 0
  have htoken : Reads (getTxtToken token) [coordLine lib token hline] (lib.coords.print 0) := reads_getTxtToken h rfl
  have hread := htoken.bind (g := fun value => match lib.coords.parse value with
      | some q => pure q
      | none => throw Fault.exception) hparse
  exact hread

/-- A header without series is read. -/
theorem reads_readHeader : Reads (readHeader lib) (headerLines lib) noSeries := by
  have hversion : Reads (getTxtInt "version") [⟨"version:1".toList, by decide⟩] 1 :=
    (reads_getTxtToken (by decide) rfl).check rfl
  have hgrid : Reads (getTxtNumber 8 "grid") [⟨"grid:0".toList, by decide⟩] 0 :=
    (reads_getTxtToken (by decide) rfl).check rfl
  have hparameters : Reads (getTxtNumber 64 "parameters") [⟨"parameters:0".toList, by decide⟩] 0 :=
    (reads_getTxtToken (by decide) rfl).check rfl
  exact hversion.cons ((reads_coordLine lib _ (by decide)).cons ((reads_coordLine lib _ (by decide)).cons
    (hgrid.cons (hparameters.cons (Reads.pure noSeries)))))

/-- A line of the format. -/
def formatLine : Line := ⟨"format:0".toList, by decide⟩

/-- Behind the header of series, the data is read. -/
theorem readTyped_series {second : Line} {header : List Line} {headerInfo : HeaderInfo} (buffer rest : List Char)
    (htype : TypeLine second.chars) (hknown : typeOf second.chars = .ok 0)
    (h : Reads (readHeader lib) header headerInfo) :
    readTyped lib buffer (ofText (second.chars ++ behind (some (unlines (formatLine :: header) ++ rest)))) =
      readData lib headerInfo (ofText rest) := by
  have hread : Reads (getTxtInt "format") [formatLine] 0 := (reads_getTxtToken (by decide) rfl).check rfl
  have hformat : getTxtInt "format" (ofText (unlines (formatLine :: header) ++ rest)) =
      .ok (0, ofText (unlines header ++ rest)) := by
    have hline := hread (unlines header ++ rest)
    rw [← unlines_append] at hline
    exact hline
  obtain ⟨s, hskip, hs⟩ := skipToType_type buffer (some (unlines (formatLine :: header) ++ rest)) htype
  cases hs _ rfl
  unfold readTyped
  rw [hskip]
  dsimp only
  rw [hknown, ok_bind, if_pos rfl, hformat, ok_bind]
  dsimp only
  rw [if_pos rfl, h, ok_bind]

end Header

/-! ## The markers -/

section Marked

variable (lib : TextLib)

def Accepted (content : List Char) : Prop := ∃ r, readTxtFile lib content = .ok r

def DataAccepted (headerInfo : HeaderInfo) (s : TextStream) : Prop := ∃ r, readData lib headerInfo s = .ok r

/-- The first two lines are the signature and the marker, or none of them is its own, or the second one is of no
type. -/
def FirstLines (first second : List Char) : Prop :=
  (first = signature ∧ second = headerMark) ∨ (first ≠ signature ∧ second ≠ headerMark) ∨
    (first = signature ∧ TypeLine second ∧ ¬ KnownType second)

/-- The line before the data is the marker, or no data is read behind the header. -/
def DataLine (headerInfo : HeaderInfo) (mark : List Char) : Prop :=
  mark = dataMark ∨ headerInfo.version ≠ 1 ∨ ∃ k ∈ headerInfo.paramInfo, ¬ Complete k

variable {lib} {first second mark : Line} {more : Option (List Char)} {rest : List Char} {headerInfo : HeaderInfo}
  {r : ExtractedValues}

theorem accepted_of_signature (h : first.chars = signature)
    (hr : readTyped lib signature (ofText (second.chars ++ behind more)) = .ok r) :
    Accepted lib (fileOf first second more) := by
  refine ⟨r, ?_⟩
  rw [readTxtFile, fileOf, readSignature_signature h, ok_bind]
  exact hr

theorem accepted_of_header (h : first.chars ≠ signature) (hsecond : second.chars = headerMark)
    (hr : readTyped lib headerMark (ofText rest) = .ok r) : Accepted lib (fileOf first second (some rest)) := by
  refine ⟨r, ?_⟩
  rw [readTxtFile, readSignature_header h hsecond, ok_bind]
  exact hr

/-- A line of a type without series, at the end of a file. -/
def typeOne : Line := ⟨"type:1".toList, by decide⟩

theorem readTyped_typeOne (buffer : List Char) : readTyped lib buffer (ofText typeOne.chars) = .ok ∅ := by
  have htype : TypeLine typeOne.chars := by unfold TypeLine; decide
  have hknown : typeOf typeOne.chars = .ok 1 := rfl
  exact readTyped_other buffer none htype hknown (by decide) (by decide)

/-- A second line that is passed over, and a line of a type. -/
theorem readTyped_passed (buffer : List Char) (h : ¬ TypeLine second.chars) :
    readTyped lib buffer (ofText (second.chars ++ behind (some typeOne.chars))) = .ok ∅ := by
  have hskip : skipToType buffer (ofText (second.chars ++ behind (some typeOne.chars))) =
      skipToType second.chars (ofText typeOne.chars) := skipToType_other h
  rw [readTyped, hskip]
  exact readTyped_typeOne second.chars

/-- Behind the signature, any second line that is no wrong type is taken. -/
theorem exists_accepted (lib : TextLib) (h : first.chars = signature)
    (hsecond : TypeLine second.chars → KnownType second.chars) : ∃ more, Accepted lib (fileOf first second more) := by
  by_cases htype : TypeLine second.chars
  · obtain ⟨type, hle, hknown⟩ := hsecond htype
    by_cases hzero : type = 0
    · subst hzero
      have hdata : readData lib noSeries (ofText (dataMark ++ '\n' :: (namesLine lib.table []).chars)) = .ok ∅ :=
        readData_namesLine dataLine rfl (by simp [noSeries])
      have hread := readTyped_series lib signature (dataMark ++ '\n' :: (namesLine lib.table []).chars) htype hknown
        (reads_readHeader lib)
      exact ⟨_, accepted_of_signature h (hread.trans hdata)⟩
    · exact ⟨none, accepted_of_signature h (readTyped_other signature none htype hknown hzero hle)⟩
  · exact ⟨_, accepted_of_signature h (readTyped_passed signature htype)⟩

theorem firstLines_iff : (∀ more, Accepted lib (fileOf first second more) →
    first.chars = signature ∧ second.chars = headerMark) ↔ FirstLines first.chars second.chars := by
  constructor
  · intro h
    by_cases hfirst : first.chars = signature
    · by_cases hsecond : TypeLine second.chars → KnownType second.chars
      · obtain ⟨more, haccepted⟩ := exists_accepted lib hfirst hsecond
        exact .inl (h more haccepted)
      · exact .inr (.inr ⟨hfirst, Classical.not_imp.mp hsecond⟩)
    · by_cases hsecond : second.chars = headerMark
      · have haccepted : Accepted lib (fileOf first second (some typeOne.chars)) :=
          accepted_of_header hfirst hsecond (readTyped_typeOne headerMark)
        exact absurd (h _ haccepted).1 hfirst
      · exact .inr (.inl ⟨hfirst, hsecond⟩)
  · rintro (hmarks | ⟨hfirst, hsecond⟩ | ⟨hfirst, htype, hknown⟩) more ⟨r, hr⟩
    · exact hmarks
    · rw [readTxtFile, readSignature_neither hfirst hsecond] at hr
      cases hr
    · rw [readTxtFile, fileOf, readSignature_signature hfirst, ok_bind] at hr
      exact absurd (known_of_readTyped htype hr) hknown

theorem dataLine_iff : (∀ rest, DataAccepted lib headerInfo (ofText (mark.chars ++ '\n' :: rest)) →
    mark.chars = dataMark) ↔ DataLine headerInfo mark.chars := by
  constructor
  · intro h
    by_cases hversion : headerInfo.version = 1
    · by_cases hcomplete : ∀ k ∈ headerInfo.paramInfo, Complete k
      · exact .inl (h _ ⟨∅, readData_namesLine mark hversion hcomplete⟩)
      · simp only [not_forall] at hcomplete
        obtain ⟨k, hk, hcomplete⟩ := hcomplete
        exact .inr (.inr ⟨k, hk, hcomplete⟩)
    · exact .inr (.inl hversion)
  · rintro (hmark | hversion | ⟨k, hk, hcomplete⟩) rest ⟨r, hr⟩
    · exact hmark
    · exact absurd (complete_of_readData hr).1 hversion
    · exact absurd ((complete_of_readData hr).2 k hk) hcomplete

/-! ### Files of series -/

def typeZero : Line := ⟨"type:0".toList, by decide⟩

/-- A file of series, from its signature to the end of its header, and more. -/
def seriesFile (header : List Line) (rest : List Char) : List Char :=
  unlines (signatureLine :: headerLine :: typeZero :: formatLine :: header) ++ rest

theorem readTxtFile_seriesFile {header : List Line} (h : Reads (readHeader lib) header headerInfo) :
    readTxtFile lib (seriesFile header rest) = readData lib headerInfo (ofText rest) := by
  have hother : ¬ TypeLine headerLine.chars := by unfold TypeLine; decide
  have htype : TypeLine typeZero.chars := by unfold TypeLine; decide
  have hskip : skipToType signature (ofText (headerLine.chars ++ behind (some (typeZero.chars ++ behind
      (some (unlines (formatLine :: header) ++ rest)))))) = skipToType headerMark (ofText (typeZero.chars ++ behind
      (some (unlines (formatLine :: header) ++ rest)))) := skipToType_other hother
  have hfile : seriesFile header rest = fileOf signatureLine headerLine (some (typeZero.chars ++ behind
      (some (unlines (formatLine :: header) ++ rest)))) := by
    rw [seriesFile, unlines_cons, unlines_cons, unlines_cons]
    rfl
  rw [hfile, readTxtFile, fileOf, readSignature_signature rfl, ok_bind]
  dsimp only
  rw [readTyped, hskip]
  exact readTyped_series lib headerMark rest htype rfl h

/-- What is accepted has a first and a second line. -/
theorem exists_fileOf_of_accepted {content : List Char} (h : Accepted lib content) :
    ∃ first second more, content = fileOf first second more := by
  rcases exists_fileOf content with ⟨line, rfl⟩ | hlines
  · obtain ⟨r, hr⟩ := h
    exact absurd hr readTxtFile_line
  · exact hlines

/-- Data that is accepted has a line before it. -/
theorem exists_mark_of_dataAccepted {s : TextStream} (h : DataAccepted lib headerInfo s) :
    ∃ (mark : Line) (rest : List Char), s = ofText (mark.chars ++ '\n' :: rest) := by
  obtain ⟨r, hr⟩ := h
  obtain ⟨text, eof⟩ := s
  cases eof with
  | true => exact absurd hr (readData_eof rfl)
  | false =>
    rcases exists_line text with ⟨line, rfl⟩ | ⟨mark, rest, rfl⟩
    · exact absurd hr readData_line
    · exact ⟨mark, rest, rfl⟩

/-- **Which files need their markers.**  The first two lines have to be the signature and the marker of the header only
if none of them is its own, or the second one is of no type; and the line before the data has to be its marker only if
no data is read behind the header at all.  So it is with the data of any header, and with that of files of series. -/
theorem readTxtFile_marked_iff (lib : TextLib) :
    (∀ content, Accepted lib content → ∃ first second more, content = fileOf first second more) ∧
    (∀ first second : Line, (∀ more, Accepted lib (fileOf first second more) →
      first.chars = signature ∧ second.chars = headerMark) ↔ FirstLines first.chars second.chars) ∧
    (∀ headerInfo, (∀ s, DataAccepted lib headerInfo s →
        ∃ (mark : Line) (rest : List Char), s = ofText (mark.chars ++ '\n' :: rest)) ∧
      ∀ mark : Line, (∀ rest, DataAccepted lib headerInfo (ofText (mark.chars ++ '\n' :: rest)) →
        mark.chars = dataMark) ↔ DataLine headerInfo mark.chars) ∧
    ∀ header headerInfo, Reads (readHeader lib) header headerInfo →
      ∀ mark : Line, (∀ rest, Accepted lib (seriesFile header (mark.chars ++ '\n' :: rest)) →
        mark.chars = dataMark) ↔ DataLine headerInfo mark.chars := by
  refine ⟨fun content => exists_fileOf_of_accepted, fun first second => firstLines_iff, fun headerInfo => ?_, ?_⟩
  · exact ⟨fun s => exists_mark_of_dataAccepted, fun mark => dataLine_iff⟩
  · intro header headerInfo h mark
    simp only [Accepted, readTxtFile_seriesFile h]
    exact dataLine_iff

end Marked

/-- With numbers as fractions, and where no time can be read. -/
def reference : TextLib where
  table := windTable
  values := fractionText
  coords := fractionText
  time _ := (none, ⟨[], true⟩)
  time_size _ := Nat.zero_le _

/-- Files without the signature, without the marker of the header, and without that of the data. -/
theorem readTxtFile_unmarked :
    readTxtFile reference "x\n\\header\ntype:1".toList = .ok ∅ ∧
    readTxtFile reference "Mashroom\nx\ntype:1".toList = .ok ∅ ∧
    readTxtFile reference ((["Mashroom", "\\header", "type:0", "format:0", "version:1", "latitude:0", "longitude:0",
      "grid:0", "parameters:0", "x"].flatMap fun line => line.toList ++ ['\n']) ++ "Time\t".toList) = .ok ∅ := by
  let x : Line := ⟨['x'], by decide⟩
  refine ⟨?_, ?_, ?_⟩
  · have hread : readTxtFile reference (fileOf x headerLine (some typeOne.chars)) = .ok ∅ := by
      rw [readTxtFile, readSignature_header (by decide) rfl, ok_bind]
      exact readTyped_typeOne headerMark
    exact hread
  · have hread : readTxtFile reference (fileOf signatureLine x (some typeOne.chars)) = .ok ∅ := by
      rw [readTxtFile, fileOf, readSignature_signature rfl, ok_bind]
      exact readTyped_passed signature (by unfold TypeLine; decide)
    exact hread
  · have hprint : reference.coords.print 0 = ['0'] := by decide
    have htext : seriesFile (headerLines reference) (x.chars ++ '\n' :: (namesLine windTable []).chars) =
        (["Mashroom", "\\header", "type:0", "format:0", "version:1", "latitude:0", "longitude:0", "grid:0",
          "parameters:0", "x"].flatMap fun line => line.toList ++ ['\n']) ++ "Time\t".toList := by
      simp only [seriesFile, headerLines, coordLine, hprint]
      rfl
    rw [← htext, readTxtFile_seriesFile (reads_readHeader reference)]
    exact readData_namesLine x rfl (by simp [noSeries])

end Mashroom.RawText
