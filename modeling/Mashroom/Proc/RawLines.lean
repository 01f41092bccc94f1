import Mashroom.Proc.RawText
import Mashroom.Proc.Restored

/-!
# Proc.RawLines — the lines of a file as characters

The reader of lines takes a line for what the writer made it of.  Printed as they are written, lines are read alike from
their characters: where the reader of lines gives a result, `read_txt_file` gives the same (`readTxtFile_of_lines`).
-/

namespace Mashroom.RawText

open TextStream

/-- What the writer prints by the standard library and OsterLib: times, and heights and bounds by the token before
them. -/
structure LinePrint where
  time : ℤ → List Char
  level : String → Level → List Char

/-! ## Lines, printed -/

section Print

variable (lib : TextLib) (print : LinePrint)

def valueText (token : String) : HeaderValue → List Char
  | .none => []
  | .num n => digits n
  | .text s => s
  | .coord q => lib.coords.print q
  | .grid r => digits r.octet
  | .level l => print.level token l

/-- A line without its newline: `write_parameter` is the second kind. -/
def lineText : TextLine → List Char
  | .header (.mark s) => s.toList
  | .header (.param indent token value) =>
    List.replicate indent '\t' ++ (token.toList ++ ':' :: valueText lib print token value)
  | .header (.names s) => s
  | .row time cells => print.time time ++ cells

def linesText (ls : List TextLine) : List Char := ls.flatMap fun l => lineText lib print l ++ ['\n']

/-- A line is told from the others: it is one line, none but that of the type begins as it, and a time is read from its
row. -/
structure Legible (l : TextLine) : Prop where
  newline : '\n' ∉ lineText lib print l
  type : TypeLine (lineText lib print l) → ∃ v, l = .header (.param 0 "type" v)
  time : ∀ t cells, l = .row t cells →
    ∀ rest, lib.time (print.time t ++ cells ++ rest) = (some t, ofText (cells ++ rest))

end Print

/-! ## Readers -/

section Follows

variable {lib : TextLib} {print : LinePrint} {α β γ δ : Type} {φ : α → β} {ψ : γ → δ} {x : LineReader α} {y : Reader β}
  {l : TextLine} {ls ls' : List TextLine} {a : α}

theorem linesText_cons (l : TextLine) (ls : List TextLine) :
    linesText lib print (l :: ls) = lineText lib print l ++ '\n' :: linesText lib print ls := by
  simp [linesText]

variable (lib print φ x y) in
/-- What the reader of lines takes, the reader of characters takes from their text. -/
def Follows : Prop :=
  ∀ ls a ls', (∀ l ∈ ls, Legible lib print l) → x ls = .ok (a, ls') →
    (∀ l ∈ ls', Legible lib print l) ∧ y (ofText (linesText lib print ls)) = .ok (φ a, ofText (linesText lib print ls'))

theorem Follows.pure (a : α) : Follows lib print φ (Pure.pure a) (Pure.pure (φ a)) := by
  rintro ls _ _ hls ⟨⟩
  exact ⟨hls, rfl⟩

theorem Follows.bind {g : α → LineReader γ} {h : β → Reader δ} (hx : Follows lib print φ x y)
    (hg : ∀ a, Follows lib print ψ (g a) (h (φ a))) : Follows lib print ψ (x >>= g) (y >>= h) := by
  intro ls c ls' hls hrun
  rw [bind_run] at hrun
  obtain ⟨⟨a, ls₁⟩, hx₁, hg₁⟩ := bind_eq_ok.mp hrun
  obtain ⟨hls₁, hy⟩ := hx ls a ls₁ hls hx₁
  rw [bind_run, hy, ok_bind]
  exact hg a ls₁ c ls' hls₁ hg₁

/-- A reader of lines that never gets through. -/
theorem follows_of_error {e : Fault} (hx : ∀ ls, x ls = .error e) : Follows lib print φ x y := by
  intro ls a ls' _ h
  rw [hx] at h
  cases h

/-- What needs no line. -/
theorem follows_liftM (r : Except Fault α) : Follows lib print id (liftM r : LineReader α) (liftM r : Reader α) := by
  cases r with
  | error e => exact follows_of_error fun _ => rfl
  | ok a => exact Follows.pure a

theorem follows_getline : Follows lib print (lineText lib print) Mashroom.getline readLine := by
  intro ls l ls' hls h
  cases ls with
  | nil => cases h
  | cons l ls =>
    cases h
    obtain ⟨hl, hls⟩ := List.forall_mem_cons.mp hls
    refine ⟨hls, ?_⟩
    rw [linesText_cons]
    exact readLine_line ⟨lineText lib print l, hl.newline⟩ _

/-- The characters behind a token are those of its value. -/
theorem follows_getTxtToken {token : String} (h : token.toList.head?.any isSeparator = false) :
    Follows lib print (valueText lib print token) (Mashroom.getTxtToken token) (getTxtToken token) := by
  refine Follows.bind follows_getline fun l => ?_
  cases l with
  | row time cells => exact follows_of_error fun _ => rfl
  | header l =>
    cases l with
    | mark s => exact follows_of_error fun _ => rfl
    | names s => exact follows_of_error fun _ => rfl
    | param indent t v =>
      by_cases ht : t = token
      · subst ht
        intro ls a ls' hls hrun
        dsimp only at hrun
        rw [if_pos rfl] at hrun
        cases hrun
        refine ⟨hls, ?_⟩
        rw [lineText, tokenValue_self indent _ h]
        rfl
      · refine follows_of_error (e := .exception) fun ls => ?_
        dsimp only
        rw [if_neg ht]
        rfl

/-! ### Numbers -/

theorem digits_ne_nil {n : ℕ} : digits n ≠ [] := Nat.toDigits_ne_nil

theorem takeWhile_isDigit_digits {n : ℕ} : (digits n).takeWhile Char.isDigit = digits n :=
  List.takeWhile_eq_self_iff.mpr fun _ hc => isDigit_of_mem_digits hc

theorem fromDigits_digits {n bound : ℕ} (h : n < bound) : fromDigits bound (digits n) = .ok n := by
  rw [fromDigits, takeWhile_isDigit_digits, if_neg digits_ne_nil, ofDigitChars_digits, if_pos h]

theorem fromCharsInt_digits {n : ℕ} (h : n < 2 ^ 31) : fromCharsInt (digits n) = .ok n := by
  unfold fromCharsInt
  split
  · rename_i s hs
    have hminus : '-' ∈ digits n := by
      rw [hs]
      exact List.mem_cons_self
    exact absurd (isDigit_of_mem_digits hminus) (by decide)
  · rw [fromDigits_digits h]
    rfl

/-- A number as it is read by two readers of values that agree on digits. -/
theorem follows_number {bits : ℕ} {token : String} {parse : List Char → Except Fault β} {φ : ℕ → β}
    (h : token.toList.head?.any isSeparator = false) (hparse : ∀ n < 2 ^ bits, parse (digits n) = .ok (φ n)) :
    Follows lib print φ (Mashroom.getTxtNumber bits token)
      (getTxtToken token >>= fun value => liftM (parse value)) := by
  refine Follows.bind (follows_getTxtToken h) fun v => ?_
  cases v with
  | num n =>
    by_cases hn : n < 2 ^ bits
    · intro ls a ls' hls hrun
      dsimp only at hrun
      rw [if_pos hn] at hrun
      cases hrun
      refine ⟨hls, ?_⟩
      rw [valueText, hparse n hn]
      rfl
    · refine follows_of_error (e := .exception) fun ls => ?_
      dsimp only
      rw [if_neg hn]
      rfl
  | none => exact follows_of_error fun _ => rfl
  | text s => exact follows_of_error fun _ => rfl
  | coord q => exact follows_of_error fun _ => rfl
  | grid r => exact follows_of_error fun _ => rfl
  | level l => exact follows_of_error fun _ => rfl

theorem follows_getTxtNumber {bits : ℕ} {token : String} (h : token.toList.head?.any isSeparator = false) :
    Follows lib print id (Mashroom.getTxtNumber bits token) (getTxtNumber bits token) :=
  follows_number h fun _ hn => fromDigits_digits hn

theorem follows_getTxtInt {token : String} (h : token.toList.head?.any isSeparator = false) :
    Follows lib print (Nat.cast : ℕ → ℤ) (Mashroom.getTxtNumber 31 token) (getTxtInt token) :=
  follows_number h fun _ hn => fromCharsInt_digits hn

theorem follows_getTxtCoord {token : String} (h : token.toList.head?.any isSeparator = false) :
    Follows lib print id (Mashroom.getTxtCoord token) (getTxtCoord lib token) := by
  refine Follows.bind (follows_getTxtToken h) fun v => ?_
  cases v with
  | coord q =>
    dsimp only
    rw [valueText, lib.coords.parse_print]
    exact Follows.pure q
  | none => exact follows_of_error fun _ => rfl
  | num n => exact follows_of_error fun _ => rfl
  | text s => exact follows_of_error fun _ => rfl
  | grid r => exact follows_of_error fun _ => rfl
  | level l => exact follows_of_error fun _ => rfl

/-- A representation is told by its number. -/
theorem follows_getTxtGrid {token : String} (h : token.toList.head?.any isSeparator = false) :
    Follows lib print RepresentationType.octet (Mashroom.getTxtGrid token) (getTxtNumber 8 token) := by
  refine Follows.bind (follows_getTxtToken h) fun v => ?_
  cases v with
  | grid r =>
    intro ls a ls' hls hrun
    cases hrun
    refine ⟨hls, ?_⟩
    have hoctet : r.octet < 2 ^ 8 := by cases r <;> decide
    rw [valueText, fromChars, fromDigits_digits hoctet]
    rfl
  | none => exact follows_of_error fun _ => rfl
  | num n => exact follows_of_error fun _ => rfl
  | text s => exact follows_of_error fun _ => rfl
  | coord q => exact follows_of_error fun _ => rfl
  | level l => exact follows_of_error fun _ => rfl

/-! ### Series -/

theorem follows_getCounts (result : TimeForecast) :
    Follows lib print id (Mashroom.getCounts result) (getCounts result) := by
  unfold Mashroom.getCounts getCounts
  split
  · exact (follows_getTxtNumber rfl).bind fun _ => (follows_getTxtNumber rfl).bind fun _ => Follows.pure _
  · exact Follows.pure result

theorem follows_getPeriods (result : TimeForecast) :
    Follows lib print id (Mashroom.getPeriods result) (getPeriods result) := by
  unfold Mashroom.getPeriods getPeriods
  split
  · exact (follows_getTxtNumber rfl).bind fun _ => Follows.pure _
  · split
    · exact (follows_getTxtNumber rfl).bind fun _ => Follows.pure _
    · exact (follows_getTxtNumber rfl).bind fun _ => (follows_getTxtNumber rfl).bind fun _ => Follows.pure _

theorem follows_getTimeForecast : Follows lib print id Mashroom.getTimeForecast getTimeForecast :=
  follows_getline.bind fun _ => (follows_getTxtNumber rfl).bind fun _ => (follows_getTxtNumber rfl).bind fun _ =>
    (follows_getCounts _).bind fun result => follows_getPeriods result

theorem follows_getLevel : Follows lib print id Mashroom.getLevel getLevel := by
  refine follows_getline.bind fun _ => (follows_getTxtNumber rfl).bind fun levelType =>
    (follows_getTxtNumber rfl).bind fun _ => (follows_getTxtNumber rfl).bind fun _ => ?_
  refine (follows_liftM (Level.isBounded levelType)).bind fun bounded => ?_
  dsimp only [id]
  split
  · exact follows_getline.bind fun _ => follows_getline.bind fun _ => Follows.pure _
  · exact follows_getline.bind fun _ => Follows.pure _

theorem follows_getSeries : Follows lib print id Mashroom.getSeries getCommonDataProperties :=
  (follows_getTxtToken rfl).bind fun _ => (follows_getTxtNumber rfl).bind fun _ =>
    (follows_getTxtNumber rfl).bind fun _ => (follows_getTxtNumber rfl).bind fun _ =>
      follows_getTimeForecast.bind fun _ => follows_getLevel.bind fun _ => Follows.pure _

theorem follows_getAllSeries (n : ℕ) : Follows lib print id (getAllSeries n) (getParamInfo n) := by
  induction n with
  | zero => exact Follows.pure []
  | succ n ih => exact follows_getSeries.bind fun k => ih.bind fun ks => Follows.pure (k :: ks)

/-- A header by the number of its representation. -/
def HeaderInfo.ofLines (headerInfo : Mashroom.HeaderInfo) : HeaderInfo where
  paramInfo := headerInfo.paramInfo
  pos := headerInfo.pos
  gridT := headerInfo.gridT.octet
  version := headerInfo.version

theorem follows_readHeader : Follows lib print HeaderInfo.ofLines Mashroom.readHeader (readHeader lib) :=
  (follows_getTxtInt rfl).bind fun _ => (follows_getTxtCoord rfl).bind fun _ => (follows_getTxtCoord rfl).bind fun _ =>
    (follows_getTxtGrid rfl).bind fun _ => (follows_getTxtNumber rfl).bind fun n =>
      (follows_getAllSeries n).bind fun _ => Follows.pure _

end Follows

/-! ## Files -/

section Files

variable {lib : TextLib} {print : LinePrint} {headerInfo : Mashroom.HeaderInfo} {l : TextLine} {ls ls' : List TextLine}
  {r result : ExtractedValues} {keys : List ExtractDataProperties}

/-- At the end of the characters, no time is read. -/
def EndsAtEnd (lib : TextLib) : Prop := (lib.time []).1 = none ∧ (lib.time []).2.eof = true

/-- A row that is read. -/
theorem readRows_row {time : ℤ} {cells rest : List Char} (hnewline : '\n' ∉ cells)
    (htime : lib.time (print.time time ++ cells ++ '\n' :: rest) = (some time, ofText (cells ++ '\n' :: rest)))
    (hlength : keys.length ≤ (splitIgnore cells).length)
    (hcells : readCells lib.values time keys (splitIgnore cells) result = .ok r) :
    readRows lib keys (ofText (print.time time ++ cells ++ '\n' :: rest)) result =
      readRows lib keys (ofText rest) r := by
  have hline : (ofText (cells ++ '\n' :: rest)).getline [] = (true, cells, ofText rest) :=
    getline_line [] ⟨cells, hnewline⟩
  rw [readRows]
  split
  · rename_i heq
    have heq := htime.symm.trans heq
    cases heq
  · rename_i heq
    have heq := htime.symm.trans heq
    cases heq
    split
    · rename_i heq
      rw [hline] at heq
      cases heq
    · rename_i heq
      rw [hline] at heq
      cases heq
      rw [if_neg (not_lt.mpr hlength), hcells]
      rfl

theorem readRows_nil (hend : EndsAtEnd lib) : readRows lib keys (ofText []) result = .ok result := by
  have htime : parseTime lib (ofText []) = lib.time [] := rfl
  rw [readRows]
  split
  · rename_i s' hs
    rw [htime] at hs
    have heof := hend.2
    rw [hs] at heof
    exact if_pos heof
  · rename_i hs
    rw [htime] at hs
    have hnone := hend.1
    rw [hs] at hnone
    cases hnone

/-- The rows are read alike. -/
theorem readRows_of_lines (hend : EndsAtEnd lib) (hls : ∀ l ∈ ls, Legible lib print l)
    (h : Mashroom.readRows lib.values keys ls result = .ok r) :
    readRows lib keys (ofText (linesText lib print ls)) result = .ok r := by
  induction ls generalizing result with
  | nil =>
    cases h
    exact readRows_nil hend
  | cons l ls ih =>
    obtain ⟨hl, hrest⟩ := List.forall_mem_cons.mp hls
    cases l with
    | header l => cases h
    | row time cells =>
      rw [Mashroom.readRows] at h
      split at h
      · cases h
      · rename_i hlength
        obtain ⟨result', hcells, h⟩ := bind_eq_ok.mp h
        have hnewline : '\n' ∉ cells := fun hmem => hl.newline (List.mem_append_right _ hmem)
        rw [linesText_cons, lineText, readRows_row hnewline (hl.time _ _ rfl _) (not_lt.mp hlength) hcells]
        exact ih hrest h

/-- The data is read alike. -/
theorem readData_of_lines (hend : EndsAtEnd lib) (hls : ∀ l ∈ ls, Legible lib print l)
    (h : Mashroom.readData lib.table lib.values headerInfo ls = .ok r) :
    readData lib (.ofLines headerInfo) (ofText (linesText lib print ls)) = .ok r := by
  unfold Mashroom.readData at h
  split at h
  · cases h
  · rename_i hversion
    have hone : (HeaderInfo.ofLines headerInfo).version = 1 := congrArg Nat.cast (not_not.mp hversion)
    obtain ⟨⟨mark, ls₁⟩, hmark, h⟩ := bind_eq_ok.mp h
    obtain ⟨⟨l, ls₂⟩, hnames, h⟩ := bind_eq_ok.mp h
    obtain ⟨hls₁, -⟩ := follows_getline ls mark ls₁ hls hmark
    obtain ⟨hls₂, hread⟩ := follows_getline ls₁ l ls₂ hls₁ hnames
    have hline : (ofText (linesText lib print ls)).getline [] =
        (true, lineText lib print mark, ofText (linesText lib print ls₁)) := by
      cases ls with
      | nil => cases hmark
      | cons _ _ =>
        cases hmark
        rw [linesText_cons]
        exact getline_line [] ⟨lineText lib print mark, (hls _ List.mem_cons_self).newline⟩
    dsimp only at h
    split at h
    · rename_i s ls₃ heq
      cases heq
      split at h
      · cases h
      · rename_i hcount
        obtain ⟨⟨⟩, hcheck, h⟩ := bind_eq_ok.mp h
        have hsame : ¬ (HeaderInfo.ofLines headerInfo).paramInfo.length + 1 ≠ (splitIgnore s).length := hcount
        unfold readData
        rw [if_pos hone, hline]
        dsimp only
        rw [if_neg (by simp), hread, ok_bind, lineText]
        dsimp only
        rw [if_neg hsame, HeaderInfo.ofLines, hcheck, ok_bind]
        exact readRows_of_lines hend hls₂ h
    · cases h

/-- The line of the type is found alike. -/
theorem skipToType_of_lines (buffer : List Char) (hls : ∀ l ∈ ls, Legible lib print l)
    (h : Mashroom.skipToType ls = l :: ls') :
    (∃ v, l = .header (.param 0 "type" v)) ∧ (∀ l ∈ ls', Legible lib print l) ∧
      skipToType buffer (ofText (linesText lib print ls)) =
        (lineText lib print l, ofText (linesText lib print ls')) := by
  fun_induction Mashroom.skipToType ls generalizing buffer with
  | case1 => cases h
  | case2 v rest =>
    obtain ⟨rfl, rfl⟩ := List.cons.inj h
    obtain ⟨hl, hrest⟩ := List.forall_mem_cons.mp hls
    let line : Line := ⟨lineText lib print (.header (.param 0 "type" v)), hl.newline⟩
    have htype : TypeLine line.chars := ⟨valueText lib print "type" v, by simp [line, lineText]⟩
    obtain ⟨s, hskip, hs⟩ := skipToType_type buffer (some (linesText lib print rest)) htype
    rw [linesText_cons]
    cases hs _ rfl
    exact ⟨⟨v, rfl⟩, hrest, hskip⟩
  | case3 l₀ ls hne ih =>
    obtain ⟨hl, hrest⟩ := List.forall_mem_cons.mp hls
    let line : Line := ⟨lineText lib print l₀, hl.newline⟩
    have hother : ¬ TypeLine line.chars := by
      intro htype
      obtain ⟨v, hv⟩ := hl.type htype
      exact hne v hv
    have hskip : skipToType buffer (ofText (line.chars ++ '\n' :: linesText lib print ls)) =
        skipToType line.chars (ofText (linesText lib print ls)) := skipToType_other hother
    rw [linesText_cons, hskip]
    exact ih line.chars hrest h

/-- The type that a line tells is told by its characters. -/
theorem typeOf_of_lines {v : HeaderValue} {type : ℕ}
    (h : Mashroom.getTxtNumber 8 "type" (.header (.param 0 "type" v) :: ls) = .ok (type, ls')) :
    ls' = ls ∧ typeOf (lineText lib print (.header (.param 0 "type" v))) = .ok type := by
  rw [Mashroom.getTxtNumber, bind_run] at h
  obtain ⟨⟨v', ls₁⟩, htoken, h⟩ := bind_eq_ok.mp h
  have hread : Mashroom.getTxtToken "type" (.header (.param 0 "type" v) :: ls) = .ok (v, ls) :=
    reads_token 0 "type" v ls
  cases hread.symm.trans htoken
  cases v with
  | num n =>
    dsimp only at h
    split at h
    · rename_i hn
      cases h
      have hvalue :
          tokenValue "type" (lineText lib print (.header (.param 0 "type" (.num type)))) = .ok (digits type) :=
        tokenValue_self 0 (digits type) rfl
      refine ⟨rfl, ?_⟩
      rw [typeOf, hvalue, ok_bind]
      exact fromDigits_digits hn
    · cases h
  | none => cases h
  | text s => cases h
  | coord q => cases h
  | grid r => cases h
  | level l => cases h

/-- A file from the line of its type on is read alike. -/
theorem readTyped_of_lines (buffer : List Char) (hend : EndsAtEnd lib) (hls : ∀ l ∈ ls, Legible lib print l)
    (h : Mashroom.readTyped lib.table lib.values ls = .ok r) :
    readTyped lib buffer (ofText (linesText lib print ls)) = .ok r := by
  obtain ⟨⟨type, ls₁⟩, htype, h⟩ := bind_eq_ok.mp h
  cases hskip : Mashroom.skipToType ls with
  | nil =>
    rw [hskip] at htype
    cases htype
  | cons l ls' =>
    obtain ⟨⟨v, rfl⟩, hls', hfound⟩ := skipToType_of_lines buffer hls hskip
    rw [hskip] at htype
    obtain ⟨rfl, hknown⟩ : ls₁ = ls' ∧ typeOf (lineText lib print (.header (.param 0 "type" v))) = .ok type :=
      typeOf_of_lines htype
    unfold readTyped
    rw [hfound]
    dsimp only at h ⊢
    rw [hknown, ok_bind]
    split at h
    · rename_i hzero
      rw [if_pos hzero]
      obtain ⟨⟨format, ls₂⟩, hformat, h⟩ := bind_eq_ok.mp h
      obtain ⟨hls₂, hread⟩ := follows_getTxtInt rfl ls₁ format ls₂ hls' hformat
      rw [hread, ok_bind]
      dsimp only at h ⊢
      split at h
      · rename_i hformat
        have hnumber : (format : ℤ) = 0 := by
          rw [hformat]
          rfl
        obtain ⟨⟨headerInfo, ls₃⟩, hheader, h⟩ := bind_eq_ok.mp h
        obtain ⟨hls₃, hread⟩ := follows_readHeader ls₂ headerInfo ls₃ hls₂ hheader
        rw [if_pos hnumber, hread, ok_bind]
        exact readData_of_lines hend hls₃ h
      · cases h
    · rename_i hzero
      rw [if_neg hzero]
      exact h

/-- **What is read of lines is read of their characters**: where the reader of lines gives a result, `read_txt_file`
gives the same from what the writer prints for them. -/
theorem readTxtFile_of_lines (hend : EndsAtEnd lib) (hls : ∀ l ∈ ls, Legible lib print l)
    (h : Mashroom.readTxtFile lib.table lib.values ls = .ok r) :
    readTxtFile lib (linesText lib print ls) = .ok r := by
  unfold Mashroom.readTxtFile at h
  split at h
  · rename_i ls
    obtain ⟨-, hrest⟩ := List.forall_mem_cons.mp hls
    have htext : linesText lib print (.header (.mark "Mashroom") :: ls) =
        signatureLine.chars ++ '\n' :: linesText lib print ls := linesText_cons _ ls
    rw [htext, readTxtFile, readSignature_signature rfl, ok_bind]
    exact readTyped_of_lines signature hend hrest h
  · rename_i l ls _
    obtain ⟨hfirst, hbehind⟩ := List.forall_mem_cons.mp hls
    obtain ⟨-, hrest⟩ := List.forall_mem_cons.mp hbehind
    let first : Line := ⟨lineText lib print l, hfirst.newline⟩
    have hmark : linesText lib print (.header (.mark "\\header") :: ls) =
        headerLine.chars ++ '\n' :: linesText lib print ls := linesText_cons _ ls
    have htext : linesText lib print (l :: .header (.mark "\\header") :: ls) =
        fileOf first headerLine (some (linesText lib print ls)) := by
      rw [linesText_cons, hmark]
      rfl
    rw [htext, readTxtFile]
    by_cases hsignature : first.chars = signature
    · -- the marker is not read as the second line, but on the way to the type
      have hskipped : Mashroom.readTyped lib.table lib.values (.header (.mark "\\header") :: ls) = .ok r := h
      have hread := readTyped_of_lines signature hend hbehind hskipped
      rw [hmark] at hread
      rw [fileOf, readSignature_signature hsignature, ok_bind]
      exact hread
    · rw [readSignature_header hsignature rfl, ok_bind]
      exact readTyped_of_lines headerMark hend hrest h
  · cases h

end Files

/-! ## Written files -/

section Written

variable (lib : TextLib) (print : LinePrint)

/-- What is printed is on one line, and a time begins otherwise than the line of the type. -/
structure LinePrint.Documented : Prop where
  level_newline : ∀ token l, '\n' ∉ print.level token l
  time_newline : ∀ t, '\n' ∉ print.time t
  time_head : ∀ t, ∃ c s, print.time t = c :: s ∧ c ≠ 't'

/-- A time is read back in front of a tab. -/
def ReadsTime (time : ℤ) : Prop :=
  ∀ rest, lib.time (print.time time ++ '\t' :: rest) = (some time, ofText ('\t' :: rest))

/-- A line of a header as the writer makes them. -/
def Plain : HeaderLine → Prop
  | .mark s => '\n' ∉ s.toList ∧ ¬ TypeLine s.toList
  | .param _ token value => '\n' ∉ token.toList ∧ ':' ∉ token.toList ∧ ∀ s, value = .text s → '\n' ∉ s
  | .names s => '\n' ∉ s ∧ ¬ TypeLine s

variable {lib print} {value : HeaderValue} {token : String} {l : HeaderLine} {n : ℕ}

theorem newline_digits (n : ℕ) : '\n' ∉ digits n := fun hmem => ne_of_mem_digits hmem (by simp)

theorem newline_valueText (hp : print.Documented) (h : ∀ s, value = .text s → '\n' ∉ s) :
    '\n' ∉ valueText lib print token value := by
  cases value with
  | none => exact List.not_mem_nil
  | num n => exact newline_digits n
  | text s => exact h s rfl
  | coord q => exact newline_of_word (lib.coords.word q)
  | grid r => exact newline_digits r.octet
  | level l => exact hp.level_newline token l

theorem legible_of_plain (hp : print.Documented) (h : Plain l) : Legible lib print (.header l) := by
  cases l with
  | mark s => exact ⟨h.1, fun htype => absurd htype h.2, fun _ _ heq => by cases heq⟩
  | names s => exact ⟨h.1, fun htype => absurd htype h.2, fun _ _ heq => by cases heq⟩
  | param indent token value =>
    obtain ⟨hnewline, hcolon, hvalue⟩ := h
    refine ⟨?_, ?_, fun _ _ heq => by cases heq⟩
    · have htabs : '\n' ∉ List.replicate indent '\t' := fun hmem => absurd (List.eq_of_mem_replicate hmem) (by decide)
      simp [lineText, htabs, hnewline, newline_valueText hp hvalue]
    · rintro ⟨rest, hrest⟩
      cases indent with
      | succ n => cases hrest
      | zero =>
        have hsplit : "type".toList ++ ':' :: rest = token.toList ++ ':' :: valueText lib print token value := hrest
        have htoken := (append_cons_inj (by decide) hcolon hsplit).1
        cases String.toList_inj.mp htoken
        exact ⟨value, rfl⟩

/-- A token without a colon, and no text. -/
theorem plain_param (indent : ℕ) {token : String} {value : HeaderValue}
    (htoken : '\n' ∉ token.toList ∧ ':' ∉ token.toList) (hvalue : ∀ s, value ≠ .text s) :
    Plain (.param indent token value) :=
  ⟨htoken.1, htoken.2, fun s hs => absurd hs (hvalue s)⟩

theorem plain_timeForecast (t : TimeForecast) : ∀ l ∈ t.lines, Plain l := by
  have hnum : ∀ {indent token n}, '\n' ∉ String.toList token ∧ ':' ∉ String.toList token →
      Plain (.param indent token (.num n)) := fun h => plain_param _ h (by simp)
  have hP1 : ∀ n, Plain (.param 1 "P1" (.num n)) := fun n => hnum (by decide)
  simp only [TimeForecast.lines, List.forall_mem_append]
  refine ⟨⟨?_, ?_⟩, ?_⟩
  · simp only [List.forall_mem_cons]
    exact ⟨plain_param _ (by decide) (by simp), hnum (by decide), hnum (by decide), by simp⟩
  · split
    · simp only [List.forall_mem_cons]
      exact ⟨hnum (by decide), hnum (by decide), by simp⟩
    · simp
  · split
    · simp [hP1]
    · split
      · simp [hP1]
      · simp only [List.forall_mem_cons]
        exact ⟨hP1 _, hnum (by decide), by simp⟩

theorem plain_level {l : Level} {ls : List HeaderLine} (h : l.lines = .ok ls) : ∀ l ∈ ls, Plain l := by
  obtain ⟨bounded, -, h⟩ := bind_eq_ok.mp h
  cases h
  simp only [List.forall_mem_append]
  constructor
  · simp only [List.forall_mem_cons]
    exact ⟨plain_param _ (by decide) (by simp), plain_param _ (by decide) (by simp),
      plain_param _ (by decide) (by simp), plain_param _ (by decide) (by simp), by simp⟩
  · split
    · simp only [List.forall_mem_cons]
      exact ⟨plain_param _ (by decide) (by simp), plain_param _ (by decide) (by simp), by simp⟩
    · simp only [List.forall_mem_cons]
      exact ⟨plain_param _ (by decide) (by simp), by simp⟩

theorem plain_seriesLines {table : ParameterTable} {props : SearchProperties} {k : ExtractDataProperties}
    {ls : List HeaderLine} (h : seriesLines table props k = .ok ls) : ∀ l ∈ ls, Plain l := by
  obtain ⟨center, -, h⟩ := bind_eq_ok.mp h
  obtain ⟨tableVersion, -, h⟩ := bind_eq_ok.mp h
  obtain ⟨parameter, -, h⟩ := bind_eq_ok.mp h
  split at h
  · cases h
  · rename_i name hname
    obtain ⟨searched, -, h⟩ := bind_eq_ok.mp h
    obtain ⟨level, hlevel, h⟩ := bind_eq_ok.mp h
    cases h
    have hnewline : ∀ s, HeaderValue.text name = .text s → '\n' ∉ s := by
      rintro s ⟨⟩
      exact newline_of_word (table.word _ _ _ _ hname)
    simp only [List.forall_mem_append]
    refine ⟨⟨?_, plain_timeForecast _⟩, plain_level hlevel⟩
    simp only [List.forall_mem_cons]
    exact ⟨⟨by decide, by decide, hnewline⟩, plain_param _ (by decide) (by simp), plain_param _ (by decide) (by simp),
      plain_param _ (by decide) (by simp), by simp⟩

/-- The names over the columns are on one line. -/
theorem plain_names {names : List (List Char)} (h : ∀ name ∈ names, Word name) :
    Plain (.names (setw 18 "Time".toList ++ ['\t'] ++ names.flatMap fun n => setw 10 n ++ ['\t'])) := by
  refine ⟨?_, ?_⟩
  · intro hmem
    rcases List.mem_append.mp hmem with hmem | hmem
    · exact absurd hmem (by decide)
    · exact newline_words h hmem
  · rintro ⟨rest, hrest⟩
    cases hrest

/-- The lines before the rows are plain. -/
theorem plain_textHeader {table : ParameterTable} {props : SearchProperties} {keys : List ExtractDataProperties}
    {ls : List HeaderLine} (h : textHeader table props keys = .ok ls) : ∀ l ∈ ls, Plain l := by
  obtain ⟨header, hheader, h⟩ := bind_eq_ok.mp h
  obtain ⟨columns, hcolumns, h⟩ := bind_eq_ok.mp h
  obtain ⟨names, hnames, hcolumns⟩ := bind_eq_ok.mp hcolumns
  obtain ⟨pos, -, hheader⟩ := bind_eq_ok.mp hheader
  obtain ⟨grid, -, hheader⟩ := bind_eq_ok.mp hheader
  obtain ⟨series, hseries, hheader⟩ := bind_eq_ok.mp hheader
  cases h
  cases hcolumns
  cases hheader
  have hlines : ∀ l ∈ series.flatten, Plain l := by
    intro l hl
    obtain ⟨ls, hls, hl⟩ := List.mem_flatten.mp hl
    obtain ⟨k, -, hk⟩ := exists_of_mapM hseries ls hls
    exact plain_seriesLines hk l hl
  simp only [List.forall_mem_append]
  refine ⟨⟨?_, hlines⟩, ?_⟩
  · simp only [List.forall_mem_cons]
    exact ⟨⟨by decide, by unfold TypeLine; decide⟩, ⟨by decide, by unfold TypeLine; decide⟩,
      plain_param _ (by decide) (by simp), plain_param _ (by decide) (by simp), plain_param _ (by decide) (by simp),
      plain_param _ (by decide) (by simp), plain_param _ (by decide) (by simp), plain_param _ (by decide) (by simp),
      plain_param _ (by decide) (by simp), by simp⟩
  · simp only [List.forall_mem_cons]
    exact ⟨⟨by decide, by unfold TypeLine; decide⟩, plain_names (words_of_columnNames hnames), by simp⟩

/-- A row is legible where its time is read back. -/
theorem legible_of_row (hp : print.Documented) {row : TextRow} (h : ReadsTime lib print row.time) :
    Legible lib print (.row row.time (cellsText lib.values row.cells)) where
  newline := by
    intro hmem
    rcases List.mem_append.mp hmem with hmem | hmem
    · exact hp.time_newline _ hmem
    · rcases List.mem_cons.mp hmem with hmem | hmem
      · exact absurd hmem (by decide)
      · exact newline_words words_of_cells hmem
  type := by
    rintro ⟨rest, hrest⟩
    obtain ⟨c, s, htime, hc⟩ := hp.time_head row.time
    rw [lineText, htime] at hrest
    exact absurd (List.cons.inj hrest).1.symm hc
  time t cells heq rest := by
    cases heq
    rw [List.append_assoc]
    exact h _

/-! ## Files that were written -/

/-- `read_txt_file` on the characters of every file. -/
def readAllTexts (lib : TextLib) (print : LinePrint) (files : Files TextFile) :
    Except Fault (List ExtractedValues) :=
  files.entries.mapM fun f => readTxtFile lib (linesText lib print (f.2.lines lib.values))

variable {stop : ℕ → Bool} {props : SearchProperties} {p : TimePeriod} {outPath : Path} {sort : SortByTime}
  {data : ExtractedValues} {files : Files TextFile} {reads : List ExtractedValues} {keys : List ExtractDataProperties}
  {f : TextFile}

theorem legible_lines (hp : print.Documented) (hh : textHeader lib.table props keys = .ok f.header)
    (htimes : ∀ row ∈ f.rows, ReadsTime lib print row.time) : ∀ l ∈ f.lines lib.values, Legible lib print l := by
  intro l hl
  rcases List.mem_append.mp hl with hl | hl
  · obtain ⟨header, hheader, rfl⟩ := List.mem_map.mp hl
    exact legible_of_plain hp (plain_textHeader hh header hheader)
  · obtain ⟨row, hrow, rfl⟩ := List.mem_map.mp hl
    exact legible_of_row hp (htimes row hrow)

/-- Every file that is written begins with its header. -/
theorem header_of_written (h : writeTxtFile lib.table stop props p outPath sort data = .ok files) :
    ∀ e ∈ files.entries, textHeader lib.table props (data.sortedBy sort).keys = .ok e.2.header := by
  intro e he
  rcases writeTxtFile_iff.mp h with ⟨-, rfl⟩ | ⟨-, f, header, -, hheader, -, -, rfl⟩
  · cases he
  · rw [(of_mem_textFiles he).1]
    exact hheader

/-- **Written files are read from their characters** as they are from their lines. -/
theorem readAllTexts_of_readAll (hp : print.Documented) (hend : EndsAtEnd lib)
    (hwritten : writeTxtFile lib.table stop props p outPath sort data = .ok files)
    (htimes : ∀ e ∈ files.entries, ∀ row ∈ e.2.rows, ReadsTime lib print row.time)
    (h : readAll lib.table lib.values files = .ok reads) : readAllTexts lib print files = .ok reads := by
  have hlegible : ∀ e ∈ files.entries, ∀ l ∈ e.2.lines lib.values, Legible lib print l :=
    fun e he => legible_lines hp (header_of_written hwritten e he) (htimes e he)
  have hboth := (List.forall₂_and_left _ _).mpr ⟨hlegible, mapM_eq_ok.mp h⟩
  exact mapM_eq_ok.mpr (hboth.imp fun e r hread => readTxtFile_of_lines hend hread.1 hread.2)

end Written

/-! ## Times as numbers -/

/-- The number of the digits that come first, and what is behind them. -/
def parseNumber (sign : ℤ) (rest : List Char) : Option ℤ × TextStream :=
  if rest.takeWhile Char.isDigit = [] then (none, ⟨[], true⟩)
  else (some (sign * Nat.ofDigitChars 10 (rest.takeWhile Char.isDigit) 0), ofText (rest.dropWhile Char.isDigit))

def parseSeconds : List Char → Option ℤ × TextStream
  | '-' :: rest => parseNumber (-1) rest
  | rest => parseNumber 1 rest

theorem parseSeconds_of_head {rest : List Char} (h : rest.head? ≠ some '-') :
    parseSeconds rest = parseNumber 1 rest := by
  unfold parseSeconds
  split
  · exact absurd rfl h
  · rfl

theorem size_parseNumber (sign : ℤ) (rest : List Char) : (parseNumber sign rest).2.size ≤ (ofText rest).size := by
  have hlength := (List.dropWhile_suffix (l := rest) Char.isDigit).length_le
  unfold parseNumber
  split
  · exact Nat.zero_le _
  · exact Nat.add_le_add_right hlength 1

theorem parseNumber_digits (sign : ℤ) (n : ℕ) (rest : List Char) :
    parseNumber sign (digits n ++ '\t' :: rest) = (some (sign * n), ofText ('\t' :: rest)) := by
  have hdigits : ∀ c ∈ digits n, c.isDigit = true := fun _ hc => isDigit_of_mem_digits hc
  have htake : (digits n ++ '\t' :: rest).takeWhile Char.isDigit = digits n := by
    rw [List.takeWhile_append_of_pos hdigits, List.takeWhile_cons_of_neg (by decide), List.append_nil]
  have hdrop : (digits n ++ '\t' :: rest).dropWhile Char.isDigit = '\t' :: rest := by
    rw [List.dropWhile_append_of_pos hdigits, List.dropWhile_cons_of_neg (by decide)]
  rw [parseNumber, htake, hdrop, if_neg digits_ne_nil, ofDigitChars_digits]

/-- Times as seconds, values and positions as fractions. -/
def secondsLib : TextLib where
  table := windTable
  values := fractionText
  coords := fractionText
  time := parseSeconds
  time_size rest := by
    unfold parseSeconds
    split
    · rename_i rest
      refine (size_parseNumber (-1) rest).trans ?_
      simp [size, ofText]
    · exact size_parseNumber 1 _

def secondsPrint : LinePrint where
  time t := if t < 0 then '-' :: digits t.natAbs else digits t.natAbs
  level _ _ := []

/-- The digits of a number begin with one. -/
theorem exists_digits (n : ℕ) : ∃ c s, digits n = c :: s ∧ c.isDigit = true := by
  obtain ⟨c, s, hs⟩ := List.exists_cons_of_ne_nil (@digits_ne_nil n)
  exact ⟨c, s, hs, isDigit_of_mem_digits (by rw [hs]; exact List.mem_cons_self)⟩

theorem secondsPrint_documented : secondsPrint.Documented where
  level_newline _ _ := List.not_mem_nil
  time_newline t := by
    simp only [secondsPrint]
    split
    · simp [newline_digits]
    · exact newline_digits _
  time_head t := by
    obtain ⟨c, s, hs, hc⟩ := exists_digits t.natAbs
    simp only [secondsPrint]
    split
    · exact ⟨'-', _, rfl, by decide⟩
    · refine ⟨c, s, hs, ?_⟩
      rintro rfl
      exact absurd hc (by decide)

theorem readsTime_seconds (t : ℤ) : ReadsTime secondsLib secondsPrint t := by
  intro rest
  by_cases ht : t < 0
  · have hvalue : (-1) * (t.natAbs : ℤ) = t := by omega
    simp only [secondsPrint, if_pos ht]
    have hread := parseNumber_digits (-1) t.natAbs rest
    rw [hvalue] at hread
    exact hread
  · have hvalue : 1 * (t.natAbs : ℤ) = t := by omega
    have hread := parseNumber_digits 1 t.natAbs rest
    rw [hvalue] at hread
    simp only [secondsPrint, if_neg ht]
    exact (parseSeconds_of_head head_digits).trans hread

/-- Two series are read back from the characters of their file. -/
theorem restored_texts : ∃ files reads,
    writeTxtFile windTable (fun _ => false) searchedProps .day ⟨true, []⟩ .insertion steadyValues = .ok files ∧
      readAllTexts secondsLib secondsPrint files = .ok reads ∧ Restores steadyValues reads := by
  have hrestored : ∃ files reads,
      writeTxtFile windTable (fun _ => false) searchedProps .day ⟨true, []⟩ .insertion steadyValues = .ok files ∧
        readAll windTable fractionText files = .ok reads ∧ Restores steadyValues reads :=
    exists_restores headerFits_steadyValues (by decide) (by decide) deliverable_steadyValues restorable_steadyValues
  obtain ⟨files, reads, hwritten, hread, hrest⟩ := hrestored
  exact ⟨files, reads, hwritten, readAllTexts_of_readAll secondsPrint_documented ⟨rfl, rfl⟩ hwritten
    (fun _ _ row _ => readsTime_seconds row.time) hread, hrest⟩

end Mashroom.RawText
