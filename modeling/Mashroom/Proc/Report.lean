import Mathlib.Algebra.Order.BigOperators.Group.List
import Mathlib.Algebra.Order.Group.Nat
import Mathlib.Algebra.BigOperators.Ring.List
import Mathlib.Algebra.Ring.Nat
import Mathlib.Data.Int.Notation

/-!
# Proc.Report — the report of the integrity process

When all messages are recorded, `execute` goes through the sequences of times that were made of them.  Each is compared
with a period of the `TimePeriod` of the process, which is not part of the repository: of the sequence, what is
accessible goes to one file, and what is missing before and after it to another.  `examine` is what it does for one
sequence, `report` for all.

Where a sequence begins after its period, both files get what they should.  Where it does not, the branches after it are
mixed up: a sequence that ends early is listed twice as accessible, and one that does not end early is listed as missing
(`report_correct`).
-/

namespace Mashroom

/-- What a `SequenceTime` tells of itself.  A `DateTimeDiff` is a `δ`. -/
structure SequenceTime (δ : Type) where
  from_ : ℤ
  to_ : ℤ
  duration : δ

/-- The `TimePeriod` of the process, and what is done with its `DateTimeDiff`s. -/
structure ReportPeriod (δ : Type) where
  /-- `get_null_aligned_tp` -/
  nullAligned : ℤ → ℤ → ℤ
  /-- `get_next_tp` -/
  nextTp : ℤ → ℤ
  /-- `operator-` of a time -/
  minus : ℤ → δ → ℤ
  /-- `DateTimeDiff()` -/
  zero : δ
  /-- `DateTimeDiff(err,seconds(1))` -/
  second : δ

/-- A line of a file: two times, in the format of the process or in that of a stream. -/
structure ReportLine where
  first : ℤ
  last : ℤ
  formatted : Bool := true
  deriving DecidableEq

/-- The times of a line. -/
def ReportLine.interval (line : ReportLine) : ℤ × ℤ := (line.first, line.last)

/-- The lines of `missed.txt` and of `accessible.txt`. -/
structure ReportLogs where
  missing : List ReportLine := []
  accessible : List ReportLine := []

/-- What `execute` returns. -/
inductive ReportError where
  | none
  | cannotOpenFileX1
  | integrityViolated
  deriving DecidableEq

namespace ReportLogs

variable (logs : ReportLogs) (line : ReportLine)

def miss : ReportLogs := { logs with missing := logs.missing ++ [line] }

def access : ReportLogs := { logs with accessible := logs.accessible ++ [line] }

end ReportLogs

namespace ReportPeriod

variable {δ : Type} [DecidableEq δ] (p : ReportPeriod δ) (fromDate : ℤ)

/-- `beg_period` -/
def begPeriod (s : SequenceTime δ) : ℤ := p.nullAligned s.from_ fromDate

/-- `end_period` -/
def endPeriod (s : SequenceTime δ) : ℤ :=
  p.minus (p.nextTp s.from_) (if s.duration ≠ p.zero then s.duration else p.second)

/-- The body of the loop. -/
def examine (logs : ReportLogs) (s : SequenceTime δ) : ReportLogs :=
  let logs :=
    if s.from_ ≤ p.begPeriod fromDate s then
      if s.to_ < p.endPeriod s then logs.access { first := s.from_, last := s.to_ }
      else logs.miss { first := s.to_, last := p.endPeriod s, formatted := false }
    else
      let logs := logs.miss { first := p.begPeriod fromDate s, last := s.from_ }
      if s.to_ < p.endPeriod s then logs.miss { first := s.to_, last := p.endPeriod s } else logs
  logs.access { first := s.from_, last := s.to_ }

/-- The report: what is returned, and the files.  The data is by the names of files and by common properties, here in
the order in which it is visited. -/
def report {ι κ : Type} (missingOpens accessibleOpens : Bool) (data : List (ι × List (κ × List (SequenceTime δ)))) :
    ReportError × ReportLogs :=
  if !missingOpens then (.cannotOpenFileX1, {})
  else if !accessibleOpens then (.cannotOpenFileX1, {})
  else
    let logs := data.foldl (fun logs file =>
      file.2.foldl (fun logs cmn => cmn.2.foldl (p.examine fromDate) logs) logs) {}
    (if logs.missing ≠ [] then .integrityViolated else .none, logs)

/-! ## What the files are to list -/

/-- What is missing of the period of a sequence: before it, and after it. -/
def missingOf (s : SequenceTime δ) : List (ℤ × ℤ) :=
  (if p.begPeriod fromDate s < s.from_ then [(p.begPeriod fromDate s, s.from_)] else []) ++
    if s.to_ < p.endPeriod s then [(s.to_, p.endPeriod s)] else []

/-- The files list what is missing of the periods of the sequences, and each sequence once. -/
structure Reported (ss : List (SequenceTime δ)) (logs : ReportLogs) : Prop where
  missing : logs.missing.map ReportLine.interval = ss.flatMap (p.missingOf fromDate)
  accessible : logs.accessible.map ReportLine.interval = ss.map fun s => (s.from_, s.to_)

/-- The sequences in the data. -/
def sequences {ι κ : Type} (data : List (ι × List (κ × List (SequenceTime δ)))) : List (SequenceTime δ) :=
  data.flatMap fun file => file.2.flatMap Prod.snd

/-! ## What they list -/

variable {p fromDate} {logs : ReportLogs} {s : SequenceTime δ} {ss : List (SequenceTime δ)}

/-- The lines for a sequence come after those that are there. -/
theorem examine_eq : p.examine fromDate logs s = {
    missing := logs.missing ++ (p.examine fromDate {} s).missing
    accessible := logs.accessible ++ (p.examine fromDate {} s).accessible } := by
  unfold examine
  split <;> split <;> simp [ReportLogs.miss, ReportLogs.access]

theorem foldl_examine : ss.foldl (p.examine fromDate) logs = {
    missing := logs.missing ++ ss.flatMap fun s => (p.examine fromDate {} s).missing
    accessible := logs.accessible ++ ss.flatMap fun s => (p.examine fromDate {} s).accessible } := by
  induction ss generalizing logs with
  | nil => simp
  | cons s ss ih =>
    rw [List.foldl_cons, ih, examine_eq]
    simp

/-- The report has the lines for all sequences, one sequence after the other. -/
theorem report_snd {ι κ : Type} (data : List (ι × List (κ × List (SequenceTime δ)))) :
    (p.report fromDate true true data).2 = (sequences data).foldl (p.examine fromDate) {} := by
  simp only [report, sequences, List.foldl_flatMap]
  rfl

/-- A sequence that begins after its period is reported as it should. -/
theorem examine_of_lt (h : p.begPeriod fromDate s < s.from_) :
    (p.examine fromDate {} s).missing.map ReportLine.interval = p.missingOf fromDate s ∧
      (p.examine fromDate {} s).accessible.map ReportLine.interval = [(s.from_, s.to_)] := by
  unfold examine missingOf
  rw [if_neg (by omega), if_pos h]
  split <;> simp [ReportLogs.miss, ReportLogs.access, ReportLine.interval]

/-- The lines for a sequence, where one that lists it as accessible counts twice. -/
def lines (p : ReportPeriod δ) (fromDate : ℤ) (s : SequenceTime δ) : ℕ :=
  (p.examine fromDate {} s).missing.length + 2 * (p.examine fromDate {} s).accessible.length

/-- A sequence that does not begin after its period has a line too many. -/
theorem lt_lines (h : ¬ p.begPeriod fromDate s < s.from_) :
    (p.missingOf fromDate s).length + 2 < p.lines fromDate s := by
  unfold lines examine missingOf
  rw [if_neg h, if_pos (not_lt.mp h)]
  split <;> simp [ReportLogs.miss, ReportLogs.access]

theorem le_lines (s : SequenceTime δ) : (p.missingOf fromDate s).length + 2 ≤ p.lines fromDate s := by
  by_cases h : p.begPeriod fromDate s < s.from_
  · obtain ⟨hmissing, haccessible⟩ := examine_of_lt h
    have hm := congrArg List.length hmissing
    have ha := congrArg List.length haccessible
    rw [List.length_map] at hm ha
    rw [lines, hm, ha, List.length_singleton]
  · exact (lt_lines h).le

/-- The files are right where no sequence has a line too many: where all begin after their periods. -/
theorem reported_iff : Reported p fromDate ss (ss.foldl (p.examine fromDate) {}) ↔
    ∀ s ∈ ss, p.begPeriod fromDate s < s.from_ := by
  rw [foldl_examine]
  constructor
  · rintro ⟨hmissing, haccessible⟩
    by_contra hnone
    push Not at hnone
    obtain ⟨s, hs, hle⟩ := hnone
    have hlt : (ss.map fun s => (p.missingOf fromDate s).length + 2).sum < (ss.map (p.lines fromDate)).sum :=
      List.sum_lt_sum _ _ (fun s _ => le_lines s) ⟨s, hs, lt_lines (not_lt.mpr hle)⟩
    have hlines : (ss.map (p.lines fromDate)).sum =
        (ss.map fun s => (p.examine fromDate {} s).missing.length).sum +
          2 * (ss.map fun s => (p.examine fromDate {} s).accessible.length).sum := by
      rw [← List.sum_map_mul_left, ← List.sum_map_add]
      rfl
    have hspec : (ss.map fun s => (p.missingOf fromDate s).length + 2).sum =
        (ss.map fun s => (p.missingOf fromDate s).length).sum + ss.length * 2 := by
      rw [List.sum_map_add, List.map_const', List.sum_replicate_nat]
    have hm := congrArg List.length hmissing
    have ha := congrArg List.length haccessible
    simp only [List.nil_append, List.length_map, List.length_flatMap] at hm ha
    omega
  · intro h
    refine ⟨?_, ?_⟩
    · simp only [List.nil_append, List.map_flatMap]
      exact List.flatMap_congr fun s hs => (examine_of_lt (h s hs)).1
    · simp only [List.nil_append, List.map_flatMap]
      rw [List.map_eq_flatMap]
      exact List.flatMap_congr fun s hs => (examine_of_lt (h s hs)).2

end ReportPeriod

/-- **The report is right** for a sequence where it begins after its period, and for all of them where all do. -/
theorem report_correct {δ ι κ : Type} [DecidableEq δ] (p : ReportPeriod δ) (fromDate : ℤ) :
    (∀ s, p.Reported fromDate [s] (p.examine fromDate {} s) ↔ p.begPeriod fromDate s < s.from_) ∧
    ∀ data : List (ι × List (κ × List (SequenceTime δ))),
      p.Reported fromDate (ReportPeriod.sequences data) (p.report fromDate true true data).2 ↔
        ∀ s ∈ ReportPeriod.sequences data, p.begPeriod fromDate s < s.from_ := by
  constructor
  · intro s
    have hone : p.Reported fromDate [s] (p.examine fromDate {} s) ↔ _ := ReportPeriod.reported_iff
    rwa [List.forall_mem_singleton] at hone
  · intro data
    rw [ReportPeriod.report_snd]
    exact ReportPeriod.reported_iff

/-- A day of which all is accessible but the last second: it begins with its period. -/
def ReportPeriod.day : ReportPeriod ℤ where
  nullAligned t _ := t / 86400 * 86400
  nextTp t := t / 86400 * 86400 + 86400
  minus t d := t - d
  zero := 0
  second := 1

/-- All of the day. -/
def SequenceTime.fullDay : SequenceTime ℤ := ⟨0, 86399, 0⟩

/-- The first half of the day. -/
def SequenceTime.halfDay : SequenceTime ℤ := ⟨0, 43200, 0⟩

/-- The day that is all there is listed as missing, and the half of it twice as accessible and never as missing. -/
theorem report_incorrect :
    (ReportPeriod.day.examine 0 {} .fullDay).missing = [⟨86399, 86399, false⟩] ∧
    (ReportPeriod.day.examine 0 {} .halfDay).missing = [] ∧
    (ReportPeriod.day.examine 0 {} .halfDay).accessible = [⟨0, 43200, true⟩, ⟨0, 43200, true⟩] ∧
    ¬ ReportPeriod.day.Reported 0 [.fullDay] (ReportPeriod.day.examine 0 {} .fullDay) ∧
    ¬ ReportPeriod.day.Reported 0 [.halfDay] (ReportPeriod.day.examine 0 {} .halfDay) := by
  refine ⟨by decide, by decide, by decide, ?_, ?_⟩
  · intro h
    exact absurd h.missing (by decide)
  · intro h
    exact absurd h.missing (by decide)

end Mashroom
