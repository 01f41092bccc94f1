import Mathlib.Data.List.TakeWhile

/-!
# TextStream — a text that is read line by line

A stream has the characters that are left, and knows whether its end was met.  A line is taken up to the next newline,
or to the end of the text, which is met then.  At the end no line is taken any more.
-/

structure TextStream where
  rest : List Char
  eof : Bool
  deriving DecidableEq

namespace TextStream

/-- A text that nothing was read of. -/
def ofText (text : List Char) : TextStream := ⟨text, false⟩

/-- `std::getline`: whether there was a line, what is in the string then, and the stream behind it.  At the end of a
stream the string stays as it is. -/
def getline (buffer : List Char) (s : TextStream) : Bool × List Char × TextStream :=
  if s.eof then (false, buffer, s)
  else if s.rest = [] then (false, [], ⟨[], true⟩)
  else
    match s.rest.dropWhile (· ≠ '\n') with
    | [] => (true, s.rest, ⟨[], true⟩)
    | _ :: rest => (true, s.rest.takeWhile (· ≠ '\n'), ⟨rest, false⟩)

/-- How far a stream is from its end. -/
def size (s : TextStream) : ℕ := s.rest.length + if s.eof then 0 else 1

/-- What a line can be. -/
structure Line where
  chars : List Char
  newline : '\n' ∉ chars

/-- Lines with a newline behind each. -/
def unlines (lines : List Line) : List Char := lines.flatMap fun line => line.chars ++ ['\n']

theorem unlines_cons (line : Line) (lines : List Line) (rest : List Char) :
    unlines (line :: lines) ++ rest = line.chars ++ '\n' :: (unlines lines ++ rest) := by
  simp [unlines]

theorem unlines_append (lines lines' : List Line) (rest : List Char) :
    unlines (lines ++ lines') ++ rest = unlines lines ++ (unlines lines' ++ rest) := by
  rw [unlines, List.flatMap_append, List.append_assoc]
  rfl

/-- Two texts that are split at the first character of a kind. -/
theorem append_cons_inj {a a' r r' : List Char} {c : Char} (ha : c ∉ a) (ha' : c ∉ a')
    (h : a ++ c :: r = a' ++ c :: r') : a = a' ∧ r = r' := by
  induction a generalizing a' with
  | nil =>
    cases a' with
    | nil => exact ⟨rfl, (List.cons.inj h).2⟩
    | cons b a' => exact absurd (List.cons.inj h).1 fun hb => ha' (hb ▸ List.mem_cons_self)
  | cons b a ih =>
    cases a' with
    | nil => exact absurd (List.cons.inj h).1 fun hb => ha (hb ▸ List.mem_cons_self)
    | cons b' a' =>
      obtain ⟨rfl, htail⟩ := List.cons.inj h
      obtain ⟨rfl, rfl⟩ := ih (fun hc => ha (List.mem_cons_of_mem _ hc)) (fun hc => ha' (List.mem_cons_of_mem _ hc))
        htail
      exact ⟨rfl, rfl⟩

section Getline

variable {rest : List Char} {s : TextStream} (buffer : List Char)

theorem Line.ne_newline (line : Line) : ∀ c ∈ line.chars, decide (c ≠ '\n') = true := by
  intro c hc
  refine decide_eq_true ?_
  rintro rfl
  exact line.newline hc

/-- A line with a newline behind it. -/
theorem getline_line (line : Line) :
    getline buffer ⟨line.chars ++ '\n' :: rest, false⟩ = (true, line.chars, ⟨rest, false⟩) := by
  have hne : line.chars ++ '\n' :: rest ≠ [] := List.append_ne_nil_of_right_ne_nil _ (List.cons_ne_nil _ _)
  have hdrop : (line.chars ++ '\n' :: rest).dropWhile (· ≠ '\n') = '\n' :: rest := by
    rw [List.dropWhile_append_of_pos line.ne_newline]
    exact List.dropWhile_cons_of_neg (by simp)
  have htake : (line.chars ++ '\n' :: rest).takeWhile (· ≠ '\n') = line.chars := by
    rw [List.takeWhile_append_of_pos line.ne_newline, List.takeWhile_cons_of_neg (by simp), List.append_nil]
  simp only [getline, Bool.false_eq_true, if_false, if_neg hne, hdrop, htake]

/-- What is left without a newline is the last line, if it is not empty. -/
theorem getline_last (line : Line) :
    getline buffer ⟨line.chars, false⟩ = (decide (line.chars ≠ []), line.chars, ⟨[], true⟩) := by
  have hdrop : line.chars.dropWhile (· ≠ '\n') = [] := List.dropWhile_eq_nil_iff.mpr line.ne_newline
  by_cases hnil : line.chars = []
  · simp only [getline, Bool.false_eq_true, if_false, hnil, if_true, ne_eq, not_true_eq_false, decide_false]
  · simp only [getline, Bool.false_eq_true, if_false, hdrop, ne_eq, hnil, not_false_eq_true, decide_true]

theorem getline_eof (h : s.eof = true) : getline buffer s = (false, buffer, s) := if_pos h

/-- A line takes the stream nearer to its end. -/
theorem size_getline {buffer : List Char} (h : (s.getline buffer).1 = true) : (s.getline buffer).2.2.size < s.size := by
  obtain ⟨rest, eof⟩ := s
  cases eof with
  | true => cases h
  | false =>
    by_cases hnil : rest = []
    · subst hnil
      cases h
    · have hlength := (List.dropWhile_suffix (l := rest) (· ≠ '\n')).length_le
      have hpos := List.length_pos_iff.mpr hnil
      simp only [getline, Bool.false_eq_true, if_false, if_neg hnil]
      split
      · simp [size]
      · rename_i hdrop
        rw [hdrop, List.length_cons] at hlength
        simp only [size, Bool.false_eq_true, if_false]
        omega

/-- A text is one line, or has a first line. -/
theorem exists_line (text : List Char) :
    (∃ line : Line, text = line.chars) ∨ ∃ (line : Line) (rest : List Char), text = line.chars ++ '\n' :: rest := by
  by_cases h : '\n' ∈ text
  · obtain ⟨line, rest, htext, hline⟩ := List.eq_append_cons_of_mem h
    exact .inr ⟨⟨line, hline⟩, rest, htext⟩
  · exact .inl ⟨⟨text, h⟩, rfl⟩

end Getline

end TextStream
