import Mashroom.Lib.Pieces
import Mashroom.Proc.ReadText

/-!
# Proc.SplitIgnore — the loop that splits a line

`split_ignore` searches by turns for a character that is no separator and for one that is, each time from where the
last search ended, and compares the distances it gets with `npos`, which they never are.  A turn takes the next piece
of the line (`splitLoop_eq`), so what is returned are the maximal runs of characters that are no separators.  With the
separators of the text files it is the `splitIgnore` by which these are read (`splitIgnore_blanks`).
-/

namespace Mashroom.Split

open Pieces

/-- `std::string::npos` -/
def npos : ℕ := 2 ^ 64 - 1

/-- A `std::string`, whose size is below `npos`. -/
structure StdString where
  chars : List Char
  size_lt : chars.length < npos

/-! ## The code -/

/-- The distance from the first character of the view to what `std::find_if` finds from `pos` on, which is the end of
the view when it finds nothing. -/
def findIf (p : Char → Bool) (view : List Char) (pos : ℕ) : Except Fault ℕ :=
  if pos ≤ view.length then .ok (pos + (view.drop pos).findIdx p) else .error .outside

/-- `substr` -/
def substr (s : List Char) (pos count : ℕ) : Except Fault (List Char) :=
  if pos ≤ s.length then .ok ((s.drop pos).take count) else .error .exception

/-- The loop, for at most `fuel` turns, where `stop` is the `end` of the source. -/
def splitLoop (input separator : List Char) : ℕ → ℕ → List (List Char) → Except Fault (Option (List (List Char)))
  | 0, _, _ => .ok none
  | fuel + 1, stop, result => do
    let beg ← findIf (fun ch => !separator.contains ch) input stop
    if beg ≠ npos then
      let stop ← findIf (fun ch => separator.contains ch) input beg
      if beg = stop then return some result
      let token ← substr input beg (stop - beg)
      if stop = npos then return some (result ++ [token])
      splitLoop input separator fuel stop (result ++ [token])
    else return some result

/-- `split_ignore`, which has no result when `fuel` turns are not enough. -/
def splitIgnore (input : StdString) (separator : List Char) (fuel : ℕ) : Except Fault (Option (List (List Char))) :=
  splitLoop input.chars separator fuel 0 []

/-! ## A turn of the loop -/

section Turn

variable {p : Char → Bool} {s : List Char} {pos : ℕ}

theorem findIf_eq (h : pos ≤ s.length) : findIf p s pos = .ok (pos + (s.drop pos).findIdx p) := if_pos h

theorem substr_eq (h : pos ≤ s.length) (count : ℕ) : substr s pos count = .ok ((s.drop pos).take count) := if_pos h

/-- A search stays within the view. -/
theorem search_le (h : pos ≤ s.length) : pos + (s.drop pos).findIdx p ≤ s.length := by
  have hle : (s.drop pos).findIdx p ≤ (s.drop pos).length := List.findIdx_le_length
  rw [List.length_drop] at hle
  omega

/-- What is left where a search ends. -/
theorem drop_search : s.drop (pos + (s.drop pos).findIdx p) = (s.drop pos).dropWhile fun c => !p c := by
  rw [← List.drop_drop, List.dropWhile_eq_drop_findIdx_not]
  simp only [Bool.not_not]

/-- What a search passes. -/
theorem take_search :
    (s.drop pos).take (pos + (s.drop pos).findIdx p - pos) = (s.drop pos).takeWhile fun c => !p c := by
  rw [Nat.add_sub_cancel_left, List.takeWhile_eq_take_findIdx_not]
  simp only [Bool.not_not]

end Turn

section Loop

variable {input separator : List Char}

/-- **The loop** takes the pieces that are left, one in each turn. -/
theorem splitLoop_eq (hsize : input.length < npos) {fuel stop : ℕ} {result : List (List Char)}
    (hstop : stop ≤ input.length) (hfuel : input.length - stop < fuel) :
    splitLoop input separator fuel stop result =
      .ok (some (result ++ pieces (fun c => separator.contains c) (input.drop stop))) := by
  induction fuel generalizing stop result with
  | zero => omega
  | succ fuel ih =>
    obtain ⟨beg, hbeg⟩ : ∃ beg, beg = stop + (input.drop stop).findIdx fun ch => !separator.contains ch := ⟨_, rfl⟩
    obtain ⟨next, hnext⟩ : ∃ next, next = beg + (input.drop beg).findIdx fun ch => separator.contains ch := ⟨_, rfl⟩
    have hbegle : beg ≤ input.length := hbeg ▸ search_le hstop
    have hnextle : next ≤ input.length := hnext ▸ search_le hbegle
    have hdrop : (input.drop stop).dropWhile (fun ch => separator.contains ch) = input.drop beg := by
      rw [hbeg, drop_search]
      simp only [Bool.not_not]
    rw [splitLoop, findIf_eq hstop, ok_bind, ← hbeg, if_pos (by omega), findIf_eq hbegle, ok_bind, ← hnext]
    cases hrest : input.drop beg with
    | nil =>
      have hend : beg = next := by rw [hnext, hrest, List.findIdx_nil, Nat.add_zero]
      rw [if_pos hend, pieces_of_nil (hdrop.trans hrest), List.append_nil]
      rfl
    | cons c cs =>
      have hc : separator.contains c = false := not_of_dropWhile (hdrop.trans hrest)
      have hlt : beg < next := by
        rw [hnext, hrest, List.findIdx_cons, hc, cond_false]
        omega
      have hword : (input.drop beg).take (next - beg) = c :: cs.takeWhile fun ch => !separator.contains ch := by
        rw [hnext, take_search, hrest, List.takeWhile_cons_of_pos (by rw [hc]; rfl)]
      have hleft : input.drop next = cs.dropWhile fun ch => !separator.contains ch := by
        rw [hnext, drop_search, hrest, List.dropWhile_cons_of_pos (by rw [hc]; rfl)]
      rw [if_neg (by omega), substr_eq hbegle, ok_bind, if_neg (by omega), ih hnextle (by omega), hword, hleft,
        pieces_of_cons (hdrop.trans hrest), List.append_assoc, List.singleton_append]

end Loop

/-- **`split_ignore` returns the maximal runs** of characters that are no separators, in their order, and does so after
as many turns as there are characters and one more: no token is empty or has a separator, and the tokens one after the
other are the line without its separators. -/
theorem splitIgnore_maximalRuns (input : StdString) (separator : List Char) : ∃ runs : List (ℕ × ℕ),
    (∀ fuel, input.chars.length < fuel →
      splitIgnore input separator fuel = .ok (some (runs.map (slice input.chars)))) ∧
    (runs.Pairwise fun r r' => r.2 < r'.1) ∧
    (∀ b e, (b, e) ∈ runs ↔ MaximalRun (fun c => separator.contains c) input.chars b e) ∧
    (∀ token ∈ runs.map (slice input.chars), token ≠ [] ∧ ∀ c ∈ token, c ∉ separator) ∧
    (runs.map (slice input.chars)).flatten = input.chars.filter fun c => !separator.contains c := by
  obtain ⟨runs, hpieces, hsorted, hmem⟩ := exists_runs (p := fun c => separator.contains c) input.chars
  refine ⟨runs, fun fuel hfuel => ?_, hsorted, hmem, fun token htoken => ?_, ?_⟩
  · rw [splitIgnore, splitLoop_eq input.size_lt (Nat.zero_le _) (by omega), List.nil_append, List.drop_zero, hpieces]
  · rw [← hpieces] at htoken
    obtain ⟨hne, hseps⟩ := mem_pieces htoken
    refine ⟨hne, fun c hc hmem => ?_⟩
    have hsep := hseps c hc
    rw [List.contains_iff_mem.mpr hmem] at hsep
    cases hsep
  · rw [← hpieces]
    exact flatten_pieces input.chars

/-! ## The lines of the text files -/

theorem blanks_eq : (fun c => [' ', '\t'].contains c) = isSeparator := by
  funext c
  simp [isSeparator]

/-- The reader's words are the pieces between blanks. -/
theorem words_eq_pieces (s : List Char) : Mashroom.splitIgnore s = pieces isSeparator s := by
  induction s using pieces_induction (p := isSeparator) with
  | blank s h =>
    rw [pieces_of_nil h, Mashroom.splitIgnore]
    split
    · rfl
    · rename_i h'
      rw [h] at h'
      cases h'
  | piece s c cs h ih =>
    rw [pieces_of_cons h, Mashroom.splitIgnore]
    split
    · rename_i h'
      rw [h] at h'
      cases h'
    · rename_i h'
      rw [h] at h'
      obtain ⟨rfl, rfl⟩ := List.cons.inj h'
      rw [ih]

/-- With the separators of the text files the loop gives the words by which these are read. -/
theorem splitIgnore_blanks (input : StdString) {fuel : ℕ} (hfuel : input.chars.length < fuel) :
    splitIgnore input [' ', '\t'] fuel = .ok (some (Mashroom.splitIgnore input.chars)) := by
  rw [splitIgnore, splitLoop_eq input.size_lt (Nat.zero_le _) (by omega), List.nil_append, List.drop_zero, blanks_eq,
    words_eq_pieces]

end Mashroom.Split
