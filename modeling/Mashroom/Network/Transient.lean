import Mashroom.Network.Receive

/-!
# Network.Transient — calls of `recv` that fail

A call that is interrupted, or would have to wait, gives -1 and says so in `errno`.  The loop of `receive` keeps `errno`
for its message and compares the -1 with the two errors, so it gives up at every call that fails.  What the calls
before it have brought decides whether it gets there (`Decided`): a call that comes before that is never passed over.
-/

namespace Mashroom.Network

/-- The numbers of the two errors on Linux. -/
def EINTR : ℤ := 4

def EAGAIN : ℤ := 11

/-- What a call of `recv` meets: octets, of which it takes as many as it is asked for, or an error. -/
inductive Answer where
  | octets (bs : List UInt8)
  | failed (err : ℤ)
  deriving DecidableEq

namespace Answer

/-- One of the errors that the loop names. -/
def transient : Answer → Bool
  | .octets _ => false
  | .failed err => err = EINTR || err = EAGAIN

/-- The octets that there are. -/
def received : Answer → List UInt8
  | .octets bs => bs
  | .failed _ => []

end Answer

/-! ## The code -/

/-- What becomes of `read_num` when it is negative, without a value where `receive` returns -1.  The error is printed,
and is not what is compared. -/
def afterFailure (readNum : ℤ) : Option ℤ :=
  if readNum = EINTR then some 0
  else if readNum = EAGAIN then some 0
  else none

/-- A turn of the loop. -/
def Receiving.answer (st : Receiving) : Answer → Option Receiving
  | .octets bs => st.turn (.ofOctets (bs.take st.n))
  | .failed _ => (afterFailure (-1)).map fun _ => st

/-- The loop, on the answers to its calls: what is returned, and the buffer.  It has no result yet when it waits for one
more answer. -/
def answersLoop : List Answer → Receiving → Option (ℤ × List UInt8)
  | [], st => if st.n ≠ 0 then none else some (0, st.buffer)
  | a :: answers, st =>
    if st.n ≠ 0 then
      match st.answer a with
      | none => some (-1, st.buffer)
      | some st' => answersLoop answers st'
    else some (0, st.buffer)

/-- `receive`, on the answers to its calls of `recv`. -/
def receiveAnswers (buffer : List UInt8) (n : ℕ) (answers : List Answer) : Option (ℤ × List UInt8) :=
  if n = 0 then some (0, buffer) else answersLoop answers { buffer, n }

/-! ## What is wanted -/

/-- The answers without the transient errors. -/
def withoutTransient (answers : List Answer) : List Answer := answers.filter fun a => !a.transient

/-- Transient errors are passed over: none of them ends the call, and what the call gives is what it gives without
them. -/
structure PassesTransient (buffer : List UInt8) (n : ℕ) (answers : List Answer) : Prop where
  goesOn : ∀ before a after, answers = before ++ a :: after → a.transient = true →
    receiveAnswers buffer n before = none → receiveAnswers buffer n (before ++ [a]) = none
  same : receiveAnswers buffer n answers = receiveAnswers buffer n (withoutTransient answers)

/-- The answers bring the `n` octets, or an error, or eleven times in a row nothing. -/
def Decided (n : ℕ) (answers : List Answer) : Prop :=
  n ≤ (answers.flatMap Answer.received).length ∨ (∃ err, .failed err ∈ answers) ∨
    List.replicate 11 (.octets []) <:+: answers

/-! ## The loop -/

section Loop

variable {st st' : Receiving} {answers before after : List Answer} {a : Answer} {r : ℤ × List UInt8}
  {buffer : List UInt8} {n : ℕ}

/-- Every error ends the loop. -/
theorem answer_failed (st : Receiving) (err : ℤ) : st.answer (.failed err) = none := rfl

theorem answersLoop_of_n (h : st.n = 0) : answersLoop answers st = some (0, st.buffer) := by
  cases answers with
  | nil => exact if_neg (not_not.mpr h)
  | cons a answers => exact if_neg (not_not.mpr h)

theorem answersLoop_cons (hn : st.n ≠ 0) (h : st.answer a = some st') :
    answersLoop (a :: answers) st = answersLoop answers st' := by
  rw [answersLoop, if_pos hn, h]

theorem answersLoop_stop (hn : st.n ≠ 0) (h : st.answer a = none) :
    answersLoop (a :: answers) st = some (-1, st.buffer) := by
  rw [answersLoop, if_pos hn, h]

/-- What the loop gives does not depend on answers that it does not wait for. -/
theorem answersLoop_append (h : answersLoop before st = some r) : answersLoop (before ++ after) st = some r := by
  induction before generalizing st with
  | nil =>
    by_cases hn : st.n = 0
    · rw [answersLoop_of_n hn] at h
      rw [answersLoop_of_n hn, h]
    · rw [answersLoop, if_pos hn] at h
      cases h
  | cons a before ih =>
    by_cases hn : st.n = 0
    · rw [answersLoop_of_n hn] at h
      rw [answersLoop_of_n hn, h]
    · rw [List.cons_append]
      cases ha : st.answer a with
      | none =>
        rw [answersLoop_stop hn ha] at h
        rw [answersLoop_stop hn ha, h]
      | some st' =>
        rw [answersLoop_cons hn ha] at h
        rw [answersLoop_cons hn ha]
        exact ih h

theorem receiveAnswers_append (h : receiveAnswers buffer n before = some r) :
    receiveAnswers buffer n (before ++ after) = some r := by
  unfold receiveAnswers at h ⊢
  split
  · rename_i hn
    rwa [if_pos hn] at h
  · rename_i hn
    rw [if_neg hn] at h
    exact answersLoop_append h

end Loop

/-! ## When the loop ends -/

section Ends

variable {st : Receiving} {answers : List Answer} {n r : ℕ}

/-- The answers decide, where `n` octets are missing and the last `r` calls got nothing. -/
def DecidedFrom (n r : ℕ) (answers : List Answer) : Prop :=
  n ≤ (answers.flatMap Answer.received).length ∨ (∃ err, .failed err ∈ answers) ∨
    List.replicate (11 - r) (.octets []) <+: answers ∨ List.replicate 11 (.octets []) <:+: answers

theorem decidedFrom_zero : DecidedFrom n 0 answers ↔ Decided n answers := by
  constructor
  · rintro (h | h | h | h)
    · exact .inl h
    · exact .inr (.inl h)
    · exact .inr (.inr h.isInfix)
    · exact .inr (.inr h)
  · rintro (h | h | h)
    · exact .inl h
    · exact .inr (.inl h)
    · exact .inr (.inr (.inr h))

/-- Without answers nothing is decided, where octets are missing. -/
theorem not_decidedFrom_nil (hn : n ≠ 0) (hr : r ≤ 10) : ¬ DecidedFrom n r [] := by
  obtain ⟨k, hk⟩ : ∃ k, 11 - r = k + 1 := ⟨10 - r, by omega⟩
  rintro (h | ⟨err, h⟩ | h | h)
  · exact hn (Nat.le_zero.mp h)
  · cases h
  · rw [hk, List.replicate_succ] at h
    exact absurd (List.prefix_nil.mp h) (List.cons_ne_nil _ _)
  · exact absurd (List.infix_nil.mp h) (by decide)

/-- One more call that gets nothing, of ten at most. -/
theorem decidedFrom_nothing (hr : r < 10) :
    DecidedFrom n r (.octets [] :: answers) ↔ DecidedFrom n (r + 1) answers := by
  obtain ⟨k, hk⟩ : ∃ k, 11 - r = k + 1 := ⟨10 - r, by omega⟩
  have hk' : 11 - (r + 1) = k := by omega
  have hlow : List.replicate k (.octets []) <+: List.replicate 10 (Answer.octets []) :=
    List.prefix_iff_eq_take.mpr (by rw [List.take_replicate, List.length_replicate, Nat.min_eq_left (by omega)])
  have hfailed : (∃ err, .failed err ∈ Answer.octets [] :: answers) ↔ ∃ err, .failed err ∈ answers := by simp
  rw [DecidedFrom, DecidedFrom, List.flatMap_cons, Answer.received, List.nil_append, hfailed, hk, hk',
    List.replicate_succ, List.cons_prefix_cons, List.infix_cons_iff, List.replicate_succ (n := 10),
    List.cons_prefix_cons]
  constructor
  · rintro (h | h | ⟨-, h⟩ | ⟨-, h⟩ | h)
    · exact .inl h
    · exact .inr (.inl h)
    · exact .inr (.inr (.inl h))
    · exact .inr (.inr (.inl (hlow.trans h)))
    · exact .inr (.inr (.inr h))
  · rintro (h | h | h | h)
    · exact .inl h
    · exact .inr (.inl h)
    · exact .inr (.inr (.inl ⟨rfl, h⟩))
    · exact .inr (.inr (.inr (.inr h)))

/-- One more call that gets octets. -/
theorem decidedFrom_moved {b : UInt8} {bs : List UInt8} (hr : r ≤ 10) :
    DecidedFrom n r (.octets (b :: bs) :: answers) ↔ DecidedFrom (n - (bs.length + 1)) 0 answers := by
  obtain ⟨k, hk⟩ : ∃ k, 11 - r = k + 1 := ⟨10 - r, by omega⟩
  have hne : Answer.octets [] ≠ Answer.octets (b :: bs) := by simp
  have hfailed : (∃ err, .failed err ∈ Answer.octets (b :: bs) :: answers) ↔ ∃ err, .failed err ∈ answers := by simp
  have hlength : n ≤ ((Answer.octets (b :: bs) :: answers).flatMap Answer.received).length ↔
      n - (bs.length + 1) ≤ (answers.flatMap Answer.received).length := by
    rw [List.flatMap_cons, Answer.received, List.length_append, List.length_cons]
    omega
  rw [decidedFrom_zero, DecidedFrom, Decided, hlength, hfailed, hk, List.replicate_succ, List.cons_prefix_cons,
    List.infix_cons_iff, List.replicate_succ (n := 10), List.cons_prefix_cons]
  constructor
  · rintro (h | h | ⟨h, -⟩ | ⟨h, -⟩ | h)
    · exact .inl h
    · exact .inr (.inl h)
    · exact absurd h hne
    · exact absurd h hne
    · exact .inr (.inr h)
  · rintro (h | h | h)
    · exact .inl h
    · exact .inr (.inl h)
    · exact .inr (.inr (.inr (.inr h)))

/-- The loop ends where the answers decide. -/
theorem answersLoop_ne_none (hr : st.retry ≤ 10) :
    answersLoop answers st ≠ none ↔ DecidedFrom st.n st.retry answers := by
  induction answers generalizing st with
  | nil =>
    by_cases hn : st.n = 0
    · rw [answersLoop_of_n hn, hn]
      exact iff_of_true (by simp) (.inl (Nat.zero_le _))
    · rw [answersLoop, if_pos hn]
      exact iff_of_false (by simp) (not_decidedFrom_nil hn hr)
  | cons a answers ih =>
    by_cases hn : st.n = 0
    · rw [answersLoop_of_n hn, hn]
      exact iff_of_true (by simp) (.inl (Nat.zero_le _))
    · cases a with
      | failed err =>
        rw [answersLoop_stop hn (answer_failed st err)]
        exact iff_of_true (by simp) (.inr (.inl ⟨err, List.mem_cons_self⟩))
      | octets bs =>
        cases bs with
        | nil =>
          by_cases hten : st.retry < 10
          · have hturn : st.answer (.octets []) = some { st with retry := st.retry + 1 } := by
              rw [Receiving.answer, List.take_nil]
              exact if_pos hten
            rw [answersLoop_cons hn hturn, ih (by exact hten), decidedFrom_nothing hten]
          · have hturn : st.answer (.octets []) = none := by
              rw [Receiving.answer, List.take_nil]
              exact if_neg hten
            have hlast : 11 - st.retry = 1 := by omega
            rw [answersLoop_stop hn hturn]
            refine iff_of_true (by simp) (.inr (.inr (.inl ?_)))
            rw [hlast]
            exact List.cons_prefix_cons.mpr ⟨rfl, List.nil_prefix⟩
        | cons b bs =>
          obtain ⟨m, hm⟩ : ∃ m, st.n = m + 1 := ⟨st.n - 1, by omega⟩
          have hturn : st.answer (.octets (b :: bs)) = st.turn (.moved (b :: bs.take m)) := by
            rw [Receiving.answer, hm]
            rfl
          obtain ⟨st', hst'⟩ : ∃ st', st.turn (.moved (b :: bs.take m)) = some st' := ⟨_, rfl⟩
          have hretry : st'.retry = 0 := by
            cases hst'
            rfl
          have hleft : st'.n = st.n - (bs.length + 1) := by
            cases hst'
            simp only [List.length_cons, List.length_take]
            omega
          rw [answersLoop_cons hn (hturn.trans hst'), ih (by omega), hretry, hleft, decidedFrom_moved hr]

/-- **`receive` ends** where the answers bring the octets, an error, or eleven times nothing. -/
theorem receiveAnswers_ne_none (buffer : List UInt8) (n : ℕ) (answers : List Answer) :
    receiveAnswers buffer n answers ≠ none ↔ Decided n answers := by
  unfold receiveAnswers
  split
  · rename_i hn
    exact iff_of_true (by simp) (.inl (hn ▸ Nat.zero_le _))
  · rw [answersLoop_ne_none (by exact Nat.zero_le 10)]
    exact decidedFrom_zero

end Ends

/-! ## Transient errors -/

/-- **Transient errors are passed over** exactly where none comes before the call has its octets, has met another error
or has got nothing eleven times in a row. -/
theorem passesTransient_iff (buffer : List UInt8) (n : ℕ) (answers : List Answer) :
    PassesTransient buffer n answers ↔
      ∀ before a after, answers = before ++ a :: after → a.transient = true → Decided n before := by
  constructor
  · intro h before a after hsplit ha
    by_contra hnot
    have hnone : receiveAnswers buffer n before = none := by
      by_contra hne
      exact hnot ((receiveAnswers_ne_none buffer n before).mp hne)
    have hgoes := h.goesOn before a after hsplit ha hnone
    cases a with
    | octets bs => cases ha
    | failed err =>
      have hdecided : Decided n (before ++ [.failed err]) := .inr (.inl ⟨err, by simp⟩)
      exact (receiveAnswers_ne_none buffer n _).mpr hdecided hgoes
  · intro h
    refine ⟨fun before a after hsplit ha hnone => ?_, ?_⟩
    · exact absurd hnone ((receiveAnswers_ne_none buffer n before).mpr (h before a after hsplit ha))
    · cases hfind : answers.find? Answer.transient with
      | none =>
        have hall : withoutTransient answers = answers := by
          refine List.filter_eq_self.mpr fun a ha => ?_
          simpa using List.find?_eq_none.mp hfind a ha
        rw [hall]
      | some a =>
        obtain ⟨ha, before, after, rfl, hbefore⟩ := List.find?_eq_some_iff_append.mp hfind
        have hself : withoutTransient before = before := List.filter_eq_self.mpr hbefore
        obtain ⟨r, hr⟩ := Option.ne_none_iff_exists'.mp
          ((receiveAnswers_ne_none buffer n before).mpr (h before a after rfl ha))
        rw [receiveAnswers_append hr, withoutTransient, List.filter_append, ← withoutTransient, hself,
          receiveAnswers_append hr]

/-- An interrupted call before the octet comes. -/
theorem passesTransient_interrupted :
    receiveAnswers [0] 1 [.failed EINTR, .octets [7]] = some (-1, [0]) ∧
    receiveAnswers [0] 1 (withoutTransient [.failed EINTR, .octets [7]]) = some (0, [7]) ∧
    ¬ PassesTransient [0] 1 [.failed EINTR, .octets [7]] := by
  have hwith : receiveAnswers [0] 1 [.failed EINTR, .octets [7]] = some (-1, [0]) := by decide
  have hwithout : receiveAnswers [0] 1 (withoutTransient [.failed EINTR, .octets [7]]) = some (0, [7]) := by decide
  refine ⟨hwith, hwithout, fun h => ?_⟩
  have hsame := h.same
  rw [hwith, hwithout] at hsame
  exact absurd hsame (by decide)

/-! ## Without errors -/

/-- A socket that has these octets for its calls, one after the other. -/
def Supply.ofList (bss : List (List UInt8)) : Supply where
  recv k m := ((bss[k]?).getD []).take m
  le _ m := List.length_take_le m _

/-- Where no call fails, the loop is that of a socket with the octets of the answers. -/
theorem receiveLoop_of_answers {bss : List (List UInt8)} {k fuel : ℕ} {st : Receiving} {r : ℤ × List UInt8}
    (h : answersLoop ((bss.drop k).map .octets) st = some r) (hfuel : bss.length - k < fuel) :
    receiveLoop (.ofList bss) fuel k st = some r := by
  induction fuel generalizing k st with
  | zero => omega
  | succ fuel ih =>
    rw [receiveLoop]
    by_cases hn : st.n = 0
    · rw [answersLoop_of_n hn] at h
      rw [if_neg (not_not.mpr hn), h]
    · rw [if_pos hn]
      by_cases hk : k < bss.length
      · have hrecv : (Supply.ofList bss).recv k st.n = bss[k].take st.n := by
          simp only [Supply.ofList, List.getElem?_eq_getElem hk, Option.getD_some]
        rw [List.drop_eq_getElem_cons hk, List.map_cons] at h
        rw [hrecv]
        cases hturn : st.turn (.ofOctets (bss[k].take st.n)) with
        | none =>
          rw [answersLoop_stop (a := .octets bss[k]) hn hturn] at h
          exact h
        | some st' =>
          rw [answersLoop_cons (a := .octets bss[k]) hn hturn] at h
          exact ih h (by omega)
      · rw [List.drop_eq_nil_of_le (by omega), List.map_nil, answersLoop, if_pos hn] at h
        cases h

/-- What the answers decide, `receive` returns. -/
theorem receive_of_answers {bss : List (List UInt8)} {buffer : List UInt8} {n fuel : ℕ} {r : ℤ × List UInt8}
    (h : receiveAnswers buffer n (bss.map .octets) = some r) (hfuel : bss.length < fuel) :
    receive (.ofList bss) buffer n fuel = some r := by
  unfold receiveAnswers at h
  unfold receive
  split at h
  · rename_i hn
    rw [if_pos hn, h]
  · rename_i hn
    rw [if_neg hn]
    exact receiveLoop_of_answers (k := 0) h (by omega)

end Mashroom.Network
