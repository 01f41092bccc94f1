import Mashroom.Network.Stream

/-!
# Network.Receive — the loop of `receive`

Each call asks for the octets that are missing, and puts what it gets where they are missing.  A call that gets nothing
is made again after a while, until eleven in a row have got nothing.  Before call `k` the buffer ends with what the
first `k` calls got, followed by the octets that are missing, and `retry` counts the last calls that got nothing
(`At`).  So `receive` returns, and with 0 exactly where all octets come in time (`receive_eq`).
-/

namespace Mashroom.Network

/-- A socket as `recv` sees it: the octets that call `k` gets when it asks for up to `m`.  No call fails. -/
structure Supply where
  recv : ℕ → ℕ → List UInt8
  le : ∀ k m, (recv k m).length ≤ m

/-- What a call that does not fail gives. -/
def RecvResult.ofOctets : List UInt8 → RecvResult
  | [] => .nothing
  | b :: bs => .moved (b :: bs)

/-! ## The code -/

section Code

variable (socket : Supply)

/-- The loop, from call `k` on, for at most `fuel` turns: what is returned, and the buffer. -/
def receiveLoop : ℕ → ℕ → Receiving → Option (ℤ × List UInt8)
  | 0, _, _ => none
  | fuel + 1, k, st =>
    if st.n ≠ 0 then
      match st.turn (.ofOctets (socket.recv k st.n)) with
      | none => some (-1, st.buffer)
      | some st' => receiveLoop fuel (k + 1) st'
    else some (0, st.buffer)

/-- `receive` -/
def receive (buffer : List UInt8) (n : ℕ) (fuel : ℕ) : Option (ℤ × List UInt8) :=
  if n = 0 then some (0, buffer) else receiveLoop socket fuel 0 { buffer, n }

end Code

/-! ## What the calls get -/

namespace Supply

variable (socket : Supply) (n : ℕ)

/-- What the first `k` calls get, each of which asks for what is missing of `n` octets. -/
def obtained : ℕ → List UInt8
  | 0 => []
  | k + 1 => obtained k ++ socket.recv k (n - (obtained k).length)

/-- What call `k` gets. -/
def result (k : ℕ) : List UInt8 := socket.recv k (n - (socket.obtained n k).length)

/-- The `n` octets are there after `k` calls, and no eleven of these in a row got nothing. -/
def CompleteAt (k : ℕ) : Prop :=
  (socket.obtained n k).length = n ∧ ∀ i, i + 11 ≤ k → ∃ j, i ≤ j ∧ j < i + 11 ∧ socket.result n j ≠ []

/-- How many calls right before call `k` got nothing. -/
def idle : ℕ → ℕ
  | 0 => 0
  | k + 1 => if socket.result n k = [] then idle k + 1 else 0

variable {socket n}

theorem obtained_succ (k : ℕ) : socket.obtained n (k + 1) = socket.obtained n k ++ socket.result n k := rfl

theorem length_obtained_le : ∀ k, (socket.obtained n k).length ≤ n
  | 0 => Nat.zero_le n
  | k + 1 => by
    have hle := length_obtained_le k
    have hresult := socket.le k (n - (socket.obtained n k).length)
    rw [obtained, List.length_append]
    omega

/-- What was got stays. -/
theorem obtained_initial {i k : ℕ} (h : i ≤ k) : socket.obtained n i <+: socket.obtained n k := by
  induction k, h using Nat.le_induction with
  | base => exact List.prefix_rfl
  | succ k _ ih => exact ih.trans (List.prefix_append _ _)

/-- All octets are the same ones, whenever they are there. -/
theorem obtained_eq {i k : ℕ} (hi : (socket.obtained n i).length = n) (hk : (socket.obtained n k).length = n) :
    socket.obtained n i = socket.obtained n k := by
  rcases Nat.le_total i k with h | h
  · exact (obtained_initial h).eq_of_length (hi.trans hk.symm)
  · exact ((obtained_initial h).eq_of_length (hk.trans hi.symm)).symm

theorem idle_succ_of_nil {k : ℕ} (h : socket.result n k = []) : socket.idle n (k + 1) = socket.idle n k + 1 := if_pos h

theorem idle_succ_of_ne {k : ℕ} (h : socket.result n k ≠ []) : socket.idle n (k + 1) = 0 := if_neg h

/-- The last calls got nothing. -/
theorem result_of_idle {j : ℕ} : ∀ {k : ℕ}, k - socket.idle n k ≤ j → j < k → socket.result n j = []
  | k + 1, hle, hlt => by
    by_cases h : socket.result n k = []
    · rw [idle_succ_of_nil h] at hle
      rcases Nat.lt_succ_iff_lt_or_eq.mp hlt with hlt | rfl
      · exact result_of_idle (by omega) hlt
      · exact h
    · rw [idle_succ_of_ne h] at hle
      omega

theorem idle_le : ∀ k, socket.idle n k ≤ k
  | 0 => Nat.le_refl 0
  | k + 1 => by
    have hle := idle_le k
    unfold idle
    split <;> omega

/-- Calls that get nothing add up. -/
theorem idle_add {i : ℕ} : ∀ m, (∀ j, i ≤ j → j < i + m → socket.result n j = []) →
    socket.idle n (i + m) = socket.idle n i + m
  | 0, _ => rfl
  | m + 1, h => by
    have hlast := h (i + m) (by omega) (by omega)
    have ih := idle_add m fun j hj hlt => h j hj (by omega)
    rw [← Nat.add_assoc, idle_succ_of_nil hlast, ih, Nat.add_assoc]

/-- No eleven calls in a row get nothing where no call comes after more than ten of them. -/
theorem idle_le_iff {k : ℕ} : (∀ i ≤ k, socket.idle n i ≤ 10) ↔
    ∀ i, i + 11 ≤ k → ∃ j, i ≤ j ∧ j < i + 11 ∧ socket.result n j ≠ [] := by
  constructor
  · intro h i hi
    by_contra hnone
    push Not at hnone
    have hadd := idle_add 11 hnone
    have hle := h (i + 11) hi
    omega
  · intro h i hi
    by_contra hidle
    have hle : socket.idle n i ≤ i := idle_le i
    obtain ⟨j, hj, hlt, hne⟩ := h (i - 11) (by omega)
    exact hne (result_of_idle (k := i) (by omega) (by omega))

theorem length_result_le (k : ℕ) : (socket.result n k).length ≤ n - (socket.obtained n k).length := socket.le k _

end Supply

/-! ## The loop -/

section Loop

variable (socket : Supply) (buffer : List UInt8) (n : ℕ)

/-- Before call `k`, where no eleven calls got nothing. -/
structure At (k : ℕ) (st : Receiving) : Prop where
  length : st.buffer.length = buffer.length
  left : st.n = n - (socket.obtained n k).length
  filled : st.filled = buffer.take (buffer.length - n) ++ socket.obtained n k
  retry : st.retry = socket.idle n k
  idle : ∀ i ≤ k, socket.idle n i ≤ 10

/-- What `receive` is to return, and to leave in the buffer. -/
inductive Ends : ℤ × List UInt8 → Prop
  | complete (k : ℕ) (h : socket.CompleteAt n k) :
      Ends (0, buffer.take (buffer.length - n) ++ socket.obtained n k)
  | failed (buffer' : List UInt8) (h : ∀ k, ¬ socket.CompleteAt n k) : Ends (-1, buffer')

variable {socket buffer n} {k : ℕ} {st st' : Receiving}

theorem at_zero : At socket buffer n 0 { buffer, n } where
  length := rfl
  left := rfl
  filled := (List.append_nil _).symm
  retry := rfl
  idle i hi := by
    obtain rfl := Nat.le_zero.mp hi
    exact Nat.zero_le 10

/-- The octets of call `k`, as the loop asks for them. -/
theorem At.recv_eq (h : At socket buffer n k st) : socket.recv k st.n = socket.result n k := by
  rw [h.left]
  rfl

/-- The next call has no eleven before it either, where it comes after ten at most. -/
theorem At.idle_succ (h : At socket buffer n k st) (hle : socket.idle n (k + 1) ≤ 10) :
    ∀ i ≤ k + 1, socket.idle n i ≤ 10 := by
  intro i hi
  rcases Nat.le_succ_iff.mp hi with hi | rfl
  · exact h.idle i hi
  · exact hle

/-- A call that gets octets. -/
theorem At.turn_moved (hn : n ≤ buffer.length) (h : At socket buffer n k st) (hne : socket.result n k ≠ [])
    (ht : st.turn (.moved (socket.result n k)) = some st') : At socket buffer n (k + 1) st' := by
  have hfits : st.n ≤ st.buffer.length := by
    rw [h.left, h.length]
    omega
  have hresult : (socket.result n k).length ≤ st.n := h.left ▸ socket.length_result_le k
  obtain ⟨hfilled, hlength, hleft⟩ := Receiving.filled_turn hfits hresult ht
  have hzero : socket.idle n (k + 1) = 0 := Supply.idle_succ_of_ne hne
  refine ⟨hlength.trans h.length, ?_, ?_, ?_, h.idle_succ (hzero.trans_le (Nat.zero_le 10))⟩
  · rw [hleft, h.left, Supply.obtained_succ, List.length_append]
    omega
  · rw [hfilled, h.filled, Supply.obtained_succ, List.append_assoc]
  · rw [hzero]
    cases ht
    rfl

/-- A call that gets nothing. -/
theorem At.turn_nothing (h : At socket buffer n k st) (hnil : socket.result n k = [])
    (ht : st.turn .nothing = some st') : At socket buffer n (k + 1) st' := by
  have hsucc : socket.idle n (k + 1) = socket.idle n k + 1 := Supply.idle_succ_of_nil hnil
  have hsame : socket.obtained n (k + 1) = socket.obtained n k := by
    rw [Supply.obtained_succ, hnil, List.append_nil]
  have hlt : st.retry < 10 := by
    by_contra hge
    rw [Receiving.turn, if_neg hge] at ht
    cases ht
  rw [Receiving.turn, if_pos hlt] at ht
  cases ht
  refine ⟨h.length, ?_, ?_, ?_, h.idle_succ ?_⟩
  · rw [hsame, h.left]
  · rw [hsame, ← h.filled]
    rfl
  · rw [hsucc, h.retry]
  · rw [hsucc, ← h.retry]
    exact hlt

/-- The loop ends where no octet is missing. -/
theorem At.ends_complete (h : At socket buffer n k st) (hleft : st.n = 0) :
    Ends socket buffer n (0, st.buffer) := by
  have hle : (socket.obtained n k).length ≤ n := Supply.length_obtained_le k
  have hlength := h.left
  rw [← Receiving.filled_of_n hleft, h.filled]
  exact .complete k ⟨by omega, Supply.idle_le_iff.mp h.idle⟩

/-- The loop ends with the eleventh call that gets nothing: the octets missing then do not come in time. -/
theorem At.ends_failed (h : At socket buffer n k st) (hleft : st.n ≠ 0) (hnil : socket.result n k = [])
    (hretry : ¬ st.retry < 10) : Ends socket buffer n (-1, st.buffer) := by
  refine .failed _ fun i hi => ?_
  have hidle : ∀ j ≤ i, socket.idle n j ≤ 10 := Supply.idle_le_iff.mpr hi.2
  have hsucc : socket.idle n (k + 1) = socket.idle n k + 1 := Supply.idle_succ_of_nil hnil
  rcases Nat.lt_or_ge k i with hlt | hge
  · have hle := hidle (k + 1) hlt
    have heq := h.retry
    omega
  · have hpre : (socket.obtained n i).length ≤ (socket.obtained n k).length := (Supply.obtained_initial hge).length_le
    have heq := h.left
    rw [hi.1] at hpre
    omega

/-- The turns that are left: ten without an octet before each octet, and those before the next one. -/
def turnsLeft (st : Receiving) : ℕ := 11 * st.n + (10 - st.retry)

theorem At.receiveLoop (hn : n ≤ buffer.length) (h : At socket buffer n k st) :
    ∃ r, (∀ fuel, turnsLeft st < fuel → Network.receiveLoop socket fuel k st = some r) ∧ Ends socket buffer n r := by
  induction hm : turnsLeft st using Nat.strong_induction_on generalizing k st with
  | _ m ih =>
    subst hm
    by_cases hleft : st.n = 0
    · refine ⟨_, ?_, h.ends_complete hleft⟩
      rintro (_ | fuel) hfuel
      · cases hfuel
      · rw [Network.receiveLoop, if_neg (not_not.mpr hleft)]
    · cases hresult : socket.result n k with
      | nil =>
        by_cases hretry : st.retry < 10
        · have ht : st.turn .nothing = some { st with retry := st.retry + 1 } := if_pos hretry
          have hless : turnsLeft { st with retry := st.retry + 1 } < turnsLeft st := by
            unfold turnsLeft
            simp only
            omega
          obtain ⟨r, hr, hends⟩ := ih _ hless (h.turn_nothing hresult ht) rfl
          refine ⟨r, ?_, hends⟩
          rintro (_ | fuel) hfuel
          · cases hfuel
          · rw [Network.receiveLoop, if_pos hleft, h.recv_eq, hresult]
            simp only [RecvResult.ofOctets, ht]
            exact hr fuel (by omega)
        · refine ⟨_, ?_, h.ends_failed hleft hresult hretry⟩
          rintro (_ | fuel) hfuel
          · cases hfuel
          · have ht : st.turn .nothing = none := if_neg hretry
            rw [Network.receiveLoop, if_pos hleft, h.recv_eq, hresult]
            simp only [RecvResult.ofOctets, ht]
      | cons b bs =>
        obtain ⟨st', ht⟩ : ∃ st', st.turn (.moved (socket.result n k)) = some st' := ⟨_, rfl⟩
        have hnext := h.turn_moved hn (hresult ▸ List.cons_ne_nil b bs) ht
        have hless : turnsLeft st' < turnsLeft st := by
          cases ht
          unfold turnsLeft
          simp only [hresult, List.length_cons]
          omega
        obtain ⟨r, hr, hends⟩ := ih _ hless hnext rfl
        refine ⟨r, ?_, hends⟩
        rintro (_ | fuel) hfuel
        · cases hfuel
        · rw [hresult] at ht
          rw [Network.receiveLoop, if_pos hleft, h.recv_eq, hresult]
          simp only [RecvResult.ofOctets, ht]
          exact hr fuel (by omega)

end Loop

/-- **`receive` returns**, and with 0 exactly where the `n` octets come with no eleven calls in a row that get nothing
before them.  Then they are the last `n` octets of the buffer, in the order in which they came. -/
theorem receive_eq (socket : Supply) (buffer : List UInt8) (n : ℕ) (hn : n ≤ buffer.length) :
    ∃ code buffer', (∀ fuel, 11 * n + 10 < fuel → receive socket buffer n fuel = some (code, buffer')) ∧
      (code = 0 ∨ code = -1) ∧ (code = 0 ↔ ∃ k, socket.CompleteAt n k) ∧
      (code = 0 → ∀ k, (socket.obtained n k).length = n →
        buffer' = buffer.take (buffer.length - n) ++ socket.obtained n k) := by
  have hstart : At socket buffer n 0 { buffer, n } := at_zero
  obtain ⟨⟨code, buffer'⟩, hr, hends⟩ := hstart.receiveLoop hn
  refine ⟨code, buffer', ?_, ?_⟩
  · intro fuel hfuel
    have hloop := hr fuel hfuel
    unfold receive
    split
    · rename_i hzero
      subst hzero
      obtain ⟨fuel, rfl⟩ : ∃ m, fuel = m + 1 := ⟨fuel - 1, by omega⟩
      exact hloop
    · exact hloop
  · cases hends with
    | complete k h =>
      refine ⟨.inl rfl, ⟨fun _ => ⟨k, h⟩, fun _ => rfl⟩, fun _ i hi => ?_⟩
      rw [Supply.obtained_eq h.1 hi]
    | failed _ h =>
      have hne : (-1 : ℤ) ≠ 0 := by decide
      exact ⟨.inr rfl, ⟨fun hcode => absurd hcode hne, fun ⟨k, hk⟩ => absurd hk (h k)⟩, fun hcode => absurd hcode hne⟩

/-- A socket that gets nothing with every other call, and an octet with the others. -/
def everyOther : Supply where
  recv k m := if k % 2 = 0 then [] else [UInt8.ofNat k].take m
  le k m := by
    split
    · exact Nat.zero_le m
    · exact List.length_take_le m _

theorem receive_everyOther : ∃ code buffer', (∀ fuel, 11 * 2 + 10 < fuel →
      receive everyOther [9, 9, 9] 2 fuel = some (code, buffer')) ∧
    (code = 0 ∨ code = -1) ∧ (code = 0 ↔ ∃ k, everyOther.CompleteAt 2 k) ∧
    (code = 0 → ∀ k, (everyOther.obtained 2 k).length = 2 → buffer' = [9] ++ everyOther.obtained 2 k) :=
  receive_eq everyOther [9, 9, 9] 2 (by decide)

example : receive everyOther [9, 9, 9] 2 33 = some (0, [9, 1, 3]) := by decide

end Mashroom.Network
