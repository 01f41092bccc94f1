import Mashroom.Lib.DoWhile
import Mashroom.Grib1.HGrib

/-!
# Grib1.Scan — loops over the messages of a file

The program scans a file with `do { … } while (grib.next_message())`.  `advance` is that condition on a reader
and whatever the body accumulates.  A file that is a chain of messages (`Chain`) makes such a loop fold its body
over their positions (`doWhile_chain`); a file on which the scan moves to readable messages with a length
only makes it end (`doWhile_advance_ends`).  `scan` is the loop that only records where it has been.
-/

namespace Mashroom

open Layout DoWhile

/-! ## The condition of the loop -/

/-- `next_message` as a loop condition. -/
def advance {β : Type} (s : HGrib1 × β) : Except Fault (Bool × (HGrib1 × β)) :=
  (fun r => (r.1, (r.2, s.2))) <$> s.1.nextMessage

section Advance

variable {β : Type}

theorem advance_of_nextMessage {h h' : HGrib1} {r : Bool} (b : β) (hn : h.nextMessage = .ok (r, h')) :
    advance (h, b) = .ok (r, (h', b)) := by
  show _ <$> h.nextMessage = _
  rw [hn]
  rfl

end Advance

/-! ## Files that are chains of messages -/

/-- Messages satisfying `P`, each starting where the one before ends, from `p` to the end of the file. -/
inductive Chain (P : ℕ → Prop) (f : File) : ℕ → List ℕ → Prop where
  | last {p : ℕ} : P p → p + len0 f p = f.length → Chain P f p [p]
  | cons {p q : ℕ} {ps : List ℕ} : P p → Chain P f (p + len0 f p) (q :: ps) → Chain P f p (p :: q :: ps)

section Chain

variable {P : ℕ → Prop} {f : File} {p : ℕ} {ps : List ℕ}

theorem Chain.head_eq {q : ℕ} (h : Chain P f p (q :: ps)) : q = p := by
  cases h <;> rfl

theorem Chain.ne_nil (h : Chain P f p ps) : ps ≠ [] := by
  cases h <;> simp

theorem Chain.forall_mem (h : Chain P f p ps) : ∀ q ∈ ps, P q := by
  induction h with
  | last hp _ => simpa using hp
  | cons hp _ ih => exact List.forall_mem_cons.mpr ⟨hp, ih⟩

/-- At the last message of a chain the file ends. -/
theorem Chain.getLast_end (h : Chain P f p ps) : ∃ q, ps.getLast? = some q ∧ P q ∧ q + len0 f q = f.length := by
  induction h with
  | last hp he => exact ⟨_, rfl, hp, he⟩
  | cons _ _ ih => simpa using ih

/-- The positions of a chain follow each other. -/
theorem Chain.isChain (h : Chain P f p ps) :
    List.IsChain (fun x y => P x ∧ P y ∧ y = x + len0 f x) ps := by
  induction h with
  | last _ _ => exact .singleton _
  | cons hp hrest ih =>
    refine List.isChain_cons_cons.mpr ⟨⟨hp, ?_, hrest.head_eq⟩, ih⟩
    exact hrest.forall_mem _ (by simp)

/-- **A loop over a chain folds its body over the positions of the messages**, and ends at the last one. -/
theorem doWhile_chain {β ρ : Type} (body : HGrib1 × β → Except Fault (Pass (HGrib1 × β) ρ))
    (g : β → ℕ → Except Fault β) (hP : ∀ q, P q → Readable f q)
    (hbody : ∀ q b, P q → body (HGrib1.reader f q, b) = (fun b' => .next (HGrib1.reader f q, b')) <$> g b q)
    (hc : Chain P f p ps) (b : β) {fuel : ℕ} (hfuel : ps.length ≤ fuel) :
    ∃ q, ps.getLast? = some q ∧
      doWhile body advance fuel (HGrib1.reader f p, b) =
        some ((fun b' => .next (HGrib1.reader f q, b')) <$> ps.foldlM g b) ∧
      (HGrib1.reader f q).nextMessage = .ok (false, HGrib1.reader f q) := by
  obtain ⟨q, hq, hPq, hend⟩ := hc.getLast_end
  have hstop := HGrib1.nextMessage_stop (hP q hPq) hend.ge
  have hnext : ∀ x y (b : β), P x ∧ P y ∧ y = x + len0 f x →
      advance (HGrib1.reader f x, b) = .ok (true, (HGrib1.reader f y, b)) := by
    rintro x y b ⟨hx, hy, rfl⟩
    have hlt := (hP _ hy).flags
    exact advance_of_nextMessage b (HGrib1.nextMessage_advance (hP x hx) (by omega) (hP _ hy))
  refine ⟨q, hq, ?_, hstop⟩
  cases ps with
  | nil => exact absurd rfl hc.ne_nil
  | cons x xs =>
    obtain rfl := hc.head_eq
    exact doWhile_foldlM (fun y b => (HGrib1.reader f y, b)) hnext
      (fun b => advance_of_nextMessage b hstop) xs x fuel b hfuel hc.isChain hq
      fun y hy b => hbody y b (hc.forall_mem y hy)

end Chain

/-! ## The positions a scan reaches -/

/-- The positions of the messages that the scan of a file reaches. -/
inductive Visited (f : File) : ℕ → Prop where
  | first : Readable f 0 → Visited f 0
  | next {p q : ℕ} : Visited f p → (HGrib1.reader f p).nextMessage = .ok (true, HGrib1.reader f q) → Visited f q

section Visited

variable {f : File} {p : ℕ}

theorem Visited.readable (h : Visited f p) : Readable f p := by
  induction h with
  | first h => exact h
  | next _ hn ih =>
    obtain ⟨-, hr, he⟩ := HGrib1.nextMessage_true ih hn
    cases he
    exact hr

theorem Visited.lt_length (h : Visited f p) : p < f.length := by
  have := h.readable.flags
  omega

end Visited

/-- The positions that the scan of a file moves to, from the octets alone. -/
inductive Scanned (f : File) : ℕ → Prop where
  | first : Scanned f 0
  | next {p q : ℕ} : Scanned f p → HGrib1.Call.next.target f p = some q → Scanned f q

section Scanned

variable {f : File} {p q : ℕ}

theorem target_next : HGrib1.Call.next.target f p = some q ↔ p + len0 f p < f.length ∧ p + len0 f p = q :=
  Option.ite_none_right_eq_some.trans (and_congr_right fun _ => Option.some_inj)

theorem Visited.scanned (h : Visited f p) : Scanned f p := by
  induction h with
  | first _ => exact .first
  | next hp hn ih =>
    obtain ⟨hlt, -, he⟩ := HGrib1.nextMessage_true hp.readable hn
    exact ih.next (target_next.mpr ⟨hlt, (congrArg HGrib1.current he).symm⟩)

/-- `next_message` has a result wherever the scan stands, and moves on inside the file where it is successful, exactly
when each position that the scan moves to is readable and no message there has length `0`. -/
theorem next_increases_iff (h0 : Readable f 0) :
    (∀ p, Visited f p → ∃ r h', (HGrib1.reader f p).nextMessage = .ok (r, h') ∧
        (r = true → p < h'.current ∧ h'.current ≤ f.length)) ↔
      ∀ p, Scanned f p → Readable f p ∧ len0 f p ≠ 0 := by
  constructor
  · intro hinc
    have hlen : ∀ p, Visited f p → len0 f p ≠ 0 := by
      intro p hp hzero
      obtain ⟨r, h', hn, hmoves⟩ := hinc p hp
      have hadv := HGrib1.nextMessage_advance hp.readable (by rw [hzero]; exact hp.lt_length)
        (by rw [hzero]; exact hp.readable)
      rw [hadv] at hn
      obtain ⟨rfl, rfl⟩ := Prod.mk.inj (Except.ok.inj hn)
      have hlt : p < p + len0 f p := (hmoves rfl).1
      omega
    have hvisited : ∀ p, Scanned f p → Visited f p := by
      intro p hp
      induction hp with
      | first => exact .first h0
      | @next p q _ hq ih =>
        obtain ⟨hlt, rfl⟩ := target_next.mp hq
        obtain ⟨r, h', hn, -⟩ := hinc p ih
        rw [HGrib1.nextMessage_reader ih.readable, if_pos hlt] at hn
        have hmake : ∃ m, Message.make f (p + len0 f p) = .ok m := by
          cases hm : Message.make f (p + len0 f p) with
          | ok m => exact ⟨m, rfl⟩
          | error e =>
            rw [hm] at hn
            cases hn
        obtain ⟨m, hm⟩ := hmake
        exact ih.next (HGrib1.nextMessage_advance ih.readable hlt (Message.make_eq_ok.mp hm).1)
    exact fun p hp => ⟨(hvisited p hp).readable, hlen p (hvisited p hp)⟩
  · intro hall p hp
    by_cases hlt : p + len0 f p < f.length
    · have hnext := hall _ (hp.scanned.next (target_next.mpr ⟨hlt, rfl⟩))
      refine ⟨true, _, HGrib1.nextMessage_advance hp.readable hlt hnext.1, fun _ => ?_⟩
      have hne := (hall p hp.scanned).2
      simp only [HGrib1.reader_current]
      omega
    · exact ⟨false, _, HGrib1.nextMessage_stop hp.readable (by omega), fun h => by cases h⟩

/-- **A loop over the messages of a file ends without a fault**, when each position that the scan moves to is readable
and no message there has length `0`, if its body has no fault and does not move the reader. -/
theorem doWhile_advance_ends {β ρ : Type} (body : HGrib1 × β → Except Fault (Pass (HGrib1 × β) ρ))
    (hall : ∀ p, Scanned f p → Readable f p ∧ len0 f p ≠ 0)
    (hbody : ∀ p b, Scanned f p → (∃ b', body (HGrib1.reader f p, b) = .ok (.next (HGrib1.reader f p, b'))) ∨
      ∃ r, body (HGrib1.reader f p, b) = .ok (.leave r))
    (b : β) {fuel : ℕ} (hfuel : f.length < fuel) :
    ∃ r, doWhile body advance fuel (HGrib1.reader f 0, b) = some (.ok r) := by
  refine doWhile_ends (fun s => ∃ p, s.1 = HGrib1.reader f p ∧ Scanned f p) (fun s => f.length - s.1.current) ?_ fuel _
    ⟨0, rfl, .first⟩ (by simpa using hfuel)
  rintro ⟨h, b⟩ ⟨p, rfl, hp⟩
  obtain ⟨hr, hne⟩ := hall p hp
  obtain ⟨b', hb⟩ | ⟨r, hb⟩ := hbody p b hp
  · by_cases hlt : p + len0 f p < f.length
    · have hnext : Scanned f (p + len0 f p) := hp.next (target_next.mpr ⟨hlt, rfl⟩)
      have hn := HGrib1.nextMessage_advance hr hlt (hall _ hnext).1
      refine .inr ⟨_, turn_again hb (advance_of_nextMessage b' hn), ⟨_, rfl, hnext⟩, ?_⟩
      simp only [HGrib1.reader_current]
      omega
    · exact .inl ⟨_, turn_exit hb (advance_of_nextMessage b' (HGrib1.nextMessage_stop hr (by omega)))⟩
  · exact .inl ⟨.leave r, by simp only [turn, hb]⟩

end Scanned

/-! ## Concatenations of messages -/

/-- A GRIB1 message: its size is the length in its octets 5 to 7, and the section headers the decoder reads are
inside it. -/
structure IsMessage (m : File) : Prop where
  size : m.length = len0 m 0
  readable : Readable m 0

section Middle

variable (pre : File) {m : File} (post : File)

theorem len0_middle (h : Readable m 0) : len0 (pre ++ m ++ post) pre.length = len0 m 0 := by
  have := h.flags
  exact Octets.be_middle (p := 4) (by omega)

theorem hasGds_middle (h : Readable m 0) : hasGds (pre ++ m ++ post) pre.length = hasGds m 0 := by
  have := h.flags
  rw [hasGds, Octets.octet_middle (by omega)]
  rfl

theorem hasBms_middle (h : Readable m 0) : hasBms (pre ++ m ++ post) pre.length = hasBms m 0 := by
  have := h.flags
  rw [hasBms, Octets.octet_middle (by omega)]
  rfl

theorem off2_middle (h : Readable m 0) : off2 (pre ++ m ++ post) pre.length = pre.length + off2 m 0 := by
  have := h.flags
  have h1 : len1 (pre ++ m ++ post) pre.length = len1 m 0 := Octets.be_middle (p := 8) (by omega)
  rw [off2, off2, h1]
  omega

theorem off3_middle (h : Readable m 0) : off3 (pre ++ m ++ post) pre.length = pre.length + off3 m 0 := by
  have h2 : len2 (pre ++ m ++ post) pre.length = len2 m 0 := by
    rw [len2, len2, hasGds_middle pre post h, off2_middle pre post h]
    split
    · rename_i hg
      exact Octets.be_middle (h.gds hg)
    · rfl
  rw [off3, off3, off2_middle pre post h, h2, Nat.add_assoc]

theorem off4_middle (h : Readable m 0) : off4 (pre ++ m ++ post) pre.length = pre.length + off4 m 0 := by
  have h3 : len3 (pre ++ m ++ post) pre.length = len3 m 0 := by
    rw [len3, len3, hasBms_middle pre post h, off3_middle pre post h]
    split
    · rename_i hb
      exact Octets.be_middle (h.bms hb)
    · rfl
  rw [off4, off4, off3_middle pre post h, h3, Nat.add_assoc]

/-- A message is laid out in the same way wherever it stands in a file. -/
theorem readable_middle (h : Readable m 0) : Readable (pre ++ m ++ post) pre.length := by
  obtain ⟨h1, h2, h3, h4⟩ := h
  have h : Readable m 0 := ⟨h1, h2, h3, h4⟩
  have hlen : (pre ++ m ++ post).length = pre.length + m.length + post.length := by
    rw [List.length_append, List.length_append]
  refine ⟨by omega, ?_, ?_, ?_⟩
  · intro hg
    have := h2 (hasGds_middle pre post h ▸ hg)
    rw [off2_middle pre post h]
    omega
  · intro hb
    have := h3 (hasBms_middle pre post h ▸ hb)
    rw [off3_middle pre post h]
    omega
  · rw [off4_middle pre post h]
    omega

end Middle

/-- The offsets of the messages of a concatenation, from `p` on. -/
def starts : ℕ → List File → List ℕ
  | _, [] => []
  | p, m :: ms => p :: starts (p + m.length) ms

@[simp] theorem starts_length : ∀ (p : ℕ) (ms : List File), (starts p ms).length = ms.length
  | _, [] => rfl
  | p, m :: ms => by rw [starts, List.length_cons, List.length_cons, starts_length]

/-- A concatenation of messages is a chain of them. -/
theorem chain_flatten : ∀ (pre : File) (ms : List File), ms ≠ [] → (∀ m ∈ ms, IsMessage m) →
    Chain (Readable (pre ++ ms.flatten)) (pre ++ ms.flatten) pre.length (starts pre.length ms)
  | pre, [m], _, hm => by
    obtain ⟨hsize, hr⟩ := hm m (by simp)
    have hlen := len0_middle pre [] hr
    have hread := readable_middle pre [] hr
    simp only [List.append_nil] at hlen hread
    simp only [List.flatten_cons, List.flatten_nil, List.append_nil]
    exact .last hread (by rw [hlen, ← hsize, List.length_append])
  | pre, m :: m' :: ms, _, hm => by
    obtain ⟨hsize, hr⟩ := hm m (by simp)
    have hlen := len0_middle pre (m' :: ms).flatten hr
    have hread := readable_middle pre (m' :: ms).flatten hr
    have ih := chain_flatten (pre ++ m) (m' :: ms) (by simp) (fun x hx => hm x (List.mem_cons_of_mem _ hx))
    rw [show pre ++ (m :: m' :: ms).flatten = pre ++ m ++ (m' :: ms).flatten by simp]
    refine .cons hread ?_
    rw [hlen, ← hsize, ← List.length_append]
    exact ih

/-! ## The recording scan -/

/-- A visit: where the message starts, and its octets. -/
abbrev Visit := ℕ × File

/-- The body that records the message it stands at. -/
def visit (s : HGrib1 × List Visit) : Except Fault (Pass (HGrib1 × List Visit) Empty) := do
  match ← s.1.currentMessageLength with
  | some len => return .next (s.1, s.2 ++ [(s.1.current, (s.1.file.drop s.1.current).take len)])
  | none => return .next s

/-- `do { visit } while (next_message())` for at most `fuel` turns. -/
def scan (fuel : ℕ) (h : HGrib1) : Option (Except Fault (Pass (HGrib1 × List Visit) Empty)) :=
  doWhile visit advance fuel (h, [])

section Scan

variable {f : File} {p : ℕ}

/-- The visit of the message at a position. -/
def visitAt (f : File) (p : ℕ) : Visit := (p, (f.drop p).take (len0 f p))

theorem visit_reader (h : Readable f p) (vs : List Visit) :
    visit (HGrib1.reader f p, vs) = .ok (.next (HGrib1.reader f p, vs ++ [visitAt f p])) := by
  simp only [visit, HGrib1.currentMessageLength_reader h, ok_bind]
  rfl

theorem foldlM_visitAt (ps : List ℕ) (vs : List Visit) :
    ps.foldlM (fun vs p => (.ok (vs ++ [visitAt f p]) : Except Fault (List Visit))) vs =
      .ok (vs ++ ps.map (visitAt f)) := by
  induction ps generalizing vs with
  | nil => simp
  | cons p ps ih => simp [ih]

/-- The visits of a concatenation are its messages at their offsets. -/
theorem map_visitAt_starts : ∀ (pre : File) (ms : List File), (∀ m ∈ ms, IsMessage m) →
    (starts pre.length ms).map (visitAt (pre ++ ms.flatten)) = (starts pre.length ms).zip ms
  | _, [], _ => rfl
  | pre, m :: ms, hm => by
    obtain ⟨hsize, hr⟩ := hm m (by simp)
    have ih := map_visitAt_starts (pre ++ m) ms (fun x hx => hm x (List.mem_cons_of_mem _ hx))
    have hlen := len0_middle pre ms.flatten hr
    rw [List.flatten_cons, ← List.append_assoc, starts, List.map_cons, List.zip_cons_cons, ← List.length_append,
      ih, visitAt, hlen, ← hsize, List.append_assoc, List.drop_left, List.take_left]

/-- **The scan of a concatenation of messages visits exactly these messages**, each once, at its own offset and
in file order, and then `next_message` returns false. -/
theorem scan_visits_messages {ms : List File} (hne : ms ≠ []) (hm : ∀ m ∈ ms, IsMessage m) {h : HGrib1}
    (ho : HGrib1.openGrib (some ms.flatten) = .ok (.noneErr, h)) {fuel : ℕ} (hfuel : ms.length ≤ fuel) :
    ∃ h', scan fuel h = some (.ok (.next (h', (starts 0 ms).zip ms))) ∧
      h'.nextMessage = .ok (false, h') := by
  obtain ⟨-, rfl⟩ := HGrib1.openGrib_some ho
  have hc := chain_flatten [] ms hne hm
  obtain ⟨q, -, hscan, hstop⟩ := doWhile_chain visit (fun vs p => .ok (vs ++ [visitAt ms.flatten p]))
    (fun q hq => hq) (fun q b hq => visit_reader hq b) hc [] ((starts_length _ _).trans_le hfuel)
  refine ⟨_, ?_, hstop⟩
  have hz := map_visitAt_starts [] ms hm
  rw [List.length_nil, List.nil_append] at hz
  rw [foldlM_visitAt, List.nil_append, List.length_nil, hz] at hscan
  exact hscan

/-- Two messages in a file. -/
theorem scan_visits_messages_twice :
    ∃ h', scan 2 (HGrib1.reader [HGrib1.plainMessage, HGrib1.plainMessage].flatten 0) =
        some (.ok (.next (h', [(0, HGrib1.plainMessage), (51, HGrib1.plainMessage)]))) ∧
      h'.nextMessage = .ok (false, h') :=
  @scan_visits_messages [HGrib1.plainMessage, HGrib1.plainMessage] (by simp)
    (by simpa using ⟨by decide, by decide⟩) _ (by set_option maxRecDepth 4000 in decide) 2 (by simp)

end Scan

end Mashroom
