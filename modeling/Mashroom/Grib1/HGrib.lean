import Mashroom.Grib1.Message

/-!
# Grib1.HGrib — the reader of a GRIB1 file

`HGrib1` holds the mapped file, the current position and the message built there.  `nextMessage` moves on by the
length of the current message, `setMessage` jumps to a position, `openGrib` starts at the first octet.  Every
move builds a message at its target and none of them checks that it fits: `opened_safe_iff` says for which files
and calls nothing outside the file is read.
-/

namespace Mashroom

open Layout

structure HGrib1 where
  /-- the mapping, of `sz_` octets -/
  file : File := []
  /-- `current_ptr_ - __f_ptr` -/
  current : ℕ := 0
  msg : Option Message := none
  deriving DecidableEq

/-- The `n` octets from a computed offset, as `memcmp` reads them. -/
def octetsAt (f : File) (z : ℤ) : ℕ → Except Fault (List ℕ)
  | 0 => .ok []
  | n + 1 => do
    let o ← octetAt f z
    let os ← octetsAt f (z + 1) n
    return o :: os

namespace HGrib1

/-- The octets of `"7777"`. -/
def endMark : List ℕ := [55, 55, 55, 55]

/-- `current_message_position` -/
def currentMessagePosition (h : HGrib1) : ℤ := h.current

/-- `current_message_length` -/
def currentMessageLength (h : HGrib1) : Except Fault (Option ℕ) :=
  match h.msg with
  | some m => some <$> m.messageLength h.file
  | none => .ok none

/-- `file_size` -/
def fileSize (h : HGrib1) : Option ℕ := h.msg.map fun _ => h.file.length

/-- `next_message` -/
def nextMessage (h : HGrib1) : Except Fault (Bool × HGrib1) :=
  match h.msg with
  | none => .ok (false, h)
  | some m => do
    let len ← m.messageLength h.file
    if h.current + len < h.file.length then
      let m' ← Message.make h.file (h.current + len)
      return (true, { h with current := h.current + len, msg := some m' })
    else return (false, h)

/-- `set_message`: the position is compared with the size as an unsigned number of 64 bits. -/
def setMessage (h : HGrib1) (pos : ℤ) : Except Fault (Bool × HGrib1) :=
  if h.file.length ≤ toUnsigned 64 pos then .ok (false, h)
  else do
    let m ← Message.make h.file (toUnsigned 64 pos)
    return (true, { h with current := toUnsigned 64 pos, msg := some m })

/-- `open_grib` on a file that cannot be opened, or on one with these octets.  The four octets from the fifth
last of the first message must *not* be the end mark. -/
def openGrib : Option File → Except Fault (Code × HGrib1)
  | none => .ok (.openErrorX1, {})
  | some f => do
    let m ← Message.make f 0
    let h : HGrib1 := { file := f, current := 0, msg := some m }
    match ← h.currentMessageLength with
    | none => return (.dataEmptyX1, h)
    | some len =>
      let tail ← octetsAt f (len - 5) 4
      return (if tail = endMark then .missEndSectionX1 else .noneErr, h)

/-- The octets of `"GRIB"`. -/
def gribMark : List ℕ := [71, 82, 73, 66]

/-- `is_correct_format`: the comparison is not zero for octets that differ. -/
def isCorrectFormat (h : HGrib1) : Except Fault Bool :=
  match h.msg with
  | none => .ok false
  | some m =>
    if Message.sec0MinSz ≤ h.file.length then do
      let os ← octetsAt h.file m.section0.buf 4
      return os != gribMark
    else .ok false

/-- The reader standing at position `p` of the file `f`, with the message the layout places there. -/
def reader (f : File) (p : ℕ) : HGrib1 := { file := f, current := p, msg := some (message f p) }

@[simp] theorem reader_file (f : File) (p : ℕ) : (reader f p).file = f := rfl

@[simp] theorem reader_current (f : File) (p : ℕ) : (reader f p).current = p := rfl

@[simp] theorem reader_msg (f : File) (p : ℕ) : (reader f p).msg = some (message f p) := rfl

section Reader

variable {f : File} {p : ℕ}

theorem messageLength_message (h : Readable f p) : (message f p).messageLength f = .ok (len0 f p) :=
  readBytes_ok (by have := h.flags; simp only [message]; omega)

theorem currentMessageLength_reader (h : Readable f p) :
    (reader f p).currentMessageLength = .ok (some (len0 f p)) := by
  show some <$> (message f p).messageLength f = _
  rw [messageLength_message h]
  rfl

theorem fileSize_reader (h : Readable f p) : (reader f p).fileSize ≠ some 0 := by
  have := h.flags
  simp only [fileSize, reader_msg, reader_file, Option.map_some, ne_eq, Option.some.injEq]
  omega

/-- `next_message` builds a message at the end of the current one, if that is before the end of the file. -/
theorem nextMessage_reader (h : Readable f p) :
    (reader f p).nextMessage = if p + len0 f p < f.length then
        (fun m => (true, { file := f, current := p + len0 f p, msg := some m })) <$> Message.make f (p + len0 f p)
      else .ok (false, reader f p) := by
  show ((message f p).messageLength f >>= fun len => if p + len < f.length then _ else _) = _
  rw [messageLength_message h, ok_bind]
  split
  · simp only [reader_file, reader_current]
    cases Message.make f (p + len0 f p) <;> rfl
  · rfl

theorem nextMessage_advance (h : Readable f p) (hlt : p + len0 f p < f.length)
    (hn : Readable f (p + len0 f p)) : (reader f p).nextMessage = .ok (true, reader f (p + len0 f p)) := by
  rw [nextMessage_reader h, if_pos hlt, Message.make_eq hn]
  rfl

theorem nextMessage_stop (h : Readable f p) (hge : f.length ≤ p + len0 f p) :
    (reader f p).nextMessage = .ok (false, reader f p) := by
  rw [nextMessage_reader h, if_neg (by omega)]

/-- What a successful `next_message` did. -/
theorem nextMessage_true {h' : HGrib1} (h : Readable f p) (hn : (reader f p).nextMessage = .ok (true, h')) :
    p + len0 f p < f.length ∧ Readable f (p + len0 f p) ∧ h' = reader f (p + len0 f p) := by
  rw [nextMessage_reader h] at hn
  split at hn
  · rename_i hlt
    cases hm : Message.make f (p + len0 f p) with
    | error e => rw [hm] at hn; cases hn
    | ok m =>
      rw [hm] at hn
      obtain ⟨hr, rfl⟩ := Message.make_eq_ok.mp hm
      cases hn
      exact ⟨hlt, hr, rfl⟩
  · cases hn

theorem setMessage_reader (pos : ℤ) :
    (reader f p).setMessage pos = if toUnsigned 64 pos < f.length then
        (fun m => (true, { file := f, current := toUnsigned 64 pos, msg := some m })) <$>
          Message.make f (toUnsigned 64 pos)
      else .ok (false, reader f p) := by
  show (if f.length ≤ toUnsigned 64 pos then _ else _) = _
  by_cases hlt : toUnsigned 64 pos < f.length
  · rw [if_neg (by omega), if_pos hlt]
    simp only [reader_file]
    cases Message.make f (toUnsigned 64 pos) <;> rfl
  · rw [if_pos (by omega), if_neg hlt]

/-- An opened file was found readable at its first octet. -/
theorem openGrib_some {e : Code} {h : HGrib1} (ho : openGrib (some f) = .ok (e, h)) :
    Readable f 0 ∧ h = reader f 0 := by
  obtain ⟨m, hm, ho⟩ := bind_eq_ok.mp ho
  obtain ⟨hr, rfl⟩ := Message.make_eq_ok.mp hm
  refine ⟨hr, ?_⟩
  change ((reader f 0).currentMessageLength >>= _) = _ at ho
  rw [currentMessageLength_reader hr, ok_bind] at ho
  obtain ⟨tail, -, ho⟩ := bind_eq_ok.mp ho
  cases ho
  rfl

end Reader

/-! ## Runs of calls -/

/-- A call that moves the reader. -/
inductive Call where
  | next
  | set (pos : ℤ)

/-- The state after a call. -/
def Call.step (h : HGrib1) : Call → Except Fault HGrib1
  | .next => Prod.snd <$> h.nextMessage
  | .set pos => Prod.snd <$> h.setMessage pos

/-- Where a call at position `p` moves to, from the octets alone; `none` when it stays. -/
def Call.target (f : File) (p : ℕ) : Call → Option ℕ
  | .next => if p + len0 f p < f.length then some (p + len0 f p) else none
  | .set pos => if toUnsigned 64 pos < f.length then some (toUnsigned 64 pos) else none

/-- The positions a sequence of calls moves to, from the octets alone. -/
def targets (f : File) : ℕ → List Call → List ℕ
  | _, [] => []
  | p, c :: cs =>
    match c.target f p with
    | some t => t :: targets f t cs
    | none => targets f p cs

/-- The message of the reader lies in the file, its header and all its octets. -/
def Within (h : HGrib1) : Prop :=
  ∃ m len, h.msg = some m ∧ m.messageLength h.file = .ok len ∧ h.current + Message.sec0MinSz ≤ h.file.length ∧
    h.current + len ≤ h.file.length

/-- The calls make no read outside the file, and every message they build lies in it. -/
def SafeRun : HGrib1 → List Call → Prop
  | _, [] => True
  | h, c :: cs => ∃ h', c.step h = .ok h' ∧ Within h' ∧ SafeRun h' cs

section Runs

variable {f : File} {p : ℕ}

theorem step_stay (h : Readable f p) {c : Call} (hc : c.target f p = none) :
    c.step (reader f p) = .ok (reader f p) := by
  cases c with
  | next =>
    rw [Call.step, nextMessage_reader h, if_neg (by simpa [Call.target] using hc)]
    rfl
  | set pos =>
    rw [Call.step, setMessage_reader, if_neg (by simpa [Call.target] using hc)]
    rfl

theorem step_move (h : Readable f p) {c : Call} {t : ℕ} (hc : c.target f p = some t) :
    c.step (reader f p) = (fun m => { file := f, current := t, msg := some m }) <$> Message.make f t := by
  cases c with
  | next =>
    obtain ⟨hlt, ht⟩ := Option.ite_none_right_eq_some.mp hc
    cases ht
    rw [Call.step, nextMessage_reader h, if_pos hlt]
    cases Message.make f (p + len0 f p) <;> rfl
  | set pos =>
    obtain ⟨hlt, ht⟩ := Option.ite_none_right_eq_some.mp hc
    cases ht
    rw [Call.step, setMessage_reader, if_pos hlt]
    cases Message.make f (toUnsigned 64 pos) <;> rfl

theorem within_reader (h : Readable f p) : Within (reader f p) ↔ Fits f p := by
  constructor
  · rintro ⟨m, len, hm, hlen, -, he⟩
    cases hm
    rw [reader_file, messageLength_message h] at hlen
    cases hlen
    exact ⟨h, he⟩
  · intro hf
    refine ⟨_, _, rfl, messageLength_message h, ?_, hf.extent⟩
    have := h.flags
    simp only [reader_file, reader_current, Message.sec0MinSz]
    omega

/-- A moving call is safe exactly when its target fits. -/
theorem step_move_within (h : Readable f p) {c : Call} {t : ℕ} (hc : c.target f p = some t) {h' : HGrib1} :
    c.step (reader f p) = .ok h' ∧ Within h' ↔ Fits f t ∧ h' = reader f t := by
  rw [step_move h hc]
  constructor
  · rintro ⟨hs, hw⟩
    cases hm : Message.make f t with
    | error e => rw [hm] at hs; cases hs
    | ok m =>
      rw [hm] at hs
      cases hs
      obtain ⟨hr, rfl⟩ := Message.make_eq_ok.mp hm
      exact ⟨(within_reader hr).mp hw, rfl⟩
  · rintro ⟨hf, rfl⟩
    rw [Message.make_eq hf.readable]
    exact ⟨rfl, (within_reader hf.readable).mpr hf⟩

/-- **A run is safe exactly when every message it moves to fits in the file.** -/
theorem safeRun_reader : ∀ (cs : List Call) {p : ℕ}, Fits f p →
    (SafeRun (reader f p) cs ↔ ∀ t ∈ targets f p cs, Fits f t)
  | [], _, _ => by simp [SafeRun, targets]
  | c :: cs, p, hp => by
    cases hc : c.target f p with
    | none =>
      simp only [SafeRun, targets, hc, step_stay hp.readable hc]
      rw [← safeRun_reader cs hp]
      constructor
      · rintro ⟨h', hs, -, hr⟩
        cases hs
        exact hr
      · exact fun hr => ⟨_, rfl, (within_reader hp.readable).mpr hp, hr⟩
    | some t =>
      simp only [SafeRun, targets, hc, List.forall_mem_cons]
      constructor
      · rintro ⟨h', hs, hw, hr⟩
        obtain ⟨ht, rfl⟩ := (step_move_within hp.readable hc).mp ⟨hs, hw⟩
        exact ⟨ht, (safeRun_reader cs ht).mp hr⟩
      · rintro ⟨ht, hall⟩
        obtain ⟨hs, hw⟩ := (step_move_within hp.readable hc).mpr ⟨ht, rfl⟩
        exact ⟨_, hs, hw, (safeRun_reader cs ht).mpr hall⟩

/-- **No octet outside the file is read, and every message built lies in the file**, exactly for the files and
calls whose messages all fit: the first one and those at the positions moved to. -/
theorem opened_safe_iff {h : HGrib1} (ho : openGrib (some f) = .ok (.noneErr, h)) (cs : List Call) :
    Within h ∧ SafeRun h cs ↔ ∀ t ∈ 0 :: targets f 0 cs, Fits f t := by
  obtain ⟨hr, rfl⟩ := openGrib_some ho
  rw [within_reader hr, List.forall_mem_cons]
  exact and_congr_right fun h0 => safeRun_reader cs h0

end Runs

/-! ## A file cut after a message -/

/-- A message with sections 1 and 4 only, all zero. -/
def plainMessage : File :=
  assemble [lengthPrefixed (List.replicate 25 0), lengthPrefixed (List.replicate 8 0)]

/-- The message twice: a run over it is safe. -/
theorem opened_safe_iff_twice :
    Within (reader (plainMessage ++ plainMessage) 0) ∧
        SafeRun (reader (plainMessage ++ plainMessage) 0) [.next, .set 0, .set (-1), .next, .next] ↔
      ∀ t ∈ 0 :: targets (plainMessage ++ plainMessage) 0 [.next, .set 0, .set (-1), .next, .next],
        Fits (plainMessage ++ plainMessage) t :=
  opened_safe_iff (f := plainMessage ++ plainMessage) (by set_option maxRecDepth 4000 in decide) _

/-- The message and one octet more: `next_message` reads section 1 past the end of the file. -/
theorem cut_message_read_outside :
    openGrib (some (plainMessage ++ [71])) = .ok (.noneErr, reader (plainMessage ++ [71]) 0) ∧
      ¬ (Within (reader (plainMessage ++ [71]) 0) ∧ SafeRun (reader (plainMessage ++ [71]) 0) [.next]) := by
  refine ⟨by set_option maxRecDepth 4000 in decide, ?_⟩
  intro h
  have hfits : Fits (plainMessage ++ [71]) 0 := by decide
  exact absurd ((safeRun_reader [.next] hfits).mp h.2) (by decide)

/-! ## The marks of a message -/

/-- The `n` octets from `p`. -/
def octetsOf (f : File) (p n : ℕ) : List ℕ := (List.range n).map fun i => Octets.octet f (p + i)

/-- The first message starts with `GRIB` and its last four octets are `7777`. -/
def Marked (f : File) : Prop := octetsOf f 0 4 = gribMark ∧ octetsOf f (len0 f 0 - 4) 4 = endMark

instance (f : File) : Decidable (Marked f) := inferInstanceAs (Decidable (_ ∧ _))

/-- `open_grib` has a result, and it is `NONE_ERR` for the marked messages and for no others. -/
def Judged (f : File) : Prop := ∃ e h, openGrib (some f) = .ok (e, h) ∧ (e = .noneErr ↔ Marked f)

section Marks

variable {f : File}

theorem octetsAt_ok {p n : ℕ} (h : p + n ≤ f.length) : octetsAt f p n = .ok (octetsOf f p n) := by
  induction n generalizing p with
  | zero => rfl
  | succ n ih =>
    have hn : octetsAt f ((p + 1 : ℕ) : ℤ) n = .ok (octetsOf f (p + 1) n) := ih (by omega)
    rw [Nat.cast_add, Nat.cast_one] at hn
    rw [octetsAt, octetAt_natCast, octet_ok (by omega), ok_bind, hn, ok_bind, octetsOf, octetsOf,
      List.range_succ_eq_map, List.map_cons, List.map_map]
    simp only [Function.comp_def, Nat.succ_eq_add_one, Nat.add_zero, show ∀ i, p + 1 + i = p + (i + 1) by omega]
    rfl

/-- What is looked at to accept a file are the four octets before its last. -/
theorem openGrib_readable (h : Readable f 0) (h5 : 5 ≤ len0 f 0) (hfit : len0 f 0 ≤ f.length) :
    openGrib (some f) =
      .ok (if octetsOf f (len0 f 0 - 5) 4 = endMark then .missEndSectionX1 else .noneErr, reader f 0) := by
  have hz : ((len0 f 0 : ℤ) - 5) = ((len0 f 0 - 5 : ℕ) : ℤ) := by omega
  have ht : octetsAt f (len0 f 0 - 5 : ℤ) 4 = .ok (octetsOf f (len0 f 0 - 5) 4) := by
    rw [hz]
    exact octetsAt_ok (by omega)
  show (Message.make f 0 >>= _) = _
  rw [Message.make_eq h, ok_bind]
  change ((reader f 0).currentMessageLength >>= _) = _
  rw [currentMessageLength_reader h, ok_bind]
  change (octetsAt f (len0 f 0 - 5 : ℤ) 4 >>= _) = _
  rw [ht]
  rfl

/-- After a right end mark the octet before it decides. -/
theorem early_mark_iff (h5 : 5 ≤ len0 f 0) (hm : octetsOf f (len0 f 0 - 4) 4 = endMark) :
    octetsOf f (len0 f 0 - 5) 4 = endMark ↔ Octets.octet f (len0 f 0 - 5) = 55 := by
  obtain ⟨q, hq⟩ : ∃ q, len0 f 0 = q + 5 := ⟨len0 f 0 - 5, by omega⟩
  rw [hq] at hm ⊢
  simp only [octetsOf, endMark, List.range_succ, List.range_zero, List.nil_append, List.cons_append, List.map_cons,
    List.map_nil, List.cons.injEq, and_true, Nat.add_sub_cancel, show q + 5 - 4 = q + 1 by omega, Nat.add_zero,
    show q + 1 + 1 = q + 2 by omega, show q + 1 + 2 = q + 3 by omega, show q + 1 + 3 = q + 4 by omega] at hm ⊢
  exact ⟨fun h => h.1, fun h => ⟨h, hm.1, hm.2.1, hm.2.2.1⟩⟩

/-- **A file is judged rightly exactly when its sections can be found and either it is marked and no `7` stands before
its end mark, or it is not marked and `7777` stands one octet early.** -/
theorem judged_iff (h12 : 12 ≤ len0 f 0) (hfit : len0 f 0 ≤ f.length) :
    Judged f ↔ Readable f 0 ∧ (Marked f ∧ Octets.octet f (len0 f 0 - 5) ≠ 55 ∨
      ¬ Marked f ∧ octetsOf f (len0 f 0 - 5) 4 = endMark) := by
  constructor
  · rintro ⟨e, h, ho, he⟩
    have hr := (openGrib_some ho).1
    rw [openGrib_readable hr (by omega) hfit] at ho
    cases ho
    refine ⟨hr, ?_⟩
    by_cases hm : Marked f
    · refine .inl ⟨hm, fun h55 => ?_⟩
      have hn := he.mpr hm
      rw [if_pos ((early_mark_iff (by omega) hm.2).mpr h55)] at hn
      cases hn
    · refine .inr ⟨hm, ?_⟩
      by_contra hne
      exact hm (he.mp (if_neg hne))
  · rintro ⟨hr, hcase⟩
    refine ⟨_, _, openGrib_readable hr (by omega) hfit, ?_⟩
    rcases hcase with ⟨hm, h55⟩ | ⟨hm, hearly⟩
    · rw [if_neg fun h => h55 ((early_mark_iff (by omega) hm.2).mp h)]
      exact ⟨fun _ => hm, fun _ => rfl⟩
    · rw [if_pos hearly]
      exact ⟨nofun, fun h => absurd h hm⟩

/-- The message of `plainMessage` is judged rightly. -/
theorem judged_iff_plain : Judged plainMessage ↔ Readable plainMessage 0 ∧
    (Marked plainMessage ∧ Octets.octet plainMessage (len0 plainMessage 0 - 5) ≠ 55 ∨
      ¬ Marked plainMessage ∧ octetsOf plainMessage (len0 plainMessage 0 - 5) 4 = endMark) :=
  judged_iff (by decide) (by decide)

/-- The message with its last octet overwritten. -/
def overwrittenMessage : File := plainMessage.dropLast ++ [0]

/-- A message without its end mark is accepted. -/
theorem overwritten_accepted :
    12 ≤ len0 overwrittenMessage 0 ∧ len0 overwrittenMessage 0 ≤ overwrittenMessage.length ∧
      ¬ Marked overwrittenMessage ∧
      openGrib (some overwrittenMessage) = .ok (.noneErr, reader overwrittenMessage 0) ∧
      ¬ Judged overwrittenMessage := by
  have hm : ¬ Marked overwrittenMessage := by decide
  have ho : openGrib (some overwrittenMessage) = .ok (.noneErr, reader overwrittenMessage 0) := by
    set_option maxRecDepth 4000 in decide
  refine ⟨by decide, by decide, hm, ho, ?_⟩
  rintro ⟨e, h, ho', he⟩
  rw [ho] at ho'
  cases ho'
  exact hm (he.mp rfl)

end Marks

end HGrib1

end Mashroom
