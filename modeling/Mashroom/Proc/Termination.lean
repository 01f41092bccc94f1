import Mashroom.Proc.Index
import Mashroom.Proc.Extract

/-!
# Proc.Termination — when the loops over a file end

The position moves on by the length in octets 5 to 7 of the current message.  A message whose length is `0` is
its own successor: `process_file` then collects it for ever.  A position at which the headers of a message do not fit
in the file is moved to all the same, and what is read behind the file may be a length of `0` as well.  Every loop
ends, with what `next_message` reads always inside the file, exactly when the scan moves to neither.  What the bodies
read outside the file makes no difference to that.
-/

namespace Mashroom

open Layout DoWhile

/-- Wherever the scan of a file stands, `next_message` reads nothing outside the file, and a successful one moves on
and stays in the file. -/
def NextIncreases (f : File) : Prop :=
  ∀ p, Visited f p → ∃ r h', (HGrib1.reader f p).nextMessage = .ok (r, h') ∧
    (r = true → p < h'.current ∧ h'.current ≤ f.length)

/-- A body that does what the body of the code does, and where that has a fault goes on in any way that leaves the
reader where it is, or leaves the loop. -/
structure Completes {β ρ : Type} (code body : HGrib1 × β → Except Fault (Pass (HGrib1 × β) ρ)) : Prop where
  agrees : ∀ s r, code s = .ok r → body s = .ok r
  goesOn : ∀ s e, code s = .error e → (∃ b, body s = .ok (.next (s.1, b))) ∨ ∃ r, body s = .ok (.leave r)

/-- The three loops over the opened file end without a fault, within one turn for each octet, whatever their bodies
make of what they read outside the file. -/
structure LoopsEnd (lib : OsterLib) (f : File) (h : HGrib1) : Prop where
  index : ∀ body, Completes (indexBody lib) body → ∀ fuel, f.length < fuel →
    ∃ r, doWhile body advance fuel (h, []) = some (.ok r)
  extract : ∀ props stop body, Completes (scanBody lib props stop) body → ∀ fuel, f.length < fuel →
    ∀ refData, ∃ r, doWhile body advance fuel (h, { result := refData, polls := 0 }) = some (.ok r)
  integrity : ∀ (δ : Type) props (addInfo : δ → GribMsgDataInfo → δ) body,
    Completes (coreBody lib props addInfo) body → ∀ fuel, f.length < fuel →
      ∀ data, ∃ r, doWhile body advance fuel (h, data) = some (.ok r)

section Ends

variable {lib : OsterLib} {f : File} {h : HGrib1}

/-- Where the body of the code does not move the reader, none that completes it does. -/
theorem Completes.ends {β ρ : Type} {code body : HGrib1 × β → Except Fault (Pass (HGrib1 × β) ρ)}
    (hc : Completes code body)
    (hcode : ∀ p b s', Scanned f p → code (HGrib1.reader f p, b) = .ok (.next s') → s'.1 = HGrib1.reader f p)
    (hall : ∀ p, Scanned f p → Readable f p ∧ len0 f p ≠ 0) (b : β) {fuel : ℕ} (hfuel : f.length < fuel) :
    ∃ r, doWhile body advance fuel (HGrib1.reader f 0, b) = some (.ok r) := by
  refine doWhile_advance_ends body hall (fun p b hp => ?_) b hfuel
  cases hr : code (HGrib1.reader f p, b) with
  | error e => exact hc.goesOn _ e hr
  | ok r =>
    cases r with
    | leave r => exact .inr ⟨r, hc.agrees _ _ hr⟩
    | next s' =>
      obtain ⟨h', b'⟩ := s'
      obtain rfl : h' = HGrib1.reader f p := hcode p b _ hp hr
      exact .inl ⟨b', hc.agrees _ _ hr⟩

theorem loopsEnd_of_scanned (ho : HGrib1.openGrib (some f) = .ok (.noneErr, h))
    (hall : ∀ p, Scanned f p → Readable f p ∧ len0 f p ≠ 0) : LoopsEnd lib f h := by
  obtain ⟨-, rfl⟩ := HGrib1.openGrib_some ho
  refine ⟨?_, ?_, ?_⟩
  · intro body hbody fuel hfuel
    exact hbody.ends (fun p b s' _ hs => indexBody_reader lib hs) hall [] hfuel
  · intro props stop body hbody fuel hfuel refData
    exact hbody.ends (fun p b s' hp hs => scanBody_reader (hall p hp).1 (hall p hp).2 hs) hall _ hfuel
  · intro δ props addInfo body hbody fuel hfuel data
    exact hbody.ends (fun p b s' _ hs => coreBody_reader lib hs) hall data hfuel

/-- **The loops over an opened file end without a fault, each `next_message` moving on inside the file**, exactly when
each position that the scan moves to is readable and no message there has length `0`. -/
theorem scans_terminate_iff (ho : HGrib1.openGrib (some f) = .ok (.noneErr, h)) :
    NextIncreases f ∧ LoopsEnd lib f h ↔ ∀ p, Scanned f p → Readable f p ∧ len0 f p ≠ 0 := by
  rw [NextIncreases, next_increases_iff (HGrib1.openGrib_some ho).1]
  exact and_iff_left_of_imp (loopsEnd_of_scanned ho)

end Ends

/-! ## A message of length zero -/

/-- A message without values, on a regular grid. -/
def gridMessage : File := assemble [flagsSection 128, latLonSection, octetsSection []]

/-- The message, and after it the same with zeros in octets 5 to 7. -/
def stuckFile : File := gridMessage ++ (gridMessage.take 4 ++ [0, 0, 0] ++ gridMessage.drop 7)

/-- The message twice: the loops end. -/
theorem scans_terminate_iff_twice :
    NextIncreases (gridMessage ++ gridMessage) ∧
        LoopsEnd .reference (gridMessage ++ gridMessage) (HGrib1.reader (gridMessage ++ gridMessage) 0) ↔
      ∀ p, Scanned (gridMessage ++ gridMessage) p →
        Readable (gridMessage ++ gridMessage) p ∧ len0 (gridMessage ++ gridMessage) p ≠ 0 :=
  scans_terminate_iff (by set_option maxRecDepth 4000 in decide)

/-- A message and one octet more: the scan moves to that octet, where no headers are in the file. -/
example : Scanned (HGrib1.plainMessage ++ [71]) 51 ∧ ¬ Readable (HGrib1.plainMessage ++ [71]) 51 :=
  ⟨.next .first (by decide), by decide⟩

/-- The body of `process_file` at a message whose grid and identification can be read. -/
theorem indexBody_next {lib : OsterLib} {f : File} {p : ℕ} (grid : GridInfo) (info : GribMsgDataInfo)
    (hg : (message f p).section2.defineGrid lib f = .ok grid)
    (hi : GribMsgDataInfo.read (HGrib1.reader f p) (message f p) grid = .ok info) (b : List GribMsgDataInfo) :
    indexBody lib (HGrib1.reader f p, b) = .ok (.next (HGrib1.reader f p, b ++ [info])) := by
  simp only [indexBody, HGrib1.reader_msg, HGrib1.reader_file, hg, ok_bind, hi]
  rfl

/-- A reader that is its own successor does not move on. -/
theorem not_nextIncreases {f : File} {p : ℕ} (hp : Visited f p)
    (hn : (HGrib1.reader f p).nextMessage = .ok (true, HGrib1.reader f p)) : ¬ NextIncreases f := by
  intro h
  obtain ⟨r, h', hn', hmoves⟩ := h p hp
  rw [hn] at hn'
  obtain ⟨rfl, rfl⟩ := Prod.mk.inj (Except.ok.inj hn')
  exact lt_irrefl p (hmoves rfl).1

/-- **`process_file` on the file never ends**: the second message is its own successor. -/
theorem stuck_file_never_ends :
    HGrib1.openGrib (some stuckFile) = .ok (.noneErr, HGrib1.reader stuckFile 0) ∧
      (∀ fuel, processFile .reference fuel (HGrib1.reader stuckFile 0) = none) ∧
      ¬ (NextIncreases stuckFile ∧ LoopsEnd .reference stuckFile (HGrib1.reader stuckFile 0)) := by
  have ho : HGrib1.openGrib (some stuckFile) = .ok (.noneErr, HGrib1.reader stuckFile 0) := by
    set_option maxRecDepth 4000 in decide
  set_option maxRecDepth 4000 in
  have hfirst : (HGrib1.reader stuckFile 0).nextMessage = .ok (true, HGrib1.reader stuckFile 83) := by decide
  set_option maxRecDepth 4000 in
  have hstuck : (HGrib1.reader stuckFile 83).nextMessage = .ok (true, HGrib1.reader stuckFile 83) := by decide
  have hrun : ∀ fuel, processFile .reference fuel (HGrib1.reader stuckFile 0) = none := by
    intro fuel
    refine doWhile_diverges (fun s => s.1 = HGrib1.reader stuckFile 0 ∨ s.1 = HGrib1.reader stuckFile 83) ?_ fuel _
      (.inl rfl)
    rintro ⟨h, b⟩ (rfl | rfl)
    · exact ⟨_, turn_again (indexBody_next (gridAt .reference stuckFile 0)
        (infoAt stuckFile 0 (gridAt .reference stuckFile 0)) (by with_unfolding_all decide)
        (by with_unfolding_all decide) b) (advance_of_nextMessage _ hfirst), .inr rfl⟩
    · exact ⟨_, turn_again (indexBody_next (gridAt .reference stuckFile 83)
        (infoAt stuckFile 83 (gridAt .reference stuckFile 83)) (by with_unfolding_all decide)
        (by with_unfolding_all decide) b) (advance_of_nextMessage _ hstuck), .inr rfl⟩
  exact ⟨ho, hrun, fun h =>
    not_nextIncreases ((Visited.first (HGrib1.openGrib_some ho).1).next hfirst) hstuck h.1⟩

end Mashroom
