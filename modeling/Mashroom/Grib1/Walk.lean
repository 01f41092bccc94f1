import Mathlib.Data.List.Nodup
import Mashroom.Grib1.Scan

/-!
# Grib1.Walk — the messages that a loop over any file goes through

Each message starts where the one before ends, and the last one ends with the file or behind it.  A loop that reads
something of each message has a result exactly when there is such a walk and everything on it can be read; the result
is that of a fold.
-/

namespace Mashroom

open Layout DoWhile

/-- Messages satisfying `P`, each starting where the one before ends, until one does not end inside the file. -/
inductive Walk (P : ℕ → Prop) (f : File) : ℕ → List ℕ → Prop where
  | last {p : ℕ} : P p → f.length ≤ p + len0 f p → Walk P f p [p]
  | cons {p : ℕ} {ps : List ℕ} : P p → p + len0 f p < f.length → Walk P f (p + len0 f p) ps → Walk P f p (p :: ps)

namespace Walk

variable {P : ℕ → Prop} {f : File} {p : ℕ} {ps : List ℕ}

theorem head_mem (h : Walk P f p ps) : p ∈ ps := by
  cases h <;> exact List.mem_cons_self

theorem forall_mem (h : Walk P f p ps) : ∀ q ∈ ps, P q := by
  induction h with
  | last hp _ => simpa using hp
  | cons hp _ _ ih => exact List.forall_mem_cons.mpr ⟨hp, ih⟩

theorem mono {Q : ℕ → Prop} (h : Walk P f p ps) (hQ : ∀ q ∈ ps, Q q) : Walk Q f p ps := by
  induction h with
  | last _ he => exact .last (hQ _ List.mem_cons_self) he
  | cons _ hlt _ ih => exact .cons (hQ _ List.mem_cons_self) hlt (ih fun q hq => hQ q (List.mem_cons_of_mem _ hq))

/-- A message that ends inside the file is followed by the next one. -/
theorem succ_mem (h : Walk P f p ps) : ∀ q ∈ ps, q + len0 f q < f.length → q + len0 f q ∈ ps := by
  induction h with
  | last _ he =>
    intro q hq hlt
    obtain rfl := List.mem_singleton.mp hq
    omega
  | cons _ _ hrest ih =>
    intro q hq hlt
    rcases List.mem_cons.mp hq with rfl | hq
    · exact List.mem_cons_of_mem _ hrest.head_mem
    · exact List.mem_cons_of_mem _ (ih q hq hlt)

/-- A walk inside the file never stands still, since it ends. -/
theorem length_ne_zero (h : Walk P f p ps) (hlt : p < f.length) : len0 f p ≠ 0 := by
  induction h with
  | last _ he => omega
  | cons _ hin _ ih =>
    intro h0
    exact ih hin (by rw [h0, Nat.add_zero, h0])

theorem le_of_mem (h : Walk P f p ps) : ∀ q ∈ ps, p ≤ q := by
  induction h with
  | last _ _ => simp
  | cons _ _ _ ih =>
    intro q hq
    rcases List.mem_cons.mp hq with rfl | hq
    · exact le_rfl
    · have := ih q hq
      omega

/-- No position is passed twice. -/
theorem nodup (h : Walk P f p ps) : ps.Nodup := by
  induction h with
  | last _ _ => exact List.nodup_singleton _
  | @cons p ps hp hlt hrest ih =>
    refine List.nodup_cons.mpr ⟨fun hmem => ?_, ih⟩
    have hle := hrest.le_of_mem p hmem
    exact (Walk.cons hp hlt hrest).length_ne_zero (by omega) (by omega)

end Walk

/-- The walk from the start goes through what a scan reaches. -/
theorem Walk.mem_iff_visited {f : File} {ps : List ℕ} (h : Walk (Readable f) f 0 ps) {q : ℕ} :
    q ∈ ps ↔ Visited f q := by
  constructor
  · have hfrom : ∀ {p ps}, Walk (Readable f) f p ps → Visited f p → ∀ q ∈ ps, Visited f q := by
      intro p ps h
      induction h with
      | last _ _ =>
        intro hp q hq
        rwa [List.mem_singleton.mp hq]
      | cons hr hlt hrest ih =>
        intro hp q hq
        rcases List.mem_cons.mp hq with rfl | hq
        · exact hp
        · have hr' := hrest.forall_mem _ hrest.head_mem
          exact ih (hp.next (HGrib1.nextMessage_advance hr hlt hr')) q hq
    exact hfrom h (.first (h.forall_mem _ h.head_mem)) q
  · intro hq
    induction hq with
    | first _ => exact h.head_mem
    | next hp hn ih =>
      obtain ⟨hlt, -, he⟩ := HGrib1.nextMessage_true hp.readable hn
      cases he
      exact h.succ_mem _ ih hlt

/-! ## Loops that read each message -/

section Loop

variable {β ι ρ : Type} {f : File} {body : HGrib1 × β → Except Fault (Pass (HGrib1 × β) ρ)}
  {read : ℕ → Except Fault ι} {upd : β → ι → β}
  (hbody : ∀ q b, Readable f q →
    body (HGrib1.reader f q, b) = (fun x => .next (HGrib1.reader f q, upd b x)) <$> read q)

include hbody

/-- A walk on which everything is read makes the loop fold what is read. -/
theorem doWhile_of_walk {p : ℕ} {ps : List ℕ} (h : Walk (Readable f) f p ps) :
    ∀ {xs : List ι} {b : β} {fuel : ℕ}, List.Forall₂ (fun q x => read q = .ok x) ps xs → ps.length ≤ fuel →
      ∃ q, doWhile body advance fuel (HGrib1.reader f p, b) =
        some (.ok (.next (HGrib1.reader f q, xs.foldl upd b))) := by
  induction h with
  | @last p hr hend =>
    intro xs b fuel hxs hfuel
    obtain ⟨x, xs, hx, hnil, rfl⟩ := List.forall₂_cons_left_iff.mp hxs
    obtain rfl := List.forall₂_nil_left_iff.mp hnil
    obtain ⟨n, rfl⟩ : ∃ n, fuel = n + 1 := ⟨fuel - 1, by simp only [List.length_singleton] at hfuel; omega⟩
    have hb := hbody p b hr
    rw [hx] at hb
    exact ⟨p, doWhile_exit (turn_exit hb (advance_of_nextMessage _ (HGrib1.nextMessage_stop hr hend))) n⟩
  | @cons p ps hr hlt hrest ih =>
    intro xs b fuel hxs hfuel
    obtain ⟨x, xs', hx, hxs', rfl⟩ := List.forall₂_cons_left_iff.mp hxs
    rw [List.length_cons] at hfuel
    obtain ⟨n, rfl⟩ : ∃ n, fuel = n + 1 := ⟨fuel - 1, by omega⟩
    have hb := hbody p b hr
    rw [hx] at hb
    have hnext := HGrib1.nextMessage_advance hr hlt (hrest.forall_mem _ hrest.head_mem)
    obtain ⟨q, hq⟩ := ih (b := upd b x) hxs' (show ps.length ≤ n by omega)
    refine ⟨q, ?_⟩
    rw [doWhile_again (turn_again hb (advance_of_nextMessage _ hnext)), hq]
    rfl

/-- A loop with a result went through a walk, and read everything on it. -/
theorem walk_of_doWhile : ∀ {fuel p : ℕ} {b : β} {r : Pass (HGrib1 × β) ρ}, Readable f p →
    doWhile body advance fuel (HGrib1.reader f p, b) = some (.ok r) →
    ∃ ps xs q, Walk (Readable f) f p ps ∧ List.Forall₂ (fun q x => read q = .ok x) ps xs ∧
      r = .next (HGrib1.reader f q, xs.foldl upd b) := by
  intro fuel
  induction fuel with
  | zero =>
    intro p b r _ h
    cases h
  | succ n ih =>
    intro p b r hr h
    have hb := hbody p b hr
    cases hx : read p with
    | error e =>
      rw [hx] at hb
      rw [doWhile_error hb] at h
      cases h
    | ok x =>
      rw [hx] at hb
      by_cases hlt : p + len0 f p < f.length
      · by_cases hr' : Readable f (p + len0 f p)
        · have hnext := HGrib1.nextMessage_advance hr hlt hr'
          rw [doWhile_again (turn_again hb (advance_of_nextMessage _ hnext))] at h
          obtain ⟨ps, xs, q, hwalk, hxs, rfl⟩ := ih hr' h
          exact ⟨p :: ps, x :: xs, q, .cons hr hlt hwalk, .cons hx hxs, rfl⟩
        · have hmake : ∀ m, Message.make f (p + len0 f p) ≠ .ok m := fun m hm => hr' (Message.make_eq_ok.mp hm).1
          have hnext : ∀ v, (HGrib1.reader f p).nextMessage ≠ .ok v := by
            intro v
            rw [HGrib1.nextMessage_reader hr, if_pos hlt]
            cases hm : Message.make f (p + len0 f p) with
            | error e => exact nofun
            | ok m => exact absurd hm (hmake m)
          have hadvance : ∃ e, advance (HGrib1.reader f p, upd b x) = .error e := by
            cases ha : advance (HGrib1.reader f p, upd b x) with
            | error e => exact ⟨e, rfl⟩
            | ok v =>
              cases hn : (HGrib1.reader f p).nextMessage with
              | error e => simp [advance, hn] at ha
              | ok v' => exact absurd hn (hnext v')
          obtain ⟨e, he⟩ := hadvance
          have hb' : body (HGrib1.reader f p, b) = .ok (.next (HGrib1.reader f p, upd b x)) := hb
          simp [doWhile, turn, hb', he] at h
      · have hstop := HGrib1.nextMessage_stop hr (by omega)
        rw [doWhile_exit (turn_exit hb (advance_of_nextMessage _ hstop))] at h
        cases h
        exact ⟨[p], [x], p, .last hr (by omega), .cons hx .nil, rfl⟩

end Loop

end Mashroom
