import Mashroom.Data.Serialize

/-!
# Data.Merge — merging stores that share no path

Where two stores made by `add_data` have no path in common, a merge loses and adds nothing: under each key, each
path has the positions that the one store had followed by those the other had (`merge_joins`).  The order of two
such stores and the grouping of three do not matter (`merge_disjoint`).  The paths are compared by text; which stores
of the code can be merged so is in `Data.Reading`.
-/

namespace Mashroom

namespace DataStruct

variable {τ : Type} [DecidableEq τ] {a b c ab bc r r' : DataStruct τ}

/-- The store is made by calls of `add_data`. -/
def Reachable (a : DataStruct τ) : Prop := ∃ s : Script, s.run τ = .ok a

/-- No path is a path of both stores. -/
def PathsDisjoint (a b : DataStruct τ) : Prop := ∀ p ∈ a.positions, p ∉ b.positions

/-- Each path has the positions of both. -/
def JoinsPositions : Positions → Positions → Positions → Prop := Dict.Joins fun xs ys zs => zs = xs ++ ys

/-- Under each key, each path has the positions of both. -/
def JoinsIndex {κ : Type} [DecidableEq κ] : Index κ → Index κ → Index κ → Prop := Dict.Joins JoinsPositions

/-- The store `r` has in every index, under every key and path, the positions of `a` and those of `b`. -/
structure Joins (a b r : DataStruct τ) : Prop where
  positions : JoinsPositions a.positions b.positions r.positions
  byCommonData : JoinsIndex a.byCommonData b.byCommonData r.byCommonData
  byDate : JoinsIndex a.byDate b.byDate r.byDate
  byGrid : JoinsIndex a.byGrid b.byGrid r.byGrid
  byForecast : JoinsIndex a.byForecast b.byForecast r.byForecast
  byLevel : JoinsIndex a.byLevel b.byLevel r.byLevel

/-! ## A merge joins -/

/-- Where the paths differ, what is there instead of the positions of `xs` is what is there after them. -/
theorem joinsPositions_of_get {xs ys zs : Positions} (hd : ∀ p ∈ xs, p ∉ ys)
    (h : ∀ p, zs.get p = (if p ∈ ys then ys.get p else xs.get p) ∧ (p ∈ zs ↔ p ∈ xs ∨ p ∈ ys)) :
    JoinsPositions xs ys zs := by
  intro p
  refine ⟨(h p).2, ?_⟩
  rw [(h p).1]
  by_cases hp : p ∈ ys
  · rw [if_pos hp, Dict.get_of_notMem fun hx => hd p hx hp]
    rfl
  · rw [if_neg hp, Dict.get_of_notMem hp]
    exact (List.append_nil _).symm

theorem mem_index_merge (h : a.merge b = .ok r) (q : IndexedBy) (k : q.Key) :
    k ∈ q.index r ↔ k ∈ q.index a ∨ k ∈ q.index b := Dict.mem_combineM (q.index_merge h)

theorem joinsIndex_merge (h : a.merge b = .ok r) (hd : PathsDisjoint a b) (ha : PathsKnown a) (hb : PathsKnown b)
    (q : IndexedBy) : JoinsIndex (q.index a) (q.index b) (q.index r) := by
  intro k
  refine ⟨mem_index_merge h q k, joinsPositions_of_get ?_ fun p => index_merge_get h q k⟩
  intro p hp hp'
  exact hd p (ha q k p hp) (hb q k p hp')

theorem Reachable.pathsKnown (ha : Reachable a) : PathsKnown a := by
  obtain ⟨s, hs⟩ := ha
  exact (Script.run_pathsKnown hs).1

theorem Reachable.byDate (ha : Reachable a) : a.byDate = ∅ := by
  obtain ⟨s, hs⟩ := ha
  exact (Script.run_pathsKnown hs).2

/-- Merging reachable stores has a result, which is reachable. -/
theorem Reachable.merge (ha : Reachable a) (hb : Reachable b) : ∃ r, a.merge b = .ok r ∧ Reachable r := by
  obtain ⟨r, hr, -⟩ := merge_exists a hb.pathsKnown hb.byDate
  obtain ⟨s, hs⟩ := ha
  obtain ⟨t, ht⟩ := hb
  exact ⟨r, hr, .merge s t, bind_eq_ok.mpr ⟨a, hs, bind_eq_ok.mpr ⟨b, ht, hr⟩⟩⟩

/-- **A merge of stores without a common path joins them**: under every key, every path has the positions of both,
and nothing else. -/
theorem merge_joins (h : a.merge b = .ok r) (hd : PathsDisjoint a b) (ha : Reachable a) (hb : Reachable b)
    (hr : Reachable r) : Joins a b r := by
  have hindex := joinsIndex_merge h hd ha.pathsKnown hb.pathsKnown
  refine ⟨joinsPositions_of_get hd fun p => positions_merge h, hindex .common, ?_, hindex .grid, hindex .forecast,
    hindex .level⟩
  rw [ha.byDate, hb.byDate, hr.byDate]
  intro k
  exact ⟨by simp, joinsPositions_of_get (fun p hp => absurd hp (AList.notMem_empty p)) fun p => by
    simp [Dict.get_of_notMem (AList.notMem_empty k)]⟩

/-! ## Order and grouping -/

section Laws

variable {κ : Type} [DecidableEq κ]

/-- Joining in the other order gives the same positions, when no path has positions of both. -/
theorem JoinsPositions.comm {xs ys zs zs' : Positions} (h : JoinsPositions xs ys zs) (h' : JoinsPositions ys xs zs')
    (hd : ∀ p ∈ xs, p ∉ ys) : Dict.Agree Eq zs zs' := by
  refine Dict.Joins.comm h h' fun p hp hp' => ?_
  rw [hp, hp']
  by_cases hx : p ∈ xs
  · rw [Dict.get_of_notMem (hd p hx)]
    exact List.append_nil _
  · rw [Dict.get_of_notMem hx]
    exact (List.append_nil _).symm

theorem JoinsPositions.assoc {xs ys zs xy yz rs rs' : Positions} (hxy : JoinsPositions xs ys xy)
    (h : JoinsPositions xy zs rs) (hyz : JoinsPositions ys zs yz) (h' : JoinsPositions xs yz rs') :
    Dict.Agree Eq rs rs' :=
  Dict.Joins.assoc hxy h hyz h' fun p hxy h hyz h' => by rw [h, hxy, h', hyz, List.append_assoc]

theorem JoinsIndex.comm {i j m m' : Index κ} (h : JoinsIndex i j m) (h' : JoinsIndex j i m')
    (hd : ∀ k, ∀ p ∈ i.get k, p ∉ j.get k) : Dict.Agree (Dict.Agree Eq) m m' :=
  Dict.Joins.comm h h' fun k hk hk' => hk.comm hk' (hd k)

theorem JoinsIndex.assoc {i j l ij jl m m' : Index κ} (hij : JoinsIndex i j ij) (h : JoinsIndex ij l m)
    (hjl : JoinsIndex j l jl) (h' : JoinsIndex i jl m') : Dict.Agree (Dict.Agree Eq) m m' :=
  Dict.Joins.assoc hij h hjl h' fun _ hij h hjl h' => hij.assoc h hjl h'

end Laws

theorem Joins.comm (h : Joins a b r) (h' : Joins b a r') (hd : PathsDisjoint a b) (ha : Reachable a)
    (hb : Reachable b) : Same r r' := by
  have hindex : ∀ (q : IndexedBy) (k : q.Key), ∀ p ∈ (q.index a).get k, p ∉ (q.index b).get k := fun q k p hp hp' =>
    hd p (ha.pathsKnown q k p hp) (hb.pathsKnown q k p hp')
  refine ⟨h.positions.comm h'.positions hd, h.byCommonData.comm h'.byCommonData (hindex .common),
    h.byDate.comm h'.byDate ?_, h.byGrid.comm h'.byGrid (hindex .grid),
    h.byForecast.comm h'.byForecast (hindex .forecast), h.byLevel.comm h'.byLevel (hindex .level)⟩
  intro k p hp
  rw [ha.byDate, Dict.get_of_notMem (AList.notMem_empty k)] at hp
  exact absurd hp (AList.notMem_empty p)

theorem Joins.assoc (hab : Joins a b ab) (h : Joins ab c r) (hbc : Joins b c bc) (h' : Joins a bc r') : Same r r' where
  positions := hab.positions.assoc h.positions hbc.positions h'.positions
  byCommonData := hab.byCommonData.assoc h.byCommonData hbc.byCommonData h'.byCommonData
  byDate := hab.byDate.assoc h.byDate hbc.byDate h'.byDate
  byGrid := hab.byGrid.assoc h.byGrid hbc.byGrid h'.byGrid
  byForecast := hab.byForecast.assoc h.byForecast hbc.byForecast h'.byForecast
  byLevel := hab.byLevel.assoc h.byLevel hbc.byLevel h'.byLevel

/-- By text, stores without a common path are merged to their join, in either order, and three of them in any grouping:
all merges have a result, and the results are equal as dictionaries. -/
theorem merge_disjoint (ha : Reachable a) (hb : Reachable b) (hab : PathsDisjoint a b) :
    ∃ ab ba, a.merge b = .ok ab ∧ b.merge a = .ok ba ∧ Joins a b ab ∧ Same ab ba ∧
      ∀ c, Reachable c → PathsDisjoint a c → PathsDisjoint b c →
        ∃ bc abc abc', b.merge c = .ok bc ∧ ab.merge c = .ok abc ∧ a.merge bc = .ok abc' ∧ Same abc abc' := by
  obtain ⟨ab, h, hr⟩ := ha.merge hb
  obtain ⟨ba, h', hr'⟩ := hb.merge ha
  have hba : PathsDisjoint b a := fun p hp hp' => hab p hp' hp
  have hjoin := merge_joins h hab ha hb hr
  refine ⟨ab, ba, h, h', hjoin, hjoin.comm (merge_joins h' hba hb ha hr') hab ha hb, ?_⟩
  intro c hc hac hbc
  obtain ⟨bc, hm, hrbc⟩ := hb.merge hc
  have hjoin' := merge_joins hm hbc hb hc hrbc
  have habc : PathsDisjoint ab c := fun p hp => ((positions_merge h).2.mp hp).elim (hac p) (hbc p)
  have habc' : PathsDisjoint a bc := fun p hp hp' => ((positions_merge hm).2.mp hp').elim (hab p hp) (hac p hp)
  obtain ⟨abc, h1, hr1⟩ := hr.merge hc
  obtain ⟨abc', h2, hr2⟩ := ha.merge hrbc
  exact ⟨bc, abc, abc', hm, h1, h2,
    hjoin.assoc (merge_joins h1 habc hr hc hr1) hjoin' (merge_joins h2 habc' ha hrbc hr2)⟩

end DataStruct

end Mashroom
