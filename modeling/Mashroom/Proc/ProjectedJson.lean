import Mashroom.Proc.GridJson

/-!
# Proc.ProjectedJson — the other grids in JSON

The bases of the conical grids and of the spherical harmonics have readers of their own; those of the polar, the UTM
and the other plane grids read nothing, and those of the space view and the Mercator grid refuse all there is.  With
them every type of a grid has its reader and its writer.  What is read as `nx` is the number of points along y, in all
of them: so a grid that is read has along x what a new one has (`grid_reread`), and only the undefined grid is written
and comes back (`grid_written_iff`).
-/

namespace Mashroom

/-! ## What is read -/

/-- The kinds of the members of these bases: an `int` is read as a floating point value, too. -/
inductive MemberKind where
  | float
  | int
  | uint64
  | bool

namespace MemberKind

def Value : MemberKind → Type
  | float => ℚ
  | int => ℤ
  | uint64 => ℕ
  | bool => Bool

def read : (k : MemberKind) → Json → Except Fault k.Value
  | float => jsonAs Json.asDouble
  | int => fun j => jsonAs Json.asDouble j >>= ratToInt
  | uint64 => jsonAs Json.asUint64
  | bool => jsonAs Json.asBool

end MemberKind

/-- `if(obj.contains(name)) result.member = obj.at(name).as_kind();` -/
structure GridMember (B : Type) where
  name : String
  kind : MemberKind
  set : kind.Value → B → B

/-- One such statement. -/
def GridMember.fromJson {B : Type} (obj : JsonMembers) (result : B) (m : GridMember B) : Except Fault B :=
  match Json.member? obj m.name.toList with
  | none => .ok result
  | some j => (fun v => m.set v result) <$> m.kind.read j

/-- What the memory of new bases held, where a member has no initial value. -/
structure NewBases where
  lambert : LambertBase
  polar : PolarBase
  spaceView : SpaceViewBase
  mercator : MercatorBase

section Read

variable (narrow : ℚ → ℚ) (lib : OsterLib) (new : NewGrids) (bases : NewBases)

/-- `from_json` of the base of a conical grid: its members, then its flags. -/
def conicalFromJson {B : Type} (initial : B) (members : List (GridMember B)) (setScanMode : ScanMode → B → B)
    (setFlags : ResolutionComponentFlags → B → B) (val : Json) : Except Fault (Option B) :=
  match val.asObject with
  | none => .ok none
  | some obj => do
    let result ← members.foldlM (GridMember.fromJson obj) initial
    flagsFromJson new setScanMode setFlags obj result

/-- The members of `GridBase<LAMBERT>` -/
def LambertBase.jsonMembers : List (GridMember LambertBase) := [
  ⟨"lat1", .float, fun q b => { b with y1 := narrow q }⟩,
  ⟨"lon1", .float, fun q b => { b with x1 := narrow q }⟩,
  ⟨"LoV", .float, fun q b => { b with LoV := narrow q }⟩,
  ⟨"latin1", .float, fun q b => { b with latin1 := narrow q }⟩,
  ⟨"latin2", .float, fun q b => { b with latin2 := narrow q }⟩,
  ⟨"dy", .float, fun q b => { b with dy := narrow q }⟩,
  ⟨"dx", .float, fun q b => { b with dx := narrow q }⟩,
  ⟨"lat SP", .int, fun z b => { b with latitudeSouthPole := z }⟩,
  ⟨"lon SP", .int, fun z b => { b with longitudeSouthPole := z }⟩,
  ⟨"ny", .uint64, fun (n : ℕ) b => { b with ny := n % 2 ^ 16 }⟩,
  -- `result.ny` again
  ⟨"nx", .uint64, fun (n : ℕ) b => { b with ny := n % 2 ^ 16 }⟩,
  ⟨"isSP", .bool, fun v b => { b with isSouthPole := v }⟩,
  ⟨"isBP", .bool, fun v b => { b with isBipolar := v }⟩]

/-- `from_json<GridBase<LAMBERT>>` -/
def LambertBase.fromJson : Json → Except Fault (Option LambertBase) :=
  conicalFromJson new bases.lambert (jsonMembers narrow) (fun scanMode b => { b with scanMode })
    fun flags b => { b with resolutionAndComponentFlags := flags }

/-- The initial values of `GridBase<ALBERS_EQUAL_AREA>`. -/
def AlbersBase.initial : AlbersBase where
  y1 := lib.undefined
  x1 := lib.undefined
  LoV := lib.undefined
  latin1 := lib.undefined
  latin2 := lib.undefined
  Dy := lib.undefined
  Dx := lib.undefined
  latitudeSouthPole := lib.undefined
  longitudeSouthPole := lib.undefined
  ny := 0
  nx := 0
  isSouthPole := false
  isBipolar := false
  scanMode := .ofOctet 0
  resolutionAndComponentFlags := .ofOctet 0

/-- The members of `GridBase<ALBERS_EQUAL_AREA>` -/
def AlbersBase.jsonMembers : List (GridMember AlbersBase) := [
  ⟨"lat1", .float, fun q b => { b with y1 := narrow q }⟩,
  ⟨"lon1", .float, fun q b => { b with x1 := narrow q }⟩,
  ⟨"LoV", .float, fun q b => { b with LoV := narrow q }⟩,
  ⟨"latin1", .float, fun q b => { b with latin1 := narrow q }⟩,
  ⟨"latin2", .float, fun q b => { b with latin2 := narrow q }⟩,
  ⟨"Dy", .float, fun q b => { b with Dy := narrow q }⟩,
  ⟨"Dx", .float, fun q b => { b with Dx := narrow q }⟩,
  ⟨"lat SP", .float, fun q b => { b with latitudeSouthPole := narrow q }⟩,
  ⟨"lon SP", .float, fun q b => { b with longitudeSouthPole := narrow q }⟩,
  ⟨"ny", .uint64, fun (n : ℕ) b => { b with ny := n % 2 ^ 16 }⟩,
  -- `result.ny` again
  ⟨"nx", .uint64, fun (n : ℕ) b => { b with ny := n % 2 ^ 16 }⟩,
  ⟨"isSP", .bool, fun v b => { b with isSouthPole := v }⟩,
  ⟨"isBP", .bool, fun v b => { b with isBipolar := v }⟩]

/-- `from_json<GridBase<ALBERS_EQUAL_AREA>>` -/
def AlbersBase.fromJson : Json → Except Fault (Option AlbersBase) :=
  conicalFromJson new (initial lib) (jsonMembers narrow) (fun scanMode b => { b with scanMode })
    fun flags b => { b with resolutionAndComponentFlags := flags }

/-- The initial values of `GridBase<SPHERICAL_HARMONIC_COEFFICIENTS>`. -/
def HarmonicBase.initial : HarmonicBase where
  J := 0
  K := 0
  M := 0
  representationType := false
  repMode := 0

/-- The members of `GridBase<SPHERICAL_HARMONIC_COEFFICIENTS>` -/
def HarmonicBase.jsonMembers : List (GridMember HarmonicBase) := [
  ⟨"J", .uint64, fun (n : ℕ) b => { b with J := n % 2 ^ 16 }⟩,
  ⟨"K", .uint64, fun (n : ℕ) b => { b with K := n % 2 ^ 16 }⟩,
  ⟨"M", .uint64, fun (n : ℕ) b => { b with M := n % 2 ^ 16 }⟩,
  ⟨"reptype", .bool, fun v b => { b with representationType := v }⟩,
  ⟨"spectral", .uint64, fun (n : ℕ) b => { b with repMode := n % 2 ^ 8 }⟩]

/-- `from_json<GridBase<SPHERICAL_HARMONIC_COEFFICIENTS>>` -/
def HarmonicBase.fromJson (val : Json) : Except Fault (Option HarmonicBase) :=
  match val.asObject with
  | none => .ok none
  | some obj => some <$> jsonMembers.foldlM (GridMember.fromJson obj) initial

/-- `from_json` of the bases of which nothing is read: those of the polar, UTM, gnomonic, Miller and polyconic grids. -/
def unreadFromJson {B : Type} (base : B) (val : Json) : Except Fault (Option B) :=
  .ok ((fun _ => base) <$> val.asObject)

/-- `from_json` of the bases that cannot be read yet: those of the Mercator and the space view grid. -/
def refusedFromJson {B : Type} (_ : Json) : Except Fault (Option B) := .ok none

namespace GridInfo

/-- The alternative of one of the other types, read.  The first types are read before. -/
def otherFromJson (r : RepresentationType) (data : JsonMembers) : Except Fault GridInfo :=
  match r with
  | .lambert => initGridData lambert (LambertBase.fromJson narrow new bases) ⟨bases.lambert, {}⟩ data
  | .obliqueLambertConformal =>
    initGridData obliqueLambertConformal (LambertBase.fromJson narrow new bases) ⟨bases.lambert, {}⟩ data
  | .albersEqualArea => initGridData albersEqualArea (AlbersBase.fromJson narrow lib new) ⟨.initial lib, {}⟩ data
  | .sphericalHarmonicCoefficients =>
    initGridData sphericalHarmonicCoefficients HarmonicBase.fromJson ⟨.initial, {}⟩ data
  | .rotatedSphericalHarmonicCoefficients =>
    initGridData rotatedSphericalHarmonicCoefficients HarmonicBase.fromJson ⟨.initial, new.rotation⟩ data
  | .stretchedSphericalHarmonicCoefficients =>
    initGridData stretchedSphericalHarmonicCoefficients HarmonicBase.fromJson ⟨.initial, new.stretching⟩ data
  | .stretchedRotatedSphericalHarmonicCoefficients =>
    initGridData stretchedRotatedSphericalHarmonicCoefficients HarmonicBase.fromJson
      ⟨.initial, new.rotationStretching⟩ data
  | .polarStereographProj => initGridData polarStereographProj (unreadFromJson bases.polar) ⟨bases.polar, {}⟩ data
  | .utm => initGridData utm (unreadFromJson {}) ⟨{}, {}⟩ data
  | .gnomonic => initGridData gnomonic (unreadFromJson {}) ⟨{}, {}⟩ data
  | .millersCylindr => initGridData millersCylindr (unreadFromJson {}) ⟨{}, {}⟩ data
  | .simplePolyconic => initGridData simplePolyconic (unreadFromJson {}) ⟨{}, {}⟩ data
  | .spaceView => initGridData spaceView refusedFromJson ⟨bases.spaceView, {}⟩ data
  | .mercator => initGridData mercator refusedFromJson ⟨bases.mercator, {}⟩ data
  | _ => .ok monostate

end GridInfo

end Read

/-! ## What is written -/

/-- `to_json(GridBase<LAMBERT>)`.  The scan mode is written for the flags, too. -/
def LambertBase.toJson (val : LambertBase) : Except Fault Json := do
  let scanMode ← val.scanMode.toJson
  let flags ← val.scanMode.toJson
  return .object [("lat1".toList, .double val.y1), ("lon1".toList, .double val.x1), ("LoV".toList, .double val.LoV),
    ("latin1".toList, .double val.latin1), ("latin2".toList, .double val.latin2), ("dy".toList, .double val.dy),
    ("dx".toList, .double val.dx), ("lat SP".toList, .double val.latitudeSouthPole),
    ("lon SP".toList, .double val.longitudeSouthPole), ("ny".toList, .uint64 val.ny), ("nx".toList, .uint64 val.nx),
    ("isSP".toList, .bool val.isSouthPole), ("isBP".toList, .bool val.isBipolar), ("scan mode".toList, scanMode),
    ("resolution component flags".toList, flags)]

/-- `to_json(GridBase<ALBERS_EQUAL_AREA>)` -/
def AlbersBase.toJson (val : AlbersBase) : Except Fault Json := do
  let scanMode ← val.scanMode.toJson
  let flags ← val.scanMode.toJson
  return .object [("lat1".toList, .double val.y1), ("lon1".toList, .double val.x1), ("LoV".toList, .double val.LoV),
    ("latin1".toList, .double val.latin1), ("latin2".toList, .double val.latin2), ("Dy".toList, .double val.Dy),
    ("Dx".toList, .double val.Dx), ("lat SP".toList, .double val.latitudeSouthPole),
    ("lon SP".toList, .double val.longitudeSouthPole), ("ny".toList, .uint64 val.ny), ("nx".toList, .uint64 val.nx),
    ("isSP".toList, .bool val.isSouthPole), ("isBP".toList, .bool val.isBipolar), ("scan mode".toList, scanMode),
    ("resolution component flags".toList, flags)]

/-- `to_json(GridBase<SPHERICAL_HARMONIC_COEFFICIENTS>)` -/
def HarmonicBase.toJson (val : HarmonicBase) : Except Fault Json := return .object [("J".toList, .uint64 val.J),
  ("K".toList, .uint64 val.K), ("M".toList, .uint64 val.M), ("reptype".toList, .bool val.representationType),
  ("spectral".toList, .uint64 val.repMode)]

/-- `to_json` of the bases of which nothing is written. -/
def unwrittenToJson {B : Type} (_ : B) : Except Fault Json := return .object []

namespace GridInfo

/-- `to_json` of the other definitions.  The first ones are written before. -/
def otherToJson : GridInfo → Except Fault Json
  | lambert d | obliqueLambertConformal d => d.toJson LambertBase.toJson NoAdditional.toJson
  | albersEqualArea d => d.toJson AlbersBase.toJson NoAdditional.toJson
  | sphericalHarmonicCoefficients d => d.toJson HarmonicBase.toJson NoAdditional.toJson
  | rotatedSphericalHarmonicCoefficients d => d.toJson HarmonicBase.toJson Rotation.toJson
  | stretchedSphericalHarmonicCoefficients d => d.toJson HarmonicBase.toJson Stretching.toJson
  | stretchedRotatedSphericalHarmonicCoefficients d => d.toJson HarmonicBase.toJson RotationStretching.toJson
  | polarStereographProj d => d.toJson unwrittenToJson NoAdditional.toJson
  | utm d | gnomonic d | millersCylindr d | simplePolyconic d => d.toJson unwrittenToJson NoAdditional.toJson
  | spaceView d => d.toJson unwrittenToJson NoAdditional.toJson
  | mercator d => d.toJson unwrittenToJson NoAdditional.toJson
  | _ => return .object []

end GridInfo

/-- The writers and the readers of the other definitions. -/
def OtherGrids.projected (narrow : ℚ → ℚ) (lib : OsterLib) (new : NewGrids) (bases : NewBases) : OtherGrids where
  toJson := GridInfo.otherToJson
  fromJson := GridInfo.otherFromJson narrow lib new bases

/-! ## The members of a base -/

/-- A number of one of the first bases is such a member. -/
def JsonField.toMember {B : Type} : JsonField B → GridMember B
  | ⟨name, .double, set⟩ => ⟨name, .float, set⟩
  | ⟨name, .uint64, set⟩ => ⟨name, .uint64, set⟩

/-- What one step of a fold sets and the later ones keep, the fold sets. -/
theorem foldlM_sets {ε F B α : Type} {step : B → F → Except ε B} {π : B → α} {pre post : List F} {f : F} {b b' : B}
    {a : α} (hset : ∀ b b', step b f = .ok b' → π b' = a)
    (hpost : ∀ f' ∈ post, ∀ b b', step b f' = .ok b' → π b' = π b)
    (h : (pre ++ f :: post).foldlM step b = .ok b') : π b' = a := by
  rw [List.foldlM_append] at h
  obtain ⟨b₁, -, h⟩ := bind_eq_ok.mp h
  rw [List.foldlM_cons] at h
  obtain ⟨b₂, hb, h⟩ := bind_eq_ok.mp h
  exact foldlM_keeps (I := fun b => π b = a) h (hset b₁ b₂ hb) fun f' hf' b b' hstep hb =>
    (hpost f' hf' b b' hstep).trans hb

section Members

variable {B α : Type} {obj : JsonMembers} {π : B → α}

theorem JsonField.fromJson_toMember (b : B) : ∀ f : JsonField B, f.fromJson obj b = f.toMember.fromJson obj b
  | ⟨_, .double, _⟩ => rfl
  | ⟨_, .uint64, _⟩ => rfl

/-- The first bases are read as the conical ones are. -/
theorem baseFromJson_eq {new : NewGrids} {setScanMode : ScanMode → B → B}
    {setFlags : ResolutionComponentFlags → B → B} (initial : B) (fields : List (JsonField B)) (val : Json) :
    baseFromJson new initial fields setScanMode setFlags val =
      conicalFromJson new initial (fields.map JsonField.toMember) setScanMode setFlags val := by
  unfold baseFromJson conicalFromJson
  cases val.asObject with
  | none => rfl
  | some obj =>
    have hstep : JsonField.fromJson obj = fun (b : B) f => f.toMember.fromJson obj b :=
      funext fun b => funext fun f => f.fromJson_toMember b
    simp only [hstep, List.foldlM_map]

theorem GridMember.fromJson_cases {m : GridMember B} {b b' : B} (h : m.fromJson obj b = .ok b') :
    (Json.member? obj m.name.toList = none ∧ b' = b) ∨
      ∃ j v, Json.member? obj m.name.toList = some j ∧ m.kind.read j = .ok v ∧ b' = m.set v b := by
  unfold fromJson at h
  cases hj : Json.member? obj m.name.toList with
  | none =>
    rw [hj] at h
    cases h
    exact .inl ⟨rfl, rfl⟩
  | some j =>
    rw [hj] at h
    dsimp only at h
    cases hv : m.kind.read j with
    | error e => rw [hv] at h; cases h
    | ok v =>
      rw [hv] at h
      cases h
      exact .inr ⟨j, v, rfl, hv, rfl⟩

theorem GridMember.fromJson_keeps {m : GridMember B} {b b' : B} (hset : ∀ v b, π (m.set v b) = π b)
    (h : m.fromJson obj b = .ok b') : π b' = π b := by
  obtain ⟨-, rfl⟩ | ⟨j, v, -, -, rfl⟩ := fromJson_cases h
  · rfl
  · exact hset v b

/-- The number of points along x is read into that along y. -/
theorem GridMember.fromJson_sets {name : String} {set : ℕ → B → B} {b b' : B} {n : ℕ} {a : α}
    (hn : (Json.member? obj name.toList).bind Json.asUint64 = some n) (hset : ∀ b, π (set n b) = a)
    (h : (⟨name, .uint64, set⟩ : GridMember B).fromJson obj b = .ok b') : π b' = a := by
  obtain ⟨hnone, -⟩ | ⟨j, v, hj, hv, rfl⟩ := fromJson_cases h
  · rw [hnone] at hn
    cases hn
  · rw [hj, Option.bind_some] at hn
    have hread : MemberKind.uint64.read j = .ok n := by
      show jsonAs Json.asUint64 j = .ok n
      rw [jsonAs, hn]
    cases hv.symm.trans hread
    exact hset b

theorem flagsFromJson_keeps {new : NewGrids} {setScanMode : ScanMode → B → B}
    {setFlags : ResolutionComponentFlags → B → B} {b b' : B} (hscan : ∀ s b, π (setScanMode s b) = π b)
    (hflags : ∀ f b, π (setFlags f b) = π b) (h : flagsFromJson new setScanMode setFlags obj b = .ok (some b')) :
    π b' = π b := by
  have hresolution {b : B} (h : resolutionFromJson new setFlags obj b = .ok (some b')) : π b' = π b := by
    unfold resolutionFromJson at h
    split at h
    · cases h; rfl
    · rename_i j _
      cases hread : ResolutionComponentFlags.fromJson new.flags j with
      | error e => rw [hread] at h; cases h
      | ok flags =>
        rw [hread] at h
        cases h
        cases flags with
        | none => rfl
        | some flags => exact hflags flags b
  unfold flagsFromJson at h
  split at h
  · exact hresolution h
  · split at h
    · cases h
    · exact (hresolution h).trans (hscan _ b)

/-- A base that was read has along x what a new one has, and along y what the object has along x. -/
structure BaseReread (nx ny : B → Option ℤ) (obj : JsonMembers) (b new : B) : Prop where
  nx_eq : nx b = nx new
  ny_eq : ∀ n, (Json.member? obj "nx".toList).bind Json.asUint64 = some n → ny new ≠ none →
    ny b = some ((n % 2 ^ 16 : ℕ) : ℤ)

theorem conicalFromJson_reread {new : NewGrids} {initial b : B} {members : List (GridMember B)}
    {setScanMode : ScanMode → B → B} {setFlags : ResolutionComponentFlags → B → B} {nx ny : B → Option ℤ} {val : Json}
    (pre post : List (GridMember B)) (set : ℕ → B → B) (hmembers : members = pre ++ ⟨"nx", .uint64, set⟩ :: post)
    (h : conicalFromJson new initial members setScanMode setFlags val = .ok (some b))
    (hnx : ∀ m ∈ members, ∀ v b, nx (m.set v b) = nx b) (hset : ∀ n b, ny (set n b) = some ((n % 2 ^ 16 : ℕ) : ℤ))
    (hpost : ∀ m ∈ post, ∀ v b, ny (m.set v b) = ny b)
    (hscan : ∀ s b, nx (setScanMode s b) = nx b ∧ ny (setScanMode s b) = ny b)
    (hflags : ∀ f b, nx (setFlags f b) = nx b ∧ ny (setFlags f b) = ny b) :
    ∃ obj, val.asObject = some obj ∧ BaseReread nx ny obj b initial := by
  unfold conicalFromJson at h
  cases hobj : val.asObject with
  | none => rw [hobj] at h; cases h
  | some obj =>
    rw [hobj] at h
    dsimp only at h
    cases hread : members.foldlM (GridMember.fromJson obj) initial with
    | error e => rw [hread] at h; cases h
    | ok b₁ =>
      rw [hread, ok_bind] at h
      refine ⟨obj, rfl, ?_, fun n hn _ => ?_⟩
      · have hkeeps : nx b = nx b₁ := flagsFromJson_keeps (fun s b => (hscan s b).1) (fun f b => (hflags f b).1) h
        exact hkeeps.trans (foldlM_keeps (I := fun b => nx b = nx initial) hread rfl fun m hm _ _ hstep hb =>
          (GridMember.fromJson_keeps (hnx m hm) hstep).trans hb)
      · have hkeeps : ny b = ny b₁ := flagsFromJson_keeps (fun s b => (hscan s b).2) (fun f b => (hflags f b).2) h
        rw [hmembers] at hread
        refine hkeeps.trans (foldlM_sets (fun _ _ => ?_) (fun m hm _ _ => ?_) hread)
        · exact GridMember.fromJson_sets hn (hset n)
        · exact GridMember.fromJson_keeps (hpost m hm)

end Members

/-! ## The bases -/

section Bases

variable {narrow : ℚ → ℚ} {lib : OsterLib} {new : NewGrids} {bases : NewBases} {val : Json}

theorem LatLonBase.fromJson_reread {b : LatLonBase} (h : fromJson narrow new val = .ok (some b)) :
    ∃ obj, val.asObject = some obj ∧ BaseReread (some ·.nx) (some ·.ny) obj b new.latLon := by
  rw [fromJson, baseFromJson_eq] at h
  exact conicalFromJson_reread (((jsonFields narrow).map JsonField.toMember).take 7) []
    (fun n b => { b with ny := n % 2 ^ 16 }) rfl h (by simp [jsonFields, JsonField.toMember]) (fun _ _ => rfl) (by simp)
    (fun _ _ => ⟨rfl, rfl⟩) fun _ _ => ⟨rfl, rfl⟩

theorem GaussianBase.fromJson_reread {b : GaussianBase} (h : fromJson narrow lib new val = .ok (some b)) :
    ∃ obj, val.asObject = some obj ∧ BaseReread (some ·.nx) (some ·.ny) obj b (initial lib) := by
  rw [fromJson, baseFromJson_eq] at h
  exact conicalFromJson_reread (((jsonFields narrow).map JsonField.toMember).take 7) []
    (fun n b => { b with ny := n % 2 ^ 16 }) rfl h (by simp [jsonFields, JsonField.toMember]) (fun _ _ => rfl) (by simp)
    (fun _ _ => ⟨rfl, rfl⟩) fun _ _ => ⟨rfl, rfl⟩

theorem LambertBase.fromJson_reread {b : LambertBase} (h : fromJson narrow new bases val = .ok (some b)) :
    ∃ obj, val.asObject = some obj ∧ BaseReread (some ·.nx) (some ·.ny) obj b bases.lambert := by
  unfold fromJson at h
  exact conicalFromJson_reread ((jsonMembers narrow).take 10) ((jsonMembers narrow).drop 11)
    (fun n b => { b with ny := n % 2 ^ 16 }) rfl h (by simp [jsonMembers]) (fun _ _ => rfl) (by simp [jsonMembers])
    (fun _ _ => ⟨rfl, rfl⟩) fun _ _ => ⟨rfl, rfl⟩

theorem AlbersBase.fromJson_reread {b : AlbersBase} (h : fromJson narrow lib new val = .ok (some b)) :
    ∃ obj, val.asObject = some obj ∧ BaseReread (some ·.nx) (some ·.ny) obj b (initial lib) := by
  unfold fromJson at h
  exact conicalFromJson_reread ((jsonMembers narrow).take 10) ((jsonMembers narrow).drop 11)
    (fun n b => { b with ny := n % 2 ^ 16 }) rfl h (by simp [jsonMembers]) (fun _ _ => rfl) (by simp [jsonMembers])
    (fun _ _ => ⟨rfl, rfl⟩) fun _ _ => ⟨rfl, rfl⟩

theorem HarmonicBase.fromJson_reread {b : HarmonicBase} (h : fromJson val = .ok (some b)) :
    ∃ obj, val.asObject = some obj ∧ BaseReread (fun _ => none) (fun _ => none) obj b initial := by
  unfold fromJson at h
  cases hobj : val.asObject with
  | none => rw [hobj] at h; cases h
  | some obj => exact ⟨obj, rfl, rfl, fun _ _ hny => absurd rfl hny⟩

end Bases

/-! ## The object of a grid -/

namespace GridInfo

/-- The type of the alternative that the variant holds, where `type` is that of its base. -/
def alternative : GridInfo → RepresentationType
  | monostate => .undefGrid
  | latLon _ => .latLonGridEquidistCylindr
  | rotatedLatLon _ => .rotatedLatLon
  | stretchedLatLon _ => .stretchedLatLon
  | stretchedAndRotatedLatLon _ => .stretchedAndRotatedLatLon
  | gaussian _ => .gaussian
  | rotatedGaussianLatLon _ => .rotatedGaussianLatLon
  | stretchedGaussianLatLon _ => .stretchedGaussianLatLon
  | stretchedRotatedGaussianLatLon _ => .stretchedRotatedGaussianLatLon
  | lambert _ => .lambert
  | obliqueLambertConformal _ => .obliqueLambertConformal
  | utm _ => .utm
  | albersEqualArea _ => .albersEqualArea
  | spaceView _ => .spaceView
  | gnomonic _ => .gnomonic
  | sphericalHarmonicCoefficients _ => .sphericalHarmonicCoefficients
  | rotatedSphericalHarmonicCoefficients _ => .rotatedSphericalHarmonicCoefficients
  | stretchedSphericalHarmonicCoefficients _ => .stretchedSphericalHarmonicCoefficients
  | stretchedRotatedSphericalHarmonicCoefficients _ => .stretchedRotatedSphericalHarmonicCoefficients
  | polarStereographProj _ => .polarStereographProj
  | millersCylindr _ => .millersCylindr
  | simplePolyconic _ => .simplePolyconic
  | mercator _ => .mercator

/-- The number of points along x, where the base has one. -/
def nx? : GridInfo → Option ℤ
  | latLon d | rotatedLatLon d | stretchedLatLon d | stretchedAndRotatedLatLon d => some d.base.nx
  | gaussian d | rotatedGaussianLatLon d | stretchedGaussianLatLon d | stretchedRotatedGaussianLatLon d =>
    some d.base.nx
  | lambert d | obliqueLambertConformal d => some d.base.nx
  | albersEqualArea d => some d.base.nx
  | spaceView d => some d.base.nx
  | polarStereographProj d => some d.base.nx
  | mercator d => some d.base.nx
  | _ => none

/-- The number of points along y, where the base has one. -/
def ny? : GridInfo → Option ℤ
  | latLon d | rotatedLatLon d | stretchedLatLon d | stretchedAndRotatedLatLon d => some d.base.ny
  | gaussian d | rotatedGaussianLatLon d | stretchedGaussianLatLon d | stretchedRotatedGaussianLatLon d =>
    some d.base.ny
  | lambert d | obliqueLambertConformal d => some d.base.ny
  | albersEqualArea d => some d.base.ny
  | spaceView d => some d.base.ny
  | polarStereographProj d => some d.base.ny
  | mercator d => some d.base.ny
  | _ => none

/-- The rotation and the stretching. -/
def additional : GridInfo → Option Rotation × Option Stretching
  | rotatedLatLon d => (some d.additional, none)
  | rotatedGaussianLatLon d => (some d.additional, none)
  | rotatedSphericalHarmonicCoefficients d => (some d.additional, none)
  | stretchedLatLon d => (none, some d.additional)
  | stretchedGaussianLatLon d => (none, some d.additional)
  | stretchedSphericalHarmonicCoefficients d => (none, some d.additional)
  | stretchedAndRotatedLatLon d => (some d.additional.rot, some d.additional.stretch)
  | stretchedRotatedGaussianLatLon d => (some d.additional.rot, some d.additional.stretch)
  | stretchedRotatedSphericalHarmonicCoefficients d => (some d.additional.rot, some d.additional.stretch)
  | _ => (none, none)

/-- What `emplace_by_id` makes of a type without a section. -/
def blank (lib : OsterLib) (new : NewGrids) (bases : NewBases) : RepresentationType → GridInfo
  | .undefGrid => monostate
  | .latLonGridEquidistCylindr => latLon ⟨new.latLon, {}⟩
  | .rotatedLatLon => rotatedLatLon ⟨new.latLon, new.rotation⟩
  | .stretchedLatLon => stretchedLatLon ⟨new.latLon, new.stretching⟩
  | .stretchedAndRotatedLatLon => stretchedAndRotatedLatLon ⟨new.latLon, new.rotationStretching⟩
  | .gaussian => gaussian ⟨.initial lib, {}⟩
  | .rotatedGaussianLatLon => rotatedGaussianLatLon ⟨.initial lib, new.rotation⟩
  | .stretchedGaussianLatLon => stretchedGaussianLatLon ⟨.initial lib, new.stretching⟩
  | .stretchedRotatedGaussianLatLon => stretchedRotatedGaussianLatLon ⟨.initial lib, new.rotationStretching⟩
  | .lambert => lambert ⟨bases.lambert, {}⟩
  | .obliqueLambertConformal => obliqueLambertConformal ⟨bases.lambert, {}⟩
  | .utm => utm ⟨{}, {}⟩
  | .albersEqualArea => albersEqualArea ⟨.initial lib, {}⟩
  | .spaceView => spaceView ⟨bases.spaceView, {}⟩
  | .gnomonic => gnomonic ⟨{}, {}⟩
  | .sphericalHarmonicCoefficients => sphericalHarmonicCoefficients ⟨.initial, {}⟩
  | .rotatedSphericalHarmonicCoefficients => rotatedSphericalHarmonicCoefficients ⟨.initial, new.rotation⟩
  | .stretchedSphericalHarmonicCoefficients => stretchedSphericalHarmonicCoefficients ⟨.initial, new.stretching⟩
  | .stretchedRotatedSphericalHarmonicCoefficients =>
    stretchedRotatedSphericalHarmonicCoefficients ⟨.initial, new.rotationStretching⟩
  | .polarStereographProj => polarStereographProj ⟨bases.polar, {}⟩
  | .millersCylindr => millersCylindr ⟨{}, {}⟩
  | .simplePolyconic => simplePolyconic ⟨{}, {}⟩
  | .mercator => mercator ⟨bases.mercator, {}⟩

/-- A grid that was read has the alternative, the additional part and the number of points along x of a new one, and
along y as many as the object of its base has along x. -/
structure Reread (obj : JsonMembers) (grid new : GridInfo) : Prop where
  alternative_eq : grid.alternative = new.alternative
  additional_eq : grid.additional = new.additional
  nx_eq : grid.nx? = new.nx?
  ny_eq : ∀ n, (Json.member? obj "nx".toList).bind Json.asUint64 = some n → new.ny? ≠ none →
    grid.ny? = some ((n % 2 ^ 16 : ℕ) : ℤ)

/-- A grid is a new one, or was read from the object of a base. -/
def RereadFrom (data : JsonMembers) (grid new : GridInfo) : Prop :=
  grid = new ∨ ∃ j obj, Json.member? data "base".toList = some j ∧ j.asObject = some obj ∧ Reread obj grid new

end GridInfo

section Definition

variable {B A : Type} {make : GridDefinition B A → GridInfo} {base : Json → Except Fault (Option B)}
  {new : GridDefinition B A} {data : JsonMembers} {grid : GridInfo}

theorem definitionAdditional_eq {a a' : A} (h : definitionAdditional a data = some a') : a' = a := by
  unfold definitionAdditional additionFromJson at h
  split at h
  · obtain ⟨_, -, rfl⟩ := Option.map_eq_some_iff.mp h
    rfl
  · exact (Option.some.inj h).symm

theorem definitionBase_cases {b b' : B} (h : definitionBase base b data = .ok (some b')) :
    b' = b ∨ ∃ j, Json.member? data "base".toList = some j ∧ base j = .ok (some b') := by
  unfold definitionBase at h
  split at h
  · cases h
    exact .inl rfl
  · rename_i j hj
    exact .inr ⟨j, hj, h⟩

/-- A definition that is read has the new additional part, and the new base or the one that is read. -/
theorem initGridData_cases (h : initGridData make base new data = .ok grid) : grid = make new ∨
    ∃ d j, grid = make d ∧ d.additional = new.additional ∧ Json.member? data "base".toList = some j ∧
      base j = .ok (some d.base) := by
  unfold initGridData GridDefinition.fromJson at h
  cases hbase : definitionBase base new.base data with
  | error e => rw [hbase] at h; cases h
  | ok b =>
    rw [hbase] at h
    cases h
    cases b with
    | none => exact .inl rfl
    | some b =>
      cases hadd : definitionAdditional new.additional data with
      | none => exact .inl (by simp only [Option.bind_eq_bind, Option.bind_some, Option.bind_none, Option.getD_none])
      | some a =>
        have ha : a = new.additional := definitionAdditional_eq hadd
        obtain rfl | ⟨j, hj, hread⟩ := definitionBase_cases hbase
        · exact .inl (by simp [ha])
        · exact .inr ⟨⟨b, a⟩, j, rfl, ha, hj, hread⟩

/-- What is read of a base is read of the grid. -/
theorem rereadFrom_of_base {nx ny : B → Option ℤ}
    (hbase : ∀ j b, base j = .ok (some b) → ∃ obj, j.asObject = some obj ∧ BaseReread nx ny obj b new.base)
    (hshape : ∀ d, d.additional = new.additional →
      (make d).alternative = (make new).alternative ∧ (make d).additional = (make new).additional)
    (hnx : ∀ d, (make d).nx? = nx d.base) (hny : ∀ d, (make d).ny? = ny d.base)
    (h : initGridData make base new data = .ok grid) : GridInfo.RereadFrom data grid (make new) := by
  obtain rfl | ⟨d, j, rfl, hadditional, hj, hread⟩ := initGridData_cases h
  · exact .inl rfl
  · obtain ⟨obj, hobj, hreread⟩ := hbase j d.base hread
    refine .inr ⟨j, obj, hj, hobj, (hshape d hadditional).1, (hshape d hadditional).2, ?_, fun n hn hnew => ?_⟩
    · rw [hnx, hnx, hreread.nx_eq]
    · rw [hny] at hnew ⊢
      exact hreread.ny_eq n hn hnew

/-- Where nothing is read of a base, the grid is new. -/
theorem rereadFrom_of_unread (hbase : ∀ j b, base j = .ok (some b) → b = new.base)
    (h : initGridData make base new data = .ok grid) : GridInfo.RereadFrom data grid (make new) := by
  obtain rfl | ⟨⟨b, a⟩, j, rfl, hadditional, -, hread⟩ := initGridData_cases h
  · exact .inl rfl
  · cases hbase j b hread
    cases hadditional
    exact .inl rfl

theorem unreadFromJson_eq {b b' : B} {j : Json} (h : unreadFromJson b j = .ok (some b')) : b' = b := by
  obtain ⟨_, -, rfl⟩ := Option.map_eq_some_iff.mp (Except.ok.inj h)
  rfl

theorem refusedFromJson_ne {b : B} {j : Json} : refusedFromJson j ≠ .ok (some b) := nofun

end Definition

section Grid

variable {narrow : ℚ → ℚ} {lib : OsterLib} {new : NewGrids} {bases : NewBases} {val : Json} {grid : GridInfo}

/-- **Grids in JSON and back**: only the undefined grid is written, and it comes back. -/
theorem grid_written_iff : (do
    let val ← grid.toJson (.projected narrow lib new bases)
    GridInfo.fromJson narrow lib new (.projected narrow lib new bases) val) = .ok (some grid) ↔
    grid = .monostate := by
  cases grid
  case monostate => exact iff_of_true rfl rfl
  -- of every other grid the writer throws before it has written anything
  all_goals exact iff_of_false nofun nofun

/-- One case for each type: its base is read, or is not. -/
theorem dataFromJson_reread {r : RepresentationType} {data : JsonMembers}
    (h : GridInfo.dataFromJson narrow lib new (.projected narrow lib new bases) data r = .ok grid) :
    GridInfo.RereadFrom data grid (GridInfo.blank lib new bases r) := by
  cases r
  case undefGrid => cases h; exact .inl rfl
  case latLonGridEquidistCylindr | rotatedLatLon | stretchedLatLon | stretchedAndRotatedLatLon =>
    exact rereadFrom_of_base (fun _ _ => LatLonBase.fromJson_reread)
      (fun d hd => ⟨rfl, by simp only [GridInfo.additional, hd]⟩) (fun _ => rfl) (fun _ => rfl) h
  case gaussian | rotatedGaussianLatLon | stretchedGaussianLatLon | stretchedRotatedGaussianLatLon =>
    exact rereadFrom_of_base (fun _ _ => GaussianBase.fromJson_reread)
      (fun d hd => ⟨rfl, by simp only [GridInfo.additional, hd]⟩) (fun _ => rfl) (fun _ => rfl) h
  case lambert | obliqueLambertConformal =>
    exact rereadFrom_of_base (fun _ _ => LambertBase.fromJson_reread) (fun _ _ => ⟨rfl, rfl⟩) (fun _ => rfl)
      (fun _ => rfl) h
  case albersEqualArea =>
    exact rereadFrom_of_base (fun _ _ => AlbersBase.fromJson_reread) (fun _ _ => ⟨rfl, rfl⟩) (fun _ => rfl)
      (fun _ => rfl) h
  case sphericalHarmonicCoefficients | rotatedSphericalHarmonicCoefficients | stretchedSphericalHarmonicCoefficients
      | stretchedRotatedSphericalHarmonicCoefficients =>
    exact rereadFrom_of_base (fun _ _ => HarmonicBase.fromJson_reread)
      (fun d hd => ⟨rfl, by simp only [GridInfo.additional, hd]⟩) (fun _ => rfl) (fun _ => rfl) h
  case polarStereographProj | utm | gnomonic | millersCylindr | simplePolyconic =>
    exact rereadFrom_of_unread (fun _ _ => unreadFromJson_eq) h
  case spaceView | mercator => exact rereadFrom_of_unread (fun _ _ hread => absurd hread refusedFromJson_ne) h

/-- **A grid from JSON**: what is read is an object of a grid, and the grid is a new one of its type or has the number
of points along x and the additional part of a new one, and along y as many as the object has along x. -/
theorem grid_reread
    (h : GridInfo.fromJson narrow lib new (.projected narrow lib new bases) val = .ok (some grid)) :
    ∃ r data, IsGrid val r data ∧ GridInfo.RereadFrom data grid (GridInfo.blank lib new bases r) := by
  by_cases hgrid : ∃ r data, IsGrid val r data
  · obtain ⟨r, data, hval⟩ := hgrid
    have hread := hval
    obtain ⟨obj, n, hobj, hn, hdata, hof⟩ := hread
    simp only [GridInfo.fromJson, hobj, hn, hdata, hof] at h
    cases hg : GridInfo.dataFromJson narrow lib new (.projected narrow lib new bases) data r with
    | error e =>
      rw [hg] at h
      cases e <;> cases h
    | ok g =>
      rw [hg] at h
      cases h
      exact ⟨r, data, hval, dataFromJson_reread hg⟩
  · rw [fromJson_of_not_isGrid hgrid] at h
    cases h

end Grid

/-- Memory that held zeros. -/
def NewBases.zero : NewBases where
  lambert := ⟨0, 0, 0, 0, .ofOctet 0, 0, 0, 0, false, false, .ofOctet 0, 0, 0, 0, 0⟩
  polar := ⟨0, 0, 0, 0, .ofOctet 0, 0, 0, 0, false, .ofOctet 0⟩
  spaceView := ⟨0, 0, 0, 0, .ofOctet 0, 0, 0, 0, 0, .ofOctet 0, 0, 0, 0, 0⟩
  mercator := ⟨0, 0, 0, 0, .ofOctet 0, 0, 0, 0, .ofOctet 0, 0, 0⟩

/-- The same, of the first types. -/
def NewGrids.zero : NewGrids where
  latLon := ⟨0, 0, 0, 0, 0, 0, 0, 0, .ofOctet 0, .ofOctet 0⟩
  rotation := ⟨0, 0, 0⟩
  stretching := ⟨0, 0, 0⟩
  rotationStretching := ⟨⟨0, 0, 0⟩, ⟨0, 0, 0⟩⟩
  scanMode := .ofOctet 0
  flags := .ofOctet 0

/-- A Lambert grid of 5 by 7 points. -/
def lambertObject : Json := gridObject .lambert
  (.object [("base".toList, .object [("ny".toList, .uint64 7), ("nx".toList, .uint64 5)])])

/-- What is read of it. -/
def lambertRead : GridInfo := .lambert ⟨{ NewBases.zero.lambert with ny := 5 }, {}⟩

/-- It is read as one of 0 by 5. -/
theorem grid_reread_lambert :
    GridInfo.fromJson id .reference .zero (.projected id .reference .zero .zero) lambertObject =
      .ok (some lambertRead) ∧ lambertRead.nx? = some 0 ∧ lambertRead.ny? = some 5 ∧
    ∃ r data, IsGrid lambertObject r data ∧
      GridInfo.RereadFrom data lambertRead (GridInfo.blank .reference .zero .zero r) := by
  have hread : GridInfo.fromJson id .reference .zero (.projected id .reference .zero .zero) lambertObject =
    .ok (some lambertRead) := rfl
  exact ⟨hread, rfl, rfl, grid_reread hread⟩

end Mashroom
