import Mathlib.Data.Finset.Union
import Mathlib.Order.Fin.Basic
import Mashroom.Data.Properties
import Mashroom.Lib.SortedSets

/-!
# Program.Search — centers, grids and parameters by words

An option names a center, a grid or parameters by words.  Each word gives the sorted list of what it matches, and
`multitoken_approx_match_…` intersects them: what is left is what all words match (`multitokenApproxMatch_eq`), for the
parameters less what the words after a minus match (`multitokenApproxMatchParameter_eq`).  The option for the parameters
is split into words before, so that each is searched for alone: there a further word only adds to what is found, and a
minus takes nothing away (`mem_parametersNotifier`).
-/

namespace Mashroom

/-! ## Words -/

/-- `std::ranges::split_view(s, ' ')`: nothing for an empty string, else the strings between the blanks. -/
def splitView (s : List Char) : List (List Char) := if s = [] then [] else s.splitOn ' '

theorem notMem_of_mem_splitOn {s w : List Char} (h : w ∈ s.splitOn ' ') : ' ' ∉ w := by
  induction s generalizing w with
  | nil =>
    obtain rfl := List.mem_singleton.mp h
    exact List.not_mem_nil
  | cons c s ih =>
    rw [List.splitOn_cons_eq_if_modifyHead] at h
    split at h
    · obtain rfl | h := List.mem_cons.mp h
      · exact List.not_mem_nil
      · exact ih h
    · rename_i hc
      obtain ⟨v, vs, hs⟩ := List.exists_cons_of_ne_nil (List.splitOn_ne_nil ' ' s)
      rw [hs] at h ih
      rw [List.modifyHead_cons] at h
      obtain rfl | h := List.mem_cons.mp h
      · intro hmem
        obtain rfl | hmem := List.mem_cons.mp hmem
        · exact hc (beq_self_eq_true ' ')
        · exact ih List.mem_cons_self hmem
      · exact ih (List.mem_cons_of_mem _ h)

/-- A word is not split any further. -/
theorem splitView_word {s w : List Char} (h : w ∈ splitView s) (hne : w ≠ []) : splitView w = [w] := by
  unfold splitView at h
  split at h
  · cases h
  · rw [splitView, if_neg hne, List.splitOn_eq_singleton (notMem_of_mem_splitOn h)]

/-! ## Centers and grids -/

/-- A code table: a code for an abbreviation, and a text for each octet. -/
structure CodeTable where
  abbrToCode : List Char → Option (Fin 256)
  text : Fin 256 → List Char

/-- One code is left exactly where it is the only one to pass. -/
theorem filter_finRange_eq_singleton {n : ℕ} {p : Fin n → Bool} {i : Fin n} :
    (List.finRange n).filter p = [i] ↔ ∀ j, p j = true ↔ j = i := by
  have hmem : ∀ j, j ∈ (List.finRange n).filter p ↔ p j = true := by simp
  constructor
  · intro h j
    rw [← hmem, h, List.mem_singleton]
  · intro h
    refine List.perm_singleton.mp ((List.perm_ext_iff_of_nodup ((List.nodup_finRange n).filter p)
      (List.nodup_singleton i)).mpr fun j => ?_)
    rw [hmem, h, List.mem_singleton]

namespace CodeTable

variable (tbl : CodeTable)

/-- `approx_match_…`: the code of an abbreviation, or those whose text contains the name. -/
def approxMatch (name : List Char) : List (Fin 256) :=
  match tbl.abbrToCode name with
  | some i => [i]
  | none => (List.finRange 256).filter fun i => name <:+: tbl.text i

/-- The loop of `multitoken_approx_match_…` after the first token. -/
def multitokenLoop : List (List Char) → List (Fin 256) → List (Fin 256)
  | [], found => found
  | token :: tokens, found =>
    if found = [] then found
    else multitokenLoop tokens (SortedSets.setIntersection (· < ·) found (tbl.approxMatch token))

def multitokenApproxMatch : List (List Char) → List (Fin 256)
  | [] => []
  | token :: tokens => tbl.multitokenLoop tokens (tbl.approxMatch token)

/-- The name is the abbreviation of the code, or it is no abbreviation and a part of the code's text: an abbreviation is
not looked for in the texts. -/
def accepts (name : List Char) (i : Fin 256) : Bool :=
  match tbl.abbrToCode name with
  | some j => i = j
  | none => name <:+: tbl.text i

variable {tbl}

theorem approxMatch_eq (name : List Char) : tbl.approxMatch name = (List.finRange 256).filter (tbl.accepts name) := by
  unfold approxMatch accepts
  cases tbl.abbrToCode name with
  | none => rfl
  | some j =>
    exact (filter_finRange_eq_singleton.mpr (by simp)).symm

theorem approxMatch_pairwise (name : List Char) : (tbl.approxMatch name).Pairwise (· < ·) := by
  rw [approxMatch_eq]
  exact (List.pairwise_lt_finRange 256).filter _

theorem multitokenLoop_eq (tokens : List (List Char)) {found : List (Fin 256)} (h : found.Pairwise (· < ·)) :
    tbl.multitokenLoop tokens found = found.filter fun i => tokens.all fun token => tbl.accepts token i := by
  induction tokens generalizing found with
  | nil => simp [multitokenLoop]
  | cons token tokens ih =>
    unfold multitokenLoop
    split
    · rename_i hfound
      rw [hfound]
      rfl
    · rw [SortedSets.setIntersection_eq h (approxMatch_pairwise token), ih (h.filter _), List.filter_filter]
      refine List.filter_congr fun i _ => ?_
      simp [approxMatch_eq, Bool.and_comm]

/-- **What is found for several words is what each of them matches.** -/
theorem multitokenApproxMatch_eq (tokens : List (List Char)) : tbl.multitokenApproxMatch tokens =
    if tokens = [] then [] else (List.finRange 256).filter fun i => tokens.all fun token => tbl.accepts token i := by
  cases tokens with
  | nil => rfl
  | cons token tokens =>
    rw [multitokenApproxMatch, multitokenLoop_eq tokens (approxMatch_pairwise token), approxMatch_eq,
      List.filter_filter, if_neg (List.cons_ne_nil _ _)]
    refine List.filter_congr fun i _ => ?_
    simp [Bool.and_comm]

/-- What a notifier reports: nothing is matched, with the first string of the input, or more than one code. -/
inductive NotifierError where
  | notMatched (first : Option (List Char))
  | matchedMore (found : List (Fin 256))

/-- The end of `center_notifier` and `grid_notifier`. -/
def onlyOne (input : List (List Char)) : List (Fin 256) → Except NotifierError (Fin 256)
  | [] => .error (.notMatched input.head?)
  | [i] => .ok i
  | found => .error (.matchedMore found)

variable (tbl)

/-- `center_notifier` -/
def centerNotifier (input : List (List Char)) : Except NotifierError (Fin 256) :=
  onlyOne input (tbl.multitokenApproxMatch input)

/-- `grid_notifier`: the tokens are split into words. -/
def gridNotifier (input : List (List Char)) : Except NotifierError (Fin 256) :=
  onlyOne input (tbl.multitokenApproxMatch (input.flatMap splitView))

variable {tbl}

theorem onlyOne_eq_ok {input : List (List Char)} {found : List (Fin 256)} {i : Fin 256} :
    onlyOne input found = .ok i ↔ found = [i] := by
  match found with
  | [] => simp [onlyOne]
  | [j] => simp [onlyOne]
  | j :: k :: found => simp [onlyOne]

/-- One code is found exactly where no other has the same words. -/
theorem multitokenApproxMatch_eq_singleton {tokens : List (List Char)} {i : Fin 256} :
    tbl.multitokenApproxMatch tokens = [i] ↔
      tokens ≠ [] ∧ ∀ j, (∀ token ∈ tokens, tbl.accepts token j = true) ↔ j = i := by
  rw [multitokenApproxMatch_eq]
  by_cases htokens : tokens = []
  · simp [htokens]
  · rw [if_neg htokens, filter_finRange_eq_singleton]
    simp [htokens]

end CodeTable

/-! ### The grids -/

/-- `grid_to_text` -/
def RepresentationType.toText : RepresentationType → String
  | .latLonGridEquidistCylindr => "Cylindr (no modifications)"
  | .rotatedLatLon => "Rotated Cylindr"
  | .stretchedLatLon => "Stretched Cylindr"
  | .stretchedAndRotatedLatLon => "Stretched and rotated Cylindr"
  | .gaussian => "Gaussian (no modifications)"
  | .rotatedGaussianLatLon => "Rotated Gaussian"
  | .stretchedGaussianLatLon => "Stretched Gaussian"
  | .stretchedRotatedGaussianLatLon => "Stretched and rotated Gaussian"
  | .albersEqualArea => "Albers"
  | .gnomonic => "Gnomonic"
  | .lambert => "Lambert"
  | .obliqueLambertConformal => "Oblique Lambert conic"
  | .mercator => "Mercator"
  | .sphericalHarmonicCoefficients => "Spherical harmonic coefficients (no modifications)"
  | .rotatedSphericalHarmonicCoefficients => "Rotated spherical harmonic coefficients"
  | .stretchedSphericalHarmonicCoefficients => "Stretched spherical harmonic coefficients"
  | .stretchedRotatedSphericalHarmonicCoefficients => "Stretched and rotated spherical harmonic coefficients"
  | .millersCylindr => "Millers"
  | .simplePolyconic => "Simple polyconic"
  | .polarStereographProj => "Polar"
  | .spaceView => "Spatial"
  | .utm => "UTM"
  | .undefGrid => ""

/-- `grid_to_abbr` -/
def RepresentationType.toAbbr : RepresentationType → String
  | .latLonGridEquidistCylindr => "Cylindr"
  | .rotatedLatLon => "rCylindr"
  | .stretchedLatLon => "sCylindr"
  | .stretchedAndRotatedLatLon => "srCylindr"
  | .gaussian => "Gauss"
  | .rotatedGaussianLatLon => "rGauss"
  | .stretchedGaussianLatLon => "sGauss"
  | .stretchedRotatedGaussianLatLon => "srGauss"
  | .albersEqualArea => "Albers"
  | .gnomonic => "Gnomonic"
  | .lambert => "Lambert"
  | .obliqueLambertConformal => "LambertConformal"
  | .mercator => "Merc"
  | .sphericalHarmonicCoefficients => "SpherHarmCoef"
  | .rotatedSphericalHarmonicCoefficients => "rSpherHarmCoef"
  | .stretchedSphericalHarmonicCoefficients => "sSpherHarmCoef"
  | .stretchedRotatedSphericalHarmonicCoefficients => "srSpherHarmCoef"
  | .millersCylindr => "Millers"
  | .simplePolyconic => "SimpPolyCon"
  | .polarStereographProj => "Polar"
  | .spaceView => "Spatial"
  | .utm => "UTM"
  | .undefGrid => ""

/-- The grids by their octets; where there is none, the text and the abbreviation are empty. -/
def gridTable : CodeTable where
  abbrToCode name := (List.finRange 256).find? fun i =>
    ((RepresentationType.ofOctet i).elim "" RepresentationType.toAbbr).toList = name
  text i := ((RepresentationType.ofOctet i).elim "" RepresentationType.toText).toList

/-- **A grid is set exactly where it is the only one that each word of the option names**, by the abbreviation or, if
the word is no abbreviation, by a part of the text. -/
theorem gridNotifier_ok_iff (input : List (List Char)) (i : Fin 256) :
    gridTable.gridNotifier input = .ok i ↔ input.flatMap splitView ≠ [] ∧
      ∀ j, (∀ word ∈ input.flatMap splitView, gridTable.accepts word j = true) ↔ j = i := by
  rw [CodeTable.gridNotifier, CodeTable.onlyOne_eq_ok, CodeTable.multitokenApproxMatch_eq_singleton]

/-- **A center is set exactly where it is the only one that each string of the option names.** -/
theorem centerNotifier_ok_iff (tbl : CodeTable) (input : List (List Char)) (i : Fin 256) :
    tbl.centerNotifier input = .ok i ↔ input ≠ [] ∧
      ∀ j, (∀ token ∈ input, tbl.accepts token j = true) ↔ j = i := by
  rw [CodeTable.centerNotifier, CodeTable.onlyOne_eq_ok, CodeTable.multitokenApproxMatch_eq_singleton]

/-! ## Parameters -/

namespace SearchParamTableVersion

/-- `operator<` -/
def Lt (a b : SearchParamTableVersion) : Prop := if a.tVer ≠ b.tVer then a.tVer < b.tVer else a.param < b.param

theorem lt_iff {a b : SearchParamTableVersion} :
    Lt a b ↔ a.tVer < b.tVer ∨ a.tVer = b.tVer ∧ a.param < b.param := by
  unfold Lt
  by_cases h : a.tVer = b.tVer
  · simp [h]
  · simp [h]

instance : DecidableRel Lt := fun _ _ => decidable_of_iff _ lt_iff.symm

instance : IsStrictTotalOrder SearchParamTableVersion Lt where
  irrefl a h := by
    rw [lt_iff] at h
    omega
  trans a b c h h' := by
    rw [lt_iff] at h h' ⊢
    omega
  trichotomous a b h h' := by
    rw [lt_iff] at h h'
    obtain ⟨p, t⟩ := a
    obtain ⟨p', t'⟩ := b
    simp only [mk.injEq] at h h' ⊢
    omega

/-- The tables in turn, each with its parameters. -/
def all : List SearchParamTableVersion :=
  (List.range 256).flatMap fun tVer => (List.range 256).map fun param => { param, tVer }

theorem all_pairwise : all.Pairwise Lt := by
  refine List.pairwise_flatMap.mpr ⟨fun t _ => List.pairwise_map.mpr ?_, ?_⟩
  · refine List.pairwise_lt_range.imp fun {p p'} h => ?_
    exact lt_iff.mpr (.inr ⟨rfl, h⟩)
  · refine List.pairwise_lt_range.imp fun {t t'} h a ha b hb => ?_
    obtain ⟨p, -, rfl⟩ := List.mem_map.mp ha
    obtain ⟨p', -, rfl⟩ := List.mem_map.mp hb
    exact lt_iff.mpr (.inl h)

end SearchParamTableVersion

/-- `ParmTable` -/
structure ParmTable where
  name : List Char
  comment : List Char

/-- `boost::iequals` -/
def iequals (s t : List Char) : Bool := s.map Char.toUpper = t.map Char.toUpper

/-- Whether `boost::ifind_first` finds something: never for an empty string. -/
def ifindFirst (s t : List Char) : Bool := t ≠ [] ∧ t.map Char.toUpper <:+: s.map Char.toUpper

/-- What a token begins with that takes its matches away. -/
def minus : List Char := "'-".toList

/-- What is in a union made in a loop. -/
theorem mem_foldl_union {α β : Type} [DecidableEq α] {f : β → Finset α} {l : List β} {s : Finset α} {a : α} :
    a ∈ l.foldl (fun s x => s ∪ f x) s ↔ a ∈ s ∨ ∃ x ∈ l, a ∈ f x := by
  induction l generalizing s with
  | nil => simp
  | cons x l ih =>
    rw [List.foldl_cons, ih, Finset.mem_union]
    simp [or_assoc]

section Parameters

-- `parameter_table` of a center, by the version of the table
variable (table : ℕ → ℕ → Option ParmTable)

/-- The parameter has the token as its name, or in its comment. -/
def acceptsParameter (token : List Char) (a : SearchParamTableVersion) : Bool :=
  match table a.tVer a.param with
  | some entry => iequals entry.name token || ifindFirst entry.comment token
  | none => false

/-- `approx_match_parameter` -/
def approxMatchParameter (token : List Char) : List SearchParamTableVersion :=
  SearchParamTableVersion.all.filter (acceptsParameter table token)

/-- The loop of `multitoken_approx_match_parameter`, without a list until a token has been searched for. -/
def parameterLoop : List (List Char) → Option (List SearchParamTableVersion) → List SearchParamTableVersion
  | [], found => found.getD []
  | token :: tokens, none =>
    if token = [] then parameterLoop tokens none else parameterLoop tokens (some (approxMatchParameter table token))
  | token :: tokens, some found =>
    if found = [] then found
    else if token = [] then parameterLoop tokens (some found)
    else if minus <+: token then
      parameterLoop tokens
        (some (SortedSets.setDifference SearchParamTableVersion.Lt found (approxMatchParameter table (token.drop 2))))
    else
      parameterLoop tokens
        (some (SortedSets.setIntersection SearchParamTableVersion.Lt found (approxMatchParameter table token)))

def multitokenApproxMatchParameter (tokens : List (List Char)) : List SearchParamTableVersion :=
  parameterLoop table tokens none

/-- `param_by_tv_abbr` -/
def paramByTvAbbr (input : List (List Char)) : Finset SearchParamTableVersion :=
  input.foldl (fun result string =>
    let parameters := multitokenApproxMatchParameter table (splitView string)
    if parameters = [] then result else result ∪ parameters.toFinset) ∅

/-- The notifier of `--parameters`, which splits what it passes on. -/
def parametersNotifier (input : List (List Char)) : Finset SearchParamTableVersion :=
  input.foldl (fun parameters part => parameters ∪ paramByTvAbbr table (splitView part)) ∅

variable {table}

/-- What a token that is not the first one leaves. -/
def selects (table : ℕ → ℕ → Option ParmTable) (token : List Char) (a : SearchParamTableVersion) : Bool :=
  if token = [] then true
  else if minus <+: token then !acceptsParameter table (token.drop 2) a
  else acceptsParameter table token a

theorem mem_approxMatchParameter {token : List Char} {a : SearchParamTableVersion} :
    a ∈ approxMatchParameter table token ↔
      a ∈ SearchParamTableVersion.all ∧ acceptsParameter table token a = true := List.mem_filter

theorem approxMatchParameter_pairwise (token : List Char) :
    (approxMatchParameter table token).Pairwise SearchParamTableVersion.Lt :=
  SearchParamTableVersion.all_pairwise.filter _

theorem parameterLoop_some (tokens : List (List Char)) {found : List SearchParamTableVersion}
    (h : found.Pairwise SearchParamTableVersion.Lt) (hall : ∀ a ∈ found, a ∈ SearchParamTableVersion.all) :
    parameterLoop table tokens (some found) = found.filter fun a => tokens.all fun token => selects table token a := by
  induction tokens generalizing found with
  | nil => simp [parameterLoop]
  | cons token tokens ih =>
    unfold parameterLoop
    split_ifs with hfound hempty hminus
    · rw [hfound]
      rfl
    · rw [ih h hall]
      simp [selects, hempty]
    · rw [SortedSets.setDifference_eq h (approxMatchParameter_pairwise _),
        ih (h.filter _) fun a ha => hall a (List.mem_of_mem_filter ha), List.filter_filter]
      refine List.filter_congr fun a ha => ?_
      simp [selects, hempty, hminus, mem_approxMatchParameter, hall a ha, Bool.and_comm]
    · rw [SortedSets.setIntersection_eq h (approxMatchParameter_pairwise _),
        ih (h.filter _) fun a ha => hall a (List.mem_of_mem_filter ha), List.filter_filter]
      refine List.filter_congr fun a ha => ?_
      simp [selects, hempty, hminus, mem_approxMatchParameter, hall a ha, Bool.and_comm]

/-- An empty token leaves what there is. -/
theorem all_selects_filter (tokens : List (List Char)) (a : SearchParamTableVersion) :
    ((tokens.filter (· ≠ [])).all fun token => selects table token a) =
      tokens.all fun token => selects table token a := by
  induction tokens with
  | nil => rfl
  | cons token tokens ih =>
    by_cases hempty : token = []
    · rw [List.filter_cons_of_neg (by simpa using hempty), ih, List.all_cons, hempty]
      simp [selects]
    · rw [List.filter_cons_of_pos (by simpa using hempty), List.all_cons, List.all_cons, ih]

/-- **What is found for several tokens**: the parameters that the first one matches that is not empty, as far as the
others match them, less what those after a minus match. -/
theorem multitokenApproxMatchParameter_eq (tokens : List (List Char)) :
    multitokenApproxMatchParameter table tokens =
      match tokens.filter (· ≠ []) with
      | [] => []
      | first :: rest => SearchParamTableVersion.all.filter fun a =>
          acceptsParameter table first a && rest.all fun token => selects table token a := by
  unfold multitokenApproxMatchParameter
  induction tokens with
  | nil => rfl
  | cons token tokens ih =>
    unfold parameterLoop
    by_cases hempty : token = []
    · rw [if_pos hempty, ih, List.filter_cons_of_neg (by simpa using hempty)]
    · rw [if_neg hempty, parameterLoop_some _ (approxMatchParameter_pairwise token)
        fun a ha => (mem_approxMatchParameter.mp ha).1, List.filter_cons_of_pos (by simpa using hempty)]
      show (SearchParamTableVersion.all.filter _).filter _ = SearchParamTableVersion.all.filter _
      rw [List.filter_filter]
      refine List.filter_congr fun a _ => ?_
      rw [all_selects_filter, Bool.and_comm]

/-- A word alone is searched for as it is, with a minus too. -/
theorem multitokenApproxMatchParameter_word {word : List Char} (h : word ≠ []) :
    multitokenApproxMatchParameter table [word] = approxMatchParameter table word := by
  simp [multitokenApproxMatchParameter, parameterLoop, h]

/-- What several strings give together. -/
theorem mem_paramByTvAbbr {input : List (List Char)} {a : SearchParamTableVersion} :
    a ∈ paramByTvAbbr table input ↔ ∃ s ∈ input, a ∈ multitokenApproxMatchParameter table (splitView s) := by
  have hunion : paramByTvAbbr table input = input.foldl (fun result s =>
      result ∪ (multitokenApproxMatchParameter table (splitView s)).toFinset) ∅ := by
    refine congrArg (fun f => input.foldl f ∅) (funext₂ fun result s => ?_)
    show (if _ then _ else _) = _
    split
    · rename_i h
      rw [h, List.toFinset_nil, Finset.union_empty]
    · rfl
  rw [hunion, mem_foldl_union]
  simp

/-- **The parameters that the option sets are those that any of its words matches, the words after a minus among
them.** -/
theorem mem_parametersNotifier (input : List (List Char)) (a : SearchParamTableVersion) :
    a ∈ parametersNotifier table input ↔ a ∈ SearchParamTableVersion.all ∧
      ∃ part ∈ input, ∃ word ∈ splitView part, word ≠ [] ∧ acceptsParameter table word a = true := by
  have hpart (part : List Char) : a ∈ paramByTvAbbr table (splitView part) ↔
      ∃ word ∈ splitView part, a ∈ SearchParamTableVersion.all ∧ word ≠ [] ∧ acceptsParameter table word a = true := by
    rw [mem_paramByTvAbbr]
    refine exists_congr fun word => and_congr_right fun hword => ?_
    by_cases hempty : word = []
    · simp [hempty, splitView, multitokenApproxMatchParameter, parameterLoop]
    · rw [splitView_word hword hempty, multitokenApproxMatchParameter_word hempty, mem_approxMatchParameter]
      simp [hempty]
  rw [parametersNotifier, mem_foldl_union]
  simp only [hpart, Finset.notMem_empty, false_or]
  constructor
  · rintro ⟨part, hinput, word, hword, hall, h⟩
    exact ⟨hall, part, hinput, word, hword, h⟩
  · rintro ⟨hall, part, hinput, word, hword, h⟩
    exact ⟨part, hinput, word, hword, hall, h⟩

end Parameters

end Mashroom
