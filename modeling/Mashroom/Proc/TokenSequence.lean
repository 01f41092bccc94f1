import Mashroom.Mapped

/-!
# Proc.TokenSequence — the parts of a directory tree

The tree of an index is told as a path of tokens, each of which has one or two names.  `input_to_token_sequence` takes
a first slash off, and then cuts the path at its slashes, name by name.  What it accepts are the names one after the
other with single slashes between them, and one slash before and after them or not (`IsSequence`).
-/

namespace Mashroom.IndexGen

/-- `DIR_TREE_TOKEN` -/
inductive DirTreeToken where
  | hour
  | day
  | month
  | year
  | latitude
  | longitude
  | latlon
  | grid
  deriving DecidableEq

/-! ## The code -/

/-- `token_to_txt_` -/
def tokenToTxt : DirTreeToken → List (List Char)
  | .hour => ["hour".toList, "hours".toList]
  | .day => ["day".toList, "days".toList]
  | .month => ["month".toList, "months".toList]
  | .year => ["year".toList, "years".toList]
  | .latitude => ["lat".toList, "latitude".toList]
  | .longitude => ["lon".toList, "longitude".toList]
  | .latlon => ["latlon".toList]
  | .grid => ["grid".toList]

/-- The keys of `token_to_txt_`. -/
def tokens : List DirTreeToken := [.hour, .day, .month, .year, .latitude, .longitude, .latlon, .grid]

/-- `txt_to_token_` -/
def txtToToken : List (List Char × DirTreeToken) :=
  tokens.flatMap fun token => (tokenToTxt token).map fun txt => (txt, token)

/-- `txt_to_token_.find` -/
def findToken (txt : List Char) : Option DirTreeToken := (txtToToken.find? fun entry => entry.1 = txt).map Prod.snd

/-- `path::preferred_separator` -/
def preferredSeparator : Char := '/'

/-- `sequence.find_first_of(preferred_separator)`, without a value for `npos`. -/
def findSeparator (sequence : List Char) : Option ℕ := sequence.findIdx? fun c => c = preferredSeparator

/-- `sequence.substr(0, pos_found)` -/
def firstPart (sequence : List Char) : Option ℕ → List Char
  | none => sequence
  | some posFound => sequence.take posFound

/-- The loop, for at most `fuel` turns. -/
def tokenLoop : ℕ → List Char → List DirTreeToken → Option (Except Fault (List DirTreeToken))
  | 0, _, _ => none
  | fuel + 1, sequence, result =>
    if sequence = [] then some (.ok result)
    else
      match findToken (firstPart sequence (findSeparator sequence)) with
      | none => some (.error .exception)
      | some found =>
        match findSeparator sequence with
        | none => some (.ok (result ++ [found]))
        | some posFound => tokenLoop fuel (sequence.drop (posFound + 1)) (result ++ [found])

/-- `input_to_token_sequence`, which throws what is no sequence. -/
def inputToTokenSequence (sequenceStr : List Char) (fuel : ℕ) : Option (Except Fault (List DirTreeToken)) :=
  tokenLoop fuel (if sequenceStr.head? = some preferredSeparator then sequenceStr.tail else sequenceStr) []

/-! ## What is written -/

/-- The names one after the other, with slashes between them. -/
def joined (names : List (List Char)) : List Char := [preferredSeparator].intercalate names

/-- `( token ('/' token)* '/'? )?` -/
inductive IsBody : List Char → List DirTreeToken → Prop
  | empty : IsBody [] []
  | names {names : List (List Char)} {tokens : List DirTreeToken} {trail : List Char} (hne : names ≠ [])
      (hnames : List.Forall₂ (fun name token => name ∈ tokenToTxt token) names tokens)
      (htrail : trail = [] ∨ trail = [preferredSeparator]) : IsBody (joined names ++ trail) tokens

/-- `'/'? ( token ('/' token)* '/'? )?`, where the tokens have these names. -/
def IsSequence (s : List Char) (tokens : List DirTreeToken) : Prop :=
  ∃ lead body, s = lead ++ body ∧ (lead = [] ∨ lead = [preferredSeparator]) ∧ IsBody body tokens

/-! ## Names -/

section Names

variable {name rest : List Char} {token : DirTreeToken}

/-- A name has characters, and none of them is a slash. -/
theorem name_spec (h : name ∈ tokenToTxt token) : name ≠ [] ∧ preferredSeparator ∉ name := by
  revert name
  cases token <;> decide

/-- The names are found, and only these. -/
theorem findToken_eq_some : findToken name = some token ↔ name ∈ tokenToTxt token := by
  constructor
  · intro h
    obtain ⟨entry, hentry, rfl⟩ := Option.map_eq_some_iff.mp h
    have hname : entry.1 = name := by simpa using List.find?_some hentry
    obtain ⟨token, -, hmem⟩ := List.mem_flatMap.mp (List.mem_of_find?_eq_some hentry)
    obtain ⟨txt, htxt, rfl⟩ := List.mem_map.mp hmem
    exact hname ▸ htxt
  · revert name
    cases token <;> decide

/-- Where the first slash is, after a text without one. -/
theorem findSeparator_append (h : preferredSeparator ∉ name) :
    findSeparator (name ++ preferredSeparator :: rest) = some name.length := by
  have hnone : name.findIdx? (fun c => c = preferredSeparator) = none := by
    rw [List.findIdx?_eq_none_iff]
    intro c hc
    rw [decide_eq_false_iff_not]
    rintro rfl
    exact h hc
  rw [findSeparator, List.findIdx?_append, hnone]
  simp [List.findIdx?_cons]

theorem findSeparator_eq_none (h : preferredSeparator ∉ name) : findSeparator name = none := by
  rw [findSeparator, List.findIdx?_eq_none_iff]
  intro c hc
  rw [decide_eq_false_iff_not]
  rintro rfl
  exact h hc

/-- The parts before and after the first slash. -/
theorem exists_of_findSeparator {s : List Char} {pos : ℕ} (h : findSeparator s = some pos) :
    s = s.take pos ++ preferredSeparator :: s.drop (pos + 1) := by
  obtain ⟨hlt, hpos, -⟩ := List.findIdx?_eq_some_iff_getElem.mp h
  have hget : s[pos] = preferredSeparator := by simpa using hpos
  rw [← hget, List.getElem_cons_drop, List.take_append_drop]

end Names

/-! ## Bodies, name by name -/

section Body

variable {name body s : List Char} {names : List (List Char)} {token : DirTreeToken} {toks : List DirTreeToken}

theorem joined_singleton : joined [name] = name := by
  simp [joined, List.intercalate]

theorem joined_cons (hne : names ≠ []) : joined (name :: names) = name ++ preferredSeparator :: joined names := by
  obtain ⟨next, names, rfl⟩ := List.exists_cons_of_ne_nil hne
  simp [joined, List.intercalate]

theorem IsBody.single (h : name ∈ tokenToTxt token) : IsBody name [token] := by
  have hbody : IsBody (joined [name] ++ []) [token] := .names (List.cons_ne_nil name []) (.cons h .nil) (.inl rfl)
  rwa [joined_singleton, List.append_nil] at hbody

/-- A name and a slash, before a body. -/
theorem IsBody.cons (h : name ∈ tokenToTxt token) (hbody : IsBody body toks) :
    IsBody (name ++ preferredSeparator :: body) (token :: toks) := by
  cases hbody with
  | empty =>
    have hslash := IsBody.names (List.cons_ne_nil name []) (.cons h .nil) (.inr rfl)
    rwa [joined_singleton] at hslash
  | names hne hnames htrail =>
    have hmore := IsBody.names (List.cons_ne_nil name _) (.cons h hnames) htrail
    rwa [joined_cons hne, List.append_assoc, List.cons_append] at hmore

/-- What a body is: nothing, a name, or a name and a slash before a body. -/
theorem IsBody.cases (h : IsBody s toks) : (s = [] ∧ toks = []) ∨
    (∃ token, s ∈ tokenToTxt token ∧ toks = [token]) ∨
    ∃ name token body rest, name ∈ tokenToTxt token ∧ IsBody body rest ∧
      s = name ++ preferredSeparator :: body ∧ toks = token :: rest := by
  cases h with
  | empty => exact .inl ⟨rfl, rfl⟩
  | @names names _ trail hne hnames htrail =>
    cases hnames with
    | nil => exact absurd rfl hne
    | @cons name token names rest hname hnames =>
      by_cases hnil : names = []
      · subst hnil
        cases hnames
        rw [joined_singleton]
        rcases htrail with rfl | rfl
        · exact .inr (.inl ⟨token, by rwa [List.append_nil], rfl⟩)
        · exact .inr (.inr ⟨name, token, [], [], hname, .empty, rfl, rfl⟩)
      · refine .inr (.inr ⟨name, token, _, rest, hname, .names hnil hnames htrail, ?_, rfl⟩)
        rw [joined_cons hnil, List.append_assoc, List.cons_append]

/-- A body does not begin with a slash. -/
theorem IsBody.head_ne (h : IsBody s toks) : s.head? ≠ some preferredSeparator := by
  have hname : ∀ {name rest : List Char} {token : DirTreeToken}, name ∈ tokenToTxt token →
      (name ++ rest).head? ≠ some preferredSeparator := by
    intro name rest token hmem hhead
    obtain ⟨hne, hslash⟩ := name_spec hmem
    rw [List.head?_append_of_ne_nil _ hne] at hhead
    exact hslash (List.mem_of_head? hhead)
  rcases h.cases with ⟨rfl, -⟩ | ⟨token, hmem, -⟩ | ⟨name, token, body, rest, hmem, -, rfl, -⟩
  · simp
  · rw [← List.append_nil s]
    exact hname hmem
  · exact hname hmem

end Body

/-! ## The loop -/

section Loop

variable {s name rest : List Char} {token : DirTreeToken} {toks result : List DirTreeToken} {fuel : ℕ}

theorem tokenLoop_nil : tokenLoop (fuel + 1) [] result = some (.ok result) := rfl

/-- A turn on the last name. -/
theorem tokenLoop_last (h : name ∈ tokenToTxt token) :
    tokenLoop (fuel + 1) name result = some (.ok (result ++ [token])) := by
  obtain ⟨hne, hslash⟩ := name_spec h
  rw [tokenLoop, if_neg hne, findSeparator_eq_none hslash, firstPart, findToken_eq_some.mpr h]

/-- A turn on a name before a slash. -/
theorem tokenLoop_cons (h : name ∈ tokenToTxt token) :
    tokenLoop (fuel + 1) (name ++ preferredSeparator :: rest) result = tokenLoop fuel rest (result ++ [token]) := by
  obtain ⟨-, hslash⟩ := name_spec h
  have hne : name ++ preferredSeparator :: rest ≠ [] := by simp
  have hrest : (name ++ preferredSeparator :: rest).drop (name.length + 1) = rest := by
    rw [List.append_cons]
    exact List.drop_left' (by rw [List.length_append, List.length_singleton])
  rw [tokenLoop, if_neg hne, findSeparator_append hslash, firstPart, List.take_left, findToken_eq_some.mpr h]
  simp only [hrest]

/-- The tokens of a body are taken. -/
theorem tokenLoop_of_isBody (h : IsBody s toks) (hfuel : s.length < fuel) :
    tokenLoop fuel s result = some (.ok (result ++ toks)) := by
  induction fuel generalizing s toks result with
  | zero => omega
  | succ fuel ih =>
    rcases h.cases with ⟨rfl, rfl⟩ | ⟨token, hmem, rfl⟩ | ⟨name, token, body, rest, hmem, hbody, rfl, rfl⟩
    · rw [tokenLoop_nil, List.append_nil]
    · exact tokenLoop_last hmem
    · rw [List.length_append, List.length_cons] at hfuel
      rw [tokenLoop_cons hmem, ih hbody (by omega), List.append_assoc, List.singleton_append]

/-- The loop ends: with the tokens of a body, or with an exception. -/
theorem tokenLoop_cases (s : List Char) (result : List DirTreeToken) (hfuel : s.length < fuel) :
    (∃ toks, IsBody s toks ∧ tokenLoop fuel s result = some (.ok (result ++ toks))) ∨
      tokenLoop fuel s result = some (.error .exception) := by
  induction fuel generalizing s result with
  | zero => omega
  | succ fuel ih =>
    by_cases hnil : s = []
    · subst hnil
      exact .inl ⟨[], .empty, by rw [tokenLoop_nil, List.append_nil]⟩
    · cases hfound : findToken (firstPart s (findSeparator s)) with
      | none =>
        right
        rw [tokenLoop, if_neg hnil, hfound]
      | some token =>
        have hmem := findToken_eq_some.mp hfound
        cases hpos : findSeparator s with
        | none =>
          rw [hpos, firstPart] at hmem
          exact .inl ⟨[token], .single hmem, tokenLoop_last hmem⟩
        | some pos =>
          rw [hpos, firstPart] at hmem
          have hsplit := exists_of_findSeparator hpos
          have hlength := congrArg List.length hsplit
          rw [List.length_append, List.length_cons] at hlength
          rw [hsplit]
          rw [tokenLoop_cons hmem]
          rcases ih (s.drop (pos + 1)) (result ++ [token]) (by omega) with ⟨toks, hbody, hloop⟩ | hloop
          · exact .inl ⟨token :: toks, .cons hmem hbody, by rw [hloop, List.append_assoc, List.singleton_append]⟩
          · exact .inr hloop

end Loop

/-- The text behind a first slash is a body exactly where the whole is a sequence. -/
theorem isSequence_iff {s : List Char} {toks : List DirTreeToken} :
    IsSequence s toks ↔ IsBody (if s.head? = some preferredSeparator then s.tail else s) toks := by
  constructor
  · rintro ⟨lead, body, rfl, rfl | rfl, hbody⟩
    · rw [List.nil_append, if_neg hbody.head_ne]
      exact hbody
    · rw [List.singleton_append, List.head?_cons, if_pos rfl]
      exact hbody
  · intro hbody
    split at hbody
    · rename_i hhead
      obtain ⟨body, rfl⟩ := List.head?_eq_some_iff.mp hhead
      exact ⟨[preferredSeparator], body, rfl, .inr rfl, hbody⟩
    · exact ⟨[], s, rfl, .inl rfl, hbody⟩

/-- **`input_to_token_sequence` returns the tokens of a sequence** in the order in which they are written, and throws on
every text that is no sequence, after as many turns as the text has characters and one more. -/
theorem inputToTokenSequence_iff (s : List Char) : ∃ r,
    (∀ fuel, s.length < fuel → inputToTokenSequence s fuel = some r) ∧
    (∀ toks, r = .ok toks ↔ IsSequence s toks) ∧ ((∀ toks, ¬ IsSequence s toks) → r = .error .exception) := by
  obtain ⟨body, hbody⟩ : ∃ body, body = if s.head? = some preferredSeparator then s.tail else s := ⟨_, rfl⟩
  have hlength : body.length ≤ s.length := by
    rw [hbody]
    split
    · rw [List.length_tail]
      exact Nat.sub_le _ _
    · exact Nat.le_refl _
  have hsequence : ∀ toks, IsSequence s toks ↔ IsBody body toks := fun toks => by rw [isSequence_iff, hbody]
  by_cases h : ∃ toks, IsBody body toks
  · obtain ⟨toks, h⟩ := h
    have hloop : ∀ {toks fuel}, IsBody body toks → s.length < fuel →
        inputToTokenSequence s fuel = some (.ok toks) := by
      intro toks fuel h hfuel
      rw [inputToTokenSequence, ← hbody, tokenLoop_of_isBody h (by omega), List.nil_append]
    refine ⟨.ok toks, fun fuel hfuel => hloop h hfuel, fun toks' => ?_, fun hno => ?_⟩
    · rw [hsequence]
      constructor
      · intro heq
        obtain rfl := Except.ok.inj heq
        exact h
      · intro h'
        have heq := (hloop h (Nat.lt_succ_self _)).symm.trans (hloop h' (Nat.lt_succ_self _))
        exact Option.some.inj heq
    · exact absurd ((hsequence toks).mpr h) (hno toks)
  · refine ⟨.error .exception, fun fuel hfuel => ?_, fun toks => ?_, fun _ => rfl⟩
    · rw [inputToTokenSequence, ← hbody]
      have hfuel : body.length < fuel := by omega
      rcases tokenLoop_cases body [] hfuel with ⟨toks, hbody', -⟩ | hloop
      · exact absurd ⟨toks, hbody'⟩ h
      · exact hloop
    · rw [hsequence]
      constructor
      · intro heq
        cases heq
      · intro hbody'
        exact absurd ⟨toks, hbody'⟩ h

example : inputToTokenSequence "/year/lat/".toList 11 = some (.ok [.year, .latitude]) := rfl

example : inputToTokenSequence "year//lat".toList 10 = some (.error .exception) := rfl

end Mashroom.IndexGen
