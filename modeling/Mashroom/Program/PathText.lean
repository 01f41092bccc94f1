import Mashroom.Lib.Decimal
import Mashroom.Lib.TextStream
import Mashroom.Sys.PathOrder
import Mashroom.Sys.ServerOptions

/-!
# Program.PathText — paths in the options

The option `inp` of the index command takes a directory, a file, or a host with its port.  A `PathText` is a text that
the expression matches, in the one way in which it does (`fullMatch_eq_some_iff`).  Of these texts a directory or a file
is always taken, with the home directory for `~/`, and a host if its address is correct and its port fits into 16 bits
(`cast_eq_ok_iff`).
-/

namespace Mashroom

/-- A character of `[0-9.]` -/
def isAddressChar (c : Char) : Bool := c.isDigit || c = '.'

/-- A text that the expression matches. -/
inductive PathText where
  /-- `dir=…` or `file=…` -/
  | place (isDirectory : Bool) (path : FsPath) (ne : path ≠ [])
  /-- `host=…:…` -/
  | host (name digits : List Char) (hname : name ≠ [] ∧ ∀ c ∈ name, isAddressChar c = true)
      (hdigits : (digits ≠ [] ∧ digits.length ≤ 5) ∧ ∀ c ∈ digits, c.isDigit = true)

namespace PathText

/-- What the process is told. -/
structure Env where
  /-- `getenv("HOME")` -/
  home : Option FsPath
  addresses : ServerConfigOptions.Addresses
  /-- `boost::lexical_cast<uint16_t>`, without a value where it throws -/
  lexicalCast : List Char → Option ℕ

/-- Numbers that fit into 16 bits are read. -/
def Env.Documented (env : Env) : Prop := ∀ digits : List Char, digits ≠ [] → (∀ c ∈ digits, c.isDigit = true) →
  env.lexicalCast digits = if Decimal.number digits ≤ 65535 then some (Decimal.number digits) else none

/-- What leaves `lexical_cast`. -/
inductive Thrown where
  | validationError
  /-- a string is made of the null pointer that `getenv` gives -/
  | nullString
  deriving DecidableEq

/-! ## The code -/

/-- The expression.  The whole text is matched, so that the anchors in the source change nothing. -/
def pathRegex : Regex :=
  .alt
    (.group 1 (.seq (.group 2 (.alt (.text "dir".toList) (.text "file".toList)))
      (.seq (.text ['=']) (.group 3 (.some fun _ => true)))))
    (.group 4 (.seq (.text "host=".toList) (.seq (.group 5 (.some isAddressChar))
      (.seq (.text [':']) (.group 6 (.seq (.one Char.isDigit) (.upTo Char.isDigit 4)))))))

section Code

variable (env : Env) (now : ℤ)

/-- A path that starts with `~/` is one in the home directory. -/
def withHome (path : FsPath) : Except Thrown FsPath :=
  if "~/".toList <+: path then
    match env.home with
    | some home => .ok (home ++ '/' :: path.drop 2)
    | none => .error .nullString
  else .ok path

/-- What is made of the groups. -/
def castGroups (m : Regex.Groups) : Except Thrown PathStorage :=
  if m.get 1 ≠ [] then
    if m.get 3 ≠ [] then do
      let path ← withHome env (m.get 3)
      if m.get 2 = "dir".toList then return .directory path now
      else if m.get 2 = "file".toList then return .file path now
      else throw .validationError
    else .error .validationError
  else if m.get 5 ≠ [] ∧ m.get 6 ≠ [] then
    if env.addresses.isCorrect (m.get 5) then
      match env.lexicalCast (m.get 6) with
      | some port => .ok (.host (m.get 5) port now)
      | none => .error .validationError
    else .error .validationError
  else .error .validationError

/-- `lexical_cast<path::Storage<false>>` -/
def cast (input : List Char) : Except Thrown PathStorage :=
  match pathRegex.fullMatch input with
  | some m => castGroups env now m
  | none => .error .validationError

/-- `lexical_cast<std::vector<path::Storage<false>>>` -/
def castAll (input : List (List Char)) : Except Thrown (List PathStorage) := input.mapM (cast env now)

end Code

/-! ## The texts that are matched -/

/-- The word before the equals sign. -/
def word (isDirectory : Bool) : List Char := if isDirectory then "dir".toList else "file".toList

def text : PathText → List Char
  | place isDirectory path _ => word isDirectory ++ '=' :: path
  | host name digits _ _ => "host=".toList ++ (name ++ ':' :: digits)

def groups : PathText → Regex.Groups
  | place isDirectory path _ => [(1, word isDirectory ++ '=' :: path), (2, word isDirectory), (3, path)]
  | host name digits _ _ => [(4, "host=".toList ++ (name ++ ':' :: digits)), (5, name), (6, digits)]

section Match

variable {s : List Char} {g : Regex.Groups}

theorem derives_word {w : List Char} : Regex.Derives (.alt (.text "dir".toList) (.text "file".toList)) w g ↔
    (∃ isDirectory, w = word isDirectory) ∧ g = [] := by
  rw [Regex.derives_alt, Regex.derives_text, Regex.derives_text]
  constructor
  · rintro (⟨rfl, rfl⟩ | ⟨rfl, rfl⟩)
    · exact ⟨⟨true, rfl⟩, rfl⟩
    · exact ⟨⟨false, rfl⟩, rfl⟩
  · rintro ⟨⟨isDirectory, rfl⟩, rfl⟩
    cases isDirectory
    · exact .inr ⟨rfl, rfl⟩
    · exact .inl ⟨rfl, rfl⟩

/-- `[0-9]{1,5}` -/
theorem derives_port {w : List Char} : Regex.Derives (.seq (.one Char.isDigit) (.upTo Char.isDigit 4)) w g ↔
    ((w ≠ [] ∧ w.length ≤ 5) ∧ ∀ c ∈ w, c.isDigit = true) ∧ g = [] := by
  rw [Regex.derives_seq]
  constructor
  · rintro ⟨w₁, g₁, w₂, g₂, h₁, h₂, rfl, rfl⟩
    obtain ⟨⟨c, hc, rfl⟩, rfl⟩ := Regex.derives_one.mp h₁
    obtain ⟨⟨hlen, hall⟩, rfl⟩ := Regex.derives_upTo.mp h₂
    exact ⟨⟨⟨List.cons_ne_nil c w₂, Nat.succ_le_succ hlen⟩, List.forall_mem_cons.mpr ⟨hc, hall⟩⟩, rfl⟩
  · rintro ⟨⟨⟨hne, hlen⟩, hall⟩, rfl⟩
    obtain ⟨c, w, rfl⟩ := List.exists_cons_of_ne_nil hne
    obtain ⟨hc, hall⟩ := List.forall_mem_cons.mp hall
    exact ⟨[c], [], w, [], .one hc, Regex.derives_upTo.mpr ⟨⟨Nat.le_of_succ_le_succ hlen, hall⟩, rfl⟩, rfl, rfl⟩

theorem derives_place : Regex.Derives (.group 1 (.seq (.group 2 (.alt (.text "dir".toList) (.text "file".toList)))
      (.seq (.text ['=']) (.group 3 (.some fun _ => true))))) s g ↔
    ∃ isDirectory path ne, s = text (place isDirectory path ne) ∧ g = groups (place isDirectory path ne) := by
  rw [Regex.derives_group]
  constructor
  · rintro ⟨g', h, rfl⟩
    obtain ⟨w₁, g₁, w₂, g₂, h₁, h₂, rfl, rfl⟩ := Regex.derives_seq.mp h
    obtain ⟨g₃, h₃, rfl⟩ := Regex.derives_group.mp h₁
    obtain ⟨⟨isDirectory, rfl⟩, rfl⟩ := derives_word.mp h₃
    obtain ⟨w₄, g₄, w₅, g₅, h₄, h₅, rfl, rfl⟩ := Regex.derives_seq.mp h₂
    obtain ⟨rfl, rfl⟩ := Regex.derives_text.mp h₄
    obtain ⟨g₆, h₆, rfl⟩ := Regex.derives_group.mp h₅
    obtain ⟨⟨hne, -⟩, rfl⟩ := Regex.derives_some.mp h₆
    exact ⟨isDirectory, w₅, hne, rfl, rfl⟩
  · rintro ⟨isDirectory, path, hne, rfl, rfl⟩
    refine ⟨[(2, word isDirectory), (3, path)], ?_, rfl⟩
    have hword : Regex.Derives (.group 2 (.alt (.text "dir".toList) (.text "file".toList))) (word isDirectory)
        [(2, word isDirectory)] := .group (derives_word.mpr ⟨⟨isDirectory, rfl⟩, rfl⟩)
    have hpath : Regex.Derives (.group 3 (.some fun _ => true)) path [(3, path)] :=
      .group (Regex.derives_some.mpr ⟨⟨hne, fun _ _ => rfl⟩, rfl⟩)
    exact .seq hword (.seq (.text ['=']) hpath)

theorem derives_host : Regex.Derives (.group 4 (.seq (.text "host=".toList) (.seq (.group 5 (.some isAddressChar))
      (.seq (.text [':']) (.group 6 (.seq (.one Char.isDigit) (.upTo Char.isDigit 4))))))) s g ↔
    ∃ name digits hname hdigits, s = text (host name digits hname hdigits) ∧
      g = groups (host name digits hname hdigits) := by
  rw [Regex.derives_group]
  constructor
  · rintro ⟨g', h, rfl⟩
    obtain ⟨w₁, g₁, w₂, g₂, h₁, h₂, rfl, rfl⟩ := Regex.derives_seq.mp h
    obtain ⟨rfl, rfl⟩ := Regex.derives_text.mp h₁
    obtain ⟨w₃, g₃, w₄, g₄, h₃, h₄, rfl, rfl⟩ := Regex.derives_seq.mp h₂
    obtain ⟨g₅, h₅, rfl⟩ := Regex.derives_group.mp h₃
    obtain ⟨hname, rfl⟩ := Regex.derives_some.mp h₅
    obtain ⟨w₆, g₆, w₇, g₇, h₆, h₇, rfl, rfl⟩ := Regex.derives_seq.mp h₄
    obtain ⟨rfl, rfl⟩ := Regex.derives_text.mp h₆
    obtain ⟨g₈, h₈, rfl⟩ := Regex.derives_group.mp h₇
    obtain ⟨hdigits, rfl⟩ := derives_port.mp h₈
    exact ⟨w₃, w₇, hname, hdigits, rfl, rfl⟩
  · rintro ⟨name, digits, hname, hdigits, rfl, rfl⟩
    refine ⟨[(5, name), (6, digits)], ?_, rfl⟩
    have hn : Regex.Derives (.group 5 (.some isAddressChar)) name [(5, name)] :=
      .group (Regex.derives_some.mpr ⟨hname, rfl⟩)
    have hd : Regex.Derives (.group 6 (.seq (.one Char.isDigit) (.upTo Char.isDigit 4))) digits [(6, digits)] :=
      .group (derives_port.mpr ⟨hdigits, rfl⟩)
    exact .seq (.text "host=".toList) (.seq hn (.seq (.text [':']) hd))

/-- What is matched, and with which groups. -/
theorem derives_pathRegex : Regex.Derives pathRegex s g ↔ ∃ t : PathText, s = t.text ∧ g = t.groups := by
  rw [pathRegex, Regex.derives_alt, derives_place, derives_host]
  constructor
  · rintro (⟨isDirectory, path, hne, hs, hg⟩ | ⟨name, digits, hname, hdigits, hs, hg⟩)
    · exact ⟨.place isDirectory path hne, hs, hg⟩
    · exact ⟨.host name digits hname hdigits, hs, hg⟩
  · rintro ⟨t, hs, hg⟩
    cases t with
    | place isDirectory path hne => exact .inl ⟨isDirectory, path, hne, hs, hg⟩
    | host name digits hname hdigits => exact .inr ⟨name, digits, hname, hdigits, hs, hg⟩

theorem colon_notMem {name : List Char} (h : ∀ c ∈ name, isAddressChar c = true) : ':' ∉ name :=
  fun hmem => absurd (h ':' hmem) (by decide)

/-- A text is matched in one way. -/
theorem text_injective {t t' : PathText} (h : t.text = t'.text) : t = t' := by
  cases t with
  | place isDirectory path hne =>
    cases t' with
    | place isDirectory' path' hne' =>
      have hword : ∀ b, '=' ∉ word b := by decide
      obtain ⟨hw, rfl⟩ := TextStream.append_cons_inj (hword isDirectory) (hword isDirectory') h
      have hb : isDirectory = isDirectory' := by
        revert hw
        cases isDirectory <;> cases isDirectory' <;> decide
      rw [hb]
    | host name digits hname hdigits =>
      have hhead := congrArg List.head? h
      cases isDirectory <;> simp [text, word] at hhead
  | host name digits hname hdigits =>
    cases t' with
    | place isDirectory path hne =>
      have hhead := congrArg List.head? h
      cases isDirectory <;> simp [text, word] at hhead
    | host name' digits' hname' hdigits' =>
      obtain ⟨rfl, rfl⟩ := TextStream.append_cons_inj (colon_notMem hname.2) (colon_notMem hname'.2)
        (List.append_cancel_left h)
      rfl

/-- **The matches** are the texts, each with its own groups. -/
theorem fullMatch_eq_some_iff : pathRegex.fullMatch s = some g ↔ ∃ t : PathText, s = t.text ∧ g = t.groups := by
  constructor
  · exact fun h => derives_pathRegex.mp (Regex.derives_of_fullMatch h)
  · rintro ⟨t, rfl, rfl⟩
    obtain ⟨g', hg'⟩ := Regex.fullMatch_of_derives (derives_pathRegex.mpr ⟨t, rfl, rfl⟩)
    obtain ⟨t', ht', rfl⟩ := derives_pathRegex.mp (Regex.derives_of_fullMatch hg')
    rw [hg', text_injective ht']

end Match

/-! ## What is read -/

/-- What a text asks for, if it is taken. -/
def asked (env : Env) : PathText → Option InPath
  | place isDirectory path _ =>
    (withHome env path).toOption.map fun p => if isDirectory then .directory p else .file p
  | host name digits _ _ =>
    if env.addresses.isCorrect name = true ∧ Decimal.number digits ≤ 65535 then
      some (.host name (Decimal.number digits))
    else none

section Read

variable {env : Env} {now : ℤ} {s : List Char} {a : PathStorage}

theorem cast_text (t : PathText) : cast env now t.text = castGroups env now t.groups := by
  rw [cast, fullMatch_eq_some_iff.mpr ⟨t, rfl, rfl⟩]

/-- A text that is not matched is not valid. -/
theorem cast_of_not_text (h : ¬ ∃ t : PathText, s = t.text) : cast env now s = .error .validationError := by
  rw [cast]
  cases hmatch : pathRegex.fullMatch s with
  | none => rfl
  | some g =>
    obtain ⟨t, ht, -⟩ := fullMatch_eq_some_iff.mp hmatch
    exact absurd ⟨t, ht⟩ h

theorem castGroups_place (isDirectory : Bool) {path : FsPath} (hne : path ≠ []) :
    castGroups env now (groups (place isDirectory path hne)) = (withHome env path).map fun p =>
      if isDirectory then .directory p now else .file p now := by
  have hall : (groups (place isDirectory path hne)).get 1 ≠ [] := by
    cases isDirectory <;> exact List.cons_ne_nil _ _
  have hword : (groups (place isDirectory path hne)).get 2 = word isDirectory := rfl
  have hpath : (groups (place isDirectory path hne)).get 3 = path := rfl
  rw [castGroups, if_pos hall, hword, hpath, if_pos hne]
  cases withHome env path with
  | error e => rfl
  | ok p =>
    cases isDirectory <;> rfl

theorem castGroups_host (hdoc : env.Documented) {name digits : List Char}
    (hname : name ≠ [] ∧ ∀ c ∈ name, isAddressChar c = true)
    (hdigits : (digits ≠ [] ∧ digits.length ≤ 5) ∧ ∀ c ∈ digits, c.isDigit = true) :
    castGroups env now (groups (host name digits hname hdigits)) =
      if env.addresses.isCorrect name = true ∧ Decimal.number digits ≤ 65535 then
        .ok (.host name (Decimal.number digits) now) else .error .validationError := by
  have hnone : ¬ (groups (host name digits hname hdigits)).get 1 ≠ [] := not_not.mpr rfl
  have hparts : (groups (host name digits hname hdigits)).get 5 ≠ [] ∧
      (groups (host name digits hname hdigits)).get 6 ≠ [] := ⟨hname.1, hdigits.1.1⟩
  have hcast : env.lexicalCast ((groups (host name digits hname hdigits)).get 6) =
      if Decimal.number digits ≤ 65535 then some (Decimal.number digits) else none :=
    hdoc digits hdigits.1.1 hdigits.2
  have haddress : (groups (host name digits hname hdigits)).get 5 = name := rfl
  rw [castGroups, if_neg hnone, if_pos hparts, hcast, haddress]
  by_cases hcorrect : env.addresses.isCorrect name = true
  · by_cases hport : Decimal.number digits ≤ 65535
    · rw [if_pos hcorrect, if_pos hport, if_pos ⟨hcorrect, hport⟩]
    · rw [if_pos hcorrect, if_neg hport, if_neg fun h => hport h.2]
  · rw [if_neg hcorrect, if_neg fun h => hcorrect h.1]

/-- **A text is taken** for what it asks for. -/
theorem cast_eq_ok_iff (hdoc : env.Documented) :
    cast env now s = .ok a ↔ ∃ (t : PathText) (x : InPath), s = t.text ∧ t.asked env = some x ∧ a = x.storage now := by
  by_cases hs : ∃ t : PathText, s = t.text
  · obtain ⟨t, rfl⟩ := hs
    have hone : (∃ (t' : PathText) (x : InPath), t.text = t'.text ∧ t'.asked env = some x ∧ a = x.storage now) ↔
        ∃ x : InPath, t.asked env = some x ∧ a = x.storage now := by
      constructor
      · rintro ⟨t', x, ht, hx⟩
        rw [text_injective ht]
        exact ⟨x, hx⟩
      · rintro ⟨x, hx⟩
        exact ⟨t, x, rfl, hx⟩
    rw [cast_text, hone]
    cases t with
    | place isDirectory path hne =>
      rw [castGroups_place, asked]
      cases withHome env path with
      | error e =>
        constructor
        · intro h
          cases h
        · rintro ⟨x, hx, -⟩
          cases hx
      | ok p =>
        cases isDirectory <;> simp [Except.map, Except.toOption, InPath.storage, eq_comm]
    | host name digits hname hdigits =>
      rw [castGroups_host hdoc, asked]
      split
      · simp [InPath.storage, eq_comm]
      · simp
  · rw [cast_of_not_text hs]
    constructor
    · intro h
      cases h
    · rintro ⟨t, x, ht, -⟩
      exact absurd ⟨t, ht⟩ hs

/-- Without a home directory a place in it ends the program. -/
theorem cast_eq_nullString_iff (hdoc : env.Documented) : cast env now s = .error .nullString ↔
    env.home = none ∧ ∃ isDirectory path ne, s = text (place isDirectory path ne) ∧ "~/".toList <+: path := by
  constructor
  · intro h
    by_cases hs : ∃ t : PathText, s = t.text
    · obtain ⟨t, rfl⟩ := hs
      rw [cast_text] at h
      cases t with
      | place isDirectory path hne =>
        rw [castGroups_place, withHome] at h
        by_cases hhome : "~/".toList <+: path
        · rw [if_pos hhome] at h
          cases henv : env.home with
          | none => exact ⟨rfl, isDirectory, path, hne, rfl, hhome⟩
          | some home =>
            rw [henv] at h
            cases h
        · rw [if_neg hhome] at h
          cases h
      | host name digits hname hdigits =>
        rw [castGroups_host hdoc] at h
        split at h <;> cases h
    · rw [cast_of_not_text hs] at h
      cases h
  · rintro ⟨henv, isDirectory, path, hne, rfl, hhome⟩
    rw [cast_text, castGroups_place, withHome, if_pos hhome, henv]
    rfl

theorem withHome_ne_nil {path p : FsPath} (hne : path ≠ []) (h : withHome env path = .ok p) : p ≠ [] := by
  unfold withHome at h
  by_cases hhome : "~/".toList <+: path
  · rw [if_pos hhome] at h
    cases henv : env.home with
    | none =>
      rw [henv] at h
      cases h
    | some home =>
      rw [henv] at h
      cases h
      exact List.append_ne_nil_of_right_ne_nil _ (List.cons_ne_nil _ _)
  · rw [if_neg hhome] at h
    cases h
    exact hne

/-- No text is taken for an empty path. -/
theorem path_ne_nil (hdoc : env.Documented) (h : cast env now s = .ok a) : a.path ≠ [] := by
  obtain ⟨t, x, -, hx, rfl⟩ := (cast_eq_ok_iff hdoc).mp h
  cases t with
  | place isDirectory path hne =>
    rw [asked] at hx
    cases hhome : withHome env path with
    | error e =>
      rw [hhome] at hx
      cases hx
    | ok p =>
      rw [hhome] at hx
      cases hx
      cases isDirectory <;> exact withHome_ne_nil hne hhome
  | host name digits hname hdigits =>
    rw [asked] at hx
    split at hx
    · cases hx
      exact hname.1
    · cases hx

/-- All texts of an option are taken, or none is. -/
theorem castAll_eq_ok (hdoc : env.Documented) {input : List (List Char)} {as : List PathStorage}
    (h : castAll env now input = .ok as) : ∃ xs : List InPath, as = xs.map (InPath.storage now) ∧
      List.Forall₂ (fun s x => ∃ t : PathText, s = t.text ∧ t.asked env = some x) input xs := by
  have hall := mapM_eq_ok.mp h
  clear h
  induction hall with
  | nil => exact ⟨[], rfl, .nil⟩
  | cons ha _ ih =>
    obtain ⟨t, x, ht, hx, rfl⟩ := (cast_eq_ok_iff hdoc).mp ha
    obtain ⟨xs, rfl, hxs⟩ := ih
    exact ⟨x :: xs, rfl, .cons ⟨t, ht, hx⟩ hxs⟩

end Read

/-- **The texts that are taken** are those of directories and files, and of hosts with a correct address and a port of
16 bits, each for what it asks for.  All others are reported as not valid, but for a place in the home directory when
there is none. -/
theorem cast_taken_iff {env : Env} (hdoc : env.Documented) (now : ℤ) (s : List Char) :
    (∀ a, cast env now s = .ok a ↔
      ∃ (t : PathText) (x : InPath), s = t.text ∧ t.asked env = some x ∧ a = x.storage now) ∧
    (cast env now s = .error .nullString ↔
      env.home = none ∧ ∃ isDirectory path ne, s = text (place isDirectory path ne) ∧ "~/".toList <+: path) :=
  ⟨fun _ => cast_eq_ok_iff hdoc, cast_eq_nullString_iff hdoc⟩

/-- No home directory, and one address of IPv4. -/
def Env.reference : Env where
  home := none
  addresses := ⟨fun name => name = "127.0.0.1".toList, fun _ => false⟩
  lexicalCast digits := if Decimal.number digits ≤ 65535 then some (Decimal.number digits) else none

theorem cast_taken_reference : Env.reference.Documented ∧
    (cast .reference 0 "dir=~/a".toList = .error .nullString ↔ Env.reference.home = none ∧
      ∃ isDirectory path ne, "dir=~/a".toList = text (place isDirectory path ne) ∧ "~/".toList <+: path) ∧
    (∀ a, cast .reference 0 "host=127.0.0.1:08080".toList = .ok a ↔ ∃ (t : PathText) (x : InPath),
      "host=127.0.0.1:08080".toList = t.text ∧ t.asked .reference = some x ∧ a = x.storage 0) :=
  ⟨fun _ _ _ => rfl, (cast_taken_iff (fun _ _ _ => rfl) 0 _).2, (cast_taken_iff (fun _ _ _ => rfl) 0 _).1⟩

example : cast .reference 0 "host=127.0.0.1:08080".toList = .ok (.host "127.0.0.1".toList 8080 0) := by decide

end PathText

end Mashroom
