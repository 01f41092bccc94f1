import Mashroom.Network.Parts
import Mashroom.Lib.Moves

/-!
# Network.Client — the additional parts of the client's messages

Each part has its format and its moves.  The moves of the extraction form take the search properties along and leave
the period and the file format behind; the other parts lose nothing.
-/

namespace Mashroom.Network

/-! ## The parts -/

/-- `ExtractMeteoGrib` -/
structure ExtractRequestForm (π : Type) where
  searchProps : SearchProperties
  tSeparation : Option π
  fileFmt : Option UInt32

/-- `MessageAdditional<DATA_REQUEST>`.  A form is `std::monostate` where there is none. -/
structure DataRequest (π : Type) where
  form : Option (ExtractRequestForm π) := none

/-- `MessageAdditional<SERVER_STATUS>` of the client. -/
structure ServerStatusRequest where
  deriving DecidableEq

/-- `IndexParameters<TIME_SERIES,GRIB_v1>` -/
structure IndexParameters (τ : Type) where
  gridType : Option RepresentationType
  time : Option τ
  forecastPreference : Option TimeForecast
  level : Option Level
  deriving DecidableEq

/-- `MessageAdditional<INDEX>` -/
structure IndexRequest (τ : Type) where
  parameters : List (Option (IndexParameters τ))
  infoLimits : Option UInt64
  lastUpdate : ℤ
  deriving DecidableEq

/-- `MessageAdditional<INDEX_REF>` -/
structure IndexRefRequest (τ : Type) where
  parameters : List (Option (IndexParameters τ))
  lastUpdate : ℤ
  deriving DecidableEq

/-- `MessageAdditional<TRANSACTION>` -/
structure TransactionReply where
  opHash : UInt64 := 0
  opStatus : Transaction := .decline
  deriving DecidableEq

/-! ## The values of the C++ types -/

structure ExtractRequestForm.Fits {π : Type} (f : ExtractRequestForm π) : Prop where
  searchProps : f.searchProps.Fits

structure DataRequest.Fits {π : Type} (r : DataRequest π) : Prop where
  form : ∀ f ∈ r.form, f.Fits

structure IndexParameters.Fits {τ : Type} (p : IndexParameters τ) : Prop where
  forecastPreference : ∀ t ∈ p.forecastPreference, t.Fits
  level : ∀ l ∈ p.level, l.Fits

/-- The fields that the two requests for an index have in common. -/
structure IndexFits {τ : Type} (parameters : List (Option (IndexParameters τ))) (lastUpdate : ℤ) : Prop where
  count : parameters.length < 2 ^ 64
  parameters : ∀ x ∈ parameters, ∀ p ∈ x, p.Fits
  lastUpdate : -2 ^ 63 ≤ lastUpdate ∧ lastUpdate < 2 ^ 63

def IndexRequest.Fits {τ : Type} (r : IndexRequest τ) : Prop := IndexFits r.parameters r.lastUpdate

def IndexRefRequest.Fits {τ : Type} (r : IndexRefRequest τ) : Prop := IndexFits r.parameters r.lastUpdate

/-! ## How they are written -/

open Format

namespace OsterFormats

section Formats

variable {τ π : Type} (o : OsterFormats τ π)

def extractRequestForm : Format (ExtractRequestForm π) where
  serialize order f := serializeAll order [⟨o.searchProperties, f.searchProps⟩,
    ⟨o.optional o.timePeriod, f.tSeparation⟩, ⟨o.optional o.u32, f.fileFmt⟩]
  deserialize order := front do
    return {
      searchProps := ← o.searchProperties.read order
      tSeparation := ← (o.optional o.timePeriod).read order
      fileFmt := ← (o.optional o.u32).read order }
  serialSize f := serialSizeAll [⟨o.searchProperties, f.searchProps⟩,
    ⟨o.optional o.timePeriod, f.tSeparation⟩, ⟨o.optional o.u32, f.fileFmt⟩]

def dataRequest : Format (DataRequest π) where
  serialize order r := serializeAll order [⟨orNothing o.nat64 o.extractRequestForm, r.form⟩]
  deserialize order := front do
    return { form := ← (orNothing o.nat64 o.extractRequestForm).read order }
  serialSize r := serialSizeAll [⟨orNothing o.nat64 o.extractRequestForm, r.form⟩]

def indexParameters : Format (IndexParameters τ) where
  serialize order p := serializeAll order [⟨o.optional o.representationType, p.gridType⟩,
    ⟨o.optional o.timeSequence, p.time⟩, ⟨o.optional o.timeForecast, p.forecastPreference⟩,
    ⟨o.optional o.level, p.level⟩]
  deserialize order := front do
    return {
      gridType := ← (o.optional o.representationType).read order
      time := ← (o.optional o.timeSequence).read order
      forecastPreference := ← (o.optional o.timeForecast).read order
      level := ← (o.optional o.level).read order }
  serialSize p := serialSizeAll [⟨o.optional o.representationType, p.gridType⟩,
    ⟨o.optional o.timeSequence, p.time⟩, ⟨o.optional o.timeForecast, p.forecastPreference⟩,
    ⟨o.optional o.level, p.level⟩]

def indexRequest : Format (IndexRequest τ) where
  serialize order r := serializeAll order [⟨o.vector (orNothing o.nat64 o.indexParameters), r.parameters⟩,
    ⟨o.optional o.u64, r.infoLimits⟩, ⟨o.time, r.lastUpdate⟩]
  deserialize order := front do
    return {
      parameters := ← (o.vector (orNothing o.nat64 o.indexParameters)).read order
      infoLimits := ← (o.optional o.u64).read order
      lastUpdate := ← o.time.read order }
  serialSize r := serialSizeAll [⟨o.vector (orNothing o.nat64 o.indexParameters), r.parameters⟩,
    ⟨o.optional o.u64, r.infoLimits⟩, ⟨o.time, r.lastUpdate⟩]

def indexRefRequest : Format (IndexRefRequest τ) where
  serialize order r := serializeAll order [⟨o.vector (orNothing o.nat64 o.indexParameters), r.parameters⟩,
    ⟨o.time, r.lastUpdate⟩]
  deserialize order := front do
    return {
      parameters := ← (o.vector (orNothing o.nat64 o.indexParameters)).read order
      lastUpdate := ← o.time.read order }
  serialSize r := serialSizeAll [⟨o.vector (orNothing o.nat64 o.indexParameters), r.parameters⟩,
    ⟨o.time, r.lastUpdate⟩]

def transactionReply : Format TransactionReply where
  serialize order r := serializeAll order [⟨o.u64, r.opHash⟩, ⟨o.transaction, r.opStatus⟩]
  deserialize order := front do
    return { opHash := ← o.u64.read order, opStatus := ← o.transaction.read order }
  serialSize r := serialSizeAll [⟨o.u64, r.opHash⟩, ⟨o.transaction, r.opStatus⟩]

end Formats

/-! ## The laws -/

section Laws

variable {τ π : Type} {o : OsterFormats τ π}

theorem Documented.extractRequestForm (ho : o.Documented) {f : ExtractRequestForm π} (h : f.Fits) :
    o.extractRequestForm.Law f := by
  have hperiod := ho.optional o.timePeriod f.tSeparation fun t _ => ho.timePeriod t
  have hfmt := ho.optional o.u32 f.fileFmt fun n _ => ho.u32 n
  exact .of_fields (fun _ => rfl) fun _ => .cons (ho.searchProperties h.searchProps) <| .cons hperiod <|
    .cons hfmt <| .nil

theorem Documented.dataRequest (ho : o.Documented) {r : DataRequest π} (h : r.Fits) : o.dataRequest.Law r :=
  .of_fields (fun _ => rfl) fun _ => .cons (ho.orNothing fun f hf => ho.extractRequestForm (h.form f hf)) <| .nil

theorem Documented.indexParameters (ho : o.Documented) {p : IndexParameters τ} (h : p.Fits) :
    o.indexParameters.Law p := by
  have hgrid := ho.optional o.representationType p.gridType fun r _ => ho.representationType r
  have htime := ho.optional o.timeSequence p.time fun t _ => ho.timeSequence t
  have hforecast := ho.optional o.timeForecast _ fun t ht => ho.timeForecast (h.forecastPreference t ht)
  have hlevel := ho.optional o.level _ fun l hl => ho.level (h.level l hl)
  exact .of_fields (fun _ => rfl) fun _ => .cons hgrid <| .cons htime <| .cons hforecast <| .cons hlevel <| .nil

/-- The list of parameters of both requests. -/
theorem Documented.parameters (ho : o.Documented) {parameters : List (Option (IndexParameters τ))} {lastUpdate : ℤ}
    (h : IndexFits parameters lastUpdate) : (o.vector (Format.orNothing o.nat64 o.indexParameters)).Law parameters :=
  ho.vector _ _ h.count fun x hx => ho.orNothing fun p hp => ho.indexParameters (h.parameters x hx p hp)

theorem Documented.indexRequest (ho : o.Documented) {r : IndexRequest τ} (h : r.Fits) : o.indexRequest.Law r := by
  have hlimits := ho.optional o.u64 r.infoLimits fun n _ => ho.u64 n
  exact .of_fields (fun _ => rfl) fun _ => .cons (ho.parameters h) <| .cons hlimits <|
    .cons (ho.time _ h.lastUpdate) <| .nil

theorem Documented.indexRefRequest (ho : o.Documented) {r : IndexRefRequest τ} (h : r.Fits) :
    o.indexRefRequest.Law r :=
  .of_fields (fun _ => rfl) fun _ => .cons (ho.parameters h) <| .cons (ho.time _ h.lastUpdate) <| .nil

theorem Documented.transactionReply (ho : o.Documented) (r : TransactionReply) : o.transactionReply.Law r :=
  .of_fields (fun _ => rfl) fun _ => .cons (ho.u64 _) <| .cons (ho.transaction _) <| .nil

end Laws

end OsterFormats

/-! ## The moves -/

section Moves

variable {τ π : Type}

/-- `operator=(ExtractRequestForm&&)` assigns the search properties only, and the move constructor calls it on a new
form. -/
def ExtractRequestForm.moves : Moves (ExtractRequestForm π) where
  construct _ other := { searchProps := other.searchProps, tSeparation := none, fileFmt := none }
  assign this other := { this with searchProps := other.searchProps }

/-- The assignment of a `std::variant` to one that holds the same alternative assigns the alternative; otherwise the
alternative is constructed in it. -/
def DataRequest.assignForm (this : DataRequest π) : Option (ExtractRequestForm π) → Option (ExtractRequestForm π)
  | none => none
  | some other => some <| match this.form with
    | some form => ExtractRequestForm.moves.assign form other
    | none => ExtractRequestForm.moves.construct other other

/-- The move constructor calls `operator=(MessageAdditional&&)` on a new part. -/
def DataRequest.moves : Moves (DataRequest π) where
  construct _ other := { form := assignForm { form := none } other.form }
  assign this other := { form := this.assignForm other.form }

def ServerStatusRequest.moves : Moves ServerStatusRequest := .keep

/-- The move constructor calls `operator=(MessageAdditional&&)`, which assigns all members. -/
def IndexRequest.moves : Moves (IndexRequest τ) where
  construct _ other := {
    parameters := other.parameters, infoLimits := other.infoLimits, lastUpdate := other.lastUpdate }
  assign _ other := {
    parameters := other.parameters, infoLimits := other.infoLimits, lastUpdate := other.lastUpdate }

/-- The move constructor calls `operator=(MessageAdditional&&)`, which assigns all members. -/
def IndexRefRequest.moves : Moves (IndexRefRequest τ) where
  construct _ other := { parameters := other.parameters, lastUpdate := other.lastUpdate }
  assign _ other := { parameters := other.parameters, lastUpdate := other.lastUpdate }

def TransactionReply.moves : Moves TransactionReply where
  construct _ other := { opHash := other.opHash, opStatus := other.opStatus }
  assign _ other := { opHash := other.opHash, opStatus := other.opStatus }

/-- The fields that the moves of a form leave behind. -/
structure ExtractRequestForm.Output (π : Type) where
  tSeparation : Option π := none
  fileFmt : Option UInt32 := none

def ExtractRequestForm.output (f : ExtractRequestForm π) : Output π where
  tSeparation := f.tSeparation
  fileFmt := f.fileFmt

def ExtractRequestForm.setOutput (out : Output π) (f : ExtractRequestForm π) : ExtractRequestForm π where
  searchProps := f.searchProps
  tSeparation := out.tSeparation
  fileFmt := out.fileFmt

/-- What a moved form has as its period and file format. -/
def ExtractRequestForm.loss : Move (ExtractRequestForm π) → Option (Output π)
  | .construct _ => some {}
  | .assign this => some this.output

theorem ExtractRequestForm.loses : (moves (π := π)).Loses setOutput loss where
  set_set _ _ _ := rfl
  apply
    | _, .construct _ => rfl
    | _, .assign _ => rfl

theorem ExtractRequestForm.setOutput_eq_self {out : Output π} {f : ExtractRequestForm π} :
    setOutput out f = f ↔ f.output = out :=
  Moves.set_eq_self (fun _ _ => rfl) fun _ => rfl

/-- The form was not moved, or the last move left the period and the file format that it has. -/
def ExtractRequestForm.Kept (f : ExtractRequestForm π) (ms : List (Move (ExtractRequestForm π))) : Prop :=
  ∀ out ∈ Moves.lastLoss loss ms, f.output = out

theorem ExtractRequestForm.run_eq_self_iff (f : ExtractRequestForm π) (ms : List (Move (ExtractRequestForm π))) :
    moves.run f ms = f ↔ f.Kept ms := by
  rw [loses.run_eq_self]
  simp only [setOutput_eq_self, Kept]

def DataRequest.setOutput (out : ExtractRequestForm.Output π) (r : DataRequest π) : DataRequest π where
  form := r.form.map (.setOutput out)

/-- What the form of a moved request has as its period and file format. -/
def DataRequest.loss : Move (DataRequest π) → Option (ExtractRequestForm.Output π)
  | .construct _ => some {}
  | .assign this => some (this.form.elim {} ExtractRequestForm.output)

theorem DataRequest.loses : (moves (π := π)).Loses setOutput loss where
  set_set c c' r := by
    simp only [setOutput, Option.map_map]
    rfl
  apply r mv := by
    obtain ⟨form⟩ := r
    cases mv with
    | construct _ => cases form <;> rfl
    | assign this =>
      obtain ⟨target⟩ := this
      cases form <;> cases target <;> rfl

theorem DataRequest.setOutput_eq_self {out : ExtractRequestForm.Output π} {r : DataRequest π} :
    setOutput out r = r ↔ ∀ f ∈ r.form, f.output = out := by
  obtain ⟨form⟩ := r
  cases form with
  | none => simp [setOutput]
  | some f => simp [setOutput, ExtractRequestForm.setOutput_eq_self]

/-- There is no form, or the last move left the period and the file format that it has. -/
def DataRequest.Kept (r : DataRequest π) (ms : List (Move (DataRequest π))) : Prop :=
  ∀ out ∈ Moves.lastLoss loss ms, ∀ f ∈ r.form, f.output = out

theorem DataRequest.run_eq_self_iff (r : DataRequest π) (ms : List (Move (DataRequest π))) :
    moves.run r ms = r ↔ r.Kept ms := by
  rw [loses.run_eq_self]
  simp only [setOutput_eq_self, Kept]

end Moves

end Mashroom.Network
