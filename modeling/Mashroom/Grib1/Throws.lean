import Mashroom.Data.Msg

/-!
# Grib1.Throws — reading a file throws nothing

A read outside the file or through a null pointer is no exception, and the only optional that is asked for its value is
one that has it.  So a handler around a loop over a file is never reached from there.
-/

namespace Mashroom

/-- The computation does not throw. -/
def Quiet {α : Type} (x : Except Fault α) : Prop := x ≠ .error .exception

namespace Quiet

variable {α β : Type} {x y : Except Fault α} {g : α → Except Fault β}

theorem ok (a : α) : Quiet (.ok a : Except Fault α) := nofun

theorem bind (hx : Quiet x) (hg : ∀ a, Quiet (g a)) : Quiet (x >>= g) := by
  cases x with
  | error e => exact fun h => hx (congrArg Except.error (Except.error.inj h))
  | ok a => exact hg a

theorem map {g : α → β} (hx : Quiet x) : Quiet (g <$> x) := by
  cases x with
  | error e => exact fun h => hx (congrArg Except.error (Except.error.inj h))
  | ok a => exact .ok _

theorem ite {c : Prop} [Decidable c] (hx : Quiet x) (hy : Quiet y) : Quiet (if c then x else y) := by
  split
  · exact hx
  · exact hy

end Quiet

section Reads

variable {f : File}

theorem octet_quiet {p : ℕ} : Quiet (octet f p) := by
  unfold octet
  exact .ite (.ok _) nofun

theorem octetAt_quiet {z : ℤ} : Quiet (octetAt f z) := by
  unfold octetAt
  exact .ite octet_quiet nofun

theorem readBytes_quiet {p : ℕ} : ∀ {n : ℕ}, Quiet (readBytes f p n)
  | 0 => .ok _
  | _ + 1 => .bind readBytes_quiet fun _ => .bind octet_quiet fun _ => .ok _

theorem octetsAt_quiet : ∀ {z : ℤ} {n : ℕ}, Quiet (octetsAt f z n)
  | _, 0 => .ok _
  | _, _ + 1 => .bind octetAt_quiet fun _ => .bind octetsAt_quiet fun _ => .ok _

theorem deref_quiet : ∀ {p : Option ℕ}, Quiet (deref p)
  | some _ => .ok _
  | none => nofun

theorem lengthAt_quiet : ∀ {p : Option ℕ}, Quiet (lengthAt f p)
  | some _ => readBytes_quiet
  | none => .ok _

end Reads

/-! ## Grids -/

section Grids

variable {lib : OsterLib} {f : File} {g : ℕ}

theorem int2At_quiet {p : ℕ} : Quiet (int2At lib f p) := .bind octet_quiet fun _ => .bind octet_quiet fun _ => .ok _

theorem int3At_quiet {p : ℕ} : Quiet (int3At lib f p) :=
  .bind octet_quiet fun _ => .bind octet_quiet fun _ => .bind octet_quiet fun _ => .ok _

theorem signed2At_quiet {p : ℕ} : Quiet (signed2At lib f p) :=
  .bind octet_quiet fun _ => .bind octet_quiet fun _ => .ok _

theorem signed3At_quiet {p : ℕ} : Quiet (signed3At lib f p) :=
  .bind octet_quiet fun _ => .bind octet_quiet fun _ => .bind octet_quiet fun _ => .ok _

theorem ibmAt_quiet {p : ℕ} : Quiet (ibmAt lib f p) :=
  .bind octet_quiet fun _ => .bind octet_quiet fun _ => .bind octet_quiet fun _ => .bind octet_quiet fun _ => .ok _

theorem gdsLatLonDx_quiet : Quiet (gdsLatLonDx lib f g) := .bind octet_quiet fun _ => .ite int2At_quiet (.ok _)

theorem gdsLatLonDy_quiet : Quiet (gdsLatLonDy lib f g) := .bind octet_quiet fun _ => .ite int2At_quiet (.ok _)

theorem gdsPolarNx_quiet : Quiet (gdsPolarNx f g) := .bind octet_quiet fun _ => .ite readBytes_quiet (.ok _)

theorem gdsPolarNy_quiet : Quiet (gdsPolarNy f g) := .bind octet_quiet fun _ => .ite readBytes_quiet (.ok _)

theorem gdsMercDx_quiet : Quiet (gdsMercDx lib f g) := .bind octet_quiet fun _ => .ite int3At_quiet (.ok _)

theorem gdsMercDy_quiet : Quiet (gdsMercDy lib f g) := .bind octet_quiet fun _ => .ite int3At_quiet (.ok _)

theorem LatLonBase.read_quiet : Quiet (LatLonBase.read lib f g) := by
  refine .bind readBytes_quiet fun _ => .bind readBytes_quiet fun _ => .bind int3At_quiet fun _ => ?_
  refine .bind int3At_quiet fun _ => .bind octet_quiet fun _ => .bind int3At_quiet fun _ => ?_
  refine .bind int3At_quiet fun _ => .bind gdsLatLonDy_quiet fun _ => .bind gdsLatLonDx_quiet fun _ => ?_
  exact .bind octet_quiet fun _ => .ok _

theorem GaussianBase.read_quiet : Quiet (GaussianBase.read lib f g) := by
  refine .bind int3At_quiet fun _ => .bind int3At_quiet fun _ => .bind int3At_quiet fun _ => ?_
  refine .bind int3At_quiet fun _ => .bind readBytes_quiet fun _ => .bind readBytes_quiet fun _ => ?_
  refine .bind gdsLatLonDx_quiet fun _ => .bind readBytes_quiet fun _ => .bind octet_quiet fun _ => ?_
  exact .bind octet_quiet fun _ => .ok _

theorem AlbersBase.read_quiet : Quiet (AlbersBase.read lib f g) := by
  refine .bind readBytes_quiet fun _ => .bind readBytes_quiet fun _ => .bind int3At_quiet fun _ => ?_
  refine .bind int3At_quiet fun _ => .bind octet_quiet fun _ => .bind int3At_quiet fun _ => ?_
  refine .bind int3At_quiet fun _ => .bind int3At_quiet fun _ => .bind octet_quiet fun _ => ?_
  refine .bind octet_quiet fun _ => .bind int3At_quiet fun _ => .bind int3At_quiet fun _ => ?_
  exact .bind int3At_quiet fun _ => .bind int3At_quiet fun _ => .ok _

theorem HarmonicBase.read_quiet : Quiet (HarmonicBase.read f g) := by
  refine .bind readBytes_quiet fun _ => .bind readBytes_quiet fun _ => .bind readBytes_quiet fun _ => ?_
  exact .bind octet_quiet fun _ => .bind octet_quiet fun _ => .ok _

theorem LambertBase.read_quiet : Quiet (LambertBase.read lib f g) := by
  refine .bind readBytes_quiet fun _ => .bind readBytes_quiet fun _ => .bind int3At_quiet fun _ => ?_
  refine .bind int3At_quiet fun _ => .bind octet_quiet fun _ => .bind int3At_quiet fun _ => ?_
  refine .bind int3At_quiet fun _ => .bind int3At_quiet fun _ => .bind octet_quiet fun _ => ?_
  refine .bind octet_quiet fun _ => .bind int3At_quiet fun _ => .bind int3At_quiet fun _ => ?_
  exact .bind int3At_quiet fun _ => .bind int3At_quiet fun _ => .ok _

theorem PolarBase.read_quiet : Quiet (PolarBase.read lib f g) := by
  refine .bind gdsPolarNx_quiet fun _ => .bind gdsPolarNy_quiet fun _ => .bind int3At_quiet fun _ => ?_
  refine .bind int3At_quiet fun _ => .bind octet_quiet fun _ => .bind int3At_quiet fun _ => ?_
  exact .bind int3At_quiet fun _ => .bind int3At_quiet fun _ => .bind octet_quiet fun _ => .ok _

theorem SpaceViewBase.read_quiet : Quiet (SpaceViewBase.read lib f g) := by
  refine .bind gdsPolarNx_quiet fun _ => .bind gdsPolarNy_quiet fun _ => .bind int3At_quiet fun _ => ?_
  refine .bind int3At_quiet fun _ => .bind octet_quiet fun _ => .bind readBytes_quiet fun _ => ?_
  refine .bind readBytes_quiet fun _ => .bind signed2At_quiet fun _ => .bind signed2At_quiet fun _ => ?_
  refine .bind octet_quiet fun _ => .bind readBytes_quiet fun _ => .bind readBytes_quiet fun _ => ?_
  exact .bind signed2At_quiet fun _ => .bind signed2At_quiet fun _ => .ok _

theorem MercatorBase.read_quiet : Quiet (MercatorBase.read lib f g) := by
  refine .bind readBytes_quiet fun _ => .bind gdsMercDy_quiet fun _ => .bind int3At_quiet fun _ => ?_
  refine .bind int3At_quiet fun _ => .bind octet_quiet fun _ => .bind int3At_quiet fun _ => ?_
  refine .bind int3At_quiet fun _ => .bind int3At_quiet fun _ => .bind octet_quiet fun _ => ?_
  exact .bind gdsMercDy_quiet fun _ => .bind gdsMercDx_quiet fun _ => .ok _

theorem Rotation.read_quiet : Quiet (Rotation.read lib f g) :=
  .bind signed3At_quiet fun _ => .bind signed3At_quiet fun _ => .bind ibmAt_quiet fun _ => .ok _

theorem Stretching.read_quiet : Quiet (Stretching.read lib f g) :=
  .bind signed3At_quiet fun _ => .bind signed3At_quiet fun _ => .bind ibmAt_quiet fun _ => .ok _

theorem RotationStretching.read_quiet : Quiet (RotationStretching.read lib f g) :=
  .bind Rotation.read_quiet fun _ => .bind Stretching.read_quiet fun _ => .ok _

theorem readDefinition_quiet {B A : Type} {base : Except Fault B} {additional : Except Fault A} (hb : Quiet base)
    (ha : Quiet additional) : Quiet (readDefinition base additional) :=
  .bind hb fun _ => .bind ha fun _ => .ok _

theorem GridInfo.emplaceById_quiet {id : ℕ} : Quiet (GridInfo.emplaceById lib f g id) := by
  unfold GridInfo.emplaceById
  split
  case h_1 => exact .ok _
  case h_2 => exact .ok _
  all_goals refine .map (readDefinition_quiet ?_ ?_)
  all_goals first
    | with_reducible exact .ok _
    | with_reducible exact LatLonBase.read_quiet
    | with_reducible exact GaussianBase.read_quiet
    | with_reducible exact AlbersBase.read_quiet
    | with_reducible exact HarmonicBase.read_quiet
    | with_reducible exact LambertBase.read_quiet
    | with_reducible exact PolarBase.read_quiet
    | with_reducible exact SpaceViewBase.read_quiet
    | with_reducible exact MercatorBase.read_quiet
    | with_reducible exact Rotation.read_quiet
    | with_reducible exact Stretching.read_quiet
    | with_reducible exact RotationStretching.read_quiet

theorem defineGrid_quiet {s : GridDescriptionSection} : Quiet (s.defineGrid lib f) :=
  .bind (.bind deref_quiet fun _ => octet_quiet) fun _ => .bind deref_quiet fun _ => GridInfo.emplaceById_quiet

end Grids

/-! ## Messages -/

theorem Message.make_quiet {f : File} {p : ℕ} : Quiet (Message.make f p) := by
  refine .bind (.bind octet_quiet fun _ => .ok _) fun _ => .bind lengthAt_quiet fun _ => ?_
  refine .bind lengthAt_quiet fun _ => .bind lengthAt_quiet fun _ => .bind lengthAt_quiet fun _ => ?_
  exact .bind readBytes_quiet fun _ => .ok _

namespace HGrib1

theorem nextMessage_quiet {h : HGrib1} : Quiet h.nextMessage := by
  unfold nextMessage
  split
  · exact .ok _
  · exact .bind readBytes_quiet fun _ => .ite (.bind Message.make_quiet fun _ => .ok _) (.ok _)

theorem openGrib_quiet : ∀ {octets : Option File}, Quiet (openGrib octets)
  | none => .ok _
  | some f => by
    refine .bind Message.make_quiet fun m => .bind (.map readBytes_quiet) fun len => ?_
    cases len with
    | none => exact .ok _
    | some len => exact .bind octetsAt_quiet fun _ => .ok _

end HGrib1

theorem GribMsgDataInfo.read_quiet {h : HGrib1} {m : Message} {grid : GridInfo} (hm : h.msg = some m) :
    Quiet (GribMsgDataInfo.read h m grid) := by
  have hlen : ∃ x : Except Fault ℕ, Quiet x ∧ h.currentMessageLength = some <$> x := by
    rw [HGrib1.currentMessageLength, hm]
    exact ⟨_, readBytes_quiet, rfl⟩
  obtain ⟨x, hx, hlen⟩ := hlen
  refine .bind ?_ fun _ => ?_
  · refine .bind (.bind octet_quiet fun _ => .bind octet_quiet fun _ => .ok _) fun _ => ?_
    exact .bind octet_quiet fun _ => .bind octet_quiet fun _ => .bind octet_quiet fun _ => .bind octet_quiet fun _ =>
      .ok _
  rw [hlen]
  cases x with
  | error e => exact fun h => hx (congrArg Except.error (Except.error.inj h))
  | ok len =>
    simp only [Functor.map, Except.map, ok_bind, optionalValue]
    refine .bind octet_quiet fun _ => ?_
    refine .bind (.bind octet_quiet fun _ => .bind readBytes_quiet fun _ => .bind readBytes_quiet fun _ =>
      .bind readBytes_quiet fun _ => .ok _) fun _ => ?_
    refine .bind octet_quiet fun _ => .bind octet_quiet fun _ => .bind ?_ fun _ => .ok _
    exact .bind octet_quiet fun _ => .bind octet_quiet fun _ => .bind octet_quiet fun _ => .ok _

end Mashroom
