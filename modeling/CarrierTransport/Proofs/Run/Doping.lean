import CarrierTransport.Proofs.Flight.Congruence
import CarrierTransport.Proofs.Run.Event
import CarrierTransport.Proofs.Run.Setup

/-!
# Sensors without a doping profile

A model that reads the doping is refused where there is no doping profile, so
what the doping is there does not matter.
-/

namespace CarrierTransport

variable {α σ : Type}

def Field.withDoping (field : Field α) (doping : Vec3 α → Except Fault α)
    (hasDoping : Bool) : Field α :=
  { field with doping := doping, hasDoping := hasDoping }

/-- A doping that fails where that of the field fails, whatever it is
elsewhere. -/
def Field.SharesFaults (field : Field α) (doping : Vec3 α → Except Fault α) :
    Prop :=
  ∀ p, (fun _ => ()) <$> doping p = (fun _ => ()) <$> field.doping p

variable [Scalar α]

/-! ## Models -/

section Models

variable {name : String} {temperature : α} {parameters : Parameters α}

theorem Mobility.evaluate_congr {m : Mobility α} (h : m.readsDoping = false)
    (carrier : Carrier) (efield doping doping' : α) :
    m.evaluate carrier efield doping = m.evaluate carrier efield doping' := by
  cases m with
  | saturating | hamburg | constant => rfl
  | masetti | arora | masettiCanali => cases h

def Recombination.readsDoping : Recombination α → Bool
  | none | constant _ => false
  | shockleyReadHall _ | auger _ | combined _ => true

theorem Recombination.recombines_congr {m : Recombination α}
    (h : m.readsDoping = false) (carrier : Carrier)
    (doping doping' draw timestep : α) :
    m.recombines carrier doping draw timestep =
      m.recombines carrier doping' draw timestep := by
  cases m with
  | none | constant => rfl
  | shockleyReadHall | auger | combined => cases h

/-- What is selected without a doping profile is selected with one, and does
not read it. -/
theorem Mobility.select_undoped {m : Mobility α}
    (h : select name temperature parameters false = .ok m)
    (hasDoping : Bool) :
    select name temperature parameters hasDoping = .ok m ∧
      m.readsDoping = false := by
  unfold select at h ⊢
  split at h
  case h_1 | h_2 | h_3 =>
    cases h
    exact ⟨rfl, rfl⟩
  case h_4 | h_5 | h_6 => cases h
  case h_7 =>
    refine ⟨h, ?_⟩
    obtain ⟨pair, -, h⟩ := bind_eq_ok.mp h
    cases h
    rfl
  case h_8 => cases h

theorem Recombination.select_undoped {m : Recombination α}
    (h : select name temperature parameters false = .ok m)
    (hasDoping : Bool) :
    select name temperature parameters hasDoping = .ok m ∧
      m.readsDoping = false := by
  unfold select at h ⊢
  split at h
  case h_1 =>
    cases h
    exact ⟨rfl, rfl⟩
  case h_2 | h_3 | h_4 | h_5 => cases h
  case h_6 =>
    refine ⟨h, ?_⟩
    obtain ⟨pair, -, h⟩ := bind_eq_ok.mp h
    cases h
    rfl
  case h_7 => cases h

/-- Models that read no doping. -/
structure Models.Undoped (m : Models α) : Prop where
  mobility : m.mobility.readsDoping = false
  recombination : m.recombination.readsDoping = false

theorem Models.Selected.undoped {c : Config α} {m : Models α}
    (h : m.Selected c false) (hasDoping : Bool) :
    m.Selected c hasDoping ∧ m.Undoped := by
  obtain ⟨hmobility, hmute⟩ := Mobility.select_undoped h.mobility hasDoping
  obtain ⟨hrecombination, hmute'⟩ :=
    Recombination.select_undoped h.recombination hasDoping
  exact ⟨⟨hmobility, hrecombination, h.trapping, h.detrapping, h.ionization⟩,
    hmute, hmute'⟩

end Models

/-! ## Flights -/

namespace Transport

def withDoping (t : Transport α) (doping : Vec3 α → Except Fault α)
    (hasDoping : Bool) : Transport α :=
  { t with field := t.field.withDoping doping hasDoping }

variable {t : Transport α} {doping : Vec3 α → Except Fault α}
variable {hasDoping : Bool}

omit [Scalar α] in
@[simp] theorem models_withDoping :
    (t.withDoping doping hasDoping).models = t.models := rfl

omit [Scalar α] in
@[simp] theorem config_withDoping :
    (t.withDoping doping hasDoping).config = t.config := rfl

theorem velocity_withDoping (hmodels : t.models.Undoped)
    (hdoping : t.field.SharesFaults doping) :
    (t.withDoping doping hasDoping).velocity = t.velocity := by
  funext carrier p
  unfold velocity
  refine bind_congr fun efield => ?_
  refine bind_congr_of_map (hdoping p) fun n n' _ => ?_
  have hmobility := Mobility.evaluate_congr hmodels.mobility carrier
    efield.norm n n'
  simp only [withDoping, hmobility]
  rfl

variable [WordSource σ]

theorem step_withDoping (hmodels : t.models.Undoped)
    (hdoping : t.field.SharesFaults doping)
    (carrier : Carrier) (start : α) (f : Flight α σ) :
    (t.withDoping doping hasDoping).step carrier start f =
      t.step carrier start f := by
  unfold step
  rw [velocity_withDoping hmodels hdoping]
  refine bind_congr fun drift => bind_congr fun e => ?_
  refine bind_congr_of_map (hdoping drift.after.position) fun near near' _ => ?_
  simp only [models_withDoping, config_withDoping,
    Mobility.evaluate_congr hmodels.mobility carrier e.norm near near']
  cases diffuse f.source (t.models.mobility.evaluate carrier e.norm near')
      t.config.temperature f.motion.timestep with
  | none => rfl
  | some drawn =>
      obtain ⟨spread, source⟩ := drawn
      refine bind_congr_of_map (hdoping _) fun far far' _ => ?_
      simp only [Recombination.recombines_congr hmodels.recombination carrier
        far far']
      rfl

theorem propagate_withDoping (hmodels : t.models.Undoped)
    (hdoping : t.field.SharesFaults doping) (budget : Nat) (carrier : Carrier)
    (position : Vec3 α) (start : α) (recorder : Option (Recorder α))
    (source : σ) :
    (t.withDoping doping hasDoping).propagate budget carrier position start
        recorder source =
      t.propagate budget carrier position start recorder source :=
  propagate_congr (u := t.withDoping doping hasDoping) (t := t) rfl
    (fun _ _ => rfl) (fun _ => rfl)
    (step_withDoping hmodels hdoping carrier start) (fun _ => rfl) budget
    recorder source

end Transport

/-! ## Events -/

namespace Propagation

def withDoping (p : Propagation α) (doping : Vec3 α → Except Fault α)
    (hasDoping : Bool) : Propagation α :=
  { p with field := p.field.withDoping doping hasDoping }

variable [WordSource σ]
variable {p : Propagation α} {doping : Vec3 α → Except Fault α}
variable {hasDoping : Bool}

theorem runEvent_withDoping (hmodels : p.models.Undoped)
    (hdoping : p.field.SharesFaults doping) (budget : Nat)
    (deposits : List (Deposit α)) (source : σ) (totals : RunTotals) :
    (p.withDoping doping hasDoping).runEvent budget deposits source totals =
      p.runEvent budget deposits source totals :=
  runEvent_congr (q := p.withDoping doping hasDoping)
    (Transport.propagate_withDoping (t := p.transport) hmodels hdoping budget)
    rfl rfl rfl rfl rfl deposits source totals

omit [WordSource σ] in
theorem setUp_withDoping {config : Config α} {field : Field α}
    {sensor : Sensor α} (hfield : field.hasDoping = false)
    (hp : (setUp config field sensor).result = .ok p) :
    (setUp config (field.withDoping doping hasDoping) sensor).result =
      .ok (p.withDoping doping hasDoping) := by
  obtain ⟨hmodels, hparts⟩ := of_setUp hp
  rw [hfield] at hmodels
  obtain ⟨hmodels', -⟩ := hmodels.undoped hasDoping
  have hselect' := Models.select_eq_ok_iff.mpr hmodels'
  rw [(setUp_gives config field sensor).result_eq] at hp
  obtain ⟨_, hvalid, hp⟩ := bind_eq_ok.mp hp
  obtain ⟨models, hselect, hp⟩ := bind_eq_ok.mp hp
  obtain ⟨_, hchecked, -⟩ := bind_eq_ok.mp hp
  rw [(setUp_gives config (field.withDoping doping hasDoping)
    sensor).result_eq, hvalid, ok_bind]
  change (Models.select config hasDoping).result.mapError _ >>= _ = _
  rw [hselect', mapError_eq_ok.mpr rfl, ok_bind]
  change (checkFields config field sensor).result.mapError _ >>= _ = _
  rw [hchecked, hparts]
  rfl

/-- Where a propagation is set up in a sensor without a doping profile, neither
that it is set up nor any event depends on what the doping is. -/
theorem runEvent_ignores_doping {config : Config α} {field : Field α}
    {sensor : Sensor α} (hfield : field.hasDoping = false)
    {threshold : Option Level}
    (hp : ((setUp config field sensor).runFrom threshold).1 = .ok p) :
    (∀ doping hasDoping, field.SharesFaults doping →
      (∀ threshold', ((setUp config (field.withDoping doping hasDoping)
        sensor).runFrom threshold').1 = .ok (p.withDoping doping hasDoping)) ∧
      ∀ budget deposits (source : σ) totals,
        (p.withDoping doping hasDoping).runEvent budget deposits source
            totals =
          p.runEvent budget deposits source totals) ∧
    (∀ m : Mobility α, m.readsDoping = false →
      ∀ carrier efield doping doping',
        m.evaluate carrier efield doping =
          m.evaluate carrier efield doping') := by
  have hgives := setUp_gives config field sensor
  rw [hgives.runFrom threshold, ← hgives.result_eq] at hp
  obtain ⟨hmodels, hparts⟩ := of_setUp hp
  rw [hfield] at hmodels
  refine ⟨?_, fun m => Mobility.evaluate_congr⟩
  intro doping hasDoping hdoping
  obtain ⟨-, hundoped⟩ := hmodels.undoped hasDoping
  have hsame : p.field = field := by
    rw [hparts]
  refine ⟨?_, runEvent_withDoping hundoped (hsame ▸ hdoping)⟩
  intro threshold'
  have hgives' := setUp_gives config (field.withDoping doping hasDoping) sensor
  rw [hgives'.runFrom threshold', ← hgives'.result_eq]
  exact setUp_withDoping hfield hp

/-- The thin layer has no doping profile; that its doping is not a number makes
no difference. -/
theorem runEvent_ignores_doping_thinLayer :
    Transport.thinLayer.field.hasDoping = false ∧
    ∃ p, ((setUp .standard Transport.thinLayer.field
        Transport.thinLayer.sensor).runFrom none).1 = .ok p ∧
      ∀ budget deposits (source : CyclicWords) totals,
        (p.withDoping (fun _ => .ok Transport.notANumber) true).runEvent budget
            deposits source totals =
          p.runEvent budget deposits source totals := by
  obtain ⟨p, hp⟩ := exists_of_isOk (x := ((setUp Config.standard
    Transport.thinLayer.field Transport.thinLayer.sensor).runFrom none).1) (by
      decide +kernel)
  obtain ⟨hevents, -⟩ := runEvent_ignores_doping (σ := CyclicWords) rfl hp
  obtain ⟨-, hsame⟩ := hevents (fun _ => .ok Transport.notANumber) true
    (fun _ => rfl)
  exact ⟨rfl, p, hp, hsame⟩

end Propagation

end CarrierTransport
