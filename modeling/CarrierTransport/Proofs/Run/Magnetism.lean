import CarrierTransport.Proofs.Scalar.Vec3
import CarrierTransport.Proofs.Flight.Congruence
import CarrierTransport.Proofs.Run.Event
import CarrierTransport.Proofs.Run.Setup

/-!
# Magnetic fields without effect

A magnetic field that is ignored, one that is absent and, in exact arithmetic,
one that is zero give the same events.
-/

namespace CarrierTransport

variable {α σ : Type}

def Config.withMagneticIgnored (c : Config α) (ignored : Bool) : Config α :=
  { c with ignoreMagneticField := ignored }

def Field.withMagnetic (field : Field α)
    (magnetic : Vec3 α → Except Fault (Vec3 α)) (hasMagnetic : Bool) :
    Field α :=
  { field with magnetic := magnetic, hasMagnetic := hasMagnetic }

variable [Scalar α]

/-- Without a magnetic field nothing turns the drift aside. -/
theorem magneticDrift_zero (carrier : Carrier) (mobility : ℝ)
    (efield : Vec3 ℝ) :
    magneticDrift carrier mobility efield .zero =
      drift carrier mobility efield := by
  ext <;> norm_num [magneticDrift, drift, Vec3.zero, Vec3.cross, Vec3.dot,
    Vec3.dividedBy]

namespace Transport

def withMagnetic (t : Transport α) (ignored : Bool)
    (magnetic : Vec3 α → Except Fault (Vec3 α)) (hasMagnetic : Bool) :
    Transport α :=
  { t with
    config := t.config.withMagneticIgnored ignored
    field := t.field.withMagnetic magnetic hasMagnetic }

variable {t : Transport α} {ignored ignored' hasMagnetic hasMagnetic' : Bool}
variable {magnetic magnetic' : Vec3 α → Except Fault (Vec3 α)}

theorem velocity_of_ignored (t : Transport α)
    (magnetic magnetic' : Vec3 α → Except Fault (Vec3 α)) (ignored : Bool) :
    (t.withMagnetic true magnetic true).velocity =
      (t.withMagnetic ignored magnetic' false).velocity := rfl

theorem velocity_of_zero (t : Transport ℝ) (ignored : Bool)
    (magnetic : Vec3 ℝ → Except Fault (Vec3 ℝ)) :
    (t.withMagnetic false (fun _ => .ok .zero) true).velocity =
      (t.withMagnetic ignored magnetic false).velocity := by
  funext carrier p
  unfold velocity
  refine bind_congr fun efield => bind_congr fun doping => ?_
  exact congrArg Except.ok (magneticDrift_zero carrier _ efield)

variable [WordSource σ]

/-- The magnetic field enters a flight only through the velocity. -/
theorem propagate_withMagnetic
    (hvelocity : (t.withMagnetic ignored magnetic hasMagnetic).velocity =
      (t.withMagnetic ignored' magnetic' hasMagnetic').velocity)
    (budget : Nat) (carrier : Carrier) (position : Vec3 α) (start : α)
    (recorder : Option (Recorder α)) (source : σ) :
    (t.withMagnetic ignored magnetic hasMagnetic).propagate budget carrier
        position start recorder source =
      (t.withMagnetic ignored' magnetic' hasMagnetic').propagate budget carrier
        position start recorder source := by
  have hstep (f : Flight α σ) :
      (t.withMagnetic ignored magnetic hasMagnetic).step carrier start f =
        (t.withMagnetic ignored' magnetic' hasMagnetic').step carrier start
          f := by
    unfold step
    rw [hvelocity]
    rfl
  exact propagate_congr (u := t.withMagnetic ignored magnetic hasMagnetic)
    (t := t.withMagnetic ignored' magnetic' hasMagnetic') rfl
    (fun _ _ => rfl) (fun _ => rfl) hstep (fun _ => rfl) budget recorder source

end Transport

namespace Propagation

def withMagnetic (p : Propagation α) (ignored : Bool)
    (magnetic : Vec3 α → Except Fault (Vec3 α)) (hasMagnetic : Bool) :
    Propagation α :=
  { p with
    config := p.config.withMagneticIgnored ignored
    field := p.field.withMagnetic magnetic hasMagnetic }

variable {p : Propagation α} {ignored ignored' hasMagnetic hasMagnetic' : Bool}
variable {magnetic magnetic' : Vec3 α → Except Fault (Vec3 α)}

theorem runEvent_withMagnetic [WordSource σ]
    (hvelocity :
      (p.transport.withMagnetic ignored magnetic hasMagnetic).velocity =
        (p.transport.withMagnetic ignored' magnetic' hasMagnetic').velocity)
    (budget : Nat) (deposits : List (Deposit α)) (source : σ)
    (totals : RunTotals) :
    (p.withMagnetic ignored magnetic hasMagnetic).runEvent budget deposits
        source totals =
      (p.withMagnetic ignored' magnetic' hasMagnetic').runEvent budget deposits
        source totals :=
  runEvent_congr (p := p.withMagnetic ignored' magnetic' hasMagnetic')
    (q := p.withMagnetic ignored magnetic hasMagnetic)
    (Transport.propagate_withMagnetic (t := p.transport) hvelocity budget)
    rfl rfl rfl rfl rfl deposits source totals

theorem setUp_withMagnetic (config : Config α) (field : Field α)
    (sensor : Sensor α) (ignored : Bool)
    (magnetic : Vec3 α → Except Fault (Vec3 α)) (hasMagnetic : Bool) :
    (setUp (config.withMagneticIgnored ignored)
      (field.withMagnetic magnetic hasMagnetic) sensor).result =
        (·.withMagnetic ignored magnetic hasMagnetic) <$>
          (setUp config field sensor).result := by
  have hchecked : (checkFields (config.withMagneticIgnored ignored)
      (field.withMagnetic magnetic hasMagnetic) sensor).result =
        (checkFields config field sensor).result := by
    rw [(checkFields_gives _ _ _).result_eq, (checkFields_gives _ _ _).result_eq]
    rfl
  rw [(setUp_gives _ _ _).result_eq, (setUp_gives _ _ _).result_eq, hchecked]
  simp only [map_bind, map_pure]
  rfl

/-- A magnetic field that is ignored and one that is absent are the same
transport, and in exact arithmetic so is one that is zero.  What the magnetic
field is and whether it is ignored has no part in whether a configuration is
accepted or in its models.  Every event then is the same: its charges,
trajectories and summary, what it leaves of the random numbers and what it
says. -/
theorem runEvent_ignores_magnetism [WordSource σ] :
    (∀ (config : Config α) (field : Field α) (sensor : Sensor α) ignored
        magnetic hasMagnetic threshold threshold',
      ((setUp (config.withMagneticIgnored ignored)
        (field.withMagnetic magnetic hasMagnetic) sensor).runFrom
          threshold).1 =
        (·.withMagnetic ignored magnetic hasMagnetic) <$>
          ((setUp config field sensor).runFrom threshold').1) ∧
    (∀ (p : Propagation α) magnetic magnetic' ignored budget deposits
        (source : σ) totals,
      (p.withMagnetic true magnetic true).runEvent budget deposits source
          totals =
        (p.withMagnetic ignored magnetic' false).runEvent budget deposits
          source totals) ∧
    ∀ (p : Propagation ℝ) magnetic ignored budget deposits (source : σ)
        totals,
      (p.withMagnetic false (fun _ => .ok .zero) true).runEvent budget deposits
          source totals =
        (p.withMagnetic ignored magnetic false).runEvent budget deposits
          source totals := by
  refine ⟨?_, ?_, ?_⟩
  · intro config field sensor ignored magnetic hasMagnetic threshold threshold'
    rw [(setUp_gives _ _ _).run_eq_result, (setUp_gives _ _ _).run_eq_result]
    exact setUp_withMagnetic config field sensor ignored magnetic hasMagnetic
  · intro p magnetic magnetic' ignored
    exact runEvent_withMagnetic
      (p.transport.velocity_of_ignored magnetic magnetic' ignored)
  · intro p magnetic ignored
    exact runEvent_withMagnetic (p.transport.velocity_of_zero ignored magnetic)

end Propagation

end CarrierTransport
