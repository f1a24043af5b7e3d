import CarrierTransport.Proofs.Flight.Congruence

/-!
# Multiplication

The gain of a flight is kept beside it: no step reads it, and neither does the
end of a flight.  Under another model of multiplication a flight is the same but
for its gain.
-/

namespace CarrierTransport

variable {α σ : Type}

def Config.withMultiplication (c : Config α) (name : String) (threshold : α) :
    Config α :=
  { c with
    multiplicationModel := name
    parameters := { c.parameters with multiplicationThreshold := threshold } }

def Models.withIonization (m : Models α) (ionization : Ionization α) :
    Models α :=
  { m with ionization := ionization }

namespace Transport

/-- The same transport with another model of multiplication, as a configuration
names it. -/
def withMultiplication (t : Transport α) (name : String)
    (ionization : Ionization α) : Transport α :=
  { t with
    config := t.config.withMultiplication name ionization.threshold
    models := t.models.withIonization ionization }

variable (t : Transport α) (name : String) (ionization : Ionization α)

@[simp] theorem mobility_withMultiplication :
    (t.withMultiplication name ionization).models.mobility =
      t.models.mobility := rfl

@[simp] theorem temperature_withMultiplication :
    (t.withMultiplication name ionization).config.temperature =
      t.config.temperature := rfl

end Transport

/-! ## Without gain -/

variable [Scalar α]

def Flight.ungained (f : Flight α σ) : Flight α σ := { f with gain := 1.0 }

def StepReport.ungained (r : StepReport α σ) : StepReport α σ :=
  { r with before := r.before.ungained, factor := 1.0 }

def Outcome.ungained (o : Outcome α) : Outcome α := { o with gain := 1.0 }

theorem StepReport.after?_ungained {r q : StepReport α σ}
    (h : q.ungained = r.ungained) :
    q.after?.map Flight.ungained = r.after?.map Flight.ungained := by
  have hafter (r : StepReport α σ) : r.ungained.after?.map Flight.ungained =
      r.after?.map Flight.ungained := by
    simp only [after?, Option.map_map]
    rfl
  rw [← hafter q, h, hafter r]

theorem Recorder.follow_ungained {reports others : List (StepReport α σ)}
    (h : others.map StepReport.ungained = reports.map StepReport.ungained)
    (recorder : Recorder α) :
    recorder.follow others = recorder.follow reports := by
  have hfollow (reports : List (StepReport α σ)) :
      recorder.follow (reports.map StepReport.ungained) =
        recorder.follow reports := by
    unfold follow
    rw [List.foldl_map]
    rfl
  rw [← hfollow others, h, hfollow]

namespace Transport

variable (t : Transport α) (name : String) (ionization : Ionization α)

@[simp] theorem launch_withMultiplication (position : Vec3 α) (efield : α)
    (source : σ) :
    (t.withMultiplication name ionization).launch position efield source =
      t.launch position efield source := rfl

variable (carrier : Carrier) (start : α)

theorem isFlying_ungained {f g : Flight α σ} (h : g.ungained = f.ungained) :
    (t.withMultiplication name ionization).isFlying start g =
      t.isFlying start f := by
  have hflying (f : Flight α σ) :
      t.isFlying start f.ungained = t.isFlying start f := rfl
  rw [← hflying f, ← h]
  rfl

theorem outcome_ungained {f g : Flight α σ} (h : g.ungained = f.ungained) :
    ((t.withMultiplication name ionization).outcome start g).ungained =
      (t.outcome start f).ungained := by
  have houtcome (f : Flight α σ) :
      (t.outcome start f.ungained).ungained = (t.outcome start f).ungained :=
    rfl
  rw [← houtcome f, ← h]
  rfl

variable [WordSource σ]

theorem step_ungained {f g : Flight α σ} (h : g.ungained = f.ungained) :
    StepReport.ungained <$>
        (t.withMultiplication name ionization).step carrier start g =
      StepReport.ungained <$> t.step carrier start f := by
  obtain ⟨motion, lastPosition, efield, gain, steps, state, source⟩ := f
  obtain ⟨_, _, _, gain', _, _, _⟩ := g
  cases h
  unfold step
  -- The gain and the factor are only returned, after the last decision.
  simp only [map_bind]
  refine bind_congr fun drift => bind_congr fun e => bind_congr fun near => ?_
  simp only [mobility_withMultiplication, temperature_withMultiplication]
  cases diffuse source (t.models.mobility.evaluate carrier e.norm near)
      t.config.temperature motion.timestep with
  | none => rfl
  | some drawn =>
      simp only [map_bind]
      exact bind_congr fun far => rfl

theorem mirrors_withMultiplication :
    t.Mirrors (t.withMultiplication name ionization) carrier start
      (Flight.ungained (σ := σ)) StepReport.ungained where
  step _ _ := t.step_ungained name ionization carrier start
  after _ _ := StepReport.after?_ungained

theorem propagate_ungained (budget : Nat) (position : Vec3 α)
    (recorder : Option (Recorder α)) (source : σ) :
    (fun flown => (flown.1.ungained, flown.2)) <$>
        ((t.withMultiplication name ionization).propagate budget carrier
          position start recorder source).result =
      (fun flown => (flown.1.ungained, flown.2)) <$>
        (t.propagate budget carrier position start recorder source).result := by
  rw [(propagate_gives (t.withMultiplication name ionization) budget carrier
      position start recorder source).result_eq,
    (propagate_gives t budget carrier position start recorder
      source).result_eq]
  simp only [map_bind]
  refine bind_congr fun efield => ?_
  obtain ⟨hended, hreports⟩ :=
    (t.mirrors_withMultiplication name ionization carrier start).trace
      (fun _ _ => t.isFlying_ungained name ionization start) budget
      (rfl : (t.launch position efield.norm source).ungained = _)
  refine bind_congr_of_map hended fun g f h => ?_
  have houtcome := t.outcome_ungained name ionization start h
  have hsource : g.source = f.source := (congrArg Flight.source h :)
  rw [map_pure, map_pure, houtcome, hsource, launch_withMultiplication,
    funext (Recorder.follow_ungained hreports)]

end Transport

end CarrierTransport
