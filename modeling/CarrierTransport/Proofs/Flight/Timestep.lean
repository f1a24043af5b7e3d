import CarrierTransport.Proofs.Config
import CarrierTransport.Proofs.Flight.Containment
import CarrierTransport.Proofs.Flight.Failure
import CarrierTransport.Proofs.Scalar.Order

/-!
# The timesteps of a flight

Under a configuration that is accepted every timestep of a flight lies within
its bounds, whatever the drift, its error and the distance to the top face are,
and no flight fails because the bounds are not in order.
-/

namespace CarrierTransport

variable {α σ : Type} [Scalar α]

namespace Config

/-- A timestep within the bounds of a configuration. -/
def Allows (c : Config α) (timestep : α) : Prop :=
  c.timestepMin ≤ timestep ∧ timestep ≤ c.timestepMax

variable {c : Config α}

theorem Accepted.allows_start (h : c.Accepted) : c.Allows c.timestepStart :=
  ⟨h.min_le_start, h.start_le_max⟩

variable [OrderedScalar α]

/-- The next timestep is within the bounds whatever is compared to decide
whether it is shorter or longer; none of these numbers need be one. -/
theorem Allows.next {timestep : α} (h : c.Allows timestep)
    (distance stepZ uncertainty : α) :
    ∃ next, c.nextTimestep? timestep distance stepZ uncertainty = some next ∧
      c.Allows next := by
  have hbounds : c.timestepMin ≤ c.timestepMax :=
    OrderedScalar.le_trans h.1 h.2
  have hnumber : timestep ≤ timestep := OrderedScalar.refl_right h.1
  unfold nextTimestep?
  refine OrderedScalar.clamp?_eq_some ?_ hbounds
  split
  · exact OrderedScalar.refl_shorter hnumber
  · split
    · exact OrderedScalar.refl_shorter hnumber
    · split
      · exact OrderedScalar.refl_longer hnumber
      · exact hnumber

end Config

namespace Transport

variable [OrderedScalar α] [WordSource σ]
variable {t : Transport α} {carrier : Carrier} {start : α}

theorem Takes.allows_next {f : Flight α σ} {r : StepReport α σ}
    (h : t.Takes carrier start f r) (hf : t.config.Allows f.motion.timestep) :
    ∃ next, r.nextTimestep = some next ∧ t.config.Allows next := by
  rw [h.nextTimestep]
  exact hf.next _ _ _

theorem allows_of_step {f g : Flight α σ} {r : StepReport α σ}
    (h : t.Takes carrier start f r) (next : r.after? = some g)
    (hf : t.config.Allows f.motion.timestep) :
    t.config.Allows g.motion.timestep := by
  obtain ⟨timestep, htimestep, hallows⟩ := h.allows_next hf
  obtain ⟨_, hafter, rfl⟩ := Option.map_eq_some_iff.mp next
  rw [htimestep] at hafter
  cases hafter
  exact hallows

theorem Course.allows {f g : Flight α σ} {reports : List (StepReport α σ)}
    (h : t.Course carrier start f reports g)
    (hf : t.config.Allows f.motion.timestep) :
    (∀ r ∈ reports, t.config.Allows r.before.motion.timestep) ∧
      t.config.Allows g.motion.timestep := by
  have keeps (f : Flight α σ) (r : StepReport α σ) (g : Flight α σ)
      (_ : t.isFlying start f = true) (taken : t.Takes carrier start f r)
      (next : r.after? = some g) (hf : t.config.Allows f.motion.timestep) :
      t.config.Allows g.motion.timestep :=
    allows_of_step taken next hf
  exact ⟨h.forall_before keeps hf, h.invariant keeps hf⟩

/-- Within the bounds of the timestep only the field, the samples or the end of
the budget stop a flight. -/
theorem Stops.of_allows {f : Flight α σ} {left : Nat} {fault : Fault}
    (h : t.Stops carrier start f left fault)
    (hf : t.config.Allows f.motion.timestep) :
    t.StepFails f fault ∨ left = 0 ∧ fault = .unfinished := by
  cases h with
  | spent => exact .inr ⟨rfl, rfl⟩
  | step hfails => exact .inl hfails
  | bounds taken hnone =>
      obtain ⟨next, hnext, -⟩ := (takes_of_step taken).allows_next hf
      rw [hnone] at hnext
      cases hnext

/-- Why a flight of an accepted configuration has no outcome: the field has
none, or after some steps, which are all that are allowed or are followed by a
sample that was given up, the group is still in flight. -/
theorem propagate_eq_error_of_accepted (hconfig : t.config.Accepted)
    {budget : Nat} {position : Vec3 α} {recorder : Option (Recorder α)}
    {source : σ} {fault : Fault}
    (h : (t.propagate budget carrier position start recorder source).result =
      .error fault) :
    t.field.Fails fault ∨ fault = .unfinished ∧
      ∃ efield reports f, t.field.electric position = .ok efield ∧
        t.Course carrier start (t.launch position efield.norm source) reports
          f ∧
        t.isFlying start f = true ∧ (reports.length = budget ∨
          t.SampleFails f) := by
  obtain helectric | ⟨efield, reports, f, left, hefield, hcourse, hflying,
    hlength, hstops⟩ := propagate_eq_error h
  · exact .inl (.electric helectric)
  have hallows := (hcourse.allows hconfig.allows_start).2
  obtain hfails | ⟨rfl, rfl⟩ := hstops.of_allows hallows
  · cases hfails with
    | field hfield => exact .inl hfield
    | sample hsample =>
        exact .inr ⟨rfl, efield, reports, f, hefield, hcourse, hflying,
          .inr hsample⟩
  · exact .inr ⟨rfl, efield, reports, f, hefield, hcourse, hflying,
      .inl hlength⟩

/-- Under every configuration that is accepted, each step of a flight begins
with a timestep within the bounds; whatever the step gives to compare, so does
the next one, for the bounds are in order.  A flight without an outcome has met
a failure of its field, or it is still in flight after as many steps as are
allowed or before a sample that was given up. -/
theorem propagate_within_timestep_bounds (t : Transport Double)
    (hconfig : t.config.validate = .ok ()) (carrier : Carrier)
    (position : Vec3 Double) (start : Double) (source : σ) :
    (∀ efield reports f,
      t.Course carrier start (t.launch position efield source) reports f →
      (∀ r ∈ reports, t.config.Allows r.before.motion.timestep) ∧
        t.config.Allows f.motion.timestep) ∧
    (∀ timestep distance stepZ uncertainty, t.config.Allows timestep →
      ∃ next, t.config.nextTimestep? timestep distance stepZ uncertainty =
        some next ∧ t.config.Allows next) ∧
    (∀ budget recorder threshold fault journal,
      (t.propagate budget carrier position start recorder source).runFrom
        threshold = (.error fault, journal) →
      t.field.Fails fault ∨ fault = .unfinished ∧
        ∃ efield reports f, t.field.electric position = .ok efield ∧
          t.Course carrier start (t.launch position efield.norm source) reports
            f ∧
          t.isFlying start f = true ∧
          (reports.length = budget ∨ t.SampleFails f)) := by
  have haccepted := Config.validate_eq_ok_iff.mp hconfig
  refine ⟨?_, ?_, ?_⟩
  · intro efield reports f hcourse
    exact hcourse.allows haccepted.allows_start
  · intro timestep distance stepZ uncertainty hallows
    exact hallows.next distance stepZ uncertainty
  · intro budget recorder threshold fault journal hrun
    have hgives := propagate_gives t budget carrier position start recorder
      source
    have hresult := hgives.runFrom threshold
    rw [hrun, ← hgives.result_eq] at hresult
    exact propagate_eq_error_of_accepted haccepted hresult.symm

/-- What is not a number. -/
def notANumber : Double := 0.0 / 0.0

theorem propagate_within_timestep_bounds_thinLayer :
    thinLayer.config.validate = .ok () ∧
    (∃ next, thinLayer.config.nextTimestep? thinLayer.config.timestepMax
        notANumber 1.0 notANumber = some next ∧
      thinLayer.config.Allows next) ∧
    (∀ efield reports f,
      thinLayer.Course .electron 0.0
        (thinLayer.launch .zero efield middleWords) reports f →
      (∀ r ∈ reports, thinLayer.config.Allows r.before.motion.timestep) ∧
        thinLayer.config.Allows f.motion.timestep) := by
  have hconfig : thinLayer.config.validate = .ok () := by
    rfl
  have hmax : thinLayer.config.Allows thinLayer.config.timestepMax := by
    constructor <;> decide +kernel
  obtain ⟨hcourse, hnext, -⟩ := propagate_within_timestep_bounds thinLayer
    hconfig .electron .zero 0.0 middleWords
  exact ⟨hconfig, hnext _ notANumber 1.0 notANumber hmax, hcourse⟩

end Transport

end CarrierTransport
