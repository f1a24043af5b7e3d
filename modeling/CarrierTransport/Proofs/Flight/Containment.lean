import CarrierTransport.Proofs.Flight.Congruence
import CarrierTransport.Scalar.Double

/-!
# Where flights are

After its first step a flight goes on only inside the sensor.  So a group that
has left the sensor left it in its last step, and the segment that is cut at the
surface begins inside or at the deposit.
-/

namespace CarrierTransport

variable {α σ ω : Type}

namespace StepReport

theorem exited_of_motion {r : StepReport α σ} (h : r.state = .motion) :
    r.exited = false := by
  unfold state at h
  cases hc : r.capture <;> cases hr : r.recombined <;> cases hx : r.exited <;>
    simp_all

theorem exited_of_halted {r : StepReport α σ} (h : r.state = .halted) :
    r.exited = true := by
  unfold state at h
  cases hc : r.capture <;> cases hr : r.recombined <;> cases hx : r.exited <;>
    simp_all

theorem after_eq [Scalar α] {r : StepReport α σ} {g : Flight α σ}
    (h : r.after? = some g) :
    g.motion.position = r.position ∧
      g.lastPosition = r.before.motion.position ∧ g.state = r.state := by
  obtain ⟨timestep, -, rfl⟩ := Option.map_eq_some_iff.mp h
  exact ⟨rfl, rfl, rfl⟩

end StepReport

variable [Scalar α]

namespace Transport

theorem state_of_isFlying {t : Transport α} {start : α} {f : Flight α σ}
    (h : t.isFlying start f = true) : f.state = .motion := by
  unfold isFlying at h
  cases hs : f.state <;> simp_all [CarrierState.isTerminal]

theorem outcome_position_of_halted (t : Transport α) (start : α)
    {f : Flight α σ} (h : f.state = .halted) :
    (t.outcome start f).position =
      t.sensor.intercept f.lastPosition f.motion.position :=
  if_pos h

theorem outcome_position_of_ne (t : Transport α) (start : α) {f : Flight α σ}
    (h : f.state ≠ .halted) :
    (t.outcome start f).position = f.motion.position :=
  if_neg h

variable [WordSource σ] {t : Transport α} {carrier : Carrier} {start : α}

/-- A step that leaves a group in motion leaves it in the sensor. -/
theorem contains_of_step {f g : Flight α σ} {r : StepReport α σ}
    (taken : t.step carrier start f = .ok r) (next : r.after? = some g)
    (hstate : g.state = .motion) :
    t.sensor.contains g.motion.position = true := by
  obtain ⟨hposition, -, hg⟩ := StepReport.after_eq next
  have hexited := StepReport.exited_of_motion (hg ▸ hstate)
  rw [(takes_of_step taken).exited, Bool.not_eq_false'] at hexited
  rw [hposition]
  exact hexited

theorem Course.contains {f g : Flight α σ} {reports : List (StepReport α σ)}
    (h : t.Course carrier start f reports g) (hne : reports ≠ [])
    (hstate : g.state = .motion) :
    t.sensor.contains g.motion.position = true := by
  obtain ⟨init, last, m, -, -, -, taken, next⟩ := h.exists_last hne
  exact contains_of_step taken next hstate

/-- Where a flight from `position` is when it ends, by its steps. -/
structure EndsAt (t : Transport α) (position : Vec3 α)
    (reports : List (StepReport α σ)) (o : Outcome α) : Prop where
  unmoved : reports = [] → o.state = .motion ∧ o.position = position
  inMotion : ∀ r, reports.getLast? = some r → o.state = .motion →
    o.position = r.position ∧ t.sensor.contains o.position = true
  halted : o.state = .halted → ∃ r, reports.getLast? = some r ∧
    t.sensor.contains r.position = false ∧
    o.position = t.sensor.intercept r.before.motion.position r.position ∧
    if reports.length = 1 then r.before.motion.position = position
    else t.sensor.contains r.before.motion.position = true
  removed : o.state = .recombined ∨ o.state = .trapped →
    ∃ r, reports.getLast? = some r ∧ o.position = r.position

theorem Course.endsAt {position : Vec3 α} {efield : α} {source : σ}
    {reports : List (StepReport α σ)} {f : Flight α σ}
    (h : t.Course carrier start (t.launch position efield source) reports f) :
    t.EndsAt position reports (t.outcome start f) := by
  by_cases hne : reports = []
  · subst hne
    cases h
    constructor <;> simp [outcome, launch, Motion.start]
  · obtain ⟨init, last, m, rfl, hinit, flying, taken, next⟩ :=
      h.exists_last hne
    obtain ⟨hposition, hlast, hstate⟩ := StepReport.after_eq next
    have hgetLast : (init ++ [last]).getLast? = some last := by simp
    constructor
    · intro hnil
      exact absurd hnil hne
    · intro r hr hmotion
      obtain rfl : last = r := by simpa using hr
      have hmoving : f.state ≠ .halted := by
        rw [show f.state = .motion from hmotion]
        decide
      rw [outcome_position_of_ne t start hmoving]
      exact ⟨hposition, h.contains hne hmotion⟩
    · intro hhalted
      have hexited := StepReport.exited_of_halted (hstate.symm.trans hhalted)
      rw [(takes_of_step taken).exited, Bool.not_eq_true'] at hexited
      refine ⟨last, hgetLast, hexited, ?_, ?_⟩
      · rw [outcome_position_of_halted t start hhalted, hlast, hposition]
      · rw [(takes_of_step taken).before]
        by_cases hfirst : init = []
        · subst hfirst
          cases hinit
          rfl
        · rw [if_neg (by simpa using hfirst)]
          exact hinit.contains hfirst (state_of_isFlying flying)
    · intro hremoved
      have hstopped : f.state ≠ .halted := by
        intro hhalted
        rw [show (t.outcome start f).state = .halted from hhalted] at hremoved
        simp at hremoved
      refine ⟨last, hgetLast, ?_⟩
      rw [outcome_position_of_ne t start hstopped, hposition]

/-- The same sensor but for the point at which a segment is cut. -/
def withIntercept (t : Transport α)
    (intercept : Vec3 α → Vec3 α → Vec3 α) : Transport α :=
  { t with sensor := { t.sensor with intercept := intercept } }

theorem fly_withIntercept (t : Transport α)
    (intercept : Vec3 α → Vec3 α → Vec3 α) (carrier : Carrier) (start : α)
    (observe : StepReport α σ → ω → ω) (budget : Nat) (f : Flight α σ)
    (seen : ω) :
    (t.withIntercept intercept).fly carrier start observe budget f seen =
      t.fly carrier start observe budget f seen :=
  fly_congr (t := t) (u := t.withIntercept intercept) (fun _ => rfl)
    (fun _ => rfl) observe budget f seen

end Transport

/-- The end of a flight, but for its position. -/
def Outcome.unplaced (o : Outcome α) :
    α × α × CarrierState × Nat × CarrierState :=
  (o.time, o.gain, o.state, o.steps, o.diagnostic)

namespace Transport

theorem outcomeNotices_withIntercept (t : Transport α)
    (intercept : Vec3 α → Vec3 α → Vec3 α) (start : α) (f : Flight α σ) :
    outcomeNotices ((t.withIntercept intercept).outcome start f) =
      outcomeNotices (t.outcome start f) := by
  cases hstate : f.state <;> simp [outcomeNotices, outcome, hstate]

/-- The intercept enters the position of a flight and nothing else, neither its
journal nor the numbers that are drawn. -/
theorem propagate_withIntercept [WordSource σ] (t : Transport α)
    (intercept : Vec3 α → Vec3 α → Vec3 α) (budget : Nat) (carrier : Carrier)
    (position : Vec3 α) (start : α) (recorder : Option (Recorder α))
    (source : σ) :
    (fun x => (x.1.unplaced, x.2)) <$> (t.withIntercept intercept).propagate
        budget carrier position start recorder source =
      (fun x => (x.1.unplaced, x.2)) <$> t.propagate budget carrier position
        start recorder source := by
  unfold propagate
  simp only [map_bind, fly_withIntercept]
  refine bind_congr fun efield => bind_congr fun flown => bind_congr fun f => ?_
  rw [outcomeNotices_withIntercept]
  refine bind_congr fun _ => ?_
  simp only [map_pure]
  rfl

/-- Every iteration of a flight but the first begins inside the sensor.  A
flight that succeeds ends where its last step leaves it, and if it was halted at
the intercept of that step; the intercept enters nothing but this position. -/
theorem propagate_within_sensor [WordSource σ] (t : Transport α)
    (carrier : Carrier) (position : Vec3 α) (start : α) (source : σ) :
    (∀ efield reports f,
      t.Course carrier start (t.launch position efield source) reports f →
      reports ≠ [] → t.isFlying start f = true →
      t.sensor.contains f.motion.position = true) ∧
    (∀ budget recorder threshold o recorder' source' journal,
      (t.propagate budget carrier position start recorder source).runFrom
        threshold = (.ok (o, recorder', source'), journal) →
      ∃ efield reports f, t.field.electric position = .ok efield ∧
        t.Course carrier start (t.launch position efield.norm source) reports
          f ∧
        t.isFlying start f = false ∧ o = t.outcome start f ∧
        o.steps = reports.length ∧ t.EndsAt position reports o) ∧
    (∀ intercept budget recorder,
      (fun x => (x.1.unplaced, x.2)) <$> (t.withIntercept intercept).propagate
          budget carrier position start recorder source =
        (fun x => (x.1.unplaced, x.2)) <$> t.propagate budget carrier position
          start recorder source) := by
  refine ⟨?_, ?_, ?_⟩
  · intro efield reports f hcourse hne hflying
    exact hcourse.contains hne (state_of_isFlying hflying)
  · intro budget recorder threshold o recorder' source' journal hrun
    obtain ⟨efield, reports, f, hefield, hcourse, hdone, -, rfl, -, -⟩ :=
      course_of_run hrun
    exact ⟨efield, reports, f, hefield, hcourse, hdone, rfl,
      hcourse.steps_outcome, hcourse.endsAt⟩
  · intro intercept budget recorder
    exact propagate_withIntercept t intercept budget carrier position start
      recorder source

/-- A thin layer in a field along its depth, in which carriers drift and diffuse
and nothing else happens. -/
def thinLayer : Transport Double :=
  .ofParts
    { Config.standard with timestepStart := 0.25, timestepMax := 0.5 }
    ⟨.constant ⟨1.0, 1.0⟩, .none, ⟨none⟩, ⟨none⟩, ⟨.none, 0.01⟩⟩
    (.uniform ⟨0.0, 0.0, -0.5⟩ none none)
    (Box.sensor ⟨.zero, ⟨2.0, 2.0, 0.3⟩⟩ none)

/-- A word whose normal sample is zero and whose uniform number is a half. -/
def middleWords : CyclicWords := .ofArray #[0x8000000000000000]

/-- The state in which a run ends, and the number of its steps. -/
def endOf? (run : Except Fault (Outcome Double × Option (Recorder Double) × σ) ×
    Journal Double) : Option (CarrierState × Nat) :=
  match run with
  | (.ok (o, _, _), _) => some (o.state, o.steps)
  | (.error _, _) => none

theorem ok_of_endOf? {run : Except Fault (Outcome Double ×
      Option (Recorder Double) × σ) × Journal Double}
    {state : CarrierState} {steps : Nat}
    (h : endOf? run = some (state, steps)) :
    ∃ o recorder source journal, run = (.ok (o, recorder, source), journal) ∧
      o.state = state ∧ o.steps = steps := by
  rcases run with ⟨_ | ⟨o, recorder, source⟩, journal⟩
  · cases h
  · obtain ⟨hstate, hsteps⟩ := Prod.mk.inj (Option.some.inj h)
    exact ⟨o, recorder, source, journal, rfl, hstate, hsteps⟩

theorem propagate_within_sensor_thinLayer :
    ∃ o reports r, o.state = .halted ∧ reports.length = 2 ∧
      reports.getLast? = some r ∧
      thinLayer.sensor.contains r.position = false ∧
      thinLayer.sensor.contains r.before.motion.position = true ∧
      o.position = thinLayer.sensor.intercept r.before.motion.position
        r.position ∧
      thinLayer.EndsAt (σ := CyclicWords) .zero reports o := by
  have hends : endOf? ((thinLayer.propagate 2 .electron .zero 0.0 none
      middleWords).runFrom none) = some (.halted, 2) := by
    decide +kernel
  obtain ⟨o, recorder, source, journal, hrun, hstate, htwo⟩ :=
    ok_of_endOf? hends
  obtain ⟨-, hplaces, -⟩ := propagate_within_sensor thinLayer .electron .zero
    0.0 middleWords
  obtain ⟨efield, reports, f, -, -, -, -, hsteps, hend⟩ :=
    hplaces 2 none none o recorder source journal hrun
  have hlength : reports.length = 2 := hsteps.symm.trans htwo
  obtain ⟨r, hlast, hout, hplace, hfrom⟩ := hend.halted hstate
  rw [if_neg (by omega)] at hfrom
  exact ⟨o, reports, r, hstate, hlength, hlast, hout, hfrom, hplace, hend⟩

end Transport

end CarrierTransport
