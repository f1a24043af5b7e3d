import CarrierTransport.Proofs.Flight.Course

/-!
# How flights fail

A flight has no outcome because its steps ran out, because the bounds of the
timestep are not in order, because the field has no answer at some position, or
because a normal sample was given up.
-/

namespace CarrierTransport

variable {α σ ω : Type}

/-- The field fails in this way at some position. -/
inductive Field.Fails (field : Field α) (fault : Fault) : Prop
  | electric {p : Vec3 α} : field.electric p = .error fault → Fails field fault
  | magnetic {p : Vec3 α} : field.magnetic p = .error fault → Fails field fault
  | doping {p : Vec3 α} : field.doping p = .error fault → Fails field fault

theorem Field.not_fails_uniform [Scalar α] (electric : Vec3 α)
    (magnetic : Option (Vec3 α)) (doping : Option α) (fault : Fault) :
    ¬(uniform electric magnetic doping).Fails fault := by
  intro hfails
  rcases hfails with hfails | hfails | hfails <;> cases hfails

theorem Motion.stages_eq_error [Arithmetic α] {ε : Type}
    {velocity : α → Vec3 α → Except ε (Vec3 α)} {motion : Motion α}
    {nodes : List (α × List α)} {taken : List (Vec3 α)} {failure : ε}
    (h : stages velocity motion nodes taken = .error failure) :
    ∃ time p, velocity time p = .error failure := by
  induction nodes generalizing taken with
  | nil => cases h
  | cons node nodes ih =>
      obtain hvelocity | ⟨v, -, hrest⟩ := bind_eq_error.mp h
      · exact ⟨_, _, hvelocity⟩
      · exact ih hrest

theorem Motion.advance_eq_error [Arithmetic α] {ε : Type}
    {tableau : Tableau α} {velocity : α → Vec3 α → Except ε (Vec3 α)}
    {motion : Motion α} {failure : ε}
    (h : motion.advance tableau velocity = .error failure) :
    ∃ time p, velocity time p = .error failure := by
  obtain hstages | ⟨taken, -, hrest⟩ := bind_eq_error.mp h
  · exact stages_eq_error hstages
  · cases hrest

variable [Scalar α]

namespace Transport

theorem velocity_eq_error {t : Transport α} {carrier : Carrier} {p : Vec3 α}
    {fault : Fault} (h : t.velocity carrier p = .error fault) :
    t.field.Fails fault := by
  obtain helectric | ⟨efield, -, h⟩ := bind_eq_error.mp h
  · exact .electric helectric
  obtain hdoping | ⟨doping, -, h⟩ := bind_eq_error.mp h
  · exact .doping hdoping
  dsimp only at h
  split at h
  · obtain hmagnetic | ⟨bfield, -, h⟩ := bind_eq_error.mp h
    · exact .magnetic hmagnetic
    · cases h
  · cases h

variable [WordSource σ]

/-- A normal sample of the next step is given up after too many rejections. -/
def SampleFails (t : Transport α) (f : Flight α σ) : Prop :=
  ∃ mobility : α,
    diffuse f.source mobility t.config.temperature f.motion.timestep = none

/-- Why a step of `f` gives nothing. -/
inductive StepFails (t : Transport α) (f : Flight α σ) : Fault → Prop
  | field {fault : Fault} : t.field.Fails fault → StepFails t f fault
  | sample : t.SampleFails f → StepFails t f .unfinished

theorem stepFails_of_step {t : Transport α} {carrier : Carrier} {start : α}
    {f : Flight α σ} {fault : Fault}
    (h : t.step carrier start f = .error fault) : t.StepFails f fault := by
  obtain hdrift | ⟨drift, -, h⟩ := bind_eq_error.mp h
  · obtain ⟨_, p, hvelocity⟩ := Motion.advance_eq_error hdrift
    exact .field (velocity_eq_error hvelocity)
  obtain helectric | ⟨efield, -, h⟩ := bind_eq_error.mp h
  · exact .field (.electric helectric)
  obtain hdoping | ⟨near, -, h⟩ := bind_eq_error.mp h
  · exact .field (.doping hdoping)
  dsimp only at h
  split at h
  · cases h
    exact .sample ⟨_, ‹_›⟩
  · obtain hdoping | ⟨far, -, h⟩ := bind_eq_error.mp h
    · exact .field (.doping hdoping)
    · cases h

/-- Why a flight in `f` goes no further when this many steps are left to it. -/
inductive Stops (t : Transport α) (carrier : Carrier) (start : α)
    (f : Flight α σ) : Nat → Fault → Prop
  | spent : Stops t carrier start f 0 .unfinished
  | step {left : Nat} {fault : Fault} : t.StepFails f fault →
      Stops t carrier start f (left + 1) fault
  | bounds {left : Nat} {r : StepReport α σ} :
      t.step carrier start f = .ok r → r.nextTimestep = none →
      Stops t carrier start f (left + 1) .timestepBounds

variable {t : Transport α} {carrier : Carrier} {start : α}

theorem trace_eq_error {budget : Nat} {f : Flight α σ} {fault : Fault}
    (h : (t.trace carrier start budget f).1 = .error fault) :
    ∃ reports g left, t.Course carrier start f reports g ∧
      t.isFlying start g = true ∧ reports.length + left = budget ∧
      t.Stops carrier start g left fault := by
  induction budget generalizing f with
  | zero =>
      cases flying : t.isFlying start f with
      | false =>
          rw [trace_of_done flying] at h
          cases h
      | true =>
          simp only [trace, fly, flying, if_true] at h
          cases h
          exact ⟨[], f, 0, .done f, flying, rfl, .spent⟩
  | succ budget ih =>
      cases flying : t.isFlying start f with
      | false =>
          rw [trace_of_done flying] at h
          cases h
      | true =>
          cases taken : t.step carrier start f with
          | error cause =>
              simp only [trace, fly, flying, if_true, taken] at h
              cases h
              exact ⟨[], f, budget + 1, .done f, flying, Nat.zero_add _,
                .step (stepFails_of_step taken)⟩
          | ok report =>
              cases next : report.after? with
              | none =>
                  simp only [trace, fly, flying, if_true, taken, next] at h
                  cases h
                  exact ⟨[], f, budget + 1, .done f, flying, Nat.zero_add _,
                    .bounds taken (Option.map_eq_none_iff.mp next)⟩
              | some m =>
                  rw [trace_of_step flying taken next] at h
                  obtain ⟨reports, g, left, hcourse, hflying, hlength,
                    hstops⟩ := ih h
                  refine ⟨report :: reports, g, left,
                    .step flying taken next hcourse, hflying, ?_, hstops⟩
                  rw [List.length_cons]
                  omega

/-- A flight without an outcome had no field at its start or stopped after some
of its steps. -/
theorem propagate_eq_error {budget : Nat} {position : Vec3 α}
    {recorder : Option (Recorder α)} {source : σ} {fault : Fault}
    (h : (t.propagate budget carrier position start recorder source).result =
      .error fault) :
    t.field.electric position = .error fault ∨
      ∃ efield reports f left, t.field.electric position = .ok efield ∧
        t.Course carrier start (t.launch position efield.norm source) reports
          f ∧
        t.isFlying start f = true ∧ reports.length + left = budget ∧
        t.Stops carrier start f left fault := by
  rw [(propagate_gives t budget carrier position start recorder
    source).result_eq] at h
  obtain hefield | ⟨efield, hefield, h⟩ := bind_eq_error.mp h
  · exact .inl hefield
  obtain htrace | ⟨f, -, h⟩ := bind_eq_error.mp h
  · obtain ⟨reports, f, left, hstops⟩ := trace_eq_error htrace
    exact .inr ⟨efield, reports, f, left, hefield, hstops⟩
  · cases h

end Transport

end CarrierTransport
