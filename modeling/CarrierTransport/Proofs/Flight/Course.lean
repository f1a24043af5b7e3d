import CarrierTransport.Flight.Transport
import CarrierTransport.Proofs.Journal

/-!
# Courses

The course of a flight is the list of its steps.  A flight that ends is a course
from its launch to a state in which it no longer goes on, and whoever observes
it sees the steps of that course in order.
-/

namespace CarrierTransport

variable {α σ ω : Type} [Scalar α] [WordSource σ]

namespace Transport

/-- What a step of a flight says: each part is what the models, the field and
the sensor give for it, and the numbers are drawn in their order. -/
structure Takes (t : Transport α) (carrier : Carrier) (start : α)
    (f : Flight α σ) (r : StepReport α σ) : Prop where
  before : r.before = f
  drift : f.motion.advance t.tableau (fun _ p => t.velocity carrier p) =
    .ok r.drift
  efield : ∃ e, t.field.electric r.drift.after.position = .ok e ∧
    r.efield = e.norm
  position : r.position = r.drift.after.position + r.spread.displacement
  exited : r.exited = !t.sensor.contains r.position
  draws : ∃ near far source,
    t.field.doping r.drift.after.position = .ok near ∧
    diffuse f.source (t.models.mobility.evaluate carrier r.efield near)
      t.config.temperature f.motion.timestep = some (r.spread, source) ∧
    t.field.doping r.position = .ok far ∧
    r.recombined = t.models.recombination.recombines carrier far
      (Random.uniform source).1 f.motion.timestep ∧
    (r.capture, r.source) = t.drawCapture carrier start r.drift.after.time
      f.motion.timestep (Random.uniform (α := α) source).2
  factor : r.factor = t.models.ionization.gain carrier
    ((r.efield + f.efield) / 2.0) r.drift.step.norm
  nextTimestep : r.nextTimestep = t.config.nextTimestep? f.motion.timestep
    (t.sensor.topFace - r.position.z) r.drift.step.z r.drift.error.norm

theorem takes_of_step {t : Transport α} {carrier : Carrier} {start : α}
    {f : Flight α σ} {r : StepReport α σ}
    (h : t.step carrier start f = .ok r) : t.Takes carrier start f r := by
  obtain ⟨drift, hdrift, h⟩ := bind_eq_ok.mp h
  obtain ⟨e, he, h⟩ := bind_eq_ok.mp h
  obtain ⟨near, hnear, h⟩ := bind_eq_ok.mp h
  dsimp only at h
  cases hspread : diffuse f.source (t.models.mobility.evaluate carrier e.norm
      near) t.config.temperature f.motion.timestep with
  | none =>
    rw [hspread] at h
    cases h
  | some drawn =>
    obtain ⟨spread, source⟩ := drawn
    rw [hspread] at h
    obtain ⟨far, hfar, h⟩ := bind_eq_ok.mp h
    cases h
    exact ⟨rfl, hdrift, ⟨e, he, rfl⟩, rfl, rfl,
      ⟨near, far, source, hnear, hspread, hfar, rfl, rfl⟩, rfl, rfl⟩

/-- `g` is what becomes of `f` by these steps. -/
inductive Course (t : Transport α) (carrier : Carrier) (start : α) :
    Flight α σ → List (StepReport α σ) → Flight α σ → Prop
  | done (f : Flight α σ) : Course t carrier start f [] f
  | step {f g h : Flight α σ} {report : StepReport α σ}
      {reports : List (StepReport α σ)} :
      t.isFlying start f = true → t.step carrier start f = .ok report →
      report.after? = some g → Course t carrier start g reports h →
      Course t carrier start f (report :: reports) h

namespace Course

variable {t : Transport α} {carrier : Carrier} {start : α}
variable {f g : Flight α σ} {reports : List (StepReport α σ)}

/-- What holds at the beginning and is kept by every step holds at the end. -/
theorem invariant {P : Flight α σ → Prop}
    (keeps : ∀ f r g, t.isFlying start f = true → t.Takes carrier start f r →
      r.after? = some g → P f → P g)
    (h : t.Course carrier start f reports g) (hf : P f) : P g := by
  induction h with
  | done => exact hf
  | step flying taken next _ ih =>
      exact ih (keeps _ _ _ flying (takes_of_step taken) next hf)

/-- What every step keeps holds before each of them. -/
theorem forall_before {P : Flight α σ → Prop}
    (keeps : ∀ f r g, t.isFlying start f = true → t.Takes carrier start f r →
      r.after? = some g → P f → P g)
    (h : t.Course carrier start f reports g) (hf : P f) :
    ∀ r ∈ reports, P r.before := by
  induction h with
  | done => simp
  | step flying taken next _ ih =>
      have hbefore := (takes_of_step taken).before
      intro r hr
      obtain rfl | hr := List.mem_cons.mp hr
      · rw [hbefore]
        exact hf
      · exact ih (keeps _ _ _ flying (takes_of_step taken) next hf) r hr

theorem forall_takes (h : t.Course carrier start f reports g) :
    ∀ r ∈ reports, t.isFlying start r.before = true ∧
      t.Takes carrier start r.before r := by
  induction h with
  | done => simp
  | step flying taken next _ ih =>
      have htakes := takes_of_step taken
      intro r hr
      obtain rfl | hr := List.mem_cons.mp hr
      · rw [htakes.before]
        exact ⟨flying, htakes⟩
      · exact ih r hr

theorem append {m : Flight α σ} {more : List (StepReport α σ)}
    (h : t.Course carrier start f reports m)
    (rest : t.Course carrier start m more g) :
    t.Course carrier start f (reports ++ more) g := by
  induction h with
  | done => exact rest
  | step flying taken next _ ih => exact .step flying taken next (ih rest)

/-- The first steps of a course are a course themselves. -/
theorem take (h : t.Course carrier start f reports g) (n : Nat) :
    ∃ m, t.Course carrier start f (reports.take n) m := by
  induction h generalizing n with
  | done f =>
      rw [List.take_nil]
      exact ⟨f, .done f⟩
  | @step f _ _ _ _ flying taken next _ ih =>
      cases n with
      | zero => exact ⟨f, .done f⟩
      | succ n =>
          obtain ⟨m, hm⟩ := ih n
          exact ⟨m, .step flying taken next hm⟩

theorem exists_last (h : t.Course carrier start f reports g)
    (hne : reports ≠ []) :
    ∃ init last m, reports = init ++ [last] ∧
      t.Course carrier start f init m ∧ t.isFlying start m = true ∧
      t.step carrier start m = .ok last ∧ last.after? = some g := by
  induction h with
  | done => exact absurd rfl hne
  | @step f m g report reports flying taken next rest ih =>
      cases reports with
      | nil =>
          cases rest
          exact ⟨[], report, f, rfl, .done f, flying, taken, next⟩
      | cons second reports =>
          obtain ⟨init, last, k, hinit, hcourse, hlast⟩ := ih (by simp)
          rw [hinit]
          exact ⟨report :: init, last, k, rfl,
            .step flying taken next hcourse, hlast⟩

theorem steps_eq (h : t.Course carrier start f reports g) :
    g.steps = f.steps + reports.length := by
  induction h with
  | done => rfl
  | step _ taken next _ ih =>
      obtain ⟨timestep, -, rfl⟩ := Option.map_eq_some_iff.mp next
      rw [ih, (takes_of_step taken).before, List.length_cons]
      change _ + 1 + _ = _
      omega

theorem steps_outcome {position : Vec3 α} {efield : α} {source : σ}
    (h : t.Course carrier start (t.launch position efield source) reports f) :
    (t.outcome start f).steps = reports.length :=
  h.steps_eq.trans (Nat.zero_add _)

end Course

def trace (t : Transport α) (carrier : Carrier) (start : α) (budget : Nat)
    (f : Flight α σ) : Except Fault (Flight α σ) × List (StepReport α σ) :=
  t.fly carrier start (fun report reports => reports ++ [report]) budget f []

private theorem foldl_snoc {β : Type} (items all : List β) :
    items.foldl (fun all item => all ++ [item]) all = all ++ items := by
  induction items generalizing all with
  | nil => simp
  | cons item items ih => simp [ih]

section Trace

variable {t : Transport α} {carrier : Carrier} {start : α}
variable {f g : Flight α σ} {reports : List (StepReport α σ)}

/-- An observer sees the steps of the flight in order and nothing else. -/
theorem fly_eq_trace (t : Transport α) (carrier : Carrier) (start : α)
    (observe : StepReport α σ → ω → ω) (budget : Nat) (f : Flight α σ)
    (seen : ω) :
    t.fly carrier start observe budget f seen =
      ((t.trace carrier start budget f).1,
        (t.trace carrier start budget f).2.foldl
          (fun seen report => observe report seen) seen) := by
  -- The observer that lists the steps is shown the first of them and continues
  -- with a list that is not empty, so the induction is over all observers.
  induction budget generalizing ω f seen with
  | zero => rfl
  | succ budget ih =>
      rw [trace, fly, fly]
      by_cases flying : t.isFlying start f = true
      · rw [if_pos flying, if_pos flying]
        cases t.step carrier start f with
        | error fault => rfl
        | ok report =>
            cases next : report.after? with
            | none => simp [next]
            | some g =>
                simp only [next]
                rw [ih observe, ih, foldl_snoc]
                rfl
      · rw [if_neg flying, if_neg flying]
        rfl

theorem trace_of_done (h : t.isFlying start f = false) (budget : Nat) :
    t.trace carrier start budget f = (.ok f, []) := by
  cases budget <;> simp [trace, fly, h]

theorem trace_of_step {report : StepReport α σ}
    (flying : t.isFlying start f = true)
    (taken : t.step carrier start f = .ok report)
    (next : report.after? = some g) (budget : Nat) :
    t.trace carrier start (budget + 1) f =
      ((t.trace carrier start budget g).1,
        report :: (t.trace carrier start budget g).2) := by
  rw [trace, fly, if_pos flying, taken]
  simp only [next]
  rw [fly_eq_trace, foldl_snoc]
  rfl

theorem Course.trace_eq (h : t.Course carrier start f reports g)
    (budget : Nat) :
    t.trace carrier start (reports.length + budget) f =
      ((t.trace carrier start budget g).1,
        reports ++ (t.trace carrier start budget g).2) := by
  induction h with
  | done => simp
  | @step f m g report reports flying taken next _ ih =>
      rw [List.length_cons, Nat.add_right_comm,
        trace_of_step flying taken next, ih]
      rfl

theorem course_of_trace {budget : Nat}
    (h : t.trace carrier start budget f = (.ok g, reports)) :
    t.Course carrier start f reports g ∧ t.isFlying start g = false ∧
      reports.length ≤ budget := by
  induction budget generalizing f reports with
  | zero =>
      cases flying : t.isFlying start f with
      | true => simp [trace, fly, flying] at h
      | false =>
          rw [trace_of_done flying] at h
          cases h
          exact ⟨.done _, flying, Nat.le_refl 0⟩
  | succ budget ih =>
      cases flying : t.isFlying start f with
      | false =>
          rw [trace_of_done flying] at h
          cases h
          exact ⟨.done _, flying, Nat.zero_le _⟩
      | true =>
          cases taken : t.step carrier start f with
          | error fault => simp [trace, fly, flying, taken] at h
          | ok report =>
              cases next : report.after? with
              | none => simp [trace, fly, flying, taken, next] at h
              | some m =>
                  rw [trace_of_step flying taken next] at h
                  cases hrest : t.trace carrier start budget m with
                  | mk ended rest =>
                      rw [hrest] at h
                      cases h
                      obtain ⟨hcourse, hdone, hlength⟩ := ih hrest
                      exact ⟨.step flying taken next hcourse, hdone,
                        Nat.succ_le_succ hlength⟩

/-- What is shown of no steps and kept by one more step in front holds of the
steps of every flight, also of one that fails. -/
theorem trace_induction {P : Flight α σ → List (StepReport α σ) → Prop}
    (nil : ∀ f, P f [])
    (last : ∀ f r, t.Takes carrier start f r → P f [r])
    (cons : ∀ f r g reports, t.Takes carrier start f r → r.after? = some g →
      P g reports → P f (r :: reports))
    (budget : Nat) (f : Flight α σ) :
    P f (t.trace carrier start budget f).2 := by
  induction budget generalizing f with
  | zero => exact nil f
  | succ budget ih =>
      cases flying : t.isFlying start f with
      | false =>
          rw [trace_of_done flying]
          exact nil f
      | true =>
          cases taken : t.step carrier start f with
          | error fault =>
              simp only [trace, fly, flying, if_true, taken]
              exact nil f
          | ok r =>
              have htakes := takes_of_step taken
              cases next : r.after? with
              | none =>
                  simp only [trace, fly, flying, if_true, taken, next]
                  exact last f r htakes
              | some g =>
                  rw [trace_of_step flying taken next]
                  exact cons f r g _ htakes next (ih g)

/-- A flight ends in `g` after these steps if and only if they are its course
there and it goes no further. -/
theorem trace_eq_ok_iff {budget : Nat} :
    t.trace carrier start budget f = (.ok g, reports) ↔
      t.Course carrier start f reports g ∧ t.isFlying start g = false ∧
        reports.length ≤ budget := by
  constructor
  · exact course_of_trace
  · rintro ⟨hcourse, hdone, hlength⟩
    obtain ⟨rest, rfl⟩ := Nat.exists_eq_add_of_le hlength
    rw [hcourse.trace_eq, trace_of_done hdone]
    simp

end Trace

end Transport

/-- A recorder that is shown the beginning of each of these steps. -/
def Recorder.follow (recorder : Recorder α) (reports : List (StepReport α σ)) :
    Recorder α :=
  reports.foldl (fun recorder report =>
    recorder.sample report.before.motion.time report.before.motion.position)
    recorder

namespace Transport

omit [WordSource σ] in
theorem watch_follow (start : α) (reports : List (StepReport α σ))
    (journal : Journal α) (recorder : Option (Recorder α)) :
    (reports.foldl (fun seen report => watch start report seen)
      (journal, recorder)).2 = recorder.map (·.follow reports) := by
  induction reports generalizing journal recorder with
  | nil => simp [Recorder.follow]
  | cons report reports ih =>
      rw [List.foldl_cons, watch, ih]
      cases recorder <;> rfl

/-- What a flight gives: neither the journal nor the recorder has a part in how
it ends, and the recorder follows its steps. -/
theorem propagate_gives (t : Transport α) (budget : Nat) (carrier : Carrier)
    (position : Vec3 α) (start : α) (recorder : Option (Recorder α))
    (source : σ) :
    (t.propagate budget carrier position start recorder source).Gives (do
      let efield ← t.field.electric position
      let trace := t.trace carrier start budget
        (t.launch position efield.norm source)
      let f ← trace.1
      return (t.outcome start f, recorder.map (·.follow trace.2),
        f.source)) := by
  refine (Logged.Gives.ofExcept _).bind fun efield => ?_
  dsimp only
  have hfly (journal : Journal α) := fly_eq_trace t carrier start (watch start)
    budget (t.launch position efield.norm source) (journal, recorder)
  generalize t.trace carrier start budget
    (t.launch position efield.norm source) = trace at hfly ⊢
  refine (Logged.Gives.modifyGet
    (b := (trace.1, recorder.map (·.follow trace.2)))
      fun journal => ?_).after ?_
  · simp only [hfly, watch_follow]
  · refine (Logged.Gives.ofExcept _).bind fun f => ?_
    exact (Logged.Gives.forM_log _).after (.pure _)

theorem propagate_result_eq_ok_iff {t : Transport α} {budget : Nat}
    {carrier : Carrier} {position : Vec3 α} {start : α}
    {recorder recorder' : Option (Recorder α)} {source source' : σ}
    {o : Outcome α} :
    (t.propagate budget carrier position start recorder source).result =
        .ok (o, recorder', source') ↔
      ∃ efield reports f, t.field.electric position = .ok efield ∧
        t.Course carrier start (t.launch position efield.norm source) reports
          f ∧
        t.isFlying start f = false ∧ reports.length ≤ budget ∧
        o = t.outcome start f ∧ recorder' = recorder.map (·.follow reports) ∧
        source' = f.source := by
  rw [(propagate_gives t budget carrier position start recorder
    source).result_eq]
  constructor
  · intro h
    obtain ⟨efield, hefield, h⟩ := bind_eq_ok.mp h
    obtain ⟨f, hf, h⟩ := bind_eq_ok.mp h
    cases h
    obtain ⟨hcourse, hdone, hlength⟩ := course_of_trace (Prod.ext hf rfl)
    exact ⟨efield, _, f, hefield, hcourse, hdone, hlength, rfl, rfl, rfl⟩
  · rintro ⟨efield, reports, f, hefield, hcourse, hdone, hlength, rfl, rfl,
      rfl⟩
    have htrace := trace_eq_ok_iff.mpr ⟨hcourse, hdone, hlength⟩
    rw [hefield]
    change (t.trace carrier start budget
      (t.launch position efield.norm source)).1 >>= _ = _
    rw [htrace]
    rfl

theorem result_of_run {t : Transport α} {budget : Nat} {carrier : Carrier}
    {position : Vec3 α} {start : α} {recorder : Option (Recorder α)}
    {source : σ} {flown : Except Fault (Outcome α × Option (Recorder α) × σ)}
    {threshold : Option Level} {journal : Journal α}
    (h : (t.propagate budget carrier position start recorder source).runFrom
      threshold = (flown, journal)) :
    (t.propagate budget carrier position start recorder source).result =
      flown :=
  (propagate_gives t budget carrier position start recorder
    source).result_of_run h

/-- A run that succeeds is a course from the launch to an end. -/
theorem course_of_run {t : Transport α} {budget : Nat} {carrier : Carrier}
    {position : Vec3 α} {start : α} {recorder recorder' : Option (Recorder α)}
    {source source' : σ} {o : Outcome α} {threshold : Option Level}
    {journal : Journal α}
    (h : (t.propagate budget carrier position start recorder source).runFrom
      threshold = (.ok (o, recorder', source'), journal)) :
    ∃ efield reports f, t.field.electric position = .ok efield ∧
      t.Course carrier start (t.launch position efield.norm source) reports
        f ∧
      t.isFlying start f = false ∧ reports.length ≤ budget ∧
      o = t.outcome start f ∧ recorder' = recorder.map (·.follow reports) ∧
      source' = f.source :=
  propagate_result_eq_ok_iff.mp (result_of_run h)

/-- A run with steps to spare goes on from the end of any course that begins at
its launch. -/
theorem Course.run_eq {t : Transport α} {carrier : Carrier}
    {position : Vec3 α} {start : α} {source : σ} {efield : Vec3 α}
    {reports : List (StepReport α σ)} {f : Flight α σ}
    (h : t.Course carrier start (t.launch position efield.norm source) reports
      f)
    (hefield : t.field.electric position = .ok efield) (more : Nat)
    (recorder : Option (Recorder α)) (threshold : Option Level) :
    ((t.propagate (reports.length + more) carrier position start recorder
        source).runFrom threshold).1 = (do
      let rest := t.trace carrier start more f
      let last ← rest.1
      return (t.outcome start last,
        (recorder.map (·.follow reports)).map (·.follow rest.2),
        last.source)) := by
  rw [(propagate_gives t _ carrier position start recorder source).runFrom,
    hefield, ok_bind]
  dsimp only
  rw [h.trace_eq more, Option.map_map]
  simp only [Recorder.follow, List.foldl_append]
  rfl

end Transport

end CarrierTransport
