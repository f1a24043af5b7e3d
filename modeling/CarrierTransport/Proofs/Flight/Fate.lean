import CarrierTransport.Proofs.Flight.Draws

/-!
# The fate of a group

A step tests whether the group is outside, whether it recombines and whether it
is captured, one after the other, and a later test overrules those before it.
The same fates follow from a plainer account: a flight goes on until the first
step that ends it, or until the window is closed, and nothing but that last step
decides.
-/

namespace CarrierTransport

variable {α σ : Type} [Scalar α]

namespace Transport

/-- The step captures the group, and there is no release within the window. -/
def keeps (t : Transport α) (start : α) (r : StepReport α σ) : Bool :=
  match r.capture.stay? with
  | none => false
  | some none => true
  | some (some delay) =>
      !decide (start + r.drift.after.time + delay < t.config.integrationTime)

def ends (t : Transport α) (start : α) (r : StepReport α σ) : Bool :=
  !t.sensor.contains r.position || r.recombined || t.keeps start r

def fate (t : Transport α) (start : α) (r : StepReport α σ) : CarrierState :=
  if t.keeps start r then .trapped
  else if r.recombined then .recombined
  else if !t.sensor.contains r.position then .halted
  else .motion

/-- The time after a step, with the delay of a release within the window. -/
def elapsed (t : Transport α) (start : α) (r : StepReport α σ) : α :=
  match r.capture.stay? with
  | some (some delay) =>
      if t.keeps start r then r.drift.after.time
      else r.drift.after.time + delay
  | _ => r.drift.after.time

def proceed (t : Transport α) (start : α) (f : Flight α σ)
    (r : StepReport α σ) (timestep : α) : Flight α σ where
  motion := ⟨r.position, t.elapsed start r, timestep⟩
  lastPosition := f.motion.position
  efield := r.efield
  gain := f.gain * r.factor
  steps := f.steps + 1
  state := t.fate start r
  source := r.source

/-- Steps until the first that ends the flight, or until the window is closed,
and the list of them. -/
def roam [WordSource σ] (t : Transport α) (carrier : Carrier) (start : α) :
    Nat → Flight α σ → Except Fault (Flight α σ × List (StepReport α σ))
  | 0, f =>
      if t.inWindow start f.motion.time then .error .unfinished
      else .ok (f, [])
  | budget + 1, f =>
      if t.inWindow start f.motion.time then do
        let r ← t.step carrier start f
        match r.nextTimestep with
        | none => .error .timestepBounds
        | some timestep =>
            let g := t.proceed start f r timestep
            if t.ends start r then return (g, [r])
            let (last, reports) ← t.roam carrier start budget g
            return (last, r :: reports)
      else .ok (f, [])

theorem fate_eq_motion_iff (t : Transport α) (start : α)
    (r : StepReport α σ) :
    t.fate start r = .motion ↔ t.ends start r = false := by
  unfold fate ends
  cases t.keeps start r <;> cases r.recombined <;>
    cases t.sensor.contains r.position <;> simp

theorem fate_ne_unknown (t : Transport α) (start : α) (r : StepReport α σ) :
    t.fate start r ≠ .unknown := by
  unfold fate
  cases t.keeps start r <;> cases r.recombined <;>
    cases t.sensor.contains r.position <;> simp

theorem isFlying_of_motion {t : Transport α} {start : α} {f : Flight α σ}
    (h : f.state = .motion) :
    t.isFlying start f = t.inWindow start f.motion.time := by
  simp [isFlying, h, CarrierState.isTerminal]

theorem isFlying_of_ne {t : Transport α} {start : α} {f : Flight α σ}
    (h : f.state ≠ .motion) : t.isFlying start f = false := by
  unfold isFlying
  cases hstate : f.state <;> simp_all [CarrierState.isTerminal]

variable [WordSource σ] {t : Transport α} {carrier : Carrier} {start : α}

/-! ## One step -/

/-- A capture is settled by the window: a release falls within it, and a group
that is held would be released after it. -/
theorem settled_of_drawCapture {time timestep : α} {source source' : σ}
    {capture : Capture α}
    (h : t.drawCapture carrier start time timestep source =
      (capture, source')) :
    (∀ delay, capture = .released delay →
      start + time + delay < t.config.integrationTime) ∧
    (∀ delay, capture = .held (some delay) →
      ¬start + time + delay < t.config.integrationTime) := by
  unfold drawCapture at h
  dsimp only at h
  split at h
  · obtain ⟨rfl, -⟩ := Prod.mk.inj h
    unfold settle
    split
    · simp
    · rename_i delay _
      by_cases hwindow : start + time + delay < t.config.integrationTime <;>
        simp [hwindow]
  · obtain ⟨rfl, -⟩ := Prod.mk.inj h
    simp

section Step

variable {f g : Flight α σ} {r : StepReport α σ}

theorem Takes.settled (h : t.Takes carrier start f r) :
    (∀ delay, r.capture = .released delay →
      start + r.drift.after.time + delay < t.config.integrationTime) ∧
    (∀ delay, r.capture = .held (some delay) →
      ¬start + r.drift.after.time + delay < t.config.integrationTime) := by
  obtain ⟨_, _, _, -, -, -, -, hcapture⟩ := h.draws
  exact settled_of_drawCapture hcapture.symm

theorem Takes.state_eq_fate (h : t.Takes carrier start f r) :
    r.state = t.fate start r := by
  obtain ⟨hreleased, hheld⟩ := h.settled
  unfold StepReport.state fate keeps
  rw [h.exited]
  cases hcapture : r.capture with
  | free => rfl
  | released delay => simp [Capture.stay?, hreleased delay hcapture]
  | held delay? =>
      cases delay? with
      | none => rfl
      | some delay => simp [Capture.stay?, hheld delay hcapture]

theorem Takes.time_eq_elapsed (h : t.Takes carrier start f r) :
    r.time = t.elapsed start r := by
  obtain ⟨hreleased, hheld⟩ := h.settled
  unfold StepReport.time elapsed keeps
  cases hcapture : r.capture with
  | free => rfl
  | released delay => simp [Capture.stay?, hreleased delay hcapture]
  | held delay? =>
      cases delay? with
      | none => rfl
      | some delay => simp [Capture.stay?, hheld delay hcapture]

theorem Takes.after?_eq (h : t.Takes carrier start f r) :
    r.after? = r.nextTimestep.map (t.proceed start f r) := by
  unfold StepReport.after?
  congr 1
  funext timestep
  rw [h.state_eq_fate, h.time_eq_elapsed, StepReport.gain, h.before]
  rfl

theorem Takes.stay?_of_untrapped (h : t.Takes carrier start f r)
    (hnone : t.models.trapping.times = none) : r.capture.stay? = none := by
  obtain ⟨_, _, release, hdraws⟩ := h.draws_in_order
  have hcaptured := hdraws.captured
  simp only [Trapping.captures, hnone, Option.isSome_eq_false_iff,
    Option.isNone_iff_eq_none] at hcaptured
  rw [hdraws.stay, hcaptured, Option.map_none]

theorem Takes.keeps_of_untrapped (h : t.Takes carrier start f r)
    (hnone : t.models.trapping.times = none) : t.keeps start r = false := by
  simp [keeps, h.stay?_of_untrapped hnone]

theorem Takes.recombined_of_none (h : t.Takes carrier start f r)
    (hnone : t.models.recombination = .none) : r.recombined = false := by
  obtain ⟨_, _, _, hdraws⟩ := h.draws_in_order
  obtain ⟨doping, -, hrecombined⟩ := hdraws.recombined
  rw [hrecombined, hnone]
  rfl

theorem Takes.keeps_of_unreleased (h : t.Takes carrier start f r)
    (hnone : t.models.detrapping.mean = none) (hcaptured : r.isCaptured) :
    t.keeps start r = true := by
  obtain ⟨_, _, release, hdraws⟩ := h.draws_in_order
  have hstay := hdraws.stay
  unfold StepReport.isCaptured at hcaptured
  cases release with
  | none => simp [hstay] at hcaptured
  | some draw =>
      rw [Option.map_some, Detrapping.delay?, hnone] at hstay
      simp [keeps, hstay]

end Step

/-! ## Whole flights -/

/-- The flight of a group in motion is the one of the plain account. -/
theorem roam_eq_trace (t : Transport α) (carrier : Carrier) (start : α)
    (budget : Nat) {f : Flight α σ} (h : f.state = .motion) :
    t.roam carrier start budget f = (do
      let last ← (t.trace carrier start budget f).1
      return (last, (t.trace carrier start budget f).2)) := by
  induction budget generalizing f with
  | zero =>
      rw [roam, trace, fly, isFlying_of_motion h]
      split <;> rfl
  | succ budget ih =>
      have hflying : t.isFlying start f = t.inWindow start f.motion.time :=
        isFlying_of_motion h
      cases hwindow : t.inWindow start f.motion.time with
      | false =>
          rw [trace_of_done (hflying.trans hwindow), roam, hwindow]
          rfl
      | true =>
          rw [hwindow] at hflying
          rw [roam, hwindow, if_pos rfl]
          cases taken : t.step carrier start f with
          | error fault =>
              rw [trace, fly, if_pos hflying, taken]
              rfl
          | ok r =>
              have hafter := (takes_of_step taken).after?_eq
              cases htimestep : r.nextTimestep with
              | none =>
                  rw [htimestep, Option.map_none] at hafter
                  rw [trace, fly, if_pos hflying, taken]
                  simp only [hafter]
                  rw [ok_bind, htimestep]
                  rfl
              | some timestep =>
                  rw [htimestep, Option.map_some] at hafter
                  rw [trace_of_step hflying taken hafter, ok_bind,
                    htimestep]
                  -- Here the account stops, while the loop finds the state
                  -- terminal at its next test.
                  cases hends : t.ends start r with
                  | true =>
                      have hstop : t.fate start r ≠ .motion := fun hmotion =>
                        by simp [(t.fate_eq_motion_iff start r).mp hmotion]
                          at hends
                      rw [trace_of_done (isFlying_of_ne hstop)]
                      rfl
                  | false =>
                      have hmotion := (t.fate_eq_motion_iff start r).mpr hends
                      dsimp only
                      rw [ih hmotion]
                      cases (t.trace carrier start budget
                        (t.proceed start f r timestep)).1 <;> rfl

namespace Course

variable {f g : Flight α σ} {reports : List (StepReport α σ)}

theorem split {before after : List (StepReport α σ)} {r : StepReport α σ}
    (h : t.Course carrier start f (before ++ r :: after) g) :
    ∃ m n, t.Course carrier start f before m ∧ t.isFlying start m = true ∧
      t.step carrier start m = .ok r ∧ r.after? = some n ∧
      t.Course carrier start n after g := by
  induction before generalizing f with
  | nil =>
      cases h with
      | step flying taken next rest =>
          exact ⟨f, _, .done f, flying, taken, next, rest⟩
  | cons first before ih =>
      cases h with
      | step flying taken next rest =>
          obtain ⟨m, n, hbefore, hrest⟩ := ih rest
          exact ⟨m, n, .step flying taken next hbefore, hrest⟩

theorem eq_nil_of_done (h : t.Course carrier start f reports g)
    (hdone : t.isFlying start f = false) : reports = [] ∧ g = f := by
  cases h with
  | done => exact ⟨rfl, rfl⟩
  | step flying => simp [hdone] at flying

/-- A step that ends the flight is the last one. -/
theorem eq_nil_of_ends {before after : List (StepReport α σ)}
    {r : StepReport α σ}
    (h : t.Course carrier start f (before ++ r :: after) g)
    (hends : t.ends start r = true) : after = [] := by
  obtain ⟨m, n, -, -, taken, next, rest⟩ := h.split
  have hstop : n.state ≠ .motion := by
    rw [(StepReport.after_eq next).2.2, (takes_of_step taken).state_eq_fate]
    intro hmotion
    rw [(t.fate_eq_motion_iff start r).mp hmotion] at hends
    cases hends
  exact (rest.eq_nil_of_done (isFlying_of_ne hstop)).1

/-- Nothing but the last step decides how a flight ends. -/
theorem of_last (h : t.Course carrier start f reports g) {r : StepReport α σ}
    (hlast : reports.getLast? = some r) :
    g.state = t.fate start r ∧ g.motion.time = t.elapsed start r ∧
      t.Takes carrier start r.before r := by
  obtain ⟨init, last, m, rfl, -, -, taken, next⟩ :=
    h.exists_last (by rintro rfl; cases hlast)
  obtain rfl : last = r := by simpa using hlast
  have htakes := takes_of_step taken
  rw [← htakes.before] at htakes
  obtain ⟨timestep, -, rfl⟩ := Option.map_eq_some_iff.mp next
  exact ⟨htakes.state_eq_fate, htakes.time_eq_elapsed, htakes⟩

theorem fate_of_motion (h : t.Course carrier start f reports g)
    (hf : f.state = .motion) :
    (reports = [] ∧ g.state = .motion) ∨
      ∃ r, reports.getLast? = some r ∧ g.state = t.fate start r ∧
        t.Takes carrier start r.before r := by
  cases hlast : reports.getLast? with
  | none =>
      obtain rfl := List.getLast?_eq_none_iff.mp hlast
      cases h
      exact .inl ⟨rfl, hf⟩
  | some r =>
      obtain ⟨hfate, -, htakes⟩ := h.of_last hlast
      exact .inr ⟨r, rfl, hfate, htakes⟩

theorem state_ne_unknown (h : t.Course carrier start f reports g)
    (hf : f.state = .motion) : g.state ≠ .unknown := by
  rcases h.fate_of_motion hf with ⟨-, hmotion⟩ | ⟨r, -, hfate, -⟩
  · simp [hmotion]
  · rw [hfate]
    exact t.fate_ne_unknown start r

theorem state_ne_trapped (h : t.Course carrier start f reports g)
    (hf : f.state = .motion) (hnone : t.models.trapping.times = none) :
    g.state ≠ .trapped := by
  rcases h.fate_of_motion hf with ⟨-, hmotion⟩ | ⟨r, -, hfate, htakes⟩
  · simp [hmotion]
  · rw [hfate, fate, htakes.keeps_of_untrapped hnone]
    cases r.recombined <;> cases t.sensor.contains r.position <;> simp

theorem state_ne_recombined (h : t.Course carrier start f reports g)
    (hf : f.state = .motion) (hnone : t.models.recombination = .none) :
    g.state ≠ .recombined := by
  rcases h.fate_of_motion hf with ⟨-, hmotion⟩ | ⟨r, -, hfate, htakes⟩
  · simp [hmotion]
  · rw [hfate, fate, htakes.recombined_of_none hnone]
    cases t.keeps start r <;> cases t.sensor.contains r.position <;> simp

end Course

end Transport

theorem Ionization.gain_of_none {m : Ionization α} (hnone : m.model = .none)
    (carrier : Carrier) (efield length : α) :
    m.gain carrier efield length = 1.0 := by
  unfold gain isEnabled
  rw [hnone]
  rfl

theorem Double.one_mul_one : (1.0 : Double) * 1.0 = 1.0 := by
  rfl

namespace Transport

variable [WordSource σ]

theorem Course.gain_eq_one {t : Transport Double}
    (hnone : t.models.ionization.model = .none) {carrier : Carrier}
    {start : Double} {f g : Flight Double σ}
    {reports : List (StepReport Double σ)}
    (h : t.Course carrier start f reports g) (hf : f.gain = 1.0) :
    g.gain = 1.0 := by
  refine h.invariant (P := fun f => f.gain = 1.0) ?_ hf
  intro f r g _ taken next hgain
  obtain ⟨timestep, -, rfl⟩ := Option.map_eq_some_iff.mp next
  change r.before.gain * r.factor = 1.0
  rw [taken.before, taken.factor, hgain, Ionization.gain_of_none hnone]
  exact Double.one_mul_one

/-- How the steps of a flight decide its end, and what the models that are
switched off rule out. -/
structure Decided (t : Transport Double) (start : Double)
    (reports : List (StepReport Double σ)) (o : Outcome Double) : Prop where
  known : o.state ≠ .unknown
  unmoved : reports = [] → o.state = .motion
  last : ∀ r, reports.getLast? = some r →
    o.state = t.fate start r ∧ o.time = t.elapsed start r
  released : ∀ r delay, reports.getLast? = some r →
    r.capture.stay? = some (some delay) →
    start + r.drift.after.time + delay < t.config.integrationTime →
    o.time = r.drift.after.time + delay ∧
      (r.recombined = true → o.state = .recombined) ∧
      (r.recombined = false → t.sensor.contains r.position = false →
        o.state = .halted)
  untrapped : t.models.trapping.times = none → o.state ≠ .trapped
  unrecombined : t.models.recombination = .none → o.state ≠ .recombined
  unreleased : t.models.detrapping.mean = none → ∀ before r after,
    reports = before ++ r :: after → r.isCaptured →
    after = [] ∧ o.state = .trapped
  undisturbed : t.models.recombination = .none →
    t.models.trapping.times = none → t.models.ionization.model = .none →
    (o.state = .halted ∨ o.state = .motion) ∧ o.gain = 1.0

theorem Course.decided {t : Transport Double} {carrier : Carrier}
    {start efield : Double} {position : Vec3 Double} {source : σ}
    {reports : List (StepReport Double σ)} {f : Flight Double σ}
    (h : t.Course carrier start (t.launch position efield source) reports f) :
    t.Decided start reports (t.outcome start f) := by
  have huntrapped (hnone : t.models.trapping.times = none) :=
    h.state_ne_trapped rfl hnone
  have hunrecombined (hnone : t.models.recombination = .none) :=
    h.state_ne_recombined rfl hnone
  constructor
  case known => exact h.state_ne_unknown rfl
  case unmoved =>
    rintro rfl
    cases h
    rfl
  case last =>
    intro r hlast
    obtain ⟨hfate, htime, -⟩ := h.of_last hlast
    exact ⟨hfate, htime⟩
  case released =>
    intro r delay hlast hstay hwindow
    obtain ⟨hfate, htime, -⟩ := h.of_last hlast
    have hkeeps : t.keeps start r = false := by simp [keeps, hstay, hwindow]
    change f.motion.time = _ ∧ (_ → f.state = _) ∧ (_ → _ → f.state = _)
    rw [hfate, htime, fate, elapsed, hstay, hkeeps]
    refine ⟨rfl, ?_, ?_⟩
    · intro hrecombined
      simp [hrecombined]
    · intro hrecombined hout
      simp [hrecombined, hout]
  case untrapped => exact huntrapped
  case unrecombined => exact hunrecombined
  case unreleased =>
    rintro hnone before r after rfl hcaptured
    obtain ⟨m, -, -, -, taken, -, -⟩ := h.split
    have hkeeps := (takes_of_step taken).keeps_of_unreleased hnone hcaptured
    obtain rfl := h.eq_nil_of_ends (by simp [ends, hkeeps])
    obtain ⟨hfate, -, -⟩ := h.of_last (r := r) (by simp)
    refine ⟨rfl, hfate.trans ?_⟩
    simp [fate, hkeeps]
  case undisturbed =>
    intro hrecombination htrapping hmultiplication
    refine ⟨?_, h.gain_eq_one hmultiplication rfl⟩
    have hknown := h.state_ne_unknown rfl
    have htrapped := huntrapped htrapping
    have hrecombined := hunrecombined hrecombination
    change f.state = .halted ∨ f.state = .motion
    cases hend : f.state <;> simp_all

/-- A flight goes on until the first step that leads out of the sensor, that
recombines the group or that captures it without a release in the window, or
until the window is closed; it ends as that step decides, a capture before
recombination and recombination before the way out, and no other model or step
has a part in that. -/
theorem propagate_fate (t : Transport Double) (carrier : Carrier)
    (position : Vec3 Double) (start : Double) (source : σ) (budget : Nat)
    (recorder : Option (Recorder Double)) (threshold : Option Level) :
    ((t.propagate budget carrier position start recorder source).runFrom
        threshold).1 = (do
      let efield ← t.field.electric position
      let (f, reports) ← t.roam carrier start budget
        (t.launch position efield.norm source)
      return (t.outcome start f, recorder.map (·.follow reports), f.source)) ∧
    ∀ o recorder' source' journal,
      (t.propagate budget carrier position start recorder source).runFrom
        threshold = (.ok (o, recorder', source'), journal) →
      ∃ efield f reports, t.field.electric position = .ok efield ∧
        t.roam carrier start budget (t.launch position efield.norm source) =
          .ok (f, reports) ∧
        o = t.outcome start f ∧
        (∀ r ∈ reports, ∃ survival trap release,
          t.Draws carrier r survival trap release) ∧
        t.Decided start reports o := by
  constructor
  · rw [(propagate_gives t budget carrier position start recorder
      source).runFrom threshold]
    cases t.field.electric position with
    | error fault => rfl
    | ok efield =>
        simp only [ok_bind]
        rw [roam_eq_trace t carrier start budget (by rfl)]
        cases (t.trace carrier start budget
          (t.launch position efield.norm source)).1 <;> rfl
  · intro o recorder' source' journal hrun
    obtain ⟨efield, reports, f, hefield, hcourse, hdone, hlength, rfl, -, -⟩ :=
      course_of_run hrun
    refine ⟨efield, f, reports, hefield, ?_, rfl, hcourse.forall_draws,
      hcourse.decided⟩
    rw [roam_eq_trace t carrier start budget (by rfl),
      trace_eq_ok_iff.mpr ⟨hcourse, hdone, hlength⟩]
    rfl

theorem propagate_fate_thinLayer :
    thinLayer.models.recombination = .none ∧
    thinLayer.models.trapping.times = none ∧
    thinLayer.models.ionization.model = .none ∧
    ∃ o reports, o.state = .halted ∧ o.gain = 1.0 ∧ o.steps = 2 ∧
      thinLayer.Decided (σ := CyclicWords) 0.0 reports o := by
  have hends : endOf? ((thinLayer.propagate 2 .electron .zero 0.0 none
      middleWords).runFrom none) = some (.halted, 2) := by
    decide +kernel
  obtain ⟨o, recorder, source, journal, hrun, hstate, hsteps⟩ :=
    ok_of_endOf? hends
  obtain ⟨-, hfates⟩ :=
    propagate_fate thinLayer .electron .zero 0.0 middleWords 2 none none
  obtain ⟨efield, f, reports, -, -, -, -, hdecided⟩ :=
    hfates o recorder source journal hrun
  obtain ⟨-, hgain⟩ := hdecided.undisturbed rfl rfl rfl
  exact ⟨rfl, rfl, rfl, o, reports, hstate, hgain, hsteps, hdecided⟩

end Transport

end CarrierTransport
