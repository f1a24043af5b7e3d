import CarrierTransport.Proofs.Flight.Fate
import CarrierTransport.Proofs.Scalar.Order

/-!
# Longer windows

The window has a part in whether a flight goes on and in whether a captured
group is released.  A longer one changes neither a step that was taken nor a
release that was granted: it only lets flights go on, and releases groups that
were held.
-/

namespace CarrierTransport

variable {α σ : Type} [Scalar α]

def Config.withWindow (c : Config α) (window : α) : Config α :=
  { c with integrationTime := window }

theorem Models.select_withWindow (c : Config α) (window : α)
    (hasDoping : Bool) :
    Models.select (c.withWindow window) hasDoping =
      Models.select c hasDoping := rfl

def StepReport.withCapture (r : StepReport α σ) (capture : Capture α) :
    StepReport α σ :=
  { r with capture := capture }

namespace Transport

def withWindow (t : Transport α) (window : α) : Transport α :=
  { t with config := t.config.withWindow window }

variable {t : Transport α} {window : α} {carrier : Carrier} {start : α}

theorem isFlying_withWindow
    (later : ∀ x, x < t.config.integrationTime → x < window)
    {f : Flight α σ} (h : t.isFlying start f = true) :
    (t.withWindow window).isFlying start f = true := by
  simp only [isFlying, inWindow, Bool.and_eq_true, decide_eq_true_eq] at h ⊢
  exact ⟨h.1, later _ h.2⟩

theorem settle_eq_released_iff {time draw delay : α} :
    t.settle carrier start time draw = .released delay ↔
      t.models.detrapping.delay? carrier draw = some delay ∧
        start + time + delay < t.config.integrationTime := by
  unfold settle
  cases t.models.detrapping.delay? carrier draw with
  | none => simp
  | some other =>
      by_cases hwindow : start + time + other < t.config.integrationTime
      · simp only [hwindow, if_true, Capture.released.injEq, Option.some.injEq]
        constructor
        · rintro rfl
          exact ⟨rfl, hwindow⟩
        · rintro ⟨rfl, -⟩
          rfl
      · simp only [hwindow, if_false, reduceCtorEq, Option.some.injEq,
          false_iff, not_and]
        rintro rfl
        exact hwindow

theorem settle_withWindow
    (later : ∀ x, x < t.config.integrationTime → x < window)
    {time draw delay : α}
    (h : t.settle carrier start time draw = .released delay) :
    (t.withWindow window).settle carrier start time draw =
      .released delay := by
  obtain ⟨hdelay, hwindow⟩ := settle_eq_released_iff.mp h
  exact settle_eq_released_iff.mpr ⟨hdelay, later _ hwindow⟩

variable [WordSource σ]

/-- The window has no part in what is drawn, nor in whether the group is
captured and for how long. -/
theorem drawCapture_withWindow
    (later : ∀ x, x < t.config.integrationTime → x < window)
    {time timestep : α} {source source' : σ} {capture : Capture α}
    (h : t.drawCapture carrier start time timestep source =
      (capture, source')) :
    ∃ capture', (t.withWindow window).drawCapture carrier start time timestep
        source = (capture', source') ∧
      capture'.stay? = capture.stay? ∧
      ((∀ delay?, capture ≠ .held delay?) → capture' = capture) := by
  unfold drawCapture at h ⊢
  dsimp only at h ⊢
  have hmodels : (t.withWindow window).models = t.models := rfl
  rw [hmodels]
  split at h
  · rename_i hcaptured
    obtain ⟨rfl, rfl⟩ := Prod.mk.inj h
    rw [if_pos hcaptured]
    refine ⟨_, rfl, ?_, ?_⟩
    · rw [stay?_settle, stay?_settle, hmodels]
    · intro hfree
      cases hsettle : t.settle carrier start time
          (Random.uniform (α := α) (Random.uniform (α := α) source).2).1 with
      | free =>
          have hstay := t.stay?_settle carrier start time
            (Random.uniform (α := α) (Random.uniform (α := α) source).2).1
          rw [hsettle] at hstay
          cases hstay
      | released delay => exact settle_withWindow later hsettle
      | held delay? => exact absurd hsettle (hfree delay?)
  · rename_i hfree
    obtain ⟨rfl, rfl⟩ := Prod.mk.inj h
    rw [if_neg hfree]
    exact ⟨_, rfl, rfl, fun _ => rfl⟩

theorem step_withWindow
    (later : ∀ x, x < t.config.integrationTime → x < window)
    {f : Flight α σ} {r : StepReport α σ}
    (h : t.step carrier start f = .ok r) :
    ∃ capture,
      (t.withWindow window).step carrier start f =
        .ok (r.withCapture capture) ∧
      capture.stay? = r.capture.stay? ∧
      (r.state ≠ .trapped → capture = r.capture) := by
  unfold step at h ⊢
  obtain ⟨drift, hdrift, h⟩ := bind_eq_ok.mp h
  obtain ⟨e, he, h⟩ := bind_eq_ok.mp h
  obtain ⟨near, hnear, h⟩ := bind_eq_ok.mp h
  dsimp only at h
  cases hspread : diffuse f.source (t.models.mobility.evaluate carrier e.norm
      near) t.config.temperature f.motion.timestep with
  | none =>
      rw [hspread] at h
      cases h
  | some drawn =>
      obtain ⟨spread, source⟩ := drawn
      rw [hspread] at h
      obtain ⟨far, hfar, h⟩ := bind_eq_ok.mp h
      cases hcapture : t.drawCapture carrier start drift.after.time
          f.motion.timestep (Random.uniform (α := α) source).2 with
      | mk capture source' =>
          obtain ⟨capture', hcapture', hstay, hsame⟩ :=
            drawCapture_withWindow later hcapture
          simp only [hcapture] at h
          cases h
          refine ⟨capture', ?_, hstay, ?_⟩
          · -- The window enters a step through the capture alone.
            change (f.motion.advance t.tableau
              (fun _ p => t.velocity carrier p) >>= _) = _
            rw [hdrift, ok_bind]
            change (t.field.electric drift.after.position >>= _) = _
            rw [he, ok_bind]
            change (t.field.doping drift.after.position >>= _) = _
            rw [hnear, ok_bind]
            dsimp only [withWindow, Config.withWindow]
            rw [hspread]
            dsimp only
            rw [hfar, ok_bind]
            simp only [withWindow, Config.withWindow] at hcapture'
            rw [hcapture']
            rfl
          · intro hmoving
            refine hsame fun delay? hheld => hmoving ?_
            simp [StepReport.state, hheld]

namespace Course

variable {f g : Flight α σ} {reports : List (StepReport α σ)}

/-- What is not trapped has the same steps behind it in a longer window. -/
theorem withWindow (later : ∀ x, x < t.config.integrationTime → x < window)
    (h : t.Course carrier start f reports g) (hstate : g.state ≠ .trapped) :
    (t.withWindow window).Course carrier start f reports g := by
  induction h with
  | done => exact .done _
  | @step f m g r reports flying taken next rest ih =>
      -- A step that traps the group is the last, so this one does not.
      have hmoving : r.state ≠ .trapped := by
        intro htrapped
        have hm : m.state = .trapped :=
          (StepReport.after_eq next).2.2.trans htrapped
        obtain ⟨-, rfl⟩ :=
          rest.eq_nil_of_done (isFlying_of_ne (by simp [hm]))
        exact hstate hm
      obtain ⟨capture, taken', -, hsame⟩ := step_withWindow later taken
      rw [hsame hmoving] at taken'
      exact .step (isFlying_withWindow later flying) taken' next (ih hstate)

/-- A flight that was trapped has the same steps behind it in a longer window,
up to the last one, and is captured for the same time in that one. -/
theorem trapped_withWindow
    (later : ∀ x, x < t.config.integrationTime → x < window)
    (h : t.Course carrier start f reports g) (hf : f.state = .motion)
    (hstate : g.state = .trapped) :
    ∃ init last m capture g',
      reports = init ++ [last] ∧ t.Course carrier start f init m ∧
      (t.withWindow window).Course carrier start f init m ∧
      (t.withWindow window).Course carrier start f
        (init ++ [last.withCapture capture]) g' ∧
      last.isCaptured = true ∧ capture.stay? = last.capture.stay? := by
  have hne : reports ≠ [] := by
    rintro rfl
    cases h
    simp [hf] at hstate
  obtain ⟨init, last, m, rfl, hinit, flying, taken, next⟩ := h.exists_last hne
  have hmoving : m.state ≠ .trapped := by
    rw [state_of_isFlying flying]
    decide
  have hcaptured : last.isCaptured = true := by
    have htrapped := (StepReport.after_eq next).2.2.symm.trans hstate
    unfold StepReport.isCaptured
    cases hcapture : last.capture with
    | held delay? => rfl
    | free | released delay =>
        cases hr : last.recombined <;> cases he : last.exited <;>
          simp [StepReport.state, hcapture, hr, he] at htrapped
  obtain ⟨capture, taken', hstay, -⟩ := step_withWindow later taken
  have hnext : ∃ g', (last.withCapture capture).after? = some g' := by
    obtain ⟨timestep, htimestep, -⟩ := Option.map_eq_some_iff.mp next
    exact ⟨_, Option.map_eq_some_iff.mpr ⟨timestep, htimestep, rfl⟩⟩
  obtain ⟨g', next'⟩ := hnext
  have hinit' := hinit.withWindow later hmoving
  have hlast := Course.step (isFlying_withWindow later flying) taken' next'
    (.done g')
  exact ⟨init, last, m, capture, g', rfl, hinit, hinit', hinit'.append hlast,
    hcaptured, hstay⟩

end Course

/-- A window that closes later changes nothing of a flight that was halted or
recombined.  A flight that was still in motion when its window closed has the
same steps behind it, and goes on; one that was trapped has the same steps
behind it up to its last, and is captured in that one for the same time. -/
theorem propagate_prolonged {t : Transport Double} {window : Double}
    (hwindow : t.config.integrationTime ≤ window) {budget : Nat}
    {carrier : Carrier} {position : Vec3 Double} {start : Double}
    {recorder recorder' : Option (Recorder Double)} {source source' : σ}
    {threshold : Option Level} {o : Outcome Double} {journal : Journal Double}
    (hrun : (t.propagate budget carrier position start recorder source).runFrom
      threshold = (.ok (o, recorder', source'), journal)) :
    (∀ hasDoping, Models.select (t.config.withWindow window) hasDoping =
      Models.select t.config hasDoping) ∧
    (o.state = .halted ∨ o.state = .recombined →
      ∃ o', (((t.withWindow window).propagate budget carrier position start
          recorder source).runFrom threshold).1 =
            .ok (o', recorder', source') ∧
        o'.position = o.position ∧ o'.time = o.time ∧ o'.gain = o.gain ∧
        o'.state = o.state ∧ o'.steps = o.steps) ∧
    (o.state = .motion → ∃ efield reports f,
      t.field.electric position = .ok efield ∧
      t.Course carrier start (t.launch position efield.norm source) reports
        f ∧
      (t.withWindow window).Course carrier start
        (t.launch position efield.norm source) reports f ∧
      o = t.outcome start f ∧ o.steps = reports.length ∧ source' = f.source ∧
      ∀ more, (((t.withWindow window).propagate (o.steps + more) carrier
          position start recorder source).runFrom threshold).1 = (do
        let rest := (t.withWindow window).trace carrier start more f
        let last ← rest.1
        return ((t.withWindow window).outcome start last,
          recorder'.map (·.follow rest.2), last.source))) ∧
    (o.state = .trapped → ∃ efield init last m f capture f',
      t.field.electric position = .ok efield ∧
      t.Course carrier start (t.launch position efield.norm source) init m ∧
      (t.withWindow window).Course carrier start
        (t.launch position efield.norm source) init m ∧
      t.Course carrier start (t.launch position efield.norm source)
        (init ++ [last]) f ∧
      (t.withWindow window).Course carrier start
        (t.launch position efield.norm source)
        (init ++ [last.withCapture capture]) f' ∧
      o = t.outcome start f ∧ o.steps = init.length + 1 ∧
      last.isCaptured = true ∧ capture.stay? = last.capture.stay?) := by
  have later (x : Double) (hx : x < t.config.integrationTime) : x < window :=
    Double.lt_of_lt_of_le hx hwindow
  obtain ⟨efield, reports, f, hefield, hcourse, hdone, hlength, rfl, rfl,
    rfl⟩ := course_of_run hrun
  have hsteps := hcourse.steps_outcome
  refine ⟨Models.select_withWindow t.config window, ?_, ?_, ?_⟩
  · intro hstate
    change f.state = .halted ∨ f.state = .recombined at hstate
    have hcourse' := hcourse.withWindow later (by rintro h; simp [h] at hstate)
    have hdone' : (t.withWindow window).isFlying start f = false :=
      isFlying_of_ne (by rintro h; simp [h] at hstate)
    refine ⟨(t.withWindow window).outcome start f, ?_, rfl, rfl, rfl, rfl, rfl⟩
    have hgives := propagate_gives (t.withWindow window) budget carrier
      position start recorder source
    rw [hgives.runFrom threshold, ← hgives.result_eq]
    exact propagate_result_eq_ok_iff.mpr ⟨efield, reports, f, hefield,
      hcourse', hdone', hlength, rfl, rfl, rfl⟩
  · intro hstate
    have hcourse' := hcourse.withWindow later (by
      rw [show f.state = .motion from hstate]
      decide)
    refine ⟨efield, reports, f, hefield, hcourse, hcourse', rfl, hsteps, rfl,
      fun more => ?_⟩
    rw [hsteps]
    exact Course.run_eq hcourse' hefield more recorder threshold
  · intro hstate
    obtain ⟨init, last, m, capture, f', rfl, hinit, hinit', hlast', hcaptured,
      hstay⟩ := hcourse.trapped_withWindow later rfl hstate
    rw [List.length_append] at hsteps
    exact ⟨efield, init, last, m, f, capture, f', hefield, hinit, hinit',
      hcourse, hlast', rfl, hsteps, hcaptured, hstay⟩

/-- The window closes on the thin layer after one step; a longer one does not
undo that step. -/
theorem propagate_prolonged_thinLayer :
    (thinLayer.withWindow 0.25).config.integrationTime ≤ (25.0 : Double) ∧
    ∃ efield o reports f, o.state = .motion ∧ reports.length = 1 ∧
      o = (thinLayer.withWindow 0.25).outcome 0.0 f ∧
      (thinLayer.withWindow 0.25).Course .electron 0.0
        ((thinLayer.withWindow 0.25).launch .zero efield middleWords) reports
        f ∧
      ((thinLayer.withWindow 0.25).withWindow 25.0).Course .electron 0.0
        ((thinLayer.withWindow 0.25).launch .zero efield middleWords) reports
        f := by
  have hwindow :
      (thinLayer.withWindow 0.25).config.integrationTime ≤ (25.0 : Double) := by
    decide +kernel
  refine ⟨hwindow, ?_⟩
  have hends : endOf? (((thinLayer.withWindow 0.25).propagate 1 .electron .zero
      0.0 none middleWords).runFrom none) = some (.motion, 1) := by
    decide +kernel
  obtain ⟨o, recorder, source, journal, hrun, hstate, hone⟩ :=
    ok_of_endOf? hends
  obtain ⟨-, -, hmotion, -⟩ := propagate_prolonged hwindow hrun
  obtain ⟨efield, reports, f, -, hcourse, hcourse', ho, hsteps, -, -⟩ :=
    hmotion hstate
  exact ⟨efield.norm, o, reports, f, hstate, hsteps.symm.trans hone, ho,
    hcourse, hcourse'⟩

end Transport

end CarrierTransport
