import Mathlib.Analysis.Complex.ExponentialBounds
import CarrierTransport.Proofs.Flight.Fate
import CarrierTransport.Proofs.Flight.Uniform

/-!
# Releases within the window

A captured group is released if its delay ends within the window.  Delays follow
the law of decays, so that is so exactly if the draw of the release falls below
the probability of a decay in what is left of the window.  A step may have gone
past the window already; then nothing is left and the group is trapped.
-/

namespace CarrierTransport

variable {σ : Type}

/-- The draw frees a captured carrier in the time that remains, which may be
over already. -/
def FreedWithin (mean remaining draw : ℝ) : Prop :=
  0 < remaining ∧ draw < 1 - Real.exp (-remaining / mean)

theorem SamplesDecay.lt_iff_freedWithin {delay : ℝ → ℝ} {mean : ℝ}
    (h : SamplesDecay delay mean) {draw : ℝ}
    (hdraw : draw ∈ Set.Ico (0 : ℝ) 1) (remaining : ℝ) :
    delay draw < remaining ↔ FreedWithin mean remaining draw := by
  constructor
  · intro hlt
    have hremaining := (h.nonneg draw hdraw).trans_lt hlt
    rw [h.lt_iff draw hdraw, decaysWithin_iff] at hlt
    exact ⟨hremaining, hlt⟩
  · rintro ⟨-, hbelow⟩
    rw [h.lt_iff draw hdraw, decaysWithin_iff]
    exact hbelow

/-! ## One step -/

theorem Draw.exists_of_takeAll?_append [WordSource σ] {α : Type} [Scalar α]
    {draws more : List (Draw α)} {source last : σ} {numbers : List α}
    (h : takeAll? (draws ++ more) source = some (numbers, last)) :
    ∃ first middle rest, takeAll? draws source = some (first, middle) ∧
      takeAll? more middle = some (rest, last) ∧ numbers = first ++ rest := by
  induction draws generalizing source numbers with
  | nil => exact ⟨[], source, numbers, rfl, h, rfl⟩
  | cons draw draws ih =>
      simp only [List.cons_append, takeAll?, Option.bind_eq_bind,
        Option.bind_eq_some_iff, Option.pure_def, Option.some.injEq,
        Prod.mk.injEq] at h
      obtain ⟨⟨number, next⟩, hnumber, ⟨others, _⟩, hothers, rfl, rfl⟩ := h
      obtain ⟨first, middle, rest, hfirst, hrest, rfl⟩ := ih hothers
      refine ⟨number :: first, middle, rest, ?_, hrest, rfl⟩
      simp [takeAll?, hnumber, hfirst]

theorem StepReport.isCaptured_of_trapped {α : Type} {r : StepReport α σ}
    (h : r.state = .trapped) : r.isCaptured = true := by
  unfold StepReport.state at h
  unfold StepReport.isCaptured
  cases hcapture : r.capture with
  | free | released delay =>
      rw [hcapture] at h
      dsimp only at h
      split_ifs at h
  | held delay? => rfl

namespace Transport

variable [WordSource σ] {t : Transport ℝ} {carrier : Carrier} {start : ℝ}

section Step

variable {f : Flight ℝ σ} {r : StepReport ℝ σ} {mean draw : ℝ}

/-- The number that decides on the release is the last that the step draws. -/
theorem Draws.exists_release {survival trap : ℝ}
    (h : t.Draws carrier r survival trap (some draw)) :
    ∃ (draws : List (Draw ℝ)) (numbers : List ℝ) (source : σ),
      Draw.takeAll? draws r.before.source = some (numbers, source) ∧
      draw = (Random.uniform source).1 := by
  have hcaptured : r.isCaptured = true := by
    rw [StepReport.isCaptured, h.stay]
    rfl
  have htaken := h.taken
  rw [schedule, if_pos hcaptured] at htaken
  obtain ⟨first, middle, rest, hfirst, hrest, hnumbers⟩ :=
    Draw.exists_of_takeAll?_append htaken
  refine ⟨_, first, middle, hfirst, ?_⟩
  obtain rfl : [(Random.uniform middle).1] = rest := by
    simpa [Draw.takeAll?, Draw.take?] using congrArg (Option.map Prod.fst) hrest
  have hlast := congrArg List.getLast? hnumbers
  simpa using hlast

theorem Draws.release_mem {survival trap : ℝ}
    (h : t.Draws carrier r survival trap (some draw)) :
    draw ∈ Set.Ico (0 : ℝ) 1 := by
  obtain ⟨draws, numbers, source, -, rfl⟩ := h.exists_release
  exact Random.unitOfWord_bounds _

/-- What is left of the window after the drift of a step. -/
def remaining (t : Transport ℝ) (start : ℝ) (r : StepReport ℝ σ) : ℝ :=
  t.config.integrationTime - start - r.drift.after.time

omit [WordSource σ] in
theorem lt_remaining_iff {delay : ℝ} :
    delay < t.remaining start r ↔
      start + r.drift.after.time + delay < t.config.integrationTime := by
  unfold remaining
  constructor <;> intro h <;> linarith

/-- A step captures its group, and its third uniform number decides whether the
group is released in time. -/
structure Releases (t : Transport ℝ) (carrier : Carrier) (start mean : ℝ)
    (r : StepReport ℝ σ) (draw : ℝ) : Prop where
  drawn : ∃ survival trap, t.Draws carrier r survival trap (some draw)
  mem : draw ∈ Set.Ico (0 : ℝ) 1
  released_iff : (∃ delay, r.capture = .released delay) ↔
    FreedWithin mean (t.remaining start r) draw
  trapped_iff : r.state = .trapped ↔
    ¬FreedWithin mean (t.remaining start r) draw

/-- The window decides on the release of a group that is held for `delay`. -/
theorem Takes.released_iff (h : t.Takes carrier start f r) {delay : ℝ}
    (hstay : r.capture.stay? = some (some delay)) :
    ((∃ delay, r.capture = .released delay) ↔ delay < t.remaining start r) ∧
      (r.state = .trapped ↔ ¬delay < t.remaining start r) := by
  obtain ⟨hreleased, hheld⟩ := h.settled
  rw [lt_remaining_iff, StepReport.state]
  cases hcapture : r.capture with
  | free => simp [hcapture, Capture.stay?] at hstay
  | released other =>
      obtain rfl : other = delay := by
        simpa [hcapture, Capture.stay?] using hstay
      have hwindow := hreleased other hcapture
      cases r.recombined <;> cases r.exited <;> simp [hwindow]
  | held other =>
      obtain rfl : other = some delay := by
        simpa [hcapture, Capture.stay?] using hstay
      have hwindow := hheld delay hcapture
      simp [hwindow]

theorem Takes.exists_releases {means : PerCarrier ℝ}
    (h : t.Takes carrier start f r)
    (hmodel : t.models.detrapping = ⟨some means⟩)
    (hmean : 0 < means.get carrier) (hcaptured : r.isCaptured = true) :
    ∃ draw, t.Releases carrier start (means.get carrier) r draw := by
  obtain ⟨survival, trap, release, hdraws⟩ := h.draws_in_order
  have hstay := hdraws.stay
  cases release with
  | none => simp [StepReport.isCaptured, hstay] at hcaptured
  | some draw =>
      rw [Option.map_some, hmodel, Detrapping.delay?_some] at hstay
      have hmem := hdraws.release_mem
      have hfreed := (Detrapping.samplesDecay_delayOf hmean).lt_iff_freedWithin
        hmem (t.remaining start r)
      obtain ⟨hreleased, htrapped⟩ := h.released_iff hstay
      rw [hfreed] at hreleased htrapped
      exact ⟨draw, ⟨survival, trap, hdraws⟩, hmem, hreleased, htrapped⟩

end Step

/-! ## Whole flights -/

/-- Each capture of a flight is settled by the draw of its release, and a group
that is not released ends there; no other group ends trapped. -/
structure CapturesSettled (t : Transport ℝ) (carrier : Carrier)
    (start mean : ℝ) (reports : List (StepReport ℝ σ)) (state : CarrierState) :
    Prop where
  settled : ∀ before r after, reports = before ++ r :: after →
    r.isCaptured = true → ∃ draw, t.Releases carrier start mean r draw ∧
      (¬FreedWithin mean (t.remaining start r) draw ↔
        after = [] ∧ state = .trapped)
  trapped : state = .trapped →
    ∃ r, reports.getLast? = some r ∧ r.isCaptured = true

theorem Course.capturesSettled {f g : Flight ℝ σ}
    {reports : List (StepReport ℝ σ)} {means : PerCarrier ℝ}
    (h : t.Course carrier start f reports g) (hf : f.state = .motion)
    (hmodel : t.models.detrapping = ⟨some means⟩)
    (hmean : 0 < means.get carrier) :
    t.CapturesSettled carrier start (means.get carrier) reports g.state := by
  constructor
  case settled =>
    rintro before r after rfl hcaptured
    obtain ⟨m, n, -, -, taken, next, rest⟩ := h.split
    obtain ⟨draw, hreleases⟩ :=
      (takes_of_step taken).exists_releases hmodel hmean hcaptured
    have hstate : n.state = r.state := (StepReport.after_eq next).2.2
    refine ⟨draw, hreleases, ?_⟩
    rw [← hreleases.trapped_iff, ← hstate]
    constructor
    · intro htrapped
      obtain ⟨hnil, rfl⟩ :=
        rest.eq_nil_of_done (isFlying_of_ne (by simp [htrapped]))
      exact ⟨hnil, htrapped⟩
    · rintro ⟨rfl, htrapped⟩
      cases rest
      exact htrapped
  case trapped =>
    intro htrapped
    rcases h.fate_of_motion hf with ⟨-, hmotion⟩ | ⟨r, hlast, hfate, htakes⟩
    · simp [hmotion] at htrapped
    · rw [htrapped, ← htakes.state_eq_fate] at hfate
      exact ⟨r, hlast, StepReport.isCaptured_of_trapped hfate.symm⟩

/-- In exact arithmetic a release samples the law by which carriers decay: its
delay is never negative, it grows with the draw, and it is shorter than a time
if and only if the same draw is that of a decay within the time.  So whenever a
flight captures its group, the third uniform number of the step is below the
probability of a release in what is left of the window, and something is left,
if and only if the group is released; otherwise it ends there, trapped. -/
theorem propagate_releases_by_decay (t : Transport ℝ) {means : PerCarrier ℝ}
    (hmodel : t.models.detrapping = ⟨some means⟩) (carrier : Carrier)
    (hmean : 0 < means.get carrier) (position : Vec3 ℝ) (start : ℝ)
    (source : σ) :
    (∃ delay : ℝ → ℝ,
      (∀ draw, t.models.detrapping.delay? carrier draw = some (delay draw)) ∧
      SamplesDecay delay (means.get carrier)) ∧
    (∀ efield reports f,
      t.Course carrier start (t.launch position efield source) reports f →
      t.CapturesSettled carrier start (means.get carrier) reports f.state) ∧
    ∀ budget recorder threshold o recorder' source' journal,
      (t.propagate budget carrier position start recorder source).runFrom
        threshold = (.ok (o, recorder', source'), journal) →
      ∃ efield reports f,
        t.Course carrier start (t.launch position efield source) reports f ∧
        o = t.outcome start f ∧ o.steps = reports.length ∧
        t.CapturesSettled carrier start (means.get carrier) reports
          o.state := by
  have hsettled {efield : ℝ} {reports : List (StepReport ℝ σ)}
      {f : Flight ℝ σ}
      (h : t.Course carrier start (t.launch position efield source) reports
        f) := h.capturesSettled rfl hmodel hmean
  refine ⟨⟨Detrapping.delayOf (means.get carrier), ?_,
    Detrapping.samplesDecay_delayOf hmean⟩, fun _ _ _ => hsettled, ?_⟩
  · rw [hmodel]
    exact Detrapping.delay?_some means carrier
  · intro budget recorder threshold o recorder' source' journal hrun
    obtain ⟨efield, reports, f, -, hcourse, -, -, rfl, -, -⟩ :=
      course_of_run hrun
    exact ⟨efield.norm, reports, f, hcourse, rfl, hcourse.steps_outcome,
      hsettled hcourse⟩

/-! ## A layer that captures in every step -/

theorem half_mem_Ico : (1 / 2 : ℝ) ∈ Set.Ico (0 : ℝ) 1 := by norm_num

/-- The releasing layer with a picosecond until a capture. -/
noncomputable def capturingLayer : Transport ℝ :=
  { releasingLayer with models :=
    { releasingLayer.models with trapping := ⟨some ⟨0.001, 0.001⟩⟩ } }

theorem uniform_middleWords :
    (Random.uniform middleWords : ℝ × CyclicWords) = (1 / 2, middleWords) := by
  refine Prod.ext ?_ rfl
  change ((4503599627370496 : ℕ) : ℝ) / 9007199254740992.0 = 1 / 2
  norm_num

theorem eq_middleWords_of_takeAll? {draws : List (Draw ℝ)} {numbers : List ℝ}
    {last : CyclicWords}
    (h : Draw.takeAll? draws middleWords = some (numbers, last)) :
    last = middleWords := by
  induction draws generalizing numbers with
  | nil => cases h; rfl
  | cons draw draws ih =>
      obtain ⟨number, hnumber⟩ : ∃ number,
          draw.take? middleWords = some (number, middleWords) := by
        cases draw with
        | normal width =>
            simp [Draw.take?, Random.normal, standardNormal_middleWords]
        | uniform => exact ⟨1 / 2, congrArg some uniform_middleWords⟩
      simp only [Draw.takeAll?, hnumber, Option.bind_eq_bind, Option.bind_some,
        Option.bind_eq_some_iff, Option.pure_def, Option.some.injEq,
        Prod.mk.injEq] at h
      obtain ⟨⟨others, _⟩, hothers, -, rfl⟩ := h
      exact ih hothers

theorem exists_capture_capturingLayer {start : ℝ} (hstart : start < 25) :
    ∃ r f, capturingLayer.Course .electron start
        (capturingLayer.launch .zero 0.5 middleWords) [r] f ∧
      r.isCaptured = true ∧
      capturingLayer.remaining start r = 24.99 - start ∧
      ∀ draw, capturingLayer.Releases .electron start 3.0 r draw →
        draw = 1 / 2 := by
  have hconfig : capturingLayer.config.Accepted :=
    Config.validate_eq_ok_iff.mp validate_releasingLayer
  have flying : capturingLayer.isFlying start
      (capturingLayer.launch .zero 0.5 middleWords) = true := by
    refine Bool.and_eq_true_iff.mpr ⟨rfl, decide_eq_true ?_⟩
    rw [time_launch]
    norm_num [capturingLayer, releasingLayer, ofParts, Config.standard,
      ns_eq_one]
    exact hstart
  obtain ⟨r, f, hcourse, hbefore, -⟩ := exists_step (t := capturingLayer)
    .electron (Field.not_fails_uniform _ _ _) rfl hconfig.allows_start flying
  obtain ⟨-, htakes⟩ := hcourse.forall_takes r (by simp)
  have htimestep : r.before.motion.timestep = 0.01 := by
    rw [hbefore]
    norm_num [capturingLayer, releasingLayer, launch, Motion.start, ofParts,
      Config.standard, ns_eq_one]
  have hsource : r.before.source = middleWords := by
    rw [hbefore]
    rfl
  refine ⟨r, f, hcourse, ?_, ?_, ?_⟩
  · obtain ⟨_, _, source, -, hspread, -, -, hcapture⟩ := htakes.draws
    have hlast := takeAll?_of_diffuse hspread
    rw [hsource] at hlast
    obtain rfl := eq_middleWords_of_takeAll? hlast
    have hcaptures : capturingLayer.models.trapping.captures .electron
        (1 / 2) r.before.motion.timestep = true := by
      have htime : (0 : ℝ) < 0.001 := by norm_num
      refine ((Detrapping.samplesDecay_delayOf htime).lt_iff _ half_mem_Ico _).mp ?_
      rw [Detrapping.delayOf_half, htimestep]
      linarith [Real.log_two_lt_d9]
    have hdrawn : r.capture = _ := congrArg Prod.fst hcapture
    rw [StepReport.isCaptured, hdrawn, drawCapture]
    simp only [uniform_middleWords, hcaptures, if_true, stay?_settle]
    rfl
  · have htime := Motion.time_of_advance htakes.drift
    rw [remaining, htime, htimestep, hbefore, time_launch]
    norm_num [capturingLayer, releasingLayer, ofParts, Config.standard,
      ns_eq_one]
    ring
  · intro draw hreleases
    obtain ⟨survival, trap, hdraws⟩ := hreleases.drawn
    obtain ⟨draws, numbers, source, htaken, rfl⟩ := hdraws.exists_release
    rw [hsource] at htaken
    rw [eq_middleWords_of_takeAll? htaken, uniform_middleWords]

/-- A group that is captured at once, with a draw of one half, is released if it
was deposited at the beginning of the window.  Close to the end it is trapped,
whether some of the window is left or the step has passed it. -/
theorem propagate_releases_by_decay_capturingLayer :
    Detrapping.select "constant" releasing =
      .ok capturingLayer.models.detrapping ∧
    capturingLayer.models.detrapping = ⟨some ⟨3.0, 3.0⟩⟩ ∧ (0 : ℝ) < 3.0 ∧
    (∃ r f, capturingLayer.Course .electron 0
        (capturingLayer.launch .zero 0.5 middleWords) [r] f ∧
      ∃ delay, r.capture = .released delay) ∧
    (∃ r f, capturingLayer.Course .electron 24.9
        (capturingLayer.launch .zero 0.5 middleWords) [r] f ∧
      0 < capturingLayer.remaining 24.9 r ∧ f.state = .trapped) ∧
    (∃ r f, capturingLayer.Course .electron 24.995
        (capturingLayer.launch .zero 0.5 middleWords) [r] f ∧
      capturingLayer.remaining 24.995 r < 0 ∧ f.state = .trapped) := by
  have hmodel : capturingLayer.models.detrapping = ⟨some ⟨3.0, 3.0⟩⟩ := rfl
  have hmean : (0 : ℝ) < 3.0 := by norm_num
  have hshort := Real.log_two_lt_d9
  have hlong := Real.log_two_gt_d9
  have hcapture {start : ℝ} (hstart : start < 25) :
      ∃ r f, capturingLayer.Course .electron start
          (capturingLayer.launch .zero 0.5 middleWords) [r] f ∧
        capturingLayer.remaining start r = 24.99 - start ∧
        ((∃ delay, r.capture = .released delay) ↔
          Real.log 2 * 3.0 < 24.99 - start) ∧
        (24.99 - start ≤ Real.log 2 * 3.0 → f.state = .trapped) := by
    obtain ⟨r, f, hcourse, hcaptured, hremaining, hhalf⟩ :=
      exists_capture_capturingLayer hstart
    obtain ⟨-, hsettled, -⟩ := propagate_releases_by_decay capturingLayer
      hmodel .electron hmean .zero start middleWords
    obtain ⟨draw, hreleases, hheld⟩ :
        ∃ draw, capturingLayer.Releases .electron start 3.0 r draw ∧
          (¬FreedWithin 3.0 (capturingLayer.remaining start r) draw ↔
            [] = [] ∧ f.state = .trapped) :=
      (hsettled 0.5 [r] f hcourse).settled [] r [] rfl hcaptured
    obtain rfl := hhalf draw hreleases
    have hfreed : FreedWithin 3.0 (24.99 - start) (1 / 2) ↔ _ :=
      ((Detrapping.samplesDecay_delayOf hmean).lt_iff_freedWithin half_mem_Ico
        _).symm
    rw [Detrapping.delayOf_half] at hfreed
    have hreleased := hreleases.released_iff
    rw [hremaining, hfreed] at hheld hreleased
    exact ⟨r, f, hcourse, hremaining, hreleased,
      fun hlate => (hheld.mp (not_lt.mpr hlate)).2⟩
  refine ⟨select_releasing, hmodel, hmean, ?_, ?_, ?_⟩
  · obtain ⟨r, f, hcourse, -, hreleased, -⟩ :=
      @hcapture 0 (by norm_num)
    exact ⟨r, f, hcourse, hreleased.mpr (by linarith)⟩
  · obtain ⟨r, f, hcourse, hremaining, -, htrapped⟩ :=
      @hcapture 24.9 (by norm_num)
    refine ⟨r, f, hcourse, ?_, htrapped (by linarith)⟩
    rw [hremaining]
    norm_num
  · obtain ⟨r, f, hcourse, hremaining, -, htrapped⟩ :=
      @hcapture 24.995 (by norm_num)
    refine ⟨r, f, hcourse, ?_, htrapped (by linarith)⟩
    rw [hremaining]
    norm_num

end Transport

end CarrierTransport
