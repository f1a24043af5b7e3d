import Mathlib.Algebra.Order.BigOperators.Group.List
import Mathlib.Algebra.Order.Floor.Semiring
import CarrierTransport.Proofs.Silicon.Detrapping
import CarrierTransport.Proofs.Flight.Timestep

/-!
# Flights end in time

In exact arithmetic every step takes at least the shortest timestep, and a
delay is never negative, so a flight ends after a number of steps that the
integration window alone bounds.  A release falls within the window, so only
the timestep of the last step may exceed it.
-/

namespace CarrierTransport

variable {α σ : Type}

theorem Motion.time_of_advance [Arithmetic α] {ε : Type} {tableau : Tableau α}
    {velocity : α → Vec3 α → Except ε (Vec3 α)} {motion : Motion α}
    {r : Increment α} (h : motion.advance tableau velocity = .ok r) :
    r.after.time = motion.time + motion.timestep := by
  obtain ⟨taken, -, h⟩ := bind_eq_ok.mp h
  cases h
  rfl

/-- The time that a captured group stays before it is released. -/
def Capture.delay? : Capture α → Option α
  | free | held _ => none
  | released delay => some delay

def StepReport.delay? (r : StepReport α σ) : Option α := r.capture.delay?

theorem Config.Accepted.timestepMin_pos {c : Config ℝ} (h : c.Accepted) :
    0 < c.timestepMin := by
  have hpositive := (h.positive ("timestep_min", c.timestepMin) (by
    simp [Config.positiveOptions])).2
  exact decimal_zero.symm.trans_lt hpositive

namespace Transport

theorem released_of_drawCapture [Scalar α] [WordSource σ] {t : Transport α}
    {carrier : Carrier} {start time timestep delay : α} {source : σ}
    (h : (t.drawCapture carrier start time timestep source).1.delay? =
      some delay) :
    start + time + delay < t.config.integrationTime ∧
      ∃ word, t.models.detrapping.delay? carrier (Random.unitOfWord word) =
        some delay := by
  unfold drawCapture at h
  dsimp only at h
  split at h
  · dsimp only at h
    unfold settle at h
    split at h
    · cases h
    · rename_i delay' hdelay
      split at h
      · rename_i hwindow
        cases h
        exact ⟨hwindow, _, hdelay⟩
      · cases h
  · cases h

/-- The number of the shortest timesteps that cover the window of a group. -/
noncomputable def stepLimit (t : Transport ℝ) (start : ℝ) : ℕ :=
  ⌈(t.config.integrationTime - start) / t.config.timestepMin⌉₊

variable [WordSource σ] {t : Transport ℝ} {carrier : Carrier} {start : ℝ}

/-! ## One step -/

section Step

variable {f g : Flight ℝ σ} {r : StepReport ℝ σ}

theorem Takes.time_eq (h : t.Takes carrier start f r) :
    r.time = f.motion.time + f.motion.timestep + r.delay?.toList.sum := by
  have hdrift := Motion.time_of_advance h.drift
  unfold StepReport.time StepReport.delay?
  rw [← hdrift]
  cases r.capture with
  | free | held delay => exact (add_zero _).symm
  | released delay =>
      exact congrArg (r.drift.after.time + ·) List.sum_singleton.symm

theorem Takes.released (h : t.Takes carrier start f r) {delay : ℝ}
    (hdelay : r.delay? = some delay) :
    start + r.time < t.config.integrationTime ∧
      ∃ word, t.models.detrapping.delay? carrier (Random.unitOfWord word) =
        some delay := by
  obtain ⟨near, far, source, -, -, -, -, hcapture⟩ := h.draws
  have htime : r.time = r.drift.after.time + delay := by
    rw [h.time_eq, Motion.time_of_advance h.drift, hdelay]
    exact congrArg (_ + ·) List.sum_singleton
  have hdrawn : r.capture = _ := congrArg Prod.fst hcapture
  rw [StepReport.delay?, hdrawn] at hdelay
  obtain ⟨hwindow, hword⟩ := released_of_drawCapture hdelay
  refine ⟨?_, hword⟩
  rw [htime, ← add_assoc]
  exact hwindow

omit [WordSource σ] in
theorem time_after (next : r.after? = some g) : g.motion.time = r.time := by
  obtain ⟨_, -, rfl⟩ := Option.map_eq_some_iff.mp next
  rfl

omit [WordSource σ] in
theorem inWindow_of_isFlying (h : t.isFlying start f = true) :
    start + f.motion.time < t.config.integrationTime := by
  obtain ⟨-, hwindow⟩ := Bool.and_eq_true_iff.mp h
  exact of_decide_eq_true hwindow

/-- A step goes beyond the window by less than its timestep. -/
theorem Takes.time_lt (h : t.Takes carrier start f r)
    (flying : t.isFlying start f = true) (hpos : 0 < f.motion.timestep) :
    start + r.time < t.config.integrationTime + f.motion.timestep := by
  have hwindow := inWindow_of_isFlying flying
  cases hdelay : r.delay? with
  | none =>
      have htime := h.time_eq
      rw [hdelay, Option.toList_none, List.sum_nil] at htime
      linarith
  | some delay =>
      have hreleased := (h.released hdelay).1
      linarith

end Step

/-! ## Whole flights -/

section Course

variable {f g : Flight ℝ σ} {reports : List (StepReport ℝ σ)}

/-- Time passes by the timesteps and by the delays of the releases. -/
theorem Course.time_eq (h : t.Course carrier start f reports g) :
    g.motion.time = f.motion.time +
      (reports.map (·.before.motion.timestep)).sum +
      (reports.filterMap StepReport.delay?).sum := by
  induction h with
  | done => simp
  | @step f m g r reports flying taken next _ ih =>
      have htakes := takes_of_step taken
      rw [ih, time_after next, htakes.time_eq, List.map_cons, List.sum_cons,
        htakes.before]
      cases hdelay : r.delay? with
      | none =>
          rw [List.filterMap_cons_none hdelay]
          simp only [Option.toList_none, List.sum_nil]
          ring
      | some delay =>
          rw [List.filterMap_cons_some hdelay]
          simp only [Option.toList_some, List.sum_cons, List.sum_nil]
          ring

theorem Course.delay_nonneg {name : String} {parameters : Parameters ℝ}
    (hbuilt : Detrapping.select name parameters = .ok t.models.detrapping)
    (h : t.Course carrier start f reports g) :
    ∀ delay ∈ reports.filterMap StepReport.delay?, 0 ≤ delay := by
  intro delay hdelay
  obtain ⟨r, hr, hdelay⟩ := List.mem_filterMap.mp hdelay
  obtain ⟨-, htakes⟩ := h.forall_takes r hr
  obtain ⟨-, word, hword⟩ := htakes.released hdelay
  exact Detrapping.delay?_nonneg
    (fun means hmeans => Detrapping.mean_pos hbuilt hmeans carrier)
    (Random.unitOfWord_bounds word) hword

variable {name : String} {parameters : Parameters ℝ} {position : Vec3 ℝ}
variable {efield : ℝ} {source : σ}

omit [WordSource σ] in
theorem time_launch : (t.launch position efield source).motion.time = 0 := by
  change (0.0 : ℝ) = 0
  norm_num

theorem Course.time_eq_of_launch
    (h : t.Course carrier start (t.launch position efield source) reports f) :
    f.motion.time = (reports.map (·.before.motion.timestep)).sum +
      (reports.filterMap StepReport.delay?).sum := by
  rw [h.time_eq, time_launch, zero_add]

theorem Course.min_le (hconfig : t.config.Accepted)
    (hbuilt : Detrapping.select name parameters = .ok t.models.detrapping)
    (h : t.Course carrier start (t.launch position efield source) reports f) :
    reports.length * t.config.timestepMin ≤ f.motion.time := by
  have hallows := (h.allows hconfig.allows_start).1
  have hsteps : reports.length * t.config.timestepMin ≤
      (reports.map (·.before.motion.timestep)).sum := by
    have hsum := List.card_nsmul_le_sum
      (reports.map (·.before.motion.timestep)) t.config.timestepMin
      (List.forall_mem_map.mpr fun r hr => (hallows r hr).1)
    rw [List.length_map, nsmul_eq_mul] at hsum
    exact hsum
  have hdelays := List.sum_nonneg (h.delay_nonneg hbuilt)
  rw [h.time_eq_of_launch]
  linarith

theorem Course.le_max (hconfig : t.config.Accepted)
    (h : t.Course carrier start (t.launch position efield source) reports f)
    (hnone : ∀ r ∈ reports, r.delay? = none) :
    f.motion.time ≤ reports.length * t.config.timestepMax := by
  have hallows := (h.allows hconfig.allows_start).1
  have hsum := List.sum_le_card_nsmul
    (reports.map (·.before.motion.timestep)) t.config.timestepMax
    (List.forall_mem_map.mpr fun r hr => (hallows r hr).2)
  rw [List.length_map, nsmul_eq_mul] at hsum
  rw [h.time_eq_of_launch, List.filterMap_eq_nil_iff.mpr hnone, List.sum_nil,
    add_zero]
  exact hsum

/-- While a group is in flight more steps are possible. -/
theorem Course.length_lt (hconfig : t.config.Accepted)
    (hbuilt : Detrapping.select name parameters = .ok t.models.detrapping)
    (h : t.Course carrier start (t.launch position efield source) reports f)
    (flying : t.isFlying start f = true) :
    reports.length < t.stepLimit start := by
  have hmin := h.min_le hconfig hbuilt
  have hwindow := inWindow_of_isFlying flying
  refine Nat.lt_ceil.mpr ((lt_div_iff₀ hconfig.timestepMin_pos).mpr ?_)
  linarith

theorem Course.length_le (hconfig : t.config.Accepted)
    (hbuilt : Detrapping.select name parameters = .ok t.models.detrapping)
    (h : t.Course carrier start (t.launch position efield source) reports f) :
    reports.length ≤ t.stepLimit start := by
  by_cases hne : reports = []
  · rw [hne]
    exact Nat.zero_le _
  · obtain ⟨init, last, m, rfl, hinit, flying, -, -⟩ := h.exists_last hne
    have hlt := hinit.length_lt hconfig hbuilt flying
    rw [List.length_append]
    exact hlt

theorem Course.time_lt (hconfig : t.config.Accepted)
    (h : t.Course carrier start (t.launch position efield source) reports f)
    (hstart : start < t.config.integrationTime) :
    start + f.motion.time <
      t.config.integrationTime + t.config.timestepMax := by
  have hmin := hconfig.timestepMin_pos
  by_cases hne : reports = []
  · subst hne
    cases h
    have hstep := hconfig.allows_start
    rw [time_launch]
    linarith [hstep.1, hstep.2]
  · obtain ⟨init, last, m, -, hinit, flying, taken, next⟩ := h.exists_last hne
    have hallows := (hinit.allows hconfig.allows_start).2
    have hlast := (takes_of_step taken).time_lt flying
      (hmin.trans_le hallows.1)
    rw [time_after next]
    linarith [hallows.2]

/-- All that is known of the time of a flight after these steps. -/
structure Timed (t : Transport ℝ) (start : ℝ)
    (reports : List (StepReport ℝ σ)) (time : ℝ) : Prop where
  late : t.config.integrationTime ≤ start → reports = []
  steps_le : reports.length ≤ t.stepLimit start
  time_eq : time = (reports.map (·.before.motion.timestep)).sum +
    (reports.filterMap StepReport.delay?).sum
  delay_nonneg : ∀ delay ∈ reports.filterMap StepReport.delay?, 0 ≤ delay
  min_le : reports.length * t.config.timestepMin ≤ time
  le_max : (∀ r ∈ reports, r.delay? = none) →
    time ≤ reports.length * t.config.timestepMax
  time_lt : start < t.config.integrationTime →
    start + time < t.config.integrationTime + t.config.timestepMax

theorem Course.timed (hconfig : t.config.Accepted)
    (hbuilt : Detrapping.select name parameters = .ok t.models.detrapping)
    (h : t.Course carrier start (t.launch position efield source) reports f) :
    t.Timed start reports f.motion.time where
  late hlate := by
    have hlength := h.length_le hconfig hbuilt
    have hnone : t.stepLimit start = 0 :=
      Nat.ceil_eq_zero.mpr (div_nonpos_of_nonpos_of_nonneg (by linarith)
        hconfig.timestepMin_pos.le)
    exact List.eq_nil_of_length_eq_zero (by omega)
  steps_le := h.length_le hconfig hbuilt
  time_eq := h.time_eq_of_launch
  delay_nonneg := h.delay_nonneg hbuilt
  min_le := h.min_le hconfig hbuilt
  le_max := h.le_max hconfig
  time_lt := h.time_lt hconfig

end Course

/-- In exact arithmetic, under every configuration that is accepted and with
every detrapping that can be selected: whatever the steps of a flight are, they
are at most as many as the shortest timesteps in the window of the group, none
if it is late; its time is theirs and that of the releases, within the bounds of
as many timesteps, and beyond the window by less than one.  With so many steps
allowed every flight ends, unless its field fails or a sample is given up. -/
theorem propagate_ends_in_window (t : Transport ℝ) {name : String}
    {parameters : Parameters ℝ} (hconfig : t.config.validate = .ok ())
    (hbuilt : Detrapping.select name parameters = .ok t.models.detrapping)
    (carrier : Carrier) (position : Vec3 ℝ) (start : ℝ) (source : σ) :
    (∀ efield reports f,
      t.Course carrier start (t.launch position efield source) reports f →
      t.Timed start reports f.motion.time) ∧
    (∀ budget, t.stepLimit start ≤ budget → ∀ recorder threshold,
      (∃ o recorder' source' journal efield reports f,
        (t.propagate budget carrier position start recorder source).runFrom
          threshold = (.ok (o, recorder', source'), journal) ∧
        t.Course carrier start (t.launch position efield source) reports f ∧
        t.isFlying start f = false ∧ o = t.outcome start f ∧
        o.steps = reports.length ∧ t.Timed start reports o.time) ∨
      (∃ fault journal,
        (t.propagate budget carrier position start recorder source).runFrom
          threshold = (.error fault, journal) ∧
        (t.field.Fails fault ∨ fault = .unfinished ∧
          ∃ efield reports f,
            t.Course carrier start (t.launch position efield source) reports
              f ∧
            t.isFlying start f = true ∧ t.SampleFails f))) := by
  have haccepted := Config.validate_eq_ok_iff.mp hconfig
  constructor
  · intro efield reports f hcourse
    exact hcourse.timed haccepted hbuilt
  · intro budget hbudget recorder threshold
    have hgives := propagate_gives t budget carrier position start recorder
      source
    have hresult := hgives.runFrom threshold
    rw [← hgives.result_eq] at hresult
    cases hrun : (t.propagate budget carrier position start recorder
        source).runFrom threshold with
    | mk ended journal =>
        rw [hrun] at hresult
        cases ended with
        | ok ended =>
            obtain ⟨o, recorder', source'⟩ := ended
            obtain ⟨efield, reports, f, -, hcourse, hdone, -, ho, -, -⟩ :=
              propagate_result_eq_ok_iff.mp hresult.symm
            refine .inl ⟨o, recorder', source', journal, efield.norm, reports,
              f, rfl, hcourse, hdone, ho, ?_, ?_⟩
            · rw [ho]
              exact hcourse.steps_outcome
            · rw [ho]
              exact hcourse.timed haccepted hbuilt
        | error fault =>
            refine .inr ⟨fault, journal, rfl, ?_⟩
            obtain hfield | ⟨hfault, efield, reports, f, -, hcourse, hflying,
              hlength | hsample⟩ := propagate_eq_error_of_accepted haccepted
                hresult.symm
            · exact .inl hfield
            · have hlt := hcourse.length_lt haccepted hbuilt hflying
              omega
            · exact .inr ⟨hfault, efield.norm, reports, f, hcourse, hflying,
                hsample⟩

/-- Three nanoseconds are the mean time until a release. -/
noncomputable def releasing : Parameters ℝ :=
  { Parameters.standard with detrappingTime := ⟨some 3.0, some 3.0⟩ }

/-- A thin layer in which carriers are captured and released. -/
noncomputable def releasingLayer : Transport ℝ :=
  .ofParts Config.standard
    ⟨.constant ⟨1.0, 1.0⟩, .none, ⟨some ⟨2.0, 2.0⟩⟩, ⟨some ⟨3.0, 3.0⟩⟩,
      ⟨.none, 0.01⟩⟩
    (.uniform ⟨0.0, 0.0, -0.5⟩ none none)
    (Box.sensor ⟨.zero, ⟨2.0, 2.0, 0.3⟩⟩ none)

theorem ns_eq_one : (Units.ns : ℝ) = 1 := by
  norm_num [Units.ns]

theorem validate_releasingLayer :
    releasingLayer.config.validate = .ok () := by
  refine Config.validate_eq_ok_iff.mpr ⟨?_, ?_, ?_, by decide, .inl rfl⟩
  · intro option hoption
    refine ⟨rfl, ?_⟩
    revert hoption
    norm_num [releasingLayer, ofParts, Config.standard, Config.positiveOptions,
      Units.nm, Units.mm, ns_eq_one]
    rintro (rfl | rfl | rfl | rfl | rfl | rfl) <;> norm_num
  · norm_num [releasingLayer, ofParts, Config.standard, ns_eq_one]
  · norm_num [releasingLayer, ofParts, Config.standard, ns_eq_one]

theorem requirePositive_eq_ok (model parameter : String) {value : ℝ}
    (h : 0 < value) :
    Parameters.requirePositive model parameter (some value) = .ok value := by
  have hpositive : ¬value ≤ 0.0 := by
    rw [decimal_zero]
    exact not_le.mpr h
  exact if_neg hpositive

theorem select_releasing :
    Detrapping.select "constant" releasing =
      .ok releasingLayer.models.detrapping := by
  have hthree : (0 : ℝ) < 3.0 := by norm_num
  simp only [Detrapping.select, Parameters.requirePair, releasing,
    requirePositive_eq_ok _ _ hthree]
  rfl

theorem standardNormal_middleWords :
    (Random.standardNormal middleWords : Option (ℝ × CyclicWords)) =
      some (0, middleWords) := by
  obtain ⟨n, hn⟩ : ∃ n, Random.attemptLimit = n + 1 :=
    ⟨Random.attemptLimit - 1, by decide⟩
  have hnext : WordSource.next middleWords =
      (0x8000000000000000, middleWords) := rfl
  have hlayer : ((0x8000000000000000 : UInt64) &&& 0xff).toNat = 0 := rfl
  have hunit : (Random.signedUnitOfWord 0x8000000000000000 : ℝ) = 0 := by
    change ((2251799813685248 : ℕ) : ℝ) / 2251799813685248.0 - 1.0 = 0
    norm_num
  have hend : (0 : ℝ) < Random.layerEnd 1 := by
    have hentry : Random.layerEnds.getD 1 0 = 3654152885361008796 := by
      decide +kernel
    unfold Random.layerEnd Random.ofTable
    rw [hentry]
    norm_num
  have hinside : Scalar.abs (0 : ℝ) < Random.layerEnd 1 :=
    abs_zero.trans_lt hend
  unfold Random.standardNormal
  rw [hn, Random.standardNormalWithin]
  simp only [hnext, hunit, hlayer]
  rw [zero_mul, if_pos hinside]

theorem diffuse_middleWords (mobility temperature timestep : ℝ) :
    diffuse middleWords mobility temperature timestep ≠ none := by
  unfold diffuse
  dsimp only
  split
  · simp [normalVector, Random.normal, standardNormal_middleWords]
  · simp

theorem stepLimit_releasingLayer : releasingLayer.stepLimit 24.9995 = 1 := by
  refine (Nat.ceil_eq_iff one_ne_zero).mpr ?_
  norm_num [releasingLayer, ofParts, Config.standard, ns_eq_one]

theorem isFlying_releasingLayer (efield : ℝ) :
    releasingLayer.isFlying 24.9995
      (releasingLayer.launch .zero efield middleWords) = true := by
  refine Bool.and_eq_true_iff.mpr ⟨rfl, decide_eq_true ?_⟩
  rw [time_launch]
  norm_num [releasingLayer, ofParts, Config.standard, ns_eq_one]

/-- A group that is deposited half of the shortest timestep before the end of
the window takes one step. -/
theorem propagate_ends_in_window_releasingLayer :
    ∃ o recorder source' journal,
      (releasingLayer.propagate 1 .electron .zero 24.9995 none
        middleWords).runFrom none = (.ok (o, recorder, source'), journal) ∧
      o.steps = 1 ∧ 0.001 ≤ o.time ∧ 24.9995 + o.time < 25.5 := by
  have hlimit := stepLimit_releasingLayer
  obtain ⟨-, hends⟩ := propagate_ends_in_window releasingLayer
    validate_releasingLayer select_releasing .electron .zero 24.9995
    middleWords
  obtain ⟨o, recorder, source', journal, efield, reports, f, hrun, hcourse,
    hdone, -, hsteps, htimed⟩ | ⟨fault, journal, -, hfails⟩ :=
      hends 1 hlimit.le none none
  · have hne : reports ≠ [] := by
      rintro rfl
      cases hcourse
      rw [isFlying_releasingLayer] at hdone
      cases hdone
    have hsome := List.length_pos_iff.mpr hne
    have hone := htimed.steps_le
    have hlength : reports.length = 1 := by omega
    have hmin := htimed.min_le
    have hlt := htimed.time_lt (by
      norm_num [releasingLayer, ofParts, Config.standard, ns_eq_one])
    rw [hlength] at hsteps hmin
    norm_num [releasingLayer, ofParts, Config.standard, ns_eq_one] at hmin hlt
    refine ⟨o, recorder, source', journal, hrun, hsteps, ?_, ?_⟩
    · norm_num
      exact hmin
    · norm_num
      exact hlt
  · obtain hfield | ⟨-, efield, reports, f, hcourse, hflying, mobility,
      hsample⟩ := hfails
    · obtain h | h | h := hfield <;> cases h
    · have hlt := hcourse.length_lt
        (Config.validate_eq_ok_iff.mp validate_releasingLayer)
        select_releasing hflying
      have hnil : reports = [] := List.eq_nil_of_length_eq_zero (by omega)
      subst hnil
      cases hcourse
      exact absurd hsample (diffuse_middleWords _ _ _)

end Transport

end CarrierTransport
