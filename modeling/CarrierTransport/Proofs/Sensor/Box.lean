import Mathlib.Analysis.Convex.Basic
import CarrierTransport.Proofs.Flight.Fate
import CarrierTransport.Proofs.Flight.Uniform
import CarrierTransport.Proofs.Scalar.Rational

/-!
# How boxes are left

A segment that begins in a box and ends outside leaves it once.  Along each axis
the part of the segment between the faces is an interval from its beginning, and
the box is left where the shortest of the three ends.
-/

namespace CarrierTransport

namespace Box

/-! ## One axis -/

section Axes

variable {low high inside outside : ℝ}

theorem between_iff {x : ℝ} :
    between low high x = true ↔ low ≤ x ∧ x ≤ high := by
  simp [between]

/-- Where a part of a segment ends. -/
def along (inside outside part : ℝ) : ℝ := inside + part * (outside - inside)

variable (low high outside) in
/-- The face at `x` is one that `outside` lies beyond. -/
def IsFaceBeyond (x : ℝ) : Prop :=
  high < outside ∧ x = high ∨ outside < low ∧ x = low

variable (low high inside outside) in
/-- The part of a segment at which it reaches the face that its end lies beyond,
or the whole of it. -/
noncomputable def axisPart : ℝ :=
  match faceBeyond? low high outside with
  | none => 1
  | some face => (face - inside) / (outside - inside)

variable (low high inside outside) in
/-- Up to `part` a segment is between the faces and after it no longer, unless
it is the whole. -/
structure Leaves (part : ℝ) : Prop where
  nonneg : 0 ≤ part
  le_one : part ≤ 1
  within : ∀ p, 0 ≤ p → p ≤ part →
    between low high (along inside outside p) = true
  beyond : part < 1 →
    IsFaceBeyond low high outside (along inside outside part) ∧
      ∀ p, part < p → between low high (along inside outside p) = false

theorem leaves_of_high (hlow : low ≤ inside) (hhigh : inside ≤ high)
    (hbeyond : high < outside) :
    Leaves low high inside outside ((high - inside) / (outside - inside)) := by
  have hdirection : 0 < outside - inside := by linarith
  have hface : along inside outside ((high - inside) / (outside - inside)) =
      high := by
    rw [along, div_mul_cancel₀ _ hdirection.ne', add_sub_cancel]
  constructor
  · exact div_nonneg (by linarith) hdirection.le
  · rw [div_le_one hdirection]
    linarith
  · intro p hp hle
    rw [le_div_iff₀ hdirection] at hle
    have hforth := mul_nonneg hp hdirection.le
    refine between_iff.mpr ⟨?_, ?_⟩ <;> rw [along] <;> linarith
  · refine fun _ => ⟨.inl ⟨hbeyond, hface⟩, fun p hp => ?_⟩
    rw [div_lt_iff₀ hdirection] at hp
    refine Bool.eq_false_iff.mpr fun hbetween => ?_
    have hle := (between_iff.mp hbetween).2
    rw [along] at hle
    linarith

theorem between_neg {x : ℝ} :
    between (-high) (-low) (-x) = between low high x := by
  rw [Bool.eq_iff_iff, between_iff, between_iff, neg_le_neg_iff,
    neg_le_neg_iff, and_comm]

theorem along_neg (part : ℝ) :
    along (-inside) (-outside) part = -along inside outside part := by
  rw [along, along]
  ring

/-- One face is the mirror image of the other. -/
theorem Leaves.mirror {part : ℝ}
    (h : Leaves (-high) (-low) (-inside) (-outside) part) :
    Leaves low high inside outside part := by
  obtain ⟨hnonneg, hone, hwithin, hbeyond⟩ := h
  simp only [along_neg, between_neg, IsFaceBeyond, neg_lt_neg_iff,
    neg_inj] at hwithin hbeyond
  exact ⟨hnonneg, hone, hwithin,
    fun hlt => ⟨(hbeyond hlt).1.symm, (hbeyond hlt).2⟩⟩

theorem leaves_of_low (hlow : low ≤ inside) (hhigh : inside ≤ high)
    (hbeyond : outside < low) :
    Leaves low high inside outside ((low - inside) / (outside - inside)) := by
  have hmirror := leaves_of_high (neg_le_neg hhigh) (neg_le_neg hlow)
    (neg_lt_neg hbeyond)
  rw [neg_sub_neg, neg_sub_neg, ← neg_sub low, ← neg_sub outside,
    neg_div_neg_eq] at hmirror
  exact hmirror.mirror

theorem leaves_of_between (hlow : low ≤ inside) (hhigh : inside ≤ high)
    (hlow' : low ≤ outside) (hhigh' : outside ≤ high) :
    Leaves low high inside outside 1 := by
  refine ⟨zero_le_one, le_rfl, fun p hp hle => ?_,
    fun hlt => absurd hlt (lt_irrefl 1)⟩
  exact between_iff.mpr ((convex_Icc low high).add_smul_sub_mem
    ⟨hlow, hhigh⟩ ⟨hlow', hhigh'⟩ ⟨hp, hle⟩)

theorem leaves_axisPart (hin : between low high inside = true) :
    Leaves low high inside outside (axisPart low high inside outside) := by
  obtain ⟨hlow, hhigh⟩ := between_iff.mp hin
  unfold axisPart faceBeyond?
  by_cases hup : high < outside
  · simp only [if_pos hup]
    exact leaves_of_high hlow hhigh hup
  · by_cases hdown : outside < low
    · simp only [if_neg hup, if_pos hdown]
      exact leaves_of_low hlow hhigh hdown
    · simp only [if_neg hup, if_neg hdown]
      exact leaves_of_between hlow hhigh (not_lt.mp hdown) (not_lt.mp hup)

theorem cutAt_eq (hin : between low high inside = true) {part : ℝ}
    (hpart : part ≤ 1) :
    cutAt low high inside outside part =
      min part (axisPart low high inside outside) := by
  have hmoves {face : ℝ} (hne : inside ≠ outside) :
      (if (outside - inside != 0.0) = true then
          Scalar.min part ((face - inside) / (outside - inside))
        else part) = min part ((face - inside) / (outside - inside)) := by
    have hdirection : ¬outside - inside = 0.0 := by
      rw [decimal_zero]
      exact sub_ne_zero.mpr hne.symm
    rw [if_pos, Scalar.min_eq]
    change (!decide (outside - inside = 0.0)) = true
    rw [decide_eq_false hdirection]
    rfl
  obtain ⟨hlow, hhigh⟩ := between_iff.mp hin
  unfold cutAt axisPart faceBeyond?
  by_cases hup : high < outside
  · simp only [if_pos hup]
    exact hmoves (hhigh.trans_lt hup).ne
  · by_cases hdown : outside < low
    · simp only [if_neg hup, if_pos hdown]
      exact hmoves (hdown.trans_le hlow).ne'
    · simp only [if_neg hup, if_neg hdown]
      exact (min_eq_left hpart).symm

end Axes

/-! ## Three axes -/

variable (b : Box ℝ) {inside outside p : Vec3 ℝ}

theorem contains_iff : b.contains p = true ↔ ∀ axis,
    between (b.low.component axis) (b.high.component axis)
      (p.component axis) = true := by
  unfold contains
  rw [Bool.and_eq_true, Bool.and_eq_true]
  constructor
  · rintro ⟨⟨hx, hy⟩, hz⟩ axis
    cases axis
    · exact hx
    · exact hy
    · exact hz
  · intro h
    exact ⟨⟨h .x, h .y⟩, h .z⟩

theorem exists_of_not_contains (h : b.contains p = false) : ∃ axis,
    between (b.low.component axis) (b.high.component axis)
      (p.component axis) = false := by
  by_contra hnone
  refine Bool.eq_false_iff.mp h (b.contains_iff.mpr fun axis => ?_)
  rw [← Bool.not_eq_false]
  exact fun hbetween => hnone ⟨axis, hbetween⟩

theorem component_segment (part : ℝ) (axis : Axis) :
    (inside + part • (outside - inside)).component axis =
      along (inside.component axis) (outside.component axis) part := by
  rw [Vec3.component_add, Vec3.component_smul, Vec3.component_sub, along]

variable (inside outside) in
noncomputable def partAlong (axis : Axis) : ℝ :=
  axisPart (b.low.component axis) (b.high.component axis)
    (inside.component axis) (outside.component axis)

section Inside

variable {b} (outside) (hin : b.contains inside = true)
include hin

theorem leaves_partAlong (axis : Axis) :
    Leaves (b.low.component axis) (b.high.component axis)
      (inside.component axis) (outside.component axis)
      (b.partAlong inside outside axis) :=
  leaves_axisPart (b.contains_iff.mp hin axis)

/-- The box is left where the first axis is left. -/
theorem exitPart_eq :
    b.exitPart inside outside =
      min (min (b.partAlong inside outside .x) (b.partAlong inside outside .y))
        (b.partAlong inside outside .z) := by
  have hbetween := b.contains_iff.mp hin
  have hx := (leaves_partAlong outside hin .x).le_one
  have hcutx : cutAt b.low.x b.high.x inside.x outside.x 1 =
      b.partAlong inside outside .x :=
    (cutAt_eq (hbetween .x) le_rfl).trans (min_eq_right hx)
  have hcuty : cutAt b.low.y b.high.y inside.y outside.y
        (b.partAlong inside outside .x) =
      min (b.partAlong inside outside .x) (b.partAlong inside outside .y) :=
    cutAt_eq (hbetween .y) hx
  unfold exitPart
  dsimp only
  rw [decimal_one, hcutx, hcuty]
  exact cutAt_eq (hbetween .z) (min_le_of_left_le hx)

theorem exitPart_le (axis : Axis) :
    b.exitPart inside outside ≤ b.partAlong inside outside axis := by
  rw [exitPart_eq outside hin]
  cases axis
  · exact (min_le_left _ _).trans (min_le_left _ _)
  · exact (min_le_left _ _).trans (min_le_right _ _)
  · exact min_le_right _ _

theorem exists_exitPart_eq : ∃ axis,
    b.exitPart inside outside = b.partAlong inside outside axis := by
  rw [exitPart_eq outside hin]
  obtain hxy | hz := min_choice
    (min (b.partAlong inside outside .x) (b.partAlong inside outside .y))
    (b.partAlong inside outside .z)
  · rw [hxy]
    obtain hx | hy := min_choice (b.partAlong inside outside .x)
      (b.partAlong inside outside .y)
    · exact ⟨.x, hx⟩
    · exact ⟨.y, hy⟩
  · exact ⟨.z, hz⟩

theorem exitPart_nonneg : 0 ≤ b.exitPart inside outside := by
  obtain ⟨axis, heq⟩ := exists_exitPart_eq outside hin
  rw [heq]
  exact (leaves_partAlong outside hin axis).nonneg

theorem intercept_eq :
    b.intercept inside outside =
      inside + b.exitPart inside outside • (outside - inside) := by
  rw [intercept, Scalar.max_eq, decimal_zero,
    max_eq_left (exitPart_nonneg outside hin)]

theorem contains_intercept :
    b.contains (b.intercept inside outside) = true := by
  rw [intercept_eq outside hin]
  refine b.contains_iff.mpr fun axis => ?_
  rw [component_segment]
  exact (leaves_partAlong outside hin axis).within _
    (exitPart_nonneg outside hin) (exitPart_le outside hin axis)

theorem exitPart_lt_one (hout : b.contains outside = false) :
    b.exitPart inside outside < 1 := by
  obtain ⟨axis, hbeyond⟩ := b.exists_of_not_contains hout
  have hleaves := leaves_partAlong outside hin axis
  refine (exitPart_le outside hin axis).trans_lt
    (hleaves.le_one.lt_of_ne fun hone => ?_)
  -- An axis that is not left has its end between the faces.
  have hend := hleaves.within 1 zero_le_one hone.ge
  rw [along, one_mul, add_sub_cancel, hbeyond] at hend
  cases hend

end Inside

def OnSurface (p : Vec3 ℝ) : Prop :=
  b.contains p = true ∧ ∃ axis,
    p.component axis = b.low.component axis ∨
      p.component axis = b.high.component axis

/-- The last point of a segment that lies in the box is `p`, on a face beyond
which the segment ends. -/
structure IsExit (inside outside p : Vec3 ℝ) : Prop where
  contains : b.contains p = true
  face : ∃ axis, IsFaceBeyond (b.low.component axis) (b.high.component axis)
    (outside.component axis) (p.component axis)
  last : ∃ part : ℝ, 0 ≤ part ∧ part < 1 ∧
    p = inside + part • (outside - inside) ∧
    ∀ later : ℝ, part < later →
      b.contains (inside + later • (outside - inside)) = false

variable {b}

theorem isExit_intercept (hin : b.contains inside = true)
    (hout : b.contains outside = false) :
    b.IsExit inside outside (b.intercept inside outside) := by
  have hone := exitPart_lt_one outside hin hout
  obtain ⟨axis, heq⟩ := exists_exitPart_eq outside hin
  have hleaves := leaves_partAlong outside hin axis
  rw [← heq] at hleaves
  obtain ⟨hface, hlater⟩ := hleaves.beyond hone
  refine ⟨contains_intercept outside hin, ⟨axis, ?_⟩,
    b.exitPart inside outside, exitPart_nonneg outside hin, hone,
    intercept_eq outside hin, fun later hlt => ?_⟩
  · rw [intercept_eq outside hin, component_segment]
    exact hface
  · refine Bool.eq_false_iff.mpr fun hcontains => ?_
    have hbetween := b.contains_iff.mp hcontains axis
    rw [component_segment, hlater later hlt] at hbetween
    cases hbetween

theorem IsExit.onSurface (h : b.IsExit inside outside p) : b.OnSurface p := by
  obtain ⟨axis, ⟨-, hhigh⟩ | ⟨-, hlow⟩⟩ := h.face
  · exact ⟨h.contains, axis, .inr hhigh⟩
  · exact ⟨h.contains, axis, .inl hlow⟩

end Box

/-! ## Flights that leave a box -/

namespace Transport

theorem EndsAt.onSurface {σ : Type} {t : Transport ℝ} {b : Box ℝ}
    {offset : Option (Vec3 ℝ)} (hsensor : t.sensor = b.sensor offset)
    {position : Vec3 ℝ} (hposition : b.contains position = true)
    {reports : List (StepReport ℝ σ)} {o : Outcome ℝ}
    (h : t.EndsAt position reports o) (hhalted : o.state = .halted) :
    b.OnSurface o.position := by
  obtain ⟨r, -, hout, hplace, hfrom⟩ := h.halted hhalted
  rw [hsensor] at hout hplace hfrom
  have hin : b.contains r.before.motion.position = true := by
    by_cases hone : reports.length = 1
    · rw [if_pos hone] at hfrom
      rwa [hfrom]
    · rwa [if_neg hone] at hfrom
  rw [hplace]
  exact (Box.isExit_intercept hin hout).onSurface

/-- Outside the sensor a group is halted, if nothing else can befall it. -/
theorem Takes.state_eq_halted {σ : Type} [WordSource σ] {t : Transport ℝ}
    (hrecombination : t.models.recombination = .none)
    (htrapping : t.models.trapping.times = none) {carrier : Carrier} {start : ℝ}
    {f : Flight ℝ σ} {r : StepReport ℝ σ} (h : t.Takes carrier start f r)
    (hout : t.sensor.contains r.position = false) : r.state = .halted := by
  rw [h.state_eq_fate, fate, h.keeps_of_untrapped htrapping,
    h.recombined_of_none hrecombination, hout]
  rfl

end Transport

namespace Box

/-- In exact arithmetic the intercept of a segment that begins in a box and ends
outside is where the segment leaves the box: it is a point of the segment in the
box, on a face beyond which the segment ends, and after it the segment is
outside.  So a group that is deposited in a box and halted ends on its
surface. -/
theorem intercept_is_exit (b : Box ℝ) :
    (∀ inside outside, b.contains inside = true → b.contains outside = false →
      b.IsExit inside outside (b.intercept inside outside)) ∧
    ∀ {σ : Type} [WordSource σ] (t : Transport ℝ) (offset : Option (Vec3 ℝ))
      (carrier : Carrier) (position : Vec3 ℝ) (start : ℝ) (source : σ),
      t.sensor = b.sensor offset → b.contains position = true →
      ∀ budget recorder threshold o recorder' source' journal,
        (t.propagate budget carrier position start recorder source).runFrom
          threshold = (.ok (o, recorder', source'), journal) →
        o.state = .halted → b.OnSurface o.position := by
  refine ⟨fun inside outside hin hout => isExit_intercept hin hout, ?_⟩
  intro σ _ t offset carrier position start source hsensor hposition budget
    recorder threshold o recorder' source' journal hrun hhalted
  obtain ⟨efield, reports, f, -, hcourse, -, -, rfl, -, -⟩ :=
    Transport.course_of_run hrun
  exact hcourse.endsAt.onSurface hsensor hposition hhalted

/-- Two millimetres wide and 300 micrometres thick. -/
noncomputable def thin : Box ℝ := ⟨.zero, ⟨2.0, 2.0, 0.3⟩⟩

/-- The thin layer with the field along its depth, in which carriers drift and
diffuse and nothing else happens. -/
noncomputable def driftLayer : Transport ℝ :=
  .ofParts Config.standard
    ⟨.constant ⟨1.0, 1.0⟩, .none, ⟨none⟩, ⟨none⟩, ⟨.none, 0.01⟩⟩
    (.uniform ⟨0.0, 0.0, -0.5⟩ none none) (thin.sensor none)

theorem thin_low : thin.low = ⟨-1, -1, -0.15⟩ := by
  ext <;> norm_num [thin, low, Vec3.zero, Vec3.dividedBy]

theorem thin_high : thin.high = ⟨1, 1, 0.15⟩ := by
  ext <;> norm_num [thin, high, Vec3.zero, Vec3.dividedBy]

noncomputable def belowTop : Vec3 ℝ := ⟨0, 0, 0.146⟩

theorem contains_belowTop : thin.contains belowTop = true := by
  norm_num [contains, between, thin_low, thin_high, belowTop]

theorem exists_halted_driftLayer : ∃ o recorder source,
    (driftLayer.propagate 1 .electron belowTop 0 none
      Transport.middleWords).result = .ok (o, recorder, source) ∧
    o.state = .halted := by
  have hstart := (Config.validate_eq_ok_iff.mp
    Transport.validate_releasingLayer).allows_start
  obtain ⟨v, hvelocity⟩ := Transport.exists_velocity_of_uniform Config.standard
    driftLayer.models ⟨0.0, 0.0, -0.5⟩ none none driftLayer.sensor .electron
  have htableau : driftLayer.tableau.Consistent :=
    Tableau.consistent_ofScheme .fehlberg
  have hv : v.z = 0.5 := by
    have hdrift : Except.ok (drift .electron (1.0 : ℝ) ⟨0.0, 0.0, -0.5⟩) =
        Except.ok v := hvelocity .zero
    rw [← Except.ok.inj hdrift]
    norm_num [drift, Carrier.sign]
  have flying : driftLayer.isFlying 0 (driftLayer.launch belowTop
      (Vec3.norm ⟨0.0, 0.0, -0.5⟩) Transport.middleWords) = true := by
    refine Bool.and_eq_true_iff.mpr ⟨rfl, decide_eq_true ?_⟩
    rw [Transport.time_launch]
    norm_num [driftLayer, Transport.ofParts, Config.standard,
      Transport.ns_eq_one]
  obtain ⟨r, f, hcourse, -, -, hquiet⟩ := Transport.exists_step
    (t := driftLayer) (f := driftLayer.launch belowTop
      (Vec3.norm ⟨0.0, 0.0, -0.5⟩) Transport.middleWords) .electron
    (Field.not_fails_uniform _ _ _) rfl hstart flying
  cases hcourse with
  | step _ taken next rest =>
      cases rest
      have htakes := Transport.takes_of_step taken
      have hz : r.position.z = 0.151 := by
        rw [htakes.position, htakes.drift_eq htableau hvelocity, hquiet]
        simp only [Vec3.add_z, Vec3.smul_z, Vec3.zero_z, hv]
        norm_num [driftLayer, Transport.launch, Motion.start, belowTop,
          Transport.ofParts, Config.standard, Transport.ns_eq_one]
      have hout : thin.contains r.position = false := by
        norm_num [contains, between, thin_low, thin_high, hz]
      have hstate : r.state = .halted := htakes.state_eq_halted rfl rfl hout
      have hhalted : f.state = .halted :=
        (StepReport.after_eq next).2.2.trans hstate
      have hdone : driftLayer.isFlying 0 f = false := by
        simp [Transport.isFlying, hhalted, CarrierState.isTerminal]
      exact ⟨driftLayer.outcome 0 f, _, f.source,
        Transport.propagate_result_eq_ok_iff.mpr ⟨_, [r], f, rfl,
          .step flying taken next (.done f), hdone, Nat.le_refl 1, rfl, rfl,
          rfl⟩, hhalted⟩

/-- A segment of the layer that ends beyond two of its faces, and a group that
leaves it by drift. -/
theorem intercept_is_exit_thin :
    thin.IsExit ⟨0.9, 0.9, 0.1⟩ ⟨1.2, 1.0, 0.2⟩
      (thin.intercept ⟨0.9, 0.9, 0.1⟩ ⟨1.2, 1.0, 0.2⟩) ∧
    ∃ o recorder source journal,
      (driftLayer.propagate 1 .electron belowTop 0 none
        Transport.middleWords).runFrom none =
          (.ok (o, recorder, source), journal) ∧
      o.state = .halted ∧ thin.OnSurface o.position := by
  obtain ⟨hexit, hflights⟩ := intercept_is_exit thin
  have hin : thin.contains ⟨0.9, 0.9, 0.1⟩ = true := by
    norm_num [contains, between, thin_low, thin_high]
  have hout : thin.contains ⟨1.2, 1.0, 0.2⟩ = false := by
    norm_num [contains, between, thin_low, thin_high]
  obtain ⟨o, recorder, source, hresult, hhalted⟩ := exists_halted_driftLayer
  have hsurface := hflights driftLayer none .electron belowTop 0
    Transport.middleWords rfl contains_belowTop 1 none none o recorder source _
    (Prod.ext hresult rfl) hhalted
  exact ⟨hexit _ _ hin hout, o, recorder, source, _, Prod.ext hresult rfl,
    hhalted, hsurface⟩

end Box

end CarrierTransport
