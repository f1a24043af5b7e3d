import Mathlib.Data.Real.Basic
import Mathlib.Tactic.FieldSimp
import CarrierTransport.Proofs.Run.Totals
import CarrierTransport.Proofs.Scalar.Real

/-!
# The mean time of a run

Every event adds its time to the totals in whole picoseconds.  What is rounded
off is half a picosecond an event or less, and a run may add it up.  The mean
that a run reports is off by no more than that from the mean over its carriers,
which is also the mean over its events where each had carriers.
-/

namespace CarrierTransport

/-! ## Counters that do not wrap around -/

section Counters

variable {α : Type} [Scalar α] {t : RunTotals} {s : EventSummary α}
variable {counter : Counter} {summaries order : List (EventSummary α)}
variable {additions more : List (Counter × UInt64)}

/-- What an event would add to a counter without an end. -/
def EventSummary.count (s : EventSummary α) : Counter → Nat
  | .totalTimePs => Scalar.nearest (s.weightedTime / Units.ps)
  | counter => s.share counter

theorem EventSummary.share_eq_count (h : s.count counter ≤ wordMax) :
    s.share counter = s.count counter := by
  cases counter with
  | totalTimePs => exact min_eq_left h
  | _ => rfl

namespace Counter

/-- What events would bring a counter without an end to. -/
def total (counter : Counter) (summaries : List (EventSummary α)) : Nat :=
  (summaries.map (·.count counter)).sum

theorem total_cons (counter : Counter) (s : EventSummary α)
    (summaries : List (EventSummary α)) :
    counter.total (s :: summaries) =
      s.count counter + counter.total summaries := by
  simp [total]

theorem total_perm (h : order.Perm summaries) :
    counter.total order = counter.total summaries :=
  (h.map _).sum_eq

theorem sumOf_perm (h : additions.Perm more) :
    counter.sumOf additions = counter.sumOf more :=
  (h.map _).sum_eq

end Counter

namespace RunTotals

theorem toNat_get_record
    (hfits : (t.get counter).toNat + s.count counter ≤ wordMax) :
    ((t.record s).get counter).toNat =
      (t.get counter).toNat + s.count counter := by
  have hmax : wordMax = 2 ^ 64 - 1 := rfl
  have hcount : s.count counter ≤ wordMax := by omega
  have hword : (s.count counter).toUInt64.toNat = s.count counter := by
    apply UInt64.toNat_ofNat_of_lt'
    change s.count counter < 2 ^ 64
    omega
  rw [get_record, EventSummary.share_eq_count hcount, UInt64.toNat_add, hword]
  apply Nat.mod_eq_of_lt
  omega

theorem toNat_get_foldl_record
    (hfits : (t.get counter).toNat + counter.total summaries ≤ wordMax) :
    ((summaries.foldl record t).get counter).toNat =
      (t.get counter).toNat + counter.total summaries := by
  induction summaries generalizing t with
  | nil => rfl
  | cons s summaries ih =>
      rw [Counter.total_cons] at hfits ⊢
      have hrecord : ((t.record s).get counter).toNat =
          (t.get counter).toNat + s.count counter := by
        apply toNat_get_record
        omega
      rw [List.foldl_cons, ih (by omega), hrecord, Nat.add_assoc]

/-- Events that are recorded at once come to what they come to one after the
other. -/
theorem foldl_add_eq_foldl_record
    (h : additions.Perm (summaries.flatMap EventSummary.additions)) :
    additions.foldl (fun t (c, n) => t.add c n) t =
      summaries.foldl record t := by
  have hrecord : summaries.foldl record t =
      (summaries.flatMap EventSummary.additions).foldl
        (fun t (c, n) => t.add c n) t := by
    rw [List.foldl_flatMap]
    rfl
  rw [hrecord]
  apply eq_of_get
  intro counter
  rw [get_foldl_add, get_foldl_add, Counter.sumOf_perm h]

end RunTotals

end Counters

/-! ## Times -/

section Times

variable {s : EventSummary ℝ} {summaries order : List (EventSummary ℝ)}

/-- The time of all carriers of events together. -/
noncomputable def totalTime (summaries : List (EventSummary ℝ)) : ℝ :=
  (summaries.map EventSummary.weightedTime).sum

/-- The mean of the mean times of events, each of them weighted with the
carriers of its event. -/
noncomputable def meanOfAverages (summaries : List (EventSummary ℝ)) : ℝ :=
  (summaries.map fun s => (s.propagatedCharge : ℝ) * s.averageTime).sum /
    Counter.propagatedCharge.total summaries

/-- What is rounded off adds up to half a picosecond an event at most. -/
theorem total_near (htime : ∀ s ∈ summaries, 0 ≤ s.weightedTime) :
    |(Counter.totalTimePs.total summaries : ℝ) -
      totalTime summaries / Units.ps| ≤ summaries.length / 2 := by
  induction summaries with
  | nil => simp [totalTime, Counter.total]
  | cons s summaries ih =>
      have hfirst := Scalar.nearest_near
        (div_nonneg (htime s List.mem_cons_self) ps_pos.le)
      have hothers := ih fun s hs => htime s (List.mem_cons_of_mem _ hs)
      have hsplit : (Counter.totalTimePs.total (s :: summaries) : ℝ) -
          totalTime (s :: summaries) / Units.ps =
            (Scalar.nearest (s.weightedTime / Units.ps) -
              s.weightedTime / Units.ps) +
            (Counter.totalTimePs.total summaries -
              totalTime summaries / Units.ps) := by
        rw [Counter.total_cons, Nat.cast_add, totalTime, List.map_cons,
          List.sum_cons, EventSummary.count, totalTime]
        ring
      rw [hsplit, List.length_cons]
      push_cast
      calc |_ + _|
        _ ≤ _ := abs_add_le _ _
        _ ≤ 1 / 2 + (summaries.length : ℝ) / 2 := add_le_add hfirst hothers
        _ = (summaries.length + 1) / 2 := by ring

theorem EventSummary.propagatedCharge_mul_averageTime
    (h : 0 < s.propagatedCharge) :
    s.propagatedCharge * s.averageTime = s.weightedTime := by
  have hcharge : (s.propagatedCharge : ℝ) ≠ 0 := by
    exact_mod_cast h.ne'
  change (s.propagatedCharge : ℝ) *
    (s.weightedTime / (max s.propagatedCharge 1 : Nat)) = s.weightedTime
  rw [max_eq_left h]
  exact mul_div_cancel₀ _ hcharge

theorem meanOfAverages_eq (h : ∀ s ∈ summaries, 0 < s.propagatedCharge) :
    meanOfAverages summaries = totalTime summaries /
      (max (Counter.propagatedCharge.total summaries) 1 : Nat) := by
  have htimes : summaries.map
        (fun s => (s.propagatedCharge : ℝ) * s.averageTime) =
      summaries.map EventSummary.weightedTime := by
    apply List.map_congr_left
    intro s hs
    exact EventSummary.propagatedCharge_mul_averageTime (h s hs)
  unfold meanOfAverages totalTime
  rw [htimes]
  cases summaries with
  | nil => simp
  | cons s summaries =>
      have hfirst : 1 ≤ s.count .propagatedCharge := h s List.mem_cons_self
      have hpositive : 1 ≤ Counter.propagatedCharge.total (s :: summaries) := by
        rw [Counter.total_cons]
        omega
      rw [max_eq_left hpositive]

namespace RunTotals

/-- The carriers that the mean time of a run is taken over, one for want of
any. -/
def carriers (t : RunTotals) : Nat := max t.propagatedCharge.toNat 1

/-- What the totals of a run tell of the times of its events. -/
structure Times (t : RunTotals) (summaries : List (EventSummary ℝ)) :
    Prop where
  counters : ∀ counter, (t.get counter).toNat = counter.total summaries
  /-- Workers that record at once may add to the counters in any order. -/
  anyOrder : ∀ additions : List (Counter × UInt64),
    additions.Perm (summaries.flatMap EventSummary.additions) →
      additions.foldl (fun t (c, n) => t.add c n) .zero = t
  reported : ∀ chargePerStep maxGroups,
    (t.notices chargePerStep maxGroups : List (Notice ℝ)).head? =
      some (.runPropagated t.propagatedCharge t.chargeGroups
        t.integrationSteps t.averageTime)
  total : |(t.totalTimePs.toNat : ℝ) - totalTime summaries / Units.ps| ≤
    summaries.length / 2
  average : |t.averageTime - totalTime summaries / t.carriers| ≤
    summaries.length * Units.ps / (2 * t.carriers)
  mean : (∀ s ∈ summaries, 0 < s.propagatedCharge) →
    |t.averageTime - meanOfAverages summaries| ≤
      summaries.length * Units.ps / (2 * t.carriers)

/-- The mean time is as near to the mean over the carriers as the total is to
their time. -/
theorem averageTime_near {t : RunTotals} {time bound : ℝ}
    (h : |(t.totalTimePs.toNat : ℝ) - time / Units.ps| ≤ bound / 2) :
    |t.averageTime - time / t.carriers| ≤
      bound * Units.ps / (2 * t.carriers) := by
  have hps := ps_pos
  have hcarriers : (0 : ℝ) < t.carriers := by
    exact_mod_cast lt_max_of_lt_right Nat.one_pos
  have hscale : t.averageTime - time / t.carriers =
      (t.totalTimePs.toNat - time / Units.ps) * (Units.ps / t.carriers) := by
    change (t.totalTimePs.toNat : ℝ) * Units.ps / t.carriers - _ = _
    field_simp
  rw [hscale, abs_mul, abs_of_pos (div_pos hps hcarriers)]
  calc |(t.totalTimePs.toNat : ℝ) - time / Units.ps| * (Units.ps / t.carriers)
    _ ≤ bound / 2 * (Units.ps / t.carriers) := by gcongr
    _ = bound * Units.ps / (2 * t.carriers) := by ring

/-- In exact arithmetic, as long as no counter wraps around, events that take no
time below zero leave in the totals, in whichever order they are recorded, their
time in picoseconds to half a picosecond an event.  The mean time that a run
reports is as near to that over all its carriers and, when each event had
carriers, to the mean over its events. -/
theorem times_of_recorded (horder : order.Perm summaries)
    (htime : ∀ s ∈ summaries, 0 ≤ s.weightedTime)
    (hfits : ∀ counter : Counter, counter.total summaries ≤ wordMax) :
    (order.foldl record .zero).Times summaries := by
  have hcounters (counter : Counter) :
      ((order.foldl record .zero).get counter).toNat =
        counter.total summaries := by
    have hzero : (zero.get counter).toNat = 0 := by
      cases counter <;> rfl
    have hsum : (zero.get counter).toNat + counter.total order =
        counter.total summaries := by
      rw [hzero, Nat.zero_add, Counter.total_perm horder]
    rw [toNat_get_foldl_record (by rw [hsum]; exact hfits counter), hsum]
  have htotal := total_near htime
  rw [← hcounters .totalTimePs] at htotal
  have haverage := averageTime_near htotal
  refine ⟨hcounters, ?_, fun _ _ => rfl, htotal, haverage, ?_⟩
  · intro additions hadditions
    apply foldl_add_eq_foldl_record
    exact hadditions.trans (horder.symm.flatMap_right _)
  · intro hcharge
    have hcarriers : (order.foldl record .zero).carriers =
        max (Counter.propagatedCharge.total summaries) 1 :=
      congrArg (max · 1) (hcounters .propagatedCharge)
    rw [meanOfAverages_eq hcharge, ← hcarriers]
    exact haverage

/-- Three carriers that take 1.4 picoseconds together and two that take 2.4: the
totals have three picoseconds for them. -/
noncomputable def twoTimes : List (EventSummary ℝ) :=
  [{ (EventSummary.zero : EventSummary ℝ) with
      propagatedCharge := 3, weightedTime := 0.0014 },
    { (EventSummary.zero : EventSummary ℝ) with
      propagatedCharge := 2, weightedTime := 0.0024 }]

theorem total_twoTimes_le (counter : Counter) :
    counter.total twoTimes ≤ wordMax := by
  have hsmall (time : ℝ) (h : time / Units.ps + 1 / 2 ≤ (4 : Nat)) :
      Scalar.nearest (time / Units.ps) ≤ 4 :=
    Nat.floor_le_of_le h
  cases counter with
  | totalTimePs =>
      have hfirst := hsmall 0.0014 (by norm_num [Units.ps, Units.ns])
      have hsecond := hsmall 0.0024 (by norm_num [Units.ps, Units.ns])
      have hmax : 4 + (4 + 0) ≤ wordMax := by decide
      exact (Nat.add_le_add hfirst (Nat.add_le_add_right hsecond 0)).trans hmax
  | propagatedCharge =>
      have hmax : 3 + (2 + 0) ≤ wordMax := by decide
      exact hmax
  | events =>
      have hmax : 1 + (1 + 0) ≤ wordMax := by decide
      exact hmax
  | _ => exact Nat.zero_le wordMax

theorem times_of_recorded_twoTimes :
    (∀ s ∈ twoTimes, 0 ≤ s.weightedTime) ∧
    (∀ counter : Counter, counter.total twoTimes ≤ wordMax) ∧
    (∀ s ∈ twoTimes, 0 < s.propagatedCharge) ∧
    (twoTimes.reverse.foldl record .zero).Times twoTimes ∧
    |(twoTimes.reverse.foldl record .zero).averageTime -
      meanOfAverages twoTimes| ≤ Units.ps / 5 := by
  have htime : ∀ s ∈ twoTimes, 0 ≤ s.weightedTime := by
    norm_num [twoTimes]
  have hcharge : ∀ s ∈ twoTimes, 0 < s.propagatedCharge := by
    simp [twoTimes]
  have htimes :=
    times_of_recorded twoTimes.reverse_perm htime total_twoTimes_le
  have hcarriers : (twoTimes.reverse.foldl record .zero).carriers = 5 :=
    congrArg (max · 1) (htimes.counters .propagatedCharge)
  have hmean := htimes.mean hcharge
  rw [hcarriers] at hmean
  refine ⟨htime, total_twoTimes_le, hcharge, htimes, hmean.trans_eq ?_⟩
  change ((2 : Nat) : ℝ) * Units.ps / (2 * (5 : Nat)) = Units.ps / 5
  push_cast
  ring

end RunTotals

end Times

end CarrierTransport
