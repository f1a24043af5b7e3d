import Mathlib.Algebra.BigOperators.Fin
import CarrierTransport.Fault
import CarrierTransport.Flight.RungeKutta
import CarrierTransport.Proofs.Scalar.Rational

/-!
# The stages of a step

Where a velocity field never fails, the displacements of the stages are those
vectors each of which follows from the ones before it.
-/

namespace CarrierTransport.Motion

section Stages

variable {α : Type} [Arithmetic α] {velocity : α → Vec3 α → Vec3 α}
variable {motion : Motion α} {stages : List (α × List α)}
variable {displacements : List (Vec3 α)}

variable (velocity motion stages displacements) in
/-- Each displacement is that of its stage after the displacements before it. -/
structure Displaces : Prop where
  length_eq : displacements.length = stages.length
  getElem?_eq : ∀ i stage, stages[i]? = some stage →
    displacements[i]? = some (motion.timestep •
      velocity (motion.time + stage.1 * motion.timestep)
        (motion.position + combine stage.2 (displacements.take i)))

theorem Displaces.stages_eq
    (h : motion.Displaces velocity stages displacements) :
    (motion.stages (fun t p => .ok (velocity t p)) stages [] :
      Except Fault (List (Vec3 α))) = .ok displacements := by
  have hrest (rest : List (α × List α)) (n : ℕ) (hn : stages.drop n = rest) :
      (motion.stages (fun t p => .ok (velocity t p)) rest
        (displacements.take n) : Except Fault (List (Vec3 α))) =
        .ok displacements := by
    induction rest generalizing n with
    | nil =>
        have hle := List.drop_eq_nil_iff.mp hn
        rw [← h.length_eq] at hle
        rw [List.take_of_length_le hle]
        rfl
    | cons stage rest ih =>
        have hstage : stages[n]? = some stage := by
          rw [← List.head?_drop, hn]
          rfl
        have hnext : stages.drop (n + 1) = rest := by
          rw [← List.tail_drop, hn]
          rfl
        rw [← ih (n + 1) hnext, List.take_add_one, h.getElem?_eq n stage hstage]
        rfl
  exact hrest stages 0 rfl

theorem Displaces.advance_eq {tableau : Tableau α}
    (h : motion.Displaces velocity tableau.stages displacements) :
    (motion.advance tableau (fun t p => .ok (velocity t p)) :
      Except Fault (Increment α)) =
      .ok ⟨⟨motion.position + combine tableau.high displacements,
          motion.time + motion.timestep, motion.timestep⟩,
        combine tableau.high displacements,
        combine tableau.high displacements -
          combine tableau.low displacements⟩ := by
  unfold advance
  rw [h.stages_eq]
  rfl

end Stages

theorem component_combine (weights : List ℚ) (vectors : List (Vec3 ℚ))
    (axis : Axis) : (combine weights vectors).component axis =
      ((weights.zip vectors).map fun p => p.1 * p.2.component axis).sum := by
  have hfold (pairs : List (ℚ × Vec3 ℚ)) (sum : Vec3 ℚ) :
      (pairs.foldl (fun sum (w, v) => sum + w • v) sum).component axis =
        sum.component axis +
          (pairs.map fun p => p.1 * p.2.component axis).sum := by
    induction pairs generalizing sum with
    | nil => simp
    | cons pair pairs ih =>
        rw [List.foldl_cons, ih, List.map_cons, List.sum_cons, ← add_assoc,
          Vec3.component_add, Vec3.component_smul]
  rw [combine, hfold, Vec3.component_zero, zero_add]

/-- A list of weights that is too short is one with zeros at its end. -/
theorem component_combine_ofFn {n : ℕ} (weights : List ℚ) (k : Fin n → Vec3 ℚ)
    (axis : Axis) : (combine weights (List.ofFn k)).component axis =
      ∑ j : Fin n, weights.getD j 0 * (k j).component axis := by
  rw [component_combine]
  induction n generalizing weights with
  | zero => simp
  | succ n ih =>
      rw [List.ofFn_succ, Fin.sum_univ_succ]
      cases weights with
      | nil => simp
      | cons w weights =>
          rw [List.zip_cons_cons, List.map_cons, List.sum_cons, ih]
          rfl

theorem combine_take {weights : List ℚ} (vectors : List (Vec3 ℚ)) {n : ℕ}
    (h : weights.length ≤ n) :
    combine weights (vectors.take n) = combine weights vectors := by
  have hzip : weights.zip (vectors.take n) = weights.zip vectors := by
    induction weights generalizing vectors n with
    | nil => rfl
    | cons w weights ih =>
        cases n with
        | zero => cases h
        | succ n =>
            cases vectors with
            | nil => rfl
            | cons v vectors =>
                rw [List.take_succ_cons, List.zip_cons_cons, List.zip_cons_cons,
                  ih vectors (Nat.le_of_succ_le_succ h)]
  rw [combine, hzip, combine]

end CarrierTransport.Motion
