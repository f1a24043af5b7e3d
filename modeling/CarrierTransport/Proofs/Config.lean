import CarrierTransport.Config
import CarrierTransport.Proofs.Journal

/-!
# Accepted configurations

A configuration is accepted if and only if it passes every one of the checks.
-/

namespace CarrierTransport

section Checks

variable {β γ ε : Type}

theorem forM_eq_ok {check : β → Except ε Unit} {items : List β} :
    items.forM check = .ok () ↔ ∀ item ∈ items, check item = .ok () := by
  induction items with
  | nil => simp [pure, Except.pure]
  | cons item items ih =>
      change (check item >>= fun _ => items.forM check) = _ ↔ _
      rw [bind_eq_ok, List.forall_mem_cons, ← ih]
      constructor
      · rintro ⟨⟨⟩, hitem, hitems⟩
        exact ⟨hitem, hitems⟩
      · rintro ⟨hitem, hitems⟩
        exact ⟨(), hitem, hitems⟩

variable {p : Prop} [Decidable p] {failure : ε}

/-- A check that throws if `p` is passed if and only if `p` is false. -/
theorem check_eq_ok :
    (if p then throw failure else pure () : Except ε Unit) = .ok () ↔ ¬p := by
  by_cases h : p <;> simp [h, throw, throwThe, MonadExceptOf.throw, pure,
    Except.pure]

theorem check_bind_eq_ok {rest : Except ε γ} {c : γ} :
    (if p then throw failure >>= fun _ : Unit => rest else rest) = .ok c ↔
      ¬p ∧ rest = .ok c := by
  by_cases h : p <;> simp [h, throw, throwThe, MonadExceptOf.throw, bind,
    Except.bind]

end Checks

namespace Config

variable {α : Type} [Scalar α]

/-- A configuration that passes the checks. -/
structure Accepted (c : Config α) : Prop where
  positive : ∀ option ∈ c.positiveOptions,
    Scalar.isFinite option.2 = true ∧ (0.0 : α) < option.2
  min_le_start : c.timestepMin ≤ c.timestepStart
  start_le_max : c.timestepStart ≤ c.timestepMax
  chargePerStep : c.chargePerStep ≠ 0
  carrier : c.propagates.electron = true ∨ c.propagates.hole = true

theorem checkPositive_eq_ok_iff {option : String × α} :
    checkPositive option = .ok () ↔
      Scalar.isFinite option.2 = true ∧ (0.0 : α) < option.2 := by
  unfold checkPositive
  split <;> simp_all

theorem forM_checkPositive_eq_ok_iff {options : List (String × α)} :
    options.forM checkPositive = .ok () ↔ ∀ option ∈ options,
      Scalar.isFinite option.2 = true ∧ (0.0 : α) < option.2 := by
  rw [forM_eq_ok]
  exact forall₂_congr fun _ _ => checkPositive_eq_ok_iff

theorem validate_eq_ok_iff {c : Config α} :
    c.validate = .ok () ↔ c.Accepted := by
  unfold validate
  simp only [bind_eq_ok, check_bind_eq_ok, check_eq_ok]
  constructor
  · rintro ⟨⟨⟩, hpositive, htimesteps, hcharge, hcarrier⟩
    simp only [Bool.not_eq_true', Bool.not_eq_false, Bool.and_eq_true,
      decide_eq_true_eq] at htimesteps
    refine ⟨forM_checkPositive_eq_ok_iff.mp hpositive, htimesteps.1,
      htimesteps.2, hcharge, ?_⟩
    cases helectron : c.propagates.electron <;> simp_all
  · rintro ⟨hpositive, hstart, hmax, hcharge, hcarrier⟩
    refine ⟨(), forM_checkPositive_eq_ok_iff.mpr hpositive,
      by simp [hstart, hmax], hcharge, ?_⟩
    cases helectron : c.propagates.electron <;> simp_all

end Config

end CarrierTransport
