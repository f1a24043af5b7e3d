import CarrierTransport.Proofs.Requirements
import CarrierTransport.Proofs.Scalar.Order
import CarrierTransport.Proofs.Silicon.Models

/-!
# What selections demand

A model is selected by one of the names of its family, and needs a doping
profile, parameters, or nothing.  The selection fails as the first of these
demands that is not met.
-/

namespace CarrierTransport

section Demands

variable {α : Type} [Scalar α]

/-- Finite and above zero. -/
def Positive (x : α) : Prop := Scalar.isFinite x = true ∧ (0.0 : α) < x

/-- Finite and not below zero. -/
def NonNegative (x : α) : Prop := Scalar.isFinite x = true ∧ (0.0 : α) ≤ x

/-- What a model asks for. -/
inductive Need (α : Type) where
  | doping
  | positive (parameter : String) (given : Option α)
  | nonNegative (parameter : String) (given : Option α)

namespace Need

def Met (hasDoping : Bool) : Need α → Prop
  | doping => hasDoping = true
  | positive _ given => ∃ x, given = some x ∧ Positive x
  | nonNegative _ given => ∃ x, given = some x ∧ NonNegative x

/-- A parameter that is not what it has to be is missing or invalid. -/
def refusal (model parameter : String) : Option α → ModelError α
  | none => .missing model parameter
  | some x => .invalid parameter x

def failure (model : String) : Need α → ModelError α
  | doping => .needsDoping model
  | positive parameter given | nonNegative parameter given =>
      refusal model parameter given

def requirement (model : String) (hasDoping : Bool) (need : Need α) :
    Requirement (ModelError α) :=
  ⟨need.Met hasDoping, need.failure model⟩

/-- A positive parameter for electrons and one for holes. -/
def pair (parameter : String) (given : PerCarrier (Option α)) :
    List (Need α) :=
  [positive (parameter ++ "_electron") given.electron,
    positive (parameter ++ "_hole") given.hole]

end Need

namespace ModelKind

/-- The names of the models of a family. -/
def selectors : ModelKind → List String
  | mobility =>
      ["jacoboni", "canali", "hamburg", "masetti", "arora", "masetti_canali",
        "constant"]
  | recombination =>
      ["none", "srh", "auger", "srh_auger", "combined", "constant"]
  | trapping =>
      ["none", "constant", "ljubljana", "kramberger", "dortmund", "krasel",
        "cmstracker"]
  | detrapping => ["none", "constant"]
  | multiplication =>
      ["none", "massey", "overstraeten", "vanoverstraeten", "okuto",
        "okutocrowell"]

/-- What the model of a name needs, in the order in which it is checked. -/
def needs (kind : ModelKind) (parameters : Parameters α) (name : String) :
    List (Need α) :=
  match kind with
  | mobility =>
      if name ∈ ["masetti", "arora", "masetti_canali"] then [.doping]
      else if name = "constant" then Need.pair "mobility" parameters.mobility
      else []
  | recombination =>
      if name ∈ ["srh", "auger", "srh_auger", "combined"] then [.doping]
      else if name = "constant" then Need.pair "lifetime" parameters.lifetime
      else []
  | trapping =>
      if name = "constant" then
        Need.pair "trapping_time" parameters.trappingTime
      else if name ∈ ["ljubljana", "kramberger", "dortmund", "krasel",
          "cmstracker"] then
        [.nonNegative "fluence" parameters.fluence]
      else []
  | detrapping =>
      if name = "constant" then
        Need.pair "detrapping_time" parameters.detrappingTime
      else []
  | multiplication =>
      [.nonNegative "multiplication_threshold"
        (some parameters.multiplicationThreshold)]

/-- That a name is one of the family, then what its model needs. -/
def requirements (kind : ModelKind) (name : String) (parameters : Parameters α)
    (hasDoping : Bool) : List (Requirement (ModelError α)) :=
  ⟨name ∈ kind.selectors, .unknown kind name⟩ ::
    (kind.needs parameters name).map (·.requirement name hasDoping)

variable {kind : ModelKind} {name : String} {parameters : Parameters α}
variable {hasDoping : Bool}

theorem demands_unknown {β : Type} (h : name ∉ kind.selectors) :
    Demands (.error (.unknown kind name) : Except (ModelError α) β)
      (kind.requirements name parameters hasDoping) :=
  .here _ h

theorem demands_known {β : Type} {x : Except (ModelError α) β}
    (h : name ∈ kind.selectors)
    (hx : Demands x
      ((kind.needs parameters name).map (·.requirement name hasDoping))) :
    Demands x (kind.requirements name parameters hasDoping) := by
  cases x with
  | error e => exact .later h hx
  | ok model => exact List.forall_mem_cons.mpr ⟨h, hx⟩

end ModelKind

theorem Parameters.requireDoping_demands (model : String) (hasDoping : Bool) :
    Demands (requireDoping model hasDoping : Except (ModelError α) Unit)
      [Need.doping.requirement model hasDoping] := by
  unfold requireDoping
  cases hasDoping with
  | true => exact List.forall_mem_singleton.mpr rfl
  | false => exact .here [] Bool.false_ne_true

end Demands

/-! ## Parameters -/

namespace Parameters

variable {model parameter : String} {given : Option Double} {hasDoping : Bool}

theorem require_eq_ok_iff {x : Double} :
    require model parameter given = .ok x ↔
      given = some x ∧ Scalar.isFinite x = true := by
  cases given with
  | none => simp [require]
  | some y =>
      change (if Scalar.isFinite y then Except.ok y else _) = _ ↔ _
      split
      · rename_i hfinite
        simp only [Except.ok.injEq, Option.some.injEq, iff_self_and]
        rintro rfl
        exact hfinite
      · rename_i hinfinite
        simp only [reduceCtorEq, Option.some.injEq, false_iff, not_and]
        rintro rfl
        exact hinfinite

theorem require_eq_error {e : ModelError Double}
    (h : require model parameter given = .error e) :
    (∀ x, given = some x → Scalar.isFinite x = false) ∧
      Need.refusal model parameter given = e := by
  cases given with
  | none =>
      cases h
      exact ⟨nofun, rfl⟩
  | some y =>
      change (if Scalar.isFinite y then Except.ok y else _) = _ at h
      split at h
      · cases h
      · rename_i hfinite
        cases h
        refine ⟨?_, rfl⟩
        rintro x ⟨⟩
        exact Bool.eq_false_iff.mpr hfinite

theorem number_of_isFinite {x : Double} (h : Scalar.isFinite x = true) :
    x ≤ x ∧ (0.0 : Double) ≤ 0.0 :=
  ⟨Double.le_refl_of_isFinite h, Double.le_refl_of_isFinite rfl⟩

/-- A finite parameter is refused if it is on the wrong side of zero. -/
theorem demands_of_require {need : Need Double} {bad : Double → Prop}
    [DecidablePred bad]
    (hfailure : need.failure model = Need.refusal model parameter given)
    (hmet : need.Met hasDoping ↔
      ∃ x, given = some x ∧ Scalar.isFinite x = true ∧ ¬bad x) :
    Demands (do
      let value ← require model parameter given
      if bad value then .error (.invalid parameter value) else .ok value)
      [need.requirement model hasDoping] := by
  refine Demands.single ?_ ?_
  · intro y hy
    obtain ⟨x, hx, hy⟩ := bind_eq_ok.mp hy
    obtain ⟨hgiven, hfinite⟩ := require_eq_ok_iff.mp hx
    split at hy
    · cases hy
    · exact hmet.mpr ⟨x, hgiven, hfinite, ‹_›⟩
  · intro e he
    obtain hx | ⟨x, hx, he⟩ := bind_eq_error.mp he
    · obtain ⟨hinfinite, hrefusal⟩ := require_eq_error hx
      refine ⟨?_, hfailure.trans hrefusal⟩
      intro met
      obtain ⟨x, hgiven, hfinite, -⟩ := hmet.mp met
      rw [hinfinite x hgiven] at hfinite
      cases hfinite
    · obtain ⟨hgiven, -⟩ := require_eq_ok_iff.mp hx
      split at he
      · rename_i hbad
        cases he
        refine ⟨?_, hfailure.trans (by rw [hgiven]; rfl)⟩
        intro met
        obtain ⟨y, hy, -, hgood⟩ := hmet.mp met
        rw [hgiven] at hy
        cases hy
        exact hgood hbad
      · cases he

theorem requirePositive_demands (model parameter : String)
    (given : Option Double) (hasDoping : Bool) :
    Demands (requirePositive model parameter given)
      [(Need.positive parameter given).requirement model hasDoping] := by
  refine demands_of_require rfl (exists_congr fun x => and_congr_right' ?_)
  refine and_congr_right fun hfinite => ?_
  obtain ⟨hx, hzero⟩ := number_of_isFinite hfinite
  exact (Double.not_le_iff hx hzero).symm

theorem requireFluence_demands (model : String) (given : Option Double)
    (hasDoping : Bool) :
    Demands (requireFluence model given)
      [(Need.nonNegative "fluence" given).requirement model hasDoping] := by
  refine demands_of_require rfl (exists_congr fun x => and_congr_right' ?_)
  refine and_congr_right fun hfinite => ?_
  obtain ⟨hx, hzero⟩ := number_of_isFinite hfinite
  exact (Double.not_lt_iff hx hzero).symm

theorem requirePair_demands (model parameter : String)
    (given : PerCarrier (Option Double)) (hasDoping : Bool) :
    Demands (requirePair model parameter given)
      ((Need.pair parameter given).map (·.requirement model hasDoping)) := by
  refine (requirePositive_demands model _ given.electron hasDoping).bind
    fun electron _ => ?_
  exact (requirePositive_demands model (parameter ++ "_hole") given.hole
    hasDoping).bind_ok fun hole => (⟨electron, hole⟩ : PerCarrier Double)

end Parameters

theorem Need.met_nonNegative_iff (parameter : String) (x : Double)
    (hasDoping : Bool) :
    (nonNegative parameter (some x)).Met hasDoping ↔
      ¬(!Scalar.isFinite x || decide (x < 0.0)) = true := by
  simp only [Met, NonNegative, Option.some.injEq, exists_eq_left',
    Bool.or_eq_true, Bool.not_eq_true', decide_eq_true_eq, not_or,
    Bool.not_eq_false]
  refine and_congr_right fun hfinite => ?_
  obtain ⟨hnumber, hzero⟩ := Parameters.number_of_isFinite hfinite
  exact (Double.not_lt_iff hnumber hzero).symm

/-! ## Families -/

section Families

variable (name : String) (temperature : Double) (parameters : Parameters Double)
variable (hasDoping : Bool)

theorem Mobility.select_demands :
    Demands (Mobility.select name temperature parameters hasDoping)
      (ModelKind.mobility.requirements name parameters hasDoping) := by
  unfold Mobility.select
  split
  case h_1 | h_2 | h_3 =>
    exact ModelKind.demands_known (by decide) (.pure _)
  case h_4 | h_5 | h_6 =>
    exact ModelKind.demands_known (by decide)
      ((Parameters.requireDoping_demands _ hasDoping).bind_ok _)
  case h_7 =>
    exact ModelKind.demands_known (by decide)
      ((Parameters.requirePair_demands "constant" "mobility"
        parameters.mobility hasDoping).bind_ok _)
  case h_8 =>
    exact ModelKind.demands_unknown (by simp_all [ModelKind.selectors])

theorem Recombination.select_demands :
    Demands (Recombination.select name temperature parameters hasDoping)
      (ModelKind.recombination.requirements name parameters hasDoping) := by
  unfold Recombination.select
  split
  case h_1 => exact ModelKind.demands_known (by decide) (.pure _)
  case h_2 | h_3 | h_4 | h_5 =>
    exact ModelKind.demands_known (by decide)
      ((Parameters.requireDoping_demands _ hasDoping).bind_ok _)
  case h_6 =>
    exact ModelKind.demands_known (by decide)
      ((Parameters.requirePair_demands "constant" "lifetime"
        parameters.lifetime hasDoping).bind_ok _)
  case h_7 =>
    exact ModelKind.demands_unknown (by simp_all [ModelKind.selectors])

theorem Trapping.select_demands :
    Demands (Trapping.select name temperature parameters)
      (ModelKind.trapping.requirements name parameters hasDoping) := by
  unfold Trapping.select
  split
  case h_1 => exact ModelKind.demands_known (by decide) (.pure _)
  case h_2 =>
    exact ModelKind.demands_known (by decide)
      ((Parameters.requirePair_demands "constant" "trapping_time"
        parameters.trappingTime hasDoping).bind_ok _)
  case h_3 | h_4 | h_5 | h_6 | h_7 =>
    exact ModelKind.demands_known (by decide)
      ((Parameters.requireFluence_demands _ parameters.fluence
        hasDoping).bind_ok _)
  case h_8 =>
    exact ModelKind.demands_unknown (by simp_all [ModelKind.selectors])

theorem Detrapping.select_demands :
    Demands (Detrapping.select name parameters)
      (ModelKind.detrapping.requirements name parameters hasDoping) := by
  unfold Detrapping.select
  split
  case h_1 => exact ModelKind.demands_known (by decide) (.pure _)
  case h_2 =>
    exact ModelKind.demands_known (by decide)
      ((Parameters.requirePair_demands "constant" "detrapping_time"
        parameters.detrappingTime hasDoping).bind_ok _)
  case h_3 =>
    exact ModelKind.demands_unknown (by simp_all [ModelKind.selectors])

theorem IonizationModel.ofName?_isSome_iff :
    (ofName? name temperature).isSome = true ↔
      name ∈ ModelKind.multiplication.selectors := by
  unfold ofName?
  split <;> simp_all [ModelKind.selectors]

theorem Ionization.select_demands :
    Demands (Ionization.select name temperature parameters)
      (ModelKind.multiplication.requirements name parameters hasDoping) := by
  have hname := IonizationModel.ofName?_isSome_iff name temperature
  unfold Ionization.select
  cases hmodel : IonizationModel.ofName? name temperature with
  | none =>
      rw [hmodel] at hname
      exact ModelKind.demands_unknown fun h => nomatch hname.mpr h
  | some model =>
      rw [hmodel] at hname
      have hthreshold := Need.met_nonNegative_iff "multiplication_threshold"
        parameters.multiplicationThreshold hasDoping
      refine ModelKind.demands_known (hname.mp rfl) (Demands.single ?_ ?_)
      · intro m hm
        dsimp only at hm
        split at hm
        · cases hm
        · exact hthreshold.mpr ‹_›
      · intro e he
        dsimp only at he
        split at he
        · cases he
          exact ⟨fun met => hthreshold.mp met ‹_›, rfl⟩
        · cases he

end Families

end CarrierTransport
