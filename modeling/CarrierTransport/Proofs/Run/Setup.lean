import CarrierTransport.Proofs.Flight.Timestep
import CarrierTransport.Proofs.Silicon.Selection
import CarrierTransport.Run.Event

/-!
# Accepted propagations

A propagation is set up if its configuration meets a list of requirements: the
options first, then the models of the families in their order.  Otherwise it is
refused for the first requirement that is not met.
-/

namespace CarrierTransport

theorem exists_of_isOk {β ε : Type} {x : Except ε β} (h : x.isOk = true) :
    ∃ b, x = .ok b := by
  cases x with
  | error e => cases h
  | ok b => exact ⟨b, rfl⟩

theorem Logged.Gives.adapt {α β ε ε' : Type} {action : Logged α ε β}
    {r : Except ε β} (h : Gives action r) (f : ε → ε') :
    Gives (ExceptT.adapt f action) (r.mapError f) := by
  intro journal
  rw [← h journal]
  rfl

namespace Config

section Requirements

variable {α : Type} [Scalar α]

def selector (c : Config α) : ModelKind → String
  | .mobility => c.mobilityModel
  | .recombination => c.recombinationModel
  | .trapping => c.trappingModel
  | .detrapping => c.detrappingModel
  | .multiplication => c.multiplicationModel

/-- A configuration that a sensor with or without a doping profile accepts. -/
structure Admissible (c : Config α) (hasDoping : Bool) : Prop where
  spatialPrecision : Positive c.spatialPrecision
  timestepStart : Positive c.timestepStart
  timestepMin : Positive c.timestepMin
  timestepMax : Positive c.timestepMax
  integrationTime : Positive c.integrationTime
  temperature : Positive c.temperature
  trajectoryStep : ∀ step, c.trajectoryStep = some step → Positive step
  min_le_start : c.timestepMin ≤ c.timestepStart
  start_le_max : c.timestepStart ≤ c.timestepMax
  chargePerStep : 0 < c.chargePerStep
  carrier : c.propagates.electron = true ∨ c.propagates.hole = true
  selectors : ∀ kind : ModelKind, c.selector kind ∈ kind.selectors
  needs : ∀ kind : ModelKind, ∀ need ∈ kind.needs c.parameters (c.selector kind),
    need.Met hasDoping

def positive (option : String) (value : α) : Requirement (ConfigError α) :=
  ⟨Positive value, .invalidOption option value⟩

/-- What the options have to meet, in the order of the checks. -/
def optionRequirements (c : Config α) : List (Requirement (ConfigError α)) :=
  [positive "spatial_precision" c.spatialPrecision,
    positive "timestep_start" c.timestepStart,
    positive "timestep_min" c.timestepMin,
    positive "timestep_max" c.timestepMax,
    positive "integration_time" c.integrationTime,
    positive "temperature" c.temperature] ++
  (c.trajectoryStep.toList.map (positive "trajectory_step") ++
  [⟨c.timestepMin ≤ c.timestepStart ∧ c.timestepStart ≤ c.timestepMax,
      .invalidTimesteps c.timestepMin c.timestepStart c.timestepMax⟩,
    ⟨0 < c.chargePerStep, .zeroChargePerStep⟩,
    ⟨c.propagates.electron = true ∨ c.propagates.hole = true, .noCarrier⟩])

/-- What the models of all families have to meet. -/
def modelRequirements (c : Config α) (hasDoping : Bool) :
    List (Requirement (ConfigError α)) :=
  ModelKind.all.flatMap fun kind =>
    (kind.requirements (c.selector kind) c.parameters hasDoping).map
      (·.map .model)

def requirements (c : Config α) (hasDoping : Bool) :
    List (Requirement (ConfigError α)) :=
  c.optionRequirements ++ c.modelRequirements hasDoping

theorem checkPositive_demands (option : String × α) :
    Demands (checkPositive option) [positive option.1 option.2] := by
  unfold checkPositive
  refine Demands.single ?_ ?_
  · intro _ hok
    split at hok
    · rename_i hpositive
      simpa [positive, Positive] using hpositive
    · cases hok
  · intro e herror
    split at herror
    · cases herror
    · rename_i hpositive
      cases herror
      exact ⟨by simpa [positive, Positive] using hpositive, rfl⟩

theorem validate_demands (c : Config α) :
    Demands c.validate c.optionRequirements := by
  have hpositive := Demands.forM checkPositive_demands c.positiveOptions
  have hlist : c.optionRequirements =
      (c.positiveOptions.map fun option => positive option.1 option.2) ++
        [⟨c.timestepMin ≤ c.timestepStart ∧ c.timestepStart ≤ c.timestepMax,
            .invalidTimesteps c.timestepMin c.timestepStart c.timestepMax⟩,
          ⟨0 < c.chargePerStep, .zeroChargePerStep⟩,
          ⟨c.propagates.electron = true ∨ c.propagates.hole = true,
            .noCarrier⟩] := by
    simp [optionRequirements, positiveOptions]
  rw [hlist]
  refine hpositive.bind fun _ _ => ?_
  refine Demands.guard ?_ rfl (Demands.guard ?_ rfl (Demands.check ?_ rfl))
  · simp
  · exact UInt32.pos_iff_ne_zero
  · cases c.propagates.electron <;> simp

end Requirements

theorem admissible_iff {α : Type} [Scalar α] {c : Config α}
    {hasDoping : Bool} :
    c.Admissible hasDoping ↔ ∀ r ∈ c.requirements hasDoping, r.met := by
  have hmodels : (∀ r ∈ c.modelRequirements hasDoping, r.met) ↔
      ∀ kind : ModelKind, c.selector kind ∈ kind.selectors ∧
        ∀ need ∈ kind.needs c.parameters (c.selector kind),
          need.Met hasDoping := by
    simp only [modelRequirements, List.forall_mem_flatMap, List.forall_mem_map,
      ModelKind.requirements, List.forall_mem_cons]
    constructor
    · intro h kind
      exact h kind (by cases kind <;> decide)
    · intro h kind _
      exact h kind
  rw [requirements, List.forall_mem_append, hmodels]
  simp only [optionRequirements, List.forall_mem_append, List.forall_mem_cons,
    List.forall_mem_map, Option.mem_toList]
  constructor
  · intro h
    exact ⟨⟨⟨h.spatialPrecision, h.timestepStart, h.timestepMin, h.timestepMax,
      h.integrationTime, h.temperature, nofun⟩, h.trajectoryStep,
      ⟨h.min_le_start, h.start_le_max⟩, h.chargePerStep, h.carrier, nofun⟩,
      fun kind => ⟨h.selectors kind, h.needs kind⟩⟩
  · rintro ⟨⟨⟨hprecision, hstart, hmin, hmax, hwindow, htemperature, -⟩,
      hstep, ⟨hmin_le, hle_max⟩, hcharge, hcarrier, -⟩, hkinds⟩
    exact ⟨hprecision, hstart, hmin, hmax, hwindow, htemperature, hstep,
      hmin_le, hle_max, hcharge, hcarrier, fun kind => (hkinds kind).1,
      fun kind => (hkinds kind).2⟩

theorem admissible_standard :
    (standard : Config Double).Admissible false where
  spatialPrecision := ⟨rfl, by decide +kernel⟩
  timestepStart := ⟨rfl, by decide +kernel⟩
  timestepMin := ⟨rfl, by decide +kernel⟩
  timestepMax := ⟨rfl, by decide +kernel⟩
  integrationTime := ⟨rfl, by decide +kernel⟩
  temperature := ⟨rfl, by decide +kernel⟩
  trajectoryStep := nofun
  min_le_start := by decide +kernel
  start_le_max := by decide +kernel
  chargePerStep := by decide
  carrier := .inl rfl
  selectors := by
    intro kind
    cases kind <;> decide
  needs := by
    intro kind need hneed
    cases kind with
    | multiplication =>
        rw [List.mem_singleton.mp hneed]
        exact ⟨_, rfl, rfl, by decide +kernel⟩
    | _ => cases hneed

end Config

/-! ## Models -/

theorem Models.select_demands (c : Config Double) (hasDoping : Bool) :
    Demands (select c hasDoping).result (c.modelRequirements hasDoping) := by
  rw [(select_gives c hasDoping).result_eq]
  refine ((Mobility.select_demands c.mobilityModel c.temperature c.parameters
    hasDoping).mapError ConfigError.model).bind fun mobility _ => ?_
  refine ((Recombination.select_demands c.recombinationModel c.temperature
    c.parameters hasDoping).mapError ConfigError.model).bind
    fun recombination _ => ?_
  refine ((Trapping.select_demands c.trappingModel c.temperature c.parameters
    hasDoping).mapError ConfigError.model).bind fun trapping _ => ?_
  refine ((Detrapping.select_demands c.detrappingModel c.parameters
    hasDoping).mapError ConfigError.model).bind fun detrapping _ => ?_
  refine ((Ionization.select_demands c.multiplicationModel c.temperature
    c.parameters hasDoping).mapError ConfigError.model).bind
    fun ionization _ => ?_
  exact .pure _

/-! ## Propagations -/

namespace Propagation

section Gives

variable {α : Type} [Scalar α]

theorem checkFields_gives (config : Config α) (field : Field α)
    (sensor : Sensor α) :
    (checkFields config field sensor).Gives
      (if field.hasElectric then
        (fun _ => ()) <$> field.electric (probe sensor)
      else .ok ()) := by
  have hmagnetic : (if field.hasMagnetic then
      Logged.log (if config.ignoreMagneticField then .magneticFieldIgnored
        else .magneticFieldSeen)
      else pure () : Logged α Fault Unit).Gives (.ok ()) := by
    split
    · exact .log _
    · exact .pure ()
  unfold checkFields
  dsimp only
  generalize (if field.hasMagnetic = true then Logged.log _
    else pure () : Logged α Fault Unit) = rest at hmagnetic ⊢
  split
  · refine (Logged.Gives.ofExcept _).bind fun efield => ?_
    split
    · exact (Logged.Gives.log _).after hmagnetic
    · exact hmagnetic
  · exact (Logged.Gives.log _).after hmagnetic

theorem setUp_gives (config : Config α) (field : Field α)
    (sensor : Sensor α) :
    (setUp config field sensor).Gives (do
      config.validate.mapError .refused
      let models ←
        (Models.select config field.hasDoping).result.mapError .refused
      (checkFields config field sensor).result.mapError .fault
      return ⟨config, models, field, sensor⟩) := by
  refine (Logged.Gives.ofExcept _).bind fun _ => ?_
  refine ((Models.select_gives config field.hasDoping).result.adapt _).bind
    fun models => ?_
  refine ((checkFields_gives config field sensor).result.adapt _).bind
    fun _ => ?_
  dsimp only
  split
  · exact (Logged.Gives.log _).after (.pure _)
  · exact .pure _

theorem of_setUp {config : Config α} {field : Field α} {sensor : Sensor α}
    {p : Propagation α} (h : (setUp config field sensor).result = .ok p) :
    p.models.Selected config field.hasDoping ∧
      p = ⟨config, p.models, field, sensor⟩ := by
  rw [(setUp_gives config field sensor).result_eq] at h
  obtain ⟨_, -, h⟩ := bind_eq_ok.mp h
  obtain ⟨models, hmodels, h⟩ := bind_eq_ok.mp h
  obtain ⟨_, -, h⟩ := bind_eq_ok.mp h
  cases h
  exact ⟨Models.select_eq_ok_iff.mp (mapError_eq_ok.mp hmodels), rfl⟩

theorem checkFields_result {field : Field α}
    (hfield : ∀ fault, ¬field.Fails fault) (config : Config α)
    (sensor : Sensor α) : (checkFields config field sensor).result = .ok () := by
  rw [(checkFields_gives config field sensor).result_eq]
  split
  · cases helectric : field.electric (probe sensor) with
    | error fault => exact absurd (.electric helectric) (hfield fault)
    | ok efield => rfl
  · rfl

/-- With a field that never fails only the configuration is refused. -/
theorem setUp_result {field : Field α} (hfield : ∀ fault, ¬field.Fails fault)
    (config : Config α) (sensor : Sensor α) :
    (setUp config field sensor).result = (do
      config.validate
      let models ← (Models.select config field.hasDoping).result
      return (⟨config, models, field, sensor⟩ : Propagation α)).mapError
        .refused := by
  rw [(setUp_gives config field sensor).result_eq,
    checkFields_result hfield config sensor]
  cases config.validate with
  | error cause => rfl
  | ok _ =>
      cases (Models.select config field.hasDoping).result with
      | error cause => rfl
      | ok models => rfl

end Gives

/-- A propagation is set up if and only if every option is valid and every model
is one of its family that has what it needs; the propagation is then the
configuration with its models in the sensor.  Otherwise the cause is the first
requirement that is not met, in the order of the list. -/
theorem setUp_accepts (config : Config Double) (field : Field Double)
    (sensor : Sensor Double) (hfield : ∀ fault, ¬field.Fails fault)
    (threshold : Option Level) :
    ((∃ p, ((setUp config field sensor).runFrom threshold).1 = .ok p) ↔
      config.Admissible field.hasDoping) ∧
    (∀ p, ((setUp config field sensor).runFrom threshold).1 = .ok p →
      ∃ models, (Models.select config field.hasDoping).result = .ok models ∧
        p = ⟨config, models, field, sensor⟩) ∧
    (∀ failure,
      ((setUp config field sensor).runFrom threshold).1 = .error failure ↔
        ∃ cause, failure = .refused cause ∧
          FirstUnmet (config.requirements field.hasDoping) cause) := by
  have hgives := setUp_gives config field sensor
  have hrun := hgives.runFrom threshold
  rw [← hgives.result_eq, setUp_result hfield config sensor] at hrun
  have hdemands := config.validate_demands.bind fun _ _ =>
    (Models.select_demands config field.hasDoping).bind_ok
      fun models => (⟨config, models, field, sensor⟩ : Propagation Double)
  rw [hrun, Config.admissible_iff, Config.requirements]
  refine ⟨?_, ?_, ?_⟩
  · rw [← hdemands.ok_iff]
    exact exists_congr fun p => mapError_eq_ok
  · intro p hp
    obtain ⟨_, -, hp⟩ := bind_eq_ok.mp (mapError_eq_ok.mp hp)
    obtain ⟨models, hmodels, hp⟩ := bind_eq_ok.mp hp
    cases hp
    exact ⟨models, hmodels, rfl⟩
  · intro failure
    rw [mapError_eq_error]
    exact exists_congr fun cause => and_congr_right' hdemands.error_iff

/-- A configuration with two options and a model that are refused. -/
def faultyConfig : Config Double :=
  { Config.standard with
    timestepMin := Transport.notANumber
    temperature := 0.0
    mobilityModel := "masetti" }

theorem setUp_accepts_faultyConfig :
    (∀ fault, ¬Transport.thinLayer.field.Fails fault) ∧
    ((setUp faultyConfig Transport.thinLayer.field
        Transport.thinLayer.sensor).runFrom none).1 =
      .error (.refused (.invalidOption "timestep_min" Transport.notANumber)) ∧
    ∃ p, ((setUp .standard Transport.thinLayer.field
      Transport.thinLayer.sensor).runFrom none).1 = .ok p := by
  have hfield : ∀ fault, ¬Transport.thinLayer.field.Fails fault :=
    Field.not_fails_uniform _ _ _
  have hfaulty := setUp_accepts faultyConfig Transport.thinLayer.field
    Transport.thinLayer.sensor hfield none
  have hstandard := setUp_accepts Config.standard Transport.thinLayer.field
    Transport.thinLayer.sensor hfield none
  refine ⟨hfield, ?_, ?_⟩
  · refine (hfaulty.2.2 _).mpr ⟨_, rfl, ?_⟩
    refine .later ⟨rfl, by decide +kernel⟩ (.later ⟨rfl, by decide +kernel⟩ ?_)
    exact FirstUnmet.here (r := Config.positive "timestep_min"
      Transport.notANumber) _ (fun hpositive => nomatch hpositive.1)
  · exact hstandard.1.mpr Config.admissible_standard

end Propagation

end CarrierTransport
