import CarrierTransport.Proofs.Flight.Containment
import CarrierTransport.Proofs.Silicon.Models

/-!
# The draws of a flight

Every step asks for the same random numbers in the same order: three normal
samples if its diffusion has a width, a uniform number for recombination, one
for trapping, and one more if the group was captured.  A model that is switched
off and a group that has already left the sensor make no difference.  Two
flights under different models of recombination, trapping, release and
multiplication therefore stay together until one of them recombines or is
captured.
-/

namespace CarrierTransport

variable {α σ : Type}

/-- One random number that is asked for. -/
inductive Draw (α : Type) where
  | normal (width : α)
  | uniform

/-- The time until the release of a captured group; none in it if the group is
never released. -/
def Capture.stay? : Capture α → Option (Option α)
  | free => none
  | released delay => some (some delay)
  | held delay? => some delay?

namespace StepReport

def isCaptured (r : StepReport α σ) : Bool := r.capture.stay?.isSome

def Undisturbed (r : StepReport α σ) : Prop :=
  r.recombined = false ∧ r.isCaptured = false

theorem capture_of_undisturbed {r : StepReport α σ} (h : r.Undisturbed) :
    r.capture = .free := by
  have hcaptured := h.2
  unfold isCaptured at hcaptured
  cases hc : r.capture <;> simp_all [Capture.stay?]

end StepReport

/-- The flights differ at most in their gain. -/
structure Flight.Together (f g : Flight α σ) : Prop where
  motion : f.motion = g.motion
  lastPosition : f.lastPosition = g.lastPosition
  efield : f.efield = g.efield
  steps : f.steps = g.steps
  state : f.state = g.state
  source : f.source = g.source

def Spread.samples : Spread α → List α
  | drawn v => [v.x, v.y, v.z]
  | refused _ => []

variable [Scalar α]

theorem Spread.displacement_eq_of_samples {s s' : Spread α}
    (h : s.samples = s'.samples) : s.displacement = s'.displacement := by
  cases s <;> cases s' <;> simp_all [samples, displacement, Vec3.ext_iff]

namespace Draw

def forVariance (variance : α) : List (Draw α) :=
  if hasWidth variance then .replicate 3 (.normal (Scalar.sqrt variance))
  else []

variable [WordSource σ]

def take? : Draw α → σ → Option (α × σ)
  | normal width, source => Random.normal width source
  | uniform, source => some (Random.uniform source)

/-- The numbers of several draws in turn, and the source that they leave. -/
def takeAll? : List (Draw α) → σ → Option (List α × σ)
  | [], source => some ([], source)
  | draw :: draws, source => do
      let (number, source) ← draw.take? source
      let (numbers, source) ← takeAll? draws source
      return (number :: numbers, source)

theorem takeAll?_append {draws more : List (Draw α)} {source middle last : σ}
    {numbers others : List α}
    (first : takeAll? draws source = some (numbers, middle))
    (second : takeAll? more middle = some (others, last)) :
    takeAll? (draws ++ more) source = some (numbers ++ others, last) := by
  induction draws generalizing source numbers with
  | nil =>
      simp only [takeAll?, Option.some.injEq, Prod.mk.injEq] at first
      obtain ⟨rfl, rfl⟩ := first
      simpa using second
  | cons draw draws ih =>
      simp only [takeAll?, Option.bind_eq_bind, Option.bind_eq_some_iff]
        at first
      obtain ⟨⟨number, next⟩, hnumber, ⟨rest, _⟩, hrest, heq⟩ := first
      simp only [Option.pure_def, Option.some.injEq, Prod.mk.injEq] at heq
      obtain ⟨rfl, rfl⟩ := heq
      simp [takeAll?, hnumber, ih hrest]

end Draw

variable [WordSource σ]

/-- A displacement is made of three samples along the axes in their order, or of
none if there is no width. -/
theorem takeAll?_of_diffuse {source source' : σ}
    {mobility temperature timestep : α} {spread : Spread α}
    (h : diffuse source mobility temperature timestep =
      some (spread, source')) :
    Draw.takeAll?
        (Draw.forVariance (diffusionVariance mobility temperature timestep))
        source = some (spread.samples, source') := by
  unfold diffuse at h
  unfold Draw.forVariance
  by_cases hwidth :
      hasWidth (diffusionVariance mobility temperature timestep) = true
  · simp only [hwidth, if_true] at h ⊢
    obtain ⟨⟨v, last⟩, hvector, heq⟩ := Option.map_eq_some_iff.mp h
    simp only [normalVector, Option.bind_eq_bind, Option.bind_eq_some_iff]
      at hvector
    obtain ⟨⟨x, _⟩, hx, ⟨y, _⟩, hy, ⟨z, _⟩, hz, hv⟩ := hvector
    simp only [Option.pure_def, Option.some.injEq, Prod.mk.injEq] at hv heq
    obtain ⟨rfl, rfl⟩ := hv
    obtain ⟨rfl, rfl⟩ := heq
    simp [List.replicate, Draw.takeAll?, Draw.take?, hx, hy, hz,
      Spread.samples]
  · simp only [hwidth] at h ⊢
    cases h
    rfl

namespace Transport

omit [WordSource σ] in
theorem stay?_settle (t : Transport α) (carrier : Carrier)
    (start time draw : α) :
    (t.settle carrier start time draw).stay? =
      some (t.models.detrapping.delay? carrier draw) := by
  unfold settle
  cases hdelay : t.models.detrapping.delay? carrier draw with
  | none => rfl
  | some delay =>
      by_cases hwindow : start + time + delay < t.config.integrationTime <;>
        simp [hwindow, Capture.stay?]

/-- One number is drawn for trapping, and one for the release of a group that is
captured. -/
theorem takeAll?_of_drawCapture {t : Transport α} {carrier : Carrier}
    {start time timestep : α} {source source' : σ} {capture : Capture α}
    (h : t.drawCapture carrier start time timestep source =
      (capture, source')) :
    ∃ (trap : α) (release : Option α),
      Draw.takeAll?
          (.uniform :: if capture.stay?.isSome then [.uniform] else [])
          source = some (trap :: release.toList, source') ∧
        release.isSome = t.models.trapping.captures carrier trap timestep ∧
        capture.stay? =
          release.map (t.models.detrapping.delay? carrier ·) := by
  unfold drawCapture at h
  refine ⟨(Random.uniform source).1, ?_⟩
  cases htrapped : t.models.trapping.captures carrier
      (Random.uniform (α := α) source).1 timestep with
  | false =>
      simp only [htrapped] at h
      cases h
      exact ⟨none, rfl, rfl, rfl⟩
  | true =>
      simp only [htrapped, if_true, Prod.mk.injEq] at h
      obtain ⟨rfl, rfl⟩ := h
      rw [stay?_settle]
      exact ⟨some _, rfl, rfl, rfl⟩

/-- The variance of the displacement in a step, with the mobility where the
drift has ended. -/
def variance? (t : Transport α) (carrier : Carrier) (r : StepReport α σ) :
    Except Fault α := do
  let doping ← t.field.doping r.drift.after.position
  return diffusionVariance (t.models.mobility.evaluate carrier r.efield doping)
    t.config.temperature r.before.motion.timestep

/-- What a step draws: for its displacement, for recombination, for trapping
and, after a capture, for the release. -/
def schedule (t : Transport α) (carrier : Carrier) (r : StepReport α σ) :
    List (Draw α) :=
  (match t.variance? carrier r with
    | .ok variance => Draw.forVariance variance
    | .error _ => []) ++
  [.uniform, .uniform] ++ if r.isCaptured then [.uniform] else []

/-- The numbers that a step has drawn, and what each of them decides. -/
structure Draws (t : Transport α) (carrier : Carrier) (r : StepReport α σ)
    (survival trap : α) (release : Option α) : Prop where
  width : ∃ variance, t.variance? carrier r = .ok variance
  taken : Draw.takeAll? (t.schedule carrier r) r.before.source =
    some (r.spread.samples ++ survival :: trap :: release.toList, r.source)
  displaced : r.position = r.drift.after.position + r.spread.displacement
  recombined : ∃ doping, t.field.doping r.position = .ok doping ∧
    r.recombined = t.models.recombination.recombines carrier doping survival
      r.before.motion.timestep
  captured : release.isSome =
    t.models.trapping.captures carrier trap r.before.motion.timestep
  stay : r.capture.stay? =
    release.map (t.models.detrapping.delay? carrier ·)

variable {t : Transport α} {carrier : Carrier} {start : α}

theorem Takes.draws_in_order {f : Flight α σ} {r : StepReport α σ}
    (h : t.Takes carrier start f r) :
    ∃ survival trap release, t.Draws carrier r survival trap release := by
  obtain ⟨near, far, source, hnear, hspread, hfar, hrecombined, hcapture⟩ :=
    h.draws
  obtain ⟨trap, release, htaken, htrapped, hstay⟩ :=
    takeAll?_of_drawCapture hcapture.symm
  have hvariance : t.variance? carrier r = .ok (diffusionVariance
      (t.models.mobility.evaluate carrier r.efield near)
      t.config.temperature f.motion.timestep) := by
    simp only [variance?, hnear, h.before]
    rfl
  refine ⟨(Random.uniform source).1, trap, release, ⟨_, hvariance⟩, ?_,
    h.position, ⟨far, hfar, ?_⟩, ?_, hstay⟩
  · have hsurvival : Draw.takeAll? [(.uniform : Draw α)] source =
        some ([(Random.uniform source).1],
          (Random.uniform (α := α) source).2) := rfl
    have hspent : Draw.takeAll?
        ([.uniform, .uniform] ++ if r.isCaptured then [.uniform] else [])
        source = some ((Random.uniform source).1 :: trap :: release.toList,
          r.source) :=
      Draw.takeAll?_append hsurvival htaken
    rw [schedule, hvariance, h.before, List.append_assoc]
    exact Draw.takeAll?_append (takeAll?_of_diffuse hspread) hspent
  · rw [hrecombined, h.before]
  · rw [htrapped, h.before]

theorem Course.forall_draws {f g : Flight α σ} {reports : List (StepReport α σ)}
    (h : t.Course carrier start f reports g) :
    ∀ r ∈ reports, ∃ survival trap release,
      t.Draws carrier r survival trap release := by
  intro r hr
  exact (h.forall_takes r hr).2.draws_in_order

/-- A flight draws what its steps draw, one step after the other, and
nothing else. -/
theorem Course.draws_in_order {f g : Flight α σ}
    {reports : List (StepReport α σ)}
    (h : t.Course carrier start f reports g) :
    ∃ numbers, Draw.takeAll? (reports.flatMap (t.schedule carrier)) f.source =
      some (numbers, g.source) := by
  induction h with
  | done => exact ⟨[], rfl⟩
  | @step f m g r reports _ taken next _ ih =>
      obtain ⟨_, _, _, hdraws⟩ := (takes_of_step taken).draws_in_order
      obtain ⟨timestep, -, rfl⟩ := Option.map_eq_some_iff.mp next
      obtain ⟨numbers, hnumbers⟩ := ih
      have hfirst := hdraws.taken
      rw [(takes_of_step taken).before] at hfirst
      rw [List.flatMap_cons]
      exact ⟨_, Draw.takeAll?_append hfirst hnumbers⟩

/-! ## Flights under other models -/

/-- The same transport but for the models of recombination, trapping, release
and multiplication. -/
structure Alike (t u : Transport α) : Prop where
  config : u.config = { t.config with
    recombinationModel := u.config.recombinationModel
    trappingModel := u.config.trappingModel
    detrappingModel := u.config.detrappingModel
    multiplicationModel := u.config.multiplicationModel
    parameters := u.config.parameters }
  mobility : u.models.mobility = t.models.mobility
  field : u.field = t.field
  sensor : u.sensor = t.sensor
  tableau : u.tableau = t.tableau

namespace Alike

variable {u : Transport α}

omit [WordSource σ]

theorem velocity_eq (h : t.Alike u) : u.velocity = t.velocity := by
  have hignore : u.config.ignoreMagneticField = t.config.ignoreMagneticField :=
    (congrArg Config.ignoreMagneticField h.config :)
  funext carrier p
  unfold velocity isMagnetic
  rw [h.field, h.mobility, hignore]

omit [Scalar α] in
theorem temperature_eq (h : t.Alike u) :
    u.config.temperature = t.config.temperature :=
  (congrArg Config.temperature h.config :)

theorem nextTimestep?_eq (h : t.Alike u) :
    u.config.nextTimestep? = t.config.nextTimestep? := by
  have hprecision : u.config.spatialPrecision = t.config.spatialPrecision :=
    (congrArg Config.spatialPrecision h.config :)
  have hmin : u.config.timestepMin = t.config.timestepMin :=
    (congrArg Config.timestepMin h.config :)
  have hmax : u.config.timestepMax = t.config.timestepMax :=
    (congrArg Config.timestepMax h.config :)
  funext timestep distance stepZ uncertainty
  simp only [Config.nextTimestep?, hprecision, hmin, hmax]

theorem variance?_eq (h : t.Alike u) {r q : StepReport α σ}
    (hbefore : r.before.motion = q.before.motion) (hdrift : r.drift = q.drift)
    (hefield : r.efield = q.efield) :
    t.variance? carrier r = u.variance? carrier q := by
  simp only [variance?, h.field, h.mobility, h.temperature_eq, hbefore, hdrift,
    hefield]

theorem together_launch (h : t.Alike u) (position : Vec3 α) (efield : α)
    (source : σ) :
    (t.launch position efield source).Together
      (u.launch position efield source) := by
  have hstart : u.config.timestepStart = t.config.timestepStart :=
    (congrArg Config.timestepStart h.config :)
  constructor <;> simp [launch, hstart]

end Alike

/-- A step in which neither group recombines or is captured draws the same
numbers under both models, and leaves both groups in the same place. -/
theorem Alike.together_after {u : Transport α} (h : t.Alike u)
    {f g f' g' : Flight α σ} {r q : StepReport α σ} (hfg : f.Together g)
    (hr : t.Takes carrier start f r) (hq : u.Takes carrier start g q)
    (quietr : r.Undisturbed) (quietq : q.Undisturbed)
    (nextr : r.after? = some f') (nextq : q.after? = some g') :
    f'.Together g' := by
  have hfree := StepReport.capture_of_undisturbed quietr
  have hfree' := StepReport.capture_of_undisturbed quietq
  have hdrift : r.drift = q.drift := by
    have hadvance := hr.drift
    rw [hfg.motion, ← h.velocity_eq, ← h.tableau, hq.drift] at hadvance
    exact (Except.ok.inj hadvance).symm
  have hefield : r.efield = q.efield := by
    obtain ⟨e, he, hnorm⟩ := hr.efield
    obtain ⟨e', he', hnorm'⟩ := hq.efield
    rw [hdrift, ← h.field, he'] at he
    rw [hnorm, hnorm', Except.ok.inj he]
  have hschedule : t.schedule carrier r = u.schedule carrier q := by
    have hbefore : r.before.motion = q.before.motion := by
      rw [hr.before, hq.before, hfg.motion]
    rw [schedule, schedule, h.variance?_eq hbefore hdrift hefield, quietr.2,
      quietq.2]
  obtain ⟨survival, trap, release, drawsr⟩ := hr.draws_in_order
  obtain ⟨survival', trap', release', drawsq⟩ := hq.draws_in_order
  have hstay := drawsr.stay
  have hstay' := drawsq.stay
  rw [hfree, eq_comm, Capture.stay?, Option.map_eq_none_iff] at hstay
  rw [hfree', eq_comm, Capture.stay?, Option.map_eq_none_iff] at hstay'
  subst hstay hstay'
  -- Both steps take the same draws from the same source.
  have htaken := drawsr.taken
  rw [hschedule, hr.before, hfg.source, ← hq.before, drawsq.taken,
    Option.some.injEq, Prod.mk.injEq] at htaken
  obtain ⟨hnumbers, hleft⟩ := htaken
  have hsamples : q.spread.samples = r.spread.samples :=
    List.append_inj_left' hnumbers rfl
  have hposition : r.position = q.position := by
    rw [hr.position, hq.position, hdrift,
      Spread.displacement_eq_of_samples hsamples]
  have hexited : r.exited = q.exited := by
    rw [hr.exited, hq.exited, hposition, h.sensor]
  have htimestep : r.nextTimestep = q.nextTimestep := by
    rw [hr.nextTimestep, hq.nextTimestep, h.nextTimestep?_eq, hfg.motion,
      hposition, hdrift, h.sensor]
  obtain ⟨next, hnext, rfl⟩ := Option.map_eq_some_iff.mp nextr
  obtain ⟨next', hnext', rfl⟩ := Option.map_eq_some_iff.mp nextq
  rw [htimestep, hnext', Option.some.injEq] at hnext
  constructor <;> simp only [StepReport.time, StepReport.state, hfree, hfree',
    quietr.1, quietq.1, hr.before, hq.before]
  case motion => rw [hposition, hdrift, hnext]
  case lastPosition => rw [hfg.motion]
  case efield => exact hefield
  case steps => rw [hfg.steps]
  case state => rw [hexited]
  case source => exact hleft.symm

theorem Alike.together {u : Transport α} (h : t.Alike u)
    {f g f' g' : Flight α σ} {reports others : List (StepReport α σ)}
    (hf : t.Course carrier start f reports f')
    (hg : u.Course carrier start g others g') (hfg : f.Together g)
    (hlength : reports.length = others.length)
    (hreports : ∀ r ∈ reports, r.Undisturbed)
    (hothers : ∀ r ∈ others, r.Undisturbed) : f'.Together g' := by
  induction hf generalizing g others with
  | done =>
      obtain rfl : others = [] := List.eq_nil_of_length_eq_zero hlength.symm
      cases hg
      exact hfg
  | step _ taken next _ ih =>
      cases hg with
      | done => cases hlength
      | step _ taken' next' rest =>
          obtain ⟨hr, hreports⟩ := List.forall_mem_cons.mp hreports
          obtain ⟨hq, hothers⟩ := List.forall_mem_cons.mp hothers
          have hnext := h.together_after hfg (takes_of_step taken)
            (takes_of_step taken') hr hq next next'
          exact ih rest hnext (Nat.succ.inj hlength) hreports hothers

end Transport

/-! ## Configurations with other models -/

/-- The configurations differ at most in the models of recombination, trapping,
release and multiplication and in the parameters of these models. -/
structure Config.Alike (c d : Config α) : Prop where
  options : d = { c with
    recombinationModel := d.recombinationModel
    trappingModel := d.trappingModel
    detrappingModel := d.detrappingModel
    multiplicationModel := d.multiplicationModel
    parameters := d.parameters }
  mobility : d.parameters.mobility = c.parameters.mobility

theorem Config.Alike.transport {c d : Config α} (h : c.Alike d)
    {field : Field α} {m n : Models α}
    (hm : (Models.select c field.hasDoping).result = .ok m)
    (hn : (Models.select d field.hasDoping).result = .ok n)
    (sensor : Sensor α) :
    (Transport.ofParts c m field sensor).Alike (.ofParts d n field sensor) := by
  have hname : d.mobilityModel = c.mobilityModel :=
    (congrArg Config.mobilityModel h.options :)
  have htemperature : d.temperature = c.temperature :=
    (congrArg Config.temperature h.options :)
  have hscheme : d.scheme = c.scheme := (congrArg Config.scheme h.options :)
  have hmobility := Models.mobility_of_select hn
  rw [hname, htemperature, Mobility.select_congr h.mobility,
    Models.mobility_of_select hm] at hmobility
  exact ⟨h.options, (Except.ok.inj hmobility).symm, rfl, rfl,
    congrArg Tableau.ofScheme hscheme⟩

namespace Transport

/-- Each step of a flight takes its random numbers in a fixed order, whatever
the models are and whatever has become of the group in that step.  So under two
configurations that differ only in the models of recombination, trapping,
release and multiplication and in their parameters, flights with the same start
are after any number of steps in the same state, and with the same random
numbers before them, unless one of them has recombined or was captured.  A run
that succeeds is such a flight, and so is any number of its first steps; it
leaves the source that its steps have drawn from in turn. -/
theorem propagate_draws_in_order :
    (∀ (t : Transport α) (carrier : Carrier) (start : α) (f g : Flight α σ)
        (reports : List (StepReport α σ)),
      t.Course carrier start f reports g →
      (∀ r ∈ reports, ∃ survival trap release,
        t.Draws carrier r survival trap release) ∧
      ∃ numbers, Draw.takeAll? (reports.flatMap (t.schedule carrier))
        f.source = some (numbers, g.source)) ∧
    (∀ (c d : Config α) (field : Field α) (sensor : Sensor α)
        (m n : Models α),
      c.Alike d → (Models.select c field.hasDoping).result = .ok m →
      (Models.select d field.hasDoping).result = .ok n →
      ∀ (carrier : Carrier) (position : Vec3 α) (start efield : α)
        (source : σ) (reports others : List (StepReport α σ))
        (f g : Flight α σ),
      (ofParts c m field sensor).Course carrier start
        ((ofParts c m field sensor).launch position efield source) reports f →
      (ofParts d n field sensor).Course carrier start
        ((ofParts d n field sensor).launch position efield source) others g →
      reports.length = others.length → (∀ r ∈ reports, r.Undisturbed) →
      (∀ r ∈ others, r.Undisturbed) → f.Together g) ∧
    (∀ (t : Transport α) (carrier : Carrier) (position : Vec3 α) (start : α)
        (source : σ) budget recorder threshold o recorder' source' journal,
      (t.propagate budget carrier position start recorder source).runFrom
        threshold = (.ok (o, recorder', source'), journal) →
      ∃ efield reports f, t.field.electric position = .ok efield ∧
        t.Course carrier start (t.launch position efield.norm source) reports
          f ∧
        t.isFlying start f = false ∧ o = t.outcome start f ∧
        o.steps = reports.length ∧ source' = f.source ∧
        (∀ n, ∃ g, t.Course carrier start
          (t.launch position efield.norm source) (reports.take n) g) ∧
        (∀ r ∈ reports, ∃ survival trap release,
          t.Draws carrier r survival trap release) ∧
        ∃ numbers, Draw.takeAll? (reports.flatMap (t.schedule carrier))
          source = some (numbers, source')) := by
  refine ⟨?_, ?_, ?_⟩
  · intro t carrier start f g reports hcourse
    exact ⟨hcourse.forall_draws, hcourse.draws_in_order⟩
  · intro c d field sensor m n hconfigs hm hn carrier position start efield
      source reports others f g hf hg hlength hreports hothers
    have halike := hconfigs.transport hm hn sensor
    exact halike.together hf hg
      (halike.together_launch position efield source) hlength hreports hothers
  · intro t carrier position start source budget recorder threshold o
      recorder' source' journal hrun
    obtain ⟨efield, reports, f, hefield, hcourse, hdone, -, rfl, -, rfl⟩ :=
      course_of_run hrun
    exact ⟨efield, reports, f, hefield, hcourse, hdone, rfl,
      hcourse.steps_outcome, rfl, hcourse.take, hcourse.forall_draws,
      hcourse.draws_in_order⟩

/-- The thin layer of n-type silicon, with models selected by their names. -/
def quietConfig : Config Double :=
  { thinLayer.config with
    mobilityModel := "constant"
    parameters :=
      { Parameters.standard with
        mobility := ⟨some 1.0, some 1.0⟩
        detrappingTime := ⟨some 3.0, some 3.0⟩ } }

def nType : Field Double := .uniform ⟨0.0, 0.0, -0.5⟩ none (some 1.0)

def quietModels : Models Double :=
  ⟨.constant ⟨1.0, 1.0⟩, .none, ⟨none⟩, ⟨none⟩, ⟨.none, 1e-2⟩⟩

def augerConfig : Config Double :=
  { quietConfig with
    recombinationModel := "auger"
    detrappingModel := "constant"
    multiplicationModel := "massey"
    parameters :=
      { quietConfig.parameters with multiplicationThreshold := 1.0 } }

def augerModels : Models Double :=
  ⟨.constant ⟨1.0, 1.0⟩, .auger .standard, ⟨none⟩, ⟨some ⟨3.0, 3.0⟩⟩,
    ⟨.massey (.atTemperature 293.15), 1.0⟩⟩

def quietLayer : Transport Double :=
  ofParts quietConfig quietModels nType thinLayer.sensor

def augerLayer : Transport Double :=
  ofParts augerConfig augerModels nType thinLayer.sensor

theorem undisturbed_of_trace {t : Transport Double} {start : Double}
    {f g : Flight Double σ} {reports : List (StepReport Double σ)}
    {budget steps : Nat}
    (hquiet : (t.trace .electron start budget f).2.map
      (fun r => (r.recombined, r.isCaptured)) =
        List.replicate steps (false, false))
    (htrace : t.trace .electron start budget f = (.ok g, reports)) :
    reports.length = steps ∧ ∀ r ∈ reports, r.Undisturbed := by
  rw [htrace] at hquiet
  obtain ⟨hlength, hreports⟩ := List.eq_replicate_iff.mp hquiet
  rw [List.length_map] at hlength
  refine ⟨hlength, fun r hr => ?_⟩
  exact Prod.mk.inj (hreports _ (List.mem_map_of_mem hr))

theorem propagate_draws_in_order_auger :
    quietConfig.Alike augerConfig ∧
    ∃ (reports others : List (StepReport Double CyclicWords))
        (f g : Flight Double CyclicWords), reports.length = 2 ∧
      quietLayer.Course .electron 0.0
        (quietLayer.launch .zero 0.5 middleWords) reports f ∧
      augerLayer.Course .electron 0.0
        (augerLayer.launch .zero 0.5 middleWords) others g ∧
      f.Together g ∧
      ∃ o o' numbers numbers', o = quietLayer.outcome 0.0 f ∧
        o.state = .halted ∧ o' = augerLayer.outcome 0.0 g ∧
        o'.state = .halted ∧
        Draw.takeAll? (reports.flatMap (quietLayer.schedule .electron))
          middleWords = some (numbers, f.source) ∧
        Draw.takeAll? (others.flatMap (augerLayer.schedule .electron))
          middleWords = some (numbers', f.source) := by
  have halike : quietConfig.Alike augerConfig := ⟨rfl, rfl⟩
  have hends : endOf? ((quietLayer.propagate 2 .electron .zero 0.0 none
      middleWords).runFrom none) = some (.halted, 2) := by
    decide +kernel
  have hends' : endOf? ((augerLayer.propagate 2 .electron .zero 0.0 none
      middleWords).runFrom none) = some (.halted, 2) := by
    decide +kernel
  have hquiet : (quietLayer.trace .electron 0.0 2
      (quietLayer.launch .zero 0.5 middleWords)).2.map
        (fun r => (r.recombined, r.isCaptured)) =
      List.replicate 2 (false, false) := by
    decide +kernel
  have hauger : (augerLayer.trace .electron 0.0 2
      (augerLayer.launch .zero 0.5 middleWords)).2.map
        (fun r => (r.recombined, r.isCaptured)) =
      List.replicate 2 (false, false) := by
    decide +kernel
  have hnorm : (⟨0.0, 0.0, -0.5⟩ : Vec3 Double).norm = 0.5 := by
    with_unfolding_all rfl
  obtain ⟨o, _, _, _, hrun, hstate, htwo⟩ := ok_of_endOf? hends
  obtain ⟨o', _, _, _, hrun', hstate', htwo'⟩ := ok_of_endOf? hends'
  obtain ⟨-, htogether, hruns⟩ :=
    propagate_draws_in_order (α := Double) (σ := CyclicWords)
  obtain ⟨efield, reports, f, hefield, hf, hdone, ho, hsteps, rfl, -, -,
    numbers, hnumbers⟩ :=
    hruns quietLayer .electron .zero 0.0 middleWords 2 none none o _ _ _ hrun
  obtain ⟨efield', others, g, hefield', hg, hdone', ho', hsteps', rfl, -, -,
    numbers', hnumbers'⟩ :=
    hruns augerLayer .electron .zero 0.0 middleWords 2 none none o' _ _ _ hrun'
  obtain rfl : ⟨0.0, 0.0, -0.5⟩ = efield := Except.ok.inj hefield
  obtain rfl : ⟨0.0, 0.0, -0.5⟩ = efield' := Except.ok.inj hefield'
  rw [hnorm] at hf hg
  obtain ⟨hlength, hreports⟩ := undisturbed_of_trace hquiet
    (trace_eq_ok_iff.mpr ⟨hf, hdone, by omega⟩)
  obtain ⟨hlength', hothers⟩ := undisturbed_of_trace hauger
    (trace_eq_ok_iff.mpr ⟨hg, hdone', by omega⟩)
  have hfg : f.Together g :=
    htogether quietConfig augerConfig nType thinLayer.sensor quietModels
      augerModels halike rfl rfl .electron .zero 0.0 0.5 middleWords reports
      others f g hf hg (hlength.trans hlength'.symm) hreports hothers
  rw [← hfg.source] at hnumbers'
  exact ⟨halike, reports, others, f, g, hlength, hf, hg, hfg, o, o', numbers,
    numbers', ho, hstate, ho', hstate', hnumbers, hnumbers'⟩

end Transport

end CarrierTransport
