import CarrierTransport.Proofs.Journal
import CarrierTransport.Silicon.Models

/-!
# The models of a configuration

The models are selected one family after the other, each by its name and by
those parameters that it needs.
-/

namespace CarrierTransport

section MapError

variable {β ε ε' : Type} {x : Except ε β} {f : ε → ε'}

theorem mapError_eq_ok {b : β} : x.mapError f = .ok b ↔ x = .ok b := by
  cases x with
  | error e => exact ⟨nofun, nofun⟩
  | ok c =>
      constructor <;> rintro ⟨⟩ <;> rfl

theorem mapError_eq_error {e' : ε'} :
    x.mapError f = .error e' ↔ ∃ e, e' = f e ∧ x = .error e := by
  cases x with
  | ok b => exact ⟨nofun, nofun⟩
  | error e =>
      constructor
      · rintro ⟨⟩
        exact ⟨e, rfl, rfl⟩
      · rintro ⟨_, rfl, ⟨⟩⟩
        rfl

end MapError

variable {α : Type} [Scalar α]

namespace Models

omit [Scalar α] in
theorem announce_gives {β ε : Type} (kind : ModelKind) (name : String)
    (selection : Except ε β) :
    (announce kind name selection : Logged α ε β).Gives selection := by
  have hgives : (announce kind name selection : Logged α ε β).Gives
      (selection >>= pure) := by
    refine (Logged.Gives.ofExcept selection).bind fun model => ?_
    exact (Logged.Gives.forM_log _).after (.pure model)
  rwa [bind_pure] at hgives

theorem select_gives (c : Config α) (hasDoping : Bool) :
    (select c hasDoping).Gives (do
      let mobility ← (Mobility.select c.mobilityModel c.temperature
        c.parameters hasDoping).mapError .model
      let recombination ← (Recombination.select c.recombinationModel
        c.temperature c.parameters hasDoping).mapError .model
      let trapping ← (Trapping.select c.trappingModel c.temperature
        c.parameters).mapError .model
      let detrapping ← (Detrapping.select c.detrappingModel
        c.parameters).mapError .model
      let ionization ← (Ionization.select c.multiplicationModel c.temperature
        c.parameters).mapError .model
      return ⟨mobility, recombination, trapping, detrapping, ionization⟩) := by
  unfold select
  refine (announce_gives _ _ _).bind fun mobility => ?_
  refine (announce_gives _ _ _).bind fun recombination => ?_
  refine (announce_gives _ _ _).bind fun trapping => ?_
  refine (announce_gives _ _ _).bind fun detrapping => ?_
  refine (announce_gives _ _ _).bind fun ionization => ?_
  exact .pure _

/-- The models that a configuration names, family by family. -/
structure Selected (c : Config α) (hasDoping : Bool) (m : Models α) :
    Prop where
  mobility : Mobility.select c.mobilityModel c.temperature c.parameters
    hasDoping = .ok m.mobility
  recombination : Recombination.select c.recombinationModel c.temperature
    c.parameters hasDoping = .ok m.recombination
  trapping : Trapping.select c.trappingModel c.temperature c.parameters =
    .ok m.trapping
  detrapping : Detrapping.select c.detrappingModel c.parameters =
    .ok m.detrapping
  ionization : Ionization.select c.multiplicationModel c.temperature
    c.parameters = .ok m.ionization

theorem select_eq_ok_iff {c : Config α} {hasDoping : Bool} {m : Models α} :
    (select c hasDoping).result = .ok m ↔ m.Selected c hasDoping := by
  rw [(select_gives c hasDoping).result_eq]
  constructor
  · intro h
    obtain ⟨_, hmobility, h⟩ := bind_eq_ok.mp h
    obtain ⟨_, hrecombination, h⟩ := bind_eq_ok.mp h
    obtain ⟨_, htrapping, h⟩ := bind_eq_ok.mp h
    obtain ⟨_, hdetrapping, h⟩ := bind_eq_ok.mp h
    obtain ⟨_, hionization, h⟩ := bind_eq_ok.mp h
    cases h
    exact ⟨mapError_eq_ok.mp hmobility, mapError_eq_ok.mp hrecombination,
      mapError_eq_ok.mp htrapping, mapError_eq_ok.mp hdetrapping,
      mapError_eq_ok.mp hionization⟩
  · intro h
    rw [h.mobility, h.recombination, h.trapping, h.detrapping, h.ionization]
    rfl

theorem Selected.unique {c : Config α} {hasDoping : Bool} {m n : Models α}
    (hm : m.Selected c hasDoping) (hn : n.Selected c hasDoping) : m = n :=
  Except.ok.inj
    ((select_eq_ok_iff.mpr hm).symm.trans (select_eq_ok_iff.mpr hn))

theorem mobility_of_select {c : Config α} {hasDoping : Bool} {m : Models α}
    (h : (select c hasDoping).result = .ok m) :
    Mobility.select c.mobilityModel c.temperature c.parameters hasDoping =
      .ok m.mobility :=
  (select_eq_ok_iff.mp h).mobility

end Models

theorem Ionization.threshold_of_select {name : String} {temperature : α}
    {parameters : Parameters α} {m : Ionization α}
    (h : select name temperature parameters = .ok m) :
    m.threshold = parameters.multiplicationThreshold := by
  unfold select at h
  split at h
  · cases h
  · dsimp only at h
    split at h
    · cases h
    · cases h
      rfl

theorem Mobility.select_congr {name : String} {temperature : α}
    {parameters others : Parameters α} {hasDoping : Bool}
    (h : parameters.mobility = others.mobility) :
    select name temperature parameters hasDoping =
      select name temperature others hasDoping := by
  unfold select
  rw [h]

end CarrierTransport
