import CarrierTransport.Proofs.Flight.Course

/-!
# Flights that are the same

Two sensors whose steps are the same have the same flights.  Where their steps
are the same but for a part that no decision reads, their flights are the same
but for that part.
-/

namespace CarrierTransport

variable {α σ ω β γ δ : Type}

theorem map_congr_of_map {xs ys : List β} {φ : β → γ}
    (h : xs.map φ = ys.map φ) (f : γ → δ) :
    (xs.map fun x => f (φ x)) = ys.map fun y => f (φ y) := by
  rw [← Function.comp_def, ← List.map_map, h, List.map_map]

section Except

variable {ε : Type} {x y : Except ε β} {φ : β → δ}

/-- Results that are the same but for a part are the same failure, or values
that are the same but for that part. -/
theorem cases_of_map_eq (h : φ <$> x = φ <$> y) :
    (∃ e, x = .error e ∧ y = .error e) ∨
      ∃ a b, x = .ok a ∧ y = .ok b ∧ φ a = φ b := by
  cases x with
  | error e =>
      cases y with
      | error e' =>
          cases h
          exact .inl ⟨e, rfl, rfl⟩
      | ok b => cases h
  | ok a =>
      cases y with
      | error e => cases h
      | ok b => exact .inr ⟨a, b, rfl, rfl, Except.ok.inj h⟩

/-- What is calculated from such results is the same if it does not depend on
that part. -/
theorem bind_congr_of_map {f g : β → Except ε γ} (h : φ <$> x = φ <$> y)
    (hfg : ∀ a b, φ a = φ b → f a = g b) : x >>= f = y >>= g := by
  obtain ⟨e, rfl, rfl⟩ | ⟨a, b, rfl, rfl, hab⟩ := cases_of_map_eq h
  · rfl
  · exact hfg a b hab

end Except

variable [Scalar α] [WordSource σ]

namespace Transport

variable {t u : Transport α} {carrier : Carrier} {start : α}

theorem fly_congr
    (hflying : ∀ f : Flight α σ, u.isFlying start f = t.isFlying start f)
    (hstep : ∀ f : Flight α σ,
      u.step carrier start f = t.step carrier start f)
    (observe : StepReport α σ → ω → ω) (budget : Nat) (f : Flight α σ)
    (seen : ω) :
    u.fly carrier start observe budget f seen =
      t.fly carrier start observe budget f seen := by
  induction budget generalizing f seen with
  | zero => rw [fly, fly, hflying]
  | succ budget ih =>
      rw [fly, fly, hstep, hflying]
      simp only [ih]

theorem propagate_congr {position : Vec3 α}
    (helectric : u.field.electric position = t.field.electric position)
    (hlaunch : ∀ efield (source : σ),
      u.launch position efield source = t.launch position efield source)
    (hflying : ∀ f : Flight α σ, u.isFlying start f = t.isFlying start f)
    (hstep : ∀ f : Flight α σ,
      u.step carrier start f = t.step carrier start f)
    (houtcome : ∀ f : Flight α σ, u.outcome start f = t.outcome start f)
    (budget : Nat) (recorder : Option (Recorder α)) (source : σ) :
    u.propagate budget carrier position start recorder source =
      t.propagate budget carrier position start recorder source := by
  unfold propagate
  simp only [helectric, hlaunch, houtcome, fly_congr hflying hstep]

/-- Where the steps of `u` from the images of flights are the images of the steps
of `t`, whole flights are. -/
theorem trace_of_images {φ : Flight α σ → Flight α σ}
    {ψ : StepReport α σ → StepReport α σ}
    (hflying : ∀ f, u.isFlying start (φ f) = t.isFlying start f)
    (hstep : ∀ f, u.step carrier start (φ f) = ψ <$> t.step carrier start f)
    (hafter : ∀ r, (ψ r).after? = r.after?.map φ) (budget : Nat)
    (f : Flight α σ) :
    u.trace carrier start budget (φ f) =
      (φ <$> (t.trace carrier start budget f).1,
        (t.trace carrier start budget f).2.map ψ) := by
  induction budget generalizing f with
  | zero =>
      simp only [Transport.trace, fly, hflying]
      cases t.isFlying start f <;> rfl
  | succ budget ih =>
      have himage := hflying f
      cases flying : t.isFlying start f with
      | false =>
          rw [trace_of_done flying, trace_of_done (himage.trans flying)]
          rfl
      | true =>
          rw [flying] at himage
          have htaken := hstep f
          cases taken : t.step carrier start f with
          | error fault =>
              rw [taken] at htaken
              change u.step carrier start (φ f) = .error fault at htaken
              simp only [Transport.trace, fly, flying, himage, taken, htaken,
                if_true]
              rfl
          | ok r =>
              rw [taken] at htaken
              change u.step carrier start (φ f) = .ok (ψ r) at htaken
              have hnext := hafter r
              cases next : r.after? with
              | none =>
                  rw [next] at hnext
                  simp only [Transport.trace, fly, flying, himage, taken,
                    htaken, next, hnext, if_true, Option.map_none]
                  rfl
              | some g =>
                  rw [next] at hnext
                  rw [trace_of_step flying taken next,
                    trace_of_step himage htaken hnext, ih]
                  rfl

/-- The steps of `u` are those of `t`, and lead to the same flights, but for
what `φ` leaves out of a flight and `ψ` of a step. -/
structure Mirrors (t u : Transport α) (carrier : Carrier) (start : α)
    (φ : Flight α σ → β) (ψ : StepReport α σ → γ) : Prop where
  step : ∀ f g : Flight α σ, φ g = φ f →
    ψ <$> u.step carrier start g = ψ <$> t.step carrier start f
  after : ∀ r q : StepReport α σ, ψ q = ψ r →
    q.after?.map φ = r.after?.map φ

namespace Mirrors

variable {φ : Flight α σ → β} {ψ : StepReport α σ → γ}
variable {f g : Flight α σ}

/-- Flights that are the same but for that part are so after a step of each. -/
theorem next (h : t.Mirrors u carrier start φ ψ) (hfg : φ g = φ f)
    {f' g' : Flight α σ} {r q : StepReport α σ}
    (taken : t.step carrier start f = .ok r) (next : r.after? = some f')
    (taken' : u.step carrier start g = .ok q) (next' : q.after? = some g') :
    ψ q = ψ r ∧ φ g' = φ f' := by
  have hreport := h.step f g hfg
  rw [taken, taken'] at hreport
  have hqr : ψ q = ψ r := Except.ok.inj hreport
  have hnext := h.after r q hqr
  rw [next, next'] at hnext
  exact ⟨hqr, Option.some.inj hnext⟩

/-- Courses of as many steps are the same but for that part, however long either
flight goes on. -/
theorem course (h : t.Mirrors u carrier start φ ψ) {f' g' : Flight α σ}
    {reports others : List (StepReport α σ)}
    (hf : t.Course carrier start f reports f')
    (hg : u.Course carrier start g others g')
    (hlength : others.length = reports.length) (hfg : φ g = φ f) :
    others.map ψ = reports.map ψ ∧ φ g' = φ f' := by
  induction hf generalizing g others with
  | done =>
      obtain rfl : others = [] := List.eq_nil_of_length_eq_zero hlength
      cases hg
      exact ⟨rfl, hfg⟩
  | step flying taken next rest ih =>
      cases hg with
      | done => cases hlength
      | step flying' taken' next' rest' =>
          obtain ⟨hreport, hnext⟩ := h.next hfg taken next taken' next'
          obtain ⟨hreports, hend⟩ := ih rest' (Nat.succ.inj hlength) hnext
          rw [List.map_cons, List.map_cons, hreport, hreports]
          exact ⟨rfl, hend⟩

/-- If whether they go on does not depend on that part, whole flights are the
same but for it. -/
theorem trace (h : t.Mirrors u carrier start φ ψ)
    (hflying : ∀ f g : Flight α σ, φ g = φ f →
      u.isFlying start g = t.isFlying start f)
    (budget : Nat) (hfg : φ g = φ f) :
    φ <$> (u.trace carrier start budget g).1 =
        φ <$> (t.trace carrier start budget f).1 ∧
      (u.trace carrier start budget g).2.map ψ =
        (t.trace carrier start budget f).2.map ψ := by
  have hdone (budget : Nat) {f g : Flight α σ} (hfg : φ g = φ f)
      (done : t.isFlying start f = false) :
      φ <$> (u.trace carrier start budget g).1 =
          φ <$> (t.trace carrier start budget f).1 ∧
        (u.trace carrier start budget g).2.map ψ =
          (t.trace carrier start budget f).2.map ψ := by
    rw [trace_of_done done, trace_of_done ((hflying f g hfg).trans done)]
    exact ⟨congrArg Except.ok hfg, rfl⟩
  induction budget generalizing f g with
  | zero =>
      have hsame := hflying f g hfg
      cases flying : t.isFlying start f with
      | false => exact hdone 0 hfg flying
      | true => simp [Transport.trace, fly, flying, hsame]
  | succ budget ih =>
      have hsame := hflying f g hfg
      cases flying : t.isFlying start f with
      | false => exact hdone (budget + 1) hfg flying
      | true =>
          rw [flying] at hsame
          obtain ⟨fault, taken', taken⟩ | ⟨q, r, taken', taken, hreport⟩ :=
            cases_of_map_eq (h.step f g hfg)
          · simp [Transport.trace, fly, flying, hsame, taken, taken']
          · have hafter := h.after r q hreport
            cases next : r.after? with
            | none =>
                rw [next, Option.map_none, Option.map_eq_none_iff] at hafter
                simp [Transport.trace, fly, flying, hsame, taken, taken', next,
                  hafter, hreport]
            | some m =>
                rw [next, Option.map_some, Option.map_eq_some_iff] at hafter
                obtain ⟨m', next', hm⟩ := hafter
                obtain ⟨hended, hreports⟩ := ih hm
                rw [trace_of_step flying taken next,
                  trace_of_step hsame taken' next', List.map_cons,
                  List.map_cons, hreport, hreports]
                exact ⟨hended, rfl⟩

end Mirrors

end Transport

end CarrierTransport
