/-!
# Requirements in order

A calculation that checks requirements one after the other succeeds if all of
them are met, and otherwise fails as the first one that is not.
-/

namespace CarrierTransport

variable {β γ ε ε' : Type}

/-- What has to hold, and how the calculation fails if it does not. -/
structure Requirement (ε : Type) where
  met : Prop
  failure : ε

def Requirement.map (f : ε → ε') (r : Requirement ε) : Requirement ε' :=
  ⟨r.met, f r.failure⟩

/-- The first of the requirements that is not met has this failure. -/
inductive FirstUnmet : List (Requirement ε) → ε → Prop
  | here {r : Requirement ε} (rest : List (Requirement ε)) :
      ¬r.met → FirstUnmet (r :: rest) r.failure
  | later {r : Requirement ε} {rest : List (Requirement ε)} {e : ε} :
      r.met → FirstUnmet rest e → FirstUnmet (r :: rest) e

namespace FirstUnmet

variable {rs ss : List (Requirement ε)} {e e' : ε}

theorem append_left (h : FirstUnmet rs e) : FirstUnmet (rs ++ ss) e := by
  induction h with
  | here rest unmet => exact .here (rest ++ ss) unmet
  | later met _ ih => exact .later met ih

theorem append_right (hrs : ∀ r ∈ rs, r.met) (h : FirstUnmet ss e) :
    FirstUnmet (rs ++ ss) e := by
  induction rs with
  | nil => exact h
  | cons r rs ih =>
      obtain ⟨met, hrs⟩ := List.forall_mem_cons.mp hrs
      exact .later met (ih hrs)

theorem map (f : ε → ε') (h : FirstUnmet rs e) :
    FirstUnmet (rs.map (·.map f)) (f e) := by
  induction h with
  | @here r rest unmet => exact .here (r := r.map f) _ unmet
  | @later r _ _ met _ ih => exact .later (r := r.map f) met ih

theorem not_forall_met (h : FirstUnmet rs e) : ¬∀ r ∈ rs, r.met := by
  intro hmet
  induction h with
  | here rest unmet => exact unmet (List.forall_mem_cons.mp hmet).1
  | later _ _ ih => exact ih (List.forall_mem_cons.mp hmet).2

theorem unique (h : FirstUnmet rs e) (h' : FirstUnmet rs e') : e = e' := by
  induction h with
  | here rest unmet =>
      cases h' with
      | here => rfl
      | later met _ => exact absurd met unmet
  | later met _ ih =>
      cases h' with
      | here _ unmet => exact absurd met unmet
      | later _ later => exact ih later

end FirstUnmet

/-- The calculation checks these requirements in their order. -/
def Demands (x : Except ε β) (rs : List (Requirement ε)) : Prop :=
  match x with
  | .ok _ => ∀ r ∈ rs, r.met
  | .error e => FirstUnmet rs e

namespace Demands

variable {x : Except ε β} {rs ss : List (Requirement ε)}

theorem ok_iff (h : Demands x rs) : (∃ b, x = .ok b) ↔ ∀ r ∈ rs, r.met := by
  cases x with
  | ok b => exact ⟨fun _ => h, fun _ => ⟨b, rfl⟩⟩
  | error e =>
      constructor
      · rintro ⟨b, hb⟩
        cases hb
      · intro hmet
        exact absurd hmet (FirstUnmet.not_forall_met h)

theorem error_iff (h : Demands x rs) {e : ε} :
    x = .error e ↔ FirstUnmet rs e := by
  cases x with
  | ok b =>
      constructor
      · intro herror
        cases herror
      · intro hunmet
        exact absurd h hunmet.not_forall_met
  | error e' =>
      constructor
      · rintro ⟨⟩
        exact h
      · intro hunmet
        exact congrArg Except.error (FirstUnmet.unique h hunmet)

theorem pure (b : β) : Demands (.ok b : Except ε β) [] :=
  List.forall_mem_nil _

theorem bind {f : β → Except ε γ} (hx : Demands x rs)
    (hf : ∀ b, x = .ok b → Demands (f b) ss) :
    Demands (x >>= f) (rs ++ ss) := by
  cases x with
  | error e => exact FirstUnmet.append_left hx
  | ok b =>
      have hnext := hf b rfl
      change Demands (f b) (rs ++ ss)
      cases hy : f b with
      | error e =>
          rw [hy] at hnext
          exact FirstUnmet.append_right hx hnext
      | ok c =>
          rw [hy] at hnext
          exact List.forall_mem_append.mpr ⟨hx, hnext⟩

/-- What is done with the result of a calculation demands nothing more. -/
theorem bind_ok (hx : Demands x rs) (f : β → γ) :
    Demands (x >>= fun b => .ok (f b)) rs := by
  have hbind := hx.bind fun b _ => Demands.pure (f b)
  rwa [List.append_nil] at hbind

theorem mapError (hx : Demands x rs) (f : ε → ε') :
    Demands (x.mapError f) (rs.map (·.map f)) := by
  cases x with
  | error e => exact FirstUnmet.map f hx
  | ok b => exact List.forall_mem_map.mpr hx

theorem single {r : Requirement ε} (hok : ∀ b, x = .ok b → r.met)
    (herror : ∀ e, x = .error e → ¬r.met ∧ r.failure = e) :
    Demands x [r] := by
  cases x with
  | ok b => exact List.forall_mem_singleton.mpr (hok b rfl)
  | error e =>
      obtain ⟨unmet, rfl⟩ := herror e rfl
      exact .here [] unmet

theorem forM {check : β → Except ε Unit} {requirement : β → Requirement ε}
    (h : ∀ item, Demands (check item) [requirement item]) (items : List β) :
    Demands (items.forM check) (items.map requirement) := by
  induction items with
  | nil => exact pure ()
  | cons item items ih => exact (h item).bind fun _ _ => ih

/-- A guard that throws if `p` demands that `p` be false. -/
theorem guard {p : Prop} [Decidable p] {e : ε} {rest : Except ε β}
    {r : Requirement ε} (hr : r.met ↔ ¬p) (he : r.failure = e)
    (hrest : Demands rest rs) :
    Demands (if p then throw e >>= fun _ : Unit => rest else rest)
      (r :: rs) := by
  subst he
  by_cases hp : p
  · rw [if_pos hp]
    exact .here rs fun met => hr.mp met hp
  · rw [if_neg hp]
    cases rest with
    | ok b => exact List.forall_mem_cons.mpr ⟨hr.mpr hp, hrest⟩
    | error e => exact .later (hr.mpr hp) hrest

theorem check {p : Prop} [Decidable p] {e : ε} {r : Requirement ε}
    (hr : r.met ↔ ¬p) (he : r.failure = e) :
    Demands (if p then throw e else Pure.pure () : Except ε Unit) [r] :=
  guard hr he (pure ())

end Demands

end CarrierTransport
