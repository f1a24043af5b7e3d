import CarrierTransport.Journal.Logged

/-!
# Results whatever the journal

What a calculation gives never depends on the journal that it keeps.  The lemmas
follow the way in which calculations are put together, so that each function of
the library needs one lemma that says what it gives.
-/

namespace CarrierTransport

variable {α ε β γ δ : Type}

theorem bind_eq_ok {x : Except ε β} {f : β → Except ε γ} {c : γ} :
    (x >>= f) = .ok c ↔ ∃ b, x = .ok b ∧ f b = .ok c := by
  cases x <;> simp [bind, Except.bind]

theorem bind_eq_error {x : Except ε β} {f : β → Except ε γ} {e : ε} :
    (x >>= f) = .error e ↔
      x = .error e ∨ ∃ b, x = .ok b ∧ f b = .error e := by
  cases x <;> simp [bind, Except.bind]

theorem ok_bind (b : β) (f : β → Except ε γ) :
    (Except.ok b >>= f) = f b := rfl

namespace Logged

def runOn (action : Logged α ε β) (journal : Journal α) :
    Except ε β × Journal α :=
  StateT.run (ExceptT.run action) journal

theorem runOn_bind (action : Logged α ε β) (next : β → Logged α ε γ)
    (journal : Journal α) :
    (action >>= next).runOn journal =
      match action.runOn journal with
      | (.ok value, after) => (next value).runOn after
      | (.error failure, after) => (.error failure, after) := by
  change (match action.runOn journal with
    | (first, after) => ExceptT.bindCont next first after) = _
  rcases action.runOn journal with ⟨first, after⟩
  cases first <;> rfl

/-- The result is `r`, whatever the journal. -/
def Gives (action : Logged α ε β) (r : Except ε β) : Prop :=
  ∀ journal, (action.runOn journal).1 = r

def result (action : Logged α ε β) : Except ε β := (action.runFrom none).1

namespace Gives

theorem runFrom {action : Logged α ε β} {r : Except ε β}
    (h : Gives action r) (threshold : Option Level) :
    (action.runFrom threshold).1 = r :=
  h (.start threshold)

theorem result_eq {action : Logged α ε β} {r : Except ε β}
    (h : Gives action r) : action.result = r :=
  h.runFrom none

theorem run_eq_result {action : Logged α ε β} {r : Except ε β}
    (h : Gives action r) (threshold : Option Level) :
    (action.runFrom threshold).1 = action.result := by
  rw [h.runFrom, h.result_eq]

theorem result_of_run {action : Logged α ε β} {r value : Except ε β}
    (h : Gives action r) {threshold : Option Level} {journal : Journal α}
    (hrun : action.runFrom threshold = (value, journal)) :
    action.result = value := by
  rw [← h.run_eq_result threshold, hrun]

theorem result {action : Logged α ε β} {r : Except ε β}
    (h : Gives action r) : Gives action action.result := by
  rw [h.result_eq]
  exact h

theorem pure (value : β) :
    Gives (Pure.pure value : Logged α ε β) (.ok value) :=
  fun _ => rfl

theorem log (notice : Notice α) :
    Gives (Logged.log notice : Logged α ε Unit) (.ok ()) :=
  fun _ => rfl

theorem ofExcept (r : Except ε β) :
    Gives (Logged.ofExcept r : Logged α ε β) r := by
  intro journal
  cases r <;> rfl

theorem modifyGet {f : Journal α → β × Journal α} {b : β}
    (h : ∀ journal, (f journal).1 = b) :
    Gives (MonadStateOf.modifyGet f : Logged α ε β) (.ok b) := by
  intro journal
  change Except.ok (f journal).1 = _
  rw [h]

theorem bind {action : Logged α ε β} {next : β → Logged α ε γ}
    {r : Except ε β} {s : β → Except ε γ}
    (h : Gives action r) (hnext : ∀ value, Gives (next value) (s value)) :
    Gives (action >>= next) (r >>= s) := by
  intro journal
  rw [runOn_bind, ← h journal]
  rcases action.runOn journal with ⟨first, after⟩
  cases first with
  | error failure => rfl
  | ok value => exact hnext value after

/-- A calculation that always gives the same value goes on with that value. -/
theorem after {action : Logged α ε β} {next : β → Logged α ε γ} {b : β}
    {r : Except ε γ} (h : Gives action (.ok b))
    (hnext : Gives (next b) r) : Gives (action >>= next) r := by
  intro journal
  have hvalue := h journal
  rw [runOn_bind]
  cases hrun : action.runOn journal with
  | mk first after =>
      rw [hrun] at hvalue
      subst hvalue
      exact hnext after

theorem forM_log (notices : List (Notice α)) :
    Gives (notices.forM Logged.log : Logged α ε Unit) (.ok ()) := by
  induction notices with
  | nil => exact .pure ()
  | cons notice notices ih => exact (log notice).after ih

theorem foldlM {step : γ → δ → Logged α ε γ} {s : γ → δ → Except ε γ}
    (h : ∀ state item, Gives (step state item) (s state item))
    (items : List δ) (state : γ) :
    Gives (items.foldlM step state) (items.foldlM s state) := by
  induction items generalizing state with
  | nil => exact .pure state
  | cons item items ih =>
      simp only [List.foldlM_cons]
      exact (h state item).bind ih

end Gives

end Logged

end CarrierTransport
