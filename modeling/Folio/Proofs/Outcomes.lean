/-
  Runs that are steps of a state.

  Of a run in just any monad nothing can be said about what it does to the world.  Where each action
  takes a state to the next one (`Stateful`), a run that may fail has an `outcome` from each state:
  what comes of it, and the state it leaves.

  1. **Steps** — state monads, and any monad of this kind with one more state.
  2. **Outcomes** — one equation for each way to build a run (`outcome_bind` and so on), also with
     one more state; `Beside run' run`: the one run does what the other does, beside that state.
  3. **Views** — `Keeps view run`: whatever the run does, a view of the state stays as it is.
  4. **Errors** — `Avoids bad run`: whatever the run fails with, it is not one of these errors.
-/
import Folio.Journal

namespace Folio

/-! ## Steps -/

/-- A monad whose actions are steps of a state. -/
class Stateful (m : Type → Type) [Monad m] (σ : outParam Type) where
  steps : m α → σ → α × σ
  steps_pure (value : α) (s : σ) : steps (pure value) s = (value, s)
  steps_map (change : α → β) (action : m α) (s : σ) :
    steps (change <$> action) s = (change (steps action s).1, (steps action s).2)
  steps_bind (action : m α) (next : α → m β) (s : σ) :
    steps (action >>= next) s = steps (next (steps action s).1) (steps action s).2

export Stateful (steps steps_pure steps_map steps_bind)

instance : Stateful (StateM σ) σ where
  steps action s := action s
  steps_pure _ _ := rfl
  steps_map _ _ _ := rfl
  steps_bind _ _ _ := rfl

/-- One more state stands beside the one that is there. -/
instance [Monad m] [Stateful m σ] : Stateful (StateT β m) (β × σ) where
  steps action s :=
    let reached := steps (action.run s.1) s.2
    (reached.1.1, (reached.1.2, reached.2))
  steps_pure value s := by
    have hpure := steps_pure (m := m) (value, s.1) s.2
    exact congrArg (fun reached => (reached.1.1, (reached.1.2, reached.2))) hpure
  steps_map change action s := by
    have hmap := steps_bind (action.run s.1) (fun reached => pure (change reached.1, reached.2)) s.2
    rw [steps_pure] at hmap
    exact congrArg (fun reached => (reached.1.1, (reached.1.2, reached.2))) hmap
  steps_bind action next s := by
    have hbind := steps_bind (action.run s.1) (fun reached => (next reached.1).run reached.2) s.2
    exact congrArg (fun reached => (reached.1.1, (reached.1.2, reached.2))) hbind

variable {m : Type → Type} [Monad m] {σ τ β ε ε' α γ : Type}

/-! ## Outcomes -/

section Outcomes

variable [Stateful m σ]

/-- What comes of a run from a state, and the state it leaves. -/
def outcome (run : ExceptT ε m α) (s : σ) : Except ε α × σ := steps run.run s

@[simp] theorem outcome_pure (value : α) (s : σ) :
    outcome (pure value : ExceptT ε m α) s = (.ok value, s) := steps_pure _ s

@[simp] theorem outcome_settle (result : Except ε α) (s : σ) :
    outcome (settle result : ExceptT ε m α) s = (result, s) := steps_pure _ s

@[simp] theorem outcome_throw (error : ε) (s : σ) :
    outcome (throw error : ExceptT ε m α) s = (.error error, s) := steps_pure _ s

/-- A run either comes to a value or fails. -/
theorem outcome_cases (run : ExceptT ε m α) (s : σ) :
    (∃ value s', outcome run s = (.ok value, s')) ∨
      ∃ error s', outcome run s = (.error error, s') := by
  obtain ⟨error | value, s'⟩ := outcome run s
  · exact .inr ⟨_, s', rfl⟩
  · exact .inl ⟨_, s', rfl⟩

/-- A failure ends the run; after a success the rest goes on from the state that was left. -/
theorem outcome_bind (run : ExceptT ε m α) (next : α → ExceptT ε m γ) (s : σ) :
    outcome (run >>= next) s =
      match outcome run s with
      | (.ok value, s') => outcome (next value) s'
      | (.error error, s') => (.error error, s') := by
  have hbind := steps_bind run.run (ExceptT.bindCont next) s
  unfold outcome
  cases hrun : steps run.run s with
  | mk result s' =>
    rw [hrun] at hbind
    cases result with
    | ok value => exact hbind
    | error error => exact hbind.trans (steps_pure _ s')

theorem outcome_bind_of_ok {run : ExceptT ε m α} {next : α → ExceptT ε m γ} {value : α} {s s' : σ}
    (h : outcome run s = (.ok value, s')) :
    outcome (run >>= next) s = outcome (next value) s' := by
  rw [outcome_bind, h]

theorem outcome_bind_of_error {run : ExceptT ε m α} {next : α → ExceptT ε m γ} {error : ε}
    {s s' : σ} (h : outcome run s = (.error error, s')) :
    outcome (run >>= next) s = (.error error, s') := by
  rw [outcome_bind, h]

@[simp] theorem outcome_lift (action : m α) (s : σ) :
    outcome (ExceptT.lift action : ExceptT ε m α) s =
      (.ok (steps action s).1, (steps action s).2) :=
  steps_map Except.ok action s

@[simp] theorem outcome_liftM (action : m α) (s : σ) :
    outcome (liftM action : ExceptT ε m α) s = (.ok (steps action s).1, (steps action s).2) :=
  outcome_lift action s

@[simp] theorem outcome_observe (run : ExceptT ε m α) (s : σ) :
    outcome (observe run : ExceptT ε' m (Except ε α)) s =
      (.ok (outcome run s).1, (outcome run s).2) :=
  outcome_lift run.run s

@[simp] theorem outcome_adapt (rename : ε → ε') (run : ExceptT ε m α) (s : σ) :
    outcome (run.adapt rename) s = ((outcome run s).1.mapError rename, (outcome run s).2) :=
  steps_map (Except.mapError rename) run.run s

@[simp] theorem outcome_note [Journal m] (message : Message) (s : σ) :
    outcome (note message : ExceptT ε m Unit) s =
      (.ok (), (steps (note message : m Unit) s).2) :=
  outcome_lift (note message) s

/-- A success of two runs in a row. -/
theorem outcome_bind_eq_ok {run : ExceptT ε m α} {next : α → ExceptT ε m γ} {value : γ} {s s' : σ}
    (h : outcome (run >>= next) s = (.ok value, s')) :
    ∃ between t, outcome run s = (.ok between, t) ∧ outcome (next between) t = (.ok value, s') := by
  rcases outcome_cases run s with ⟨between, t, hrun⟩ | ⟨error, t, hrun⟩
  · rw [outcome_bind_of_ok hrun] at h
    exact ⟨between, t, hrun, h⟩
  · rw [outcome_bind_of_error hrun] at h
    cases h

theorem outcome_adapt_of_ok {rename : ε → ε'} {run : ExceptT ε m α} {value : α} {s s' : σ}
    (h : outcome run s = (.ok value, s')) : outcome (run.adapt rename) s = (.ok value, s') := by
  rw [outcome_adapt, h]
  rfl

theorem outcome_adapt_of_error {rename : ε → ε'} {run : ExceptT ε m α} {error : ε} {s s' : σ}
    (h : outcome run s = (.error error, s')) :
    outcome (run.adapt rename) s = (.error (rename error), s') := by
  rw [outcome_adapt, h]
  rfl

theorem outcome_adapt_eq_ok {rename : ε → ε'} {run : ExceptT ε m α} {value : α} {s s' : σ}
    (h : outcome (run.adapt rename) s = (.ok value, s')) : outcome run s = (.ok value, s') := by
  rcases outcome_cases run s with ⟨reached, t, hrun⟩ | ⟨error, t, hrun⟩
  · rw [outcome_adapt, hrun] at h
    cases h
    exact hrun
  · rw [outcome_adapt, hrun] at h
    cases h

end Outcomes

/-! ## One more state -/

section Beside

variable [Stateful m σ]

theorem steps_beside {action : StateT β m α} {s : β × σ} {value : α} {own : β} {rest : σ}
    (h : steps (action.run s.1) s.2 = ((value, own), rest)) :
    steps action s = (value, (own, rest)) := by
  show ((steps (action.run s.1) s.2).1.1, _) = _
  rw [h]

theorem steps_get (s : β × σ) : steps (get : StateT β m β) s = (s.1, s) :=
  steps_beside (steps_pure (s.1, s.1) s.2)

theorem steps_set (own : β) (s : β × σ) :
    steps (set own : StateT β m PUnit) s = ((), (own, s.2)) :=
  steps_beside (steps_pure ((), own) s.2)

theorem steps_modify (change : β → β) (s : β × σ) :
    steps (modify change : StateT β m PUnit) s = ((), (change s.1, s.2)) :=
  steps_beside (steps_pure ((), change s.1) s.2)

theorem steps_lift (action : m α) (s : β × σ) :
    steps (StateT.lift action : StateT β m α) s =
      ((steps action s.2).1, (s.1, (steps action s.2).2)) := by
  refine steps_beside ((steps_bind action (fun value => pure (value, s.1)) s.2).trans ?_)
  rw [steps_pure]

theorem steps_note [Journal m] (message : Message) (s : β × σ) :
    steps (note message : StateT β m Unit) s =
      ((), (s.1, (steps (note message : m Unit) s.2).2)) :=
  steps_lift (note message) s

@[simp] theorem outcome_besideState (run : ExceptT ε m α) (s : β × σ) :
    outcome (besideState run : ExceptT ε (StateT β m) α) s =
      ((outcome run s.2).1, (s.1, (outcome run s.2).2)) :=
  steps_lift run.run s

@[simp] theorem outcome_get (s : β × σ) :
    outcome (get : ExceptT ε (StateT β m) β) s = (.ok s.1, s) := by
  refine (outcome_lift (get : StateT β m β) s).trans ?_
  rw [steps_get]

@[simp] theorem outcome_set (own : β) (s : β × σ) :
    outcome (set own : ExceptT ε (StateT β m) PUnit) s = (.ok (), (own, s.2)) := by
  refine (outcome_lift (set own : StateT β m PUnit) s).trans ?_
  rw [steps_set]

@[simp] theorem outcome_modify (change : β → β) (s : β × σ) :
    outcome (modify change : ExceptT ε (StateT β m) PUnit) s = (.ok (), (change s.1, s.2)) := by
  refine (outcome_lift (modify change : StateT β m PUnit) s).trans ?_
  rw [steps_modify]

/-- A run that is given its own state to start from. -/
theorem outcome_lift_run (run : ExceptT ε (StateT β m) α) (own : β) (s : σ) :
    outcome (ExceptT.lift (run.run.run own) : ExceptT ε' m (Except ε α × β)) s =
      (.ok ((outcome run (own, s)).1, (outcome run (own, s)).2.1), (outcome run (own, s)).2.2) := by
  rw [outcome_lift]
  rfl

/-- The run does what another does, and leaves the state beside it alone. -/
def Beside (run' : ExceptT ε (StateT β m) α) (run : ExceptT ε m α) : Prop :=
  ∀ own s, outcome run' (own, s) = ((outcome run s).1, (own, (outcome run s).2))

theorem beside_pure (value : α) :
    Beside (pure value : ExceptT ε (StateT β m) α) (pure value : ExceptT ε m α) := by
  intro own s
  rw [outcome_pure, outcome_pure]

theorem beside_throw (error : ε) :
    Beside (throw error : ExceptT ε (StateT β m) α) (throw error : ExceptT ε m α) := by
  intro own s
  rw [outcome_throw, outcome_throw]

theorem beside_settle (result : Except ε α) :
    Beside (settle result : ExceptT ε (StateT β m) α) (settle result : ExceptT ε m α) := by
  intro own s
  rw [outcome_settle, outcome_settle]

theorem beside_observe {run' : ExceptT ε (StateT β m) α} {run : ExceptT ε m α}
    (h : Beside run' run) : Beside (observe run' : ExceptT ε' (StateT β m) (Except ε α))
      (observe run : ExceptT ε' m (Except ε α)) := by
  intro own s
  rw [outcome_observe, outcome_observe, h own s]

theorem beside_bind {run' : ExceptT ε (StateT β m) α} {run : ExceptT ε m α}
    {next' : α → ExceptT ε (StateT β m) γ} {next : α → ExceptT ε m γ} (hrun : Beside run' run)
    (hnext : ∀ value, Beside (next' value) (next value)) :
    Beside (run' >>= next') (run >>= next) := by
  intro own s
  have hfirst := hrun own s
  rcases outcome_cases run s with ⟨value, s', hok⟩ | ⟨error, s', herror⟩
  · rw [hok] at hfirst
    rw [outcome_bind_of_ok hfirst, outcome_bind_of_ok hok, hnext value own s']
  · rw [herror] at hfirst
    rw [outcome_bind_of_error hfirst, outcome_bind_of_error herror]

end Beside

/-! ## Views -/

section Views

variable [Stateful m σ] {view : σ → τ}

/-- Whatever the run does, this view of the state stays as it is. -/
def Keeps (view : σ → τ) (run : ExceptT ε m α) : Prop := ∀ s, view (outcome run s).2 = view s

theorem keeps_pure (value : α) : Keeps view (pure value : ExceptT ε m α) := by
  intro s
  rw [outcome_pure]

theorem keeps_throw (error : ε) : Keeps view (throw error : ExceptT ε m α) := by
  intro s
  rw [outcome_throw]

theorem keeps_bind {run : ExceptT ε m α} {next : α → ExceptT ε m γ} (hrun : Keeps view run)
    (hnext : ∀ value, Keeps view (next value)) : Keeps view (run >>= next) := by
  intro s
  have hs := hrun s
  rcases outcome_cases run s with ⟨value, s', hfirst⟩ | ⟨error, s', hfirst⟩
  · rw [hfirst] at hs
    rw [outcome_bind_of_ok hfirst]
    exact (hnext value s').trans hs
  · rw [hfirst] at hs
    rw [outcome_bind_of_error hfirst]
    exact hs

theorem keeps_adapt {run : ExceptT ε m α} (h : Keeps view run) (rename : ε → ε') :
    Keeps view (run.adapt rename) := by
  intro s
  rw [outcome_adapt]
  exact h s

end Views

/-! ## Errors -/

section Errors

variable [Stateful m σ] {bad : ε → Prop}

/-- Whatever the run fails with, it is not one of these errors. -/
def Avoids (bad : ε → Prop) (run : ExceptT ε m α) : Prop :=
  ∀ s error, (outcome run s).1 = .error error → ¬bad error

theorem avoids_note [Journal m] (message : Message) :
    Avoids bad (note message : ExceptT ε m Unit) := by
  intro s error herror
  rw [outcome_note] at herror
  cases herror

/-- The second run need only avoid these errors after what the first can result in. -/
theorem avoids_bind {run : ExceptT ε m α} {next : α → ExceptT ε m γ} (hrun : Avoids bad run)
    (hnext : ∀ value s s', outcome run s = (.ok value, s') → Avoids bad (next value)) :
    Avoids bad (run >>= next) := by
  intro s error herror
  rcases outcome_cases run s with ⟨value, s', hfirst⟩ | ⟨error', s', hfirst⟩
  · rw [outcome_bind_of_ok hfirst] at herror
    exact hnext value s s' hfirst s' error herror
  · rw [outcome_bind_of_error hfirst] at herror
    cases herror
    exact hrun s error (congrArg Prod.fst hfirst)

/-- Errors that are renamed have to be avoided under their new names. -/
theorem avoids_adapt {run : ExceptT ε m α} {rename : ε → ε'} {bad : ε' → Prop}
    (h : Avoids (fun error => bad (rename error)) run) : Avoids bad (run.adapt rename) := by
  intro s error herror
  rcases outcome_cases run s with ⟨value, s', hrun⟩ | ⟨error', s', hrun⟩
  · rw [outcome_adapt, hrun] at herror
    cases herror
  · rw [outcome_adapt, hrun] at herror
    cases herror
    exact h s error' (congrArg Prod.fst hrun)

/-- None of the new names may be bad. -/
theorem avoids_adapt_of_forall {run : ExceptT ε m α} {rename : ε → ε'} {bad : ε' → Prop}
    (h : ∀ error, ¬bad (rename error)) : Avoids bad (run.adapt rename) :=
  avoids_adapt fun _ error _ => h error

end Errors

end Folio
