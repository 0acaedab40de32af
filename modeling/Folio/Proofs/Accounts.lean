/-
  What sinks take in.

  A plan that is carried out may meet failures and go on after them, so what a renderer wrote are
  the bytes that its sink accepted.

  1. **Steps of plans** — one equation for each kind of step (`outcome_run_write` and so on).
  2. **Accepted bytes** — `Plan.accepted`: what a sink takes of a plan, from a state.
  3. **Accounts** — `Sink.Accounts took`: the state shows all bytes the sink ever took.  If each
     write and each flush keeps this account, so does every plan (`Accounts.run`).
  4. **Buffers** — a buffer loses nothing: what was passed on and what is held make up what was
     accepted (`accounts_buffered`), and a flush that succeeds leaves nothing in it.
-/
import Folio.Proofs.Outcomes
import Folio.Render.Renderer

namespace Folio

variable {m : Type → Type} [Monad m] [Journal m] {σ : Type} [Stateful m σ]

/-! ## Steps of plans -/

section Steps

variable (sink : Sink m) (s : σ)

theorem outcome_run_done (result : Except RenderError Unit) :
    outcome ((Plan.done result).run sink) s = (result, s) :=
  outcome_settle result s

omit [Journal m] in
theorem outcome_send (bytes : ByteArray) :
    outcome (sink.send bytes) s =
      ((outcome (sink.write bytes) s).1.mapError WriteFailure.cause,
        (outcome (sink.write bytes) s).2) :=
  outcome_adapt WriteFailure.cause (sink.write bytes) s

theorem outcome_run_write (bytes : ByteArray) (next : Except IoError Unit → Plan) :
    outcome ((Plan.write bytes next).run sink) s =
      outcome ((next (outcome (sink.send bytes) s).1).run sink)
        (outcome (sink.send bytes) s).2 := by
  rw [Plan.run, outcome_bind, outcome_observe]

theorem outcome_run_flush (next : Except IoError Unit → Plan) :
    outcome ((Plan.flush next).run sink) s =
      outcome ((next (outcome sink.flush s).1).run sink) (outcome sink.flush s).2 := by
  rw [Plan.run, outcome_bind, outcome_observe]

theorem outcome_run_report (message : Message) (next : Plan) :
    outcome ((Plan.report message next).run sink) s =
      outcome (next.run sink) (steps (note message : m Unit) s).2 := by
  rw [Plan.run, outcome_bind, outcome_note]

end Steps

/-! ## Accepted bytes -/

/-- What a sink took of some bytes, by its answer. -/
def taken (bytes : ByteArray) : Except WriteFailure Unit → ByteArray
  | .ok () => bytes
  | .error failure => bytes.extract 0 failure.taken

/-- What was taken and what was not make up the whole. -/
theorem taken_append_rest (bytes : ByteArray) (failure : WriteFailure) :
    taken bytes (.error failure) ++ bytes.extract failure.taken bytes.size = bytes := by
  rw [taken, ByteArray.extract_append_extract]
  simp

theorem taken_none (bytes : ByteArray) (cause : IoError) :
    taken bytes (.error ⟨0, cause⟩) = .empty := ByteArray.extract_same

/-- The bytes that a sink takes of a plan that is carried out from a state. -/
def Plan.accepted (sink : Sink m) : Plan → σ → ByteArray
  | done _, _ => ByteArray.empty
  | write bytes next, s =>
    let (answer, s') := outcome (sink.write bytes) s
    taken bytes answer ++ accepted sink (next (answer.mapError WriteFailure.cause)) s'
  | flush next, s =>
    let (answer, s') := outcome sink.flush s
    accepted sink (next answer) s'
  | report message next, s => accepted sink next (steps (note message : m Unit) s).2

/-! ## Accounts -/

/-- The state shows which bytes the sink took in all: `took` relates the two. -/
structure Sink.Accounts (sink : Sink m) (took : ByteArray → σ → Prop) : Prop where
  write (total bytes : ByteArray) (s : σ) : took total s →
    took (total ++ taken bytes (outcome (sink.write bytes) s).1) (outcome (sink.write bytes) s).2
  flush (total : ByteArray) (s : σ) : took total s → took total (outcome sink.flush s).2
  note (total : ByteArray) (message : Message) (s : σ) :
    took total s → took total (steps (note message : m Unit) s).2

variable {took : ByteArray → σ → Prop}

/-- **Every plan keeps the account.** -/
theorem Sink.Accounts.run {sink : Sink m} (h : sink.Accounts took) (plan : Plan) :
    ∀ (total : ByteArray) (s : σ), took total s →
      took (total ++ plan.accepted sink s) (outcome (plan.run sink) s).2 := by
  -- the account is that of all bytes so far, so it is carried through whatever the answers were
  induction plan with
  | done result =>
    intro total s htook
    rw [Plan.accepted, outcome_run_done, ByteArray.append_empty]
    exact htook
  | write bytes next ih =>
    intro total s htook
    have hwrite := h.write total bytes s htook
    rw [Plan.accepted, outcome_run_write, outcome_send, ← ByteArray.append_assoc]
    exact ih _ _ _ hwrite
  | flush next ih =>
    intro total s htook
    have hflush := h.flush total s htook
    rw [Plan.accepted, outcome_run_flush]
    exact ih (outcome sink.flush s).1 _ _ hflush
  | report message next ih =>
    intro total s htook
    have hnote := h.note total message s htook
    rw [Plan.accepted, outcome_run_report]
    exact ih _ _ hnote

/-! ## Buffers -/

/-- Of the bytes in all, some were passed on and the others are held. -/
def Holding (took : ByteArray → σ → Prop) (total : ByteArray) (s : ByteArray × σ) : Prop :=
  ∃ passed, took passed s.2 ∧ passed ++ s.1 = total

namespace Sink.Accounts

variable {inner : Sink m} {total : ByteArray}

/-- Emptying a buffer passes on what it holds.  What is not taken stays there. -/
theorem emptyBuffer (h : inner.Accounts took) (s : ByteArray × σ)
    (hholding : Holding took total s) :
    Holding took total (outcome inner.emptyBuffer s).2 ∧
      ((outcome inner.emptyBuffer s).1 = .ok () → (outcome inner.emptyBuffer s).2.1 = .empty) := by
  obtain ⟨passed, htook, rfl⟩ := hholding
  have hwrite := h.write passed s.1 s.2 htook
  unfold Sink.emptyBuffer
  rw [outcome_bind, outcome_get]
  simp only
  by_cases hsize : s.1.size = 0
  · have hempty : s.1 = .empty := ByteArray.size_eq_zero_iff.1 hsize
    simp [hempty, Holding, htook]
  · simp only [ne_eq, hsize, not_false_eq_true, if_true]
    rw [outcome_bind, outcome_observe, outcome_besideState]
    rcases outcome_cases (inner.write s.1) s.2 with ⟨_, s', hanswer⟩ | ⟨failure, s', hanswer⟩
    · rw [hanswer] at hwrite ⊢
      simpa [Holding, taken] using hwrite
    · rw [hanswer] at hwrite ⊢
      simp only
      rw [outcome_bind_of_ok (outcome_set _ _), outcome_throw]
      refine ⟨⟨_, hwrite, ?_⟩, fun hok => by cases hok⟩
      rw [ByteArray.append_assoc, taken_append_rest]

/-- Bytes are stored behind those that are held; they go past the buffer only if it is empty. -/
theorem store (h : inner.Accounts took) (capacity : Nat) (bytes : ByteArray) (s : ByteArray × σ)
    (hholding : Holding took total s) (hempty : capacity ≤ bytes.size → s.1 = .empty) :
    Holding took (total ++ taken bytes (outcome (inner.store capacity bytes) s).1)
      (outcome (inner.store capacity bytes) s).2 := by
  obtain ⟨passed, htook, rfl⟩ := hholding
  unfold Sink.store
  by_cases hlarge : capacity ≤ bytes.size
  · have hwrite := h.write passed bytes s.2 htook
    rw [if_pos hlarge, outcome_besideState, hempty hlarge]
    refine ⟨_, hwrite, ?_⟩
    rw [ByteArray.append_empty, ByteArray.append_empty]
  · rw [if_neg hlarge, outcome_modify]
    exact ⟨passed, htook, (ByteArray.append_assoc ..).symm⟩

end Sink.Accounts

/-- **A buffer loses nothing.** -/
theorem accounts_buffered {inner : Sink m} (h : inner.Accounts took) (capacity : Nat) :
    (inner.buffered capacity).Accounts (Holding took) where
  write total bytes s hholding := by
    unfold Sink.buffered
    simp only
    rw [outcome_bind, outcome_get]
    simp only
    split
    · next hfull =>
      -- the buffer is emptied first, and nothing is stored if that fails
      obtain ⟨hheld, hempty⟩ := h.emptyBuffer s hholding
      rcases outcome_cases inner.emptyBuffer s with ⟨_, s', hanswer⟩ | ⟨error, s', hanswer⟩
      · rw [hanswer] at hheld hempty
        rw [outcome_bind_of_ok (outcome_adapt_of_ok hanswer)]
        exact h.store capacity bytes s' hheld fun _ => hempty rfl
      · rw [hanswer] at hheld
        rw [outcome_bind_of_error (outcome_adapt_of_error hanswer), taken_none,
          ByteArray.append_empty]
        exact hheld
    · next hroom =>
      refine h.store capacity bytes s hholding fun hlarge => ?_
      have hsize : s.1.size = 0 := by omega
      exact ByteArray.size_eq_zero_iff.1 hsize
  flush total s hholding := by
    obtain ⟨hheld, -⟩ := h.emptyBuffer s hholding
    show Holding took total (outcome (inner.emptyBuffer >>= fun _ => besideState inner.flush) s).2
    rcases outcome_cases inner.emptyBuffer s with ⟨_, s', hanswer⟩ | ⟨error, s', hanswer⟩
    · rw [hanswer] at hheld
      obtain ⟨passed, htook, htotal⟩ := hheld
      rw [outcome_bind_of_ok hanswer, outcome_besideState]
      exact ⟨passed, h.flush passed s'.2 htook, htotal⟩
    · rw [hanswer] at hheld
      rw [outcome_bind_of_error hanswer]
      exact hheld
  note total message s hholding := by
    obtain ⟨passed, htook, htotal⟩ := hholding
    rw [steps_note]
    exact ⟨passed, h.note passed message s.2 htook, htotal⟩

/-- After a flush that succeeds, everything was passed on. -/
theorem took_of_flush_buffered {inner : Sink m} (h : inner.Accounts took) {capacity : Nat}
    {total : ByteArray} {s s' : ByteArray × σ} (hholding : Holding took total s)
    (hflush : outcome (inner.buffered capacity).flush s = (.ok (), s')) : took total s'.2 := by
  obtain ⟨hheld, hempty⟩ := h.emptyBuffer s hholding
  obtain ⟨_, between, hemptied, hinner⟩ := outcome_bind_eq_ok hflush
  rw [hemptied] at hheld hempty
  obtain ⟨passed, htook, rfl⟩ := hheld
  have hpassed := h.flush passed between.2 htook
  have hs' : (outcome inner.flush between.2).2 = s'.2 := by
    rw [outcome_besideState] at hinner
    exact congrArg (fun reached => reached.2.2) hinner
  rw [hempty rfl, ByteArray.append_empty]
  exact hs' ▸ hpassed

end Folio
