/-
  What a run can result in.

  `Yields holds run`: whenever the run results in a value, the value satisfies `holds`.  Rendering
  may have effects in any monad, so a run cannot be looked into; instead it is the same as a run
  whose results carry the proof.  A pure run can be looked into, and there the reading is the
  expected one (`yields_id_iff`).

  There is one lemma for each way to build a run: `Yields.pure`, `.throw`, `.bind` and so on.
-/
import Folio.Compile.Error
import Folio.Journal

namespace Folio

variable {α β : Type} {m : Type → Type} [Monad m] {holds keeps : α → Prop}

/-- Whatever the run results in, if it does, satisfies `holds`. -/
def Yields (holds : α → Prop) (run : ExceptT CompileError m α) : Prop :=
  ∃ certified : ExceptT CompileError m { value // holds value }, Subtype.val <$> certified = run

namespace Yields

section

variable [LawfulMonad m]

theorem pure {value : α} (h : holds value) :
    Yields holds (Pure.pure value : ExceptT CompileError m α) :=
  ⟨Pure.pure ⟨value, h⟩, map_pure Subtype.val _⟩

theorem throw (error : CompileError) :
    Yields holds (MonadExcept.throw error : ExceptT CompileError m α) := by
  refine ⟨MonadExcept.throw error, ?_⟩
  apply ExceptT.ext
  simp

/-- Any run yields something. -/
theorem any {run : ExceptT CompileError m α} : Yields (fun _ => True) run := by
  refine ⟨(fun value => ⟨value, trivial⟩) <$> run, ?_⟩
  rw [← comp_map]
  exact id_map run

theorem mono {run : ExceptT CompileError m α} (h : Yields holds run)
    (himp : ∀ value, holds value → keeps value) : Yields keeps run := by
  obtain ⟨certified, rfl⟩ := h
  refine ⟨(fun value => ⟨value.1, himp value.1 value.2⟩) <$> certified, ?_⟩
  rw [← comp_map]
  rfl

/-- One run after another. -/
theorem bind {holds' : β → Prop} {run : ExceptT CompileError m α}
    {next : α → ExceptT CompileError m β} (h : Yields holds run)
    (hnext : ∀ value, holds value → Yields holds' (next value)) : Yields holds' (run >>= next) := by
  obtain ⟨certified, rfl⟩ := h
  let after (value : { value // holds value }) := Classical.choose (hnext value.1 value.2)
  have hafter (value : { value // holds value }) : Subtype.val <$> after value = next value.1 :=
    Classical.choose_spec (hnext value.1 value.2)
  refine ⟨certified >>= after, ?_⟩
  rw [map_bind, bind_map_left]
  simp only [hafter]

/-- A run after one of which nothing is known. -/
theorem after {holds' : β → Prop} {run : ExceptT CompileError m α}
    {next : α → ExceptT CompileError m β} (hnext : ∀ value, Yields holds' (next value)) :
    Yields holds' (run >>= next) :=
  any.bind fun value _ => hnext value

/-- What follows a run need only be the same for the values it may result in. -/
theorem bind_congr {run : ExceptT CompileError m α} {next next' : α → ExceptT CompileError m β}
    (h : Yields holds run) (hnext : ∀ value, holds value → next value = next' value) :
    run >>= next = run >>= next' := by
  obtain ⟨certified, rfl⟩ := h
  have hcertified (value : { value // holds value }) : next value.1 = next' value.1 :=
    hnext value.1 value.2
  rw [bind_map_left, bind_map_left]
  simp only [hcertified]

end

end Yields

/-- In a pure run, the result satisfies it. -/
theorem yields_id_iff {run : ExceptT CompileError Id α} :
    Yields holds run ↔ ∀ value, run = pure value → holds value := by
  constructor
  · rintro ⟨certified, rfl⟩ value h
    cases certified with
    | error error => cases h
    | ok certificate =>
      cases h
      exact certificate.2
  · intro h
    cases run with
    | error error => exact ⟨.error error, rfl⟩
    | ok value => exact ⟨.ok ⟨value, h value rfl⟩, rfl⟩

end Folio
