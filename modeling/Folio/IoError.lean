/-
  What can go wrong with files and writers, and how failures are passed between layers.
-/

namespace Folio

/-- Why an operation on a file or a writer failed. -/
inductive IoError where
  | notFound
  | alreadyExists
  | notADirectory
  | isADirectory
  | nameTooLong
  /-- A path leads through too many links. -/
  | tooManyLinks
  /-- A path has a NUL in it, which no path may have. -/
  | nulInPath
  /-- The bytes read are not text. -/
  | notText
  /-- Any other failure, in its own words. -/
  | other (reason : String)
  /-- A template could not be read. -/
  | readingTemplate (path : String) (cause : IoError)
  /-- An output file could not be created. -/
  | creatingOutput (path : String) (cause : IoError)
  deriving DecidableEq, Repr

/-- The failure in words. -/
def IoError.message : IoError → String
  | notFound => "No such file or directory (os error 2)"
  | alreadyExists => "File exists (os error 17)"
  | notADirectory => "Not a directory (os error 20)"
  | isADirectory => "Is a directory (os error 21)"
  | nameTooLong => "File name too long (os error 36)"
  | tooManyLinks => "Too many levels of symbolic links (os error 40)"
  | nulInPath => "file name contained an unexpected NUL byte"
  | notText => "stream did not contain valid UTF-8"
  | other reason => reason
  | readingTemplate path cause => s!"Failed to read template from '{path}': {cause.message}"
  | creatingOutput path cause => s!"Failed to create output file '{path}': {cause.message}"

/-- A write that failed, and how many of the bytes were taken before that. -/
structure WriteFailure where
  taken : Nat
  cause : IoError
  deriving DecidableEq, Repr

/-! ## Failures between layers -/

variable {ε ε' σ α β : Type} {m : Type → Type} [Monad m]

/-- The outcome of an action as a value, so that a failure can be looked at. -/
def observe (action : ExceptT ε m α) : ExceptT ε' m (Except ε α) := ExceptT.lift action.run

/-- An action that leaves an additional state alone. -/
def besideState (action : ExceptT ε m α) : ExceptT ε (StateT σ m) α :=
  ExceptT.mk (StateT.lift action.run)

/-- A computed outcome as an action. -/
def settle (outcome : Except ε α) : ExceptT ε m α := ExceptT.mk (pure outcome)

/-- What a success of two computations in a row is made of. -/
theorem bind_eq_ok_iff {first : Except ε α} {next : α → Except ε β} {value : β} :
    first >>= next = .ok value ↔ ∃ between, first = .ok between ∧ next between = .ok value := by
  constructor
  · intro h
    cases first with
    | error error => cases h
    | ok between => exact ⟨between, rfl, h⟩
  · rintro ⟨between, rfl, h⟩
    exact h

/-- A success is one under any names for the failures. -/
theorem mapError_eq_ok_iff {rename : ε → ε'} {result : Except ε α} {value : α} :
    result.mapError rename = .ok value ↔ result = .ok value := by
  cases result with
  | error error =>
    constructor
    · intro h
      cases h
    · intro h
      cases h
  | ok reached =>
    constructor
    · intro h
      cases h
      rfl
    · intro h
      cases h
      rfl

end Folio
