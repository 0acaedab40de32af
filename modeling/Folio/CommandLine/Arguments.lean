/-
  Reading the arguments of the command line.

  Options and the one positional argument, the template, come in any order, and each is given at
  most once.  An option's value stands after `=`, or directly behind its short name, or as the next
  argument, which then must not look like an option.  After `--` all arguments are positional.  The
  arguments are read from the left, and the first that is misplaced, repeated or a request for help
  decides what becomes of the command line.
-/
import Folio.Files.Path

namespace Folio.CommandLine

/-- What the program is asked to do. -/
structure Arguments where
  template : Path
  output : Option Path := none
  strict : Bool := false
  keepZero : Bool := false
  /-- The directory and the name of the font family to use. -/
  font : Option (Path × String) := none
  pretty : Bool := false

/-- What the command line asks for. -/
inductive Request where
  | run (arguments : Arguments)
  /-- A description of the usage. -/
  | help
  /-- The arguments make no sense. -/
  | misuse

/-- The options that take no value. -/
inductive Flag where
  | strict
  | keepZero
  | pretty
  deriving DecidableEq

/-- The options that take a value. -/
inductive Valued where
  | output
  | fontDirectory
  | fontFamily
  deriving DecidableEq

/-- What has been given so far. -/
structure Given where
  flags : List Flag := []
  template : Option Path := none
  output : Option Path := none
  fontDirectory : Option Path := none
  fontFamily : Option String := none

namespace Given

/-- A path that is given for the first time; it is not empty. -/
def newPath? (old : Option Path) (text : String) : Option Path :=
  if old.isSome || text.isEmpty then none else some ⟨text⟩

/-- With one more flag. -/
def setFlag? (given : Given) (flag : Flag) : Option Given :=
  if flag ∈ given.flags then none else some { given with flags := flag :: given.flags }

/-- With the template. -/
def setTemplate? (given : Given) (text : String) : Option Given := do
  return { given with template := some (← newPath? given.template text) }

/-- With the value of one more option. -/
def setValue? (given : Given) (option : Valued) (value : String) : Option Given := do
  match option with
  | .output => return { given with output := some (← newPath? given.output value) }
  | .fontDirectory =>
    return { given with fontDirectory := some (← newPath? given.fontDirectory value) }
  | .fontFamily =>
    if given.fontFamily.isSome then none else return { given with fontFamily := some value }

/-- The arguments that were given, if they go together: there is a template, and of a font both the
    directory and the name or neither. -/
def arguments? (given : Given) : Option Arguments := do
  let font ← match given.fontDirectory, given.fontFamily with
    | some directory, some family => some (some (directory, family))
    | none, none => some none
    | _, _ => none
  return {
    template := ← given.template
    output := given.output
    strict := given.flags.contains .strict
    keepZero := given.flags.contains .keepZero
    font
    pretty := given.flags.contains .pretty }

end Given

def flag? : String → Option Flag
  | "strict" => some .strict
  | "keep-zero" => some .keepZero
  | "pretty" => some .pretty
  | _ => none

def valued? : String → Option Valued
  | "output" => some .output
  | "font-dir" => some .fontDirectory
  | "font-family" => some .fontFamily
  | _ => none

/-- Whether an argument can stand where a value or a template is expected. -/
def isPlain (argument : String) : Bool :=
  argument == "-" || argument.toList.head? != some '-'

/-- Splits at the first `=`. -/
def splitAtEquals (text : List Char) : String × Option String :=
  (String.ofList (text.takeWhile (· ≠ '=')),
    match text.dropWhile (· ≠ '=') with
    | [] => none
    | _ :: value => some (String.ofList value))

/-- What one argument means by itself. -/
inductive Meaning where
  | flag (flag : Flag)
  | value (option : Valued) (value : String)
  /-- An option whose value is the next argument. -/
  | pending (option : Valued)
  | positional (text : String)
  /-- All that follows is positional. -/
  | endOfOptions
  | help
  | none

/-- The meaning of an argument. -/
def meaning (argument : String) : Meaning :=
  match argument.toList with
  | ['-'] => .positional argument
  | ['-', '-'] => .endOfOptions
  | '-' :: '-' :: long =>
    match splitAtEquals long with
    | ("help", none) => .help
    | (name, value) =>
      match flag? name, valued? name, value with
      | some flag, _, none => .flag flag
      | _, some option, some value => .value option value
      | _, some option, none => .pending option
      | _, _, _ => .none
  | '-' :: 'h' :: _ => .help
  | ['-', 'o'] => .pending .output
  | '-' :: 'o' :: '=' :: value => .value .output (String.ofList value)
  | '-' :: 'o' :: value => .value .output (String.ofList value)
  | '-' :: _ => .none
  | _ => .positional argument

/-- What the rest of the arguments ask for, after some have been given. -/
def scan (given : Given) : List String → Request
  | [] => ofGiven given.arguments?
  | argument :: rest =>
    match meaning argument with
    | .flag flag =>
      match given.setFlag? flag with
      | some given => scan given rest
      | none => .misuse
    | .value option value =>
      match given.setValue? option value with
      | some given => scan given rest
      | none => .misuse
    | .pending option =>
      match rest with
      | [] => .misuse
      | value :: rest =>
        match (given.setValue? option value).filter fun _ => isPlain value with
        | some given => scan given rest
        | none => .misuse
    | .positional text =>
      match given.setTemplate? text with
      | some given => scan given rest
      | none => .misuse
    | .endOfOptions => ofGiven (rest.foldlM Given.setTemplate? given >>= Given.arguments?)
    | .help => .help
    | .none => .misuse
where
  /-- The end of the arguments: they go together or they do not. -/
  ofGiven : Option Arguments → Request
    | some arguments => .run arguments
    | none => .misuse

/-- Reads the arguments. -/
def Request.ofArguments (arguments : List String) : Request := scan {} arguments

end Folio.CommandLine
