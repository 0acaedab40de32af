/-
  What the command line does.

  A template is read, compiled under the options that the arguments select and written as JSON,
  either to standard output, followed by a line break, or to a file.  The exit code tells success
  from failure and from misuse.
-/
import Folio.CommandLine.Arguments
import Folio.Pipeline.Builder

namespace Folio.CommandLine

variable {φ : Type} {m : Type → Type} [Monad m] [Journal m]

/-- How a run ends. -/
inductive Outcome where
  | success
  | failure (error : PipelineError)
  | misuse

/-- The exit code of an outcome. -/
def Outcome.exitCode : Outcome → Nat
  | success => 0
  | failure _ => 1
  | misuse => 2

/-- The description of the usage. -/
def usage : String :=
  "Compile a JSON element tree into a document definition\n\n" ++
  "Usage: folio [OPTIONS] <TEMPLATE>\n\n" ++
  "  <TEMPLATE>                   Path to the JSON template\n" ++
  "  -o, --output <OUTPUT>        Write the output here instead of to standard output\n" ++
  "      --strict                 Fail on tags outside the known vocabulary\n" ++
  "      --keep-zero              Keep zeros instead of dropping them as blank\n" ++
  "      --font-dir <DIRECTORY>   Directory of the font files\n" ++
  "      --font-family <FAMILY>   Font family, used as file stem and default font\n" ++
  "      --pretty                 Indent the output\n" ++
  "  -h, --help                   Print this description\n"

/-- The pipeline that the arguments select. -/
def Arguments.pipeline (arguments : Arguments) : ExceptT PipelineError m Pipeline := do
  let builder := (({} : PipelineBuilder).withStrictTags arguments.strict)
    |>.withDropZero (!arguments.keepZero)
    |>.withRenderer (.json (if arguments.pretty then .indented else .compact))
  match arguments.font with
  | none => builder.build
  | some (directory, family) =>
    let builder ← builder.withFontFamily family (.ofDirectory directory family)
    (builder.withDefaultStyle (Options.styleOfFont family)).build

/-- Compiles a template and writes the result. -/
def Arguments.run (arguments : Arguments) (disk : Disk φ m) (standardOutput : Sink m) :
    ExceptT PipelineError m Unit := do
  let root ← Template.load disk arguments.template
  let pipeline ← arguments.pipeline
  match arguments.output with
  | some path => pipeline.renderToFile Library.none root disk path
  | none =>
    pipeline.render Library.none root standardOutput
    (standardOutput.send "\n".toUTF8).adapt .io

/-- Carries out a command line. -/
def run (disk : Disk φ m) (standardOutput : Sink m) (arguments : List String) : m Outcome := do
  match Request.ofArguments arguments with
  | .misuse => return .misuse
  | .help =>
    let _ ← (standardOutput.send usage.toUTF8).run
    return .success
  | .run arguments =>
    match ← (arguments.run disk standardOutput).run with
    | .ok () => return .success
    | .error error => return .failure error

end Folio.CommandLine
