/-
  Pipelines: from a template or a tree to a rendered document.

  A pipeline holds the options, the fonts, the renderer and the starting context of its
  compilations.  Rendering to a file touches the disk only after the tree has compiled, and leaves
  no file behind if it fails later.
-/
import Folio.Compile.Document
import Folio.Files.Disk
import Folio.Pipeline.Error

namespace Folio

/-- A configured way from trees to rendered documents. -/
structure Pipeline where
  options : Options
  fonts : FontRegistry
  renderer : Renderer
  context : Context

variable {κ φ : Type} {m : Type → Type} [Monad m] [Journal m]

namespace Template

/-- Reads a template from JSON text. -/
def parse (source : String) : Except PipelineError (Element κ) := do
  let value ← (Json.parse source).mapError .json
  (ofJson value).mapError .template

/-- Reads a template from a file. -/
def load (disk : Disk φ m) (path : Path) : ExceptT PipelineError m (Element κ) := do
  let failure (error : IoError) := PipelineError.io (.readingTemplate path.text error)
  let bytes ← (disk.read path).adapt failure
  match String.fromUTF8? bytes with
  | none => throw (failure .notText)
  | some source =>
    note (.loadedTemplate path.text bytes.size)
    settle (parse source)

end Template

namespace Pipeline

/-- Compiles a tree into a definition. -/
def compile (pipeline : Pipeline) (library : Library κ m) (root : Element κ) :
    ExceptT PipelineError m Definition :=
  (Folio.compile library pipeline.options pipeline.context root).adapt .compile

/-- Compiles a template that is given as JSON text. -/
def compileTemplate (pipeline : Pipeline) (library : Library κ m) (source : String) :
    ExceptT PipelineError m Definition := do
  pipeline.compile library (← settle (Template.parse source))

/-- Renders a definition into a sink. -/
def write (pipeline : Pipeline) (definition : Definition) (sink : Sink m) :
    ExceptT PipelineError m Unit := do
  ((pipeline.renderer.plan definition pipeline.fonts).run sink).adapt .render
  note (.rendered pipeline.renderer.name)

/-- Compiles a tree and renders it into a sink. -/
def render (pipeline : Pipeline) (library : Library κ m) (root : Element κ) (sink : Sink m) :
    ExceptT PipelineError m Unit := do
  pipeline.write (← pipeline.compile library root) sink

/-- Renders a definition into a sink, which is flushed in the end. -/
def writeAndFlush (pipeline : Pipeline) (definition : Definition) (sink : Sink m) :
    ExceptT PipelineError m Unit := do
  pipeline.write definition sink
  sink.flush.adapt .io

/-- Renders a definition into an open file, through a buffer.  The buffer is emptied in any case. -/
def writeToFile (pipeline : Pipeline) (definition : Definition) (disk : Disk φ m) (file : φ) :
    ExceptT PipelineError m Unit := do
  let writing := pipeline.writeAndFlush definition (Sink.bufferedFile disk file)
  let (result, left) ← ExceptT.lift (writing.run.run ByteArray.empty)
  match result with
  | .ok () => return
  | .error error =>
    let _ ← ExceptT.lift ((Sink.file disk file).emptyBuffer.run.run left)
    throw error

/-- Renders a definition into the file that was created at a path.  If that fails, the file is
    removed. -/
def fillFile (pipeline : Pipeline) (definition : Definition) (disk : Disk φ m) (path : Path)
    (file : φ) : ExceptT PipelineError m Unit := do
  match ← observe (pipeline.writeToFile definition disk file) with
  | .ok () => note (.wroteFile path.text)
  | .error error =>
    match ← observe (disk.remove path) with
    | .ok () => throw error
    | .error removal =>
      note (.notRemoved path.text removal)
      throw error

/-- Renders a tree to a file, making the directories above it.  If the rendering fails, the file
    is removed. -/
def renderToFile (pipeline : Pipeline) (library : Library κ m) (root : Element κ) (disk : Disk φ m)
    (path : Path) : ExceptT PipelineError m Unit := do
  let definition ← pipeline.compile library root
  (disk.makeDirectories path.above).adapt .io
  let file ← (disk.create path).adapt fun error => .io (.creatingOutput path.text error)
  pipeline.fillFile definition disk path file

end Pipeline

end Folio
