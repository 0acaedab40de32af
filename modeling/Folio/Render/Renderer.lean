/-
  Renderers: from a definition and its fonts to bytes.

  A renderer answers with a `Plan`: what it does with a sink, step by step, and what comes of it.
  Each step may depend on how the ones before it went, so a renderer can give up at the first
  failure, as the JSON renderer does, or go on after it.
-/
import Folio.Definition
import Folio.Json.Printer
import Folio.Render.Fonts
import Folio.Render.Sink

namespace Folio

/-- Why a definition was not rendered. -/
inductive RenderError where
  | io (error : IoError)
  /-- Writing the definition failed. -/
  | serialize (error : IoError)
  | missingFont (family : String)
  deriving DecidableEq, Repr

/-- The error in words. -/
def RenderError.message : RenderError → String
  | io error => s!"I/O error: {error.message}"
  | serialize error => s!"Failed to serialize document definition: {error.message}"
  | missingFont family => s!"Font family '{family}' is not registered"

/-- What a renderer does with a sink.  It goes on from a write or a flush as the answer says. -/
inductive Plan where
  /-- Nothing more is done, and this comes of it. -/
  | done (outcome : Except RenderError Unit)
  | write (bytes : ByteArray) (next : Except IoError Unit → Plan)
  | flush (next : Except IoError Unit → Plan)
  | report (message : Message) (next : Plan)

/-- A way to turn definitions into bytes. -/
structure Renderer where
  name : String
  plan : Definition → FontRegistry → Plan

namespace Plan

variable {m : Type → Type} [Monad m] [Journal m]

/-- Carries out a plan. -/
def run (sink : Sink m) : Plan → ExceptT RenderError m Unit
  | done outcome => settle outcome
  | write bytes next => do
    let answer ← observe (sink.send bytes)
    run sink (next answer)
  | flush next => do
    let answer ← observe sink.flush
    run sink (next answer)
  | report message next => do
    note message
    run sink next

/-- Goes on after a success; a failure ends the rendering, and `blame` says what it is called. -/
def unlessFailed (blame : IoError → RenderError) (next : Plan) : Except IoError Unit → Plan
  | .ok () => next
  | .error error => done (.error (blame error))

/-- Writes texts one after the other, and gives up at the first failure. -/
def writeTexts (blame : IoError → RenderError) (texts : List String) (next : Plan) : Plan :=
  texts.foldr (fun text next => write text.toUTF8 (unlessFailed blame next)) next

end Plan

namespace Renderer

/-- The definition and its fonts in one JSON value. -/
def payload (definition : Definition) (fonts : FontRegistry) : Json :=
  .object [("fonts", fonts.toJson), ("definition", definition.toJson)]

def jsonName : String := "JsonDefinitionRenderer"

/-- Writes the definition and the fonts as JSON text, provided that the default font is there. -/
def json (layout : Layout) : Renderer where
  name := jsonName
  plan definition fonts :=
    match (fontOfStyle definition.defaultStyle).filter fun font => !fonts.admits font with
    | some font => .done (.error (.missingFont font))
    | none =>
      .writeTexts .serialize ((payload definition fonts).pieces layout) <|
      .flush <| .unlessFailed .io <|
      .report (.wroteDefinition jsonName fonts.size) (.done (.ok ()))

end Renderer

end Folio
