/-
  Everything that can go wrong on the way from a template to a rendered document.
-/
import Folio.Compile.Error
import Folio.Json.Parser
import Folio.Render.Renderer
import Folio.Template

namespace Folio

/-- Why a pipeline failed. -/
inductive PipelineError where
  | compile (error : CompileError)
  | render (error : RenderError)
  | template (error : TemplateError)
  | io (error : IoError)
  | json (error : JsonError)
  /-- The default font is none of the registered ones. -/
  | unknownDefaultFont (font : String) (known : List String)

/-- The error in words. -/
def PipelineError.message : PipelineError → String
  | compile error => s!"Compilation failed: {error.message}"
  | render error => s!"Rendering failed: {error.message}"
  | template error => s!"Template error: {error.message}"
  | io error => s!"I/O error: {error.message}"
  | json .endedEarly => "JSON error: the text ended too early"
  | json .malformed => "JSON error: the text is not JSON"
  | unknownDefaultFont font known =>
    let families := ", ".intercalate known
    s!"Invalid pipeline configuration: Default font '{font}' is not registered. " ++
      s!"Known families: {families}"

end Folio
