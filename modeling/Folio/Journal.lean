/-
  Messages about what is being done.

  Everything worth a message is a constructor of `Message`, with a level and a text.  The code that
  sends messages is written over any monad that takes them (`Journal`); computed purely, in `Id`,
  they go nowhere.
-/
import Folio.IoError
import Folio.TagName

namespace Folio

/-- How much a message matters. -/
inductive Level where
  | trace
  | debug
  | info
  | warn
  deriving DecidableEq, Repr

def Level.toText : Level → String
  | trace => "TRACE"
  | debug => "DEBUG"
  | info => "INFO"
  | warn => "WARN"

/-- Something worth a message. -/
inductive Message where
  /-- A component is about to be rendered against a context with so many entries. -/
  | expanding (component : String) (entries : Nat)
  /-- A chain of so many components came to nothing. -/
  | renderedNothing (depth : Nat)
  /-- A section replaces an earlier one. -/
  | duplicateSection (slot : Slot)
  /-- A tag outside the vocabulary is left out. -/
  | droppedTag (name : String)
  /-- A document is compiled; these of its sections are present. -/
  | compiled (header content footer : Bool)
  | registeredFont (name : String)
  | buildingPipeline (renderer : String) (families : Nat) (strictTags : Bool)
  | wroteDefinition (renderer : String) (families : Nat)
  | rendered (renderer : String)
  | wroteFile (path : String)
  | notRemoved (path : String) (error : IoError)
  | loadedTemplate (path : String) (bytes : Nat)
  deriving DecidableEq, Repr

namespace Message

def level : Message → Level
  | expanding .. => .trace
  | renderedNothing .. => .debug
  | duplicateSection .. => .warn
  | droppedTag .. => .warn
  | compiled .. => .debug
  | registeredFont .. => .debug
  | buildingPipeline .. => .info
  | wroteDefinition .. => .debug
  | rendered .. => .info
  | wroteFile .. => .info
  | notRemoved .. => .warn
  | loadedTemplate .. => .debug

def text : Message → String
  | expanding component entries => s!"Expanding component {component} with {entries} context entries"
  | renderedNothing depth => s!"Component chain of depth {depth} rendered nothing"
  | duplicateSection slot =>
    s!"Duplicate <{slot.toText}> section; the later one replaces the earlier"
  | droppedTag name => s!"Dropping unknown tag <{name}>"
  | compiled header content footer =>
    s!"Compiled document (header: {header}, content: {content}, footer: {footer})"
  | registeredFont name => s!"Registering font family '{name}'"
  | buildingPipeline renderer families strictTags =>
    s!"Building pipeline with renderer {renderer} ({families} font families, " ++
      s!"strict tags: {strictTags})"
  | wroteDefinition renderer families =>
    s!"{renderer} wrote definition with {families} font families"
  | rendered renderer => s!"Rendered document with {renderer}"
  | wroteFile path => s!"Wrote {path}"
  | notRemoved path error => s!"Failed to remove '{path}': {error.message}"
  | loadedTemplate path bytes => s!"Loaded template '{path}' ({bytes} bytes)"

/-- The message as one line. -/
def line (message : Message) : String := s!"{message.level.toText} {message.text}"

end Message

/-- A monad that takes messages. -/
class Journal (m : Type → Type) where
  note : Message → m Unit

export Journal (note)

/-- A pure computation keeps no messages. -/
instance : Journal Id := ⟨fun _ => ()⟩

instance [Monad m] [Journal m] : Journal (ExceptT ε m) := ⟨fun message => ExceptT.lift (note message)⟩

instance [Monad m] [Journal m] : Journal (StateT σ m) := ⟨fun message => StateT.lift (note message)⟩

end Folio
