/-
  Fonts that are passed through to the layout renderer.

  A family names a file for each of its variants; the files themselves are never looked at.  A
  registry holds families by name, in the order of their names.
-/
import Folio.Content
import Folio.Files.Path
import Folio.Journal

namespace Folio

/-- The files of one font family. -/
structure FontFamily where
  normal : Path
  bold : Path
  italics : Path
  bolditalics : Path
  light : Option Path := none
  deriving BEq

namespace FontFamily

/-- One and the same file for every variant. -/
def single (path : Path) : FontFamily := ⟨path, path, path, path, none⟩

/-- The files `<stem>-Regular.ttf`, `<stem>-Bold.ttf` and so on in a directory. -/
def ofDirectory (directory : Path) (stem : String) : FontFamily :=
  let file (variant : String) := directory.join ⟨s!"{stem}-{variant}.ttf"⟩
  ⟨file "Regular", file "Bold", file "Italic", file "BoldItalic", some (file "Light")⟩

def toJson (family : FontFamily) : Json :=
  .object ([("normal", .string family.normal.text), ("bold", .string family.bold.text),
    ("italics", .string family.italics.text), ("bolditalics", .string family.bolditalics.text)]
    ++ optionalField "light" (family.light.map fun path => .string path.text))

end FontFamily

/-- Font families by name. -/
abbrev FontRegistry := Dict FontFamily

namespace FontRegistry

/-- The registry as a JSON object. -/
def toJson (fonts : FontRegistry) : Json :=
  .object (fonts.entries.map fun (name, family) => (name, family.toJson))

/-- Registers a family under a name, in place of the one that had it. -/
def register [Monad m] [Journal m] (fonts : FontRegistry) (name : String) (family : FontFamily) :
    m FontRegistry := do
  note (.registeredFont name)
  return fonts.insert name family

/-- Whether text in a font can be set: an empty registry leaves the fonts to the renderer. -/
def admits (fonts : FontRegistry) (font : String) : Bool := fonts.isEmpty || fonts.contains font

end FontRegistry

end Folio
