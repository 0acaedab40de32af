/-
  The command line is all or nothing.

  A command line reads a template, builds a pipeline, compiles, and only then writes.  Whatever can
  fail does so before anything is written, so a run has either written all of its payload or
  changed nothing.

  1. **What the arguments select** — the options, the fonts and the layout, and the bytes that they
     make of a definition (`Arguments.payload`).  The pipeline can always be built
     (`outcome_pipeline`), and it renders a definition of its own as these bytes.
  2. **What the template is** — `Loads`: the file can be read, and what it holds is text, JSON and
     a template; `Compiles`: that compiles.  Reading it changes nothing (`outcome_load`).
  3. **The two ways out** — what compiles is shown (`outcome_show`), or filed (`outcome_file`) where
     a file can hold it (`FileSystem.CanHold`).
  4. **All or nothing** — a run on a template that compiles delivers it (`outcome_run_of_compiles`),
     and one on a template that does not compile leaves everything as it is
     (`outcome_run_of_not_compiles`).
-/
import Folio.CommandLine.Run
import Folio.Proofs.Machines

namespace Folio

/-- A file can be created at a path, with the directories above it, and hold these bytes. -/
def FileSystem.CanHold (files : FileSystem) (path : Path) (bytes : ByteArray) : Prop :=
  ∃ made number opened filled,
    outcome ((disk : Disk Nat (StateM FileSystem)).makeDirectories path.above) files =
      (.ok (), made) ∧
    made.create path = .ok (number, opened) ∧ opened.write number bytes = (.ok (), filled)

namespace CommandLine

variable {given : Arguments} {definition : Definition} {root : Element Empty} {path : Path}
  {shown : ByteArray} {files : FileSystem}

/-! ## What the arguments select -/

/-- A font that is registered is admitted. -/
theorem admits_insert (fonts : FontRegistry) (name : String) (family : FontFamily) :
    FontRegistry.admits (fonts.insert name family) name = true := by
  rw [FontRegistry.admits, Dict.contains, Dict.get?_insert, if_pos rfl, Option.isSome_some,
    Bool.or_true]

namespace Arguments

/-- The options that the arguments select. -/
def options (given : Arguments) : Options where
  defaultStyle := some (Options.styleOfFont ((given.font.map Prod.snd).getD "OpenSans"))
  strictTags := given.strict
  dropZero := !given.keepZero

/-- The fonts that the arguments select. -/
def fonts (given : Arguments) : FontRegistry :=
  match given.font with
  | none => ∅
  | some (directory, family) => Dict.insert ∅ family (.ofDirectory directory family)

/-- The layout that the arguments select. -/
def layout (given : Arguments) : Layout := if given.pretty then .indented else .compact

/-- The pipeline that the arguments select, once it is built. -/
def built (given : Arguments) : Pipeline := ⟨given.options, given.fonts, .json given.layout, ∅⟩

/-- The font family that is named, under its name: for each variant, a file in the directory. -/
def families (given : Arguments) : List (String × Json) :=
  match given.font with
  | none => []
  | some (directory, family) =>
    let file (variant : String) :=
      Json.string (directory.join ⟨family ++ "-" ++ variant ++ ".ttf"⟩).text
    [(family, .object [("normal", file "Regular"), ("bold", file "Bold"),
      ("italics", file "Italic"), ("bolditalics", file "BoldItalic"), ("light", file "Light")])]

/-- What is written of a definition: an object with the fonts and the definition in it, as JSON
    text in the layout that is selected. -/
def payload (given : Arguments) (definition : Definition) : ByteArray :=
  let document := Json.object [("fonts", .object given.families), ("definition", definition.toJson)]
  (document.text given.layout).toUTF8

theorem toJson_fonts (given : Arguments) : given.fonts.toJson = .object given.families := by
  unfold fonts families
  cases given.font with
  | none => rfl
  | some font => rfl

/-- The payload is what the renderer makes of the definition and the fonts. -/
theorem payload_eq (given : Arguments) (definition : Definition) :
    given.payload definition =
      ((Renderer.payload definition given.fonts).text given.layout).toUTF8 := by
  rw [Renderer.payload, toJson_fonts, payload]

/-- The default font is the one that is registered, or none is. -/
theorem missingFont?_eq_none (given : Arguments) :
    missingFont? given.options.defaultStyle given.fonts = none := by
  unfold missingFont? options fonts
  cases given.font with
  | none => rfl
  | some font =>
    obtain ⟨directory, family⟩ := font
    show (some family).filter _ = none
    rw [Option.filter_some, admits_insert]
    rfl

/-- **The pipeline can always be built.** -/
theorem outcome_pipeline (given : Arguments) (state : ByteArray × FileSystem) :
    outcome (given.pipeline : ExceptT PipelineError Machine Pipeline) state =
      (.ok given.built, state) := by
  have hbuild : outcome (given.pipeline : ExceptT PipelineError Machine Pipeline) state =
      outcome (PipelineBuilder.build ⟨given.options, given.fonts, .json given.layout, ∅⟩ :
        ExceptT PipelineError Machine Pipeline) state := by
    unfold pipeline options fonts layout
    cases given.font with
    | none => rfl
    | some font => rfl
  rw [hbuild, PipelineBuilder.outcome_build, given.missingFont?_eq_none]
  rfl

/-- What compiles under the options is rendered as the payload. -/
theorem renders_built (h : compilePlain given.options root = .ok definition) :
    given.built.Renders definition (given.payload definition) := by
  have hstyle : definition.defaultStyle = given.options.defaultStyle := by
    have hcompile := outcome_compile_none given.options ∅ root (.empty, .empty)
    rw [h] at hcompile
    exact defaultStyle_of_compile hcompile
  rw [payload_eq]
  exact unhindered_json (hstyle ▸ given.missingFont?_eq_none)

end Arguments

/-! ## What the template is -/

/-- The file at a path can be read, and what it holds is this template. -/
def Loads (files : FileSystem) (path : Path) (root : Element Empty) : Prop :=
  ∃ bytes source value, files.read path = .ok bytes ∧ String.fromUTF8? bytes = some source ∧
    Json.parse source = .ok value ∧ Template.ofJson value = .ok root

/-- The template compiles to this definition, under the options that the arguments select. -/
def Compiles (files : FileSystem) (given : Arguments) (definition : Definition) : Prop :=
  ∃ root, Loads files given.template root ∧
    compile (Library.none : Library Empty Id) given.options ∅ root = pure definition

theorem parse_eq_ok_iff {source : String} :
    Template.parse source = .ok root ↔
      ∃ value, Json.parse source = .ok value ∧ Template.ofJson value = .ok root := by
  unfold Template.parse
  simp only [bind_eq_ok_iff, mapError_eq_ok_iff]

/-- **Reading the template** changes nothing. -/
theorem outcome_load (path : Path) (shown : ByteArray) (files : FileSystem) :
    ∃ result : Except PipelineError (Element Empty),
      outcome (Template.load (FileSystem.disk : Disk Nat Machine) path) (shown, files) =
        (result, (shown, files)) ∧
      ∀ root, result = .ok root ↔ Loads files path root := by
  have hread : outcome ((FileSystem.disk : Disk Nat Machine).read path) (shown, files) =
      (files.read path, (shown, files)) := beside_disk.read path shown files
  unfold Template.load
  cases hbytes : files.read path with
  | error error =>
    rw [hbytes] at hread
    refine ⟨_, outcome_bind_of_error (outcome_adapt_of_error hread), fun root => ⟨?_, ?_⟩⟩
    · intro h
      cases h
    · rintro ⟨_, _, _, hloaded, -⟩
      rw [hbytes] at hloaded
      cases hloaded
  | ok bytes =>
    rw [hbytes] at hread
    simp only
    rw [outcome_bind_of_ok (outcome_adapt_of_ok hread)]
    cases hsource : String.fromUTF8? bytes with
    | none =>
      refine ⟨_, outcome_throw _ _, fun root => ⟨?_, ?_⟩⟩
      · intro h
        cases h
      · rintro ⟨_, _, _, hloaded, htext, -⟩
        cases hbytes.symm.trans hloaded
        cases hsource.symm.trans htext
    | some source =>
      simp only
      refine ⟨Template.parse source, ?_, fun root => ?_⟩
      · rw [outcome_bind, outcome_note]
        exact outcome_settle _ _
      · rw [parse_eq_ok_iff]
        constructor
        · rintro ⟨value, hvalue, hroot⟩
          exact ⟨bytes, source, value, hbytes, hsource, hvalue, hroot⟩
        · rintro ⟨_, _, value, hloaded, htext, hvalue, hroot⟩
          cases hbytes.symm.trans hloaded
          cases hsource.symm.trans htext
          exact ⟨value, hvalue, hroot⟩

/-! ## The two ways out -/

/-- Compiling, too, changes nothing. -/
theorem outcome_compile_built (given : Arguments) (root : Element Empty)
    (state : ByteArray × FileSystem) :
    outcome (given.built.compile (Library.none : Library Empty Machine) root) state =
      ((compilePlain given.options root).mapError .compile, state) := by
  have hcompile : outcome (compile (Library.none : Library Empty Machine) given.built.options
      given.built.context root) state = (compilePlain given.options root, state) :=
    outcome_compile_none given.options ∅ root state
  unfold Pipeline.compile
  rw [outcome_adapt, hcompile]

theorem outcome_compile_built_of_ok (h : compilePlain given.options root = .ok definition)
    (state : ByteArray × FileSystem) :
    outcome (given.built.compile (Library.none : Library Empty Machine) root) state =
      (.ok definition, state) := by
  rw [outcome_compile_built, h]
  rfl

/-- **Standard output** gets the payload and a line break. -/
theorem outcome_show (h : compilePlain given.options root = .ok definition) (shown : ByteArray)
    (files : FileSystem) :
    outcome (do
        given.built.render (Library.none : Library Empty Machine) root Sink.memory
        (Sink.memory.send "\n".toUTF8).adapt .io) (shown, files) =
      (.ok (), (shown ++ given.payload definition ++ "\n".toUTF8, files)) := by
  obtain ⟨hwritten, -, hshown⟩ := Pipeline.took_write_of_takes (Arguments.renders_built h)
    (takes_memory _ _) (accounts_memory shown files) (by rw [ByteArray.append_empty]) le_rfl
  have hrender : outcome (given.built.render (Library.none : Library Empty Machine) root
      Sink.memory) (shown, files) = (.ok (), (shown ++ given.payload definition, files)) := by
    unfold Pipeline.render
    rw [outcome_bind_of_ok (outcome_compile_built_of_ok h _)]
    exact Prod.ext hwritten hshown
  rw [outcome_bind_of_ok hrender]
  exact outcome_adapt_of_ok (outcome_adapt_of_ok (outcome_write_memory _ _))

/-- **A file** gets the payload, if it can hold it. -/
theorem outcome_file (h : compilePlain given.options root = .ok definition)
    (hroom : files.CanHold path (given.payload definition)) (shown : ByteArray) :
    ∃ filled, outcome (given.built.renderToFile (Library.none : Library Empty Machine) root
        FileSystem.disk path) (shown, files) = (.ok (), (shown, filled)) ∧
      filled.read path = .ok (given.payload definition) ∧
      Pipeline.TouchesOnly path files filled := by
  obtain ⟨made, number, opened, filled, hmake, hcreate, hwrite⟩ := hroom
  obtain ⟨place, hcreates⟩ := FileSystem.creates_of_create hcreate
  have hopened : number < opened.contents.length := (List.getElem?_eq_some_iff.1 hcreates.empty).1
  have hadds := documented_disk.addsDirectories_makeDirectories path.above files
  rw [hmake] at hadds
  -- the file can hold everything at once, so it can hold it bit by bit
  obtain ⟨hfits, -⟩ := (FileSystem.write_eq_ok_iff hcreates.empty).1 hwrite
  have hlimit : (opened.sizeLimit.all fun most => (given.payload definition).size ≤ most) =
      true := by
    unfold FileSystem.room at hfits
    cases hmost : opened.sizeLimit with
    | none => rfl
    | some most =>
      rw [hmost] at hfits
      exact decide_eq_true hfits
  have hopens : Pipeline.Opens given.built (Library.none : Library Empty Machine) root
      FileSystem.disk path (shown, files) definition number (shown, opened) := by
    refine ⟨_, (shown, made), outcome_compile_built_of_ok h _, ?_, ?_⟩
    · rw [beside_disk.makeDirectories path.above, hmake]
    · rw [beside_disk.create path, outcome_create, hcreate]
  have hbeside := beside_disk.file (β := ByteArray) number
  have haccounts : (Sink.file (FileSystem.disk : Disk Nat Machine) number).Accounts
      fun total state => state.1 = shown ∧ state.2 = opened.fill number total :=
    hbeside.accounts (documented_disk.accounts_file hopened) shown
  have hstart : opened = opened.fill number .empty := (FileSystem.fill_self hcreates.empty).symm
  obtain ⟨⟨_, filled⟩, hfilled, rfl, rfl⟩ := Pipeline.outcome_fillFile_of_takes
    (Arguments.renders_built h) (hbeside.takes (takes_file hopened hlimit) shown) haccounts
    (s := (shown, opened)) ⟨rfl, hstart⟩ le_rfl path
  rw [hopens.outcome_eq, hfilled]
  exact ⟨_, rfl, hcreates.read_fill _, made, hadds, hcreates.touchesFile_fill _⟩

/-! ## All or nothing -/

/-- What is left to do with a template once it is read. -/
theorem outcome_run_of_loads (h : Loads files given.template root) (shown : ByteArray) :
    outcome (given.run FileSystem.disk Sink.memory : ExceptT PipelineError Machine Unit)
        (shown, files) =
      match given.output with
      | some path => outcome (given.built.renderToFile (Library.none : Library Empty Machine) root
          FileSystem.disk path) (shown, files)
      | none => outcome (do
          given.built.render (Library.none : Library Empty Machine) root Sink.memory
          (Sink.memory.send "\n".toUTF8).adapt .io) (shown, files) := by
  obtain ⟨result, hload, hloads⟩ := outcome_load given.template shown files
  rw [(hloads root).2 h] at hload
  unfold Arguments.run
  rw [outcome_bind_of_ok hload, outcome_bind_of_ok (given.outcome_pipeline _)]
  cases given.output <;> rfl

theorem compiles_iff :
    Compiles files given definition ↔ ∃ root, Loads files given.template root ∧
      compilePlain given.options root = .ok definition := by
  have hcompile (root : Element Empty) := compile_none given.options ∅ root
  constructor
  · rintro ⟨root, hloads, hroot⟩
    refine ⟨root, hloads, ?_⟩
    rw [← hcompile, hroot]
    rfl
  · rintro ⟨root, hloads, hroot⟩
    exact ⟨root, hloads, ExceptT.ext ((hcompile root).trans hroot)⟩

/-- **All**: what compiles is delivered. -/
theorem outcome_run_of_compiles (h : Compiles files given definition)
    (hroom : ∀ path, given.output = some path → files.CanHold path (given.payload definition))
    (shown : ByteArray) :
    ∃ reached, outcome (given.run FileSystem.disk Sink.memory : ExceptT PipelineError Machine Unit)
        (shown, files) = (.ok (), reached) ∧
      (given.output = none →
        reached = (shown ++ given.payload definition ++ "\n".toUTF8, files)) ∧
      ∀ path, given.output = some path →
        reached.1 = shown ∧ reached.2.read path = .ok (given.payload definition) ∧
          Pipeline.TouchesOnly path files reached.2 := by
  obtain ⟨root, hloads, hroot⟩ := compiles_iff.1 h
  rw [outcome_run_of_loads hloads]
  cases houtput : given.output with
  | none =>
    refine ⟨_, outcome_show hroot shown files, fun _ => rfl, fun path hpath => ?_⟩
    cases hpath
  | some path =>
    obtain ⟨filled, hfilled, hread, htouches⟩ :=
      outcome_file hroot (hroom path houtput) shown
    refine ⟨_, hfilled, fun hnone => ?_, fun path' hpath => ?_⟩
    · cases hnone
    · cases hpath
      exact ⟨rfl, hread, htouches⟩

/-- **Nothing**: where nothing compiles, everything stays as it is. -/
theorem outcome_run_of_not_compiles (h : ∀ definition, ¬Compiles files given definition)
    (shown : ByteArray) :
    ∃ error, outcome (given.run FileSystem.disk Sink.memory : ExceptT PipelineError Machine Unit)
      (shown, files) = (.error error, (shown, files)) := by
  obtain ⟨result, hload, hloads⟩ := outcome_load given.template shown files
  cases result with
  | error error => exact ⟨error, outcome_bind_of_error hload⟩
  | ok root =>
    have hroot := (hloads root).1 rfl
    have hcompile := outcome_compile_built given root (shown, files)
    cases hdefinition : compilePlain given.options root with
    | ok definition => exact absurd (compiles_iff.2 ⟨root, hroot, hdefinition⟩) (h definition)
    | error error =>
      -- the compiling comes first on either way
      rw [hdefinition] at hcompile
      rw [outcome_run_of_loads hroot]
      refine ⟨.compile error, ?_⟩
      cases given.output with
      | none => exact outcome_bind_of_error (outcome_bind_of_error hcompile)
      | some path => exact outcome_bind_of_error hcompile

/-- How a run ends tells what comes of it. -/
theorem steps_run {arguments : List String} (h : Request.ofArguments arguments = .run given)
    (state : ByteArray × FileSystem) :
    let done := outcome (given.run FileSystem.disk Sink.memory : ExceptT PipelineError Machine Unit)
      state
    steps (run FileSystem.disk Sink.memory arguments : Machine Outcome) state =
      (match done.1 with
        | .ok () => .success
        | .error error => .failure error, done.2) := by
  intro done
  unfold run
  rw [h]
  simp only
  rw [steps_bind]
  show steps (match done.1 with
    | .ok () => pure .success
    | .error error => pure (.failure error) : Machine Outcome) done.2 = _
  cases done.1 with
  | ok _ => exact steps_pure _ _
  | error error => exact steps_pure _ _

/-- **All or nothing.**  Let a command line be one that the program understands, and let the file
    it names for the output, if it names one, be such that it can hold what is to be written.

    * The pipeline can be built, whatever the arguments are.
    * The exit code is zero exactly if the template can be read and compiles under the options that
      the arguments select.
    * If it is not zero, nothing was shown and no file has changed.
    * If it is zero, then either the payload was shown, with a line break behind it, and no file has
      changed; or nothing was shown, the file holds the payload, and nothing else has changed but
      for directories above it. -/
theorem run_allOrNothing (arguments : List String) (given : Arguments) (shown : ByteArray)
    (files : FileSystem) (hrequest : Request.ofArguments arguments = .run given)
    (hroom : ∀ path definition, given.output = some path → Compiles files given definition →
      files.CanHold path (given.payload definition)) :
    let reached :=
      steps (run FileSystem.disk Sink.memory arguments : Machine Outcome) (shown, files)
    (∀ state, (outcome (given.pipeline : ExceptT PipelineError Machine Pipeline) state).1 =
      .ok given.built) ∧
    (reached.1.exitCode = 0 ↔ ∃ definition, Compiles files given definition) ∧
    (reached.1.exitCode ≠ 0 → reached.2 = (shown, files)) ∧
    ∀ definition, Compiles files given definition →
      (given.output = none →
        reached.2 = (shown ++ given.payload definition ++ "\n".toUTF8, files)) ∧
      ∀ path, given.output = some path →
        reached.2.1 = shown ∧ reached.2.2.read path = .ok (given.payload definition) ∧
          Pipeline.TouchesOnly path files reached.2.2 := by
  intro reached
  have hreached : reached = _ := steps_run hrequest (shown, files)
  have hdelivered {definition : Definition} (h : Compiles files given definition) :=
    outcome_run_of_compiles h (fun path houtput => hroom path definition houtput h) shown
  refine ⟨fun state => congrArg Prod.fst (given.outcome_pipeline state), ?_, ?_, ?_⟩
  · constructor
    · intro hzero
      by_contra hnone
      obtain ⟨error, herror⟩ := outcome_run_of_not_compiles (not_exists.1 hnone) shown
      rw [hreached, herror] at hzero
      cases hzero
    · rintro ⟨definition, hcompiles⟩
      obtain ⟨_, hok, -⟩ := hdelivered hcompiles
      rw [hreached, hok]
      rfl
  · intro hfailed
    by_cases hcompiles : ∃ definition, Compiles files given definition
    · obtain ⟨definition, hcompiles⟩ := hcompiles
      obtain ⟨_, hok, -⟩ := hdelivered hcompiles
      rw [hreached, hok] at hfailed
      exact absurd rfl hfailed
    · obtain ⟨error, herror⟩ := outcome_run_of_not_compiles (not_exists.1 hcompiles) shown
      rw [hreached, herror]
  · intro definition hcompiles
    obtain ⟨_, hok, hshown, hfiled⟩ := hdelivered hcompiles
    rw [hreached, hok]
    exact ⟨hshown, hfiled⟩

/-- A page as it is written. -/
def helloText : String :=
  "\x7b\"tag\": \"document\", \"children\": " ++
    "\x7b\"tag\": \"content\", \"children\": \"Hello\"\x7d\x7d"

/-- The page as JSON. -/
def helloTemplate : Json :=
  .object [("children", .object [("children", .string "Hello"), ("tag", .string "content")]),
    ("tag", .string "document")]

theorem parse_helloText : Json.parse helloText = .ok helloTemplate := by rfl

/-- A file system with nothing but the page. -/
def helloFiles : FileSystem := FileSystem.empty.addFile ["hello.json"] helloText.toUTF8

/-- What is asked for: the page in a file, in a directory that is not there yet, and in a font. -/
def helloArguments : Arguments where
  template := ⟨"hello.json"⟩
  output := some ⟨"out/hello.json"⟩
  font := some (⟨"fonts"⟩, "Mono")

/-- What the page compiles to. -/
def helloDefinition : Definition where
  content := some (.fragment (.list .stack [.text (.string "Hello")]) ∅)
  defaultStyle := some (Options.styleOfFont "Mono")

theorem compiles_hello : Compiles helloFiles helloArguments helloDefinition := by
  have hread : helloFiles.read ⟨"hello.json"⟩ = .ok helloText.toUTF8 := rfl
  have htext : String.fromUTF8? helloText.toUTF8 = some helloText := by
    unfold String.fromUTF8?
    exact dif_pos helloText.isValidUTF8
  have hroot : Template.ofJson helloTemplate =
      .ok (.tag .document ∅ [.tag .content ∅ [.text "Hello"]] : Element Empty) := rfl
  exact ⟨_, ⟨_, _, _, hread, htext, parse_helloText, hroot⟩, rfl⟩

/-- The directory is made, and then the file can hold whatever it is to hold. -/
theorem canHold_hello (bytes : ByteArray) : helloFiles.CanHold ⟨"out/hello.json"⟩ bytes := by
  have hmake : outcome ((FileSystem.disk : Disk Nat (StateM FileSystem)).makeDirectories
      (Path.mk "out/hello.json").above) helloFiles =
        (.ok (), helloFiles.put ["out"] .directory) := rfl
  have hcreate : (helloFiles.put ["out"] .directory).create ⟨"out/hello.json"⟩ =
      .ok (1, (helloFiles.put ["out"] .directory).addFile ["out", "hello.json"] .empty) := rfl
  have hempty : ((helloFiles.put ["out"] .directory).addFile ["out", "hello.json"]
      .empty).contents[1]? = some .empty := rfl
  exact ⟨_, _, _, _, hmake, hcreate, (FileSystem.write_eq_ok_iff hempty).2 ⟨le_rfl, rfl⟩⟩

/-- What is written of the page. -/
def helloOutput : String :=
  "\x7b\"fonts\":\x7b\"Mono\":\x7b\"normal\":\"fonts/Mono-Regular.ttf\"," ++
    "\"bold\":\"fonts/Mono-Bold.ttf\",\"italics\":\"fonts/Mono-Italic.ttf\"," ++
    "\"bolditalics\":\"fonts/Mono-BoldItalic.ttf\",\"light\":\"fonts/Mono-Light.ttf\"\x7d\x7d," ++
    "\"definition\":\x7b\"content\":\x7b\"stack\":[\"Hello\"]\x7d," ++
    "\"defaultStyle\":\x7b\"font\":\"Mono\",\"fontSize\":10\x7d\x7d\x7d"

theorem payload_hello : helloArguments.payload helloDefinition = helloOutput.toUTF8 := by
  have htext : (Json.object [("fonts", .object helloArguments.families),
      ("definition", helloDefinition.toJson)]).text helloArguments.layout = helloOutput := by
    decide +kernel
  exact congrArg String.toUTF8 htext

/-- The page compiles, there is room for it, and it arrives in its file. -/
theorem run_allOrNothing_hello :
    let arguments :=
      ["--font-dir", "fonts", "--font-family=Mono", "-o", "out/hello.json", "hello.json"]
    let reached := steps (run FileSystem.disk Sink.memory arguments : Machine Outcome)
      (.empty, helloFiles)
    Request.ofArguments arguments = .run helloArguments ∧
      Compiles helloFiles helloArguments helloDefinition ∧
      (∀ bytes, helloFiles.CanHold ⟨"out/hello.json"⟩ bytes) ∧
      reached.1.exitCode = 0 ∧ reached.2.1 = .empty ∧
      reached.2.2.read ⟨"out/hello.json"⟩ = .ok helloOutput.toUTF8 := by
  intro arguments reached
  have hrequest : Request.ofArguments arguments = .run helloArguments := rfl
  obtain ⟨-, hexit, -, hdelivered⟩ := run_allOrNothing arguments helloArguments .empty helloFiles
    hrequest fun path definition hpath _ => by
      cases hpath
      exact canHold_hello _
  obtain ⟨-, hfiled⟩ := hdelivered helloDefinition compiles_hello
  obtain ⟨hshown, hread, -⟩ := hfiled _ rfl
  rw [payload_hello] at hread
  exact ⟨hrequest, compiles_hello, canHold_hello, hexit.2 ⟨_, compiles_hello⟩, hshown, hread⟩

end CommandLine

end Folio
