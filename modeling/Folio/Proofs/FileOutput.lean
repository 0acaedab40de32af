/-
  What rendering to a file leaves behind.

  Rendering to a file compiles, makes directories, creates the file, renders through a buffer and
  flushes it; each of these can fail.

  1. **Compiling** leaves the files alone, as long as the components do (`keeps_compile`).
  2. **The open file** — `Opens`: the first three went well.  The file is empty then, the path leads
     to it, and nothing but directories above it is new (`Opens.exists_base`).
  3. **Filling it** — the file holds what was accepted so far, up to what the buffer holds
     (`took_writeToFile`).  In the end it is complete, or what the path ends in is removed if that
     can be done (`files_fillFile`).
  4. **Every run** ends without a definition, without a file, or with one (`renderToFile_cases`),
     and in each case nothing else is touched (`renderToFile_leaves`).

  The path may lead through links, and be one.  Then the file is the one that it leads to, but what
  is removed is the link.
-/
import Folio.Proofs.Closure
import Folio.Proofs.Disks
import Folio.Pipeline.Basic

namespace Folio

open FileSystem (AddsDirectories Creates TouchesFile Vacant)

variable {m : Type → Type} [Monad m] [Journal m] {κ φ σ : Type} [Stateful m σ]

/-! ## Compiling -/

/-- Rendering its components does not change this view of the state. -/
def Library.LeavesAlone (library : Library κ m) (view : σ → τ) : Prop :=
  ∀ component props context (s : σ),
    view (steps (library.render component props context) s).2 = view s

/-- Nothing that compiling does changes a view that components and messages leave alone. -/
theorem Library.LeavesAlone.compositional {library : Library κ m} {view : σ → τ}
    (h : library.LeavesAlone view)
    (hnote : ∀ message s, view (steps (note message : m Unit) s).2 = view s) :
    Compositional library (fun run => Keeps view run) where
  pure value := keeps_pure value
  throw error := keeps_throw error
  note message s := by
    rw [outcome_note]
    exact hnote message s
  expand composite context s := by
    rw [outcome_liftM, Library.expand, steps_bind, steps_bind, steps_pure, h, hnote]
  bind := keeps_bind

namespace Pipeline

variable {library : Library κ m} {pipeline : Pipeline} {root : Element κ} {disk : Disk φ m}
  {files : σ → FileSystem} {number : φ → Nat} {path : Path} {s : σ}

theorem keeps_compile (hdisk : disk.Documented files number)
    (hlibrary : library.LeavesAlone files) (pipeline : Pipeline) (root : Element κ) :
    Keeps files (pipeline.compile library root) := by
  have hcompositional := hlibrary.compositional hdisk.note
  exact keeps_adapt (hcompositional.compile pipeline.options pipeline.context root) _

/-! ## The open file -/

/-- Rendering to a file comes as far as an open file: the tree compiles, the directories are there
    and the file can be created. -/
def Opens (pipeline : Pipeline) (library : Library κ m) (root : Element κ) (disk : Disk φ m)
    (path : Path) (s : σ) (definition : Definition) (file : φ) (opened : σ) : Prop :=
  ∃ compiled made, outcome (pipeline.compile library root) s = (.ok definition, compiled) ∧
    outcome (disk.makeDirectories path.above) compiled = (.ok (), made) ∧
    outcome (disk.create path) made = (.ok file, opened)

variable {definition : Definition} {file : φ} {opened : σ}

theorem Opens.outcome_eq (h : Opens pipeline library root disk path s definition file opened) :
    outcome (pipeline.renderToFile library root disk path) s =
      outcome (pipeline.fillFile definition disk path file) opened := by
  obtain ⟨compiled, made, hcompile, hmake, hcreate⟩ := h
  unfold renderToFile
  rw [outcome_bind_of_ok hcompile, outcome_bind_of_ok (outcome_adapt_of_ok hmake),
    outcome_bind_of_ok (outcome_adapt_of_ok hcreate)]

/-- **The open file** is empty and stands where the path leads; but for the directories above it,
    nothing else has changed. -/
theorem Opens.exists_base (h : Opens pipeline library root disk path s definition file opened)
    (hdisk : disk.Documented files number) (hlibrary : library.LeavesAlone files) :
    ∃ base place, AddsDirectories path.above (files s) base ∧
      Creates path place (number file) base (files opened) := by
  obtain ⟨compiled, made, hcompile, hmake, hcreate⟩ := h
  have hcompiled := keeps_compile hdisk hlibrary pipeline root s
  have hmade := hdisk.addsDirectories_makeDirectories path.above compiled
  rw [hcompile] at hcompiled
  rw [hmake, hcompiled] at hmade
  obtain ⟨place, hcreates⟩ := FileSystem.creates_of_create ((hdisk.create path).ok hcreate)
  exact ⟨files made, place, hmade, hcreates⟩

/-! ## Filling it -/

/-- Why rendering into a sink fails: the renderer fails, or the flush at the end. -/
inductive WritingFails (pipeline : Pipeline) (definition : Definition) (sink : Sink m) (s : σ) :
    PipelineError → Prop
  | renderer {failure : RenderError} {s' : σ} :
      outcome ((pipeline.renderer.plan definition pipeline.fonts).run sink) s =
        (.error failure, s') → WritingFails pipeline definition sink s (.render failure)
  | flush {failure : IoError} {written s' : σ} :
      outcome (pipeline.write definition sink) s = (.ok (), written) →
      outcome sink.flush written = (.error failure, s') →
      WritingFails pipeline definition sink s (.io failure)

/-- The bytes of a rendering that a sink accepts. -/
def accepted (pipeline : Pipeline) (definition : Definition) (sink : Sink m) (s : σ) : ByteArray :=
  (pipeline.renderer.plan definition pipeline.fonts).accepted sink s

theorem WritingFails.outcome_eq {sink : Sink m} {error : PipelineError}
    (h : WritingFails pipeline definition sink s error) :
    (outcome (pipeline.writeAndFlush definition sink) s).1 = .error error := by
  unfold writeAndFlush
  cases h with
  | @renderer failure s' hrender =>
    have hwrite : outcome (pipeline.write definition sink) s = (.error (.render failure), s') :=
      outcome_bind_of_error (outcome_adapt_of_error hrender)
    rw [outcome_bind_of_error hwrite]
  | flush hwrite hflush =>
    rw [outcome_bind_of_ok hwrite, outcome_adapt_of_error hflush]

section Accounts

variable {took : ByteArray → σ → Prop}

theorem took_write (pipeline : Pipeline) (definition : Definition) {sink : Sink m}
    (h : sink.Accounts took) (htook : took .empty s) :
    took (pipeline.accepted definition sink s) (outcome (pipeline.write definition sink) s).2 := by
  have hrun := h.run (pipeline.renderer.plan definition pipeline.fonts) .empty s htook
  rw [ByteArray.empty_append] at hrun
  unfold Pipeline.write
  rcases outcome_cases ((pipeline.renderer.plan definition pipeline.fonts).run sink) s with
    ⟨_, s', hanswer⟩ | ⟨error, s', hanswer⟩
  · rw [hanswer] at hrun
    rw [outcome_bind_of_ok (outcome_adapt_of_ok hanswer), outcome_note]
    exact h.note _ _ s' hrun
  · rw [hanswer] at hrun
    rw [outcome_bind_of_error (outcome_adapt_of_error hanswer)]
    exact hrun

/-- What was accepted is passed on or held; if all goes well, it is passed on. -/
theorem holding_writeAndFlush (pipeline : Pipeline) (definition : Definition) {inner : Sink m}
    (h : inner.Accounts took) (capacity : Nat) (htook : took .empty s) :
    let written := outcome (pipeline.writeAndFlush definition (inner.buffered capacity)) (.empty, s)
    let accepted := pipeline.accepted definition (inner.buffered capacity) (.empty, s)
    Holding took accepted written.2 ∧ (written.1 = .ok () → took accepted written.2.2) := by
  have hbuffered := accounts_buffered h capacity
  have hstart : Holding took .empty (ByteArray.empty, s) := ⟨.empty, htook, ByteArray.append_empty⟩
  have hwritten := took_write pipeline definition hbuffered hstart
  simp only
  unfold writeAndFlush
  rcases outcome_cases (pipeline.write definition (inner.buffered capacity)) (.empty, s) with
    ⟨_, s', hanswer⟩ | ⟨error, s', hanswer⟩
  · rw [hanswer] at hwritten
    have hflushed := hbuffered.flush _ s' hwritten
    rw [outcome_bind_of_ok hanswer]
    rcases outcome_cases (inner.buffered capacity).flush s' with
      ⟨_, s'', hflush⟩ | ⟨failure, s'', hflush⟩
    · rw [hflush] at hflushed
      rw [outcome_adapt_of_ok hflush]
      exact ⟨hflushed, fun _ => took_of_flush_buffered h hwritten hflush⟩
    · rw [hflush] at hflushed
      rw [outcome_adapt_of_error hflush]
      exact ⟨hflushed, fun hok => by cases hok⟩
  · rw [hanswer] at hwritten
    rw [outcome_bind_of_error hanswer]
    exact ⟨hwritten, fun hok => by cases hok⟩

theorem outcome_writeToFile (pipeline : Pipeline) (definition : Definition) (disk : Disk φ m)
    (file : φ) (s : σ) :
    let written := outcome (pipeline.writeAndFlush definition (Sink.bufferedFile disk file))
      (.empty, s)
    outcome (pipeline.writeToFile definition disk file) s =
      match written.1 with
      | .ok () => (.ok (), written.2.2)
      | .error error =>
        (.error error, (outcome (Sink.file disk file).emptyBuffer written.2).2.2) := by
  simp only
  unfold writeToFile
  rw [outcome_bind, outcome_lift_run]
  simp only
  cases (outcome (pipeline.writeAndFlush definition (Sink.bufferedFile disk file))
    (.empty, s)).1 with
  | ok _ => exact outcome_pure _ _
  | error error =>
    show outcome (ExceptT.lift _ >>= fun _ => throw error) _ = _
    rw [outcome_bind, outcome_lift_run]
    exact outcome_throw _ _

/-- The file fails as the rendering into its buffer does. -/
theorem fst_outcome_writeToFile (pipeline : Pipeline) (definition : Definition) (disk : Disk φ m)
    (file : φ) (s : σ) :
    (outcome (pipeline.writeToFile definition disk file) s).1 =
      (outcome (pipeline.writeAndFlush definition (Sink.bufferedFile disk file))
        (.empty, s)).1 := by
  rw [outcome_writeToFile]
  split
  · next hok => exact hok.symm
  · next herror => exact herror.symm

/-- What was accepted reaches the file, if all goes well. -/
theorem took_writeToFile (pipeline : Pipeline) (definition : Definition) {file : φ}
    (h : (Sink.file disk file).Accounts took) (htook : took .empty s) :
    let written := outcome (pipeline.writeToFile definition disk file) s
    let accepted := pipeline.accepted definition (Sink.bufferedFile disk file) (.empty, s)
    (∃ total, took total written.2) ∧ (written.1 = .ok () → took accepted written.2) := by
  obtain ⟨hholding, hok⟩ := holding_writeAndFlush pipeline definition h Sink.bufferSize htook
  simp only
  rw [outcome_writeToFile]
  cases hanswer : (outcome (pipeline.writeAndFlush definition (Sink.bufferedFile disk file))
    (.empty, s)).1 with
  | ok _ => exact ⟨⟨_, hok hanswer⟩, fun _ => hok hanswer⟩
  | error error =>
    obtain ⟨⟨passed, hpassed, -⟩, -⟩ := h.emptyBuffer _ hholding
    exact ⟨⟨passed, hpassed⟩, fun hsuccess => by cases hsuccess⟩

end Accounts

theorem outcome_fillFile_of_ok {written : σ}
    (h : outcome (pipeline.writeToFile definition disk file) s = (.ok (), written)) :
    outcome (pipeline.fillFile definition disk path file) s =
      (.ok (), (steps (note (.wroteFile path.text) : m Unit) written).2) := by
  unfold fillFile
  rw [outcome_bind, outcome_observe, h]
  exact outcome_note _ written

/-- A failure is handed on, whether or not the file can be removed. -/
theorem outcome_fillFile_of_error {error : PipelineError} {written : σ}
    (h : outcome (pipeline.writeToFile definition disk file) s = (.error error, written)) :
    outcome (pipeline.fillFile definition disk path file) s =
      (.error error, match outcome (disk.remove path) written with
        | (.ok (), removed) => removed
        | (.error removal, left) =>
          (steps (note (.notRemoved path.text removal) : m Unit) left).2) := by
  unfold fillFile
  rw [outcome_bind, outcome_observe, h]
  simp only
  rw [outcome_bind, outcome_observe]
  rcases outcome_cases (disk.remove path) written with
    ⟨_, left, hremove⟩ | ⟨removal, left, hremove⟩
  · rw [hremove]
    exact outcome_throw error left
  · rw [hremove]
    simp only
    rw [outcome_bind, outcome_note]
    exact outcome_throw error _

/-- Nothing that is done afterwards changes what comes of it. -/
theorem fst_outcome_fillFile (pipeline : Pipeline) (definition : Definition) (disk : Disk φ m)
    (path : Path) (file : φ) (s : σ) :
    (outcome (pipeline.fillFile definition disk path file) s).1 =
      (outcome (pipeline.writeToFile definition disk file) s).1 := by
  rcases outcome_cases (pipeline.writeToFile definition disk file) s with
    ⟨_, written, hwritten⟩ | ⟨error, written, hwritten⟩
  · rw [outcome_fillFile_of_ok hwritten, hwritten]
  · rw [outcome_fillFile_of_error hwritten, hwritten]

/-- **Filling the file** completes it, or fails, and then removes it if it can. -/
theorem files_fillFile (hdisk : disk.Documented files number) (pipeline : Pipeline)
    (definition : Definition) (path : Path)
    (hempty : (files s).contents[number file]? = some .empty) :
    let filled := outcome (pipeline.fillFile definition disk path file) s
    let written := outcome (pipeline.writeToFile definition disk file) s
    (filled.1 = .ok () → files filled.2 = (files s).fill (number file)
      (pipeline.accepted definition (Sink.bufferedFile disk file) (.empty, s))) ∧
    (∀ error, written.1 = .error error → filled.1 = .error error ∧
      ((outcome (disk.remove path) written.2).1 = .ok () → (files filled.2).Vacant path)) ∧
    (∃ total, files filled.2 = (files s).fill (number file) total ∨
      ((files s).fill (number file) total).remove path = .ok (files filled.2)) := by
  have haccounts : (Sink.file disk file).Accounts fun total t =>
      files t = (files s).fill (number file) total :=
    hdisk.accounts_file (List.getElem?_eq_some_iff.1 hempty).1
  have hstart : files s = (files s).fill (number file) .empty :=
    (FileSystem.fill_self hempty).symm
  obtain ⟨⟨total, htotal⟩, hcomplete⟩ := took_writeToFile pipeline definition haccounts hstart
  simp only
  rcases outcome_cases (pipeline.writeToFile definition disk file) s with
    ⟨_, written, hwritten⟩ | ⟨error, written, hwritten⟩
  · rw [hwritten] at htotal hcomplete
    rw [outcome_fillFile_of_ok hwritten, hdisk.note, hwritten]
    refine ⟨fun _ => hcomplete rfl, fun error herror => ?_, total, .inl htotal⟩
    cases herror
  · rw [hwritten] at htotal
    rw [outcome_fillFile_of_error hwritten, hwritten]
    rcases outcome_cases (disk.remove path) written with
      ⟨_, left, hremove⟩ | ⟨removal, left, hremove⟩
    · have hremoved := (hdisk.remove path).ok hremove
      rw [hremove]
      refine ⟨fun hok => ?_, fun _ herror => ?_, total, .inr (htotal ▸ hremoved)⟩
      · cases hok
      · cases herror
        exact ⟨rfl, fun _ => FileSystem.vacant_of_remove hremoved⟩
    · have hleft := (hdisk.remove path).error hremove
      rw [hremove]
      simp only
      rw [hdisk.note, hleft]
      refine ⟨fun hok => ?_, fun _ herror => ?_, total, .inl htotal⟩
      · cases hok
      · cases herror
        refine ⟨rfl, fun hok => ?_⟩
        cases hok

/-! ## Every run -/

/-- Every run fails before there is a file, having changed nothing or added directories, or goes on
    with an open file. -/
theorem renderToFile_cases (hdisk : disk.Documented files number)
    (hlibrary : library.LeavesAlone files) (pipeline : Pipeline) (root : Element κ) (path : Path)
    (s : σ) :
    let run := outcome (pipeline.renderToFile library root disk path) s
    (∃ error, (outcome (pipeline.compile library root) s).1 = .error error ∧
      run.1 = .error error ∧ files run.2 = files s) ∨
    (∃ definition error, (outcome (pipeline.compile library root) s).1 = .ok definition ∧
      run.1 = .error error ∧ AddsDirectories path.above (files s) (files run.2)) ∨
    ∃ definition file opened, Opens pipeline library root disk path s definition file opened ∧
      run = outcome (pipeline.fillFile definition disk path file) opened := by
  intro run
  have hcompiled := keeps_compile hdisk hlibrary pipeline root s
  rcases outcome_cases (pipeline.compile library root) s with
    ⟨definition, compiled, hcompile⟩ | ⟨error, compiled, hcompile⟩
  · right
    rw [hcompile] at hcompiled ⊢
    have hrun : run = _ := outcome_bind_of_ok hcompile
    have hmade := hdisk.addsDirectories_makeDirectories path.above compiled
    rcases outcome_cases (disk.makeDirectories path.above) compiled with
      ⟨_, made, hmake⟩ | ⟨error, made, hmake⟩
    · rw [hmake, hcompiled] at hmade
      rw [outcome_bind_of_ok (outcome_adapt_of_ok hmake)] at hrun
      rcases outcome_cases (disk.create path) made with
        ⟨file, opened, hcreate⟩ | ⟨error, opened, hcreate⟩
      · have hopens : Opens pipeline library root disk path s definition file opened :=
          ⟨compiled, made, hcompile, hmake, hcreate⟩
        exact .inr ⟨definition, file, opened, hopens, hopens.outcome_eq⟩
      · have hsame := (hdisk.create path).error hcreate
        rw [outcome_bind_of_error (outcome_adapt_of_error hcreate)] at hrun
        rw [hrun]
        exact .inl ⟨definition, _, rfl, rfl, hsame ▸ hmade⟩
    · rw [hmake, hcompiled] at hmade
      rw [outcome_bind_of_error (outcome_adapt_of_error hmake)] at hrun
      rw [hrun]
      exact .inl ⟨definition, _, rfl, rfl, hmade⟩
  · have hrun : run = _ := outcome_bind_of_error hcompile
    rw [hcompile] at hcompiled ⊢
    rw [hrun]
    exact .inl ⟨error, rfl, rfl, hcompiled⟩

/-- Between two file systems, some missing directories above a path were added, and after that
    nothing was changed but the file that the path leads to, and the name that it ends in. -/
def TouchesOnly (path : Path) (old new : FileSystem) : Prop :=
  ∃ made, AddsDirectories path.above old made ∧ TouchesFile path made new

theorem TouchesOnly.of_addsDirectories {old new : FileSystem}
    (h : AddsDirectories path.above old new) : TouchesOnly path old new :=
  ⟨new, h, FileSystem.TouchesFile.refl path new⟩

/-- **What rendering to a file leaves behind.**  On a disk that does what it documents, and with
    components that leave the files alone:

    * If the tree does not compile, that is the error, and the files are as they were.
    * If all goes well, the file at the path holds what was accepted of the rendering.
    * If rendering into the open file fails, or the flush at the end, that is the error, and there
      is nothing at the path if the removal succeeds.

    In any case nothing is touched but the file that the path leads to, the name that it ends in,
    and directories above it that were missing.  If that name is a link, then the file is the one
    behind the link, and the removal takes the link. -/
theorem renderToFile_leaves (hdisk : disk.Documented files number)
    (hlibrary : library.LeavesAlone files) (pipeline : Pipeline) (root : Element κ) (path : Path)
    (s : σ) :
    let run := outcome (pipeline.renderToFile library root disk path) s
    (∀ error, (outcome (pipeline.compile library root) s).1 = .error error →
      run.1 = .error error ∧ files run.2 = files s) ∧
    (run.1 = .ok () → ∃ definition file opened,
      Opens pipeline library root disk path s definition file opened ∧
      (files run.2).read path =
        .ok (pipeline.accepted definition (Sink.bufferedFile disk file) (.empty, opened))) ∧
    (∀ definition file opened error,
      Opens pipeline library root disk path s definition file opened →
      WritingFails pipeline definition (Sink.bufferedFile disk file) (.empty, opened) error →
      run.1 = .error error ∧
      ((outcome (disk.remove path)
          (outcome (pipeline.writeToFile definition disk file) opened).2).1 = .ok () →
        (files run.2).Vacant path)) ∧
    TouchesOnly path (files s) (files run.2) := by
  intro run
  refine ⟨?compiling, ?success, ?failure, ?touched⟩
  case compiling =>
    intro error hcompile
    rcases renderToFile_cases hdisk hlibrary pipeline root path s with
      ⟨error', hcompile', hrun⟩ | ⟨_, _, hcompile', -⟩ | ⟨_, _, _, ⟨_, _, hcompile', -⟩, -⟩
    · cases hcompile.symm.trans hcompile'
      exact hrun
    · cases hcompile.symm.trans hcompile'
    · rw [hcompile'] at hcompile
      cases hcompile
  case success =>
    intro hok
    rcases renderToFile_cases hdisk hlibrary pipeline root path s with
      ⟨_, -, hrun, -⟩ | ⟨_, _, -, hrun, -⟩ | ⟨definition, file, opened, hopens, hrun⟩
    · cases hok.symm.trans hrun
    · cases hok.symm.trans hrun
    · obtain ⟨base, place, -, hcreates⟩ := hopens.exists_base hdisk hlibrary
      obtain ⟨hcomplete, -, -⟩ := files_fillFile hdisk pipeline definition path hcreates.empty
      refine ⟨definition, file, opened, hopens, ?_⟩
      rw [show run = _ from hrun] at hok ⊢
      rw [hcomplete hok]
      exact hcreates.read_fill _
  case failure =>
    intro definition file opened error hopens hfails
    obtain ⟨base, place, -, hcreates⟩ := hopens.exists_base hdisk hlibrary
    obtain ⟨-, hfailed, -⟩ := files_fillFile hdisk pipeline definition path hcreates.empty
    have hwritten : (outcome (pipeline.writeToFile definition disk file) opened).1 =
        .error error := by
      rw [fst_outcome_writeToFile, hfails.outcome_eq]
    have hrun : run = outcome (pipeline.fillFile definition disk path file) opened :=
      hopens.outcome_eq
    rw [hrun]
    exact hfailed error hwritten
  case touched =>
    rcases renderToFile_cases hdisk hlibrary pipeline root path s with
      ⟨_, -, -, hrun⟩ | ⟨_, _, -, -, hrun⟩ | ⟨definition, file, opened, hopens, hrun⟩
    · rw [show files run.2 = files s from hrun]
      exact .of_addsDirectories (.refl _ _)
    · exact .of_addsDirectories hrun
    · obtain ⟨base, place, hadds, hcreates⟩ := hopens.exists_base hdisk hlibrary
      obtain ⟨-, -, total, hfilled⟩ := files_fillFile hdisk pipeline definition path hcreates.empty
      rw [show run = _ from hrun]
      refine ⟨base, hadds, ?_⟩
      rcases hfilled with hfilled | hremoved
      · rw [hfilled]
        exact hcreates.touchesFile_fill total
      · exact hcreates.touchesFile_remove hremoved

end Pipeline

/-- A renderer that breaks off. -/
def Renderer.broken : Renderer where
  name := "BrokenRenderer"
  plan _ _ := .write "\x7b".toUTF8 fun _ => .done (.error (.missingFont "Nowhere"))

/-- What is written of a page with the text a. -/
def pageText : String :=
  "\x7b\"fonts\":\x7b\x7d,\"definition\":\x7b\"content\":\x7b\"stack\":[\"a\"]\x7d," ++
    "\"defaultStyle\":\x7b\"font\":\"OpenSans\",\"fontSize\":10\x7d\x7d\x7d"

/-- Beside another file, a page is rendered into a directory that is made for it.  A renderer that
    breaks off fails with its own error, and the file is gone again. -/
theorem renderToFile_leaves_page :
    let page : Element Empty := .tag .document ∅ [.tag .content ∅ [.text "a"]]
    let path : Path := ⟨"out/page.json"⟩
    let disk : Disk Nat (StateM FileSystem) := FileSystem.disk
    let start : FileSystem := FileSystem.empty.addFile ["other.txt"] "other".toUTF8
    let run (renderer : Renderer) :=
      outcome (Pipeline.renderToFile ⟨.standard, ∅, renderer, ∅⟩ Library.none page disk path) start
    (run (.json .compact)).2.read path = .ok pageText.toUTF8 ∧
      (run .broken).1 = .error (.render (.missingFont "Nowhere")) ∧
      (run .broken).2.Vacant path ∧ Pipeline.TouchesOnly path start (run .broken).2 := by
  intro page path disk start run
  let pipeline : Pipeline := ⟨.standard, ∅, .broken, ∅⟩
  have hlibrary : (Library.none : Library Empty (StateM FileSystem)).LeavesAlone id :=
    fun component => component.elim
  have hleaves (renderer : Renderer) := Pipeline.renderToFile_leaves documented_disk hlibrary
    ⟨.standard, ∅, renderer, ∅⟩ page path start
  have hok : (run (.json .compact)).1 = .ok () := by
    have hisOk : (run (.json .compact)).1.isOk = true := by decide +kernel
    cases hrun : (run (.json .compact)).1 with
    | ok _ => rfl
    | error error =>
      rw [hrun] at hisOk
      cases hisOk
  obtain ⟨-, hsuccess, -, -⟩ := hleaves (.json .compact)
  obtain ⟨definition, file, opened, hopens, hread⟩ := hsuccess hok
  obtain ⟨-, -, hfailure, htouches⟩ := hleaves .broken
  -- which renderer it is makes no difference before the file is open
  obtain ⟨herror, hvacant⟩ := hfailure definition file opened _ hopens (.renderer rfl)
  refine ⟨?written, herror, hvacant ?removed, htouches⟩
  case written =>
    have hbytes : ((run (.json .compact)).2.read path).toOption.getD .empty =
        pageText.toUTF8 := by decide +kernel
    rw [show (run (.json .compact)).2.read path = _ from hread] at hbytes ⊢
    exact congrArg Except.ok hbytes
  case removed =>
    have hremoves : (outcome (do
        let definition ← pipeline.compile Library.none page
        (disk.makeDirectories path.above).adapt .io
        let file ← (disk.create path).adapt .io
        let _ ← observe (pipeline.writeToFile definition disk file)
        (disk.remove path).adapt .io : ExceptT PipelineError (StateM FileSystem) Unit)
          start).1.isOk = true := by decide +kernel
    obtain ⟨compiled, made, hcompile, hmake, hcreate⟩ := hopens
    have hcompiled : outcome (pipeline.compile Library.none page) start =
        (.ok definition, compiled) := hcompile
    rw [outcome_bind_of_ok hcompiled, outcome_bind_of_ok (outcome_adapt_of_ok hmake),
      outcome_bind_of_ok (outcome_adapt_of_ok hcreate),
      outcome_bind_of_ok (outcome_observe _ opened)] at hremoves
    rcases outcome_cases (disk.remove path) (outcome (pipeline.writeToFile definition disk file)
      opened).2 with ⟨_, left, hremove⟩ | ⟨error, left, hremove⟩
    · exact congrArg Prod.fst hremove
    · rw [outcome_adapt_of_error hremove] at hremoves
      cases hremoves

/-- Where the path is a link, the file that it leads to is filled, and it stays as it was left when
    the link is removed. -/
example :
    let page : Element Empty := .tag .document ∅ [.tag .content ∅ [.text "a"]]
    let start : FileSystem := .put (.addFile .empty ["precious.txt"] "precious".toUTF8) ["out.json"]
      (.link ⟨"precious.txt"⟩)
    let run := outcome (Pipeline.renderToFile ⟨.standard, ∅, .broken, ∅⟩ Library.none page
      (FileSystem.disk : Disk Nat (StateM FileSystem)) ⟨"out.json"⟩) start
    run.1.isOk = false ∧ (run.2.at? ["out.json"]).isNone ∧
      (run.2.read ⟨"precious.txt"⟩).toOption = some "\x7b".toUTF8 := by
  decide +kernel

/-- Where a file has room for five bytes, five are stored before the flush at the end fails, and no
    name is left for them. -/
example :
    let page : Element Empty := .tag .document ∅ [.tag .content ∅ [.text "a"]]
    let start : FileSystem := { FileSystem.empty with sizeLimit := some 5 }
    let run := outcome (Pipeline.renderToFile ⟨.standard, ∅, .json .compact, ∅⟩ Library.none page
      (FileSystem.disk : Disk Nat (StateM FileSystem)) ⟨"page.json"⟩) start
    run.1.isOk = false ∧ (run.2.at? ["page.json"]).isNone ∧
      run.2.contents.map ByteArray.size = [5] := by
  decide +kernel

end Folio
