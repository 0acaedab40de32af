/-
  Partial output.

  A writer can stop in the middle of a write, so what arrives of a rendering may end anywhere.  It
  is a beginning of the payload all the same, and a rendering is a success only if it is the whole.

  1. **Ways to go** — the JSON renderer writes the pieces of its payload up to the first failure
     (`Sink.writeTexts`) and then flushes.  It fails while writing, or while flushing, or not at all
     (`outcome_json_cases`).
  2. **Deliveries** — `Sink.Delivers delivered`: each write adds a beginning of its bytes to what
     was delivered, and is a success exactly if it adds all of them.  Then texts that are written
     one after the other are delivered like one (`Sink.Delivers.writeTexts`).
  3. **The JSON renderer** — what it delivers is a beginning of the payload, the whole of it if it
     succeeds, and nothing if the font is missing (`json_delivers`).
-/
import Folio.Proofs.FontChecks

namespace Folio

variable {m : Type → Type} [Monad m] [Journal m] {σ : Type} [Stateful m σ]

/-! ## Ways to go -/

omit [Journal m] in
/-- Writes texts one after the other, up to the first failure. -/
def Sink.writeTexts (sink : Sink m) : List String → ExceptT IoError m Unit
  | [] => return
  | text :: rest => do
    sink.send text.toUTF8
    sink.writeTexts rest

/-- A plan that writes texts goes on behind them if they were written, and else ends with the
    failure under its name. -/
theorem outcome_run_writeTexts (sink : Sink m) (blame : IoError → RenderError)
    (texts : List String) (next : Plan) (s : σ) :
    outcome ((Plan.writeTexts blame texts next).run sink) s =
      match outcome (sink.writeTexts texts) s with
      | (.ok (), s') => outcome (next.run sink) s'
      | (.error error, s') => (.error (blame error), s') := by
  induction texts generalizing s with
  | nil =>
    rw [Sink.writeTexts, outcome_pure]
    rfl
  | cons text rest ih =>
    have hplan : Plan.writeTexts blame (text :: rest) next =
        .write text.toUTF8 (.unlessFailed blame (.writeTexts blame rest next)) := rfl
    rw [hplan, outcome_run_write, Sink.writeTexts]
    rcases outcome_cases (sink.send text.toUTF8) s with ⟨_, s', hwrite⟩ | ⟨error, s', hwrite⟩
    · rw [hwrite, outcome_bind_of_ok hwrite]
      exact ih s'
    · rw [hwrite, outcome_bind_of_error hwrite]
      exact outcome_run_done sink s' _

/-- **The JSON renderer** fails while it writes, or while it flushes, or it succeeds. -/
theorem outcome_json_cases {definition : Definition} {fonts : FontRegistry}
    (h : missingFont? definition.defaultStyle fonts = none) (layout : Layout) (sink : Sink m)
    (s : σ) :
    let rendered := outcome (((Renderer.json layout).plan definition fonts).run sink) s
    let written := outcome (sink.writeTexts ((Renderer.payload definition fonts).pieces layout)) s
    (∃ error s', written = (.error error, s') ∧ rendered = (.error (.serialize error), s')) ∨
    ∃ s', written = (.ok (), s') ∧
      ((∃ error s'', outcome sink.flush s' = (.error error, s'') ∧
          rendered = (.error (.io error), s'')) ∨
        ∃ s'', outcome sink.flush s' = (.ok (), s'') ∧
          rendered = (.ok (), (steps (note (.wroteDefinition Renderer.jsonName fonts.size) : m Unit)
            s'').2)) := by
  intro rendered written
  have hplan : (Renderer.json layout).plan definition fonts =
      .writeTexts .serialize ((Renderer.payload definition fonts).pieces layout)
        (.flush (.unlessFailed .io
          (.report (.wroteDefinition Renderer.jsonName fonts.size) (.done (.ok ()))))) := by
    unfold missingFont? at h
    simp only [Renderer.json, h]
  have hrendered := outcome_run_writeTexts sink .serialize
    ((Renderer.payload definition fonts).pieces layout) (.flush (.unlessFailed .io
      (.report (.wroteDefinition Renderer.jsonName fonts.size) (.done (.ok ()))))) s
  rw [← hplan] at hrendered
  rcases outcome_cases (sink.writeTexts ((Renderer.payload definition fonts).pieces layout)) s with
    ⟨_, s', hwritten⟩ | ⟨error, s', hwritten⟩
  · rw [hwritten] at hrendered
    refine .inr ⟨s', hwritten, ?_⟩
    simp only [outcome_run_flush] at hrendered
    rcases outcome_cases sink.flush s' with ⟨_, s'', hflush⟩ | ⟨error, s'', hflush⟩
    · rw [hflush] at hrendered
      refine .inr ⟨s'', hflush, hrendered.trans ?_⟩
      rw [Plan.unlessFailed, outcome_run_report, outcome_run_done]
    · rw [hflush] at hrendered
      exact .inl ⟨error, s'', hflush, hrendered.trans (outcome_run_done sink s'' _)⟩
  · rw [hwritten] at hrendered
    exact .inl ⟨error, s', hwritten, hrendered⟩

/-! ## Deliveries -/

/-- The sink delivers a beginning of the bytes it is given, and all of them if it does not fail;
    what was delivered can be seen in the state. -/
structure Sink.Delivers (sink : Sink m) (delivered : σ → ByteArray) : Prop where
  write (bytes : ByteArray) (s : σ) : ∃ part rest, bytes = part ++ rest ∧
    delivered (outcome (sink.write bytes) s).2 = delivered s ++ part ∧
    ((outcome (sink.write bytes) s).1 = .ok () ↔ rest = .empty)
  flush (s : σ) : delivered (outcome sink.flush s).2 = delivered s
  note (message : Message) (s : σ) : delivered (steps (note message : m Unit) s).2 = delivered s

variable {sink : Sink m} {delivered : σ → ByteArray}

theorem toUTF8_join_cons (text : String) (texts : List String) :
    (String.join (text :: texts)).toUTF8 = text.toUTF8 ++ (String.join texts).toUTF8 := by
  rw [String.join_cons]
  exact String.toByteArray_append

/-- What is sent is what is written; only the name of a failure changes. -/
theorem Sink.Delivers.send (h : sink.Delivers delivered) (bytes : ByteArray) (s : σ) :
    ∃ part rest, bytes = part ++ rest ∧
      delivered (outcome (sink.send bytes) s).2 = delivered s ++ part ∧
      ((outcome (sink.send bytes) s).1 = .ok () ↔ rest = .empty) := by
  rw [outcome_send, mapError_eq_ok_iff]
  exact h.write bytes s

/-- **Texts are delivered like one**: up to a point that may be in the middle of any of them, and
    to the end if all writes succeed. -/
theorem Sink.Delivers.writeTexts (h : sink.Delivers delivered) (texts : List String) (s : σ) :
    ∃ part rest, (String.join texts).toUTF8 = part ++ rest ∧
      delivered (outcome (sink.writeTexts texts) s).2 = delivered s ++ part ∧
      ((outcome (sink.writeTexts texts) s).1 = .ok () ↔ rest = .empty) := by
  induction texts generalizing s with
  | nil =>
    refine ⟨.empty, .empty, rfl, ?_, ?_⟩
    · rw [Sink.writeTexts, outcome_pure, ByteArray.append_empty]
    · rw [Sink.writeTexts, outcome_pure]
      exact ⟨fun _ => rfl, fun _ => rfl⟩
  | cons text texts ih =>
    obtain ⟨part, rest, htext, hpart, hok⟩ := h.send text.toUTF8 s
    rw [Sink.writeTexts, toUTF8_join_cons]
    rcases outcome_cases (sink.send text.toUTF8) s with ⟨_, s', hwrite⟩ | ⟨error, s', hwrite⟩
    · -- the whole text was delivered, so what follows goes on behind it
      obtain ⟨later, left, htexts, hlater, hall⟩ := ih s'
      rw [hwrite] at hpart hok
      rw [hok.1 rfl, ByteArray.append_empty] at htext
      rw [outcome_bind_of_ok hwrite]
      refine ⟨part ++ later, left, ?_, ?_, hall⟩
      · rw [htext, htexts, ByteArray.append_assoc]
      · rw [hlater, hpart, ByteArray.append_assoc]
    · rw [hwrite] at hpart hok
      rw [outcome_bind_of_error hwrite]
      refine ⟨part, rest ++ (String.join texts).toUTF8, ?_, hpart, ?_⟩
      · rw [htext, ByteArray.append_assoc]
      · constructor
        · intro hsuccess
          cases hsuccess
        · intro hempty
          cases hok.2 (ByteArray.append_eq_empty_iff.1 hempty).1

/-- A sink in memory that takes bytes up to a limit, if it has to in the middle of a write, and that
    can fail when it is flushed. -/
def Sink.cutOff (limit : Nat) (flushFails : Bool) : Sink (StateT ByteArray m) where
  write bytes := do
    let held ← get
    let room := limit - held.size
    if bytes.size ≤ room then set (held ++ bytes)
    else
      set (held ++ bytes.extract 0 room)
      throw ⟨room, .other "limit reached"⟩
  flush := if flushFails then throw (.other "flush failed") else return

theorem delivers_cutOff (limit : Nat) (flushFails : Bool) :
    (Sink.cutOff limit flushFails : Sink (StateT ByteArray m)).Delivers Prod.fst where
  write bytes s := by
    unfold Sink.cutOff
    simp only
    rw [outcome_bind, outcome_get]
    simp only
    split
    · next hfits =>
      rw [outcome_set]
      exact ⟨bytes, .empty, ByteArray.append_empty.symm, rfl, ⟨fun _ => rfl, fun _ => rfl⟩⟩
    · next hfull =>
      rw [outcome_bind_of_ok (outcome_set _ s), outcome_throw]
      refine ⟨bytes.extract 0 (limit - s.1.size), bytes.extract (limit - s.1.size) bytes.size, ?_,
        rfl, ?_⟩
      · rw [ByteArray.extract_append_extract, Nat.zero_min, Nat.max_eq_right (by omega),
          ByteArray.extract_zero_size]
      · constructor
        · intro hok
          cases hok
        · intro hempty
          have hsize := congrArg ByteArray.size hempty
          rw [ByteArray.size_extract, ByteArray.size_empty] at hsize
          omega
  flush s := by
    unfold Sink.cutOff
    cases flushFails with
    | true => rw [if_pos rfl, outcome_throw]
    | false => rw [if_neg Bool.false_ne_true, outcome_pure]
  note message s := by rw [steps_note]

/-! ## The JSON renderer -/

/-- With the font there, nothing is delivered behind the pieces of the payload; the rendering
    succeeds if they are written and flushed, and does not fail for want of a font. -/
theorem Sink.Delivers.json (h : sink.Delivers delivered) {definition : Definition}
    {fonts : FontRegistry} (hfont : missingFont? definition.defaultStyle fonts = none)
    (layout : Layout) (s : σ) :
    let rendered := outcome (((Renderer.json layout).plan definition fonts).run sink) s
    let written := outcome (sink.writeTexts ((Renderer.payload definition fonts).pieces layout)) s
    delivered rendered.2 = delivered written.2 ∧
      (rendered.1 = .ok () ↔ written.1 = .ok () ∧ (outcome sink.flush written.2).1 = .ok ()) ∧
      ∀ family, rendered.1 ≠ .error (.missingFont family) := by
  rcases outcome_json_cases hfont layout sink s with
    ⟨error, s', hwritten, hrendered⟩ | ⟨s', hwritten, ⟨error, s'', hflush, hrendered⟩ |
      ⟨s'', hflush, hrendered⟩⟩
  · simp [hwritten, hrendered]
  · have hsame := h.flush s'
    rw [hflush] at hsame
    simp [hwritten, hrendered, hflush, hsame]
  · have hsame := h.flush s'
    rw [hflush] at hsame
    simp [hwritten, hrendered, hflush, hsame, h.note]

/-- **Partial output is never reported as success.**  Into whatever sink a definition is rendered:
    what was delivered is a beginning of its payload; the rendering succeeds if and only if the
    font is there, the whole payload was delivered and the sink could be flushed behind it; and if
    it fails for want of a font, nothing was delivered at all. -/
theorem json_delivers (h : sink.Delivers delivered) (layout : Layout) (definition : Definition)
    (fonts : FontRegistry) (s : σ) :
    let payload := ((Renderer.payload definition fonts).text layout).toUTF8
    let rendered := outcome (((Renderer.json layout).plan definition fonts).run sink) s
    let written := outcome (sink.writeTexts ((Renderer.payload definition fonts).pieces layout)) s
    (∃ part rest, payload = part ++ rest ∧ delivered rendered.2 = delivered s ++ part) ∧
    (rendered.1 = .ok () ↔ missingFont? definition.defaultStyle fonts = none ∧
      delivered rendered.2 = delivered s ++ payload ∧
      (outcome sink.flush written.2).1 = .ok ()) ∧
    ∀ family, rendered.1 = .error (.missingFont family) → delivered rendered.2 = delivered s := by
  intro payload rendered written
  cases hfont : missingFont? definition.defaultStyle fonts with
  | some font =>
    have hrendered : rendered = (.error (.missingFont font), s) := by
      show outcome (((Renderer.json layout).plan definition fonts).run sink) s = _
      rw [json_missing hfont]
      exact outcome_run_done sink s _
    rw [hrendered]
    refine ⟨⟨.empty, payload, ByteArray.empty_append.symm, ByteArray.append_empty.symm⟩, ?_,
      fun _ _ => rfl⟩
    constructor
    · intro hok
      cases hok
    · rintro ⟨hnone, -⟩
      cases hnone
  | none =>
    obtain ⟨part, rest, hpayload, hpart, hok⟩ :
        ∃ part rest, payload = part ++ rest ∧ delivered written.2 = delivered s ++ part ∧
          (written.1 = .ok () ↔ rest = .empty) :=
      h.writeTexts ((Renderer.payload definition fonts).pieces layout) s
    obtain ⟨hsame, hsuccess, hfound⟩ :
        delivered rendered.2 = delivered written.2 ∧
          (rendered.1 = .ok () ↔ written.1 = .ok () ∧ (outcome sink.flush written.2).1 = .ok ()) ∧
          ∀ family, rendered.1 ≠ .error (.missingFont family) := h.json hfont layout s
    -- the whole payload was delivered if nothing of it is left
    have hwhole : delivered s ++ part = delivered s ++ payload ↔ rest = .empty := by
      rw [ByteArray.append_right_inj, hpayload]
      constructor
      · intro heq
        have hsize := congrArg ByteArray.size heq
        rw [ByteArray.size_append] at hsize
        exact ByteArray.size_eq_zero_iff.1 (by omega)
      · rintro rfl
        exact ByteArray.append_empty.symm
    rw [hsame, hpart, hsuccess, hok, hwhole, and_iff_right rfl]
    exact ⟨⟨part, rest, hpayload, rfl⟩, Iff.rfl, fun family herror => absurd herror (hfound family)⟩

/-- A definition with content, in a font of its own. -/
def monoDefinition : Definition where
  content := some (.text (.string "Hi"))
  defaultStyle := some (Options.styleOfFont "Mono")

/-- The registry with that font. -/
def monoFonts : FontRegistry := Dict.insert ∅ "Mono" (.single ⟨"mono.ttf"⟩)

/-- The whole of what is written of the definition. -/
def monoOutput : String :=
  "\x7b\"fonts\":\x7b\"Mono\":\x7b\"normal\":\"mono.ttf\",\"bold\":\"mono.ttf\"," ++
    "\"italics\":\"mono.ttf\",\"bolditalics\":\"mono.ttf\"\x7d\x7d," ++
    "\"definition\":\x7b\"content\":\"Hi\"," ++
    "\"defaultStyle\":\x7b\"font\":\"Mono\",\"fontSize\":10\x7d\x7d\x7d"

/-- Its rendering into a sink with room for so many bytes, which fails when it is flushed. -/
def renderCutOff (limit : Nat) : Except RenderError Unit × (ByteArray × Unit) :=
  outcome (((Renderer.json .compact).plan monoDefinition monoFonts).run
    (Sink.cutOff limit true : Sink (StateT ByteArray (StateM Unit)))) (.empty, ())

/-- Where there is room for twenty bytes, twenty arrive; where there is room for all of them but the
    flush fails, all arrive; and neither is a success. -/
theorem json_delivers_cutOff :
    (renderCutOff 20).2.1 = "\x7b\"fonts\":\x7b\"Mono\":\x7b\"n".toUTF8 ∧
      (renderCutOff 20).1 ≠ .ok () ∧
      (renderCutOff 1000).2.1 = monoOutput.toUTF8 ∧ (renderCutOff 1000).1 ≠ .ok () := by
  have htwenty : (renderCutOff 20).2.1 = "\x7b\"fonts\":\x7b\"Mono\":\x7b\"n".toUTF8 := by
    decide +kernel
  have hall : (renderCutOff 1000).2.1 = monoOutput.toUTF8 := by decide +kernel
  have hdelivers (limit : Nat) :
      (Sink.cutOff limit true : Sink (StateT ByteArray (StateM Unit))).Delivers Prod.fst :=
    delivers_cutOff limit true
  have hrender (limit : Nat) :=
    json_delivers (hdelivers limit) .compact monoDefinition monoFonts (.empty, ())
  refine ⟨htwenty, fun hok => ?_, hall, fun hok => ?_⟩
  · obtain ⟨-, hwhole, -⟩ := (hrender 20).2.1.1 hok
    exact absurd (htwenty.symm.trans hwhole) (by decide +kernel)
  · obtain ⟨-, -, hflush⟩ := (hrender 1000).2.1.1 hok
    cases hflush

end Folio
