/-
  Output that nothing stands in the way of.

  A plan goes on from each write and each flush as the answer says.  Where all of them succeed,
  there is one way through the plan, and what it writes has nothing to do with the sink.

  1. **Unhindered plans** — `Plan.unhindered`: what a plan writes and what comes of it if nothing
     fails.  The JSON renderer writes the text of its payload (`unhindered_json`).
  2. **Room** — `Sink.Takes took limit`: the sink takes everything, as long as the bytes it took in
     all stay within the limit.  A plan that fits goes unhindered (`Sink.Takes.run`).
  3. **Buffers** — with a buffer in front, a sink has the same room (`Sink.Takes.buffered`).
  4. **Pipelines** — a rendering that fits arrives as it is, in a sink (`took_write_of_takes`) and
     in a file (`outcome_fillFile_of_takes`).
-/
import Folio.Proofs.FontChecks

namespace Folio

variable {m : Type → Type} [Monad m] [Journal m] {φ σ : Type} [Stateful m σ]

/-! ## Unhindered plans -/

namespace Plan

/-- What a plan writes, and what comes of it, if no write and no flush fails. -/
def unhindered : Plan → ByteArray × Except RenderError Unit
  | done result => (.empty, result)
  | write bytes next => (bytes ++ (next (.ok ())).unhindered.1, (next (.ok ())).unhindered.2)
  | flush next => (next (.ok ())).unhindered
  | report _ next => next.unhindered

/-- Texts are written one after the other. -/
theorem unhindered_writeTexts (blame : IoError → RenderError) (texts : List String) (next : Plan) :
    (writeTexts blame texts next).unhindered =
      ((String.join texts).toUTF8 ++ next.unhindered.1, next.unhindered.2) := by
  induction texts with
  | nil =>
    show next.unhindered = ("".toByteArray ++ next.unhindered.1, next.unhindered.2)
    rw [String.toByteArray_empty, ByteArray.empty_append]
  | cons text rest ih =>
    have htexts : (writeTexts blame (text :: rest) next).unhindered =
        (text.toUTF8 ++ (writeTexts blame rest next).unhindered.1,
          (writeTexts blame rest next).unhindered.2) := rfl
    rw [htexts, ih, ← ByteArray.append_assoc, String.join_cons]
    exact Prod.ext (congrArg (· ++ _) String.toByteArray_append.symm) rfl

end Plan

variable {layout : Layout} {definition : Definition} {fonts : FontRegistry}

/-- **The JSON renderer** writes the text of its payload. -/
theorem unhindered_json (h : missingFont? definition.defaultStyle fonts = none) :
    ((Renderer.json layout).plan definition fonts).unhindered =
      (((Renderer.payload definition fonts).text layout).toUTF8, .ok ()) := by
  unfold missingFont? at h
  simp only [Renderer.json, h]
  rw [Plan.unhindered_writeTexts]
  exact Prod.ext ByteArray.append_empty rfl

/-! ## Room -/

variable {took : ByteArray → σ → Prop} {limit : Nat}

/-- A sink takes everything, as long as what it took in all stays within the limit. -/
structure Sink.Takes (sink : Sink m) (took : ByteArray → σ → Prop) (limit : Nat) : Prop where
  write (total bytes : ByteArray) (s : σ) : took total s → (total ++ bytes).size ≤ limit →
    (outcome (sink.write bytes) s).1 = .ok ()
  flush (total : ByteArray) (s : σ) : took total s → total.size ≤ limit →
    (outcome sink.flush s).1 = .ok ()

namespace Sink.Takes

/-- **A plan that fits goes unhindered.** -/
theorem run {sink : Sink m} (hroom : sink.Takes took limit) (h : sink.Accounts took)
    (plan : Plan) : ∀ (total : ByteArray) (s : σ), took total s →
      (total ++ plan.unhindered.1).size ≤ limit →
      (outcome (plan.run sink) s).1 = plan.unhindered.2 ∧
        plan.accepted sink s = plan.unhindered.1 := by
  -- every answer is a success, so the plan goes on as it does unhindered
  induction plan with
  | done result =>
    intro total s htook hfits
    rw [outcome_run_done]
    exact ⟨rfl, rfl⟩
  | write bytes next ih =>
    intro total s htook hfits
    rw [Plan.unhindered, ← ByteArray.append_assoc] at hfits
    have hbytes : (total ++ bytes).size ≤ limit := by
      rw [ByteArray.size_append] at hfits
      omega
    have hanswer := hroom.write total bytes s htook hbytes
    have htaken := h.write total bytes s htook
    rw [hanswer] at htaken
    obtain ⟨hresult, haccepted⟩ := ih (.ok ()) _ _ htaken hfits
    have hwrite : (Plan.write bytes next).accepted sink s =
        taken bytes (outcome (sink.write bytes) s).1 ++
          (next ((outcome (sink.write bytes) s).1.mapError WriteFailure.cause)).accepted sink
            (outcome (sink.write bytes) s).2 := rfl
    rw [hwrite, outcome_run_write, outcome_send, hanswer]
    exact ⟨hresult, congrArg (bytes ++ ·) haccepted⟩
  | flush next ih =>
    intro total s htook hfits
    have htotal : total.size ≤ limit := by
      rw [ByteArray.size_append] at hfits
      omega
    have hanswer := hroom.flush total s htook htotal
    have hflush : (Plan.flush next).accepted sink s =
        (next (outcome sink.flush s).1).accepted sink (outcome sink.flush s).2 := rfl
    rw [hflush, outcome_run_flush, hanswer]
    exact ih (.ok ()) total _ (h.flush total s htook) hfits
  | report message next ih =>
    intro total s htook hfits
    rw [outcome_run_report]
    exact ih total _ (h.note total message s htook) hfits

/-! ## Buffers -/

variable {inner : Sink m} {total : ByteArray}

omit [Journal m] in
/-- What fits can be passed on. -/
theorem emptyBuffer (hroom : inner.Takes took limit) (s : ByteArray × σ)
    (hholding : Holding took total s) (hfits : total.size ≤ limit) :
    (outcome inner.emptyBuffer s).1 = .ok () := by
  obtain ⟨passed, htook, rfl⟩ := hholding
  unfold Sink.emptyBuffer
  rw [outcome_bind, outcome_get]
  simp only
  by_cases hsize : s.1.size = 0
  · rw [if_neg (not_not_intro hsize), outcome_pure]
  · have hwrite := hroom.write passed s.1 s.2 htook hfits
    rw [if_pos hsize, outcome_bind_of_ok (outcome_observe _ _), outcome_besideState, hwrite]
    simp only
    rw [outcome_set]

/-- **A buffer takes what fits behind it.** -/
theorem buffered (hroom : inner.Takes took limit) (h : inner.Accounts took) (capacity : Nat) :
    (inner.buffered capacity).Takes (Holding took) limit where
  write total bytes s hholding hfits := by
    have hstore (s' : ByteArray × σ) (hheld : Holding took total s')
        (hempty : capacity ≤ bytes.size → s'.1 = .empty) :
        (outcome (inner.store capacity bytes) s').1 = .ok () := by
      unfold Sink.store
      split
      · next hlarge =>
        -- it goes past a buffer that holds nothing
        obtain ⟨passed, htook, rfl⟩ := hheld
        rw [hempty hlarge, ByteArray.append_empty] at hfits
        rw [outcome_besideState]
        exact hroom.write passed bytes s'.2 htook hfits
      · rw [outcome_modify]
    unfold Sink.buffered
    simp only
    rw [outcome_bind, outcome_get]
    simp only
    split
    · next hfull =>
      have htotal : total.size ≤ limit := by
        rw [ByteArray.size_append] at hfits
        omega
      have hanswer := hroom.emptyBuffer s hholding htotal
      obtain ⟨hheld, hempty⟩ := h.emptyBuffer s hholding
      rw [outcome_bind_of_ok (outcome_adapt_of_ok (Prod.ext hanswer rfl))]
      exact hstore _ hheld fun _ => hempty hanswer
    · next hsmall =>
      refine hstore s hholding fun hlarge => ?_
      have hsize : s.1.size = 0 := by omega
      exact ByteArray.size_eq_zero_iff.1 hsize
  flush total s hholding hfits := by
    have hanswer := hroom.emptyBuffer s hholding hfits
    obtain ⟨⟨passed, htook, htotal⟩, hempty⟩ := h.emptyBuffer s hholding
    rw [hempty hanswer, ByteArray.append_empty] at htotal
    show (outcome (inner.emptyBuffer >>= fun _ => besideState inner.flush) s).1 = .ok ()
    rw [outcome_bind_of_ok (Prod.ext hanswer rfl), outcome_besideState]
    exact hroom.flush passed _ htook (htotal ▸ hfits)

end Sink.Takes

/-! ## Pipelines -/

namespace Pipeline

variable {pipeline : Pipeline} {disk : Disk φ m} {path : Path} {file : φ} {payload : ByteArray}
  {s : σ}

/-- The pipeline renders a definition as these bytes, unless something fails. -/
def Renders (pipeline : Pipeline) (definition : Definition) (payload : ByteArray) : Prop :=
  (pipeline.renderer.plan definition pipeline.fonts).unhindered = (payload, .ok ())

/-- **Into a sink** with room for it, the rendering succeeds and arrives. -/
theorem took_write_of_takes (hrenders : pipeline.Renders definition payload) {sink : Sink m}
    (hroom : sink.Takes took limit) (h : sink.Accounts took) (htook : took .empty s)
    (hfits : payload.size ≤ limit) :
    let written := outcome (pipeline.write definition sink) s
    written.1 = .ok () ∧ pipeline.accepted definition sink s = payload ∧
      took payload written.2 := by
  have haccepted := took_write pipeline definition h htook
  obtain ⟨hresult, hpayload⟩ := hroom.run h
    (pipeline.renderer.plan definition pipeline.fonts) .empty s htook
    (by rwa [ByteArray.empty_append, hrenders])
  rw [hrenders] at hresult hpayload
  have hwritten : (outcome (pipeline.write definition sink) s).1 = .ok () := by
    unfold Pipeline.write
    rw [outcome_bind_of_ok (outcome_adapt_of_ok (Prod.ext hresult rfl)), outcome_note]
  rw [show pipeline.accepted definition sink s = payload from hpayload] at haccepted
  exact ⟨hwritten, hpayload, haccepted⟩

/-- **Into a file** with room for it, the rendering succeeds and arrives. -/
theorem outcome_fillFile_of_takes (hrenders : pipeline.Renders definition payload)
    (hroom : (Sink.file disk file).Takes took limit) (h : (Sink.file disk file).Accounts took)
    (htook : took .empty s) (hfits : payload.size ≤ limit) (path : Path) :
    ∃ filled, outcome (pipeline.fillFile definition disk path file) s = (.ok (), filled) ∧
      took payload filled := by
  have hbuffered := accounts_buffered h Sink.bufferSize
  have hbufferedRoom := hroom.buffered h Sink.bufferSize
  have hstart : Holding took .empty (ByteArray.empty, s) := ⟨.empty, htook, ByteArray.append_empty⟩
  obtain ⟨hwritten, hpayload, hheld⟩ :=
    took_write_of_takes hrenders hbufferedRoom hbuffered hstart hfits
  have hflushed := hbufferedRoom.flush payload _ hheld hfits
  have hok : (outcome (pipeline.writeToFile definition disk file) s).1 = .ok () := by
    rw [fst_outcome_writeToFile]
    unfold writeAndFlush
    rw [Sink.bufferedFile, outcome_bind_of_ok (Prod.ext hwritten rfl), outcome_adapt, hflushed]
    rfl
  obtain ⟨-, hcomplete⟩ := took_writeToFile pipeline definition h htook
  have hfilled := hcomplete hok
  rw [show pipeline.accepted definition (Sink.bufferedFile disk file) (.empty, s) = payload
    from hpayload] at hfilled
  exact ⟨_, outcome_fillFile_of_ok (Prod.ext hok rfl), h.note payload _ _ hfilled⟩

end Pipeline

end Folio
