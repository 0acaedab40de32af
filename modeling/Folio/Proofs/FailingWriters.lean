/-
  What a failing writer is called.

  A writer that fails does so in a write or in a flush.  The JSON renderer has one name for each of
  these, so the name of one and the same failure depends on where it surfaces; with a buffer before
  the writer, that is a matter of the size of the payload.

  1. **Two names** — what comes of a rendering is what comes of the writes and of the flush behind
     them, each under its own name (`fst_outcome_json`).
  2. **Roomy buffers** — a buffer that is larger than what is written passes nothing on before it is
     flushed (`outcome_writeTexts_buffered`).
  3. **Writers that refuse** — `Sink.Refuses reason`: no byte is ever taken.  Behind a buffer this
     surfaces in a write if there is more to write than the buffer holds
     (`Sink.Refuses.writeTexts_buffered`), and else in the flush (`Sink.Refuses.flush_buffered`).
  4. **The JSON renderer** — a failure is an I/O error if and only if it surfaces in the flush
     (`json_fails`).
-/
import Folio.Proofs.PartialOutput

namespace Folio

variable {m : Type → Type} [Monad m] [Journal m] {σ : Type} [Stateful m σ]

/-! ## Two names -/

/-- What comes of a rendering, by what comes of the writes and of the flush behind them. -/
theorem fst_outcome_json {definition : Definition} {fonts : FontRegistry}
    (hfont : missingFont? definition.defaultStyle fonts = none) (layout : Layout) (sink : Sink m)
    (s : σ) :
    (outcome (((Renderer.json layout).plan definition fonts).run sink) s).1 =
      match outcome (sink.writeTexts ((Renderer.payload definition fonts).pieces layout)) s with
      | (.ok (), s') => (outcome sink.flush s').1.mapError .io
      | (.error error, _) => .error (.serialize error) := by
  rcases outcome_json_cases hfont layout sink s with
    ⟨error, s', hwritten, hrendered⟩ | ⟨s', hwritten, ⟨error, s'', hflush, hrendered⟩ |
      ⟨s'', hflush, hrendered⟩⟩
  · rw [hwritten, hrendered]
  · simp only [hwritten, hrendered, hflush, Except.mapError]
  · simp only [hwritten, hrendered, hflush, Except.mapError]

/-- A failure of the flush is an I/O error, and a failure of a write is one to serialize. -/
theorem json_error_iff {definition : Definition} {fonts : FontRegistry}
    (hfont : missingFont? definition.defaultStyle fonts = none) (layout : Layout) (sink : Sink m)
    (s : σ) (error : IoError) :
    let rendered := outcome (((Renderer.json layout).plan definition fonts).run sink) s
    let written := outcome (sink.writeTexts ((Renderer.payload definition fonts).pieces layout)) s
    (rendered.1 = .error (.io error) ↔
      written.1 = .ok () ∧ (outcome sink.flush written.2).1 = .error error) ∧
    (rendered.1 = .error (.serialize error) ↔ written.1 = .error error) := by
  rcases outcome_json_cases hfont layout sink s with
    ⟨failure, s', hwritten, hrendered⟩ | ⟨s', hwritten, ⟨failure, s'', hflush, hrendered⟩ |
      ⟨s'', hflush, hrendered⟩⟩
  · simp [hwritten, hrendered]
  · simp [hwritten, hrendered, hflush]
  · simp [hwritten, hrendered, hflush]

/-! ## Roomy buffers -/

section Buffers

variable {inner : Sink m} {capacity : Nat}

omit [Journal m]

/-- What fits into a buffer is kept there. -/
theorem outcome_write_buffered {bytes held : ByteArray} (s : σ)
    (hroom : held.size + bytes.size < capacity) :
    outcome ((inner.buffered capacity).write bytes) (held, s) = (.ok (), (held ++ bytes, s)) := by
  have hfull : ¬capacity < held.size + bytes.size := by omega
  have hlarge : ¬capacity ≤ bytes.size := by omega
  unfold Sink.buffered Sink.store
  simp only
  rw [outcome_bind, outcome_get]
  simp only
  rw [if_neg hfull, if_neg hlarge, outcome_modify]

/-- **A roomy buffer** keeps all that is written. -/
theorem outcome_writeTexts_buffered (texts : List String) (held : ByteArray) (s : σ)
    (hroom : held.size + (String.join texts).toUTF8.size < capacity) :
    outcome ((inner.buffered capacity).writeTexts texts) (held, s) =
      (.ok (), (held ++ (String.join texts).toUTF8, s)) := by
  induction texts generalizing held with
  | nil =>
    have hempty : (String.join []).toUTF8 = .empty := rfl
    rw [Sink.writeTexts, outcome_pure, hempty, ByteArray.append_empty]
  | cons text rest ih =>
    rw [toUTF8_join_cons, ByteArray.size_append] at hroom
    have hwrite : outcome ((inner.buffered capacity).send text.toUTF8) (held, s) =
        (.ok (), (held ++ text.toUTF8, s)) :=
      outcome_adapt_of_ok (outcome_write_buffered s (by omega))
    have hrest : (held ++ text.toUTF8).size + (String.join rest).toUTF8.size < capacity := by
      rw [ByteArray.size_append]
      omega
    rw [Sink.writeTexts, outcome_bind_of_ok hwrite, ih _ hrest, toUTF8_join_cons,
      ByteArray.append_assoc]

/-! ## Writers that refuse -/

/-- The sink takes no byte, for one and the same reason.  Where there are no bytes to take, there is
    nothing to refuse. -/
def Sink.Refuses (sink : Sink m) (reason : IoError) : Prop :=
  ∀ bytes s, (outcome (sink.send bytes) s).1 =
    if bytes.size = 0 then .ok () else .error reason

namespace Sink.Refuses

variable {reason : IoError} (h : inner.Refuses reason)

include h

theorem write_cases (bytes : ByteArray) (s : σ) :
    (bytes.size = 0 ∧ ∃ s', outcome (inner.write bytes) s = (.ok (), s')) ∨
      bytes.size ≠ 0 ∧
        ∃ taken s', outcome (inner.write bytes) s = (.error ⟨taken, reason⟩, s') := by
  have hsend := h bytes s
  rw [outcome_send] at hsend
  rcases outcome_cases (inner.write bytes) s with ⟨_, s', hwrite⟩ | ⟨⟨taken, cause⟩, s', hwrite⟩
  · rw [hwrite] at hsend
    split at hsend
    · next hempty => exact .inl ⟨hempty, s', hwrite⟩
    · cases hsend
  · rw [hwrite] at hsend
    split at hsend
    · cases hsend
    · next hbytes =>
      cases hsend
      exact .inr ⟨hbytes, taken, s', hwrite⟩

/-- A buffer before it can be emptied only if it is empty. -/
theorem emptyBuffer {held : ByteArray} (hheld : held.size ≠ 0) (s : σ) :
    (outcome inner.emptyBuffer (held, s)).1 = .error reason := by
  obtain ⟨hempty, -⟩ | ⟨-, taken, s', hwrite⟩ := h.write_cases held s
  · exact absurd hempty hheld
  unfold Sink.emptyBuffer
  rw [outcome_bind, outcome_get]
  simp only
  rw [if_pos hheld, outcome_bind_of_ok (outcome_observe _ _), outcome_besideState, hwrite]
  simp only
  rw [outcome_bind_of_ok (outcome_set _ _), outcome_throw]

/-- The flush of a buffer before it fails if there is anything in the buffer. -/
theorem flush_buffered {held : ByteArray} (hheld : held.size ≠ 0) (s : σ) :
    (outcome (inner.buffered capacity).flush (held, s)).1 = .error reason := by
  have hemptied := h.emptyBuffer hheld s
  show (outcome (inner.emptyBuffer >>= fun _ => besideState inner.flush) (held, s)).1 = _
  rw [outcome_bind_of_error (Prod.ext hemptied rfl)]

/-- A write behind which the buffer does not hold all the bytes fails. -/
theorem write_buffered {held : ByteArray} (hheld : held.size ≤ capacity) (bytes : ByteArray)
    (s : σ) :
    (∃ taken, (outcome ((inner.buffered capacity).write bytes) (held, s)).1 =
        .error ⟨taken, reason⟩) ∨
      ∃ held' s', outcome ((inner.buffered capacity).write bytes) (held, s) =
          (.ok (), (held', s')) ∧
        held'.size = held.size + bytes.size ∧ held'.size ≤ capacity := by
  unfold Sink.buffered
  simp only
  rw [outcome_bind, outcome_get]
  simp only
  by_cases hfull : capacity < held.size + bytes.size
  · left
    rw [if_pos hfull]
    by_cases hempty : held.size = 0
    · -- there is nothing to pass on, and the bytes go past the buffer
      have hlarge : capacity ≤ bytes.size := by omega
      obtain ⟨hnone, -⟩ | ⟨-, taken, s', hwrite⟩ := h.write_cases bytes s
      · omega
      have hemptied : outcome inner.emptyBuffer (held, s) = (.ok (), (held, s)) := by
        unfold Sink.emptyBuffer
        rw [outcome_bind, outcome_get]
        simp only
        rw [if_neg (not_not_intro hempty), outcome_pure]
      unfold Sink.store
      rw [outcome_bind_of_ok (outcome_adapt_of_ok hemptied), if_pos hlarge, outcome_besideState,
        hwrite]
      exact ⟨taken, rfl⟩
    · have hemptied : outcome inner.emptyBuffer (held, s) = (.error reason, _) :=
        Prod.ext (h.emptyBuffer hempty s) rfl
      rw [outcome_bind_of_error (outcome_adapt_of_error hemptied)]
      exact ⟨0, rfl⟩
  · rw [if_neg hfull]
    unfold Sink.store
    by_cases hlarge : capacity ≤ bytes.size
    · -- the buffer is empty, and the bytes go past it
      rw [if_pos hlarge, outcome_besideState]
      obtain ⟨hnone, s', hwrite⟩ | ⟨-, taken, s', hwrite⟩ := h.write_cases bytes s
      · rw [hwrite]
        exact .inr ⟨held, s', rfl, by omega, hheld⟩
      · rw [hwrite]
        exact .inl ⟨taken, rfl⟩
    · rw [if_neg hlarge, outcome_modify]
      refine .inr ⟨held ++ bytes, s, rfl, ByteArray.size_append, ?_⟩
      rw [ByteArray.size_append]
      omega

/-- **A full buffer** brings a refusal to light. -/
theorem writeTexts_buffered (texts : List String) {held : ByteArray}
    (hheld : held.size ≤ capacity) (s : σ)
    (hfull : capacity < held.size + (String.join texts).toUTF8.size) :
    (outcome ((inner.buffered capacity).writeTexts texts) (held, s)).1 = .error reason := by
  -- up to the failure, the buffer holds all that was written
  induction texts generalizing held s with
  | nil =>
    have hempty : (String.join []).toUTF8.size = 0 := rfl
    omega
  | cons text rest ih =>
    rw [toUTF8_join_cons, ByteArray.size_append] at hfull
    rw [Sink.writeTexts, Sink.send]
    rcases h.write_buffered hheld text.toUTF8 s with
      ⟨taken, hwrite⟩ | ⟨held', s', hwrite, hsize, hfits⟩
    · rw [outcome_bind_of_error (outcome_adapt_of_error (Prod.ext hwrite rfl))]
    · rw [outcome_bind_of_ok (outcome_adapt_of_ok hwrite)]
      exact ih hfits s' (by omega)

end Sink.Refuses

end Buffers

/-! ## The JSON renderer -/

/-- There is always something to write. -/
theorem size_payload_pos (definition : Definition) (fonts : FontRegistry) (layout : Layout) :
    0 < ((Renderer.payload definition fonts).text layout).toUTF8.size := by
  obtain ⟨rest, hpieces⟩ : ∃ rest, (Renderer.payload definition fonts).pieces layout =
      "\x7b" :: rest := ⟨_, rfl⟩
  have hbrace : "\x7b".toUTF8.size = 1 := by decide +kernel
  rw [Json.text, hpieces, toUTF8_join_cons, ByteArray.size_append, hbrace]
  omega

/-- **What a failing writer is called.**  If the font is there, a rendering fails with an I/O error
    if and only if the writes succeed and the flush behind them fails, and as a failure to serialize
    if and only if one of the writes fails, whatever it is that is written to.  So behind a buffer
    that is larger than the payload, all failures are I/O errors.  But the size of the payload
    matters: a writer that takes no byte at all fails with an I/O error behind a buffer that is
    larger than the payload, and as a failure to serialize behind one that is smaller. -/
theorem json_fails {definition : Definition} {fonts : FontRegistry}
    (hfont : missingFont? definition.defaultStyle fonts = none) (layout : Layout) (sink : Sink m)
    (s : σ) :
    let rendered := outcome (((Renderer.json layout).plan definition fonts).run sink) s
    let written := outcome (sink.writeTexts ((Renderer.payload definition fonts).pieces layout)) s
    let size := ((Renderer.payload definition fonts).text layout).toUTF8.size
    let buffered (capacity : Nat) :=
      outcome (((Renderer.json layout).plan definition fonts).run (sink.buffered capacity))
        (ByteArray.empty, s)
    (∀ error, rendered.1 = .error (.io error) ↔
      written.1 = .ok () ∧ (outcome sink.flush written.2).1 = .error error) ∧
    (∀ error, rendered.1 = .error (.serialize error) ↔ written.1 = .error error) ∧
    (∀ capacity, size < capacity →
      ∀ error, (buffered capacity).1 = .error error → ∃ reason, error = .io reason) ∧
    ∀ reason, sink.Refuses reason → ∀ capacity,
      (size < capacity → (buffered capacity).1 = .error (.io reason)) ∧
      (capacity < size → (buffered capacity).1 = .error (.serialize reason)) := by
  intro rendered written size buffered
  -- the writes into a roomy buffer succeed, so only the flush can fail
  have hroomy : ∀ capacity, size < capacity → (buffered capacity).1 =
      (outcome (sink.buffered capacity).flush
        (((Renderer.payload definition fonts).text layout).toUTF8, s)).1.mapError .io := by
    intro capacity hcapacity
    have hwritten : outcome ((sink.buffered capacity).writeTexts
        ((Renderer.payload definition fonts).pieces layout)) (.empty, s) =
          (.ok (), (.empty ++ ((Renderer.payload definition fonts).text layout).toUTF8, s)) :=
      outcome_writeTexts_buffered _ .empty s
        (by rw [ByteArray.size_empty, Nat.zero_add]; exact hcapacity)
    have hresult := fst_outcome_json hfont layout (sink.buffered capacity) (ByteArray.empty, s)
    rw [hwritten, ByteArray.empty_append] at hresult
    exact hresult
  refine ⟨fun error => (json_error_iff hfont layout sink s error).1,
    fun error => (json_error_iff hfont layout sink s error).2, ?_, ?_⟩
  · intro capacity hcapacity error herror
    rw [hroomy capacity hcapacity] at herror
    rcases outcome_cases (sink.buffered capacity).flush
      (((Renderer.payload definition fonts).text layout).toUTF8, s) with
      ⟨_, s', hflush⟩ | ⟨reason, s', hflush⟩
    · rw [hflush] at herror
      cases herror
    · rw [hflush] at herror
      cases herror
      exact ⟨reason, rfl⟩
  · intro reason hrefuses capacity
    constructor
    · intro hcapacity
      have hsize := size_payload_pos definition fonts layout
      rw [hroomy capacity hcapacity, hrefuses.flush_buffered (by omega)]
      rfl
    · intro hcapacity
      have hnames := json_error_iff hfont layout (sink.buffered capacity)
        (ByteArray.empty, s) reason
      refine hnames.2.2 (hrefuses.writeTexts_buffered _ (Nat.zero_le capacity) s ?_)
      rw [ByteArray.size_empty, Nat.zero_add]
      exact hcapacity

/-- A memory without room, which takes no byte. -/
def Sink.full : Sink (StateT ByteArray (StateM Unit)) := cutOff 0 false

theorem refuses_full : Sink.full.Refuses (.other "limit reached") := by
  intro bytes s
  rw [outcome_send]
  unfold Sink.full Sink.cutOff
  simp only
  rw [outcome_bind, outcome_get]
  simp only
  rw [Nat.zero_sub]
  by_cases hbytes : bytes.size = 0
  · rw [if_pos hbytes, if_pos (Nat.le_of_eq hbytes), outcome_set]
    rfl
  · rw [if_neg hbytes, if_neg (by omega), outcome_bind_of_ok (outcome_set _ s), outcome_throw]
    rfl

/-- Behind a buffer of a hundred bytes the failure is an I/O error, behind one of eight bytes it is
    a failure to serialize. -/
theorem json_fails_full :
    let rendered (capacity : Nat) := outcome (((Renderer.json .compact).plan {} ∅).run
      (Sink.full.buffered capacity)) (.empty, (.empty, ()))
    missingFont? ({} : Definition).defaultStyle ∅ = none ∧
      Sink.full.Refuses (.other "limit reached") ∧
      (rendered 100).1 = .error (.io (.other "limit reached")) ∧
      (rendered 8).1 = .error (.serialize (.other "limit reached")) := by
  intro rendered
  have hfont : missingFont? ({} : Definition).defaultStyle ∅ = none := rfl
  obtain ⟨-, -, -, hrefused⟩ := json_fails hfont .compact Sink.full (.empty, ())
  have hcapacity := hrefused _ refuses_full
  exact ⟨hfont, refuses_full, (hcapacity 100).1 (by decide +kernel),
    (hcapacity 8).2 (by decide +kernel)⟩

/-- A writer that fails is not always an I/O error: one with room for three bytes fails in the
    middle of the payload, which counts as a failure to serialize. -/
theorem json_fails_limited :
    let rendered := outcome (((Renderer.json .compact).plan {} ∅).run
      (Sink.limited (some 3) false : Sink (StateT ByteArray (StateM Unit)))) (.empty, ())
    missingFont? ({} : Definition).defaultStyle ∅ = none ∧
      rendered.1 = .error (.serialize (.other "limit reached")) ∧
      ∀ error, rendered.1 ≠ .error (.io error) := by
  intro rendered
  have hserialize : rendered.1 = .error (.serialize (.other "limit reached")) := by
    rfl
  refine ⟨rfl, hserialize, fun error hio => ?_⟩
  cases hserialize.symm.trans hio

end Folio
