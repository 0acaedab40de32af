/-
  Values are read in normal form.

  The reader keeps the fields of an open object sorted, a later field replacing an earlier one with
  the same key.  So whatever it has read at any time is in normal form (`State.Normal`), which each
  character keeps (`State.safe_step`), and so is the value in the end (`normal_parse`).
-/
import Folio.IoError
import Folio.Json.Parser

namespace Folio

namespace Json

theorem normalItems_iff {items : List Json} :
    NormalItems items ↔ ∀ item ∈ items, item.Normal := by
  induction items with
  | nil => exact ⟨fun _ _ hitem => absurd hitem List.not_mem_nil, fun _ => trivial⟩
  | cons item rest ih => rw [NormalItems, ih, List.forall_mem_cons]

namespace Parser

/-! ## What has been read -/

/-- The items or fields of an open container are in normal form. -/
def Frame.Normal : Frame → Prop
  | array items => NormalItems items
  | object fields | member fields _ => KeysIncrease fields ∧ NormalFields fields

/-- A value that a word stands for is in normal form. -/
def Expecting.Normal : Expecting → Prop
  | word _ read => read.Normal
  | _ => True

namespace State

/-- All that has been read is in normal form. -/
structure Normal (s : State) : Prop where
  stack : ∀ frame ∈ s.stack, frame.Normal
  result : ∀ value, s.result = some value → value.Normal
  expecting : s.expecting.Normal

/-- The reader goes on with all in normal form, or gives up. -/
inductive Safe : Except JsonError State → Prop
  | ok {next} : Normal next → Safe (.ok next)
  | error {error} : Safe (.error error)

theorem Safe.normal {result : Except JsonError State} {next : State} (h : Safe result)
    (hnext : result = .ok next) : next.Normal := by
  cases h with
  | ok hnormal =>
    cases hnext
    exact hnormal
  | error => cases hnext

variable {limit : Nat} {s : State}

/-- Going on to expect something else. -/
theorem Normal.expect (h : s.Normal) {expecting : Expecting} (hexpecting : expecting.Normal) :
    Safe (.ok { s with expecting := expecting }) :=
  .ok ⟨h.stack, h.result, hexpecting⟩

theorem normal_of_stack {stack : List Frame} {expecting : Expecting}
    (hstack : ∀ frame ∈ stack, frame.Normal) (hexpecting : expecting.Normal) :
    Normal ⟨stack, none, expecting⟩ :=
  ⟨hstack, fun _ hsome => (by cases hsome), hexpecting⟩

/-! ## One more character -/

theorem normal_complete (hstack : ∀ frame ∈ s.stack, frame.Normal) {value : Json}
    (hvalue : value.Normal) : (s.complete value).Normal := by
  obtain ⟨stack, result, expecting⟩ := s
  match stack, hstack with
  | [], hstack => exact ⟨hstack, fun _ hsome => (by cases hsome; exact hvalue), trivial⟩
  | .array items :: rest, hstack =>
    obtain ⟨hitems, hrest⟩ := List.forall_mem_cons.1 hstack
    exact normal_of_stack (List.forall_mem_cons.2 ⟨⟨hvalue, hitems⟩, hrest⟩) trivial
  | .member fields key :: rest, hstack =>
    obtain ⟨hfields, hrest⟩ := List.forall_mem_cons.1 hstack
    have hinserted : Frame.Normal (.object (insertSorted key value fields)) :=
      ⟨keysIncrease_insertSorted hfields.1, normalFields_insertSorted hvalue hfields.2⟩
    exact normal_of_stack (List.forall_mem_cons.2 ⟨hinserted, hrest⟩) trivial
  | .object fields :: rest, hstack => exact normal_of_stack hstack trivial

theorem safe_open (h : s.Normal) {frame : Frame} {expecting : Expecting} (hframe : frame.Normal)
    (hexpecting : expecting.Normal) : Safe (s.open limit frame expecting) := by
  rw [State.open]
  split
  · exact .ok (normal_of_stack (List.forall_mem_cons.2 ⟨hframe, h.stack⟩) hexpecting)
  · exact .error

theorem safe_closeArray (h : s.Normal) : Safe s.closeArray := by
  rw [closeArray]
  split
  · next items rest hstack =>
    obtain ⟨hitems, hrest⟩ := List.forall_mem_cons.1 (hstack ▸ h.stack)
    refine .ok (normal_complete hrest (normalItems_iff.2 fun item hitem => ?_))
    exact normalItems_iff.1 hitems item (List.mem_reverse.1 hitem)
  · exact .error

theorem safe_closeObject (h : s.Normal) : Safe s.closeObject := by
  rw [closeObject]
  split
  · next fields rest hstack =>
    obtain ⟨hfields, hrest⟩ := List.forall_mem_cons.1 (hstack ▸ h.stack)
    have hvalue : (Json.object fields).Normal := hfields
    exact .ok (normal_complete hrest hvalue)
  · exact .error

theorem safe_startValue (h : s.Normal) (c : Char) : Safe (s.startValue limit c) := by
  have harray : Frame.Normal (.array []) := trivial
  have hobject : Frame.Normal (.object []) := ⟨List.Pairwise.nil, trivial⟩
  rw [startValue]
  split
  · exact h.expect trivial
  split
  · exact safe_open h harray trivial
  split
  · exact safe_open h hobject trivial
  split
  · exact h.expect trivial
  split
  · exact h.expect trivial
  split
  · exact h.expect trivial
  split
  · exact h.expect trivial
  · exact .error

theorem safe_separate (h : s.Normal) (c : Char) : Safe (s.separate c) := by
  rw [separate]
  split
  · exact .ok h
  split
  · split
    · exact h.expect trivial
    · exact h.expect trivial
    · exact .error
  split
  · exact safe_closeArray h
  split
  · exact safe_closeObject h
  · exact .error

/-- A value is complete with the character before this one. -/
theorem safe_completeSeparate (h : s.Normal) {value : Json} (hvalue : value.Normal) (c : Char) :
    Safe ((s.complete value).separate c) :=
  safe_separate (normal_complete h.stack hvalue) c

/-- Going on within a string or a key, whose text does not matter. -/
theorem Normal.scan (h : s.Normal) (scan : Except JsonError StringScan)
    {expecting : StringScan → Expecting} (hexpecting : ∀ scan, (expecting scan).Normal) :
    Safe (do return { s with expecting := expecting (← scan) }) := by
  cases scan with
  | error error => exact .error
  | ok scan => exact h.expect (hexpecting scan)

/-- **One more character** leaves all that has been read in normal form. -/
theorem safe_step (h : s.Normal) (c : Char) : Safe (s.step limit c) := by
  have hread := h.expecting
  unfold step
  split
  · -- a value
    split
    · exact .ok h
    · exact safe_startValue h c
  · -- the first item of an array
    split
    · exact .ok h
    split
    · exact safe_closeArray h
    · exact safe_startValue h c
  · -- a key
    split
    · exact .ok h
    split
    · exact h.expect trivial
    · exact .error
  · -- the first key of an object
    split
    · exact .ok h
    split
    · exact safe_closeObject h
    split
    · exact h.expect trivial
    · exact .error
  · -- a colon
    split
    · exact .ok h
    split
    · exact h.expect trivial
    · exact .error
  · exact safe_separate h c
  · next hexpecting =>
    rw [hexpecting] at hread
    exact safe_completeSeparate h hread c
  · next hexpecting =>
    rw [hexpecting] at hread
    split
    · split
      · exact .ok (normal_complete h.stack hread)
      · exact h.expect hread
    · exact .error
  · -- a number
    split
    · exact h.expect trivial
    split
    · split
      · next number _ =>
        have hnumber : (Json.number number).Normal := trivial
        exact safe_completeSeparate h hnumber c
      · exact .error
    · exact .error
  · next scan _ =>
    have hstring : (Json.string scan.text).Normal := trivial
    split
    · exact .ok (normal_complete h.stack hstring)
    · exact h.scan _ fun _ => trivial
  · next scan _ =>
    -- a key becomes part of the innermost object
    split
    · split
      · next fields rest hstack =>
        obtain ⟨hfields, hrest⟩ := List.forall_mem_cons.1 (hstack ▸ h.stack)
        have hmember : Frame.Normal (.member fields scan.text) := hfields
        exact .ok (normal_of_stack (List.forall_mem_cons.2 ⟨hmember, hrest⟩) trivial)
      · exact .error
    · exact h.scan _ fun _ => trivial

/-! ## The whole text -/

theorem safe_foldlM (chars : List Char) : ∀ {s : State}, s.Normal →
    Safe (chars.foldlM (step limit) s) := by
  induction chars with
  | nil => exact fun h => .ok h
  | cons c rest ih =>
    intro s h
    rw [List.foldlM_cons]
    cases hstep : s.step limit c with
    | ok next => exact ih ((safe_step h c).normal hstep)
    | error error => exact .error

theorem normal_finish (h : s.Normal) {value : Json} (hvalue : s.finish = .ok value) :
    value.Normal := by
  unfold finish at hvalue
  split at hvalue
  · split at hvalue
    · split at hvalue
      · cases hvalue
        trivial
      · cases hvalue
    · cases hvalue
  · split at hvalue <;> cases hvalue
  · split at hvalue
    · next read hread =>
      cases hvalue
      exact h.result _ hread
    · cases hvalue

end State

end Parser

/-- **What is read is in normal form.** -/
theorem normal_parse {text : String} {value : Json} (h : parse text = .ok value) :
    value.Normal := by
  obtain ⟨last, hlast, hvalue⟩ := bind_eq_ok_iff.1 h
  have hinitial : Parser.State.initial.Normal :=
    Parser.State.normal_of_stack (fun _ hframe => absurd hframe List.not_mem_nil) trivial
  exact Parser.State.normal_finish ((Parser.State.safe_foldlM _ hinitial).normal hlast) hvalue

end Json

end Folio
