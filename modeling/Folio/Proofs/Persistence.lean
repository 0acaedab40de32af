/-
  Contexts are persistent ordered maps.

  Contexts are made, copied and written to in any order, and copies share their tables until one of
  them is written to.  What a context holds is decided by its own line all the same: the entries
  that were set in what it was copied from, up to the moment at which it was copied, and then those
  set in itself.

  1. **One context** — of a line of entries, a context holds each key once, in the order in which
     the keys first came in, with the value that came in last (`Context.holds_ofList`).  Two
     contexts are equal if and only if they look up alike (`Context.beq_iff`).
  2. **Lines** — the line of each context is read off the steps, without any table or context
     (`History.line`).  A step does to contexts what it does to lines (`Store.context_perform`), and
     so do many steps, by induction (`Store.context_run`).
  3. **Being left alone** — a step changes nothing but the context that it writes to
     (`Store.context_perform_place`), and many steps nothing that all of them spare
     (`Store.context_run_place`).  Together this is `contexts_persist`.
-/
import Mathlib.Data.Fin.SuccPred
import Mathlib.Data.Finset.Card
import Mathlib.Data.List.Perm.Subperm
import Mathlib.Data.List.Induction
import Folio.Context.Store

namespace Folio

variable {n m : Nat}

/-! ## One context -/

namespace Context

/-- What a context is like in which the entries of a line were set, one after the other. -/
structure Holds (context : Context) (line : List (String × Json)) : Prop where
  /-- The keys stand where they first came in. -/
  keys_eq : context.keys = (line.map Prod.fst).eraseDups
  /-- Each of them stands there once. -/
  nodup : context.keys.Nodup
  /-- What came in last is what is found. -/
  get?_eq : ∀ key, context.get? key = lastValue? key line
  /-- What is found is what is listed. -/
  mem_entries : ∀ key value, (key, value) ∈ context.entries ↔ context.get? key = some value
  /-- The size is the number of keys. -/
  size_eq : context.size = (line.map Prod.fst).toFinset.card

theorem ofList_nil : ofList [] = ∅ := rfl

theorem ofList_append (line entries : List (String × Json)) :
    ofList (line ++ entries) = (ofList line).insertAll entries :=
  insertAll_append ∅ line entries

theorem ofList_concat (line : List (String × Json)) (entry : String × Json) :
    ofList (line ++ [entry]) = (ofList line).insert entry.1 entry.2 :=
  insertAll_append ∅ line [entry]

theorem get?_ofList (line : List (String × Json)) (key : String) :
    (ofList line).get? key = lastValue? key line :=
  (get_foldl_set get? insert get?_insert line key ∅).trans Option.or_none

/-- Of keys that come in one after the other, a new one is listed last and an old one not again. -/
theorem eraseDups_concat (keys : List String) (key : String) :
    (keys ++ [key]).eraseDups =
      if key ∈ keys.eraseDups then keys.eraseDups else keys.eraseDups ++ [key] := by
  rw [List.eraseDups_append, List.removeAll]
  by_cases h : key ∈ keys <;> simp [h, List.eraseDups_cons]

theorem keys_ofList (line : List (String × Json)) :
    (ofList line).keys = (line.map Prod.fst).eraseDups := by
  induction line using List.reverseRecOn with
  | nil => rfl
  | append_singleton line entry ih =>
    rw [List.map_append, List.map_singleton, eraseDups_concat, ← ih, ofList_concat]
    exact keys_setEntry entry.1 entry.2 (ofList line).entries

/-- **A context of a line of entries is an ordered map.** -/
theorem holds_ofList (line : List (String × Json)) : (ofList line).Holds line where
  keys_eq := keys_ofList line
  nodup := (ofList line).distinct
  get?_eq := get?_ofList line
  mem_entries _ _ := (ofList line).get?_eq_some_iff.symm
  size_eq := by
    have hnodup : (ofList line).keys.Nodup := (ofList line).distinct
    have hkeys : (ofList line).keys.toFinset = (line.map Prod.fst).toFinset := by
      ext key
      rw [keys_ofList, List.mem_toFinset, List.mem_eraseDups, List.mem_toFinset]
    rw [← hkeys, List.toFinset_card_of_nodup hnodup]
    exact (List.length_map Prod.fst).symm

example : (ofList [("z", .null), ("a", .null), ("z", .bool true)]).entries =
    [("z", .bool true), ("a", .null)] := rfl

theorem mem_keys_iff (context : Context) {key : String} :
    key ∈ context.keys ↔ ∃ value, context.get? key = some value := by
  simp only [get?_eq_some_iff, keys, List.mem_map, Prod.exists, exists_and_right, exists_eq_right]

section Equality

variable {a b : Context}

/-- As keys are distinct, a context that has all keys of another is as large as that one only if it
    has no other keys. -/
theorem size_eq_iff_keys_subset (h : a.keys ⊆ b.keys) : a.size = b.size ↔ b.keys ⊆ a.keys := by
  have ha : a.keys.length = a.size := List.length_map Prod.fst
  have hb : b.keys.length = b.size := List.length_map Prod.fst
  have hsubperm : a.keys.Subperm b.keys := List.subperm_of_subset a.distinct h
  constructor
  · intro hsize
    exact (hsubperm.perm_of_length_le (by rw [ha, hb, hsize])).symm.subset
  · intro hback
    rw [← ha, ← hb]
    exact le_antisymm hsubperm.length_le (List.subperm_of_subset b.distinct hback).length_le

theorem beq_iff_forall_get? : (a == b) = true ↔ a.size = b.size ∧
    ∀ key value, a.get? key = some value →
      ∃ other, b.get? key = some other ∧ value.eqv other = true := by
  show (a.size == b.size && _) = true ↔ _
  rw [Bool.and_eq_true, beq_iff_eq, List.all_eq_true]
  refine and_congr_right fun _ => ?_
  simp only [get?_eq_some_iff a, Prod.forall]
  refine forall₃_congr fun key value _ => ?_
  cases b.get? key <;> simp

/-- Equal contexts have the same keys. -/
theorem mem_keys_iff_of_beq (h : (a == b) = true) (key : String) : key ∈ a.keys ↔ key ∈ b.keys := by
  obtain ⟨hsize, hfound⟩ := beq_iff_forall_get?.1 h
  have hkeys : a.keys ⊆ b.keys := by
    intro k hk
    obtain ⟨value, hvalue⟩ := a.mem_keys_iff.1 hk
    obtain ⟨other, hother, -⟩ := hfound k value hvalue
    exact b.mem_keys_iff.2 ⟨other, hother⟩
  exact ⟨fun hkey => hkeys hkey, fun hkey => (size_eq_iff_keys_subset hkeys).1 hsize hkey⟩

/-- **Two contexts are equal if and only if they look up alike**: each key is absent from both or
    has equal values in both. -/
theorem beq_iff : (a == b) = true ↔
    ∀ key, Option.Rel (fun value other => value.eqv other = true) (a.get? key) (b.get? key) := by
  constructor
  · intro h key
    have hkey := mem_keys_iff_of_beq h key
    have hfound := (beq_iff_forall_get?.1 h).2 key
    rw [a.mem_keys_iff, b.mem_keys_iff] at hkey
    cases ha : a.get? key with
    | some value =>
      obtain ⟨other, hother, heqv⟩ := hfound value ha
      rw [hother]
      exact .some heqv
    | none =>
      cases hb : b.get? key with
      | none => exact .none
      | some other =>
        obtain ⟨value, hvalue⟩ := hkey.2 ⟨other, hb⟩
        cases ha.symm.trans hvalue
  · intro h
    have hmem : ∀ key, key ∈ a.keys ↔ key ∈ b.keys := by
      intro key
      have hkey := h key
      rw [a.mem_keys_iff, b.mem_keys_iff]
      cases ha : a.get? key <;> cases hb : b.get? key <;> simp_all
    refine beq_iff_forall_get?.2 ⟨?_, ?_⟩
    · exact (size_eq_iff_keys_subset fun key => (hmem key).1).2 fun key => (hmem key).2
    · intro key value hvalue
      have hkey := h key
      rw [hvalue] at hkey
      cases hb : b.get? key with
      | none => rw [hb] at hkey; cases hkey
      | some other =>
        rw [hb] at hkey
        cases hkey with
        | some heqv => exact ⟨other, rfl, heqv⟩

end Equality

end Context

/-! ## Lines -/

/-- Steps one after the other, which make `m` contexts of `n`. -/
inductive History (n : Nat) : Nat → Type where
  | start : History n n
  | step {m k : Nat} (history : History n m) (next : Store.Step m k) : History n k

namespace Store

/-- Performs the steps of a history. -/
def run (store : Store n) {m : Nat} : History n m → Store m
  | .start => store
  | .step history next => (store.run history).perform next

/-- What a step does to lines: a copy has the line of its source so far, and what is set goes at
    the end of the line of the context in which it is set. -/
def Step.lines (lines : Fin n → List (String × Json)) {m : Nat} :
    Step n m → Fin m → List (String × Json)
  | .new => Fin.lastCases [] lines
  | .collect entries => Fin.lastCases entries lines
  | .branch source => Fin.lastCases (lines source) lines
  | .extend source key value => Fin.lastCases (lines source ++ [(key, value)]) lines
  | .provide target key value => fun i => if i = target then lines i ++ [(key, value)] else lines i
  | .provideAll target entries => fun i => if i = target then lines i ++ entries else lines i

end Store

/-- What was set on the line of a context, in order. -/
def History.line {m : Nat} : History 0 m → Fin m → List (String × Json)
  | .start => Fin.elim0
  | .step history next => next.lines history.line

namespace Store

/-- **A step does to contexts what it does to lines.** -/
theorem context_perform {store : Store n} {lines : Fin n → List (String × Json)}
    (h : ∀ i, store.context i = .ofList (lines i)) (next : Step n m) (i : Fin m) :
    (store.perform next).context i = .ofList (next.lines lines i) := by
  cases next with
  | new =>
    cases i using Fin.lastCases with
    | last => simp [perform, Step.lines, Context.ofList_nil]
    | cast i => simp [perform, Step.lines, h]
  | collect entries =>
    cases i using Fin.lastCases with
    | last => simp [perform, Step.lines, context_insertAll, Context.ofList]
    | cast i => simp [perform, Step.lines, context_insertAll, Fin.castSucc_ne_last, h]
  | branch source =>
    cases i using Fin.lastCases <;> simp [perform, Step.lines, h]
  | extend source key value =>
    cases i using Fin.lastCases with
    | last => simp [perform, Step.lines, context_insert, Context.ofList_concat, h]
    | cast i => simp [perform, Step.lines, context_insert, Fin.castSucc_ne_last, h]
  | provide target key value =>
    simp only [perform, Step.lines, context_insert, h]
    split
    · next heq => rw [heq, Context.ofList_concat]
    · rfl
  | provideAll target entries =>
    simp only [perform, Step.lines, context_insertAll, h]
    split
    · next heq => rw [heq, Context.ofList_append]
    · rfl

/-- **What a context holds was set on its line.** -/
theorem context_run (history : History 0 m) (i : Fin m) :
    (empty.run history).context i = .ofList (history.line i) := by
  induction history with
  | start => exact i.elim0
  | step history next ih => exact context_perform ih next i

/-! ## Being left alone -/

/-- The context that a step writes to, among those that were there before. -/
def Step.target? : Step n m → Option (Fin n)
  | .new | .collect _ | .branch _ | .extend _ _ _ => none
  | .provide target _ _ | .provideAll target _ => some target

/-- Where a context that was there before is after a step: where it was, among one more perhaps. -/
def Step.place : Step n m → Fin n → Fin m
  | .new | .collect _ | .branch _ | .extend _ _ _ => Fin.castSucc
  | .provide _ _ _ | .provideAll _ _ => id

/-- **A step changes nothing but the context that it writes to.** -/
theorem context_perform_place (store : Store n) (next : Step n m) {i : Fin n}
    (h : next.target? ≠ some i) :
    (store.perform next).context (next.place i) = store.context i := by
  cases next with
  | new => exact context_add_castSucc store ∅ i
  | branch source => exact context_branch_castSucc store source i
  | collect entries =>
    simp [perform, Step.place, context_insertAll, Fin.castSucc_ne_last]
  | extend source key value =>
    simp [perform, Step.place, context_insert, Fin.castSucc_ne_last]
  | provide target key value =>
    have hne : i ≠ target := fun heq => h (congrArg some heq.symm)
    exact (context_insert store target i key value).trans (if_neg hne)
  | provideAll target entries =>
    have hne : i ≠ target := fun heq => h (congrArg some heq.symm)
    exact (context_insertAll target i entries store).trans (if_neg hne)

end Store

namespace History

/-- Where a context that was there before is after some steps. -/
def place : {m : Nat} → History n m → Fin n → Fin m
  | _, .start, i => i
  | _, .step history next, i => next.place (history.place i)

/-- None of the steps writes to the context. -/
def Spares (i : Fin n) : {m : Nat} → History n m → Prop
  | _, .start => True
  | _, .step history next => history.Spares i ∧ next.target? ≠ some (history.place i)

end History

/-- **Many steps change nothing that all of them spare.** -/
theorem Store.context_run_place (store : Store n) {i : Fin n} {later : History n m}
    (h : later.Spares i) : (store.run later).context (later.place i) = store.context i := by
  induction later with
  | start => rfl
  | step history next ih =>
    obtain ⟨hspares, hnext⟩ := h
    exact (context_perform_place _ next hnext).trans (ih hspares)

/-- **Contexts are persistent ordered maps.**  However contexts are made, copied and written to,
    each is the context of what was set on its own line: each key once, in the order in which the
    keys first came in, with the value that came in last, and as many entries as keys.  Two are
    equal if and only if each key is absent from both or has equal values in both.  And whatever is
    done to others, to those that it was copied from or to copies of it, does not change it. -/
theorem contexts_persist (history : History 0 n) :
    (∀ i, (Store.empty.run history).context i = .ofList (history.line i) ∧
      ((Store.empty.run history).context i).Holds (history.line i)) ∧
    (∀ i j, ((Store.empty.run history).context i == (Store.empty.run history).context j) = true ↔
      ∀ key, Option.Rel (fun value other => value.eqv other = true)
        (((Store.empty.run history).context i).get? key)
        (((Store.empty.run history).context j).get? key)) ∧
    ∀ (i : Fin n) (m : Nat) (later : History n m), later.Spares i →
      ((Store.empty.run history).run later).context (later.place i) =
        (Store.empty.run history).context i := by
  refine ⟨?_, ?_, ?_⟩
  · intro i
    rw [Store.context_run]
    exact ⟨rfl, Context.holds_ofList _⟩
  · exact fun i j => Context.beq_iff
  · exact fun i m later hspares => Store.context_run_place _ hspares

/-- A key set in one of two copies of a context is seen there, and neither in the other copy nor in
    the context itself. -/
theorem contexts_persist_branches :
    let parent : History 0 1 := History.start.step (.collect [("a", .bool false)])
    let history : History 0 3 := (parent.step (.branch 0)).step (.branch 0)
    let later : History 3 3 := History.start.step (.provide 1 "a" (.bool true))
    let store := (Store.empty.run history).run later
    (later.Spares 0 ∧ later.Spares 2) ∧
      store.context 0 = .ofList [("a", .bool false)] ∧
      store.context 2 = .ofList [("a", .bool false)] ∧
      (store.context 1).get? "a" = some (.bool true) := by
  intro parent history later store
  have hspares : later.Spares 0 ∧ later.Spares 2 := ⟨⟨trivial, by decide⟩, trivial, by decide⟩
  obtain ⟨hlines, -, hspared⟩ := contexts_persist history
  have hwritten := (contexts_persist (history.step (.provide 1 "a" (.bool true)))).1 1
  refine ⟨hspares, ?_, ?_, hwritten.2.get?_eq "a"⟩
  · exact (hspared 0 3 later hspares.1).trans (hlines 0).1
  · exact (hspared 2 3 later hspares.2).trans (hlines 2).1

end Folio
