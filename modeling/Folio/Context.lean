/-
  The context that flows down an element tree.

  A context maps keys to JSON values and remembers the order in which its keys first came in.
  Setting a key again changes its value and keeps its place.  Contexts are values: whoever gets one
  has a copy, and nothing that is set in the copy is seen elsewhere.
-/
import Folio.Json.Basic

namespace Folio

/-- Sets a key in a list of entries: an existing entry keeps its place, a new one goes last. -/
def setEntry (key : String) (value : α) : List (String × α) → List (String × α)
  | [] => [(key, value)]
  | (k, v) :: rest => if k = key then (k, value) :: rest else (k, v) :: setEntry key value rest

theorem keys_setEntry (key : String) (value : α) (entries : List (String × α)) :
    (setEntry key value entries).map Prod.fst =
      if key ∈ entries.map Prod.fst then entries.map Prod.fst
      else entries.map Prod.fst ++ [key] := by
  induction entries with
  | nil => simp [setEntry]
  | cons head rest ih =>
    obtain ⟨k, v⟩ := head
    by_cases h : k = key
    · simp [setEntry, h]
    · have h' : ¬key = k := Ne.symm h
      simp only [setEntry, if_neg h, List.map_cons, ih, List.mem_cons, h', false_or]
      split <;> simp

theorem nodup_setEntry {key : String} {value : α} {entries : List (String × α)}
    (h : (entries.map Prod.fst).Nodup) : ((setEntry key value entries).map Prod.fst).Nodup := by
  rw [keys_setEntry]
  split
  · exact h
  · next hk =>
    refine List.nodup_append.2 ⟨h, by simp, ?_⟩
    intro a ha b hb hab
    exact hk (List.mem_singleton.1 hb ▸ hab ▸ ha)

/-- Values by key, in the order in which the keys first came in. -/
structure Context where
  entries : List (String × Json)
  distinct : (entries.map Prod.fst).Nodup := by exact List.nodup_nil

namespace Context

instance : EmptyCollection Context := ⟨⟨[], List.nodup_nil⟩⟩

instance : Inhabited Context := ⟨∅⟩

def get? (context : Context) (key : String) : Option Json := lookup key context.entries

/-- The text under a key, if there is text. -/
def getString? (context : Context) (key : String) : Option String :=
  context.get? key >>= Json.asString?

def contains (context : Context) (key : String) : Bool := (context.get? key).isSome

def size (context : Context) : Nat := context.entries.length

def isEmpty (context : Context) : Bool := context.entries.isEmpty

/-- The keys in the order in which they first came in. -/
def keys (context : Context) : List String := context.entries.map Prod.fst

/-- Sets one key. -/
def insert (context : Context) (key : String) (value : Json) : Context where
  entries := setEntry key value context.entries
  distinct := nodup_setEntry context.distinct

/-- Sets several keys, one after the other. -/
def insertAll (context : Context) (entries : List (String × Json)) : Context :=
  entries.foldl (fun context (key, value) => context.insert key value) context

/-- The context of a list of entries. -/
def ofList (entries : List (String × Json)) : Context := insertAll ∅ entries

/-- Equality: the same keys with equal values, in whatever order they came in. -/
def eqv (a b : Context) : Bool :=
  a.size == b.size && a.entries.all fun (key, value) =>
    match b.get? key with
    | some other => value.eqv other
    | none => false

instance : BEq Context := ⟨eqv⟩

@[simp] theorem get?_insert (context : Context) (key k : String) (value : Json) :
    (context.insert key value).get? k = if key = k then some value else context.get? k := by
  show lookup k (setEntry key value context.entries) = _
  unfold get?
  induction context.entries with
  | nil => simp [setEntry, lookup]
  | cons head rest ih =>
    by_cases h : head.1 = key
    · simp only [setEntry, h, if_true, lookup]
      split <;> rfl
    · simp only [setEntry, if_neg h, lookup, ih]
      by_cases h' : head.1 = k <;> by_cases h'' : key = k <;> simp_all

/-- A look-up finds an entry wherever it is: no other entry has its key. -/
theorem get?_eq_some_iff (context : Context) {key : String} {value : Json} :
    context.get? key = some value ↔ (key, value) ∈ context.entries :=
  ⟨mem_of_lookup, lookup_of_mem_of_nodup context.distinct⟩

/-- Setting entries in two steps is setting them in one. -/
theorem insertAll_append (context : Context) (first second : List (String × Json)) :
    context.insertAll (first ++ second) = (context.insertAll first).insertAll second :=
  List.foldl_append

end Context

end Folio
