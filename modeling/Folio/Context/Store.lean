/-
  Contexts that share their entries.

  A copy of a context holds the same table of entries as the original, so copying is cheap.  Each
  table counts the contexts that hold it.  A context that sets a key writes to its table in place if
  nobody else holds it; otherwise it leaves the table to the others and goes on with a copy.

  A `Store` of contexts carries the proof that the counts are right, so what is written in place is
  seen by nobody but the writer (`eq_of_address_unshare`).  The lemmas `context_add_…`,
  `context_branch_…`, `context_insert` and `context_insertAll` say what the operations do to the
  contexts as values.
-/
import Folio.Context

namespace Folio

/-- A table of entries and the number of contexts that hold it. -/
structure Table where
  holders : Nat
  contents : Context

namespace Table

/-- The table with one more holder. -/
def hold (table : Table) : Table := { table with holders := table.holders + 1 }

/-- The table with one holder less. -/
def release (table : Table) : Table := { table with holders := table.holders - 1 }

theorem contents_hold (changed address : Nat) {table : Table} :
    (if changed = address then table.hold else table).contents = table.contents := by
  split <;> rfl

theorem contents_release (changed address : Nat) {table : Table} :
    (if changed = address then table.release else table).contents = table.contents := by
  split <;> rfl

/-- The table with a key set. -/
def insert (key : String) (value : Json) (table : Table) : Table :=
  { table with contents := table.contents.insert key value }

end Table

/-- The first `n` contexts that were made, over the tables that they share. -/
structure Store (n : Nat) where
  tables : List Table
  /-- Where the table of each context is. -/
  addresses : Vector Nat n
  allocated : ∀ address ∈ addresses, address < tables.length
  counted : ∀ address table, tables[address]? = some table →
    table.holders = addresses.count address

namespace Store

variable {n : Nat}

/-- The store before any context is made. -/
def empty : Store 0 where
  tables := []
  addresses := #v[]
  allocated := by simp
  counted := by simp

theorem address_lt (store : Store n) (i : Fin n) : store.addresses[i.val] < store.tables.length :=
  store.allocated _ (Vector.getElem_mem i.isLt)

/-- The table that a context holds. -/
def table (store : Store n) (i : Fin n) : Table :=
  store.tables.get ⟨store.addresses[i.val], store.address_lt i⟩

/-- A context as a value. -/
def context (store : Store n) (i : Fin n) : Context := (store.table i).contents

theorem getElem?_address (store : Store n) (i : Fin n) :
    store.tables[store.addresses[i.val]]? = some (store.table i) :=
  List.getElem?_eq_getElem (store.address_lt i)

theorem context_eq {store : Store n} {i : Fin n} (table : Table)
    (h : store.tables[store.addresses[i.val]]? = some table) : store.context i = table.contents :=
  congrArg Table.contents (Option.some.inj ((store.getElem?_address i).symm.trans h))

theorem holders_table (store : Store n) (i : Fin n) :
    (store.table i).holders = store.addresses.count store.addresses[i.val] :=
  store.counted _ _ (store.getElem?_address i)

/-- Nobody holds what is not allocated yet. -/
theorem count_length (store : Store n) : store.addresses.count store.tables.length = 0 :=
  Vector.count_eq_zero.2 fun h => Nat.lt_irrefl _ (store.allocated _ h)

/-- What was allocated last is at the end, all else where it was. -/
theorem getElem?_concat_eq_some {tables : List Table} {table last : Table} {address : Nat}
    (h : (tables ++ [last])[address]? = some table) :
    tables[address]? = some table ∧ address ≠ tables.length ∨
      address = tables.length ∧ table = last := by
  rw [List.getElem?_append] at h
  split at h
  · next hlt => exact .inl ⟨h, Nat.ne_of_lt hlt⟩
  · next hge =>
    rw [List.getElem?_singleton] at h
    split at h
    · next hzero =>
      cases h
      exact .inr ⟨Nat.le_antisymm (Nat.sub_eq_zero_iff_le.1 hzero) (Nat.not_lt.1 hge), rfl⟩
    · cases h

/-- Of a table that was changed in place, only the one at that address is new. -/
theorem getElem?_modify_eq_some {tables : List Table} {change : Table → Table} {table : Table}
    {changed address : Nat} (h : (tables.modify changed change)[address]? = some table) :
    ∃ old, tables[address]? = some old ∧ table = if changed = address then change old else old := by
  rw [List.getElem?_modify] at h
  obtain ⟨old, hold, rfl⟩ := Option.map_eq_some_iff.1 h
  exact ⟨old, hold, rfl⟩

/-! ## Making contexts -/

/-- Makes a context with a table of its own. -/
def add (store : Store n) (contents : Context) : Store (n + 1) where
  tables := store.tables ++ [⟨1, contents⟩]
  addresses := store.addresses.push store.tables.length
  allocated := by
    intro address h
    rw [List.length_append, List.length_singleton]
    rcases Vector.mem_push.1 h with h | rfl
    · exact Nat.lt_succ_of_lt (store.allocated address h)
    · exact Nat.lt_succ_self _
  counted := by
    intro address table h
    rw [Vector.count_push]
    rcases getElem?_concat_eq_some h with ⟨h, hne⟩ | ⟨rfl, rfl⟩
    · rw [store.counted address table h, if_neg (by simpa using hne.symm), Nat.add_zero]
    · rw [store.count_length, if_pos (by simp)]

/-- Makes a copy of a context, which holds the same table. -/
def branch (store : Store n) (source : Fin n) : Store (n + 1) where
  tables := store.tables.modify store.addresses[source.val] Table.hold
  addresses := store.addresses.push store.addresses[source.val]
  allocated := by
    intro address h
    rw [List.length_modify]
    rcases Vector.mem_push.1 h with h | rfl
    · exact store.allocated address h
    · exact store.address_lt source
  counted := by
    intro address table h
    obtain ⟨old, hold, rfl⟩ := getElem?_modify_eq_some h
    rw [Vector.count_push, ← store.counted address old hold]
    by_cases haddress : store.addresses[source.val] = address <;> simp [haddress, Table.hold]

@[simp] theorem context_add_castSucc (store : Store n) (contents : Context) (i : Fin n) :
    (store.add contents).context i.castSucc = store.context i := by
  refine context_eq (store.table i) ?_
  show (store.tables ++ _)[(store.addresses.push _)[i.val]]? = _
  rw [Vector.getElem_push_lt i.isLt, List.getElem?_append_left (store.address_lt i),
    getElem?_address]

@[simp] theorem context_add_last (store : Store n) (contents : Context) :
    (store.add contents).context (Fin.last n) = contents := by
  refine context_eq ⟨1, contents⟩ ?_
  show (store.tables ++ _)[(store.addresses.push _)[n]]? = _
  rw [Vector.getElem_push_eq, List.getElem?_concat_length]

@[simp] theorem context_branch_castSucc (store : Store n) (source i : Fin n) :
    (store.branch source).context i.castSucc = store.context i := by
  refine (context_eq _ ?_).trans (Table.contents_hold store.addresses[source.val] store.addresses[i.val])
  show (store.tables.modify _ _)[(store.addresses.push _)[i.val]]? = _
  rw [Vector.getElem_push_lt i.isLt, List.getElem?_modify, getElem?_address]
  rfl

@[simp] theorem context_branch_last (store : Store n) (source : Fin n) :
    (store.branch source).context (Fin.last n) = store.context source := by
  refine context_eq (store.table source).hold ?_
  show (store.tables.modify _ _)[(store.addresses.push _)[n]]? = _
  rw [Vector.getElem_push_eq, List.getElem?_modify, getElem?_address, Option.map_eq_map,
    Option.map_some, if_pos rfl]

/-! ## Writing -/

/-- Sees to it that a context is the only holder of its table: it goes on with a copy unless it is
    already. -/
def unshare (store : Store n) (i : Fin n) : Store n :=
  if (store.table i).holders = 1 then store
  else {
    tables := store.tables.modify store.addresses[i.val] Table.release ++ [⟨1, store.context i⟩]
    addresses := store.addresses.set i store.tables.length
    allocated := by
      intro address h
      rw [List.length_append, List.length_modify, List.length_singleton]
      rcases Vector.mem_or_eq_of_mem_set h with h | rfl
      · exact Nat.lt_succ_of_lt (store.allocated address h)
      · exact Nat.lt_succ_self _
    counted := by
      intro address table h
      rw [Vector.count_set]
      rcases getElem?_concat_eq_some h with ⟨h, hne⟩ | ⟨rfl, rfl⟩
      · rw [List.length_modify] at hne
        obtain ⟨old, hold, rfl⟩ := getElem?_modify_eq_some h
        rw [← store.counted address old hold]
        by_cases haddress : store.addresses[i.val] = address <;>
          simp [haddress, Table.release, hne.symm]
      · simp [store.count_length] }

theorem context_unshare (store : Store n) (i j : Fin n) :
    (store.unshare i).context j = store.context j := by
  unfold unshare
  split
  · rfl
  by_cases hj : i.val = j.val
  · obtain rfl := Fin.ext hj
    refine context_eq ⟨1, store.context i⟩ ?_
    show (store.tables.modify _ _ ++ _)[(store.addresses.set i.val _)[i.val]]? = _
    rw [Vector.getElem_set_self, List.getElem?_append_right (by simp), List.length_modify,
      Nat.sub_self]
    rfl
  · refine (context_eq _ ?_).trans (Table.contents_release store.addresses[i.val] store.addresses[j.val])
    show (store.tables.modify _ _ ++ _)[(store.addresses.set i.val _)[j.val]]? = _
    rw [Vector.getElem_set_ne _ _ hj, List.getElem?_append_left (by simp [store.address_lt j]),
      List.getElem?_modify, getElem?_address]
    rfl

/-- Whoever has seen to it is the only holder of its table. -/
theorem eq_of_address_unshare (store : Store n) {i j : Fin n}
    (h : (store.unshare i).addresses[j.val] = (store.unshare i).addresses[i.val]) : j = i := by
  apply Classical.byContradiction
  intro hne
  have hval : i.val ≠ j.val := fun heq => hne (Fin.ext heq.symm)
  unfold unshare at h
  split at h
  · next hholders =>
    -- the count has room for one holder only
    rw [holders_table] at hholders
    have hcount : (store.addresses.set i.val store.tables.length).count store.addresses[i.val] = 0 := by
      have hnew := Nat.ne_of_gt (store.address_lt i)
      rw [Vector.count_set, hholders]
      simp [hnew]
    refine Vector.count_eq_zero.1 hcount (Vector.mem_iff_getElem.2 ⟨j.val, j.isLt, ?_⟩)
    rw [Vector.getElem_set_ne _ _ hval, h]
  · have hnew : store.addresses[j.val] = store.tables.length := by
      have hset := h
      simpa [Vector.getElem_set_ne _ _ hval] using hset
    exact Nat.ne_of_lt (store.address_lt j) hnew

/-- Sets a key of a context. -/
def insert (store : Store n) (i : Fin n) (key : String) (value : Json) : Store n :=
  let own := store.unshare i
  { own with
    tables := own.tables.modify own.addresses[i.val] (Table.insert key value)
    allocated := by
      intro address h
      rw [List.length_modify]
      exact own.allocated address h
    counted := by
      intro address table h
      obtain ⟨old, hold, rfl⟩ := getElem?_modify_eq_some h
      split <;> exact own.counted address old hold }

/-- **A write is seen by the writer alone**, whether it copies its table first or not. -/
theorem context_insert (store : Store n) (i j : Fin n) (key : String) (value : Json) :
    (store.insert i key value).context j =
      if j = i then (store.context i).insert key value else store.context j := by
  have htable : (store.insert i key value).tables[(store.insert i key value).addresses[j.val]]? =
      some (if (store.unshare i).addresses[i.val] = (store.unshare i).addresses[j.val]
        then ((store.unshare i).table j).insert key value else (store.unshare i).table j) := by
    show ((store.unshare i).tables.modify _ _)[(store.unshare i).addresses[j.val]]? = _
    rw [List.getElem?_modify, getElem?_address]
    rfl
  rw [context_eq _ htable]
  split
  · next haddress =>
    obtain rfl := store.eq_of_address_unshare haddress.symm
    rw [if_pos rfl, ← context_unshare store j j]
    rfl
  · next haddress =>
    rw [if_neg, ← context_unshare store i j]
    · rfl
    · rintro rfl
      exact haddress rfl

/-- Sets several keys of a context, one after the other. -/
def insertAll (store : Store n) (i : Fin n) (entries : List (String × Json)) : Store n :=
  entries.foldl (fun store entry => store.insert i entry.1 entry.2) store

theorem context_insertAll (i j : Fin n) (entries : List (String × Json)) : ∀ store : Store n,
    (store.insertAll i entries).context j =
      if j = i then (store.context i).insertAll entries else store.context j := by
  induction entries with
  | nil =>
    intro store
    split
    · next h => rw [h]; rfl
    · rfl
  | cons entry rest ih =>
    intro store
    show ((store.insert i entry.1 entry.2).insertAll i rest).context j = _
    rw [ih, context_insert, context_insert, if_pos rfl]
    split <;> rfl

/-! ## Steps -/

/-- A step that makes `m` contexts of `n`: it makes a further one, which is the last, or writes to
    one of them. -/
inductive Step (n : Nat) : Nat → Type where
  /-- An empty context. -/
  | new : Step n (n + 1)
  /-- A context of some entries. -/
  | collect (entries : List (String × Json)) : Step n (n + 1)
  /-- A copy. -/
  | branch (source : Fin n) : Step n (n + 1)
  /-- A copy with a key set. -/
  | extend (source : Fin n) (key : String) (value : Json) : Step n (n + 1)
  /-- Sets a key. -/
  | provide (target : Fin n) (key : String) (value : Json) : Step n n
  /-- Sets several keys. -/
  | provideAll (target : Fin n) (entries : List (String × Json)) : Step n n

/-- Performs a step. -/
def perform {m : Nat} (store : Store n) : Step n m → Store m
  | .new => store.add ∅
  | .collect entries => (store.add ∅).insertAll (Fin.last n) entries
  | .branch source => store.branch source
  | .extend source key value => (store.branch source).insert (Fin.last n) key value
  | .provide target key value => store.insert target key value
  | .provideAll target entries => store.insertAll target entries

end Store

end Folio
