/-
  Dictionaries keyed by strings and kept in the order of their keys.

  Strings compare by code point, which is also the byte order of their UTF-8 form.  The plain
  functions `insertSorted` and `lookup` work on any list of fields; `Dict` bundles such a list with
  the fact that its keys strictly increase, so two dictionaries with the same contents are equal.
  The laws are `Dict.get?_insert` and `Dict.ext_get?`.
-/

namespace Folio

/-! ## Lists of fields -/

/-- The value of the first field named `key`. -/
def lookup (key : String) : List (String × α) → Option α
  | [] => none
  | (k, v) :: rest => if k = key then some v else lookup key rest

/-- Sets a field in a list ordered by key: an existing one is overwritten, a new one takes its
    place in the order. -/
def insertSorted (key : String) (value : α) : List (String × α) → List (String × α)
  | [] => [(key, value)]
  | (k, v) :: rest =>
    if key < k then (key, value) :: (k, v) :: rest
    else if key = k then (key, value) :: rest
    else (k, v) :: insertSorted key value rest

/-- The fields in the order of their keys; of several with one key the last one counts. -/
def sortFields (fields : List (String × α)) : List (String × α) :=
  fields.foldl (fun sorted (k, v) => insertSorted k v sorted) []

/-- The keys strictly increase. -/
def KeysIncrease (fields : List (String × α)) : Prop :=
  (fields.map Prod.fst).Pairwise (· < ·)

instance (fields : List (String × α)) : Decidable (KeysIncrease fields) :=
  inferInstanceAs (Decidable ((fields.map Prod.fst).Pairwise (· < ·)))

theorem mem_keys_insertSorted {key k : String} {value : α} {fields : List (String × α)} :
    k ∈ (insertSorted key value fields).map Prod.fst ↔ k = key ∨ k ∈ fields.map Prod.fst := by
  induction fields with
  | nil => simp [insertSorted]
  | cons head rest ih =>
    obtain ⟨k', v⟩ := head
    unfold insertSorted
    split
    · simp
    · split
      · next h => subst h; simp
      · simp only [List.map_cons, List.mem_cons, ih]
        constructor
        · rintro (h | h | h) <;> simp [h]
        · rintro (h | h | h) <;> simp [h]

theorem keysIncrease_insertSorted {key : String} {value : α} {fields : List (String × α)}
    (h : KeysIncrease fields) : KeysIncrease (insertSorted key value fields) := by
  induction fields with
  | nil => simp [insertSorted, KeysIncrease]
  | cons head rest ih =>
    obtain ⟨k, v⟩ := head
    have hk : (∀ k' ∈ rest.map Prod.fst, k < k') ∧ KeysIncrease rest := by
      simpa [KeysIncrease] using h
    unfold insertSorted
    split
    · next hlt =>
      refine List.pairwise_cons.2 ⟨fun k' hk' => ?_, h⟩
      rcases List.mem_cons.1 hk' with rfl | hk'
      · exact hlt
      · exact String.lt_trans hlt (hk.1 k' hk')
    · next hge =>
      split
      · next heq => subst heq; exact List.pairwise_cons.2 ⟨hk.1, hk.2⟩
      · next hne =>
        refine List.pairwise_cons.2 ⟨fun k' hk' => ?_, ih hk.2⟩
        rcases mem_keys_insertSorted.1 hk' with rfl | hk'
        · exact Std.lt_of_le_of_ne (String.not_lt.1 hge) (Ne.symm hne)
        · exact hk.1 k' hk'

theorem keysIncrease_sortFields (fields : List (String × α)) : KeysIncrease (sortFields fields) := by
  suffices ∀ sorted : List (String × α), KeysIncrease sorted →
      KeysIncrease (fields.foldl (fun sorted (k, v) => insertSorted k v sorted) sorted) from
    this [] List.Pairwise.nil
  induction fields with
  | nil => exact fun _ h => h
  | cons head rest ih => exact fun _ h => ih _ (keysIncrease_insertSorted h)

theorem lookup_insertSorted {key k : String} {value : α} {fields : List (String × α)} :
    lookup k (insertSorted key value fields) = if key = k then some value else lookup k fields := by
  induction fields with
  | nil => simp [insertSorted, lookup]
  | cons head rest ih =>
    obtain ⟨k', v⟩ := head
    unfold insertSorted
    split
    · simp [lookup]
    · split
      · next h => subst h; simp only [lookup]; split <;> rfl
      · next hne =>
        simp only [lookup, ih]
        by_cases h : k' = k <;> by_cases h' : key = k <;> simp_all

theorem lookup_eq_none_of_lt {k : String} {fields : List (String × α)}
    (h : ∀ k' ∈ fields.map Prod.fst, k < k') : lookup k fields = none := by
  induction fields with
  | nil => rfl
  | cons head rest ih =>
    have hne : ¬head.1 = k := fun heq =>
      String.lt_irrefl k (by simpa [heq] using h head.1 (by simp))
    simp only [lookup, if_neg hne]
    exact ih fun k' hk' => h k' (by simp [hk'])

theorem mem_of_lookup {key : String} {value : α} {fields : List (String × α)}
    (h : lookup key fields = some value) : (key, value) ∈ fields := by
  induction fields with
  | nil => cases h
  | cons head rest ih =>
    obtain ⟨k, v⟩ := head
    rw [lookup] at h
    split at h
    · next hkey =>
      cases h
      exact hkey ▸ List.mem_cons_self
    · exact List.mem_cons_of_mem _ (ih h)

/-- With distinct keys, every field is found under its key. -/
theorem lookup_of_mem_of_nodup {key : String} {value : α} {fields : List (String × α)}
    (hkeys : (fields.map Prod.fst).Nodup) (h : (key, value) ∈ fields) :
    lookup key fields = some value := by
  induction fields with
  | nil => cases h
  | cons head rest ih =>
    obtain ⟨hhead, hrest⟩ := List.nodup_cons.1 hkeys
    rcases List.mem_cons.1 h with rfl | h
    · rw [lookup, if_pos rfl]
    · have hne : ¬head.1 = key := fun heq => hhead (heq ▸ List.mem_map_of_mem h)
      rw [lookup, if_neg hne]
      exact ih hrest h

theorem lookup_of_mem {key : String} {value : α} {fields : List (String × α)}
    (hkeys : KeysIncrease fields) (h : (key, value) ∈ fields) : lookup key fields = some value :=
  lookup_of_mem_of_nodup (List.Pairwise.imp (fun hlt => String.ne_of_lt hlt) hkeys) h

/-! ## Fields that are set one after the other -/

/-- The value of the last field named `key`. -/
def lastValue? (key : String) (fields : List (String × α)) : Option α := lookup key fields.reverse

theorem lookup_append {key : String} {fields others : List (String × α)} :
    lookup key (fields ++ others) = (lookup key fields).or (lookup key others) := by
  induction fields with
  | nil => rfl
  | cons head rest ih =>
    simp only [List.cons_append, lookup, ih]
    split <;> rfl

theorem lastValue?_append {key : String} {fields others : List (String × α)} :
    lastValue? key (fields ++ others) = (lastValue? key others).or (lastValue? key fields) := by
  rw [lastValue?, List.reverse_append, lookup_append]
  rfl

/-- If setting a key is seen under that key and no other, then of many fields that are set the last
    one with a key is seen, and where there is none, what was there before. -/
theorem get_foldl_set {σ : Type} (get : σ → String → Option α) (set : σ → String → α → σ)
    (hset : ∀ s key k value, get (set s key value) k = if key = k then some value else get s k)
    (fields : List (String × α)) (key : String) :
    ∀ s, get (fields.foldl (fun s field => set s field.1 field.2) s) key =
      (lastValue? key fields).or (get s key) := by
  induction fields with
  | nil => exact fun _ => rfl
  | cons head rest ih =>
    intro s
    have hhead : (lastValue? key [head]).or (get s key) = get (set s head.1 head.2) key := by
      rw [hset, lastValue?, List.reverse_singleton, lookup, lookup]
      split <;> rfl
    rw [← List.singleton_append, lastValue?_append, Option.or_assoc, hhead]
    exact ih (set s head.1 head.2)

/-! ## Fields in order -/

theorem insertSorted_of_lt {key : String} {value : α} {fields : List (String × α)}
    (h : ∀ k ∈ fields.map Prod.fst, k < key) :
    insertSorted key value fields = fields ++ [(key, value)] := by
  induction fields with
  | nil => rfl
  | cons head rest ih =>
    have hlt : head.1 < key := h head.1 (by simp)
    have hge : ¬key < head.1 := fun hgt => String.lt_irrefl key (String.lt_trans hgt hlt)
    rw [insertSorted, if_neg hge, if_neg (String.ne_of_lt hlt).symm,
      ih fun k hk => h k (by simp [hk])]
    rfl

/-- Fields whose keys increase are in order already. -/
theorem sortFields_eq_self {fields : List (String × α)} (h : KeysIncrease fields) :
    sortFields fields = fields := by
  suffices ∀ sorted : List (String × α), KeysIncrease (sorted ++ fields) →
      fields.foldl (fun sorted (k, v) => insertSorted k v sorted) sorted = sorted ++ fields from
    this [] h
  clear h
  induction fields with
  | nil => exact fun sorted _ => (List.append_nil sorted).symm
  | cons head rest ih =>
    intro sorted h
    -- all that has been sorted so far comes before the next field
    have hlt : ∀ k ∈ sorted.map Prod.fst, k < head.1 := by
      rw [KeysIncrease, List.map_append] at h
      exact fun k hk => (List.pairwise_append.1 h).2.2 k hk head.1 (by simp)
    rw [List.append_cons] at h ⊢
    show rest.foldl _ (insertSorted head.1 head.2 sorted) = _
    rw [insertSorted_of_lt hlt]
    exact ih _ h

/-! ## Dictionaries -/

/-- A list of fields whose keys strictly increase. -/
structure Dict (α : Type) where
  entries : List (String × α)
  sorted : KeysIncrease entries := by exact List.Pairwise.nil

namespace Dict

instance : EmptyCollection (Dict α) := ⟨⟨[], List.Pairwise.nil⟩⟩

instance : Inhabited (Dict α) := ⟨∅⟩

def get? (d : Dict α) (key : String) : Option α := lookup key d.entries

def contains (d : Dict α) (key : String) : Bool := (d.get? key).isSome

def keys (d : Dict α) : List String := d.entries.map Prod.fst

def size (d : Dict α) : Nat := d.entries.length

def isEmpty (d : Dict α) : Bool := d.entries.isEmpty

/-- Sets one key. -/
def insert (d : Dict α) (key : String) (value : α) : Dict α where
  entries := insertSorted key value d.entries
  sorted := keysIncrease_insertSorted d.sorted

/-- Removes one key. -/
def erase (d : Dict α) (key : String) : Dict α where
  entries := d.entries.filter fun field => field.1 != key
  sorted := List.Pairwise.sublist (List.Sublist.map Prod.fst List.filter_sublist) d.sorted

/-- The dictionary of a list of fields; of several with one key the last one counts. -/
def ofList (fields : List (String × α)) : Dict α where
  entries := sortFields fields
  sorted := keysIncrease_sortFields fields

/-- Adds every entry of `other`, which wins where both have a key. -/
def merge (d other : Dict α) : Dict α :=
  other.entries.foldl (fun d (k, v) => d.insert k v) d

/-! ## Laws of look-up -/

theorem ext {d d' : Dict α} (h : d.entries = d'.entries) : d = d' := by
  cases d; cases d'; simp_all

@[simp] theorem ofList_entries (d : Dict α) : ofList d.entries = d :=
  ext (sortFields_eq_self d.sorted)

theorem get?_ofList (fields : List (String × α)) (key : String) :
    (ofList fields).get? key = lastValue? key fields := by
  have h := get_foldl_set (fun sorted k => lookup k sorted)
    (fun sorted k value => insertSorted k value sorted) (fun _ _ _ _ => lookup_insertSorted)
    fields key []
  rwa [lookup, Option.or_none] at h

@[simp] theorem get?_empty (key : String) : (∅ : Dict α).get? key = none := rfl

@[simp] theorem get?_insert (d : Dict α) (key k : String) (value : α) :
    (d.insert key value).get? k = if key = k then some value else d.get? k :=
  lookup_insertSorted

theorem lookup_erase {key k : String} {fields : List (String × α)} :
    lookup k (fields.filter fun field => field.1 != key) =
      if key = k then none else lookup k fields := by
  induction fields with
  | nil => simp [lookup]
  | cons head rest ih =>
    by_cases h : head.1 = key
    · simp only [List.filter_cons, h, bne_self_eq_false, Bool.false_eq_true, if_false, ih, lookup]
      split <;> simp_all
    · have hb : (head.1 != key) = true := by simpa using h
      simp only [List.filter_cons, hb, if_true, lookup, ih]
      by_cases h' : head.1 = k <;> by_cases h'' : key = k <;> simp_all

@[simp] theorem get?_erase (d : Dict α) (key k : String) :
    (d.erase key).get? k = if key = k then none else d.get? k :=
  lookup_erase

/-- Merging sets the other's entries, one after the other. -/
theorem get?_merge (d other : Dict α) (key : String) :
    (d.merge other).get? key = (lastValue? key other.entries).or (d.get? key) :=
  get_foldl_set get? insert get?_insert other.entries key d

/-- Extensionality: a dictionary is determined by its look-ups. -/
theorem ext_get? {d d' : Dict α} (h : ∀ k, d.get? k = d'.get? k) : d = d' := by
  apply ext
  obtain ⟨xs, hxs⟩ := d
  obtain ⟨ys, hys⟩ := d'
  simp only [get?] at h ⊢
  induction xs generalizing ys with
  | nil =>
    cases ys with
    | nil => rfl
    | cons head rest => simpa [lookup] using h head.1
  | cons x xs ih =>
    cases ys with
    | nil => simpa [lookup] using h x.1
    | cons y ys =>
      have hx : (∀ k' ∈ xs.map Prod.fst, x.1 < k') ∧ KeysIncrease xs := by
        simpa [KeysIncrease] using hxs
      have hy : (∀ k' ∈ ys.map Prod.fst, y.1 < k') ∧ KeysIncrease ys := by
        simpa [KeysIncrease] using hys
      have hkey : x.1 = y.1 := by
        rcases Std.lt_trichotomy x.1 y.1 with hlt | heq | hgt
        · have hnone : lookup x.1 (y :: ys) = none := lookup_eq_none_of_lt fun k' hk' => by
            rcases List.mem_cons.1 hk' with rfl | hk'
            · exact hlt
            · exact String.lt_trans hlt (hy.1 k' hk')
          have hsome := (h x.1).trans hnone
          simp [lookup] at hsome
        · exact heq
        · have hnone : lookup y.1 (x :: xs) = none := lookup_eq_none_of_lt fun k' hk' => by
            rcases List.mem_cons.1 hk' with rfl | hk'
            · exact hgt
            · exact String.lt_trans hgt (hx.1 k' hk')
          have hsome := (h y.1).symm.trans hnone
          simp [lookup] at hsome
      have hvalue : x.2 = y.2 := by simpa [lookup, hkey] using h x.1
      rw [ih hx.2 ys hy.2 fun k => ?_, Prod.ext hkey hvalue]
      by_cases hk : x.1 = k
      · rw [lookup_eq_none_of_lt (hk ▸ hx.1), lookup_eq_none_of_lt (hk ▸ hkey ▸ hy.1)]
      · have := h k
        simpa [lookup, hk, hkey ▸ hk] using this

end Dict

example : (Dict.ofList [("b", 1), ("a", 2), ("b", 3)]).entries = [("a", 2), ("b", 3)] := by
  decide +kernel

end Folio
