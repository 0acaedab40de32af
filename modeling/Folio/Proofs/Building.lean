/-
  Elements built call by call.

  A tag or a composite is built by calls that set attributes and add children, one or several at a
  time, in whatever order, with fragments among the children.  However it is done, the element is
  the one that `Element.create` makes of all that was given in one step.

  1. **Addresses** — where an element stands among nested fragments is told by its address, the
     indices on the way to it (`Element.at?`).
  2. **Splicing** — a spliced list holds what stands at each address once, by increasing address
     (`listedIn_flatten`): nothing is lost, doubled or moved.
  3. **Calls** — a call adds its children, spliced, behind those that are there and sets its
     attributes over them; so do many calls, by induction (`Node.children_foldl`,
     `Node.get?_attributes_foldl`), and `build_eq_create` follows.
-/
import Folio.Element.Node

namespace Folio

variable {η κ : Type}

/-! ## Addresses -/

namespace Element

/-- What stands at an address: the index of an item, and if that is a fragment, an address in it.
    A fragment itself stands nowhere. -/
def at? : Element κ → List Nat → Option (Element κ)
  | element, [] => if element.isFragment then none else some element
  | .fragment items, index :: rest => items[index]?.bind fun item => item.at? rest
  | _, _ :: _ => none

/-- The elements stand in the items in this order: there is one of them at each address at which
    anything stands. -/
def ListedIn (items elements : List (Element κ)) : Prop :=
  ∃ addresses : List (List Nat), addresses.Pairwise (· < ·) ∧
    (∀ address, address ∈ addresses ↔ ((fragment items).at? address).isSome = true) ∧
    addresses.map (fragment items).at? = elements.map some

mutual

/-- The addresses in an element at which something stands, from left to right. -/
def addresses : Element κ → List (List Nat)
  | .fragment items => addressesFrom 0 items
  | .empty | .leaf _ | .tag _ _ _ | .composite _ _ _ => [[]]

/-- The same for items that are counted from `start`. -/
def addressesFrom (start : Nat) : List (Element κ) → List (List Nat)
  | [] => []
  | item :: rest => (addresses item).map (start :: ·) ++ addressesFrom (start + 1) rest

end

theorem mem_addressesFrom {address : List Nat} {items : List (Element κ)} : ∀ {start : Nat},
    address ∈ addressesFrom start items ↔
      ∃ index rest item, items[index]? = some item ∧ rest ∈ item.addresses ∧
        address = (start + index) :: rest := by
  induction items with
  | nil => simp [addressesFrom]
  | cons item others ih =>
    intro start
    rw [addressesFrom, List.mem_append, List.mem_map, ih]
    constructor
    · rintro (⟨rest, hrest, rfl⟩ | ⟨index, rest, other, hother, hrest, rfl⟩)
      · exact ⟨0, rest, item, rfl, hrest, rfl⟩
      · exact ⟨index + 1, rest, other, hother, hrest, by rw [Nat.add_assoc, Nat.add_comm 1]⟩
    · rintro ⟨index, rest, other, hother, hrest, rfl⟩
      cases index with
      | zero =>
        cases hother
        exact .inl ⟨rest, hrest, rfl⟩
      | succ index =>
        exact .inr ⟨index, rest, other, hother, hrest, by rw [Nat.add_assoc, Nat.add_comm 1]⟩

/-- The addresses are all those at which something stands. -/
theorem mem_addresses {address : List Nat} : ∀ {element : Element κ},
    address ∈ element.addresses ↔ (element.at? address).isSome = true := by
  induction address with
  | nil =>
    intro element
    cases element with
    | fragment items => simp [addresses, mem_addressesFrom, at?, isFragment]
    | _ => simp [addresses, at?, isFragment]
  | cons index rest ih =>
    intro element
    cases element with
    | fragment items =>
      rw [addresses, mem_addressesFrom, at?]
      constructor
      · rintro ⟨other, below, item, hitem, hbelow, heq⟩
        obtain ⟨rfl, rfl⟩ : other = index ∧ below = rest := by simpa [eq_comm] using heq
        rw [hitem]
        exact ih.1 hbelow
      · intro h
        obtain ⟨item, hitem⟩ : ∃ item, items[index]? = some item := by
          cases hitem : items[index]? with
          | none => rw [hitem] at h; cases h
          | some item => exact ⟨item, rfl⟩
        rw [hitem] at h
        exact ⟨index, rest, item, hitem, ih.2 h, by rw [Nat.zero_add]⟩
    | _ => simp [addresses, at?]

mutual

/-- The addresses increase. -/
theorem pairwise_addresses : ∀ element : Element κ, element.addresses.Pairwise (· < ·)
  | .fragment items => pairwise_addressesFrom 0 items
  | .empty | .leaf _ | .tag _ _ _ | .composite _ _ _ => List.pairwise_singleton _ _

theorem pairwise_addressesFrom (start : Nat) :
    ∀ items : List (Element κ), (addressesFrom start items).Pairwise (· < ·)
  | [] => .nil
  | item :: others => by
    rw [addressesFrom, List.pairwise_append, List.pairwise_map]
    refine ⟨(pairwise_addresses item).imp fun h => ?_, pairwise_addressesFrom (start + 1) others, ?_⟩
    · exact List.cons_lt_cons_iff.2 (.inr ⟨rfl, h⟩)
    · -- the other items have larger indices
      intro one hone other hother
      obtain ⟨rest, -, rfl⟩ := List.mem_map.1 hone
      obtain ⟨index, below, -, -, -, rfl⟩ := mem_addressesFrom.1 hother
      exact List.cons_lt_cons_iff.2 (.inl (by omega))

end

mutual

/-- At the addresses, in their order, stand the elements of the spliced list. -/
theorem map_at?_addresses : ∀ element : Element κ,
    element.addresses.map element.at? = (spliced element).map some
  | .fragment items => map_at?_addressesFrom [] items
  | .empty | .leaf _ | .tag _ _ _ | .composite _ _ _ => rfl

theorem map_at?_addressesFrom (before : List (Element κ)) : ∀ items : List (Element κ),
    (addressesFrom before.length items).map (fragment (before ++ items)).at? =
      (flatten items).map some
  | [] => rfl
  | item :: others => by
    have hitem : ∀ rest, (fragment (before ++ item :: others)).at? (before.length :: rest) =
        item.at? rest := by
      intro rest
      rw [at?, List.getElem?_append_right (Nat.le_refl _), Nat.sub_self]
      rfl
    have hothers := map_at?_addressesFrom (before ++ [item]) others
    rw [List.length_append, List.append_assoc] at hothers
    rw [addressesFrom, flatten, List.map_append, List.map_append, ← map_at?_addresses item,
      ← hothers, List.map_map]
    congr 1
    exact List.map_congr_left fun rest _ => hitem rest

end

/-- **A spliced list is in order**: it holds each element that stands among the items, where they
    are read from left to right. -/
theorem listedIn_flatten (items : List (Element κ)) : ListedIn items (flatten items) :=
  ⟨(fragment items).addresses, pairwise_addresses _, fun _ => mem_addresses,
    map_at?_addressesFrom [] items⟩

end Element

/-! ## Calls -/

/-- A call that adds to an element under construction. -/
inductive Call (κ : Type) where
  | attr (key : String) (value : Json)
  | attrs (attributes : Attributes)
  | child (child : Element κ)
  | children (children : List (Element κ))

namespace Call

/-- The attributes that the call sets, in order. -/
def settings : Call κ → List (String × Json)
  | attr key value => [(key, value)]
  | attrs attributes => attributes.entries
  | child _ | children _ => []

/-- The children that the call gives, as they are given. -/
def given : Call κ → List (Element κ)
  | attr _ _ | attrs _ => []
  | child element => [element]
  | children elements => elements

end Call

namespace Node

/-- Does what the call says. -/
def call (node : Node η κ) : Call κ → Node η κ
  | .attr key value => node.attr key value
  | .attrs attributes => node.attrs attributes
  | .child child => node.child child
  | .children children => node.addChildren children

/-- The tag or composite that some calls build, one after the other. -/
def build (head : η) (calls : List (Call κ)) : Node η κ := calls.foldl call { head }

theorem head_call (node : Node η κ) (call : Call κ) : (node.call call).head = node.head := by
  cases call <;> rfl

theorem children_call (node : Node η κ) (call : Call κ) :
    (node.call call).children = node.children ++ Element.flatten call.given := by
  cases call with
  | attr | attrs => exact (List.append_nil node.children).symm
  | child | children => rfl

theorem get?_attributes_call (node : Node η κ) (call : Call κ) (key : String) :
    (node.call call).attributes.get? key =
      (lastValue? key call.settings).or (node.attributes.get? key) := by
  cases call with
  | attr k value =>
    show (node.attributes.insert k value).get? key = (lookup key [(k, value)]).or _
    rw [Dict.get?_insert, lookup, lookup]
    split <;> rfl
  | attrs attributes => exact Dict.get?_merge node.attributes attributes key
  | child | children => rfl

theorem head_foldl (calls : List (Call κ)) : ∀ node : Node η κ,
    (calls.foldl call node).head = node.head := by
  induction calls with
  | nil => exact fun _ => rfl
  | cons first rest ih => exact fun node => (ih (node.call first)).trans (node.head_call first)

/-- **However they are given, children are spliced into one list**, in the order of the calls. -/
theorem children_foldl (calls : List (Call κ)) : ∀ node : Node η κ,
    (calls.foldl call node).children =
      node.children ++ Element.flatten (calls.flatMap Call.given) := by
  induction calls with
  | nil => exact fun node => (List.append_nil node.children).symm
  | cons first rest ih =>
    intro node
    rw [List.foldl_cons, ih, children_call, List.flatMap_cons, Element.flatten_append,
      List.append_assoc]

/-- **However they are given, the last setting of an attribute counts.** -/
theorem get?_attributes_foldl (calls : List (Call κ)) (key : String) : ∀ node : Node η κ,
    (calls.foldl call node).attributes.get? key =
      (lastValue? key (calls.flatMap Call.settings)).or (node.attributes.get? key) := by
  induction calls with
  | nil => exact fun _ => rfl
  | cons first rest ih =>
    intro node
    rw [List.foldl_cons, ih, get?_attributes_call, List.flatMap_cons, lastValue?_append,
      Option.or_assoc]

/-- **What some calls build** is put together from what they set and what they give. -/
theorem build_eq (head : η) (calls : List (Call κ)) :
    build head calls =
      { head, attributes := .ofList (calls.flatMap Call.settings),
        children := Element.flatten (calls.flatMap Call.given) } := by
  have hhead : (build head calls).head = head := head_foldl calls _
  have hattributes : (build head calls).attributes = .ofList (calls.flatMap Call.settings) := by
    refine Dict.ext_get? fun key => ?_
    rw [build, get?_attributes_foldl, Dict.get?_ofList]
    exact Option.or_none
  have hchildren : (build head calls).children = Element.flatten (calls.flatMap Call.given) :=
    children_foldl calls _
  match build head calls, hhead, hattributes, hchildren with
  | ⟨_, _, _⟩, rfl, rfl, rfl => rfl

end Node

/-- **All ways to build an element agree.**  Whatever calls a tag or a composite is built by, it is
    the one that `Element.create` makes of all attributes and all children that were given, and the
    attribute set last under a key counts.  After each call (the calls may end anywhere) no fragment
    is among the children, and these are what the fragments and lists that were given so far hold,
    from left to right.  Splicing goes through appending, and is done once and for all. -/
theorem build_eq_create (calls : List (Call κ)) :
    (∀ name, Tag.toElement (Node.build name calls) =
      .create (.tag name) (.ofList (calls.flatMap Call.settings)) (calls.flatMap Call.given)) ∧
    (∀ component, Composite.toElement (Node.build component calls) =
      .create (.component component) (.ofList (calls.flatMap Call.settings))
        (calls.flatMap Call.given)) ∧
    (∀ key, (Dict.ofList (calls.flatMap Call.settings)).get? key =
      lastValue? key (calls.flatMap Call.settings)) ∧
    (∀ (η : Type) (head : η),
      (∀ child ∈ (Node.build head calls).children, child.isFragment = false) ∧
      Element.ListedIn (calls.flatMap Call.given) (Node.build head calls).children) ∧
    ∀ items others : List (Element κ),
      Element.flatten (Element.flatten items) = Element.flatten items ∧
      Element.flatten (items ++ others) = Element.flatten items ++ Element.flatten others := by
  refine ⟨?_, ?_, ?_, ?_, ?_⟩
  · intro name
    rw [Node.build_eq]
    rfl
  · intro component
    rw [Node.build_eq]
    rfl
  · exact Dict.get?_ofList (calls.flatMap Call.settings)
  · intro η head
    rw [Node.build_eq]
    exact ⟨fun _ => Element.isFragment_of_mem_flatten, Element.listedIn_flatten _⟩
  · exact fun items others => ⟨Element.flatten_flatten items, Element.flatten_append items others⟩

end Folio
