/-
  What a compilation sees of its context.

  Components are shown a context, and provide entries that may depend on what they saw.  If all
  they do with it is to look up certain keys, then nothing else in a context has a say in what a
  tree compiles to: neither other entries, nor the order in which the entries came in.

  1. **Agreement** — two contexts agree on a set of keys if each key has the same value in both,
     or is absent from both (`Context.AgreesOn`).  Adding the same entries to both keeps that
     (`AgreesOn.insertAll`).
  2. **Components that look up** — a library sees only some keys if it renders alike against
     contexts that agree on them (`Library.SeesOnly`).  It does if its components are scripts that
     ask for keys, one after the other, and then render (`Script.Asks`, `seesOnly_scripted`).
  3. **Two runs** — a chain of components is followed alike from contexts that agree, and leaves
     contexts that agree (`follow_agreesOn`).  The walk below a chain goes on in these, so the two
     walks stay in step (`resolve_bind_congr`), and the whole comes out the same
     (`compile_lookups`).
-/
import Mathlib.Data.Set.Defs
import Folio.Compile.Document
import Folio.Proofs.Expansion

namespace Folio

variable {κ α : Type} {keys : Set String}

/-! ## Agreement -/

namespace Context

/-- Each of the keys has the same value in both contexts, or is absent from both. -/
def AgreesOn (keys : Set String) (a b : Context) : Prop := ∀ key ∈ keys, a.get? key = b.get? key

namespace AgreesOn

variable {a b : Context}

theorem refl (a : Context) : AgreesOn keys a a := fun _ _ => rfl

theorem insert (h : AgreesOn keys a b) (key : String) (value : Json) :
    AgreesOn keys (a.insert key value) (b.insert key value) := by
  intro k hk
  rw [get?_insert, get?_insert, h k hk]

theorem insertAll (h : AgreesOn keys a b) (entries : List (String × Json)) :
    AgreesOn keys (a.insertAll entries) (b.insertAll entries) := by
  induction entries generalizing a b with
  | nil => exact h
  | cons entry rest ih => exact ih (h.insert entry.1 entry.2)

end AgreesOn

/-- Entries under other keys change nothing that is looked up. -/
theorem insertAll_agreesOn {entries : List (String × Json)}
    (h : ∀ entry ∈ entries, entry.1 ∉ keys) (context : Context) :
    AgreesOn keys (context.insertAll entries) context := by
  induction entries generalizing context with
  | nil => exact .refl context
  | cons entry rest ih =>
    intro key hkey
    have hrest := ih (fun other hother => h other (List.mem_cons_of_mem _ hother))
      (context.insert entry.1 entry.2) key hkey
    have hentry : entry.1 ≠ key := by
      intro heq
      exact h entry List.mem_cons_self (heq ▸ hkey)
    rw [get?_insert, if_neg hentry] at hrest
    exact hrest

/-- The order in which the entries came in is not looked up. -/
theorem agreesOn_of_perm {a b : Context} (h : a.entries.Perm b.entries) : AgreesOn keys a b := by
  intro key _
  apply Option.ext
  intro value
  rw [get?_eq_some_iff, get?_eq_some_iff, h.mem_iff]

end Context

/-! ## Components that look up -/

/-- The library renders alike against contexts that agree on the keys. -/
def Library.SeesOnly (library : Library κ Id) (keys : Set String) : Prop :=
  ∀ component props a b, Context.AgreesOn keys a b →
    library.render component props a = library.render component props b

/-- What a component does with its context: it looks up keys and provides entries, as often and
    in whatever order it likes, and renders an element in the end. -/
inductive Script (κ : Type) where
  | render (element : Element κ)
  | get (key : String) (next : Option Json → Script κ)
  | provide (key : String) (value : Json) (next : Script κ)

namespace Script

/-- Looks up a text. -/
def getString (key : String) (next : Option String → Script κ) : Script κ :=
  .get key fun found => next (found >>= Json.asString?)

/-- Looks up whether there is an entry. -/
def contains (key : String) (next : Bool → Script κ) : Script κ :=
  .get key fun found => next found.isSome

/-- What the script renders.  An entry that it provides is seen by its own later look-ups. -/
def run : Script κ → Context → Rendering κ
  | render element, _ => ⟨element, []⟩
  | get key next, context => (next (context.get? key)).run context
  | provide key value next, context =>
    let rendering := next.run (context.insert key value)
    ⟨rendering.element, (key, value) :: rendering.provided⟩

@[simp] theorem run_getString (key : String) (next : Option String → Script κ)
    (context : Context) :
    (getString key next).run context = (next (context.getString? key)).run context := rfl

@[simp] theorem run_contains (key : String) (next : Bool → Script κ) (context : Context) :
    (contains key next).run context = (next (context.contains key)).run context := rfl

/-- All look-ups of the script, whatever they find, are of these keys. -/
def Asks (keys : Set String) : Script κ → Prop
  | render _ => True
  | get key next => key ∈ keys ∧ ∀ found, (next found).Asks keys
  | provide _ _ next => next.Asks keys

theorem asks_getString {key : String} {next : Option String → Script κ} (hkey : key ∈ keys)
    (hnext : ∀ found, (next found).Asks keys) : (getString key next).Asks keys :=
  ⟨hkey, fun _ => hnext _⟩

theorem asks_contains {key : String} {next : Bool → Script κ} (hkey : key ∈ keys)
    (hnext : ∀ found, (next found).Asks keys) : (contains key next).Asks keys :=
  ⟨hkey, fun _ => hnext _⟩

/-- Contexts that agree give the same answers, so the script takes the same way. -/
theorem run_congr {a b : Context} :
    ∀ {script : Script κ}, script.Asks keys → Context.AgreesOn keys a b →
      script.run a = script.run b
  | render _, _, _ => rfl
  | get key next, h, hab => by
    obtain ⟨hkey, hnext⟩ := h
    rw [run, run, hab key hkey]
    exact run_congr (hnext _) hab
  | provide key value next, h, hab => by
    have hnext : next.run (a.insert key value) = next.run (b.insert key value) :=
      run_congr h (hab.insert key value)
    rw [run, run, hnext]

end Script

/-- The library of components that are written as scripts. -/
def Library.scripted (name : κ → String) (script : κ → Props κ → Script κ) (reach : Nat) :
    Library κ Id where
  name := name
  render component props context := (script component props).run context
  reach := reach

/-- Components that are scripts see only the keys that the scripts ask for. -/
theorem seesOnly_scripted (name : κ → String) {script : κ → Props κ → Script κ} (reach : Nat)
    (hasks : ∀ component props, (script component props).Asks keys) :
    (Library.scripted name script reach).SeesOnly keys :=
  fun component props _ _ hab => Script.run_congr (hasks component props) hab

theorem seesOnly_none : Library.none.SeesOnly keys := fun component => component.elim

/-! ## Two runs -/

section Walk

variable {library : Library κ Id} {options : Options} {a b : Context}

/-- **A chain is followed alike.**  From contexts that agree, it is given up in both runs, or ends
    in the same outcome and leaves contexts that agree. -/
theorem follow_agreesOn (hlib : library.SeesOnly keys) :
    ∀ (limit depth : Nat) (element : Element κ) {a b : Context}, Context.AgreesOn keys a b →
      (follow library limit depth element a = throw .tooDeep ∧
        follow library limit depth element b = throw .tooDeep) ∨
      ∃ resolved a' b', follow library limit depth element a = pure (resolved, a') ∧
        follow library limit depth element b = pure (resolved, b') ∧
        Context.AgreesOn keys a' b'
  | limit, depth, .empty, a, b, hab => by
    have hempty : ∀ context,
        follow library limit depth .empty context = pure (.empty, context) := by
      intro context
      rw [follow]
      split <;> rfl
    exact .inr ⟨.empty, a, b, hempty a, hempty b, hab⟩
  | _, _, .leaf scalar, a, b, hab =>
    .inr ⟨.leaf scalar, a, b, by rw [follow], by rw [follow], hab⟩
  | _, _, .tag name attributes children, a, b, hab =>
    .inr ⟨.tag ⟨name, attributes, children⟩, a, b, by rw [follow], by rw [follow], hab⟩
  | _, _, .fragment items, a, b, hab =>
    .inr ⟨.fragment items, a, b, by rw [follow], by rw [follow], hab⟩
  | 0, _, .composite _ _ _, _, _, _ => .inl ⟨rfl, rfl⟩
  | limit + 1, depth, .composite component attributes children, a, b, hab => by
    -- the same rendering in both runs, so the same entries come in and the chain goes on alike
    have hrender := hlib component ⟨attributes, children⟩ a b hab
    have hstep : ∀ context, follow library (limit + 1) depth
        (.composite component attributes children) context =
        follow library limit (depth + 1)
          (library.render component ⟨attributes, children⟩ context).element
          (context.insertAll
            (library.render component ⟨attributes, children⟩ context).provided) :=
      fun _ => rfl
    rw [hstep, hstep, ← hrender]
    exact follow_agreesOn hlib limit (depth + 1) _ (hab.insertAll _)

/-- Two runs that resolve an element and go on alike from there are the same run. -/
theorem resolve_bind_congr (hlib : library.SeesOnly keys) {limit : Nat} {element : Element κ}
    (hab : Context.AgreesOn keys a b)
    {next next' : Resolved κ × Context → ExceptT CompileError Id α}
    (hnext : ∀ resolved a' b', Context.AgreesOn keys a' b' →
      next (resolved, a') = next' (resolved, b')) :
    resolve library limit element a >>= next = resolve library limit element b >>= next' := by
  rw [resolve, resolve]
  rcases follow_agreesOn hlib limit 0 element hab with ⟨ha, hb⟩ | ⟨resolved, a', b', ha, hb, hab'⟩
  · rw [ha, hb]
    rfl
  · rw [ha, hb, pure_bind, pure_bind]
    exact hnext resolved a' b' hab'

/-- **A child of a tag yields the same pieces** in contexts that agree. -/
theorem childPieces_agreesOn (hlib : library.SeesOnly keys) :
    ∀ (limit : Nat) {a b : Context}, Context.AgreesOn keys a b → ∀ child : Element κ,
      childPieces library options limit a child = childPieces library options limit b child
  | 0, _, _, _, _ => rfl
  | limit + 1, a, b, hab, child => by
    rw [childPieces, childPieces]
    refine resolve_bind_congr hlib hab fun resolved a' b' hab' => ?_
    have hbelow := funext (childPieces_agreesOn hlib limit hab')
    cases resolved with
    | empty => rfl
    | leaf scalar => rfl
    | fragment items => exact congrArg (collect · items) hbelow
    | tag tag =>
      show compileTagWith (childPieces library options limit a') options false tag >>= _ =
        compileTagWith (childPieces library options limit b') options false tag >>= _
      rw [hbelow]

theorem compileTagWithin_agreesOn (hlib : library.SeesOnly keys) (limit : Nat)
    (hab : Context.AgreesOn keys a b) (top : Bool) (tag : Tag κ) :
    compileTagWithin library options limit a top tag =
      compileTagWithin library options limit b top tag := by
  rw [compileTagWithin, compileTagWithin, funext (childPieces_agreesOn hlib limit hab)]

/-- **A child of the document adds the same sections** in contexts that agree. -/
theorem addSections_agreesOn (hlib : library.SeesOnly keys) :
    ∀ (limit : Nat) {a b : Context}, Context.AgreesOn keys a b →
      ∀ (child : Element κ) (definition : Definition),
        addSections library options limit a child definition =
          addSections library options limit b child definition
  | 0, _, _, _, _, _ => rfl
  | limit + 1, a, b, hab, child, definition => by
    rw [addSections, addSections]
    refine resolve_bind_congr hlib hab fun resolved a' b' hab' => ?_
    cases resolved with
    | empty => rfl
    | leaf scalar => rfl
    | fragment items =>
      have hbelow := funext fun item => funext (addSections_agreesOn hlib limit hab' item)
      exact congrArg (thread · items definition) hbelow
    | tag tag =>
      show compileTagWithin library options limit a' true tag >>= _ =
        compileTagWithin library options limit b' true tag >>= _
      rw [compileTagWithin_agreesOn hlib limit hab']

theorem compile_agreesOn (hlib : library.SeesOnly keys) (hab : Context.AgreesOn keys a b)
    (root : Element κ) :
    compile library options a root = compile library options b root := by
  rw [compile, compile, compileWithin, compileWithin]
  refine resolve_bind_congr hlib hab fun resolved a' b' hab' => ?_
  have hbelow : addSections library options (root.height + library.reach) a' =
      addSections library options (root.height + library.reach) b' :=
    funext fun child => funext (addSections_agreesOn hlib _ hab' child)
  dsimp only
  rw [hbelow]

end Walk

/-- **What is not looked up does not matter.**  Let a library see only the keys.  Then a tree
    compiles to the same result from two contexts that agree on them.  In particular neither the
    order of the entries nor entries under other keys have a say; and a tree without components
    compiles to the same result from every context. -/
theorem compile_lookups {library : Library κ Id} (hlib : library.SeesOnly keys)
    (options : Options) (root : Element κ) (tree : Element Empty) :
    (∀ a b, Context.AgreesOn keys a b →
      compile library options a root = compile library options b root) ∧
    (∀ a b : Context, a.entries.Perm b.entries →
      compile library options a root = compile library options b root) ∧
    (∀ (context : Context) (unrelated : List (String × Json)),
      (∀ entry ∈ unrelated, entry.1 ∉ keys) →
      compile library options (context.insertAll unrelated) root =
        compile library options context root) ∧
    ∀ a b : Context, compile (m := Id) Library.none options a tree =
      compile Library.none options b tree := by
  refine ⟨fun a b hab => compile_agreesOn hlib hab root,
    fun a b hperm => compile_agreesOn hlib (Context.agreesOn_of_perm hperm) root,
    fun context unrelated hkeys =>
      compile_agreesOn hlib (Context.insertAll_agreesOn hkeys context) root,
    fun a b => ?_⟩
  have hnone : Context.AgreesOn ∅ a b := fun key hkey => hkey.elim
  exact compile_agreesOn seesOnly_none hnone tree

/-! ## An inked page

  One component chooses an ink for the theme and provides it, unless there is one already; a label
  below reads the ink. -/

/-- The components of the page. -/
inductive Inking where
  | ink
  | label

/-- What they do with their context. -/
def Inking.script : Inking → Props Inking → Script Inking
  | ink, props =>
    .contains "ink" fun known =>
      if known then .render props.childrenFragment
      else .getString "theme" fun theme =>
        .provide "ink" (.string (if theme = some "dark" then "white" else "black")) <|
          .render props.childrenFragment
  | label, _ => .getString "ink" fun ink => .render (.text (ink.getD "none"))

/-- The library of the components. -/
def inked : Library Inking Id := .scripted (fun _ => "inking") Inking.script 0

theorem inked_seesOnly : inked.SeesOnly {key | key = "theme" ∨ key = "ink"} := by
  refine seesOnly_scripted _ 0 fun component props => ?_
  cases component with
  | ink =>
    rw [Inking.script]
    refine Script.asks_contains (Or.inr rfl) fun known => ?_
    cases known with
    | true => trivial
    | false =>
      rw [if_neg Bool.false_ne_true]
      exact Script.asks_getString (Or.inl rfl) fun _ => trivial
  | label =>
    rw [Inking.script]
    exact Script.asks_getString (Or.inr rfl) fun _ => trivial

/-- A label below an ink. -/
def inkedPage : Element Inking :=
  .tag .document ∅ [.tag .content ∅ [.composite .ink ∅ [.composite .label ∅ []]]]

/-- The page comes out in white from two dark contexts that share nothing else. -/
theorem compile_lookups_inkedPage :
    inked.SeesOnly {key | key = "theme" ∨ key = "ink"} ∧
    compile inked { defaultStyle := none }
        (.ofList [("theme", .string "dark"), ("paper", .string "a4")]) inkedPage =
      pure { content := some (.fragment (.list .stack [.text (.string "white")]) ∅) } ∧
    compile inked { defaultStyle := none }
        (.ofList [("theme", .string "dark"), ("paper", .string "a4")]) inkedPage =
      compile inked { defaultStyle := none }
        (.ofList [("draft", .bool true), ("theme", .string "dark")]) inkedPage := by
  refine ⟨inked_seesOnly, rfl, ?_⟩
  refine (compile_lookups inked_seesOnly { defaultStyle := none } inkedPage .empty).1 _ _ ?_
  rintro key (rfl | rfl) <;> rfl

end Folio
