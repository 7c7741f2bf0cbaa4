import Blokwork.Json.Printer

/-!
# Entries and bloks

An entry is one remote document, kept as it was fetched. Its bloks are the objects inside
`content` whose `component` is a string, that component's name; they may stand inside one
another at any depth. `visitBloks` edits the bloks of one component, a blok before the bloks
inside it; since an edit may put new bloks into a blok, the visit is bounded, and it reports
when the bound was too small.
-/

namespace Blokwork

/-- One remote document. -/
structure Entry where
  doc : Json
deriving DecidableEq, Repr

/-- The object is a blok of the component. -/
def isBlokOf (component : String) (members : Dict Json) : Bool :=
  Dict.get? members "component" = some (.str component)

namespace Json

mutual

/-- A blok of the component stands somewhere in the value. -/
def hasBlok (component : String) : Json → Bool
  | .obj members => isBlokOf component members || hasBlokMembers component members
  | .arr items => hasBlokItems component items
  | _ => false

/-- A blok of the component stands in one of the items. -/
def hasBlokItems (component : String) : List Json → Bool
  | [] => false
  | x :: rest => hasBlok component x || hasBlokItems component rest

/-- A blok of the component stands in one of the members. -/
def hasBlokMembers (component : String) : List (String × Json) → Bool
  | [] => false
  | (_, x) :: rest => hasBlok component x || hasBlokMembers component rest

end

/-- Edits the items from left to right, passing a state along. -/
def visitItems {σ : Type} (visit : σ → Json → Option (σ × Json)) (s : σ) :
    List Json → Option (σ × List Json)
  | [] => some (s, [])
  | x :: rest => do
    let (s, x) ← visit s x
    let (s, rest) ← visitItems visit s rest
    return (s, x :: rest)

/-- Edits the values of the members from left to right, passing a state along. -/
def visitMembers {σ : Type} (visit : σ → Json → Option (σ × Json)) (s : σ) :
    List (String × Json) → Option (σ × List (String × Json))
  | [] => some (s, [])
  | (k, x) :: rest => do
    let (s, x) ← visit s x
    let (s, rest) ← visitMembers visit s rest
    return (s, (k, x) :: rest)

/-- Edits every blok of the component, first the blok and then what stands in it. At most
`room` containers may stand inside one another; `none` when there are more. -/
def visitBloks {σ : Type} (component : String) (edit : σ → Dict Json → σ × Dict Json) :
    (room : Nat) → σ → Json → Option (σ × Json)
  | room + 1, s, .obj members =>
    let (s, members) := if isBlokOf component members then edit s members else (s, members)
    (visitMembers (visitBloks component edit room) s members).map fun (s, ms) => (s, .obj ms)
  | room + 1, s, .arr items =>
    (visitItems (visitBloks component edit room) s items).map fun (s, xs) => (s, .arr xs)
  | 0, _, .obj _ => none
  | 0, _, .arr _ => none
  | _, s, leaf => some (s, leaf)

end Json

namespace Entry

/-- The identifier of an entry: a number, or a text that is not empty. -/
def id? (e : Entry) : Option String :=
  match e.doc.member? "id" with
  | some (.num n) => some n.text
  | some (.str s) => if s.isEmpty then none else some s
  | _ => none

/-- The identifier for a reader. -/
def displayId (e : Entry) : String := e.id?.getD "<unknown>"

/-- What bloks stand in. -/
def content? (e : Entry) : Option Json := e.doc.member? "content"

/-- A blok of the component stands in the content. -/
def containsComponent (component : String) (e : Entry) : Bool :=
  match e.content? with
  | none => false
  | some content => content.hasBlok component

/-- The entry with another content in the place of its own. -/
def withContent (content : Json) (e : Entry) : Entry :=
  match e.doc with
  | .obj members => ⟨.obj (Dict.insert members "content" content)⟩
  | _ => e

/-- The containers that may stand inside one another in the content after edits that add at
most `growth` to what stands in a blok. -/
def room (growth : Nat) (e : Entry) : Nat :=
  2 * ((e.content?.map Json.depth).getD 0 + growth)

/-- Edits the bloks of the component and counts the edits. `growth` bounds the depth that the
edits add; `none` when it was too small. -/
def visitBloks {σ : Type} (component : String) (growth : Nat)
    (edit : σ → Dict Json → σ × Dict Json) (s : σ) (e : Entry) : Option (σ × Nat × Entry) :=
  match e.content? with
  | none => some (s, 0, e)
  | some content =>
    let counted := fun (state : σ × Nat) members =>
      let (s, members) := edit state.1 members
      ((s, state.2 + 1), members)
    (content.visitBloks component counted (e.room growth) (s, 0)).map
      fun ((s, count), content) => (s, count, e.withContent content)

/-- The two entries hold equal documents. -/
def same (a b : Entry) : Bool := a.doc.same b.doc

end Entry

end Blokwork
