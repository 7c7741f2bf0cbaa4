import Blokwork.Generate.ComponentType

/-!
# Generation

The declarations of a list of components in the order of emission: each component in the order
of the input, behind the helper types that it is the first to refer to. A component whose
schema has no declaration is reported and left out; the others are not affected.
-/

namespace Blokwork

/-- What a generation depends on besides the components. -/
structure GeneratorConfig where
  namer : TypeNamer := {}
  compile : TypeScript.CompileOptions := {}
  custom : Option CustomTypes := none

/-- The declarations of a run and the components without one. -/
structure Generation where
  types : List GeneratedType := []
  failures : List ComponentFailure := []
  notices : List Notice := []
deriving DecidableEq, Repr

namespace Generation

/-- One run after the other. -/
def append (a b : Generation) : Generation where
  types := a.types ++ b.types
  failures := a.failures ++ b.failures
  notices := a.notices ++ b.notices

/-- The texts of the declarations. -/
def declarations (g : Generation) : List String := g.types.map (·.declaration)

end Generation

namespace GeneratorConfig

variable (config : GeneratorConfig)

/-- What the fragments of a run over some components depend on. -/
def context (components : List Component) : FragmentContext where
  roster := Roster.ofComponents components
  namer := config.namer
  custom := config.custom

/-- The declaration of the helper type of a kind. -/
def helper (kind : FieldKind) : Generation :=
  match HelperType.schema? config.namer kind with
  | none => {}
  | some schema =>
    let typeName := config.namer.typeName kind.name
    match TypeScript.compile config.compile typeName schema with
    | .ok declaration => { types := [{ typeName, origin := .helper kind, declaration }] }
    | .error error => { notices := [.helperFailed kind error] }

/-- The declarations of the helper types of some kinds. -/
def helpers (kinds : List FieldKind) : Generation :=
  kinds.foldl (fun g kind => g.append (config.helper kind)) {}

/-- The declaration of a component, or its failure. -/
def component (ctx : FragmentContext) (c : Component) : Generation :=
  match c.generatedType ctx config.compile with
  | .ok type => { types := [type] }
  | .error failure =>
    { failures := [failure], notices := [.componentFailed failure.component failure.error] }

/-- The declarations of components, given the helper types that were declared before. -/
def componentsFrom (ctx : FragmentContext) (queue : HelperQueue) : List Component → Generation
  | [] => {}
  | c :: rest =>
    let queue := queue.afterFields c.dataFields
    { notices := ctx.noticesOfFields c.dataFields : Generation }
      |>.append (config.helpers queue.pending)
      |>.append (config.component ctx c)
      |>.append (componentsFrom ctx queue.taken rest)

/-- What is reported about a list of components before the first of them gets a type. -/
def rosterNotices (components : List Component) : List Notice :=
  Roster.noticesFrom {} components
    ++ (config.namer.collisions (Roster.ofComponents components).names).map
        fun (typeName, names) => .sharedTypeName typeName names

/-- The declarations of a list of components. -/
def generate (components : List Component) : Generation :=
  { notices := config.rosterNotices components : Generation }.append
    (config.componentsFrom (config.context components) {} components)

end GeneratorConfig

end Blokwork
