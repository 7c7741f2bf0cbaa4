import Blokwork.Artifact.Basic
import Blokwork.Schema.ComponentSet

/-!
# Outcome of a generation

The artifact of a set of components with its digest and an account of what is missing from it.
-/

namespace Blokwork

/-- The artifact of a run and what the run has to say about it. -/
structure Outcome where
  artifact : String
  digest : String
  types : List GeneratedType
  failures : List ComponentFailure
  rejected : List RejectedComponent
  notices : List Notice
deriving DecidableEq, Repr

namespace Outcome

/-- The outcome for a set of components. -/
def ofComponents (config : GeneratorConfig) (set : ComponentSet) : Outcome :=
  let generation := config.generate set.components
  let artifact := Artifact.emit generation.declarations
  { artifact
    digest := Digest.ofText artifact
    types := generation.types
    failures := generation.failures
    rejected := set.rejected
    notices := generation.notices }

/-- Some component is missing from the artifact. -/
def isIncomplete (o : Outcome) : Bool := !o.failures.isEmpty || !o.rejected.isEmpty

end Outcome

end Blokwork
