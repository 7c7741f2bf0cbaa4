import Blokwork.Artifact.Digest
import Blokwork.Generate.Generation
import Blokwork.Text.Difference

/-!
# Artifacts

The generated file: a line that imports the type of a story, and behind it the declarations,
with an empty line before each. The drift of an existing file is its difference from the
artifact.
-/

namespace Blokwork.Artifact

/-- The first line of every artifact. -/
def preamble : String := "import type \x7b StoryblokStory \x7d from \"storyblok-generate-ts\";\n"

/-- The artifact of some declarations. -/
def emit (declarations : List String) : String :=
  String.intercalate "\n" (preamble :: declarations)

/-- How an existing text differs from the artifact, unless they are equal. -/
def drift? (artifact existing : String) : Option String :=
  if existing = artifact then none else some (Text.difference existing artifact)

end Blokwork.Artifact
