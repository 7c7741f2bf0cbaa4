import Blokwork.Content.Entry
import Blokwork.Failure
import Blokwork.Notice
import Blokwork.Timestamp

/-!
# What a migration works on

A migration reads and writes entries through a content API and keeps its snapshots in a store.
Both are given by their operations in a monad `m`, together with a clock and a place for
notices; a state monad over a model of the world serves as well as input and output.
-/

namespace Blokwork

/-- The space that an API talks to. -/
structure Credentials where
  spaceId : String
  baseUrl : String
deriving DecidableEq, Repr

/-- Remote entries. -/
structure ContentApi (m : Type → Type) where
  credentials : Credentials
  /-- The entries with a blok of the component. -/
  entriesWith : (component : String) → m (Except Failure (List Entry))
  /-- Replaces the remote entry with the identifier of this one; the result is what is stored. -/
  put : Entry → m (Except Failure Entry)

/-- Snapshot files by name. -/
structure SnapshotStore (m : Type → Type) where
  /-- The names of all files. -/
  list : m (Except Failure (List String))
  read : (file : String) → m (Except Failure ByteArray)
  /-- Writes a new file in one step; false when there is one of that name. -/
  create : (file : String) → (contents : ByteArray) → m (Except Failure Bool)
  has : (file : String) → m (Except Failure Bool)
  remove : (file : String) → m (Except Failure Unit)

/-- Everything that a migration works on. -/
structure MigrationEnvironment (m : Type → Type) where
  api : ContentApi m
  store : SnapshotStore m
  /-- Takes note of something. -/
  report : Notice → m Unit
  /-- The present time. -/
  now : m Timestamp

end Blokwork
