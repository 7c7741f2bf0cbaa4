import Blokwork.Proofs.Files.SnapshotDirectory
import Mathlib

/-!
# A directory in the place of a memory

The store of snapshots in a directory answers every sequence of calls as the store in memory does,
the one started on a directory that is not there yet and the other one empty
(`answers_eq_memory`). What ties them together is `Mirrors`: the entries of the directory are the
files in memory, in the same order, or nothing was created so far. Each call keeps it
(`answer_mirrored`).
-/

namespace Blokwork

/-! ## Calls of a store and their answers -/

/-- A call of a store. -/
inductive StoreCall where
  | list
  | read (file : String)
  | create (file : String) (contents : ByteArray)
  | has (file : String)
  | remove (file : String)

/-- What a caller sees of a call: its result, or that it failed. -/
inductive StoreAnswer where
  | names (files : List String)
  | contents (bytes : ByteArray)
  | flag (value : Bool)
  | done
  | failed
deriving DecidableEq

/-- The answer of a call that may fail. -/
def StoreAnswer.ofResult {α : Type} (answer : α → StoreAnswer) : Except Failure α → StoreAnswer
  | .ok result => answer result
  | .error _ => .failed

namespace StoreCall

/-- The file that a call is about. -/
def file? : StoreCall → Option String
  | .list => none
  | .read file | .create file _ | .has file | .remove file => some file

variable {m : Type → Type} [Monad m]

/-- The answer of a store to a call. -/
def answer (store : SnapshotStore m) : StoreCall → m StoreAnswer
  | .list => return .ofResult .names (← store.list)
  | .read file => return .ofResult .contents (← store.read file)
  | .create file contents => return .ofResult .flag (← store.create file contents)
  | .has file => return .ofResult .flag (← store.has file)
  | .remove file => return .ofResult (fun _ => .done) (← store.remove file)

/-- The answers of a store to some calls, one after the other. -/
def answers (store : SnapshotStore m) : List StoreCall → m (List StoreAnswer)
  | [] => return []
  | call :: rest => do
    let first ← call.answer store
    return first :: (← answers store rest)

end StoreCall

/-! ## A directory that mirrors a memory -/

open FileTree (PlainFile Followable)
open Workspace (snapshots)

/-- There is no directory at the path yet, but one can be made there, which is empty then. (A path
that goes up from a missing directory may lead to one that is there once the other is made.) -/
structure Vacant (path : String) (files : FileTree) : Prop where
  missing : Workspace.nodeIs FileTree.isDirectoryNode path files = false
  room : ∃ made, FileTree.makeDirectories path files = .ok made ∧ made.items path = .ok []

/-- Files in memory as the entries of a directory. -/
def asEntries (files : Dict ByteArray) : Dict FileTree := files.map fun e => (e.1, .file e.2)

/-- The directory at a path has the files of a memory; without any it may be missing. -/
inductive Mirrors (path : String) (files : FileTree) (snapshots : Dict ByteArray) : Prop where
  | vacant (h : Vacant path files) (hnone : snapshots = [])
  | kept (h : files.node? path = .ok (.directory (asEntries snapshots)))

section
variable {path file : String} {files : FileTree} {d : Dict ByteArray}

theorem get?_asEntries (d : Dict ByteArray) (file : String) :
    Dict.get? (asEntries d) file = (Dict.get? d file).map FileTree.file := by
  induction d with
  | nil => rfl
  | cons e rest ih =>
    obtain ⟨name, bytes⟩ := e
    simp only [asEntries, List.map_cons, Dict.get?_cons] at ih ⊢
    split
    · rfl
    · exact ih

theorem has_asEntries (d : Dict ByteArray) (file : String) :
    Dict.has (asEntries d) file = Dict.has d file := by
  rw [Dict.has, get?_asEntries, Option.isSome_map, Dict.has]

theorem asEntries_insert (d : Dict ByteArray) (file : String) (contents : ByteArray) :
    asEntries (Dict.insert d file contents) = Dict.insert (asEntries d) file (.file contents) := by
  induction d with
  | nil => rfl
  | cons e rest ih =>
    obtain ⟨name, bytes⟩ := e
    simp only [asEntries, List.map_cons, Dict.insert] at ih ⊢
    split
    · rfl
    · rw [List.map_cons, ih]

theorem asEntries_erase (d : Dict ByteArray) (file : String) :
    asEntries (Dict.erase d file) = Dict.erase (asEntries d) file := by
  induction d with
  | nil => rfl
  | cons e rest ih =>
    obtain ⟨name, bytes⟩ := e
    simp only [asEntries, List.map_cons, Dict.erase] at ih ⊢
    split
    · rfl
    · rw [List.map_cons, ih]

theorem plainNames_asEntries (d : Dict ByteArray) :
    SnapshotDirectory.plainNames (asEntries d) = Dict.keys d := by
  have hall : (asEntries d).filter (fun e => e.2.isFileNode) = asEntries d := by
    rw [List.filter_eq_self]
    intro e he
    obtain ⟨entry, -, rfl⟩ := List.mem_map.1 he
    rfl
  rw [SnapshotDirectory.plainNames, hall, asEntries, List.map_map]
  rfl

/-! ## Vacant paths -/

theorem Vacant.not_directory (h : Vacant path files) (entries : Dict FileTree) :
    files.node? path ≠ .ok (.directory entries) :=
  Workspace.isDirectory_eq_false.1 h.missing entries

/-- What is made at a vacant path is an empty directory. -/
theorem Vacant.exists_made (h : Vacant path files) :
    ∃ made, FileTree.makeDirectories path files = .ok made ∧
      made.node? path = .ok (.directory []) := by
  obtain ⟨made, hmade, hitems⟩ := h.room
  refine ⟨made, hmade, ?_⟩
  rw [FileTree.items] at hitems
  cases hnode : made.node? path with
  | error fault => rw [hnode] at hitems; cases hitems
  | ok t =>
    rw [hnode] at hitems
    cases t with
    | file contents => cases hitems
    | directory entries =>
      cases entries with
      | nil => rfl
      | cons e rest => cases hitems

theorem Vacant.followable (h : Vacant path files) : Followable path := by
  obtain ⟨made, -, hnode⟩ := h.exists_made
  exact (FileTree.node?_eq_directory.1 hnode).1

/-- A path is vacant when no directory is there, one can be made, and the path does not go up. -/
theorem Vacant.of_forward (hmissing : Workspace.nodeIs FileTree.isDirectoryNode path files = false)
    (hroom : ∃ made, FileTree.makeDirectories path files = .ok made) (hne : path ≠ "")
    (hforward : ".." ∉ Path.named path) : Vacant path files where
  missing := hmissing
  room := by
    obtain ⟨made, hmade⟩ := hroom
    have hempty := FileTree.node?_of_makeDirectories_of_missing
      (Workspace.isDirectory_eq_false.1 hmissing) hne hforward hmade
    refine ⟨made, hmade, ?_⟩
    rw [FileTree.items, hempty]
    rfl

/-- There are no files below a vacant path. -/
theorem Vacant.node?_join (h : Vacant path files) (hfile : PlainFile path file) :
    ∃ fault, files.node? (Path.join path file) = .error fault :=
  FileTree.node?_join_of_missing hfile h.followable h.not_directory

/-- What is found in a directory that mirrors a memory. -/
theorem Mirrors.node?_join (h : Mirrors path files d) (hfile : PlainFile path file) :
    (∃ bytes, Dict.get? d file = some bytes ∧
        files.node? (Path.join path file) = .ok (.file bytes)) ∨
      (Dict.get? d file = none ∧ ∃ fault, files.node? (Path.join path file) = .error fault) := by
  cases h with
  | vacant hvacant hnone =>
    subst hnone
    exact .inr ⟨rfl, hvacant.node?_join hfile⟩
  | kept hnode =>
    have hfound := FileTree.node?_join hfile hnode
    rw [get?_asEntries] at hfound
    cases hget : Dict.get? d file with
    | none =>
      rw [hget] at hfound
      exact .inr ⟨rfl, _, hfound⟩
    | some bytes =>
      rw [hget] at hfound
      exact .inl ⟨bytes, rfl, hfound⟩

/-- The directory of a path that mirrors a memory can be made, and has the files then. -/
theorem Mirrors.exists_made (h : Mirrors path files d) :
    ∃ made, FileTree.makeDirectories path files = .ok made ∧
      made.node? path = .ok (.directory (asEntries d)) := by
  cases h with
  | vacant hvacant hnone =>
    subst hnone
    exact hvacant.exists_made
  | kept hnode => exact ⟨files, FileTree.makeDirectories_of_node? hnode, hnode⟩

end

/-! ## One call -/

section
variable {path file : String} {w : Workspace} {world : Memory}

theorem list_mirrored (h : Mirrors path w.files world.files) :
    (snapshots path).list w = (.ok ((Dict.keys world.files).mergeSort (· ≤ ·)), w) := by
  cases h with
  | vacant hvacant hnone =>
    rw [SnapshotDirectory.list_of_missing hvacant.missing, hnone, Dict.keys_nil,
      List.mergeSort_nil]
  | kept hnode => rw [SnapshotDirectory.list_of_node? hnode, plainNames_asEntries]

theorem create_mirrored (h : Mirrors path w.files world.files) (hfile : PlainFile path file)
    (contents : ByteArray) :
    ((snapshots path).create file contents w).1 = (Memory.create file contents world).1 ∧
      Mirrors path ((snapshots path).create file contents w).2.files
        (Memory.create file contents world).2.files := by
  obtain ⟨made, hmade, hnode⟩ := h.exists_made
  cases hget : Dict.get? world.files file with
  | none =>
    have hentry : Dict.get? (asEntries world.files) file = none := by
      rw [get?_asEntries, hget]
      rfl
    obtain ⟨written, hcreate, hfilled⟩ :=
      SnapshotDirectory.create_new hmade hnode hfile hentry contents
    rw [hcreate, Memory.create, Dict.has_eq_false.2 hget, if_neg Bool.false_ne_true]
    rw [← asEntries_insert] at hfilled
    exact ⟨rfl, .kept hfilled⟩
  | some bytes =>
    have hhas := Dict.has_of_get? hget
    have hentry : Dict.has (asEntries world.files) file = true := by rw [has_asEntries, hhas]
    rw [SnapshotDirectory.create_taken hmade hnode hfile hentry, Memory.create, hhas, if_pos rfl]
    exact ⟨rfl, .kept hnode⟩

theorem remove_mirrored (h : Mirrors path w.files world.files) (hfile : PlainFile path file) :
    StoreAnswer.ofResult (fun _ => .done) ((snapshots path).remove file w).1 =
        StoreAnswer.ofResult (fun _ => .done) (Memory.remove file world).1 ∧
      Mirrors path ((snapshots path).remove file w).2.files
        (Memory.remove file world).2.files := by
  rcases h.node?_join hfile with ⟨bytes, hget, hfound⟩ | ⟨hget, fault, hfound⟩
  · cases h with
    | vacant hvacant hnone => rw [hnone] at hget; cases hget
    | kept hnode =>
      have hentry : Dict.get? (asEntries world.files) file = some (.file bytes) := by
        rw [get?_asEntries, hget]
        rfl
      obtain ⟨removed, hremove, hleft⟩ := FileTree.remove_join hfile hnode hentry
      rw [SnapshotDirectory.remove_of_ok hremove, Memory.remove, Dict.has_of_get? hget, if_pos rfl]
      rw [← asEntries_erase] at hleft
      exact ⟨rfl, .kept hleft⟩
  · obtain ⟨refused, hrefused⟩ := FileTree.remove_of_node?_error hfound
    rw [SnapshotDirectory.remove_of_error hrefused, Memory.remove, Dict.has_eq_false.2 hget,
      if_neg Bool.false_ne_true]
    exact ⟨rfl, h⟩

theorem read_mirrored (h : Mirrors path w.files world.files) (hfile : PlainFile path file) :
    StoreAnswer.ofResult .contents ((snapshots path).read file w).1 =
      StoreAnswer.ofResult .contents (Memory.store.read file world).1 := by
  rw [SnapshotDirectory.read_apply, FileTree.read, Memory.store_read]
  rcases h.node?_join hfile with ⟨bytes, hget, hfound⟩ | ⟨hget, fault, hfound⟩
  · rw [hfound, hget]
    rfl
  · rw [hfound, hget]
    rfl

theorem has_mirrored (h : Mirrors path w.files world.files) (hfile : PlainFile path file) :
    ((snapshots path).has file w).1 = .ok (Dict.has world.files file) := by
  rw [SnapshotDirectory.has_apply, Workspace.nodeIs]
  rcases h.node?_join hfile with ⟨bytes, hget, hfound⟩ | ⟨hget, fault, hfound⟩
  · rw [hfound, Dict.has_of_get? hget]
    rfl
  · rw [hfound, Dict.has_eq_false.2 hget]

/-- A call has the same answer in the directory as in the memory, which mirrors it again. -/
theorem answer_mirrored (h : Mirrors path w.files world.files) (call : StoreCall)
    (hplain : ∀ file ∈ call.file?, PlainFile path file) :
    (call.answer (snapshots path).store w).1 = (call.answer Memory.store world).1 ∧
      Mirrors path (call.answer (snapshots path).store w).2.files
        (call.answer Memory.store world).2.files := by
  cases call with
  | list =>
    have hlist : (snapshots path).store.list w = (.ok _, w) := list_mirrored h
    rw [StoreCall.answer, bind_apply, hlist]
    exact ⟨rfl, h⟩
  | read file =>
    have hkept : (Memory.store.read file world).2 = world := by rw [Memory.store_read]
    refine ⟨read_mirrored h (hplain file rfl), ?_⟩
    rw [← hkept] at h
    exact h
  | create file contents =>
    obtain ⟨hanswer, hmirrors⟩ := create_mirrored h (hplain file rfl) contents
    exact ⟨congrArg (StoreAnswer.ofResult .flag) hanswer, hmirrors⟩
  | has file =>
    exact ⟨congrArg (StoreAnswer.ofResult .flag) (has_mirrored h (hplain file rfl)), h⟩
  | remove file => exact remove_mirrored h (hplain file rfl)

end

/-! ## Any number of calls -/

/-- All answers are the same as long as the directory mirrors the memory at the start. -/
theorem answers_mirrored {path : String} (calls : List StoreCall) {w : Workspace} {world : Memory}
    (h : Mirrors path w.files world.files)
    (hplain : ∀ call ∈ calls, ∀ file ∈ call.file?, PlainFile path file) :
    (StoreCall.answers (snapshots path).store calls w).1 =
      (StoreCall.answers Memory.store calls world).1 := by
  induction calls generalizing w world with
  | nil => rfl
  | cons call rest ih =>
    obtain ⟨hanswer, hmirrors⟩ := answer_mirrored h call (hplain call List.mem_cons_self)
    have hrest := ih hmirrors fun c hc => hplain c (List.mem_cons_of_mem call hc)
    rw [StoreCall.answers, StoreCall.answers, bind_apply, bind_apply, bind_apply, bind_apply,
      hanswer]
    exact congrArg (List.cons _) hrest

/-- A store in a directory that is not there yet answers any calls about plain files as an empty
store in memory does. -/
theorem SnapshotDirectory.answers_eq_memory {path : String} {w : Workspace} {world : Memory}
    (hvacant : Vacant path w.files) (hempty : world.files = []) (calls : List StoreCall)
    (hplain : ∀ call ∈ calls, ∀ file ∈ call.file?, PlainFile path file) :
    (StoreCall.answers (snapshots path).store calls w).1 =
      (StoreCall.answers Memory.store calls world).1 :=
  answers_mirrored calls (.vacant hvacant hempty) hplain

namespace Drafts

/-- A directory with a script and no snapshots. -/
def files : FileTree :=
  .directory [("migrations", .directory [("change_page_title.toml", .file "[]".toUTF8)])]

/-- A snapshot that comes and goes, and another one behind it. -/
def calls : List StoreCall :=
  [.list, .read "b.json", .remove "b.json", .create "b.json" "1".toUTF8,
    .create "b.json" "2".toUTF8, .list, .read "b.json", .create "a.json" "3".toUTF8,
    .remove "b.json", .has "b.json", .remove "b.json", .list]

theorem vacant_rollback : Vacant "migrations/rollback" files :=
  .of_forward (by decide +kernel) ⟨_, rfl⟩ (by decide) (by decide +kernel)

theorem plain_a : PlainFile "migrations/rollback" "a.json" := by
  constructor <;> decide +kernel

theorem plain_b : PlainFile "migrations/rollback" "b.json" := by
  constructor <;> decide +kernel

theorem plain_calls :
    ∀ call ∈ calls, ∀ file ∈ call.file?, PlainFile "migrations/rollback" file := by
  simp [calls, StoreCall.file?, plain_a, plain_b]

/-- The theorem at these calls: a name that is taken is refused, and what is removed cannot be
removed again. -/
theorem answers_eq_memory_drafts :
    Vacant "migrations/rollback" files ∧ ({} : Memory).files = [] ∧
      (∀ call ∈ calls, ∀ file ∈ call.file?, PlainFile "migrations/rollback" file) ∧
      (StoreCall.answers (snapshots "migrations/rollback").store calls { files := files }).1 =
        [.names [], .failed, .failed, .flag true, .flag false, .names ["b.json"],
          .contents "1".toUTF8, .flag true, .done, .flag false, .failed, .names ["a.json"]] := by
  refine ⟨vacant_rollback, rfl, plain_calls, ?_⟩
  rw [SnapshotDirectory.answers_eq_memory vacant_rollback (rfl : ({} : Memory).files = []) calls
    plain_calls]
  decide +kernel

end Drafts

end Blokwork
