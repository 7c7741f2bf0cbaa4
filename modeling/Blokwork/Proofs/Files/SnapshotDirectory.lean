import Blokwork.Files.SnapshotDirectory
import Blokwork.Files.Workspace
import Blokwork.Proofs.Files.Operations
import Blokwork.Proofs.Migration.Space

/-!
# Snapshots in a directory of a workspace

What the operations of a directory of snapshots do to the files of a workspace when the path
leads to a directory, and when it does not. The snapshots are the files of the directory: they
are listed in order (`list_of_node?`), and a new one is an entry of the directory after it was
made (`create_new`). A snapshot that was created lies where its path leads (`create_eq_true`).
-/

namespace Blokwork

namespace Workspace

variable {w : Workspace} {files : FileTree} {fault : FileFault}

/-- The snapshots in a directory of a workspace. -/
def snapshots (path : String) : SnapshotDirectory (StateM Workspace) where
  disk := disk
  path := path
  report := report

/-- What an edit of the files does to a workspace: nothing, if it is refused. -/
theorem change_apply (edit : FileTree → Except FileFault FileTree) (w : Workspace) :
    change edit w =
      match edit w.files with
      | .ok files => (.ok (), { w with files })
      | .error fault => (.error fault, w) := rfl

/-- An edit that succeeds changes the files and nothing else. -/
theorem change_of_ok {edit : FileTree → Except FileFault FileTree} (h : edit w.files = .ok files) :
    change edit w = (.ok (), { w with files }) := by
  rw [change_apply, h]

/-- A refused edit leaves the workspace as it was. -/
theorem change_of_error {edit : FileTree → Except FileFault FileTree}
    (h : edit w.files = .error fault) : change edit w = (.error fault, w) := by
  rw [change_apply, h]

/-- A path is that of a directory when following it ends at one. -/
theorem isDirectory_eq_true :
    nodeIs FileTree.isDirectoryNode path files = true ↔
      ∃ entries, files.node? path = .ok (.directory entries) := by
  rw [nodeIs]
  cases files.node? path with
  | error fault => exact iff_of_false nofun fun ⟨_, h⟩ => nomatch h
  | ok t =>
    cases t with
    | file contents => exact iff_of_false nofun fun ⟨_, h⟩ => nomatch h
    | directory entries => exact iff_of_true rfl ⟨entries, rfl⟩

/-- A path is not that of a directory when it is that of a file, or leads nowhere. -/
theorem isDirectory_eq_false :
    nodeIs FileTree.isDirectoryNode path files = false ↔
      ∀ entries, files.node? path ≠ .ok (.directory entries) := by
  rw [← Bool.not_eq_true, isDirectory_eq_true, not_exists]

end Workspace

namespace SnapshotDirectory

open FileTree (PlainFile Followable)
open Workspace (snapshots)

variable {path file : String} {contents : ByteArray} {w : Workspace} {entries : Dict FileTree}
variable {made : FileTree}

/-! ## Reading -/

/-- The names of the plain files among some entries. -/
def plainNames (entries : Dict FileTree) : List String :=
  (entries.filter fun e => e.2.isFileNode).map Prod.fst

/-- The plain files of a directory are listed in order. -/
theorem list_of_node? (h : w.files.node? path = .ok (.directory entries)) :
    (snapshots path).list w = (.ok ((plainNames entries).mergeSort (· ≤ ·)), w) := by
  have hdirectory : (snapshots path).disk.isDirectory (snapshots path).path w = (true, w) :=
    congrArg (fun answer => (answer, w)) (Workspace.isDirectory_eq_true.2 ⟨entries, h⟩)
  have hitems : (snapshots path).disk.items (snapshots path).path w =
      (.ok (entries.map fun e => ⟨e.1, e.2.isFileNode, e.2.isDirectoryNode⟩), w) := by
    change (FileTree.items path w.files, w) = _
    rw [FileTree.items, h]
    rfl
  have hnames : ((entries.map fun e => (⟨e.1, e.2.isFileNode, e.2.isDirectoryNode⟩ :
      DirectoryItem)).filter (·.isFile)).map (·.name) = plainNames entries := by
    rw [List.filter_map, List.map_map]
    rfl
  rw [list, bind_apply, hdirectory]
  simp only [if_true]
  rw [bind_apply, hitems]
  simp only [hnames]
  rfl

/-- A directory that is missing has no snapshots. -/
theorem list_of_missing
    (h : Workspace.nodeIs FileTree.isDirectoryNode path w.files = false) :
    (snapshots path).list w = (.ok [], w) := by
  have hdirectory : (snapshots path).disk.isDirectory (snapshots path).path w = (false, w) :=
    congrArg (fun answer => (answer, w)) h
  rw [list, bind_apply, hdirectory]
  rfl

/-- A snapshot is read from the file of its name in the directory. -/
theorem read_apply (path file : String) (w : Workspace) :
    (snapshots path).read file w =
      (fileResult ("read " ++ Path.join path file)
        (FileTree.read (Path.join path file) w.files), w) := (rfl)

/-- A snapshot is there when the file of its name in the directory is. -/
theorem has_apply (path file : String) (w : Workspace) :
    (snapshots path).has file w =
      (.ok (Workspace.nodeIs FileTree.isFileNode (Path.join path file) w.files), w) := (rfl)

/-! ## Creation -/

/-- Making the directory of the snapshots leaves a workspace in which it was made. -/
theorem makeAll_of_ok (hmade : FileTree.makeDirectories path w.files = .ok made) :
    (snapshots path).disk.makeAll (snapshots path).path w =
      (.ok (), { w with files := made }) := by
  have hdisk : (snapshots path).disk.makeDirectories (snapshots path).path w =
      (.ok (), { w with files := made }) := Workspace.change_of_ok hmade
  rw [Disk.makeAll, bind_apply, hdisk]
  rfl

/-- A name that is taken is left alone. -/
theorem create_taken (hmade : FileTree.makeDirectories path w.files = .ok made)
    (hnode : made.node? path = .ok (.directory entries)) (hfile : PlainFile path file)
    (hentry : Dict.has entries file = true) (contents : ByteArray) :
    (snapshots path).create file contents w = (.ok false, { w with files := made }) := by
  have hcreate : (snapshots path).disk.create ((snapshots path).pathOf file)
      { w with files := made } = (.error .alreadyExists, { w with files := made }) :=
    Workspace.change_of_error (FileTree.create_join_of_has hfile hnode hentry)
  rw [create, bind_apply, makeAll_of_ok hmade]
  simp only
  rw [bind_apply, hcreate]
  rfl

/-- A file that was made is filled. -/
theorem create_of_ok {created written : FileTree}
    (hmade : FileTree.makeDirectories path w.files = .ok made)
    (hcreated : FileTree.create (Path.join path file) made = .ok created)
    (hwritten : FileTree.write (Path.join path file) contents created = .ok written) :
    (snapshots path).create file contents w = (.ok true, { w with files := written }) := by
  have hcreate : (snapshots path).disk.create ((snapshots path).pathOf file)
      { w with files := made } = (.ok (), { w with files := created }) :=
    Workspace.change_of_ok hcreated
  have hwrite : (snapshots path).disk.write ((snapshots path).pathOf file) contents
      { w with files := created } = (.ok (), { w with files := written }) :=
    Workspace.change_of_ok hwritten
  rw [create, bind_apply, makeAll_of_ok hmade]
  simp only
  rw [bind_apply, hcreate]
  simp only
  rw [fill, bind_apply, hwrite]
  rfl

/-- A new name gets the contents. -/
theorem create_new (hmade : FileTree.makeDirectories path w.files = .ok made)
    (hnode : made.node? path = .ok (.directory entries)) (hfile : PlainFile path file)
    (hentry : Dict.get? entries file = none) (contents : ByteArray) :
    ∃ written, (snapshots path).create file contents w = (.ok true, { w with files := written }) ∧
      written.node? path = .ok (.directory (Dict.insert entries file (.file contents))) := by
  obtain ⟨created, hcreated, hempty⟩ := FileTree.create_join hfile hnode hentry
  obtain ⟨written, hwritten, hfilled⟩ := FileTree.write_join hfile hempty
    (Dict.get?_insert_self entries file (.file ByteArray.empty)) contents
  rw [Dict.insert_insert] at hfilled
  exact ⟨written, create_of_ok hmade hcreated hwritten, hfilled⟩

/-- A snapshot was created when its directory and its file could be made and filled. -/
theorem exists_of_create_eq_true (h : ((snapshots path).create file contents w).1 = .ok true) :
    ∃ made created written, FileTree.makeDirectories path w.files = .ok made ∧
      FileTree.create (Path.join path file) made = .ok created ∧
      FileTree.write (Path.join path file) contents created = .ok written ∧
      ((snapshots path).create file contents w).2 = { w with files := written } := by
  rw [create, bind_apply] at h
  cases hmade : FileTree.makeDirectories path w.files with
  | error fault =>
    have hdisk : (snapshots path).disk.makeDirectories (snapshots path).path w =
        (.error fault, w) := Workspace.change_of_error hmade
    rw [Disk.makeAll, bind_apply, hdisk] at h
    cases h
  | ok made =>
    rw [makeAll_of_ok hmade] at h
    simp only at h
    rw [bind_apply] at h
    cases hcreated : FileTree.create (Path.join path file) made with
    | error fault =>
      have hcreate : (snapshots path).disk.create ((snapshots path).pathOf file)
          { w with files := made } = (.error fault, { w with files := made }) :=
        Workspace.change_of_error hcreated
      rw [hcreate] at h
      cases fault <;> cases h
    | ok created =>
      have hcreate : (snapshots path).disk.create ((snapshots path).pathOf file)
          { w with files := made } = (.ok (), { w with files := created }) :=
        Workspace.change_of_ok hcreated
      rw [hcreate] at h
      simp only at h
      rw [fill, bind_apply] at h
      cases hwritten : FileTree.write (Path.join path file) contents created with
      | error fault =>
        have hwrite : (snapshots path).disk.write ((snapshots path).pathOf file) contents
            { w with files := created } = (.error fault, { w with files := created }) :=
          Workspace.change_of_error hwritten
        rw [hwrite] at h
        cases h
      | ok written =>
        rw [create_of_ok hmade hcreated hwritten]
        exact ⟨made, created, written, rfl, hcreated, hwritten, rfl⟩

/-! ## Removal -/

/-- Removing a snapshot removes the file of its name. -/
theorem remove_of_ok {removed : FileTree}
    (h : FileTree.remove (Path.join path file) w.files = .ok removed) :
    (snapshots path).remove file w = (.ok (), { w with files := removed }) := by
  have hremove : (snapshots path).disk.remove ((snapshots path).pathOf file) w =
      (.ok (), { w with files := removed }) := Workspace.change_of_ok h
  rw [remove, bind_apply, hremove]
  rfl

/-- A snapshot that cannot be removed is still there, and the fault names its path. -/
theorem remove_of_error {fault : FileFault}
    (h : FileTree.remove (Path.join path file) w.files = .error fault) :
    (snapshots path).remove file w =
      (.error ((Failure.ofFile fault).within ("remove " ++ Path.join path file)), w) := by
  have hremove : (snapshots path).disk.remove ((snapshots path).pathOf file) w =
      (.error fault, w) := Workspace.change_of_error h
  rw [remove, bind_apply, hremove]
  rfl

end SnapshotDirectory

end Blokwork
