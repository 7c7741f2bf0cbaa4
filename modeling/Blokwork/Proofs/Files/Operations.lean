import Blokwork.Proofs.Files.Tree

/-!
# Operations on a file of a directory

What the operations of a file tree do when a path leads to a directory and a plain name is
joined to it. They find what the directory has under the name, and what they change are the
entries of the directory: `FileTree.create_join`, `FileTree.write_join`, `FileTree.remove_join`.
A directory that was made is one that the path leads to (`FileTree.node?_of_makeDirectories`).
-/

namespace Blokwork.FileTree

variable {root root' : FileTree} {path file : String} {entries new : Dict FileTree}
variable {goal steps : List String}

/-! ## Paths that can be followed -/

/-- A path that can be followed, as far as it alone decides. -/
structure Followable (path : String) : Prop where
  noNull : '\x00' ∉ path.toList
  short : path.utf8ByteSize < pathLimit
  nonempty : path ≠ ""
  relative : Path.isAbsolute path = false

theorem steps_eq_ok :
    FileTree.steps path = .ok steps ↔ Followable path ∧ steps = Path.steps path := by
  rw [FileTree.steps]
  split
  · rename_i hnull
    exact iff_of_false nofun fun h => h.1.noNull (by simpa using hnull)
  · rename_i hnull
    split
    · rename_i hlong
      exact iff_of_false nofun fun h => Nat.not_lt.2 hlong h.1.short
    · rename_i hshort
      split
      · rename_i hroot
        rw [Bool.or_eq_true, String.isEmpty_iff] at hroot
        refine iff_of_false nofun fun h => hroot.elim h.1.nonempty fun habsolute => ?_
        rw [h.1.relative] at habsolute
        cases habsolute
      · rename_i hroot
        rw [Bool.or_eq_true, String.isEmpty_iff, not_or, Bool.not_eq_true] at hroot
        have hpath : Followable path :=
          ⟨by simpa using hnull, Nat.not_le.1 hshort, hroot.1, hroot.2⟩
        rw [Except.ok.injEq, eq_comm, and_iff_right hpath]

/-- The steps of a path without the one for a slash at the end are its names. -/
theorem namedSteps_eq_ok :
    namedSteps path = .ok steps ↔ Followable path ∧ steps = Path.named path := by
  have hnamed : (if endsInSlash path then (Path.steps path).dropLast else Path.steps path) =
      Path.named path := by
    rw [Path.steps_eq, endsInSlash]
    by_cases hslash : path.toList.getLast? = some '/'
    · rw [decide_eq_true hslash, if_pos rfl, if_pos hslash, List.dropLast_concat]
    · rw [decide_eq_false hslash, if_neg Bool.false_ne_true, if_neg hslash]
  rw [namedSteps]
  constructor
  · intro h
    cases hsteps : FileTree.steps path with
    | error fault => rw [hsteps] at h; cases h
    | ok all =>
      obtain ⟨hpath, rfl⟩ := steps_eq_ok.1 hsteps
      rw [hsteps] at h
      exact ⟨hpath, (Except.ok.inj h).symm.trans hnamed⟩
  · rintro ⟨hpath, rfl⟩
    rw [steps_eq_ok.2 ⟨hpath, rfl⟩, ← hnamed]
    rfl

theorem locate_of_followable (h : Followable path) :
    root.locate path = follow root [] (Path.steps path) := by
  rw [locate, steps_eq_ok.2 ⟨h, rfl⟩]
  rfl

/-- A slash at the end of a path changes nothing for a directory. -/
theorem leads_steps :
    Leads root [] (Path.steps path) goal ↔ Leads root [] (Path.named path) goal := by
  rw [Path.steps_eq]
  split
  · constructor
    · intro h
      obtain ⟨middle, hmiddle, hgoal⟩ := h.of_append
      obtain ⟨entries, hget⟩ := hgoal.start
      have hfollow := hgoal.follow
      rw [follow_cons hget, if_pos rfl] at hfollow
      obtain rfl : middle = goal := Except.ok.inj hfollow
      exact hmiddle
    · intro h
      refine leads_of_follow ?_ h.end
      obtain ⟨entries, hget⟩ := h.end
      rw [h.follow_append, follow_cons hget, if_pos rfl]
      rfl
  · exact Iff.rfl

/-- The node of a path stands at the place of the path. -/
theorem node?_eq_ok {t : FileTree} :
    root.node? path = .ok t ↔ ∃ goal, root.locate path = .ok goal ∧ get? goal root = some t := by
  rw [node?]
  cases root.locate path with
  | error fault => exact iff_of_false nofun fun ⟨_, h, _⟩ => nomatch h
  | ok place =>
    constructor
    · intro h
      refine ⟨place, rfl, ?_⟩
      cases hget : get? place root with
      | none => simp [hget, bind, Except.bind] at h
      | some u => simpa [hget, bind, Except.bind] using h
    · rintro ⟨goal, hgoal, hget⟩
      obtain rfl : place = goal := Except.ok.inj hgoal
      simp [hget, bind, Except.bind]

/-- A path leads to a directory. -/
theorem node?_eq_directory :
    root.node? path = .ok (.directory entries) ↔
      Followable path ∧ ∃ goal, Leads root [] (Path.named path) goal ∧
        get? goal root = some (.directory entries) := by
  rw [node?_eq_ok]
  constructor
  · rintro ⟨goal, hgoal, hget⟩
    cases hsteps : FileTree.steps path with
    | error fault => rw [locate, hsteps] at hgoal; cases hgoal
    | ok all =>
      obtain ⟨hpath, rfl⟩ := steps_eq_ok.1 hsteps
      rw [locate_of_followable hpath] at hgoal
      exact ⟨hpath, goal, leads_steps.1 (leads_of_follow hgoal ⟨entries, hget⟩), hget⟩
  · rintro ⟨hpath, goal, hleads, hget⟩
    exact ⟨goal, (locate_of_followable hpath).trans (leads_steps.2 hleads).follow, hget⟩

/-- A path still leads to a directory that got other entries. -/
theorem node?_put (hpath : Followable path) (hleads : Leads root [] (Path.named path) goal)
    (hget : get? goal root = some (.directory entries)) (hnew : KeepsDirectories entries new) :
    (put (.directory new) goal root).node? path = .ok (.directory new) :=
  node?_eq_directory.2
    ⟨hpath, goal, hleads.mono (Keeps.put hget hnew), get?_put hget (.directory new)⟩

/-- A path still leads to a directory in which a name that was no directory got a node. -/
theorem node?_put_child (hpath : Followable path) (hleads : Leads root [] (Path.named path) goal)
    (hget : get? goal root = some (.directory entries))
    (hentry : ∀ items, Dict.get? entries file ≠ some (.directory items)) (node : FileTree) :
    (put node (goal ++ [file]) root).node? path =
      .ok (.directory (Dict.insert entries file node)) := by
  rw [put_child hget]
  exact node?_put hpath hleads hget (keepsDirectories_insert hentry)

/-! ## Directories that are made -/

/-- A directory that is there need not be made. -/
theorem makeDirectories_of_node? (h : root.node? path = .ok (.directory entries)) :
    makeDirectories path root = .ok root := by
  obtain ⟨hpath, goal, hleads, -⟩ := node?_eq_directory.1 h
  have hnonempty : path.isEmpty = false := by
    rw [← Bool.not_eq_true, String.isEmpty_iff]
    exact hpath.nonempty
  rw [makeDirectories, hnonempty, if_neg Bool.false_ne_true, namedSteps_eq_ok.2 ⟨hpath, rfl⟩]
  exact makeSteps_of_leads hleads

/-- How directories are made. -/
theorem makeDirectories_eq_ok (hne : path ≠ "") :
    makeDirectories path root = .ok root' ↔
      Followable path ∧ makeSteps root [] (Path.named path) = .ok root' := by
  have hnonempty : path.isEmpty = false := by
    rw [← Bool.not_eq_true, String.isEmpty_iff]
    exact hne
  rw [makeDirectories, hnonempty, if_neg Bool.false_ne_true]
  constructor
  · intro h
    cases hsteps : namedSteps path with
    | error fault => rw [hsteps] at h; cases h
    | ok steps =>
      obtain ⟨hpath, rfl⟩ := namedSteps_eq_ok.1 hsteps
      rw [hsteps] at h
      exact ⟨hpath, h⟩
  · rintro ⟨hpath, h⟩
    rw [namedSteps_eq_ok.2 ⟨hpath, rfl⟩]
    exact h

/-- Directories are only made in a directory. -/
theorem directoryAt_of_makeSteps (hne : steps ≠ []) (h : makeSteps root [] steps = .ok root') :
    DirectoryAt root [] := by
  obtain ⟨step, rest, rfl⟩ := List.exists_cons_of_ne_nil hne
  cases root with
  | file contents => cases h
  | directory entries => exact ⟨entries, rfl⟩

/-- A path leads to the directory that was made for it. -/
theorem node?_of_makeDirectories (hne : path ≠ "") (h : makeDirectories path root = .ok root') :
    ∃ entries, root'.node? path = .ok (.directory entries) := by
  obtain ⟨hpath, hmade⟩ := (makeDirectories_eq_ok hne).1 h
  have hroot : DirectoryAt root [] :=
    directoryAt_of_makeSteps (Path.named_ne_nil hne hpath.relative) hmade
  obtain ⟨-, goal, hleads⟩ := leads_of_makeSteps hroot hmade
  obtain ⟨entries, hget⟩ := hleads.end
  exact ⟨entries, node?_eq_directory.2 ⟨hpath, goal, hleads, hget⟩⟩

/-- A directory that was missing is empty when it was made, unless its path goes up. -/
theorem node?_of_makeDirectories_of_missing
    (hmissing : ∀ entries, root.node? path ≠ .ok (.directory entries)) (hne : path ≠ "")
    (hforward : ".." ∉ Path.named path) (h : makeDirectories path root = .ok root') :
    root'.node? path = .ok (.directory []) := by
  obtain ⟨hpath, hmade⟩ := (makeDirectories_eq_ok hne).1 h
  have hroot : DirectoryAt root [] :=
    directoryAt_of_makeSteps (Path.named_ne_nil hne hpath.relative) hmade
  rcases empty_of_makeSteps hroot hmade hforward with ⟨goal, hleads⟩ | ⟨goal, hleads, hempty⟩
  · obtain ⟨entries, hget⟩ := hleads.end
    exact absurd (node?_eq_directory.2 ⟨hpath, goal, hleads, hget⟩) (hmissing entries)
  · exact node?_eq_directory.2 ⟨hpath, goal, hleads, hempty⟩

/-! ## Plain files -/

/-- A plain name that can be joined to a path. -/
structure PlainFile (path file : String) : Prop where
  nonempty : file ≠ ""
  oneStep : '/' ∉ file.toList
  noNull : '\x00' ∉ file.toList
  isName : FileTree.isName file = true
  short : file.utf8ByteSize ≤ longestName
  fits : (Path.join path file).utf8ByteSize < pathLimit

theorem PlainFile.followable (h : PlainFile path file) (hpath : Followable path) :
    Followable (Path.join path file) where
  noNull := by
    rw [Path.mem_join h.oneStep (by decide)]
    exact fun hmem => hmem.elim hpath.noNull h.noNull
  short := h.fits
  nonempty := by
    intro hempty
    have hnamed := @Path.named_join path file h.nonempty h.oneStep
    rw [hempty] at hnamed
    exact List.append_ne_nil_of_right_ne_nil _ (List.cons_ne_nil _ _) hnamed.symm
  relative := by rw [Path.isAbsolute_join hpath.nonempty h.oneStep, hpath.relative]

/-- The last step of a joined path is the plain name. -/
theorem PlainFile.locate_join (h : PlainFile path file) (hpath : Followable path) :
    root.locate (Path.join path file) = follow root [] (Path.named path ++ [file]) := by
  rw [locate_of_followable (h.followable hpath), Path.steps_join h.nonempty h.oneStep]

section
variable (hfile : PlainFile path file) (hnode : root.node? path = .ok (.directory entries))
include hfile hnode

/-- A file of a directory is found where the directory has its name. -/
theorem locate_join :
    ∃ goal, get? goal root = some (.directory entries) ∧
      Leads root [] (Path.named path) goal ∧
      root.locate (Path.join path file) =
        if Dict.has entries file then .ok (goal ++ [file]) else .error .notFound := by
  obtain ⟨hpath, goal, hleads, hget⟩ := node?_eq_directory.1 hnode
  have hstep := isName_iff.1 hfile.isName
  refine ⟨goal, hget, hleads, ?_⟩
  rw [hfile.locate_join hpath, hleads.follow_append, follow_cons hget, if_neg hstep.1,
    if_neg hstep.2, if_neg (Nat.not_lt.2 hfile.short)]
  rfl

/-- A new file would be put into the directory. -/
theorem newPlace_join :
    ∃ goal, get? goal root = some (.directory entries) ∧
      Leads root [] (Path.named path) goal ∧
      root.newPlace (Path.join path file) =
        if Dict.has entries file then .error .alreadyExists else .ok (goal ++ [file]) := by
  obtain ⟨hpath, goal, hleads, hget⟩ := node?_eq_directory.1 hnode
  have hsteps : namedSteps (Path.join path file) = .ok (Path.named path ++ [file]) :=
    namedSteps_eq_ok.2 ⟨hfile.followable hpath,
      (Path.named_join hfile.nonempty hfile.oneStep).symm⟩
  have hslash : endsInSlash (Path.join path file) = false :=
    decide_eq_false (Path.getLast?_join hfile.nonempty hfile.oneStep)
  refine ⟨goal, hget, hleads, ?_⟩
  rw [newPlace, hsteps]
  simp only [bind, Except.bind, List.dropLast_concat, hleads.follow, hget, List.getLast?_concat,
    hslash, hfile.isName, Nat.not_lt.2 hfile.short, Bool.not_true, Bool.false_eq_true, if_false]

/-- What is found under a joined name. -/
theorem node?_join :
    root.node? (Path.join path file) =
      match Dict.get? entries file with
      | some t => .ok t
      | none => .error .notFound := by
  obtain ⟨goal, hget, -, hlocate⟩ := locate_join hfile hnode
  cases hentry : Dict.get? entries file with
  | none =>
    rw [Dict.has_eq_false.2 hentry, if_neg Bool.false_ne_true] at hlocate
    rw [node?, hlocate]
    rfl
  | some t =>
    rw [Dict.has_of_get? hentry, if_pos rfl] at hlocate
    exact node?_eq_ok.2 ⟨_, hlocate, (get?_child hget file).trans hentry⟩

/-- Nothing is made where something has the name. -/
theorem create_join_of_has (hentry : Dict.has entries file = true) :
    create (Path.join path file) root = .error .alreadyExists := by
  obtain ⟨goal, -, -, hplace⟩ := newPlace_join hfile hnode
  rw [hentry, if_pos rfl] at hplace
  rw [create, hplace]
  rfl

/-- A new file is empty. -/
theorem create_join (hentry : Dict.get? entries file = none) :
    ∃ made, create (Path.join path file) root = .ok made ∧
      made.node? path = .ok (.directory (Dict.insert entries file (.file ByteArray.empty))) := by
  obtain ⟨goal, hget, hleads, hplace⟩ := newPlace_join hfile hnode
  rw [Dict.has_eq_false.2 hentry, if_neg Bool.false_ne_true] at hplace
  refine ⟨put (.file ByteArray.empty) (goal ++ [file]) root, ?_, ?_⟩
  · rw [create, hplace]
    rfl
  · refine node?_put_child (node?_eq_directory.1 hnode).1 hleads hget ?_ _
    rw [hentry]
    exact fun items => nofun

/-- A file gets other contents. -/
theorem write_join {old : ByteArray} (hentry : Dict.get? entries file = some (.file old))
    (contents : ByteArray) :
    ∃ written, write (Path.join path file) contents root = .ok written ∧
      written.node? path = .ok (.directory (Dict.insert entries file (.file contents))) := by
  obtain ⟨goal, hget, hleads, hplace⟩ := newPlace_join hfile hnode
  obtain ⟨goal', hget', hleads', hlocate⟩ := locate_join hfile hnode
  obtain rfl : goal = goal' := Except.ok.inj (hleads.follow.symm.trans hleads'.follow)
  have hhas := Dict.has_of_get? hentry
  rw [hhas, if_pos rfl] at hplace hlocate
  refine ⟨put (.file contents) (goal ++ [file]) root, ?_, ?_⟩
  · rw [write, hplace, hlocate]
    simp only [bind, Except.bind, get?_child hget, hentry]
  · refine node?_put_child (node?_eq_directory.1 hnode).1 hleads hget ?_ _
    rw [hentry]
    exact fun items => nofun

/-- A removed file is gone from the directory. -/
theorem remove_join {old : ByteArray} (hentry : Dict.get? entries file = some (.file old)) :
    ∃ removed, remove (Path.join path file) root = .ok removed ∧
      removed.node? path = .ok (.directory (Dict.erase entries file)) := by
  obtain ⟨goal, hget, hleads, hlocate⟩ := locate_join hfile hnode
  rw [Dict.has_of_get? hentry, if_pos rfl] at hlocate
  refine ⟨root.without (goal ++ [file]), ?_, ?_⟩
  · rw [remove, hlocate]
    simp only [bind, Except.bind, get?_child hget, hentry]
  · rw [without_child hget]
    refine node?_put (node?_eq_directory.1 hnode).1 hleads hget (keepsDirectories_erase ?_)
    rw [hentry]
    exact fun items => nofun

end

/-- Nothing is removed that a path does not lead to. -/
theorem remove_of_node?_error {fault : FileFault} (h : root.node? path = .error fault) :
    ∃ refused, remove path root = .error refused := by
  rw [remove]
  cases hlocate : root.locate path with
  | error fault => exact ⟨fault, rfl⟩
  | ok goal =>
    cases hget : get? goal root with
    | none =>
      refine ⟨.isADirectory, ?_⟩
      simp only [bind, Except.bind, hget]
    | some t =>
      rw [node?_eq_ok.2 ⟨goal, hlocate, hget⟩] at h
      cases h

/-- Where there is no directory there are no files of it. -/
theorem node?_join_of_missing (hfile : PlainFile path file) (hpath : Followable path)
    (hmissing : ∀ entries, root.node? path ≠ .ok (.directory entries)) :
    ∃ fault, root.node? (Path.join path file) = .error fault := by
  cases hnode : root.node? (Path.join path file) with
  | error fault => exact ⟨fault, rfl⟩
  | ok t =>
    obtain ⟨place, hlocate, -⟩ := node?_eq_ok.1 hnode
    rw [hfile.locate_join hpath, follow_append] at hlocate
    cases hgoal : follow root [] (Path.named path) with
    | error fault => rw [hgoal] at hlocate; cases hlocate
    | ok goal =>
      rw [hgoal] at hlocate
      obtain ⟨entries, hget⟩ := directoryAt_of_follow_cons hlocate
      have hleads := leads_of_follow hgoal ⟨entries, hget⟩
      exact absurd (node?_eq_directory.2 ⟨hpath, goal, hleads, hget⟩) (hmissing entries)

/-! ## New places -/

/-- A new place is a new name in a directory, and the name is the last one of the path. -/
theorem exists_of_newPlace {place : List String} (h : root.newPlace path = .ok place) :
    Followable path ∧ ∃ directory name entries, place = directory ++ [name] ∧
      (Path.named path).getLast? = some name ∧ get? directory root = some (.directory entries) ∧
      isName name = true ∧ name.utf8ByteSize ≤ longestName := by
  rw [newPlace] at h
  cases hsteps : namedSteps path with
  | error fault => rw [hsteps] at h; cases h
  | ok all =>
    obtain ⟨hpath, rfl⟩ := namedSteps_eq_ok.1 hsteps
    refine ⟨hpath, ?_⟩
    rw [hsteps] at h
    simp only [bind, Except.bind] at h
    cases hdirectory : follow root [] (Path.named path).dropLast with
    | error fault => rw [hdirectory] at h; cases h
    | ok directory =>
      rw [hdirectory] at h
      simp only at h
      split at h
      · rename_i entries name hget hlast
        split at h
        · cases h
        · split at h
          · cases h
          · rename_i hname
            split at h
            · cases h
            · rename_i hshort
              split at h
              · cases h
              · exact ⟨directory, name, entries, (Except.ok.inj h).symm, hlast, hget,
                  by simpa using hname, Nat.not_lt.1 hshort⟩
      · cases h
      · cases h

theorem WellNamed.newPlace {place : List String} (h : WellNamed root)
    (hplace : root.newPlace path = .ok place) : ∀ name ∈ place, '/' ∉ name.toList := by
  obtain ⟨-, directory, name, entries, rfl, hlast, hget, -, -⟩ := exists_of_newPlace hplace
  intro other hother
  rcases List.mem_append.1 hother with hother | hother
  · exact h.names hget other hother
  · rw [List.mem_singleton] at hother
    exact hother ▸ Path.slash_notMem_of_mem_named (List.mem_of_getLast? hlast)

theorem exists_of_create (h : create path root = .ok root') :
    ∃ place, root.newPlace path = .ok place ∧ root' = put (.file ByteArray.empty) place root := by
  rw [create] at h
  cases hplace : root.newPlace path with
  | error fault => rw [hplace] at h; cases h
  | ok place =>
    rw [hplace] at h
    exact ⟨place, rfl, (Except.ok.inj h).symm⟩

theorem WellNamed.create (h : WellNamed root) (hcreated : create path root = .ok root') :
    WellNamed root' := by
  obtain ⟨place, hplace, rfl⟩ := exists_of_create hcreated
  exact h.put (wellNamed_file _) (h.newPlace hplace)

theorem WellNamed.write {contents : ByteArray} (h : WellNamed root)
    (hwritten : write path contents root = .ok root') : WellNamed root' := by
  rw [FileTree.write] at hwritten
  split at hwritten
  · rename_i place hplace
    obtain rfl := Except.ok.inj hwritten
    exact h.put (wellNamed_file contents) (h.newPlace hplace)
  · cases hlocate : root.locate path with
    | error fault => rw [hlocate] at hwritten; cases hwritten
    | ok place =>
      rw [hlocate] at hwritten
      simp only [bind, Except.bind] at hwritten
      split at hwritten
      · rename_i old hget
        obtain rfl := Except.ok.inj hwritten
        exact h.put (wellNamed_file contents) (h.names hget)
      · cases hwritten
  · cases hwritten

theorem WellNamed.makeDirectories (h : WellNamed root)
    (hmade : makeDirectories path root = .ok root') : WellNamed root' := by
  by_cases hne : path = ""
  · subst hne
    obtain rfl := Except.ok.inj hmade
    exact h
  · obtain ⟨hpath, hsteps⟩ := (makeDirectories_eq_ok hne).1 hmade
    have hroot : DirectoryAt root [] :=
      directoryAt_of_makeSteps (Path.named_ne_nil hne hpath.relative) hsteps
    exact h.makeSteps (fun step hstep => Path.slash_notMem_of_mem_named hstep) hroot hsteps

/-- A name without a slash under which a file was created is a plain one. -/
theorem plainFile_of_create (hne : file ≠ "") (hslash : '/' ∉ file.toList)
    (h : create (Path.join path file) root = .ok root') : PlainFile path file := by
  obtain ⟨place, hplace, -⟩ := exists_of_create h
  obtain ⟨hpath, -, name, -, -, hlast, -, hname, hshort⟩ := exists_of_newPlace hplace
  rw [Path.named_join hne hslash, List.getLast?_concat] at hlast
  obtain rfl := Option.some.inj hlast
  refine ⟨hne, hslash, fun hnull => hpath.noNull ?_, hname, hshort, hpath.short⟩
  exact (Path.mem_join hslash (by decide)).2 (.inr hnull)

end Blokwork.FileTree
