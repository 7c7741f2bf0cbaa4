import Blokwork.Files.Tree
import Blokwork.Proofs.Dict
import Blokwork.Proofs.Path

/-!
# Laws of file trees

`Leads` are the steps that lead from one directory to another. They do so again in a tree that
keeps its directories (`Leads.mono`), which is what every operation on a file of a directory
does: it puts a directory with other entries where the directory stood (`put_child`,
`without_child`, `Keeps.put`). Making directories goes along steps that lead somewhere without
changing anything (`makeSteps_of_leads`), and leaves a tree in which the steps lead somewhere
(`leads_of_makeSteps`).
-/

namespace Blokwork.FileTree

variable {root root' : FileTree} {place goal : List String} {name step : String}
variable {rest : List String} {entries new : Dict FileTree}

/-! ## Places -/

/-- What is below a first name is in a directory that has the name. -/
theorem get?_cons_eq_some {t : FileTree} :
    get? (name :: rest) root = some t ↔
      ∃ outer inner, root = .directory outer ∧ Dict.get? outer name = some inner ∧
        get? rest inner = some t := by
  constructor
  · intro h
    cases root with
    | file contents => cases h
    | directory outer =>
      rw [get?] at h
      cases hname : Dict.get? outer name with
      | none => simp only [hname] at h; cases h
      | some inner =>
        simp only [hname] at h
        exact ⟨outer, inner, rfl, hname, h⟩
  · rintro ⟨outer, inner, rfl, hname, h⟩
    rw [get?, hname]
    exact h

theorem get?_append (front back : List String) (root : FileTree) :
    get? (front ++ back) root = (get? front root).bind (get? back) := by
  induction front generalizing root with
  | nil => rfl
  | cons name front ih =>
    cases root with
    | file contents => rfl
    | directory entries =>
      simp only [List.cons_append, get?]
      cases Dict.get? entries name with
      | none => rfl
      | some t => exact ih t

/-- What is in a directory at some place. -/
theorem get?_child (h : get? place root = some (.directory entries)) (name : String) :
    get? (place ++ [name]) root = Dict.get? entries name := by
  rw [get?_append, h, Option.bind_some, get?]
  cases Dict.get? entries name <;> rfl

/-- A directory stands at a place. -/
def DirectoryAt (root : FileTree) (place : List String) : Prop :=
  ∃ entries, get? place root = some (.directory entries)

/-- What a directory stands in is a directory. -/
theorem DirectoryAt.front {back : List String} (h : DirectoryAt root (place ++ back)) :
    DirectoryAt root place := by
  obtain ⟨entries, hget⟩ := h
  rw [get?_append] at hget
  obtain ⟨t, ht, hback⟩ := Option.bind_eq_some_iff.1 hget
  cases t with
  | directory entries => exact ⟨entries, ht⟩
  | file contents => cases back <;> cases hback

theorem DirectoryAt.dropLast (h : DirectoryAt root place) : DirectoryAt root place.dropLast := by
  cases hlast : place.getLast? with
  | none =>
    obtain rfl : place = [] := List.getLast?_eq_none_iff.1 hlast
    exact h
  | some name =>
    obtain ⟨front, rfl⟩ := List.getLast?_eq_some_iff.1 hlast
    rw [List.dropLast_concat]
    exact h.front

/-! ## Trees that keep their directories -/

/-- The directories of one tree are directories of another. -/
def Keeps (root root' : FileTree) : Prop :=
  ∀ place, DirectoryAt root place → DirectoryAt root' place

theorem Keeps.refl (root : FileTree) : Keeps root root := fun _ => id

theorem Keeps.trans {root'' : FileTree} (h : Keeps root root') (h' : Keeps root' root'') :
    Keeps root root'' := fun place hplace => h' place (h place hplace)

/-- The directories among some entries are among others. -/
def KeepsDirectories (entries new : Dict FileTree) : Prop :=
  ∀ name items, Dict.get? entries name = some (.directory items) →
    Dict.get? new name = some (.directory items)

theorem keepsDirectories_insert {node : FileTree}
    (h : ∀ items, Dict.get? entries name ≠ some (.directory items)) :
    KeepsDirectories entries (Dict.insert entries name node) := by
  intro other items hother
  have hne : name ≠ other := by
    rintro rfl
    exact h items hother
  rw [Dict.get?_insert_of_ne node hne, hother]

theorem keepsDirectories_erase
    (h : ∀ items, Dict.get? entries name ≠ some (.directory items)) :
    KeepsDirectories entries (Dict.erase entries name) := by
  intro other items hother
  have hne : name ≠ other := by
    rintro rfl
    exact h items hother
  rw [Dict.get?_erase_of_ne hne, hother]

/-- A directory with other entries is put where a directory stood. -/
theorem Keeps.put (h : get? place root = some (.directory entries))
    (hnew : KeepsDirectories entries new) : Keeps root (put (.directory new) place root) := by
  induction place generalizing root with
  | nil =>
    obtain rfl : root = .directory entries := Option.some.inj h
    rintro (_ | ⟨name, back⟩) ⟨items, hget⟩
    · exact ⟨new, rfl⟩
    · obtain ⟨outer, t, houter, hname, hget⟩ := get?_cons_eq_some.1 hget
      obtain rfl : entries = outer := directory.inj houter
      cases t with
      | file contents => cases back <;> cases hget
      | directory inner =>
        exact ⟨items, get?_cons_eq_some.2 ⟨new, _, rfl, hnew name inner hname, hget⟩⟩
  | cons first place ih =>
    obtain ⟨outer, inner, rfl, hfirst, h⟩ := get?_cons_eq_some.1 h
    rw [FileTree.put, hfirst, Option.getD_some]
    rintro (_ | ⟨name, back⟩) ⟨items, hget⟩
    · exact ⟨_, rfl⟩
    · rw [DirectoryAt]
      by_cases hname : first = name
      · subst hname
        simp only [get?, hfirst] at hget
        simp only [get?, Dict.get?_insert_self]
        exact ih h back ⟨items, hget⟩
      · simp only [get?, Dict.get?_insert_of_ne _ hname]
        exact ⟨items, hget⟩

/-- What is put at a place is found there. -/
theorem get?_put {t : FileTree} (h : get? place root = some t) (node : FileTree) :
    get? place (put node place root) = some node := by
  induction place generalizing root with
  | nil => rfl
  | cons first place ih =>
    obtain ⟨outer, inner, rfl, hfirst, h⟩ := get?_cons_eq_some.1 h
    simp only [put, get?, Dict.get?_insert_self, hfirst, Option.getD_some]
    exact ih h

/-! ## One file of a directory -/

/-- Putting a node into a directory changes the entries of the directory. -/
theorem put_child (h : get? place root = some (.directory entries)) (node : FileTree)
    (name : String) :
    put node (place ++ [name]) root =
      put (.directory (Dict.insert entries name node)) place root := by
  induction place generalizing root with
  | nil =>
    obtain rfl : root = .directory entries := Option.some.inj h
    rfl
  | cons first place ih =>
    obtain ⟨outer, inner, rfl, hfirst, h⟩ := get?_cons_eq_some.1 h
    rw [List.cons_append, put, put, hfirst, Option.getD_some, ih h]

/-- Removing a node from a directory changes the entries of the directory. -/
theorem without_child (h : get? place root = some (.directory entries)) (name : String) :
    root.without (place ++ [name]) =
      put (.directory (Dict.erase entries name)) place root := by
  induction place generalizing root with
  | nil =>
    obtain rfl : root = .directory entries := Option.some.inj h
    rfl
  | cons first place ih =>
    obtain ⟨outer, inner, rfl, hfirst, h⟩ := get?_cons_eq_some.1 h
    obtain ⟨next, back, hback⟩ : ∃ next back, place ++ [name] = next :: back :=
      List.exists_cons_of_ne_nil (List.append_ne_nil_of_right_ne_nil _ (List.cons_ne_nil _ _))
    rw [List.cons_append, hback, without, hfirst, put, hfirst, Option.getD_some, ← ih h, hback]

/-! ## Steps that lead to a directory -/

/-- Some steps lead from a directory to a directory. -/
inductive Leads (root : FileTree) : List String → List String → List String → Prop where
  | here {place : List String} (h : DirectoryAt root place) : Leads root place [] place
  | inPlace {place rest goal : List String} (h : DirectoryAt root place)
      (hrest : Leads root place rest goal) : Leads root place ("." :: rest) goal
  | up {place rest goal : List String} (h : DirectoryAt root place) (hbelow : place ≠ [])
      (hrest : Leads root place.dropLast rest goal) : Leads root place (".." :: rest) goal
  | down {place rest goal : List String} {step : String} (h : DirectoryAt root place)
      (hname : isName step = true) (hshort : step.utf8ByteSize ≤ longestName)
      (hrest : Leads root (place ++ [step]) rest goal) : Leads root place (step :: rest) goal

theorem Leads.start {steps : List String} (h : Leads root place steps goal) :
    DirectoryAt root place := by
  cases h <;> assumption

theorem Leads.end {steps : List String} (h : Leads root place steps goal) :
    DirectoryAt root goal := by
  induction h with
  | here h => exact h
  | inPlace _ _ ih => exact ih
  | up _ _ _ ih => exact ih
  | down _ _ _ _ ih => exact ih

/-- Steps lead to the same place in a tree that keeps the directories. -/
theorem Leads.mono {steps : List String} (h : Leads root place steps goal)
    (hkeeps : Keeps root root') : Leads root' place steps goal := by
  induction h with
  | here h => exact .here (hkeeps _ h)
  | inPlace h _ ih => exact .inPlace (hkeeps _ h) ih
  | up h hbelow _ ih => exact .up (hkeeps _ h) hbelow ih
  | down h hname hshort _ ih => exact .down (hkeeps _ h) hname hshort ih

theorem isName_iff : isName step = true ↔ step ≠ "." ∧ step ≠ ".." := by
  rw [isName, Bool.and_eq_true, decide_eq_true_eq, decide_eq_true_eq]

/-- Following a step from a directory. -/
theorem follow_cons (h : get? place root = some (.directory entries)) (step : String)
    (rest : List String) :
    follow root place (step :: rest) =
      if step = "." then follow root place rest
      else if step = ".." then
        if place.isEmpty then .error .notFound else follow root place.dropLast rest
      else if longestName < step.utf8ByteSize then .error .nameTooLong
      else if Dict.has entries step then follow root (place ++ [step]) rest
      else .error .notFound := by
  rw [follow, h]

theorem follow_append (root : FileTree) (place steps more : List String) :
    follow root place (steps ++ more) =
      (follow root place steps).bind fun middle => follow root middle more := by
  induction steps generalizing place with
  | nil => rfl
  | cons step rest ih =>
    cases hget : get? place root with
    | none => simp only [List.cons_append, FileTree.follow, hget, Except.bind]
    | some t =>
      cases t with
      | file contents => simp only [List.cons_append, FileTree.follow, hget, Except.bind]
      | directory entries =>
        rw [List.cons_append, follow_cons hget, follow_cons hget]
        repeat' split
        all_goals first | exact ih _ | rfl

/-- A step is only followed from a directory. -/
theorem directoryAt_of_follow_cons (h : follow root place (step :: rest) = .ok goal) :
    DirectoryAt root place := by
  cases hget : get? place root with
  | none => rw [FileTree.follow, hget] at h; cases h
  | some t =>
    cases t with
    | file contents => rw [FileTree.follow, hget] at h; cases h
    | directory entries => exact ⟨entries, hget⟩

/-- Leading steps are followed to their end. -/
theorem Leads.follow {steps : List String} (h : Leads root place steps goal) :
    FileTree.follow root place steps = .ok goal := by
  induction h with
  | here _ => rfl
  | inPlace h _ ih =>
    obtain ⟨entries, hget⟩ := h
    rw [follow_cons hget, if_pos rfl, ih]
  | up h hbelow _ ih =>
    obtain ⟨entries, hget⟩ := h
    rw [follow_cons hget, if_neg (by decide), if_pos rfl, if_neg (by simpa using hbelow), ih]
  | down h hname hshort hrest ih =>
    obtain ⟨entries, hget⟩ := h
    obtain ⟨items, hitems⟩ := hrest.start
    rw [get?_child hget] at hitems
    have hstep := isName_iff.1 hname
    rw [follow_cons hget, if_neg hstep.1, if_neg hstep.2, if_neg (Nat.not_lt.2 hshort),
      if_pos (Dict.has_of_get? hitems), ih]

theorem Leads.follow_append {steps : List String} (h : Leads root place steps goal)
    (more : List String) :
    FileTree.follow root place (steps ++ more) = FileTree.follow root goal more := by
  rw [FileTree.follow_append, h.follow]
  rfl

/-- Followed steps that end at a directory lead there. -/
theorem leads_of_follow {steps : List String} (hfollow : follow root place steps = .ok goal)
    (hgoal : DirectoryAt root goal) : Leads root place steps goal := by
  induction steps generalizing place with
  | nil =>
    obtain rfl : place = goal := Except.ok.inj hfollow
    exact .here hgoal
  | cons step rest ih =>
    have hplace : DirectoryAt root place := directoryAt_of_follow_cons hfollow
    obtain ⟨entries, hget⟩ := hplace
    rw [follow_cons hget] at hfollow
    by_cases hdot : step = "."
    · subst hdot
      rw [if_pos rfl] at hfollow
      exact .inPlace ⟨entries, hget⟩ (ih hfollow)
    · by_cases hup : step = ".."
      · subst hup
        rw [if_neg hdot, if_pos rfl] at hfollow
        split at hfollow
        · cases hfollow
        · rename_i hbelow
          exact .up ⟨entries, hget⟩ (by simpa using hbelow) (ih hfollow)
      · rw [if_neg hdot, if_neg hup] at hfollow
        split at hfollow
        · cases hfollow
        · rename_i hshort
          split at hfollow
          · exact .down ⟨entries, hget⟩ (isName_iff.2 ⟨hdot, hup⟩) (Nat.not_lt.1 hshort)
              (ih hfollow)
          · cases hfollow

/-- Steps lead somewhere by way of where the first of them lead. -/
theorem Leads.of_append {steps more : List String} (h : Leads root place (steps ++ more) goal) :
    ∃ middle, Leads root place steps middle ∧ Leads root middle more goal := by
  induction steps generalizing place with
  | nil => exact ⟨place, .here h.start, h⟩
  | cons step rest ih =>
    cases h with
    | inPlace hplace hrest =>
      obtain ⟨middle, hmiddle, hgoal⟩ := ih hrest
      exact ⟨middle, .inPlace hplace hmiddle, hgoal⟩
    | up hplace hbelow hrest =>
      obtain ⟨middle, hmiddle, hgoal⟩ := ih hrest
      exact ⟨middle, .up hplace hbelow hmiddle, hgoal⟩
    | down hplace hname hshort hrest =>
      obtain ⟨middle, hmiddle, hgoal⟩ := ih hrest
      exact ⟨middle, .down hplace hname hshort hmiddle, hgoal⟩

/-! ## Making directories -/

/-- Making what a step leads to from a directory. -/
theorem makeSteps_cons (h : get? place root = some (.directory entries)) (step : String)
    (rest : List String) :
    makeSteps root place (step :: rest) =
      if step = "." then makeSteps root place rest
      else if step = ".." then
        if place.isEmpty then .error .notFound else makeSteps root place.dropLast rest
      else if longestName < step.utf8ByteSize then .error .nameTooLong
      else
        match Dict.get? entries step with
        | some (.file _) => .error (if rest.isEmpty then .alreadyExists else .notADirectory)
        | some (.directory _) => makeSteps root (place ++ [step]) rest
        | none =>
          makeSteps (put (.directory []) (place ++ [step]) root) (place ++ [step]) rest := by
  rewrite [makeSteps, h]
  rfl

/-- Along steps that lead to a directory nothing is missing. -/
theorem makeSteps_of_leads {steps : List String} (h : Leads root place steps goal) :
    makeSteps root place steps = .ok root := by
  induction h with
  | here _ => rfl
  | inPlace h _ ih =>
    obtain ⟨entries, hget⟩ := h
    rw [makeSteps_cons hget, if_pos rfl, ih]
  | up h hbelow _ ih =>
    obtain ⟨entries, hget⟩ := h
    rw [makeSteps_cons hget, if_neg (by decide), if_pos rfl, if_neg (by simpa using hbelow), ih]
  | down h hname hshort hrest ih =>
    obtain ⟨entries, hget⟩ := h
    obtain ⟨items, hitems⟩ := hrest.start
    rw [get?_child hget] at hitems
    have hstep := isName_iff.1 hname
    rw [makeSteps_cons hget, if_neg hstep.1, if_neg hstep.2, if_neg (Nat.not_lt.2 hshort), hitems]
    exact ih

/-- A tree with a new directory keeps its directories. -/
theorem keeps_put_empty (h : get? place root = some (.directory entries))
    (hnew : Dict.get? entries name = none) :
    Keeps root (put (.directory []) (place ++ [name]) root) := by
  have hkeeps : KeepsDirectories entries (Dict.insert entries name (.directory [])) :=
    keepsDirectories_insert fun items hitems => by rw [hnew] at hitems; cases hitems
  rw [put_child h]
  exact Keeps.put h hkeeps

theorem get?_put_child (h : get? place root = some (.directory entries)) (node : FileTree)
    (name : String) : get? (place ++ [name]) (put node (place ++ [name]) root) = some node := by
  rw [put_child h, get?_child (get?_put h _), Dict.get?_insert_self]

/-- How a step is made: in place, upwards, into a directory that is there, or into a new one. -/
theorem makeSteps_cases (hplace : DirectoryAt root place)
    (h : makeSteps root place (step :: rest) = .ok root') :
    (step = "." ∧ makeSteps root place rest = .ok root') ∨
      (step = ".." ∧ place ≠ [] ∧ makeSteps root place.dropLast rest = .ok root') ∨
      (isName step = true ∧ step.utf8ByteSize ≤ longestName ∧
        ((DirectoryAt root (place ++ [step]) ∧ makeSteps root (place ++ [step]) rest = .ok root') ∨
          (get? (place ++ [step]) root = none ∧
            makeSteps (put (.directory []) (place ++ [step]) root) (place ++ [step]) rest =
              .ok root'))) := by
  obtain ⟨entries, hget⟩ := hplace
  rw [makeSteps_cons hget] at h
  by_cases hdot : step = "."
  · rw [if_pos hdot] at h
    exact .inl ⟨hdot, h⟩
  · by_cases hup : step = ".."
    · rw [if_neg hdot, if_pos hup] at h
      split at h
      · cases h
      · rename_i hbelow
        exact .inr (.inl ⟨hup, by simpa using hbelow, h⟩)
    · rw [if_neg hdot, if_neg hup] at h
      split at h
      · cases h
      · rename_i hshort
        refine .inr (.inr ⟨isName_iff.2 ⟨hdot, hup⟩, Nat.not_lt.1 hshort, ?_⟩)
        rw [DirectoryAt, get?_child hget]
        split at h
        · cases h
        · rename_i items hitems
          exact .inl ⟨⟨items, hitems⟩, h⟩
        · rename_i hnone
          exact .inr ⟨hnone, h⟩

/-- Made steps lead to a directory, and the directories that were there are kept. -/
theorem leads_of_makeSteps {steps : List String} (hplace : DirectoryAt root place)
    (h : makeSteps root place steps = .ok root') :
    Keeps root root' ∧ ∃ goal, Leads root' place steps goal := by
  induction steps generalizing root place with
  | nil =>
    obtain rfl : root = root' := Except.ok.inj h
    exact ⟨.refl root, place, .here hplace⟩
  | cons step rest ih =>
    rcases makeSteps_cases hplace h with
      ⟨rfl, hmade⟩ | ⟨rfl, hbelow, hmade⟩ | ⟨hname, hshort, ⟨hthere, hmade⟩ | ⟨hnone, hmade⟩⟩
    · obtain ⟨hkeeps, goal, hrest⟩ := ih hplace hmade
      exact ⟨hkeeps, goal, .inPlace (hkeeps _ hplace) hrest⟩
    · obtain ⟨hkeeps, goal, hrest⟩ := ih hplace.dropLast hmade
      exact ⟨hkeeps, goal, .up (hkeeps _ hplace) hbelow hrest⟩
    · obtain ⟨hkeeps, goal, hrest⟩ := ih hthere hmade
      exact ⟨hkeeps, goal, .down (hkeeps _ hplace) hname hshort hrest⟩
    · obtain ⟨entries, hget⟩ := hplace
      rw [get?_child hget] at hnone
      have hput : Keeps root (put (.directory []) (place ++ [step]) root) :=
        keeps_put_empty hget hnone
      obtain ⟨hkeeps, goal, hrest⟩ := ih ⟨[], get?_put_child hget _ step⟩ hmade
      have hall : Keeps root root' := hput.trans hkeeps
      exact ⟨hall, goal, .down (hall _ ⟨entries, hget⟩) hname hshort hrest⟩

/-- Nothing but the empty directory itself is reached from it without going up. -/
theorem Leads.of_empty {steps : List String} (hempty : get? place root = some (.directory []))
    (h : Leads root place steps goal) (hforward : ".." ∉ steps) : goal = place := by
  induction h with
  | here _ => rfl
  | inPlace _ _ ih => exact ih hempty fun hmem => hforward (List.mem_cons_of_mem _ hmem)
  | up _ _ _ _ => exact absurd List.mem_cons_self hforward
  | down _ _ _ hrest _ =>
    obtain ⟨items, hitems⟩ := hrest.start
    rw [get?_child hempty] at hitems
    cases hitems

/-- Where steps lead that were made without going up: nothing was missing, or the directory at
their end is new and empty. -/
theorem empty_of_makeSteps {steps : List String} (hplace : DirectoryAt root place)
    (h : makeSteps root place steps = .ok root') (hforward : ".." ∉ steps) :
    (∃ goal, Leads root place steps goal) ∨
      ∃ goal, Leads root' place steps goal ∧ get? goal root' = some (.directory []) := by
  induction steps generalizing root place with
  | nil => exact .inl ⟨place, .here hplace⟩
  | cons step rest ih =>
    have hrest : ".." ∉ rest := fun hmem => hforward (List.mem_cons_of_mem _ hmem)
    have hstart : DirectoryAt root' place := (leads_of_makeSteps hplace h).1 _ hplace
    rcases makeSteps_cases hplace h with
      ⟨rfl, hmade⟩ | ⟨rfl, -, -⟩ | ⟨hname, hshort, ⟨hthere, hmade⟩ | ⟨hnone, hmade⟩⟩
    · rcases ih hplace hmade hrest with ⟨goal, hgoal⟩ | ⟨goal, hgoal, hempty⟩
      · exact .inl ⟨goal, .inPlace hplace hgoal⟩
      · exact .inr ⟨goal, .inPlace hstart hgoal, hempty⟩
    · exact absurd List.mem_cons_self hforward
    · rcases ih hthere hmade hrest with ⟨goal, hgoal⟩ | ⟨goal, hgoal, hempty⟩
      · exact .inl ⟨goal, .down hplace hname hshort hgoal⟩
      · exact .inr ⟨goal, .down hstart hname hshort hgoal, hempty⟩
    · obtain ⟨entries, hget⟩ := hplace
      have hnew := get?_put_child hget (.directory []) step
      rcases ih ⟨[], hnew⟩ hmade hrest with ⟨goal, hgoal⟩ | ⟨goal, hgoal, hempty⟩
      · -- the rest of the steps stays in the new directory, so that it changes nothing
        obtain rfl : _ = root' := Except.ok.inj ((makeSteps_of_leads hgoal).symm.trans hmade)
        obtain rfl := hgoal.of_empty hnew hrest
        exact .inr ⟨_, .down hstart hname hshort hgoal, hnew⟩
      · exact .inr ⟨goal, .down hstart hname hshort hgoal, hempty⟩

/-! ## Names in a tree -/

/-- No name in a tree has a slash. -/
def WellNamed (root : FileTree) : Prop :=
  ∀ place entries, get? place root = some (.directory entries) →
    ∀ name ∈ Dict.keys entries, '/' ∉ name.toList

theorem wellNamed_file (contents : ByteArray) : WellNamed (.file contents) := by
  rintro (_ | ⟨name, rest⟩) entries h <;> cases h

theorem wellNamed_empty : WellNamed (.directory []) := by
  rintro (_ | ⟨name, rest⟩) entries h
  · cases h
    exact fun name hname => absurd hname List.not_mem_nil
  · cases h

theorem WellNamed.child {t : FileTree} (h : WellNamed (.directory entries))
    (hname : Dict.get? entries name = some t) : WellNamed t := fun place items hget =>
  h (name :: place) items (get?_cons_eq_some.2 ⟨entries, t, rfl, hname, hget⟩)

theorem WellNamed.insert {t : FileTree} (h : WellNamed (.directory entries)) (ht : WellNamed t)
    (hname : '/' ∉ name.toList) : WellNamed (.directory (Dict.insert entries name t)) := by
  rintro (_ | ⟨first, place⟩) items hget
  · obtain rfl := directory.inj (Option.some.inj hget)
    intro other hother
    obtain ⟨e, he, rfl⟩ := List.mem_map.1 hother
    rcases Dict.mem_of_mem_insert he with rfl | he
    · exact hname
    · exact h [] entries rfl e.1 (List.mem_map_of_mem he)
  · obtain ⟨outer, inner, houter, hfirst, hget⟩ := get?_cons_eq_some.1 hget
    obtain rfl := directory.inj houter
    by_cases hsame : name = first
    · subst hsame
      rw [Dict.get?_insert_self] at hfirst
      obtain rfl := Option.some.inj hfirst
      exact ht place items hget
    · rw [Dict.get?_insert_of_ne t hsame] at hfirst
      exact h.child hfirst place items hget

/-- The names of a place that is there have no slash. -/
theorem WellNamed.names {t : FileTree} (h : WellNamed root) (hget : get? place root = some t) :
    ∀ name ∈ place, '/' ∉ name.toList := by
  induction place generalizing root with
  | nil => exact fun name hname => absurd hname List.not_mem_nil
  | cons first place ih =>
    obtain ⟨outer, inner, rfl, hfirst, hget⟩ := get?_cons_eq_some.1 hget
    intro name hname
    rcases List.mem_cons.1 hname with rfl | hname
    · exact h [] outer rfl name (Dict.has_iff_mem_keys.1 (Dict.has_of_get? hfirst))
    · exact ih (h.child hfirst) hget name hname

theorem WellNamed.put {node : FileTree} (h : WellNamed root) (hnode : WellNamed node)
    (hplace : ∀ name ∈ place, '/' ∉ name.toList) : WellNamed (put node place root) := by
  induction place generalizing root with
  | nil => exact hnode
  | cons first place ih =>
    cases root with
    | file contents => exact h
    | directory outer =>
      have hfirst : WellNamed ((Dict.get? outer first).getD (.directory [])) := by
        cases hget : Dict.get? outer first with
        | none => exact wellNamed_empty
        | some t => exact h.child hget
      have hrest := ih hfirst fun name hname => hplace name (List.mem_cons_of_mem _ hname)
      exact h.insert hrest (hplace first List.mem_cons_self)

/-- Directories are made under the names of their steps. -/
theorem WellNamed.makeSteps {steps : List String} (h : WellNamed root)
    (hsteps : ∀ step ∈ steps, '/' ∉ step.toList) (hplace : DirectoryAt root place)
    (hmade : makeSteps root place steps = .ok root') : WellNamed root' := by
  induction steps generalizing root place with
  | nil =>
    obtain rfl := Except.ok.inj hmade
    exact h
  | cons step rest ih =>
    have hrest : ∀ step ∈ rest, '/' ∉ step.toList :=
      fun step hstep => hsteps step (List.mem_cons_of_mem _ hstep)
    rcases makeSteps_cases hplace hmade with
      ⟨-, hmade⟩ | ⟨-, -, hmade⟩ | ⟨-, -, ⟨hthere, hmade⟩ | ⟨-, hmade⟩⟩
    · exact ih h hrest hplace hmade
    · exact ih h hrest hplace.dropLast hmade
    · exact ih h hrest hthere hmade
    · obtain ⟨entries, hget⟩ := hplace
      have hnames : ∀ name ∈ place ++ [step], '/' ∉ name.toList := by
        intro name hname
        rcases List.mem_append.1 hname with hname | hname
        · exact h.names hget name hname
        · rw [List.mem_singleton] at hname
          exact hname ▸ hsteps step List.mem_cons_self
      exact ih (h.put wellNamed_empty hnames) hrest ⟨[], get?_put_child hget _ step⟩ hmade

end Blokwork.FileTree
