import Blokwork.Files.Search
import Blokwork.Proofs.Files.Pattern
import Blokwork.Proofs.Files.SnapshotDirectory

/-!
# Laws of searches

A search that takes steps without wildcards arrives where the steps lead (`search_chars`): each
of its paths can be followed, as it is no longer than what the steps were written as. It loses its
way only at a step without a name at the start, since it leaves out the working directory in front
of a name (`search_stalled`). In a directory it finds the entries with names in `.json`
(`search_jsonFiles`), and behind one step with a wildcard those of every directory that the step
stands for (`search_wildcard`).
-/

namespace Blokwork

open FileTree (Followable Leads DirectoryAt pathLimit)

variable {root : FileTree} {entries : Dict FileTree} {place goal : List String}
variable {directory name : String} {w : Workspace}

/-! ## The order of paths -/

namespace Path

variable {path : String}

/-- The names of a relative path that ends with a name. -/
theorem names_of_steps {front : List String} (hrelative : isAbsolute path = false)
    (hsteps : steps path = front ++ [name]) (hname : name ≠ ".") :
    names path = front.take 1 ++ (front.drop 1).filter (· ≠ ".") ++ [name] := by
  rw [names, hsteps]
  cases front with
  | nil => simp [hrelative]
  | cons first rest => simp [hrelative, List.filter_append, hname]

theorem namesLe_append (front a b : List String) :
    namesLe (front ++ a) (front ++ b) = namesLe a b := by
  induction front with
  | nil => rfl
  | cons first front ih => rw [List.cons_append, List.cons_append, namesLe, if_pos rfl, ih]

theorem namesLe_singleton {a b : String} (ha : FileTree.isName a = true)
    (hb : FileTree.isName b = true) : namesLe [a] [b] = decide (a ≤ b) := by
  rw [FileTree.isName_iff] at ha hb
  by_cases hab : a = b
  · subst hab
    simp [namesLe]
  · simp [namesLe, hab, rank, ha, hb]

end Path

/-! ## Looking things up -/

namespace Workspace

theorem isDirectory_apply (path : String) (w : Workspace) :
    disk.isDirectory path w = (nodeIs FileTree.isDirectoryNode path w.files, w) := rfl

theorem holds_apply (path : String) (w : Workspace) :
    disk.holds path w =
      (nodeIs FileTree.isFileNode path w.files || nodeIs FileTree.isDirectoryNode path w.files,
        w) := rfl

theorem items_of_node? (h : w.files.node? directory = .ok (.directory entries)) :
    disk.items directory w =
      (.ok (entries.map fun e => ⟨e.1, e.2.isFileNode, e.2.isDirectoryNode⟩), w) := by
  change (FileTree.items directory w.files, w) = _
  rw [FileTree.items, h]
  rfl

end Workspace

namespace Pattern

open Workspace (nodeIs isDirectory_apply holds_apply items_of_node?)

/-! ## The paths of a search -/

theorem below_dot (name : String) : below "." name = name := if_pos rfl

theorem below_of_ne (hdirectory : directory ≠ ".") (name : String) :
    below directory name = Path.join directory name := if_neg hdirectory

/-- What a search has used up of the longest path. -/
def spent (directory : String) : Nat :=
  if directory = "." then 0 else directory.utf8ByteSize + 1

theorem spent_below_le (directory : String) (hslash : '/' ∉ name.toList) :
    spent (below directory name) ≤ spent directory + (name.utf8ByteSize + 1) := by
  by_cases hdot : directory = "."
  · subst hdot
    rw [below_dot, spent]
    split <;> omega
  · have hjoin := @Path.utf8ByteSize_join_le directory name hslash
    rw [below_of_ne hdot, spent, spent, if_neg hdot]
    split <;> omega

/-- A search has arrived at a directory. -/
structure Arrived (root : FileTree) (directory : String) (place : List String) : Prop where
  followable : Followable directory
  leads : Leads root [] (Path.named directory) place

theorem Arrived.node? (h : Arrived root directory place)
    (hget : FileTree.get? place root = some (.directory entries)) :
    root.node? directory = .ok (.directory entries) :=
  FileTree.node?_eq_directory.2 ⟨h.followable, place, h.leads, hget⟩

theorem Arrived.isDirectory (h : Arrived root directory place) :
    nodeIs FileTree.isDirectoryNode directory root = true := by
  obtain ⟨entries, hget⟩ := h.leads.end
  exact Workspace.isDirectory_eq_true.2 ⟨entries, h.node? hget⟩

theorem named_dot : Path.named "." = ["."] := by decide

theorem Arrived.eq_nil (h : Arrived root "." place) : place = [] := by
  obtain ⟨entries, hget⟩ := h.leads.start
  have hfollow := h.leads.follow
  rw [named_dot, FileTree.follow_cons hget, if_pos rfl] at hfollow
  exact (Except.ok.inj hfollow).symm

theorem arrived_dot (h : DirectoryAt root []) : Arrived root "." [] where
  followable := ⟨by decide, by decide, by decide, by decide⟩
  leads := by
    rw [named_dot]
    exact .inPlace h (.here h)

/-- The names of the next path lead where the next name leads from here. -/
theorem Arrived.follow_below (h : Arrived root directory place) (hslash : '/' ∉ name.toList) :
    FileTree.follow root [] (Path.named (below directory name)) =
      FileTree.follow root place (Path.named name) := by
  by_cases hdot : directory = "."
  · subst hdot
    rw [below_dot, h.eq_nil]
  · rw [below_of_ne hdot, Path.named_join_append hslash, h.leads.follow_append]

/-- The next path can be followed, unless there is no next name at the start. -/
theorem Arrived.followable_below (h : Arrived root directory place) (hslash : '/' ∉ name.toList)
    (hnull : '\x00' ∉ name.toList) (hfit : spent directory + (name.utf8ByteSize + 1) ≤ pathLimit)
    (hne : directory = "." → name ≠ "") : Followable (below directory name) := by
  have hspent : spent (below directory name) ≤ pathLimit :=
    Nat.le_trans (spent_below_le directory hslash) hfit
  have hshort : (below directory name).utf8ByteSize < pathLimit := by
    rw [spent] at hspent
    split at hspent
    · rename_i hdot
      rw [hdot]
      decide
    · omega
  by_cases hdot : directory = "."
  · subst hdot
    rw [below_dot] at hshort ⊢
    exact ⟨hnull, hshort, hne rfl, Path.isAbsolute_of_slash_notMem hslash⟩
  · rw [below_of_ne hdot] at hshort ⊢
    refine ⟨?_, hshort, ?_, ?_⟩
    · rw [Path.mem_join hslash (by decide)]
      exact fun hmem => hmem.elim h.followable.noNull hnull
    · intro hempty
      have hmem := Path.slash_mem_join h.followable.nonempty hslash
      rw [hempty] at hmem
      exact absurd hmem List.not_mem_nil
    · rw [Path.isAbsolute_join h.followable.nonempty hslash, h.followable.relative]

/-- A search stays at the start by steps in place only. -/
theorem eq_dot_of_below (hne : directory ≠ "") (hslash : '/' ∉ name.toList)
    (h : below directory name = ".") : directory = "." ∧ name = "." := by
  by_cases hdot : directory = "."
  · subst hdot
    rw [below_dot] at h
    exact ⟨rfl, h⟩
  · rw [below_of_ne hdot] at h
    have hmem := Path.slash_mem_join hne hslash
    rw [h] at hmem
    exact absurd hmem (by decide)

/-! ## Steps without wildcards -/

section
variable {fuel : Nat} {steps : List Pattern} {text : List Char} {parts : List (List Char)}

/-- A step without wildcards that leads to a directory is taken. -/
theorem search_chars_cons (hsteps : steps ≠ [])
    (hnode : nodeIs FileTree.isDirectoryNode directory w.files = true)
    (hnext : nodeIs FileTree.isDirectoryNode (below directory (String.ofList text)) w.files =
      true) :
    search Workspace.disk (fuel + 1) (text.map .char :: steps) directory w =
      search Workspace.disk fuel steps (below directory (String.ofList text)) w := by
  have hempty : steps.isEmpty = false := by simpa using hsteps
  rw [search, literal?_chars]
  simp only [hempty]
  split <;> rw [bind_apply] <;> simp [isDirectory_apply, holds_apply, hnode, hnext]

/-- A search is about to take a step without a name at the start. -/
def Stalled (directory : String) (parts : List (List Char)) : Prop :=
  directory = "." ∧ (parts.dropWhile (· = ['.'])).head? = some []

/-- A search along steps without wildcards arrives where they lead. -/
theorem search_chars (hsteps : steps ≠ []) (hslash : ∀ part ∈ parts, '/' ∉ part)
    (hnull : ∀ part ∈ parts, '\x00' ∉ part) (harrived : Arrived w.files directory place)
    (hleads : Leads w.files place ((parts.filter (!·.isEmpty)).map String.ofList) goal)
    (hfit : spent directory + Path.partsSize parts ≤ pathLimit)
    (hgoes : ¬ Stalled directory parts) :
    ∃ reached, Arrived w.files reached goal ∧
      search Workspace.disk (parts.length + fuel) (parts.map (·.map .char) ++ steps) directory w =
        search Workspace.disk fuel steps reached w := by
  induction parts generalizing directory place with
  | nil =>
    obtain rfl : place = goal := Except.ok.inj hleads.follow
    exact ⟨directory, harrived, by rw [List.length_nil, Nat.zero_add, List.map_nil,
      List.nil_append]⟩
  | cons part parts ih =>
    rw [Path.partsSize, ← Nat.add_assoc] at hfit
    have hname : '/' ∉ (String.ofList part).toList := by
      rw [String.toList_ofList]
      exact hslash part List.mem_cons_self
    have hclean : '\x00' ∉ (String.ofList part).toList := by
      rw [String.toList_ofList]
      exact hnull part List.mem_cons_self
    have hnonempty : directory = "." → String.ofList part ≠ "" := by
      rintro hdot hempty
      have hpart : part = [] := by simpa using congrArg String.toList hempty
      exact hgoes ⟨hdot, by simp [hpart]⟩
    have hfollow : Followable (below directory (String.ofList part)) :=
      harrived.followable_below hname hclean (by omega) hnonempty
    -- the step is followed, unless it has no name
    obtain ⟨middle, hmiddle, hgoal⟩ : ∃ middle,
        Leads w.files place (Path.named (String.ofList part)) middle ∧
          Leads w.files middle ((parts.filter (!·.isEmpty)).map String.ofList) goal := by
      by_cases hpart : part = []
      · subst hpart
        exact ⟨place, .here hleads.start, hleads⟩
      · rw [Path.named, String.toList_ofList,
          Path.fullParts_of_slash_notMem (hslash part List.mem_cons_self) hpart]
        rw [List.filter_cons_of_pos (by simpa using hpart), List.map_cons,
          ← List.singleton_append] at hleads
        exact hleads.of_append
    have hbelow : Arrived w.files (below directory (String.ofList part)) middle :=
      ⟨hfollow, FileTree.leads_of_follow ((harrived.follow_below hname).trans hmiddle.follow)
        hmiddle.end⟩
    have hstays : ¬ Stalled (below directory (String.ofList part)) parts := by
      rintro ⟨hdot, hhead⟩
      obtain ⟨hdirectory, hpart⟩ := eq_dot_of_below harrived.followable.nonempty hname hdot
      obtain rfl : part = ['.'] := by simpa using congrArg String.toList hpart
      exact hgoes ⟨hdirectory, by simpa using hhead⟩
    have hspent := @spent_below_le (String.ofList part) directory hname
    obtain ⟨reached, hreached, hsearch⟩ := ih
      (fun p hp => hslash p (List.mem_cons_of_mem _ hp))
      (fun p hp => hnull p (List.mem_cons_of_mem _ hp)) hbelow hgoal (by omega) hstays
    refine ⟨reached, hreached, ?_⟩
    rw [List.length_cons, Nat.add_right_comm, List.map_cons, List.cons_append,
      search_chars_cons (by simp [hsteps]) harrived.isDirectory hbelow.isDirectory, hsearch]

/-- A search finds nothing when it is to take a step without a name at the start. -/
theorem search_stalled (hroot : DirectoryAt w.files []) (hsteps : steps ≠ [])
    (hstalled : Stalled "." parts) :
    search Workspace.disk (parts.length + fuel) (parts.map (·.map .char) ++ steps) "." w =
      (.ok [], w) := by
  induction parts with
  | nil => exact absurd hstalled.2 nofun
  | cons part parts ih =>
    rw [List.length_cons, Nat.add_right_comm, List.map_cons, List.cons_append]
    by_cases hdot : part = ['.']
    · subst hdot
      have hstalled : Stalled "." parts := ⟨rfl, by simpa using hstalled.2⟩
      have hhere := (arrived_dot hroot).isDirectory
      rw [search_chars_cons (by simp [hsteps]) hhere (by exact hhere)]
      exact ih hstalled
    · obtain rfl : part = [] := by simpa [List.dropWhile_cons, hdot] using hstalled.2
      have hmissing : Workspace.disk.holds (below "." (String.ofList [])) w = (false, w) := rfl
      rw [search, List.map_nil, literal?]
      simp only
      rw [if_neg (by decide), bind_apply, hmissing]
      rfl

end

/-! ## The entries of a directory -/

/-- The paths of the entries of a directory with names in `.json`. -/
def jsonBelow (files : FileTree) (directory : String) : List String :=
  match files.node? directory with
  | .ok (.directory entries) =>
    ((Dict.keys entries).filter jsonFiles.matchesName).map (below directory)
  | _ => []

theorem jsonBelow_of_node? (h : root.node? directory = .ok (.directory entries)) :
    jsonBelow root directory =
      ((Dict.keys entries).filter jsonFiles.matchesName).map (below directory) := by
  rw [jsonBelow, h]

theorem jsonBelow_of_not_directory
    (h : nodeIs FileTree.isDirectoryNode directory root = false) :
    jsonBelow root directory = [] := by
  rw [jsonBelow]
  split
  · rename_i entries hentries
    exact absurd hentries (Workspace.isDirectory_eq_false.1 h entries)
  · rfl

theorem flatMap_ite {α β : Type} (p : α → Bool) (f : α → β) (xs : List α) :
    (xs.flatMap fun x => if p x then [f x] else []) = (xs.filter p).map f := by
  induction xs with
  | nil => rfl
  | cons x xs ih => cases h : p x <;> simp [h, ih]

section
variable {next : List Pattern → String → StateM Workspace (Except FileFault (List String))}
variable {steps : List Pattern} {step : Pattern}

theorem followLeads_found (paths : List String) :
    followLeads next (paths.map .found) w = (.ok paths, w) := by
  induction paths with
  | nil => rfl
  | cons path paths ih =>
    rw [List.map_cons, followLeads, bind_apply, ih]
    rfl

/-- Searches that all succeed find one after the other. -/
theorem followLeads_search {found : String → List String}
    (hnext : ∀ path, next steps path w = (.ok (found path), w)) (paths : List String) :
    followLeads next (paths.map (.search steps)) w = (.ok (paths.flatMap found), w) := by
  induction paths with
  | nil => rfl
  | cons path paths ih =>
    rw [List.map_cons, followLeads, bind_apply, hnext]
    simp only
    rw [bind_apply, ih]
    rfl

/-- A last step leads to the entries that it stands for. -/
theorem leads_last (hstep : step.isRecursive = false) (path : String) (item : DirectoryItem) :
    leads [step] path item = if step.matchesName item.name then [.found path] else [] := by
  rw [leads, if_neg (by rw [hstep]; exact Bool.false_ne_true), leadsByName]
  rfl

/-- A step before the last one leads on into the entries that it stands for. -/
theorem leads_before_last {last : Pattern} (hstep : step.isRecursive = false) (path : String)
    (item : DirectoryItem) :
    leads [step, last] path item =
      if step.matchesName item.name then [.search [last] path] else [] := by
  rw [leads, if_neg (by rw [hstep]; exact Bool.false_ne_true), leadsByName]
  rfl

end

/-- What comes of the entries of a directory, each by its name only. -/
theorem flatMap_items {f : String → Lead} (matching : String → Bool) (entries : Dict FileTree) :
    ((entries.map fun e => (⟨e.1, e.2.isFileNode, e.2.isDirectoryNode⟩ : DirectoryItem)).flatMap
      fun item => if matching item.name then [f item.name] else []) =
        ((Dict.keys entries).filter matching).map f := by
  rw [List.flatMap_map, flatMap_ite (fun e : String × FileTree => matching e.1), Dict.keys,
    List.filter_map, List.map_map]
  rfl

/-- A directory is searched for its entries with names in `.json`. -/
theorem search_jsonFiles (fuel : Nat) (directory : String) (w : Workspace) :
    search Workspace.disk (fuel + 1) [jsonFiles] directory w =
      (.ok (jsonBelow w.files directory), w) := by
  have hliteral : literal? jsonFiles = none := rfl
  have hstep : jsonFiles.isRecursive = false := rfl
  rw [search]
  simp only [hliteral]
  rw [bind_apply, isDirectory_apply]
  cases hnode : nodeIs FileTree.isDirectoryNode directory w.files with
  | false =>
    rw [jsonBelow_of_not_directory hnode]
    rfl
  | true =>
    obtain ⟨entries, hentries⟩ := Workspace.isDirectory_eq_true.1 hnode
    have hdots : leadsByDots [jsonFiles] directory = [] := rfl
    simp only [if_true]
    rw [bind_apply, items_of_node? hentries]
    simp only [leads_last hstep, hdots, List.append_nil]
    rw [flatMap_items (f := fun name => .found (below directory name)),
      jsonBelow_of_node? hentries,
      ← followLeads_found, List.map_map]
    rfl

/-! ## One step with a wildcard -/

/-- The dots that a step stands for, which only a dot in front does. -/
def dotsOf (step : Pattern) : List String :=
  match step with
  | .char '.' :: _ => [".", ".."].filter step.matchesName
  | _ => []

theorem leadsByDots_eq (step : Pattern) :
    leadsByDots [step, jsonFiles] "." =
      ((dotsOf step).map (Path.join ".")).map (.search [jsonFiles]) := by
  rw [leadsByDots.eq_def, dotsOf.eq_def]
  split
  · rename_i tokens rest h
    obtain ⟨rfl, rfl⟩ := List.cons.inj h
    simp only [leadsByName, List.isEmpty_cons, Bool.false_eq_true, if_false]
    rw [flatMap_ite (matchesName (.char '.' :: tokens)), List.map_map]
    rfl
  · rename_i hother
    split
    · rename_i tokens
      exact absurd rfl (hother tokens [jsonFiles])
    · rfl

/-- Behind a step with a wildcard, every directory that it stands for is searched. -/
theorem search_wildcard {step : Pattern} (hliteral : literal? step = none)
    (hstep : step.isRecursive = false) (hroot : w.files = .directory entries) (fuel : Nat) :
    search Workspace.disk (fuel + 2) [step, jsonFiles] "." w =
      (.ok (((Dict.keys entries).filter step.matchesName ++
        (dotsOf step).map (Path.join ".")).flatMap (jsonBelow w.files)), w) := by
  have hget : FileTree.get? [] w.files = some (.directory entries) := by
    rw [hroot]
    rfl
  have hnode := (arrived_dot ⟨entries, hget⟩).node? hget
  rw [search]
  simp only [hliteral]
  rw [bind_apply, isDirectory_apply, Workspace.isDirectory_eq_true.2 ⟨entries, hnode⟩]
  simp only [if_true]
  rw [bind_apply, items_of_node? hnode]
  simp only [leads_before_last hstep, below_dot]
  rw [flatMap_items (f := fun name => .search [jsonFiles] name), leadsByDots_eq, ← List.map_append,
    followLeads_search fun path => search_jsonFiles fuel path w]

/-! ## The files of a directory without wildcards in its path -/

section
variable {path : String}

/-- The pattern of the files of a directory without wildcards in its path. -/
theorem stepsOf_plain {stem : List Char} (hplain : Plain stem)
    (htext : (Path.join path "*.json").toList = stem ++ '/' :: "*.json".toList)
    (hrelative : Path.isAbsolute (Path.join path "*.json") = false) :
    stepsOf (Path.join path "*.json") =
      .ok ((Path.parts stem).map (·.map .char) ++ [jsonFiles]) := by
  have hwhole : ∃ whole, parse (Path.join path "*.json") = .ok whole := by
    have hfront : Plain (stem ++ ['/']) := by
      intro c hc
      rcases List.mem_append.1 hc with hc | hc
      · exact hplain c hc
      · rw [List.mem_singleton.1 hc]
        rfl
    obtain ⟨atStep, hread⟩ := @read_plain_append 7 0 true (stem ++ ['/']) "*.json".toList hfront
    rw [@read_jsonFiles 0] at hread
    have hlength : (Path.join path "*.json").toList.length + 1 = (stem ++ ['/']).length + 7 := by
      rw [htext]
      simp
    refine ⟨(stem ++ ['/']).map .char ++ jsonFiles, ?_⟩
    have hshape : stem ++ '/' :: "*.json".toList = stem ++ ['/'] ++ "*.json".toList := by simp
    rw [parse, hlength, htext, hshape, hread]
    rfl
  have hlast : parse (String.ofList "*.json".toList) = .ok jsonFiles := by
    rw [String.ofList_toList, parse]
    exact read_jsonFiles
  have hparts : ∀ parts : List (List Char), (∀ part ∈ parts, Plain part) →
      parts.mapM (fun part => parse (String.ofList part)) = .ok (parts.map (·.map .char)) := by
    intro parts hparts
    induction parts with
    | nil => rfl
    | cons part parts ih =>
      rw [List.mapM_cons, parse_plain (hparts part List.mem_cons_self),
        ih fun p hp => hparts p (List.mem_cons_of_mem _ hp)]
      rfl
  have hstem : ∀ part ∈ Path.parts stem, Plain part := fun part hpart c hc =>
    hplain c (Path.mem_of_mem_parts hpart hc)
  obtain ⟨whole, hwhole⟩ := hwhole
  rw [stepsOf, hwhole]
  simp only [hrelative, htext, Bool.false_eq_true, if_false, bind, Except.bind]
  rw [Path.parts_append_slash, show Path.parts "*.json".toList = ["*.json".toList] from by decide,
    List.mapM_append, hparts _ hstem]
  simp only [List.mapM_cons, List.mapM_nil, hlast, bind, Except.bind, pure, Except.pure]

/-- The pattern for the files of a directory goes astray at a slash too many behind steps in
place. -/
def Astray (path : String) : Prop :=
  Stalled "." (Path.parts (Path.join path "*.json").toList)

theorem stalled_concat {parts : List (List Char)} {last : List Char} (hdot : last ≠ ['.'])
    (hne : last ≠ []) : Stalled "." (parts ++ [last]) ↔ Stalled "." parts := by
  rw [Stalled, Stalled, and_iff_right rfl, and_iff_right rfl]
  induction parts with
  | nil => simp [hdot, hne]
  | cons part parts ih =>
    by_cases hpart : part = ['.']
    · simp only [List.cons_append, List.dropWhile_cons, hpart, decide_true, if_true]
      exact ih
    · simp [hpart]

/-- What the pattern for the files of a directory without wildcards in its path finds. -/
theorem find_plain (hplain : Plain path.toList)
    (hnode : w.files.node? path = .ok (.directory entries)) :
    ∃ steps, stepsOf (Path.join path "*.json") = .ok steps ∧
      (Astray path → find Workspace.disk (Path.join path "*.json") steps w = (.ok [], w)) ∧
      (¬ Astray path → ∃ place reached, w.files.locate path = .ok place ∧
        FileTree.get? place w.files = some (.directory entries) ∧ Arrived w.files reached place ∧
        find Workspace.disk (Path.join path "*.json") steps w =
          (.ok (jsonBelow w.files reached), w)) := by
  obtain ⟨hpath, place, hleads, hget⟩ := FileTree.node?_eq_directory.1 hnode
  have hslash : '/' ∉ "*.json".toList := by decide
  obtain ⟨front, htext, ⟨hempty, -⟩ | ⟨stem, rfl, hleading, hstem⟩⟩ :=
    @Path.toList_join path "*.json" hslash
  · exact absurd hempty hpath.nonempty
  rw [List.append_assoc, List.singleton_append] at htext
  have hrelative : Path.isAbsolute (Path.join path "*.json") = false := by
    rw [Path.isAbsolute_join hpath.nonempty hslash, hpath.relative]
  have hparts : Path.parts (Path.join path "*.json").toList =
      Path.parts stem ++ ["*.json".toList] := by
    rw [htext, Path.parts_append_slash]
    rfl
  have hastray : Astray path ↔ Stalled "." (Path.parts stem) := by
    rw [Astray, hparts]
    exact stalled_concat (by decide) (by decide)
  have hstemPlain : Plain stem := fun c hc => hplain c (hleading.subset hc)
  have hroot : DirectoryAt w.files [] := hleads.start
  have hfind : ∀ steps, find Workspace.disk (Path.join path "*.json") steps w =
      search Workspace.disk (steps.length + searchDepth) steps "." w := by
    intro steps
    rw [find, hrelative]
    rfl
  have hlength :
      ((Path.parts stem).map (List.map PatternToken.char) ++ [jsonFiles]).length + searchDepth =
      (Path.parts stem).length + (searchDepth + 1) := by
    rw [List.length_append, List.length_map, List.length_singleton, Nat.add_assoc, Nat.add_comm 1]
  refine ⟨_, stepsOf_plain hstemPlain htext hrelative, ?_, ?_⟩
  · intro h
    rw [hfind, hlength, search_stalled hroot (List.cons_ne_nil _ _) (hastray.1 h)]
  · intro h
    have hsize : (String.ofList stem).utf8ByteSize ≤ path.utf8ByteSize := by
      obtain ⟨back, hback⟩ := hleading
      rw [← String.ofList_toList (s := path), ← hback, String.ofList_append,
        String.utf8ByteSize_append]
      exact Nat.le_add_right _ _
    have hfit : spent "." + Path.partsSize (Path.parts stem) ≤ FileTree.pathLimit := by
      have hshort := hpath.short
      rw [Path.partsSize_parts, spent, if_pos rfl]
      omega
    have hnamed : Path.named path = ((Path.parts stem).filter (!·.isEmpty)).map String.ofList := by
      rw [Path.named, ← hstem]
      rfl
    obtain ⟨reached, hreached, hsearch⟩ := @search_chars _ _ _ _ (searchDepth + 1) [jsonFiles]
      (Path.parts stem) (List.cons_ne_nil _ _) (fun part => Path.slash_notMem_of_mem_parts)
      (fun part hpart hnull => hpath.noNull (hleading.subset (Path.mem_of_mem_parts hpart hnull)))
      (arrived_dot hroot) (hnamed ▸ hleads) hfit (fun hstalled => h (hastray.2 hstalled))
    refine ⟨place, reached, ?_, hget, hreached, ?_⟩
    · rw [FileTree.locate_of_followable hpath, (FileTree.leads_steps.2 hleads).follow]
    · rw [hfind, hlength, hsearch, search_jsonFiles]

end

/-! ## The paths of the entries -/

/-- The steps of the path of an entry are those of the directory and the name of the entry. -/
theorem steps_below (directory : String) (hne : name ≠ "") (hslash : '/' ∉ name.toList) :
    Path.steps (below directory name) = Path.named (below directory name) ∧
      Path.named (below directory name) =
        (if directory = "." then [] else Path.named directory) ++ [name] := by
  have hname : Path.named name = [name] := by
    rw [Path.named, Path.fullParts_of_slash_notMem hslash fun h => hne (String.toList_inj.1 h),
      List.map_singleton, String.ofList_toList]
  by_cases hdot : directory = "."
  · subst hdot
    rw [below_dot, if_pos rfl, Path.steps_eq,
      if_neg fun hlast => hslash (List.mem_of_getLast? hlast), hname]
    exact ⟨rfl, rfl⟩
  · rw [below_of_ne hdot, if_neg hdot, Path.steps_join hne hslash, Path.named_join hne hslash]
    exact ⟨rfl, rfl⟩

/-- A path that a search finds leads to an entry of the directory that the search arrived at. -/
theorem Arrived.locate_below {directory : String} {found : List String}
    (h : Arrived root directory place)
    (hget : FileTree.get? place root = some (.directory entries))
    (hne : name ≠ "") (hslash : '/' ∉ name.toList) (hname : FileTree.isName name = true)
    (hfound : root.locate (below directory name) = .ok found) : found = place ++ [name] := by
  cases hsteps : FileTree.steps (below directory name) with
  | error fault =>
    rw [FileTree.locate, hsteps] at hfound
    cases hfound
  | ok steps =>
    obtain ⟨hbelow, -⟩ := FileTree.steps_eq_ok.1 hsteps
    have hnamed : Path.named name = [name] := by
      simpa [below_dot] using (steps_below "." hne hslash).2
    rw [FileTree.locate_of_followable hbelow, (steps_below directory hne hslash).1,
      h.follow_below hslash, hnamed, FileTree.follow_cons hget,
      if_neg (FileTree.isName_iff.1 hname).1, if_neg (FileTree.isName_iff.1 hname).2] at hfound
    split at hfound
    · cases hfound
    · split at hfound
      · exact (Except.ok.inj hfound).symm
      · cases hfound

/-- The paths of the entries of a directory are in the order of the names of the entries. -/
theorem le_below {directory a b : String} (hrelative : Path.isAbsolute directory = false)
    (hne : directory ≠ "") (ha : a ≠ "" ∧ '/' ∉ a.toList ∧ FileTree.isName a = true)
    (hb : b ≠ "" ∧ '/' ∉ b.toList ∧ FileTree.isName b = true) :
    Path.le (below directory a) (below directory b) = decide (a ≤ b) := by
  have habsolute : ∀ name : String, '/' ∉ name.toList →
      Path.isAbsolute (below directory name) = false := by
    intro name hslash
    by_cases hdot : directory = "."
    · rw [hdot, below_dot, Path.isAbsolute_of_slash_notMem hslash]
    · rw [below_of_ne hdot, Path.isAbsolute_join hne hslash, hrelative]
  have hnames : ∀ name : String, name ≠ "" → '/' ∉ name.toList → FileTree.isName name = true →
      Path.names (below directory name) = _ := fun name hempty hslash hname =>
    Path.names_of_steps (habsolute name hslash)
      ((steps_below directory hempty hslash).1.trans (steps_below directory hempty hslash).2)
      (FileTree.isName_iff.1 hname).1
  rw [Path.le, habsolute a ha.2.1, habsolute b hb.2.1, if_pos rfl, hnames a ha.1 ha.2.1 ha.2.2,
    hnames b hb.1 hb.2.1 hb.2.2, Path.namesLe_append, Path.namesLe_singleton ha.2.2 hb.2.2]

end Pattern

end Blokwork
