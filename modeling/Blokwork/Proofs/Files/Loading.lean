import Blokwork.Files.Loading
import Blokwork.Proofs.Files.Search
import Mathlib.Data.List.Forall2

/-!
# Laws of loading components

A file is loaded where its path leads (`loadFile_eq_ok`), and files are loaded one by one
(`loadFiles_eq_ok`). A directory without wildcards in its path is loaded as its entries with names
in `.json` are, in the order of their names (`load_plain`). The path is a part of the pattern that
the files are found by, so that a directory whose name has a wildcard is loaded as something else:
as nothing if its name does not stand for itself (`not_isExact_of_rejected`), and otherwise
together with another directory (`not_isExact_of_accepted`). `isExact_iff` puts the cases together.
-/

namespace Blokwork

open FileTree (WellNamed Followable isDirectoryNode)
open Workspace (disk report nodeIs)

variable {w : Workspace} {root : FileTree} {entries : Dict FileTree}
variable {place : List String} {path name : String}

namespace ComponentSet

/-! ## Files -/

/-- A file holds a set of components. -/
def HeldAt (files : FileTree) (place : List String) (set : ComponentSet) : Prop :=
  ∃ contents text document, FileTree.get? place files = some (.file contents) ∧
    String.fromUTF8? contents = some text ∧ Json.parse text = .ok document ∧
    ofJson document = .ok set

theorem read_eq_ok {contents : ByteArray} :
    FileTree.read path root = .ok contents ↔
      ∃ place, root.locate path = .ok place ∧
        FileTree.get? place root = some (.file contents) := by
  rw [← FileTree.node?_eq_ok, FileTree.read]
  cases root.node? path with
  | error fault => exact iff_of_false nofun nofun
  | ok t => cases t <;> simp [bind, Except.bind]

/-- The text of a file is read where the path leads. -/
theorem readText_eq (path : String) (w : Workspace) :
    disk.readText path w = ((disk.readText path w).1, w) ∧
      ∀ text, (disk.readText path w).1 = .ok text ↔
        ∃ contents, FileTree.read path w.files = .ok contents ∧
          String.fromUTF8? contents = some text := by
  have hread : disk.read path w = (FileTree.read path w.files, w) := rfl
  rw [Disk.readText, bind_apply, hread]
  cases FileTree.read path w.files with
  | error fault => exact ⟨rfl, fun text => iff_of_false (fun h => by cases h) (by simp)⟩
  | ok contents =>
    simp only
    cases htext : String.fromUTF8? contents with
    | none => exact ⟨rfl, fun text => iff_of_false (fun h => by cases h) (by simp [htext])⟩
    | some text =>
      refine ⟨rfl, fun other => ?_⟩
      change Except.ok text = .ok other ↔ _
      simp [htext]

/-- The value of a file is that of its text. -/
theorem loadJson_eq (path : String) (w : Workspace) :
    loadJson disk path w = ((loadJson disk path w).1, w) ∧
      ∀ document, (loadJson disk path w).1 = .ok document ↔
        ∃ text, (disk.readText path w).1 = .ok text ∧
          Json.parse text = .ok document := by
  rw [loadJson, bind_apply, (readText_eq path w).1]
  cases (disk.readText path w).1 with
  | error fault => exact ⟨rfl, fun document => iff_of_false nofun nofun⟩
  | ok text =>
    simp only
    cases hparse : Json.parse text with
    | error fault => exact ⟨rfl, fun document => iff_of_false nofun (by simp [hparse])⟩
    | ok document =>
      refine ⟨rfl, fun other => ?_⟩
      change Except.ok document = .ok other ↔ _
      simp [hparse]

theorem forM_report_files (notices : List Notice) (w : Workspace) :
    (notices.forM report w).2.files = w.files := by
  induction notices generalizing w with
  | nil => rfl
  | cons notice notices ih =>
    rw [List.forM, bind_apply, ih]
    rfl

/-- A file is loaded where the path leads, and loading leaves the files alone. -/
theorem loadFile_eq (path : String) (w : Workspace) :
    (loadFile disk report path w).2.files = w.files ∧
      ∀ set, (loadFile disk report path w).1 = .ok set ↔
        ∃ document, (loadJson disk path w).1 = .ok document ∧ ofJson document = .ok set := by
  rw [loadFile, bind_apply, (loadJson_eq path w).1]
  cases (loadJson disk path w).1 with
  | error f => exact ⟨rfl, fun set => iff_of_false nofun nofun⟩
  | ok document =>
    simp only
    cases hset : ofJson document with
    | error f => exact ⟨rfl, fun set => iff_of_false nofun (by simp [hset])⟩
    | ok set =>
      refine ⟨forM_report_files set.notices w, fun other => ?_⟩
      change Except.ok set = .ok other ↔ _
      simp [hset]

/-- The file of a path holds a set of components. -/
theorem loadFile_eq_ok {set : ComponentSet} :
    (loadFile disk report path w).1 = .ok set ↔
      ∃ place, w.files.locate path = .ok place ∧ HeldAt w.files place set := by
  simp only [(loadFile_eq path w).2, (loadJson_eq path w).2, (readText_eq path w).2, read_eq_ok,
    HeldAt]
  constructor
  · rintro ⟨document, ⟨text, ⟨contents, ⟨place, hplace, hget⟩, htext⟩, hparse⟩, hset⟩
    exact ⟨place, hplace, contents, text, document, hget, htext, hparse, hset⟩
  · rintro ⟨place, hplace, contents, text, document, hget, htext, hparse, hset⟩
    exact ⟨document, ⟨text, ⟨contents, ⟨place, hplace, hget⟩, htext⟩, hparse⟩, hset⟩

/-- The first file is loaded, and then the others. -/
theorem loadFiles_cons_eq_ok {paths : List String} {set : ComponentSet} :
    (loadFiles disk report (path :: paths) w).1 = .ok set ↔
      ∃ first others, (loadFile disk report path w).1 = .ok first ∧
        (loadFiles disk report paths (loadFile disk report path w).2).1 = .ok others ∧
        set = first.append others := by
  rw [loadFiles, bind_apply]
  obtain ⟨first, w'⟩ := loadFile disk report path w
  cases first with
  | error f => exact iff_of_false (fun h => by cases h) (by simp)
  | ok first =>
    simp only
    rw [bind_apply]
    obtain ⟨others, w''⟩ := loadFiles disk report paths w'
    cases others with
    | error f => exact iff_of_false (fun h => by cases h) (by simp)
    | ok others =>
      constructor
      · intro h
        exact ⟨first, others, rfl, rfl, (Except.ok.inj h).symm⟩
      · rintro ⟨first', others', hfirst, hothers, rfl⟩
        obtain rfl := Except.ok.inj hfirst
        obtain rfl := Except.ok.inj hothers
        rfl

/-- What a file holds does not depend on what was reported before. -/
theorem loadFile_congr {w' : Workspace} (h : w'.files = w.files) {set : ComponentSet} :
    (loadFile disk report path w').1 = .ok set ↔ (loadFile disk report path w).1 = .ok set := by
  rw [loadFile_eq_ok, loadFile_eq_ok, h]

/-- Files are loaded one by one, and the sets stand one behind the other. -/
theorem loadFiles_eq_ok {paths : List String} {set : ComponentSet} :
    (loadFiles disk report paths w).1 = .ok set ↔
      ∃ parts, List.Forall₂
        (fun path part => (loadFile disk report path w).1 = .ok part)
          paths parts ∧ set = parts.foldr append {} := by
  induction paths generalizing w set with
  | nil =>
    rw [loadFiles]
    constructor
    · intro h
      exact ⟨[], .nil, (Except.ok.inj h).symm⟩
    · rintro ⟨parts, hparts, rfl⟩
      cases hparts
      rfl
  | cons path paths ih =>
    simp only [loadFiles_cons_eq_ok, ih, loadFile_congr (loadFile_eq path w).1]
    constructor
    · rintro ⟨first, -, hfirst, ⟨parts, hparts, rfl⟩, rfl⟩
      exact ⟨first :: parts, .cons hfirst hparts, rfl⟩
    · rintro ⟨parts, hparts, rfl⟩
      cases hparts with
      | @cons _ first _ parts hfirst hparts =>
        exact ⟨first, _, hfirst, ⟨parts, hparts, rfl⟩, rfl⟩

/-! ## Directories -/

/-- What the file at a place is loaded as, by whatever path leads there. -/
structure LoadedFrom (w : Workspace) (place : List String) (set : ComponentSet) : Prop where
  reachable : ∃ path, w.files.locate path = .ok place
  loads : ∀ path, w.files.locate path = .ok place →
    (loadFile disk report path w).1 = .ok set

theorem LoadedFrom.of_loadFile {set : ComponentSet} (hplace : w.files.locate path = .ok place)
    (h : (loadFile disk report path w).1 = .ok set) :
    LoadedFrom w place set := by
  refine ⟨⟨path, hplace⟩, fun other hother => ?_⟩
  obtain ⟨place', hplace', hheld⟩ := loadFile_eq_ok.1 h
  obtain rfl : place = place' := Except.ok.inj (hplace.symm.trans hplace')
  exact loadFile_eq_ok.2 ⟨place, hother, hheld⟩

theorem LoadedFrom.heldAt {set : ComponentSet} (h : LoadedFrom w place set) :
    HeldAt w.files place set := by
  obtain ⟨path, hplace⟩ := h.reachable
  obtain ⟨place', hplace', hheld⟩ := loadFile_eq_ok.1 (h.loads path hplace)
  obtain rfl : place = place' := Except.ok.inj (hplace.symm.trans hplace')
  exact hheld

/-- The names of some entries that end in `.json`, in order. -/
def jsonNames (entries : Dict FileTree) : List String :=
  ((Dict.keys entries).filter fun name => ".json".toList.isSuffixOf name.toList).mergeSort (· ≤ ·)

/-- The set is made up of what the entries of the directory with names in `.json` are loaded as,
in the order of their names, and of nothing else. -/
def LoadsEntries (w : Workspace) (path : String) (set : ComponentSet) : Prop :=
  ∃ place entries parts, w.files.locate path = .ok place ∧
    FileTree.get? place w.files = some (.directory entries) ∧
    List.Forall₂ (fun name part => LoadedFrom w (place ++ [name]) part) (jsonNames entries) parts ∧
    set = parts.foldr append {}

/-- On every disk on which the path is that of a directory, what is loaded without a failure is
what the entries of the directory are loaded as. -/
def IsExact (path : String) : Prop :=
  ∀ (w : Workspace) (set : ComponentSet), WellNamed w.files →
    nodeIs isDirectoryNode path w.files = true →
    (load disk report path w).1 = .ok set → LoadsEntries w path set

theorem load_of_isDirectory
    (h : nodeIs isDirectoryNode path w.files = true) :
    load disk report path w =
      loadDirectory disk report path w := by
  rw [load, bind_apply, Workspace.isDirectory_apply, h]
  rfl

theorem loadDirectory_of_find {steps : List Pattern} {paths : List String}
    (hsteps : Pattern.stepsOf (Path.join path "*.json") = .ok steps)
    (hfind : Pattern.find disk (Path.join path "*.json") steps w = (.ok paths, w)) :
    loadDirectory disk report path w =
      loadFiles disk report (paths.mergeSort Path.le) w := by
  rw [loadDirectory, hsteps]
  simp only
  rw [bind_apply, hfind]

/-- A directory of a malformed pattern is not loaded. -/
theorem loadDirectory_of_fault {fault : PatternFault}
    (h : Pattern.stepsOf (Path.join path "*.json") = .error fault) (w : Workspace) :
    ∃ f, (loadDirectory disk report path w).1 = .error f := by
  rw [loadDirectory, h]
  exact ⟨_, rfl⟩

theorem mem_jsonNames : name ∈ jsonNames entries ↔
    name ∈ Dict.keys entries ∧ ".json".toList <:+ name.toList := by
  rw [jsonNames, List.mem_mergeSort, List.mem_filter, List.isSuffixOf_iff_suffix]

/-- Names in `.json` are names. -/
theorem isName_of_json (h : ".json".toList <:+ name.toList) :
    name ≠ "" ∧ FileTree.isName name = true := by
  have hlength := h.length_le
  refine ⟨?_, FileTree.isName_iff.2 ⟨?_, ?_⟩⟩ <;> rintro rfl <;> exact absurd hlength (by decide)

/-- The paths of the entries of a directory are sorted by the names of the entries. -/
theorem mergeSort_jsonBelow {directory : String}
    (hrelative : Path.isAbsolute directory = false) (hne : directory ≠ "")
    (hslash : ∀ name ∈ Dict.keys entries, '/' ∉ name.toList) :
    (((Dict.keys entries).filter Pattern.jsonFiles.matchesName).map
      (Pattern.below directory)).mergeSort Path.le =
        (jsonNames entries).map (Pattern.below directory) := by
  have hnames : (Dict.keys entries).filter Pattern.jsonFiles.matchesName =
      (Dict.keys entries).filter fun name => ".json".toList.isSuffixOf name.toList :=
    List.filter_congr fun name _ => Pattern.accepts_jsonFiles name.toList
  rw [hnames, jsonNames]
  refine (List.map_mergeSort fun a ha b hb => ?_).symm
  rw [List.mem_filter, List.isSuffixOf_iff_suffix] at ha hb
  have hplain : ∀ name, name ∈ Dict.keys entries → ".json".toList <:+ name.toList →
      name ≠ "" ∧ '/' ∉ name.toList ∧ FileTree.isName name = true := fun name hkey hjson =>
    ⟨(isName_of_json hjson).1, hslash name hkey, (isName_of_json hjson).2⟩
  exact (Pattern.le_below hrelative hne (hplain a ha.1 ha.2) (hplain b hb.1 hb.2)).symm

/-- A directory without wildcards in its path is loaded as its entries, unless the path leads
astray. -/
theorem load_plain {set : ComponentSet} (hplain : Pattern.Plain path.toList)
    (hnode : w.files.node? path = .ok (.directory entries)) (hnames : WellNamed w.files)
    (hgoes : ¬ Pattern.Astray path) (hload : (load disk report path w).1 = .ok set) :
    LoadsEntries w path set := by
  obtain ⟨steps, hsteps, -, hfind⟩ := Pattern.find_plain hplain hnode
  obtain ⟨place, reached, hplace, hget, hreached, hfind⟩ := hfind hgoes
  rw [load_of_isDirectory (Workspace.isDirectory_eq_true.2 ⟨entries, hnode⟩),
    loadDirectory_of_find hsteps hfind, Pattern.jsonBelow_of_node? (hreached.node? hget),
    mergeSort_jsonBelow hreached.followable.relative hreached.followable.nonempty
      (hnames place entries hget)] at hload
  obtain ⟨parts, hparts, rfl⟩ := loadFiles_eq_ok.1 hload
  rw [List.forall₂_map_left_iff] at hparts
  refine ⟨place, entries, parts, hplace, hget, ?_, rfl⟩
  have hall := (List.forall₂_and_left _ _).2 ⟨fun name hname => mem_jsonNames.1 hname, hparts⟩
  refine hall.imp fun name part ⟨⟨hkey, hjson⟩, hloaded⟩ => ?_
  obtain ⟨found, hfound, -⟩ := loadFile_eq_ok.1 hloaded
  obtain ⟨hne, hname⟩ := isName_of_json hjson
  obtain rfl := hreached.locate_below hget hne (hnames place entries hget name hkey) hname hfound
  exact .of_loadFile hfound hloaded

/-! ## Directories of one name -/

/-- A name that a directory can have. -/
structure LegalName (name : String) : Prop where
  nonempty : name ≠ ""
  oneStep : '/' ∉ name.toList
  noNull : '\x00' ∉ name.toList
  isName : FileTree.isName name = true
  short : name.utf8ByteSize ≤ FileTree.longestName

theorem LegalName.followable (h : LegalName name) : Followable name where
  noNull := h.noNull
  short := Nat.lt_of_le_of_lt h.short (by decide)
  nonempty := h.nonempty
  relative := Path.isAbsolute_of_slash_notMem h.oneStep

theorem LegalName.ne_dot (h : LegalName name) : name ≠ "." := (FileTree.isName_iff.1 h.isName).1

theorem LegalName.named (h : LegalName name) : Path.named name = [name] := by
  simpa [Pattern.below_dot] using (Pattern.steps_below "." h.nonempty h.oneStep).2

theorem LegalName.arrived {outer inner : Dict FileTree} (h : LegalName name)
    (hget : Dict.get? outer name = some (.directory inner)) :
    Pattern.Arrived (.directory outer) name [name] where
  followable := h.followable
  leads := by
    rw [h.named]
    refine .down ⟨outer, rfl⟩ h.isName h.short (.here ⟨inner, ?_⟩)
    rw [List.nil_append, FileTree.get?, hget]
    rfl

theorem LegalName.node? {outer inner : Dict FileTree} (h : LegalName name)
    (hget : Dict.get? outer name = some (.directory inner)) :
    (FileTree.directory outer).node? name = .ok (.directory inner) :=
  (h.arrived hget).node? (by rw [FileTree.get?, hget]; rfl)

/-- What a directory of one name is loaded as, entry by entry. -/
theorem LegalName.exists_parts {outer inner : Dict FileTree} {set : ComponentSet}
    (h : LegalName name) (hget : Dict.get? outer name = some (.directory inner))
    (hload : LoadsEntries { files := .directory outer } name set) :
    ∃ parts, List.Forall₂
      (fun file part => LoadedFrom { files := .directory outer } [name, file] part)
        (jsonNames inner) parts ∧ set = parts.foldr append {} := by
  obtain ⟨place, entries, parts, hplace, hentries, hparts, hset⟩ := hload
  have hlocate : (FileTree.directory outer).locate name = .ok [name] := by
    rw [FileTree.locate_of_followable h.followable]
    exact (FileTree.leads_steps.2 (h.arrived hget).leads).follow
  obtain rfl : [name] = place := Except.ok.inj (hlocate.symm.trans hplace)
  have hinner : FileTree.get? [name] (.directory outer) = some (.directory inner) := by
    rw [FileTree.get?, hget]
    rfl
  obtain rfl := FileTree.directory.inj (Option.some.inj (hinner.symm.trans hentries))
  exact ⟨parts, hparts, hset⟩

theorem LegalName.toList_join (h : LegalName name) :
    (Path.join name "*.json").toList = name.toList ++ '/' :: "*.json".toList := by
  rw [Path.join, if_neg (by decide), if_neg, String.toList_append, String.toList_append,
    List.append_assoc]
  · rfl
  · rw [Bool.or_eq_true, String.isEmpty_iff, decide_eq_true_eq]
    exact fun hor => hor.elim h.nonempty fun hlast => h.oneStep (List.mem_of_getLast? hlast)

/-- The steps of the pattern for the files of a directory of one name. -/
theorem LegalName.stepsOf {steps : List Pattern} (h : LegalName name)
    (hsteps : Pattern.stepsOf (Path.join name "*.json") = .ok steps) :
    ∃ step, Pattern.parse name = .ok step ∧ steps = [step, Pattern.jsonFiles] := by
  have hrelative : Path.isAbsolute (Path.join name "*.json") = false := by
    rw [Path.isAbsolute_join h.nonempty (by decide), h.followable.relative]
  have hlast : Pattern.parse (String.ofList "*.json".toList) = .ok Pattern.jsonFiles := by
    rw [String.ofList_toList, Pattern.parse]
    exact Pattern.read_jsonFiles
  rw [Pattern.stepsOf] at hsteps
  obtain ⟨whole, -, hsteps⟩ := exists_of_bind_eq_ok hsteps
  simp only [hrelative, h.toList_join, Bool.false_eq_true, if_false] at hsteps
  rw [Path.parts_append_slash, Path.parts_of_slash_notMem h.oneStep,
    show Path.parts "*.json".toList = ["*.json".toList] from by decide, List.singleton_append,
    List.mapM_cons, String.ofList_toList] at hsteps
  obtain ⟨step, hstep, hsteps⟩ := exists_of_bind_eq_ok hsteps
  simp only [List.mapM_cons, List.mapM_nil, hlast, bind, Except.bind, pure, Except.pure] at hsteps
  exact ⟨step, hstep, (Except.ok.inj hsteps).symm⟩

/-- A file with one component. -/
def pageFile : FileTree := .file "\x7b\"name\":\"page\"\x7d".toUTF8

/-- What the file is loaded as. -/
def pageSet : ComponentSet := { components := [{ name := "page" }] }

theorem heldAt_pageFile {files : FileTree} (h : FileTree.get? place files = some pageFile) :
    HeldAt files place pageSet := by
  refine ⟨_, _, .obj [("name", .str "page")], h, dif_pos (String.isValidUTF8 _), ?_, ?_⟩ <;>
    decide +kernel

/-- A directory with one file. -/
def pages : Dict FileTree := [("x.json", pageFile)]

theorem wellNamed_pages : WellNamed (.directory pages) :=
  FileTree.wellNamed_empty.insert (FileTree.wellNamed_file _) (by decide)

theorem wellNamed_two {other : String} {first second : FileTree} (hne : name ≠ other)
    (hfirst : WellNamed first) (hsecond : WellNamed second) (hname : '/' ∉ name.toList)
    (hother : '/' ∉ other.toList) : WellNamed (.directory [(name, first), (other, second)]) := by
  have hone : WellNamed (.directory [(name, first)]) :=
    FileTree.wellNamed_empty.insert hfirst hname
  have htwo := hone.insert hsecond hother
  rwa [Dict.insert, if_neg hne] at htwo

theorem HeldAt.unique {files : FileTree} {a b : ComponentSet} (ha : HeldAt files place a)
    (hb : HeldAt files place b) : a = b := by
  obtain ⟨contents, text, document, hget, htext, hparse, hset⟩ := ha
  obtain ⟨contents', text', document', hget', htext', hparse', hset'⟩ := hb
  obtain rfl := FileTree.file.inj (Option.some.inj (hget.symm.trans hget'))
  obtain rfl := Option.some.inj (htext.symm.trans htext')
  obtain rfl := Except.ok.inj (hparse.symm.trans hparse')
  exact Except.ok.inj (hset.symm.trans hset')

section
variable {outer : Dict FileTree} {step : Pattern} {fault : FileFault}

/-- Directories with other names are found only by what the step stands for. -/
theorem load_of_step {paths : List String} (hname : LegalName name)
    (hnode : nodeIs isDirectoryNode name (.directory outer) = true)
    (hsteps : Pattern.stepsOf (Path.join name "*.json") = .ok [step, Pattern.jsonFiles])
    (hliteral : Pattern.literal? step = none) (hstep : step.isRecursive = false)
    (hpaths : ((Dict.keys outer).filter step.matchesName).flatMap
      (Pattern.jsonBelow (.directory outer)) = paths)
    (hdots : ((Pattern.dotsOf step).map (Path.join ".")).flatMap
      (Pattern.jsonBelow (.directory outer)) = []) :
    load disk report name { files := .directory outer } =
      loadFiles disk report (paths.mergeSort Path.le)
        { files := .directory outer } := by
  have hrelative : Path.isAbsolute (Path.join name "*.json") = false := by
    rw [Path.isAbsolute_join hname.nonempty (by decide), hname.followable.relative]
  rw [load_of_isDirectory hnode]
  refine loadDirectory_of_find hsteps ?_
  rw [Pattern.find, hrelative, if_neg Bool.false_ne_true,
    show [step, Pattern.jsonFiles].length + Pattern.searchDepth = 4096 + 2 from rfl,
    Pattern.search_wildcard hliteral hstep
      (show ({ files := .directory outer } : Workspace).files = .directory outer from rfl),
    List.flatMap_append, hpaths, hdots, List.append_nil]

/-- The dots lead to no file when no entry of the working directory has a name in `.json`. -/
theorem dots_found (hjson : Pattern.dotsOf step ≠ [] →
      ∀ name ∈ Dict.keys outer, ¬ ".json".toList <:+ name.toList) :
    ((Pattern.dotsOf step).map (Path.join ".")).flatMap
      (Pattern.jsonBelow (.directory outer)) = [] := by
  rw [List.flatMap_eq_nil_iff]
  intro path hpath
  obtain ⟨dot, hdot, rfl⟩ := List.mem_map.1 hpath
  have hnone := hjson (List.ne_nil_of_mem hdot)
  have hcases : dot = "." ∨ dot = ".." := by
    rw [Pattern.dotsOf.eq_def] at hdot
    split at hdot
    · simpa using (List.mem_filter.1 hdot).1
    · cases hdot
  rcases hcases with rfl | rfl
  · have hnode : (FileTree.directory outer).node? (Path.join "." ".") =
        .ok (.directory outer) := rfl
    rw [Pattern.jsonBelow_of_node? hnode, List.map_eq_nil_iff, List.filter_eq_nil_iff]
    intro name hname hmatch
    refine hnone name hname ?_
    rw [← List.isSuffixOf_iff_suffix, ← Pattern.accepts_jsonFiles]
    exact hmatch
  · have hnode : nodeIs isDirectoryNode (Path.join "." "..") (.directory outer) = false := rfl
    exact Pattern.jsonBelow_of_not_directory hnode

end

/-- A step that stands for one of the dots is short, and ends as the dots do. -/
theorem not_json_of_dots {text : List Char} {step : Pattern} (hspells : Pattern.Spells text step)
    (hdots : Pattern.dotsOf step ≠ []) :
    step.countP (·.isSingle) ≤ 2 ∧ ¬ ".json".toList <:+ text := by
  obtain ⟨dot, hdot⟩ := List.exists_mem_of_ne_nil _ hdots
  have haccepts : (dot = "." ∨ dot = "..") ∧ step.accepts dot.toList = true := by
    rw [Pattern.dotsOf.eq_def] at hdot
    split at hdot
    · simpa [Pattern.matchesName] using List.mem_filter.1 hdot
    · cases hdot
  constructor
  · have hcount := Pattern.countP_le_of_accepts haccepts.2
    rcases haccepts.1 with rfl | rfl
    · exact Nat.le_trans hcount (by decide)
    · exact hcount
  · rintro ⟨front, rfl⟩
    have hlast : (front ++ ".json".toList).getLast? = some 'n' := by
      rw [List.getLast?_append]
      rfl
    obtain ⟨tokens, rfl⟩ := List.getLast?_eq_some_iff.1
      (hspells.getLast? hlast (by decide) (by decide))
    have hdotLast := Pattern.getLast?_of_accepts haccepts.2
    rcases haccepts.1 with rfl | rfl <;> exact absurd hdotLast (by decide)

/-- A name that stands for itself stands for another name. -/
theorem LegalName.exists_other {step : Pattern} (hname : LegalName name)
    (hspells : Pattern.Spells name.toList step) (hwild : ¬ Pattern.Plain name.toList)
    (haccepts : step.accepts name.toList = true) :
    ∃ other, LegalName other ∧ other ≠ name ∧ step.matchesName other = true ∧
      other.toList.length ≤ step.countP (·.isSingle) + 1 := by
  obtain ⟨front, back, hsub, hshorter, hcount, hvaried⟩ := hspells.exists_others hwild haccepts
  obtain ⟨c, hc, hne⟩ : ∃ c ∈ ['a', 'b'], String.ofList (front ++ c :: back) ≠ name := by
    by_contra hall
    push Not at hall
    have hsame := (hall 'a' (by decide)).trans (hall 'b' (by decide)).symm
    simp at hsame
  have hmem : ∀ d, d ∈ front ++ c :: back → d = c ∨ d ∈ name.toList := by
    intro d hd
    rcases List.mem_append.1 hd with hd | hd
    · exact .inr (hsub.subset (List.mem_append_left _ hd))
    · rcases List.mem_cons.1 hd with rfl | hd
      · exact .inl rfl
      · exact .inr (hsub.subset (List.mem_append_right _ hd))
  have hsize : c.utf8Size = 1 := by
    rcases (by simpa using hc : c = 'a' ∨ c = 'b') with rfl | rfl <;> rfl
  have hclean : ∀ d, d ∉ ['a', 'b'] → d ∉ name.toList → d ∉ front ++ c :: back :=
    fun d hd hfree hmemd => (hmem d hmemd).elim (fun h => hd (h ▸ hc)) hfree
  have hdots : ∀ dots : String, (∀ d ∈ dots.toList, d = '.') →
      String.ofList (front ++ c :: back) ≠ dots := by
    rintro _ hall rfl
    rw [String.toList_ofList] at hall
    rw [hall c (by simp)] at hc
    exact absurd hc (by decide)
  refine ⟨String.ofList (front ++ c :: back), ⟨?_, ?_, ?_, ?_, ?_⟩, hne, ?_, ?_⟩
  · exact hdots "" (by simp)
  · rw [String.toList_ofList]
    exact hclean _ (by decide) hname.oneStep
  · rw [String.toList_ofList]
    exact hclean _ (by decide) hname.noNull
  · exact FileTree.isName_iff.2 ⟨hdots "." (by simp), hdots ".." (by simp)⟩
  · have hle := Path.utf8ByteSize_of_sublist hsub
    have hshort := hname.short
    rw [String.ofList_toList] at hle
    rw [String.ofList_append, String.utf8ByteSize_append] at hle ⊢
    rw [Path.utf8ByteSize_ofList_cons]
    omega
  · rw [Pattern.matchesName, String.toList_ofList]
    exact hvaried c
  · rw [String.toList_ofList, List.length_append, List.length_cons]
    rw [List.length_append] at hcount
    omega

section
variable {step : Pattern} (hname : LegalName name) (hspells : Pattern.Spells name.toList step)
  (hwild : ¬ Pattern.Plain name.toList)
  (hsteps : Pattern.stepsOf (Path.join name "*.json") = .ok [step, Pattern.jsonFiles])
include hname hspells hwild hsteps

/-- The files of a directory are lost whose name is not what it stands for. -/
theorem not_isExact_of_rejected (hrejects : step.accepts name.toList = false) :
    ¬ IsExact name := by
  let outer : Dict FileTree := [(name, .directory pages)]
  have hget : Dict.get? outer name = some (.directory pages) := if_pos rfl
  have hdirectory : nodeIs isDirectoryNode name (.directory outer) = true :=
    Workspace.isDirectory_eq_true.2 ⟨pages, hname.node? hget⟩
  have hnamed : WellNamed (.directory outer) :=
    FileTree.wellNamed_empty.insert wellNamed_pages hname.oneStep
  have hmatch : step.matchesName name = false := hrejects
  have hnone : ((Dict.keys outer).filter step.matchesName).flatMap
      (Pattern.jsonBelow (.directory outer)) = [] := by
    simp [outer, Dict.keys, hmatch]
  have hdots := @dots_found outer step fun hdots other hother => by
    obtain rfl : other = name := by simpa [outer, Dict.keys] using hother
    exact (not_json_of_dots hspells hdots).2
  have hload : (load disk report name { files := .directory outer }).1 =
      .ok {} := by
    rw [load_of_step hname hdirectory hsteps (hspells.literal?_eq_none hwild)
      hspells.isRecursive_eq_false hnone hdots, List.mergeSort_nil]
    rfl
  intro hexact
  obtain ⟨parts, hparts, hset⟩ :=
    hname.exists_parts hget (hexact _ _ hnamed hdirectory hload)
  rw [show jsonNames pages = ["x.json"] from by decide +kernel] at hparts
  cases hparts with
  | @cons _ part _ rest hpart _ =>
    have hpage : part = pageSet := hpart.heldAt.unique
      (heldAt_pageFile (by simp [FileTree.get?, outer, pages]))
    rw [hpage] at hset
    cases hset

/-- A directory is mixed up with another one that its name stands for as well. -/
theorem not_isExact_of_accepted (haccepts : step.accepts name.toList = true) :
    ¬ IsExact name := by
  obtain ⟨other, hother, hne, hmatches, hshort⟩ := hname.exists_other hspells hwild haccepts
  let outer : Dict FileTree := [(name, .directory []), (other, .directory pages)]
  have hget : Dict.get? outer name = some (.directory []) := if_pos rfl
  have hgetOther : Dict.get? outer other = some (.directory pages) :=
    (if_neg hne.symm).trans (if_pos rfl)
  have hnode := hother.node? hgetOther
  have hdirectory : nodeIs isDirectoryNode name (.directory outer) = true :=
    Workspace.isDirectory_eq_true.2 ⟨[], hname.node? hget⟩
  have hnamed : WellNamed (.directory outer) :=
    wellNamed_two hne.symm FileTree.wellNamed_empty wellNamed_pages hname.oneStep hother.oneStep
  have hfound : ((Dict.keys outer).filter step.matchesName).flatMap
      (Pattern.jsonBelow (.directory outer)) = [Path.join other "x.json"] := by
    have hself : step.matchesName name = true := haccepts
    have hempty : Pattern.jsonBelow (.directory outer) name = [] :=
      Pattern.jsonBelow_of_node? (hname.node? hget)
    have hone : Pattern.jsonBelow (.directory outer) other = [Path.join other "x.json"] := by
      rw [Pattern.jsonBelow_of_node? hnode, ← Pattern.below_of_ne hother.ne_dot]
      rfl
    simp [outer, Dict.keys, hself, hmatches, hempty, hone]
  have hdots := @dots_found outer step fun hdots entry hentry => by
    obtain ⟨hcount, hjson⟩ := not_json_of_dots hspells hdots
    rcases (by simpa [outer, Dict.keys] using hentry : entry = name ∨ entry = other) with rfl | rfl
    · exact hjson
    · intro hsuffix
      have hlength : 5 ≤ entry.toList.length := hsuffix.length_le
      omega
  have hfile : FileTree.PlainFile other "x.json" :=
    ⟨by decide, by decide, by decide, by decide, by decide,
      Nat.lt_of_le_of_lt (Path.utf8ByteSize_join_le (by decide))
        (Nat.lt_of_le_of_lt (Nat.add_le_add_right (Nat.succ_le_succ hother.short) _) (by decide))⟩
  have hload : (load disk report name { files := .directory outer }).1 =
      .ok ([pageSet].foldr append {}) := by
    rw [load_of_step hname hdirectory hsteps (hspells.literal?_eq_none hwild)
      hspells.isRecursive_eq_false hfound hdots, List.mergeSort_singleton]
    obtain ⟨goal, hgoal, -, hlocate⟩ := FileTree.locate_join hfile hnode
    refine loadFiles_eq_ok.2 ⟨[pageSet], .cons (loadFile_eq_ok.2 ⟨_, hlocate, ?_⟩) .nil, rfl⟩
    exact heldAt_pageFile (by rw [FileTree.get?_child hgoal]; rfl)
  intro hexact
  obtain ⟨parts, hparts, hset⟩ :=
    hname.exists_parts hget (hexact _ _ hnamed hdirectory hload)
  rw [show jsonNames [] = [] from by decide +kernel] at hparts
  cases hparts
  cases hset

end

/-- A step of two stars stands for every directory. -/
theorem not_isExact_stars : ¬ IsExact "**" := by
  let outer : Dict FileTree := [("**", .directory []), ("a", .directory pages)]
  have hname : LegalName "**" := by
    constructor <;> decide
  have hget : Dict.get? outer "**" = some (.directory []) := rfl
  have hnamed : WellNamed (.directory outer) :=
    wellNamed_two (by decide) FileTree.wellNamed_empty wellNamed_pages (by decide) (by decide)
  have hload : (load disk report "**" { files := .directory outer }).1 =
      .ok pageSet := by decide +kernel
  intro hexact
  obtain ⟨parts, hparts, hset⟩ := hname.exists_parts hget
    (hexact _ _ hnamed (Workspace.isDirectory_eq_true.2 ⟨[], hname.node? hget⟩) hload)
  rw [show jsonNames [] = [] from by decide +kernel] at hparts
  cases hparts
  cases hset

/-- A name is no slash too many. -/
theorem LegalName.not_astray (h : LegalName name) : ¬ Pattern.Astray name := by
  rintro ⟨-, hhead⟩
  have hdot : name.toList ≠ ['.'] := fun heq => h.ne_dot (String.toList_inj.1 heq)
  rw [h.toList_join, Path.parts_append_slash, Path.parts_of_slash_notMem h.oneStep] at hhead
  simp only [List.singleton_append, List.dropWhile_cons, hdot, decide_false, Bool.false_eq_true,
    if_false, List.head?_cons, Option.some.injEq] at hhead
  exact h.nonempty (String.toList_inj.1 hhead)

/-- **When a directory is loaded as its own files.** It is if its path has no wildcards, unless a
slash too many behind steps in place leads astray, and then nothing is loaded. A directory of one
name is loaded as its own files on every disk, or not at all, exactly when the name has no wildcard
or is part of no pattern. -/
theorem isExact_iff (path : String) :
    (Pattern.Plain path.toList → ¬ Pattern.Astray path → IsExact path) ∧
    (Pattern.Plain path.toList → Pattern.Astray path →
      ∀ w : Workspace, nodeIs isDirectoryNode path w.files = true →
        (load disk report path w).1 = .ok {}) ∧
    (LegalName path → (IsExact path ↔ Pattern.Plain path.toList ∨
      ∃ fault, Pattern.stepsOf (Path.join path "*.json") = .error fault)) := by
  have hplain : Pattern.Plain path.toList → ¬ Pattern.Astray path → IsExact path := by
    intro hplain hgoes w set hnames hnode hload
    obtain ⟨entries, hentries⟩ := Workspace.isDirectory_eq_true.1 hnode
    exact load_plain hplain hentries hnames hgoes hload
  refine ⟨hplain, fun hpath hastray w hnode => ?_, fun hname => ⟨fun hexact => ?_, ?_⟩⟩
  · obtain ⟨entries, hentries⟩ := Workspace.isDirectory_eq_true.1 hnode
    obtain ⟨steps, hsteps, hfind, -⟩ := Pattern.find_plain hpath hentries
    rw [load_of_isDirectory hnode, loadDirectory_of_find hsteps (hfind hastray),
      List.mergeSort_nil]
    rfl
  · by_contra hnot
    rw [not_or] at hnot
    obtain ⟨hwild, hfault⟩ := hnot
    cases hsteps : Pattern.stepsOf (Path.join path "*.json") with
    | error fault => exact hfault ⟨fault, hsteps⟩
    | ok steps =>
      obtain ⟨step, hstep, rfl⟩ := hname.stepsOf hsteps
      rcases Pattern.spells_of_read hstep hname.oneStep (Nat.lt_succ_self _) with
        hspells | ⟨-, htext, -⟩
      · cases haccepts : step.accepts path.toList with
        | false => exact not_isExact_of_rejected hname hspells hwild hsteps haccepts hexact
        | true => exact not_isExact_of_accepted hname hspells hwild hsteps haccepts hexact
      · rw [show path = "**" from String.toList_inj.1 htext] at hexact
        exact not_isExact_stars hexact
  · rintro (hname' | ⟨fault, hfault⟩)
    · exact hplain hname' hname.not_astray
    · intro w set _ hnode hload
      obtain ⟨f, hf⟩ := loadDirectory_of_fault hfault w
      rw [load_of_isDirectory hnode, hf] at hload
      cases hload

/-! ## Two disks -/

namespace Shelf

/-- A directory with one file of components, a text and another directory. -/
def items : Dict FileTree :=
  [("x.json", pageFile), ("notes.txt", .file ByteArray.empty), ("old", .directory pages)]

/-- The directory, and one with a similar name. -/
def files : FileTree := .directory [("schemas", .directory items), ("schema", .directory pages)]

theorem wellNamed_files : WellNamed files := by
  have htwo :
      WellNamed (.directory [("x.json", pageFile), ("notes.txt", .file ByteArray.empty)]) :=
    wellNamed_two (by decide) (FileTree.wellNamed_file _) (FileTree.wellNamed_file _) (by decide)
      (by decide)
  have hitems : WellNamed (.directory items) :=
    htwo.insert wellNamed_pages (show '/' ∉ "old".toList by decide)
  exact wellNamed_two (by decide) hitems wellNamed_pages (by decide) (by decide)

/-- The theorem at a directory without wildcards in its path: its file of components is loaded. -/
theorem schemas_loaded :
    (load disk report "./schemas/" { files }).1 = .ok pageSet ∧
      LoadsEntries { files } "./schemas/" pageSet := by
  have hload : (load disk report "./schemas/" { files }).1 = .ok pageSet := by decide +kernel
  refine ⟨hload, (isExact_iff "./schemas/").1 ?_ ?_ { files } pageSet wellNamed_files ?_ hload⟩
  · simp [Pattern.Plain, Pattern.isWildcard]
  · exact fun hastray => absurd hastray.2 (by decide)
  · decide +kernel

end Shelf

namespace Bracketed

/-- A directory with brackets in its name, and one without. -/
def files : FileTree :=
  .directory [("[a]", .directory pages), ("plain", .directory pages)]

/-- The file of the directory in brackets is loaded by itself, and lost with its directory. -/
theorem page_lost :
    nodeIs isDirectoryNode "[a]" files = true ∧
      (loadFile disk report "[a]/x.json" { files }).1 = .ok pageSet ∧
      (load disk report "[a]" { files }).1 = .ok {} ∧
      ¬ LoadsEntries { files } "[a]" {} := by
  refine ⟨by decide +kernel, by decide +kernel, by decide +kernel, fun h => ?_⟩
  have hname : LegalName "[a]" := by
    constructor <;> decide
  obtain ⟨parts, hparts, hset⟩ := hname.exists_parts rfl h
  rw [show jsonNames pages = ["x.json"] from by decide +kernel] at hparts
  cases hparts with
  | @cons _ part _ rest hpart _ =>
    rw [hpart.heldAt.unique (heldAt_pageFile rfl)] at hset
    cases hset

end Bracketed

end ComponentSet

end Blokwork
