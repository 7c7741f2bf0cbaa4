import Blokwork.Proofs.Generate.AllowedComponents
import Blokwork.Proofs.Generate.TypeNames

/-!
# Names that share a type name

A type name keeps of a name no more than its capitalised words (`pascalCase_eq`), so which names
share one is a matter of their words, whatever the prefix and the suffix are. The groups of names
that collide are read off the names accordingly: in `namesakes` no type name occurs, and the
collisions of every namer are these groups (`TypeNamer.collisions_alike`).
-/

namespace Blokwork

/-! ## Words -/

/-- The words of a text: what stands between characters other than ASCII letters and digits. -/
def words (cs : List Char) : List (List Char) :=
  (cs.splitOnP fun c => !c.isAlphanum).filter fun word => !word.isEmpty

/-- The word with its first letter capitalised. -/
def capitalized : List Char → List Char
  | [] => []
  | c :: rest => c.toUpper :: rest

/-- The capitalised words of a name in a row. -/
def joinedWords (name : String) : List Char := (words name.toList).flatMap capitalized

example : joinedWords "_hero-section 2" = "HeroSection2".toList := by decide

/-- What is left out as no word would have added nothing. -/
theorem flatMap_capitalized_filter (pieces : List (List Char)) :
    (pieces.filter fun word => !word.isEmpty).flatMap capitalized =
      pieces.flatMap capitalized := by
  induction pieces with
  | nil => rfl
  | cons piece pieces ih =>
    cases piece with
    | nil => simpa [capitalized] using ih
    | cons c rest => simp [ih]

/-- A text read from within a word: the word goes on as it is, the later ones are capitalised. -/
theorem pascalCase_of_splitOnP {cs first : List Char} {more : List (List Char)}
    (h : cs.splitOnP (fun c => !c.isAlphanum) = first :: more) (atStart : Bool) :
    pascalCase atStart cs =
      (if atStart then capitalized first else first) ++ more.flatMap capitalized := by
  induction cs generalizing first more atStart with
  | nil =>
    cases h
    cases atStart <;> rfl
  | cons c cs ih =>
    obtain ⟨next, rest, hrest⟩ := List.exists_cons_of_ne_nil
      (List.splitOnP_ne_nil (fun c : Char => !c.isAlphanum) cs)
    rw [List.splitOnP_cons_eq_if_modifyHead, hrest] at h
    cases hc : c.isAlphanum with
    | true =>
      simp only [hc, Bool.not_true, Bool.false_eq_true, if_false, List.modifyHead_cons] at h
      cases h
      rw [pascalCase, if_pos hc, ih hrest false]
      cases atStart <;> rfl
    | false =>
      simp only [hc, Bool.not_false, if_true] at h
      cases h
      rw [pascalCase, if_neg (by rw [hc]; exact Bool.false_ne_true), ih hrest true]
      cases atStart <;> rfl

/-- **Pascal case is capitalised words in a row.** -/
theorem pascalCase_eq (name : String) : pascalCase true name.toList = joinedWords name := by
  obtain ⟨first, more, hsplit⟩ := List.exists_cons_of_ne_nil
    (List.splitOnP_ne_nil (fun c : Char => !c.isAlphanum) name.toList)
  rw [pascalCase_of_splitOnP hsplit, joinedWords, words, flatMap_capitalized_filter, hsplit]
  rfl

/-! ## Groups -/

section Groups

variable {κ : Type} [DecidableEq κ]

/-- The names that have one key, for each key in the order in which the keys are met first. -/
def groupsBy (key : String → κ) (names : List String) : List (List String) :=
  (names.map key).eraseDups.map fun k => names.filter fun name => key name = k

theorem eraseDups_map (key : String → κ) (names : List String) :
    (names.map key).eraseDups =
      (names.eraseDupsBy fun a b => decide (key a = key b)).map key := by
  match names with
  | [] => rfl
  | name :: names =>
    have hother : ((fun k => !k == key name) ∘ key) =
        fun other => decide (decide (key other = key name) = false) := by
      funext other
      by_cases h : key other = key name <;> simp [h]
    rw [List.map_cons, List.eraseDups_cons, List.eraseDupsBy_cons, List.map_cons, List.filter_map,
      hother, ← eraseDups_map]
termination_by names.length
decreasing_by exact Nat.lt_succ_of_le (List.length_filter_le _ _)

/-- Which names stand together does not depend on what the keys are, only on which are the same. -/
theorem groupsBy_congr {μ : Type} [DecidableEq μ] {key : String → κ} {other : String → μ}
    (h : ∀ a b, key a = key b ↔ other a = other b) (names : List String) :
    groupsBy key names = groupsBy other names := by
  rw [groupsBy, groupsBy, eraseDups_map, eraseDups_map, List.map_map, List.map_map]
  simp only [Function.comp_def, h]

end Groups

/-- The names that come first have the first positions. -/
theorem pairwise_idxOf_eraseDups (names : List String) :
    names.eraseDups.Pairwise fun a b => names.idxOf a < names.idxOf b := by
  induction names using List.reverseRecOn with
  | nil => exact .nil
  | append_singleton names name ih =>
    have hmem {a : String} (ha : a ∈ names.eraseDups) : a ∈ names := List.mem_eraseDups.1 ha
    have hold : names.eraseDups.Pairwise fun a b =>
        (names ++ [name]).idxOf a < (names ++ [name]).idxOf b := by
      refine ih.imp_of_mem fun {a b} ha hb hlt => ?_
      rwa [List.idxOf_append_of_mem (hmem ha), List.idxOf_append_of_mem (hmem hb)]
    rw [← addName_eraseDups, addName]
    split
    · exact hold
    · next hnew =>
      have hname : name ∉ names := fun h =>
        hnew (List.contains_iff_mem.2 (List.mem_eraseDups.2 h))
      refine List.pairwise_append.2 ⟨hold, List.pairwise_singleton _ _, fun a ha b hb => ?_⟩
      rw [List.mem_singleton.1 hb, List.idxOf_append_of_mem (hmem ha),
        List.idxOf_append_of_notMem hname, List.idxOf_cons_self, Nat.add_zero]
      exact List.idxOf_lt_length_of_mem (hmem ha)

/-- The names that have the same words as another one, group by group: the groups in the order in
which they are met first, and the names of a group in their order. -/
def namesakes (names : List String) : List (List String) :=
  (groupsBy joinedWords names).filter fun group => 1 < group.length

example : namesakes ["hero-section", "page", "news 24", "hero_section", "news24", "héro"] =
    [["hero-section", "hero_section"], ["news 24", "news24"]] := by decide +kernel

/-! ## Collisions -/

namespace TypeNamer

variable (namer : TypeNamer)

/-- Type names are the same for names with the same words. -/
theorem typeName_eq_iff_joinedWords (a b : String) :
    namer.typeName a = namer.typeName b ↔ joinedWords a = joinedWords b := by
  rw [typeName_eq_iff, pascalCase_eq, pascalCase_eq]

theorem keys_byTypeName (names : List String) :
    Dict.keys (namer.byTypeName names) = (names.map namer.typeName).eraseDups := by
  induction names using List.reverseRecOn with
  | nil => rfl
  | append_singleton names name ih =>
    rw [byTypeName, List.foldl_append, ← byTypeName, List.foldl_cons, List.foldl_nil,
      Dict.keys_insert, List.map_append, List.map_singleton, ← addName_eraseDups, addName, ih]
    have hhas : Dict.has (namer.byTypeName names) (namer.typeName name) =
        (names.map namer.typeName).eraseDups.contains (namer.typeName name) := by
      rw [Bool.eq_iff_iff, Dict.has_iff_mem_keys, ih, List.contains_iff_mem]
    rw [hhas]
    split <;> simp

/-- The names by their type names are the groups of names with one type name. -/
theorem byTypeName_eq (names : List String) :
    namer.byTypeName names = (names.map namer.typeName).eraseDups.map fun typeName =>
      (typeName, names.filter fun name => namer.typeName name = typeName) := by
  have hdistinct : Dict.Distinct (namer.byTypeName names) := by
    rw [Dict.Distinct, keys_byTypeName]
    exact nodup_eraseDups _
  have hgroup : ∀ e ∈ namer.byTypeName names,
      e = (e.1, names.filter fun name => namer.typeName name = e.1) := by
    intro e he
    rw [← getD_byTypeName, hdistinct.get?_of_mem he]
    rfl
  calc namer.byTypeName names
      = (namer.byTypeName names).map fun e =>
          (e.1, names.filter fun name => namer.typeName name = e.1) := by
        conv_lhs => rw [← List.map_id (namer.byTypeName names)]
        exact List.map_congr_left hgroup
    _ = (Dict.keys (namer.byTypeName names)).map fun typeName =>
          (typeName, names.filter fun name => namer.typeName name = typeName) := by
        rw [Dict.keys, List.map_map]
        rfl
    _ = _ := by rw [keys_byTypeName]

theorem snd_byTypeName (names : List String) :
    (namer.byTypeName names).map Prod.snd = groupsBy joinedWords names := by
  rw [← groupsBy_congr namer.typeName_eq_iff_joinedWords, byTypeName_eq, List.map_map]
  rfl

theorem mem_byTypeName {names : List String} {typeName : String} {group : List String} :
    (typeName, group) ∈ namer.byTypeName names ↔
      (∃ name ∈ names, namer.typeName name = typeName) ∧
        group = names.filter fun name => namer.typeName name = typeName := by
  rw [byTypeName_eq, List.mem_map]
  simp only [List.mem_eraseDups, List.mem_map, Prod.mk.injEq]
  constructor
  · rintro ⟨_, hmet, rfl, rfl⟩
    exact ⟨hmet, rfl⟩
  · rintro ⟨hmet, rfl⟩
    exact ⟨typeName, hmet, rfl, rfl⟩

/-- **Names collide by their words alone.** Two names have one type name if and only if their
capitalised words are the same in a row. So the collisions are the same groups of names in the same
order for every prefix and suffix: a type name has a group if and only if two of the names, or
more, have it, its group is the names that have it, in their order, and the groups stand in the
order in which their type names are met first. -/
theorem collisions_alike (names : List String) :
    (∀ a b, namer.typeName a = namer.typeName b ↔ joinedWords a = joinedWords b) ∧
    (namer.collisions names).map Prod.snd = namesakes names ∧
    (∀ typeName group, (typeName, group) ∈ namer.collisions names ↔
      group = names.filter (fun name => namer.typeName name = typeName) ∧ 1 < group.length) ∧
    (namer.collisions names).Pairwise fun first second =>
      (names.map namer.typeName).idxOf first.1 < (names.map namer.typeName).idxOf second.1 := by
  refine ⟨namer.typeName_eq_iff_joinedWords, ?_, fun typeName group => ?_, ?_⟩
  · rw [collisions, namesakes, ← namer.snd_byTypeName, List.filter_map]
    rfl
  · rw [collisions, List.mem_filter, mem_byTypeName, decide_eq_true_iff]
    constructor
    · rintro ⟨⟨-, hgroup⟩, hlong⟩
      exact ⟨hgroup, hlong⟩
    · rintro ⟨rfl, hlong⟩
      obtain ⟨name, hname⟩ := List.exists_mem_of_length_pos (Nat.zero_lt_of_lt hlong)
      obtain ⟨hmem, hsame⟩ := List.mem_filter.1 hname
      exact ⟨⟨⟨name, hmem, of_decide_eq_true hsame⟩, rfl⟩, hlong⟩
  · have hkeys := pairwise_idxOf_eraseDups (names.map namer.typeName)
    rw [← keys_byTypeName, Dict.keys, List.pairwise_map] at hkeys
    exact hkeys.filter _

end TypeNamer

end Blokwork
