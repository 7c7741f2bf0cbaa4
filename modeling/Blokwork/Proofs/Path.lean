import Blokwork.Path

/-!
# Laws of paths

The names between the slashes of a path (`named`) are what is left of its steps when a slash at
the end is not counted. A name is a text that is not empty and has no slash; joining one to a
path adds it as the last step (`steps_join`), whether or not the path ends with a slash.
-/

namespace Blokwork.Path

/-! ## Parts -/

/-- A text has at least one part, even if it is empty. -/
theorem parts_ne_nil (text : List Char) : parts text ≠ [] := by
  cases text with
  | nil => exact List.cons_ne_nil _ _
  | cons c rest =>
    rw [parts]
    split
    · exact List.cons_ne_nil _ _
    · split <;> exact List.cons_ne_nil _ _

/-- What is behind a slash has its own parts. -/
theorem parts_append_slash (front rest : List Char) :
    parts (front ++ '/' :: rest) = parts front ++ parts rest := by
  induction front with
  | nil => rfl
  | cons c front ih =>
    by_cases hc : c = '/'
    · rw [List.cons_append, parts, if_pos hc, ih, parts, if_pos hc, List.cons_append]
    · obtain ⟨part, others, hparts⟩ := List.exists_cons_of_ne_nil (parts_ne_nil front)
      simp only [List.cons_append, parts, if_neg hc, ih, hparts]

/-- A text without slashes is its only part. -/
theorem parts_of_slash_notMem {text : List Char} (h : '/' ∉ text) : parts text = [text] := by
  induction text with
  | nil => rfl
  | cons c rest ih =>
    rw [List.mem_cons, not_or] at h
    rw [parts, if_neg (Ne.symm h.1), ih h.2]

/-- Slashes stand between parts and not in them. -/
theorem slash_notMem_of_mem_parts {text part : List Char} (h : part ∈ parts text) :
    '/' ∉ part := by
  induction text generalizing part with
  | nil =>
    rw [parts, List.mem_singleton] at h
    exact h ▸ List.not_mem_nil
  | cons c rest ih =>
    obtain ⟨first, others, hparts⟩ := List.exists_cons_of_ne_nil (parts_ne_nil rest)
    by_cases hc : c = '/'
    · rw [parts, if_pos hc, List.mem_cons] at h
      rcases h with rfl | h
      · exact List.not_mem_nil
      · exact ih h
    · simp only [parts, if_neg hc, hparts, List.mem_cons] at h
      rcases h with rfl | h
      · have hfirst : '/' ∉ first := ih (hparts ▸ List.mem_cons_self)
        simpa [Ne.symm hc] using hfirst
      · exact ih (hparts ▸ List.mem_cons_of_mem _ h)

/-- Parts bring in no characters. -/
theorem mem_of_mem_parts {text part : List Char} {c : Char} (hpart : part ∈ parts text)
    (hc : c ∈ part) : c ∈ text := by
  induction text generalizing part with
  | nil =>
    rw [parts, List.mem_singleton] at hpart
    exact hpart ▸ hc
  | cons d rest ih =>
    obtain ⟨first, others, hparts⟩ := List.exists_cons_of_ne_nil (parts_ne_nil rest)
    by_cases hd : d = '/'
    · rw [parts, if_pos hd, List.mem_cons] at hpart
      rcases hpart with rfl | hpart
      · exact absurd hc List.not_mem_nil
      · exact List.mem_cons_of_mem _ (ih hpart hc)
    · simp only [parts, if_neg hd, hparts, List.mem_cons] at hpart
      rcases hpart with rfl | hpart
      · rcases List.mem_cons.1 hc with rfl | hc
        · exact List.mem_cons_self
        · exact List.mem_cons_of_mem _ (ih (hparts ▸ List.mem_cons_self) hc)
      · exact List.mem_cons_of_mem _ (ih (hparts ▸ List.mem_cons_of_mem _ hpart) hc)

/-- The size of a text is that of its first character and of the rest. -/
theorem utf8ByteSize_ofList_cons (c : Char) (text : List Char) :
    (String.ofList (c :: text)).utf8ByteSize = c.utf8Size + (String.ofList text).utf8ByteSize := by
  rw [show c :: text = [c] ++ text from rfl, String.ofList_append, String.utf8ByteSize_append]
  simp

/-- What is left out of a text has a byte for each character, at least. -/
theorem utf8ByteSize_of_sublist {a b : List Char} (h : a.Sublist b) :
    (String.ofList a).utf8ByteSize + b.length ≤ (String.ofList b).utf8ByteSize + a.length := by
  induction h with
  | slnil => exact Nat.le_refl _
  | cons c _ ih =>
    have hpos := c.utf8Size_pos
    rw [utf8ByteSize_ofList_cons, List.length_cons]
    omega
  | cons_cons c _ ih =>
    rw [utf8ByteSize_ofList_cons, utf8ByteSize_ofList_cons, List.length_cons,
      List.length_cons]
    omega

/-- The bytes of some parts with a slash behind each. -/
def partsSize : List (List Char) → Nat
  | [] => 0
  | part :: rest => (String.ofList part).utf8ByteSize + 1 + partsSize rest

/-- The parts of a text with a slash for each are as long as the text with one more slash. -/
theorem partsSize_parts (text : List Char) :
    partsSize (parts text) = (String.ofList text).utf8ByteSize + 1 := by
  induction text with
  | nil => rfl
  | cons c rest ih =>
    rw [utf8ByteSize_ofList_cons]
    by_cases hc : c = '/'
    · rw [parts, if_pos hc, partsSize, ih, hc]
      have hsep : '/'.utf8Size = 1 := rfl
      have hempty : (String.ofList []).utf8ByteSize = 0 := rfl
      omega
    · obtain ⟨part, others, hparts⟩ := List.exists_cons_of_ne_nil (parts_ne_nil rest)
      rw [hparts, partsSize] at ih
      simp only [parts, if_neg hc, hparts, partsSize, utf8ByteSize_ofList_cons]
      omega

/-! ## Names between slashes -/

/-- The parts of a text that are not empty. -/
def fullParts (text : List Char) : List (List Char) := (parts text).filter fun p => !p.isEmpty

/-- The names between the slashes of a path. -/
def named (path : String) : List String := (fullParts path.toList).map String.ofList

/-- A slash parts the steps in front of it from those behind it. -/
theorem fullParts_append_slash (front rest : List Char) :
    fullParts (front ++ '/' :: rest) = fullParts front ++ fullParts rest := by
  rw [fullParts, parts_append_slash, List.filter_append, fullParts, fullParts]

/-- A text without slashes is one step, unless it is empty. -/
theorem fullParts_of_slash_notMem {text : List Char} (h : '/' ∉ text) (hne : text ≠ []) :
    fullParts text = [text] := by
  rw [fullParts, parts_of_slash_notMem h, List.filter_eq_self]
  simpa using hne

/-- A slash at the end stands for one more step, which stays in place. -/
theorem steps_eq (path : String) :
    steps path = if path.toList.getLast? = some '/' then named path ++ ["."] else named path :=
  rfl

/-- No step has a slash. -/
theorem slash_notMem_of_mem_named {path name : String} (h : name ∈ named path) :
    '/' ∉ name.toList := by
  obtain ⟨part, hpart, rfl⟩ := List.mem_map.1 h
  rw [String.toList_ofList]
  exact slash_notMem_of_mem_parts (List.mem_filter.1 hpart).1

/-- A path that starts with no slash has a name. -/
theorem named_ne_nil {path : String} (hne : path ≠ "") (hrelative : isAbsolute path = false) :
    named path ≠ [] := by
  obtain ⟨c, rest, hpath⟩ : ∃ c rest, path.toList = c :: rest :=
    List.exists_cons_of_ne_nil fun h => hne (String.toList_inj.1 h)
  have hc : c ≠ '/' := by simpa [isAbsolute, hpath] using hrelative
  obtain ⟨part, others, hparts⟩ := List.exists_cons_of_ne_nil (parts_ne_nil rest)
  simp [named, fullParts, hpath, parts, hc, hparts]

/-! ## Joining a name -/

section
variable {base name : String}

/-- It takes a slash for a path to be absolute. -/
theorem isAbsolute_of_slash_notMem (hslash : '/' ∉ name.toList) : isAbsolute name = false := by
  rw [isAbsolute, decide_eq_false_iff_not]
  exact fun h => hslash (List.mem_of_head? h)

/-- A joined name stands at the end, behind the base and perhaps a slash. -/
theorem toList_join (hslash : '/' ∉ name.toList) :
    ∃ front, (join base name).toList = front ++ name.toList ∧
      ((base = "" ∧ front = []) ∨
        ∃ stem, front = stem ++ ['/'] ∧ stem <+: base.toList ∧
          fullParts stem = fullParts base.toList) := by
  rw [join, isAbsolute_of_slash_notMem hslash, if_neg Bool.false_ne_true]
  split
  · rename_i hbase
    rw [Bool.or_eq_true, String.isEmpty_iff, decide_eq_true_eq] at hbase
    refine ⟨base.toList, String.toList_append, ?_⟩
    rcases hbase with rfl | hlast
    · exact .inl ⟨rfl, rfl⟩
    · obtain ⟨stem, hstem⟩ := List.getLast?_eq_some_iff.1 hlast
      refine .inr ⟨stem, hstem, hstem ▸ List.prefix_append stem ['/'], ?_⟩
      rw [hstem, fullParts_append_slash]
      exact (List.append_nil _).symm
  · refine ⟨base.toList ++ ['/'], ?_, .inr ⟨base.toList, rfl, List.prefix_refl _, rfl⟩⟩
    rw [String.toList_append, String.toList_append]
    rfl

/-- Joining a name adds it behind the others. -/
theorem named_join (hne : name ≠ "") (hslash : '/' ∉ name.toList) :
    named (join base name) = named base ++ [name] := by
  have hname : fullParts name.toList = [name.toList] :=
    fullParts_of_slash_notMem hslash fun h => hne (String.toList_inj.1 h)
  have hfull : fullParts (join base name).toList = fullParts base.toList ++ [name.toList] := by
    obtain ⟨front, hjoin, ⟨rfl, rfl⟩ | ⟨stem, rfl, -, hstem⟩⟩ := @toList_join base name hslash
    · rw [hjoin, List.nil_append, hname]
      rfl
    · rw [hjoin, List.append_assoc, List.singleton_append, fullParts_append_slash, hname, hstem]
  rw [named, hfull, List.map_append, named, List.map_singleton, String.ofList_toList]

/-- Joining a name, or nothing, adds what names there are in it. -/
theorem named_join_append (hslash : '/' ∉ name.toList) :
    named (join base name) = named base ++ named name := by
  by_cases hne : name = ""
  · subst hne
    obtain ⟨front, hjoin, ⟨rfl, rfl⟩ | ⟨stem, rfl, -, hstem⟩⟩ := @toList_join base "" hslash
    · rfl
    · rw [named, hjoin, List.append_assoc, List.singleton_append, fullParts_append_slash, hstem]
      simp [named, fullParts, parts]
  · rw [named_join hne hslash, named, named, fullParts_of_slash_notMem hslash fun h =>
      hne (String.toList_inj.1 h), List.map_singleton, String.ofList_toList]

/-- A slash stands between a path and what is joined to it. -/
theorem slash_mem_join (hne : base ≠ "") (hslash : '/' ∉ name.toList) :
    '/' ∈ (join base name).toList := by
  obtain ⟨front, hjoin, ⟨hempty, -⟩ | ⟨stem, rfl, -, -⟩⟩ := @toList_join base name hslash
  · exact absurd hempty hne
  · simp [hjoin]

/-- Joining adds one slash at most. -/
theorem utf8ByteSize_join_le (hslash : '/' ∉ name.toList) :
    (join base name).utf8ByteSize ≤ base.utf8ByteSize + 1 + name.utf8ByteSize := by
  rw [join, isAbsolute_of_slash_notMem hslash, if_neg Bool.false_ne_true]
  have hsep : "/".utf8ByteSize = 1 := rfl
  split <;> simp only [String.utf8ByteSize_append, hsep] <;> omega

/-- A path that a name was joined to ends with no slash. -/
theorem getLast?_join (hne : name ≠ "") (hslash : '/' ∉ name.toList) :
    (join base name).toList.getLast? ≠ some '/' := by
  obtain ⟨front, hjoin, -⟩ := @toList_join base name hslash
  have hname : name.toList ≠ [] := fun h => hne (String.toList_inj.1 h)
  obtain ⟨c, hc⟩ : ∃ c, name.toList.getLast? = some c := ⟨_, List.getLast?_eq_some_getLast hname⟩
  rw [hjoin, List.getLast?_append, hc, Option.some_or]
  rintro ⟨⟩
  exact hslash (List.mem_of_getLast? hc)

/-- The steps of a joined path are those of the base that lead somewhere, and then the name. -/
theorem steps_join (hne : name ≠ "") (hslash : '/' ∉ name.toList) :
    steps (join base name) = named base ++ [name] := by
  rw [steps_eq, if_neg (getLast?_join hne hslash), named_join hne hslash]

/-- Joining a name to a path leaves it absolute or not. -/
theorem isAbsolute_join (hne : base ≠ "") (hslash : '/' ∉ name.toList) :
    isAbsolute (join base name) = isAbsolute base := by
  obtain ⟨c, rest, hbase⟩ : ∃ c rest, base.toList = c :: rest :=
    List.exists_cons_of_ne_nil fun h => hne (String.toList_inj.1 h)
  rw [join, isAbsolute_of_slash_notMem hslash, if_neg Bool.false_ne_true]
  split
  · rw [isAbsolute, String.toList_append, hbase, isAbsolute, hbase]
    rfl
  · rw [isAbsolute, String.toList_append, String.toList_append, hbase, isAbsolute, hbase]
    rfl

/-- The characters of a path that a name was joined to are those of both, and slashes. -/
theorem mem_join {c : Char} (hslash : '/' ∉ name.toList) (hc : c ≠ '/') :
    c ∈ (join base name).toList ↔ c ∈ base.toList ∨ c ∈ name.toList := by
  rw [join, isAbsolute_of_slash_notMem hslash, if_neg Bool.false_ne_true]
  split
  · rw [String.toList_append, List.mem_append]
  · rw [String.toList_append, String.toList_append, List.mem_append, List.mem_append]
    have hsep : c ∉ "/".toList := by
      rw [show "/".toList = ['/'] from rfl, List.mem_singleton]
      exact hc
    simp only [hsep, or_false]

end

end Blokwork.Path
