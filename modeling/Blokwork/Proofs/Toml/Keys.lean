import Blokwork.Proofs.Dict
import Blokwork.Toml.Document

/-!
# Keys of a text

A TOML text defines each key once, and the reader refuses it otherwise. So no table of what it
reads has a key twice, at any depth (`Toml.exists_table_of_parse`): a statement changes the tables
of a draft by insertions alone (`Draft.WellKeyed.add`), and values are read with distinct keys, by
induction on the calls inside one another (`readsWellKeyed`).
-/

namespace Blokwork.Toml

/-! ## Values and drafts with distinct keys -/

/-- No table in the value has a key twice. -/
inductive DistinctKeys : Toml → Prop where
  | str (s : String) : DistinctKeys (.str s)
  | int (n : Int) : DistinctKeys (.int n)
  | real (x : Real) : DistinctKeys (.real x)
  | bool (b : Bool) : DistinctKeys (.bool b)
  | moment (m : Moment) : DistinctKeys (.moment m)
  | arr {xs : List Toml} (h : ∀ x ∈ xs, DistinctKeys x) : DistinctKeys (.arr xs)
  | table {ms : Dict Toml} (hkeys : Dict.Distinct ms) (h : ∀ m ∈ ms, DistinctKeys m.2) :
    DistinctKeys (.table ms)

/-- No table at the node or below it has a key twice. -/
inductive Node.WellKeyed : Node → Prop where
  | value {v : Toml} (h : v.DistinctKeys) : WellKeyed (.value v)
  | table {origin : Origin} {ms : Draft} (hkeys : Dict.Distinct ms)
      (h : ∀ m ∈ ms, WellKeyed m.2) : WellKeyed (.table origin ms)
  | tables {elements : List Draft} (hkeys : ∀ ms ∈ elements, Dict.Distinct ms)
      (h : ∀ ms ∈ elements, ∀ m ∈ ms, WellKeyed m.2) : WellKeyed (.tables elements)

/-- The draft has no key twice, and neither has a table below it. -/
structure Draft.WellKeyed (draft : Draft) : Prop where
  keys : Dict.Distinct draft
  nodes : ∀ m ∈ draft, m.2.WellKeyed

section Nodes

variable {draft : Draft} {key : String} {node : Node}

/-- The draft that a document starts with. -/
theorem Draft.wellKeyed_nil : Draft.WellKeyed [] := ⟨List.nodup_nil, nofun⟩

/-- A value for a key replaces the one that was there, so that the key stays the only one. -/
theorem Draft.WellKeyed.insert (h : draft.WellKeyed) (key : String) (hnode : node.WellKeyed) :
    Draft.WellKeyed (Dict.insert draft key node) := by
  refine ⟨h.keys.insert key node, fun m hm => ?_⟩
  rcases Dict.mem_of_mem_insert hm with rfl | hm
  · exact hnode
  · exact h.nodes m hm

/-- What is found in a draft is itself well keyed. -/
theorem Draft.WellKeyed.get? (h : draft.WellKeyed) (hnode : Dict.get? draft key = some node) :
    node.WellKeyed := h.nodes _ (Dict.mem_of_get? hnode)

/-- A table is well keyed as a draft of its own. -/
theorem Node.wellKeyed_table {origin : Origin} :
    (Node.table origin draft).WellKeyed ↔ draft.WellKeyed := by
  constructor
  · rintro (_ | ⟨hkeys, h⟩)
    exact ⟨hkeys, h⟩
  · exact fun h => .table h.keys h.nodes

/-- The elements of an array of tables count one by one. -/
theorem Node.wellKeyed_tables {elements : List Draft} :
    (Node.tables elements).WellKeyed ↔ ∀ ms ∈ elements, Draft.WellKeyed ms := by
  constructor
  · rintro (_ | _ | ⟨hkeys, h⟩) ms hms
    exact ⟨hkeys ms hms, h ms hms⟩
  · exact fun h => .tables (fun ms hms => (h ms hms).keys) fun ms hms => (h ms hms).nodes

/-- The last of some tables may be replaced. -/
theorem Node.wellKeyed_replaceLast {elements : List Draft} (h : (Node.tables elements).WellKeyed)
    {last : Draft} (hlast : last.WellKeyed) :
    (Node.tables (elements.dropLast ++ [last])).WellKeyed := by
  rw [Node.wellKeyed_tables] at h ⊢
  refine List.forall_mem_append.2 ⟨fun ms hms => h ms (List.dropLast_subset elements hms), ?_⟩
  exact List.forall_mem_singleton.2 hlast

/-- Headers go into the last element of an array of tables. -/
theorem Node.wellKeyed_of_getLast? {elements : List Draft} (h : (Node.tables elements).WellKeyed)
    {last : Draft} (hlast : elements.getLast? = some last) : last.WellKeyed :=
  Node.wellKeyed_tables.1 h last (List.mem_of_getLast? hlast)

end Nodes

/-! ## What was defined -/

/-- The members of a table are finished one by one. -/
theorem Node.membersToToml_eq (ms : Draft) :
    Node.membersToToml ms = ms.map fun m => (m.1, m.2.toToml) := by
  induction ms with
  | nil => rfl
  | cons m ms ih =>
    obtain ⟨k, n⟩ := m
    rw [Node.membersToToml, ih, List.map_cons]

/-- The elements of an array of tables are finished one by one. -/
theorem Node.elementsToToml_eq (elements : List Draft) :
    Node.elementsToToml elements =
      elements.map fun ms => .ofMembers (ms.map fun m => (m.1, m.2.toToml)) := by
  induction elements with
  | nil => rfl
  | cons ms elements ih =>
    rw [Node.elementsToToml, ih, Node.membersToToml_eq, List.map_cons]

/-- Sorting a table leaves its keys distinct. -/
theorem distinctKeys_ofMembers {ms : Dict Toml} (hkeys : Dict.Distinct ms)
    (h : ∀ m ∈ ms, m.2.DistinctKeys) : (ofMembers ms).DistinctKeys := by
  have hperm := List.mergeSort_perm ms fun a b => decide (a.1 ≤ b.1)
  refine .table ((hperm.map Prod.fst).nodup_iff.2 hkeys) fun m hm => h m ?_
  exact hperm.mem_iff.1 hm

/-- A finished node has no key twice: the keys of a table are those of its draft, whatever order
they are put in. -/
theorem Node.WellKeyed.toToml {node : Node} (h : node.WellKeyed) : node.toToml.DistinctKeys := by
  have hmembers {ms : Draft} (hkeys : Dict.Distinct ms)
      (hms : ∀ m ∈ ms, m.2.toToml.DistinctKeys) :
      (ofMembers (ms.map fun m => (m.1, m.2.toToml))).DistinctKeys := by
    refine distinctKeys_ofMembers ?_ (List.forall_mem_map.2 hms)
    rwa [Dict.Distinct, Dict.keys, List.map_map]
  induction h with
  | value h => exact h
  | table hkeys _ ih =>
    rw [Node.toToml, Node.membersToToml_eq]
    exact hmembers hkeys ih
  | tables hkeys _ ih =>
    rw [Node.toToml, Node.elementsToToml_eq]
    exact .arr (List.forall_mem_map.2 fun ms hms => hmembers (hkeys ms hms) (ih ms hms))

/-- A finished draft has no key twice. -/
theorem Draft.WellKeyed.toToml {draft : Draft} (h : draft.WellKeyed) : draft.toToml.DistinctKeys :=
  (Node.wellKeyed_table.2 h).toToml

/-! ## Statements -/

/-- A dotted key is inserted where it is new, and in new tables or such as may grow. -/
theorem Draft.WellKeyed.assign {value : Toml} (hvalue : value.DistinctKeys) {path : List String}
    {draft draft' : Draft} (h : draft.WellKeyed)
    (hassign : Draft.assign value path draft = some draft') : draft'.WellKeyed := by
  induction path generalizing draft draft' with
  | nil => cases hassign
  | cons key path ih =>
    cases path with
    | nil =>
      rw [Draft.assign] at hassign
      split at hassign
      · cases hassign
      · cases hassign
        exact h.insert key (.value hvalue)
    | cons next rest =>
      rw [Draft.assign] at hassign
      split at hassign
      · obtain ⟨members, hmembers, heq⟩ := Option.bind_eq_some_iff.1 hassign
        cases heq
        exact h.insert key (Node.wellKeyed_table.2 (ih wellKeyed_nil hmembers))
      · next hnode =>
        split at hassign
        · cases hassign
        · obtain ⟨members, hmembers, heq⟩ := Option.bind_eq_some_iff.1 hassign
          cases heq
          have hold := Node.wellKeyed_table.1 (h.get? hnode)
          exact h.insert key (Node.wellKeyed_table.2 (ih hold hmembers))
      · next hnode =>
        split at hassign
        · cases hassign
        · obtain ⟨last, hlast, hassign⟩ := Option.bind_eq_some_iff.1 hassign
          obtain ⟨last', hlast', heq⟩ := Option.bind_eq_some_iff.1 hassign
          cases heq
          have hold := h.get? hnode
          have hnew := ih (Node.wellKeyed_of_getLast? hold hlast) hlast'
          exact h.insert key (Node.wellKeyed_replaceLast hold hnew)
      · cases hassign

/-- What an edit keeps of a table it keeps of the tables around it. -/
theorem Draft.WellKeyed.within {edit : Draft → Option Draft}
    (hedit : ∀ {draft draft' : Draft}, draft.WellKeyed → edit draft = some draft' →
      draft'.WellKeyed)
    {path : List String} {draft draft' : Draft} (h : draft.WellKeyed)
    (hwithin : Draft.within edit path draft = some draft') : draft'.WellKeyed := by
  induction path generalizing draft draft' with
  | nil => exact hedit h hwithin
  | cons key path ih =>
    rw [Draft.within] at hwithin
    split at hwithin
    · obtain ⟨members, hmembers, heq⟩ := Option.bind_eq_some_iff.1 hwithin
      cases heq
      exact h.insert key (Node.wellKeyed_table.2 (ih wellKeyed_nil hmembers))
    · next hnode =>
      obtain ⟨members, hmembers, heq⟩ := Option.bind_eq_some_iff.1 hwithin
      cases heq
      have hold := Node.wellKeyed_table.1 (h.get? hnode)
      exact h.insert key (Node.wellKeyed_table.2 (ih hold hmembers))
    · next hnode =>
      obtain ⟨last, hlast, hwithin⟩ := Option.bind_eq_some_iff.1 hwithin
      obtain ⟨last', hlast', heq⟩ := Option.bind_eq_some_iff.1 hwithin
      cases heq
      have hold := h.get? hnode
      have hnew := ih (Node.wellKeyed_of_getLast? hold hlast) hlast'
      exact h.insert key (Node.wellKeyed_replaceLast hold hnew)
    · cases hwithin

/-- A header makes a table where there is none, and takes over one that was only passed through. -/
theorem Draft.WellKeyed.openTable {key : String} {draft draft' : Draft} (h : draft.WellKeyed)
    (hopen : Draft.openTable key draft = some draft') : draft'.WellKeyed := by
  rw [Draft.openTable] at hopen
  split at hopen
  · cases hopen
    exact h.insert key (Node.wellKeyed_table.2 wellKeyed_nil)
  · next hnode =>
    cases hopen
    exact h.insert key (Node.wellKeyed_table.2 (Node.wellKeyed_table.1 (h.get? hnode)))
  · cases hopen

/-- A header of an array of tables puts an empty element behind the others. -/
theorem Draft.WellKeyed.openElement {key : String} {draft draft' : Draft} (h : draft.WellKeyed)
    (hopen : Draft.openElement key draft = some draft') : draft'.WellKeyed := by
  rw [Draft.openElement] at hopen
  split at hopen
  · cases hopen
    exact h.insert key (Node.wellKeyed_tables.2 (List.forall_mem_singleton.2 wellKeyed_nil))
  · next hnode =>
    cases hopen
    refine h.insert key (Node.wellKeyed_tables.2 (List.forall_mem_append.2 ⟨?_, ?_⟩))
    · exact Node.wellKeyed_tables.1 (h.get? hnode)
    · exact List.forall_mem_singleton.2 wellKeyed_nil
  · cases hopen

/-- The value of the statement, if it has one, has distinct keys. -/
def Statement.WellKeyed : Statement → Prop
  | .assign _ value => value.DistinctKeys
  | _ => True

/-- One more statement leaves no key twice. -/
theorem Draft.WellKeyed.add {defs defs' : Definitions} (h : defs.root.WellKeyed)
    {statement : Statement} (hstatement : statement.WellKeyed)
    (hadd : defs.add statement = some defs') : defs'.root.WellKeyed := by
  cases statement with
  | assign path value =>
    obtain ⟨root, hroot, heq⟩ := Option.bind_eq_some_iff.1 hadd
    cases heq
    exact h.within (fun hdraft => hdraft.assign hstatement) hroot
  | table path =>
    obtain ⟨root, hroot, heq⟩ := Option.bind_eq_some_iff.1 hadd
    cases heq
    exact h.within (fun hdraft => hdraft.openTable) hroot
  | element path =>
    obtain ⟨root, hroot, heq⟩ := Option.bind_eq_some_iff.1 hadd
    cases heq
    exact h.within (fun hdraft => hdraft.openElement) hroot

/-! ## Values -/

/-- A bare value is no table. -/
theorem distinctKeys_of_bare {cs : List Char} {v : Toml} (h : bare? cs = some v) :
    v.DistinctKeys := by
  rw [bare?] at h
  split at h
  · cases h
    exact .bool true
  split at h
  · cases h
    exact .bool false
  rcases Option.or_eq_some_iff.1 h with h | ⟨-, h⟩
  · obtain ⟨n, -, rfl⟩ := Option.map_eq_some_iff.1 h
    exact .int n
  rcases Option.or_eq_some_iff.1 h with h | ⟨-, h⟩
  · obtain ⟨x, -, rfl⟩ := Option.map_eq_some_iff.1 h
    exact .real x
  · obtain ⟨m, -, rfl⟩ := Option.map_eq_some_iff.1 h
    exact .moment m

/-- What is read of a text with that many calls inside one another has distinct keys. -/
structure ReadsWellKeyed (fuel : Nat) : Prop where
  value {room : Nat} {cs rest : List Char} {v : Toml} :
    readValue fuel room cs = some (v, rest) → v.DistinctKeys
  items {room : Nat} {cs rest : List Char} {xs : List Toml} :
    readItems fuel room cs = some (xs, rest) → ∀ x ∈ xs, x.DistinctKeys
  members {room : Nat} {cs rest : List Char} {draft draft' : Draft} (h : draft.WellKeyed) :
    readMembers fuel room draft cs = some (draft', rest) → draft'.WellKeyed
  assignment {room : Nat} {cs rest : List Char} {path : List String} {v : Toml} :
    readAssignment fuel room cs = some ((path, v), rest) → v.DistinctKeys

/-- What is read has no key twice, however many calls stand inside one another: an inline table is
made of a draft, and each of its members keeps that well keyed. -/
theorem readsWellKeyed (fuel : Nat) : ReadsWellKeyed fuel := by
  induction fuel with
  | zero =>
    refine ⟨fun h => ?_, fun h => ?_, fun _ h => ?_, fun h => ?_⟩
    · simp [readValue] at h
    · simp [readItems] at h
    · simp [readMembers] at h
    · simp [readAssignment] at h
  | succ fuel ih =>
    refine ⟨fun h => ?_, fun h => ?_, fun hdraft h => ?_, fun h => ?_⟩
    · rw [readValue.eq_def] at h
      dsimp only at h
      split at h
      · obtain ⟨⟨s, rest⟩, -, heq⟩ := Option.map_eq_some_iff.1 h
        cases heq
        exact .str s
      · obtain ⟨⟨s, rest⟩, -, heq⟩ := Option.map_eq_some_iff.1 h
        cases heq
        exact .str s
      · cases h
      · cases h
      · obtain ⟨⟨xs, rest⟩, hxs, heq⟩ := Option.map_eq_some_iff.1 h
        cases heq
        exact .arr (ih.items hxs)
      · obtain ⟨⟨draft, rest⟩, hdraft, heq⟩ := Option.map_eq_some_iff.1 h
        cases heq
        exact (ih.members Draft.wellKeyed_nil hdraft).toToml
      · obtain ⟨v, hv, heq⟩ := Option.map_eq_some_iff.1 h
        cases heq
        exact distinctKeys_of_bare hv
    · rw [readItems] at h
      obtain ⟨first, -, h⟩ := Option.bind_eq_some_iff.1 h
      split at h
      · cases h
        exact List.forall_mem_nil _
      · obtain ⟨⟨x, rest⟩, hx, h⟩ := Option.bind_eq_some_iff.1 h
        obtain ⟨next, -, h⟩ := Option.bind_eq_some_iff.1 h
        split at h
        · cases h
          exact List.forall_mem_singleton.2 (ih.value hx)
        · obtain ⟨⟨xs, rest⟩, hxs, heq⟩ := Option.bind_eq_some_iff.1 h
          cases heq
          exact List.forall_mem_cons.2 ⟨ih.value hx, ih.items hxs⟩
        · cases h
    · rw [readMembers] at h
      obtain ⟨first, -, h⟩ := Option.bind_eq_some_iff.1 h
      split at h
      · cases h
        exact hdraft
      · obtain ⟨⟨⟨path, x⟩, rest⟩, hx, h⟩ := Option.bind_eq_some_iff.1 h
        obtain ⟨more, hmore, h⟩ := Option.bind_eq_some_iff.1 h
        have hmoreKeyed := hdraft.assign (ih.assignment hx) hmore
        obtain ⟨next, -, h⟩ := Option.bind_eq_some_iff.1 h
        split at h
        · cases h
          exact hmoreKeyed
        · exact ih.members hmoreKeyed h
        · cases h
    · rw [readAssignment] at h
      obtain ⟨⟨path, rest⟩, -, h⟩ := Option.bind_eq_some_iff.1 h
      dsimp only at h
      split at h
      · obtain ⟨⟨x, rest⟩, hx, heq⟩ := Option.bind_eq_some_iff.1 h
        cases heq
        exact ih.value hx
      · cases h

/-! ## Texts -/

/-- The value of a statement has no key twice. -/
theorem wellKeyed_of_readStatement {cs rest : List Char} {statement : Statement}
    (h : readStatement cs = some (statement, rest)) : statement.WellKeyed := by
  rw [readStatement.eq_def] at h
  split at h
  · obtain ⟨⟨path, rest⟩, -, h⟩ := Option.bind_eq_some_iff.1 h
    dsimp only at h
    split at h
    · cases h
      trivial
    · cases h
  · obtain ⟨⟨path, rest⟩, -, h⟩ := Option.bind_eq_some_iff.1 h
    dsimp only at h
    split at h
    · cases h
      trivial
    · cases h
  · obtain ⟨⟨⟨path, x⟩, rest⟩, hx, heq⟩ := Option.bind_eq_some_iff.1 h
    cases heq
    exact (readsWellKeyed _).assignment hx

/-- Each statement of a document keeps the draft well keyed. -/
theorem wellKeyed_of_addStatements {fuel : Nat} {defs defs' : Definitions} {cs : List Char}
    (hroot : defs.root.WellKeyed) (h : addStatements fuel defs cs = some defs') :
    defs'.root.WellKeyed := by
  induction fuel generalizing defs cs with
  | zero => cases h
  | succ fuel ih =>
    rw [addStatements] at h
    obtain ⟨first, -, h⟩ := Option.bind_eq_some_iff.1 h
    split at h
    · cases h
      exact hroot
    · obtain ⟨⟨statement, rest⟩, hstatement, h⟩ := Option.bind_eq_some_iff.1 h
      dsimp only at h
      split at h
      · obtain ⟨next, hnext, h⟩ := Option.bind_eq_some_iff.1 h
        exact ih (hroot.add (wellKeyed_of_readStatement hstatement) hnext) h
      · cases h

/-- **A text is read as a table, and no table in it has a key twice.** -/
theorem exists_table_of_parse {text : String} {t : Toml} (h : parse? text = some t) :
    ∃ ms, t = .table ms ∧ t.DistinctKeys := by
  obtain ⟨defs, hdefs, heq⟩ := Option.bind_eq_some_iff.1 h
  cases heq
  exact ⟨_, rfl, (wellKeyed_of_addStatements Draft.wellKeyed_nil hdefs).toToml⟩

end Blokwork.Toml
