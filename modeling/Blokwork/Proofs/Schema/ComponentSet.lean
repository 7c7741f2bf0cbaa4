import Blokwork.Schema.ComponentSet

/-!
# Loading item by item

What becomes of an item depends on the item and, for the label of one that has no name, on its
position (`outcome_moved`). A set holds the outcomes of its items in order, each in one of two
lists (`ofItemsFrom_eq`), so a list that is put behind another adds its own outcomes, and a
malformed item adds nothing but itself (`ofJson_lists`).
-/

namespace Blokwork.ComponentSet

/-- What becomes of an item at a position: it is a component, or it is rejected under its label. -/
def outcome (position : Nat) (item : Json) : Except RejectedComponent Component :=
  (Component.ofJson item).mapError fun m => ⟨label position item, m.message⟩

/-- What becomes of some items, of which `position` came before. -/
def outcomesFrom (position : Nat) (items : List Json) :
    List (Except RejectedComponent Component) :=
  items.mapIdx fun i item => outcome (position + i) item

/-- The rejection, where there is one. -/
def rejection? : Except RejectedComponent Component → Option RejectedComponent
  | .ok _ => none
  | .error r => some r

/-- Outcomes in order: the components in one list, the rejections in the other. -/
def ofOutcomes (outcomes : List (Except RejectedComponent Component)) : ComponentSet where
  components := outcomes.filterMap Except.toOption
  rejected := outcomes.filterMap rejection?

/-- The name that an item has. -/
def named? (item : Json) : Option String := (item.member? "name").bind Json.string?

/-- What becomes of an item at one position and at another. A component is the same, and a
rejection too, but that an item without a name is called by its position. -/
inductive Moved (i j : Nat) (item : Json) :
    Except RejectedComponent Component → Except RejectedComponent Component → Prop where
  | component (c : Component) : Moved i j item (.ok c) (.ok c)
  | named {name : String} (h : named? item = some name) (reason : String) :
    Moved i j item (.error ⟨name, reason⟩) (.error ⟨name, reason⟩)
  | nameless (h : named? item = none) (reason : String) :
    Moved i j item (.error ⟨"#" ++ i.repr, reason⟩) (.error ⟨"#" ++ j.repr, reason⟩)

theorem outcome_moved (i j : Nat) (item : Json) :
    Moved i j item (outcome i item) (outcome j item) := by
  unfold outcome
  cases Component.ofJson item with
  | ok c => exact .component c
  | error m =>
    have hlabel (position : Nat) : label position item =
        (named? item).getD ("#" ++ position.repr) := rfl
    change Moved i j item (.error ⟨label i item, m.message⟩) (.error ⟨label j item, m.message⟩)
    rw [hlabel, hlabel]
    cases hname : named? item with
    | none => exact .nameless hname m.message
    | some name => exact .named hname m.message

/-! ## Sets of outcomes -/

theorem ofOutcomes_append (xs ys : List (Except RejectedComponent Component)) :
    ofOutcomes (xs ++ ys) = (ofOutcomes xs).append (ofOutcomes ys) := by
  rw [ofOutcomes, List.filterMap_append, List.filterMap_append]
  rfl

theorem ofOutcomes_outcome (position : Nat) (item : Json) :
    ofOutcomes [outcome position item] = ofItem position item := by
  unfold outcome ofItem
  cases Component.ofJson item <;> rfl

theorem outcomesFrom_cons (position : Nat) (item : Json) (rest : List Json) :
    outcomesFrom position (item :: rest) =
      outcome position item :: outcomesFrom (position + 1) rest := by
  simp only [outcomesFrom, List.mapIdx_cons, Nat.add_zero, Nat.add_assoc, Nat.add_comm 1]

theorem outcomesFrom_append (position : Nat) (xs ys : List Json) :
    outcomesFrom position (xs ++ ys) =
      outcomesFrom position xs ++ outcomesFrom (position + xs.length) ys := by
  simp only [outcomesFrom, List.mapIdx_append, Nat.add_assoc, Nat.add_comm xs.length]

/-- A set holds what becomes of its items, in order. -/
theorem ofItemsFrom_eq (position : Nat) (items : List Json) :
    ofItemsFrom position items = ofOutcomes (outcomesFrom position items) := by
  induction items generalizing position with
  | nil => rfl
  | cons item rest ih =>
    rw [ofItemsFrom, ih, ← ofOutcomes_outcome, ← ofOutcomes_append, outcomesFrom_cons,
      List.singleton_append]

theorem ofJson_arr (items : List Json) :
    ofJson (.arr items) = .ok (ofOutcomes (outcomesFrom 0 items)) := by
  rw [← ofItemsFrom_eq]
  rfl

/-- **Loading splits a list in order, and a longer list item by item.** A list is loaded as what
becomes of its items. A list behind another adds what becomes of its own items, where those without
a name are called by the later position, and a malformed item adds its rejection and changes no
other item. An object with a list of components is loaded as the list, any other as the list of
itself. -/
theorem ofJson_lists (xs ys : List Json) :
    ofJson (.arr xs) = .ok (ofOutcomes (outcomesFrom 0 xs)) ∧
    ofJson (.arr (xs ++ ys)) = .ok ((ofOutcomes (outcomesFrom 0 xs)).append
      (ofOutcomes (outcomesFrom xs.length ys))) ∧
    (∀ i (h : i < ys.length), ∃ o o',
      (outcomesFrom 0 ys)[i]? = some o ∧ (outcomesFrom xs.length ys)[i]? = some o' ∧
      Moved i (xs.length + i) ys[i] o o') ∧
    (∀ item m, Component.ofJson item = .error m →
      ofJson (.arr (xs ++ item :: ys)) = .ok ((ofOutcomes (outcomesFrom 0 xs)).append
        (append { rejected := [⟨label xs.length item, m.message⟩] }
          (ofOutcomes (outcomesFrom (xs.length + 1) ys))))) ∧
    (∀ members, Dict.get? members "components" = some (.arr xs) →
      ofJson (.obj members) = ofJson (.arr xs)) ∧
    ∀ members, Dict.get? members "components" = none →
      ofJson (.obj members) = ofJson (.arr [.obj members]) := by
  refine ⟨ofJson_arr xs, ?_, fun i h => ?_, fun item m hitem => ?_, fun members h => ?_,
    fun members h => ?_⟩
  · rw [ofJson_arr, outcomesFrom_append, ofOutcomes_append, Nat.zero_add]
  · refine ⟨outcome i ys[i], outcome (xs.length + i) ys[i], ?_, ?_, outcome_moved _ _ _⟩
    · simp [outcomesFrom, h]
    · simp [outcomesFrom, h]
  · have hrejected : ofOutcomes [outcome xs.length item] =
        { rejected := [⟨label xs.length item, m.message⟩] } := by
      rw [ofOutcomes_outcome, ofItem, hitem]
    rw [ofJson_arr, outcomesFrom_append, ofOutcomes_append, outcomesFrom_cons, Nat.zero_add,
      ← hrejected, ← ofOutcomes_append [_], List.singleton_append]
  · rw [ofJson, ofJson, items, h]
    rfl
  · rw [ofJson, ofJson, items, h]
    rfl

namespace Export

/-- A component. -/
def page : Json := .obj [("name", .str "page")]

/-- A component with fields that are none. -/
def broken : Json := .obj [("name", .str "broken"), ("schema", .bool true)]

/-- An item without a name. -/
def nameless : Json := .obj [("schema", .obj [])]

/-- What `broken` is instead. -/
def mismatch : Mismatch := .wrongType (.bool true) "a map"

/-- Between a component and an item without a name, a malformed item adds its rejection. An export
and a single component are loaded as lists. -/
theorem ofJson_lists_export :
    (Component.ofJson broken = .error mismatch ∧
      Dict.get? [("components", Json.arr [page])] "components" = some (.arr [page]) ∧
      Dict.get? [("name", Json.str "page")] "components" = none) ∧
    ofJson (.arr ([page] ++ broken :: [nameless])) =
      .ok ((ofOutcomes (outcomesFrom 0 [page])).append
        (append { rejected := [⟨"broken", mismatch.message⟩] }
          (ofOutcomes (outcomesFrom 2 [nameless])))) ∧
    ofOutcomes (outcomesFrom 2 [nameless]) = { rejected := [⟨"#2", "missing field `name`"⟩] } ∧
    ofJson (.obj [("components", .arr [page])]) = ofJson (.arr [page]) ∧
    ofJson page = ofJson (.arr [page]) := by
  have hbroken : Component.ofJson broken = .error mismatch := rfl
  obtain ⟨-, -, -, hmalformed, hexport, hsingle⟩ := ofJson_lists [page] [nameless]
  exact ⟨⟨hbroken, rfl, rfl⟩, hmalformed broken mismatch hbroken, rfl, hexport _ rfl,
    hsingle [("name", .str "page")] rfl⟩

end Export

end Blokwork.ComponentSet
