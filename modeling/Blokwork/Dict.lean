/-!
# Dictionaries in insertion order

A `Dict` is a list of entries, one per key. Inserting under a key that is present keeps the
position of the entry and replaces its value; a new key goes to the end. Removing an entry
keeps the order of the others.
-/

namespace Blokwork

/-- Entries in insertion order. -/
abbrev Dict (α : Type) := List (String × α)

namespace Dict

variable {α : Type}

/-- The value under `key`. -/
def get? (d : Dict α) (key : String) : Option α :=
  match d with
  | [] => none
  | (k, v) :: rest => if k = key then some v else get? rest key

/-- `key` has an entry. -/
def has (d : Dict α) (key : String) : Bool :=
  (Dict.get? d key).isSome

/-- The value under `key` becomes `value`; a new key goes to the end. -/
def insert (d : Dict α) (key : String) (value : α) : Dict α :=
  match d with
  | [] => [(key, value)]
  | (k, v) :: rest => if k = key then (k, value) :: rest else (k, v) :: insert rest key value

/-- The entries without the one under `key`. -/
def erase (d : Dict α) (key : String) : Dict α :=
  match d with
  | [] => []
  | (k, v) :: rest => if k = key then rest else (k, v) :: erase rest key

/-- The keys in order. -/
def keys (d : Dict α) : List String :=
  d.map Prod.fst

/-- The entries, one after the other, inserted into `d`. -/
def insertAll (d : Dict α) (entries : List (String × α)) : Dict α :=
  entries.foldl (fun acc e => Dict.insert acc e.1 e.2) d

/-- The dictionary of a list of entries: a repeated key keeps its first position and its last
value. -/
def ofEntries (entries : List (String × α)) : Dict α :=
  Dict.insertAll [] entries

/-- No two entries have the same key. -/
def Distinct (d : Dict α) : Prop :=
  (Dict.keys d).Nodup

@[simp] theorem get?_nil (key : String) : Dict.get? ([] : Dict α) key = none := rfl

@[simp] theorem get?_cons (k key : String) (v : α) (rest : Dict α) :
    Dict.get? ((k, v) :: rest) key = if k = key then some v else Dict.get? rest key := rfl

/-- Reading back after an insertion. -/
theorem get?_insert (d : Dict α) (key other : String) (value : α) :
    Dict.get? (Dict.insert d key value) other =
      if key = other then some value else Dict.get? d other := by
  induction d with
  | nil => simp [insert]
  | cons e rest ih =>
    obtain ⟨k, v⟩ := e
    unfold insert
    split
    · subst_vars; by_cases h : k = other <;> simp [h]
    · rename_i hk
      by_cases h : k = other
      · subst h; simp [Ne.symm hk]
      · simp [h, ih]

/-- A value found under a key belongs to an entry. -/
theorem mem_of_get? {d : Dict α} {key : String} {v : α} (h : Dict.get? d key = some v) :
    (key, v) ∈ d := by
  induction d with
  | nil => simp at h
  | cons e rest ih =>
    obtain ⟨k, w⟩ := e
    rw [get?_cons] at h
    split at h
    · simp_all
    · exact List.mem_cons_of_mem _ (ih h)

end Dict

end Blokwork
