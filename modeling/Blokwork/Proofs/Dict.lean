import Blokwork.Dict
import Mathlib.Data.List.Nodup

/-!
# Laws of dictionaries

What a look-up finds after an insertion or a removal, and which keys there are then. Insertion
and removal keep the keys distinct (`Distinct.insert`, `Distinct.erase`), and a list of entries
whose keys are distinct is the dictionary it stands for (`ofEntries_of_distinct`).
-/

namespace Blokwork

namespace Dict

variable {α : Type} {d : Dict α} {key other : String} {value : α}

instance (d : Dict α) : Decidable (Dict.Distinct d) := inferInstanceAs (Decidable (List.Nodup _))

theorem keys_nil : Dict.keys ([] : Dict α) = [] := rfl

theorem keys_cons (e : String × α) (rest : Dict α) :
    Dict.keys (e :: rest) = e.1 :: Dict.keys rest := rfl

/-- The keys are what has an entry. -/
theorem has_iff_mem_keys : Dict.has d key = true ↔ key ∈ Dict.keys d := by
  induction d with
  | nil => simp [has, keys_nil]
  | cons e rest ih =>
    obtain ⟨k, v⟩ := e
    by_cases hk : k = key
    · simp [has, keys_cons, hk]
    · simpa [has, keys_cons, hk, Ne.symm hk] using ih

theorem has_eq_false : Dict.has d key = false ↔ Dict.get? d key = none := by
  rw [has, Option.isSome_eq_false_iff, Option.isNone_iff_eq_none]

theorem has_of_get? {v : α} (h : Dict.get? d key = some v) : Dict.has d key = true := by
  rw [has, h, Option.isSome_some]

theorem get?_insert_self (d : Dict α) (key : String) (value : α) :
    Dict.get? (Dict.insert d key value) key = some value := by
  rw [get?_insert, if_pos rfl]

theorem get?_insert_of_ne (value : α) (h : key ≠ other) :
    Dict.get? (Dict.insert d key value) other = Dict.get? d other := by
  rw [get?_insert, if_neg h]

/-- Of two insertions under one key the last one counts. -/
theorem insert_insert (d : Dict α) (key : String) (first second : α) :
    Dict.insert (Dict.insert d key first) key second = Dict.insert d key second := by
  induction d with
  | nil => simp only [insert, ↓reduceIte]
  | cons e rest ih =>
    obtain ⟨k, v⟩ := e
    by_cases hk : k = key
    · simp only [insert, hk, ↓reduceIte]
    · simp only [insert, hk, ↓reduceIte, ih]

/-- Inserting what is there changes nothing. -/
theorem insert_of_get? (h : Dict.get? d key = some value) : Dict.insert d key value = d := by
  induction d with
  | nil => cases h
  | cons e rest ih =>
    obtain ⟨k, v⟩ := e
    by_cases hk : k = key
    · rw [get?_cons, if_pos hk, Option.some.injEq] at h
      rw [insert, if_pos hk, hk, h]
    · rw [get?_cons, if_neg hk] at h
      rw [insert, if_neg hk, ih h]

/-- Removing what is not there changes nothing. -/
theorem erase_of_get?_eq_none (h : Dict.get? d key = none) : Dict.erase d key = d := by
  induction d with
  | nil => rfl
  | cons e rest ih =>
    obtain ⟨k, v⟩ := e
    by_cases hk : k = key
    · simp [hk] at h
    · rw [get?_cons, if_neg hk] at h
      rw [erase, if_neg hk, ih h]

/-- An insertion under a new key is undone by its removal. -/
theorem erase_insert (h : Dict.get? d key = none) (value : α) :
    Dict.erase (Dict.insert d key value) key = d := by
  induction d with
  | nil => simp only [insert, erase, ↓reduceIte]
  | cons e rest ih =>
    obtain ⟨k, v⟩ := e
    by_cases hk : k = key
    · simp [hk] at h
    · rw [get?_cons, if_neg hk] at h
      rw [insert, if_neg hk, erase, if_neg hk, ih h]

/-- What is found first comes first. -/
theorem get?_append (d more : Dict α) (key : String) :
    Dict.get? (d ++ more) key = (Dict.get? d key).or (Dict.get? more key) := by
  induction d with
  | nil => rfl
  | cons e rest ih =>
    obtain ⟨k, v⟩ := e
    by_cases hk : k = key <;> simp [hk, ih]

/-- A removal is about one key. -/
theorem get?_erase_of_ne (h : key ≠ other) :
    Dict.get? (Dict.erase d key) other = Dict.get? d other := by
  induction d with
  | nil => rfl
  | cons e rest ih =>
    obtain ⟨k, v⟩ := e
    by_cases hk : k = key
    · subst hk
      simp [erase, h]
    · simp [erase, hk, ih]

/-- Inserting under a key that is present keeps the keys. -/
theorem keys_insert_of_mem (value : α) (h : key ∈ Dict.keys d) :
    Dict.keys (Dict.insert d key value) = Dict.keys d := by
  induction d with
  | nil => cases h
  | cons e rest ih =>
    obtain ⟨k, v⟩ := e
    by_cases hk : k = key
    · simp [insert, hk, keys_cons]
    · have hrest : key ∈ Dict.keys rest := by simpa [keys_cons, Ne.symm hk] using h
      simp [insert, hk, keys_cons, ih hrest]

/-- Inserting under a new key puts the entry at the end. -/
theorem insert_of_not_mem (value : α) (h : key ∉ Dict.keys d) :
    Dict.insert d key value = d ++ [(key, value)] := by
  induction d with
  | nil => rfl
  | cons e rest ih =>
    simp only [keys_cons, List.mem_cons, not_or] at h
    simp [insert, Ne.symm h.1, ih h.2]

theorem keys_insert_of_not_mem (value : α) (h : key ∉ Dict.keys d) :
    Dict.keys (Dict.insert d key value) = Dict.keys d ++ [key] := by
  rw [insert_of_not_mem value h, keys, List.map_append]
  rfl

/-- A key is put behind the others unless it is among them. -/
theorem keys_insert (d : Dict α) (key : String) (value : α) :
    Dict.keys (Dict.insert d key value) =
      Dict.keys d ++ if Dict.has d key then [] else [key] := by
  by_cases hmem : key ∈ Dict.keys d
  · rw [keys_insert_of_mem value hmem, has_iff_mem_keys.2 hmem, if_pos rfl, List.append_nil]
  · rw [keys_insert_of_not_mem value hmem, if_neg fun h => hmem (has_iff_mem_keys.1 h)]

/-- Dictionaries with the same keys have the same entries as far as keys go. -/
theorem has_congr {β : Type} {d : Dict α} {other : Dict β}
    (h : Dict.keys d = Dict.keys other) (key : String) : Dict.has d key = Dict.has other key := by
  rw [Bool.eq_iff_iff, has_iff_mem_keys, has_iff_mem_keys, h]

/-- A removed key is gone. -/
theorem get?_erase_self (h : Dict.Distinct d) (key : String) :
    Dict.get? (Dict.erase d key) key = none := by
  induction d with
  | nil => rfl
  | cons e rest ih =>
    obtain ⟨k, v⟩ := e
    rw [Distinct, keys_cons, List.nodup_cons] at h
    by_cases hk : k = key
    · subst hk
      simp only [erase, ↓reduceIte]
      rw [← has_eq_false, ← Bool.not_eq_true, has_iff_mem_keys]
      exact h.1
    · simp [erase, hk, ih h.2]

/-- Insertion keeps the keys distinct. -/
theorem Distinct.insert (h : Dict.Distinct d) (key : String) (value : α) :
    Dict.Distinct (Dict.insert d key value) := by
  by_cases hmem : key ∈ Dict.keys d
  · rwa [Distinct, keys_insert_of_mem value hmem]
  · have hdisjoint : List.Disjoint (Dict.keys d) [key] := by simpa using hmem
    rw [Distinct, insert_of_not_mem value hmem, keys, List.map_append]
    exact List.Nodup.append h (List.nodup_singleton key) hdisjoint

/-- What is there after an insertion was inserted, or was there before. -/
theorem mem_of_mem_insert {e : String × α} (h : e ∈ Dict.insert d key value) :
    e = (key, value) ∨ e ∈ d := by
  induction d with
  | nil => simpa [insert] using h
  | cons first rest ih =>
    obtain ⟨k, v⟩ := first
    by_cases hk : k = key
    · simp only [insert, hk, ↓reduceIte, List.mem_cons] at h
      exact h.imp_right (List.mem_cons_of_mem _)
    · simp only [insert, hk, ↓reduceIte, List.mem_cons] at h
      rcases h with rfl | h
      · exact .inr List.mem_cons_self
      · exact (ih h).imp_right (List.mem_cons_of_mem _)

/-- What is left after a removal was there before. -/
theorem erase_sublist (d : Dict α) (key : String) : (Dict.erase d key).Sublist d := by
  induction d with
  | nil => exact List.Sublist.slnil
  | cons e rest ih =>
    obtain ⟨k, v⟩ := e
    by_cases hk : k = key
    · simp [erase, hk]
    · simpa [erase, hk] using ih.cons_cons (k, v)

/-- What is found comes first, up to the order of the entries. -/
theorem perm_of_get? (h : Dict.get? d key = some value) :
    List.Perm d ((key, value) :: Dict.erase d key) := by
  induction d with
  | nil => cases h
  | cons e rest ih =>
    obtain ⟨k, v⟩ := e
    by_cases hk : k = key
    · subst hk
      rw [get?_cons, if_pos rfl, Option.some.injEq] at h
      subst h
      rw [erase, if_pos rfl]
    · rw [get?_cons, if_neg hk] at h
      rw [erase, if_neg hk]
      exact ((ih h).cons (k, v)).trans (.swap (key, value) (k, v) _)

/-- What is inserted comes first, up to the order of the entries. -/
theorem insert_perm (d : Dict α) (key : String) (value : α) :
    List.Perm (Dict.insert d key value) ((key, value) :: Dict.erase d key) := by
  induction d with
  | nil => exact .refl _
  | cons e rest ih =>
    obtain ⟨k, v⟩ := e
    by_cases hk : k = key
    · rw [insert, if_pos hk, erase, if_pos hk, hk]
    · rw [insert, if_neg hk, erase, if_neg hk]
      exact (ih.cons (k, v)).trans (.swap (key, value) (k, v) _)

/-- A value is replaced where its key stands first. -/
theorem insert_eq_set {old : α} (h : Dict.get? d key = some old) (value : α) :
    d[(Dict.keys d).idxOf key]? = some (key, old) ∧
      Dict.insert d key value = d.set ((Dict.keys d).idxOf key) (key, value) := by
  induction d with
  | nil => cases h
  | cons e rest ih =>
    obtain ⟨k, v⟩ := e
    by_cases hk : k = key
    · subst hk
      rw [get?_cons, if_pos rfl, Option.some.injEq] at h
      subst h
      rw [keys_cons, List.idxOf_cons_self, insert, if_pos rfl]
      exact ⟨rfl, rfl⟩
    · rw [get?_cons, if_neg hk] at h
      obtain ⟨hget, hset⟩ := ih h
      rw [keys_cons, List.idxOf_cons_ne _ hk, insert, if_neg hk, hset]
      exact ⟨hget, rfl⟩

/-- Distinct keys have one entry each. -/
theorem Distinct.filter_key (h : Dict.Distinct d) (hget : Dict.get? d key = some value) :
    d.filter (fun e => e.1 = key) = [(key, value)] := by
  induction d with
  | nil => cases hget
  | cons e rest ih =>
    obtain ⟨k, v⟩ := e
    rw [Distinct, keys_cons, List.nodup_cons] at h
    by_cases hk : k = key
    · subst hk
      have hrest : rest.filter (fun e => e.1 = k) = [] := by
        rw [List.filter_eq_nil_iff]
        intro e he
        rw [decide_eq_true_eq]
        rintro rfl
        have hkeys : e.1 ∈ Dict.keys rest := List.mem_map_of_mem he
        exact h.1 hkeys
      simpa [hrest] using hget
    · have hget : Dict.get? rest key = some value := by simpa [hk] using hget
      simp [hk, ih h.2 hget]

/-- What stands under a key is what is found there. -/
theorem Distinct.eq_of_mem (h : Dict.Distinct d) (hget : Dict.get? d key = some value) {other : α}
    (hmem : (key, other) ∈ d) : other = value := by
  have hfilter : (key, other) ∈ d.filter (fun e => e.1 = key) :=
    List.mem_filter.2 ⟨hmem, decide_eq_true rfl⟩
  rw [h.filter_key hget, List.mem_singleton] at hfilter
  exact (Prod.mk.inj hfilter).2

/-- What stands under a key is found there. -/
theorem Distinct.get?_of_mem (h : Dict.Distinct d) {e : String × α} (hmem : e ∈ d) :
    Dict.get? d e.1 = some e.2 := by
  have hhas : Dict.has d e.1 = true := has_iff_mem_keys.2 (List.mem_map_of_mem hmem)
  obtain ⟨found, hfound⟩ := Option.isSome_iff_exists.1 hhas
  rw [hfound, h.eq_of_mem hfound hmem]

/-- Removal keeps the keys distinct. -/
theorem Distinct.erase (h : Dict.Distinct d) (key : String) :
    Dict.Distinct (Dict.erase d key) :=
  List.Nodup.sublist ((erase_sublist d key).map Prod.fst) h

theorem insertAll_of_disjoint {entries : List (String × α)} :
    ∀ {d : Dict α}, (Dict.keys (d ++ entries)).Nodup →
      Dict.insertAll d entries = d ++ entries := by
  induction entries with
  | nil => intro d _; simp [insertAll]
  | cons e rest ih =>
    intro d h
    have hnew : e.1 ∉ Dict.keys d := by
      intro hmem
      simp only [Dict.keys, List.map_append, List.map_cons, List.nodup_append] at h
      exact h.2.2 _ hmem _ (by simp) rfl
    have hins := insert_of_not_mem e.2 hnew
    have htail : Dict.insertAll (d ++ [e]) rest = d ++ [e] ++ rest := ih (by simpa using h)
    simpa [insertAll, hins] using htail

/-- Entries with distinct keys are a dictionary as they are. -/
theorem ofEntries_of_distinct {entries : List (String × α)} (h : Dict.Distinct entries) :
    Dict.ofEntries entries = entries :=
  insertAll_of_disjoint (d := []) h

/-- Keys stay distinct under any number of insertions. -/
theorem Distinct.insertAll {d : Dict α} (h : Dict.Distinct d) (entries : List (String × α)) :
    Dict.Distinct (Dict.insertAll d entries) := by
  induction entries generalizing d with
  | nil => exact h
  | cons e rest ih => exact ih (h.insert e.1 e.2)

theorem mem_of_mem_insertAll {entries : List (String × α)} {e : String × α} :
    ∀ {d : Dict α}, e ∈ Dict.insertAll d entries → e ∈ d ∨ e ∈ entries := by
  induction entries with
  | nil => exact .inl
  | cons first rest ih =>
    intro d h
    rcases ih (d := Dict.insert d first.1 first.2) h with h | h
    · rcases mem_of_mem_insert h with rfl | h
      · exact .inr List.mem_cons_self
      · exact .inl h
    · exact .inr (List.mem_cons_of_mem _ h)

/-- The dictionary of any entries has distinct keys. -/
theorem distinct_ofEntries (entries : List (String × α)) :
    Dict.Distinct (Dict.ofEntries entries) :=
  Distinct.insertAll (d := []) List.nodup_nil entries

theorem mem_of_mem_ofEntries {entries : List (String × α)} {e : String × α}
    (h : e ∈ Dict.ofEntries entries) : e ∈ entries :=
  (mem_of_mem_insertAll h).resolve_left List.not_mem_nil

/-! ## Related dictionaries -/

/-- The two have the same keys in the same order, and related values under each. -/
def Related {β : Type} (R : α → β → Prop) (d : Dict α) (d' : Dict β) : Prop :=
  List.Forall₂ (fun e e' => e.1 = e'.1 ∧ R e.2 e'.2) d d'

namespace Related

variable {β : Type} {R : α → β → Prop} {d' : Dict β} {value' : β}

/-- What is found under a key is related. -/
theorem get? (h : Dict.Related R d d') (key : String) :
    Option.Rel R (Dict.get? d key) (Dict.get? d' key) := by
  induction h with
  | nil => exact .none
  | @cons e e' rest rest' he _ ih =>
    obtain ⟨k, v⟩ := e
    obtain ⟨k', v'⟩ := e'
    obtain ⟨rfl, hv⟩ := he
    by_cases hk : k = key
    · simpa only [get?_cons, hk, ↓reduceIte] using .some hv
    · simpa only [get?_cons, hk, ↓reduceIte] using ih

theorem insert (h : Dict.Related R d d') (key : String) (hvalue : R value value') :
    Dict.Related R (Dict.insert d key value) (Dict.insert d' key value') := by
  induction h with
  | nil => exact .cons ⟨rfl, hvalue⟩ .nil
  | @cons e e' rest rest' he hrest ih =>
    obtain ⟨k, v⟩ := e
    obtain ⟨k', v'⟩ := e'
    obtain ⟨rfl, hv⟩ := he
    by_cases hk : k = key
    · simpa only [Dict.insert, hk, ↓reduceIte] using .cons ⟨rfl, hvalue⟩ hrest
    · simpa only [Dict.insert, hk, ↓reduceIte] using .cons ⟨rfl, hv⟩ ih

theorem erase (h : Dict.Related R d d') (key : String) :
    Dict.Related R (Dict.erase d key) (Dict.erase d' key) := by
  induction h with
  | nil => exact .nil
  | @cons e e' rest rest' he hrest ih =>
    obtain ⟨k, v⟩ := e
    obtain ⟨k', v'⟩ := e'
    obtain ⟨rfl, hv⟩ := he
    by_cases hk : k = key
    · simp only [Dict.erase, hk, ↓reduceIte]
      exact hrest
    · simpa only [Dict.erase, hk, ↓reduceIte] using .cons ⟨rfl, hv⟩ ih

/-- A dictionary is related to one other at most when its values are. -/
theorem unique {more : Dict β} (hR : ∀ {v v' w'}, R v v' → R v w' → v' = w')
    (h : Dict.Related R d d') (hmore : Dict.Related R d more) : d' = more := by
  induction h generalizing more with
  | nil =>
    cases hmore
    rfl
  | cons he _ ih =>
    cases hmore with
    | cons hf hrest =>
      rw [ih hrest, Prod.ext (he.1.symm.trans hf.1) (hR he.2 hf.2)]

end Related

end Dict

end Blokwork
