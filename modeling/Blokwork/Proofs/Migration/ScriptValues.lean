import Mathlib
import Blokwork.Migration.ScriptFile
import Blokwork.Proofs.Json.Record
import Blokwork.Proofs.Toml.Keys

/-!
# Values of scripts

A script is written in TOML and writes JSON. `Toml.KeptAs` says when a JSON value says the same as
a TOML value, kind by kind: scalars as scalars, arrays item by item, tables key by key. The content
that an operation writes is made of the one value that the script gives it
(`ScriptOp.exists_value_of_ofDatum`), and it says the same unless there is a date or a time in it:
a moment becomes an object with a single key (`Toml.keptAs_toJson_iff`). So the operations of a
script write what the script says if and only if none of their values holds a moment
(`Script.values_kept_iff`).
-/

namespace Blokwork

/-- The value is no array and no object. -/
def Json.isScalar : Json → Bool
  | .arr _ | .obj _ => false
  | _ => true

namespace Toml

/-! ## Kinds of values -/

mutual

/-- The JSON value says what the TOML value says: strings, booleans, integers and finite numbers
are the same, other numbers and moments are scalars, arrays have as many items, and tables have the
same keys. -/
def KeptAs : Toml → Json → Prop
  | .str s, j => j = .str s
  | .int n, j => j = .int n
  | .real (.finite x), j => j = .num (.real x)
  | .real _, j => j.isScalar = true
  | .bool b, j => j = .bool b
  | .moment _, j => j.isScalar = true
  | .arr xs, j => ∃ ys, j = .arr ys ∧ ItemsKeptAs xs ys
  | .table ms, j => ∃ ns, j = .obj ns ∧ MembersKeptAs ms ns

/-- `KeptAs` item by item. -/
def ItemsKeptAs : List Toml → List Json → Prop
  | [], ys => ys = []
  | x :: xs, ys => ∃ y rest, ys = y :: rest ∧ KeptAs x y ∧ ItemsKeptAs xs rest

/-- `KeptAs` member by member, under the same keys. -/
def MembersKeptAs : List (String × Toml) → List (String × Json) → Prop
  | [], ns => ns = []
  | (k, x) :: ms, ns => ∃ y rest, ns = (k, y) :: rest ∧ KeptAs x y ∧ MembersKeptAs ms rest

end

mutual

/-- There is a date or a time in the value. -/
def holdsMoment : Toml → Bool
  | .moment _ => true
  | .arr xs => itemsHoldMoment xs
  | .table ms => membersHoldMoment ms
  | _ => false

/-- `holdsMoment` for one of the items. -/
def itemsHoldMoment : List Toml → Bool
  | [] => false
  | x :: xs => holdsMoment x || itemsHoldMoment xs

/-- `holdsMoment` for one of the members. -/
def membersHoldMoment : List (String × Toml) → Bool
  | [] => false
  | (_, x) :: ms => holdsMoment x || membersHoldMoment ms

end

mutual

/-- A value becomes JSON that says the same unless there is a moment in it. -/
theorem keptAs_toJson_iff : ∀ v : Toml, v.KeptAs v.toJson ↔ v.holdsMoment = false
  | .str _ | .int _ | .bool _ | .real (.finite _) => iff_of_true rfl rfl
  | .real (.infinite _) | .real .nan => iff_of_true rfl rfl
  | .moment _ => iff_of_false Bool.false_ne_true nofun
  | .arr xs => by
    rw [KeptAs, toJson, holdsMoment, ← itemsKeptAs_toJson_iff xs]
    constructor
    · rintro ⟨_, ⟨⟩, h⟩
      exact h
    · exact fun h => ⟨_, rfl, h⟩
  | .table ms => by
    rw [KeptAs, toJson, holdsMoment, ← membersKeptAs_toJson_iff ms]
    constructor
    · rintro ⟨_, ⟨⟩, h⟩
      exact h
    · exact fun h => ⟨_, rfl, h⟩

theorem itemsKeptAs_toJson_iff : ∀ xs : List Toml,
    ItemsKeptAs xs (itemsToJson xs) ↔ itemsHoldMoment xs = false
  | [] => iff_of_true rfl rfl
  | x :: xs => by
    rw [ItemsKeptAs, itemsToJson, itemsHoldMoment, Bool.or_eq_false_iff, ← keptAs_toJson_iff x,
      ← itemsKeptAs_toJson_iff xs]
    constructor
    · rintro ⟨_, _, ⟨⟩, hx, hxs⟩
      exact ⟨hx, hxs⟩
    · exact fun h => ⟨_, _, rfl, h⟩

theorem membersKeptAs_toJson_iff : ∀ ms : List (String × Toml),
    MembersKeptAs ms (membersToJson ms) ↔ membersHoldMoment ms = false
  | [] => iff_of_true rfl rfl
  | (k, x) :: ms => by
    rw [MembersKeptAs, membersToJson, membersHoldMoment, Bool.or_eq_false_iff,
      ← keptAs_toJson_iff x, ← membersKeptAs_toJson_iff ms]
    constructor
    · rintro ⟨_, _, ⟨⟩, hx, hms⟩
      exact ⟨hx, hms⟩
    · exact fun h => ⟨_, _, rfl, h⟩

end

end Toml

/-! ## Values that a script gives -/

namespace ScriptOp

/-- The items of a script file, one for each operation. -/
def itemsIn : Toml → List Toml
  | .table ms => ((Dict.get? ms "ops").map Toml.items).getD []
  | _ => []

/-- The value that an item gives to its operation: the one under `value`, or in an item that is an
array the one behind the name of the operation and the field. -/
def valueIn? : Toml → Option Toml
  | .table ms => Dict.get? ms "value"
  | .arr (_ :: _ :: v :: _) => some v
  | _ => none

section Drafts

variable {draft draft' : Draft} {form : Form Toml}

/-- The draft after one more member. -/
def Form.enterMember (form : Form Toml) (draft : Draft) : String × Toml → Shaped Draft
  | (key, a) =>
    match form.arguments.find? fun f => f.name = key with
    | some f => f.enter a draft
    | none => .error (.unknownField key (form.arguments.map (·.name)))

/-- The members next to the name are entered one by one, and none that is required is missing. -/
theorem Form.exists_of_ofMembers {members : Dict Toml} {op : ScriptOp}
    (h : form.ofMembers members = .ok op) :
    ∃ draft, members.foldlM form.enterMember {} = .ok draft ∧ op = form.make draft ∧
      ∀ f ∈ form.arguments, f.required = true → Dict.has members f.name = true := by
  obtain ⟨draft, hdraft, h⟩ := exists_of_bind_eq_ok h
  have henter : members.foldlM form.enterMember {} = .ok draft := by
    rw [← hdraft]
    congr
    funext draft ⟨key, a⟩
    simp only [enterMember]
    cases List.find? (fun f => f.name = key) form.arguments <;> rfl
  split at h
  · cases h
  · next hpresent =>
    refine ⟨draft, henter, (Except.ok.inj h).symm, fun f hf hrequired => ?_⟩
    simpa [hrequired] using List.find?_eq_none.1 hpresent f hf

theorem value_of_enterMember (hform : form.arguments = [fieldArgument, valueArgument Toml.toJson])
    {m : String × Toml} (h : form.enterMember draft m = .ok draft') :
    draft'.value = if m.1 = "value" then m.2.toJson else draft.value := by
  obtain ⟨key, a⟩ := m
  rw [Form.enterMember, hform] at h
  by_cases hvalue : key = "value"
  · subst hvalue
    cases h
    rfl
  rw [if_neg hvalue]
  by_cases hfield : key = "field"
  · subst hfield
    obtain ⟨field, -, heq⟩ := exists_of_bind_eq_ok h
    cases heq
    rfl
  · have hnone : [fieldArgument, valueArgument Toml.toJson].find?
        (fun f : RecordField Toml Draft => f.name = key) = none := by
      simp [fieldArgument, valueArgument, Ne.symm hvalue, Ne.symm hfield]
    simp only [hnone] at h
    cases h

/-- The value of the draft is what stands under `value`. -/
theorem value_of_enterMembers {members : Dict Toml} (hkeys : Dict.Distinct members)
    (hform : form.arguments = [fieldArgument, valueArgument Toml.toJson])
    (h : members.foldlM form.enterMember draft = .ok draft') :
    draft'.value = ((Dict.get? members "value").map Toml.toJson).getD draft.value := by
  induction members generalizing draft with
  | nil =>
    cases h
    rfl
  | cons m members ih =>
    rw [Dict.Distinct, Dict.keys_cons, List.nodup_cons] at hkeys
    rw [List.foldlM_cons] at h
    obtain ⟨next, henter, h⟩ := exists_of_bind_eq_ok h
    rw [ih hkeys.2 h, value_of_enterMember hform henter, Dict.get?_cons]
    split
    · next hvalue =>
      rw [hvalue, ← Dict.has_iff_mem_keys, Bool.not_eq_true, Dict.has_eq_false] at hkeys
      rw [hkeys.1]
      rfl
    · rfl

/-- Operations with a value read it from the argument of that name. -/
theorem arguments_of_value {tag : Toml} {draft : Draft} {value : Json}
    (hform : formOf Toml.toJson tag = .ok form) (h : (form.make draft).value? = some value) :
    form.arguments = [fieldArgument, valueArgument Toml.toJson] ∧ value = draft.value := by
  unfold formOf at hform
  split at hform
  · split at hform
    · next name _ found hfound =>
      cases hform
      have hmem := List.mem_of_find?_eq_some hfound
      simp only [forms, List.mem_cons, List.not_mem_nil, or_false] at hmem
      rcases hmem with rfl | rfl | rfl | rfl | rfl
      case inl | inr.inr.inr.inl => exact ⟨rfl, (Option.some.inj h).symm⟩
      all_goals cases h
    · cases hform
  · cases hform

end Drafts

/-- An operation that writes a value writes the one that its item gives, as JSON. -/
theorem exists_value_of_ofDatum {item : Toml} {op : ScriptOp} (hkeys : item.DistinctKeys)
    (h : ofDatum Toml.toJson item = .ok op) {value : Json} (hvalue : op.value? = some value) :
    ∃ v, valueIn? item = some v ∧ value = v.toJson := by
  cases item with
  | str | int | real | bool => cases h
  | moment m => cases h
  | table ms =>
    obtain _ | _ | _ | _ | _ | _ | ⟨hdistinct, -⟩ := hkeys
    simp only [ofDatum, Datum.found, Toml.found, Datum.members, Toml.members] at h
    split at h
    · cases h
    obtain ⟨form, hform, h⟩ := exists_of_bind_eq_ok h
    obtain ⟨draft, hdraft, rfl, hpresent⟩ := Form.exists_of_ofMembers h
    obtain ⟨harguments, rfl⟩ := arguments_of_value hform hvalue
    have hhas := hpresent (valueArgument Toml.toJson) (by simp [harguments]) rfl
    obtain ⟨v, hv⟩ := Option.isSome_iff_exists.1 hhas
    refine ⟨v, ?_, ?_⟩
    · exact (Dict.get?_erase_of_ne (by decide)).symm.trans hv
    · rw [value_of_enterMembers (hdistinct.erase "op") harguments hdraft]
      exact congrArg (fun found => (found.map Toml.toJson).getD .null) hv
  | arr items =>
    simp only [ofDatum, Datum.found, Toml.found, Datum.items, Toml.items] at h
    split at h
    · cases h
    next tag rest =>
    obtain ⟨form, hform, h⟩ := exists_of_bind_eq_ok h
    obtain ⟨draft, hdraft, h⟩ := exists_of_bind_eq_ok h
    cases h
    obtain ⟨harguments, rfl⟩ := arguments_of_value hform hvalue
    rw [harguments] at hdraft
    match rest with
    | [] => cases hdraft
    | [_] | _ :: _ :: _ :: _ =>
      obtain ⟨_, -, hdraft⟩ := exists_of_bind_eq_ok hdraft
      cases hdraft
    | [_, v] =>
      obtain ⟨_, hfield, hdraft⟩ := exists_of_bind_eq_ok hdraft
      cases hdraft
      exact ⟨v, rfl, rfl⟩

/-- The operations of a file are read from what stands under `ops`. -/
theorem enterMembers_fileShape {ms : Dict Toml} (hkeys : Dict.Distinct ms)
    {draft ops : List ScriptOp} (h : fileShape.enterMembers draft ms = .ok ops) :
    match Dict.get? ms "ops" with
    | none => ops = draft
    | some listed => listOf Toml.toJson listed = .ok ops := by
  induction ms generalizing draft with
  | nil => exact (Except.ok.inj h).symm
  | cons m ms ih =>
    obtain ⟨key, listed⟩ := m
    rw [Dict.Distinct, Dict.keys_cons, List.nodup_cons] at hkeys
    rw [RecordShape.enterMembers, List.foldlM_cons] at h
    obtain ⟨next, henter, h⟩ := exists_of_bind_eq_ok h
    have hrest := ih hkeys.2 h
    by_cases hops : key = "ops"
    · subst hops
      rw [← Dict.has_iff_mem_keys, Bool.not_eq_true, Dict.has_eq_false] at hkeys
      rw [hkeys.1] at hrest
      rw [Dict.get?_cons, if_pos rfl, hrest]
      exact henter
    · have hnone : fileShape.field? key = none := by
        simp [RecordShape.field?, fileShape, Ne.symm hops]
      simp only [hnone] at henter
      cases henter
      rwa [Dict.get?_cons, if_neg hops]

theorem ops_of_read {ms : Dict Toml} (hkeys : Dict.Distinct ms) {ops : List ScriptOp}
    (h : fileShape.read [] (.table ms) = .ok ops) :
    (itemsIn (.table ms)).mapM (ofDatum Toml.toJson) = .ok ops := by
  obtain ⟨read, hread, heq⟩ := exists_of_bind_eq_ok h
  cases heq
  have hops := enterMembers_fileShape hkeys hread
  rw [itemsIn]
  split at hops
  · next hnone =>
    rw [hnone, hops]
    rfl
  · next listed hlisted =>
    rw [hlisted]
    rw [listOf, Datum.asList] at hops
    split at hops
    · exact hops
    · cases hops

end ScriptOp

/-- An operation with a value writes nothing else; where it writes nothing, the field has a value
already. -/
theorem ScriptOp.apply_of_value {op : ScriptOp} {value : Json} (h : op.value? = some value)
    (fallback : String) (blok : Dict Json) :
    op.apply fallback blok = Dict.insert blok (op.field?.getD fallback) value ∨
      op = .default op.field? value ∧ op.apply fallback blok = blok ∧
        ∃ old ∈ Dict.get? blok (op.field?.getD fallback), old.isNull = false := by
  cases op with
  | remove | rename | wrapInArray => cases h
  | set field v =>
    cases h
    exact .inl rfl
  | default field v =>
    cases h
    cases hold : Dict.get? blok (field.getD fallback) with
    | none =>
      left
      simp only [apply, field?, hold]
    | some old =>
      cases hnull : old.isNull with
      | true =>
        left
        simp only [apply, field?, hold, hnull, if_true]
      | false =>
        right
        refine ⟨rfl, ?_, old, hold, hnull⟩
        simp only [apply, field?, hold, hnull, Bool.false_eq_true, if_false]

/-- The operations of a script are read from the items of its file. -/
theorem Script.exists_file_of_parse {target : Target} {text : String} {script : Script}
    (h : Script.parse target text = .ok script) :
    ∃ file, Toml.parse? text = some file ∧ file.DistinctKeys ∧
      (ScriptOp.itemsIn file).mapM (ScriptOp.ofDatum Toml.toJson) = .ok script.ops := by
  obtain ⟨ops, hops, rfl⟩ := exists_of_map_eq_ok h
  rw [ScriptOp.listOfFile, Toml.decodeIn, Toml.decode] at hops
  cases hfile : Toml.parse? text with
  | none =>
    rw [hfile] at hops
    cases hops
  | some file =>
    obtain ⟨ms, rfl, hkeys⟩ := Toml.exists_table_of_parse hfile
    obtain _ | _ | _ | _ | _ | _ | ⟨hdistinct, -⟩ := id hkeys
    refine ⟨_, rfl, hkeys, ScriptOp.ops_of_read hdistinct ?_⟩
    rw [hfile] at hops
    cases hread : ScriptOp.fileShape.read [] (.table ms) with
    | error e =>
      simp only [hread] at hops
      cases hops
    | ok read =>
      simp only [hread] at hops
      cases hops
      rfl

/-- The items of a file have distinct keys. -/
theorem ScriptOp.distinctKeys_of_mem_itemsIn {file item : Toml} (h : file.DistinctKeys)
    (hitem : item ∈ itemsIn file) : item.DistinctKeys := by
  cases h with
  | str | int | real | bool | moment | arr => cases hitem
  | table _ h =>
    rw [itemsIn] at hitem
    cases hlisted : Dict.get? _ "ops" with
    | none =>
      rw [hlisted] at hitem
      cases hitem
    | some listed =>
      rw [hlisted] at hitem
      cases h _ (Dict.mem_of_get? hlisted) with
      | str | int | real | bool | moment | table => cases hitem
      | arr h => exact h item hitem

/-- **The operations of a script write what the script says, but for dates and times.** There is
one operation for each item of the script, in order. The value that an operation writes is the one
that its item gives: as JSON that says the same, if and only if there is no date or time in it.
Nothing else is written, and the value is written as it is, unless a `default` finds one
already. -/
theorem Script.values_kept_iff {target : Target} {text : String} {script : Script}
    (h : Script.parse target text = .ok script) :
    ∃ file, Toml.parse? text = some file ∧ List.Forall₂ (fun item op =>
      ∀ value ∈ op.value?,
        (∃ v ∈ ScriptOp.valueIn? item, v.KeptAs value ↔ v.holdsMoment = false) ∧
        ∀ blok : Dict Json,
          op.apply target.field blok =
            Dict.insert blok (op.field?.getD target.field) value ∨
          op = .default op.field? value ∧ op.apply target.field blok = blok ∧
            ∃ old ∈ Dict.get? blok (op.field?.getD target.field), old.isNull = false)
      (ScriptOp.itemsIn file) script.ops := by
  obtain ⟨file, hfile, hkeys, hops⟩ := Script.exists_file_of_parse h
  have hitems : ∀ item ∈ ScriptOp.itemsIn file, item.DistinctKeys :=
    fun item => ScriptOp.distinctKeys_of_mem_itemsIn hkeys
  have hread := (List.forall₂_and_left _ _).2 ⟨hitems, forall₂_of_mapM_eq_ok hops⟩
  refine ⟨file, hfile, hread.imp fun item op hitem value hvalue => ⟨?_, ?_⟩⟩
  · obtain ⟨v, hv, rfl⟩ := ScriptOp.exists_value_of_ofDatum hitem.1 hitem.2 hvalue
    exact ⟨v, hv, v.keptAs_toJson_iff⟩
  · exact ScriptOp.apply_of_value hvalue target.field

namespace Scheduled

/-- A script with a date in a list, and with a value that is a table. -/
def listed : String :=
  "ops = [['set', 'day', [1979-05-27]],\n"
    ++ "  \x7bop = 'default', value = \x7btags = ['a'], size = 2\x7d\x7d]"

/-- The operations of that script. -/
def listedOps : List ScriptOp := [
  .set (some "day") (.arr [.obj [(Toml.momentKey, .str "1979-05-27")]]),
  .default none (.obj [("size", .int 2), ("tags", .arr [.str "a"])])]

/-- A script that sets a field to a date. -/
def text : String := "[[ops]]\nop = \"set\"\nvalue = 1979-05-27\n"

/-- The date of the script. -/
def day : Toml.Moment := { date := some ⟨1979, 5, 27⟩ }

/-- The first operation writes a list of an object for a list of a date, and the second one what
the script says. -/
theorem values_kept_listed :
    Script.parse ⟨"page", "size"⟩ listed = .ok ⟨⟨"page", "size"⟩, listedOps⟩ ∧
    ∃ file, Toml.parse? listed = some file ∧ List.Forall₂ (fun item op =>
      ∀ value ∈ op.value?,
        (∃ v ∈ ScriptOp.valueIn? item, v.KeptAs value ↔ v.holdsMoment = false) ∧
        ∀ blok : Dict Json,
          op.apply "size" blok = Dict.insert blok (op.field?.getD "size") value ∨
          op = .default op.field? value ∧ op.apply "size" blok = blok ∧
            ∃ old ∈ Dict.get? blok (op.field?.getD "size"), old.isNull = false)
      (ScriptOp.itemsIn file) listedOps := by
  have hparse : Script.parse ⟨"page", "size"⟩ listed = .ok ⟨⟨"page", "size"⟩, listedOps⟩ := by
    cbv
  exact ⟨hparse, Script.values_kept_iff hparse⟩

/-- The script gives a date, and its operation writes an object. -/
theorem date_not_kept :
    Toml.parse? text =
      some (.table [("ops", .arr [.table [("op", .str "set"), ("value", .moment day)]])]) ∧
    (Script.parse ⟨"page", "day"⟩ text).map (·.applyToBlok [("component", .str "page")]) =
      .ok [("component", .str "page"), ("day", .obj [(Toml.momentKey, .str "1979-05-27")])] ∧
    ¬ (Toml.moment day).KeptAs (.obj [(Toml.momentKey, .str "1979-05-27")]) :=
  ⟨by cbv, by cbv, Bool.false_ne_true⟩

end Scheduled

end Blokwork
