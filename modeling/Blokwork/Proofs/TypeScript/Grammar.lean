import Blokwork.Proofs.TypeScript.Token
import Blokwork.TypeScript.TypeExpr

/-!
# The grammar of types

`Derives` is the grammar of type expressions over tokens, with a level for each strength of
binding: a union binds weakest, then an intersection, then the brackets of an array, and a primary
type strongest. A union is a chain of intersections, an intersection a chain of array types, so a
derivation leaves no choice of what binds what.

A derivation is a tree of type expressions. Trees that differ by parentheses around a part, or by
unions inside unions and intersections inside intersections, denote one type: `TypeExpr.normal`
flattens chains, drops chains of one, and drops the descriptions of properties. `Reads` is
derivation up to normal forms; it has one rule for each form of type.
-/

namespace Blokwork.TypeScript

/-! ## Operators -/

/-- What combines types into one. -/
inductive Operator where
  | or
  | and
deriving DecidableEq, Repr

/-- How strongly the parts of a type are bound. -/
inductive Precedence where
  | union
  | intersection
  | suffixed
  | primary
deriving DecidableEq, Repr

namespace Operator

/-- The mark between the parts. -/
def mark : Operator → Char
  | or => '|'
  | and => '&'

/-- The type of some parts. -/
def combine : Operator → List TypeExpr → TypeExpr
  | or => .union
  | and => .intersection

/-- The level of a chain. -/
def level : Operator → Precedence
  | or => .union
  | and => .intersection

/-- The level of the parts of a chain. -/
def operand : Operator → Precedence
  | or => .intersection
  | and => .suffixed

theorem level_injective {o p : Operator} (h : o.level = p.level) : o = p := by
  cases o <;> cases p <;> first | rfl | cases h

/-- The parts of a chain; any other type is one part. -/
def split : Operator → TypeExpr → List TypeExpr
  | or, .union ms => ms
  | and, .intersection ms => ms
  | _, t => [t]

/-- A chain of parts, unless there is only one. -/
def merge (op : Operator) : List TypeExpr → TypeExpr
  | [t] => t
  | ts => op.combine ts

@[simp] theorem split_combine (op : Operator) (ms : List TypeExpr) :
    op.split (op.combine ms) = ms := by
  cases op <;> rfl

theorem split_cases (op : Operator) (t : TypeExpr) :
    (∃ ms, t = op.combine ms) ∨ op.split t = [t] := by
  cases op <;> cases t <;> first | exact .inl ⟨_, rfl⟩ | exact .inr rfl

theorem merge_of_length {op : Operator} {ts : List TypeExpr} (h : ts.length ≠ 1) :
    op.merge ts = op.combine ts := by
  unfold merge
  split
  · exact absurd rfl h
  · rfl

/-- Parts that are no chains are the parts of their chain. -/
theorem split_merge {op : Operator} {ts : List TypeExpr} (h : ∀ t ∈ ts, op.split t = [t]) :
    op.split (op.merge ts) = ts := by
  by_cases hlen : ts.length = 1
  · obtain ⟨t, rfl⟩ := List.length_eq_one_iff.1 hlen
    exact h t (List.mem_singleton_self t)
  · rw [merge_of_length hlen, split_combine]

end Operator

/-! ## Normal forms -/

namespace TypeExpr

mutual

/-- The tree with its chains flattened, without chains of one and without descriptions. -/
def normal : TypeExpr → TypeExpr
  | .union ms => Operator.or.merge ((normalAll ms).flatMap Operator.or.split)
  | .intersection ms => Operator.and.merge ((normalAll ms).flatMap Operator.and.split)
  | .array t => .array (normal t)
  | .tuple ts => .tuple (normalAll ts)
  | .object ps index =>
    .object (normalProperties ps)
      (match index with
        | some t => some (normal t)
        | none => none)
  | .keyword word => .keyword word
  | .literal value => .literal value
  | .verbatim text => .verbatim text

/-- The normal forms of several types. -/
def normalAll : List TypeExpr → List TypeExpr
  | [] => []
  | t :: ts => normal t :: normalAll ts

/-- The properties with types in normal form. -/
def normalProperties : List (PropertyHead × TypeExpr) → List (PropertyHead × TypeExpr)
  | [] => []
  | (head, t) :: ps => ({ head with description := none }, normal t) :: normalProperties ps

end

theorem normalAll_eq (ts : List TypeExpr) : normalAll ts = ts.map normal := by
  induction ts with
  | nil => rfl
  | cons t ts ih => simp [normalAll, ih]

theorem normalProperties_eq (ps : List (PropertyHead × TypeExpr)) :
    normalProperties ps = ps.map fun p => ({ p.1 with description := none }, p.2.normal) := by
  induction ps with
  | nil => rfl
  | cons p ps ih => simp [normalProperties, ih]

theorem normal_combine (op : Operator) (ms : List TypeExpr) :
    (op.combine ms).normal = op.merge (ms.flatMap fun m => op.split m.normal) := by
  cases op <;> simp only [Operator.combine, normal, normalAll_eq, List.flatMap_map]

theorem normal_array (t : TypeExpr) : (array t).normal = .array t.normal := by rw [normal]

theorem normal_tuple (ts : List TypeExpr) : (tuple ts).normal = .tuple (ts.map normal) := by
  rw [normal, normalAll_eq]

theorem normal_object (ps : List (PropertyHead × TypeExpr)) (index : Option TypeExpr) :
    (object ps index).normal =
      .object (ps.map fun p => ({ p.1 with description := none }, p.2.normal))
        (index.map normal) := by
  cases index <;> simp [normal, normalProperties_eq]

mutual

/-- No chain is part of a chain of its own kind, and none has one part. -/
def Normal : TypeExpr → Prop
  | .union ms => ms.length ≠ 1 ∧ (∀ m ∈ ms, Operator.or.split m = [m]) ∧ NormalAll ms
  | .intersection ms => ms.length ≠ 1 ∧ (∀ m ∈ ms, Operator.and.split m = [m]) ∧ NormalAll ms
  | _ => True

/-- `Normal` over several types. -/
def NormalAll : List TypeExpr → Prop
  | [] => True
  | t :: ts => Normal t ∧ NormalAll ts

end

/-- `NormalAll` in the natural per-element form. -/
theorem NormalAll_iff (ts : List TypeExpr) : NormalAll ts ↔ ∀ t ∈ ts, Normal t := by
  induction ts with
  | nil => simp [NormalAll]
  | cons t ts ih => simp [NormalAll, ih]

theorem Normal_combine (op : Operator) (ms : List TypeExpr) :
    Normal (op.combine ms) ↔
      ms.length ≠ 1 ∧ (∀ m ∈ ms, op.split m = [m]) ∧ ∀ m ∈ ms, Normal m := by
  cases op <;> simp only [Operator.combine, Normal, NormalAll_iff]

variable {op : Operator} {t : TypeExpr}

/-- The parts of a normal type are normal, and no chains of the same kind. -/
theorem Normal.of_mem_split (h : Normal t) {m : TypeExpr} (hm : m ∈ op.split t) :
    op.split m = [m] ∧ Normal m := by
  rcases op.split_cases t with ⟨ms, rfl⟩ | ht
  · rw [Operator.split_combine] at hm
    obtain ⟨-, hsplit, hnormal⟩ := (Normal_combine op ms).1 h
    exact ⟨hsplit m hm, hnormal m hm⟩
  · rw [ht, List.mem_singleton] at hm
    exact hm ▸ ⟨ht, h⟩

/-- A normal type is the chain of its parts. -/
theorem Normal.merge_split (h : Normal t) : op.merge (op.split t) = t := by
  rcases op.split_cases t with ⟨ms, rfl⟩ | ht
  · rw [Operator.split_combine, Operator.merge_of_length ((Normal_combine op ms).1 h).1]
  · rw [ht, Operator.merge]

theorem normal_merge {ms : List TypeExpr} (h : ∀ m ∈ ms, op.split m = [m] ∧ Normal m) :
    Normal (op.merge ms) := by
  by_cases hlen : ms.length = 1
  · obtain ⟨m, rfl⟩ := List.length_eq_one_iff.1 hlen
    exact (h m (List.mem_singleton_self m)).2
  · rw [Operator.merge_of_length hlen, Normal_combine]
    exact ⟨hlen, fun m hm => (h m hm).1, fun m hm => (h m hm).2⟩

/-- The parts that normal types are made of. -/
theorem normal_of_mem_flatMap {ms : List TypeExpr} (h : ∀ m ∈ ms, Normal m) :
    ∀ m ∈ ms.flatMap op.split, op.split m = [m] ∧ Normal m := by
  intro m hm
  obtain ⟨n, hn, hm⟩ := List.mem_flatMap.1 hm
  exact (h n hn).of_mem_split hm

mutual

/-- Every type has a normal form. -/
theorem normal_normal (t : TypeExpr) : Normal t.normal := by
  cases t with
  | union ms => exact normal_merge (normal_of_mem_flatMap (normalAll_normal ms))
  | intersection ms => exact normal_merge (normal_of_mem_flatMap (normalAll_normal ms))
  | object ps index =>
    rw [normal_object]
    trivial
  | keyword | literal | verbatim | array | tuple => trivial
termination_by structural t

theorem normalAll_normal (ts : List TypeExpr) : ∀ t ∈ normalAll ts, Normal t := by
  match ts with
  | [] => exact nofun
  | t :: ts => exact List.forall_mem_cons.2 ⟨normal_normal t, normalAll_normal ts⟩
termination_by structural ts

end

/-- The parts of a chain in normal form are those of its parts. -/
theorem split_normal_combine (op : Operator) (ms : List TypeExpr) :
    op.split (op.combine ms).normal = ms.flatMap fun m => op.split m.normal := by
  rw [normal_combine, Operator.split_merge]
  intro m hm
  obtain ⟨n, -, hn⟩ := List.mem_flatMap.1 hm
  exact ((normal_normal n).of_mem_split hn).1

/-- A chain of one is its part. -/
theorem normal_combine_singleton (op : Operator) (t : TypeExpr) :
    (op.combine [t]).normal = t.normal := by
  rw [normal_combine]
  simpa using (normal_normal t).merge_split

end TypeExpr

/-! ## The grammar -/

/-- The words that are types. -/
def typeKeywords : List String :=
  ["string", "number", "boolean", "null", "any", "unknown", "never"]

/-- A token spells a key: an identifier as it is, any key in quotes. -/
inductive SpellsKey : Token → String → Prop where
  | identifier {key : String} (h : isIdentifier key = true) : SpellsKey (.word key) key
  | quoted (key : String) : SpellsKey (.text (Json.quote key)) key

/-- A property as it is written. -/
structure PropertyLine where
  keyToken : Token
  key : String
  optional : Bool
  typeTokens : List Token
  type : TypeExpr

namespace PropertyLine

/-- The tokens of a property. -/
def tokens (line : PropertyLine) : List Token :=
  line.keyToken :: ((if line.optional then [.mark '?'] else [])
    ++ .mark ':' :: (line.typeTokens ++ [.mark ';']))

/-- The property of a line. -/
def property (line : PropertyLine) : PropertyHead × TypeExpr :=
  (⟨line.key, none, line.optional⟩, line.type)

end PropertyLine

/-- The tokens for keys that have no property of their own. -/
def indexTokens : Option (List Token × TypeExpr) → List Token
  | none => []
  | some (ts, _) =>
    [.mark '[', .word "k", .mark ':', .word "string", .mark ']', .mark ':'] ++ (ts ++ [.mark ';'])

/-- The grammar of types: the tokens are derived as the type, at that level. -/
inductive Derives : Precedence → List Token → TypeExpr → Prop where
  | chain (op : Operator) {parts : List (List Token × TypeExpr)} (hne : parts ≠ [])
      (h : ∀ p ∈ parts, Derives op.operand p.1 p.2) :
    Derives op.level (joined op.mark (parts.map Prod.fst)) (op.combine (parts.map Prod.snd))
  | array {ts : List Token} {t : TypeExpr} (h : Derives .suffixed ts t) :
    Derives .suffixed (ts ++ [.mark '[', .mark ']']) (.array t)
  | primary {ts : List Token} {t : TypeExpr} (h : Derives .primary ts t) : Derives .suffixed ts t
  | keyword {word : String} (h : word ∈ typeKeywords) :
      Derives .primary [.word word] (.keyword word)
  | literal (value : Json) : Derives .primary (literalTokens value) (.literal value)
  | paren {ts : List Token} {t : TypeExpr} (h : Derives .union ts t) :
    Derives .primary (.mark '(' :: (ts ++ [.mark ')'])) t
  | tuple {parts : List (List Token × TypeExpr)} (h : ∀ p ∈ parts, Derives .union p.1 p.2) :
    Derives .primary (.mark '[' :: (joined ',' (parts.map Prod.fst) ++ [.mark ']']))
      (.tuple (parts.map Prod.snd))
  | object {lines : List PropertyLine} {index : Option (List Token × TypeExpr)}
      (hkeys : ∀ l ∈ lines, SpellsKey l.keyToken l.key)
      (htypes : ∀ l ∈ lines, Derives .union l.typeTokens l.type)
      (hindex : ∀ p ∈ index, Derives .union p.1 p.2) :
    Derives .primary
      (.mark '\x7b' :: (lines.flatMap PropertyLine.tokens ++
        (indexTokens index ++ [.mark '\x7d'])))
      (.object (lines.map PropertyLine.property) (index.map Prod.snd))

/-- A chain is derived from its parts only. -/
theorem Derives.exists_parts {level : Precedence} {ts : List Token} {t : TypeExpr}
    (h : Derives level ts t) {op : Operator} (hlevel : level = op.level) :
    ∃ parts : List (List Token × TypeExpr), parts ≠ [] ∧
      (∀ p ∈ parts, Derives op.operand p.1 p.2) ∧
      ts = joined op.mark (parts.map Prod.fst) ∧ t = op.combine (parts.map Prod.snd) := by
  cases h with
  | chain op' hne hparts =>
    obtain rfl := Operator.level_injective hlevel
    exact ⟨_, hne, hparts, rfl, rfl⟩
  | array | primary | keyword | literal | paren | tuple | object => cases op <;> cases hlevel

/-! ## Reading up to normal forms -/

/-- The tokens are derived as a type with the same normal form. -/
def Reads (level : Precedence) (ts : List Token) (t : TypeExpr) : Prop :=
  ∃ u, Derives level ts u ∧ u.normal = t.normal

theorem joined_append {c : Char} {a b : List (List Token)} (ha : a ≠ []) (hb : b ≠ []) :
    joined c (a ++ b) = joined c a ++ .mark c :: joined c b := by
  induction a with
  | nil => exact absurd rfl ha
  | cons part a ih =>
    cases a with
    | nil =>
      obtain ⟨next, b, rfl⟩ := List.exists_cons_of_ne_nil hb
      simp
    | cons next a =>
      have := ih (List.cons_ne_nil _ _)
      simp only [List.cons_append] at this ⊢
      simp [this]

namespace Reads

variable {level : Precedence} {ts : List Token} {t : TypeExpr} {op : Operator}

theorem of_derives (h : Derives level ts t) : Reads level ts t := ⟨t, h, rfl⟩

theorem congr {u : TypeExpr} (h : Reads level ts t) (heq : t.normal = u.normal) :
    Reads level ts u := by
  obtain ⟨v, hv, hnormal⟩ := h
  exact ⟨v, hv, hnormal.trans heq⟩

/-- A part is a chain of one. -/
theorem operand (op : Operator) (h : Reads op.operand ts t) : Reads op.level ts t := by
  obtain ⟨u, hu, hnormal⟩ := h
  have hchain := Derives.chain op (List.cons_ne_nil (ts, u) []) (List.forall_mem_singleton.2 hu)
  simp only [List.map_cons, List.map_nil, joined_singleton] at hchain
  exact ⟨_, hchain, (TypeExpr.normal_combine_singleton op u).trans hnormal⟩

/-- Chains in a row are one chain. -/
theorem exists_parts {parts : List (List Token × TypeExpr)} (hne : parts ≠ [])
    (h : ∀ p ∈ parts, Reads op.level p.1 p.2) :
    ∃ flat : List (List Token × TypeExpr), flat ≠ [] ∧
      (∀ p ∈ flat, Derives op.operand p.1 p.2) ∧
      joined op.mark (flat.map Prod.fst) = joined op.mark (parts.map Prod.fst) ∧
      (flat.map Prod.snd).flatMap (fun t => op.split t.normal) =
        (parts.map Prod.snd).flatMap (fun t => op.split t.normal) := by
  induction parts with
  | nil => exact absurd rfl hne
  | cons p parts ih =>
    obtain ⟨⟨u, hu, hnormal⟩, hrest⟩ := List.forall_mem_cons.1 h
    obtain ⟨first, hfirst, hderives, htokens, rfl⟩ := hu.exists_parts rfl
    have hsplit : (first.map Prod.snd).flatMap (fun t => op.split t.normal) =
        op.split p.2.normal := by rw [← hnormal, TypeExpr.split_normal_combine]
    by_cases hparts : parts = []
    · subst hparts
      exact ⟨first, hfirst, hderives, by simp [htokens], by simp [hsplit]⟩
    · obtain ⟨flat, hflat, hflatDerives, hflatTokens, hflatSplit⟩ := ih hparts hrest
      refine ⟨first ++ flat, by simp [hfirst], ?_, ?_, ?_⟩
      · exact fun q hq => (List.mem_append.1 hq).elim (hderives q) (hflatDerives q)
      · obtain ⟨next, more, rfl⟩ := List.exists_cons_of_ne_nil hparts
        rw [List.map_append, joined_append (by simpa using hfirst) (by simpa using hflat),
          ← htokens,
          hflatTokens]
        simp
      · rw [List.map_append, List.flatMap_append, hsplit, hflatSplit]
        simp

/-- A chain of chains. -/
theorem chain (op : Operator) {parts : List (List Token × TypeExpr)} (hne : parts ≠ [])
    (h : ∀ p ∈ parts, Reads op.level p.1 p.2) :
    Reads op.level (joined op.mark (parts.map Prod.fst)) (op.combine (parts.map Prod.snd)) := by
  obtain ⟨flat, hflat, hderives, htokens, hsplit⟩ := exists_parts hne h
  refine ⟨op.combine (flat.map Prod.snd), htokens ▸ .chain op hflat hderives, ?_⟩
  rw [TypeExpr.normal_combine, TypeExpr.normal_combine, hsplit]

theorem primary (h : Reads .primary ts t) : Reads .suffixed ts t := by
  obtain ⟨u, hu, hnormal⟩ := h
  exact ⟨u, .primary hu, hnormal⟩

theorem suffixed_union (h : Reads .suffixed ts t) : Reads .union ts t :=
  operand .or (operand .and h)

theorem paren (h : Reads .union ts t) : Reads .primary (.mark '(' :: (ts ++ [.mark ')'])) t := by
  obtain ⟨u, hu, hnormal⟩ := h
  exact ⟨u, .paren hu, hnormal⟩

theorem array (h : Reads .suffixed ts t) :
    Reads .suffixed (ts ++ [.mark '[', .mark ']']) (.array t) := by
  obtain ⟨u, hu, hnormal⟩ := h
  exact ⟨.array u, .array hu, by rw [TypeExpr.normal_array, TypeExpr.normal_array, hnormal]⟩

/-- Types that are read one by one are derived one by one. -/
theorem exists_derived {parts : List (List Token × TypeExpr)}
    (h : ∀ p ∈ parts, Reads level p.1 p.2) :
    ∃ derived : List (List Token × TypeExpr), (∀ p ∈ derived, Derives level p.1 p.2) ∧
      derived.map Prod.fst = parts.map Prod.fst ∧
      (derived.map Prod.snd).map TypeExpr.normal = (parts.map Prod.snd).map TypeExpr.normal := by
  induction parts with
  | nil => exact ⟨[], nofun, rfl, rfl⟩
  | cons p parts ih =>
    obtain ⟨⟨u, hu, hnormal⟩, hrest⟩ := List.forall_mem_cons.1 h
    obtain ⟨derived, hderived, htokens, hnormals⟩ := ih hrest
    exact ⟨(p.1, u) :: derived, List.forall_mem_cons.2 ⟨hu, hderived⟩, by simp [htokens],
      by simp [hnormal, hnormals]⟩

theorem tuple {parts : List (List Token × TypeExpr)} (h : ∀ p ∈ parts, Reads .union p.1 p.2) :
    Reads .primary (.mark '[' :: (joined ',' (parts.map Prod.fst) ++ [.mark ']']))
      (.tuple (parts.map Prod.snd)) := by
  obtain ⟨derived, hderived, htokens, hnormals⟩ := exists_derived h
  refine ⟨.tuple (derived.map Prod.snd), htokens ▸ .tuple hderived, ?_⟩
  rw [TypeExpr.normal_tuple, TypeExpr.normal_tuple, hnormals]

/-- Properties that are read one by one are derived one by one. -/
theorem exists_derived_lines {lines : List PropertyLine}
    (hkeys : ∀ l ∈ lines, SpellsKey l.keyToken l.key)
    (htypes : ∀ l ∈ lines, Reads .union l.typeTokens l.type) :
    ∃ derived : List PropertyLine, (∀ l ∈ derived, SpellsKey l.keyToken l.key) ∧
      (∀ l ∈ derived, Derives .union l.typeTokens l.type) ∧
      derived.flatMap PropertyLine.tokens = lines.flatMap PropertyLine.tokens ∧
      derived.map (fun l => (l.property.1, l.type.normal)) =
        lines.map fun l => (l.property.1, l.type.normal) := by
  induction lines with
  | nil => exact ⟨[], nofun, nofun, rfl, rfl⟩
  | cons l lines ih =>
    obtain ⟨hkey, hkeys⟩ := List.forall_mem_cons.1 hkeys
    obtain ⟨⟨u, hu, hnormal⟩, htypes⟩ := List.forall_mem_cons.1 htypes
    obtain ⟨derived, hderivedKeys, hderived, htokens, hnormals⟩ := ih hkeys htypes
    refine ⟨{ l with type := u } :: derived, List.forall_mem_cons.2 ⟨hkey, hderivedKeys⟩,
      List.forall_mem_cons.2 ⟨hu, hderived⟩, ?_, ?_⟩
    · rw [List.flatMap_cons, List.flatMap_cons, htokens]
      rfl
    · rw [List.map_cons, List.map_cons, hnormals, hnormal]
      rfl

/-- An object is derived as an object. -/
theorem exists_object {lines : List PropertyLine} {index : Option (List Token × TypeExpr)}
    (hkeys : ∀ l ∈ lines, SpellsKey l.keyToken l.key)
    (htypes : ∀ l ∈ lines, Reads .union l.typeTokens l.type)
    (hindex : ∀ p ∈ index, Reads .union p.1 p.2) :
    ∃ properties further,
      Derives .primary
        (.mark '\x7b' :: (lines.flatMap PropertyLine.tokens ++
          (indexTokens index ++ [.mark '\x7d'])))
        (.object properties further) ∧
      (TypeExpr.object properties further).normal =
        (TypeExpr.object (lines.map PropertyLine.property) (index.map Prod.snd)).normal := by
  obtain ⟨derived, hderivedKeys, hderived, htokens, hnormals⟩ :=
    exists_derived_lines hkeys htypes
  obtain ⟨index', hindex', hindexTokens, hindexNormal⟩ :
      ∃ index' : Option (List Token × TypeExpr), (∀ p ∈ index', Derives .union p.1 p.2) ∧
        indexTokens index' = indexTokens index ∧
        (index'.map Prod.snd).map TypeExpr.normal = (index.map Prod.snd).map TypeExpr.normal := by
    cases index with
    | none => exact ⟨none, nofun, rfl, rfl⟩
    | some p =>
      obtain ⟨u, hu, hnormal⟩ := hindex p rfl
      refine ⟨some (p.1, u), ?_, rfl, by simp [hnormal]⟩
      rintro _ ⟨⟩
      exact hu
  have hproperties {ls : List PropertyLine} :
      (ls.map PropertyLine.property).map
          (fun p => ({ p.1 with description := none }, p.2.normal)) =
        ls.map fun l => (l.property.1, l.type.normal) := by
    rw [List.map_map]
    rfl
  have hobject := Derives.object hderivedKeys hderived hindex'
  rw [htokens, hindexTokens] at hobject
  refine ⟨_, _, hobject, ?_⟩
  rw [TypeExpr.normal_object, TypeExpr.normal_object, hproperties, hproperties, hnormals,
    hindexNormal]

end Reads

end Blokwork.TypeScript
