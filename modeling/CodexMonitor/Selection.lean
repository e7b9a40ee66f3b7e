import CodexMonitor.Tree
import Mathlib.Data.Rat.Defs
import Mathlib.Algebra.Order.Ring.Rat

/-!
# Conditions on a part of a document

A condition selects a value of a document by a JSON pointer and compares it with an
expected one.  Both runtimes select and compare alike; they differ in the values their
numbers have.  A document is therefore compared as a tree over rationals, and selecting
commutes with giving its numbers their values.
-/

namespace CodexMonitor

/-! ## Pointers -/

def maxPointerBytes : Nat := 1024

def maxPointerDepth : Nat := 32

/-- One part of a pointer, `~0` and `~1` replaced. -/
def unescape : List Char → Option (List Char)
  | [] => some []
  | '~' :: '0' :: rest => (unescape rest).map ('~' :: ·)
  | '~' :: '1' :: rest => (unescape rest).map ('/' :: ·)
  | '~' :: _ => none
  | c :: rest => (unescape rest).map (c :: ·)

/-- The tokens of a pointer, none when it is malformed or exceeds a bound. -/
def pointerTokens (pointer : String) : Option (List String) :=
  if maxPointerBytes < pointer.utf8ByteSize then none
  else match pointer.toList with
  | [] => some []
  | '/' :: path =>
      let parts := path.splitOn '/'
      if maxPointerDepth < parts.length then none
      else parts.mapM fun part => (unescape part).map String.ofList
  | _ => none

/-- The position that a token names in an array: decimal digits without a leading zero. -/
def arrayIndex (token : String) : Option Nat :=
  if token = "" ∨ (token.toList.head? = some '0' ∧ token ≠ "0") ∨
      ¬ token.toList.all Char.isDigit then none
  else some (token.toList.foldl (fun n c => 10 * n + (c.toNat - '0'.toNat)) 0)

variable {ν μ : Type}

/-- The value one token further into a document. -/
def Tree.child (token : String) : Tree ν → Option (Tree ν)
  | .object fields => (fields.find? fun field => field.1 = token).map Prod.snd
  | .array items => (arrayIndex token).bind fun index => items[index]?
  | _ => none

/-- The value at a pointer. -/
def Tree.resolve : List String → Tree ν → Option (Tree ν)
  | [], document => some document
  | token :: tokens, document => (document.child token).bind (Tree.resolve tokens)

/-! ## Comparison -/

inductive Operator
  | eq | ne | gt | gte | lt | lte
deriving DecidableEq, Repr

def Operator.ofString : String → Option Operator
  | "eq" => some .eq
  | "ne" => some .ne
  | "gt" => some .gt
  | "gte" => some .gte
  | "lt" => some .lt
  | "lte" => some .lte
  | _ => none

/-- The operator compares numbers only. -/
def Operator.orders : Operator → Bool
  | .eq | .ne => false
  | .gt | .gte | .lt | .lte => true

mutual

/-- Equality of documents of one type: numbers by their values, objects as maps. -/
def strictEqual : Tree Rat → Tree Rat → Bool
  | .null, .null => true
  | .bool a, .bool b => a = b
  | .number a, .number b => a = b
  | .string a, .string b => a = b
  | .array items, .array others => strictItems items others
  | .object fields, .object others => fields.length = others.length && strictFields fields others
  | _, _ => false

def strictItems : List (Tree Rat) → List (Tree Rat) → Bool
  | [], [] => true
  | a :: items, b :: others => strictEqual a b && strictItems items others
  | _, _ => false

def strictFields : List (String × Tree Rat) → List (String × Tree Rat) → Bool
  | [], _ => true
  | (key, a) :: fields, others =>
      (match (Tree.object others).child key with
        | some b => strictEqual a b
        | none => false) && strictFields fields others

end

/-- What the operator makes of the selected value and the expected one, none when it orders what is
not a number. -/
def Operator.decide : Operator → Tree Rat → Tree Rat → Option Bool
  | .eq, a, b => some (strictEqual a b)
  | .ne, a, b => some (!strictEqual a b)
  | .gt, .number a, .number b => some (b < a)
  | .gte, .number a, .number b => some (b ≤ a)
  | .lt, .number a, .number b => some (a < b)
  | .lte, .number a, .number b => some (a ≤ b)
  | _, _, _ => none

/-! ## Conditions -/

/-- A condition as it is written. -/
structure Condition (ν : Type) where
  pointer : String
  operator : Operator
  value : Tree ν

def Tree.asStr : Tree ν → Option String
  | .string s => some s
  | _ => none

/-- The parts of a condition, when it has them. -/
def Tree.condition (t : Tree ν) : Option (Condition ν) := do
  let pointer ← (t.child "pointer").bind Tree.asStr
  let operator ← ((t.child "operator").bind Tree.asStr).bind Operator.ofString
  let value ← t.child "value"
  pure ⟨pointer, operator, value⟩

/-! ## Reading commutes with selecting -/

theorem readItems_get {f : ν → Option μ} {items : List (Tree ν)} {others : List (Tree μ)}
    (h : readItems f items = some others) (index : Nat) :
    others[index]? = items[index]?.bind (Tree.read f) := by
  induction items generalizing others index with
  | nil =>
      cases h
      rfl
  | cons item items ih =>
      obtain ⟨a, ha, hmore⟩ := Option.bind_eq_some_iff.mp h
      obtain ⟨rest, hrest, rfl⟩ := Option.map_eq_some_iff.mp hmore
      cases index with
      | zero => simp [ha]
      | succ index => simpa using ih hrest index

theorem readFields_find {f : ν → Option μ} {fields : List (String × Tree ν)}
    {others : List (String × Tree μ)} (h : readFields f fields = some others) (token : String) :
    (others.find? fun field => field.1 = token).map Prod.snd =
      ((fields.find? fun field => field.1 = token).map Prod.snd).bind (Tree.read f) := by
  induction fields generalizing others with
  | nil =>
      cases h
      rfl
  | cons field fields ih =>
      obtain ⟨key, item⟩ := field
      obtain ⟨a, ha, hmore⟩ := Option.bind_eq_some_iff.mp h
      obtain ⟨rest, hrest, rfl⟩ := Option.map_eq_some_iff.mp hmore
      by_cases hkey : key = token
      · simp [hkey, ha]
      · simpa [hkey] using ih hrest

theorem child_read {f : ν → Option μ} {t : Tree ν} {u : Tree μ} (h : t.read f = some u)
    (token : String) : u.child token = (t.child token).bind (Tree.read f) := by
  cases t with
  | array items =>
      obtain ⟨others, hothers, rfl⟩ := Option.map_eq_some_iff.mp h
      rw [Tree.child, Tree.child]
      cases arrayIndex token with
      | none => rfl
      | some index => exact readItems_get hothers index
  | object fields =>
      obtain ⟨others, hothers, rfl⟩ := Option.map_eq_some_iff.mp h
      exact readFields_find hothers token
  | number n =>
      obtain ⟨m, _, rfl⟩ := Option.map_eq_some_iff.mp h
      rfl
  | _ =>
      cases h
      rfl

/-- Reading keeps strings, and makes none. -/
theorem asStr_read {f : ν → Option μ} {t : Tree ν} {u : Tree μ} (h : t.read f = some u) :
    u.asStr = t.asStr := by
  cases t with
  | array items =>
      obtain ⟨others, _, rfl⟩ := Option.map_eq_some_iff.mp h
      rfl
  | object fields =>
      obtain ⟨others, _, rfl⟩ := Option.map_eq_some_iff.mp h
      rfl
  | number n =>
      obtain ⟨m, _, rfl⟩ := Option.map_eq_some_iff.mp h
      rfl
  | _ =>
      cases h
      rfl

/-- A string member of a document that is read. -/
theorem childStr_read {f : ν → Option μ} {t : Tree ν} {u : Tree μ} (h : t.read f = some u)
    {token text : String} (htext : (u.child token).bind Tree.asStr = some text) :
    (t.child token).bind Tree.asStr = some text := by
  obtain ⟨b, hb, hstr⟩ := Option.bind_eq_some_iff.mp htext
  rw [child_read h] at hb
  obtain ⟨a, ha, hread⟩ := Option.bind_eq_some_iff.mp hb
  rw [ha, Option.bind_some, ← asStr_read hread, hstr]

/-- The condition that is read is the one that is written. -/
theorem condition_read {f : ν → Option μ} {t : Tree ν} {u : Tree μ} (h : t.read f = some u)
    {c : Condition μ} (hc : u.condition = some c) :
    ∃ value, t.condition = some ⟨c.pointer, c.operator, value⟩ ∧ value.read f = some c.value := by
  obtain ⟨pointer, hpointer, hmore⟩ := Option.bind_eq_some_iff.mp hc
  obtain ⟨operator, hoperator, hlast⟩ := Option.bind_eq_some_iff.mp hmore
  obtain ⟨b, hb, hdone⟩ := Option.bind_eq_some_iff.mp hlast
  obtain rfl := Option.some.inj hdone
  obtain ⟨name, hname, hop⟩ := Option.bind_eq_some_iff.mp hoperator
  rw [child_read h] at hb
  obtain ⟨value, hvalue, hread⟩ := Option.bind_eq_some_iff.mp hb
  refine ⟨value, ?_, hread⟩
  simp [Tree.condition, childStr_read h hpointer, childStr_read h hname, hop, hvalue]

/-! ## The values of numbers -/

mutual

/-- Replace every number of a document. -/
def Tree.map (f : ν → μ) : Tree ν → Tree μ
  | .null => .null
  | .bool b => .bool b
  | .number n => .number (f n)
  | .string s => .string s
  | .array items => .array (mapItems f items)
  | .object fields => .object (mapFields f fields)

def mapItems (f : ν → μ) : List (Tree ν) → List (Tree μ)
  | [] => []
  | item :: items => item.map f :: mapItems f items

def mapFields (f : ν → μ) : List (String × Tree ν) → List (String × Tree μ)
  | [] => []
  | (key, item) :: fields => (key, item.map f) :: mapFields f fields

end

theorem mapItems_eq_map (f : ν → μ) (items : List (Tree ν)) :
    mapItems f items = items.map (Tree.map f) := by
  induction items with
  | nil => rfl
  | cons item items ih => rw [mapItems, ih, List.map_cons]

theorem mapFields_eq_map (f : ν → μ) (fields : List (String × Tree ν)) :
    mapFields f fields = fields.map fun field => (field.1, field.2.map f) := by
  induction fields with
  | nil => rfl
  | cons field fields ih => rw [mapFields, ih, List.map_cons]

/-- The member of an object, its numbers replaced. -/
theorem find_map (f : ν → μ) (token : String) (fields : List (String × Tree ν)) :
    ((mapFields f fields).find? fun field => field.1 = token).map Prod.snd =
      ((fields.find? fun field => field.1 = token).map Prod.snd).map (Tree.map f) := by
  induction fields with
  | nil => rfl
  | cons field fields ih =>
      obtain ⟨key, item⟩ := field
      rw [mapFields]
      by_cases hkey : key = token
      · simp [hkey]
      · simpa [hkey] using ih

theorem child_map (f : ν → μ) (token : String) (t : Tree ν) :
    (t.map f).child token = (t.child token).map (Tree.map f) := by
  cases t with
  | array items =>
      rw [Tree.map, Tree.child, Tree.child, mapItems_eq_map]
      cases arrayIndex token with
      | none => rfl
      | some index => simp
  | object fields =>
      rw [Tree.map, Tree.child, Tree.child]
      exact find_map f token fields
  | _ => rfl

/-- Selecting does not look at numbers. -/
theorem resolve_map (f : ν → μ) (tokens : List String) (t : Tree ν) :
    (t.map f).resolve tokens = (t.resolve tokens).map (Tree.map f) := by
  induction tokens generalizing t with
  | nil => rfl
  | cons token tokens ih =>
      rw [Tree.resolve, Tree.resolve, child_map]
      cases t.child token with
      | none => rfl
      | some u => exact ih u

mutual

/-- What two functions agree on they replace alike. -/
theorem map_congr {f g : ν → μ} : ∀ t : Tree ν, (∀ n ∈ t.numbers, f n = g n) → t.map f = t.map g
  | .null, _ => rfl
  | .bool _, _ => rfl
  | .number n, h => by rw [Tree.map, Tree.map, h n (List.mem_singleton.mpr rfl)]
  | .string _, _ => rfl
  | .array items, h => by rw [Tree.map, Tree.map, mapItems_congr items h]
  | .object fields, h => by rw [Tree.map, Tree.map, mapFields_congr fields h]

theorem mapItems_congr {f g : ν → μ} :
    ∀ items : List (Tree ν), (∀ n ∈ itemNumbers items, f n = g n) →
      mapItems f items = mapItems g items
  | [], _ => rfl
  | item :: items, h => by
      rw [mapItems, mapItems, map_congr item fun n hn => h n (List.mem_append_left _ hn),
        mapItems_congr items fun n hn => h n (List.mem_append_right _ hn)]

theorem mapFields_congr {f g : ν → μ} : ∀ fields : List (String × Tree ν),
    (∀ n ∈ fieldNumbers fields, f n = g n) → mapFields f fields = mapFields g fields
  | [], _ => rfl
  | (_, item) :: fields, h => by
      rw [mapFields, mapFields, map_congr item fun n hn => h n (List.mem_append_left _ hn),
        mapFields_congr fields fun n hn => h n (List.mem_append_right _ hn)]

end

/-! ## The numbers that are compared -/

mutual

/-- The numbers that meet when two documents are laid over each other; none when the documents
differ elsewhere. -/
def Tree.pairs : Tree ν → Tree ν → Option (List (ν × ν))
  | .null, .null => some []
  | .bool a, .bool b => if a = b then some [] else none
  | .number a, .number b => some [(a, b)]
  | .string a, .string b => if a = b then some [] else none
  | .array items, .array others => itemPairs items others
  | .object fields, .object others =>
      if fields.length = others.length then fieldPairs fields others else none
  | _, _ => none

def itemPairs : List (Tree ν) → List (Tree ν) → Option (List (ν × ν))
  | [], [] => some []
  | a :: items, b :: others =>
      (a.pairs b).bind fun first => (itemPairs items others).map (first ++ ·)
  | _, _ => none

def fieldPairs : List (String × Tree ν) → List (String × Tree ν) → Option (List (ν × ν))
  | [], _ => some []
  | (key, a) :: fields, others =>
      ((Tree.object others).child key).bind fun b =>
        (a.pairs b).bind fun first => (fieldPairs fields others).map (first ++ ·)

end

/-- Pairs of numbers, if there are any, all of which have equal values. -/
def PairsEqual (f : ν → Rat) (pairs : Option (List (ν × ν))) : Prop :=
  ∃ found, pairs = some found ∧ ∀ p ∈ found, f p.1 = f p.2

section pairs

variable {f : ν → Rat}

theorem not_pairsEqual_none : ¬ PairsEqual f none := by
  rintro ⟨found, hfound, -⟩
  cases hfound

theorem pairsEqual_nil : PairsEqual f (some []) := ⟨[], rfl, List.forall_mem_nil _⟩

theorem pairsEqual_if {p : Prop} [Decidable p] :
    PairsEqual f (if p then some [] else none) ↔ p := by
  by_cases hp : p
  · rw [if_pos hp]
    exact iff_of_true pairsEqual_nil hp
  · rw [if_neg hp]
    exact iff_of_false not_pairsEqual_none hp

theorem pairsEqual_append {first rest : Option (List (ν × ν))} :
    PairsEqual f (first.bind fun a => rest.map (a ++ ·)) ↔
      PairsEqual f first ∧ PairsEqual f rest := by
  constructor
  · rintro ⟨found, hfound, hall⟩
    obtain ⟨a, ha, hmore⟩ := Option.bind_eq_some_iff.mp hfound
    obtain ⟨b, hb, rfl⟩ := Option.map_eq_some_iff.mp hmore
    exact ⟨⟨a, ha, fun p hp => hall p (List.mem_append_left _ hp)⟩,
      ⟨b, hb, fun p hp => hall p (List.mem_append_right _ hp)⟩⟩
  · rintro ⟨⟨a, rfl, ha⟩, ⟨b, rfl, hb⟩⟩
    exact ⟨a ++ b, rfl, List.forall_mem_append.mpr ⟨ha, hb⟩⟩

mutual

/-- Documents are equal by the values of their numbers when they differ in no other way, and the
numbers that meet have equal values. -/
theorem strictEqual_map_iff : ∀ t u : Tree ν,
    strictEqual (t.map f) (u.map f) = true ↔ PairsEqual f (t.pairs u)
  | .null, u => by
      cases u with
      | null => exact iff_of_true rfl pairsEqual_nil
      | _ => exact iff_of_false Bool.false_ne_true not_pairsEqual_none
  | .bool a, u => by
      cases u with
      | bool b => exact decide_eq_true_iff.trans pairsEqual_if.symm
      | _ => exact iff_of_false Bool.false_ne_true not_pairsEqual_none
  | .number a, u => by
      cases u with
      | number b =>
          refine decide_eq_true_iff.trans ⟨fun h => ⟨_, rfl, ?_⟩, ?_⟩
          · exact List.forall_mem_singleton.mpr h
          · rintro ⟨found, hfound, hall⟩
            obtain rfl := Option.some.inj hfound
            exact hall (a, b) (List.mem_singleton.mpr rfl)
      | _ => exact iff_of_false Bool.false_ne_true not_pairsEqual_none
  | .string a, u => by
      cases u with
      | string b => exact decide_eq_true_iff.trans pairsEqual_if.symm
      | _ => exact iff_of_false Bool.false_ne_true not_pairsEqual_none
  | .array items, u => by
      cases u with
      | array others => exact strictItems_map_iff items others
      | _ => exact iff_of_false Bool.false_ne_true not_pairsEqual_none
  | .object fields, u => by
      cases u with
      | object others =>
          rw [Tree.map, Tree.map, strictEqual, Tree.pairs, Bool.and_eq_true_iff,
            decide_eq_true_iff, mapFields_eq_map, mapFields_eq_map, List.length_map,
            List.length_map, ← mapFields_eq_map, ← mapFields_eq_map]
          by_cases hlength : fields.length = others.length
          · rw [if_pos hlength, and_iff_right hlength]
            exact strictFields_map_iff fields others
          · rw [if_neg hlength]
            exact iff_of_false (fun h => hlength h.1) not_pairsEqual_none
      | _ => exact iff_of_false Bool.false_ne_true not_pairsEqual_none

theorem strictItems_map_iff : ∀ items others : List (Tree ν),
    strictItems (mapItems f items) (mapItems f others) = true ↔
      PairsEqual f (itemPairs items others)
  | [], [] => iff_of_true rfl pairsEqual_nil
  | [], _ :: _ => iff_of_false Bool.false_ne_true not_pairsEqual_none
  | _ :: _, [] => iff_of_false Bool.false_ne_true not_pairsEqual_none
  | a :: items, b :: others => by
      rw [mapItems, mapItems, strictItems, itemPairs, Bool.and_eq_true_iff, pairsEqual_append,
        strictEqual_map_iff a b, strictItems_map_iff items others]

theorem strictFields_map_iff : ∀ fields others : List (String × Tree ν),
    strictFields (mapFields f fields) (mapFields f others) = true ↔
      PairsEqual f (fieldPairs fields others)
  | [], _ => iff_of_true rfl pairsEqual_nil
  | (key, a) :: fields, others => by
      have hchild : (Tree.object (mapFields f others)).child key =
          ((Tree.object others).child key).map (Tree.map f) := child_map f key (.object others)
      rw [mapFields, strictFields, fieldPairs, hchild, Bool.and_eq_true_iff]
      cases (Tree.object others).child key with
      | none => exact iff_of_false (fun h => Bool.false_ne_true h.1) not_pairsEqual_none
      | some b =>
          rw [Option.bind_some, pairsEqual_append, ← strictEqual_map_iff a b,
            ← strictFields_map_iff fields others]
          exact Iff.rfl

end

/-- The operator relates two numbers. -/
def Operator.relates : Operator → Rat → Rat → Prop
  | .eq, a, b => a = b
  | .ne, a, b => a ≠ b
  | .gt, a, b => b < a
  | .gte, a, b => b ≤ a
  | .lt, a, b => a < b
  | .lte, a, b => a ≤ b

/-- An operator that orders decides numbers. -/
theorem decide_number {operator : Operator} (h : operator.orders = true) (a b : Rat) :
    ∃ matched, operator.decide (.number a) (.number b) = some matched ∧
      (matched = true ↔ operator.relates a b) := by
  cases operator with
  | eq | ne => cases h
  | gt | gte | lt | lte => exact ⟨_, rfl, decide_eq_true_iff⟩

/-- It decides nothing else. -/
theorem decide_map_none {operator : Operator} {t u : Tree ν} :
    operator.decide (t.map f) (u.map f) = none ↔
      operator.orders = true ∧ ∀ a b, ¬ (t = .number a ∧ u = .number b) := by
  cases operator with
  | eq | ne => simp [Operator.decide, Operator.orders]
  | gt | gte | lt | lte =>
      cases t <;> cases u <;> simp [Operator.decide, Operator.orders, Tree.map]

/-- What an operator makes of two documents depends on the numbers that it compares: those that meet,
for equality, or the two numbers that it orders. -/
theorem decide_map_eq_iff {operator : Operator} {g : ν → Rat} {t u : Tree ν} :
    operator.decide (t.map f) (u.map f) = operator.decide (t.map g) (u.map g) ↔
      (operator.orders = false → ∀ pairs, t.pairs u = some pairs →
        ((∀ p ∈ pairs, f p.1 = f p.2) ↔ ∀ p ∈ pairs, g p.1 = g p.2)) ∧
      (operator.orders = true → ∀ a b, t = .number a → u = .number b →
        (operator.relates (f a) (f b) ↔ operator.relates (g a) (g b))) := by
  have hequal : strictEqual (t.map f) (u.map f) = strictEqual (t.map g) (u.map g) ↔
      ∀ pairs, t.pairs u = some pairs →
        ((∀ p ∈ pairs, f p.1 = f p.2) ↔ ∀ p ∈ pairs, g p.1 = g p.2) := by
    rw [Bool.eq_iff_iff, strictEqual_map_iff, strictEqual_map_iff]
    cases t.pairs u with
    | none => simp [not_pairsEqual_none]
    | some found => simp [PairsEqual]
  have hordered : ∀ a b, operator.orders = true → t = .number a → u = .number b →
      (operator.decide (t.map f) (u.map f) = operator.decide (t.map g) (u.map g) ↔
        (operator.relates (f a) (f b) ↔ operator.relates (g a) (g b))) := by
    rintro a b horders rfl rfl
    obtain ⟨matched, hmatched, hiff⟩ := decide_number horders (f a) (f b)
    obtain ⟨other, hother, hiff'⟩ := decide_number horders (g a) (g b)
    rw [Tree.map, Tree.map, Tree.map, Tree.map, hmatched, hother, Option.some.injEq,
      Bool.eq_iff_iff, hiff, hiff']
  cases horders : operator.orders with
  | false =>
      have heqs : operator.decide (t.map f) (u.map f) = operator.decide (t.map g) (u.map g) ↔
          strictEqual (t.map f) (u.map f) = strictEqual (t.map g) (u.map g) := by
        cases operator with
        | eq | ne => simp [Operator.decide]
        | gt | gte | lt | lte => cases horders
      rw [heqs, hequal]
      simp
  | true =>
      by_cases hnumbers : ∃ a b, t = .number a ∧ u = .number b
      · obtain ⟨a, b, rfl, rfl⟩ := hnumbers
        rw [hordered a b horders rfl rfl]
        simp
      · have hnone : ∀ h : ν → Rat, operator.decide (t.map h) (u.map h) = none := fun h =>
          decide_map_none.mpr ⟨horders, fun a b hab => hnumbers ⟨a, b, hab⟩⟩
        rw [hnone f, hnone g]
        refine iff_of_true rfl ⟨fun h => ?_, fun _ a b ha hb => ?_⟩
        · cases h
        · exact absurd ⟨a, b, ha, hb⟩ hnumbers

end pairs

mutual

/-- The values of a tree that was read are those of the document's numbers. -/
theorem read_map {κ : Type} {f : ν → Option μ} {value : μ → κ} {exact : ν → κ}
    (h : ∀ n m, f n = some m → value m = exact n) :
    ∀ (t : Tree ν) (u : Tree μ), t.read f = some u → u.map value = t.map exact
  | .null, u, hu => by
      cases hu
      rfl
  | .bool b, u, hu => by
      cases hu
      rfl
  | .number n, u, hu => by
      obtain ⟨m, hm, rfl⟩ := Option.map_eq_some_iff.mp hu
      rw [Tree.map, Tree.map, h n m hm]
  | .string s, u, hu => by
      cases hu
      rfl
  | .array items, u, hu => by
      obtain ⟨others, hothers, rfl⟩ := Option.map_eq_some_iff.mp hu
      rw [Tree.map, Tree.map, readItems_map h items others hothers]
  | .object fields, u, hu => by
      obtain ⟨others, hothers, rfl⟩ := Option.map_eq_some_iff.mp hu
      rw [Tree.map, Tree.map, readFields_map h fields others hothers]

theorem readItems_map {κ : Type} {f : ν → Option μ} {value : μ → κ} {exact : ν → κ}
    (h : ∀ n m, f n = some m → value m = exact n) :
    ∀ (items : List (Tree ν)) (others : List (Tree μ)), readItems f items = some others →
      mapItems value others = mapItems exact items
  | [], others, hothers => by
      cases hothers
      rfl
  | item :: items, others, hothers => by
      obtain ⟨a, ha, hmore⟩ := Option.bind_eq_some_iff.mp hothers
      obtain ⟨rest, hrest, rfl⟩ := Option.map_eq_some_iff.mp hmore
      rw [mapItems, mapItems, read_map h item a ha, readItems_map h items rest hrest]

theorem readFields_map {κ : Type} {f : ν → Option μ} {value : μ → κ} {exact : ν → κ}
    (h : ∀ n m, f n = some m → value m = exact n) :
    ∀ (fields : List (String × Tree ν)) (others : List (String × Tree μ)),
      readFields f fields = some others → mapFields value others = mapFields exact fields
  | [], others, hothers => by
      cases hothers
      rfl
  | (key, item) :: fields, others, hothers => by
      obtain ⟨a, ha, hmore⟩ := Option.bind_eq_some_iff.mp hothers
      obtain ⟨rest, hrest, rfl⟩ := Option.map_eq_some_iff.mp hmore
      rw [mapFields, mapFields, read_map h item a ha, readFields_map h fields rest hrest]

end

/-- A member of a document that is read is read. -/
theorem child_isSome {f : ν → Option μ} {t : Tree ν} {u : Tree μ} (h : t.read f = some u)
    (token : String) : (u.child token).isSome = (t.child token).isSome := by
  have hshape : u.map (fun _ => ()) = t.map fun _ => () := read_map (fun _ _ _ => rfl) t u h
  have hchild := congrArg (fun t => (t.child token).isSome) hshape
  simpa only [child_map, Option.isSome_map] using hchild

theorem read_child {f : ν → Option μ} {t : Tree ν} {u : Tree μ} (h : t.read f = some u)
    {token : String} {a : Tree ν} (ha : t.child token = some a) :
    ∃ b, u.child token = some b ∧ a.read f = some b := by
  have hsome : (u.child token).isSome = true := by rw [child_isSome h, ha, Option.isSome_some]
  obtain ⟨b, hb⟩ := Option.isSome_iff_exists.mp hsome
  refine ⟨b, hb, ?_⟩
  rw [← hb, child_read h, ha, Option.bind_some]

theorem read_childStr {f : ν → Option μ} {t : Tree ν} {u : Tree μ} (h : t.read f = some u)
    {token text : String} (htext : (t.child token).bind Tree.asStr = some text) :
    (u.child token).bind Tree.asStr = some text := by
  obtain ⟨a, ha, hstr⟩ := Option.bind_eq_some_iff.mp htext
  obtain ⟨b, hb, hread⟩ := read_child h ha
  rw [hb, Option.bind_some, asStr_read hread, hstr]

/-- A condition of a document that is read is read. -/
theorem read_condition {f : ν → Option μ} {t : Tree ν} {u : Tree μ} (h : t.read f = some u)
    {c : Condition ν} (hc : t.condition = some c) :
    ∃ value, u.condition = some ⟨c.pointer, c.operator, value⟩ ∧ c.value.read f = some value := by
  obtain ⟨pointer, hpointer, hmore⟩ := Option.bind_eq_some_iff.mp hc
  obtain ⟨operator, hoperator, hlast⟩ := Option.bind_eq_some_iff.mp hmore
  obtain ⟨a, ha, hdone⟩ := Option.bind_eq_some_iff.mp hlast
  obtain rfl := Option.some.inj hdone
  obtain ⟨name, hname, hop⟩ := Option.bind_eq_some_iff.mp hoperator
  obtain ⟨b, hb, hread⟩ := read_child h ha
  refine ⟨b, ?_, hread⟩
  simp [Tree.condition, read_childStr h hpointer, read_childStr h hname, hop, hb]

/-! ## Doubles -/

/-- The nearest integer with 53 significant bits, ties to the even one. -/
def nearestDouble (n : Nat) : Nat :=
  let unit := 2 ^ (n.log2 + 1 - 53)
  let quotient := n / unit
  let remainder := n % unit
  if unit < 2 * remainder ∨ (unit = 2 * remainder ∧ quotient % 2 = 1) then (quotient + 1) * unit
  else quotient * unit

/-- The value of a finite double. -/
def doubleValue (bits : UInt64) : Rat :=
  let exponent := bits.toNat / 2 ^ 52 % 2 ^ 11
  let fraction := bits.toNat % 2 ^ 52
  let significand := if exponent = 0 then fraction else fraction + 2 ^ 52
  let magnitude : Rat := (significand * 2 ^ max exponent 1 : Nat) / 2 ^ 1075
  if bits.toNat < 2 ^ 63 then magnitude else -magnitude

/-- `as_f64`. -/
def Number.asF64 : Number → Rat
  | .posInt n => nearestDouble n.toNat
  | .negInt n => -(nearestDouble n.toInt.natAbs : Rat)
  | .float bits => doubleValue bits

mutual

/-- The document a value is, its numbers as doubles. -/
def Value.doubles : Value → Tree Rat
  | .null => .null
  | .bool b => .bool b
  | .number n => .number n.asF64
  | .string s => .string s
  | .array items => .array (itemDoubles items)
  | .object fields => .object (fieldDoubles fields)

def itemDoubles : List Value → List (Tree Rat)
  | [] => []
  | item :: items => item.doubles :: itemDoubles items

def fieldDoubles : List (String × Value) → List (String × Tree Rat)
  | [] => []
  | (key, item) :: fields => (key, item.doubles) :: fieldDoubles fields

end

mutual

theorem value_doubles : ∀ t : Tree Number, t.value.doubles = t.map Number.asF64
  | .null => rfl
  | .bool _ => rfl
  | .number _ => rfl
  | .string _ => rfl
  | .array items => by rw [Tree.value, Value.doubles, Tree.map, valueItems_doubles items]
  | .object fields => by rw [Tree.value, Value.doubles, Tree.map, valueFields_doubles fields]

theorem valueItems_doubles : ∀ items : List (Tree Number),
    itemDoubles (valueItems items) = mapItems Number.asF64 items
  | [] => rfl
  | item :: items => by
      rw [valueItems, itemDoubles, mapItems, value_doubles item, valueItems_doubles items]

theorem valueFields_doubles : ∀ fields : List (String × Tree Number),
    fieldDoubles (valueFields fields) = mapFields Number.asF64 fields
  | [] => rfl
  | (key, item) :: fields => by
      rw [valueFields, fieldDoubles, mapFields, value_doubles item, valueFields_doubles fields]

end

/-- An integer of at most 53 bits is a double. -/
theorem nearestDouble_small {n : Nat} (h : n < 2 ^ 53) : nearestDouble n = n := by
  have hunit : n.log2 + 1 - 53 = 0 := by
    by_cases hn : n = 0
    · simp [hn]
    · have := (Nat.log2_lt hn).mpr h
      omega
  unfold nearestDouble
  rw [hunit]
  simp [Nat.mod_one]

end CodexMonitor
