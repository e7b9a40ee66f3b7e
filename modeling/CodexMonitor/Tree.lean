import CodexMonitor.Canonical

/-!
# JSON documents over any type of numbers

A document whose numbers are still to be read is a tree over number literals; a runtime
reads it into a tree over numbers of its own, and writes that down again.  The text of a
tree determines the text of each of its numbers, so two printers write one tree alike
exactly when they write each of its numbers alike.
-/

namespace CodexMonitor

open Decoding

/-- A JSON document with numbers in `ν`. -/
inductive Tree (ν : Type)
  | null
  | bool (b : Bool)
  | number (n : ν)
  | string (s : String)
  | array (items : List (Tree ν))
  | object (fields : List (String × Tree ν))

variable {ν μ : Type}

mutual

/-- The compact text of a document, keys sorted at every depth. -/
def Tree.text (quoted : String → String) (print : ν → String) : Tree ν → String
  | .null => "null"
  | .bool b => if b then "true" else "false"
  | .number n => print n
  | .string s => quoted s
  | .array items => "[" ++ ",".intercalate (treeItems quoted print items) ++ "]"
  | .object fields =>
      "\x7b" ++ ",".intercalate ((sortKeys (treeFields quoted print fields)).map fun field =>
        quoted field.1 ++ ":" ++ field.2) ++ "\x7d"

def treeItems (quoted : String → String) (print : ν → String) : List (Tree ν) → List String
  | [] => []
  | item :: items => item.text quoted print :: treeItems quoted print items

def treeFields (quoted : String → String) (print : ν → String) :
    List (String × Tree ν) → List (String × String)
  | [] => []
  | (key, item) :: fields => (key, item.text quoted print) :: treeFields quoted print fields

end

mutual

/-- The numbers of a document. -/
def Tree.numbers : Tree ν → List ν
  | .number n => [n]
  | .array items => itemNumbers items
  | .object fields => fieldNumbers fields
  | .null | .bool _ | .string _ => []

def itemNumbers : List (Tree ν) → List ν
  | [] => []
  | item :: items => item.numbers ++ itemNumbers items

def fieldNumbers : List (String × Tree ν) → List ν
  | [] => []
  | (_, item) :: fields => item.numbers ++ fieldNumbers fields

end

mutual

/-- Read every number of a document, or none of it. -/
def Tree.read (f : ν → Option μ) : Tree ν → Option (Tree μ)
  | .null => some .null
  | .bool b => some (.bool b)
  | .number n => (f n).map .number
  | .string s => some (.string s)
  | .array items => (readItems f items).map .array
  | .object fields => (readFields f fields).map .object

def readItems (f : ν → Option μ) : List (Tree ν) → Option (List (Tree μ))
  | [] => some []
  | item :: items => (item.read f).bind fun a => (readItems f items).map (a :: ·)

def readFields (f : ν → Option μ) : List (String × Tree ν) → Option (List (String × Tree μ))
  | [] => some []
  | (key, item) :: fields =>
      (item.read f).bind fun a => (readFields f fields).map ((key, a) :: ·)

end

section texts

variable {quoted : String → String} {p q : ν → String}

theorem treeItems_eq_map (items : List (Tree ν)) :
    treeItems quoted p items = items.map (Tree.text quoted p) := by
  induction items with
  | nil => rfl
  | cons a items ih => rw [treeItems, ih, List.map_cons]

theorem treeFields_eq_map (fields : List (String × Tree ν)) :
    treeFields quoted p fields = fields.map fun field => (field.1, field.2.text quoted p) := by
  induction fields with
  | nil => rfl
  | cons field fields ih => rw [treeFields, ih, List.map_cons]

/-! ## Reading -/

mutual

/-- A tree that is read has the text of the document under the printer that reads first. -/
theorem read_text {f : ν → Option μ} (print : μ → String) (h : ∀ n m, f n = some m → print m = p n) :
    ∀ (t : Tree ν) (u : Tree μ), t.read f = some u → u.text quoted print = t.text quoted p
  | .null, u, hu => by
      cases hu
      rfl
  | .bool b, u, hu => by
      cases hu
      rfl
  | .number n, u, hu => by
      obtain ⟨m, hm, rfl⟩ := Option.map_eq_some_iff.mp hu
      exact h n m hm
  | .string s, u, hu => by
      cases hu
      rfl
  | .array items, u, hu => by
      obtain ⟨others, hothers, rfl⟩ := Option.map_eq_some_iff.mp hu
      rw [Tree.text, Tree.text, readItems_text print h items others hothers]
  | .object fields, u, hu => by
      obtain ⟨others, hothers, rfl⟩ := Option.map_eq_some_iff.mp hu
      rw [Tree.text, Tree.text, readFields_text print h fields others hothers]

theorem readItems_text {f : ν → Option μ} (print : μ → String)
    (h : ∀ n m, f n = some m → print m = p n) :
    ∀ (items : List (Tree ν)) (others : List (Tree μ)), readItems f items = some others →
      treeItems quoted print others = treeItems quoted p items
  | [], others, hothers => by
      cases hothers
      rfl
  | item :: items, others, hothers => by
      obtain ⟨a, ha, hmore⟩ := Option.bind_eq_some_iff.mp hothers
      obtain ⟨rest, hrest, rfl⟩ := Option.map_eq_some_iff.mp hmore
      rw [treeItems, treeItems, read_text print h item a ha,
        readItems_text print h items rest hrest]

theorem readFields_text {f : ν → Option μ} (print : μ → String)
    (h : ∀ n m, f n = some m → print m = p n) :
    ∀ (fields : List (String × Tree ν)) (others : List (String × Tree μ)),
      readFields f fields = some others →
        treeFields quoted print others = treeFields quoted p fields
  | [], others, hothers => by
      cases hothers
      rfl
  | (key, item) :: fields, others, hothers => by
      obtain ⟨a, ha, hmore⟩ := Option.bind_eq_some_iff.mp hothers
      obtain ⟨rest, hrest, rfl⟩ := Option.map_eq_some_iff.mp hmore
      rw [treeFields, treeFields, read_text print h item a ha,
        readFields_text print h fields rest hrest]

end

mutual

/-- Every number of a document that is read is read. -/
theorem read_numbers {f : ν → Option μ} : ∀ (t : Tree ν) (u : Tree μ), t.read f = some u →
    ∀ n ∈ t.numbers, ∃ m, f n = some m
  | .null, _, _, _, hn => nomatch hn
  | .bool _, _, _, _, hn => nomatch hn
  | .number n, u, hu, k, hk => by
      obtain ⟨m, hm, _⟩ := Option.map_eq_some_iff.mp hu
      obtain rfl := List.mem_singleton.mp hk
      exact ⟨m, hm⟩
  | .string _, _, _, _, hn => nomatch hn
  | .array items, u, hu, n, hn => by
      obtain ⟨others, hothers, _⟩ := Option.map_eq_some_iff.mp hu
      exact readItems_numbers items others hothers n hn
  | .object fields, u, hu, n, hn => by
      obtain ⟨others, hothers, _⟩ := Option.map_eq_some_iff.mp hu
      exact readFields_numbers fields others hothers n hn

theorem readItems_numbers {f : ν → Option μ} : ∀ (items : List (Tree ν)) (others : List (Tree μ)),
    readItems f items = some others → ∀ n ∈ itemNumbers items, ∃ m, f n = some m
  | [], _, _, _, hn => nomatch hn
  | item :: items, others, hothers, n, hn => by
      obtain ⟨a, ha, hmore⟩ := Option.bind_eq_some_iff.mp hothers
      obtain ⟨rest, hrest, _⟩ := Option.map_eq_some_iff.mp hmore
      rcases List.mem_append.mp hn with hn | hn
      · exact read_numbers item a ha n hn
      · exact readItems_numbers items rest hrest n hn

theorem readFields_numbers {f : ν → Option μ} :
    ∀ (fields : List (String × Tree ν)) (others : List (String × Tree μ)),
      readFields f fields = some others → ∀ n ∈ fieldNumbers fields, ∃ m, f n = some m
  | [], _, _, _, hn => nomatch hn
  | (_, item) :: fields, others, hothers, n, hn => by
      obtain ⟨a, ha, hmore⟩ := Option.bind_eq_some_iff.mp hothers
      obtain ⟨rest, hrest, _⟩ := Option.map_eq_some_iff.mp hmore
      rcases List.mem_append.mp hn with hn | hn
      · exact read_numbers item a ha n hn
      · exact readFields_numbers fields rest hrest n hn

end

/-! ## Printers that agree -/

mutual

/-- Printers that write every number of a tree alike write the tree alike. -/
theorem text_congr : ∀ t : Tree ν, (∀ n ∈ t.numbers, p n = q n) →
    t.text quoted p = t.text quoted q
  | .null, _ => rfl
  | .bool _, _ => rfl
  | .number n, h => h n (List.mem_singleton.mpr rfl)
  | .string _, _ => rfl
  | .array items, h => by rw [Tree.text, Tree.text, treeItems_congr items h]
  | .object fields, h => by rw [Tree.text, Tree.text, treeFields_congr fields h]

theorem treeItems_congr : ∀ items : List (Tree ν), (∀ n ∈ itemNumbers items, p n = q n) →
    treeItems quoted p items = treeItems quoted q items
  | [], _ => rfl
  | item :: items, h => by
      rw [treeItems, treeItems,
        text_congr item fun n hn => h n (List.mem_append_left _ hn),
        treeItems_congr items fun n hn => h n (List.mem_append_right _ hn)]

theorem treeFields_congr : ∀ fields : List (String × Tree ν),
    (∀ n ∈ fieldNumbers fields, p n = q n) →
      treeFields quoted p fields = treeFields quoted q fields
  | [], _ => rfl
  | (_, item) :: fields, h => by
      rw [treeFields, treeFields,
        text_congr item fun n hn => h n (List.mem_append_left _ hn),
        treeFields_congr fields fun n hn => h n (List.mem_append_right _ hn)]

end

/-- The text of a number: not empty, and of the characters of JSON numbers. -/
structure Numeral (text : String) : Prop where
  ne_nil : text.toList ≠ []
  chars : ∀ c ∈ text.toList, c.isDigit = true ∨ c ∈ ['-', '+', '.', 'e', 'E']

theorem tree_array (items : List (Tree ν)) : ((Tree.array items).text quoted p).toList =
    '[' :: ([','].intercalate (items.map fun a => (a.text quoted p).toList) ++ [']']) := by
  rw [Tree.text, treeItems_eq_map]
  simp only [String.toList_append, String.toList_intercalate, List.map_map]
  rfl

/-- The fields of an object in the order in which they are written. -/
def sortFields (fields : List (String × Tree ν)) : List (String × Tree ν) :=
  fields.insertionSort fun a b => a.1 ≤ b.1

theorem mem_sortFields {fields : List (String × Tree ν)} {field : String × Tree ν} :
    field ∈ sortFields fields ↔ field ∈ fields :=
  List.mem_insertionSort _

/-- The order of the fields depends on their keys only. -/
theorem sortKeys_treeFields (fields : List (String × Tree ν)) :
    sortKeys (treeFields quoted p fields) =
      (sortFields fields).map fun field => (field.1, field.2.text quoted p) := by
  rw [treeFields_eq_map]
  exact (List.map_insertionSort (fun a b : String × Tree ν => a.1 ≤ b.1)
    (fun a b : String × String => a.1 ≤ b.1) _ fields fun _ _ _ _ => Iff.rfl).symm

theorem tree_object (fields : List (String × Tree ν)) :
    ((Tree.object fields).text stringText p).toList =
      Char.ofNat 0x7b :: ([','].intercalate ((sortFields fields).map fun field =>
        (stringText field.1).toList ++ ':' :: (field.2.text stringText p).toList) ++
          [Char.ofNat 0x7d]) := by
  have hfield : ∀ key text : String, (stringText key ++ ":" ++ text).toList =
      (stringText key).toList ++ ':' :: text.toList := by
    intro key text
    simp only [String.toList_append, List.append_assoc]
    rfl
  have hmaps : ((sortKeys (treeFields stringText p fields)).map fun field =>
      stringText field.1 ++ ":" ++ field.2).map String.toList =
        (sortFields fields).map fun field =>
          (stringText field.1).toList ++ ':' :: (field.2.text stringText p).toList := by
    rw [sortKeys_treeFields, List.map_map, List.map_map]
    exact List.map_congr_left fun field _ => hfield field.1 (field.2.text stringText p)
  rw [Tree.text]
  simp only [String.toList_append, String.toList_intercalate]
  rw [hmaps]
  rfl

mutual

/-- The text of a tree is never cut. -/
theorem text_balanced (h : ∀ n, Numeral (p n)) :
    ∀ t : Tree ν, Balanced ',' (t.text stringText p).toList
  | .null => balanced_ordinary (word_ordinary "null" (by decide))
  | .bool true => balanced_ordinary (word_ordinary "true" (by decide))
  | .bool false => balanced_ordinary (word_ordinary "false" (by decide))
  | .number n => balanced_ordinary fun c hc => numeric_ordinary ((h n).chars c hc)
  | .string s => stringText_balanced ',' s
  | .array items => by
      rw [tree_array]
      refine Holds.bracketed (holds_intercalate (by decide) (by decide) ?_) (by decide) (by decide)
        (by decide)
      intro t ht
      obtain ⟨a, ha, rfl⟩ := List.mem_map.mp ht
      exact (itemTexts_balanced h items a ha).mono (Nat.zero_le 1)
  | .object fields => by
      rw [tree_object]
      refine Holds.bracketed (holds_intercalate (by decide) (by decide) ?_) (by decide) (by decide)
        (by decide)
      intro t ht
      obtain ⟨field, hfield, rfl⟩ := List.mem_map.mp ht
      have hvalue := fieldTexts_balanced h fields field (mem_sortFields.mp hfield)
      exact (field_balanced hvalue).mono (Nat.zero_le 1)

theorem itemTexts_balanced (h : ∀ n, Numeral (p n)) :
    ∀ items : List (Tree ν), ∀ a ∈ items, Balanced ',' (a.text stringText p).toList
  | [], _, ha => (List.not_mem_nil ha).elim
  | a :: items, b, hb => by
      rcases List.mem_cons.mp hb with hb | hb
      · rw [hb]
        exact text_balanced h a
      · exact itemTexts_balanced h items b hb

theorem fieldTexts_balanced (h : ∀ n, Numeral (p n)) : ∀ fields : List (String × Tree ν),
    ∀ field ∈ fields, Balanced ',' (field.2.text stringText p).toList
  | [], _, hfield => (List.not_mem_nil hfield).elim
  | (_, a) :: fields, other, hother => by
      rcases List.mem_cons.mp hother with hother | hother
      · rw [hother]
        exact text_balanced h a
      · exact fieldTexts_balanced h fields other hother

end

theorem text_ne_nil (h : ∀ n, Numeral (p n)) (t : Tree ν) : (t.text stringText p).toList ≠ [] := by
  cases t with
  | null =>
      have hword : "null".toList ≠ [] := by decide
      exact hword
  | bool b =>
      have hwords : "true".toList ≠ [] ∧ "false".toList ≠ [] := by decide
      cases b with
      | true => exact hwords.1
      | false => exact hwords.2
  | number n => exact (h n).ne_nil
  | string s =>
      intro hnil
      have hlist := stringText_toList s
      rw [show (stringText s).toList = [] from hnil] at hlist
      cases hlist
  | array items =>
      rw [tree_array]
      exact List.cons_ne_nil _ _
  | object fields =>
      rw [tree_object]
      exact List.cons_ne_nil _ _

/-- Equal texts of one array are equal texts of its items. -/
theorem items_text_eq (hp : ∀ n, Numeral (p n)) (hq : ∀ n, Numeral (q n)) {items : List (Tree ν)}
    (h : (Tree.array items).text stringText p = (Tree.array items).text stringText q) :
    ∀ a ∈ items, a.text stringText p = a.text stringText q := by
  have hlist := congrArg String.toList h
  rw [tree_array, tree_array] at hlist
  have hjoined := List.append_cancel_right (List.cons.inj hlist).2
  have hgood : ∀ {r : ν → String}, (∀ n, Numeral (r n)) →
      ∀ t ∈ items.map fun a => (a.text stringText r).toList, Balanced ',' t ∧ t ≠ [] := by
    intro r hr t ht
    obtain ⟨a, _, rfl⟩ := List.mem_map.mp ht
    exact ⟨text_balanced hr a, text_ne_nil hr a⟩
  have hmaps := intercalate_inj (by decide) (hgood hp) (hgood hq) hjoined
  intro a ha
  exact String.toList_inj.mp (List.map_inj_left.mp hmaps a ha)

/-- Equal texts of one object are equal texts of its fields. -/
theorem fields_text_eq (hp : ∀ n, Numeral (p n)) (hq : ∀ n, Numeral (q n))
    {fields : List (String × Tree ν)}
    (h : (Tree.object fields).text stringText p = (Tree.object fields).text stringText q) :
    ∀ field ∈ fields, field.2.text stringText p = field.2.text stringText q := by
  have hlist := congrArg String.toList h
  rw [tree_object, tree_object] at hlist
  have hjoined := List.append_cancel_right (List.cons.inj hlist).2
  have hgood : ∀ {r : ν → String}, (∀ n, Numeral (r n)) →
      ∀ t ∈ (sortFields fields).map fun field =>
        (stringText field.1).toList ++ ':' :: (field.2.text stringText r).toList,
        Balanced ',' t ∧ t ≠ [] := by
    intro r hr t ht
    obtain ⟨field, _, rfl⟩ := List.mem_map.mp ht
    exact ⟨field_balanced (text_balanced hr field.2), by simp⟩
  have hmaps := intercalate_inj (by decide) (hgood hp) (hgood hq) hjoined
  intro field hfield
  have htext := List.map_inj_left.mp hmaps field (mem_sortFields.mpr hfield)
  exact String.toList_inj.mp (List.cons.inj (List.append_cancel_left htext)).2

mutual

theorem numbers_of_text (hp : ∀ n, Numeral (p n)) (hq : ∀ n, Numeral (q n)) : ∀ t : Tree ν,
    t.text stringText p = t.text stringText q → ∀ n ∈ t.numbers, p n = q n
  | .null, _, _, hn => nomatch hn
  | .bool _, _, _, hn => nomatch hn
  | .number n, h, k, hk => by
      obtain rfl := List.mem_singleton.mp hk
      exact h
  | .string _, _, _, hn => nomatch hn
  | .array items, h, n, hn => numbers_of_items hp hq items (items_text_eq hp hq h) n hn
  | .object fields, h, n, hn => numbers_of_fields hp hq fields (fields_text_eq hp hq h) n hn

theorem numbers_of_items (hp : ∀ n, Numeral (p n)) (hq : ∀ n, Numeral (q n)) :
    ∀ items : List (Tree ν), (∀ a ∈ items, a.text stringText p = a.text stringText q) →
      ∀ n ∈ itemNumbers items, p n = q n
  | [], _, _, hn => nomatch hn
  | item :: items, h, n, hn => by
      rcases List.mem_append.mp hn with hn | hn
      · exact numbers_of_text hp hq item (h item List.mem_cons_self) n hn
      · exact numbers_of_items hp hq items (fun a ha => h a (List.mem_cons_of_mem _ ha)) n hn

theorem numbers_of_fields (hp : ∀ n, Numeral (p n)) (hq : ∀ n, Numeral (q n)) :
    ∀ fields : List (String × Tree ν),
      (∀ field ∈ fields, field.2.text stringText p = field.2.text stringText q) →
        ∀ n ∈ fieldNumbers fields, p n = q n
  | [], _, _, hn => nomatch hn
  | (key, item) :: fields, h, n, hn => by
      rcases List.mem_append.mp hn with hn | hn
      · exact numbers_of_text hp hq item (h (key, item) List.mem_cons_self) n hn
      · exact numbers_of_fields hp hq fields (fun a ha => h a (List.mem_cons_of_mem _ ha)) n hn

end

/-- Two printers write a tree alike exactly when they write each of its numbers alike. -/
theorem text_eq_iff (hp : ∀ n, Numeral (p n)) (hq : ∀ n, Numeral (q n)) (t : Tree ν) :
    t.text stringText p = t.text stringText q ↔ ∀ n ∈ t.numbers, p n = q n :=
  ⟨numbers_of_text hp hq t, text_congr t⟩

end texts

/-! ## Trees over the runtime's own numbers -/

mutual

/-- A tree over numbers is a value. -/
def Tree.value : Tree Number → Value
  | .null => .null
  | .bool b => .bool b
  | .number n => .number n
  | .string s => .string s
  | .array items => .array (valueItems items)
  | .object fields => .object (valueFields fields)

def valueItems : List (Tree Number) → List Value
  | [] => []
  | item :: items => item.value :: valueItems items

def valueFields : List (String × Tree Number) → List (String × Value)
  | [] => []
  | (key, item) :: fields => (key, item.value) :: valueFields fields

end

mutual

theorem canonicalJson_value (crates : Crates) : ∀ t : Tree Number,
    canonicalJson crates t.value = t.text stringText (Number.text crates)
  | .null => rfl
  | .bool _ => rfl
  | .number _ => rfl
  | .string _ => rfl
  | .array items => by
      rw [Tree.value, canonicalJson, Tree.text, canonicalItems_value crates items]
  | .object fields => by
      rw [Tree.value, canonicalJson, Tree.text, canonicalFields_value crates fields]

theorem canonicalItems_value (crates : Crates) : ∀ items : List (Tree Number),
    canonicalItems crates (valueItems items) = treeItems stringText (Number.text crates) items
  | [] => rfl
  | item :: items => by
      rw [valueItems, canonicalItems, treeItems, canonicalJson_value crates item,
        canonicalItems_value crates items]

theorem canonicalFields_value (crates : Crates) : ∀ fields : List (String × Tree Number),
    canonicalFields crates (valueFields fields) = treeFields stringText (Number.text crates) fields
  | [] => rfl
  | (key, item) :: fields => by
      rw [valueFields, canonicalFields, treeFields, canonicalJson_value crates item,
        canonicalFields_value crates fields]

end

end CodexMonitor
