import CodexMonitor.Json
import CodexMonitor.Lib.Decoding
import CodexMonitor.Lib.Text
import Mathlib.Data.String.Basic

/-!
# What the canonical text determines

Two values have the same canonical text exactly when they are equal up to the order
of the fields of their objects, at every depth.  Texts of values are balanced, so
the items of an array and the fields of an object are read back; the sorted fields
of two objects agree exactly when the objects have the same fields.
-/

namespace CodexMonitor

open Decoding

/-! ## Numbers -/

/-- The float printer writes the digits of a JSON number, with a point or an exponent, and
different doubles differently. -/
structure Crates.PrintsFloats (crates : Crates) : Prop where
  injective : ∀ a b, crates.floatText a = crates.floatText b → a = b
  numeric : ∀ bits, ∀ c ∈ (crates.floatText bits).toList,
    c.isDigit = true ∨ c ∈ ['-', '+', '.', 'e', 'E']
  fractional : ∀ bits, '.' ∈ (crates.floatText bits).toList ∨ 'e' ∈ (crates.floatText bits).toList

/-- An integer, or the bits of a double. -/
def Number.value : Number → Int ⊕ UInt64
  | .posInt n => .inl n.toNat
  | .negInt n => .inl n.toInt
  | .float bits => .inr bits

/-- Numbers of one value are one `i64`, or both are none. -/
theorem Number.asI64_eq {a b : Number} (h : a.value = b.value) : a.asI64 = b.asI64 := by
  have hinl : ∀ {i j : Int}, (Sum.inl i : Int ⊕ UInt64) = Sum.inl j → i = j := Sum.inl.inj
  have hlow : ∀ (n : UInt64) (m : Int64), (n.toNat : Int) = m.toInt → n.toNat < 2 ^ 63 := by
    intro n m heq
    have hlt := m.toInt_lt
    omega
  cases a with
  | posInt n =>
      cases b with
      | posInt m =>
          have heq : n.toNat = m.toNat := Int.ofNat_inj.mp (hinl h)
          simp only [Number.asI64, heq]
      | negInt m =>
          have heq := hinl h
          simp only [Number.asI64, if_pos (hlow n m heq), heq]
      | float bits => cases h
  | negInt n =>
      cases b with
      | posInt m =>
          have heq := hinl h.symm
          simp only [Number.asI64, if_pos (hlow m n heq), heq]
      | negInt m => exact congrArg some (hinl h)
      | float bits => cases h
  | float bits =>
      cases b with
      | float bits' => rfl
      | posInt m => cases h
      | negInt m => cases h

theorem natText_inj {n m : Nat} (h : n.repr = m.repr) : n = m := by
  have hdigits : Nat.toDigits 10 n = Nat.toDigits 10 m := by
    rw [← Nat.toList_repr, ← Nat.toList_repr, h]
  have hvalue := congrArg (fun l => Nat.ofDigitChars 10 l 0) hdigits
  simpa only [Nat.ofDigitChars_ten_toDigits] using hvalue

theorem natText_digits {n : Nat} : ∀ c ∈ n.repr.toList, c.isDigit = true := by
  intro c hc
  rw [Nat.toList_repr] at hc
  exact Nat.isDigit_of_mem_toDigits (by decide) (by decide) hc

theorem negText_toList (n : Nat) : (toString (Int.negSucc n)).toList = '-' :: (n + 1).repr.toList := by
  show ("-" ++ (n + 1).repr).toList = _
  rw [String.toList_append]
  rfl

theorem intText_chars (i : Int) : ∀ c ∈ (toString i).toList, c.isDigit = true ∨ c = '-' := by
  intro c hc
  cases i with
  | ofNat n => exact Or.inl (natText_digits c hc)
  | negSucc n =>
      rw [negText_toList] at hc
      rcases List.mem_cons.mp hc with rfl | hc
      · exact Or.inr rfl
      · exact Or.inl (natText_digits c hc)

theorem intText_inj {i j : Int} (h : toString i = toString j) : i = j := by
  have hminus : ∀ n m : Nat, toString (Int.ofNat n) ≠ toString (Int.negSucc m) := by
    intro n m heq
    have hmem : '-' ∈ (toString (Int.ofNat n)).toList := by
      rw [heq, negText_toList]
      exact List.mem_cons_self
    have hdigit : Char.isDigit '-' = true := natText_digits '-' hmem
    exact absurd hdigit (by decide)
  cases i with
  | ofNat n =>
      cases j with
      | ofNat m => exact congrArg Int.ofNat (natText_inj h)
      | negSucc m => exact absurd h (hminus n m)
  | negSucc n =>
      cases j with
      | ofNat m => exact absurd h.symm (hminus m n)
      | negSucc m =>
          have hlist := congrArg String.toList h
          rw [negText_toList, negText_toList] at hlist
          have htext := natText_inj (String.toList_inj.mp (List.cons.inj hlist).2)
          rw [Nat.succ.inj htext]

section numbers

variable {crates : Crates}

/-- A number's text consists of the characters of JSON numbers. -/
theorem Number.text_chars (h : crates.PrintsFloats) (n : Number) :
    ∀ c ∈ (n.text crates).toList, c.isDigit = true ∨ c ∈ ['-', '+', '.', 'e', 'E'] := by
  intro c hc
  have hint : ∀ i : Int, c ∈ (toString i).toList →
      c.isDigit = true ∨ c ∈ ['-', '+', '.', 'e', 'E'] := by
    intro i hc
    rcases intText_chars i c hc with hdigit | rfl
    · exact Or.inl hdigit
    · exact Or.inr List.mem_cons_self
  cases n with
  | posInt n => exact hint n.toNat hc
  | negInt n => exact hint n.toInt hc
  | float bits => exact h.numeric bits c hc

theorem Number.text_eq_iff (h : crates.PrintsFloats) {a b : Number} :
    a.text crates = b.text crates ↔ a.value = b.value := by
  have hfloat : ∀ bits (i : Int), crates.floatText bits ≠ toString i := by
    intro bits i heq
    rcases h.fractional bits with hc | hc
    · rw [heq] at hc
      rcases intText_chars i _ hc with hdigit | hminus
      · exact absurd hdigit (by decide)
      · exact absurd hminus (by decide)
    · rw [heq] at hc
      rcases intText_chars i _ hc with hdigit | hminus
      · exact absurd hdigit (by decide)
      · exact absurd hminus (by decide)
  have hinl : ∀ i j : Int, toString i = toString j ↔
      (Sum.inl i : Int ⊕ UInt64) = Sum.inl j :=
    fun i j => ⟨fun heq => by rw [intText_inj heq], fun heq => by rw [Sum.inl.inj heq]⟩
  cases a with
  | posInt n =>
      cases b with
      | posInt m => exact hinl n.toNat m.toNat
      | negInt m => exact hinl n.toNat m.toInt
      | float bits => exact ⟨fun heq => absurd heq.symm (hfloat bits n.toNat), nofun⟩
  | negInt n =>
      cases b with
      | posInt m => exact hinl n.toInt m.toNat
      | negInt m => exact hinl n.toInt m.toInt
      | float bits => exact ⟨fun heq => absurd heq.symm (hfloat bits n.toInt), nofun⟩
  | float bits =>
      cases b with
      | posInt m => exact ⟨fun heq => absurd heq (hfloat bits m.toNat), nofun⟩
      | negInt m => exact ⟨fun heq => absurd heq (hfloat bits m.toInt), nofun⟩
      | float bits' =>
          refine ⟨fun heq => ?_, fun heq => ?_⟩
          · exact congrArg Sum.inr (h.injective bits bits' heq)
          · exact congrArg crates.floatText (Sum.inr.inj heq)

end numbers

/-! ## Strings -/

/-- A condition on the characters of a list is checked along the list, not for every character. -/
instance (priority := 2000) decidableForallChar (l : List Char) (p : Char → Prop)
    [DecidablePred p] : Decidable (∀ c ∈ l, p c) :=
  List.decidableBAll p l

instance (priority := 2000) decidableExistsChar (o : Option Char) (p : Char → Prop)
    [DecidablePred p] : Decidable (∃ c ∈ o, p c) :=
  match o with
  | none => isFalse fun ⟨_, hc, _⟩ => nomatch hc
  | some c => decidable_of_iff (p c) ⟨fun h => ⟨c, rfl, h⟩, fun ⟨_, hc, h⟩ => Option.some.inj hc ▸ h⟩

/-- The characters that are escaped. -/
def escapedChars : List Char := (List.range 32).map Char.ofNat ++ [quote, '\\']

theorem escapeChar_cases (c : Char) :
    c ∈ escapedChars ∨ (c ≠ '\\' ∧ c ≠ quote ∧ escapeChar c = [c]) := by
  by_cases hlow : c.toNat < 32
  · left
    refine List.mem_append_left _ (List.mem_map.mpr ⟨c.toNat, List.mem_range.mpr hlow, ?_⟩)
    exact Char.ofNat_toNat c
  by_cases hquote : c = quote
  · subst hquote
    exact Or.inl (by decide)
  by_cases hslash : c = '\\'
  · subst hslash
    exact Or.inl (by decide)
  · refine Or.inr ⟨hslash, hquote, ?_⟩
    have hne : ∀ d : Char, c ≠ d → c.toNat ≠ d.toNat := fun d hcd heq =>
      hcd (by rw [← Char.ofNat_toNat c, heq, Char.ofNat_toNat])
    have h22 : c.toNat ≠ 0x22 := hne quote hquote
    have h5c : c.toNat ≠ 0x5c := hne '\\' hslash
    unfold escapeChar
    split <;> first | omega | rfl | skip
    rw [if_neg hlow]

/-- No escape begins another. -/
theorem escapeChar_prefix {a b : Char} (h : escapeChar a <+: escapeChar b) : a = b := by
  have hescaped : ∀ a ∈ escapedChars, ∀ b ∈ escapedChars,
      escapeChar a <+: escapeChar b → a = b := by
    decide
  have hhead : ∀ a ∈ escapedChars, (escapeChar a).head? = some '\\' := by decide
  rcases escapeChar_cases a with ha | ⟨haslash, _, ha⟩
  · rcases escapeChar_cases b with hb | ⟨hbslash, _, hb⟩
    · exact hescaped a ha b hb h
    · have hfirst := hhead a ha
      obtain ⟨t, ht⟩ := h
      rw [hb] at ht
      cases hlist : escapeChar a with
      | nil =>
          rw [hlist] at hfirst
          cases hfirst
      | cons x xs =>
          rw [hlist] at hfirst ht
          have hx : x = '\\' := Option.some.inj hfirst
          exact absurd ((List.cons.inj ht).1.symm.trans hx) hbslash
  · obtain ⟨t, ht⟩ := h
    rw [ha] at ht
    rcases escapeChar_cases b with hb | ⟨_, _, hb⟩
    · have hfirst := hhead b hb
      rw [← ht] at hfirst
      exact absurd (Option.some.inj hfirst) haslash
    · rw [hb] at ht
      exact (List.cons.inj ht).1

theorem escapeChar_ne_nil (c : Char) : escapeChar c ≠ [] := by
  rcases escapeChar_cases c with hc | ⟨_, _, hc⟩
  · have hall : ∀ c ∈ escapedChars, escapeChar c ≠ [] := by decide
    exact hall c hc
  · rw [hc]
    exact List.cons_ne_nil c []

theorem stringText_toList (s : String) :
    (stringText s).toList = quote :: (s.toList.flatMap escapeChar ++ [quote]) := by
  unfold stringText
  simp only [String.toList_append, String.toList_ofList]
  rfl

/-- The text of a string determines it. -/
theorem stringText_inj {s t : String} (h : stringText s = stringText t) : s = t := by
  have hlist := congrArg String.toList h
  rw [stringText_toList, stringText_toList] at hlist
  have hbody := List.append_cancel_right (List.cons.inj hlist).2
  exact String.toList_inj.mp (flatMap_inj (fun _ _ => escapeChar_prefix) escapeChar_ne_nil hbody)

/-- A reader inside quotes passes over every escape. -/
theorem cut_escapeChar (sep : Char) (d : Nat) (c : Char) (r : List Char) :
    cut sep d .quoted (escapeChar c ++ r) = escapeChar c ++ cut sep d .quoted r := by
  have hplain : ∀ c : Char, c ≠ '\\' → c ≠ quote → ∀ r,
      cut sep d .quoted (c :: r) = c :: cut sep d .quoted r := by
    intro c hslash hquote r
    rw [cut, if_neg hslash, if_neg hquote]
  rcases escapeChar_cases c with hc | ⟨hslash, hquote, hc⟩
  · have hshape : ∀ c ∈ escapedChars, ∃ x ∈ (escapeChar c).tail.head?,
        escapeChar c = '\\' :: x :: (escapeChar c).drop 2 ∧
          ∀ y ∈ (escapeChar c).drop 2, y ≠ '\\' ∧ y ≠ quote := by
      decide
    obtain ⟨x, _, htext, hrest⟩ := hshape c hc
    have hpass : ∀ ys : List Char, (∀ y ∈ ys, y ≠ '\\' ∧ y ≠ quote) →
        cut sep d .quoted (ys ++ r) = ys ++ cut sep d .quoted r := by
      intro ys
      induction ys with
      | nil => exact fun _ => rfl
      | cons y ys ih =>
          intro hys
          obtain ⟨hyslash, hyquote⟩ := hys y List.mem_cons_self
          rw [List.cons_append, hplain y hyslash hyquote,
            ih fun z hz => hys z (List.mem_cons_of_mem _ hz)]
          rfl
    rw [htext, List.cons_append, List.cons_append, cut, if_pos rfl, cut, hpass _ hrest]
    rfl
  · rw [hc]
    exact hplain c hslash hquote r

theorem stringText_balanced (sep : Char) (s : String) : Balanced sep (stringText s).toList := by
  rw [stringText_toList]
  refine balanced_quoted fun d r => ?_
  induction s.toList with
  | nil => rfl
  | cons c cs ih =>
      rw [List.flatMap_cons, List.append_assoc, cut_escapeChar, ih, List.append_assoc]

/-! ## Equal up to the order of fields -/

mutual

/-- The same value up to the order of the fields of objects, at every depth. -/
def Value.Same : Value → Value → Prop
  | .null, .null => True
  | .bool a, .bool b => a = b
  | .number a, .number b => a.value = b.value
  | .string a, .string b => a = b
  | .array items, .array others => SameItems items others
  | .object fields, .object others => fields.length = others.length ∧ SameFields fields others
  | _, _ => False

/-- The same values in the same order. -/
def SameItems : List Value → List Value → Prop
  | [], [] => True
  | a :: items, b :: others => a.Same b ∧ SameItems items others
  | _, _ => False

/-- Every field of the first list is one of the second, up to the same. -/
def SameFields : List (String × Value) → List (String × Value) → Prop
  | [], _ => True
  | (key, a) :: fields, others => (∃ b, (key, b) ∈ others ∧ a.Same b) ∧ SameFields fields others

end

mutual

/-- No object has two fields of one name. -/
def Value.WellFormed : Value → Prop
  | .array items => ItemsWellFormed items
  | .object fields => (fields.map Prod.fst).Nodup ∧ FieldsWellFormed fields
  | .null | .bool _ | .number _ | .string _ => True

def ItemsWellFormed : List Value → Prop
  | [] => True
  | a :: items => a.WellFormed ∧ ItemsWellFormed items

def FieldsWellFormed : List (String × Value) → Prop
  | [] => True
  | (_, a) :: fields => a.WellFormed ∧ FieldsWellFormed fields

end

mutual

/-- The value with every double replaced. -/
def Value.reread (f : UInt64 → UInt64) : Value → Value
  | .number (.float bits) => .number (.float (f bits))
  | .array items => .array (rereadItems f items)
  | .object fields => .object (rereadFields f fields)
  | .null => .null
  | .bool b => .bool b
  | .number (.posInt n) => .number (.posInt n)
  | .number (.negInt n) => .number (.negInt n)
  | .string s => .string s

def rereadItems (f : UInt64 → UInt64) : List Value → List Value
  | [] => []
  | item :: items => item.reread f :: rereadItems f items

def rereadFields (f : UInt64 → UInt64) : List (String × Value) → List (String × Value)
  | [] => []
  | (key, value) :: fields => (key, value.reread f) :: rereadFields f fields

end

theorem mem_sameFields {fields others : List (String × Value)} (h : SameFields fields others)
    {key : String} {a : Value} (ha : (key, a) ∈ fields) : ∃ b, (key, b) ∈ others ∧ a.Same b := by
  induction fields with
  | nil => cases ha
  | cons field fields ih =>
      rcases List.mem_cons.mp ha with rfl | ha
      · exact h.1
      · exact ih h.2 ha

theorem wellFormed_of_mem {fields : List (String × Value)} (h : FieldsWellFormed fields)
    {key : String} {a : Value} (ha : (key, a) ∈ fields) : a.WellFormed := by
  induction fields with
  | nil => cases ha
  | cons field fields ih =>
      rcases List.mem_cons.mp ha with rfl | ha
      · exact h.1
      · exact ih h.2 ha

/-- The field a lookup finds, when names are unique. -/
theorem get_object {fields : List (String × Value)} (h : (fields.map Prod.fst).Nodup)
    {key : String} {a : Value} : (Value.object fields).get key = some a ↔ (key, a) ∈ fields := by
  show (fields.find? fun field => field.1 = key).map Prod.snd = some a ↔ _
  constructor
  · intro hget
    obtain ⟨⟨key', a'⟩, hfind, rfl⟩ := Option.map_eq_some_iff.mp hget
    obtain rfl : key' = key := of_decide_eq_true (List.find?_some hfind :)
    exact List.mem_of_find?_eq_some hfind
  · intro hmem
    cases hfind : fields.find? fun field => field.1 = key with
    | none => exact absurd (List.find?_eq_none.mp hfind (key, a) hmem) (by simp)
    | some other =>
        have hkey : other.1 = key := of_decide_eq_true (List.find?_some hfind :)
        have heq := List.inj_on_of_nodup_map h (List.mem_of_find?_eq_some hfind) hmem hkey
        rw [heq]
        rfl

/-- Objects that are the same have the same names. -/
theorem sameFields_keys {fields others : List (String × Value)}
    (hnodup : (fields.map Prod.fst).Nodup) (hlength : fields.length = others.length)
    (h : SameFields fields others) : (fields.map Prod.fst).Perm (others.map Prod.fst) := by
  have hsub : fields.map Prod.fst ⊆ others.map Prod.fst := by
    intro key hkey
    obtain ⟨⟨_, a⟩, ha, rfl⟩ := List.mem_map.mp hkey
    obtain ⟨b, hb, _⟩ := mem_sameFields h ha
    exact List.mem_map.mpr ⟨_, hb, rfl⟩
  refine (List.subperm_of_subset hnodup hsub).perm_of_length_le ?_
  rw [List.length_map, List.length_map, hlength]

/-- Lookups in two values that are the same find values that are the same, or both find none. -/
theorem Value.Same.get {a b : Value} (h : a.Same b) (ha : a.WellFormed) (hb : b.WellFormed)
    (key : String) :
    (a.get key = none ∧ b.get key = none) ∨
      ∃ x y, a.get key = some x ∧ b.get key = some y ∧ x.Same y := by
  cases a with
  | object fields =>
      cases b with
      | object others =>
          have hkeys := sameFields_keys ha.1 h.1 h.2
          cases hx : (Value.object fields).get key with
          | some x =>
              obtain ⟨y, hy, hsame⟩ := mem_sameFields h.2 ((get_object ha.1).mp hx)
              exact Or.inr ⟨x, y, rfl, (get_object hb.1).mpr hy, hsame⟩
          | none =>
              refine Or.inl ⟨rfl, ?_⟩
              cases hy : (Value.object others).get key with
              | none => rfl
              | some y =>
                  have hmem := List.mem_map_of_mem (f := Prod.fst) ((get_object hb.1).mp hy)
                  obtain ⟨⟨_, x⟩, hfield, rfl⟩ := List.mem_map.mp (hkeys.mem_iff.mpr hmem)
                  rw [(get_object ha.1).mpr hfield] at hx
                  cases hx
      | _ => exact h.elim
  | _ =>
      cases b with
      | object others => exact h.elim
      | _ => exact Or.inl ⟨rfl, rfl⟩

theorem Value.Same.asStr {a b : Value} (h : a.Same b) : a.asStr = b.asStr := by
  cases a with
  | string s =>
      cases b with
      | string t => exact congrArg some h
      | _ => exact h.elim
  | _ =>
      cases b with
      | string t => exact h.elim
      | _ => rfl

theorem Value.Same.asI64 {a b : Value} (h : a.Same b) : a.asI64 = b.asI64 := by
  cases a with
  | number n =>
      cases b with
      | number m => exact Number.asI64_eq h
      | _ => exact h.elim
  | _ =>
      cases b with
      | number m => exact h.elim
      | _ => rfl

/-! ## Texts of values are balanced -/

section texts

variable {crates : Crates}

theorem canonicalItems_eq_map (items : List Value) :
    canonicalItems crates items = items.map (canonicalJson crates) := by
  induction items with
  | nil => rfl
  | cons a items ih => rw [canonicalItems, ih, List.map_cons]

theorem canonicalFields_eq_map (fields : List (String × Value)) :
    canonicalFields crates fields =
      fields.map fun field => (field.1, canonicalJson crates field.2) := by
  induction fields with
  | nil => rfl
  | cons field fields ih => rw [canonicalFields, ih, List.map_cons]

theorem perm_sortKeys (fields : List (String × String)) : (sortKeys fields).Perm fields :=
  List.perm_insertionSort _ _

theorem mem_sortKeys {fields : List (String × String)} {field : String × String} :
    field ∈ sortKeys fields ↔ field ∈ fields :=
  List.mem_insertionSort _

/-- The texts of the fields of an object, in the order they are written. -/
def fieldTexts (crates : Crates) (fields : List (String × Value)) : List (List Char) :=
  (sortKeys (canonicalFields crates fields)).map fun field =>
    (stringText field.1).toList ++ ':' :: field.2.toList

theorem canonicalJson_array (items : List Value) : (canonicalJson crates (.array items)).toList =
    '[' :: ([','].intercalate (items.map fun a => (canonicalJson crates a).toList) ++ [']']) := by
  rw [canonicalJson, canonicalItems_eq_map]
  simp only [String.toList_append, String.toList_intercalate, List.map_map]
  rfl

theorem canonicalJson_object (fields : List (String × Value)) :
    (canonicalJson crates (.object fields)).toList =
      Char.ofNat 0x7b ::
        ([','].intercalate (fieldTexts crates fields) ++ [Char.ofNat 0x7d]) := by
  have hfield : ∀ field : String × String, (stringText field.1 ++ ":" ++ field.2).toList =
      (stringText field.1).toList ++ ':' :: field.2.toList := by
    intro field
    simp only [String.toList_append, List.append_assoc]
    rfl
  rw [canonicalJson]
  simp only [String.toList_append, String.toList_intercalate, List.map_map, Function.comp_def,
    hfield]
  rfl

/-- A number's characters are no separators. -/
theorem numeric_ordinary {c : Char} (h : c.isDigit = true ∨ c ∈ ['-', '+', '.', 'e', 'E']) :
    Ordinary c ∧ c ≠ ',' := by
  have hother : ∀ d ∈ [quote, ',', '[', ']', Char.ofNat 0x7b, Char.ofNat 0x7d],
      d.isDigit = false ∧ d ∉ ['-', '+', '.', 'e', 'E'] := by
    decide
  have hne : ∀ d ∈ [quote, ',', '[', ']', Char.ofNat 0x7b, Char.ofNat 0x7d], c ≠ d := by
    rintro d hd rfl
    obtain ⟨hdigit, hsign⟩ := hother c hd
    rcases h with h | h
    · rw [hdigit] at h
      cases h
    · exact hsign h
  refine ⟨⟨hne _ (by simp), ?_, ?_⟩, hne _ (by simp)⟩
  · intro hopen
    rcases List.mem_cons.mp hopen with hc | hc
    · exact hne _ (by simp) hc
    · exact hne _ (by simp) (List.mem_singleton.mp hc)
  · intro hclose
    rcases List.mem_cons.mp hclose with hc | hc
    · exact hne _ (by simp) hc
    · exact hne _ (by simp) (List.mem_singleton.mp hc)

theorem word_ordinary : ∀ word ∈ ["null", "true", "false"], ∀ c ∈ word.toList,
    Ordinary c ∧ c ≠ ',' := by
  decide

/-- The text of one field, given that its value's text is balanced. -/
theorem field_balanced {key : String} {text : List Char} (h : Balanced ',' text) :
    Balanced ',' ((stringText key).toList ++ ':' :: text) := by
  have hcolon : Balanced ',' [':'] := holds_ordinary (by decide) (Or.inl (by decide))
  exact (stringText_balanced ',' key).append (Holds.append (t := [':']) hcolon h)

mutual

/-- The text of a value is never cut. -/
theorem canonicalJson_balanced (h : crates.PrintsFloats) :
    ∀ a : Value, Balanced ',' (canonicalJson crates a).toList
  | .null => balanced_ordinary (word_ordinary "null" (by decide))
  | .bool true => balanced_ordinary (word_ordinary "true" (by decide))
  | .bool false => balanced_ordinary (word_ordinary "false" (by decide))
  | .number n => balanced_ordinary fun c hc => numeric_ordinary (n.text_chars h c hc)
  | .string s => stringText_balanced ',' s
  | .array items => by
      rw [canonicalJson_array]
      refine Holds.bracketed (holds_intercalate (by decide) (by decide) ?_) (by decide) (by decide)
        (by decide)
      intro t ht
      obtain ⟨a, ha, rfl⟩ := List.mem_map.mp ht
      exact (items_balanced h items a ha).mono (Nat.zero_le 1)
  | .object fields => by
      rw [canonicalJson_object]
      refine Holds.bracketed (holds_intercalate (by decide) (by decide) ?_) (by decide) (by decide)
        (by decide)
      intro t ht
      obtain ⟨field, hfield, rfl⟩ := List.mem_map.mp ht
      rw [mem_sortKeys, canonicalFields_eq_map] at hfield
      obtain ⟨source, hsource, rfl⟩ := List.mem_map.mp hfield
      exact (field_balanced (fields_balanced h fields source hsource)).mono (Nat.zero_le 1)

theorem items_balanced (h : crates.PrintsFloats) :
    ∀ items : List Value, ∀ a ∈ items, Balanced ',' (canonicalJson crates a).toList
  | [], _, ha => (List.not_mem_nil ha).elim
  | a :: items, b, hb => by
      rcases List.mem_cons.mp hb with hb | hb
      · rw [hb]
        exact canonicalJson_balanced h a
      · exact items_balanced h items b hb

theorem fields_balanced (h : crates.PrintsFloats) : ∀ fields : List (String × Value),
    ∀ field ∈ fields, Balanced ',' (canonicalJson crates field.2).toList
  | [], _, hfield => (List.not_mem_nil hfield).elim
  | (key, a) :: fields, other, hother => by
      rcases List.mem_cons.mp hother with hother | hother
      · rw [hother]
        exact canonicalJson_balanced h a
      · exact fields_balanced h fields other hother

end

/-! ## Reading a text back -/

/-- What a value's text starts with tells its constructor. -/
def leadKind (c : Char) : Nat :=
  if c = 'n' then 0 else if c = 't' ∨ c = 'f' then 1 else if c = quote then 3
  else if c = '[' then 4 else if c = Char.ofNat 0x7b then 5 else 2

def Value.kind : Value → Nat
  | .null => 0
  | .bool _ => 1
  | .number _ => 2
  | .string _ => 3
  | .array _ => 4
  | .object _ => 5

theorem numeric_kind {c : Char} (h : c.isDigit = true ∨ c ∈ ['-', '+', '.', 'e', 'E']) :
    leadKind c = 2 := by
  have hother : ∀ d ∈ ['n', 't', 'f', quote, '[', Char.ofNat 0x7b],
      d.isDigit = false ∧ d ∉ ['-', '+', '.', 'e', 'E'] := by
    decide
  have hne : ∀ d ∈ ['n', 't', 'f', quote, '[', Char.ofNat 0x7b], c ≠ d := by
    rintro d hd rfl
    obtain ⟨hdigit, hsign⟩ := hother c hd
    rcases h with h | h
    · rw [hdigit] at h
      cases h
    · exact hsign h
  unfold leadKind
  rw [if_neg (hne _ (by simp)), if_neg, if_neg (hne _ (by simp)), if_neg (hne _ (by simp)),
    if_neg (hne _ (by simp))]
  rintro (hc | hc)
  · exact hne _ (by simp) hc
  · exact hne _ (by simp) hc

theorem number_text_ne_nil (h : crates.PrintsFloats) (n : Number) :
    (n.text crates).toList ≠ [] := by
  have hint : ∀ i : Int, (toString i).toList ≠ [] := by
    intro i hnil
    cases i with
    | ofNat n =>
        have hlist : n.repr.toList = [] := hnil
        rw [Nat.toList_repr] at hlist
        exact Nat.toDigits_ne_nil hlist
    | negSucc n =>
        rw [negText_toList] at hnil
        cases hnil
  cases n with
  | posInt n => exact hint n.toNat
  | negInt n => exact hint n.toInt
  | float bits =>
      intro hnil
      have hnil : (crates.floatText bits).toList = [] := hnil
      rcases h.fractional bits with hc | hc <;> rw [hnil] at hc <;> cases hc

/-- A text starts as its value's constructor has it. -/
theorem canonicalJson_lead (h : crates.PrintsFloats) (a : Value) :
    ∃ c cs, (canonicalJson crates a).toList = c :: cs ∧ leadKind c = a.kind := by
  cases a with
  | null =>
      have htext : "null".toList = 'n' :: ['u', 'l', 'l'] := by decide
      exact ⟨'n', _, htext, rfl⟩
  | bool b =>
      have htrue : "true".toList = 't' :: ['r', 'u', 'e'] := by decide
      have hfalse : "false".toList = 'f' :: ['a', 'l', 's', 'e'] := by decide
      cases b with
      | true => exact ⟨'t', _, htrue, rfl⟩
      | false => exact ⟨'f', _, hfalse, rfl⟩
  | number n =>
      obtain ⟨c, cs, hlist⟩ := List.exists_cons_of_ne_nil (number_text_ne_nil h n)
      refine ⟨c, cs, hlist, numeric_kind (n.text_chars h c ?_)⟩
      rw [hlist]
      exact List.mem_cons_self
  | string s => exact ⟨quote, _, stringText_toList s, rfl⟩
  | array items => exact ⟨'[', _, canonicalJson_array items, rfl⟩
  | object fields => exact ⟨Char.ofNat 0x7b, _, canonicalJson_object fields, rfl⟩

theorem kind_eq (h : crates.PrintsFloats) {a b : Value}
    (heq : canonicalJson crates a = canonicalJson crates b) : a.kind = b.kind := by
  obtain ⟨c, cs, ha, hc⟩ := canonicalJson_lead h a
  obtain ⟨d, ds, hb, hd⟩ := canonicalJson_lead h b
  rw [heq, hb] at ha
  rw [← hc, ← hd, (List.cons.inj ha).1]

theorem canonicalJson_ne_nil (h : crates.PrintsFloats) (a : Value) :
    (canonicalJson crates a).toList ≠ [] := by
  obtain ⟨c, cs, hlist, _⟩ := canonicalJson_lead h a
  rw [hlist]
  exact List.cons_ne_nil c cs

/-- Equal texts of arrays are equal texts of their items. -/
theorem items_texts_eq (h : crates.PrintsFloats) {items others : List Value}
    (heq : canonicalJson crates (.array items) = canonicalJson crates (.array others)) :
    items.map (canonicalJson crates) = others.map (canonicalJson crates) := by
  have hlist := congrArg String.toList heq
  rw [canonicalJson_array, canonicalJson_array] at hlist
  have hjoined := List.append_cancel_right (List.cons.inj hlist).2
  have hgood : ∀ (l : List Value), ∀ t ∈ l.map fun a => (canonicalJson crates a).toList,
      Balanced ',' t ∧ t ≠ [] := by
    intro l t ht
    obtain ⟨a, _, rfl⟩ := List.mem_map.mp ht
    exact ⟨canonicalJson_balanced h a, canonicalJson_ne_nil h a⟩
  have hitems := intercalate_inj (by decide) (hgood items) (hgood others) hjoined
  have hmaps : (items.map (canonicalJson crates)).map String.toList =
      (others.map (canonicalJson crates)).map String.toList := by
    simpa only [List.map_map, Function.comp_def] using hitems
  exact List.map_injective_iff.mpr (fun _ _ => String.toList_inj.mp) hmaps

/-- Equal texts of objects are equal texts of their sorted fields. -/
theorem fields_texts_eq (h : crates.PrintsFloats) {fields others : List (String × Value)}
    (heq : canonicalJson crates (.object fields) = canonicalJson crates (.object others)) :
    sortKeys (canonicalFields crates fields) = sortKeys (canonicalFields crates others) := by
  have hlist := congrArg String.toList heq
  rw [canonicalJson_object, canonicalJson_object] at hlist
  have hjoined := List.append_cancel_right (List.cons.inj hlist).2
  have hvalue : ∀ (l : List (String × Value)), ∀ field ∈ sortKeys (canonicalFields crates l),
      ∃ a, field.2 = canonicalJson crates a := by
    intro l field hfield
    rw [mem_sortKeys, canonicalFields_eq_map] at hfield
    obtain ⟨source, _, rfl⟩ := List.mem_map.mp hfield
    exact ⟨source.2, rfl⟩
  have hgood : ∀ (l : List (String × Value)), ∀ t ∈ fieldTexts crates l,
      Balanced ',' t ∧ t ≠ [] := by
    intro l t ht
    obtain ⟨field, hfield, rfl⟩ := List.mem_map.mp ht
    obtain ⟨a, ha⟩ := hvalue l field hfield
    rw [ha]
    exact ⟨field_balanced (canonicalJson_balanced h a), by simp⟩
  have htexts := intercalate_inj (by decide) (hgood fields) (hgood others) hjoined
  -- a field's text is its key's, a colon, and its value's
  refine List.map_injective_iff.mpr ?_ htexts
  rintro ⟨key, text⟩ ⟨key', text'⟩ hfield
  obtain ⟨hkey, hrest⟩ := (stringText_balanced ':' key).unique (stringText_balanced ':' key')
    (stops_sep (by decide)) (stops_sep (by decide)) hfield
  have hkey := stringText_inj (String.toList_inj.mp hkey)
  have htext := String.toList_inj.mp (List.cons.inj hrest).2
  exact Prod.ext hkey htext

mutual

/-- Values of one text are the same up to the order of fields. -/
theorem same_of_text (h : crates.PrintsFloats) : ∀ a b : Value,
    canonicalJson crates a = canonicalJson crates b → a.Same b
  | .null, b, heq => by
      cases b with
      | null => trivial
      | _ => cases kind_eq h heq
  | .bool a, b, heq => by
      cases b with
      | bool b =>
          have hwords : "true" ≠ "false" := by decide
          cases a with
          | true =>
              cases b with
              | true => exact rfl
              | false => exact absurd heq hwords
          | false =>
              cases b with
              | true => exact absurd heq.symm hwords
              | false => exact rfl
      | _ => cases kind_eq h heq
  | .number a, b, heq => by
      cases b with
      | number b => exact (Number.text_eq_iff h).mp heq
      | _ => cases kind_eq h heq
  | .string a, b, heq => by
      cases b with
      | string b => exact stringText_inj heq
      | _ => cases kind_eq h heq
  | .array items, b, heq => by
      cases b with
      | array others => exact sameItems_of_texts h items others (items_texts_eq h heq)
      | _ => cases kind_eq h heq
  | .object fields, b, heq => by
      cases b with
      | object others =>
          have hsorted := fields_texts_eq h heq
          have hperm : (canonicalFields crates fields).Perm (canonicalFields crates others) := by
            refine (perm_sortKeys _).symm.trans ?_
            rw [hsorted]
            exact perm_sortKeys _
          refine ⟨?_, sameFields_of_texts h fields others fun field hfield => ?_⟩
          · have hlength := hperm.length_eq
            simpa only [canonicalFields_eq_map, List.length_map] using hlength
          · refine hperm.subset ?_
            rw [canonicalFields_eq_map]
            exact List.mem_map.mpr ⟨field, hfield, rfl⟩
      | _ => cases kind_eq h heq

theorem sameItems_of_texts (h : crates.PrintsFloats) : ∀ items others : List Value,
    items.map (canonicalJson crates) = others.map (canonicalJson crates) → SameItems items others
  | [], others, heq => by
      cases others with
      | nil => trivial
      | cons b others => cases heq
  | a :: items, others, heq => by
      cases others with
      | nil => cases heq
      | cons b others =>
          obtain ⟨hhead, htail⟩ := List.cons.inj heq
          exact ⟨same_of_text h a b hhead, sameItems_of_texts h items others htail⟩

theorem sameFields_of_texts (h : crates.PrintsFloats) : ∀ fields others : List (String × Value),
    (∀ field ∈ fields,
      (field.1, canonicalJson crates field.2) ∈ canonicalFields crates others) →
    SameFields fields others
  | [], _, _ => trivial
  | (key, a) :: fields, others, hsub => by
      refine ⟨?_, sameFields_of_texts h fields others fun field hfield =>
        hsub field (List.mem_cons_of_mem _ hfield)⟩
      have hmem := hsub (key, a) List.mem_cons_self
      rw [canonicalFields_eq_map] at hmem
      obtain ⟨⟨key', b⟩, hother, hpair⟩ := List.mem_map.mp hmem
      obtain ⟨rfl, htext⟩ := Prod.mk.inj hpair
      exact ⟨b, hother, same_of_text h a b htext.symm⟩

end

/-- Lists of fields with the same fields, one each of its name, are sorted alike. -/
theorem sortKeys_eq {fields others : List (String × String)}
    (hnodup : (fields.map Prod.fst).Nodup) (h : fields.Perm others) :
    sortKeys fields = sortKeys others := by
  have hpair : ∀ l : List (String × String),
      (sortKeys l).Pairwise fun a b => a.1 ≤ b.1 := by
    intro l
    have : Std.Total fun a b : String × String => a.1 ≤ b.1 := ⟨fun a b => le_total a.1 b.1⟩
    have : IsTrans (String × String) fun a b => a.1 ≤ b.1 := ⟨fun _ _ _ => le_trans⟩
    exact List.pairwise_insertionSort _ l
  have hperm : (sortKeys fields).Perm (sortKeys others) :=
    ((perm_sortKeys fields).trans h).trans (perm_sortKeys others).symm
  refine hperm.eq_of_pairwise (fun a b ha hb hab hba => ?_) (hpair fields) (hpair others)
  have hb : b ∈ fields := h.mem_iff.mpr (mem_sortKeys.mp hb)
  exact List.inj_on_of_nodup_map hnodup (mem_sortKeys.mp ha) hb (le_antisymm hab hba)

mutual

/-- Values that are the same up to the order of fields have one text. -/
theorem text_of_same (h : crates.PrintsFloats) : ∀ a b : Value, a.WellFormed → b.WellFormed →
    a.Same b → canonicalJson crates a = canonicalJson crates b
  | .null, b, _, _, hsame => by
      cases b with
      | null => rfl
      | _ => exact hsame.elim
  | .bool a, b, _, _, hsame => by
      cases b with
      | bool b => exact congrArg (fun b => canonicalJson crates (.bool b)) hsame
      | _ => exact hsame.elim
  | .number a, b, _, _, hsame => by
      cases b with
      | number b => exact (Number.text_eq_iff h).mpr hsame
      | _ => exact hsame.elim
  | .string a, b, _, _, hsame => by
      cases b with
      | string b => exact congrArg stringText hsame
      | _ => exact hsame.elim
  | .array items, b, ha, hb, hsame => by
      cases b with
      | array others =>
          rw [canonicalJson, canonicalJson, texts_of_sameItems h items others ha hb hsame]
      | _ => exact hsame.elim
  | .object fields, b, ha, hb, hsame => by
      cases b with
      | object others =>
          have hsub := texts_of_sameFields h fields others ha.2 hb.2 hsame.2
          have hnodup : ((canonicalFields crates fields).map Prod.fst).Nodup := by
            rw [canonicalFields_eq_map, List.map_map]
            exact ha.1
          have hlength : (canonicalFields crates others).length ≤
              (canonicalFields crates fields).length := by
            simp only [canonicalFields_eq_map, List.length_map, hsame.1, le_refl]
          have hperm : (canonicalFields crates fields).Perm (canonicalFields crates others) :=
            (List.subperm_of_subset hnodup.of_map hsub).perm_of_length_le hlength
          rw [canonicalJson, canonicalJson, sortKeys_eq hnodup hperm]
      | _ => exact hsame.elim

theorem texts_of_sameItems (h : crates.PrintsFloats) : ∀ items others : List Value,
    ItemsWellFormed items → ItemsWellFormed others → SameItems items others →
    canonicalItems crates items = canonicalItems crates others
  | [], others, _, _, hsame => by
      cases others with
      | nil => rfl
      | cons b others => exact hsame.elim
  | a :: items, others, ha, hb, hsame => by
      cases others with
      | nil => exact hsame.elim
      | cons b others =>
          rw [canonicalItems, canonicalItems, text_of_same h a b ha.1 hb.1 hsame.1,
            texts_of_sameItems h items others ha.2 hb.2 hsame.2]

theorem texts_of_sameFields (h : crates.PrintsFloats) : ∀ fields others : List (String × Value),
    FieldsWellFormed fields → FieldsWellFormed others → SameFields fields others →
    canonicalFields crates fields ⊆ canonicalFields crates others
  | [], _, _, _, _ => List.nil_subset _
  | (key, a) :: fields, others, ha, hb, hsame => by
      obtain ⟨⟨b, hother, hvalue⟩, hrest⟩ := hsame
      refine List.cons_subset.mpr ⟨?_, texts_of_sameFields h fields others ha.2 hb hrest⟩
      rw [text_of_same h a b ha.1 (wellFormed_of_mem hb hother) hvalue, canonicalFields_eq_map]
      exact List.mem_map.mpr ⟨(key, b), hother, rfl⟩

end

theorem canonicalJson_eq_iff (h : crates.PrintsFloats) {a b : Value} (ha : a.WellFormed)
    (hb : b.WellFormed) : canonicalJson crates a = canonicalJson crates b ↔ a.Same b :=
  ⟨same_of_text h a b, text_of_same h a b ha hb⟩

end texts

/-! ## Sizes -/

theorem append_bytes (a b c : String) :
    (a ++ b ++ c).utf8ByteSize = a.utf8ByteSize + b.utf8ByteSize + c.utf8ByteSize := by
  rw [String.utf8ByteSize_append, String.utf8ByteSize_append]

theorem intercalate_bytes {texts : List String} (hne : texts ≠ []) :
    (",".intercalate texts).utf8ByteSize + 1 =
      (texts.map fun text => text.utf8ByteSize + 1).sum := by
  have hcomma : ",".utf8ByteSize = 1 := by decide
  induction texts with
  | nil => exact absurd rfl hne
  | cons text texts ih =>
      by_cases hlast : texts = []
      · subst hlast
        simp
      · have hrest := ih hlast
        rw [String.intercalate_cons_of_ne_nil hlast, String.utf8ByteSize_append,
          String.utf8ByteSize_append, List.map_cons, List.sum_cons]
        omega

/-- The bytes of a field with the colon and the comma or brace behind it. -/
def fieldBytes (crates : Crates) (field : String × Value) : Nat :=
  (stringText field.1).utf8ByteSize + (canonicalJson crates field.2).utf8ByteSize + 2

/-- The text of an object is as long as its fields are, in whatever order. -/
theorem object_bytes (crates : Crates) {fields : List (String × Value)} (hne : fields ≠ []) :
    (canonicalJson crates (.object fields)).utf8ByteSize =
      1 + (fields.map (fieldBytes crates)).sum := by
  have hbrace : "\x7b".utf8ByteSize = 1 ∧ "\x7d".utf8ByteSize = 1 := by decide
  have hcolon : ":".utf8ByteSize = 1 := by decide
  have hsorted : sortKeys (canonicalFields crates fields) ≠ [] := by
    intro hnil
    have hperm := perm_sortKeys (canonicalFields crates fields)
    rw [hnil, List.nil_perm, canonicalFields_eq_map] at hperm
    exact hne (List.map_eq_nil_iff.mp hperm)
  have hjoined := intercalate_bytes (show (sortKeys (canonicalFields crates fields)).map
    (fun field => stringText field.1 ++ ":" ++ field.2) ≠ [] by simpa using hsorted)
  have hsum : ((sortKeys (canonicalFields crates fields)).map fun field =>
        (stringText field.1).utf8ByteSize + field.2.utf8ByteSize + 2).sum =
      (fields.map (fieldBytes crates)).sum := by
    rw [((perm_sortKeys _).map _).sum_nat, canonicalFields_eq_map, List.map_map]
    rfl
  have heach : ∀ field : String × String, (stringText field.1 ++ ":" ++ field.2).utf8ByteSize + 1 =
      (stringText field.1).utf8ByteSize + field.2.utf8ByteSize + 2 := by
    intro field
    rw [String.utf8ByteSize_append, String.utf8ByteSize_append, hcolon]
    omega
  rw [List.map_map] at hjoined
  simp only [Function.comp_def, heach] at hjoined
  rw [canonicalJson, String.utf8ByteSize_append, String.utf8ByteSize_append, hbrace.1, hbrace.2]
  omega

/-- The text of a string of ASCII characters that are not escaped has two bytes more than it. -/
theorem stringText_bytes {s : String}
    (h : ∀ c ∈ s.toList, escapeChar c = [c] ∧ c.utf8Size = 1) :
    (stringText s).utf8ByteSize = s.toList.length + 2 := by
  have hlist : ∀ cs : List Char, (∀ c ∈ cs, escapeChar c = [c] ∧ c.utf8Size = 1) →
      (String.ofList (cs.flatMap escapeChar)).utf8ByteSize = cs.length := by
    intro cs hcs
    induction cs with
    | nil => rfl
    | cons c cs ih =>
        obtain ⟨hescape, hsize⟩ := hcs c List.mem_cons_self
        rw [List.flatMap_cons, hescape, List.singleton_append, Text.ofList_cons_bytes, hsize,
          ih fun d hd => hcs d (List.mem_cons_of_mem _ hd), List.length_cons]
        omega
  have hquote : "\"".utf8ByteSize = 1 := by decide
  rw [stringText, append_bytes, hlist _ h, hquote]
  omega

/-- An escape has at most six bytes. -/
theorem stringText_bytes_le (s : String) :
    (stringText s).utf8ByteSize ≤ 6 * s.utf8ByteSize + 2 := by
  have hescaped : ∀ c ∈ escapedChars, (String.ofList (escapeChar c)).utf8ByteSize ≤ 6 := by decide
  have hchar : ∀ c, (String.ofList (escapeChar c)).utf8ByteSize ≤ 6 * c.utf8Size := by
    intro c
    have hpos := c.utf8Size_pos
    rcases escapeChar_cases c with hc | ⟨_, _, hplain⟩
    · have hsix := hescaped c hc
      omega
    · rw [hplain, Text.ofList_cons_bytes]
      simp
      omega
  have hlist : ∀ cs : List Char, (String.ofList (cs.flatMap escapeChar)).utf8ByteSize ≤
      6 * (String.ofList cs).utf8ByteSize := by
    intro cs
    induction cs with
    | nil => exact Nat.le_refl 0
    | cons c cs ih =>
        have hc := hchar c
        rw [List.flatMap_cons, String.ofList_append, String.utf8ByteSize_append,
          Text.ofList_cons_bytes]
        omega
  have hquote : "\"".utf8ByteSize = 1 := by decide
  have hs := hlist s.toList
  rw [String.ofList_toList] at hs
  rw [stringText, append_bytes, hquote]
  omega

end CodexMonitor
