import Mathlib.Algebra.GroupWithZero.Nat
import Mathlib.Data.List.Infix
import Mathlib.Data.List.TakeWhile
import Mathlib.Tactic.Common

/-!
# Texts within texts

A text cut at a separator, and a search for a fixed text in words followed by a foreign
text.  `Apart` says that the search cannot end inside the words and cannot begin there
either, and `infix_append_iff` that it then looks at the foreign text alone.
-/

namespace Text

/-- Lower case, as far as ASCII goes: of the other characters only the Kelvin sign and the dotted
capital I have ASCII in their lower case. -/
def lowercase (c : Char) : List Char :=
  if c.toNat = 0x212a then ['k']
  else if c.toNat = 0x130 then ['i', Char.ofNat 0x307]
  else [c.toLower]

/-- `str::to_lowercase`, as far as ASCII goes. -/
def toLowercase (s : String) : String := String.ofList (s.toList.flatMap lowercase)

theorem toList_toLowercase (s : String) :
    (toLowercase s).toList = s.toList.flatMap lowercase := by
  simp [toLowercase]

/-- The bytes of a text are those of its characters. -/
theorem ofList_cons_bytes (c : Char) (cs : List Char) :
    (String.ofList (c :: cs)).utf8ByteSize = c.utf8Size + (String.ofList cs).utf8ByteSize := by
  have hsplit : String.ofList (c :: cs) = String.singleton c ++ String.ofList cs := by
    rw [String.singleton_eq_ofList, ← String.ofList_append]
    rfl
  rw [hsplit, String.utf8ByteSize_append, String.utf8ByteSize_singleton]

section pieces

variable {α : Type}

/-- The pieces between separators hold no separator. -/
theorem not_mem_piece [DecidableEq α] {sep : α} {l piece : List α}
    (h : piece ∈ l.splitOn sep) : sep ∉ piece := by
  induction l generalizing piece with
  | nil =>
      obtain rfl : piece = [] := by simpa using h
      exact List.not_mem_nil
  | cons a l ih =>
      have hcons : (a :: l).splitOn sep =
          if a == sep then [] :: l.splitOn sep else (l.splitOn sep).modifyHead (a :: ·) :=
        List.splitOnP_cons_eq_if_modifyHead a l
      rw [hcons] at h
      by_cases ha : a = sep
      · rw [if_pos (by simpa using ha)] at h
        rcases List.mem_cons.mp h with rfl | hmem
        · exact List.not_mem_nil
        · exact ih hmem
      · rw [if_neg (by simpa using ha)] at h
        cases hpieces : l.splitOn sep with
        | nil => exact absurd hpieces (List.splitOnP_ne_nil _ l)
        | cons first pieces =>
            rw [hpieces] at h ih
            rcases List.mem_cons.mp h with rfl | hmem
            · intro hsep
              rcases List.mem_cons.mp hsep with heq | hmem
              · exact ha heq.symm
              · exact ih List.mem_cons_self hmem
            · exact ih (List.mem_cons_of_mem first hmem)

/-- The parts before and behind the first separator. -/
def splitOnce [DecidableEq α] (sep : α) : List α → Option (List α × List α)
  | [] => none
  | a :: l => if a = sep then some ([], l) else (splitOnce sep l).map fun (u, v) => (a :: u, v)

theorem splitOnce_append [DecidableEq α] {sep : α} {l : List α} (h : sep ∉ l) (rest : List α) :
    splitOnce sep (l ++ sep :: rest) = some (l, rest) := by
  induction l with
  | nil => simp [splitOnce]
  | cons a l ih =>
      have ha : a ≠ sep := fun heq => h (heq ▸ List.mem_cons_self)
      have hl : sep ∉ l := fun hmem => h (List.mem_cons_of_mem a hmem)
      rw [List.cons_append, splitOnce, if_neg ha, ih hl]
      rfl

/-- The separator is behind the first part, which holds none. -/
theorem splitOnce_eq_some [DecidableEq α] {sep : α} {l u v : List α}
    (h : splitOnce sep l = some (u, v)) : l = u ++ sep :: v ∧ sep ∉ u := by
  induction l generalizing u with
  | nil => cases h
  | cons a l ih =>
      rw [splitOnce] at h
      by_cases ha : a = sep
      · rw [if_pos ha] at h
        cases h
        exact ⟨by rw [ha]; rfl, List.not_mem_nil⟩
      · rw [if_neg ha] at h
        obtain ⟨⟨u', v'⟩, hrest, heq⟩ := Option.map_eq_some_iff.mp h
        cases heq
        obtain ⟨hl, hu⟩ := ih hrest
        constructor
        · rw [hl]
          rfl
        · intro hmem
          rcases List.mem_cons.mp hmem with heq | hmem
          · exact ha heq.symm
          · exact hu hmem

/-- The lines of a text, each with the separator that ends it. -/
def splitInclusive [DecidableEq α] (sep : α) : List α → List (List α)
  | [] => []
  | a :: l =>
      if a = sep then [a] :: splitInclusive sep l
      else
        match splitInclusive sep l with
        | [] => [[a]]
        | line :: lines => (a :: line) :: lines

theorem flatten_splitInclusive [DecidableEq α] (sep : α) (l : List α) :
    (splitInclusive sep l).flatten = l := by
  induction l with
  | nil => rfl
  | cons a l ih =>
      rw [splitInclusive]
      split
      · rw [List.flatten_cons, ih]
        rfl
      · split
        · rename_i hnil
          rw [hnil] at ih
          rw [← ih]
          rfl
        · rename_i hcons
          rw [hcons] at ih
          rw [← ih]
          rfl

/-- A line that ends is cut off. -/
theorem splitInclusive_line [DecidableEq α] {sep : α} {body : List α} (h : sep ∉ body)
    (rest : List α) :
    splitInclusive sep (body ++ [sep] ++ rest) = (body ++ [sep]) :: splitInclusive sep rest := by
  induction body with
  | nil => simp [splitInclusive]
  | cons a body ih =>
      have ha : a ≠ sep := fun heq => h (heq ▸ List.mem_cons_self)
      have hbody : sep ∉ body := fun hmem => h (List.mem_cons_of_mem a hmem)
      rw [List.cons_append, List.cons_append, splitInclusive, if_neg ha, ih hbody]

/-- The lines behind the first are those of the text behind it, and the first ends when a line
follows it. -/
theorem splitInclusive_cons [DecidableEq α] {sep : α} {l line : List α} {lines : List (List α)}
    (h : splitInclusive sep l = line :: lines) :
    splitInclusive sep lines.flatten = lines ∧
      (lines ≠ [] → ∃ body, line = body ++ [sep] ∧ sep ∉ body) := by
  induction l generalizing line with
  | nil => cases h
  | cons a l ih =>
      rw [splitInclusive] at h
      by_cases ha : a = sep
      · rw [if_pos ha] at h
        cases h
        rw [flatten_splitInclusive]
        exact ⟨rfl, fun _ => ⟨[], by rw [ha]; rfl, List.not_mem_nil⟩⟩
      · rw [if_neg ha] at h
        cases hrest : splitInclusive sep l with
        | nil =>
            rw [hrest] at h
            cases h
            exact ⟨rfl, fun hne => absurd rfl hne⟩
        | cons first others =>
            rw [hrest] at h
            cases h
            obtain ⟨hflatten, hended⟩ := ih hrest
            refine ⟨hflatten, fun hne => ?_⟩
            obtain ⟨body, rfl, hbody⟩ := hended hne
            refine ⟨a :: body, rfl, fun hmem => ?_⟩
            rcases List.mem_cons.mp hmem with heq | hmem
            · exact ha heq.symm
            · exact hbody hmem

/-- A line put in the place of another changes no other line. -/
theorem splitInclusive_replace [DecidableEq α] {sep : α} {l line body : List α}
    {before after : List (List α)} (h : splitInclusive sep l = before ++ line :: after)
    (hbody : sep ∉ body) :
    splitInclusive sep (before ++ (body ++ [sep]) :: after).flatten =
      before ++ (body ++ [sep]) :: after := by
  induction before generalizing l with
  | nil =>
      rw [List.nil_append, List.flatten_cons, splitInclusive_line hbody,
        (splitInclusive_cons h).1]
  | cons first before ih =>
      obtain ⟨hflatten, hended⟩ := splitInclusive_cons h
      obtain ⟨start, rfl, hstart⟩ := hended (by simp)
      rw [List.cons_append, List.flatten_cons, splitInclusive_line hstart, ih hflatten]

/-! ## Trimming -/

/-- The text without what `p` holds of at both ends. -/
def trim (p : α → Bool) (l : List α) : List α :=
  ((l.dropWhile p).reverse.dropWhile p).reverse

/-- What ends a text and is trimmed does not matter. -/
theorem trim_append {p : α → Bool} {w : List α} (h : ∀ a ∈ w, p a = true) (l : List α) :
    trim p (l ++ w) = trim p l := by
  unfold trim
  congr 1
  rw [List.dropWhile_append]
  have hw : w.dropWhile p = [] := List.dropWhile_eq_nil_iff.mpr h
  cases hl : (l.dropWhile p) with
  | nil => simp [hw]
  | cons a rest =>
      rw [if_neg (by simp), List.reverse_append, List.dropWhile_append_of_pos]
      intro b hb
      exact h b (List.mem_reverse.mp hb)

/-- A text whose ends stay is trimmed to itself. -/
theorem trim_eq_self {p : α → Bool} {l : List α} (hhead : ∀ a ∈ l.head?, p a = false)
    (hlast : ∀ a ∈ l.getLast?, p a = false) : trim p l = l := by
  unfold trim
  have hkeep : ∀ m : List α, (∀ a ∈ m.head?, p a = false) → m.dropWhile p = m := by
    intro m hm
    cases m with
    | nil => rfl
    | cons a m => rw [List.dropWhile_cons, hm a rfl]; rfl
  rw [hkeep l hhead, hkeep l.reverse (by rwa [List.head?_reverse]), List.reverse_reverse]

/-- A first element that stays is the first of the trimmed text. -/
theorem head_trim {p : α → Bool} {l : List α} {a : α} (h : l.head? = some a) (ha : p a = false) :
    (trim p l).head? = some a := by
  cases l with
  | nil => cases h
  | cons b l =>
      obtain rfl := Option.some.inj h
      unfold trim
      rw [List.dropWhile_cons, ha, if_neg (by simp), List.reverse_cons, List.dropWhile_append]
      split
      · rw [List.dropWhile_cons, ha]
        rfl
      · simp

end pieces

section apart

variable {α : Type}

/-- `part` neither occurs in `words` nor begins with an end of them. -/
def Apart (part words : List α) : Prop :=
  ¬ part <:+: words ∧ ∀ u ∈ part.inits, u <:+ words → u = []

instance [DecidableEq α] (part words : List α) : Decidable (Apart part words) :=
  inferInstanceAs (Decidable (_ ∧ _))

theorem Apart.tail {part words : List α} {a : α} (h : Apart part (a :: words)) :
    Apart part words :=
  ⟨fun hinfix => h.1 (List.infix_cons hinfix),
    fun u hu hsuffix => h.2 u hu (hsuffix.trans (List.suffix_cons a words))⟩

/-- Words that `part` is apart from add no occurrence of it to the text that follows them. -/
theorem infix_append_iff {part words : List α} (h : Apart part words) (text : List α) :
    part <:+: words ++ text ↔ part <:+: text := by
  induction words with
  | nil => simp
  | cons a words ih =>
      rw [List.cons_append, List.infix_cons_iff, ih h.tail]
      constructor
      · intro hor
        rcases hor with hstart | hrest
        · -- a start of the whole is a start of the words, or has the words as its own start
          have hwords : a :: words <+: a :: (words ++ text) := List.prefix_append (a :: words) text
          rcases List.prefix_or_prefix_of_prefix hstart hwords with hinside | hcut
          · exact absurd hinside.isInfix h.1
          · have hempty := h.2 _ ((List.mem_inits _ _).mpr hcut) (List.suffix_refl _)
            cases hempty
        · exact hrest
      · exact Or.inr

end apart

end Text
