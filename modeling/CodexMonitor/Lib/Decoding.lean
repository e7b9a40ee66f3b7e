import Mathlib.Data.List.Basic
import Mathlib.Tactic.Common

/-!
# Texts that can be read back

A concatenation of code words is read back when no word begins another.  A text of
brackets and quotes can be cut at its first separator that stands outside
all of them.  A balanced text is never cut: whatever follows it, the cut goes on
behind it at the same depth.  So balanced texts that are joined by separators, or
stand in front of a separator or a closing bracket, can be read back.
-/

namespace Decoding

/-! ## Prefix codes -/

/-- Words none of which begins another, concatenated, are read back. -/
theorem flatMap_inj {α β : Type} {code : α → List β} (hlead : ∀ a b, code a <+: code b → a = b)
    (hne : ∀ a, code a ≠ []) {l m : List α} (h : l.flatMap code = m.flatMap code) : l = m := by
  induction l generalizing m with
  | nil =>
      cases m with
      | nil => rfl
      | cons b m =>
          rw [List.flatMap_nil, List.flatMap_cons] at h
          exact absurd (List.append_eq_nil_iff.mp h.symm).1 (hne b)
  | cons a l ih =>
      cases m with
      | nil =>
          rw [List.flatMap_nil, List.flatMap_cons] at h
          exact absurd (List.append_eq_nil_iff.mp h).1 (hne a)
      | cons b m =>
          rw [List.flatMap_cons, List.flatMap_cons] at h
          have hab : a = b := by
            rcases List.append_eq_append_iff.mp h with ⟨u, hu, _⟩ | ⟨u, hu, _⟩
            · exact hlead a b ⟨u, hu.symm⟩
            · exact (hlead b a ⟨u, hu.symm⟩).symm
          subst hab
          rw [ih (List.append_cancel_left h)]

/-! ## Brackets and quotes -/

/-- Where a reader stands: outside quotes, inside them, or behind a backslash. -/
inductive Mode
  | plain | quoted | escaped

def quote : Char := Char.ofNat 0x22

def opening : List Char := ['[', Char.ofNat 0x7b]

def closing : List Char := [']', Char.ofNat 0x7d]

/-- The part of a text before its first separator at depth zero, or before the bracket that closes
what the text stands in.  `d` counts the brackets that are open. -/
def cut (sep : Char) : Nat → Mode → List Char → List Char
  | _, _, [] => []
  | d, .escaped, c :: cs => c :: cut sep d .quoted cs
  | d, .quoted, c :: cs =>
      c :: cut sep d (if c = '\\' then .escaped else if c = quote then .plain else .quoted) cs
  | d, .plain, c :: cs =>
      if c = quote then c :: cut sep d .quoted cs
      else if c ∈ opening then c :: cut sep (d + 1) .plain cs
      else if c ∈ closing then if d = 0 then [] else c :: cut sep (d - 1) .plain cs
      else if c = sep ∧ d = 0 then []
      else c :: cut sep d .plain cs

/-- A character that is neither a quote nor a bracket. -/
def Ordinary (c : Char) : Prop := c ≠ quote ∧ c ∉ opening ∧ c ∉ closing

instance : DecidablePred Ordinary := fun _ => inferInstanceAs (Decidable (_ ∧ _))

/-- The text is never cut at depth `d` or deeper. -/
def Holds (sep : Char) (d : Nat) (t : List Char) : Prop :=
  ∀ e r, d ≤ e → cut sep e .plain (t ++ r) = t ++ cut sep e .plain r

/-- The text is never cut. -/
def Balanced (sep : Char) (t : List Char) : Prop := Holds sep 0 t

/-- What may follow a text that is read back: nothing, a separator, or a closing bracket. -/
def Stops (sep : Char) (r : List Char) : Prop := cut sep 0 .plain r = []

variable {sep : Char} {d : Nat} {t u r s : List Char}

theorem cut_ordinary {c : Char} (hc : Ordinary c) (h : c ≠ sep ∨ d ≠ 0) (cs : List Char) :
    cut sep d .plain (c :: cs) = c :: cut sep d .plain cs := by
  obtain ⟨hquote, hopen, hclose⟩ := hc
  have hsep : ¬ (c = sep ∧ d = 0) := by
    rintro ⟨hcs, hd⟩
    rcases h with h | h
    · exact h hcs
    · exact h hd
  rw [cut, if_neg hquote, if_neg hopen, if_neg hclose, if_neg hsep]

/-! ## Texts that hold -/

theorem holds_nil : Holds sep d [] := fun _ _ _ => rfl

theorem Holds.mono {e : Nat} (h : Holds sep d t) (hde : d ≤ e) : Holds sep e t :=
  fun f r hf => h f r (Nat.le_trans hde hf)

theorem Holds.append (ht : Holds sep d t) (hu : Holds sep d u) : Holds sep d (t ++ u) := by
  intro e r he
  rw [List.append_assoc, ht e _ he, hu e r he, List.append_assoc]

/-- A separator inside brackets does not cut. -/
theorem holds_ordinary {c : Char} (hc : Ordinary c) (h : c ≠ sep ∨ d ≠ 0) : Holds sep d [c] := by
  intro e r he
  refine cut_ordinary hc ?_ r
  rcases h with h | h
  · exact Or.inl h
  · exact Or.inr (by omega)

theorem balanced_ordinary (h : ∀ c ∈ t, Ordinary c ∧ c ≠ sep) : Balanced sep t := by
  induction t with
  | nil => exact holds_nil
  | cons c t ih =>
      obtain ⟨hc, hsep⟩ := h c List.mem_cons_self
      have hrest := ih fun b hb => h b (List.mem_cons_of_mem _ hb)
      exact (holds_ordinary hc (Or.inl hsep)).append (t := [c]) hrest

theorem holds_intercalate {c : Char} (hc : Ordinary c) (hd : d ≠ 0) {ts : List (List Char)}
    (h : ∀ t ∈ ts, Holds sep d t) : Holds sep d ([c].intercalate ts) := by
  induction ts with
  | nil => exact holds_nil
  | cons t ts ih =>
      have hts := ih fun u hu => h u (List.mem_cons_of_mem _ hu)
      cases ts with
      | nil =>
          rw [List.intercalate_singleton]
          exact h t List.mem_cons_self
      | cons u us =>
          rw [List.intercalate_cons_cons]
          exact ((h t List.mem_cons_self).append (holds_ordinary hc (Or.inr hd))).append hts

/-- Brackets around a text that holds inside them. -/
theorem Holds.bracketed {o c : Char} (h : Holds sep 1 t) (ho : o ∈ opening) (hc : c ∈ closing)
    (hplain : o ≠ quote ∧ c ≠ quote ∧ c ∉ opening) : Balanced sep (o :: (t ++ [c])) := by
  intro e r _
  have hinside : cut sep (e + 1) .plain (c :: r) = c :: cut sep e .plain r := by
    rw [cut, if_neg hplain.2.1, if_neg hplain.2.2, if_pos hc, if_neg (by omega)]
    rfl
  rw [List.cons_append, List.append_assoc, cut, if_neg hplain.1, if_pos ho,
    h (e + 1) _ (by omega), List.singleton_append, hinside]
  simp

/-- Quotes around a text that a reader inside quotes passes over. -/
theorem balanced_quoted
    (h : ∀ e r, cut sep e .quoted (t ++ r) = t ++ cut sep e .quoted r) :
    Balanced sep (quote :: (t ++ [quote])) := by
  intro e r _
  have hend : cut sep e .quoted (quote :: r) = quote :: cut sep e .plain r := by
    rw [cut, if_neg (by decide), if_pos rfl]
  rw [List.cons_append, List.append_assoc, cut, if_pos rfl, h, List.singleton_append, hend]
  simp

/-! ## Reading back -/

theorem stops_nil : Stops sep [] := rfl

theorem stops_sep (hsep : Ordinary sep) : Stops sep (sep :: r) := by
  unfold Stops
  rw [cut, if_neg hsep.1, if_neg hsep.2.1, if_neg hsep.2.2, if_pos ⟨rfl, rfl⟩]

/-- A balanced text is determined by any text it begins, up to where the text may stop. -/
theorem Balanced.unique (ht : Balanced sep t) (hu : Balanced sep u) (hr : Stops sep r)
    (hs : Stops sep s) (h : t ++ r = u ++ s) : t = u ∧ r = s := by
  have hcut := congrArg (cut sep 0 .plain) h
  rw [ht 0 r (Nat.le_refl 0), hu 0 s (Nat.le_refl 0), hr, hs, List.append_nil,
    List.append_nil] at hcut
  subst hcut
  exact ⟨rfl, List.append_cancel_left h⟩

/-- Joined balanced texts are read back one by one. -/
theorem intercalate_inj (hsep : Ordinary sep) {ts us : List (List Char)}
    (hts : ∀ t ∈ ts, Balanced sep t ∧ t ≠ []) (hus : ∀ u ∈ us, Balanced sep u ∧ u ≠ [])
    (h : [sep].intercalate ts = [sep].intercalate us) : ts = us := by
  have hne : ∀ (t : List Char) (ts : List (List Char)), t ≠ [] → [sep].intercalate (t :: ts) ≠ [] := by
    intro t ts ht hnil
    cases ts with
    | nil =>
        rw [List.intercalate_singleton] at hnil
        exact ht hnil
    | cons u us =>
        rw [List.intercalate_cons_cons] at hnil
        simp at hnil
  induction ts generalizing us with
  | nil =>
      cases us with
      | nil => rfl
      | cons u us => exact absurd h.symm (hne u us (hus u List.mem_cons_self).2)
  | cons t ts ih =>
      cases us with
      | nil => exact absurd h (hne t ts (hts t List.mem_cons_self).2)
      | cons u us =>
          have hsplit : ∀ (t : List Char) (ts : List (List Char)), ∃ r,
              [sep].intercalate (t :: ts) = t ++ r ∧ Stops sep r ∧
                (ts = [] ∧ r = [] ∨ ts ≠ [] ∧ r = sep :: [sep].intercalate ts) := by
            intro t ts
            cases ts with
            | nil => exact ⟨[], by simp, stops_nil, Or.inl ⟨rfl, rfl⟩⟩
            | cons u us =>
                refine ⟨sep :: [sep].intercalate (u :: us), ?_, stops_sep hsep,
                  Or.inr ⟨by simp, rfl⟩⟩
                rw [List.intercalate_cons_cons]
                simp
          obtain ⟨r, htext, hr, hrest⟩ := hsplit t ts
          obtain ⟨s, hutext, hs, hurest⟩ := hsplit u us
          obtain ⟨rfl, rfl⟩ := (hts t List.mem_cons_self).1.unique (hus u List.mem_cons_self).1
            hr hs (htext.symm.trans (h.trans hutext))
          rcases hrest with ⟨rfl, rfl⟩ | ⟨_, rfl⟩
          · rcases hurest with ⟨rfl, _⟩ | ⟨_, hcons⟩
            · rfl
            · cases hcons
          · rcases hurest with ⟨_, hnil⟩ | ⟨_, hcons⟩
            · cases hnil
            · rw [ih (fun v hv => hts v (List.mem_cons_of_mem _ hv))
                (fun v hv => hus v (List.mem_cons_of_mem _ hv)) (List.cons.inj hcons).2]

end Decoding
