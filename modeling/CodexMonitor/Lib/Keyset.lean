import Mathlib.Data.List.GetD
import Mathlib.Order.Lattice
import Mathlib.Tactic.Common

/-!
# Keyset pages

A list of rows in strictly growing key order that only ever grows at its end, read page
by page.  A page takes one row more than its limit, to learn whether a row is left, and
names the key of its last row as the place where the next page starts.  Whatever the
limits are and however the list grows in between, what was read up to a place is the
rows up to that place, and the walk ends with all rows read, each once and in order.
-/

namespace Keyset

variable {ι α : Type} [LinearOrder α] (seq : ι → α)

/-- Rows in growing key order. -/
def Ordered (rows : List ι) : Prop := rows.Pairwise fun a b => seq a < seq b

/-- The rows up to a key. -/
def upTo (c : α) (rows : List ι) : List ι := rows.filter fun r => seq r ≤ c

/-- The rows after a key. -/
def beyond (c : α) (rows : List ι) : List ι := rows.filter fun r => c < seq r

/-- One page after `c`: its rows, and where the next page starts if a row is left. -/
def page (c : α) (limit : Nat) (rows : List ι) : List ι × Option α :=
  let found := (beyond seq c rows).take (limit + 1)
  if limit < found.length then (found.take limit, (found.take limit).getLast?.map seq)
  else (found, none)

section rows

variable {seq} {c c' : α} {limit : Nat} {rows added data : List ι} {next : Option α}

theorem Ordered.upTo_append_beyond (h : Ordered seq rows) (c : α) :
    upTo seq c rows ++ beyond seq c rows = rows := by
  induction rows with
  | nil => rfl
  | cons r rows ih =>
      have hrest := ih (List.Pairwise.of_cons h)
      unfold upTo beyond at hrest ⊢
      by_cases hr : seq r ≤ c
      · have hnot : ¬ c < seq r := not_lt_of_ge hr
        simpa [hr, hnot] using hrest
      · have hc : c < seq r := lt_of_not_ge hr
        have hnone : rows.filter (fun q => decide (seq q ≤ c)) = [] := by
          refine List.filter_eq_nil_iff.mpr fun q hq => ?_
          have hlt : seq r < seq q := List.rel_of_pairwise_cons h hq
          simpa using lt_trans hc hlt
        rw [hnone, List.nil_append] at hrest
        simp [hr, hc, hnone, hrest]

/-- Up to the key of a row: the rows in front of it, and itself. -/
theorem upTo_of_append {front back : List ι} {r : ι} (h : Ordered seq (front ++ r :: back)) :
    upTo seq (seq r) (front ++ r :: back) = front ++ [r] := by
  obtain ⟨_, hback, hcross⟩ := List.pairwise_append.mp h
  unfold upTo
  rw [List.filter_append]
  congr 1
  · refine List.filter_eq_self.mpr fun a ha => ?_
    exact decide_eq_true (le_of_lt (hcross a ha r List.mem_cons_self))
  · have hnone : back.filter (fun b => decide (seq b ≤ seq r)) = [] := by
      refine List.filter_eq_nil_iff.mpr fun b hb => ?_
      simpa using List.rel_of_pairwise_cons hback hb
    simp [hnone]

/-- New rows come after every place that a row names. -/
theorem upTo_grown (h : Ordered seq (rows ++ added)) (hc : ∃ r ∈ rows, c = seq r) :
    upTo seq c (rows ++ added) = upTo seq c rows := by
  obtain ⟨r, hr, rfl⟩ := hc
  unfold upTo
  rw [List.filter_append]
  have hnone : added.filter (fun b => decide (seq b ≤ seq r)) = [] := by
    refine List.filter_eq_nil_iff.mpr fun b hb => ?_
    simpa using (List.pairwise_append.mp h).2.2 r hr b hb
  rw [hnone, List.append_nil]

theorem page_fst : (page seq c limit rows).1 = (beyond seq c rows).take limit := by
  unfold page
  by_cases h : limit < ((beyond seq c rows).take (limit + 1)).length
  · rw [if_pos h, List.take_take, Nat.min_eq_left (Nat.le_succ limit)]
  · rw [if_neg h]
    have hshort : (beyond seq c rows).length ≤ limit := by
      rw [List.length_take] at h
      omega
    rw [List.take_of_length_le hshort, List.take_of_length_le (Nat.le_succ_of_le hshort)]

/-- A page without a next one reads the rest. -/
theorem page_last (h : page seq c limit rows = (data, none)) (hlimit : 0 < limit) :
    data = beyond seq c rows := by
  have hdata : data = (beyond seq c rows).take limit := by
    rw [← page_fst, h]
  rw [hdata]
  refine List.take_of_length_le (Nat.le_of_not_lt fun hlong => ?_)
  have hmore : limit < ((beyond seq c rows).take (limit + 1)).length := by
    rw [List.length_take]
    omega
  unfold page at h
  rw [if_pos hmore, List.take_take, Nat.min_eq_left (Nat.le_succ limit)] at h
  have hnone : ((beyond seq c rows).take limit).getLast? = none :=
    Option.map_eq_none_iff.mp (congrArg Prod.snd h)
  rw [List.getLast?_eq_none_iff] at hnone
  have hlength := congrArg List.length hnone
  rw [List.length_take, List.length_nil] at hlength
  omega

/-- A page with a next one reads up to the place it names, and leaves fewer rows. -/
theorem page_more (hordered : Ordered seq rows)
    (h : page seq c limit rows = (data, some c')) :
    (∃ r ∈ rows, c' = seq r) ∧ upTo seq c rows ++ data = upTo seq c' rows ∧
      (beyond seq c' rows).length < (beyond seq c rows).length := by
  have hdata : data = (beyond seq c rows).take limit := by
    rw [← page_fst, h]
  have hnext : data.getLast?.map seq = some c' := by
    unfold page at h
    by_cases hmore : limit < ((beyond seq c rows).take (limit + 1)).length
    · rw [if_pos hmore] at h
      obtain ⟨hfst, hsnd⟩ := Prod.mk.inj h
      rw [← hfst, hsnd]
    · rw [if_neg hmore] at h
      exact absurd (congrArg Prod.snd h) nofun
  obtain ⟨r, hr, rfl⟩ := Option.map_eq_some_iff.mp hnext
  obtain ⟨front, rfl⟩ := List.getLast?_eq_some_iff.mp hr
  have hsplit : rows = (upTo seq c rows ++ front) ++ r :: (beyond seq c rows).drop limit := by
    have hbeyond : beyond seq c rows = (front ++ [r]) ++ (beyond seq c rows).drop limit := by
      rw [hdata, List.take_append_drop]
    conv_lhs => rw [← hordered.upTo_append_beyond c, hbeyond]
    simp only [List.append_assoc, List.singleton_append]
  have hupTo : upTo seq (seq r) rows = upTo seq c rows ++ (front ++ [r]) := by
    have hordered' := hordered
    rw [hsplit] at hordered'
    conv_lhs => rw [hsplit]
    rw [upTo_of_append hordered', List.append_assoc]
  refine ⟨⟨r, ?_, rfl⟩, hupTo.symm, ?_⟩
  · rw [hsplit]
    exact List.mem_append_right _ List.mem_cons_self
  · have hlength := congrArg List.length (hordered.upTo_append_beyond c)
    have hlength' := congrArg List.length (hordered.upTo_append_beyond (seq r))
    rw [hupTo] at hlength'
    simp only [List.length_append, List.length_singleton] at hlength hlength'
    omega

end rows

/-! ## Walks -/

section walk

variable (start : α) (rows : Nat → List ι) (limits : Nat → Nat)

/-- The `n`-th page of a walk over rows that change between the pages: the first starts at
`start`, each other one where the page before it says. -/
def walk : Nat → Option (List ι × Option α)
  | 0 => some (page seq start (limits 0) (rows 0))
  | n + 1 => ((walk n).bind Prod.snd).map fun c => page seq c (limits (n + 1)) (rows (n + 1))

/-- The rows of the first `n` pages. -/
def returned (n : Nat) : List ι :=
  (List.range n).flatMap fun i => ((walk seq start rows limits i).map Prod.fst).getD []

/-- Rows in order that grow at their end. -/
structure Grows : Prop where
  ordered : ∀ i, Ordered seq (rows i)
  grown : ∀ i, ∃ added, rows (i + 1) = rows i ++ added
  started : ∀ r ∈ rows 0, start < seq r

/-- At every number of pages the walk is still going or has ended. -/
theorem walk_some_or_ended (n : Nat) :
    (∃ data next, walk seq start rows limits n = some (data, next)) ∨
      ∃ j < n, ∃ data, walk seq start rows limits j = some (data, none) := by
  induction n with
  | zero => exact Or.inl ⟨_, _, rfl⟩
  | succ n ih =>
      rcases ih with ⟨data, next, hwalk⟩ | ⟨j, hj, hended⟩
      · cases next with
        | none => exact Or.inr ⟨n, Nat.lt_succ_self n, data, hwalk⟩
        | some c =>
            have hnext : walk seq start rows limits (n + 1) =
                some (page seq c (limits (n + 1)) (rows (n + 1))) := by
              rw [walk, hwalk]
              rfl
            exact Or.inl ⟨_, _, hnext⟩
      · exact Or.inr ⟨j, Nat.lt_succ_of_lt hj, hended⟩

variable {seq start rows limits} {n : Nat} {data : List ι} {next : Option α}

theorem returned_succ (h : walk seq start rows limits n = some (data, next)) :
    returned seq start rows limits (n + 1) = returned seq start rows limits n ++ data := by
  unfold returned
  rw [List.range_succ, List.flatMap_append, List.flatMap_singleton, h]
  rfl

/-- What was read is what stands up to the place where the next page starts. -/
theorem walk_more (hgrows : Grows seq start rows) {c : α}
    (h : walk seq start rows limits n = some (data, some c)) :
    (∃ r ∈ rows n, c = seq r) ∧ returned seq start rows limits (n + 1) = upTo seq c (rows n) := by
  induction n generalizing data c with
  | zero =>
      obtain ⟨hplace, hread, _⟩ := page_more (hgrows.ordered 0) (Option.some.inj h)
      have hnone : upTo seq start (rows 0) = [] := by
        refine List.filter_eq_nil_iff.mpr fun r hr => ?_
        simpa using hgrows.started r hr
      rw [hnone, List.nil_append] at hread
      refine ⟨hplace, ?_⟩
      rw [returned_succ h, ← hread]
      rfl
  | succ n ih =>
      obtain ⟨c₀, hbefore, hpage⟩ := Option.map_eq_some_iff.mp h
      obtain ⟨⟨data₀, next₀⟩, hwalk, hnext₀⟩ := Option.bind_eq_some_iff.mp hbefore
      obtain rfl : next₀ = some c₀ := hnext₀
      obtain ⟨hplace₀, hread₀⟩ := ih hwalk
      obtain ⟨added, hadded⟩ := hgrows.grown n
      obtain ⟨hplace, hread, _⟩ := page_more (hgrows.ordered (n + 1)) hpage
      refine ⟨hplace, ?_⟩
      have hordered := hgrows.ordered (n + 1)
      rw [hadded] at hordered
      rw [returned_succ h, hread₀, ← upTo_grown hordered hplace₀, ← hadded, hread]

/-- **A walk that ends has read every row.** -/
theorem walk_last (hgrows : Grows seq start rows) (hlimits : ∀ i, 0 < limits i)
    (h : walk seq start rows limits n = some (data, none)) :
    returned seq start rows limits (n + 1) = rows n := by
  cases n with
  | zero =>
      have hdata := page_last (Option.some.inj h) (hlimits 0)
      have hall : beyond seq start (rows 0) = rows 0 :=
        List.filter_eq_self.mpr fun r hr => decide_eq_true (hgrows.started r hr)
      rw [returned_succ h, hdata, hall]
      rfl
  | succ n =>
      obtain ⟨c₀, hbefore, hpage⟩ := Option.map_eq_some_iff.mp h
      obtain ⟨⟨data₀, next₀⟩, hwalk, hnext₀⟩ := Option.bind_eq_some_iff.mp hbefore
      obtain rfl : next₀ = some c₀ := hnext₀
      obtain ⟨hplace₀, hread₀⟩ := walk_more hgrows hwalk
      obtain ⟨added, hadded⟩ := hgrows.grown n
      have hordered := hgrows.ordered (n + 1)
      have hgrown := hordered
      rw [hadded] at hgrown
      rw [returned_succ h, hread₀, ← upTo_grown hgrown hplace₀, ← hadded,
        page_last hpage (hlimits (n + 1)), hordered.upTo_append_beyond]

variable (limits) in
/-- **A walk ends once the rows stop growing**: every page leaves fewer rows. -/
theorem walk_ends (hgrows : Grows seq start rows) {k : Nat} (hsettled : ∀ i, k ≤ i → rows i = rows k) :
    ∃ n data, walk seq start rows limits n = some (data, none) := by
  have hgoing : ∀ m n data c, k ≤ n → walk seq start rows limits n = some (data, some c) →
      (beyond seq c (rows k)).length < m →
        ∃ n data, walk seq start rows limits n = some (data, none) := by
    intro m
    induction m with
    | zero =>
        intro n data c _ _ hleft
        omega
    | succ m ih =>
        intro n data c hn hwalk hleft
        rcases walk_some_or_ended seq start rows limits (n + 1) with ⟨data', next', hnext⟩ |
          ⟨j, _, data', hended⟩
        · cases next' with
          | none => exact ⟨n + 1, data', hnext⟩
          | some c' =>
              obtain ⟨c₀, hbefore, hpage⟩ := Option.map_eq_some_iff.mp hnext
              rw [hwalk] at hbefore
              obtain rfl : c = c₀ := Option.some.inj hbefore
              have hfewer := (page_more (hgrows.ordered (n + 1)) hpage).2.2
              rw [hsettled (n + 1) (Nat.le_succ_of_le hn)] at hfewer
              exact ih (n + 1) data' c' (Nat.le_succ_of_le hn) hnext (by omega)
        · exact ⟨j, data', hended⟩
  rcases walk_some_or_ended seq start rows limits k with ⟨data, next, hwalk⟩ |
    ⟨j, _, data, hended⟩
  · cases next with
    | none => exact ⟨k, data, hwalk⟩
    | some c => exact hgoing _ k data c (Nat.le_refl k) hwalk (Nat.lt_succ_self _)
  · exact ⟨j, data, hended⟩

end walk

end Keyset
