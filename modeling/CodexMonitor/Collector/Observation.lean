import CodexMonitor.Collector.Watch

/-!
# What a job observes

A job compares flat objects: strings under names.  On these the comparison of the JSON
library is an equivalence.
-/

namespace CodexMonitor.Collector

/-- Strings under names. -/
def texts (fields : List (String × String)) : Value :=
  .object (fields.map fun field => (field.1, .string field.2))

/-- An object of strings, each under a name of its own. -/
def Flat (v : Value) : Prop := ∃ fields, v = texts fields ∧ (fields.map Prod.fst).Nodup

section compare

variable {fields others : List (String × String)}

theorem texts_get (h : (others.map Prod.fst).Nodup) {key : String} {b : Value} :
    (texts others).get key = some b ↔ ∃ text, (key, text) ∈ others ∧ b = .string text := by
  have hnodup : ((others.map fun field => (field.1, Value.string field.2)).map Prod.fst).Nodup := by
    rw [List.map_map]
    exact h
  unfold texts
  rw [get_object hnodup, List.mem_map]
  constructor
  · rintro ⟨⟨key', text⟩, hmem, heq⟩
    obtain ⟨rfl, rfl⟩ := Prod.mk.inj heq
    exact ⟨text, hmem, rfl⟩
  · rintro ⟨text, hmem, rfl⟩
    exact ⟨(key, text), hmem, rfl⟩

theorem fieldsEq_texts (h : (others.map Prod.fst).Nodup) :
    fieldsEq (fields.map fun field => (field.1, .string field.2))
      (others.map fun field => (field.1, .string field.2)) = true ↔ fields ⊆ others := by
  induction fields with
  | nil => simp [fieldsEq]
  | cons field fields ih =>
      obtain ⟨key, text⟩ := field
      rw [List.map_cons, fieldsEq, Bool.and_eq_true, ih, List.cons_subset]
      refine and_congr_left fun _ => ?_
      cases hget : (Value.object (others.map fun field => (field.1, .string field.2))).get key with
      | none =>
          refine ⟨Bool.false_ne_true.elim, fun hmem => ?_⟩
          change (texts others).get key = none at hget
          rw [(texts_get h).mpr ⟨text, hmem, rfl⟩] at hget
          cases hget
      | some b =>
          obtain ⟨text', hmem', rfl⟩ := (texts_get h).mp hget
          simp only [Value.eq, decide_eq_true_eq]
          constructor
          · rintro rfl
            exact hmem'
          · intro hmem
            have heq := List.inj_on_of_nodup_map h hmem hmem' rfl
            exact (Prod.mk.inj heq).2

/-- Flat objects are equal when they have the same fields. -/
theorem eq_texts (h : (fields.map Prod.fst).Nodup) (h' : (others.map Prod.fst).Nodup) :
    Value.eq (texts fields) (texts others) = true ↔ fields.Perm others := by
  unfold texts
  rw [Value.eq, Bool.and_eq_true, decide_eq_true_iff, List.length_map, List.length_map,
    fieldsEq_texts h']
  constructor
  · rintro ⟨hlength, hsub⟩
    exact (List.subperm_of_subset (List.Nodup.of_map _ h) hsub).perm_of_length_le hlength.ge
  · exact fun hperm => ⟨hperm.length_eq, hperm.subset⟩

end compare

/-- The object's fields are strings, and no name comes twice. -/
def isFlat : Value → Bool
  | .object fields =>
      (fields.all fun field => field.2 matches .string _) && (fields.map Prod.fst).Nodup
  | _ => false

theorem isFlat_iff {v : Value} : isFlat v = true ↔ Flat v := by
  constructor
  · intro h
    cases v with
    | object fields =>
        obtain ⟨hstrings, hnodup⟩ := Bool.and_eq_true_iff.mp h
        refine ⟨fields.map fun field => (field.1, field.2.asStr.getD ""), ?_, ?_⟩
        · unfold texts
          rw [List.map_map]
          congr 1
          refine (List.map_id fields).symm.trans (List.map_congr_left fun field hfield => ?_)
          have hstring := List.all_eq_true.mp hstrings field hfield
          obtain ⟨key, value⟩ := field
          cases value with
          | string text => rfl
          | _ => cases hstring
        · rw [List.map_map]
          exact of_decide_eq_true hnodup
    | _ => cases h
  · rintro ⟨fields, rfl, hnodup⟩
    refine Bool.and_eq_true_iff.mpr ⟨?_, ?_⟩
    · rw [List.all_eq_true]
      intro field hfield
      obtain ⟨_, _, rfl⟩ := List.mem_map.mp hfield
      rfl
    · rw [List.map_map]
      exact decide_eq_true hnodup

instance : DecidablePred Flat := fun _ => decidable_of_iff _ isFlat_iff

section flat

variable {a b c : Value}

theorem Flat.eq_refl (ha : Flat a) : Value.eq a a = true := by
  obtain ⟨fields, rfl, h⟩ := ha
  exact (eq_texts h h).mpr (.refl fields)

theorem Flat.eq_trans (ha : Flat a) (hb : Flat b) (hc : Flat c) (hab : Value.eq a b = true)
    (hbc : Value.eq b c = true) : Value.eq a c = true := by
  obtain ⟨fields, rfl, h⟩ := ha
  obtain ⟨others, rfl, h'⟩ := hb
  obtain ⟨more, rfl, h''⟩ := hc
  exact (eq_texts h h'').mpr (((eq_texts h h').mp hab).trans ((eq_texts h' h'').mp hbc))

end flat

/-- What is compared with the checkpoint is flat. -/
theorem observation_flat {sample : FileSample} {condition : Option Value}
    (hanswers : sample.Answers condition) (hmisses : sample.Misses condition = false)
    (hskips : sample.Skips condition = false) : Flat (sample.observation condition) := by
  unfold FileSample.Answers at hanswers
  unfold FileSample.Misses FileSample.result at hmisses
  unfold FileSample.Skips at hskips
  unfold FileSample.observation FileSample.result FileSample.fields
  cases houtcome : sample.outcome with
  | missing =>
      rw [houtcome] at hskips
      obtain rfl : condition = none := by simpa using hskips
      have hnodup : ["path", "state"].Nodup := by decide
      exact ⟨[("path", sample.path), ("state", "missing")], rfl, hnodup⟩
  | unreadable error =>
      rw [houtcome] at hskips
      obtain rfl : condition = none := by
        simp only [Bool.or_eq_false_iff] at hskips
        simpa using hskips.2
      have hnodup : ["error", "path", "state"].Nodup := by decide
      exact ⟨[("error", error), ("path", sample.path), ("state", "unreadable")], rfl, hnodup⟩
  | present sha256 predicate =>
      rw [houtcome] at hanswers hmisses
      cases condition with
      | none =>
          obtain rfl : predicate = none := by simpa using hanswers
          have hnodup : ["path", "sha256", "state"].Nodup := by decide
          exact ⟨[("path", sample.path), ("sha256", sha256), ("state", "present")], rfl, hnodup⟩
      | some condition =>
          cases predicate with
          | none => cases hanswers
          | some predicate =>
              cases predicate with
              | matched => exact ⟨[("condition", "matched")], rfl, by decide⟩
              | notMatched => exact ⟨[("condition", "not_matched")], rfl, by decide⟩
              | invalid => cases hmisses

end CodexMonitor.Collector
