import CodexMonitor.Lib.Text

/-!
# Records of a stream

A separator ends a record, and the last record of a stream may lack it: every stream is
`joined` from finished records and a rest.  A reader takes a stream one element at a time
until it returns.  `Follows` says what it holds of a record that has not ended and what it
returns when it does; then it reads a stream record by record, whatever comes behind.
-/

namespace Framing

variable {α σ ρ : Type}

/-! ## Records -/

/-- Finished records, and what stands behind the last of them. -/
def joined (sep : α) : List (List α) → List α → List α
  | [], rest => rest
  | body :: bodies, rest => body ++ sep :: joined sep bodies rest

theorem joined_append (sep : α) (bodies more : List (List α)) (rest : List α) :
    joined sep (bodies ++ more) rest = joined sep bodies (joined sep more rest) := by
  induction bodies with
  | nil => rfl
  | cons body bodies ih =>
      rw [List.cons_append, joined, joined, ih]

theorem joined_nil_append (sep : α) (bodies : List (List α)) (rest : List α) :
    joined sep bodies [] ++ rest = joined sep bodies rest := by
  induction bodies with
  | nil => rfl
  | cons body bodies ih =>
      rw [joined, joined, List.append_assoc, List.cons_append, ih]

/-- Every stream is joined from records that hold no separator. -/
theorem exists_joined [DecidableEq α] (sep : α) (l : List α) :
    ∃ bodies rest, (∀ body ∈ bodies, sep ∉ body) ∧ sep ∉ rest ∧ l = joined sep bodies rest := by
  induction l with
  | nil => exact ⟨[], [], by simp, by simp, rfl⟩
  | cons a l ih =>
      obtain ⟨bodies, rest, hbodies, hrest, rfl⟩ := ih
      by_cases ha : a = sep
      · subst ha
        exact ⟨[] :: bodies, rest, by simpa using hbodies, hrest, rfl⟩
      · have hne : sep ≠ a := fun heq => ha heq.symm
        cases bodies with
        | nil => exact ⟨[], a :: rest, by simp, by simp [hne, hrest], rfl⟩
        | cons body bodies =>
            refine ⟨(a :: body) :: bodies, rest, ?_, hrest, rfl⟩
            intro other hother
            rcases List.mem_cons.mp hother with rfl | hmem
            · simp [hne, hbodies body List.mem_cons_self]
            · exact hbodies other (List.mem_cons_of_mem body hmem)

theorem splitInclusive_rest [DecidableEq α] {sep : α} {rest : List α} (h : sep ∉ rest) :
    Text.splitInclusive sep rest = if rest = [] then [] else [rest] := by
  induction rest with
  | nil => rfl
  | cons a rest ih =>
      have ha : a ≠ sep := fun heq => h (heq ▸ List.mem_cons_self)
      rw [Text.splitInclusive, if_neg ha, ih fun hmem => h (List.mem_cons_of_mem a hmem)]
      by_cases hrest : rest = []
      · simp [hrest]
      · simp [hrest]

/-- The records of a stream: the finished ones with their separators, and the rest unless it is
empty. -/
theorem splitInclusive_joined [DecidableEq α] {sep : α} {bodies : List (List α)} {rest : List α}
    (hbodies : ∀ body ∈ bodies, sep ∉ body) (hrest : sep ∉ rest) :
    Text.splitInclusive sep (joined sep bodies rest) =
      bodies.map (· ++ [sep]) ++ if rest = [] then [] else [rest] := by
  induction bodies with
  | nil => simpa [joined] using splitInclusive_rest hrest
  | cons body bodies ih =>
      have hsplit : joined sep (body :: bodies) rest = body ++ [sep] ++ joined sep bodies rest := by
        simp [joined]
      rw [hsplit, Text.splitInclusive_line (hbodies body List.mem_cons_self),
        ih fun other hother => hbodies other (List.mem_cons_of_mem body hother)]
      rfl

/-- A record of a stream is the one record of the stream that it is itself. -/
theorem splitInclusive_record [DecidableEq α] {sep : α} {l record : List α}
    (h : record ∈ Text.splitInclusive sep l) : Text.splitInclusive sep record = [record] := by
  obtain ⟨bodies, rest, hbodies, hrest, rfl⟩ := exists_joined sep l
  rw [splitInclusive_joined hbodies hrest] at h
  rcases List.mem_append.mp h with hmem | hmem
  · obtain ⟨body, hbody, rfl⟩ := List.mem_map.mp hmem
    have hline := Text.splitInclusive_line (hbodies body hbody) []
    simpa [Text.splitInclusive] using hline
  · by_cases hempty : rest = []
    · simp [hempty] at hmem
    · rw [if_neg hempty] at hmem
      obtain rfl := List.mem_singleton.mp hmem
      rw [splitInclusive_rest hrest, if_neg hempty]

/-! ## Readers -/

/-- A reader takes one element at a time: it holds something of the record, or returns. -/
structure Reader (α σ ρ : Type) where
  start : σ
  push : σ → α → σ ⊕ ρ

namespace Reader

variable {r : Reader α σ ρ} {s s' : σ} {out : ρ} {l rest : List α}

/-- What the reader returns with the stream that is left, or what it holds at the end. -/
def read (r : Reader α σ ρ) : σ → List α → (ρ × List α) ⊕ σ
  | s, [] => .inr s
  | s, a :: l =>
      match r.push s a with
      | .inl s' => r.read s' l
      | .inr out => .inl (out, l)

/-- A reader that has not returned goes on with what comes behind. -/
theorem read_append_held (h : r.read s l = .inr s') (more : List α) :
    r.read s (l ++ more) = r.read s' more := by
  induction l generalizing s with
  | nil =>
      obtain rfl : s = s' := Sum.inr.inj h
      rfl
  | cons a l ih =>
      rw [read] at h
      rw [List.cons_append, read]
      cases hpush : r.push s a with
      | inl next =>
          rw [hpush] at h
          exact ih h
      | inr out =>
          rw [hpush] at h
          cases h

/-- A reader returns only when it has taken something. -/
theorem read_shorter (h : r.read s l = .inl (out, rest)) : rest.length < l.length := by
  induction l generalizing s with
  | nil => cases h
  | cons a l ih =>
      rw [read] at h
      rw [List.length_cons]
      cases hpush : r.push s a with
      | inl next =>
          rw [hpush] at h
          have hshorter := ih h
          omega
      | inr result =>
          rw [hpush] at h
          cases h
          omega

/-- What every element keeps true of what the reader holds, and what follows for what it returns. -/
structure Bounds (r : Reader α σ ρ) (held : σ → Prop) (returned : ρ → Prop) : Prop where
  start : held r.start
  push : ∀ {s a s'}, held s → r.push s a = .inl s' → held s'
  ended : ∀ {s a out}, held s → r.push s a = .inr out → returned out

theorem Bounds.read {held : σ → Prop} {returned : ρ → Prop} (h : r.Bounds held returned)
    (hs : held s) (l : List α) :
    (∀ s', r.read s l = .inr s' → held s') ∧
      ∀ out rest, r.read s l = .inl (out, rest) → returned out := by
  induction l generalizing s with
  | nil =>
      constructor
      · intro s' hread
        obtain rfl : s = s' := Sum.inr.inj hread
        exact hs
      · intro out rest hread
        cases hread
  | cons a l ih =>
      rw [Reader.read]
      cases hpush : r.push s a with
      | inl next => exact ih (h.push hs hpush)
      | inr result =>
          constructor
          · intro s' hread
            cases hread
          · intro out rest hread
            cases hread
            exact h.ended hs hpush

/-- The reader holds `held body` of a record as far as it has come, and returns `result body` when
it ends, for the records that are `within` the reader's limit. -/
structure Follows (r : Reader α σ ρ) (sep : α) (within : List α → Prop) (held : List α → σ)
    (result : List α → ρ) : Prop where
  start : r.start = held []
  shorter : ∀ {body a}, within (body ++ [a]) → within body
  push : ∀ {body a}, within (body ++ [a]) → a ≠ sep →
    r.push (held body) a = .inl (held (body ++ [a]))
  ended : ∀ {body}, within body → r.push (held body) sep = .inr (result body)

variable {sep : α} {within : List α → Prop} {held : List α → σ} {result : List α → ρ}
  {body : List α}

theorem Follows.read_body (h : r.Follows sep within held result) (hwithin : within body)
    (hsep : sep ∉ body) : r.read r.start body = .inr (held body) := by
  induction body using List.reverseRecOn with
  | nil => exact congrArg Sum.inr h.start
  | append_singleton body a ih =>
      have ha : a ≠ sep := fun heq => hsep (by simp [heq])
      have hbody : sep ∉ body := fun hmem => hsep (List.mem_append_left _ hmem)
      rw [read_append_held (ih (h.shorter hwithin) hbody), read, h.push hwithin ha]
      rfl

/-- A record that ends is read up to its end. -/
theorem Follows.read_record (h : r.Follows sep within held result) (hwithin : within body)
    (hsep : sep ∉ body) (rest : List α) :
    r.read r.start (body ++ sep :: rest) = .inl (result body, rest) := by
  rw [read_append_held (h.read_body hwithin hsep), read, h.ended hwithin]

end Reader

end Framing
