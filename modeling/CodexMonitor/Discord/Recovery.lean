import CodexMonitor.Discord.Durability

/-!
# What a cursor promises

A recovery stores the messages of a page in the order of their ids and only then moves
the cursor of the channel, and its pages follow each other without a gap.  Recoveries of
one channel may run beside each other, so a cursor may move back; but it never stands
in front of a message that is not stored.
-/

namespace CodexMonitor

namespace Discord

/-! ## Pages -/

theorem sent_range (found : List Value) : sent found (List.range found.length) = found := by
  unfold sent
  induction found with
  | nil => rfl
  | cons m rows ih =>
      rw [List.length_cons, List.range_succ_eq_map, List.filterMap_cons, List.filterMap_map]
      exact congrArg (m :: ·) ih

/-- Whatever order a page is sent in, it is read in the order of the ids. -/
theorem sorted_sent {found : List Value} {order : List Nat}
    (hfound : found.Pairwise fun a b => snow a < snow b)
    (horder : order.Perm (List.range found.length)) : sorted (sent found order) = found := by
  have hperm : (sorted (sent found order)).Perm found := by
    have hsent : (sent found order).Perm (sent found (List.range found.length)) :=
      horder.filterMap _
    rw [sent_range] at hsent
    exact (List.perm_insertionSort _ _).trans hsent
  have hdistinct : found.Pairwise fun a b => snow a ≠ snow b := hfound.imp Nat.ne_of_lt
  refine hperm.eq_of_pairwise ?_ (List.pairwise_insertionSort _ _) (hfound.imp Nat.le_of_lt)
  intro a b ha hb hab hba
  exact List.inj_on_of_nodup_map (List.pairwise_map.mpr hdistinct) (hperm.mem_iff.mp ha) hb
    (Nat.le_antisymm hab hba)

/-- A page continues the history where the last one ended. -/
theorem pageOf_append {history : List Value} (hordered : Keyset.Ordered snow history)
    (after : String) : ∃ later, history =
      Keyset.upTo snow (snowflake after) history ++ pageOf history after ++ later := by
  refine ⟨(Keyset.beyond snow (snowflake after) history).drop 100, ?_⟩
  unfold pageOf
  rw [List.append_assoc, List.take_append_drop]
  exact (hordered.upTo_append_beyond _).symm

/-! ## Cursors -/

/-- The message is stored, if it is accepted. -/
def Gateway.Kept (g : Gateway) (db : Adapter) (m : Value) : Prop :=
  ∀ m', inGuild g.config m = some m' → (parse g.config m').isSome → db.Stored (text m "id")

/-- Every accepted message of the history after the seed and up to a place is stored; the place is
that of a message or not after the seed. -/
structure Gateway.Covered (g : Gateway) (db : Adapter) (history : List Value)
    (seed after : String) : Prop where
  kept : ∀ m ∈ history, snowflake seed < snow m → snow m ≤ snowflake after → g.Kept db m
  reached : snowflake after ≤ snowflake seed ∨ ∃ m ∈ history, snow m = snowflake after

/-- What a recovery has behind it: the rows it still stores are the next ones of the history. -/
def Gateway.Within (g : Gateway) (db : Adapter) (history : List Value) (seed : String) :
    Phase → Prop
  | .opening => True
  | .fetching after _ => g.Covered db history seed after
  | .storing after rows _ _ =>
      g.Covered db history seed after ∧
        ∃ before later, history = before ++ rows ++ later ∧
          ∀ m ∈ before, snow m ≤ snowflake after

/-- The invariant of the cursors. -/
structure Gateway.Recovers (g : Gateway) (s : System) : Prop where
  ordered : ∀ channel, Keyset.Ordered snow (s.history channel)
  unseeded : s.db.seed = none → ∀ channel, s.db.cursors.get channel = none
  cursors : ∀ seed channel after, s.db.seed = some seed →
    s.db.cursors.get channel = some after → g.Covered s.db (s.history channel) seed after
  seeded : ∀ p, s.process = some p → s.db.seed = some p.seed
  tasks : ∀ p, s.process = some p → ∀ r ∈ p.recoveries,
    g.Within s.db (s.history r.channel) p.seed r.phase

section recovers

variable {g : Gateway} {d : Deployment} {s t : System} {p : Process} {db db' : Adapter}
  {history added : List Value} {seed after : String} {m m' : Value}

/-- Another key keeps its value. -/
theorem get_insertField {fields : List (String × Value)} {key other : String} {v : Value}
    (hne : other ≠ key) :
    (Value.object (insertField fields key v)).get other = (Value.object fields).get other := by
  unfold Value.get insertField
  simp only
  induction fields with
  | nil => simp [hne.symm]
  | cons entry fields ih =>
      by_cases hkey : entry.1 = key
      · have hother : ¬ entry.1 = other := by
          rw [hkey]
          exact hne.symm
        rw [List.filter_cons_of_neg (by simpa using hkey),
          List.find?_cons_of_neg (by simpa using hother)]
        exact ih
      · rw [List.filter_cons_of_pos (by simpa using hkey), List.cons_append]
        by_cases hother : entry.1 = other
        · rw [List.find?_cons_of_pos (by simpa using hother),
            List.find?_cons_of_pos (by simpa using hother)]
        · rw [List.find?_cons_of_neg (by simpa using hother),
            List.find?_cons_of_neg (by simpa using hother)]
          exact ih

theorem inGuild_id (h : inGuild g.config m = some m') : text m' "id" = text m "id" := by
  obtain ⟨fields, hfields, rfl⟩ := Option.map_eq_some_iff.mp h
  have hobject : m = .object fields := by
    cases m with
    | object others => exact congrArg Value.object (Option.some.inj hfields)
    | null | bool b | number n | string x | array items => cases hfields
  unfold text field
  rw [hobject, get_insertField (by decide)]

theorem Gateway.Kept.keeps (h : g.Kept db m) (hkeeps : db.Keeps db') : g.Kept db' m :=
  fun m' hm' haccepted => hkeeps.stored _ (h m' hm' haccepted)

/-- Nothing is lost, and new messages come at the end. -/
theorem Gateway.Covered.grows (h : g.Covered db history seed after) (hkeeps : db.Keeps db')
    (hadded : ∀ m ∈ added, ∀ q ∈ history, snow q < snow m) :
    g.Covered db' (history ++ added) seed after := by
  refine ⟨fun m hm hseed hle => ?_, ?_⟩
  · obtain hm | hm := List.mem_append.mp hm
    · exact (h.kept m hm hseed hle).keeps hkeeps
    · -- a new message comes after every place that was reached
      obtain hnone | ⟨q, hq, hplace⟩ := h.reached
      · omega
      · have hlt := hadded m hm q hq
        omega
  · obtain hnone | ⟨q, hq, hplace⟩ := h.reached
    · exact .inl hnone
    · exact .inr ⟨q, List.mem_append_left _ hq, hplace⟩

theorem Gateway.Within.grows {phase : Phase} (h : g.Within db history seed phase)
    (hkeeps : db.Keeps db') (hadded : ∀ m ∈ added, ∀ q ∈ history, snow q < snow m) :
    g.Within db' (history ++ added) seed phase := by
  cases phase with
  | opening => exact trivial
  | fetching after pages => exact Gateway.Covered.grows h hkeeps hadded
  | storing after rows short pages =>
      obtain ⟨hcovered, before, later, hsplit, hbefore⟩ := h
      refine ⟨hcovered.grows hkeeps hadded, before, later ++ added, ?_, hbefore⟩
      rw [hsplit, List.append_assoc]

/-- The seed stands for no message. -/
theorem covered_seed : g.Covered db history seed seed :=
  ⟨fun _ _ hlt hle => absurd hlt (Nat.not_lt_of_le hle), .inl (Nat.le_refl _)⟩

theorem fetched_within {pages : Nat} {order : List Nat}
    (hordered : Keyset.Ordered snow history) (h : g.Covered db history seed after)
    (horder : order.Perm (List.range (pageOf history after).length)) :
    g.Within db history seed (.storing after (sorted (sent (pageOf history after) order))
      ((pageOf history after).length < 100) pages) := by
  obtain ⟨later, hsplit⟩ := pageOf_append hordered after
  have hpage : (pageOf history after).Pairwise fun a b => snow a < snow b :=
    (hordered.sublist List.filter_sublist).sublist (List.take_sublist _ _)
  refine ⟨h, Keyset.upTo snow (snowflake after) history, later, ?_, fun m hm => ?_⟩
  · rw [sorted_sent hpage horder]
    exact hsplit
  · exact of_decide_eq_true (List.mem_filter.mp hm).2

/-- A row of a page is stored before the recovery goes on behind it. -/
theorem stored_within {rows : List Value} {short : Bool} {pages : Nat}
    (hordered : Keyset.Ordered snow history)
    (h : g.Within db history seed (.storing after (m :: rows) short pages))
    (hm' : inGuild g.config m = some m') :
    g.Within (g.enqueue m' db) history seed (.storing (text m' "id") rows short pages) := by
  obtain ⟨hcovered, before, later, hsplit, hbefore⟩ := h
  have hid := inGuild_id hm'
  have hkeeps : db.Keeps (g.enqueue m' db) := enqueue_keeps m'
  have hsplit' : history = before ++ m :: (rows ++ later) := by
    rw [hsplit]
    simp only [List.append_assoc, List.cons_append]
  have hmem : m ∈ history := by
    rw [hsplit']
    exact List.mem_append_right _ List.mem_cons_self
  rw [hsplit'] at hordered
  obtain ⟨_, hback, hcross⟩ := List.pairwise_append.mp hordered
  rw [hid]
  refine ⟨⟨fun q hq hseed hle => ?_, .inr ⟨m, hmem, rfl⟩⟩, before ++ [m], later, ?_, ?_⟩
  · have hq' := hq
    rw [hsplit'] at hq'
    obtain hfront | hrest := List.mem_append.mp hq'
    · exact (hcovered.kept q hq hseed (hbefore q hfront)).keeps hkeeps
    · obtain rfl | hlater := List.mem_cons.mp hrest
      · intro q' hq' haccepted
        obtain rfl := Option.some.inj (hm'.symm.trans hq')
        rw [← hid]
        exact enqueue_stored db haccepted
      · have hlt : snow m < snow q := List.rel_of_pairwise_cons hback hlater
        exact absurd hle (Nat.not_le_of_lt hlt)
  · rw [hsplit']
    simp only [List.append_assoc, List.cons_append, List.nil_append]
  · intro q hq
    obtain hq | hq := List.mem_append.mp hq
    · exact Nat.le_of_lt (hcross q hq m List.mem_cons_self)
    · obtain rfl := List.mem_singleton.mp hq
      exact Nat.le_refl _

/-- One step of a recovery. -/
theorem recover_within {histories : String → List Value} {order : List Nat} {r : Recovery}
    {rs : List Recovery} (hordered : Keyset.Ordered snow (histories r.channel))
    (hwithin : g.Within db (histories r.channel) seed r.phase)
    (hcursor : ∀ after, db.cursors.get r.channel = some after →
      g.Covered db (histories r.channel) seed after)
    (h : g.recover seed histories order r db = some (db', rs)) :
    (∀ q ∈ rs, g.Within db' (histories q.channel) seed q.phase) ∧
      ∀ channel after, db'.cursors.get channel = some after →
        db.cursors.get channel = some after ∨
          (channel = r.channel ∧ g.Covered db' (histories channel) seed after) := by
  obtain ⟨channel, rest, phase⟩ := r
  unfold Gateway.recover at h
  simp only at h hordered hwithin hcursor
  split at h
  · cases h
    refine ⟨fun q hq => ?_, fun _ _ hget => .inl hget⟩
    obtain rfl := List.mem_singleton.mp hq
    show g.Covered db (histories channel) seed _
    cases hget : db.cursors.get channel with
    | none => exact covered_seed
    | some after => exact hcursor after hget
  · obtain ⟨horder, h⟩ := Option.ite_none_right_eq_some.mp h
    cases h
    refine ⟨fun q hq => ?_, fun _ _ hget => .inl hget⟩
    obtain rfl := List.mem_singleton.mp hq
    exact fetched_within hordered hwithin horder
  · rename_i after short pages
    cases h
    refine ⟨fun q hq => ?_, fun other place hget => ?_⟩
    · split at hq
      · split at hq
        · cases hq
        · obtain rfl := List.mem_singleton.mp hq
          exact trivial
      · split at hq
        · cases hq
        · obtain rfl := List.mem_singleton.mp hq
          exact ⟨hwithin.1.kept, hwithin.1.reached⟩
    · have hget : (db.cursors.set channel after).get other = some place := hget
      rw [Dict.get_set] at hget
      split at hget
      · rename_i hchannel
        cases hget
        rw [hchannel]
        exact .inr ⟨rfl, hwithin.1.kept, hwithin.1.reached⟩
      · exact .inl hget
  · split at h
    · cases h
    · rename_i m' hm'
      obtain ⟨_, h⟩ := Option.ite_none_right_eq_some.mp h
      cases h
      refine ⟨fun q hq => ?_, fun other place hget => ?_⟩
      · obtain rfl := List.mem_singleton.mp hq
        exact stored_within hordered hwithin hm'
      · rw [(enqueue_tables m' db).2.2.1] at hget
        exact .inl hget

/-! ## Steps -/

/-- Histories that have grown at their ends. -/
def Lengthens (s t : System) : Prop :=
  ∀ channel, ∃ added, t.history channel = s.history channel ++ added ∧
    ∀ m ∈ added, ∀ q ∈ s.history channel, snow q < snow m

theorem Lengthens.of_same (h : t.history = s.history) : Lengthens s t := by
  intro channel
  refine ⟨[], ?_, List.forall_mem_nil _⟩
  rw [h, List.append_nil]

theorem Lengthens.covered (h : Lengthens s t) (hkeeps : s.db.Keeps t.db) {channel : String}
    (hcovered : g.Covered s.db (s.history channel) seed after) :
    g.Covered t.db (t.history channel) seed after := by
  obtain ⟨added, hadded, hnew⟩ := h channel
  rw [hadded]
  exact hcovered.grows hkeeps hnew

theorem Lengthens.within (h : Lengthens s t) (hkeeps : s.db.Keeps t.db) {channel : String}
    {phase : Phase} (hwithin : g.Within s.db (s.history channel) seed phase) :
    g.Within t.db (t.history channel) seed phase := by
  obtain ⟨added, hadded, hnew⟩ := h channel
  rw [hadded]
  exact hwithin.grows hkeeps hnew

/-- A step that moves no cursor and no recovery. -/
theorem Gateway.Recovers.kept (h : g.Recovers s) (hkeeps : s.db.Keeps t.db)
    (hlengthens : Lengthens s t) (hordered : ∀ channel, Keyset.Ordered snow (t.history channel))
    (hcursors : t.db.cursors = s.db.cursors) (hseed : t.db.seed = s.db.seed)
    (hprocess : ∀ q, t.process = some q → ∃ p, s.process = some p ∧ q.seed = p.seed ∧
      ∀ r ∈ q.recoveries, r ∈ p.recoveries ∨ r.phase = .opening) : g.Recovers t := by
  refine ⟨hordered, ?_, ?_, ?_, ?_⟩
  · intro hnone
    rw [hcursors]
    exact h.unseeded (hseed.symm.trans hnone)
  · intro seed channel after hsome hget
    rw [hseed] at hsome
    rw [hcursors] at hget
    exact hlengthens.covered hkeeps (h.cursors seed channel after hsome hget)
  · intro q hq
    obtain ⟨p, hp, hsame, _⟩ := hprocess q hq
    rw [hseed, hsame]
    exact h.seeded p hp
  · intro q hq r hr
    obtain ⟨p, hp, hsame, hrecoveries⟩ := hprocess q hq
    rw [hsame]
    obtain hold | hopening := hrecoveries r hr
    · exact hlengthens.within hkeeps (h.tasks p hp r hold)
    · rw [hopening]
      exact trivial

theorem mem_recovery {r : Recovery} (hr : r ∈ g.recovery) : r.phase = .opening := by
  unfold Gateway.recovery at hr
  split at hr
  · cases hr
  · obtain rfl := List.mem_singleton.mp hr
    rfl

theorem dispatch_recoveries {v : Value} {r : Recovery} (hr : r ∈ (g.dispatch v p).recoveries) :
    r ∈ p.recoveries ∨ r.phase = .opening := by
  unfold Gateway.dispatch at hr
  simp only at hr
  split at hr
  · obtain hr | hr := List.mem_append.mp hr
    · exact .inl hr
    · exact .inr (mem_recovery hr)
  · exact .inl hr

theorem linkStep_recovers (h : g.Recovers s) (hp : s.process = some p) {a : LinkAct}
    (hstep : g.linkStep s p a = some t) : g.Recovers t := by
  have hlinks := linkStep_links hp hstep
  have hkeeps := (linkStep_writes [] hstep).keeps
  have hlengthens : Lengthens s t := .of_same hlinks.history
  have hordered : ∀ channel, Keyset.Ordered snow (t.history channel) := by
    rw [hlinks.history]
    exact h.ordered
  have hsame : ∀ q : Process, q.seed = p.seed → q.recoveries = p.recoveries →
      ∃ p, s.process = some p ∧ q.seed = p.seed ∧
        ∀ r ∈ q.recoveries, r ∈ p.recoveries ∨ r.phase = .opening := by
    intro q hseed hrecoveries
    refine ⟨p, hp, hseed, fun r hr => .inl ?_⟩
    rwa [hrecoveries] at hr
  cases a with
  | identified sid =>
      obtain ⟨_, hstep⟩ := Option.ite_none_right_eq_some.mp hstep
      cases hstep
      refine h.kept hkeeps hlengthens hordered rfl hlinks.seed fun q hq => ?_
      cases hq
      exact hsame _ rfl rfl
  | resumed =>
      simp only [Gateway.linkStep] at hstep
      split at hstep
      · cases hstep
        refine h.kept hkeeps hlengthens hordered rfl hlinks.seed fun q hq => ?_
        cases hq
        exact hsame _ rfl rfl
      · cases hstep
  | received =>
      obtain ⟨l, _, hstep⟩ := Option.bind_eq_some_iff.mp hstep
      obtain ⟨_, hstep⟩ := Option.ite_none_left_eq_some.mp hstep
      obtain ⟨v, _, hstep⟩ := Option.map_eq_some_iff.mp hstep
      split at hstep
      · obtain rfl := hstep
        refine h.kept hkeeps hlengthens hordered rfl hlinks.seed fun q hq => ?_
        cases hq
        exact hsame _ rfl rfl
      · obtain rfl := hstep
        refine h.kept hkeeps hlengthens hordered (store_tables v s.db).2.2.1 hlinks.seed
          fun q hq => ?_
        cases hq
        exact ⟨p, hp, rfl, fun r hr => dispatch_recoveries hr⟩
  | saved =>
      obtain ⟨l, _, hstep⟩ := Option.bind_eq_some_iff.mp hstep
      obtain ⟨_, hstep⟩ := Option.ite_none_right_eq_some.mp hstep
      cases hstep
      refine h.kept hkeeps hlengthens hordered rfl hlinks.seed fun q hq => ?_
      cases hq
      exact hsame _ rfl rfl
  | closed reset =>
      cases hstep
      refine h.kept hkeeps hlengthens hordered rfl hlinks.seed fun q hq => ?_
      cases hq
      exact hsame _ rfl rfl
  | kept =>
      obtain ⟨_, hstep⟩ := Option.ite_none_right_eq_some.mp hstep
      cases hstep
      refine h.kept hkeeps hlengthens hordered rfl hlinks.seed fun q hq => ?_
      exact ⟨q, hq, rfl, fun _ hr => .inl hr⟩
  | aborted i =>
      cases hstep
      refine h.kept hkeeps hlengthens hordered rfl hlinks.seed fun q hq => ?_
      cases hq
      exact ⟨p, hp, rfl, fun r hr => .inl (List.mem_of_mem_eraseIdx hr)⟩
  | recovered i order =>
      obtain ⟨r, hr, hstep⟩ := Option.bind_eq_some_iff.mp hstep
      obtain ⟨⟨db, rs⟩, hfound, hstep⟩ := Option.map_eq_some_iff.mp hstep
      have hmem : r ∈ p.recoveries := List.mem_of_getElem? hr
      have hseeded := h.seeded p hp
      have hcursor : ∀ after, s.db.cursors.get r.channel = some after →
          g.Covered s.db (s.history r.channel) p.seed after :=
        fun after hget => h.cursors p.seed r.channel after hseeded hget
      obtain ⟨hwithin, hcursors⟩ :=
        recover_within (h.ordered r.channel) (h.tasks p hp r hmem) hcursor hfound
      obtain ⟨_, _, hseed⟩ := recover_tables hfound
      obtain rfl := hstep
      refine ⟨hordered, ?_, ?_, ?_, ?_⟩
      · intro hnone
        have hnone : db.seed = none := hnone
        rw [hseed, hseeded] at hnone
        cases hnone
      · intro seed channel after hsome hget
        have hsome : db.seed = some seed := hsome
        rw [hseed, hseeded] at hsome
        obtain rfl := Option.some.inj hsome
        obtain hold | ⟨_, hcovered⟩ := hcursors channel after hget
        · exact hlengthens.covered hkeeps (h.cursors p.seed channel after hseeded hold)
        · exact hcovered
      · intro q hq
        cases hq
        exact hseed.trans hseeded
      · intro q hq r' hr'
        cases hq
        obtain hr' | hr' := List.mem_append.mp hr'
        · exact hlengthens.within hkeeps (h.tasks p hp r' (List.mem_of_mem_eraseIdx hr'))
        · exact hwithin r' hr'

theorem step_recovers (h : d.gateway.Recovers s) {a : Act} (hstep : d.step s a = some t) :
    d.gateway.Recovers t := by
  have hkeeps := step_keeps hstep
  cases a with
  | written channel m =>
      obtain ⟨hafter, hstep⟩ := Option.ite_none_right_eq_some.mp hstep
      cases hstep
      refine h.kept hkeeps (fun other => ?_) (fun other => ?_) rfl rfl
        fun q hq => ⟨q, hq, rfl, fun _ hr => .inl hr⟩
      · by_cases hchannel : other = channel
        · subst hchannel
          refine ⟨[m], by simp only [Function.update_self], fun q hq => ?_⟩
          obtain rfl := List.mem_singleton.mp hq
          exact hafter
        · refine ⟨[], ?_, List.forall_mem_nil _⟩
          simp only [Function.update_of_ne hchannel, List.append_nil]
      · by_cases hchannel : other = channel
        · subst hchannel
          simp only [Function.update_self]
          unfold Keyset.Ordered
          rw [List.pairwise_append]
          refine ⟨h.ordered other, List.pairwise_singleton _ _, fun q hq u hu => ?_⟩
          obtain rfl := List.mem_singleton.mp hu
          exact hafter q hq
        · simp only [Function.update_of_ne hchannel]
          exact h.ordered other
  | opened sid v | dispatched sid v | called op =>
      obtain ⟨_, hstep⟩ := Option.ite_none_right_eq_some.mp hstep
      cases hstep
      exact h.kept hkeeps (.of_same rfl) h.ordered rfl rfl
        fun q hq => ⟨q, hq, rfl, fun _ hr => .inl hr⟩
  | arrived n uuid now answered =>
      have hprocess : ∀ q, t.process = some q → ∃ p, s.process = some p ∧ q.seed = p.seed ∧
          ∀ r ∈ q.recoveries, r ∈ p.recoveries ∨ r.phase = .opening := by
        intro q hq
        obtain ⟨p, hp, rfl | ⟨serial, receipt, rfl⟩⟩ := arrived_process hstep hq
        · exact ⟨q, hp, rfl, fun _ hr => .inl hr⟩
        · obtain ⟨_, _, hrecoveries, hseed⟩ := answer_link p serial receipt
          refine ⟨p, hp, hseed, fun r hr => .inl ?_⟩
          rwa [hrecoveries] at hr
      obtain ⟨post, _, rfl⟩ := Option.map_eq_some_iff.mp hstep
      exact h.kept hkeeps (.of_same rfl) h.ordered rfl rfl hprocess
  | started since =>
      simp only [Deployment.step] at hstep
      split at hstep
      · rename_i seed _ hseed
        obtain ⟨_, hstep⟩ := Option.ite_none_right_eq_some.mp hstep
        cases hstep
        have hsaved : (s.db.setSeed seed).seed = some seed := by
          show some (s.db.seed.getD seed) = some seed
          cases hsome : s.db.seed with
          | none => rfl
          | some first =>
              rw [hsome] at hseed
              exact hseed
        refine ⟨h.ordered, ?_, ?_, ?_, ?_⟩
        · intro hnone
          rw [hsaved] at hnone
          cases hnone
        · intro seed' channel after hsome hget
          have hget : s.db.cursors.get channel = some after := hget
          cases hbefore : s.db.seed with
          | none =>
              rw [h.unseeded hbefore] at hget
              cases hget
          | some first =>
              rw [hbefore] at hseed
              obtain rfl : first = seed := Option.some.inj hseed
              rw [hsaved] at hsome
              obtain rfl := Option.some.inj hsome
              have hcovered := h.cursors first channel after hbefore hget
              exact ⟨hcovered.kept, hcovered.reached⟩
        · intro q hq
          cases hq
          exact hsaved
        · intro q hq r hr
          cases hq
          cases hr
      · cases hstep
  | crashed =>
      cases hstep
      refine h.kept hkeeps (.of_same rfl) h.ordered rfl rfl fun q hq => ?_
      cases hq
  | link a =>
      obtain ⟨p, hp, hstep⟩ := Option.bind_eq_some_iff.mp hstep
      exact linkStep_recovers h hp hstep
  | work a =>
      obtain ⟨p, hp, hstep⟩ := Option.bind_eq_some_iff.mp hstep
      have hrests := workStep_rests hstep
      refine h.kept hkeeps (.of_same hrests.history) ?_ hrests.cursors hrests.seed fun q hq => ?_
      · rw [hrests.history]
        exact h.ordered
      · obtain ⟨work, hwork⟩ := hrests.process
        rw [hwork] at hq
        cases hq
        exact ⟨p, hp, rfl, fun _ hr => .inl hr⟩

theorem initial_recovers (h : s.Initial) : g.Recovers s := by
  refine ⟨h.history, ?_, ?_, ?_, ?_⟩
  · intro _ channel
    rw [h.cursors]
    rfl
  · intro seed channel after hsome _
    rw [h.seed] at hsome
    cases hsome
  · intro p hp
    rw [h.process] at hp
    cases hp
  · intro p hp _ _
    rw [h.process] at hp
    cases hp

/-- **The cursor never runs ahead.**  After any steps from the start, crashes among them, every
message of a channel's history after the first start's id and up to the saved cursor is stored, if
it is accepted as a message of its guild; so the next recovery misses none. -/
theorem cursor_durable (d : Deployment) (s t : System) (seed channel after : String) (m m' : Value)
    (hstart : s.Initial) (hleads : d.Leads s t) (hseed : t.db.seed = some seed)
    (hcursor : t.db.cursors.get channel = some after) (hm : m ∈ t.history channel)
    (hfirst : snowflake seed < snow m) (hlast : snow m ≤ snowflake after)
    (hguild : inGuild d.gateway.config m = some m')
    (haccepted : (parse d.gateway.config m').isSome) : t.db.Stored (text m "id") := by
  have hrecovers : d.gateway.Recovers t :=
    Runs.Leads.invariant (P := d.gateway.Recovers) (fun s a t h hstep => step_recovers h hstep)
      hleads (initial_recovers hstart)
  exact (hrecovers.cursors seed channel after hseed hcursor).kept m hm hfirst hlast m' hguild
    haccepted

end recovers

/-- The accepted message was written before the first connection. -/
def historyActs : List Act :=
  [.opened "session-1" readyEvent, .written "55555555555555555" acceptedMessage,
    .started (some "60000000000000000"), .link (.identified "session-1"), .link .received,
    .link (.recovered 0 []), .link (.recovered 0 [0]), .link (.recovered 0 []),
    .link (.recovered 0 []), .crashed]

/-- The process crashes after the recovery has read the channel. -/
theorem cursor_durable_sample :
    ∃ t, sampleDeployment.Leads (sampleStart []) t ∧
      t.db.cursors.get "55555555555555555" = some "66666666666666666" ∧
        t.db.Stored "66666666666666666" := by
  have hrun : (Runs.run? sampleDeployment.step historyActs (sampleStart [])).any
      (fun t => t.db.seed = some "60000000000000000" ∧
        t.db.cursors.get "55555555555555555" = some "66666666666666666" ∧
        ((t.history "55555555555555555").any fun m =>
          snowflake "60000000000000000" < snow m ∧ snow m ≤ snowflake "66666666666666666" ∧
            text m "id" = "66666666666666666" ∧
            ((inGuild sampleConfig m).any fun m' => (parse sampleConfig m').isSome) = true) =
          true) = true := by
    decide +kernel
  obtain ⟨t, ht, hfacts⟩ := Option.any_eq_true _ _ |>.mp hrun
  obtain ⟨hseed, hcursor, hhistory⟩ := of_decide_eq_true hfacts
  obtain ⟨m, hm, hmessage⟩ := List.any_eq_true.mp hhistory
  obtain ⟨hfirst, hlast, hid, hguild⟩ := of_decide_eq_true hmessage
  obtain ⟨m', hm', haccepted⟩ := Option.any_eq_true _ _ |>.mp hguild
  have hleads : sampleDeployment.Leads (sampleStart []) t := Runs.leads_run ht
  have hstored := cursor_durable sampleDeployment (sampleStart []) t "60000000000000000"
    "55555555555555555" "66666666666666666" m m' sampleStart_initial hleads hseed hcursor hm
    hfirst hlast hm' haccepted
  rw [hid] at hstored
  exact ⟨t, hleads, hcursor, hstored⟩

end Discord

end CodexMonitor
