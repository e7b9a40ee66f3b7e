import CodexMonitor.Store.Capacity
import CodexMonitor.Store.Retirement

/-!
# The registry of managed watches

A managed watch and the binding it owns are two rows that always say the same: both
ways of pausing, resuming and removing them write both rows or neither.  Removed rows
stay removed, the limits hold of the watches that are left, and every action on a
watch moves its lifecycle epoch on.
-/

namespace CodexMonitor

open Transaction

/-! ## The invariant -/

/-- The binding `b` belongs to the watch `w`. -/
structure Watch.Mirrors (w : Watch) (b : Binding) : Prop where
  name_eq : b.name = w.binding
  thread_eq : b.thread = w.thread
  sources_eq : b.sources = ["managed/file"]
  enabled_eq : b.enabled = w.enabled
  removed_eq : b.removed = w.removed

/-- The watches that are not removed. -/
def Db.liveCount (db : Db) : Nat := db.managedWatches.count fun w => w.removed = false

/-- The watches of a thread that are not removed. -/
def Db.liveCountOf (db : Db) (thread : String) : Nat :=
  db.managedWatches.count fun w => w.thread = thread ∧ w.removed = false

structure Db.Registry (db : Db) : Prop where
  mirrored : ∀ w ∈ db.managedWatches, ∃ b ∈ db.bindings, w.Mirrors b
  own : ∀ w ∈ db.managedWatches, ∀ v ∈ db.managedWatches, w.binding = v.binding → w = v
  managed : ∀ b ∈ db.bindings, "managed/file" ∈ b.sources →
    ∃ w ∈ db.managedWatches, w.Mirrors b
  watch_off : ∀ w ∈ db.managedWatches, w.removed = true → w.enabled = false
  binding_off : ∀ b ∈ db.bindings, b.removed = true → b.enabled = false
  distinct : ∀ w ∈ db.managedWatches, ∀ v ∈ db.managedWatches, w.removed = false →
    v.removed = false → w.thread = v.thread → w.name = v.name → w = v
  total_le : db.liveCount ≤ maxWatches
  perThread_le : ∀ thread, db.liveCountOf thread ≤ maxWatchesPerThread

section entries

variable {crates : Crates} {db : Db} {k : Entry} {w : Watch} {b : Binding}

/-- What an entry keeps of a watch. -/
theorem Entry.onWatch_key (k : Entry) (w : Watch) : (k.onWatch w).id = w.id ∧
    (k.onWatch w).binding = w.binding ∧ (k.onWatch w).thread = w.thread ∧
      (k.onWatch w).name = w.name := by
  cases k with
  | route | watch | checkpoint =>
      simp only [Entry.onWatch]
      split <;> exact ⟨rfl, rfl, rfl, rfl⟩
  | _ => exact ⟨rfl, rfl, rfl, rfl⟩

/-- No entry takes the removal of a watch back. -/
theorem Entry.onWatch_live (h : k.Enabled crates db) (hw : w ∈ db.managedWatches)
    (hlive : (k.onWatch w).removed = false) : w.removed = false := by
  cases k with
  | route name action now =>
      simp only [Entry.onWatch] at hlive
      split at hlive
      · rename_i hmatch
        exact hmatch.2
      · exact hlive
  | watch v action now =>
      simp only [Entry.onWatch] at hlive
      split at hlive
      · rename_i hid
        rw [Watch.eq_of_id hw h.1 hid]
        exact h.2
      · exact hlive
  | checkpoint v text now =>
      simp only [Entry.onWatch] at hlive
      split at hlive
      · exact hlive
      · exact hlive
  | _ => exact hlive

/-- A watch and its binding are written together. -/
theorem Entry.onWatch_mirrors (h : k.Enabled crates db) (hw : w ∈ db.managedWatches)
    (hb : b ∈ db.bindings) (hoff : w.removed = true → w.enabled = false) (hmirrors : w.Mirrors b) :
    (k.onWatch w).Mirrors (k.onBinding b) := by
  obtain ⟨hname, hthread, hsources, henabled, hremoved⟩ := hmirrors
  cases k with
  | route name action now =>
      simp only [Entry.onWatch, Entry.onBinding]
      by_cases hown : b.name = name
      · rw [if_pos hown]
        by_cases hgone : w.removed = true
        · -- the route of a removed watch can only be removed again
          obtain ⟨c, hc, hcname, haction⟩ := h
          obtain rfl := Binding.eq_of_name hb hc (hown.trans hcname.symm)
          have hremove : action = .remove := haction (hremoved.trans hgone)
          rw [if_neg fun hmatch => Bool.false_ne_true (hmatch.2.symm.trans hgone), hremove]
          refine ⟨hname, hthread, hsources, ?_, hgone.symm⟩
          rw [hoff hgone]
          rfl
        · have hlive : w.removed = false := Bool.eq_false_of_not_eq_true hgone
          rw [if_pos ⟨hname.symm.trans hown, hlive⟩]
          exact ⟨hname, hthread, hsources, rfl, rfl⟩
      · rw [if_neg hown, if_neg fun hmatch => hown (hname.trans hmatch.1)]
        exact ⟨hname, hthread, hsources, henabled, hremoved⟩
  | watch v action now =>
      simp only [Entry.onWatch, Entry.onBinding]
      by_cases hown : b.name = v.binding
      · obtain rfl := Watch.eq_of_binding hw h.1 (hname.symm.trans hown)
        rw [if_pos hown, if_pos rfl]
        exact ⟨hname, hthread, hsources, rfl, rfl⟩
      · have hother : w.id ≠ v.id := by
          intro hid
          obtain rfl := Watch.eq_of_id hw h.1 hid
          exact hown hname
        rw [if_neg hown, if_neg hother]
        exact ⟨hname, hthread, hsources, henabled, hremoved⟩
  | checkpoint v text now =>
      simp only [Entry.onWatch, Entry.onBinding]
      split
      · exact ⟨hname, hthread, hsources, henabled, hremoved⟩
      · exact ⟨hname, hthread, hsources, henabled, hremoved⟩
  | _ => exact ⟨hname, hthread, hsources, henabled, hremoved⟩

/-- Only a resumption enables, and it removes nothing. -/
theorem action_off {action : LifecycleAction}
    (hremoved : decide (action = .remove) = true) : decide (action = .resume) = false := by
  cases action with
  | remove => rfl
  | pause => rfl
  | resume => cases hremoved

theorem Entry.onWatch_off (k : Entry) (hoff : w.removed = true → w.enabled = false)
    (hgone : (k.onWatch w).removed = true) : (k.onWatch w).enabled = false := by
  cases k with
  | route | watch =>
      simp only [Entry.onWatch] at hgone ⊢
      split at hgone
      · rename_i hmatch
        rw [if_pos hmatch]
        exact action_off hgone
      · rename_i hother
        rw [if_neg hother]
        exact hoff hgone
  | checkpoint v text now =>
      simp only [Entry.onWatch] at hgone ⊢
      split at hgone
      · rename_i hmatch
        rw [if_pos hmatch]
        exact hoff hgone
      · rename_i hother
        rw [if_neg hother]
        exact hoff hgone
  | _ => exact hoff hgone

theorem Entry.onBinding_off (k : Entry) (hoff : b.removed = true → b.enabled = false)
    (hgone : (k.onBinding b).removed = true) : (k.onBinding b).enabled = false := by
  cases k with
  | route | watch =>
      simp only [Entry.onBinding] at hgone ⊢
      split at hgone
      · rename_i hmatch
        rw [if_pos hmatch]
        exact action_off hgone
      · rename_i hother
        rw [if_neg hother]
        exact hoff hgone
  | _ => exact hoff hgone

/-- What is counted of the watches only becomes less, but for a new one. -/
theorem Entry.watches_count_le (h : k.Enabled crates db) {p : Watch → Prop} [DecidablePred p]
    (hp : ∀ w ∈ db.managedWatches, p (k.onWatch w) → p w) :
    (k.apply crates db).managedWatches.count p ≤
      db.managedWatches.count p + (k.newWatch?.toList.countP fun w => p w) := by
  unfold Table.count
  rw [Entry.rows_watches h, List.countP_append]
  exact Nat.add_le_add_right (countP_map_le hp) _

/-- The limits leave room for the watch that an entry registers. -/
def Db.Admits (db : Db) (w : Watch) : Prop :=
  (∀ v ∈ db.managedWatches, v.thread = w.thread → v.name = w.name → v.removed = true) ∧
    db.liveCount < maxWatches ∧ db.liveCountOf w.thread < maxWatchesPerThread

theorem Db.Registry.apply (hdb : db.Registry) (h : k.Enabled crates db)
    (hadmits : ∀ w, k.newWatch? = some w → db.Admits w) : (k.apply crates db).Registry := by
  have hold : ∀ w ∈ db.managedWatches, ∀ b ∈ db.bindings, w.Mirrors b →
      k.onBinding b ∈ (k.apply crates db).bindings ∧ (k.onWatch w).Mirrors (k.onBinding b) :=
    fun w hw b hb hmirrors => ⟨(Entry.mem_bindings h).mpr (Or.inl ⟨b, hb, rfl⟩),
      Entry.onWatch_mirrors h hw hb (hdb.watch_off w hw) hmirrors⟩
  have hcreate : ∀ w, k.newWatch? = some w → ∃ b, k.newBinding? = some b ∧ w.Mirrors b ∧
      w.removed = false ∧ b.removed = false := by
    intro w hnew
    cases k with
    | createWatch b v =>
        obtain rfl := Option.some.inj hnew
        obtain ⟨_, _, hname, hthread, hsources, hbon, hbkept, hon, hkept⟩ := h
        exact ⟨b, rfl, ⟨hname, hthread, hsources, hbon.trans hon.symm, hbkept.trans hkept.symm⟩,
          hkept, hbkept⟩
    | _ => cases hnew
  have hlive := fun w (hw : w ∈ db.managedWatches) => Entry.onWatch_live h hw
  refine ⟨?_, ?_, ?_, ?_, ?_, ?_, ?_, ?_⟩
  · intro w hw
    rcases (Entry.mem_watches h).mp hw with ⟨v, hv, rfl⟩ | hnew
    · obtain ⟨b, hb, hmirrors⟩ := hdb.mirrored v hv
      exact ⟨_, hold v hv b hb hmirrors⟩
    · obtain ⟨b, hb, hmirrors, _⟩ := hcreate w hnew
      exact ⟨b, (Entry.mem_bindings h).mpr (Or.inr hb), hmirrors⟩
  · exact fun w hw v hv heq => Watch.eq_of_binding hw hv heq
  · intro b hb hmanaged
    rcases (Entry.mem_bindings h).mp hb with ⟨c, hc, rfl⟩ | hnew
    · rw [(k.onBinding_key c).2.2.2] at hmanaged
      obtain ⟨w, hw, hmirrors⟩ := hdb.managed c hc hmanaged
      exact ⟨_, (Entry.mem_watches h).mpr (Or.inl ⟨w, hw, rfl⟩), (hold w hw c hc hmirrors).2⟩
    · cases k with
      | bind c =>
          obtain rfl := Option.some.inj hnew
          exact absurd hmanaged h.2.2.2
      | createWatch c w =>
          obtain rfl := Option.some.inj hnew
          obtain ⟨b, hb, hmirrors, _⟩ := hcreate w rfl
          obtain rfl := Option.some.inj hb
          exact ⟨w, (Entry.mem_watches h).mpr (Or.inr rfl), hmirrors⟩
      | _ => cases hnew
  · intro w hw hgone
    rcases (Entry.mem_watches h).mp hw with ⟨v, hv, rfl⟩ | hnew
    · exact k.onWatch_off (hdb.watch_off v hv) hgone
    · obtain ⟨_, _, _, hkept, _⟩ := hcreate w hnew
      exact absurd (hkept.symm.trans hgone) Bool.false_ne_true
  · intro b hb hgone
    rcases (Entry.mem_bindings h).mp hb with ⟨c, hc, rfl⟩ | hnew
    · exact k.onBinding_off (hdb.binding_off c hc) hgone
    · exact absurd ((Entry.newBinding_kept h hnew).symm.trans hgone) Bool.false_ne_true
  · intro w hw v hv hwlive hvlive hthread hname
    rcases (Entry.mem_watches h).mp hw with ⟨w', hw', rfl⟩ | hwnew
    · obtain ⟨_, _, hwthread, hwname⟩ := k.onWatch_key w'
      rcases (Entry.mem_watches h).mp hv with ⟨v', hv', rfl⟩ | hvnew
      · obtain ⟨_, _, hvthread, hvname⟩ := k.onWatch_key v'
        rw [hwthread, hvthread] at hthread
        rw [hwname, hvname] at hname
        rw [hdb.distinct w' hw' v' hv' (hlive w' hw' hwlive) (hlive v' hv' hvlive) hthread hname]
      · rw [hwthread] at hthread
        rw [hwname] at hname
        have hgone := (hadmits v hvnew).1 w' hw' hthread hname
        exact absurd ((hlive w' hw' hwlive).symm.trans hgone) Bool.false_ne_true
    · rcases (Entry.mem_watches h).mp hv with ⟨v', hv', rfl⟩ | hvnew
      · obtain ⟨_, _, hvthread, hvname⟩ := k.onWatch_key v'
        rw [hvthread] at hthread
        rw [hvname] at hname
        have hgone := (hadmits w hwnew).1 v' hv' hthread.symm hname.symm
        exact absurd ((hlive v' hv' hvlive).symm.trans hgone) Bool.false_ne_true
      · rw [hwnew] at hvnew
        exact Option.some.inj hvnew
  · have hle := Entry.watches_count_le h (p := fun w => w.removed = false) hlive
    have hdbtotal := hdb.total_le
    unfold Db.liveCount at hdbtotal ⊢
    cases hnew : k.newWatch? with
    | none =>
        rw [hnew] at hle
        exact hle.trans hdbtotal
    | some w =>
        have hroom := (hadmits w hnew).2.1
        rw [hnew] at hle
        unfold Db.liveCount at hroom
        have hone : (some w).toList.countP (fun w => decide (w.removed = false)) ≤ 1 :=
          List.countP_le_length
        omega
  · intro thread
    have hthread : ∀ w ∈ db.managedWatches, (k.onWatch w).thread = thread ∧
        (k.onWatch w).removed = false → w.thread = thread ∧ w.removed = false := by
      intro w hw hcounted
      rw [(k.onWatch_key w).2.2.1] at hcounted
      exact ⟨hcounted.1, hlive w hw hcounted.2⟩
    have hle := Entry.watches_count_le h (p := fun w => w.thread = thread ∧ w.removed = false) hthread
    have hdbthread := hdb.perThread_le thread
    unfold Db.liveCountOf at hdbthread ⊢
    cases hnew : k.newWatch? with
    | none =>
        rw [hnew] at hle
        exact hle.trans hdbthread
    | some w =>
        rw [hnew] at hle
        by_cases hown : w.thread = thread
        · have hroom := (hadmits w hnew).2.2
          rw [hown] at hroom
          unfold Db.liveCountOf at hroom
          have hone : (some w).toList.countP
              (fun w => decide (w.thread = thread ∧ w.removed = false)) ≤ 1 :=
            List.countP_le_length
          omega
        · have hzero : (some w).toList.countP
              (fun w => decide (w.thread = thread ∧ w.removed = false)) = 0 := by
            simp [hown]
          omega

end entries

/-! ## Calls -/

section calls

variable {crates : Crates} {db t : Db}

/-- The only call that registers a watch checks the limits first. -/
theorem watchCreate_admits {thread name path endpoint : String} {interval debounce : F64}
    {condition : Option Value} {uuid : Uuid} {now : Rat} {w : Watch}
    (h : (watchCreate crates thread name path interval endpoint debounce condition uuid now).run db
      = (.ok w, t)) :
    db.Admits w ∧ ∃ b, (Entry.createWatch b w).Enabled crates db ∧
      t = (Entry.createWatch b w).apply crates db := by
  obtain ⟨_, _, _, _, _, rfl, hfree, htotal, hthread, henabled⟩ := watchCreate_ok h
  refine ⟨⟨fun v hv hsame hname => ?_, htotal, hthread⟩, henabled⟩
  by_contra hlive
  exact hfree (List.countP_pos_iff.mpr ⟨v, hv, decide_eq_true ⟨hsame, hname,
    Bool.eq_false_of_not_eq_true hlive⟩⟩)

/-- Every other call registers none. -/
theorem Op.Writes.newWatch_none {op : Op} {k : Entry} (h : op.Writes crates k)
    (hcreate : ∀ thread name path interval endpoint debounce condition uuid now,
      op ≠ .watchCreate thread name path interval endpoint debounce condition uuid now) :
    k.newWatch? = none := by
  cases h with
  | createWatch => exact absurd rfl (hcreate _ _ _ _ _ _ _ _ _)
  | _ => rfl

theorem Db.Registry.step (hdb : db.Registry) (op : Op) : (op.step crates db).Registry := by
  by_cases hcreate : ∃ thread name path interval endpoint debounce condition uuid now,
      op = .watchCreate thread name path interval endpoint debounce condition uuid now
  · obtain ⟨thread, name, path, interval, endpoint, debounce, condition, uuid, now, rfl⟩ := hcreate
    cases hrun : (watchCreate crates thread name path interval endpoint debounce condition uuid
        now).run db with
    | mk result u =>
        cases result with
        | error e =>
            rw [step_of_fail rfl hrun]
            exact hdb
        | ok w =>
            obtain ⟨hadmits, b, henabled, rfl⟩ := watchCreate_admits hrun
            rw [step_of_run rfl hrun]
            refine hdb.apply henabled fun v hv => ?_
            obtain rfl := Option.some.inj hv
            exact hadmits
  · refine (op.commits crates db).invariant ?_ hdb
    intro k hwrites d hk hd
    refine hd.apply hk fun w hnew => ?_
    rw [hwrites.newWatch_none fun _ _ _ _ _ _ _ _ _ heq =>
      hcreate ⟨_, _, _, _, _, _, _, _, _, heq⟩] at hnew
    cases hnew

theorem Reachable.registry (h : Reachable crates db) : db.Registry := by
  refine LeadsBy.invariant (fun _ op hd _ => hd.step op) h ?_
  refine ⟨?_, ?_, ?_, ?_, ?_, ?_, Nat.zero_le _, fun _ => Nat.zero_le _⟩
  · exact fun w hw => absurd hw (Table.not_mem_empty w)
  · exact fun w hw => absurd hw (Table.not_mem_empty w)
  · exact fun b hb => absurd hb (Table.not_mem_empty b)
  · exact fun w hw => absurd hw (Table.not_mem_empty w)
  · exact fun b hb => absurd hb (Table.not_mem_empty b)
  · exact fun w hw => absurd hw (Table.not_mem_empty w)

/-- A watch that is removed is removed for good. -/
theorem Leads.watch_removed (h : Leads crates db t) {w : Watch} (hw : w ∈ db.managedWatches)
    (hgone : w.removed = true) : ∃ v ∈ t.managedWatches, v.id = w.id ∧ v.removed = true := by
  refine Leads.invariant (P := fun d => ∃ v ∈ d.managedWatches, v.id = w.id ∧ v.removed = true) h
    ?_ ⟨w, hw, rfl, hgone⟩
  intro k d hk hd
  obtain ⟨v, hv, hid, hgone⟩ := hd
  refine ⟨k.onWatch v, (Entry.mem_watches hk).mpr (Or.inl ⟨v, hv, rfl⟩),
    (k.onWatch_key v).1.trans hid, ?_⟩
  by_contra hlive
  have hvlive := Entry.onWatch_live hk hv (Bool.eq_false_of_not_eq_true hlive)
  exact Bool.false_ne_true (hvlive.symm.trans hgone)

/-- A successful action on a watch moves its epoch on. -/
theorem watchAction_row {thread name action : String} {now : Rat} {v : Watch}
    (h : (watchAction thread name action now).run db = (.ok v, t)) :
    ∃ w ∈ db.managedWatches, w.id = v.id ∧ w.removed = false ∧ w.thread = thread ∧
      w.name = name ∧ v ∈ t.managedWatches ∧ v.epoch = w.epoch + 1 := by
  simp only [watchAction, Tx.bind_ok, validateIdentifier_ok, Tx.expect_ok, withTx,
    Tx.atomically_ok, Tx.query_ok, Tx.write_ok] at h
  obtain ⟨_, _, ⟨_, rfl⟩, _, _, ⟨_, rfl⟩, a, _, ⟨_, rfl⟩, rows, _, ⟨rfl, rfl⟩,
    w, _, ⟨hw, rfl⟩, _, _, rfl, _, _, rfl, row, _, ⟨hrow, rfl⟩, hfound, rfl⟩ := h
  obtain ⟨hmem, hthread, hname, hlive⟩ := Table.mem_select.mp (List.mem_of_mem_head? hw)
  subst hfound
  obtain ⟨hv, hid⟩ := Table.find?_some hrow
  refine ⟨w, hmem, hid.symm, hlive, hthread, hname, hv, ?_⟩
  obtain ⟨u, hu, hset⟩ := List.mem_map.mp (show v ∈ db.managedWatches.rows.map _ from hv)
  split at hset
  · rename_i huid
    obtain rfl := Watch.eq_of_id hu hmem huid
    rw [← hset]
  · rename_i hother
    rw [hset] at hother
    exact absurd hid hother

/-- A successful action on a route moves the epochs of its watches on. -/
theorem routeAction_watches {name action : String} {now : Rat} {receipt : RouteReceipt}
    (h : (routeAction name action now).run db = (.ok receipt, t)) {w : Watch}
    (hw : w ∈ db.managedWatches) (hbinding : w.binding = name) (hlive : w.removed = false) :
    receipt.binding = name ∧ ∃ v ∈ t.managedWatches, v.id = w.id ∧ v.epoch = w.epoch + 1 := by
  simp only [routeAction, Tx.bind_ok, validateIdentifier_ok, Tx.expect_ok, withTx,
    Tx.atomically_ok, Tx.query_ok, bailIf_run_ok, Tx.write_ok, Tx.pure_ok] at h
  obtain ⟨_, _, ⟨_, rfl⟩, a, _, ⟨_, rfl⟩, row, _, ⟨_, rfl⟩, b, _, ⟨_, rfl⟩, _, _,
    ⟨_, rfl⟩, _, _, rfl, _, _, rfl, _, _, rfl, _, _, rfl, rfl, rfl⟩ := h
  refine ⟨rfl, { w with enabled := a = .resume, removed := a = .remove, epoch := w.epoch + 1 },
    ?_, rfl, rfl⟩
  have hset : { w with enabled := a = .resume, removed := a = .remove, epoch := w.epoch + 1 } ∈
      (db.setRouteWatches name (a = .resume) (a = .remove)).managedWatches :=
    List.mem_map.mpr ⟨w, hw, if_pos ⟨hbinding, hlive⟩⟩
  cases a with
  | pause => exact hset
  | resume => exact hset
  | remove => exact hset

end calls

/-! ## Runs -/

/-- No call after this takes a removal back or enables what is removed. -/
def Db.KeepsRemovals (crates : Crates) (db : Db) : Prop :=
  ∀ t, Leads crates db t →
    (∀ w ∈ db.managedWatches, w.removed = true →
      ∃ v ∈ t.managedWatches, v.id = w.id ∧ v.removed = true ∧ v.enabled = false) ∧
    ∀ b ∈ db.bindings, b.removed = true →
      ∃ c ∈ t.bindings, c.name = b.name ∧ c.removed = true ∧ c.enabled = false

/-- A lifecycle action that succeeds moves the epoch of its watch, or of its binding's watch. -/
def Db.MovesEpochs (db : Db) : Prop :=
  (∀ thread name action now v t, (watchAction thread name action now).run db = (.ok v, t) →
    ∃ w ∈ db.managedWatches, w.id = v.id ∧ w.removed = false ∧ w.thread = thread ∧
      w.name = name ∧ v ∈ t.managedWatches ∧ w.epoch < v.epoch) ∧
  ∀ name action now receipt t, (routeAction name action now).run db = (.ok receipt, t) →
    ∀ w ∈ db.managedWatches, w.binding = name → w.removed = false →
      ∃ v ∈ t.managedWatches, v.id = w.id ∧ w.epoch < v.epoch

/-- In every reachable store the registry is sound, removals are final, and lifecycle actions move
epochs. -/
theorem registry_kept {crates : Crates} {db : Db} (h : Reachable crates db) :
    db.Registry ∧ db.KeepsRemovals crates ∧ db.MovesEpochs := by
  refine ⟨h.registry, fun t ht => ⟨fun w hw hgone => ?_, fun b hb hgone => ?_⟩, ?_, ?_⟩
  · obtain ⟨v, hv, hid, hvgone⟩ := ht.watch_removed hw hgone
    exact ⟨v, hv, hid, hvgone, (Leads.reachable h ht).registry.watch_off v hv hvgone⟩
  · obtain ⟨c, hc, hname, hcgone⟩ := Leads.removed h.watchesRouted ht hb hgone
    exact ⟨c, hc, hname, hcgone, (Leads.reachable h ht).registry.binding_off c hc hcgone⟩
  · intro thread name action now v t hrun
    obtain ⟨w, hw, hid, hlive, hthread, hname, hv, hepoch⟩ := watchAction_row hrun
    refine ⟨w, hw, hid, hlive, hthread, hname, hv, ?_⟩
    omega
  · intro name action now receipt t hrun w hw hbinding hlive
    obtain ⟨_, v, hv, hid, hepoch⟩ := routeAction_watches hrun hw hbinding hlive
    refine ⟨v, hv, hid, ?_⟩
    omega

/-- A watch is paused by its name, resumed and removed by its binding, and made again. -/
def sampleLifecycleOps : List Op :=
  [.watchCreate "conversation-1" "build-log" "/var/log/build.log" (.finite 1) "shared-local"
      (.finite 0) none (sampleUuid 4) 10,
    .watchAction "conversation-1" "build-log" "pause" 11,
    .routeAction ("managed-" ++ (sampleUuid 4).text) "resume" 12,
    .routeAction ("managed-" ++ (sampleUuid 4).text) "remove" 13,
    .watchCreate "conversation-1" "build-log" "/var/log/build.log" (.finite 1) "shared-local"
      (.finite 0) none (sampleUuid 5) 14]

/-- The registry after the run, with both watches. -/
theorem registry_kept_sample :
    (Db.after sampleCrates sampleLifecycleOps).managedWatches.rows.map
        (fun w => (w.enabled, w.removed, w.epoch)) = [(false, true, 3), (true, false, 0)] ∧
      (Db.after sampleCrates sampleLifecycleOps).Registry :=
  ⟨by decide +kernel, (registry_kept (reachable_after sampleCrates sampleLifecycleOps)).1⟩

end CodexMonitor
