import CodexMonitor.Collector.Host
import CodexMonitor.Store.Commits.Calls
import CodexMonitor.Store.Effects

/-!
# Versions of a watch

A watch keeps its path, its interval, its debounce and its condition for ever, and a
change of its flags moves its lifecycle epoch on.  So of two versions of a watch that
the collector has loaded one precedes the other, and versions of one epoch are the
same.
-/

namespace CodexMonitor

open Transaction

/-- The row `w` may become the row `v`. -/
structure Watch.Becomes (w v : Watch) : Prop where
  id_eq : v.id = w.id
  binding_eq : v.binding = w.binding
  name_eq : v.name = w.name
  path_eq : v.path = w.path
  interval_eq : v.interval = w.interval
  debounce_eq : v.debounce = w.debounce
  condition_eq : v.condition = w.condition
  epoch_le : w.epoch ≤ v.epoch
  flags_eq : v.epoch = w.epoch → v.enabled = w.enabled ∧ v.removed = w.removed
  kept : w.checkpoint ≠ none → v.checkpoint ≠ none

namespace Watch.Becomes

theorem refl (w : Watch) : w.Becomes w :=
  ⟨rfl, rfl, rfl, rfl, rfl, rfl, rfl, le_refl _, fun _ => ⟨rfl, rfl⟩, fun h => h⟩

theorem trans {w v u : Watch} (h : w.Becomes v) (h' : v.Becomes u) : w.Becomes u where
  id_eq := h'.id_eq.trans h.id_eq
  binding_eq := h'.binding_eq.trans h.binding_eq
  name_eq := h'.name_eq.trans h.name_eq
  path_eq := h'.path_eq.trans h.path_eq
  interval_eq := h'.interval_eq.trans h.interval_eq
  debounce_eq := h'.debounce_eq.trans h.debounce_eq
  condition_eq := h'.condition_eq.trans h.condition_eq
  epoch_le := h.epoch_le.trans h'.epoch_le
  flags_eq := by
    intro heq
    have hlow := h.epoch_le
    have hhigh := h'.epoch_le
    obtain ⟨henabled, hremoved⟩ := h.flags_eq (by omega)
    obtain ⟨henabled', hremoved'⟩ := h'.flags_eq (by omega)
    exact ⟨henabled'.trans henabled, hremoved'.trans hremoved⟩
  kept hw := h'.kept (h.kept hw)

end Watch.Becomes

/-- What an entry makes of a watch is a later version of it. -/
theorem Entry.onWatch_becomes (k : Entry) (w : Watch) : w.Becomes (k.onWatch w) := by
  have hmoved : ∀ v : Watch, v.epoch = w.epoch + 1 → v.id = w.id → v.binding = w.binding →
      v.name = w.name → v.path = w.path → v.interval = w.interval → v.debounce = w.debounce →
      v.condition = w.condition → v.checkpoint = w.checkpoint → w.Becomes v := by
    intro v hepoch hid hbinding hname hpath hinterval hdebounce hcondition hcheckpoint
    refine ⟨hid, hbinding, hname, hpath, hinterval, hdebounce, hcondition, ?_, ?_, ?_⟩
    · omega
    · intro heq
      omega
    · rw [hcheckpoint]
      exact fun h => h
  cases k with
  | route name action now =>
      simp only [Entry.onWatch]
      split
      · exact hmoved _ rfl rfl rfl rfl rfl rfl rfl rfl rfl
      · exact .refl w
  | watch v action now =>
      simp only [Entry.onWatch]
      split
      · exact hmoved _ rfl rfl rfl rfl rfl rfl rfl rfl rfl
      · exact .refl w
  | checkpoint v text now =>
      simp only [Entry.onWatch]
      split
      · exact ⟨rfl, rfl, rfl, rfl, rfl, rfl, rfl, le_refl _, fun _ => ⟨rfl, rfl⟩, fun _ => nofun⟩
      · exact .refl w
  | _ => exact .refl w

section step

variable {crates : Crates} {db t : Db} {w : Watch}

/-- A stored watch is there for ever, in a later version. -/
theorem Commits.watch {W : Entry → Prop} (h : Commits crates W db t)
    (hw : w ∈ db.managedWatches) : ∃ v ∈ t.managedWatches, w.Becomes v := by
  refine h.invariant (P := fun d => ∃ v ∈ d.managedWatches, w.Becomes v) ?_ ⟨w, hw, .refl w⟩
  rintro k _ d hk ⟨v, hv, hbecomes⟩
  exact ⟨k.onWatch v, (Entry.mem_watches hk).mpr (Or.inl ⟨v, hv, rfl⟩),
    hbecomes.trans (k.onWatch_becomes v)⟩

theorem Op.step_watch (op : Op) (hw : w ∈ db.managedWatches) :
    ∃ v ∈ (op.step crates db).managedWatches, w.Becomes v :=
  Commits.watch (op.commits crates db) hw

end step

namespace Collector

/-! ## What the collector loads -/

/-- The version `w` of a watch precedes the version `v`, or is it. -/
structure Watch.Precedes (w v : Watch) : Prop where
  id_eq : v.id = w.id
  name_eq : v.name = w.name
  path_eq : v.path = w.path
  interval_eq : v.interval = w.interval
  debounce_eq : v.debounce = w.debounce
  condition_eq : v.condition = w.condition
  epoch_le : w.epoch ≤ v.epoch
  eq_of_epoch : v.epoch = w.epoch → v = w

namespace Watch.Precedes

theorem refl (w : Watch) : w.Precedes w :=
  ⟨rfl, rfl, rfl, rfl, rfl, rfl, le_refl _, fun _ => rfl⟩

theorem trans {w v u : Watch} (h : w.Precedes v) (h' : v.Precedes u) : w.Precedes u where
  id_eq := h'.id_eq.trans h.id_eq
  name_eq := h'.name_eq.trans h.name_eq
  path_eq := h'.path_eq.trans h.path_eq
  interval_eq := h'.interval_eq.trans h.interval_eq
  debounce_eq := h'.debounce_eq.trans h.debounce_eq
  condition_eq := h'.condition_eq.trans h.condition_eq
  epoch_le := h.epoch_le.trans h'.epoch_le
  eq_of_epoch := by
    intro heq
    have hlow := h.epoch_le
    have hhigh := h'.epoch_le
    rw [h'.eq_of_epoch (by omega), h.eq_of_epoch (by omega)]

theorem location_eq {w v : Watch} (h : w.Precedes v) : v.location = w.location := by
  unfold Watch.location
  rw [h.path_eq]

theorem parent_eq {w v : Watch} (h : w.Precedes v) : v.parent = w.parent := by
  unfold Watch.parent
  rw [h.location_eq]

end Watch.Precedes

section listed

variable {crates : Crates} {row row' : CodexMonitor.Watch} {w v : Watch}

/-- The watch of a usable row, column by column. -/
theorem watchFromValue_some (h : watchFromValue crates row = some w) :
    w = { id := row.id, name := row.name, path := row.path,
          interval := max row.interval minInterval, debounce := min row.debounce 86400,
          condition := conditionOf crates row.condition, enabled := row.enabled,
          removed := row.removed, epoch := row.epoch } := by
  unfold watchFromValue at h
  simp only at h
  split at h
  · cases h
  · exact (Option.some.inj h).symm

/-- Later versions of a usable row are usable. -/
theorem watchFromValue_becomes (h : row.Becomes row') (hw : watchFromValue crates row = some w) :
    ∃ v, watchFromValue crates row' = some v ∧ w.Precedes v := by
  have hsome := watchFromValue_some hw
  have husable : ∃ v, watchFromValue crates row' = some v := by
    unfold watchFromValue at hw ⊢
    simp only [h.condition_eq, h.interval_eq, h.debounce_eq] at hw ⊢
    split at hw
    · cases hw
    · rename_i husable
      exact ⟨_, if_neg husable⟩
  obtain ⟨v, hv⟩ := husable
  have hsome' := watchFromValue_some hv
  refine ⟨v, hv, ?_⟩
  subst hsome
  subst hsome'
  refine ⟨h.id_eq, h.name_eq, h.path_eq, ?_, ?_, ?_, h.epoch_le, fun heq => ?_⟩
  · simp only [h.interval_eq]
  · simp only [h.debounce_eq]
  · simp only [h.condition_eq]
  · obtain ⟨henabled, hremoved⟩ := h.flags_eq heq
    simp only at heq
    simp only [h.id_eq, h.name_eq, h.path_eq, h.interval_eq, h.debounce_eq, h.condition_eq,
      henabled, hremoved, heq]

/-- The store has the version `w`, or a later one. -/
def Lists (crates : Crates) (db : Db) (w : Watch) : Prop :=
  ∃ row ∈ db.managedWatches, ∃ v, watchFromValue crates row = some v ∧ w.Precedes v

theorem Lists.mono {db t : Db}
    (hkept : ∀ row ∈ db.managedWatches, ∃ row' ∈ t.managedWatches, row.Becomes row')
    (h : Lists crates db w) : Lists crates t w := by
  obtain ⟨row, hrow, v, hv, hprecedes⟩ := h
  obtain ⟨row', hrow', hbecomes⟩ := hkept row hrow
  obtain ⟨u, hu, hlater⟩ := watchFromValue_becomes hbecomes hv
  exact ⟨row', hrow', u, hu, hprecedes.trans hlater⟩

/-- The row of a listed watch. -/
theorem Lists.latest {db : Db} (h : Lists crates db w) (hrow : row ∈ db.managedWatches)
    (hid : row.id = w.id) : ∃ v, watchFromValue crates row = some v ∧ w.Precedes v := by
  obtain ⟨row', hrow', v, hv, hprecedes⟩ := h
  have hid' : row'.id = v.id := by rw [watchFromValue_some hv]
  have heq : row = row' :=
    CodexMonitor.Watch.eq_of_id hrow hrow' (by rw [hid, hid', hprecedes.id_eq])
  exact ⟨v, heq ▸ hv, hprecedes⟩

/-- A watch that is loaded is the latest version of itself. -/
theorem loaded_spec {db t : Db} {rows : List CodexMonitor.Watch}
    (hrows : (watches crates).run db = (.ok rows, t))
    (hw : w ∈ rows.filterMap (watchFromValue crates)) :
    t = db ∧ Lists crates db w ∧ ∀ v, Lists crates db v → v.id = w.id → v.Precedes w := by
  simp only [watches, Tx.bind_ok, Tx.query_ok, Tx.bailIf_ok, Tx.pure_ok] at hrows
  obtain ⟨_, _, ⟨rfl, rfl⟩, _, _, ⟨_, rfl⟩, rfl, rfl⟩ := hrows
  obtain ⟨row, hrow, hsome⟩ := List.mem_filterMap.mp hw
  obtain ⟨hrow, _⟩ := Table.mem_select.mp hrow
  refine ⟨rfl, ⟨row, hrow, w, hsome, .refl w⟩, fun v hv hid => ?_⟩
  have hrowid : row.id = w.id := by rw [watchFromValue_some hsome]
  obtain ⟨u, hu, hprecedes⟩ := hv.latest hrow (hrowid.trans hid.symm)
  rw [hsome] at hu
  rw [Option.some.inj hu]
  exact hprecedes

/-- The watches that are loaded differ. -/
theorem loaded_distinct {db t : Db} {rows : List CodexMonitor.Watch}
    (hrows : (watches crates).run db = (.ok rows, t)) :
    ((rows.filterMap (watchFromValue crates)).map Watch.id).Nodup := by
  simp only [watches, Tx.bind_ok, Tx.query_ok, Tx.bailIf_ok, Tx.pure_ok] at hrows
  obtain ⟨_, _, ⟨rfl, rfl⟩, _, _, ⟨_, rfl⟩, rfl, rfl⟩ := hrows
  have hfits : db.managedWatches.rows.Pairwise fun a b => a.id ≠ b.id :=
    db.managedWatches.fits.imp And.left
  refine List.pairwise_map.mpr (List.Pairwise.filterMap _ ?_ (Table.select_pairwise Ne.symm hfits))
  intro a b hne w hw v hv heq
  rw [watchFromValue_some hw, watchFromValue_some hv] at heq
  exact hne heq

end listed

end Collector

end CodexMonitor
