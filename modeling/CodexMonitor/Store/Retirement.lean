import CodexMonitor.Store.Commits.Calls
import CodexMonitor.Store.Effects

/-!
# A removed binding stays removed

A route rejects every action but removal once it is removed.  A managed watch has no
such check of its binding: what protects it is that removing the route of a watch
removes the watch, and that an action on a watch looks among the watches that are not
removed.
-/

namespace CodexMonitor

open Transaction

/-- The binding of a watch that is not removed is not removed either. -/
def Db.WatchesRouted (db : Db) : Prop :=
  ∀ w ∈ db.managedWatches, w.removed = false → ∀ b ∈ db.bindings, b.name = w.binding →
    b.removed = false

section step

variable {crates : Crates} {db : Db} {k : Entry}

theorem Entry.newBinding_kept (h : k.Enabled crates db) {b : Binding}
    (hnew : k.newBinding? = some b) : b.removed = false := by
  cases k with
  | bind c =>
      cases hnew
      exact h.2.2.1
  | createWatch c w =>
      cases hnew
      exact h.2.2.2.2.2.2.1
  | _ => cases hnew

/-- What an entry does to the removal flags of a watch and of its binding. -/
theorem Db.WatchesRouted.old (hdb : db.WatchesRouted) (h : k.Enabled crates db) {w : Watch}
    (hw : w ∈ db.managedWatches) (hkept : (k.onWatch w).removed = false) {b : Binding}
    (hb : b ∈ db.bindings) (hname : b.name = w.binding) : (k.onBinding b).removed = false := by
  cases k with
  | route name action now =>
      simp only [Entry.onWatch] at hkept
      simp only [Entry.onBinding]
      by_cases hown : b.name = name
      · rw [if_pos hown]
        split at hkept
        · exact hkept
        · rename_i hother
          exact absurd ⟨hname.symm.trans hown, hkept⟩ hother
      · rw [if_neg fun hmatch => hown (hname.trans hmatch.1)] at hkept
        rw [if_neg hown]
        exact hdb w hw hkept b hb hname
  | watch v action now =>
      simp only [Entry.onWatch] at hkept
      simp only [Entry.onBinding]
      by_cases hown : b.name = v.binding
      · obtain rfl := Watch.eq_of_binding hw h.1 (hname.symm.trans hown)
        rw [if_pos rfl] at hkept
        rw [if_pos hown]
        exact hkept
      · have hother : w.id ≠ v.id := by
          intro hid
          obtain rfl := Watch.eq_of_id hw h.1 hid
          exact hown hname
        rw [if_neg hother] at hkept
        rw [if_neg hown]
        exact hdb w hw hkept b hb hname
  | checkpoint v text now =>
      have hsame : ((Entry.checkpoint v text now).onWatch w).removed = w.removed := by
        simp only [Entry.onWatch]
        split <;> rfl
      rw [hsame] at hkept
      exact hdb w hw hkept b hb hname
  | _ => exact hdb w hw hkept b hb hname

theorem Entry.onWatch_binding (k : Entry) (w : Watch) : (k.onWatch w).binding = w.binding := by
  cases k with
  | route | watch | checkpoint =>
      simp only [Entry.onWatch]
      split <;> rfl
  | _ => rfl

theorem Db.WatchesRouted.apply (hdb : db.WatchesRouted) (h : k.Enabled crates db) :
    (k.apply crates db).WatchesRouted := by
  intro w hw hkept b hb hname
  rcases (Entry.mem_bindings h).mp hb with ⟨c, hc, rfl⟩ | hnew
  · have hcname := (k.onBinding_key c).1
    rcases (Entry.mem_watches h).mp hw with ⟨v, hv, rfl⟩ | hnew
    · rw [hcname, k.onWatch_binding v] at hname
      exact hdb.old h hv hkept hc hname
    · -- a new watch has a new binding
      cases k with
      | createWatch b w =>
          cases hnew
          exact absurd (hname.trans h.2.2.1.symm) (h.1 c hc)
      | _ => cases hnew
  · exact Entry.newBinding_kept h hnew

theorem Reachable.watchesRouted (h : Reachable crates db) : db.WatchesRouted :=
  Leads.invariant h (fun _ _ hk hd => Db.WatchesRouted.apply hd hk)
    fun w hw => absurd hw (Table.not_mem_empty w)

/-- No entry takes a removal back. -/
theorem Db.WatchesRouted.removed_kept (hdb : db.WatchesRouted) (h : k.Enabled crates db)
    {b : Binding} (hb : b ∈ db.bindings) (hremoved : b.removed = true) :
    (k.onBinding b).removed = true := by
  cases k with
  | route name action now =>
      simp only [Entry.onBinding]
      split
      · rename_i hname
        obtain ⟨c, hc, hcname, haction⟩ := h
        obtain rfl := Binding.eq_of_name hb hc (hname.trans hcname.symm)
        exact decide_eq_true (haction hremoved)
      · exact hremoved
  | watch w action now =>
      simp only [Entry.onBinding]
      split
      · rename_i hname
        rw [hdb w h.1 h.2 b hb hname] at hremoved
        cases hremoved
      · exact hremoved
  | _ => exact hremoved

/-- A binding that is removed is removed for good. -/
theorem Leads.removed {db' : Db} (hdb : db.WatchesRouted) (h : Leads crates db db') {b : Binding}
    (hb : b ∈ db.bindings) (hremoved : b.removed = true) :
    ∃ c ∈ db'.bindings, c.name = b.name ∧ c.removed = true := by
  have hrun := Leads.invariant (P := fun d => d.WatchesRouted ∧
    ∃ c ∈ d.bindings, c.name = b.name ∧ c.removed = true) h ?_ ⟨hdb, b, hb, rfl, hremoved⟩
  · exact hrun.2
  · rintro k d hk ⟨hd, c, hc, hname, hgone⟩
    exact ⟨hd.apply hk, k.onBinding c, (Entry.mem_bindings hk).mpr (Or.inl ⟨c, hc, rfl⟩),
      (k.onBinding_key c).1.trans hname, hd.removed_kept hk hc hgone⟩

end step

end CodexMonitor
