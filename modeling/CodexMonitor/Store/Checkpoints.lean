import CodexMonitor.Store.Commits.Calls
import CodexMonitor.Store.Effects

/-!
# Checkpoints of managed watches

Only `commitSample` writes a checkpoint.  It does so for the enabled watch of the
epoch it is given, together with the event of the sample; when it fails it leaves
everything as it was.  All other calls keep the checkpoint of every watch, and a watch
that is created has none.
-/

namespace CodexMonitor

open Transaction

section checkpoints

variable {crates : Crates} {db t : Db}

/-- What a successful intake body did to the events: the event was there, or it is new. -/
theorem ingestTx_events {binding : String} {envelope : Value} {uuid : Uuid} {now : Rat}
    {receipt : Receipt} (h : (ingestTx crates binding envelope uuid now).run db = (.ok receipt, t)) :
    t.managedWatches = db.managedWatches ∧
      ∃ e ∈ t.events, e.id = receipt.deliveryId ∧ e.binding = binding ∧
        envelope.getStr "id" = some e.eventId ∧ e.envelope = canonicalJson crates envelope ∧
        (e ∈ db.events ∨ t.events.rows = db.events.rows ++ [e]) := by
  simp only [ingestTx, Tx.bind_ok, Tx.query_ok, Tx.expect_ok, bailIf_run_ok] at h
  obtain ⟨⟨source, id, encoded⟩, _, hvalid, _, _, ⟨rfl, rfl⟩, b, _, ⟨hb, rfl⟩, _, _,
    ⟨_, rfl⟩, _, _, ⟨rfl, rfl⟩, h⟩ := h
  obtain ⟨rfl, _, hid, rfl, _, _⟩ := validateEnvelope_ok hvalid
  obtain ⟨_, hname⟩ := Table.find?_some hb
  split at h
  · rename_i e he
    simp only [Tx.bind_ok, bailIf_run_ok, Tx.pure_ok] at h
    obtain ⟨_, _, ⟨hsame, rfl⟩, rfl, rfl⟩ := h
    obtain ⟨he, hebinding, _, heid⟩ := Table.find?_some he
    exact ⟨rfl, e, he, rfl, hebinding, by rw [hid, heid], Decidable.of_not_not hsame, Or.inl he⟩
  · obtain ⟨_, _, _, hadmits, rfl, rfl⟩ := storeEvent_ok h
    have hrows := Table.rows_add hadmits
    refine ⟨rfl, _, ?_, rfl, hname, hid, rfl, Or.inr hrows⟩
    show _ ∈ (Table.add _ _).rows
    rw [hrows]
    exact List.mem_append_right _ List.mem_cons_self

/-- A sample that is committed moves the checkpoint of its watch, which is enabled and of its
epoch, and its event is stored. -/
theorem commitSample_ok {id : String} {epoch : Int} {checkpoint : Value} {event : Option Value}
    {uuid : Uuid} {now stamp : Rat} {receipt : Option Receipt}
    (h : (commitSample crates id epoch checkpoint event uuid now stamp).run db = (.ok receipt, t)) :
    ∃ w ∈ db.managedWatches, w.id = id ∧ w.epoch = epoch ∧ w.enabled = true ∧ w.removed = false ∧
      t.managedWatches =
        (db.setCheckpoint id epoch (canonicalJson crates checkpoint) stamp).managedWatches ∧
      ((event = none ∧ receipt = none) ∨ ∃ envelope r, event = some envelope ∧ receipt = some r ∧
        ∃ e ∈ t.events, e.id = r.deliveryId ∧ e.binding = w.binding ∧
          envelope.getStr "id" = some e.eventId ∧ e.envelope = canonicalJson crates envelope ∧
          (e ∈ db.events ∨ t.events.rows = db.events.rows ++ [e])) := by
  simp only [commitSample, Tx.bind_ok, validateIdentifier_ok, bailIf_run_ok, withTx,
    Tx.atomically_ok, Tx.query_ok, Tx.expect_ok, Tx.write_ok, Tx.pure_ok] at h
  obtain ⟨_, _, ⟨_, rfl⟩, _, _, ⟨_, rfl⟩, _, _, ⟨_, rfl⟩, _, _, ⟨rfl, rfl⟩, w, _, ⟨hw, rfl⟩,
    _, _, ⟨hepoch, rfl⟩, _, _, ⟨hopen, rfl⟩, _, u, hsample, _, _, rfl, rfl, rfl⟩ := h
  obtain ⟨hmem, hid⟩ := Table.find?_some hw
  have hon : w.enabled = true := Bool.eq_true_of_not_eq_false fun hoff => hopen (Or.inl hoff)
  have hkept : w.removed = false := Bool.eq_false_of_not_eq_true fun hgone => hopen (Or.inr hgone)
  refine ⟨w, hmem, hid, Decidable.of_not_not hepoch, hon, hkept, ?_⟩
  cases event with
  | none =>
      obtain ⟨rfl, rfl⟩ := Tx.pure_ok.mp hsample
      exact ⟨rfl, Or.inl ⟨rfl, rfl⟩⟩
  | some envelope =>
      simp only [ingestSample, Tx.bind_ok, Tx.pure_ok] at hsample
      obtain ⟨r, _, hingest, rfl, rfl⟩ := hsample
      obtain ⟨hwatches, hevent⟩ := ingestTx_events hingest
      refine ⟨?_, Or.inr ⟨envelope, r, rfl, rfl, hevent⟩⟩
      unfold Db.setCheckpoint
      simp only [hwatches]

/-- What a created watch is like. -/
theorem watchCreate_watches {thread name path endpoint : String} {interval debounce : F64}
    {condition : Option Value} {uuid : Uuid} {now : Rat} {w : Watch}
    (h : (watchCreate crates thread name path interval endpoint debounce condition uuid now).run db
      = (.ok w, t)) :
    w.checkpoint = none ∧ (∀ v ∈ db.managedWatches, v.id ≠ w.id) ∧
      t.managedWatches.rows = db.managedWatches.rows ++ [w] := by
  obtain ⟨_, _, _, _, _, hw, _, _, _, _, ⟨_, hwatch, _⟩, rfl⟩ := watchCreate_ok h
  refine ⟨by rw [hw], fun v hv => ?_, Table.rows_add hwatch⟩
  exact (hwatch v hv).1

/-- What a call that commits no sample leaves of the checkpoints. -/
def Checkpoints (db t : Db) : Prop :=
  ∀ row' ∈ t.managedWatches,
    (∃ row ∈ db.managedWatches, row.id = row'.id ∧ row'.checkpoint = row.checkpoint) ∨
      (row'.checkpoint = none ∧ ∀ row ∈ db.managedWatches, row.id ≠ row'.id)

/-- The entries of other calls neither register a watch nor move a checkpoint. -/
theorem Op.Writes.keeps_checkpoint {op : Op} {k : Entry} (h : op.Writes crates k)
    (hsample : ∀ id epoch checkpoint event uuid now stamp,
      op ≠ .commitSample id epoch checkpoint event uuid now stamp)
    (hcreate : ∀ thread name path interval endpoint debounce condition uuid now,
      op ≠ .watchCreate thread name path interval endpoint debounce condition uuid now) :
    k.newWatch? = none ∧ ∀ w, (k.onWatch w).id = w.id ∧ (k.onWatch w).checkpoint = w.checkpoint := by
  cases h with
  | createWatch => exact absurd rfl (hcreate _ _ _ _ _ _ _ _ _)
  | checkpoint => exact absurd rfl (hsample _ _ _ _ _ _ _)
  | sample => exact absurd rfl (hsample _ _ _ _ _ _ _)
  | route =>
      refine ⟨rfl, fun w => ?_⟩
      simp only [Entry.onWatch]
      split <;> exact ⟨rfl, rfl⟩
  | watch =>
      refine ⟨rfl, fun w => ?_⟩
      simp only [Entry.onWatch]
      split <;> exact ⟨rfl, rfl⟩
  | _ => exact ⟨rfl, fun _ => ⟨rfl, rfl⟩⟩

theorem Checkpoints.refl (db : Db) : Checkpoints db db :=
  fun row hrow => Or.inl ⟨row, hrow, rfl, rfl⟩

/-- A call that commits no sample keeps every checkpoint. -/
theorem Op.step_checkpoints {op : Op} (hsample : ∀ id epoch checkpoint event uuid now stamp,
    op ≠ .commitSample id epoch checkpoint event uuid now stamp) :
    Checkpoints db (op.step crates db) := by
  by_cases hcreate : ∃ thread name path interval endpoint debounce condition uuid now,
      op = .watchCreate thread name path interval endpoint debounce condition uuid now
  · obtain ⟨thread, name, path, interval, endpoint, debounce, condition, uuid, now, rfl⟩ := hcreate
    cases hrun : (CodexMonitor.watchCreate crates thread name path interval endpoint debounce condition uuid
        now).run db with
    | mk result u =>
        cases result with
        | error e =>
            rw [step_of_fail rfl hrun]
            exact .refl db
        | ok w =>
            obtain ⟨hnone, hnew, hrows⟩ := watchCreate_watches hrun
            rw [step_of_run rfl hrun]
            intro row' hrow'
            rw [Table.mem_def, hrows] at hrow'
            rcases List.mem_append.mp hrow' with hold | hlast
            · exact Or.inl ⟨row', hold, rfl, rfl⟩
            · rw [List.mem_singleton.mp hlast]
              exact Or.inr ⟨hnone, hnew⟩
  · have hother : ∀ thread name path interval endpoint debounce condition uuid now,
        op ≠ .watchCreate thread name path interval endpoint debounce condition uuid now :=
      fun _ _ _ _ _ _ _ _ _ heq => hcreate ⟨_, _, _, _, _, _, _, _, _, heq⟩
    refine (op.commits crates db).invariant (P := fun d => Checkpoints db d) ?_ (.refl db)
    intro k hwrites d hk hd row' hrow'
    obtain ⟨hnone, hkeeps⟩ := hwrites.keeps_checkpoint hsample hother
    rcases (Entry.mem_watches hk).mp hrow' with ⟨v, hv, rfl⟩ | hnew
    · obtain ⟨hid, hcheckpoint⟩ := hkeeps v
      rw [hid, hcheckpoint]
      exact hd v hv
    · rw [hnone] at hnew
      cases hnew

/-- A stored event keeps its id and its text. -/
theorem Commits.event_kept {W : Entry → Prop} (h : Commits crates W db t) {e : Event}
    (he : e ∈ db.events) : ∃ f ∈ t.events, f.id = e.id ∧ f.envelope = e.envelope := by
  refine h.invariant (P := fun d => ∃ f ∈ d.events, f.id = e.id ∧ f.envelope = e.envelope) ?_
    ⟨e, he, rfl, rfl⟩
  rintro k _ d hk ⟨f, hf, hid, henvelope⟩
  have hkey := Event.key_eq (k.onEvent_key f)
  exact ⟨k.onEvent f, (Entry.mem_events hk).mpr (Or.inl ⟨f, hf, rfl⟩), hkey.2.1.trans hid,
    hkey.2.2.2.2.2.2.1.trans henvelope⟩

end checkpoints

end CodexMonitor
