import CodexMonitor.Store.Fifo
import CodexMonitor.Store.Retirement
import CodexMonitor.Store.Transfer

/-!
# The outbox is transferred in order and once

The transfer loop guards only against earlier notifications that are pending.  That is
enough: a notification that is not pending never becomes pending again, so once one of
a request has its event, every earlier one is settled and none can get an event later.
All this assumes that event ids of notifications are left to the store.
-/

namespace CodexMonitor

open Transaction

/-- The event id of a notification: `request-<request_id>-<revision>`. -/
def IsNoticeId (id : String) : Prop :=
  ∃ (request : Uuid) (revision : Int), id = requestEventId request.text revision

/-- The call takes in no envelope under the event id of a notification. -/
def Op.LeavesNoticeIds : Op → Prop
  | .ingest _ envelope _ _ => ∀ id ∈ envelope.getStr "id", ¬ IsNoticeId id
  | .commitSample _ _ _ (some envelope) _ _ _ => ∀ id ∈ envelope.getStr "id", ¬ IsNoticeId id
  | _ => True

/-- The entry stores no event of its own under the event id of a notification. -/
def Entry.LeavesNoticeIds : Entry → Prop
  | .store e => ¬ IsNoticeId e.eventId
  | _ => True

/-- What the transfer loop keeps of the outbox. -/
structure Db.Outboxed (db : Db) : Prop where
  /-- an event under a notification's id belongs to the notification -/
  owned : ∀ e ∈ db.events, IsNoticeId e.eventId →
    ∃ n ∈ db.requestNotifications, n.eventId = e.eventId ∧ n.deliveryId = some e.id
  /-- the notifications before a linked one are settled -/
  settled : ∀ n ∈ db.requestNotifications, ∀ d, n.deliveryId = some d →
    ∀ m ∈ db.requestNotifications, m.requestId = n.requestId → m.revision < n.revision →
      m.state ≠ .pending
  /-- events of a request were stored in revision order -/
  ordered : ∀ m ∈ db.requestNotifications, ∀ n ∈ db.requestNotifications,
    m.requestId = n.requestId → m.revision < n.revision → ∀ e ∈ db.events, ∀ f ∈ db.events,
      m.deliveryId = some e.id → n.deliveryId = some f.id → e.seq < f.seq
  /-- a failed notification has a dead event or a removed route -/
  failed : ∀ n ∈ db.requestNotifications, n.state = .failed →
    (∃ b ∈ db.bindings, b.name = n.originalBinding ∧ b.removed = true) ∨
      ∃ e ∈ db.events, n.deliveryId = some e.id ∧ e.state = .dead

section step

variable {crates : Crates} {db : Db} {k : Entry}

theorem RequestNotification.Of.isNoticeId {n : RequestNotification} {r : Request}
    (hdb : db.Lineage crates) (hr : r ∈ db.requests) (h : n.Of crates r) : IsNoticeId n.eventId := by
  obtain ⟨u, hu⟩ := hdb.request_named r hr
  refine ⟨u, n.revision, ?_⟩
  rw [h.eventId_eq, hu]

theorem Db.Lineage.isNoticeId (hdb : db.Lineage crates) {n : RequestNotification}
    (hn : n ∈ db.requestNotifications) : IsNoticeId n.eventId := by
  obtain ⟨r, hr, hof⟩ := hdb.notice_of n hn
  exact hof.isNoticeId hdb hr

/-- A notification that is pending after an entry was pending before, or is new. -/
theorem Entry.onNotice_pending (h : k.Enabled crates db) {n : RequestNotification}
    (hn : n ∈ db.requestNotifications) (hpending : (k.onNotice db n).state = .pending) :
    n.state = .pending := by
  cases Entry.notice_move h hn with
  | stay hstate => exact hstate.symm.trans hpending
  | abandon hp | expire hp | accept hp | die hp | fail hp | link hp | deliver hp => exact hp

/-- A link to an event that is already there is never made: the event would belong to another
notification. -/
theorem Db.Outboxed.not_link (hdb : db.Outboxed) (hlineage : db.Lineage crates)
    {n : RequestNotification} {e : Event} {now : Rat} :
    ¬ (Entry.link n e now).Enabled crates db := by
  rintro ⟨hready, _, he, _, _, heventId⟩
  obtain ⟨m, hm, hmid, hlink⟩ := hdb.owned e he (heventId ▸ hlineage.isNoticeId hready.mem)
  obtain rfl := hlineage.notice_unique hm hready.mem (hmid.trans heventId)
  rw [hready.unlinked] at hlink
  cases hlink

/-- The route of a notification that can never be delivered is removed. -/
theorem Db.Lineage.removed_of_undeliverable (hdb : db.Lineage crates) {n : RequestNotification}
    (hn : n ∈ db.requestNotifications) (h : db.Undeliverable n) :
    ∃ b ∈ db.bindings, b.name = n.originalBinding ∧ b.removed = true := by
  obtain ⟨r, hr, hof⟩ := hdb.notice_of n hn
  obtain ⟨b, hb, hname, hthread, hsource⟩ := hdb.request_routed r hr
  have hown : b.name = n.originalBinding := hname.trans hof.binding_eq.symm
  rcases h with hnone | ⟨c, hc, hcname, hwhy⟩
  · exact absurd hown (hnone b hb)
  · obtain rfl := Binding.eq_of_name hb hc (hown.trans hcname.symm)
    rcases hwhy with hremoved | hmissing | ⟨q, hq, hqid, hmoved⟩
    · exact ⟨b, hb, hown, hremoved⟩
    · rw [hof.source_eq] at hmissing
      exact absurd hsource hmissing
    · obtain rfl := Request.eq_of_id hq hr (hqid.trans hof.requestId_eq)
      exact absurd hthread.symm hmoved

/-- A linked notification keeps its event. -/
theorem Entry.deliveryId_kept (h : k.Enabled crates db) {n : RequestNotification}
    (hn : n ∈ db.requestNotifications) {d : String} (hlink : n.deliveryId = some d) :
    (k.onNotice db n).deliveryId = some d := by
  rcases Entry.deliveryId_cases h hn with hsame | ⟨hnone, _⟩
  · rw [hsame, hlink]
  · rw [hlink] at hnone
    cases hnone

/-- The event of a notification that was linked before an entry was there before it. -/
theorem Db.Lineage.linked_before (hdb : db.Lineage crates) (h : k.Enabled crates db)
    {n : RequestNotification} (hn : n ∈ db.requestNotifications) {e : Event}
    (he : e ∈ (k.apply crates db).events) (hlink : n.deliveryId = some e.id) :
    ∃ f ∈ db.events, f.id = e.id ∧ f.seq = e.seq := by
  rcases (Entry.mem_events h).mp he with ⟨f, hf, rfl⟩ | hnew
  · have hkey := Event.key_eq (k.onEvent_key f)
    exact ⟨f, hf, hkey.2.1.symm, hkey.1.symm⟩
  · obtain ⟨f, hf, hid, _⟩ := hdb.linked n hn _ hlink
    exact absurd hid ((Entry.fresh_of_new h hnew).1 f hf).2.1

/-- The event that a delivery stores comes after all others. -/
theorem Entry.delivered_last {n : RequestNotification} {e f : Event} {now : Rat}
    (h : (Entry.deliver n e now).Enabled crates db)
    (hf : f ∈ ((Entry.deliver n e now).apply crates db).events) (hid : f.id = e.id) :
    ∀ g ∈ db.events, g.seq < f.seq := by
  intro g hg
  rcases (Entry.mem_events h).mp hf with ⟨f, hold, rfl⟩ | hnew
  · exact absurd hid (h.2.2.1.1 f hold).2.1
  · obtain rfl := Option.some.inj hnew
    exact (h.2.2.1.1 g hg).1

/-- A new notification comes after the others of its request. -/
theorem Db.Lineage.new_notice_last (hdb : db.Lineage crates) (h : k.Enabled crates db)
    {m n : RequestNotification} (hnew : k.newNotice? crates = some m)
    (hn : n ∈ db.requestNotifications) (hrequest : m.requestId = n.requestId) :
    n.revision < m.revision := by
  obtain ⟨r, updateId, state, detail, now, rfl, _, rfl⟩ := Entry.transition_of_notice hnew
  have hle := (hdb.request_of_notice hn h.1 hrequest.symm).revision_le
  show n.revision < r.revision + 1
  omega

theorem Db.Outboxed.apply_owned (hdb : db.Outboxed) (h : k.Enabled crates db)
    (hok : k.LeavesNoticeIds) : ∀ e ∈ (k.apply crates db).events, IsNoticeId e.eventId →
      ∃ n ∈ (k.apply crates db).requestNotifications,
        n.eventId = e.eventId ∧ n.deliveryId = some e.id := by
  intro e he hform
  have hafter : ∀ n ∈ db.requestNotifications,
      k.onNotice db n ∈ (k.apply crates db).requestNotifications ∧
        (k.onNotice db n).eventId = n.eventId := fun n hn =>
    ⟨(Entry.mem_notices h).mpr (Or.inl ⟨n, hn, rfl⟩),
      (RequestNotification.key_eq (k.onNotice_key db n)).2.2.2.2.2.2.1⟩
  rcases (Entry.mem_events h).mp he with ⟨f, hf, rfl⟩ | hnew
  · have hkey := Event.key_eq (k.onEvent_key f)
    rw [hkey.2.2.2.2.2.1] at hform
    obtain ⟨n, hn, hid, hlink⟩ := hdb.owned f hf hform
    refine ⟨_, (hafter n hn).1, ?_, ?_⟩
    · rw [(hafter n hn).2, hid, hkey.2.2.2.2.2.1]
    · rw [Entry.deliveryId_kept h hn hlink, hkey.2.1]
  · cases k with
    | store f =>
        cases hnew
        exact absurd hform hok
    | deliver n f now =>
        cases hnew
        refine ⟨_, (hafter n h.1.mem).1, (hafter n h.1.mem).2.trans h.2.2.2.2.2.1.symm, ?_⟩
        simp [Entry.onNotice, h.1.pending]
    | _ => cases hnew

theorem Db.Outboxed.apply_settled (hdb : db.Outboxed) (hlineage : db.Lineage crates)
    (h : k.Enabled crates db) : ∀ n ∈ (k.apply crates db).requestNotifications, ∀ d,
      n.deliveryId = some d → ∀ m ∈ (k.apply crates db).requestNotifications,
        m.requestId = n.requestId → m.revision < n.revision → m.state ≠ .pending := by
  intro n hn d hlink m hm hrequest hrevision hpending
  rcases (Entry.mem_notices h).mp hn with ⟨q, hq, rfl⟩ | hnew
  · have hqkey := RequestNotification.key_eq (k.onNotice_key db q)
    rw [hqkey.2.1] at hrequest
    rw [hqkey.2.2.2.1] at hrevision
    rcases (Entry.mem_notices h).mp hm with ⟨p, hp, rfl⟩ | hnewm
    · have hpkey := RequestNotification.key_eq (k.onNotice_key db p)
      rw [hpkey.2.1] at hrequest
      rw [hpkey.2.2.2.1] at hrevision
      have hbefore := Entry.onNotice_pending h hp hpending
      rcases Entry.deliveryId_cases h hq with hsame | ⟨_, _, ⟨e, now, rfl, _⟩ | ⟨e, now, rfl, _⟩⟩
      · exact hdb.settled q hq d (hsame.symm.trans hlink) p hp hrequest hrevision hbefore
      · exact hdb.not_link hlineage h
      · exact h.1.first ⟨p, hp, hrequest, hrevision, hbefore⟩
    · have hlast := hlineage.new_notice_last h hnewm hq hrequest
      omega
  · obtain ⟨r, updateId, state, detail, now, rfl, _, rfl⟩ := Entry.transition_of_notice hnew
    cases hlink

theorem Db.Outboxed.apply_ordered (hdb : db.Outboxed) (hlineage : db.Lineage crates)
    (h : k.Enabled crates db) : ∀ m ∈ (k.apply crates db).requestNotifications,
      ∀ n ∈ (k.apply crates db).requestNotifications, m.requestId = n.requestId →
      m.revision < n.revision → ∀ e ∈ (k.apply crates db).events,
      ∀ f ∈ (k.apply crates db).events, m.deliveryId = some e.id → n.deliveryId = some f.id →
        e.seq < f.seq := by
  intro m hm n hn hrequest hrevision e he f hf hme hnf
  have hold : ∀ l ∈ (k.apply crates db).requestNotifications, ∀ d, l.deliveryId = some d →
      ∃ p ∈ db.requestNotifications, k.onNotice db p = l := by
    intro l hl d hlink
    rcases (Entry.mem_notices h).mp hl with hold | hnew
    · exact hold
    · obtain ⟨r, updateId, state, detail, now, rfl, _, rfl⟩ := Entry.transition_of_notice hnew
      cases hlink
  obtain ⟨p, hp, rfl⟩ := hold m hm _ hme
  obtain ⟨q, hq, rfl⟩ := hold n hn _ hnf
  have hpkey := RequestNotification.key_eq (k.onNotice_key db p)
  have hqkey := RequestNotification.key_eq (k.onNotice_key db q)
  rw [hpkey.2.1, hqkey.2.1] at hrequest
  rw [hpkey.2.2.2.1, hqkey.2.2.2.1] at hrevision
  rcases Entry.deliveryId_cases h hp with hsame | ⟨_, hpending, ⟨g, now, rfl, _⟩ | ⟨g, now, rfl, _⟩⟩
  · obtain ⟨e', he', hid, hseq⟩ := hlineage.linked_before h hp he (hsame.symm.trans hme)
    rcases Entry.deliveryId_cases h hq with hsame' | ⟨_, _, ⟨g, now, rfl, _⟩ |
      ⟨g, now, rfl, hlink⟩⟩
    · obtain ⟨f', hf', hid', hseq'⟩ := hlineage.linked_before h hq hf (hsame'.symm.trans hnf)
      rw [← hseq, ← hseq']
      refine hdb.ordered p hp q hq hrequest hrevision e' he' f' hf' ?_ ?_
      · rw [hid, ← hme, hsame]
      · rw [hid', ← hnf, hsame']
    · exact absurd h (hdb.not_link hlineage)
    · rw [← hseq]
      exact Entry.delivered_last h hf (Option.some.inj (hnf.symm.trans hlink)) e' he'
  · exact absurd h (hdb.not_link hlineage)
  · -- the earlier notification still waited, so the later one has no event
    rcases Entry.deliveryId_cases h hq with hsame' | ⟨_, _, ⟨g', now', hk, _⟩ | ⟨g', now', hk, _⟩⟩
    · exact absurd hpending
        (hdb.settled q hq _ (hsame'.symm.trans hnf) p hp hrequest hrevision)
    · cases hk
    · cases hk
      exact absurd hrevision (lt_irrefl _)

theorem Db.Outboxed.apply_failed (hdb : db.Outboxed) (hlineage : db.Lineage crates)
    (hrouted : db.WatchesRouted) (h : k.Enabled crates db) :
    ∀ n ∈ (k.apply crates db).requestNotifications, n.state = .failed →
      (∃ b ∈ (k.apply crates db).bindings, b.name = n.originalBinding ∧ b.removed = true) ∨
        ∃ e ∈ (k.apply crates db).events, n.deliveryId = some e.id ∧ e.state = .dead := by
  intro n hn hfailed
  have hbinding : ∀ b ∈ db.bindings, k.onBinding b ∈ (k.apply crates db).bindings ∧
      (k.onBinding b).name = b.name := fun b hb =>
    ⟨(Entry.mem_bindings h).mpr (Or.inl ⟨b, hb, rfl⟩), (k.onBinding_key b).1⟩
  have hevent : ∀ e ∈ db.events, k.onEvent e ∈ (k.apply crates db).events ∧
      (k.onEvent e).id = e.id := fun e he =>
    ⟨(Entry.mem_events h).mpr (Or.inl ⟨e, he, rfl⟩), (Event.key_eq (k.onEvent_key e)).2.1⟩
  rcases (Entry.mem_notices h).mp hn with ⟨m, hm, rfl⟩ | hnew
  · rw [(RequestNotification.key_eq (k.onNotice_key db m)).2.2.2.2.1]
    cases Entry.notice_move h hm with
    | stay hstate hlink =>
        rcases hdb.failed m hm (hstate.symm.trans hfailed) with ⟨b, hb, hname, hremoved⟩ |
          ⟨e, he, hown, hdead⟩
        · exact Or.inl ⟨_, (hbinding b hb).1, (hbinding b hb).2.trans hname,
            hrouted.removed_kept h hb hremoved⟩
        · refine Or.inr ⟨_, (hevent e he).1, ?_, ?_⟩
          · rw [hlink, hown, (hevent e he).2]
          · rw [Entry.onEvent_settled h he (Or.inr (Or.inl hdead)), hdead]
    | abandon =>
        obtain ⟨b, hb, hname, _⟩ := id h
        refine Or.inl ⟨_, (hbinding b hb).1, (hbinding b hb).2.trans hname, ?_⟩
        simp [Entry.onBinding, hname]
    | expire _ _ hlink hown =>
        refine Or.inr ⟨_, (hevent _ h.1).1, ?_, ?_⟩
        · rw [hlink, hown, (hevent _ h.1).2]
        · simp [Entry.onEvent]
    | die _ _ hlink hown =>
        refine Or.inr ⟨_, (hevent _ h.1).1, ?_, ?_⟩
        · rw [hlink, hown, (hevent _ h.1).2]
        · simp [Entry.onEvent]
    | fail =>
        obtain ⟨b, hb, hname, hremoved⟩ := hlineage.removed_of_undeliverable hm h.2
        exact Or.inl ⟨_, (hbinding b hb).1, (hbinding b hb).2.trans hname, hremoved⟩
    | accept _ haccepted =>
        rw [haccepted] at hfailed
        cases hfailed
    | link => exact absurd h (hdb.not_link hlineage)
    | deliver _ _ hstate =>
        rw [hstate] at hfailed
        cases hfailed
  · obtain ⟨r, updateId, state, detail, now, rfl, _, rfl⟩ := Entry.transition_of_notice hnew
    cases hfailed

/-- Every entry that leaves notification ids alone keeps the outbox in order. -/
theorem Db.Outboxed.apply (hdb : db.Outboxed) (hlineage : db.Lineage crates)
    (hrouted : db.WatchesRouted) (h : k.Enabled crates db) (hok : k.LeavesNoticeIds) :
    (k.apply crates db).Outboxed :=
  ⟨hdb.apply_owned h hok, hdb.apply_settled hlineage h, hdb.apply_ordered hlineage h,
    hdb.apply_failed hlineage hrouted h⟩

theorem Op.Writes.leavesNoticeIds {op : Op} (hw : op.Writes crates k) (hok : op.LeavesNoticeIds) :
    k.LeavesNoticeIds := by
  cases hw with
  | ingest he => exact hok _ (Option.mem_def.mpr he.eventId_eq)
  | sample he => exact hok _ (Option.mem_def.mpr he.eventId_eq)
  | _ => trivial

/-- What the outbox invariants are proved with. -/
structure Db.Kept (crates : Crates) (db : Db) : Prop where
  lineage : db.Lineage crates
  routed : db.WatchesRouted
  outboxed : db.Outboxed

theorem Db.kept_empty : Db.empty.Kept crates where
  lineage := Db.lineage_empty
  routed w hw := absurd hw (Table.not_mem_empty w)
  outboxed :=
    ⟨fun e he => absurd he (Table.not_mem_empty e), fun n hn => absurd hn (Table.not_mem_empty n),
      fun n hn => absurd hn (Table.not_mem_empty n), fun n hn => absurd hn (Table.not_mem_empty n)⟩

theorem Db.Kept.step {op : Op} (hdb : db.Kept crates) (hok : op.LeavesNoticeIds) :
    (op.step crates db).Kept crates :=
  (op.commits crates db).invariant
    (fun _ hw _ hk hd => ⟨hd.lineage.apply hk, hd.routed.apply hk,
      hd.outboxed.apply hd.lineage hd.routed hk (hw.leavesNoticeIds hok)⟩) hdb

/-! ## New events of the outbox -/

/-- A notification that a maintenance run may transfer stands under the id of its request and
revision. -/
theorem Db.Lineage.upcoming_id (hdb : db.Lineage crates) {now : Rat} {n : RequestNotification}
    (hn : n ∈ db.upcoming crates now) :
    ∃ u : Uuid, n.requestId = u.text ∧ n.eventId = requestEventId u.text n.revision ∧
      0 ≤ n.revision := by
  obtain ⟨hmem, _⟩ := List.mem_filter.mp hn
  rcases List.mem_append.mp hmem with hold | hexpiry
  · obtain ⟨r, hr, hof⟩ := hdb.notice_of n hold
    obtain ⟨u, hu⟩ := hdb.request_named r hr
    refine ⟨u, hof.requestId_eq.trans hu, ?_, le_trans Int.one_nonneg hof.revision_pos⟩
    rw [hof.eventId_eq, hu]
  · obtain ⟨r, hr, rfl⟩ := List.mem_map.mp hexpiry
    obtain ⟨hr, _⟩ := Db.mem_dueRequests.mp hr
    obtain ⟨u, hu⟩ := hdb.request_named r hr
    refine ⟨u, hu, ?_, ?_⟩
    · show requestEventId r.requestId (r.revision + 1) = requestEventId u.text (r.revision + 1)
      rw [hu]
    · have hnonneg := hdb.request_nonneg r hr
      show 0 ≤ r.revision + 1
      omega

/-- A call that stores an event under a notification's id is a maintenance run, and the event is
that of an upcoming notification whose route takes events. -/
theorem new_event_upcoming {op : Op} (hdb : db.Lineage crates) (hok : op.LeavesNoticeIds)
    {e : Event} (he : e ∈ (op.step crates db).events) (hnew : ∀ f ∈ db.events, f.id ≠ e.id)
    (hform : IsNoticeId e.eventId) :
    ∃ now, ∃ n ∈ db.upcoming crates now, (∃ b, db.Accepts n.originalBinding n.source b) ∧
      e.StandsFor n := by
  have hfound : ∀ {W : Entry → Prop} {Q : Event → Prop}, Commits crates W db (op.step crates db) →
      (∀ k, W k → ∀ g, k.newEvent? = some g → IsNoticeId g.eventId → Q g) →
      (∀ f g : Event, f.key = g.key → Q f → Q g) → Q e := by
    intro W Q hcommits hstored hkey
    have hrun := hcommits.invariant (P := fun u => ∀ g ∈ u.events,
      (∃ f ∈ db.events, f.id = g.id) ∨ (IsNoticeId g.eventId → Q g)) ?_
      fun g hg => Or.inl ⟨g, hg, rfl⟩
    · rcases hrun e he with ⟨f, hf, hid⟩ | hq
      · exact absurd hid (hnew f hf)
      · exact hq hform
    · intro k hw u hk hu g hg
      rcases (Entry.mem_events hk).mp hg with ⟨f, hf, rfl⟩ | hadded
      · have hfkey := k.onEvent_key f
        have hcolumns := Event.key_eq hfkey
        rcases hu f hf with ⟨f', hf', hid⟩ | hq
        · exact Or.inl ⟨f', hf', hid.trans hcolumns.2.1.symm⟩
        · refine Or.inr fun hg => hkey f _ hfkey.symm (hq ?_)
          rw [← hcolumns.2.2.2.2.2.1]
          exact hg
      · exact Or.inr fun hg => hstored k hw g hadded hg
  rcases op.step_outcome crates db with hrun | hsame
  · by_cases hop : ∃ limit uuids now, op = .requestMaintenance limit uuids now
    · obtain ⟨limit, uuids, now, rfl⟩ := hop
      obtain ⟨done, _, hcall, hpure⟩ := Tx.bind_ok.mp hrun
      obtain ⟨_, hsame⟩ := Tx.pure_ok.mp hpure
      rw [hsame] at hcall
      refine ⟨now, hfound (Q := fun g => ∃ n ∈ db.upcoming crates now,
        (∃ b, db.Accepts n.originalBinding n.source b) ∧ g.StandsFor n)
        (requestMaintenance_maintains hdb hcall) ?_ ?_⟩
      · intro k hw g hadded _
        cases hw with
        | deliver i hn hb hstands hid =>
            cases hadded
            exact ⟨_, hn, hb, hstands⟩
        | _ => cases hadded
      · rintro f g hkey ⟨n, hn, hb, hstands⟩
        have hcolumns := Event.key_eq hkey
        refine ⟨n, hn, hb, ?_⟩
        exact ⟨hcolumns.2.2.2.1.symm.trans hstands.1, hcolumns.2.2.2.2.1.symm.trans hstands.2.1,
          hcolumns.2.2.2.2.2.1.symm.trans hstands.2.2⟩
    · refine (hfound (Q := fun _ => False) (op.commits crates db) ?_ fun _ _ _ h => h).elim
      intro k hw g hadded hg
      have hleaves := hw.leavesNoticeIds hok
      cases hw with
      | ingest | sample =>
          cases hadded
          exact hleaves hg
      | deliver => exact hop ⟨_, _, _, rfl⟩
      | _ => cases hadded
  · rw [hsame] at he
    exact absurd rfl (hnew e he)

end step

/-! ## The contract -/

/-- What the outbox promises of a database and of the next call. -/
structure Db.OutboxContract (crates : Crates) (db : Db) : Prop where
  /-- a notification gives rise to at most one event, and is linked to it -/
  once : ∀ n ∈ db.requestNotifications, ∀ e ∈ db.events, e.eventId = n.eventId →
    n.deliveryId = some e.id ∧ ∀ f ∈ db.events, f.eventId = n.eventId → f = e
  /-- the events of a request were created in increasing revision order -/
  ordered : ∀ m ∈ db.requestNotifications, ∀ n ∈ db.requestNotifications,
    m.requestId = n.requestId → m.revision < n.revision → ∀ e ∈ db.events, ∀ f ∈ db.events,
      e.eventId = m.eventId → f.eventId = n.eventId → e.seq < f.seq
  /-- with its route in place a notification fails only through its own event -/
  failed : ∀ n ∈ db.requestNotifications, n.state = .failed → ∀ b ∈ db.bindings,
    b.name = n.originalBinding → b.removed = false → n.source ∈ b.sources →
      ∃ e ∈ db.events, n.deliveryId = some e.id ∧ e.state = .dead
  /-- an event is created when no earlier notification is pending, on a route that is not paused -/
  created : ∀ op : Op, op.LeavesNoticeIds → ∀ e ∈ (op.step crates db).events,
    (∀ f ∈ db.events, f.id ≠ e.id) → ∀ n ∈ (op.step crates db).requestNotifications,
      e.eventId = n.eventId →
        (∀ m ∈ db.requestNotifications, m.requestId = n.requestId → m.revision < n.revision →
          m.state ≠ .pending) ∧
        ∃ b ∈ db.bindings, b.name = n.originalBinding ∧ b.enabled = true ∧ b.removed = false

section contract

variable {crates : Crates} {db : Db}

/-- An event under a notification's id is the notification's. -/
theorem Db.Kept.linked (hdb : db.Kept crates) {n : RequestNotification}
    (hn : n ∈ db.requestNotifications) {e : Event} (he : e ∈ db.events)
    (hid : e.eventId = n.eventId) : n.deliveryId = some e.id := by
  obtain ⟨m, hm, hmid, hlink⟩ := hdb.outboxed.owned e he (hid ▸ hdb.lineage.isNoticeId hn)
  obtain rfl := hdb.lineage.notice_unique hm hn (hmid.trans hid)
  exact hlink

/-- **Outbox order and exactly-once transfer**, in every run that leaves the event ids of
notifications to the store. -/
theorem outbox_contract
    (h : ReachableBy crates (fun _ op => op.LeavesNoticeIds) db) : db.OutboxContract crates := by
  have hdb : db.Kept crates := LeadsBy.invariant (fun _ _ hd hok => hd.step hok) h Db.kept_empty
  refine ⟨?_, ?_, ?_, ?_⟩
  · intro n hn e he hid
    have hlink := hdb.linked hn he hid
    refine ⟨hlink, fun f hf hfid => ?_⟩
    have hflink := hdb.linked hn hf hfid
    exact Event.eq_of_id hf he (Option.some.inj (hflink.symm.trans hlink))
  · intro m hm n hn hrequest hrevision e he f hf heid hfid
    exact hdb.outboxed.ordered m hm n hn hrequest hrevision e he f hf (hdb.linked hm he heid)
      (hdb.linked hn hf hfid)
  · intro n hn hfailed b hb hname hkept _
    rcases hdb.outboxed.failed n hn hfailed with ⟨c, hc, hcname, hremoved⟩ | hdead
    · obtain rfl := Binding.eq_of_name hb hc (hname.trans hcname.symm)
      rw [hkept] at hremoved
      cases hremoved
    · exact hdead
  · intro op hok e he hnew n hn hid
    have hafter : (op.step crates db).Kept crates := hdb.step hok
    obtain ⟨now, q, hq, ⟨b, hb, hbname, hon, hkept, _⟩, hstands⟩ :=
      new_event_upcoming hdb.lineage hok he hnew (hid ▸ hafter.lineage.isNoticeId hn)
    -- `n` and the upcoming `q` are one notification: same request, revision and route
    obtain ⟨r, hr, hof⟩ := hafter.lineage.notice_of n hn
    obtain ⟨u, hu⟩ := hafter.lineage.request_named r hr
    obtain ⟨v, hv, hvid, hvnonneg⟩ := hdb.lineage.upcoming_id hq
    have hsame : requestEventId u.text n.revision = requestEventId v.text q.revision := by
      rw [← hvid, ← hstands.2.2, hid, hof.eventId_eq, hu]
    obtain ⟨htext, hrevision⟩ :=
      requestEventId_inj (le_trans Int.one_nonneg hof.revision_pos) hvnonneg hsame
    have hrequest : n.requestId = q.requestId := by
      rw [hof.requestId_eq, hu, htext, hv]
    have hroute : q.originalBinding = n.originalBinding := by
      obtain ⟨f, hf, hfid, hfstands⟩ := hafter.lineage.linked n hn _ (hafter.linked hn he hid)
      obtain rfl := Event.eq_of_id hf he hfid
      exact hstands.1.symm.trans hfstands.1
    obtain ⟨_, _, _, _, hfirst⟩ := of_decide_eq_true (List.mem_filter.mp hq).2
    refine ⟨fun m hm hmrequest hmrevision hpending => hfirst ⟨m, hm, ?_, ?_, hpending⟩, ?_⟩
    · exact hmrequest.trans hrequest
    · rw [← hrevision]
      exact hmrevision
    · exact ⟨b, hb, hbname.trans hroute, hon, hkept⟩

end contract

/-! ## A sample run -/

/-- A text that does not start like a notification's event id is none. -/
theorem not_isNoticeId {id : String} (h : id.toList.head? ≠ some 'r') : ¬ IsNoticeId id := by
  rintro ⟨request, revision, rfl⟩
  refine h ?_
  have hsplit : requestEventId request.text revision =
      "request-" ++ request.text ++ "-" ++ toString revision := rfl
  rw [hsplit]
  simp [String.toList_append]

/-- A request is reported twice before maintenance runs: its second notification waits for the
first. -/
def sampleOutboxOps : List Op :=
  sampleOps ++
    [.requestCreate "conversation-1" "ci" "job-1" (sampleUuid 1).text (.object []) none
      (sampleUuid 3) 12,
    .requestUpdate "conversation-1" "ci" "job-1" "started" "in_progress" none none 13,
    .requestUpdate "conversation-1" "ci" "job-1" "done" "completed" (some 1) none 14,
    .requestMaintenance 100 (fun _ => sampleUuid 7) 15]

theorem outbox_contract_sample :
    (Db.after sampleCrates sampleOutboxOps).requestNotifications.rows.map
        RequestNotification.deliveryId = [some (sampleUuid 7).text, none] ∧
      (Db.after sampleCrates sampleOutboxOps).OutboxContract sampleCrates := by
  have hfree : ∀ id : String, id.toList.head? ≠ some 'r' →
      ∀ binding uuid now, (Op.ingest binding (sampleEnvelope id) uuid now).LeavesNoticeIds := by
    intro id hid binding uuid now id' hmem
    obtain rfl : id = id' := Option.some.inj hmem
    exact not_isNoticeId hid
  refine ⟨by decide +kernel, outbox_contract (reachableBy_after ?_)⟩
  exact ⟨trivial, hfree "build-1" (by decide) _ _ _, hfree "build-2" (by decide) _ _ _, trivial,
    trivial, trivial, trivial, trivial⟩

end CodexMonitor
