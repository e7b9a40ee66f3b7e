import CodexMonitor.Store.History
import CodexMonitor.Store.Identifiers

/-!
# Where every row comes from

The store checks a source once, when an event is taken in.  Everything later
refers back: an event to its binding, a request to the binding of the event it was
created from, a notification to its request, a linked notification to the event
under its own binding, source and event id.  These references never break, since
no row is deleted and no key column changes.
-/

namespace CodexMonitor

open Transaction

/-- The outbox row `n` belongs to the request `r`. -/
structure RequestNotification.Of (crates : Crates) (n : RequestNotification) (r : Request) :
    Prop where
  requestId_eq : n.requestId = r.requestId
  notificationId_eq : n.notificationId = requestNotificationId r.requestId n.revision
  eventId_eq : n.eventId = requestEventId r.requestId n.revision
  binding_eq : n.originalBinding = r.binding
  source_eq : n.source = r.source
  revision_pos : 1 ≤ n.revision
  revision_le : n.revision ≤ r.revision
  envelope_eq : ∃ state detail, n.envelope = canonicalJson crates
    (notificationEnvelope r.requestId r.thread r.source r.requestKey r.deliveryId n.revision state
      detail)

/-- The event `e` stands where the notification `n` would store its own. -/
def Event.StandsFor (e : Event) (n : RequestNotification) : Prop :=
  e.binding = n.originalBinding ∧ e.source = n.source ∧ e.eventId = n.eventId

/-- The references of every row. -/
structure Db.Lineage (crates : Crates) (db : Db) : Prop where
  event_named : ∀ e ∈ db.events,
    ∃ uuid : Uuid, e.id = uuid.text ∧ e.clientId = "codex-monitor:" ++ uuid.text
  event_routed : ∀ e ∈ db.events, ∃ b ∈ db.bindings, b.name = e.binding ∧ e.source ∈ b.sources
  request_named : ∀ r ∈ db.requests, ∃ uuid : Uuid, r.requestId = uuid.text
  request_routed : ∀ r ∈ db.requests, ∃ b ∈ db.bindings, b.name = r.binding ∧
    b.thread = r.thread ∧ r.source ∈ b.sources
  request_nonneg : ∀ r ∈ db.requests, 0 ≤ r.revision
  notice_of : ∀ n ∈ db.requestNotifications, ∃ r ∈ db.requests, n.Of crates r
  linked : ∀ n ∈ db.requestNotifications, ∀ d, n.deliveryId = some d →
    ∃ e ∈ db.events, e.id = d ∧ e.StandsFor n

section step

variable {crates : Crates} {db : Db} {k : Entry}

/-- A binding keeps everything but its flags. -/
theorem Entry.binding_kept (h : k.Enabled crates db) {b : Binding} (hb : b ∈ db.bindings) :
    ∃ c ∈ (k.apply crates db).bindings,
      c.name = b.name ∧ c.thread = b.thread ∧ c.sources = b.sources := by
  have hkey := k.onBinding_key b
  exact ⟨_, (Entry.mem_bindings h).mpr (Or.inl ⟨b, hb, rfl⟩), hkey.1, hkey.2.1, hkey.2.2.2⟩

/-- A new event's source is allowed on its binding. -/
theorem Entry.newEvent_routed (h : k.Enabled crates db) {e : Event}
    (hnew : k.newEvent? = some e) : ∃ b, db.Accepts e.binding e.source b := by
  cases k with
  | store f =>
      cases hnew
      exact h.2.2.2.1
  | deliver n f now =>
      cases hnew
      obtain ⟨_, hb, _, hbinding, hsource, _⟩ := h
      rw [hbinding, hsource]
      exact hb
  | _ => cases hnew

theorem Entry.create_of_new {r : Request} (h : k.newRequest? = some r) : k = .create r := by
  cases k with
  | create q =>
      cases h
      rfl
  | _ => cases h

/-- A request keeps its identity and its revision never falls. -/
theorem Entry.onRequest_revision (k : Entry) (r : Request) :
    r.revision ≤ (k.onRequest r).revision := by
  cases k with
  | transition q updateId state detail now =>
      simp only [Entry.onRequest]
      split
      · rename_i hq
        rw [hq.2]
        exact le_of_lt (Int.lt_succ _)
      · exact le_refl _
  | _ => exact le_refl _

/-- What links a notification: the entry that takes over or stores its event, in place of no
link. -/
theorem Entry.deliveryId_cases (h : k.Enabled crates db) {n : RequestNotification}
    (hn : n ∈ db.requestNotifications) :
    (k.onNotice db n).deliveryId = n.deliveryId ∨
      n.deliveryId = none ∧ n.state = .pending ∧
        ((∃ e now, k = .link n e now ∧ (k.onNotice db n).deliveryId = some e.id) ∨
          ∃ e now, k = .deliver n e now ∧ (k.onNotice db n).deliveryId = some e.id) := by
  cases Entry.notice_move h hn with
  | stay _ hlink => exact Or.inl hlink
  | abandon _ _ hlink | expire _ _ hlink | accept _ _ hlink | die _ _ hlink => exact Or.inl hlink
  | fail _ _ hnone hlink => exact Or.inl (hlink.trans hnone.symm)
  | link hpending hnone _ hlink =>
      exact Or.inr ⟨hnone, hpending, Or.inl ⟨_, _, rfl, hlink⟩⟩
  | deliver hpending hnone _ hlink =>
      exact Or.inr ⟨hnone, hpending, Or.inr ⟨_, _, rfl, hlink⟩⟩

/-- Every entry keeps every reference. -/
theorem Db.Lineage.apply (hdb : db.Lineage crates) (h : k.Enabled crates db) :
    (k.apply crates db).Lineage crates where
  event_named := by
    intro e he
    rcases (Entry.mem_events h).mp he with ⟨f, hf, rfl⟩ | hnew
    · have hkey := Event.key_eq (k.onEvent_key f)
      rw [hkey.2.1, hkey.2.2.1]
      exact hdb.event_named f hf
    · exact (Entry.fresh_of_new h hnew).2.2
  event_routed := by
    have hold : ∀ f ∈ db.events, ∃ b ∈ db.bindings, b.name = f.binding ∧ f.source ∈ b.sources :=
      hdb.event_routed
    intro e he
    have hbefore : ∃ b ∈ db.bindings, b.name = e.binding ∧ e.source ∈ b.sources := by
      rcases (Entry.mem_events h).mp he with ⟨f, hf, rfl⟩ | hnew
      · have hkey := Event.key_eq (k.onEvent_key f)
        rw [hkey.2.2.2.1, hkey.2.2.2.2.1]
        exact hold f hf
      · obtain ⟨b, hb, hname, _, _, hsource⟩ := Entry.newEvent_routed h hnew
        exact ⟨b, hb, hname, hsource⟩
    obtain ⟨b, hb, hname, hsource⟩ := hbefore
    obtain ⟨c, hc, hcname, _, hcsources⟩ := Entry.binding_kept h hb
    exact ⟨c, hc, hcname.trans hname, by rw [hcsources]; exact hsource⟩
  request_named := by
    intro r hr
    rcases (Entry.mem_requests h).mp hr with ⟨q, hq, rfl⟩ | hnew
    · rw [(Request.identity_eq (k.onRequest_identity q)).2.1]
      exact hdb.request_named q hq
    · obtain rfl := Entry.create_of_new hnew
      exact h.2.2.2.2.1
  request_routed := by
    intro r hr
    have hbefore : ∃ b ∈ db.bindings, b.name = r.binding ∧ b.thread = r.thread ∧
        r.source ∈ b.sources := by
      rcases (Entry.mem_requests h).mp hr with ⟨q, hq, rfl⟩ | hnew
      · have hidentity := Request.identity_eq (k.onRequest_identity q)
        rw [hidentity.2.2.1, hidentity.2.2.2.1, hidentity.2.2.2.2.2.2.1]
        exact hdb.request_routed q hq
      · obtain rfl := Entry.create_of_new hnew
        obtain ⟨_, _, _, _, _, e, he, _, hsource, hbinding, b, hb, hname, hthread⟩ := h
        obtain ⟨c, hc, hcname, hcsource⟩ := hdb.event_routed e he
        obtain rfl := Binding.eq_of_name hb hc (hname.trans hcname.symm)
        refine ⟨b, hb, hname.trans hbinding, hthread, ?_⟩
        rw [← hsource]
        exact hcsource
    obtain ⟨b, hb, hname, hthread, hsource⟩ := hbefore
    obtain ⟨c, hc, hcname, hcthread, hcsources⟩ := Entry.binding_kept h hb
    exact ⟨c, hc, hcname.trans hname, hcthread.trans hthread, by rw [hcsources]; exact hsource⟩
  request_nonneg := by
    intro r hr
    rcases (Entry.mem_requests h).mp hr with ⟨q, hq, rfl⟩ | hnew
    · exact le_trans (hdb.request_nonneg q hq) (k.onRequest_revision q)
    · obtain rfl := Entry.create_of_new hnew
      exact le_of_eq h.2.2.2.1.symm
  notice_of := by
    intro n hn
    have hkept : ∀ r ∈ db.requests, k.onRequest r ∈ (k.apply crates db).requests := fun r hr =>
      (Entry.mem_requests h).mpr (Or.inl ⟨r, hr, rfl⟩)
    rcases (Entry.mem_notices h).mp hn with ⟨m, hm, rfl⟩ | hnew
    · obtain ⟨r, hr, hof⟩ := hdb.notice_of m hm
      have hkey := RequestNotification.key_eq (k.onNotice_key db m)
      have hidentity := Request.identity_eq (k.onRequest_identity r)
      refine ⟨_, hkept r hr, ?_, ?_, ?_, ?_, ?_, ?_, ?_, ?_⟩
      · rw [hkey.2.1, hidentity.2.1, hof.requestId_eq]
      · rw [hkey.1, hkey.2.2.2.1, hidentity.2.1, hof.notificationId_eq]
      · rw [hkey.2.2.2.2.2.2.1, hkey.2.2.2.1, hidentity.2.1, hof.eventId_eq]
      · rw [hkey.2.2.2.2.1, hidentity.2.2.2.2.2.2.1, hof.binding_eq]
      · rw [hkey.2.2.2.2.2.1, hidentity.2.2.2.1, hof.source_eq]
      · rw [hkey.2.2.2.1]
        exact hof.revision_pos
      · rw [hkey.2.2.2.1]
        exact le_trans hof.revision_le (k.onRequest_revision r)
      · rw [hkey.2.2.2.2.2.2.2, hkey.2.2.2.1, hidentity.2.1, hidentity.2.2.1, hidentity.2.2.2.1,
          hidentity.2.2.2.2.1, hidentity.2.2.2.2.2.1]
        exact hof.envelope_eq
    · obtain ⟨r, updateId, state, detail, now, rfl, _, rfl⟩ := Entry.transition_of_notice hnew
      have hrevision : ((Entry.transition r updateId state detail now).onRequest r).revision =
          r.revision + 1 := by
        simp [Entry.onRequest]
      have hidentity := Request.identity_eq
        ((Entry.transition r updateId state detail now).onRequest_identity r)
      have hnonneg := hdb.request_nonneg r h.1
      refine ⟨_, hkept r h.1, hidentity.2.1.symm, ?_, ?_, hidentity.2.2.2.2.2.2.1.symm,
        hidentity.2.2.2.1.symm, ?_, le_of_eq hrevision.symm, state, detail, ?_⟩
      · rw [hidentity.2.1]
        rfl
      · rw [hidentity.2.1]
        rfl
      · show 1 ≤ r.revision + 1
        omega
      · rw [hidentity.2.1, hidentity.2.2.1, hidentity.2.2.2.1, hidentity.2.2.2.2.1,
          hidentity.2.2.2.2.2.1]
        rfl
  linked := by
    intro n hn d hd
    have hkept : ∀ e ∈ db.events, ∀ m : RequestNotification, e.id = d → e.StandsFor m →
        m.key = n.key → ∃ f ∈ (k.apply crates db).events, f.id = d ∧ f.StandsFor n := by
      intro e he m hid hstands hkey
      have hkey := RequestNotification.key_eq hkey
      have hekey := Event.key_eq (k.onEvent_key e)
      refine ⟨_, (Entry.mem_events h).mpr (Or.inl ⟨e, he, rfl⟩), hekey.2.1.trans hid, ?_, ?_, ?_⟩
      · rw [hekey.2.2.2.1, hstands.1, hkey.2.2.2.2.1]
      · rw [hekey.2.2.2.2.1, hstands.2.1, hkey.2.2.2.2.2.1]
      · rw [hekey.2.2.2.2.2.1, hstands.2.2, hkey.2.2.2.2.2.2.1]
    rcases (Entry.mem_notices h).mp hn with ⟨m, hm, rfl⟩ | hnew
    · have hkey := k.onNotice_key db m
      rcases Entry.deliveryId_cases h hm with hsame | ⟨_, _, ⟨e, now, hk, hlink⟩ |
        ⟨e, now, hk, hlink⟩⟩
      · rw [hsame] at hd
        obtain ⟨e, he, hid, hstands⟩ := hdb.linked m hm d hd
        exact hkept e he m hid hstands hkey.symm
      · rw [hlink] at hd
        obtain rfl := Option.some.inj hd
        subst hk
        obtain ⟨_, _, he, hbinding, hsource, heventId⟩ := h
        exact hkept e he m rfl ⟨hbinding, hsource, heventId⟩ hkey.symm
      · rw [hlink] at hd
        obtain rfl := Option.some.inj hd
        subst hk
        have hcolumns := RequestNotification.key_eq hkey
        refine ⟨e, (Entry.mem_events h).mpr (Or.inr rfl), rfl, ?_, ?_, ?_⟩
        · rw [hcolumns.2.2.2.2.1]
          exact h.2.2.2.1
        · rw [hcolumns.2.2.2.2.2.1]
          exact h.2.2.2.2.1
        · rw [hcolumns.2.2.2.2.2.2.1]
          exact h.2.2.2.2.2.1
    · obtain ⟨r, updateId, state, detail, now, rfl, _, rfl⟩ := Entry.transition_of_notice hnew
      cases hd

theorem Db.lineage_empty : Db.empty.Lineage crates where
  event_named e he := absurd he (Table.not_mem_empty e)
  event_routed e he := absurd he (Table.not_mem_empty e)
  request_named r hr := absurd hr (Table.not_mem_empty r)
  request_routed r hr := absurd hr (Table.not_mem_empty r)
  request_nonneg r hr := absurd hr (Table.not_mem_empty r)
  notice_of n hn := absurd hn (Table.not_mem_empty n)
  linked n hn := absurd hn (Table.not_mem_empty n)

theorem Reachable.lineage (h : Reachable crates db) : db.Lineage crates :=
  Leads.invariant h (fun _ _ hk hd => hd.apply hk) Db.lineage_empty

end step

/-! ## One slot, one notification -/

/-- Notifications that would store their events in one place are the same notification. -/
theorem Db.Lineage.notice_unique {crates : Crates} {db : Db} (hdb : db.Lineage crates)
    {m n : RequestNotification} (hm : m ∈ db.requestNotifications)
    (hn : n ∈ db.requestNotifications) (h : m.eventId = n.eventId) : m = n := by
  obtain ⟨r, hr, hmr⟩ := hdb.notice_of m hm
  obtain ⟨q, hq, hnq⟩ := hdb.notice_of n hn
  obtain ⟨u, hu⟩ := hdb.request_named r hr
  obtain ⟨v, hv⟩ := hdb.request_named q hq
  have hm0 : 0 ≤ m.revision := le_trans Int.one_nonneg hmr.revision_pos
  have hn0 : 0 ≤ n.revision := le_trans Int.one_nonneg hnq.revision_pos
  rw [hmr.eventId_eq, hnq.eventId_eq, hu, hv] at h
  obtain ⟨hid, hrevision⟩ := requestEventId_inj hm0 hn0 h
  refine RequestNotification.eq_of_revision hm hn ?_ hrevision
  rw [hmr.requestId_eq, hnq.requestId_eq, hu, hv, hid]

/-- The request of a notification. -/
theorem Db.Lineage.request_of_notice {crates : Crates} {db : Db} (hdb : db.Lineage crates)
    {n : RequestNotification} (hn : n ∈ db.requestNotifications) {r : Request}
    (hr : r ∈ db.requests) (hid : n.requestId = r.requestId) : n.Of crates r := by
  obtain ⟨q, hq, hof⟩ := hdb.notice_of n hn
  obtain rfl := Request.eq_of_id hq hr (hof.requestId_eq.symm.trans hid)
  exact hof

end CodexMonitor
