import CodexMonitor.Lib.Backlog
import CodexMonitor.Store.Transfer
import CodexMonitor.Store.Capacity

/-!
# What a saturated route costs the others

A maintenance run walks the outbox in the order of `next_at` and `created`.  Every
candidate that its turn comes for is work and leaves the outbox's front: it fails, it
is linked to an event, it gets its own, or it is postponed behind every notification
that is due now.  So whatever stands in front of a notification whose route has room
goes away by the limit of each run, and the notification is not starved by routes
that are full, paused or removed.
-/

namespace CodexMonitor

open Transaction

/-! ## One candidate -/

/-- The event a notification stores. -/
def noticeEvent (db : Db) (uuid : Uuid) (now : Rat) (n : RequestNotification) : Event :=
  newEvent db.nextEventSeq uuid n.originalBinding n.source n.eventId n.envelope .pending now
    n.attempts

/-- The notification's route is there and paused. -/
def Db.Paused (db : Db) (n : RequestNotification) : Prop :=
  db.bindings.Any fun b => b.name = n.originalBinding ∧ b.enabled = false ∧ b.removed = false

/-- What the transfer loop writes for a candidate whose route is not paused. -/
inductive Entry.Serves (db : Db) (uuid : Uuid) (now : Rat) (n : RequestNotification) :
    Entry → Prop
  | fail (error : String) (hgone : db.Undeliverable n) :
      Serves db uuid now n (.failNotice n error now)
  | link {e : Event} (he : e ∈ db.events) (hstands : e.StandsFor n) :
      Serves db uuid now n (.link n e now)
  | postpone (hfull : maxPending ≤ db.openEvents n.originalBinding ∨
      rateLimit ≤ db.recentEvents n.originalBinding now) :
      Serves db uuid now n (.postpone n now)
  | deliver : Serves db uuid now n (.deliver n (noticeEvent db uuid now n) now)

section candidate

variable {crates : Crates} {db : Db} {uuid : Uuid} {now : Rat} {n : RequestNotification}

variable (now) in
/-- A new identifier makes a new event's row admissible in a slot that is free. -/
theorem noticeEvent_admits (hdb : db.Lineage crates) (hfresh : ∀ e ∈ db.events, e.id ≠ uuid.text)
    (hfree : db.eventAt n.originalBinding n.source n.eventId = none) :
    db.events.Admits (noticeEvent db uuid now n) := by
  intro e he
  have hseq : e.seq < db.nextEventSeq := Table.lt_nextSeq he
  obtain ⟨own, hid, hclient⟩ := hdb.event_named e he
  refine ⟨hseq, hfresh e he, fun hsame => ?_, Table.find?_none.mp hfree e he⟩
  have htext : "codex-monitor:" ++ own.text = "codex-monitor:" ++ uuid.text :=
    hclient.symm.trans hsame
  exact hfresh e he (hid.trans (String.append_right_inj _ |>.mp htext))

variable (now) in
/-- A candidate whose route is not paused is one unit of work, and it is served. -/
theorem transferOne_serves (hdb : db.Lineage crates) (hready : db.Ready n)
    (hopen : ¬ db.Paused n) (hfresh : ∀ e ∈ db.events, e.id ≠ uuid.text) :
    ∃ k : Entry, k.Serves db uuid now n ∧ k.Enabled crates db ∧
      (transferOne uuid now n).run db = (.ok 1, k.apply crates db) := by
  simp only [transferOne, Tx.bind_ok, Tx.query_ok]
  cases htarget : db.bindings.find? fun b => b.name = n.originalBinding with
  | none =>
      have hgone : db.Undeliverable n := Or.inl (Table.find?_none.mp htarget)
      refine ⟨_, .fail "original binding is unavailable" hgone, ⟨hready, hgone⟩, none, db,
        ⟨rfl, rfl⟩, ?_⟩
      rfl
  | some b =>
      obtain ⟨hb, hname⟩ := Table.find?_some htarget
      by_cases hremoved : b.removed = true
      · have hgone : db.Undeliverable n := Or.inr ⟨b, hb, hname, Or.inl hremoved⟩
        refine ⟨_, .fail "original binding was removed" hgone, ⟨hready, hgone⟩, some b, db,
          ⟨rfl, rfl⟩, ?_⟩
        simp only [if_pos hremoved]
        rfl
      have hkept : b.removed = false := Bool.eq_false_of_not_eq_true hremoved
      have hon : ¬ b.enabled = false := fun hoff => hopen ⟨b, hb, hname, hoff, hkept⟩
      obtain ⟨r, hr, hof⟩ := hdb.notice_of n hready.mem
      have hrow : db.requestById n.requestId = some r :=
        Table.find?_eq_of_unique hr hof.requestId_eq.symm fun q hq hqid =>
          Request.eq_of_id hq hr (hqid.trans hof.requestId_eq)
      by_cases hmoved : n.source ∉ b.sources ∨ r.thread ≠ b.thread
      · have hgone : db.Undeliverable n := by
          refine Or.inr ⟨b, hb, hname, Or.inr ?_⟩
          exact hmoved.imp id fun hthread => ⟨r, hr, hof.requestId_eq.symm, hthread⟩
        refine ⟨_, .fail "original binding or source is unavailable" hgone, ⟨hready, hgone⟩,
          some b, db, ⟨rfl, rfl⟩, ?_⟩
        simp only [if_neg hremoved, if_neg hon, Tx.bind_ok, Tx.query_ok, Tx.expect_ok]
        refine ⟨some r, db, ⟨hrow, rfl⟩, r, db, ⟨rfl, rfl⟩, ?_⟩
        simp only [if_pos hmoved]
        rfl
      have hsource : n.source ∈ b.sources := Decidable.of_not_not fun h => hmoved (Or.inl h)
      have haccepts : ∃ b, db.Accepts n.originalBinding n.source b :=
        ⟨b, hb, hname, Bool.eq_true_of_not_eq_false hon, hkept, hsource⟩
      cases hexisting : db.eventAt n.originalBinding n.source n.eventId with
      | some e =>
          obtain ⟨he, hstands⟩ := Table.find?_some hexisting
          refine ⟨_, .link he hstands, ⟨hready, haccepts, he, hstands⟩, some b, db,
            ⟨rfl, rfl⟩, ?_⟩
          simp only [if_neg hremoved, if_neg hon, Tx.bind_ok, Tx.query_ok, Tx.expect_ok]
          refine ⟨some r, db, ⟨hrow, rfl⟩, r, db, ⟨rfl, rfl⟩, ?_⟩
          simp only [if_neg hmoved, Tx.bind_ok, Tx.query_ok]
          exact ⟨some e, db, ⟨hexisting, rfl⟩, rfl⟩
      | none =>
          by_cases hfull : maxPending ≤ db.openEvents n.originalBinding ∨
              rateLimit ≤ db.recentEvents n.originalBinding now
          · refine ⟨_, .postpone hfull, hready, some b, db, ⟨rfl, rfl⟩, ?_⟩
            simp only [if_neg hremoved, if_neg hon, Tx.bind_ok, Tx.query_ok, Tx.expect_ok]
            refine ⟨some r, db, ⟨hrow, rfl⟩, r, db, ⟨rfl, rfl⟩, ?_⟩
            simp only [if_neg hmoved, Tx.bind_ok, Tx.query_ok]
            refine ⟨none, db, ⟨hexisting, rfl⟩, ?_⟩
            simp only [Tx.bind_ok, Tx.query_ok]
            refine ⟨_, db, ⟨rfl, rfl⟩, _, db, ⟨rfl, rfl⟩, ?_⟩
            simp only [if_pos hfull]
            rfl
          · have hadmits := noticeEvent_admits now hdb hfresh hexisting
            have hroom : db.RoomFor crates n.originalBinding none now :=
              ⟨Nat.lt_of_not_le fun h => hfull (Or.inl h),
                Nat.lt_of_not_le fun h => hfull (Or.inr h), 0, Nat.succ_pos 15, rfl⟩
            refine ⟨_, .deliver, ⟨hready, haccepts, ⟨hadmits, rfl, uuid, rfl, rfl⟩, rfl, rfl, rfl,
              rfl, rfl, rfl, rfl, hroom⟩, some b, db, ⟨rfl, rfl⟩, ?_⟩
            simp only [if_neg hremoved, if_neg hon, Tx.bind_ok, Tx.query_ok, Tx.expect_ok]
            refine ⟨some r, db, ⟨hrow, rfl⟩, r, db, ⟨rfl, rfl⟩, ?_⟩
            simp only [if_neg hmoved, Tx.bind_ok, Tx.query_ok]
            refine ⟨none, db, ⟨hexisting, rfl⟩, ?_⟩
            simp only [Tx.bind_ok, Tx.query_ok]
            refine ⟨_, db, ⟨rfl, rfl⟩, _, db, ⟨rfl, rfl⟩, ?_⟩
            simp only [if_neg hfull, Tx.bind_ok, insertEvent_ok, Tx.write_ok, Tx.pure_ok]
            exact ⟨(), _, ⟨hadmits, rfl⟩, (), _, rfl, trivial, rfl⟩

end candidate

/-! ## What a served candidate leaves behind -/

/-- Another notification that waits, and whose turn comes before that of `n` or with it. -/
def RequestNotification.Ahead (n m : RequestNotification) : Prop :=
  m.state = .pending ∧ m.deliveryId = none ∧ m.notificationId ≠ n.notificationId ∧ noticeOrder m n

instance (n : RequestNotification) : DecidablePred n.Ahead :=
  fun _ => inferInstanceAs (Decidable (_ ∧ _))

/-- … and whose route is that of `n`. -/
def RequestNotification.AheadOnRoute (n m : RequestNotification) : Prop :=
  n.Ahead m ∧ m.originalBinding = n.originalBinding

instance (n : RequestNotification) : DecidablePred n.AheadOnRoute :=
  fun _ => inferInstanceAs (Decidable (_ ∧ _))

/-- The notifications in front of `n`, of any route. -/
def Db.ahead (db : Db) (n : RequestNotification) : Nat :=
  db.requestNotifications.count n.Ahead

/-- The notifications in front of `n` that belong to its own route. -/
def Db.aheadOnRoute (db : Db) (n : RequestNotification) : Nat :=
  db.requestNotifications.count n.AheadOnRoute

/-- The notification has been given an event that stands in its place. -/
def Db.HasEvent (db : Db) (n : RequestNotification) : Prop :=
  ∃ m ∈ db.requestNotifications, m.notificationId = n.notificationId ∧
    ∃ e ∈ db.events, m.deliveryId = some e.id ∧ e.StandsFor n

/-- A notification that waits for a run at `now`, with room on its route for itself and for what
stands in front of it there. -/
structure Db.Awaits (crates : Crates) (db : Db) (n : RequestNotification) (now : Rat) : Prop where
  lineage : db.Lineage crates
  ready : db.Ready n
  due : n.nextAt ≤ now
  accepts : ∃ b, db.Accepts n.originalBinding n.source b
  open_lt : db.openEvents n.originalBinding + db.aheadOnRoute n < maxPending
  recent_lt : db.recentEvents n.originalBinding now + db.aheadOnRoute n < rateLimit

namespace Entry.Serves

variable {crates : Crates} {db : Db} {uuid : Uuid} {now : Rat} {k : Entry}
  {m n x : RequestNotification}

theorem bindings_eq (h : k.Serves db uuid now m) :
    (k.apply crates db).bindings = db.bindings := by
  cases h with
  | fail | link | postpone | deliver => rfl

theorem newNotice_eq (h : k.Serves db uuid now m) : k.newNotice? crates = none := by
  cases h with
  | fail | link | postpone | deliver => rfl

theorem requests_eq (h : k.Serves db uuid now m) :
    (k.apply crates db).requests = db.requests := by
  cases h with
  | fail | link | postpone | deliver => rfl

/-- No stored event changes, and a new one is named by the identifier at hand. -/
theorem rows_events (h : k.Serves db uuid now m) (hk : k.Enabled crates db) :
    ∃ new : Option Event, (∀ e ∈ new, e.id = uuid.text ∧ e.binding = m.originalBinding) ∧
      (k.apply crates db).events.rows = db.events.rows ++ new.toList := by
  have hrows := Entry.rows_events hk
  cases h with
  | deliver =>
      refine ⟨some (noticeEvent db uuid now m), ?_, ?_⟩
      · intro e he
        obtain rfl := Option.mem_some_iff.mp he
        exact ⟨rfl, rfl⟩
      · have hsame : (Entry.deliver m (noticeEvent db uuid now m) now).onEvent = id := rfl
        rw [hrows, hsame, List.map_id]
        rfl
  | fail | link | postpone => exact ⟨none, by simp, by simp [Entry.apply]; rfl⟩

/-- Every other notification stays as it is. -/
theorem onNotice_other (h : k.Serves db uuid now m) (hx : x.notificationId ≠ m.notificationId) :
    k.onNotice db x = x := by
  cases h with
  | fail | link | postpone | deliver => exact if_neg fun hmatch => hx hmatch.1

/-- The candidate is not in front of anything that is due: it is settled, linked or postponed. -/
theorem not_ahead (h : k.Serves db uuid now m) (hm : m.state = .pending) (hdue : n.nextAt ≤ now) :
    ¬ n.Ahead (k.onNotice db m) := by
  intro hahead
  obtain ⟨hpending, hunlinked, _, horder⟩ := hahead
  cases h with
  | fail error hgone => simp [Entry.onNotice, hm] at hpending
  | link he hstands => simp [Entry.onNotice, hm] at hunlinked
  | deliver => simp [Entry.onNotice, hm] at hunlinked
  | postpone hfull =>
      have hlate : n.nextAt < now + 1 := lt_of_le_of_lt hdue (lt_add_one now)
      simp only [Entry.onNotice, hm, and_self, if_true, noticeOrder] at horder
      rcases horder with hlt | ⟨heq, _⟩
      · exact absurd hlt (not_lt.mpr hlate.le)
      · exact absurd heq hlate.ne'

/-- What is in front of `n` afterwards was in front of it before. -/
theorem ahead_of_ahead (h : k.Serves db uuid now m) (hready : db.Ready m)
    (hdue : n.nextAt ≤ now) (hx : x ∈ db.requestNotifications)
    (hahead : n.Ahead (k.onNotice db x)) : n.Ahead x := by
  by_cases hid : x.notificationId = m.notificationId
  · obtain rfl := RequestNotification.eq_of_id hx hready.mem hid
    exact absurd hahead (h.not_ahead hready.pending hdue)
  · rwa [h.onNotice_other hid] at hahead

theorem rows_notices (h : k.Serves db uuid now m) (hk : k.Enabled crates db) :
    (k.apply crates db).requestNotifications.rows =
      db.requestNotifications.rows.map (k.onNotice db) := by
  rw [Entry.rows_notices hk, h.newNotice_eq]
  exact List.append_nil _

/-- Serving what is in front of `n` leaves one less in front of it. -/
theorem ahead_lt (h : k.Serves db uuid now m) (hk : k.Enabled crates db) (hready : db.Ready m)
    (hdue : n.nextAt ≤ now) (hm : n.Ahead m) : (k.apply crates db).ahead n < db.ahead n := by
  unfold Db.ahead Table.count
  rw [h.rows_notices hk]
  exact countP_map_lt (fun x hx => h.ahead_of_ahead hready hdue hx) hready.mem hm
    (h.not_ahead hready.pending hdue)

/-- A route's events, of any kind, and what is in front of `n` on it: an event that is stored there
was in front of `n` before. -/
theorem route_le {q : Event → Prop} [DecidablePred q] (h : k.Serves db uuid now m)
    (hk : k.Enabled crates db) (hready : db.Ready m) (hdue : n.nextAt ≤ now) (hm : n.Ahead m)
    (hq : ∀ e, q e → e.binding = n.originalBinding) :
    (k.apply crates db).events.count q + (k.apply crates db).aheadOnRoute n ≤
      db.events.count q + db.aheadOnRoute n := by
  obtain ⟨new, hnew, hevents⟩ := h.rows_events hk
  have hkept : ∀ x ∈ db.requestNotifications.rows,
      n.AheadOnRoute (k.onNotice db x) → n.AheadOnRoute x := by
    intro x hx hon
    obtain ⟨hahead, hroute⟩ := hon
    have hkey := (RequestNotification.key_eq (k.onNotice_key db x)).2.2.2.2.1
    exact ⟨h.ahead_of_ahead hready hdue hx hahead, hkey.symm.trans hroute⟩
  unfold Db.aheadOnRoute Table.count
  rw [hevents, h.rows_notices hk, List.countP_append]
  by_cases hroute : m.originalBinding = n.originalBinding
  · have hlt := countP_map_lt hkept hready.mem ⟨hm, hroute⟩
      fun hdrop => h.not_ahead hready.pending hdue hdrop.1
    have hone : new.toList.countP (fun e => decide (q e)) ≤ 1 := by
      refine le_trans List.countP_le_length ?_
      cases new with
      | none => simp
      | some e => simp
    omega
  · have hle := countP_map_le hkept
    have hzero : new.toList.countP (fun e => decide (q e)) = 0 := by
      refine List.countP_eq_zero.mpr fun e he hqe => ?_
      have hbinding := (hnew e (Option.mem_toList.mp he)).2
      exact hroute (hbinding.symm.trans (hq e (of_decide_eq_true hqe)))
    omega

/-- A stored event is one of before, or it is named by the identifier at hand. -/
theorem event_old_or_new (h : k.Serves db uuid now m) (hk : k.Enabled crates db) {e : Event}
    (he : e ∈ (k.apply crates db).events) : e ∈ db.events ∨ e.id = uuid.text := by
  obtain ⟨new, hnew, hevents⟩ := h.rows_events hk
  rw [Table.mem_def, hevents, List.mem_append] at he
  exact he.imp id fun hlast => (hnew e (Option.mem_toList.mp hlast)).1

/-- The other candidates stay ready. -/
theorem ready (h : k.Serves db uuid now m) (hx : db.Ready x)
    (hne : x.notificationId ≠ m.notificationId) : (k.apply crates db).Ready x := by
  cases h with
  | fail | link | postpone => exact hx.setNotice hne
  | deliver =>
      have hstored : ((Entry.store (noticeEvent db uuid now m)).apply crates db).Ready x :=
        ⟨hx.mem, hx.pending, hx.unlinked, hx.first⟩
      exact hstored.setNotice hne

/-- A notification keeps waiting while one in front of it is served. -/
theorem awaits (h : k.Serves db uuid now m) (hk : k.Enabled crates db) (hm : n.Ahead m)
    (hready : db.Ready m) (hw : db.Awaits crates n now) :
    (k.apply crates db).Awaits crates n now where
  lineage := hw.lineage.apply hk
  ready := h.ready hw.ready hm.2.2.1.symm
  due := hw.due
  accepts := by
    obtain ⟨b, hb⟩ := hw.accepts
    refine ⟨b, ?_⟩
    unfold Db.Accepts
    rw [h.bindings_eq]
    exact hb
  open_lt := lt_of_le_of_lt (h.route_le hk hready hw.due hm fun _ hq => hq.1) hw.open_lt
  recent_lt := lt_of_le_of_lt (h.route_le hk hready hw.due hm fun _ hq => hq.1) hw.recent_lt

end Entry.Serves

/-! ## An event of its own -/

section event

variable {crates : Crates} {db t : Db} {uuid : Uuid} {now : Rat} {k : Entry}
  {n : RequestNotification}

/-- An event stays with its notification. -/
theorem Db.HasEvent.apply (h : db.HasEvent n) (hk : k.Enabled crates db) :
    (k.apply crates db).HasEvent n := by
  obtain ⟨m, hm, hid, e, he, hlink, hstands⟩ := h
  refine ⟨k.onNotice db m, (Entry.mem_notices hk).mpr (Or.inl ⟨m, hm, rfl⟩), ?_, k.onEvent e,
    (Entry.mem_events hk).mpr (Or.inl ⟨e, he, rfl⟩), ?_, ?_⟩
  · exact (RequestNotification.key_eq (k.onNotice_key db m)).1.trans hid
  · have hevent : (k.onEvent e).id = e.id := (Event.key_eq (k.onEvent_key e)).2.1
    rcases Entry.deliveryId_cases hk hm with hsame | ⟨hnone, _⟩
    · rw [hsame, hlink, hevent]
    · rw [hlink] at hnone
      cases hnone
  · obtain ⟨_, _, _, hbinding, hsource, heventId, _⟩ := Event.key_eq (k.onEvent_key e)
    exact ⟨hbinding.trans hstands.1, hsource.trans hstands.2.1, heventId.trans hstands.2.2⟩

/-- A route that accepts a notification is its request's, so the notification is not failed. -/
theorem Db.Awaits.deliverable (h : db.Awaits crates n now) : ¬ db.Undeliverable n := by
  obtain ⟨b, hb, hname, _, hkept, hsource⟩ := h.accepts
  rintro (hnone | ⟨c, hc, hcname, hgone⟩)
  · exact hnone b hb hname
  obtain rfl := Binding.eq_of_name hb hc (hname.trans hcname.symm)
  rcases hgone with hremoved | hforeign | ⟨r, hr, hid, hthread⟩
  · rw [hkept] at hremoved
    cases hremoved
  · exact hforeign hsource
  · have hof := h.lineage.request_of_notice h.ready.mem hr hid.symm
    obtain ⟨c, hc, hroute, hown, _⟩ := h.lineage.request_routed r hr
    obtain rfl := Binding.eq_of_name hb hc (hname.trans (hof.binding_eq.trans hroute.symm))
    exact hthread hown.symm

/-- When its turn comes, a notification that waits with room on its route gets its event. -/
theorem Entry.Serves.hasEvent (h : k.Serves db uuid now n) (hk : k.Enabled crates db)
    (hw : db.Awaits crates n now) : (k.apply crates db).HasEvent n := by
  have hmem : k.onNotice db n ∈ (k.apply crates db).requestNotifications :=
    (Entry.mem_notices hk).mpr (Or.inl ⟨n, hw.ready.mem, rfl⟩)
  have hkey := RequestNotification.key_eq (k.onNotice_key db n)
  have hlink : ∃ id, (k.onNotice db n).deliveryId = some id := by
    cases h with
    | fail error hgone => exact absurd hgone hw.deliverable
    | @link e he hstands => exact ⟨e.id, by simp [Entry.onNotice, hw.ready.pending]⟩
    | deliver =>
        exact ⟨uuid.text, by simp [Entry.onNotice, hw.ready.pending, noticeEvent, newEvent]⟩
    | postpone hfull =>
        have hopen := hw.open_lt
        have hrecent := hw.recent_lt
        omega
  obtain ⟨id, hid⟩ := hlink
  obtain ⟨e, he, rfl, hstands⟩ := (hw.lineage.apply hk).linked _ hmem id hid
  refine ⟨_, hmem, hkey.1, e, he, hid, ?_⟩
  obtain ⟨_, _, _, _, hbinding, hsource, heventId, _⟩ := hkey
  exact ⟨hstands.1.trans hbinding, hstands.2.1.trans hsource, hstands.2.2.trans heventId⟩

end event

/-! ## One run -/

/-- The `i`-th candidate of a run is served. -/
def Serving (crates : Crates) (uuids : Nat → Uuid) (now : Rat) (i : Nat)
    (n : RequestNotification) (db t : Db) : Prop :=
  ∃ k : Entry, k.Serves db (uuids i) now n ∧ k.Enabled crates db ∧ db.Ready n ∧
    k.apply crates db = t

/-- The first `limit` of some identifiers are new: no event has one of them, and no two are the
same. -/
structure NewUuids (limit : Nat) (uuids : Nat → Uuid) (db : Db) : Prop where
  unused : ∀ j < limit, ∀ e ∈ db.events, e.id ≠ (uuids j).text
  distinct : ∀ i j, i < j → j < limit → (uuids i).text ≠ (uuids j).text

section run

variable {crates : Crates} {uuids : Nat → Uuid} {now : Rat} {limit : Nat} {db t : Db}
  {n : RequestNotification}

variable (now) in
/-- The loop serves the front of its batch, as far as the limit goes. -/
theorem transferLoop_serves {batch : List RequestNotification} {i : Nat}
    (hdb : db.Lineage crates) (hready : ∀ m ∈ batch, db.Ready m)
    (hopen : ∀ m ∈ batch, ¬ db.Paused m)
    (hdistinct : batch.Pairwise fun a b => a.notificationId ≠ b.notificationId)
    (hunused : ∀ j, i ≤ j → j < limit → ∀ e ∈ db.events, e.id ≠ (uuids j).text)
    (hnew : ∀ i j, i < j → j < limit → (uuids i).text ≠ (uuids j).text) :
    ∃ done t, (transferLoop uuids now limit batch i i).run db = (.ok done, t) ∧
      Backlog.Served (Serving crates uuids now) i (batch.take (limit - i)) db t := by
  induction batch generalizing i db with
  | nil => exact ⟨i, db, rfl, by rw [List.take_nil]; exact .nil i db⟩
  | cons m rest ih =>
      by_cases hlimit : limit ≤ i
      · refine ⟨i, db, ?_, ?_⟩
        · rw [transferLoop, if_pos hlimit]
          rfl
        · rw [Nat.sub_eq_zero_of_le hlimit, List.take_zero]
          exact .nil i db
      · have hm := hready m List.mem_cons_self
        obtain ⟨hhead, htail⟩ := List.pairwise_cons.mp hdistinct
        obtain ⟨k, hserves, hk, hrun⟩ := transferOne_serves now hdb hm
          (hopen m List.mem_cons_self) (hunused i (Nat.le_refl i) (by omega))
        have hready' : ∀ x ∈ rest, (k.apply crates db).Ready x := fun x hx =>
          hserves.ready (hready x (List.mem_cons_of_mem m hx)) (hhead x hx).symm
        have hopen' : ∀ x ∈ rest, ¬ (k.apply crates db).Paused x := by
          intro x hx
          unfold Db.Paused
          rw [hserves.bindings_eq]
          exact hopen x (List.mem_cons_of_mem m hx)
        have hunused' : ∀ j, i + 1 ≤ j → j < limit → ∀ e ∈ (k.apply crates db).events,
            e.id ≠ (uuids j).text := by
          intro j hj hlt e he
          rcases hserves.event_old_or_new hk he with hold | hid
          · exact hunused j (by omega) hlt e hold
          · rw [hid]
            exact hnew i j (by omega) hlt
        obtain ⟨done, t, hloop, hserved⟩ := ih (hdb.apply hk) hready' hopen' htail hunused'
        refine ⟨done, t, ?_, ?_⟩
        · rw [transferLoop, if_neg hlimit]
          exact Tx.bind_ok.mpr ⟨1, _, hrun, hloop⟩
        · rw [show limit - i = limit - (i + 1) + 1 by omega, List.take_succ_cons]
          exact .cons ⟨k, hserves, hk, hm, rfl⟩ hserved

/-- Nothing expires while no request is due. -/
theorem expiryLoop_quiet (hquiet : ∀ r ∈ db.requests, ¬ r.Due now) (fuel : Nat) :
    (expiryLoop crates now limit fuel 0).run db = (.ok 0, db) := by
  have hnone : (db.dueRequests now).head? = none := by
    have hnil : db.dueRequests now = [] := Table.select_eq_nil.mpr hquiet
    rw [hnil]
    rfl
  cases fuel with
  | zero => rfl
  | succ fuel =>
      rw [expiryLoop]
      by_cases hlimit : limit ≤ 0
      · rw [if_pos hlimit]
        rfl
      · rw [if_neg hlimit]
        exact Tx.bind_ok.mpr ⟨none, db, by rw [← hnone]; rfl, rfl⟩

/-- The batch is wide enough for the whole limit. -/
theorem candidates_take (hlimit : limit ≤ maxRequestMaintenance) :
    (db.candidates now limit 0).take limit =
      (db.requestNotifications.select (db.Transferable now) noticeOrder).take limit := by
  have hwide : limit ≤ candidateLimit limit 0 := by
    unfold candidateLimit
    omega
  unfold Db.candidates
  rw [List.take_take, Nat.min_eq_left hwide]

/-- A run that finds work and nothing to expire serves the first notifications in the order of
their turns, as many as its limit allows. -/
theorem requestMaintenance_serves (hdb : db.Lineage crates)
    (hlimit : 1 ≤ limit ∧ limit ≤ maxRequestMaintenance)
    (hquiet : ∀ r ∈ db.requests, ¬ r.Due now) (hneeded : db.workNeeded now)
    (hnew : NewUuids limit uuids db) :
    ∃ done t, (requestMaintenance crates limit uuids now).run db = (.ok done, t) ∧
      Backlog.Served (Serving crates uuids now) 0
        ((db.requestNotifications.select (db.Transferable now) noticeOrder).take limit) db t := by
  have hready : ∀ m ∈ db.candidates now limit 0, db.Ready m := candidates_ready.1
  have hdistinct : (db.candidates now limit 0).Pairwise fun a b =>
      a.notificationId ≠ b.notificationId := candidates_ready.2
  have hopen : ∀ m ∈ db.candidates now limit 0, ¬ db.Paused m := fun m hm =>
    (Table.mem_select.mp (List.mem_of_mem_take hm)).2.2.2.2.1
  obtain ⟨done, t, hrun, hserved⟩ := transferLoop_serves now hdb hready hopen hdistinct
    (fun j _ hj => hnew.unused j hj) hnew.distinct
  rw [Nat.sub_zero, candidates_take hlimit.2] at hserved
  refine ⟨done, t, ?_, hserved⟩
  simp only [requestMaintenance, Tx.bind_ok, bailIf_run_ok, Tx.query_ok]
  refine ⟨(), db, ⟨not_not.mpr hlimit, rfl⟩, true, db, ⟨decide_eq_true hneeded, rfl⟩, ?_⟩
  rw [if_neg (by decide), withTx, Tx.atomically_ok, maintenanceTx]
  refine Tx.bind_ok.mpr ⟨0, db, expiryLoop_quiet hquiet limit, ?_⟩
  rw [if_neg (by omega)]
  exact Tx.bind_ok.mpr ⟨_, db, Tx.query_ok.mpr ⟨rfl, rfl⟩, hrun⟩

end run

/-! ## The order of the turns -/

instance : Std.Total noticeOrder where
  total a b := by
    unfold noticeOrder
    rcases lt_trichotomy a.nextAt b.nextAt with hlt | heq | hlt
    · exact Or.inl (Or.inl hlt)
    · rcases le_total a.created b.created with hle | hle
      · exact Or.inl (Or.inr ⟨heq, hle⟩)
      · exact Or.inr (Or.inr ⟨heq.symm, hle⟩)
    · exact Or.inr (Or.inl hlt)

instance : IsTrans RequestNotification noticeOrder where
  trans a b c hab hbc := by
    unfold noticeOrder at *
    rcases hab with hab | ⟨hab, hab'⟩
    · rcases hbc with hbc | ⟨hbc, _⟩
      · exact Or.inl (lt_trans hab hbc)
      · exact Or.inl (hbc ▸ hab)
    · rcases hbc with hbc | ⟨hbc, hbc'⟩
      · exact Or.inl (hab ▸ hbc)
      · exact Or.inr ⟨hab.trans hbc, le_trans hab' hbc'⟩

section round

variable {crates : Crates} {uuids : Nat → Uuid} {now : Rat} {limit : Nat} {db : Db}
  {n : RequestNotification}

/-- The notifications in the order of their turns, no two with one id. -/
theorem select_ordered {p : RequestNotification → Prop} [DecidablePred p] :
    (db.requestNotifications.select p noticeOrder).Pairwise fun a b =>
      noticeOrder a b ∧ a.notificationId ≠ b.notificationId := by
  refine List.Pairwise.and (List.pairwise_insertionSort _ _) ?_
  exact Table.select_pairwise Ne.symm (db.requestNotifications.fits.imp fun h => h.1)

/-- A notification that awaits a run is one of those the run may transfer. -/
theorem Db.Awaits.transferable (h : db.Awaits crates n now) : db.Transferable now n := by
  refine ⟨h.ready.pending, h.ready.unlinked, h.due, ?_, h.ready.first⟩
  obtain ⟨b, hb, hname, hon, hkept, _⟩ := h.accepts
  intro hpaused
  obtain ⟨c, hc, hcname, hoff, _⟩ := hpaused
  obtain rfl := Binding.eq_of_name hb hc (hname.trans hcname.symm)
  rw [hon] at hoff
  cases hoff

theorem Db.Awaits.workNeeded (h : db.Awaits crates n now) : db.workNeeded now := by
  obtain ⟨b, hb, hname, hon, _⟩ := h.accepts
  exact Or.inr ⟨n, h.ready.mem, h.ready.pending, h.ready.unlinked, h.due,
    Or.inr ⟨b, hb, hname, Or.inl hon⟩⟩

/-- One run gives a waiting notification its event, or takes its whole limit from what stands in
front of it. -/
theorem Db.Awaits.round (h : db.Awaits crates n now)
    (hlimit : 1 ≤ limit ∧ limit ≤ maxRequestMaintenance)
    (hquiet : ∀ r ∈ db.requests, ¬ r.Due now) (hnew : NewUuids limit uuids db) :
    ∃ t, (Op.requestMaintenance limit uuids now).step crates db = t ∧ t.requests = db.requests ∧
      (∀ e ∈ t.events, e ∈ db.events ∨ ∃ j < limit, e.id = (uuids j).text) ∧
      (t.HasEvent n ∨ t.Awaits crates n now ∧ t.ahead n + limit ≤ db.ahead n) := by
  obtain ⟨done, t, hrun, hserved⟩ :=
    requestMaintenance_serves h.lineage hlimit hquiet h.workNeeded hnew
  have hmem : n ∈ db.requestNotifications.select (db.Transferable now) noticeOrder :=
    Table.mem_select.mpr ⟨h.ready.mem, h.transferable⟩
  have hahead : ∀ m ∈ (db.requestNotifications.select (db.Transferable now) noticeOrder).take limit,
      noticeOrder m n ∧ m.notificationId ≠ n.notificationId → n.Ahead m := by
    intro m hm hbefore
    obtain ⟨_, hpending, hunlinked, _⟩ := Table.mem_select.mp (List.mem_of_mem_take hm)
    exact ⟨hpending, hunlinked, hbefore.2, hbefore.1⟩
  have htake := Backlog.take_cases select_ordered hmem limit
  have hlength := List.length_take_le limit
    (db.requestNotifications.select (db.Transferable now) noticeOrder)
  generalize (db.requestNotifications.select (db.Transferable now) noticeOrder).take limit = batch
    at hserved hahead htake hlength
  refine ⟨t, step_of_run rfl hrun, ?_, ?_, ?_⟩
  · refine hserved.invariant (P := fun _ s => s.requests = db.requests) ?_ rfl
    rintro j m s u hm _ _ ⟨k, hserves, _, _, rfl⟩ hs
    exact hserves.requests_eq.trans hs
  · have hevents := hserved.invariant
      (P := fun j s => ∀ e ∈ s.events, e ∈ db.events ∨ ∃ i < j, e.id = (uuids i).text) ?_
      fun e he => Or.inl he
    · intro e he
      rcases hevents e he with hold | ⟨j, hj, hid⟩
      · exact Or.inl hold
      · exact Or.inr ⟨j, by omega, hid⟩
    · rintro j m s u hm _ _ ⟨k, hserves, hk, _, rfl⟩ hs e he
      rcases hserves.event_old_or_new hk he with hold | hid
      · rcases hs e hold with hold | ⟨i, hi, hid⟩
        · exact Or.inl hold
        · exact Or.inr ⟨i, by omega, hid⟩
      · exact Or.inr ⟨j, by omega, hid⟩
  · rcases htake with ⟨front, back, rfl, hfront⟩ | ⟨hfull, hfront⟩
    · -- the run reaches `n` behind some of what stands in front of it
      obtain ⟨s, hbefore, hrest⟩ := hserved.of_append
      have hs : s.Awaits crates n now := by
        refine hbefore.invariant (P := fun _ s => s.Awaits crates n now) ?_ h
        rintro j m s u hm _ _ ⟨k, hserves, hk, hready, rfl⟩ hw
        exact hserves.awaits hk
          (hahead m (List.mem_append_left _ hm) (hfront m hm)) hready hw
      cases hrest with
      | cons first rest =>
          obtain ⟨k, hserves, hk, _, rfl⟩ := first
          refine Or.inl (rest.invariant (P := fun _ s => s.HasEvent n) ?_ (hserves.hasEvent hk hs))
          rintro j m s u hm _ _ ⟨k, _, hk, _, rfl⟩ hw
          exact hw.apply hk
    · -- the whole run goes to what stands in front of it
      have hfalls := hserved.invariant
        (P := fun j s => s.Awaits crates n now ∧ s.ahead n + j ≤ db.ahead n) ?_
        ⟨h, Nat.le_refl _⟩
      · rw [hfull, Nat.zero_add] at hfalls
        exact Or.inr hfalls
      · rintro j m s u hm _ _ ⟨k, hserves, hk, hready, rfl⟩ ⟨hw, hle⟩
        have hm' := hahead m hm (hfront m hm)
        have hlt := hserves.ahead_lt hk hready hw.due hm'
        exact ⟨hserves.awaits hk hm' hready hw, by omega⟩

end round

/-! ## Run after run -/

/-- `request_maintenance(limit)` called again and again, and no other operation in between. -/
def Db.maintained (crates : Crates) (limit : Nat) (uuids : Nat → Nat → Uuid) (now : Nat → Rat)
    (db : Db) : Nat → Db
  | 0 => db
  | i + 1 => (Op.requestMaintenance limit (uuids i) (now i)).step crates
      (db.maintained crates limit uuids now i)

/-- The identifiers that some calls draw are new: no event has one of them, and no two are the
same. -/
structure NewUuidsOf (calls limit : Nat) (uuids : Nat → Nat → Uuid) (db : Db) : Prop where
  unused : ∀ i < calls, ∀ j < limit, ∀ e ∈ db.events, e.id ≠ (uuids i j).text
  distinct : ∀ i < calls, ∀ j < limit, ∀ i' < calls, ∀ j' < limit,
    (uuids i j).text = (uuids i' j').text → i = i' ∧ j = j'

section runs

variable {crates : Crates} {limit calls : Nat} {uuids : Nat → Nat → Uuid} {now : Nat → Rat}
  {db : Db} {n : RequestNotification}

/-- What is still true before the `i`-th call when the notification has not got its event. -/
structure Db.AwaitsCall (crates : Crates) (limit : Nat) (uuids : Nat → Nat → Uuid)
    (now : Nat → Rat) (db : Db) (n : RequestNotification) (i : Nat) : Prop where
  awaits : (db.maintained crates limit uuids now i).Awaits crates n (now i)
  requests_eq : (db.maintained crates limit uuids now i).requests = db.requests
  events : ∀ e ∈ (db.maintained crates limit uuids now i).events,
    e ∈ db.events ∨ ∃ i' < i, ∃ j < limit, e.id = (uuids i' j).text

/-- The next call's identifiers are new to the events of the calls before it. -/
theorem Db.AwaitsCall.newUuids {i : Nat} (h : db.AwaitsCall crates limit uuids now n i)
    (hi : i < calls) (hnew : NewUuidsOf calls limit uuids db) :
    NewUuids limit (uuids i) (db.maintained crates limit uuids now i) where
  unused j hj e he hid := by
    rcases h.events e he with hold | ⟨i', hi', j', hj', hid'⟩
    · exact hnew.unused i hi j hj e hold hid
    · have hsame := hnew.distinct i hi j hj i' (by omega) j' hj' (hid.symm.trans hid')
      omega
  distinct j j' hlt hj' htext := by
    have hsame := hnew.distinct i hi j (by omega) i hi j' hj' htext
    omega

/-- A later clock asks no more of a notification. -/
theorem Db.Awaits.later {t : Rat} {t' : Rat} (h : db.Awaits crates n t) (htt' : t ≤ t') :
    db.Awaits crates n t' where
  lineage := h.lineage
  ready := h.ready
  due := le_trans h.due htt'
  accepts := h.accepts
  open_lt := h.open_lt
  recent_lt := by
    have hle : db.recentEvents n.originalBinding t' ≤ db.recentEvents n.originalBinding t := by
      unfold Db.recentEvents Table.count
      refine List.countP_mono_left fun e _ hrecent => ?_
      obtain ⟨hbinding, hlt⟩ := of_decide_eq_true hrecent
      exact decide_eq_true ⟨hbinding, lt_of_le_of_lt (sub_le_sub_right htt' 60) hlt⟩
    have hlt := h.recent_lt
    omega

/-- A call, read from the state before the first. -/
theorem Db.AwaitsCall.next {i : Nat} (h : db.AwaitsCall crates limit uuids now n i)
    (hlimit : 1 ≤ limit ∧ limit ≤ maxRequestMaintenance) (hclock : Monotone now)
    (hquiet : ∀ r ∈ db.requests, ¬ r.Due (now i)) (hi : i < calls)
    (hnew : NewUuidsOf calls limit uuids db) :
    (db.maintained crates limit uuids now (i + 1)).HasEvent n ∨
      db.AwaitsCall crates limit uuids now n (i + 1) ∧
        (db.maintained crates limit uuids now (i + 1)).ahead n + limit ≤
          (db.maintained crates limit uuids now i).ahead n := by
  have hquiet' : ∀ r ∈ (db.maintained crates limit uuids now i).requests, ¬ r.Due (now i) := by
    rw [h.requests_eq]
    exact hquiet
  obtain ⟨t, hstep, hrequests, hevents, hround⟩ :=
    h.awaits.round hlimit hquiet' (h.newUuids hi hnew)
  have ht : db.maintained crates limit uuids now (i + 1) = t := hstep
  rw [ht]
  rcases hround with hdone | ⟨hawaits, hfalls⟩
  · exact Or.inl hdone
  refine Or.inr ⟨⟨?_, ?_, ?_⟩, hfalls⟩
  · rw [ht]
    exact hawaits.later (hclock (Nat.le_succ i))
  · rw [ht]
    exact hrequests.trans h.requests_eq
  · rw [ht]
    intro e he
    rcases hevents e he with hold | ⟨j, hj, hid⟩
    · rcases h.events e hold with hold | ⟨i', hi', hnamed⟩
      · exact Or.inl hold
      · exact Or.inr ⟨i', by omega, hnamed⟩
    · exact Or.inr ⟨i, by omega, j, hj, hid⟩

/-- An event stays with its notification over any call. -/
theorem Db.HasEvent.step (h : db.HasEvent n) (op : Op) : (op.step crates db).HasEvent n :=
  (op.commits crates db).invariant (P := fun d => d.HasEvent n) (fun _ _ _ hk hd => hd.apply hk) h

/-- A source of requests is on the binding of its route. -/
theorem Db.Lineage.accepts (hdb : db.Lineage crates) (hn : n ∈ db.requestNotifications)
    {b : Binding} (hb : b ∈ db.bindings) (hname : b.name = n.originalBinding)
    (hon : b.enabled = true) (hkept : b.removed = false) :
    db.Accepts n.originalBinding n.source b := by
  obtain ⟨r, hr, hof⟩ := hdb.notice_of n hn
  obtain ⟨c, hc, hroute, _, hsource⟩ := hdb.request_routed r hr
  obtain rfl := Binding.eq_of_name hb hc (hname.trans (hof.binding_eq.trans hroute.symm))
  exact ⟨hb, hname, hon, hkept, hof.source_eq ▸ hsource⟩

/-- Saturated, paused and removed routes do not starve a route with room: a pending notification
that is due, first of its request and without an event has one after `k / limit + 1` runs of
maintenance, when `k` pending ones stand in front of it or level with it, and its route has room
for those of them that are its own. -/
theorem saturated_routes_starve_none (hdb : Reachable crates db)
    (hlimit : 1 ≤ limit ∧ limit ≤ 100) (hclock : Monotone now)
    (hquiet : ∀ i ≤ db.ahead n / limit, ∀ r ∈ db.requests, ¬ r.Due (now i))
    (hnew : NewUuidsOf (db.ahead n / limit + 1) limit uuids db) (hn : db.Ready n)
    (hdue : n.nextAt ≤ now 0)
    (hroute : ∃ b ∈ db.bindings,
      b.name = n.originalBinding ∧ b.enabled = true ∧ b.removed = false)
    (hopen : db.openEvents n.originalBinding + db.aheadOnRoute n < maxPending)
    (hrecent : db.recentEvents n.originalBinding (now 0) + db.aheadOnRoute n < rateLimit) :
    (db.maintained crates limit uuids now (db.ahead n / limit + 1)).HasEvent n := by
  obtain ⟨b, hb, hname, hon, hkept⟩ := hroute
  have hstart : db.AwaitsCall crates limit uuids now n 0 :=
    ⟨⟨hdb.lineage, hn, hdue, ⟨b, hdb.lineage.accepts hn.mem hb hname hon hkept⟩, hopen, hrecent⟩,
      rfl, fun e he => Or.inl he⟩
  refine Backlog.served_within (db.AwaitsCall crates limit uuids now n)
    (fun i => (db.maintained crates limit uuids now i).HasEvent n)
    (fun i => (db.maintained crates limit uuids now i).ahead n) hlimit.1 hstart ?_
    fun i h => h.step _
  intro i hi hawaits
  exact hawaits.next hlimit hclock (hquiet i (Nat.lt_succ_iff.mp hi)) hi hnew

end runs

/-- Two routes, each with a request in progress; the notification of the second route came first. -/
def sampleSharedOps : List Op :=
  [.bind "deploy" "conversation-1" "shared-local" ["ci"],
    .bind "docs" "conversation-2" "shared-local" ["ci"],
    .ingest "deploy" (sampleEnvelope "build-1") (sampleUuid 1) 10,
    .ingest "docs" (sampleEnvelope "build-2") (sampleUuid 2) 11,
    .requestCreate "conversation-2" "ci" "job-2" (sampleUuid 2).text (.object []) none
      (sampleUuid 3) 12,
    .requestCreate "conversation-1" "ci" "job-1" (sampleUuid 1).text (.object []) none
      (sampleUuid 4) 13,
    .requestUpdate "conversation-2" "ci" "job-2" "started" "in_progress" none none 14,
    .requestUpdate "conversation-1" "ci" "job-1" "started" "in_progress" none none 15]

/-- The identifiers of two runs that store at most one event each. -/
def sampleRunUuids (i _j : Nat) : Uuid := if i = 0 then sampleUuid 5 else sampleUuid 6

/-- One notification stands in front, and two runs of one are enough. -/
theorem saturated_routes_starve_none_sample :
    ∃ n ∈ (Db.after sampleCrates sampleSharedOps).requestNotifications,
      n.originalBinding = "deploy" ∧ (Db.after sampleCrates sampleSharedOps).ahead n = 1 ∧
        ((Db.after sampleCrates sampleSharedOps).maintained sampleCrates 1 sampleRunUuids
          (fun _ => 20) ((Db.after sampleCrates sampleSharedOps).ahead n / 1 + 1)).HasEvent n := by
  have hnotice : ∃ n ∈ (Db.after sampleCrates sampleSharedOps).requestNotifications.rows,
      n.originalBinding = "deploy" ∧ (Db.after sampleCrates sampleSharedOps).ahead n = 1 ∧
        (n.state = .pending ∧ n.deliveryId = none ∧
          (Db.after sampleCrates sampleSharedOps).NoEarlierNotice n) ∧ n.nextAt ≤ 20 ∧
        (∃ b ∈ (Db.after sampleCrates sampleSharedOps).bindings.rows,
          b.name = n.originalBinding ∧ b.enabled = true ∧ b.removed = false) ∧
        (Db.after sampleCrates sampleSharedOps).openEvents n.originalBinding +
          (Db.after sampleCrates sampleSharedOps).aheadOnRoute n < maxPending ∧
        (Db.after sampleCrates sampleSharedOps).recentEvents n.originalBinding 20 +
          (Db.after sampleCrates sampleSharedOps).aheadOnRoute n < rateLimit := by
    decide +kernel
  obtain ⟨n, hn, hname, hahead, ⟨hpending, hunlinked, hfirst⟩, hdue, hroute, hopen, hrecent⟩ :=
    hnotice
  have hquiet : ∀ r ∈ (Db.after sampleCrates sampleSharedOps).requests.rows, ¬ r.Due 20 := by
    decide
  have hunused : ∀ i < 2, ∀ j < 1, ∀ e ∈ (Db.after sampleCrates sampleSharedOps).events.rows,
      e.id ≠ (sampleRunUuids i j).text := by
    decide
  have hdistinct : ∀ i < 2, ∀ i' < 2,
      (sampleRunUuids i 0).text = (sampleRunUuids i' 0).text → i = i' := by
    decide
  have hnew : NewUuidsOf ((Db.after sampleCrates sampleSharedOps).ahead n / 1 + 1) 1 sampleRunUuids
      (Db.after sampleCrates sampleSharedOps) := by
    rw [hahead]
    exact ⟨hunused, fun i hi j hj i' hi' j' hj' htext => ⟨hdistinct i hi i' hi' htext, by omega⟩⟩
  exact ⟨n, hn, hname, hahead, saturated_routes_starve_none (reachable_after _ _) (by decide)
    monotone_const (fun _ _ => hquiet) hnew ⟨hn, hpending, hunlinked, hfirst⟩ hdue hroute hopen
    hrecent⟩

end CodexMonitor
