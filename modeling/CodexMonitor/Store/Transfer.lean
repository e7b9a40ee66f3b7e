import CodexMonitor.Store.Commits.Calls
import CodexMonitor.Store.Lineage

/-!
# What a maintenance run transfers

The transfer loop walks a list it read before its first write, and it looks for an
event under a notification's id when that notification's turn comes.  Both are
answered here in terms of the database the run started from: the notifications it
touches are upcoming there, and an event it links one to was stored there.
-/

namespace CodexMonitor

open Transaction

/-- The notification of a request that expires now. -/
def expiryNotice (crates : Crates) (now : Rat) (r : Request) : RequestNotification :=
  newNotification crates r (requestExpiryId r.requestId r.revision) (r.revision + 1) .expired none
    now

/-- The notifications a maintenance run may transfer: those of the outbox whose turn it is, and
those of the requests it may expire first. -/
def Db.upcoming (crates : Crates) (db : Db) (now : Rat) : List RequestNotification :=
  (db.requestNotifications.rows ++ (db.dueRequests now).map (expiryNotice crates now)).filter
    (db.Transferable now)

/-- The entries of a maintenance run that starts from `db`. -/
inductive Maintains (crates : Crates) (db : Db) (uuids : Nat → Uuid) (now : Rat) : Entry → Prop
  | expire {r : Request} (hr : r ∈ db.requests) (hdue : r.Due now) :
      Maintains crates db uuids now
        (.transition r (requestExpiryId r.requestId r.revision) .expired none now)
  | failNotice {n : RequestNotification} {error : String} (hn : n ∈ db.upcoming crates now) :
      Maintains crates db uuids now (.failNotice n error now)
  | link {n : RequestNotification} {e : Event} (hn : n ∈ db.upcoming crates now)
      (hb : ∃ b, db.Accepts n.originalBinding n.source b) (he : e ∈ db.events)
      (hstands : e.StandsFor n) : Maintains crates db uuids now (.link n e now)
  | postpone {n : RequestNotification} (hn : n ∈ db.upcoming crates now) :
      Maintains crates db uuids now (.postpone n now)
  | deliver {n : RequestNotification} {e : Event} (i : Nat) (hn : n ∈ db.upcoming crates now)
      (hb : ∃ b, db.Accepts n.originalBinding n.source b) (hstands : e.StandsFor n)
      (hid : e.id = (uuids i).text) : Maintains crates db uuids now (.deliver n e now)

/-! ## The expiry loop -/

/-- Between `db` and `d` requests expired at `now`, and nothing else happened. -/
structure Expiring (crates : Crates) (now : Rat) (db d : Db) : Prop where
  events_eq : d.events = db.events
  bindings_eq : d.bindings = db.bindings
  kept : ∀ n ∈ db.requestNotifications, n ∈ d.requestNotifications
  notices : ∀ n ∈ d.requestNotifications,
    n ∈ db.requestNotifications ∨ ∃ r ∈ db.dueRequests now, n = expiryNotice crates now r
  requests : ∀ r ∈ d.requests, r ∈ db.requests ∨ r.state.isTerminal = true
  lineage : d.Lineage crates

section expiry

variable {crates : Crates} {now : Rat} {db d : Db}

theorem Db.mem_dueRequests {r : Request} :
    r ∈ db.dueRequests now ↔ r ∈ db.requests ∧ r.Due now :=
  Table.mem_select

theorem Expiring.refl (hdb : db.Lineage crates) : Expiring crates now db db where
  events_eq := rfl
  bindings_eq := rfl
  kept _ hn := hn
  notices _ hn := Or.inl hn
  requests _ hr := Or.inl hr
  lineage := hdb

/-- A request that is due in between was due at the start. -/
theorem Expiring.due (h : Expiring crates now db d) {r : Request} (hr : r ∈ d.requests)
    (hdue : r.Due now) : r ∈ db.requests := by
  rcases h.requests r hr with hold | hterminal
  · exact hold
  · rw [hdue.2] at hterminal
    cases hterminal

theorem Expiring.expire (h : Expiring crates now db d) {r : Request} (hdue : r.Due now)
    (hk : (Entry.transition r (requestExpiryId r.requestId r.revision) .expired none now).Enabled
      crates d) :
    Expiring crates now db
      ((Entry.transition r (requestExpiryId r.requestId r.revision) .expired none now).apply
        crates d) where
  events_eq := by
    rw [Entry.apply, Db.addNotice_frame]
    exact h.events_eq
  bindings_eq := by
    rw [Entry.apply, Db.addNotice_frame]
    exact h.bindings_eq
  kept n hn := (Entry.mem_notices hk).mpr (Or.inl ⟨n, h.kept n hn, rfl⟩)
  notices n hn := by
    rcases (Entry.mem_notices hk).mp hn with ⟨m, hm, rfl⟩ | hnew
    · exact h.notices m hm
    · have hold : r ∈ db.dueRequests now := Db.mem_dueRequests.mpr ⟨h.due hk.1 hdue, hdue⟩
      exact Or.inr ⟨r, hold, (Option.some.inj hnew).symm⟩
  requests q hq := by
    rcases (Entry.mem_requests hk).mp hq with ⟨p, hp, rfl⟩ | hnew
    · simp only [Entry.onRequest]
      split
      · exact Or.inr rfl
      · exact h.requests p hp
    · cases hnew
  lineage := h.lineage.apply hk

/-- The batch of the transfer loop was upcoming when the run started. -/
theorem Expiring.upcoming (h : Expiring crates now db d) {limit work : Nat}
    {n : RequestNotification} (hn : n ∈ d.candidates now limit work) :
    n ∈ db.upcoming crates now := by
  obtain ⟨hmem, hpending, hunlinked, hnext, hroute, hfirst⟩ :=
    Table.mem_select.mp (List.mem_of_mem_take hn)
  have htransferable : db.Transferable now n := by
    refine ⟨hpending, hunlinked, hnext, ?_, ?_⟩
    · rw [h.bindings_eq] at hroute
      exact hroute
    · rintro ⟨earlier, hearlier, hblocks⟩
      exact hfirst ⟨earlier, h.kept earlier hearlier, hblocks⟩
  refine List.mem_filter.mpr ⟨List.mem_append.mpr ?_, decide_eq_true htransferable⟩
  rcases h.notices n hmem with hold | ⟨r, hr, rfl⟩
  · exact Or.inl hold
  · exact Or.inr (List.mem_map_of_mem hr)

end expiry

/-! ## The transfer loop -/

/-- Between `d` and `u` notifications were transferred: every new event is one of theirs. -/
structure Transferring (crates : Crates) (d u : Db) : Prop where
  bindings_eq : u.bindings = d.bindings
  events : ∀ e ∈ u.events, e ∈ d.events ∨
    ∃ n ∈ u.requestNotifications, n.deliveryId = some e.id ∧ e.eventId = n.eventId
  lineage : u.Lineage crates

section transfer

variable {crates : Crates} {uuids : Nat → Uuid} {now : Rat} {db d u : Db} {k : Entry}

theorem Transferring.refl (hd : d.Lineage crates) : Transferring crates d d :=
  ⟨rfl, fun _ he => Or.inl he, hd⟩

/-- An event that a notification is linked to was there before the loop: a new one already
belongs to another notification. -/
theorem Transferring.linked (h : Transferring crates d u) {n : RequestNotification} {e : Event}
    (hk : (Entry.link n e now).Enabled crates u) : e ∈ d.events := by
  obtain ⟨hready, _, he, _, _, heventId⟩ := hk
  rcases h.events e he with hold | ⟨m, hm, hlink, hown⟩
  · exact hold
  · obtain rfl := h.lineage.notice_unique hm hready.mem (hown.symm.trans heventId)
    rw [hready.unlinked] at hlink
    cases hlink

theorem Transferring.transfer (h : Transferring crates d u) {batch : List RequestNotification}
    (hw : k.Transfers uuids now batch) (hk : k.Enabled crates u) :
    Transferring crates d (k.apply crates u) where
  bindings_eq := by
    obtain ⟨n, _, ⟨error, rfl⟩ | ⟨e, rfl⟩ | rfl | ⟨e, i, _, rfl⟩⟩ := hw
    all_goals exact h.bindings_eq
  events e he := by
    have hkept : ∀ m ∈ u.requestNotifications, ∀ f : Event, m.deliveryId = some f.id →
        f.eventId = m.eventId → ∃ n ∈ (k.apply crates u).requestNotifications,
          n.deliveryId = some f.id ∧ f.eventId = n.eventId := by
      intro m hm f hlink hown
      refine ⟨k.onNotice u m, (Entry.mem_notices hk).mpr (Or.inl ⟨m, hm, rfl⟩), ?_, ?_⟩
      · rcases Entry.deliveryId_cases hk hm with hsame | ⟨hnone, _⟩
        · rw [hsame, hlink]
        · rw [hlink] at hnone
          cases hnone
      · rw [hown, (RequestNotification.key_eq (k.onNotice_key u m)).2.2.2.2.2.2.1]
    rcases (Entry.mem_events hk).mp he with ⟨f, hf, rfl⟩ | hnew
    · have hsame : k.onEvent f = f := by
        obtain ⟨n, _, ⟨error, rfl⟩ | ⟨g, rfl⟩ | rfl | ⟨g, i, _, rfl⟩⟩ := hw
        all_goals rfl
      rw [hsame]
      rcases h.events f hf with hold | ⟨m, hm, hlink, hown⟩
      · exact Or.inl hold
      · exact Or.inr (hkept m hm f hlink hown)
    · obtain ⟨n, _, ⟨error, rfl⟩ | ⟨g, rfl⟩ | rfl | ⟨g, i, _, rfl⟩⟩ := hw
      · cases hnew
      · cases hnew
      · cases hnew
      · obtain rfl := Option.some.inj hnew
        refine Or.inr ⟨_, (Entry.mem_notices hk).mpr (Or.inl ⟨n, hk.1.mem, rfl⟩), ?_, ?_⟩
        · simp [Entry.onNotice, hk.1.pending]
        · rw [(RequestNotification.key_eq (Entry.onNotice_key u _ n)).2.2.2.2.2.2.1]
          exact hk.2.2.2.2.2.1
  lineage := h.lineage.apply hk

/-- A successful run of maintenance, read from the database it started from. -/
theorem requestMaintenance_maintains {limit done : Nat} {t : Db} (hdb : db.Lineage crates)
    (h : (requestMaintenance crates limit uuids now).run db = (.ok done, t)) :
    Commits crates (Maintains crates db uuids now) db t := by
  obtain ⟨d, work, hexpiry, htransfer⟩ := requestMaintenance_phases h
  obtain ⟨hexpiry, hd⟩ := hexpiry.refine (V := Maintains crates db uuids now)
    (P := Expiring crates now db) (by
      rintro k ⟨r, hdue, rfl⟩ c hk hc
      exact ⟨.expire (hc.due hk.1 hdue) hdue, hc.expire hdue hk⟩) (.refl hdb)
  obtain ⟨htransfer, _⟩ := htransfer.refine (V := Maintains crates db uuids now)
    (P := Transferring crates d) (by
      intro k hw u hk hu
      refine ⟨?_, hu.transfer hw hk⟩
      have haccepts : ∀ binding source b, u.Accepts binding source b →
          db.Accepts binding source b := by
        intro binding source b hb
        unfold Db.Accepts at hb
        rw [hu.bindings_eq, hd.bindings_eq] at hb
        exact hb
      obtain ⟨n, hn, ⟨error, rfl⟩ | ⟨e, rfl⟩ | rfl | ⟨e, i, hid, rfl⟩⟩ := hw
      · exact .failNotice (hd.upcoming hn)
      · have hold := hu.linked hk
        obtain ⟨_, ⟨b, hb⟩, _, hstands⟩ := hk
        exact .link (hd.upcoming hn) ⟨b, haccepts _ _ b hb⟩ (hd.events_eq ▸ hold) hstands
      · exact .postpone (hd.upcoming hn)
      · obtain ⟨_, ⟨b, hb⟩, _, hbinding, hsource, heventId, _⟩ := hk
        exact .deliver i (hd.upcoming hn) ⟨b, haccepts _ _ b hb⟩ ⟨hbinding, hsource, heventId⟩ hid)
      (.refl hd.lineage)
  exact hexpiry.trans htransfer

end transfer

/-! ## Squatted event ids -/

instance (e : Event) (n : RequestNotification) : Decidable (e.StandsFor n) :=
  inferInstanceAs (Decidable (_ ∧ _))

/-- An upcoming notification of a route that is still there finds an event under its own binding,
source and event id, and the two are in the relation `bad`. -/
def Db.Squatted (crates : Crates) (bad : Event → RequestNotification → Prop) (db : Db)
    (now : Rat) : Prop :=
  ∃ n ∈ db.upcoming crates now,
    (∃ b ∈ db.bindings.rows, b.name = n.originalBinding ∧ b.removed = false) ∧
      ∃ e ∈ db.events.rows, e.StandsFor n ∧ bad e n

instance (crates : Crates) (bad : Event → RequestNotification → Prop)
    [∀ e n, Decidable (bad e n)] (db : Db) (now : Rat) : Decidable (db.Squatted crates bad now) :=
  inferInstanceAs (Decidable (∃ n ∈ db.upcoming crates now, _))

/-- The call is a maintenance run that meets a squatted notification. -/
def Op.Squatted (crates : Crates) (bad : Event → RequestNotification → Prop) (db : Db) :
    Op → Prop
  | .requestMaintenance limit _ now =>
      (1 ≤ limit ∧ limit ≤ maxRequestMaintenance) ∧ db.Squatted crates bad now
  | _ => False

instance (crates : Crates) (bad : Event → RequestNotification → Prop)
    [∀ e n, Decidable (bad e n)] (db : Db) : ∀ op : Op, Decidable (op.Squatted crates bad db)
  | .requestMaintenance .. => inferInstanceAs (Decidable (_ ∧ _))
  | .bind .. | .routeAction .. | .ingest .. | .claim .. | .finish .. | .deferUnavailable ..
  | .recoverSubmitting .. | .watchCreate .. | .watchAction .. | .commitSample .. | .replyPut ..
  | .replyAck .. | .requestCreate .. | .requestUpdate .. => inferInstanceAs (Decidable False)

/-- What a call writes, when no maintenance run meets a squatted notification: entries of its own,
and no link to a bad event. -/
theorem commits_unsquatted {crates : Crates} {bad : Event → RequestNotification → Prop}
    {op : Op} {db : Db} (hdb : db.Lineage crates) (hok : ¬ op.Squatted crates bad db) :
    Commits crates (fun k => op.Writes crates k ∧
      ∀ n e now, k = .link n e now → ¬ bad e n) db (op.step crates db) := by
  rcases op.step_outcome crates db with hrun | hsame
  · by_cases hop : ∃ limit uuids now, op = .requestMaintenance limit uuids now
    · obtain ⟨limit, uuids, now, rfl⟩ := hop
      obtain ⟨done, hrun⟩ : ∃ done, (requestMaintenance crates limit uuids now).run db =
          (.ok done, (Op.requestMaintenance limit uuids now).step crates db) := by
        obtain ⟨done, _, hcall, hpure⟩ := Tx.bind_ok.mp hrun
        obtain ⟨_, hsame⟩ := Tx.pure_ok.mp hpure
        exact ⟨done, hsame ▸ hcall⟩
      have hlimit : 1 ≤ limit ∧ limit ≤ maxRequestMaintenance := by
        obtain ⟨_, _, hcheck, _⟩ := Tx.bind_ok.mp hrun
        exact Decidable.of_not_not (bailIf_run_ok.mp hcheck).1
      refine (requestMaintenance_maintains hdb hrun).mono fun k hk => ?_
      cases hk with
      | expire hr hdue => exact ⟨.expiry hdue, fun _ _ _ h => by cases h⟩
      | failNotice hn => exact ⟨.failNotice, fun _ _ _ h => by cases h⟩
      | postpone hn => exact ⟨.postpone, fun _ _ _ h => by cases h⟩
      | deliver i hn hb hstands hid => exact ⟨.deliver i hid, fun _ _ _ h => by cases h⟩
      | @link n e hn hb he hstands =>
          refine ⟨.link, ?_⟩
          rintro _ _ _ h hbad
          cases h
          obtain ⟨b, hmem, hname, _, hkept, _⟩ := hb
          exact hok ⟨hlimit, n, hn, ⟨b, hmem, hname, hkept⟩, e, he, hstands, hbad⟩
    · refine (op.commits crates db).mono fun k hk => ⟨hk, ?_⟩
      rintro n e now rfl
      cases hk
      exact absurd ⟨_, _, _, rfl⟩ hop
  · rw [hsame]
    exact .refl _ _

end CodexMonitor
