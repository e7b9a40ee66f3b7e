import CodexMonitor.Store.Transfer

/-!
# A notification delivers its own content

A linked notification reports what became of its event, so the event must carry the
notification's own envelope.  The store compares envelopes when a source repeats an
event id, but the transfer loop links a notification to whatever event stands under
its id.  An authorised source chooses its event ids: the law holds of the runs in
which no maintenance run meets an event of other content there.
-/

namespace CodexMonitor

open Transaction

/-- An event under a notification's id that says something else. -/
def Event.Differs (e : Event) (n : RequestNotification) : Prop := e.envelope ≠ n.envelope

instance (e : Event) (n : RequestNotification) : Decidable (e.Differs n) :=
  inferInstanceAs (Decidable (¬ _))

/-- A linked notification's event has its binding, source, event id and envelope. -/
def Db.OwnContent (db : Db) : Prop :=
  ∀ n ∈ db.requestNotifications.rows, ∀ d ∈ n.deliveryId, ∃ e ∈ db.events.rows, e.id = d ∧
    e.binding = n.originalBinding ∧ e.source = n.source ∧ e.eventId = n.eventId ∧
    e.envelope = n.envelope

instance (db : Db) : Decidable db.OwnContent :=
  inferInstanceAs (Decidable (∀ n ∈ db.requestNotifications.rows, ∀ d ∈ n.deliveryId, _))

/-- An accepted notification is linked to an event. -/
def Db.AcceptedLinked (db : Db) : Prop :=
  ∀ n ∈ db.requestNotifications, n.state = .accepted → ∃ d, n.deliveryId = some d

section step

variable {crates : Crates} {db : Db} {k : Entry}

/-- Every entry but a link to an event of other content keeps the law. -/
theorem Db.OwnContent.apply (hdb : db.OwnContent) (h : k.Enabled crates db)
    (hlink : ∀ n e now, k = .link n e now → ¬ e.Differs n) : (k.apply crates db).OwnContent := by
  have hkept : ∀ e ∈ db.events, ∀ m n : RequestNotification, m.key = n.key → e.StandsFor m →
      e.envelope = m.envelope → ∃ f ∈ (k.apply crates db).events.rows, f.id = e.id ∧
        f.binding = n.originalBinding ∧ f.source = n.source ∧ f.eventId = n.eventId ∧
        f.envelope = n.envelope := by
    intro e he m n hkey hstands henvelope
    have hkey := RequestNotification.key_eq hkey
    have hekey := Event.key_eq (k.onEvent_key e)
    refine ⟨_, (Entry.mem_events h).mpr (Or.inl ⟨e, he, rfl⟩), hekey.2.1, ?_, ?_, ?_, ?_⟩
    · rw [hekey.2.2.2.1, hstands.1, hkey.2.2.2.2.1]
    · rw [hekey.2.2.2.2.1, hstands.2.1, hkey.2.2.2.2.2.1]
    · rw [hekey.2.2.2.2.2.1, hstands.2.2, hkey.2.2.2.2.2.2.1]
    · rw [hekey.2.2.2.2.2.2.1, henvelope, hkey.2.2.2.2.2.2.2]
  intro n hn d hd
  rcases (Entry.mem_notices h).mp hn with ⟨m, hm, rfl⟩ | hnew
  · have hkey := k.onNotice_key db m
    rcases Entry.deliveryId_cases h hm with hsame | ⟨_, _, ⟨e, now, rfl, hlinked⟩ |
      ⟨e, now, rfl, hlinked⟩⟩
    · rw [hsame] at hd
      obtain ⟨e, he, rfl, hbinding, hsource, heventId, henvelope⟩ := hdb m hm d hd
      exact hkept e he m _ hkey.symm ⟨hbinding, hsource, heventId⟩ henvelope
    · rw [hlinked] at hd
      obtain rfl := Option.some.inj hd
      obtain ⟨_, _, he, hstands⟩ := id h
      exact hkept e he m _ hkey.symm hstands (Decidable.of_not_not (hlink m e now rfl))
    · rw [hlinked] at hd
      obtain rfl := Option.some.inj hd
      have hcolumns := RequestNotification.key_eq hkey
      obtain ⟨_, _, _, hbinding, hsource, heventId, henvelope, _⟩ := id h
      refine ⟨e, (Entry.mem_events h).mpr (Or.inr rfl), rfl, ?_, ?_, ?_, ?_⟩
      · rw [hbinding, hcolumns.2.2.2.2.1]
      · rw [hsource, hcolumns.2.2.2.2.2.1]
      · rw [heventId, hcolumns.2.2.2.2.2.2.1]
      · rw [henvelope, hcolumns.2.2.2.2.2.2.2]
  · obtain ⟨r, updateId, state, detail, now, rfl, _, rfl⟩ := Entry.transition_of_notice hnew
    cases hd

/-- A notification becomes accepted through the event it is linked to. -/
theorem Db.AcceptedLinked.apply (hdb : db.AcceptedLinked) (h : k.Enabled crates db) :
    (k.apply crates db).AcceptedLinked := by
  intro n hn haccepted
  rcases (Entry.mem_notices h).mp hn with ⟨m, hm, rfl⟩ | hnew
  · cases Entry.notice_move h hm with
    | stay hstate hlink =>
        rw [hlink]
        exact hdb m hm (hstate.symm.trans haccepted)
    | accept _ _ hlink hevent => exact ⟨_, hlink.trans hevent⟩
    | link _ _ _ hlink => exact ⟨_, hlink⟩
    | deliver _ _ hstate =>
        rw [hstate] at haccepted
        cases haccepted
    | abandon _ hfailed | expire _ hfailed | die _ hfailed | fail _ hfailed =>
        rw [hfailed] at haccepted
        cases haccepted
  · obtain ⟨r, updateId, state, detail, now, rfl, _, rfl⟩ := Entry.transition_of_notice hnew
    cases haccepted

/-- A call that links no notification to an event of other content keeps the law. -/
theorem Db.OwnContent.step {op : Op} (hdb : db.OwnContent) (hlineage : db.Lineage crates)
    (hok : ¬ op.Squatted crates Event.Differs db) : (op.step crates db).OwnContent :=
  (commits_unsquatted hlineage hok).invariant
    (fun _ hw _ hk hd => Db.OwnContent.apply hd hk hw.2) hdb

/-- **A notification delivers its own content**, in every run whose maintenance never meets an
event of other content under the id of a notification it may transfer. -/
theorem notification_delivers_own_content
    (h : ReachableBy crates (fun db op => ¬ op.Squatted crates Event.Differs db) db) :
    db.OwnContent ∧ ∀ n ∈ db.requestNotifications, n.state = .accepted →
      ∃ e ∈ db.events, n.deliveryId = some e.id ∧ e.envelope = n.envelope := by
  have hempty : Db.empty.OwnContent := fun n hn => absurd hn (Table.not_mem_empty n)
  have hown : db.Lineage crates ∧ db.OwnContent := by
    refine LeadsBy.invariant (P := fun d => d.Lineage crates ∧ d.OwnContent) ?_ h
      ⟨Db.lineage_empty, hempty⟩
    rintro d op ⟨hlineage, hd⟩ hok
    exact ⟨(op.commits crates d).invariant (fun _ _ _ hk hl => hl.apply hk) hlineage,
      hd.step hlineage hok⟩
  have haccepted : db.AcceptedLinked :=
    Leads.invariant h.reachable (fun _ _ hk hd => Db.AcceptedLinked.apply hd hk)
      fun n hn => absurd hn (Table.not_mem_empty n)
  refine ⟨hown.2, fun n hn hstate => ?_⟩
  obtain ⟨d, hd⟩ := haccepted n hn hstate
  obtain ⟨e, he, rfl, _, _, _, henvelope⟩ := hown.2 n hn d hd
  exact ⟨e, he, hd, henvelope⟩

end step

/-! ## An event id taken in advance -/

/-- The event id of the notification that completes the sample's request. -/
def sampleNoticeId : String := requestEventId (sampleUuid 3).text 2

/-- The request is completed; its source stores an event of its own under the notification's id
before maintenance transfers it. -/
def sampleSquatOps : List Op :=
  sampleCompletedOps ++
    [.ingest "deploy" (sampleEnvelope sampleNoticeId) (sampleUuid 6) 15,
      .requestMaintenance 100 (fun _ => sampleUuid 7) 16]

/-- The notification is linked to the source's event. -/
theorem notification_delivers_own_content_fails :
    ¬ ∀ (crates : Crates) (db : Db), Reachable crates db → db.OwnContent := by
  intro h
  have hsample := h sampleCrates _ (reachable_after sampleCrates sampleSquatOps)
  revert hsample
  decide +kernel

/-- Without the source's event the notification gets its own. -/
theorem notification_delivers_own_content_sample :
    (Db.after sampleCrates (sampleCompletedOps ++
        [.requestMaintenance 100 (fun _ => sampleUuid 7) 16])).requestNotifications.rows.map
          RequestNotification.deliveryId = [some (sampleUuid 7).text] ∧
      (Db.after sampleCrates (sampleCompletedOps ++
        [.requestMaintenance 100 (fun _ => sampleUuid 7) 16])).OwnContent :=
  ⟨by decide +kernel,
    (notification_delivers_own_content (reachableBy_after (by decide +kernel))).1⟩

end CodexMonitor
