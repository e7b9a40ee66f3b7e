import CodexMonitor.Store.Transfer

/-!
# A notification mirrors its event

Six operations settle events, and each must carry the settlement over to the
notification that waits for it.  They do, with two gaps: an event in flight that is
finished as ignored, and a notification that is linked to an event already ignored,
leave the notification pending for good.  The law holds of the runs without them.
-/

namespace CodexMonitor

open Transaction

/-- What a notification says of an event in this state. -/
def EventState.notice : EventState → NoticeState
  | .pending | .submitting | .uncertain => .pending
  | .accepted => .accepted
  | .dead | .ignored => .failed

/-- A linked notification and its event agree. -/
def RequestNotification.Agrees (n : RequestNotification) (e : Event) : Prop :=
  (n.state = .pending ↔ e.state = .pending ∨ e.state = .submitting ∨ e.state = .uncertain) ∧
    (n.state = .accepted ↔ e.state = .accepted) ∧
    (e.state = .dead ∨ e.state = .ignored → n.state = .failed)

instance (n : RequestNotification) (e : Event) : Decidable (n.Agrees e) :=
  inferInstanceAs (Decidable (_ ∧ _))

theorem agrees_iff {n : RequestNotification} {e : Event} :
    n.Agrees e ↔ n.state = e.state.notice := by
  unfold RequestNotification.Agrees EventState.notice
  cases e.state <;> cases n.state <;> decide

/-- Every linked notification agrees with its event. -/
def Db.Mirrored (db : Db) : Prop :=
  ∀ n ∈ db.requestNotifications.rows, ∀ d ∈ n.deliveryId,
    ∃ e ∈ db.events.rows, e.id = d ∧ n.Agrees e

instance (db : Db) : Decidable db.Mirrored :=
  inferInstanceAs (Decidable (∀ n ∈ db.requestNotifications.rows, ∀ d ∈ n.deliveryId, _))

/-- An ignored event under a notification's id. -/
def Event.Ignored (e : Event) (_ : RequestNotification) : Prop := e.state = .ignored

instance (e : Event) (n : RequestNotification) : Decidable (e.Ignored n) :=
  inferInstanceAs (Decidable (_ = _))

/-- The call finishes an event as ignored that a notification waits for. -/
def Op.Ignores (db : Db) : Op → Prop
  | .finish id state submissionId error _ =>
      isIdentifier id = true ∧ finishState? state = some .ignored ∧
        (∀ value ∈ submissionId, isIdentifier value = true) ∧
        (∀ value ∈ error, value.utf8ByteSize ≤ 4096) ∧
        ∃ e ∈ db.events.rows, e.id = id ∧ e.state.inFlight = true ∧
          ∃ n ∈ db.requestNotifications.rows, n.deliveryId = some e.id
  | _ => False

instance (db : Db) : ∀ op : Op, Decidable (op.Ignores db)
  | .finish .. => inferInstanceAs (Decidable (_ ∧ _))
  | .bind .. | .routeAction .. | .ingest .. | .claim .. | .deferUnavailable ..
  | .recoverSubmitting .. | .watchCreate .. | .watchAction .. | .commitSample .. | .replyPut ..
  | .replyAck .. | .requestCreate .. | .requestUpdate .. | .requestMaintenance .. =>
      inferInstanceAs (Decidable False)

/-- The call leaves a notification behind: it ignores its event, or it is a maintenance run that
meets an ignored event under the id of a notification it may transfer. -/
def Op.Abandons (crates : Crates) (db : Db) (op : Op) : Prop :=
  op.Ignores db ∨ op.Squatted crates Event.Ignored db

instance (crates : Crates) (db : Db) (op : Op) : Decidable (op.Abandons crates db) :=
  inferInstanceAs (Decidable (_ ∨ _))

section step

variable {crates : Crates} {db : Db} {k : Entry}

/-- The entry settles an event behind the back of its notification. -/
def Entry.Abandons (db : Db) : Entry → Prop
  | .finish e state _ _ _ =>
      state = .ignored ∧ ∃ n ∈ db.requestNotifications, n.deliveryId = some e.id
  | .link _ e _ => e.state = .ignored
  | _ => False

/-- A linked notification is not one that still waits for its event. -/
theorem Db.Ready.ne_of_linked {m n : RequestNotification} {d : String} (hm : db.Ready m)
    (hn : n ∈ db.requestNotifications) (hlink : n.deliveryId = some d) :
    ¬ (n.notificationId = m.notificationId ∧ n.state = .pending) := by
  rintro ⟨hid, _⟩
  obtain rfl := RequestNotification.eq_of_id hn hm.mem hid
  rw [hm.unlinked] at hlink
  cases hlink

/-- What a settlement makes of a notification that is linked to another event: nothing. -/
theorem RequestNotification.settled_of_ne {n : RequestNotification} {d id : String}
    (hlink : n.deliveryId = some d) (hne : d ≠ id) (state : NoticeState) (error : Option String)
    (now : Rat) : n.settled id state error now = n := by
  unfold RequestNotification.settled
  rw [if_neg]
  rintro ⟨hid, _⟩
  rw [hlink] at hid
  exact hne (Option.some.inj hid)

/-- What a settlement makes of a waiting notification. -/
theorem RequestNotification.settled_self {n : RequestNotification} {id : String}
    (hlink : n.deliveryId = some id) (hpending : n.state = .pending) (state : NoticeState)
    (error : Option String) (now : Rat) : (n.settled id state error now).state = state := by
  unfold RequestNotification.settled
  rw [if_pos ⟨hlink, hpending⟩]

/-- The removal of a route settles an event and its notification alike. -/
theorem removal_mirrored {n : RequestNotification} {e : Event} (he : e ∈ db.events)
    (hlink : n.deliveryId = some e.id) (hbinding : e.binding = n.originalBinding)
    (hstate : n.state = e.state.notice) (name : String) (now : Rat) :
    (n.abandoned (db.killPending name now).events name now).state =
      (e.killed name now).state.notice := by
  have hkilled : e.killed name now ∈ (db.killPending name now).events := by
    show e.killed name now ∈ db.events.rows.map (Event.killed name now)
    exact List.mem_map_of_mem he
  have hkey : (e.killed name now).id = e.id := by
    unfold Event.killed
    split <;> rfl
  unfold RequestNotification.abandoned
  by_cases hmatch : e.binding = name ∧ e.state = .pending
  · have hdead : (e.killed name now).state = .dead := by
      unfold Event.killed
      rw [if_pos hmatch]
    rw [if_pos, hdead]
    · rfl
    · rw [hmatch.2] at hstate
      refine ⟨hstate, hbinding.symm.trans hmatch.1, Or.inr ⟨_, hkilled, ?_, hdead⟩⟩
      rw [hkey]
      exact hlink
  · have hsame : e.killed name now = e := by
      unfold Event.killed
      rw [if_neg hmatch]
    rw [if_neg, hsame]
    · exact hstate
    · rintro ⟨hpending, _, hnone | ⟨f, hf, hflink, hdead⟩⟩
      · rw [hlink] at hnone
        cases hnone
      · rw [hlink] at hflink
        obtain rfl : f = e.killed name now :=
          Event.eq_of_id hf hkilled ((Option.some.inj hflink).symm.trans hkey.symm)
        rw [hsame] at hdead
        rw [hpending, hdead] at hstate
        cases hstate

/-- An entry keeps a linked notification and its event in agreement. -/
theorem Entry.mirrored (h : k.Enabled crates db) (hok : ¬ k.Abandons db)
    {n : RequestNotification} {e : Event} (hn : n ∈ db.requestNotifications) (he : e ∈ db.events)
    (hlink : n.deliveryId = some e.id) (hbinding : e.binding = n.originalBinding)
    (hstate : n.state = e.state.notice) :
    (k.onNotice db n).state = (k.onEvent e).state.notice := by
  cases k with
  | route name action now =>
      simp only [Entry.onNotice, Entry.onEvent]
      split
      · exact removal_mirrored he hlink hbinding hstate name now
      · exact hstate
  | expire f now =>
      simp only [Entry.onNotice, Entry.onEvent]
      by_cases hid : e.id = f.id
      · obtain rfl := Event.eq_of_id he h.1 hid
        rw [h.2.1.1] at hstate
        rw [if_pos rfl, RequestNotification.settled_self hlink hstate]
        rfl
      · rw [if_neg hid, RequestNotification.settled_of_ne hlink hid]
        exact hstate
  | submit f now =>
      simp only [Entry.onNotice, Entry.onEvent]
      split
      · rename_i hmatch
        rw [hmatch.2] at hstate
        exact hstate
      · exact hstate
  | finish f state submissionId error now =>
      simp only [Entry.onNotice, Entry.onEvent]
      by_cases hid : e.id = f.id
      · obtain rfl := Event.eq_of_id he h.1 hid
        obtain ⟨_, hflight, hne, _⟩ := h
        have hpending : n.state = .pending := by
          rw [hstate]
          cases hs : e.state with
          | submitting | uncertain => rfl
          | pending | accepted | dead | ignored =>
              rw [hs] at hflight
              cases hflight
        rw [if_pos rfl]
        cases state with
        | pending | uncertain => exact hpending
        | submitting => exact absurd rfl hne
        | accepted => exact RequestNotification.settled_self hlink hpending _ _ _
        | dead => exact RequestNotification.settled_self hlink hpending _ _ _
        | ignored => exact absurd ⟨rfl, n, hn, hlink⟩ hok
      · rw [if_neg hid, RequestNotification.settled_of_ne hlink hid,
          RequestNotification.settled_of_ne hlink hid]
        split
        · exact hstate
        split <;> exact hstate
  | defer f error now =>
      simp only [Entry.onNotice, Entry.onEvent]
      split
      · rename_i hid
        obtain rfl := Event.eq_of_id he h.1 hid
        rw [h.2] at hstate
        exact hstate
      · exact hstate
  | recover nextAt now =>
      simp only [Entry.onNotice, Entry.onEvent]
      split
      · rename_i hsubmitting
        rw [hsubmitting] at hstate
        exact hstate
      · exact hstate
  | failNotice m | link m | postpone m | deliver m =>
      first
        | have hready : db.Ready m := h.1
        | have hready : db.Ready m := h
      simp only [Entry.onNotice, if_neg (hready.ne_of_linked hn hlink)]
      exact hstate
  | _ => exact hstate

theorem Db.Mirrored.apply (hdb : db.Mirrored) (hlineage : db.Lineage crates)
    (h : k.Enabled crates db) (hok : ¬ k.Abandons db) : (k.apply crates db).Mirrored := by
  intro n hn d hd
  rcases (Entry.mem_notices h).mp hn with ⟨m, hm, rfl⟩ | hnew
  · rcases Entry.deliveryId_cases h hm with hsame | ⟨_, _, ⟨e, now, rfl, hlinked⟩ |
      ⟨e, now, rfl, hlinked⟩⟩
    · rw [hsame] at hd
      obtain ⟨e, he, rfl, hagrees⟩ := hdb m hm d hd
      obtain ⟨f, hf, hid, hbinding, _⟩ := hlineage.linked m hm _ hd
      obtain rfl := Event.eq_of_id hf he hid
      refine ⟨_, (Entry.mem_events h).mpr (Or.inl ⟨f, he, rfl⟩),
        (Event.key_eq (k.onEvent_key f)).2.1, agrees_iff.mpr ?_⟩
      exact Entry.mirrored h hok hm he hd hbinding (agrees_iff.mp hagrees)
    · rw [hlinked] at hd
      obtain rfl := Option.some.inj hd
      refine ⟨e, (Entry.mem_events h).mpr (Or.inl ⟨e, h.2.2.1, rfl⟩), rfl, agrees_iff.mpr ?_⟩
      have hstate : ((Entry.link m e now).onNotice db m).state = (linkOutcome e.state).1 := by
        simp [Entry.onNotice, h.1.pending]
      rw [hstate]
      cases hs : e.state with
      | ignored => exact absurd hs hok
      | pending | submitting | uncertain | accepted | dead => rfl
    · rw [hlinked] at hd
      obtain rfl := Option.some.inj hd
      refine ⟨e, (Entry.mem_events h).mpr (Or.inr rfl), rfl, agrees_iff.mpr ?_⟩
      obtain ⟨hready, _, _, _, _, _, _, hpending, _⟩ := h
      rw [hpending]
      simp [Entry.onNotice, hready.pending, EventState.notice]
  · obtain ⟨r, updateId, state, detail, now, rfl, _, rfl⟩ := Entry.transition_of_notice hnew
    cases hd

/-- Only `finish` settles an event behind the back of its notification, links aside. -/
theorem Op.Writes.not_abandons {op : Op} (hw : op.Writes crates k)
    (hlink : ∀ n e now, k = .link n e now → ¬ e.Ignored n)
    (hop : ∀ id text submissionId error now, op ≠ .finish id text submissionId error now) (d : Db) :
    ¬ k.Abandons d := by
  cases hw with
  | finish => exact absurd rfl (hop _ _ _ _ _)
  | link => exact fun hignored => hlink _ _ _ rfl hignored
  | _ => exact id

theorem finish_mirrored {id text : String} {submissionId error : Option String} {now : Rat}
    (hdb : db.Mirrored) (hlineage : db.Lineage crates)
    (hrun : (finish id text submissionId error now).run db =
      (.ok (), (Op.finish id text submissionId error now).step crates db))
    (hok : ¬ (Op.finish id text submissionId error now).Ignores db) :
    ((Op.finish id text submissionId error now).step crates db).Mirrored := by
  obtain ⟨e, he, hid, state, hstate, ⟨_, _, _, hsame⟩ | ⟨henabled, happly⟩⟩ :=
    finish_ok crates hrun
  · rw [hsame]
    exact hdb
  · rw [happly]
    refine hdb.apply hlineage henabled ?_
    rintro ⟨hignored, n, hn, hlink⟩
    obtain ⟨hidentifier, hsubmission, herror⟩ := finish_valid hrun
    have htext : state = .ignored := by
      unfold storedOutcome at hignored
      split at hignored
      · cases hignored
      · exact hignored
    rw [htext] at hstate
    exact hok ⟨hidentifier, hstate, hsubmission, herror, e, he, hid, henabled.2.1, n, hn, hlink⟩

/-- Calls that abandon no notification keep outbox and events in agreement. -/
theorem Db.Mirrored.step {op : Op} (hdb : db.Mirrored) (hlineage : db.Lineage crates)
    (hok : ¬ op.Abandons crates db) : (op.step crates db).Mirrored := by
  by_cases hop : ∃ id text submissionId error now, op = .finish id text submissionId error now
  · obtain ⟨id, text, submissionId, error, now, rfl⟩ := hop
    rcases (Op.finish id text submissionId error now).step_outcome crates db with hrun | hsame
    · exact finish_mirrored hdb hlineage hrun fun hignores => hok (Or.inl hignores)
    · rw [hsame]
      exact hdb
  · have hcommits := commits_unsquatted hlineage fun hsquatted => hok (Or.inr hsquatted)
    refine (hcommits.invariant (P := fun d => d.Lineage crates ∧ d.Mirrored) ?_
      ⟨hlineage, hdb⟩).2
    rintro k ⟨hw, hlink⟩ d hk ⟨hl, hd⟩
    refine ⟨hl.apply hk, hd.apply hl hk (hw.not_abandons hlink ?_ d)⟩
    rintro id text submissionId error now rfl
    exact hop ⟨id, text, submissionId, error, now, rfl⟩

/-- **Notification and event agree**, in every run that finishes no event as ignored while a
notification waits for it and whose maintenance never meets an ignored event under the id of a
notification it may transfer. -/
theorem notification_agrees_with_event
    (h : ReachableBy crates (fun db op => ¬ op.Abandons crates db) db) : db.Mirrored := by
  refine (LeadsBy.invariant (P := fun d => d.Lineage crates ∧ d.Mirrored) ?_ h
    ⟨Db.lineage_empty, fun n hn => absurd hn (Table.not_mem_empty n)⟩).2
  rintro d op ⟨hlineage, hd⟩ hok
  exact ⟨(op.commits crates d).invariant (fun _ _ _ hk hl => hl.apply hk) hlineage,
    hd.step hlineage hok⟩

end step

/-! ## An acknowledgement in the way -/

/-- An acknowledgement under the id of the notification that completes the sample's request. -/
def sampleAck : Value :=
  .object [("data", .object []), ("id", .string (requestEventId (sampleUuid 3).text 2)),
    ("source", .string "ci"), ("type", .string "agent.ack")]

/-- The source stores an acknowledgement under the notification's id before maintenance transfers
it. -/
def sampleAckOps : List Op :=
  sampleCompletedOps ++
    [.ingest "deploy" sampleAck (sampleUuid 6) 15, .requestMaintenance 100 (fun _ => sampleUuid 7) 16]

/-- The notification stays pending on an event that is settled. -/
theorem notification_agrees_with_event_fails :
    ¬ ∀ (crates : Crates) (db : Db), Reachable crates db → db.Mirrored := by
  intro h
  have hsample := h sampleCrates _ (reachable_after sampleCrates sampleAckOps)
  revert hsample
  decide +kernel

/-- The route of a transferred notification is removed: event and notification settle together. -/
theorem notification_agrees_with_event_sample :
    (Db.after sampleCrates (sampleCompletedOps ++
        [.requestMaintenance 100 (fun _ => sampleUuid 7) 16,
          .routeAction "deploy" "remove" 17])).requestNotifications.rows.map
            RequestNotification.state = [.failed] ∧
      (Db.after sampleCrates (sampleCompletedOps ++
        [.requestMaintenance 100 (fun _ => sampleUuid 7) 16,
          .routeAction "deploy" "remove" 17])).Mirrored :=
  ⟨by decide +kernel, notification_agrees_with_event (reachableBy_after (by decide +kernel))⟩

end CodexMonitor
