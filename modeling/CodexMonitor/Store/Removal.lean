import CodexMonitor.Store.Lineage

/-!
# Events of removed routes

Removing a route settles the pending events of its binding.  Three calls of the
code leave that undone: removing a managed watch settles nothing, and an event in
flight when its route is removed may still be taken back to pending, by a
retryable outcome or by a deferral.  `Strands` is the condition for one of the three to
happen; a run that avoids it never has a pending event on a removed binding, and a
call that meets it always produces one.
-/

namespace CodexMonitor

open Transaction

/-- A binding of that name is removed. -/
def Db.Removed (db : Db) (name : String) : Prop :=
  ∃ b ∈ db.bindings.rows, b.name = name ∧ b.removed = true

instance (db : Db) (name : String) : Decidable (db.Removed name) :=
  inferInstanceAs (Decidable (∃ b ∈ db.bindings.rows, _))

/-- No event is pending on a removed binding. -/
def Db.RemovedSettled (db : Db) : Prop :=
  ∀ e ∈ db.events.rows, e.state = .pending → ¬ db.Removed e.binding

instance (db : Db) : Decidable db.RemovedSettled :=
  inferInstanceAs (Decidable (∀ e ∈ db.events.rows, _))

/-- The call leaves an event pending on a removed binding. -/
def Strands (db : Db) : Op → Prop
  | .finish id state submissionId error _ =>
      isIdentifier id = true ∧ finishState? state = some .pending ∧
        (∀ value ∈ submissionId, isIdentifier value = true) ∧
        (∀ value ∈ error, value.utf8ByteSize ≤ 4096) ∧
        ∃ e ∈ db.events.rows, e.id = id ∧ e.state.inFlight = true ∧ e.attempts < maxAttempts ∧
          db.Removed e.binding
  | .deferUnavailable id error _ =>
      isIdentifier id = true ∧ error.utf8ByteSize ≤ 4096 ∧
        ∃ e ∈ db.events.rows, e.id = id ∧ e.state = .submitting ∧ db.Removed e.binding
  | .watchAction thread name action _ =>
      isIdentifier thread = true ∧ isIdentifier name = true ∧
        LifecycleAction.ofString? action = some .remove ∧
        ∃ w ∈ (db.liveWatches thread name).head?,
          ∃ e ∈ db.events.rows, e.binding = w.binding ∧ e.state = .pending
  | _ => False

instance (db : Db) : ∀ op, Decidable (Strands db op)
  | .finish .. => inferInstanceAs (Decidable (_ ∧ _))
  | .deferUnavailable .. => inferInstanceAs (Decidable (_ ∧ _))
  | .watchAction .. => inferInstanceAs (Decidable (_ ∧ _))
  | .bind .. | .routeAction .. | .ingest .. | .claim .. | .recoverSubmitting .. | .watchCreate ..
  | .commitSample .. | .replyPut .. | .replyAck .. | .requestCreate .. | .requestUpdate ..
  | .requestMaintenance .. => inferInstanceAs (Decidable False)

/-! ## Entry by entry -/

section entries

variable {crates : Crates} {db : Db} {k : Entry}

/-- An entry that makes an event pending takes it back from a dispatcher. -/
theorem Entry.onEvent_pending {e : Event} (h : (k.onEvent e).state = .pending) :
    e.state = .pending ∨
      (∃ f submissionId error now, k = .finish f .pending submissionId error now ∧ e.id = f.id) ∨
      ∃ f error now, k = .defer f error now ∧ e.id = f.id := by
  cases k with
  | finish f state submissionId error now =>
      simp only [Entry.onEvent] at h
      split at h
      · rename_i hid
        subst h
        exact Or.inr (Or.inl ⟨f, submissionId, error, now, rfl, hid⟩)
      · exact Or.inl h
  | defer f error now =>
      simp only [Entry.onEvent] at h
      split at h
      · rename_i hid
        exact Or.inr (Or.inr ⟨f, error, now, rfl, hid⟩)
      · exact Or.inl h
  | route name action now =>
      simp only [Entry.onEvent, Event.killed] at h
      repeat' split at h
      all_goals first
        | exact Or.inl h
        | cases h
  | expire | submit | recover =>
      simp only [Entry.onEvent] at h
      split at h
      · cases h
      · exact Or.inl h
  | _ => exact Or.inl h

/-- A binding that is removed after an entry was removed before, or the entry removes it. -/
theorem Entry.removed_cases (h : k.Enabled crates db) {name : String}
    (hremoved : (k.apply crates db).Removed name) :
    db.Removed name ∨ (∃ now, k = .route name .remove now) ∨
      ∃ w now, k = .watch w .remove now ∧ w.binding = name := by
  obtain ⟨b, hb, rfl, hflag⟩ := hremoved
  rcases (Entry.mem_bindings h).mp hb with ⟨c, hc, rfl⟩ | hnew
  · rw [(k.onBinding_key c).1]
    cases k with
    | route name action now =>
        simp only [Entry.onBinding] at hflag
        split at hflag
        · rename_i hname
          obtain rfl : action = .remove := of_decide_eq_true hflag
          exact Or.inr (Or.inl ⟨now, by rw [hname]⟩)
        · exact Or.inl ⟨c, hc, rfl, hflag⟩
    | watch w action now =>
        simp only [Entry.onBinding] at hflag
        split at hflag
        · rename_i hname
          obtain rfl : action = .remove := of_decide_eq_true hflag
          exact Or.inr (Or.inr ⟨w, now, rfl, hname.symm⟩)
        · exact Or.inl ⟨c, hc, rfl, hflag⟩
    | _ => exact Or.inl ⟨c, hc, rfl, hflag⟩
  · cases k with
    | bind c =>
        cases hnew
        rw [h.2.2.1] at hflag
        cases hflag
    | createWatch c w =>
        cases hnew
        rw [h.2.2.2.2.2.2.1] at hflag
        cases hflag
    | _ => cases hnew

/-- The entry puts an event back to pending on a removed binding, or removes the binding of a
watch that has pending events. -/
def Entry.Strands (db : Db) : Entry → Prop
  | .finish e state _ _ _ => state = .pending ∧ db.Removed e.binding
  | .defer e _ _ => db.Removed e.binding
  | .watch w action _ =>
      action = .remove ∧ ∃ e ∈ db.events.rows, e.binding = w.binding ∧ e.state = .pending
  | _ => False

theorem Db.RemovedSettled.apply (hdb : db.RemovedSettled) (h : k.Enabled crates db)
    (hok : ¬ k.Strands db) : (k.apply crates db).RemovedSettled := by
  intro e he hpending hremoved
  rcases (Entry.mem_events h).mp he with ⟨f, hf, rfl⟩ | hnew
  · rw [(Event.key_eq (k.onEvent_key f)).2.2.2.1] at hremoved
    rcases Entry.onEvent_pending hpending with hf0 | ⟨g, submissionId, error, now, rfl, hid⟩ |
      ⟨g, error, now, rfl, hid⟩
    · rcases Entry.removed_cases h hremoved with hold | ⟨now, rfl⟩ | ⟨w, now, rfl, hname⟩
      · exact hdb f hf hf0 hold
      · -- the removal kills the pending events of its binding
        have hkilled : ((Entry.route f.binding .remove now).onEvent f).state = .dead := by
          simp [Entry.onEvent, Event.killed, hf0]
        rw [hkilled] at hpending
        cases hpending
      · exact hok ⟨rfl, f, hf, hname.symm, hf0⟩
    · obtain rfl := Event.eq_of_id hf h.1 hid
      rcases Entry.removed_cases h hremoved with hold | ⟨now, hk⟩ | ⟨w, now, hk, _⟩
      · exact hok ⟨rfl, hold⟩
      · cases hk
      · cases hk
    · obtain rfl := Event.eq_of_id hf h.1 hid
      rcases Entry.removed_cases h hremoved with hold | ⟨now, hk⟩ | ⟨w, now, hk, _⟩
      · exact hok hold
      · cases hk
      · cases hk
  · obtain ⟨b, hb, hname, _, hkept, _⟩ := Entry.newEvent_routed h hnew
    rcases Entry.removed_cases h hremoved with ⟨c, hc, hcname, hflag⟩ | ⟨now, rfl⟩ |
      ⟨w, now, rfl, _⟩
    · obtain rfl := Binding.eq_of_name hb hc (hname.trans hcname.symm)
      rw [hkept] at hflag
      cases hflag
    · cases hnew
    · cases hnew

end entries

/-! ## Call by call -/

section calls

variable {crates : Crates} {db : Db}

/-- The three calls that may strand an event. -/
inductive Op.Returns : Op → Prop
  | finish (id state : String) (submissionId error : Option String) (now : Rat) :
      Returns (.finish id state submissionId error now)
  | defer (id error : String) (now : Rat) : Returns (.deferUnavailable id error now)
  | watch (thread name action : String) (now : Rat) : Returns (.watchAction thread name action now)

/-- The other calls write no entry that could. -/
theorem Op.Writes.not_strands {op : Op} {k : Entry} (hw : op.Writes crates k)
    (hop : ¬ op.Returns) (db : Db) : ¬ k.Strands db := by
  cases hw with
  | finish => exact absurd (.finish _ _ _ _ _) hop
  | defer => exact absurd (.defer _ _ _) hop
  | watch => exact absurd (.watch _ _ _ _) hop
  | _ => exact id

/-- Calls that do not strand an event keep removed bindings settled. -/
theorem Db.RemovedSettled.step {op : Op} (hdb : db.RemovedSettled) (hok : ¬ Strands db op) :
    (op.step crates db).RemovedSettled := by
  rcases op.step_outcome crates db with hrun | hsame
  · by_cases hop : op.Returns
    · cases hop with
      | finish id text submissionId error now =>
          obtain ⟨e, he, hid, state, hstate, ⟨_, _, _, hsame⟩ | ⟨henabled, happly⟩⟩ :=
            finish_ok crates hrun
          · rw [hsame]
            exact hdb
          · rw [happly]
            refine hdb.apply henabled ?_
            rintro ⟨hpending, hremoved⟩
            obtain ⟨hidentifier, hsubmission, herror⟩ := finish_valid hrun
            have hretry : state = .pending := by
              unfold storedOutcome at hpending
              split at hpending
              · cases hpending
              · exact hpending
            rw [hretry] at hstate
            exact hok ⟨hidentifier, hstate, hsubmission, herror, e, he, hid, henabled.2.1,
              henabled.2.2.2 hpending, hremoved⟩
      | defer id error now =>
          obtain ⟨e, he, hid, hstate, happly⟩ := deferUnavailable_ok crates hrun
          rw [happly]
          refine hdb.apply ⟨he, hstate⟩ ?_
          intro hremoved
          obtain ⟨hidentifier, herror⟩ := deferUnavailable_valid hrun
          exact hok ⟨hidentifier, herror, e, he, hid, hstate, hremoved⟩
      | watch thread name action now =>
          obtain ⟨v, _, hcall, hpure⟩ := Tx.bind_ok.mp hrun
          obtain ⟨_, hsame⟩ := Tx.pure_ok.mp hpure
          rw [hsame] at hcall
          obtain ⟨hthread, hname, w, a, hw, ha, _, _, henabled, happly⟩ :=
            watchAction_ok crates hcall
          rw [happly]
          refine hdb.apply henabled ?_
          rintro ⟨rfl, e, he, hbinding, hpending⟩
          exact hok ⟨hthread, hname, ha, w, hw, e, he, hbinding, hpending⟩
    · exact (op.commits crates db).invariant
        (fun k hw d hk hd => hd.apply hk (hw.not_strands hop d)) hdb
  · rw [hsame]
    exact hdb

/-- A call that strands an event leaves one pending on a removed binding. -/
theorem strands_step {op : Op} (hlineage : db.Lineage crates) (hstrands : Strands db op) :
    ¬ (op.step crates db).RemovedSettled := by
  intro hsettled
  cases op with
  | finish id text submissionId error now =>
      obtain ⟨hidentifier, hstate, hsubmission, herror, e, he, hid, hflight, hlimit, b, hb, hname,
        hremoved⟩ := hstrands
      have hstep : (Op.finish id text submissionId error now).step crates db = _ :=
        congrArg Prod.snd (finish_run crates he hid hidentifier hstate hsubmission herror hflight)
      have houtcome : storedOutcome .pending error e.attempts = (.pending, error) :=
        if_neg fun hlast => absurd hlast.2 (not_le.mpr hlimit)
      rw [hstep, houtcome] at hsettled
      have henabled : (Entry.finish e .pending submissionId error now).Enabled crates db :=
        ⟨he, hflight, EventState.noConfusion, fun _ => hlimit⟩
      refine hsettled _ ((Entry.mem_events henabled).mpr (Or.inl ⟨e, he, rfl⟩)) ?_ ?_
      · simp [Entry.onEvent]
      · refine ⟨b, (Entry.mem_bindings henabled).mpr (Or.inl ⟨b, hb, rfl⟩), ?_, hremoved⟩
        rw [hname, (Event.key_eq (Entry.onEvent_key _ e)).2.2.2.1]
  | deferUnavailable id error now =>
      obtain ⟨hidentifier, herror, e, he, hid, hstate, b, hb, hname, hremoved⟩ := hstrands
      have hstep : (Op.deferUnavailable id error now).step crates db = _ :=
        congrArg Prod.snd (deferUnavailable_run crates he hid hidentifier herror hstate)
      rw [hstep] at hsettled
      have henabled : (Entry.defer e error now).Enabled crates db := ⟨he, hstate⟩
      refine hsettled _ ((Entry.mem_events henabled).mpr (Or.inl ⟨e, he, rfl⟩)) ?_ ?_
      · simp [Entry.onEvent]
      · refine ⟨b, (Entry.mem_bindings henabled).mpr (Or.inl ⟨b, hb, rfl⟩), ?_, hremoved⟩
        rw [hname, (Event.key_eq (Entry.onEvent_key _ e)).2.2.2.1]
  | watchAction thread name action now =>
      obtain ⟨hthread, hname, ha, w, hw, e, he, hbinding, hpending⟩ := hstrands
      obtain ⟨v, hrun⟩ : ∃ v, (watchAction thread name action now).run db =
          (.ok v, (Entry.watch w .remove now).apply crates db) :=
        watchAction_run crates hthread hname ha hw
      have hexec : ((Op.watchAction thread name action now).exec crates).run db =
          (.ok (), (Entry.watch w .remove now).apply crates db) :=
        Tx.bind_ok.mpr ⟨v, _, hrun, Tx.pure_ok.mpr ⟨rfl, rfl⟩⟩
      have hstep : (Op.watchAction thread name action now).step crates db = _ :=
        congrArg Prod.snd hexec
      rw [hstep] at hsettled
      obtain ⟨hmem, _, _, hlive⟩ := Table.mem_select.mp (List.mem_of_mem_head? hw)
      have henabled : (Entry.watch w .remove now).Enabled crates db := ⟨hmem, hlive⟩
      obtain ⟨b, hb, hbname, _⟩ := hlineage.event_routed e he
      refine hsettled _ ((Entry.mem_events henabled).mpr (Or.inl ⟨e, he, rfl⟩)) hpending ?_
      refine ⟨_, (Entry.mem_bindings henabled).mpr (Or.inl ⟨b, hb, rfl⟩), ?_, ?_⟩
      · exact ((Entry.watch w .remove now).onBinding_key b).1.trans hbname
      · simp [Entry.onBinding, hbname.trans hbinding]
  | _ => exact hstrands

/-- **Removed routes settle their work, while nothing is stranded.**  In every run whose calls do
not strand an event no event is ever pending on a removed binding, and the condition is exact: a
call that meets it in such a state does leave an event pending on a removed binding. -/
theorem removedSettled_unless_stranded
    (h : ReachableBy crates (fun db op => ¬ Strands db op) db) :
    db.RemovedSettled ∧ ∀ op, Strands db op → ¬ (op.step crates db).RemovedSettled := by
  constructor
  · refine LeadsBy.invariant (fun d op hd hok => hd.step hok) h ?_
    exact fun e he => absurd he List.not_mem_nil
  · exact fun op hstrands => strands_step (ReachableBy.reachable h).lineage hstrands

end calls

/-! ## A removed watch -/

/-- What a managed watch reports. -/
def sampleSample : Value :=
  .object [("data", .object []), ("id", .string "change-1"), ("source", .string "managed/file"),
    ("type", .string "file.changed")]

/-- A managed watch reports a change and is removed before the change is delivered. -/
def sampleWatchOps : List Op :=
  [.watchCreate "conversation-1" "build-log" "/var/log/build.log" (.finite 1) "shared-local"
      (.finite 0) none (sampleUuid 4) 10,
    .commitSample (sampleUuid 4).text 0 .null (some sampleSample) (sampleUuid 5) 11 11,
    .watchAction "conversation-1" "build-log" "remove" 12]

/-- The change stays pending on the removed binding. -/
theorem removedSettled_fails :
    ¬ ∀ (crates : Crates) (db : Db), Reachable crates db → db.RemovedSettled := by
  intro h
  have hsample := h sampleCrates _ (reachable_after sampleCrates sampleWatchOps)
  revert hsample
  decide +kernel

/-- A run with a retryable outcome and a removal of the route afterwards. -/
theorem removedSettled_unless_stranded_sample :
    (Db.after sampleCrates (sampleOps ++ [.claim fun _ => 12,
        .finish (sampleUuid 1).text "pending" none (some "busy") 13,
        .routeAction "deploy" "remove" 14])).events.rows.map Event.state = [.dead, .dead] ∧
      (Db.after sampleCrates (sampleOps ++ [.claim fun _ => 12,
        .finish (sampleUuid 1).text "pending" none (some "busy") 13,
        .routeAction "deploy" "remove" 14])).RemovedSettled :=
  ⟨by decide +kernel,
    (removedSettled_unless_stranded (reachableBy_after (by decide +kernel))).1⟩

end CodexMonitor
