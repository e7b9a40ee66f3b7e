import CodexMonitor.Lib.Versioned
import CodexMonitor.Store.Commits.Calls
import CodexMonitor.Store.Effects

/-!
# The history of a request

A request is a versioned cell: its value is the request's state, its log the
update rows of the request, its version the revision.  Client updates and the
expiry loop both write the journal's transition, and a transition is one
compare-and-swap of the cell, so everything said about versioned cells holds of
requests.  The outbox rows are tied to the same log: one for each update whose
state notifies, under the update's revision and id.
-/

namespace CodexMonitor

open Transaction Versioned

/-- The update rows of a request, oldest first. -/
def Db.history (db : Db) (requestId : String) : List RequestUpdate :=
  db.requestUpdates.rows.filter fun u => u.requestId = requestId

/-- A request with its history as a versioned cell. -/
def Db.cellOf (db : Db) (r : Request) : Cell RequestState :=
  ⟨r.state, (db.history r.requestId).map fun u => (u.previousState, u.state)⟩

/-- `allowed_transition` as a relation. -/
def Allowed (previous target : RequestState) : Prop := allowedTransition previous target = true

theorem Db.mem_history {db : Db} {id : String} {u : RequestUpdate} :
    u ∈ db.history id ↔ u ∈ db.requestUpdates ∧ u.requestId = id := by
  simp [Db.history, Table.mem_def]

/-- The columns of a request that stay, one by one. -/
theorem Request.identity_eq {r q : Request} (h : r.identity = q.identity) :
    r.seq = q.seq ∧ r.requestId = q.requestId ∧ r.thread = q.thread ∧ r.source = q.source ∧
      r.requestKey = q.requestKey ∧ r.deliveryId = q.deliveryId ∧ r.binding = q.binding ∧
      r.payload = q.payload ∧ r.expiresAt = q.expiresAt ∧ r.created = q.created := by
  simpa [Request.identity] using h

/-- The columns of a notification that stay, one by one. -/
theorem RequestNotification.key_eq {m n : RequestNotification} (h : m.key = n.key) :
    m.notificationId = n.notificationId ∧ m.requestId = n.requestId ∧ m.updateId = n.updateId ∧
      m.revision = n.revision ∧ m.originalBinding = n.originalBinding ∧ m.source = n.source ∧
      m.eventId = n.eventId ∧ m.envelope = n.envelope := by
  simpa [RequestNotification.key] using h

/-- The history rows an entry adds to a request. -/
theorem Entry.history {crates : Crates} {db : Db} {k : Entry} (h : k.Enabled crates db)
    (id : String) :
    (k.apply crates db).history id =
      db.history id ++ (k.newUpdate? db).toList.filter fun u => u.requestId = id := by
  unfold Db.history
  rw [Entry.rows_updates h, List.filter_append]

/-- A transition is a compare-and-swap of its request's cell. -/
theorem Entry.transition_swap {crates : Crates} {db : Db} {r : Request} {updateId : String}
    {state : RequestState} {detail : Option String} {now : Rat}
    (h : (Entry.transition r updateId state detail now).Enabled crates db)
    (hversion : r.revision = (db.cellOf r).version) :
    Cell.Swap Allowed r.revision.toNat (db.cellOf r)
      (((Entry.transition r updateId state detail now).apply crates db).cellOf
        ((Entry.transition r updateId state detail now).onRequest r)) := by
  refine ⟨by omega, state, h.2.1, ?_⟩
  have hrow : (Entry.transition r updateId state detail now).onRequest r =
      { r with state := state, revision := r.revision + 1, updated := now } :=
    if_pos ⟨rfl, rfl⟩
  have hlog : ((Entry.transition r updateId state detail now).apply crates db).history r.requestId =
      db.history r.requestId ++ [transitionRow db r updateId state detail now] := by
    rw [Entry.history h]
    simp [Entry.newUpdate?, transitionRow]
  rw [hrow]
  simp only [Db.cellOf, hlog, List.map_append, Cell.push]
  rfl

/-- Every other entry leaves a stored request's cell alone. -/
theorem Entry.cellOf_eq {crates : Crates} {db : Db} {k : Entry} (h : k.Enabled crates db)
    {q : Request}
    (hother : ∀ r updateId state detail now, k = .transition r updateId state detail now →
      r.requestId ≠ q.requestId) :
    (k.apply crates db).cellOf (k.onRequest q) = db.cellOf q := by
  cases k with
  | transition r updateId state detail now =>
      have hne : r.requestId ≠ q.requestId := hother r updateId state detail now rfl
      have hsame : (Entry.transition r updateId state detail now).onRequest q = q :=
        if_neg fun heq => hne heq.1.symm
      have hlog : ((Entry.transition r updateId state detail now).apply crates db).history
          q.requestId = db.history q.requestId := by
        rw [Entry.history h]
        simp [Entry.newUpdate?, transitionRow, hne]
      rw [hsame]
      simp only [Db.cellOf, hlog]
  | _ =>
      simp only [Db.cellOf, Entry.history h, Entry.newUpdate?, Option.toList_none,
        List.filter_nil, List.append_nil]
      rfl

/-! ## The invariant -/

/-- Requests, their histories and the outbox belong together. -/
structure Db.Recorded (db : Db) : Prop where
  logged : ∀ r ∈ db.requests, Cell.WellLogged Allowed .received (db.cellOf r)
  revision_eq : ∀ r ∈ db.requests, r.revision = (db.cellOf r).version
  numbered : ∀ (id : String) (i : Nat) (u : RequestUpdate), (db.history id)[i]? = some u →
    u.expectedRevision = i ∧ u.revision = i + 1
  owned : ∀ u ∈ db.requestUpdates, ∃ r ∈ db.requests, r.requestId = u.requestId
  noticed : ∀ u ∈ db.requestUpdates, u.state.notifies = true →
    ∃ n ∈ db.requestNotifications, n.requestId = u.requestId ∧ n.revision = u.revision ∧
      n.updateId = u.updateId
  announced : ∀ n ∈ db.requestNotifications, ∃ u ∈ db.requestUpdates,
    u.requestId = n.requestId ∧ u.revision = n.revision ∧ u.updateId = n.updateId ∧
      u.state.notifies = true

theorem Db.recorded_empty : Db.empty.Recorded where
  logged r hr := absurd hr (Table.not_mem_empty r)
  revision_eq r hr := absurd hr (Table.not_mem_empty r)
  numbered id i u hu := by
    have hnil : Db.empty.history id = [] := rfl
    rw [hnil] at hu
    cases hu
  owned u hu := absurd hu (Table.not_mem_empty u)
  noticed u hu := absurd hu (Table.not_mem_empty u)
  announced n hn := absurd hn (Table.not_mem_empty n)

/-- A stored request's cell takes one step. -/
theorem Db.Recorded.step {crates : Crates} {db : Db} {k : Entry} (hdb : db.Recorded)
    (h : k.Enabled crates db) {q : Request} (hq : q ∈ db.requests) :
    Cell.Step Allowed (db.cellOf q) ((k.apply crates db).cellOf (k.onRequest q)) := by
  by_cases hown : ∃ r updateId state detail now, k = .transition r updateId state detail now ∧
      r.requestId = q.requestId
  · obtain ⟨r, updateId, state, detail, now, rfl, hid⟩ := hown
    obtain rfl := Request.eq_of_id h.1 hq hid
    exact (Entry.transition_swap h (hdb.revision_eq r hq)).step
  · refine Or.inl (Entry.cellOf_eq h ?_)
    intro r updateId state detail now hk hid
    exact hown ⟨r, updateId, state, detail, now, hk, hid⟩

/-- A new request has no history yet. -/
theorem Db.Recorded.history_of_new {crates : Crates} {db : Db} {k : Entry} {r : Request}
    (hdb : db.Recorded) (h : k.Enabled crates db) (hnew : k.newRequest? = some r) :
    r.state = .received ∧ r.revision = 0 ∧ (k.apply crates db).history r.requestId = [] := by
  cases k with
  | create q =>
      cases hnew
      obtain ⟨hadmits, _, hstate, hrevision, _⟩ := h
      refine ⟨hstate, hrevision, ?_⟩
      have hnone : db.history r.requestId = [] := by
        rw [List.eq_nil_iff_forall_not_mem]
        intro u hu
        obtain ⟨humem, huid⟩ := Db.mem_history.mp hu
        obtain ⟨q, hq, hqid⟩ := hdb.owned u humem
        exact (hadmits q hq).2.1 (hqid.trans huid)
      exact hnone
  | _ => cases hnew

theorem Entry.transition_of_update {db : Db} {k : Entry} {u : RequestUpdate}
    (h : k.newUpdate? db = some u) :
    ∃ r updateId state detail now, k = .transition r updateId state detail now ∧
      u = transitionRow db r updateId state detail now := by
  cases k with
  | transition r updateId state detail now =>
      cases h
      exact ⟨r, updateId, state, detail, now, rfl, rfl⟩
  | _ => cases h

theorem Entry.transition_of_notice {crates : Crates} {k : Entry} {n : RequestNotification}
    (h : k.newNotice? crates = some n) :
    ∃ r updateId state detail now, k = .transition r updateId state detail now ∧
      state.notifies = true ∧
      n = newNotification crates r updateId (r.revision + 1) state detail now := by
  cases k with
  | transition r updateId state detail now =>
      simp only [Entry.newNotice?] at h
      split at h
      · rename_i hnotifies
        cases h
        exact ⟨r, updateId, state, detail, now, rfl, hnotifies, rfl⟩
      · cases h
  | _ => cases h

/-- Every entry keeps requests, histories and outbox together. -/
theorem Db.Recorded.apply {crates : Crates} {db : Db} {k : Entry} (hdb : db.Recorded)
    (h : k.Enabled crates db) : (k.apply crates db).Recorded where
  logged := by
    intro r hr
    rcases (Entry.mem_requests h).mp hr with ⟨q, hq, rfl⟩ | hnew
    · exact (hdb.logged q hq).step (hdb.step h hq)
    · obtain ⟨hstate, _, hlog⟩ := hdb.history_of_new h hnew
      simp only [Db.cellOf, hlog, hstate]
      exact wellLogged_new _
  revision_eq := by
    intro r hr
    rcases (Entry.mem_requests h).mp hr with ⟨q, hq, rfl⟩ | hnew
    · by_cases hown : ∃ r updateId state detail now, k = .transition r updateId state detail now ∧
          r.requestId = q.requestId
      · obtain ⟨r, updateId, state, detail, now, rfl, hid⟩ := hown
        obtain rfl := Request.eq_of_id h.1 hq hid
        have hversion := hdb.revision_eq r hq
        have hswap := (Entry.transition_swap h hversion).version
        have hrow : ((Entry.transition r updateId state detail now).onRequest r).revision =
            r.revision + 1 := by
          simp [Entry.onRequest]
        rw [hrow, hswap]
        omega
      · have hsame : (k.onRequest q).revision = q.revision := by
          cases k with
          | transition r updateId state detail now =>
              simp only [Entry.onRequest]
              rw [if_neg]
              rintro ⟨hid, _⟩
              exact hown ⟨r, updateId, state, detail, now, rfl, hid.symm⟩
          | _ => rfl
        rw [hsame, Entry.cellOf_eq h]
        · exact hdb.revision_eq q hq
        · intro r updateId state detail now hk hid
          exact hown ⟨r, updateId, state, detail, now, hk, hid⟩
    · obtain ⟨_, hrevision, hlog⟩ := hdb.history_of_new h hnew
      rw [hrevision]
      simp [Db.cellOf, hlog, Cell.version]
  numbered := by
    intro id i u hu
    rw [Entry.history h] at hu
    by_cases hi : i < (db.history id).length
    · rw [List.getElem?_append_left hi] at hu
      exact hdb.numbered id i u hu
    · rw [List.getElem?_append_right (Nat.not_lt.mp hi)] at hu
      have hmem := List.mem_of_getElem? hu
      obtain ⟨hnew, hid⟩ := List.mem_filter.mp hmem
      obtain ⟨r, updateId, state, detail, now, rfl, rfl⟩ :=
        Entry.transition_of_update (Option.mem_toList.mp hnew)
      have hid : r.requestId = id := of_decide_eq_true hid
      have hlast : i - (db.history id).length = 0 := by
        have hlt := (List.getElem?_eq_some_iff.mp hu).1
        simp [Entry.newUpdate?, transitionRow, hid] at hlt
        omega
      have hversion : r.revision = (db.history id).length := by
        have hcell := hdb.revision_eq r h.1
        simpa [Db.cellOf, Cell.version, hid] using hcell
      simp only [transitionRow]
      omega
  owned := by
    intro u hu
    have hkept : ∀ q ∈ db.requests, k.onRequest q ∈ (k.apply crates db).requests ∧
        (k.onRequest q).requestId = q.requestId := fun q hq =>
      ⟨(Entry.mem_requests h).mpr (Or.inl ⟨q, hq, rfl⟩),
        (Request.identity_eq (k.onRequest_identity q)).2.1⟩
    rcases (Entry.mem_updates h).mp hu with hold | hnew
    · obtain ⟨q, hq, hid⟩ := hdb.owned u hold
      exact ⟨_, (hkept q hq).1, (hkept q hq).2.trans hid⟩
    · obtain ⟨r, updateId, state, detail, now, rfl, rfl⟩ := Entry.transition_of_update hnew
      exact ⟨_, (hkept r h.1).1, (hkept r h.1).2⟩
  noticed := by
    intro u hu hnotifies
    rcases (Entry.mem_updates h).mp hu with hold | hnew
    · obtain ⟨n, hn, hrequest, hrevision, hupdate⟩ := hdb.noticed u hold hnotifies
      have hkey := RequestNotification.key_eq (k.onNotice_key db n)
      refine ⟨k.onNotice db n, (Entry.mem_notices h).mpr (Or.inl ⟨n, hn, rfl⟩), ?_, ?_, ?_⟩
      · rw [hkey.2.1, hrequest]
      · rw [hkey.2.2.2.1, hrevision]
      · rw [hkey.2.2.1, hupdate]
    · obtain ⟨r, updateId, state, detail, now, rfl, rfl⟩ := Entry.transition_of_update hnew
      refine ⟨_, (Entry.mem_notices h).mpr (Or.inr (if_pos hnotifies)), rfl, rfl, rfl⟩
  announced := by
    intro n hn
    rcases (Entry.mem_notices h).mp hn with ⟨m, hm, rfl⟩ | hnew
    · obtain ⟨u, hu, hrequest, hrevision, hupdate, hnotifies⟩ := hdb.announced m hm
      have hkey := RequestNotification.key_eq (k.onNotice_key db m)
      refine ⟨u, (Entry.mem_updates h).mpr (Or.inl hu), ?_, ?_, ?_, hnotifies⟩
      · rw [hkey.2.1, hrequest]
      · rw [hkey.2.2.2.1, hrevision]
      · rw [hkey.2.2.1, hupdate]
    · obtain ⟨r, updateId, state, detail, now, rfl, hnotifies, rfl⟩ :=
        Entry.transition_of_notice hnew
      exact ⟨_, (Entry.mem_updates h).mpr (Or.inr rfl), rfl, rfl, rfl, hnotifies⟩

theorem Reachable.recorded {crates : Crates} {db : Db} (h : Reachable crates db) : db.Recorded :=
  Leads.invariant h (fun _ _ hk hd => hd.apply hk) Db.recorded_empty

/-- Along a run a request keeps its identity and its cell takes steps. -/
theorem Leads.request {crates : Crates} {db db' : Db} (h : Leads crates db db')
    (hdb : db.Recorded) {r : Request} (hr : r ∈ db.requests) :
    ∃ q ∈ db'.requests, q.identity = r.identity ∧
      Cell.Run Allowed (db.cellOf r) (db'.cellOf q) := by
  have hrun := Leads.invariant (P := fun d => d.Recorded ∧ ∃ q ∈ d.requests,
    q.identity = r.identity ∧ Cell.Run Allowed (db.cellOf r) (d.cellOf q)) h ?_
    ⟨hdb, r, hr, rfl, .refl⟩
  · exact hrun.2
  · rintro k d hk ⟨hd, q, hq, hidentity, hsteps⟩
    refine ⟨hd.apply hk, k.onRequest q, (Entry.mem_requests hk).mpr (Or.inl ⟨q, hq, rfl⟩), ?_, ?_⟩
    · rw [k.onRequest_identity, hidentity]
    · exact hsteps.tail (hd.step hk hq)

/-! ## The history of a stored request -/

/-- The update rows lead from `first` to `last`, each starting in the state before it. -/
def Chain : RequestState → List RequestUpdate → RequestState → Prop
  | first, [], last => first = last
  | first, u :: us, last => u.previousState = first ∧ Chain u.state us last

theorem chain_iff_linked {first last : RequestState} {us : List RequestUpdate} :
    Chain first us last ↔
      Cell.Linked first (us.map fun u => (u.previousState, u.state)) last := by
  induction us generalizing first with
  | nil => exact Iff.rfl
  | cons u us ih => exact and_congr Iff.rfl ih

/-- How far a state is from the end. -/
def RequestState.rank : RequestState → Nat
  | .received => 3
  | .acknowledged => 2
  | .inProgress => 1
  | .completed | .failed | .cancelled | .expired => 0

/-- Every allowed transition comes closer to the end. -/
theorem rank_lt_of_allowed (a b : RequestState) (h : Allowed a b) : b.rank < a.rank := by
  revert h
  unfold Allowed
  cases a <;> cases b <;> decide

theorem not_allowed_of_terminal {a : RequestState} (h : a.isTerminal = true) (b : RequestState) :
    ¬ Allowed a b := by
  unfold Allowed allowedTransition
  rw [h]
  exact Bool.false_ne_true

/-- What the tables say of a request `r` with the update rows `us`. -/
structure Db.History (crates : Crates) (db : Db) (r : Request) (us : List RequestUpdate) :
    Prop where
  /-- the revision counts the rows -/
  revision_eq : r.revision = us.length
  /-- the rows carry the revisions 1, 2, … and expected the one before -/
  numbered : ∀ (i : Nat) (u : RequestUpdate), us[i]? = some u →
    u.revision = i + 1 ∧ u.expectedRevision = u.revision - 1
  /-- the states form a chain from `received` to the current state -/
  chain : Chain .received us r.state
  allowed_mem : ∀ u ∈ us, allowedTransition u.previousState u.state = true
  /-- a terminal state is never left -/
  terminal : r.state.isTerminal = true → ∀ db', Leads crates db db' →
    ∃ q ∈ db'.requests, q.requestId = r.requestId ∧ q.state = r.state
  /-- one notification for each update into `in_progress` or a terminal state -/
  notified : ∀ u ∈ us, u.state = .inProgress ∨ u.state.isTerminal = true →
    ∃! n, n ∈ db.requestNotifications ∧ n.requestId = r.requestId ∧ n.revision = u.revision ∧
      n.updateId = u.updateId
  /-- none for an acknowledgement -/
  silent : ∀ u ∈ us, u.state = .acknowledged →
    ∀ n ∈ db.requestNotifications, n.requestId = r.requestId → n.revision ≠ u.revision
  /-- and no others -/
  announced : ∀ n ∈ db.requestNotifications, n.requestId = r.requestId →
    ∃ u ∈ us, u.revision = n.revision ∧ u.updateId = n.updateId ∧ u.state.notifies = true
  length_le : us.length ≤ 3
  /-- the capacity check of an update never fires -/
  capacity : (db.requestUpdates.count fun u => u.requestId = r.requestId) + 1 < maxRequestUpdates

theorem RequestState.notifies_iff {state : RequestState} :
    state.notifies = true ↔ state = .inProgress ∨ state.isTerminal = true := by
  cases state <;> decide

/-- A notification and the update of its revision are of one kind. -/
theorem Db.Recorded.update_of_notice {db : Db} (hdb : db.Recorded) {n : RequestNotification}
    (hn : n ∈ db.requestNotifications) {u : RequestUpdate} (hu : u ∈ db.requestUpdates)
    (hrequest : n.requestId = u.requestId) (hrevision : n.revision = u.revision) :
    u.updateId = n.updateId ∧ u.state.notifies = true := by
  obtain ⟨v, hv, hvrequest, hvrevision, hvupdate, hnotifies⟩ := hdb.announced n hn
  -- both rows stand in one history under one revision, so they are the same row
  have hsame : v = u := by
    obtain ⟨i, hi⟩ := List.mem_iff_getElem?.mp (Db.mem_history.mpr ⟨hv, hvrequest⟩)
    obtain ⟨j, hj⟩ := List.mem_iff_getElem?.mp (Db.mem_history.mpr ⟨hu, hrequest.symm⟩)
    have hij : i = j := by
      have hvi := (hdb.numbered _ i v hi).2
      have huj := (hdb.numbered _ j u hj).2
      omega
    subst hij
    rw [hi] at hj
    exact Option.some.inj hj
  subst hsame
  exact ⟨hvupdate, hnotifies⟩

/-- **Request history.**  In every reachable database a request's revision counts its update rows,
these are numbered and linked from `received` to its state by allowed transitions, each notifying
update has exactly one notification and the others none, and there are at most three. -/
theorem reachable_history {crates : Crates} {db : Db} (h : Reachable crates db) :
    ∀ r ∈ db.requests, db.History crates r (db.history r.requestId) := by
  intro r hr
  have hdb := h.recorded
  have hlogged := hdb.logged r hr
  have hlength : (db.cellOf r).version = (db.history r.requestId).length := List.length_map _
  have hle : (db.history r.requestId).length ≤ 3 := by
    have hrank := hlogged.version_le RequestState.rank rank_lt_of_allowed
    rw [hlength] at hrank
    exact Nat.le_trans (Nat.le_add_right _ _) hrank
  refine ⟨?_, ?_, ?_, ?_, ?_, ?_, ?_, ?_, hle, ?_⟩
  · rw [hdb.revision_eq r hr, hlength]
  · intro i u hu
    obtain ⟨hexpected, hrevision⟩ := hdb.numbered _ i u hu
    refine ⟨hrevision, ?_⟩
    omega
  · exact chain_iff_linked.mpr hlogged.linked
  · intro u hu
    exact hlogged.allowed_mem _ (List.mem_map_of_mem hu)
  · intro hterminal db' hleads
    obtain ⟨q, hq, hidentity, hrun⟩ := hleads.request hdb hr
    have hsame := hrun.final (not_allowed_of_terminal hterminal)
    exact ⟨q, hq, (Request.identity_eq hidentity).2.1, congrArg Cell.value hsame⟩
  · intro u hu hnotifies
    obtain ⟨humem, huid⟩ := Db.mem_history.mp hu
    obtain ⟨n, hn, hrequest, hrevision, hupdate⟩ :=
      hdb.noticed u humem (RequestState.notifies_iff.mpr hnotifies)
    refine ⟨n, ⟨hn, hrequest.trans huid, hrevision, hupdate⟩, ?_⟩
    rintro m ⟨hm, hmrequest, hmrevision, _⟩
    exact RequestNotification.eq_of_revision hm hn
      (hmrequest.trans (hrequest.trans huid).symm) (hmrevision.trans hrevision.symm)
  · intro u hu hstate n hn hrequest hrevision
    obtain ⟨humem, huid⟩ := Db.mem_history.mp hu
    have hnotifies := (hdb.update_of_notice hn humem (hrequest.trans huid.symm) hrevision).2
    rw [hstate] at hnotifies
    cases hnotifies
  · intro n hn hrequest
    obtain ⟨u, hu, hurequest, hrevision, hupdate, hnotifies⟩ := hdb.announced n hn
    exact ⟨u, Db.mem_history.mpr ⟨hu, hurequest.trans hrequest⟩, hrevision, hupdate, hnotifies⟩
  · have hcount : (db.requestUpdates.count fun u => u.requestId = r.requestId) =
        (db.history r.requestId).length := List.countP_eq_length_filter
    rw [hcount]
    exact Nat.lt_of_le_of_lt (Nat.add_le_add_right hle 1) (by decide)

/-- The request of the sample is completed. -/
def sampleCompletedOps : List Op :=
  sampleRequestOps ++
    [.requestUpdate "conversation-1" "ci" "job-1" "done" "completed" (some 1) (some "built") 14]

/-- A request that was acknowledged and then completed. -/
theorem reachable_history_sample :
    ∃ r ∈ (Db.after sampleCrates sampleCompletedOps).requests,
      r.state = .completed ∧ r.revision = 2 ∧
        Db.History sampleCrates (Db.after sampleCrates sampleCompletedOps) r
          ((Db.after sampleCrates sampleCompletedOps).history r.requestId) := by
  have hstored : ∃ r ∈ (Db.after sampleCrates sampleCompletedOps).requests.rows,
      r.state = .completed ∧ r.revision = 2 := by
    decide +kernel
  obtain ⟨r, hr, hstate, hrevision⟩ := hstored
  exact ⟨r, hr, hstate, hrevision, reachable_history (reachable_after _ _) r hr⟩

end CodexMonitor
