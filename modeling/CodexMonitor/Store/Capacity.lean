import CodexMonitor.Store.Expiry
import CodexMonitor.Store.Updates

/-!
# Room in the outbox for open requests

Every open request ends with one more notification, so the pending notifications
and the open requests together must not outgrow the outbox.  Settlements only make
room and a terminal transition trades an open request for its notification; a new
request and an `in_progress` notification take a slot, and the store does not ask
whether one is left.  Runs that do ask keep the room.
-/

namespace CodexMonitor

open Transaction

/-! ## What is reserved -/

def Db.openRequests (db : Db) : Nat := db.requests.count fun r => r.state.isTerminal = false

/-- Slots of the outbox that are taken, or will be when the open requests end. -/
def Db.reserved (db : Db) : Nat := db.pendingNotices + db.openRequests

/-- The slots an entry takes. -/
def Entry.slots : Entry → Nat
  | .create _ => 1
  | .transition _ _ .inProgress _ _ => 1
  | _ => 0

section counting

variable {ρ : Type} {rows : List ρ} {f : ρ → ρ} {p : ρ → Prop} [DecidablePred p]

theorem countP_map_le (h : ∀ a ∈ rows, p (f a) → p a) :
    (rows.map f).countP (fun a => p a) ≤ rows.countP fun a => p a := by
  rw [List.countP_map]
  exact List.countP_mono_left fun a ha hp => decide_eq_true (h a ha (of_decide_eq_true hp))

/-- Rows that are all read are counted at least as often by what is read from them. -/
theorem countP_le_count_mapM {β : Type} [BEq β] [LawfulBEq β] {g : ρ → Option β} {found : List β}
    {b : β} (hread : rows.mapM g = some found) (h : ∀ a, p a → ∀ b', g a = some b' → b' = b) :
    rows.countP (fun a => p a) ≤ found.count b := by
  induction rows generalizing found with
  | nil => exact Nat.zero_le _
  | cons a rows ih =>
      rw [List.mapM_cons] at hread
      obtain ⟨first, hfirst, hread⟩ := Option.bind_eq_some_iff.mp hread
      obtain ⟨rest, hrest, hread⟩ := Option.bind_eq_some_iff.mp hread
      obtain rfl := Option.some.inj hread
      have hle := ih hrest
      rw [List.countP_cons, List.count_cons]
      by_cases ha : p a
      · obtain rfl := h a ha first hfirst
        simp only [ha, decide_true, if_true, beq_self_eq_true]
        omega
      · simp only [ha, decide_false, Bool.false_eq_true, if_false]
        omega

/-- Rewriting a counted row into one that is not counted. -/
theorem countP_map_lt (h : ∀ a ∈ rows, p (f a) → p a) {r : ρ} (hr : r ∈ rows) (hp : p r)
    (hdrop : ¬ p (f r)) : (rows.map f).countP (fun a => p a) < rows.countP fun a => p a := by
  induction rows with
  | nil => cases hr
  | cons a rows ih =>
      have htail : ∀ b ∈ rows, p (f b) → p b := fun b hb => h b (List.mem_cons_of_mem _ hb)
      rw [List.map_cons, List.countP_cons, List.countP_cons]
      rcases List.mem_cons.mp hr with rfl | hr
      · have hle := countP_map_le htail
        rw [if_pos (decide_eq_true hp), if_neg (by simpa using hdrop)]
        omega
      · have hlt := ih htail hr
        by_cases hfa : p (f a)
        · rw [if_pos (decide_eq_true hfa), if_pos (decide_eq_true (h a List.mem_cons_self hfa))]
          omega
        · rw [if_neg (by simpa using hfa)]
          omega

end counting

section entries

variable {crates : Crates} {db : Db} {k : Entry}

/-- No entry makes a settled notification pending again. -/
theorem Entry.pendingNotices_le (h : k.Enabled crates db) :
    (k.apply crates db).pendingNotices ≤
      db.pendingNotices + (k.newNotice? crates).toList.length := by
  unfold Db.pendingNotices Table.count
  rw [Entry.rows_notices h, List.countP_append]
  refine Nat.add_le_add (countP_map_le fun n hn hpending => ?_) List.countP_le_length
  cases Entry.notice_move h hn with
  | stay hsame => exact hsame.symm.trans hpending
  | abandon hn | expire hn | accept hn | die hn | fail hn | link hn | deliver hn => exact hn

theorem open_of_allowed {previous target : RequestState}
    (h : allowedTransition previous target = true) : previous.isTerminal = false :=
  Bool.eq_false_of_not_eq_true fun hterminal => not_allowed_of_terminal hterminal target h

/-- No entry opens a request again that has ended. -/
theorem Entry.onRequest_open (h : k.Enabled crates db) {r : Request} (hr : r ∈ db.requests)
    (hopen : (k.onRequest r).state.isTerminal = false) : r.state.isTerminal = false := by
  cases k with
  | transition q updateId state detail now =>
      simp only [Entry.onRequest] at hopen
      split at hopen
      · rename_i hmatch
        obtain rfl := Request.eq_of_id hr h.1 hmatch.1
        exact open_of_allowed h.2.1
      · exact hopen
  | _ => exact hopen

theorem Entry.openRequests_le (h : k.Enabled crates db) :
    (k.apply crates db).openRequests ≤ db.openRequests + k.newRequest?.toList.length := by
  unfold Db.openRequests Table.count
  rw [Entry.rows_requests h, List.countP_append]
  exact Nat.add_le_add (countP_map_le fun r hr => Entry.onRequest_open h hr) List.countP_le_length

/-- A terminal transition closes its request. -/
theorem openRequests_lt {r : Request} {updateId : String} {state : RequestState}
    {detail : Option String} {now : Rat} (hterminal : state.isTerminal = true)
    (h : (Entry.transition r updateId state detail now).Enabled crates db) :
    ((Entry.transition r updateId state detail now).apply crates db).openRequests <
      db.openRequests := by
  unfold Db.openRequests Table.count
  have hrows := Entry.rows_requests h
  simp only [Entry.newRequest?, Option.toList_none, List.append_nil] at hrows
  rw [hrows]
  have hclosed : ((Entry.transition r updateId state detail now).onRequest r).state = state := by
    simp [Entry.onRequest]
  refine countP_map_lt (fun q hq => Entry.onRequest_open h hq) h.1 (open_of_allowed h.2.1) ?_
  rw [hclosed, hterminal]
  exact Bool.noConfusion

/-- An entry reserves the slots it takes and no more: settlements make room, and a terminal
transition puts its notification where its request had a place. -/
theorem Entry.reserved_le (h : k.Enabled crates db) :
    (k.apply crates db).reserved ≤ db.reserved + k.slots := by
  have hpending := Entry.pendingNotices_le h
  have hopen := Entry.openRequests_le h
  unfold Db.reserved
  cases k with
  | transition r updateId state detail now =>
      have hone : ((Entry.transition r updateId state detail now).newNotice? crates).toList.length
          ≤ 1 := by
        simp only [Entry.newNotice?]
        split <;> simp
      cases state with
      | received | acknowledged =>
          simp only [Entry.newNotice?, Entry.newRequest?, RequestState.notifies] at hpending hopen
          simp only [Bool.false_eq_true, if_false, Option.toList_none, List.length_nil]
            at hpending hopen
          omega
      | inProgress =>
          simp only [Entry.newRequest?, Option.toList_none, List.length_nil, Entry.slots]
            at hopen ⊢
          omega
      | completed | failed | cancelled | expired =>
          have hlt := openRequests_lt rfl h
          omega
  | create r =>
      simp only [Entry.newNotice?, Entry.newRequest?, Entry.slots, Option.toList_none,
        Option.toList_some, List.length_nil, List.length_singleton] at hpending hopen ⊢
      omega
  | _ =>
      simp only [Entry.newNotice?, Entry.newRequest?, Option.toList_none, List.length_nil]
        at hpending hopen
      omega

end entries

/-! ## Calls that take a slot -/

/-- The arguments of `requestCreate` are valid, they name a stored event of the source and of the
thread, and its key is new. -/
structure Db.Creates (db : Db) (crates : Crates) (thread source key deliveryId : String)
    (payload : Value) (expiresAt : Option F64) : Prop where
  thread_ok : isIdentifier thread = true
  source_ok : isIdentifier source = true
  key_ok : isIdentifier key = true
  deliveryId_ok : isIdentifier deliveryId = true
  payload_ok : (canonicalJson crates payload).utf8ByteSize ≤ maxRequestBytes
  expiry_ok : (validExpiry expiresAt).isSome = true
  delivered : ∃ e ∈ db.events, e.id = deliveryId ∧ e.source = source ∧
    ∃ b ∈ db.bindings, b.name = e.binding ∧ b.thread = thread
  new : db.requestAt thread source key = none
  room : (db.requests.count fun _ => True) < maxRequests

/-- The arguments of `requestUpdate` are valid, the update id is new, and the request may still be
put in progress. -/
structure Db.Starts (db : Db) (thread source key updateId : String)
    (expectedRevision : Option Int) (detail : Option String) : Prop where
  valid : ValidUpdate thread source key updateId detail
  startable : ∃ r, db.requestAt thread source key = some r ∧
    db.updateAt r.requestId updateId = none ∧
    (∀ expected ∈ expectedRevision, expected = r.revision) ∧
    allowedTransition r.state .inProgress = true ∧
    (db.requestUpdates.count fun u => u.requestId = r.requestId) + 1 < maxRequestUpdates
  room : db.pendingNotices < maxRequestNotifications

/-- The call creates a request or puts one in progress. -/
def Op.TakesSlot (crates : Crates) (db : Db) : Op → Prop
  | .requestCreate thread source key deliveryId payload expiresAt _ _ =>
      db.Creates crates thread source key deliveryId payload expiresAt
  | .requestUpdate thread source key updateId text expectedRevision detail _ =>
      updateState? text = some .inProgress ∧
        db.Starts thread source key updateId expectedRevision detail
  | _ => False

/-- A call that takes a slot finds one that is not reserved. -/
def KeepsReserve (crates : Crates) (db : Db) (op : Op) : Prop :=
  op.TakesSlot crates db → db.reserved < maxRequestNotifications

section calls

variable {crates : Crates} {db t : Db}

/-- What a successful `requestCreate` did: it found its request, or it created it under the
conditions that `Creates` names. -/
theorem requestCreate_ok {thread source key deliveryId : String} {payload : Value}
    {expiresAt : Option F64} {uuid : Uuid} {now : Rat} {answer : RequestAnswer}
    (h : (requestCreate crates thread source key deliveryId payload expiresAt uuid now).run db
      = (.ok answer, t)) :
    t = db ∨ db.Creates crates thread source key deliveryId payload expiresAt ∧
      ∃ r, r.source = source ∧ (Entry.create r).Enabled crates db ∧
        t = (Entry.create r).apply crates db := by
  simp only [requestCreate, Tx.bind_ok, validateIdentifier_ok, bailIf_run_ok, Tx.expect_ok,
    withTx, Tx.atomically_ok, Tx.query_ok] at h
  obtain ⟨_, _, ⟨hthread, rfl⟩, _, _, ⟨hsource, rfl⟩, _, _, ⟨hkey, rfl⟩, _, _, ⟨hid, rfl⟩, _, _,
    ⟨hsize, rfl⟩, expiry, _, ⟨hexpiry, rfl⟩, row, _, ⟨hrow, rfl⟩, e, _, ⟨rfl, rfl⟩, _, _,
    ⟨hown, rfl⟩, target, _, ⟨htarget, rfl⟩, b, _, ⟨rfl, rfl⟩, _, _, ⟨hrouted, rfl⟩, old, _,
    ⟨hold, rfl⟩, h⟩ := h
  obtain ⟨he, heid⟩ := Table.find?_some hrow
  obtain ⟨hb, hname⟩ := Table.find?_some htarget
  have hown := Decidable.of_not_not hown
  have hrouted := Decidable.of_not_not hrouted
  split at h
  · simp only [Tx.bind_ok, Tx.ofExcept_ok, bailIf_run_ok, Tx.pure_ok] at h
    obtain ⟨_, _, ⟨_, rfl⟩, _, _, ⟨_, rfl⟩, _, rfl⟩ := h
    exact Or.inl rfl
  · simp only [Tx.bind_ok, Tx.query_ok, bailIf_run_ok, insertRequest_ok, Tx.expect_ok,
      Tx.ofExcept_ok, Tx.pure_ok] at h
    obtain ⟨_, _, ⟨rfl, rfl⟩, _, _, ⟨hcount, rfl⟩, _, _, ⟨hadmits, rfl⟩, _, _, ⟨_, rfl⟩, _, _,
      ⟨_, rfl⟩, _, _, ⟨_, rfl⟩, _, rfl⟩ := h
    refine Or.inr ⟨⟨hthread, hsource, hkey, hid, Nat.le_of_not_lt hsize, by rw [hexpiry]; rfl,
      ⟨e, he, heid, hown, b, hb, hname, hrouted⟩, hold, Nat.lt_of_not_le hcount⟩, ?_⟩
    exact ⟨newRequest db.nextRequestSeq uuid thread source key deliveryId e.binding
      (canonicalJson crates payload) expiry now, rfl,
      ⟨hadmits, rfl, rfl, rfl, ⟨uuid, rfl⟩, e, he, heid, hown, rfl, b, hb, hname, hrouted⟩, rfl⟩

/-- A request is put in progress under the conditions that `Starts` names. -/
theorem requestUpdate_starts {thread source key updateId text : String}
    {expectedRevision : Option Int} {detail : Option String} {now : Rat} {answer : UpdateAnswer}
    (h : (requestUpdate crates thread source key updateId text expectedRevision detail now).run db
      = (.ok answer, t)) (hanswer : answer.duplicate = false)
    (htext : updateState? text = some .inProgress) :
    db.Starts thread source key updateId expectedRevision detail := by
  obtain ⟨hvalid, _⟩ := requestUpdate_valid h
  obtain ⟨r, state, hrow, hstate, ⟨hduplicate, _⟩ | ⟨_, hnew, hexpected, henabled, _⟩⟩ :=
    requestUpdate_ok h
  · rw [hanswer] at hduplicate
    cases hduplicate
  rw [htext] at hstate
  cases hstate
  refine ⟨hvalid, ⟨r, hrow, hnew, hexpected, henabled.2.1, ?_⟩, (henabled.2.2.2 rfl).1⟩
  simp only [requestUpdate, Tx.bind_ok, validateIdentifier_ok, Tx.expect_ok, bailIf_run_ok,
    withTx, Tx.atomically_ok, Tx.query_ok] at h
  obtain ⟨_, _, ⟨_, rfl⟩, _, _, ⟨_, rfl⟩, _, _, ⟨_, rfl⟩, _, _, ⟨_, rfl⟩, state, _,
    ⟨hstate, rfl⟩, _, _, ⟨_, rfl⟩, _, _, hdetail, _, _, ⟨hrow', rfl⟩, q, _, ⟨rfl, rfl⟩, _,
    _, ⟨hprior, rfl⟩, h⟩ := h
  obtain rfl := (validateDetail_readOnly _).ok hdetail
  rw [hrow] at hrow'
  obtain rfl := Option.some.inj hrow'
  rw [htext] at hstate
  obtain rfl := Option.some.inj hstate
  rw [hnew] at hprior
  subst hprior
  simp only [Tx.bind_ok, bailIf_run_ok, Tx.query_ok] at h
  obtain ⟨_, _, ⟨_, rfl⟩, _, _, ⟨_, rfl⟩, _, _, ⟨rfl, rfl⟩, _, _, ⟨hcount, rfl⟩, _⟩ := h
  exact Nat.lt_of_not_le fun hle => hcount ⟨rfl, hle⟩

/-- Entries without slots keep the room. -/
theorem Commits.reserved_le {W : Entry → Prop} (h : Commits crates W db t)
    (hW : ∀ k, W k → k.slots = 0) : t.reserved ≤ db.reserved := by
  refine h.invariant (P := fun d => d.reserved ≤ db.reserved) ?_ (Nat.le_refl _)
  intro k hk d henabled hd
  have hle := Entry.reserved_le henabled
  rw [hW k hk] at hle
  exact Nat.le_trans hle hd

/-- **A step that asks for room keeps the outbox within its limit.** -/
theorem reserved_step {op : Op} (hop : KeepsReserve crates db op)
    (hdb : db.reserved ≤ maxRequestNotifications) :
    (op.step crates db).reserved ≤ maxRequestNotifications := by
  have hquiet : (∀ k, op.Writes crates k → k.slots = 0) →
      (op.step crates db).reserved ≤ maxRequestNotifications := fun hW =>
    Nat.le_trans (Commits.reserved_le (op.commits crates db) hW) hdb
  cases op with
  | requestCreate thread source key deliveryId payload expiresAt uuid now =>
      rcases hrun : (requestCreate crates thread source key deliveryId payload expiresAt uuid
        now).run db with ⟨error | answer, t⟩
      · rw [step_of_fail rfl hrun]
        exact hdb
      · rw [step_of_run rfl hrun]
        rcases requestCreate_ok hrun with rfl | ⟨hcreates, r, _, henabled, rfl⟩
        · exact hdb
        · have hroom := hop hcreates
          have hle := Entry.reserved_le henabled
          simp only [Entry.slots] at hle
          omega
  | requestUpdate thread source key updateId text expectedRevision detail now =>
      rcases hrun : (requestUpdate crates thread source key updateId text expectedRevision detail
        now).run db with ⟨error | answer, t⟩
      · rw [step_of_fail rfl hrun]
        exact hdb
      · rw [step_of_run rfl hrun]
        obtain ⟨r, state, hrow, hstate, ⟨_, rfl, _⟩ | ⟨hnew, _, _, henabled, rfl⟩⟩ :=
          requestUpdate_ok hrun
        · exact hdb
        · have hle := Entry.reserved_le henabled
          cases state with
          | inProgress =>
              have hroom := hop ⟨hstate, requestUpdate_starts hrun hnew hstate⟩
              simp only [Entry.slots] at hle
              omega
          | _ => exact Nat.le_trans hle hdb
  | _ =>
      refine hquiet ?_
      rintro k hk
      cases hk <;> rfl

theorem ReachableBy.reserved_le (h : ReachableBy crates (KeepsReserve crates) db) :
    db.reserved ≤ maxRequestNotifications :=
  LeadsBy.invariant (P := fun d => d.reserved ≤ maxRequestNotifications)
    (fun _ _ hd hop => reserved_step hop hd) h (Nat.zero_le _)

end calls

end CodexMonitor
