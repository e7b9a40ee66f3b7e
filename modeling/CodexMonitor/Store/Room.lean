import CodexMonitor.Store.Capacity

/-!
# What the room in the outbox is for

With a slot kept for every open request, no terminal update is refused for want of
room and no expiry waits for it.  The store does not keep it: ten thousand requests
put in progress fill the outbox, and none of them can be completed.
-/

namespace CodexMonitor

open Transaction

/-! ## What the room is for -/

def capacityError : StoreError := .bail "request notification capacity reached"

/-- A terminal update of an open request from its current revision is not refused for want of
room. -/
def TerminalRoom (crates : Crates) (db : Db) : Prop :=
  ∀ r ∈ db.requests, r.state.isTerminal = false →
    ∀ (updateId text : String) (state : RequestState) (expectedRevision : Option Int)
      (detail : Option String) (now : Rat),
      ValidUpdate r.thread r.source r.requestKey updateId detail →
      updateState? text = some state → state.isTerminal = true →
      db.updateAt r.requestId updateId = none →
      (∀ expected ∈ expectedRevision, expected = r.revision) →
      ((requestUpdate crates r.thread r.source r.requestKey updateId text expectedRevision detail
        now).run db).1 ≠ .error capacityError

/-- Maintenance is not refused for want of room, and when it succeeds every due request that its
limit lets it get to has expired. -/
def ExpiryRoom (crates : Crates) (db : Db) : Prop :=
  ∀ (limit : Nat) (uuids : Nat → Uuid) (now : Rat),
    ((requestMaintenance crates limit uuids now).run db).1 ≠ .error capacityError ∧
      ∀ done t, (requestMaintenance crates limit uuids now).run db = (.ok done, t) →
        ∀ r ∈ (db.dueRequests now).take limit,
          ∃ q ∈ t.requests, q.requestId = r.requestId ∧ q.state = .expired

section room

variable {crates : Crates} {db : Db}

theorem avoids_insertInto (message : String) (insert : Db → Option Db) :
    Tx.Avoids (insertInto message insert) capacityError db :=
  Tx.avoids_attempt (by simp [capacityError]) insert

theorem avoids_requestValue (r : Request) :
    Tx.Avoids (Tx.ofExcept (requestValue crates r)) capacityError db := by
  refine Tx.avoids_ofExcept ?_
  unfold requestValue capacityError
  split <;> simp

/-- A transition is refused for want of room only when the outbox is full. -/
theorem recordTransition_avoids (hroom : db.pendingNotices < maxRequestNotifications)
    (r : Request) (updateId : String) (expected : Int) (state : RequestState)
    (detail : Option String) (now : Rat) :
    Tx.Avoids (recordTransition crates r updateId expected state detail now) capacityError db := by
  unfold recordTransition
  refine (avoids_insertInto _ _).bind fun _ s hinsert => ?_
  obtain ⟨_, rfl⟩ := insertUpdate_ok.mp hinsert
  refine (Tx.avoids_query _).bind fun changed s hquery => ?_
  obtain ⟨rfl, rfl⟩ := Tx.query_ok.mp hquery
  refine (Tx.avoids_bailIf fun _ => by decide).bind fun _ s hbail => ?_
  obtain ⟨_, rfl⟩ := bailIf_run_ok.mp hbail
  refine (Tx.avoids_write _).bind fun _ s hwrite => ?_
  obtain rfl := Tx.write_ok.mp hwrite
  unfold insertRequestNotificationTx
  refine Tx.Avoids.ite (fun _ => Tx.avoids_pure ()) fun _ => ?_
  refine (Tx.avoids_query _).bind fun pending s hquery => ?_
  obtain ⟨rfl, rfl⟩ := Tx.query_ok.mp hquery
  refine (Tx.avoids_bailIf fun hfull => ?_).bind fun _ s _ => avoids_insertInto _ _
  exact absurd hroom (Nat.not_lt_of_le hfull)

/-- An update is refused for want of room only when the outbox is full. -/
theorem requestUpdate_avoids (hroom : db.pendingNotices < maxRequestNotifications)
    (thread source key updateId text : String) (expectedRevision : Option Int)
    (detail : Option String) (now : Rat) :
    Tx.Avoids
      (requestUpdate crates thread source key updateId text expectedRevision detail now)
      capacityError db := by
  unfold requestUpdate validateIdentifier
  refine (Tx.avoids_bailIf fun _ => by decide).bind fun _ s hcheck => ?_
  obtain ⟨_, rfl⟩ := bailIf_run_ok.mp hcheck
  refine (Tx.avoids_bailIf fun _ => by decide).bind fun _ s hcheck => ?_
  obtain ⟨_, rfl⟩ := bailIf_run_ok.mp hcheck
  refine (Tx.avoids_bailIf fun _ => by decide).bind fun _ s hcheck => ?_
  obtain ⟨_, rfl⟩ := bailIf_run_ok.mp hcheck
  refine (Tx.avoids_bailIf fun _ => by decide).bind fun _ s hcheck => ?_
  obtain ⟨_, rfl⟩ := bailIf_run_ok.mp hcheck
  refine (Tx.avoids_expect (by decide) _).bind fun state s hstate => ?_
  obtain ⟨_, rfl⟩ := Tx.expect_ok.mp hstate
  refine (Tx.avoids_bailIf fun _ => by decide).bind fun _ s hcheck => ?_
  obtain ⟨_, rfl⟩ := bailIf_run_ok.mp hcheck
  have hdetail : Tx.Avoids (validateDetail detail) capacityError db := by
    cases detail with
    | none => exact Tx.avoids_pure ()
    | some detail => exact Tx.avoids_bailIf fun _ => by decide
  refine hdetail.bind fun _ s hcheck => Tx.Avoids.atomically ?_
  obtain rfl := (validateDetail_readOnly _).ok hcheck
  refine (Tx.avoids_query _).bind fun row s hquery => ?_
  obtain ⟨_, rfl⟩ := Tx.query_ok.mp hquery
  refine (Tx.avoids_expect (by decide) _).bind fun r s hrow => ?_
  obtain ⟨_, rfl⟩ := Tx.expect_ok.mp hrow
  refine (Tx.avoids_query _).bind fun prior s hquery => ?_
  obtain ⟨_, rfl⟩ := Tx.query_ok.mp hquery
  -- the answer is the stored request, whatever was written
  have hanswer : ∀ (duplicate : Bool) (u : Db), Tx.Avoids (do
      let row ← Tx.query fun db => db.requestById r.requestId
      let row ← Tx.expect (.sqlite "Query returned no rows") row
      let value ← Tx.ofExcept (requestValue crates row)
      pure (⟨value, duplicate, updateId⟩ : UpdateAnswer)) capacityError u :=
    fun duplicate u => (Tx.avoids_query _).bind fun _ _ _ =>
      (Tx.avoids_expect (by decide) _).bind fun _ _ _ =>
        (avoids_requestValue _).bind fun _ _ _ => Tx.avoids_pure _
  cases prior with
  | some u => exact (Tx.avoids_bailIf fun _ => by decide).bind fun _ _ _ => hanswer _ _
  | none =>
      refine (Tx.avoids_bailIf fun _ => by decide).bind fun _ s hcheck => ?_
      obtain ⟨_, rfl⟩ := bailIf_run_ok.mp hcheck
      refine (Tx.avoids_bailIf fun _ => by decide).bind fun _ s hcheck => ?_
      obtain ⟨_, rfl⟩ := bailIf_run_ok.mp hcheck
      refine (Tx.avoids_query _).bind fun count s hquery => ?_
      obtain ⟨_, rfl⟩ := Tx.query_ok.mp hquery
      refine (Tx.avoids_bailIf fun _ => by decide).bind fun _ s hcheck => ?_
      obtain ⟨_, rfl⟩ := bailIf_run_ok.mp hcheck
      exact (recordTransition_avoids hroom _ _ _ _ _ _).bind fun _ _ _ => hanswer _ _

/-- The expiry loop looks for room before it asks for it. -/
theorem expiryLoop_avoids {now : Rat} {limit fuel work : Nat} :
    Tx.Avoids (expiryLoop crates now limit fuel work) capacityError db := by
  induction fuel generalizing db work with
  | zero => exact Tx.avoids_pure _
  | succ fuel ih =>
      unfold expiryLoop
      refine Tx.Avoids.ite (fun _ => Tx.avoids_pure _) fun _ => ?_
      refine (Tx.avoids_query _).bind fun due s hquery => ?_
      obtain ⟨_, rfl⟩ := Tx.query_ok.mp hquery
      cases due with
      | none => exact Tx.avoids_pure _
      | some r =>
          refine (Tx.avoids_query _).bind fun pending s hquery => ?_
          obtain ⟨rfl, rfl⟩ := Tx.query_ok.mp hquery
          refine Tx.Avoids.ite (fun _ => Tx.avoids_pure _) fun hroom => ?_
          exact (recordTransition_avoids (Nat.lt_of_not_le hroom) _ _ _ _ _ _).bind
            fun _ _ _ => ih

theorem transferOne_avoids (uuid : Uuid) (now : Rat) (n : RequestNotification) :
    Tx.Avoids (transferOne uuid now n) capacityError db := by
  have hwrite : ∀ (f : Db → Db) (u : Db),
      Tx.Avoids (do Tx.write f; pure 1 : StoreM Nat) capacityError u :=
    fun f u => (Tx.avoids_write f).bind fun _ _ _ => Tx.avoids_pure _
  unfold transferOne
  refine (Tx.avoids_query _).bind fun target s _ => ?_
  cases target with
  | none => exact hwrite _ _
  | some b =>
      refine Tx.Avoids.ite (fun _ => hwrite _ _) fun _ => ?_
      refine Tx.Avoids.ite (fun _ => Tx.avoids_pure _) fun _ => ?_
      refine (Tx.avoids_query _).bind fun row s _ => ?_
      refine (Tx.avoids_expect (by decide) _).bind fun r s _ => ?_
      refine Tx.Avoids.ite (fun _ => hwrite _ _) fun _ => ?_
      refine (Tx.avoids_query _).bind fun existing s _ => ?_
      cases existing with
      | some e => exact hwrite _ _
      | none =>
          refine (Tx.avoids_query _).bind fun pending s _ => ?_
          refine (Tx.avoids_query _).bind fun recent s _ => ?_
          exact Tx.Avoids.ite (fun _ => hwrite _ _) fun _ =>
            (avoids_insertInto _ _).bind fun _ _ _ => hwrite _ _

theorem transferLoop_avoids {uuids : Nat → Uuid} {now : Rat} {limit : Nat}
    {batch : List RequestNotification} {i work : Nat} :
    Tx.Avoids (transferLoop uuids now limit batch i work) capacityError db := by
  induction batch generalizing db i work with
  | nil => exact Tx.avoids_pure _
  | cons n rest ih =>
      unfold transferLoop
      refine Tx.Avoids.ite (fun _ => Tx.avoids_pure _) fun _ => ?_
      exact (transferOne_avoids _ _ _).bind fun _ _ _ => ih

/-- Maintenance never asks for room that is not there. -/
theorem requestMaintenance_avoids (limit : Nat) (uuids : Nat → Uuid) (now : Rat) :
    Tx.Avoids (requestMaintenance crates limit uuids now) capacityError db := by
  unfold requestMaintenance
  refine (Tx.avoids_bailIf fun _ => by decide).bind fun _ _ _ => ?_
  refine (Tx.avoids_query _).bind fun needed _ _ => ?_
  refine Tx.Avoids.ite (fun _ => Tx.avoids_pure _) fun _ => Tx.Avoids.atomically ?_
  unfold maintenanceTx
  refine expiryLoop_avoids.bind fun work _ _ => ?_
  refine Tx.Avoids.ite (fun _ => Tx.avoids_pure _) fun _ => ?_
  exact (Tx.avoids_query _).bind fun _ _ _ => transferLoop_avoids

/-- Due requests are open. -/
theorem dueRequests_length_le (db : Db) (now : Rat) :
    (db.dueRequests now).length ≤ db.openRequests := by
  rw [Db.dueRequests_eq, ← List.countP_eq_length_filter]
  refine List.countP_mono_left fun r _ hdue => ?_
  exact decide_eq_true (of_decide_eq_true hdue).2

theorem openRequests_pos {r : Request} (hr : r ∈ db.requests)
    (hopen : r.state.isTerminal = false) : 0 < db.openRequests :=
  List.countP_pos_iff.mpr ⟨r, hr, decide_eq_true hopen⟩

/-- **Room is kept for open requests** in every run that asks for it whenever a request is created
or put in progress: no terminal update of an open request is refused for want of it, and neither is
the expiry of a due one. -/
theorem terminal_capacity (h : ReachableBy crates (KeepsReserve crates) db) :
    TerminalRoom crates db ∧ ExpiryRoom crates db := by
  have hreserved := h.reserved_le
  unfold Db.reserved at hreserved
  constructor
  · intro r hr hopen updateId text state expectedRevision detail now _ _ _ _ _
    have hpos := openRequests_pos hr hopen
    exact requestUpdate_avoids (by omega) _ _ _ _ _ _ _ _
  · intro limit uuids now
    refine ⟨requestMaintenance_avoids limit uuids now, fun done t hrun r hr => ?_⟩
    have hdue := dueRequests_length_le db now
    refine requestMaintenance_expiring h.reachable.lineage hrun r ?_
    rw [expiring_of_room (by omega)]
    exact hr

end room

/-! ## Calls that succeed -/

section forward

variable {crates : Crates} {db : Db}

/-- Under the conditions that `Creates` names, with a new identifier and a payload that can be
read back, the request is created. -/
theorem requestCreate_run {thread source key deliveryId : String} {payload value : Value}
    {expiresAt : Option F64} (uuid : Uuid) (now : Rat)
    (h : db.Creates crates thread source key deliveryId payload expiresAt)
    (hfresh : ∀ r ∈ db.requests, r.requestId ≠ uuid.text)
    (hparse : crates.fromStr (canonicalJson crates payload) = some value) :
    ∃ r answer, (r.requestId = uuid.text ∧ r.thread = thread ∧ r.source = source ∧
        r.requestKey = key ∧ r.payload = canonicalJson crates payload ∧ r.state = .received) ∧
      (Entry.create r).Enabled crates db ∧
      (requestCreate crates thread source key deliveryId payload expiresAt uuid now).run db =
        (.ok answer, (Entry.create r).apply crates db) := by
  obtain ⟨expiry, hexpiry⟩ := Option.isSome_iff_exists.mp h.expiry_ok
  obtain ⟨e, he, hid, hsource, b, hb, hname, hthread⟩ := h.delivered
  have hparent : (db.events.find? fun e => e.id = deliveryId) = some e :=
    Table.find?_eq_of_unique he hid fun f hf hfid => Event.eq_of_id hf he (hfid.trans hid.symm)
  have htarget : (db.bindings.find? fun b => b.name = e.binding) = some b :=
    Table.find?_eq_of_unique hb hname fun c hc hcname =>
      Binding.eq_of_name hc hb (hcname.trans hname.symm)
  have hadmits : db.requests.Admits (newRequest db.nextRequestSeq uuid thread source key deliveryId
      e.binding (canonicalJson crates payload) expiry now) := by
    intro r hr
    have hseq : r.seq < db.nextRequestSeq := Table.lt_nextSeq hr
    exact ⟨hseq, hfresh r hr, Table.find?_none.mp h.new r hr⟩
  have henabled : (Entry.create (newRequest db.nextRequestSeq uuid thread source key deliveryId
      e.binding (canonicalJson crates payload) expiry now)).Enabled crates db :=
    ⟨hadmits, rfl, rfl, rfl, ⟨uuid, rfl⟩, e, he, hid, hsource, rfl, b, hb, hname, hthread⟩
  have hfound : ((Entry.create (newRequest db.nextRequestSeq uuid thread source key deliveryId
      e.binding (canonicalJson crates payload) expiry now)).apply crates db).requestById uuid.text =
      some (newRequest db.nextRequestSeq uuid thread source key deliveryId e.binding
        (canonicalJson crates payload) expiry now) := by
    refine Table.find?_eq_of_unique ((Entry.mem_requests henabled).mpr (Or.inr rfl)) rfl ?_
    exact fun q hq hqid =>
      Request.eq_of_id hq ((Entry.mem_requests henabled).mpr (Or.inr rfl)) hqid
  refine ⟨_, ⟨⟨newRequest db.nextRequestSeq uuid thread source key deliveryId e.binding
    (canonicalJson crates payload) expiry now, value⟩, false⟩, ⟨rfl, rfl, rfl, rfl, rfl, rfl⟩,
    henabled, ?_⟩
  simp only [requestCreate, Tx.bind_ok, validateIdentifier_ok, bailIf_run_ok, Tx.expect_ok,
    withTx, Tx.atomically_ok, Tx.query_ok]
  refine ⟨(), db, ⟨h.thread_ok, rfl⟩, (), db, ⟨h.source_ok, rfl⟩, (), db, ⟨h.key_ok, rfl⟩, (), db,
    ⟨h.deliveryId_ok, rfl⟩, (), db, ⟨Nat.not_lt_of_le h.payload_ok, rfl⟩, expiry, db,
    ⟨hexpiry, rfl⟩, some e, db, ⟨hparent, rfl⟩, e, db, ⟨rfl, rfl⟩, (), db,
    ⟨not_not.mpr hsource, rfl⟩, some b, db, ⟨htarget, rfl⟩, b, db, ⟨rfl, rfl⟩, (), db,
    ⟨not_not.mpr hthread, rfl⟩, none, db, ⟨h.new, rfl⟩, ?_⟩
  simp only [Tx.bind_ok, Tx.query_ok, bailIf_run_ok, insertRequest_ok, Tx.expect_ok,
    Tx.ofExcept_ok, Tx.pure_ok]
  refine ⟨_, db, ⟨rfl, rfl⟩, (), db, ⟨Nat.not_le_of_lt h.room, rfl⟩, (), _, ⟨hadmits, rfl⟩, _, _,
    ⟨hfound, rfl⟩, _, _, ⟨rfl, rfl⟩, _, _, ⟨?_, rfl⟩, rfl, rfl⟩
  unfold requestValue
  rw [show (newRequest db.nextRequestSeq uuid thread source key deliveryId e.binding
    (canonicalJson crates payload) expiry now).payload = canonicalJson crates payload from rfl,
    hparse]

/-- The checks of an update that is new, allowed and within its limit lead to its transition. -/
theorem requestUpdate_record {thread source key updateId text : String}
    {expectedRevision : Option Int} {detail : Option String} {now : Rat} {r : Request}
    {state : RequestState} (hvalid : ValidUpdate thread source key updateId detail)
    (hrow : db.requestAt thread source key = some r) (hnonneg : 0 ≤ r.revision)
    (hstate : updateState? text = some state) (hnew : db.updateAt r.requestId updateId = none)
    (hexpected : ∀ expected ∈ expectedRevision, expected = r.revision)
    (hallowed : allowedTransition r.state state = true)
    (hcount : state.isTerminal = true ∨
      (db.requestUpdates.count fun u => u.requestId = r.requestId) + 1 < maxRequestUpdates) :
    (requestUpdate crates thread source key updateId text expectedRevision detail now).run db =
      (withTx do
        recordTransition crates r updateId r.revision state detail now
        let row ← Tx.query fun db => db.requestById r.requestId
        let row ← Tx.expect (.sqlite "Query returned no rows") row
        let value ← Tx.ofExcept (requestValue crates row)
        pure (⟨value, false, updateId⟩ : UpdateAnswer)).run db := by
  have hpositive : ¬ (expectedRevision.any fun revision => revision < 0) = true :=
    not_any_iff.mpr fun revision hmem => by
      rw [hexpected revision hmem]
      omega
  have hcurrent : expectedRevision.getD r.revision = r.revision := by
    cases expectedRevision with
    | none => rfl
    | some revision => exact hexpected revision rfl
  have hlimit : ¬ (state.isTerminal = false ∧
      maxRequestUpdates ≤ (db.requestUpdates.count fun u => u.requestId = r.requestId) + 1) := by
    rintro ⟨hopen, hfull⟩
    rcases hcount with hterminal | hroom
    · rw [hterminal] at hopen
      cases hopen
    · omega
  unfold requestUpdate
  rw [Tx.run_bind_of_ok (validateIdentifier_ok (u := ()).mpr ⟨hvalid.thread_ok, rfl⟩),
    Tx.run_bind_of_ok (validateIdentifier_ok (u := ()).mpr ⟨hvalid.source_ok, rfl⟩),
    Tx.run_bind_of_ok (validateIdentifier_ok (u := ()).mpr ⟨hvalid.key_ok, rfl⟩),
    Tx.run_bind_of_ok (validateIdentifier_ok (u := ()).mpr ⟨hvalid.updateId_ok, rfl⟩),
    Tx.run_bind_of_ok (Tx.expect_ok.mpr ⟨hstate, rfl⟩),
    Tx.run_bind_of_ok (bailIf_run_ok (u := ()).mpr ⟨hpositive, rfl⟩),
    Tx.run_bind_of_ok (hvalid.detail_ok db)]
  unfold withTx Tx.atomically
  simp only
  rw [Tx.run_query_bind, hrow, Tx.run_expect_bind, Tx.run_query_bind, hnew]
  simp only
  rw [hcurrent, Tx.run_bind_of_ok (bailIf_run_ok (u := ()).mpr ⟨not_not.mpr rfl, rfl⟩),
    Tx.run_bind_of_ok (bailIf_run_ok (u := ()).mpr
      ⟨fun hnot => Bool.false_ne_true (hnot.symm.trans hallowed), rfl⟩),
    Tx.run_query_bind, Tx.run_bind_of_ok (bailIf_run_ok (u := ()).mpr ⟨hlimit, rfl⟩)]

/-- With room in the outbox the transition is recorded. -/
theorem requestUpdate_run (now : Rat) (hdb : db.Lineage crates) {r : Request}
    {state : RequestState} {updateId text : String} {detail : Option String} {value : RequestValue}
    (hvalid : ValidUpdate r.thread r.source r.requestKey updateId detail) (hr : r ∈ db.requests)
    (hstate : updateState? text = some state) (hnew : db.updateAt r.requestId updateId = none)
    (hallowed : allowedTransition r.state state = true)
    (hcount : state.isTerminal = true ∨
      (db.requestUpdates.count fun u => u.requestId = r.requestId) + 1 < maxRequestUpdates)
    (hroom : db.pendingNotices < maxRequestNotifications)
    (hparse : requestValue crates r = .ok value) :
    (Entry.transition r updateId state detail now).Enabled crates db ∧ ∃ answer,
      (requestUpdate crates r.thread r.source r.requestKey updateId text none detail now).run db =
        (.ok answer, (Entry.transition r updateId state detail now).apply crates db) := by
  have hrow : db.requestAt r.thread r.source r.requestKey = some r :=
    Table.find?_eq_of_unique hr ⟨rfl, rfl, rfl⟩ fun q hq hkey =>
      Request.eq_of_requestKey hq hr hkey.1 hkey.2.1 hkey.2.2
  have hadmits : db.requestUpdates.Admits (transitionRow db r updateId state detail now) :=
    admits_transitionRow.mpr (Table.find?_none.mp hnew)
  have hnotice : state.notifies = true → db.pendingNotices < maxRequestNotifications ∧
      db.requestNotifications.Admits
        (newNotification crates r updateId (r.revision + 1) state detail now) :=
    fun _ => ⟨hroom, hdb.admits_next hr _ _ _⟩
  have henabled : (Entry.transition r updateId state detail now).Enabled crates db :=
    ⟨hr, hallowed, hadmits, hnotice⟩
  have hmoved := (Entry.mem_requests henabled).mpr (Or.inl ⟨r, hr, rfl⟩)
  have hidentity := Entry.onRequest_identity (.transition r updateId state detail now) r
  have hfound : ((Entry.transition r updateId state detail now).apply crates db).requestById
      r.requestId = some ((Entry.transition r updateId state detail now).onRequest r) :=
    Table.find?_eq_of_unique hmoved (Request.identity_eq hidentity).2.1 fun q hq hqid =>
      Request.eq_of_id hq hmoved (hqid.trans (Request.identity_eq hidentity).2.1.symm)
  obtain ⟨value', hvalue⟩ := requestValue_of_identity hparse hidentity
  refine ⟨henabled, ⟨value', false, updateId⟩, ?_⟩
  rw [requestUpdate_record hvalid hrow (hdb.request_nonneg r hr) hstate hnew (by simp) hallowed
    hcount]
  refine Tx.atomically_ok.mpr ?_
  rw [Tx.run_bind_of_ok ((recordTransition_ok hr).mpr ⟨hadmits, hnotice, rfl⟩), Tx.run_query_bind,
    hfound, Tx.run_expect_bind, hvalue]
  rfl

/-- With the outbox full an update that notifies is refused, whatever its state. -/
theorem requestUpdate_full {r : Request} {state : RequestState} {updateId text : String}
    {detail : Option String} (hvalid : ValidUpdate r.thread r.source r.requestKey updateId detail)
    (hr : r ∈ db.requests) (hnonneg : 0 ≤ r.revision) (hstate : updateState? text = some state)
    (hnew : db.updateAt r.requestId updateId = none)
    (hallowed : allowedTransition r.state state = true) (hterminal : state.isTerminal = true)
    (hfull : maxRequestNotifications ≤ db.pendingNotices) :
    ((requestUpdate crates r.thread r.source r.requestKey updateId text none detail now).run db).1
      = .error capacityError := by
  have hrow : db.requestAt r.thread r.source r.requestKey = some r :=
    Table.find?_eq_of_unique hr ⟨rfl, rfl, rfl⟩ fun q hq hkey =>
      Request.eq_of_requestKey hq hr hkey.1 hkey.2.1 hkey.2.2
  have hadmits : db.requestUpdates.Admits
      ⟨db.nextUpdateSeq, r.requestId, updateId, r.revision, r.revision + 1, r.state, state, detail,
        now⟩ :=
    admits_transitionRow.mpr (Table.find?_none.mp hnew)
  have hone : ({ db with
      requestUpdates := db.requestUpdates.add ⟨db.nextUpdateSeq, r.requestId, updateId, r.revision,
        r.revision + 1, r.state, state, detail, now⟩ } : Db).matchingRequests r.requestId r.revision
      = 1 := matchingRequests_eq_one hr
  have hnotifies : ¬ state.notifies = false := by
    cases state with
    | received | acknowledged | inProgress => cases hterminal
    | completed | failed | cancelled | expired => exact Bool.noConfusion
  -- the history row and the request are written, then the notification is refused
  have hrefused : ∃ t, (recordTransition crates r updateId r.revision state detail now).run db =
      (.error capacityError, t) := by
    unfold recordTransition
    rw [Tx.run_bind_of_ok (insertUpdate_ok (u := ()).mpr ⟨hadmits, rfl⟩), Tx.run_query_bind,
      Tx.run_bind_of_ok (bailIf_run_ok (u := ()).mpr ⟨not_not.mpr hone, rfl⟩), Tx.run_write_bind]
    unfold insertRequestNotificationTx
    rw [if_neg hnotifies, Tx.run_query_bind]
    exact ⟨_, Tx.run_bind_of_error (bailIf_refuses hfull _ _) _⟩
  obtain ⟨t, hrefused⟩ := hrefused
  rw [requestUpdate_record hvalid hrow hnonneg hstate hnew (by simp) hallowed
    (Or.inl hterminal)]
  unfold withTx Tx.atomically
  simp only
  rw [Tx.run_bind_of_error hrefused]

end forward

/-! ## An outbox without room -/

/-- The last decimal digits of a number, `width` of them. -/
def serialDigits : Nat → Nat → List Char
  | 0, _ => []
  | width + 1, n => serialDigits width (n / 10) ++ [Char.ofNat (48 + n % 10)]

theorem serialDigits_length (width n : Nat) : (serialDigits width n).length = width := by
  induction width generalizing n with
  | zero => rfl
  | succ width ih => simp [serialDigits, ih]

theorem serialDigits_isDigit (width n : Nat) : ∀ c ∈ serialDigits width n, c.isDigit = true := by
  induction width generalizing n with
  | zero => exact fun c hc => absurd hc List.not_mem_nil
  | succ width ih =>
      intro c hc
      rcases List.mem_append.mp hc with hc | hc
      · exact ih _ c hc
      · obtain rfl := List.mem_singleton.mp hc
        have hdigit : ∀ d < 10, (Char.ofNat (48 + d)).isDigit = true := by decide
        exact hdigit _ (Nat.mod_lt n (by decide))

theorem serialDigits_inj {width n m : Nat} (hn : n < 10 ^ width) (hm : m < 10 ^ width)
    (h : serialDigits width n = serialDigits width m) : n = m := by
  induction width generalizing n m with
  | zero => omega
  | succ width ih =>
      have hlength : (serialDigits width (n / 10)).length = (serialDigits width (m / 10)).length := by
        rw [serialDigits_length, serialDigits_length]
      obtain ⟨hhigh, hlow⟩ := List.append_inj h hlength
      rw [Nat.pow_succ] at hn hm
      have hhigh : n / 10 = m / 10 := ih (by omega) (by omega) hhigh
      have hdigit : ∀ a < 10, ∀ b < 10, Char.ofNat (48 + a) = Char.ofNat (48 + b) → a = b := by
        decide
      have hlow : n % 10 = m % 10 := hdigit _ (Nat.mod_lt n (by decide)) _
        (Nat.mod_lt m (by decide)) (List.singleton_inj.mp hlow)
      omega

/-- Any number of identifiers. -/
def serialUuid (n : Nat) : Uuid where
  text := String.ofList ("00000000-0000-4000-8000-".toList ++ serialDigits 12 n)
  isUuid := by
    unfold isUuidText
    rw [String.toList_ofList, List.zipIdx_append, List.all_append, List.length_append,
      serialDigits_length]
    have hhead : ("00000000-0000-4000-8000-".toList.zipIdx.all fun (c, i) =>
        if i ∈ [8, 13, 18, 23] then c = '-' else c.isDigit ∨ ('a' ≤ c ∧ c ≤ 'f')) = true := by
      decide
    have htail : ((serialDigits 12 n).zipIdx (0 + "00000000-0000-4000-8000-".toList.length)).all
        (fun (c, i) => if i ∈ [8, 13, 18, 23] then c = '-' else c.isDigit ∨ ('a' ≤ c ∧ c ≤ 'f')) =
        true := by
      rw [List.all_eq_true]
      rintro ⟨c, i⟩ hmem
      have hi : 24 ≤ i := (List.mem_zipIdx hmem).1
      have hc := serialDigits_isDigit 12 n c (List.fst_mem_of_mem_zipIdx hmem)
      have hplain : i ∉ [8, 13, 18, 23] := by
        simp only [List.mem_cons, List.not_mem_nil, or_false, not_or]
        omega
      simp [hplain, hc]
    have hsize : "00000000-0000-4000-8000-".toList.length + 12 = 36 := by decide
    exact decide_eq_true ⟨hsize, Bool.and_eq_true_iff.mpr ⟨hhead, htail⟩⟩

theorem serialUuid_inj {n m : Nat} (hn : n < 10 ^ 12) (hm : m < 10 ^ 12)
    (h : (serialUuid n).text = (serialUuid m).text) : n = m := by
  have hlist := String.ofList_inj.mp h
  exact serialDigits_inj hn hm (List.append_cancel_left hlist)

/-- A route and one event; `k` requests for it were created and put in progress, and none of their
notifications has been settled. -/
structure Db.Stocked (k : Nat) (db : Db) : Prop where
  reachable : Reachable sampleCrates db
  delivered : ∃ e ∈ db.events, e.id = (sampleUuid 1).text ∧ e.source = "ci" ∧
    ∃ b ∈ db.bindings, b.name = e.binding ∧ b.thread = "conversation-1"
  stock : ∀ r ∈ db.requests, (∃ i < k, r.requestId = (serialUuid i).text ∧
      r.requestKey = (serialUuid i).text) ∧
    r.thread = "conversation-1" ∧ r.source = "ci" ∧ r.state = .inProgress
  started : ∀ u ∈ db.requestUpdates, u.updateId = "started"
  size : db.requests.rows.length = k
  full : db.pendingNotices = k

/-- One event, and no request. -/
def stockOps : List Op :=
  [.bind "deploy" "conversation-1" "shared-local" ["ci"],
    .ingest "deploy" (sampleEnvelope "build-1") (sampleUuid 1) 10]

theorem stocked_zero : (Db.after sampleCrates stockOps).Stocked 0 := by
  have hrequests : (Db.after sampleCrates stockOps).requests.rows = [] := by decide
  have hupdates : (Db.after sampleCrates stockOps).requestUpdates.rows = [] := by decide
  refine ⟨reachable_after _ _, ?_, fun r hr => ?_, fun u hu => ?_, by rw [hrequests]; rfl,
    by decide⟩
  · have hevent : ∃ e ∈ (Db.after sampleCrates stockOps).events.rows,
        e.id = (sampleUuid 1).text ∧ e.source = "ci" ∧
          ∃ b ∈ (Db.after sampleCrates stockOps).bindings.rows,
            b.name = e.binding ∧ b.thread = "conversation-1" := by
      decide
    exact hevent
  · rw [Table.mem_def, hrequests] at hr
    cases hr
  · rw [Table.mem_def, hupdates] at hu
    cases hu

section stock

variable {k : Nat} {db : Db}

theorem Db.Stocked.fresh (h : db.Stocked k) (hk : k < 10 ^ 12) :
    ∀ r ∈ db.requests, r.requestId ≠ (serialUuid k).text ∧ r.requestKey ≠ (serialUuid k).text := by
  intro r hr
  obtain ⟨⟨i, hi, hid, hkey⟩, _⟩ := h.stock r hr
  have hne : (serialUuid i).text ≠ (serialUuid k).text := fun htext => by
    have hsame := serialUuid_inj (by omega) hk htext
    omega
  rw [hid, hkey]
  exact ⟨hne, hne⟩

/-- One more request is created and put in progress. -/
theorem Db.Stocked.succ (h : db.Stocked k) (hk : k < maxRequests) :
    ∃ t, Db.Stocked (k + 1) t := by
  have hsmall : k < 10 ^ 12 := Nat.lt_of_lt_of_le hk (by decide)
  have hcount : (db.requests.count fun _ => True) = k := by
    unfold Table.count
    simpa using h.size
  have hcreates : db.Creates sampleCrates "conversation-1" "ci" (serialUuid k).text
      (sampleUuid 1).text (.object []) none :=
    ⟨by decide, by decide, (serialUuid k).isIdentifier, (sampleUuid 1).isIdentifier,
      by decide, rfl, h.delivered,
      Table.find?_none.mpr fun r hr hkey => (h.fresh hsmall r hr).2 hkey.2.2,
      by rw [hcount]; exact hk⟩
  have hparse : sampleCrates.fromStr (canonicalJson sampleCrates (.object [])) =
      some (.object []) := rfl
  obtain ⟨r, answer, ⟨hid, hthread, hsource, hkey, hpayload, hstate⟩, henabled, hrun⟩ :=
    requestCreate_run (serialUuid k) 12 hcreates
      (fun r hr => (h.fresh hsmall r hr).1) hparse
  have hdb : Reachable sampleCrates ((Entry.create r).apply sampleCrates db) := by
    have hstep := step_of_run (rfl : (Op.requestCreate "conversation-1"
      "ci" (serialUuid k).text (sampleUuid 1).text (.object []) none (serialUuid k) 12).exec _ = _) hrun
    rw [← hstep]
    exact Leads.step h.reachable _
  have hr : r ∈ ((Entry.create r).apply sampleCrates db).requests :=
    (Entry.mem_requests henabled).mpr (Or.inr rfl)
  -- no update belongs to the new request
  have hnone : ∀ u ∈ ((Entry.create r).apply sampleCrates db).requestUpdates,
      u.requestId ≠ r.requestId := by
    intro u hu hsame
    obtain ⟨q, hq, hqid⟩ := h.reachable.recorded.owned u hu
    exact (h.fresh hsmall q hq).1 (hqid.trans (hsame.trans hid))
  have hvalid : ValidUpdate r.thread r.source r.requestKey "started" none := by
    rw [hthread, hsource, hkey]
    exact ⟨by decide, by decide, (serialUuid k).isIdentifier, by decide,
      fun _ => rfl⟩
  have hvalue : requestValue sampleCrates r = .ok ⟨r, .object []⟩ := by
    unfold requestValue
    rw [hpayload, hparse]
  have hzero : (((Entry.create r).apply sampleCrates db).requestUpdates.count fun u =>
      u.requestId = r.requestId) = 0 :=
    List.countP_eq_zero.mpr fun u hu => by simpa using hnone u hu
  have hpending : ((Entry.create r).apply sampleCrates db).pendingNotices = k := h.full
  have hroom : ((Entry.create r).apply sampleCrates db).pendingNotices < maxRequestNotifications := by
    rw [hpending]
    exact hk
  obtain ⟨henabled', answer', hrun'⟩ := requestUpdate_run 13 hdb.lineage hvalid hr
    (rfl : updateState? "in_progress" = some .inProgress)
    (Table.find?_none.mpr fun u hu hsame => hnone u hu hsame.1) (by rw [hstate]; rfl)
    (Or.inr (by rw [hzero]; decide)) hroom hvalue
  refine ⟨(Entry.transition r "started" .inProgress none 13).apply sampleCrates
    ((Entry.create r).apply sampleCrates db), ?_, ?_, ?_, ?_, ?_, ?_⟩
  · have hstep := step_of_run (rfl : (Op.requestUpdate r.thread r.source r.requestKey "started"
      "in_progress" none none 13).exec _ = _) hrun'
    rw [← hstep]
    exact Leads.step hdb _
  · obtain ⟨e, he, heid, hesource, b, hb, hname, hbthread⟩ := h.delivered
    have he' : e ∈ ((Entry.create r).apply sampleCrates db).events := he
    have hb' : b ∈ ((Entry.create r).apply sampleCrates db).bindings := hb
    exact ⟨e, (Entry.mem_events henabled').mpr (Or.inl ⟨e, he', rfl⟩), heid, hesource, b,
      (Entry.mem_bindings henabled').mpr (Or.inl ⟨b, hb', rfl⟩), hname, hbthread⟩
  · intro q hq
    rcases (Entry.mem_requests henabled').mp hq with ⟨p, hp, rfl⟩ | hnew
    · rcases (Entry.mem_requests henabled).mp hp with ⟨p', hp', hsame⟩ | hnew
      · obtain rfl : p' = p := hsame
        obtain ⟨⟨i, hi, hpid, hpkey⟩, hrest⟩ := h.stock p' hp'
        have hkept : (Entry.transition r "started" .inProgress none 13).onRequest p' = p' :=
          if_neg fun hmatch => (h.fresh hsmall p' hp').1 (hmatch.1.trans hid)
        rw [hkept]
        exact ⟨⟨i, by omega, hpid, hpkey⟩, hrest⟩
      · cases hnew
        have hmoved : (Entry.transition r "started" .inProgress none 13).onRequest r =
            { r with state := .inProgress, revision := r.revision + 1, updated := 13 } :=
          if_pos ⟨rfl, rfl⟩
        rw [hmoved]
        exact ⟨⟨k, by omega, hid, hkey⟩, hthread, hsource, rfl⟩
    · cases hnew
  · intro u hu
    rcases (Entry.mem_updates henabled').mp hu with hold | hnew
    · exact h.started u hold
    · cases hnew
      rfl
  · rw [Entry.rows_requests henabled', List.length_append, List.length_map,
      Entry.rows_requests henabled, List.length_append, List.length_map, h.size]
    rfl
  · have hrows := Entry.rows_notices henabled'
    unfold Db.pendingNotices Table.count at hpending ⊢
    rw [hrows, List.countP_append]
    have hold : (Entry.transition r "started" .inProgress none 13).onNotice
        ((Entry.create r).apply sampleCrates db) = id := rfl
    rw [hold, List.map_id, hpending]
    rfl

/-- The outbox can be filled with the notifications of open requests. -/
theorem stocked (n : Nat) (hn : n ≤ maxRequests) : ∃ db, Db.Stocked n db := by
  induction n with
  | zero => exact ⟨_, stocked_zero⟩
  | succ n ih =>
      obtain ⟨db, h⟩ := ih (by omega)
      exact h.succ (by omega)

end stock

/-- Ten thousand requests in progress whose notifications wait: none of them can be completed. -/
theorem terminal_capacity_fails :
    ¬ ∀ (crates : Crates) (db : Db), Reachable crates db →
      TerminalRoom crates db ∧ ExpiryRoom crates db := by
  intro hall
  obtain ⟨db, h⟩ := stocked maxRequests (Nat.le_refl _)
  have hrows : 0 < db.requests.rows.length := by
    rw [h.size]
    decide
  obtain ⟨r, hr⟩ := List.exists_mem_of_length_pos hrows
  obtain ⟨⟨i, _, _, hkey⟩, hthread, hsource, hstate⟩ := h.stock r hr
  have hopen : r.state.isTerminal = false := by
    rw [hstate]
    rfl
  have hvalid : ValidUpdate r.thread r.source r.requestKey "done" none := by
    rw [hthread, hsource, hkey]
    exact ⟨by decide, by decide, (serialUuid i).isIdentifier, by decide,
      fun _ => rfl⟩
  have hnew : db.updateAt r.requestId "done" = none := by
    refine Table.find?_none.mpr fun u hu hsame => ?_
    have hdone : "started" = "done" := (h.started u hu).symm.trans hsame.2
    exact absurd hdone (by decide)
  refine (hall sampleCrates db h.reachable).1 r hr hopen "done" "completed" .completed none none 14
    hvalid rfl rfl hnew (by simp) ?_
  refine requestUpdate_full hvalid hr (h.reachable.lineage.request_nonneg r hr) rfl hnew
    (by rw [hstate]; rfl) rfl ?_
  rw [h.full]
  decide

/-- Room is kept in a run that creates one request and acknowledges it. -/
theorem terminal_capacity_sample :
    TerminalRoom sampleCrates (Db.after sampleCrates sampleRequestOps) ∧
      ExpiryRoom sampleCrates (Db.after sampleCrates sampleRequestOps) := by
  have hmeet : AllMeet sampleCrates (fun db _ => db.reserved < maxRequestNotifications)
      sampleRequestOps Db.empty := by
    decide +kernel
  refine terminal_capacity (Relation.ReflTransGen.mono ?_ _ _ (reachableBy_after hmeet))
  rintro _ _ ⟨op, hroom, hop⟩
  exact ⟨op, fun _ => hroom, hop⟩

end CodexMonitor
