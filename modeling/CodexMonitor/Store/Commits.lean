import CodexMonitor.Store.Journal

/-!
# Every call is a journal

`Op.Writes` says which entries a call may write and with which of its arguments;
`Op.Commits` that entries of one call lead from one database to another.  The
modules below this one prove it of each operation, and `Op.commits` of every call.
-/

namespace CodexMonitor

open Transaction

/-- `e` is the event that intake stores for an envelope. -/
structure Event.Ingested (crates : Crates) (binding : String) (envelope : Value) (uuid : Uuid)
    (now : Rat) (e : Event) : Prop where
  binding_eq : e.binding = binding
  source_eq : envelope.getStr "source" = some e.source
  eventId_eq : envelope.getStr "id" = some e.eventId
  envelope_eq : e.envelope = canonicalJson crates envelope
  id_eq : e.id = uuid.text
  created_eq : e.created = now
  state_eq : e.state = initialState envelope

/-- The entries a call may write. -/
inductive Op.Writes (crates : Crates) : Op → Entry → Prop
  | bind {name thread endpoint : String} {sources : List String} :
      Writes crates (.bind name thread endpoint sources)
        (.bind ⟨name, thread, endpoint, sources, true, false⟩)
  | route {name action : String} {now : Rat} {a : LifecycleAction}
      (ha : LifecycleAction.ofString? action = some a) :
      Writes crates (.routeAction name action now) (.route name a now)
  | ingest {binding : String} {envelope : Value} {uuid : Uuid} {now : Rat} {e : Event}
      (he : e.Ingested crates binding envelope uuid now) :
      Writes crates (.ingest binding envelope uuid now) (.store e)
  | expire {clock : Nat → Rat} {e : Event} (i : Nat) :
      Writes crates (.claim clock) (.expire e (clock i))
  | submit {clock : Nat → Rat} {e : Event} (i : Nat) :
      Writes crates (.claim clock) (.submit e (clock i))
  | finish {id text : String} {submissionId error : Option String} {now : Rat} {e : Event}
      {state : EventState} (hid : e.id = id) (hstate : finishState? text = some state) :
      Writes crates (.finish id text submissionId error now)
        (.finish e (storedOutcome state error e.attempts).1 submissionId
          (storedOutcome state error e.attempts).2 now)
  | defer {id error : String} {now : Rat} {e : Event} (hid : e.id = id) :
      Writes crates (.deferUnavailable id error now) (.defer e error now)
  | recover {nextAt now : Rat} :
      Writes crates (.recoverSubmitting nextAt now) (.recover nextAt now)
  | createWatch {thread name path endpoint : String} {interval debounce : F64}
      {condition : Option Value} {uuid : Uuid} {now : Rat} {b : Binding} {w : Watch} :
      Writes crates
        (.watchCreate thread name path interval endpoint debounce condition uuid now)
        (.createWatch b w)
  | watch {thread name action : String} {now : Rat} {a : LifecycleAction} {w : Watch}
      (ha : LifecycleAction.ofString? action = some a) (hthread : w.thread = thread)
      (hname : w.name = name) :
      Writes crates (.watchAction thread name action now) (.watch w a now)
  | sample {id binding : String} {epoch : Int} {checkpoint envelope : Value} {uuid : Uuid}
      {now stamp : Rat} {e : Event} (he : e.Ingested crates binding envelope uuid now) :
      Writes crates (.commitSample id epoch checkpoint (some envelope) uuid now stamp) (.store e)
  | checkpoint {checkpoint : Value} {event : Option Value} {uuid : Uuid} {now stamp : Rat}
      {w : Watch} :
      Writes crates (.commitSample w.id w.epoch checkpoint event uuid now stamp)
        (.checkpoint w (canonicalJson crates checkpoint) stamp)
  | reply {uuid : Uuid} {now : Rat} {r : Reply} (hid : r.id = uuid.text) :
      Writes crates (.replyPut r.deliveryId r.replyKey r.message uuid now) (.reply r)
  | acknowledge {source replyId : String} {now : Rat} :
      Writes crates (.replyAck source replyId now) (.acknowledge source replyId now)
  | create {thread source key deliveryId : String} {payload : Value} {expiresAt : Option F64}
      {uuid : Uuid} {now : Rat} {r : Request} (hid : r.requestId = uuid.text) :
      Writes crates (.requestCreate thread source key deliveryId payload expiresAt uuid now)
        (.create r)
  | update {thread source key updateId text : String} {expectedRevision : Option Int}
      {detail : Option String} {now : Rat} {r : Request} {state : RequestState}
      (hstate : updateState? text = some state)
      (hrow : r.thread = thread ∧ r.source = source ∧ r.requestKey = key)
      (hrevision : ∀ expected ∈ expectedRevision, expected = r.revision) :
      Writes crates (.requestUpdate thread source key updateId text expectedRevision detail now)
        (.transition r updateId state detail now)
  | expiry {limit : Nat} {uuids : Nat → Uuid} {now : Rat} {r : Request} (hdue : r.Due now) :
      Writes crates (.requestMaintenance limit uuids now)
        (.transition r (requestExpiryId r.requestId r.revision) .expired none now)
  | failNotice {limit : Nat} {uuids : Nat → Uuid} {now : Rat} {n : RequestNotification}
      {error : String} :
      Writes crates (.requestMaintenance limit uuids now) (.failNotice n error now)
  | link {limit : Nat} {uuids : Nat → Uuid} {now : Rat} {n : RequestNotification} {e : Event} :
      Writes crates (.requestMaintenance limit uuids now) (.link n e now)
  | postpone {limit : Nat} {uuids : Nat → Uuid} {now : Rat} {n : RequestNotification} :
      Writes crates (.requestMaintenance limit uuids now) (.postpone n now)
  | deliver {limit : Nat} {uuids : Nat → Uuid} {now : Rat} {n : RequestNotification} {e : Event}
      (i : Nat) (hid : e.id = (uuids i).text) :
      Writes crates (.requestMaintenance limit uuids now) (.deliver n e now)

/-- The entries of a journal, all of which `W` admits, lead from `db` to `t`. -/
def Commits (crates : Crates) (W : Entry → Prop) (db t : Db) : Prop :=
  ∃ ks, (∀ k ∈ ks, W k) ∧ Journal crates db ks t

namespace Commits

variable {crates : Crates} {W : Entry → Prop} {db t u : Db}

theorem refl (W : Entry → Prop) (db : Db) : Commits crates W db db :=
  ⟨[], fun _ hk => (List.not_mem_nil hk).elim, .nil db⟩

theorem one {k : Entry} (hw : W k) (hk : k.Enabled crates db) :
    Commits crates W db (k.apply crates db) := by
  refine ⟨[k], fun l hl => ?_, Journal.single hk⟩
  rw [List.mem_singleton.mp hl]
  exact hw

theorem trans (h : Commits crates W db t) (h' : Commits crates W t u) :
    Commits crates W db u := by
  obtain ⟨ks, hks, hj⟩ := h
  obtain ⟨ls, hls, hj'⟩ := h'
  refine ⟨ks ++ ls, fun k hk => ?_, hj.append hj'⟩
  rcases List.mem_append.mp hk with hk | hk
  · exact hks k hk
  · exact hls k hk

theorem mono {V : Entry → Prop} (h : Commits crates W db t) (hsub : ∀ k, W k → V k) :
    Commits crates V db t := by
  obtain ⟨ks, hks, hj⟩ := h
  exact ⟨ks, fun k hk => hsub k (hks k hk), hj⟩

/-- An invariant may tell more about the entries than the condition they were written under. -/
theorem refine {V : Entry → Prop} {P : Db → Prop} (h : Commits crates W db t)
    (hstep : ∀ k, W k → ∀ d, k.Enabled crates d → P d → V k ∧ P (k.apply crates d))
    (hdb : P db) : Commits crates V db t ∧ P t := by
  obtain ⟨ks, hks, hj⟩ := h
  induction hj with
  | nil db => exact ⟨.refl _ _, hdb⟩
  | @cons db t k ks enabled _ ih =>
      obtain ⟨hk, hnext⟩ := hstep k (hks k List.mem_cons_self) db enabled hdb
      obtain ⟨hrest, ht⟩ := ih hnext fun l hl => hks l (List.mem_cons_of_mem _ hl)
      exact ⟨(Commits.one hk enabled).trans hrest, ht⟩

/-- What every admitted entry keeps holds at the end. -/
theorem invariant {P : Db → Prop} (h : Commits crates W db t)
    (hstep : ∀ k, W k → ∀ d, k.Enabled crates d → P d → P (k.apply crates d))
    (hdb : P db) : P t := by
  obtain ⟨ks, hks, hj⟩ := h
  exact hj.invariant (fun k hk => hstep k (hks k hk)) hdb

end Commits

/-- The entries of a journal, all of them `op`'s, lead from `db` to `t`. -/
abbrev Op.Commits (crates : Crates) (op : Op) (db t : Db) : Prop :=
  CodexMonitor.Commits crates (op.Writes crates) db t

theorem Op.Commits.one {crates : Crates} {op : Op} {db : Db} {k : Entry}
    (hw : op.Writes crates k) (hk : k.Enabled crates db) :
    op.Commits crates db (k.apply crates db) :=
  CodexMonitor.Commits.one hw hk

/-- A check on an optional argument that does not fire. -/
theorem not_any_iff {α : Type} {o : Option α} {p : α → Prop} [DecidablePred p] :
    ¬ (o.any fun a => decide (p a)) = true ↔ ∀ a ∈ o, ¬ p a := by
  cases o with
  | none => simp
  | some a => simp

/-! ## Inserts -/

/-- An `INSERT` that succeeds was admitted and appended its row. -/
theorem insertInto_ok {ρ : Type} [Schema ρ] (table : Db → Table ρ) (set : Db → Table ρ → Db)
    (row : Db → ρ) {error : String} {db t : Db} {u : Unit} :
    (insertInto error fun db => ((table db).insert? (row db)).map (set db)).run db = (.ok u, t) ↔
      (table db).Admits (row db) ∧ set db ((table db).add (row db)) = t := by
  unfold insertInto
  rw [Tx.attempt_ok]
  constructor
  · intro h
    obtain ⟨rows, hrows, rfl⟩ := Option.map_eq_some_iff.mp h
    obtain ⟨hadmits, rfl⟩ := Table.insert?_eq_some.mp hrows
    exact ⟨hadmits, rfl⟩
  · rintro ⟨hadmits, rfl⟩
    exact Option.map_eq_some_iff.mpr ⟨_, Table.insert?_eq_some.mpr ⟨hadmits, rfl⟩, rfl⟩

theorem insertBinding_ok {b : Binding} {db t : Db} {u : Unit} :
    (insertBinding b).run db = (.ok u, t) ↔
      db.bindings.Admits b ∧ { db with bindings := db.bindings.add b } = t :=
  insertInto_ok Db.bindings (fun db rows => { db with bindings := rows }) fun _ => b

theorem insertWatch_ok {w : Watch} {db t : Db} {u : Unit} :
    (insertWatch w).run db = (.ok u, t) ↔
      db.managedWatches.Admits w ∧ { db with managedWatches := db.managedWatches.add w } = t :=
  insertInto_ok Db.managedWatches (fun db rows => { db with managedWatches := rows }) fun _ => w

theorem insertEvent_ok {error : String} {e : Db → Event} {db t : Db} {u : Unit} :
    (insertInto error fun db => db.insertEvent? (e db)).run db = (.ok u, t) ↔
      db.events.Admits (e db) ∧ { db with events := db.events.add (e db) } = t :=
  insertInto_ok Db.events (fun db rows => { db with events := rows }) e

theorem insertReply_ok {error : String} {r : Db → Reply} {db t : Db} {u : Unit} :
    (insertInto error fun db => db.insertReply? (r db)).run db = (.ok u, t) ↔
      db.replies.Admits (r db) ∧ { db with replies := db.replies.add (r db) } = t :=
  insertInto_ok Db.replies (fun db rows => { db with replies := rows }) r

theorem insertRequest_ok {error : String} {r : Db → Request} {db t : Db} {u : Unit} :
    (insertInto error fun db => db.insertRequest? (r db)).run db = (.ok u, t) ↔
      db.requests.Admits (r db) ∧ { db with requests := db.requests.add (r db) } = t :=
  insertInto_ok Db.requests (fun db rows => { db with requests := rows }) r

theorem insertUpdate_ok {error : String} {r : Db → RequestUpdate} {db t : Db} {u : Unit} :
    (insertInto error fun db => db.insertUpdate? (r db)).run db = (.ok u, t) ↔
      db.requestUpdates.Admits (r db) ∧
        { db with requestUpdates := db.requestUpdates.add (r db) } = t :=
  insertInto_ok Db.requestUpdates (fun db rows => { db with requestUpdates := rows }) r

theorem insertNotice_ok {error : String} {n : RequestNotification} {db t : Db} {u : Unit} :
    (insertInto error fun db => db.insertNotice? n).run db = (.ok u, t) ↔
      db.requestNotifications.Admits n ∧
        { db with requestNotifications := db.requestNotifications.add n } = t :=
  insertInto_ok Db.requestNotifications (fun db rows => { db with requestNotifications := rows })
    fun _ => n

/-- Intake stores a new event: the binding takes events, no limit is reached and no identifier is
taken. -/
theorem storeEvent_ok {crates : Crates} {b : Binding} {envelope : Value}
    {source eventId encoded : String} {uuid : Uuid} {now : Rat} {receipt : Receipt} {db t : Db}
    (h : (storeEvent crates b envelope source eventId encoded uuid now).run db =
      (.ok receipt, t)) :
    b.enabled = true ∧ b.removed = false ∧
      db.RoomFor crates b.name (envelope.getStr "trace_id") now ∧
      db.events.Admits (newEvent db.nextEventSeq uuid b.name source eventId encoded
        (initialState envelope) now 0) ∧
      receipt = ⟨uuid.text, initialState envelope, false⟩ ∧
      t = { db with
        events := db.events.add (newEvent db.nextEventSeq uuid b.name source eventId encoded
          (initialState envelope) now 0) } := by
  simp only [storeEvent, Tx.bind_ok, bailIf_run_ok, Tx.query_ok, Tx.expect_ok, insertEvent_ok,
    Tx.pure_ok] at h
  obtain ⟨_, _, ⟨hopen, rfl⟩, _, _, ⟨rfl, rfl⟩, _, _, ⟨hpending, rfl⟩, _, _, ⟨rfl, rfl⟩, _, _,
    ⟨hrecent, rfl⟩, _, _, ⟨rfl, rfl⟩, trace, _, ⟨hcounted, rfl⟩, _, _, ⟨htrace, rfl⟩, _, _,
    ⟨hadmits, rfl⟩, rfl, rfl⟩ := h
  refine ⟨?_, ?_, ⟨Nat.lt_of_not_le hpending, Nat.lt_of_not_le hrecent, trace,
    Nat.lt_of_not_le htrace, hcounted⟩, hadmits, rfl, rfl⟩
  · exact Bool.eq_true_of_not_eq_false fun hoff => hopen (Or.inl hoff)
  · exact Bool.eq_false_of_not_eq_true fun hgone => hopen (Or.inr hgone)

end CodexMonitor
