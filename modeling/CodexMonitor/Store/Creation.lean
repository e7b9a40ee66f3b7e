import CodexMonitor.Store.Capacity

/-!
# What a creation finds

A call of `request_create` that passes its checks either finds the request of its key, and
then compares the stored payload with its own, or stores a new one.  The stored text is read
back before the call answers, so a request whose text cannot be read is never stored.
-/

namespace CodexMonitor

open Transaction

/-! ## A key that is taken -/

/-- The client of the stored request `r` creates it again, with the payload `v`. -/
structure Db.Recreates (crates : Crates) (db : Db) (thread source key deliveryId : String)
    (v : Value) (expiresAt : Option F64) (r : Request) : Prop where
  thread_ok : isIdentifier thread = true
  source_ok : isIdentifier source = true
  key_ok : isIdentifier key = true
  deliveryId_ok : isIdentifier deliveryId = true
  payload_ok : (canonicalJson crates v).utf8ByteSize ≤ maxRequestBytes
  expiry_ok : validExpiry expiresAt = some r.expiresAt
  delivered : ∃ e ∈ db.events, e.id = deliveryId ∧ e.source = source ∧
    ∃ b ∈ db.bindings, b.name = e.binding ∧ b.thread = thread
  stored : db.requestAt thread source key = some r
  delivery_eq : r.deliveryId = deliveryId

/-- The parser reads the value's text back, as one that is written alike. -/
def Crates.ReadsBack (crates : Crates) (v : Value) : Prop :=
  ∃ w, crates.fromStr (canonicalJson crates v) = some w ∧
    canonicalJson crates w = canonicalJson crates v

/-- A request that is created again with a payload of the text that is read back is found. -/
theorem requestCreate_found {crates : Crates} {db : Db} {thread source key deliveryId : String}
    {v : Value} {expiresAt : Option F64} {r : Request} {value : RequestValue} (uuid : Uuid)
    (now : Rat) (h : db.Recreates crates thread source key deliveryId v expiresAt r)
    (hvalue : requestValue crates r = .ok value)
    (hsame : canonicalJson crates value.payload = canonicalJson crates v) :
    (requestCreate crates thread source key deliveryId v expiresAt uuid now).run db =
      (.ok ⟨value, true⟩, db) := by
  obtain ⟨e, he, hid, hsource, b, hb, hname, hthread⟩ := h.delivered
  have hparent : (db.events.find? fun e => e.id = deliveryId) = some e :=
    Table.find?_eq_of_unique he hid fun f hf hfid => Event.eq_of_id hf he (hfid.trans hid.symm)
  have htarget : (db.bindings.find? fun b => b.name = e.binding) = some b :=
    Table.find?_eq_of_unique hb hname fun c hc hcname =>
      Binding.eq_of_name hc hb (hcname.trans hname.symm)
  simp only [requestCreate, Tx.bind_ok, validateIdentifier_ok, bailIf_run_ok, Tx.expect_ok,
    withTx, Tx.atomically_ok, Tx.query_ok]
  refine ⟨(), db, ⟨h.thread_ok, rfl⟩, (), db, ⟨h.source_ok, rfl⟩, (), db, ⟨h.key_ok, rfl⟩, (), db,
    ⟨h.deliveryId_ok, rfl⟩, (), db, ⟨Nat.not_lt_of_le h.payload_ok, rfl⟩, r.expiresAt, db,
    ⟨h.expiry_ok, rfl⟩, some e, db, ⟨hparent, rfl⟩, e, db, ⟨rfl, rfl⟩, (), db,
    ⟨not_not.mpr hsource, rfl⟩, some b, db, ⟨htarget, rfl⟩, b, db, ⟨rfl, rfl⟩, (), db,
    ⟨not_not.mpr hthread, rfl⟩, some r, db, ⟨h.stored, rfl⟩, ?_⟩
  simp only [Tx.bind_ok, Tx.ofExcept_ok, bailIf_run_ok, Tx.pure_ok]
  refine ⟨value, db, ⟨hvalue, rfl⟩, (), db, ⟨?_, rfl⟩, rfl, rfl⟩
  simp [h.delivery_eq, hsame]

/-- A request that is created again with the text it is stored under is found. -/
theorem requestCreate_finds {crates : Crates} {db : Db} {thread source key deliveryId : String}
    {v : Value} {expiresAt : Option F64} {r : Request} (uuid : Uuid) (now : Rat)
    (h : db.Recreates crates thread source key deliveryId v expiresAt r)
    (htext : r.payload = canonicalJson crates v) (hreads : crates.ReadsBack v) :
    ∃ payload, (requestCreate crates thread source key deliveryId v expiresAt uuid now).run db =
      (.ok ⟨⟨r, payload⟩, true⟩, db) := by
  obtain ⟨w, hw, hsame⟩ := hreads
  have hvalue : requestValue crates r = .ok ⟨r, w⟩ := by
    rw [requestValue, htext, hw]
  exact ⟨w, requestCreate_found uuid now h hvalue hsame⟩

section calls

variable {crates : Crates} {db db' t : Db} {thread source key deliveryId : String} {payload : Value}
  {expiresAt : Option F64} {uuid : Uuid} {now : Rat} {answer : RequestAnswer}

/-- What a successful creation did: it found the request of its key and read the same payload
text back, or it stored a request that is read back. -/
theorem requestCreate_cases
    (h : (requestCreate crates thread source key deliveryId payload expiresAt uuid now).run db
      = (.ok answer, t)) :
    (∃ r value, db.Recreates crates thread source key deliveryId payload expiresAt r ∧
      requestValue crates r = .ok value ∧
      canonicalJson crates value.payload = canonicalJson crates payload ∧
      answer = ⟨value, true⟩ ∧ t = db) ∨
    (db.Creates crates thread source key deliveryId payload expiresAt ∧
      ∃ e ∈ db.events, e.id = deliveryId ∧ e.source = source ∧
        ∃ b ∈ db.bindings, b.name = e.binding ∧ b.thread = thread ∧
      ∃ expiry r value, validExpiry expiresAt = some expiry ∧
        r = newRequest db.nextRequestSeq uuid thread source key deliveryId e.binding
          (canonicalJson crates payload) expiry now ∧
        (Entry.create r).Enabled crates db ∧ requestValue crates r = .ok value ∧
        answer = ⟨value, false⟩ ∧ t = (Entry.create r).apply crates db) := by
  simp only [requestCreate, Tx.bind_ok, validateIdentifier_ok, bailIf_run_ok, Tx.expect_ok,
    withTx, Tx.atomically_ok, Tx.query_ok] at h
  obtain ⟨_, _, ⟨hthread, rfl⟩, _, _, ⟨hsource, rfl⟩, _, _, ⟨hkey, rfl⟩, _, _, ⟨hid, rfl⟩, _, _,
    ⟨hsize, rfl⟩, expiry, _, ⟨hexpiry, rfl⟩, row, _, ⟨hrow, rfl⟩, e, _, ⟨rfl, rfl⟩, _, _,
    ⟨hown, rfl⟩, target, _, ⟨htarget, rfl⟩, b, _, ⟨rfl, rfl⟩, _, _, ⟨hrouted, rfl⟩, old, _,
    ⟨hold, rfl⟩, h⟩ := h
  obtain ⟨he, heid⟩ := Table.find?_some hrow
  obtain ⟨hb, hname⟩ := Table.find?_some htarget
  have hown := Decidable.of_not_not hown
  have hrouted := Decidable.of_not_not hrouted
  cases old with
  | some r =>
      simp only [Tx.bind_ok, Tx.ofExcept_ok, bailIf_run_ok, Tx.pure_ok, not_or, not_not] at h
      obtain ⟨value, _, ⟨hvalue, rfl⟩, _, _, ⟨⟨hdelivery, htext, hdeadline⟩, rfl⟩, rfl, rfl⟩ := h
      subst hdeadline
      exact Or.inl ⟨r, value, ⟨hthread, hsource, hkey, hid, Nat.le_of_not_lt hsize, hexpiry,
        ⟨e, he, heid, hown, b, hb, hname, hrouted⟩, hold, hdelivery⟩, hvalue, htext, rfl, rfl⟩
  | none =>
      simp only [Tx.bind_ok, Tx.query_ok, bailIf_run_ok, insertRequest_ok, Tx.expect_ok,
        Tx.ofExcept_ok, Tx.pure_ok] at h
      obtain ⟨_, _, ⟨rfl, rfl⟩, _, _, ⟨hcount, rfl⟩, _, _, ⟨hadmits, rfl⟩, found, _,
        ⟨hfound, rfl⟩, r, _, ⟨rfl, rfl⟩, value, _, ⟨hvalue, rfl⟩, rfl, rfl⟩ := h
      have henabled : (Entry.create (newRequest db.nextRequestSeq uuid thread source key deliveryId
          e.binding (canonicalJson crates payload) expiry now)).Enabled crates db :=
        ⟨hadmits, rfl, rfl, rfl, ⟨uuid, rfl⟩, e, he, heid, hown, rfl, b, hb, hname, hrouted⟩
      obtain ⟨hr, hrid⟩ := Table.find?_some hfound
      obtain rfl : r = newRequest db.nextRequestSeq uuid thread source key deliveryId e.binding
          (canonicalJson crates payload) expiry now :=
        Request.eq_of_id hr ((Table.mem_add hadmits).mpr (Or.inr rfl)) hrid
      refine Or.inr ⟨⟨hthread, hsource, hkey, hid, Nat.le_of_not_lt hsize, by rw [hexpiry]; rfl,
        ⟨e, he, heid, hown, b, hb, hname, hrouted⟩, hold, Nat.lt_of_not_le hcount⟩, ?_⟩
      exact ⟨e, he, heid, hown, b, hb, hname, hrouted, expiry, _, value, hexpiry, rfl, henabled,
        hvalue, rfl, rfl⟩

/-! ## Every stored request -/

/-- Requests are numbered from one, they stay within their limit, and each can be read. -/
structure Db.Listable (crates : Crates) (db : Db) : Prop where
  bounded : db.requests.rows.length ≤ maxRequests
  numbered : ∀ r ∈ db.requests, 0 < r.seq ∧ r.seq ≤ db.requests.rows.length
  readable : ∀ r ∈ db.requests, ∃ value, requestValue crates r = .ok value

theorem nextSeq_le {ρ : Type} [Schema ρ] {table : Table ρ} {seq : ρ → Nat} {n : Nat}
    (h : ∀ r ∈ table, seq r ≤ n) : table.nextSeq seq ≤ n + 1 := by
  have hmax : ∀ l : List Nat, (∀ m ∈ l, m ≤ n) → l.foldr max 0 ≤ n := by
    intro l
    induction l with
    | nil => exact fun _ => Nat.zero_le n
    | cons m l ih =>
        intro hl
        exact Nat.max_le.mpr ⟨hl m List.mem_cons_self, ih fun k hk => hl k (List.mem_cons_of_mem _ hk)⟩
  refine Nat.succ_le_succ (hmax _ fun m hm => ?_)
  obtain ⟨r, hr, rfl⟩ := List.mem_map.mp hm
  exact h r hr

/-- A new request finds room and can be read. -/
theorem Db.Listable.apply {k : Entry} (hdb : db.Listable crates) (h : k.Enabled crates db)
    (hnew : ∀ r, k = .create r → db.requests.rows.length < maxRequests ∧
      ∃ value, requestValue crates r = .ok value) : (k.apply crates db).Listable crates := by
  have hrows := Entry.rows_requests h
  have hlength : (k.apply crates db).requests.rows.length =
      db.requests.rows.length + k.newRequest?.toList.length := by
    rw [hrows, List.length_append, List.length_map]
  constructor
  · cases k with
    | create r =>
        have hroom := (hnew r rfl).1
        simp only [Entry.newRequest?, Option.toList_some, List.length_singleton] at hlength
        omega
    | _ =>
        simp only [Entry.newRequest?, Option.toList_none, List.length_nil] at hlength
        have hbound := hdb.bounded
        omega
  · intro r hr
    rcases (Entry.mem_requests h).mp hr with ⟨q, hq, rfl⟩ | hadded
    · have hseq := (Request.identity_eq (k.onRequest_identity q)).1
      have hold := hdb.numbered q hq
      omega
    · cases k with
      | create q =>
          cases hadded
          have hnext := nextSeq_le fun q hq => (hdb.numbered q hq).2
          have hseq : r.seq = db.requests.nextSeq Request.seq := h.2.1
          have hpos : 0 < db.requests.nextSeq Request.seq := Nat.succ_pos _
          simp only [Entry.newRequest?, Option.toList_some, List.length_singleton] at hlength
          omega
      | _ => cases hadded
  · intro r hr
    rcases (Entry.mem_requests h).mp hr with ⟨q, hq, rfl⟩ | hadded
    · obtain ⟨value, hvalue⟩ := hdb.readable q hq
      exact requestValue_of_identity hvalue (k.onRequest_identity q)
    · cases k with
      | create q =>
          cases hadded
          exact (hnew r rfl).2
      | _ => cases hadded

theorem Db.Listable.step {op : Op} (hdb : db.Listable crates) :
    (op.step crates db).Listable crates := by
  have hother : (∀ r, ¬ op.Writes crates (.create r)) → (op.step crates db).Listable crates := by
    intro hnone
    refine (op.commits crates db).invariant (fun k hk d henabled hd => hd.apply henabled ?_) hdb
    intro r hr
    subst hr
    exact absurd hk (hnone r)
  cases op with
  | requestCreate thread source key deliveryId payload expiresAt uuid now =>
      rcases hrun : (requestCreate crates thread source key deliveryId payload expiresAt uuid
        now).run db with ⟨error | answer, t⟩
      · rw [step_of_fail rfl hrun]
        exact hdb
      · rw [step_of_run rfl hrun]
        rcases requestCreate_cases hrun with ⟨_, _, _, _, _, _, rfl⟩ |
          ⟨hcreates, e, _, _, _, b, _, _, _, expiry, r, value, _, _, henabled, hvalue, _, rfl⟩
        · exact hdb
        · refine hdb.apply henabled fun q hq => ?_
          cases hq
          have hcount : (db.requests.count fun _ => True) = db.requests.rows.length := by
            simp [Table.count]
          exact ⟨hcount ▸ hcreates.room, value, hvalue⟩
  | _ =>
      refine hother fun r hwrites => ?_
      cases hwrites

theorem Leads.listable (h : Leads crates db db') (hdb : db.Listable crates) :
    db'.Listable crates :=
  LeadsBy.invariant (P := Db.Listable crates) (fun _ _ hd _ => hd.step) h hdb

theorem Reachable.listable (h : Reachable crates db) : db.Listable crates :=
  Leads.listable h ⟨Nat.zero_le _, fun r hr => absurd hr (Table.not_mem_empty r),
    fun r hr => absurd hr (Table.not_mem_empty r)⟩

end calls

end CodexMonitor
