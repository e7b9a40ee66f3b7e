import CodexMonitor.Discord.Message
import CodexMonitor.Lib.Dict
import CodexMonitor.Lib.Table
import Mathlib.Algebra.Order.Ring.Rat

/-!
# The adapter database

The gateway's own tables: raw messages as they were received, prepared deliveries
with their receipts, the routes of reactions, the cursors of history recovery and
the session to resume.  The definitions below are its statements.
-/

namespace CodexMonitor

namespace Discord

/-! ## Rows -/

/-- A received message: its id and its JSON text. -/
structure RawRow where
  id : String
  payload : String
deriving DecidableEq, Repr

/-- How far a delivery is; an adopted database may hold other states. -/
inductive DeliveryState
  | pending
  | delivered
  | other (state : String)
deriving DecidableEq, Repr

/-- A prepared delivery. -/
structure Pending where
  id : String
  target : String
  payload : String
  state : DeliveryState
  attempts : Nat
  error : Option String
  nextAt : Rat
  receipt : Option String
  seenReacted : Bool
  seenAttempts : Nat
  seenNextAt : Rat
deriving DecidableEq, Repr

structure MessageRoute where
  id : String
  channelId : String
  role : String
deriving DecidableEq, Repr

/-- The Gateway session to resume, and the last sequence number seen in it. -/
structure Session where
  id : Option String
  url : Option String
  seq : Option Nat
deriving DecidableEq, Repr

/-- `Session::default()`. -/
def Session.empty : Session := ⟨none, none, none⟩

instance : Schema RawRow where
  Key := String
  key r := r.id
  Fits a b := a ≠ b
  decFits _ _ := inferInstance

instance : Schema Pending where
  Key := String
  key p := p.id
  Fits a b := a ≠ b
  decFits _ _ := inferInstance

instance : Schema MessageRoute where
  Key := String
  key r := r.id
  Fits a b := a ≠ b
  decFits _ _ := inferInstance

/-- The tables. -/
structure Adapter where
  raw : Table RawRow
  pending : Table Pending
  routes : Table MessageRoute
  cursors : Dict String String
  session : Option Session
  seed : Option String

theorem RawRow.eq_of_id {t : Table RawRow} {r q : RawRow} (hr : r ∈ t) (hq : q ∈ t)
    (h : r.id = q.id) : r = q :=
  Table.eq_of_not_fits hr hq (fun hne => hne h) fun hne => hne h.symm

theorem Pending.eq_of_id {t : Table Pending} {p q : Pending} (hp : p ∈ t) (hq : q ∈ t)
    (h : p.id = q.id) : p = q :=
  Table.eq_of_not_fits hp hq (fun hne => hne h) fun hne => hne h.symm

/-! ## Statements -/

/-- `ORDER BY length(id),id`. -/
def IdLe (a b : String) : Prop := a.length < b.length ∨ (a.length = b.length ∧ a ≤ b)

instance : DecidableRel IdLe := fun _ _ => inferInstanceAs (Decidable (_ ∨ _))

/-- The rows a worker step takes at most. -/
def batchSize : Nat := 8

namespace Adapter

/-- `INSERT OR IGNORE INTO gateway_native_raw … WHERE NOT EXISTS(SELECT 1 FROM gateway_pending …)`. -/
def insertRaw (db : Adapter) (r : RawRow) : Adapter :=
  if db.pending.Any fun p => p.id = r.id then db else { db with raw := db.raw.add r }

/-- `SELECT payload FROM gateway_native_raw ORDER BY length(id),id LIMIT 8`. -/
def batch (db : Adapter) : List RawRow :=
  (db.raw.select (fun _ => True) fun a b => IdLe a.id b.id).take batchSize

/-- A delivery that has not been attempted. -/
def fresh (id target payload : String) : Pending :=
  ⟨id, target, payload, .pending, 0, none, 0, none, false, 0, 0⟩

/-- The transaction that turns a raw message into a delivery. -/
def move (db : Adapter) (id channelId role target payload : String) : Adapter :=
  { db with
    routes := db.routes.add ⟨id, channelId, role⟩
    pending := db.pending.add (fresh id target payload)
    raw := db.raw.delete fun r => r.id = id }

/-- `SELECT id,target,payload,attempts FROM gateway_pending WHERE state='pending' AND …`. -/
def due (db : Adapter) (limit : Nat) (now : Rat) : List Pending :=
  (db.pending.select (fun p => p.state = .pending ∧ (limit = 0 ∨ p.attempts < limit) ∧ p.nextAt ≤ now)
    fun a b => IdLe a.id b.id).take batchSize

/-- `UPDATE gateway_pending SET … WHERE id=?`. -/
def edit (db : Adapter) (id : String) (f : Pending → Pending)
    (hf : ∀ r : Pending, (f r).id = r.id := by intro r; rfl) : Adapter :=
  { db with pending := db.pending.update (fun p => p.id = id) f hf }

def setDelivered (db : Adapter) (id receipt : String) : Adapter :=
  db.edit id fun p => { p with state := .delivered, receipt := some receipt, error := none }

/-- A failed attempt, tried again after `2^min(attempts+1,6)` seconds. -/
def setFailed (db : Adapter) (id : String) (attempts : Nat) (now : Rat) : Adapter :=
  db.edit id fun p =>
    { p with
      attempts := p.attempts + 1
      error := some "delivery_unavailable"
      nextAt := now + 2 ^ min (attempts + 1) 6 }

/-- The delivered rows whose receipt is still looked at, each with the channel of its message. -/
def unseen (db : Adapter) (now : Rat) : List (Pending × String) :=
  (db.pending.rows.filterMap fun p =>
    if p.state = .delivered ∧ p.receipt.isSome ∧ p.seenReacted = false ∧ p.seenAttempts < 5 ∧
        p.seenNextAt ≤ now then
      (db.routes.find? fun r => r.id = p.id).map fun r => (p, r.channelId)
    else none).take batchSize

def setSeen (db : Adapter) (id : String) : Adapter :=
  db.edit id fun p => { p with seenReacted := true }

def setUnseen (db : Adapter) (id : String) (attempts : Nat) (now : Rat) : Adapter :=
  db.edit id fun p =>
    { p with
      seenAttempts := p.seenAttempts + 1
      seenNextAt := now + 2 ^ min (attempts + 1) 8 }

/-- `INSERT INTO gateway_native_cursors … ON CONFLICT(channel) DO UPDATE`. -/
def setCursor (db : Adapter) (channel id : String) : Adapter :=
  { db with cursors := db.cursors.set channel id }

/-- `INSERT INTO gateway_native_meta VALUES('session',…) ON CONFLICT(key) DO UPDATE`. -/
def setSession (db : Adapter) (session : Session) : Adapter := { db with session := some session }

/-- `INSERT OR IGNORE INTO gateway_native_meta VALUES('seed',…)`. -/
def setSeed (db : Adapter) (seed : String) : Adapter := { db with seed := some (db.seed.getD seed) }

end Adapter

/-! ## Where a message is -/

namespace Adapter

/-- The message waits to be prepared. -/
def Waits (db : Adapter) (id : String) : Prop := ∃ r ∈ db.raw, r.id = id

/-- The message has been prepared. -/
def Prepared (db : Adapter) (id : String) : Prop := ∃ p ∈ db.pending, p.id = id

instance (db : Adapter) (id : String) : Decidable (db.Prepared id) :=
  inferInstanceAs (Decidable (∃ p ∈ db.pending.rows, p.id = id))

/-- The message is durable. -/
def Stored (db : Adapter) (id : String) : Prop := db.Waits id ∨ db.Prepared id

/-- No message is both waiting and prepared. -/
def Disjoint (db : Adapter) : Prop := ∀ id, db.Waits id → ¬ db.Prepared id

/-- Whatever is stored stays stored, and what is prepared stays so, with its target and payload. -/
structure Keeps (db t : Adapter) : Prop where
  stored : ∀ id, db.Stored id → t.Stored id
  prepared : ∀ p ∈ db.pending, ∃ q ∈ t.pending,
    q.id = p.id ∧ q.target = p.target ∧ q.payload = p.payload

theorem Keeps.refl (db : Adapter) : db.Keeps db :=
  ⟨fun _ h => h, fun p hp => ⟨p, hp, rfl, rfl, rfl⟩⟩

theorem Keeps.trans {db t u : Adapter} (h : db.Keeps t) (h' : t.Keeps u) : db.Keeps u := by
  refine ⟨fun id hid => h'.stored id (h.stored id hid), ?_⟩
  intro p hp
  obtain ⟨q, hq, hid, htarget, hpayload⟩ := h.prepared p hp
  obtain ⟨r, hr, hid', htarget', hpayload'⟩ := h'.prepared q hq
  exact ⟨r, hr, hid'.trans hid, htarget'.trans htarget, hpayload'.trans hpayload⟩

section statements

variable {db : Adapter} {id : String}

theorem waits_delete {p : RawRow → Prop} [DecidablePred p] {j : String} :
    (∃ r ∈ db.raw.delete p, r.id = j) ↔ ∃ r ∈ db.raw, ¬ p r ∧ r.id = j := by
  constructor
  · intro h
    obtain ⟨r, hr, hj⟩ := h
    obtain ⟨hr, hp⟩ := Table.mem_delete.mp hr
    exact ⟨r, hr, hp, hj⟩
  · intro h
    obtain ⟨r, hr, hp, hj⟩ := h
    exact ⟨r, Table.mem_delete.mpr ⟨hr, hp⟩, hj⟩

/-! ### Receiving -/

theorem insertRaw_pending {r : RawRow} : (db.insertRaw r).pending = db.pending := by
  unfold insertRaw
  split <;> rfl

/-- After it, the message is stored. -/
theorem insertRaw_stored (r : RawRow) : (db.insertRaw r).Stored r.id := by
  unfold insertRaw
  split
  · rename_i hprepared
    exact .inr hprepared
  · by_cases hadmits : db.raw.Admits r
    · exact .inl ⟨r, (Table.mem_add hadmits).mpr (.inr rfl), rfl⟩
    · -- the key is taken: the message waits already
      unfold Table.Admits at hadmits
      push Not at hadmits
      obtain ⟨q, hq, hfits⟩ := hadmits
      have hid : q.id = r.id := not_not.mp hfits
      exact .inl ⟨q, Table.mem_add_of_mem hq, hid⟩

theorem insertRaw_keeps (r : RawRow) : db.Keeps (db.insertRaw r) := by
  refine ⟨fun id hid => ?_, fun p hp => ⟨p, by rwa [insertRaw_pending], rfl, rfl, rfl⟩⟩
  obtain ⟨q, hq, hqid⟩ | hprepared := hid
  · left
    unfold insertRaw
    split
    · exact ⟨q, hq, hqid⟩
    · exact ⟨q, Table.mem_add_of_mem hq, hqid⟩
  · right
    unfold Prepared
    rwa [insertRaw_pending]

/-- A row of the table after it was there, or is the new one, which was not prepared. -/
theorem mem_insertRaw {r q : RawRow} (hq : q ∈ (db.insertRaw r).raw) :
    q ∈ db.raw ∨ (q = r ∧ ¬ db.Prepared r.id) := by
  unfold insertRaw at hq
  split at hq
  · exact .inl hq
  · rename_i hnot
    by_cases hadmits : db.raw.Admits r
    · obtain hq | rfl := (Table.mem_add hadmits).mp hq
      · exact .inl hq
      · exact .inr ⟨rfl, hnot⟩
    · have hsame : db.raw.add r = db.raw := by simp [Table.add, Table.insert?, hadmits]
      rw [hsame] at hq
      exact .inl hq

theorem insertRaw_disjoint (h : db.Disjoint) (r : RawRow) : (db.insertRaw r).Disjoint := by
  intro id hwaits hprepared
  unfold Prepared at hprepared
  rw [insertRaw_pending] at hprepared
  obtain ⟨q, hq, rfl⟩ := hwaits
  obtain hq | ⟨rfl, hnot⟩ := mem_insertRaw hq
  · exact h q.id ⟨q, hq, rfl⟩ hprepared
  · exact hnot hprepared

/-! ### Preparing -/

variable {channelId role target payload : String}

theorem move_prepared : (db.move id channelId role target payload).Prepared id := by
  unfold move Prepared
  simp only
  by_cases hadmits : db.pending.Admits (fresh id target payload)
  · exact ⟨_, (Table.mem_add hadmits).mpr (.inr rfl), rfl⟩
  · unfold Table.Admits at hadmits
    push Not at hadmits
    obtain ⟨q, hq, hfits⟩ := hadmits
    exact ⟨q, Table.mem_add_of_mem hq, not_not.mp hfits⟩

theorem move_waits {j : String} :
    (db.move id channelId role target payload).Waits j ↔ db.Waits j ∧ j ≠ id := by
  unfold Waits move
  simp only
  rw [waits_delete]
  constructor
  · intro h
    obtain ⟨r, hr, hne, rfl⟩ := h
    exact ⟨⟨r, hr, rfl⟩, hne⟩
  · intro h
    obtain ⟨⟨r, hr, rfl⟩, hne⟩ := h
    exact ⟨r, hr, hne, rfl⟩

/-- A row of the table after it was there, or is the new one, whose id was not. -/
theorem mem_move {p : Pending} (hp : p ∈ (db.move id channelId role target payload).pending) :
    p ∈ db.pending ∨ (p = fresh id target payload ∧ ¬ db.Prepared id) := by
  unfold move at hp
  simp only at hp
  by_cases hadmits : db.pending.Admits (fresh id target payload)
  · obtain hp | hp := (Table.mem_add hadmits).mp hp
    · exact .inl hp
    · refine .inr ⟨hp, fun hprepared => ?_⟩
      obtain ⟨q, hq, hid⟩ := hprepared
      exact hadmits q hq hid
  · have hsame : db.pending.add (fresh id target payload) = db.pending := by
      simp [Table.add, Table.insert?, hadmits]
    have hp : p ∈ db.pending.add (fresh id target payload) := hp
    rw [hsame] at hp
    exact .inl hp

theorem move_prepared_iff {j : String} :
    (db.move id channelId role target payload).Prepared j ↔ db.Prepared j ∨ j = id := by
  constructor
  · intro h
    obtain ⟨p, hp, rfl⟩ := h
    obtain hp | ⟨rfl, _⟩ := mem_move hp
    · exact .inl ⟨p, hp, rfl⟩
    · exact .inr rfl
  · intro h
    obtain ⟨p, hp, hid⟩ | rfl := h
    · exact ⟨p, Table.mem_add_of_mem hp, hid⟩
    · exact move_prepared

theorem move_keeps : db.Keeps (db.move id channelId role target payload) := by
  have hpending : ∀ p ∈ db.pending, p ∈ (db.move id channelId role target payload).pending :=
    fun p hp => Table.mem_add_of_mem hp
  refine ⟨fun j hj => ?_, fun p hp => ⟨p, hpending p hp, rfl, rfl, rfl⟩⟩
  by_cases heq : j = id
  · subst heq
    exact .inr move_prepared
  · obtain hwaits | ⟨p, hp, hid⟩ := hj
    · exact .inl (move_waits.mpr ⟨hwaits, heq⟩)
    · exact .inr ⟨p, hpending p hp, hid⟩

theorem move_disjoint (h : db.Disjoint) :
    (db.move id channelId role target payload).Disjoint := by
  intro j hwaits hprepared
  obtain ⟨hwaits, hne⟩ := move_waits.mp hwaits
  obtain ⟨p, hp, rfl⟩ := hprepared
  obtain hp | ⟨rfl, _⟩ := mem_move hp
  · exact h p.id hwaits ⟨p, hp, rfl⟩
  · exact hne rfl

/-! ### Updates of a delivery -/

variable {f : Pending → Pending} {hf : ∀ r : Pending, (f r).id = r.id}

/-- A row after an update is a row before it, changed if its id is the one. -/
theorem mem_edit {q : Pending} (hq : q ∈ (db.edit id f hf).pending) :
    ∃ p ∈ db.pending, q.id = p.id ∧ ((p.id = id ∧ q = f p) ∨ (p.id ≠ id ∧ q = p)) := by
  have hq : q ∈ db.pending.update (fun p => p.id = id) f hf := hq
  obtain ⟨p, hp, rfl⟩ := Table.mem_update.mp hq
  refine ⟨p, hp, ?_⟩
  by_cases hid : p.id = id
  · rw [if_pos hid]
    exact ⟨hf p, .inl ⟨hid, rfl⟩⟩
  · rw [if_neg hid]
    exact ⟨rfl, .inr ⟨hid, rfl⟩⟩

theorem mem_edit_of_mem {p : Pending} (hp : p ∈ db.pending) :
    (if p.id = id then f p else p) ∈ (db.edit id f hf).pending := by
  show _ ∈ db.pending.update (fun p => p.id = id) f hf
  exact Table.mem_update.mpr ⟨p, hp, rfl⟩

theorem edit_prepared {j : String} : (db.edit id f hf).Prepared j ↔ db.Prepared j := by
  constructor
  · intro h
    obtain ⟨q, hq, rfl⟩ := h
    obtain ⟨p, hp, hid, _⟩ := mem_edit hq
    exact ⟨p, hp, hid.symm⟩
  · intro h
    obtain ⟨p, hp, rfl⟩ := h
    refine ⟨_, mem_edit_of_mem hp, ?_⟩
    split
    · exact hf p
    · rfl

theorem edit_keeps (hrow : ∀ r, (f r).target = r.target ∧ (f r).payload = r.payload) :
    db.Keeps (db.edit id f hf) := by
  refine ⟨fun j hj => hj.imp_right edit_prepared.mpr, fun p hp => ⟨_, mem_edit_of_mem hp, ?_⟩⟩
  split
  · exact ⟨hf p, hrow p⟩
  · exact ⟨rfl, rfl, rfl⟩

theorem edit_disjoint (h : db.Disjoint) : (db.edit id f hf).Disjoint :=
  fun j hwaits hprepared => h j hwaits (edit_prepared.mp hprepared)

end statements

end Adapter

end Discord

end CodexMonitor
