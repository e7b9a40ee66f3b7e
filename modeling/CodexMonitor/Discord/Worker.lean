import CodexMonitor.Discord.Tables
import CodexMonitor.Store.Admission

/-!
# The worker of the gateway

Every cycle prepares the first raw messages, posts the first deliveries that are due
and looks at receipts.  A step that fails ends the cycle.  What the outside answers,
the files behind attachments, the receiver and Discord itself, is a parameter of a
cycle.
-/

namespace CodexMonitor

namespace Discord

/-- The gateway of one source. -/
structure Gateway where
  crates : Crates
  config : Value
  source : String

/-- What the outside answers in one cycle. -/
structure World where
  /-- the stored file of an attachment of a message -/
  fetch : Value → Value → Option Value
  /-- the attachments of a message take longer than twenty seconds -/
  timedOut : Value → Bool
  /-- the status and the body that the receiver answers an event with -/
  post : String → Value → Option (Nat × Option Value)
  /-- what `inspect` prints of a receipt -/
  inspect : String → Option Value
  /-- Discord takes a reaction to a message of a channel -/
  react : String → String → Bool
  now : Rat
  failedAt : String → Rat

/-- Why a step ends the cycle. -/
inductive Failure
  | json
  | unauthorized
  | parameter
deriving DecidableEq, Repr

/-- What a cycle is seen to do. -/
inductive Deed
  | prepared (id : String)
  | attempted (id : String)
  | confirmed (ids : List String)
deriving DecidableEq, Repr

/-- What a step leaves. -/
structure Ran where
  result : Except Failure Unit
  db : Adapter
  deeds : List Deed

/-- The next step runs when this one has not failed. -/
def Ran.andThen (r : Ran) (next : Adapter → Ran) : Ran :=
  match r.result with
  | .ok () => ⟨(next r.db).result, (next r.db).db, r.deeds ++ (next r.db).deeds⟩
  | .error _ => r

/-! ## Receiving -/

namespace Gateway

/-- Store an accepted message that is not stored yet. -/
def enqueue (g : Gateway) (m : Value) (db : Adapter) : Adapter :=
  match parse g.config m with
  | none => db
  | some _ => db.insertRaw ⟨text m "id", canonicalJson g.crates m⟩

end Gateway

/-! ## Preparing -/

def errorValue (message : String) : Value := .object [("error", .string message)]

/-- What is said of the attachments of a message. -/
def images (w : World) (m : Value) : List Value :=
  match (field m "attachments").asArray with
  | none => []
  | some attachments =>
      (attachments.take 4).map (fun a => (w.fetch m a).getD
        (errorValue "Attachment unavailable or not a PNG/JPEG within 8 MiB")) ++
      if 4 < attachments.length then [errorValue "Only first 4 attachments processed"] else []

/-- `images`, given up after twenty seconds. -/
def imagesInTime (w : World) (m : Value) : List Value :=
  if w.timedOut m then [errorValue "Attachment download timed out"] else images w m

namespace Gateway

variable (g : Gateway)

/-- The body of a command, the images of its message listed below it. -/
def withImages (body : String) (found : List Value) : String :=
  if found.isEmpty then body
  else body ++ "\nAttached images (untrusted user content): " ++
    canonicalJson g.crates (.array found) ++
      "\nOpen images before describing them; do not claim to see unavailable files."

/-- The event that the receiver is posted. -/
def payload (m : Value) (command : Command) (message : String) : Value :=
  .object [
    ("data", .object [
      ("author_id", command.authorId),
      ("channel_id", .string command.channelId),
      ("message", .string message),
      ("reply_to", field m "id"),
      ("role", .string command.role)]),
    ("id", field m "id"),
    ("source", .string g.source),
    ("type", .string "discord.command")]

/-- A raw message, read and checked again. -/
def read (raw : String) : Except Failure (Value × Command) :=
  match g.crates.fromStr raw with
  | none => .error .json
  | some m =>
      match parse g.config m with
      -- persisted message no longer authorized
      | none => .error .unauthorized
      | some command => .ok (m, command)

/-- The transaction of one prepared message. -/
def prepareRow (w : World) (m : Value) (command : Command) (db : Adapter) : Adapter :=
  db.move (text m "id") command.channelId command.role
    (destination g.config g.source command.role)
    (canonicalJson g.crates
      (g.payload m command (g.withImages command.body (imagesInTime w m))))

/-- The loop of `prepare`. -/
def prepareRows (w : World) : List RawRow → Adapter → Ran
  | [], db => ⟨.ok (), db, []⟩
  | row :: rows, db =>
      match g.read row.payload with
      | .error e => ⟨.error e, db, []⟩
      | .ok (m, command) =>
          Ran.andThen ⟨.ok (), g.prepareRow w m command db, [.prepared (text m "id")]⟩
            (prepareRows w rows)

def prepare (w : World) (db : Adapter) : Ran := g.prepareRows w db.batch db

/-! ## Delivering -/

/-- `delivery_max_attempts`, five by default. -/
def maxAttempts : Nat := (field g.config "delivery_max_attempts").asU64.getD 5

/-- The event that is posted for a row, unless its route is stale. -/
def request (row : Pending) : Option Value :=
  (g.crates.fromStr row.payload).bind fun payload =>
    if row.target = destination g.config g.source (text (field payload "data") "role") then
      some payload
    else none

/-- The receipt in the receiver's answer. -/
def receiptOf (answer : Option (Nat × Option Value)) : Option String :=
  answer.bind fun found =>
    if found.1 = 202 then found.2.bind fun body => body.getStr "delivery_id" else none

def deliverRow (w : World) (row : Pending) (db : Adapter) : Adapter :=
  match (g.request row).bind fun payload => receiptOf (w.post row.target payload) with
  | some receipt => db.setDelivered row.id receipt
  | none => db.setFailed row.id row.attempts (w.failedAt row.id)

def deliverRows (w : World) : List Pending → Adapter → Adapter
  | [], db => db
  | row :: rows, db => deliverRows w rows (g.deliverRow w row db)

/-- One attempt for each delivery of the batch; the limit is a parameter of the query, which takes
64-bit signed integers only. -/
def deliver (w : World) (db : Adapter) : Ran :=
  if 2 ^ 63 ≤ g.maxAttempts then ⟨.error .parameter, db, []⟩
  else
    ⟨.ok (), g.deliverRows w (db.due g.maxAttempts w.now) db,
      (db.due g.maxAttempts w.now).map fun row => .attempted row.id⟩

/-! ## Receipts -/

/-- Whether a receipt has been consumed and the reaction to its message taken, none when that
cannot be told. -/
def seenRow (w : World) (row : Pending) (channel : String) : Option Bool :=
  (row.receipt.bind w.inspect).bind fun found =>
    if text (field found "native") "state" ≠ "consumed" then some false
    else if ¬ (isString (field (field g.config "discord_threads") channel) ∨
        channel = text g.config "channel_id") then none
    else if text g.config "receipt_emoji" ≠ "" ∧ w.react channel row.id = false then none
    else some true

def seenRows (w : World) : List (Pending × String) → Adapter → Adapter
  | [], db => db
  | (row, channel) :: rows, db =>
      seenRows w rows
        (match g.seenRow w row channel with
        | some true => db.setSeen row.id
        | some false => db
        | none => db.setUnseen row.id row.seenAttempts (w.failedAt row.id))

def seen (w : World) (db : Adapter) : Ran :=
  ⟨.ok (), g.seenRows w (db.unseen w.now) db,
    [.confirmed ((db.unseen w.now).map fun found => found.1.id)]⟩

/-- One cycle. -/
def cycle (w : World) (db : Adapter) : Ran :=
  ((g.prepare w db).andThen (g.deliver w)).andThen (g.seen w)

/-- A raw message that `prepare` gets past. -/
def accepts (r : RawRow) : Bool := (g.read r.payload).toOption.isSome

end Gateway

/-! ## What a step does to the messages -/

/-- A raw message carries the id it is stored under. -/
def Adapter.Keyed (crates : Crates) (db : Adapter) : Prop :=
  ∀ r ∈ db.raw, ∀ m, crates.fromStr r.payload = some m → text m "id" = r.id

/-- The same messages wait, and the same are prepared. -/
structure Adapter.Alike (db t : Adapter) : Prop where
  raw : t.raw = db.raw
  prepared : ∀ id, t.Prepared id ↔ db.Prepared id

theorem Adapter.Alike.refl (db : Adapter) : db.Alike db := ⟨rfl, fun _ => Iff.rfl⟩

theorem Adapter.Alike.trans {db t u : Adapter} (h : db.Alike t) (h' : t.Alike u) : db.Alike u :=
  ⟨h'.raw.trans h.raw, fun id => (h'.prepared id).trans (h.prepared id)⟩

section steps

variable {g : Gateway} {w : World} {db : Adapter}

theorem edit_alike {id : String} {f : Pending → Pending} {hf : ∀ r : Pending, (f r).id = r.id} :
    db.Alike (db.edit id f hf) :=
  ⟨rfl, fun _ => Adapter.edit_prepared⟩

theorem enqueue_keeps (m : Value) : db.Keeps (g.enqueue m db) := by
  unfold Gateway.enqueue
  split
  · exact .refl db
  · exact Adapter.insertRaw_keeps _

theorem deliverRow_alike (row : Pending) : db.Alike (g.deliverRow w row db) := by
  unfold Gateway.deliverRow
  split
  · exact edit_alike
  · exact edit_alike

theorem deliverRows_alike (rows : List Pending) : db.Alike (g.deliverRows w rows db) := by
  induction rows generalizing db with
  | nil => exact .refl db
  | cons row rows ih => exact (deliverRow_alike row).trans ih

theorem deliver_alike : db.Alike (g.deliver w db).db := by
  unfold Gateway.deliver
  split
  · exact .refl db
  · exact deliverRows_alike _

theorem seenRows_alike (rows : List (Pending × String)) : db.Alike (g.seenRows w rows db) := by
  induction rows generalizing db with
  | nil => exact .refl db
  | cons entry rows ih =>
      obtain ⟨row, channel⟩ := entry
      rw [Gateway.seenRows]
      refine Adapter.Alike.trans ?_ ih
      split
      · exact edit_alike
      · exact .refl db
      · exact edit_alike

theorem andThen_alike {r : Ran} {next : Adapter → Ran}
    (h : ∀ db : Adapter, db.Alike (next db).db) :
    r.db.Alike (r.andThen next).db := by
  unfold Ran.andThen
  split
  · exact h r.db
  · exact .refl _

/-- After the messages are prepared, a cycle moves none of them. -/
theorem cycle_alike : (g.prepare w db).db.Alike (g.cycle w db).db :=
  (andThen_alike fun _ => deliver_alike).trans (andThen_alike fun _ => seenRows_alike _)

theorem andThen_of_ok {r : Ran} (next : Adapter → Ran) (h : r.result = .ok ()) :
    r.andThen next = ⟨(next r.db).result, (next r.db).db, r.deeds ++ (next r.db).deeds⟩ := by
  unfold Ran.andThen
  rw [h]

theorem andThen_of_error {r : Ran} (next : Adapter → Ran) (h : r.result ≠ .ok ()) :
    r.andThen next = r := by
  unfold Ran.andThen
  split
  · rename_i hr
    exact absurd hr h
  · rfl

theorem andThen_assoc {r : Ran} {next last : Adapter → Ran} :
    (r.andThen next).andThen last = r.andThen fun db => (next db).andThen last := by
  by_cases hr : r.result = .ok ()
  · rw [andThen_of_ok next hr, andThen_of_ok _ hr]
    by_cases hnext : (next r.db).result = .ok ()
    · rw [andThen_of_ok _ hnext]
      unfold Ran.andThen
      simp only [hnext, List.append_assoc]
    · rw [andThen_of_error _ hnext]
      exact andThen_of_error _ hnext
  · rw [andThen_of_error _ hr, andThen_of_error _ hr, andThen_of_error _ hr]

/-! ### The loop of `prepare` -/

theorem accepts_iff {row : RawRow} :
    g.accepts row = true ↔ ∃ m command, g.read row.payload = .ok (m, command) := by
  unfold Gateway.accepts
  cases hread : g.read row.payload with
  | error e =>
      refine iff_of_false Bool.false_ne_true ?_
      intro h
      obtain ⟨_, _, h⟩ := h
      cases h
  | ok found => exact iff_of_true rfl ⟨found.1, found.2, rfl⟩

theorem read_ok {raw : String} {m : Value} {command : Command}
    (h : g.read raw = .ok (m, command)) :
    g.crates.fromStr raw = some m ∧ parse g.config m = some command := by
  unfold Gateway.read at h
  split at h
  · cases h
  · rename_i m' hm
    split at h
    · cases h
    · rename_i command' hparse
      cases h
      exact ⟨hm, hparse⟩

/-- The messages that the loop gets to: those in front of the first that is not accepted. -/
def Gateway.front (g : Gateway) (rows : List RawRow) : List RawRow := rows.takeWhile g.accepts

theorem prepareRows_cons {row : RawRow} {rows : List RawRow} {m : Value} {command : Command}
    (h : g.read row.payload = .ok (m, command)) :
    g.prepareRows w (row :: rows) db =
      ⟨(g.prepareRows w rows (g.prepareRow w m command db)).result,
        (g.prepareRows w rows (g.prepareRow w m command db)).db,
        .prepared (text m "id") ::
          (g.prepareRows w rows (g.prepareRow w m command db)).deeds⟩ := by
  rw [Gateway.prepareRows, h]
  rfl

theorem prepareRows_stuck {row : RawRow} {rows : List RawRow} (h : g.accepts row = false) :
    (g.prepareRows w (row :: rows) db).result ≠ .ok () ∧
      (g.prepareRows w (row :: rows) db).db = db := by
  rw [Gateway.prepareRows]
  cases hread : g.read row.payload with
  | error e =>
      refine ⟨?_, rfl⟩
      intro heq
      cases heq
  | ok found =>
      rw [accepts_iff.mpr ⟨found.1, found.2, hread⟩] at h
      cases h

/-- The loop is done exactly when it gets past every message. -/
theorem prepareRows_ok {rows : List RawRow} :
    (g.prepareRows w rows db).result = .ok () ↔ ∀ r ∈ rows, g.accepts r = true := by
  induction rows generalizing db with
  | nil => exact iff_of_true rfl (List.forall_mem_nil _)
  | cons row rows ih =>
      rw [List.forall_mem_cons]
      by_cases haccepted : g.accepts row = true
      · obtain ⟨m, command, hread⟩ := accepts_iff.mp haccepted
        rw [prepareRows_cons hread, ih]
        exact ⟨fun h => ⟨haccepted, h⟩, And.right⟩
      · have hfalse := Bool.eq_false_of_not_eq_true haccepted
        exact iff_of_false (prepareRows_stuck hfalse).1 fun h => haccepted h.1

/-- The ids that a row's text may name. -/
def KeyedRows (crates : Crates) (rows : List RawRow) : Prop :=
  ∀ r ∈ rows, ∀ m, crates.fromStr r.payload = some m → text m "id" = r.id

/-- Those in front wait no longer and are prepared; every other message stays where it is. -/
theorem prepareRows_messages {rows : List RawRow} (hkeyed : KeyedRows g.crates rows) (id : String) :
    ((g.prepareRows w rows db).db.Waits id ↔ db.Waits id ∧ ∀ r ∈ g.front rows, r.id ≠ id) ∧
    ((g.prepareRows w rows db).db.Prepared id ↔
      db.Prepared id ∨ ∃ r ∈ g.front rows, r.id = id) := by
  induction rows generalizing db with
  | nil =>
      refine ⟨?_, ?_⟩
      · exact ⟨fun h => ⟨h, List.forall_mem_nil _⟩, And.left⟩
      · refine ⟨Or.inl, fun h => h.resolve_right ?_⟩
        intro hex
        obtain ⟨r, hr, _⟩ := hex
        exact absurd hr List.not_mem_nil
  | cons row rows ih =>
      have hrest : KeyedRows g.crates rows := fun r hr => hkeyed r (List.mem_cons_of_mem _ hr)
      unfold Gateway.front
      by_cases haccepted : g.accepts row = true
      · obtain ⟨m, command, hread⟩ := accepts_iff.mp haccepted
        have hid : text m "id" = row.id := hkeyed row List.mem_cons_self m (read_ok hread).1
        obtain ⟨hwaits, hprepared⟩ := @ih (g.prepareRow w m command db) hrest
        rw [prepareRows_cons hread, List.takeWhile_cons_of_pos haccepted]
        simp only [List.forall_mem_cons, List.exists_mem_cons_iff]
        refine ⟨?_, ?_⟩
        · rw [hwaits]
          unfold Gateway.prepareRow
          rw [Adapter.move_waits, hid, and_assoc]
          exact and_congr_right fun _ => and_congr_left fun _ => ne_comm
        · rw [hprepared]
          unfold Gateway.prepareRow
          rw [Adapter.move_prepared_iff, hid, or_assoc]
          exact or_congr_right (or_congr_left eq_comm)
      · rw [List.takeWhile_cons_of_neg haccepted]
        rw [(prepareRows_stuck (Bool.eq_false_of_not_eq_true haccepted)).2]
        refine ⟨?_, ?_⟩
        · exact ⟨fun h => ⟨h, List.forall_mem_nil _⟩, And.left⟩
        · refine ⟨Or.inl, fun h => h.resolve_right ?_⟩
          intro hex
          obtain ⟨r, hr, _⟩ := hex
          exact absurd hr List.not_mem_nil

end steps

/-! ## A gateway of one user -/

/-- Third-party code that reads the texts of the values it is given, and tells all doubles apart. -/
def recalling (values : List Value) : Crates where
  floatText := exactPrinter.floatText
  fromStr text := values.find? fun v => canonicalJson exactPrinter v = text
  parseUrl _ := none
  extractTraceId _ := none

theorem recalling_text {values : List Value} (v : Value) :
    canonicalJson (recalling values) v = canonicalJson exactPrinter v :=
  canonicalJson_congr (a := recalling values) (b := exactPrinter) rfl v

theorem recalling_reads (v : Value) (values : List Value) :
    (recalling (v :: values)).fromStr
      (canonicalJson (recalling (v :: values)) v) = some v := by
  have hfind : (v :: values).find? (fun u => canonicalJson exactPrinter u =
      canonicalJson exactPrinter v) = some v := by simp
  rw [recalling_text]
  exact hfind

/-- The messages of one user are accepted, in one thread. -/
def sampleConfig : Value :=
  .object [("project_name", .string "Example"), ("guild_id", .string "11111111111111111"),
    ("channel_id", .string "22222222222222222"), ("application_id", .string "33333333333333333"),
    ("allowed_user_ids", .array [.string "44444444444444444"]),
    ("roles", .object [("pm", .string "00000000-0000-4000-8000-000000000001")]),
    ("discord_threads", .object [("55555555555555555", .string "pm")]),
    ("threads_only", .bool true), ("state_file", .string "/tmp/example.sqlite3")]

def sampleMessage (id author : String) : Value :=
  .object [("author", .object [("bot", .bool false), ("id", .string author)]),
    ("channel_id", .string "55555555555555555"), ("content", .string "hello"),
    ("guild_id", .string "11111111111111111"), ("id", .string id)]

def acceptedMessage : Value := sampleMessage "66666666666666666" "44444444444444444"

/-- Its author was on the list once. -/
def strangerMessage : Value := sampleMessage "66666666666666660" "99999999999999999"

/-- What is posted of the accepted message. -/
def acceptedPayload : Value :=
  .object [("data", .object [("author_id", .string "44444444444444444"),
      ("channel_id", .string "55555555555555555"), ("message", .string "hello"),
      ("reply_to", .string "66666666666666666"), ("role", .string "pm")]),
    ("id", .string "66666666666666666"), ("source", .string "discord-example"),
    ("type", .string "discord.command")]

def sampleGateway : Gateway where
  crates := recalling [acceptedMessage, strangerMessage, acceptedPayload]
  config := sampleConfig
  source := "discord-example"

def sampleWorld : World where
  fetch _ _ := none
  timedOut _ := false
  post _ _ := some (202, some (.object [("delivery_id", .string "stable-receipt")]))
  inspect _ := none
  react _ _ := true
  now := 0
  failedAt _ := 0

/-- Nothing but raw messages. -/
def waiting (messages : List Value) : Adapter where
  raw := messages.foldl
    (fun t m => t.add ⟨text m "id", canonicalJson exactPrinter m⟩) .empty
  pending := .empty
  routes := .empty
  cursors := ∅
  session := none
  seed := none

theorem waiting_disjoint (messages : List Value) : (waiting messages).Disjoint := by
  intro id _ hprepared
  obtain ⟨p, hp, _⟩ := hprepared
  exact Table.not_mem_empty p hp

end Discord

end CodexMonitor
