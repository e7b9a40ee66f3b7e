import CodexMonitor.Discord.Worker
import CodexMonitor.Lib.Keyset
import CodexMonitor.Lib.Runs
import CodexMonitor.Runtime.Http
import CodexMonitor.Store.Operation

/-!
# The gateway between Discord and the receiver

One process at a time runs the connection, any number of history recoveries and the
worker, each of which takes its steps on the adapter database between those of the
others; a crash loses everything but the tables.  Discord numbers the events of a
session and sends those after a number again when the session is resumed, and it
keeps the messages of a channel in the order of their ids.  A request to the receiver
may arrive late, after the gateway has given up on it or has crashed, and its answer
may be lost.
-/

namespace CodexMonitor

namespace Discord

/-! ## Discord -/

/-- The number of an id. -/
def snowflake (id : String) : Nat := (parseUsize id).getD 0

/-- `text(m, "id").parse::<u64>().unwrap_or(0)`. -/
def snow (m : Value) : Nat := snowflake (text m "id")

/-- The number of an event of a session. -/
def number (v : Value) : Nat := (field v "s").asU64.getD 0

/-- `map.insert(key, value)`; the order of fields shows in no text. -/
def insertField (fields : List (String × Value)) (key : String) (v : Value) :
    List (String × Value) :=
  fields.filter (fun entry => entry.1 ≠ key) ++ [(key, v)]

/-- A message of a channel's history, told its guild. -/
def inGuild (c m : Value) : Option Value :=
  m.asObject.map fun fields => .object (insertField fields "guild_id" (field c "guild_id"))

/-- The messages a page of history holds: the first hundred after an id. -/
def pageOf (history : List Value) (after : String) : List Value :=
  (Keyset.beyond snow (snowflake after) history).take 100

/-- A page as it is sent, its messages in some order. -/
def sent (found : List Value) (order : List Nat) : List Value :=
  order.filterMap fun n => found[n]?

/-- `rows.sort_by_key(…)`. -/
def sorted (rows : List Value) : List Value := rows.insertionSort fun a b => snow a ≤ snow b

/-! ## The process -/

/-- An open connection: the session Discord serves on it, and the number of the last event that was
received; `saving` between that event and the write of the session. -/
structure Live where
  sid : String
  seen : Nat
  saving : Bool
deriving DecidableEq, Repr

/-- Where a recovery is in its channel. -/
inductive Phase
  | opening
  | fetching (after : String) (pages : Nat)
  | storing (after : String) (rows : List Value) (short : Bool) (pages : Nat)

/-- A recovery: its channel, the channels after it, and how far it is. -/
structure Recovery where
  channel : String
  rest : List String
  phase : Phase

/-- Where the worker is in its cycle. -/
inductive Work
  | resting
  | preparing (rows : List RawRow)
  | posting (rows : List Pending)
  | waiting (serial : Nat) (row : Pending) (rows : List Pending)
  | noting (row : Pending) (receipt : Option String) (rows : List Pending)
  | looking (rows : List (Pending × String))

structure Process where
  seed : String
  session : Session
  live : Option Live
  recoveries : List Recovery
  work : Work

/-- A request to the receiver. -/
structure Post where
  serial : Nat
  id : String
  target : String
  body : String
deriving DecidableEq, Repr

/-- The gateway, Discord and the receiver. -/
structure System where
  db : Adapter
  process : Option Process
  sessions : String → List Value
  history : String → List Value
  receiver : Db
  posts : List Post
  flying : List Post

/-! ## The connection -/

namespace Gateway

variable (g : Gateway)

/-- The channels that a recovery reads. -/
def channels : List String :=
  ((field g.config "discord_threads").asObject.getD []).map Prod.fst ++
    if isTrue (field g.config "threads_only") then [] else [text g.config "channel_id"]

/-- A new recovery. -/
def recovery : List Recovery :=
  match g.channels with
  | [] => []
  | channel :: rest => [⟨channel, rest, .opening⟩]

/-- The user of a session is the bot of the configuration. -/
def isSelf (v : Value) : Bool :=
  (field (field (field v "d") "user") "id").asStr = (field g.config "application_id").asStr

/-- What an event changes in memory. -/
def dispatch (v : Value) (p : Process) : Process :=
  let session : Session :=
    if text v "t" = "READY" then
      { p.session with
        id := some (text (field v "d") "session_id")
        url := some (text (field v "d") "resume_gateway_url") }
    else p.session
  { p with
    session := { session with seq := (field v "s").asU64.or session.seq }
    recoveries :=
      if text v "t" = "READY" ∨ text v "t" = "RESUMED" then p.recoveries ++ g.recovery
      else p.recoveries }

/-- What an event stores. -/
def store (v : Value) (db : Adapter) : Adapter :=
  if text v "t" = "MESSAGE_CREATE" then g.enqueue (field v "d") db else db

/-! ## Recovery -/

/-- One step of a recovery; it ends after its last channel, or when a hundred pages do not do. -/
def recover (seed : String) (history : String → List Value) (order : List Nat) (r : Recovery)
    (db : Adapter) : Option (Adapter × List Recovery) :=
  match r.phase with
  | .opening =>
      some (db, [{ r with phase := .fetching ((db.cursors.get r.channel).getD seed) 100 }])
  | .fetching after pages =>
      let found := pageOf (history r.channel) after
      if order.Perm (List.range found.length) then
        some (db, [{ r with
          phase := .storing after (sorted (sent found order)) (found.length < 100) pages }])
      else none
  | .storing after [] short pages =>
      some (db.setCursor r.channel after,
        if short then
          match r.rest with
          | [] => []
          | channel :: rest => [⟨channel, rest, .opening⟩]
        else if pages ≤ 1 then []
        else [{ r with phase := .fetching after (pages - 1) }])
  | .storing _ (m :: rows) short pages =>
      match inGuild g.config m with
      | none => none
      | some m =>
          if numeric (text m "id") then
            some (g.enqueue m db, [{ r with phase := .storing (text m "id") rows short pages }])
          else none

end Gateway

/-! ## Steps -/

inductive LinkAct
  | identified (sid : String)
  | resumed
  | received
  | saved
  | closed (reset : Bool)
  | kept
  | recovered (i : Nat) (order : List Nat)
  | aborted (i : Nat)

inductive WorkAct
  | selectRaw
  | prepared (w : World)
  | selectDue (now : Rat)
  | posted
  | gaveUp
  | noted (now : Rat)
  | selectUnseen (now : Rat)
  | looked (w : World)
  | faltered

inductive Act
  | written (channel : String) (m : Value)
  | opened (sid : String) (v : Value)
  | dispatched (sid : String) (v : Value)
  | called (op : Op)
  | arrived (n : Nat) (uuid : Uuid) (now : Rat) (answered : Bool)
  | started (since : Option String)
  | crashed
  | link (a : LinkAct)
  | work (a : WorkAct)

/-- The gateway of a source, and the receiver with the source's credential. -/
structure Deployment where
  gateway : Gateway
  app : App
  token : String
  crates_eq : app.crates = gateway.crates
  owner_eq : app.owner token = some gateway.source

namespace Gateway

variable (g : Gateway)

/-- A step of the connection or of a recovery. -/
def linkStep (s : System) (p : Process) : LinkAct → Option System
  | .identified sid =>
      if p.live = none ∧ (p.session.id = none ∨ p.session.seq = none) ∧ s.sessions sid ≠ [] then
        some { s with process := some { p with live := some ⟨sid, 0, false⟩ } }
      else none
  | .resumed =>
      match p.live, p.session.id, p.session.seq with
      | none, some sid, some seq =>
          some { s with process := some { p with live := some ⟨sid, seq, false⟩ } }
      | _, _, _ => none
  | .received =>
      p.live.bind fun l =>
        if l.saving then none
        else ((s.sessions l.sid).find? fun v => l.seen < number v).map fun v =>
          if text v "t" = "READY" ∧ ¬ g.isSelf v then
            { s with process := some { p with live := none } }
          else
            { s with
              db := g.store v s.db
              process := some { g.dispatch v p with live := some ⟨l.sid, number v, true⟩ } }
  | .saved =>
      p.live.bind fun l =>
        if l.saving then
          some { s with
            db := s.db.setSession p.session
            process := some { p with live := some { l with saving := false } } }
        else none
  | .closed reset =>
      some { s with process := some { p with
        live := none
        session := if reset then .empty else p.session } }
  | .kept => if p.live = none then some { s with db := s.db.setSession p.session } else none
  | .recovered i order =>
      p.recoveries[i]?.bind fun r =>
        (g.recover p.seed s.history order r s.db).map fun found =>
          { s with
            db := found.1
            process := some { p with recoveries := p.recoveries.eraseIdx i ++ found.2 } }
  | .aborted i => some { s with process := some { p with recoveries := p.recoveries.eraseIdx i } }

/-- The request for a row. -/
def postOf (serial : Nat) (row : Pending) (payload : Value) : Post :=
  ⟨serial, row.id, row.target, canonicalJson g.crates payload⟩

/-- A step of the worker. -/
def workStep (s : System) (p : Process) : WorkAct → Option System
  | .selectRaw =>
      match p.work with
      | .resting => some { s with process := some { p with work := .preparing s.db.batch } }
      | _ => none
  | .prepared w =>
      match p.work with
      | .preparing (row :: rows) =>
          match g.read row.payload with
          | .error _ => some { s with process := some { p with work := .resting } }
          | .ok (m, command) =>
              some { s with
                db := g.prepareRow w m command s.db
                process := some { p with work := .preparing rows } }
      | _ => none
  | .selectDue now =>
      match p.work with
      | .preparing [] =>
          if 2 ^ 63 ≤ g.maxAttempts then some { s with process := some { p with work := .resting } }
          else
            some { s with process := some { p with
              work := .posting (s.db.due g.maxAttempts now) } }
      | _ => none
  | .posted =>
      match p.work with
      | .posting (row :: rows) =>
          match g.request row with
          | none => some { s with process := some { p with work := .noting row none rows } }
          | some payload =>
              let post := g.postOf s.posts.length row payload
              some { s with
                posts := s.posts ++ [post]
                flying := s.flying ++ [post]
                process := some { p with work := .waiting s.posts.length row rows } }
      | _ => none
  | .gaveUp =>
      match p.work with
      | .waiting _ row rows =>
          some { s with process := some { p with work := .noting row none rows } }
      | _ => none
  | .noted now =>
      match p.work with
      | .noting row receipt rows =>
          some { s with
            db := match receipt with
              | some receipt => s.db.setDelivered row.id receipt
              | none => s.db.setFailed row.id row.attempts now
            process := some { p with work := .posting rows } }
      | _ => none
  | .selectUnseen now =>
      match p.work with
      | .posting [] =>
          some { s with process := some { p with work := .looking (s.db.unseen now) } }
      | _ => none
  | .looked w =>
      match p.work with
      | .looking ((row, channel) :: rows) =>
          some { s with
            db := match g.seenRow w row channel with
              | some true => s.db.setSeen row.id
              | some false => s.db
              | none => s.db.setUnseen row.id row.seenAttempts (w.failedAt row.id)
            process := some { p with work := .looking rows } }
      | _ => none
  | .faltered => some { s with process := some { p with work := .resting } }

end Gateway

/-! ## The receiver -/

/-- The body of an answer to an event. -/
def receiptJson : Body → Option Value
  | .receipt r =>
      some (.object [("delivery_id", .string r.deliveryId), ("duplicate", .bool r.duplicate),
        ("state", .string r.state.text)])
  | _ => none

/-- A process that waits for the answer to a request. -/
def Process.answer (p : Process) (serial : Nat) (receipt : Option String) : Process :=
  match p.work with
  | .waiting n row rows =>
      if n = serial then { p with work := .noting row receipt rows } else p
  | _ => p

namespace Deployment

variable (d : Deployment)

/-- What the receiver does with a request, and answers. -/
def receive (post : Post) (uuid : Uuid) (now : Rat) (db : Db) :
    Option (Nat × Option Value) × Db :=
  match d.gateway.crates.fromStr post.body with
  | none => (some (400, none), db)
  | some envelope =>
      match (d.app.serve d.token (.ingest post.target envelope uuid now)).run db with
      | (.ok answer, t) => (some (answer.status, receiptJson answer.body), t)
      | (.error error, t) => (some (error.status, none), t)

/-- Only the gateway has the credential of its source. -/
def Foreign (op : Op) (db : Db) : Prop :=
  ∀ e ∈ (op.step d.gateway.crates db).events.rows,
    e.source = d.gateway.source → e.id ∈ db.events.rows.map Event.id

instance (op : Op) (db : Db) : Decidable (d.Foreign op db) :=
  inferInstanceAs (Decidable (∀ e ∈ _, _ → _))

def step (s : System) : Act → Option System
  | .written channel m =>
      if ∀ q ∈ s.history channel, snow q < snow m then
        some { s with history := Function.update s.history channel (s.history channel ++ [m]) }
      else none
  | .opened sid v =>
      if s.sessions sid = [] ∧ text v "t" = "READY" ∧ text (field v "d") "session_id" = sid ∧
          0 < number v then
        some { s with sessions := Function.update s.sessions sid [v] }
      else none
  | .dispatched sid v =>
      if s.sessions sid ≠ [] ∧ text v "t" ≠ "READY" ∧ ∀ u ∈ s.sessions sid, number u < number v then
        some { s with sessions := Function.update s.sessions sid (s.sessions sid ++ [v]) }
      else none
  | .called op =>
      if d.Foreign op s.receiver then
        some { s with receiver := op.step d.gateway.crates s.receiver }
      else none
  | .arrived n uuid now answered =>
      s.flying[n]?.map fun post =>
        { s with
          receiver := (d.receive post uuid now s.receiver).2
          flying := s.flying.eraseIdx n
          process :=
            if answered then
              s.process.map fun p =>
                p.answer post.serial (Gateway.receiptOf (d.receive post uuid now s.receiver).1)
            else s.process }
  | .started since =>
      match s.process, s.db.seed.or since with
      | none, some seed =>
          if numeric seed then
            some { s with
              db := s.db.setSeed seed
              process := some ⟨seed, s.db.session.getD .empty, none, [], .resting⟩ }
          else none
      | _, _ => none
  | .crashed => some { s with process := none }
  | .link a => s.process.bind fun p => d.gateway.linkStep s p a
  | .work a => s.process.bind fun p => d.gateway.workStep s p a

/-- Any number of steps. -/
def Leads : System → System → Prop := Runs.Leads d.step

end Deployment

/-! ## What a step writes -/

/-- The raw messages that the worker has in hand. -/
def Work.raws : Work → List RawRow
  | .preparing rows => rows
  | .resting | .posting _ | .waiting .. | .noting .. | .looking _ => []

def System.raws (s : System) : List RawRow := s.process.elim [] fun p => p.work.raws

/-- One statement or transaction on the adapter database, by a process with `raws` in hand. -/
inductive Gateway.Writes (g : Gateway) (raws : List RawRow) (db : Adapter) : Adapter → Prop
  | nothing : g.Writes raws db db
  | enqueued (m : Value) : g.Writes raws db (g.enqueue m db)
  | moved (w : World) (raw : RawRow) (m : Value) (command : Command) (hraw : raw ∈ raws)
      (h : g.read raw.payload = .ok (m, command)) : g.Writes raws db (g.prepareRow w m command db)
  | delivered (id receipt : String) : g.Writes raws db (db.setDelivered id receipt)
  | failed (id : String) (attempts : Nat) (now : Rat) :
      g.Writes raws db (db.setFailed id attempts now)
  | seen (id : String) : g.Writes raws db (db.setSeen id)
  | unseen (id : String) (attempts : Nat) (now : Rat) :
      g.Writes raws db (db.setUnseen id attempts now)
  | cursor (channel id : String) : g.Writes raws db (db.setCursor channel id)
  | session (session : Session) : g.Writes raws db (db.setSession session)
  | seed (seed : String) : g.Writes raws db (db.setSeed seed)

section writes

variable {g : Gateway} {d : Deployment} {db db' : Adapter} {s t : System} {p : Process}
  {raws : List RawRow}

theorem Gateway.Writes.keeps (h : g.Writes raws db db') : db.Keeps db' := by
  cases h with
  | nothing => exact .refl db
  | enqueued m => exact enqueue_keeps m
  | moved w raw m command hraw hread => exact Adapter.move_keeps
  | delivered id receipt => exact Adapter.edit_keeps fun _ => ⟨rfl, rfl⟩
  | failed id attempts now => exact Adapter.edit_keeps fun _ => ⟨rfl, rfl⟩
  | seen id => exact Adapter.edit_keeps fun _ => ⟨rfl, rfl⟩
  | unseen id attempts now => exact Adapter.edit_keeps fun _ => ⟨rfl, rfl⟩
  | cursor channel id => exact ⟨fun _ h => h, fun q hq => ⟨q, hq, rfl, rfl, rfl⟩⟩
  | session session => exact ⟨fun _ h => h, fun q hq => ⟨q, hq, rfl, rfl, rfl⟩⟩
  | seed seed => exact ⟨fun _ h => h, fun q hq => ⟨q, hq, rfl, rfl, rfl⟩⟩

theorem Gateway.Writes.disjoint (h : g.Writes raws db db') (hdb : db.Disjoint) : db'.Disjoint := by
  cases h with
  | enqueued m =>
      unfold Gateway.enqueue
      split
      · exact hdb
      · exact Adapter.insertRaw_disjoint hdb _
  | moved w raw m command hraw hread => exact Adapter.move_disjoint hdb
  | delivered id receipt => exact Adapter.edit_disjoint hdb
  | failed id attempts now => exact Adapter.edit_disjoint hdb
  | seen id => exact Adapter.edit_disjoint hdb
  | unseen id attempts now => exact Adapter.edit_disjoint hdb
  | nothing | cursor channel id | session session | seed seed => exact hdb

theorem recover_writes {seed : String} {history : String → List Value} {order : List Nat}
    {r : Recovery} {rs : List Recovery}
    (h : g.recover seed history order r db = some (db', rs)) : g.Writes raws db db' := by
  unfold Gateway.recover at h
  split at h
  · cases h
    exact .nothing
  · obtain ⟨_, h⟩ := Option.ite_none_right_eq_some.mp h
    cases h
    exact .nothing
  · cases h
    exact .cursor _ _
  · split at h
    · cases h
    · obtain ⟨_, h⟩ := Option.ite_none_right_eq_some.mp h
      cases h
      exact .enqueued _

theorem linkStep_writes (raws : List RawRow) {a : LinkAct} (h : g.linkStep s p a = some t) :
    g.Writes raws s.db t.db := by
  cases a with
  | identified sid =>
      obtain ⟨_, h⟩ := Option.ite_none_right_eq_some.mp h
      cases h
      exact .nothing
  | resumed =>
      simp only [Gateway.linkStep] at h
      split at h
      · cases h
        exact .nothing
      · cases h
  | received =>
      obtain ⟨l, _, h⟩ := Option.bind_eq_some_iff.mp h
      obtain ⟨_, h⟩ := Option.ite_none_left_eq_some.mp h
      obtain ⟨v, _, rfl⟩ := Option.map_eq_some_iff.mp h
      split
      · exact .nothing
      · unfold Gateway.store
        split
        · exact .enqueued _
        · exact .nothing
  | saved =>
      obtain ⟨l, _, h⟩ := Option.bind_eq_some_iff.mp h
      obtain ⟨_, h⟩ := Option.ite_none_right_eq_some.mp h
      cases h
      exact .session _
  | closed reset =>
      cases h
      exact .nothing
  | kept =>
      obtain ⟨_, h⟩ := Option.ite_none_right_eq_some.mp h
      cases h
      exact .session _
  | recovered i order =>
      obtain ⟨r, _, h⟩ := Option.bind_eq_some_iff.mp h
      obtain ⟨found, hfound, rfl⟩ := Option.map_eq_some_iff.mp h
      exact recover_writes hfound
  | aborted i =>
      cases h
      exact .nothing

theorem workStep_writes {a : WorkAct} (h : g.workStep s p a = some t) :
    g.Writes p.work.raws s.db t.db := by
  cases a with
  | selectRaw | gaveUp | selectUnseen now =>
      simp only [Gateway.workStep] at h
      split at h
      · cases h
        exact .nothing
      · cases h
  | prepared w =>
      simp only [Gateway.workStep] at h
      split at h
      · rename_i hwork
        split at h
        · cases h
          exact .nothing
        · rename_i hread
          cases h
          rw [hwork]
          exact .moved _ _ _ _ List.mem_cons_self hread
      · cases h
  | selectDue now =>
      simp only [Gateway.workStep] at h
      split at h
      · split at h
        · cases h
          exact .nothing
        · cases h
          exact .nothing
      · cases h
  | posted =>
      simp only [Gateway.workStep] at h
      split at h
      · split at h
        · cases h
          exact .nothing
        · cases h
          exact .nothing
      · cases h
  | noted now =>
      simp only [Gateway.workStep] at h
      split at h
      · cases h
        simp only
        split
        · exact .delivered _ _
        · exact .failed _ _ _
      · cases h
  | looked w =>
      simp only [Gateway.workStep] at h
      split at h
      · cases h
        simp only
        split
        · exact .seen _
        · exact .nothing
        · exact .unseen _ _ _
      · cases h
  | faltered =>
      cases h
      exact .nothing

theorem step_writes {a : Act} (h : d.step s a = some t) :
    d.gateway.Writes s.raws s.db t.db := by
  cases a with
  | written channel m | opened sid v | dispatched sid v | called op =>
      obtain ⟨_, h⟩ := Option.ite_none_right_eq_some.mp h
      cases h
      exact .nothing
  | arrived n uuid now answered =>
      obtain ⟨post, _, rfl⟩ := Option.map_eq_some_iff.mp h
      exact .nothing
  | started since =>
      simp only [Deployment.step] at h
      split at h
      · obtain ⟨_, h⟩ := Option.ite_none_right_eq_some.mp h
        cases h
        exact .seed _
      · cases h
  | crashed =>
      cases h
      exact .nothing
  | link a =>
      obtain ⟨p, _, h⟩ := Option.bind_eq_some_iff.mp h
      exact linkStep_writes _ h
  | work a =>
      obtain ⟨p, hp, h⟩ := Option.bind_eq_some_iff.mp h
      rw [System.raws, hp]
      exact workStep_writes h

theorem step_keeps {a : Act} (h : d.step s a = some t) : s.db.Keeps t.db := (step_writes h).keeps

theorem leads_keeps (h : d.Leads s t) : s.db.Keeps t.db := by
  refine Runs.Leads.invariant (P := fun t => s.db.Keeps t.db) ?_ h (.refl s.db)
  intro u a v hu hstep
  exact hu.trans (step_keeps hstep)

/-- **A stored message stays in exactly one table.**  Once a message waits or is prepared, then
after any steps of the gateway, of Discord and of the receiver, crashes among them, it waits or is
prepared, and never both. -/
theorem stored_once (d : Deployment) (s t : System) (id : String) (hleads : d.Leads s t)
    (hdisjoint : s.db.Disjoint) (hid : s.db.Stored id) :
    (t.db.Waits id ∨ t.db.Prepared id) ∧ ¬ (t.db.Waits id ∧ t.db.Prepared id) := by
  have hkept : t.db.Disjoint := by
    refine Runs.Leads.invariant (P := fun t => t.db.Disjoint) ?_ hleads hdisjoint
    intro u a v hu hstep
    exact (step_writes hstep).disjoint hu
  constructor
  · exact (leads_keeps hleads).stored id hid
  · intro hboth
    exact hkept id hboth.1 hboth.2

end writes

/-! ## A deployment of the sample gateway -/

/-- The receiver knows the source by its credential. -/
def sampleDeployment : Deployment where
  gateway := sampleGateway
  app := ⟨sampleGateway.crates, [("discord-example", "fixture-source")], fun _ => .nan⟩
  token := "fixture-source"
  crates_eq := rfl
  owner_eq := by decide

/-- The binding of the role is there, and messages wait. -/
def sampleStart (messages : List Value) : System where
  db := waiting messages
  process := none
  sessions _ := []
  history _ := []
  receiver := Db.after sampleGateway.crates
    [.bind "discord-example-pm" "conversation-1" "shared-local" ["discord-example"]]
  posts := []
  flying := []

/-- The first event of a session. -/
def readyEvent : Value :=
  .object [("t", .string "READY"), ("s", .number (.posInt 1)),
    ("d", .object [("session_id", .string "session-1"),
      ("resume_gateway_url", .string "wss://gateway.discord.gg"),
      ("user", .object [("id", .string "33333333333333333")])])]

/-- The accepted message comes in a session. -/
def arrivalActs : List Act :=
  [.opened "session-1" readyEvent, .started (some "60000000000000000"),
    .link (.identified "session-1"), .link .received, .link .saved,
    .dispatched "session-1" (.object [("t", .string "MESSAGE_CREATE"), ("s", .number (.posInt 2)),
      ("d", acceptedMessage)]),
    .link .received, .link .saved]

/-- A message that waits is prepared, and the process crashes. -/
theorem stored_once_sample :
    ∃ t, sampleDeployment.Leads (sampleStart [acceptedMessage]) t ∧
      t.db.Prepared "66666666666666666" ∧ ¬ t.db.Waits "66666666666666666" := by
  have hrun : (Runs.run? sampleDeployment.step
      [.started (some "60000000000000000"), .work .selectRaw, .work (.prepared sampleWorld),
        .crashed] (sampleStart [acceptedMessage])).any
      (fun t => t.db.Prepared "66666666666666666") = true := by
    decide +kernel
  obtain ⟨t, ht, hprepared⟩ := Option.any_eq_true _ _ |>.mp hrun
  have hprepared := of_decide_eq_true hprepared
  have hleads : sampleDeployment.Leads (sampleStart [acceptedMessage]) t := Runs.leads_run ht
  have honce := stored_once sampleDeployment (sampleStart [acceptedMessage]) t "66666666666666666"
    hleads (waiting_disjoint _) (.inl ⟨_, List.mem_singleton.mpr rfl, rfl⟩)
  exact ⟨t, hleads, hprepared, fun hwaits => honce.2 ⟨hwaits, hprepared⟩⟩

end Discord

end CodexMonitor
