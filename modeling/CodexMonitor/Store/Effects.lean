import CodexMonitor.Store.Journal

/-!
# What an entry does to each row

Under its condition an entry changes every table in one way: it rewrites the rows
that are there, key columns excepted, and appends at most one.  This file states
the two halves for the tables the invariants are about; every later argument
about a run is pointwise and starts from these equations.
-/

namespace CodexMonitor

open Transaction

/-- The outbox half of `finish` writes to the outbox only. -/
theorem Db.mirrorOutcome_frame (db : Db) (id : String) (state : EventState)
    (error : Option String) (now : Rat) :
    db.mirrorOutcome id state error now =
      { db with
        requestNotifications := (db.mirrorOutcome id state error now).requestNotifications } := by
  unfold Db.mirrorOutcome
  split
  · rfl
  split <;> rfl

/-- The outbox half of a transition writes to the outbox only. -/
theorem Db.addNotice_frame (db : Db) (crates : Crates) (r : Request) (updateId : String)
    (state : RequestState) (detail : Option String) (now : Rat) :
    db.addNotice crates r updateId state detail now =
      { db with
        requestNotifications :=
          (db.addNotice crates r updateId state detail now).requestNotifications } := by
  unfold Db.addNotice
  split <;> rfl

/-! ## Events -/

/-- A pending event of a removed route dies. -/
def Event.killed (name : String) (now : Rat) (e : Event) : Event :=
  if e.binding = name ∧ e.state = .pending then
    { e with state := .dead, error := some "binding removed", nextAt := 0, updated := now }
  else e

/-- What an entry makes of a stored event. -/
def Entry.onEvent : Entry → Event → Event
  | .route name action now, e => if action = .remove then e.killed name now else e
  | .expire f now, e =>
      if e.id = f.id then
        { e with state := .dead, error := some "event expired", updated := now }
      else e
  | .submit f now, e =>
      if e.id = f.id ∧ e.state = .pending then
        { e with state := .submitting, attempts := e.attempts + 1, updated := now }
      else e
  | .finish f state submissionId error now, e =>
      if e.id = f.id then
        { e with
          state := state
          submissionId := submissionId
          error := error
          attempts := f.attempts
          nextAt := storedNextAt state f.attempts now
          updated := now }
      else e
  | .defer f error now, e =>
      if e.id = f.id then
        { e with
          state := .pending
          attempts := f.attempts - 1
          nextAt := now + 5
          error := some error
          updated := now }
      else e
  | .recover nextAt now, e =>
      if e.state = .submitting then
        { e with state := .uncertain, nextAt := nextAt, updated := now }
      else e
  | _, e => e

/-- The columns of a key, one by one. -/
theorem Event.key_eq {e f : Event} (h : e.key = f.key) :
    e.seq = f.seq ∧ e.id = f.id ∧ e.clientId = f.clientId ∧ e.binding = f.binding ∧
      e.source = f.source ∧ e.eventId = f.eventId ∧ e.envelope = f.envelope ∧
      e.created = f.created := by
  simpa [Event.key] using h

/-- The event an entry stores. -/
def Entry.newEvent? : Entry → Option Event
  | .store e => some e
  | .deliver _ e _ => some e
  | _ => none

theorem Entry.onEvent_key (k : Entry) (e : Event) : (k.onEvent e).key = e.key := by
  cases k with
  | route | expire | submit | finish | defer | recover =>
      simp only [Entry.onEvent, Event.killed]
      repeat' split
      all_goals rfl
  | _ => rfl

/-- A new event is fresh. -/
theorem Entry.fresh_of_new {crates : Crates} {db : Db} {k : Entry} {e : Event}
    (h : k.Enabled crates db) (hnew : k.newEvent? = some e) : db.Fresh e := by
  cases k with
  | store f =>
      cases hnew
      exact h.1
  | deliver n f now =>
      cases hnew
      exact h.2.2.1
  | _ => cases hnew

/-- Rows that an entry leaves alone. -/
theorem rows_untouched {ρ : Type} {rows : List ρ} {f : ρ → ρ} (hf : f = id) :
    rows = rows.map f ++ (none : Option ρ).toList := by
  rw [hf, List.map_id]
  exact (List.append_nil _).symm

/-- Rows that an entry rewrites in place. -/
theorem rows_rewritten {ρ : Type} {rows : List ρ} {f : ρ → ρ} :
    rows.map f = rows.map f ++ (none : Option ρ).toList :=
  (List.append_nil _).symm

/-- Rows that an entry appends one to. -/
theorem rows_appended {ρ : Type} {rows : List ρ} {f : ρ → ρ} {r : ρ} (hf : f = id) :
    rows ++ [r] = rows.map f ++ (some r).toList := by
  rw [hf, List.map_id]
  rfl

theorem Entry.rows_events {crates : Crates} {db : Db} {k : Entry} (h : k.Enabled crates db) :
    (k.apply crates db).events.rows =
      db.events.rows.map k.onEvent ++ k.newEvent?.toList := by
  cases k with
  | store e => exact (Table.rows_add h.1.1).trans (rows_appended rfl)
  | deliver n e now => exact (Table.rows_add h.2.2.1.1).trans (rows_appended rfl)
  | route name action now =>
      cases action with
      | pause => exact rows_untouched rfl
      | resume => exact rows_untouched rfl
      | remove => exact rows_rewritten
  | finish e state submissionId error now =>
      rw [Entry.apply, Db.mirrorOutcome_frame]
      exact rows_rewritten
  | transition r updateId state detail now =>
      rw [Entry.apply, Db.addNotice_frame]
      exact rows_untouched rfl
  | expire | submit | defer | recover => exact rows_rewritten
  | _ => exact rows_untouched rfl

/-- The events after an entry: the old ones, rewritten, and the new one. -/
theorem Entry.mem_events {crates : Crates} {db : Db} {k : Entry} (h : k.Enabled crates db)
    {e : Event} :
    e ∈ (k.apply crates db).events ↔
      (∃ f ∈ db.events, k.onEvent f = e) ∨ k.newEvent? = some e := by
  rw [Table.mem_def, Entry.rows_events h, List.mem_append, List.mem_map]
  simp [Table.mem_def]

/-! ## Notifications -/

/-- A notification of a removed route fails once its event cannot be delivered any more. -/
def RequestNotification.abandoned (events : Table Event) (name : String) (now : Rat)
    (n : RequestNotification) : RequestNotification :=
  if n.state = .pending ∧ n.originalBinding = name ∧
      (n.deliveryId = none ∨ events.Any fun e => n.deliveryId = some e.id ∧ e.state = .dead) then
    { n with state := .failed, error := some "binding removed", updated := now }
  else n

/-- A waiting notification follows its event. -/
def RequestNotification.settled (id : String) (state : NoticeState) (error : Option String)
    (now : Rat) (n : RequestNotification) : RequestNotification :=
  if n.deliveryId = some id ∧ n.state = .pending then
    { n with state := state, error := error, updated := now }
  else n

/-- What an entry makes of a stored notification. -/
def Entry.onNotice (db : Db) : Entry → RequestNotification → RequestNotification
  | .route name action now, n =>
      if action = .remove then n.abandoned (db.killPending name now).events name now else n
  | .expire e now, n => n.settled e.id .failed (some "event expired") now
  | .finish e state _ error now, n =>
      if state = .accepted then n.settled e.id .accepted none now
      else if state = .dead then
        n.settled e.id .failed (some (error.getD "notification delivery failed")) now
      else n
  | .failNotice m error now, n =>
      if n.notificationId = m.notificationId ∧ n.state = .pending then
        { n with state := .failed, error := some error, updated := now }
      else n
  | .link m e now, n =>
      if n.notificationId = m.notificationId ∧ n.state = .pending then
        { n with
          state := (linkOutcome e.state).1
          deliveryId := some e.id
          error := (linkOutcome e.state).2
          updated := now }
      else n
  | .postpone m now, n =>
      if n.notificationId = m.notificationId ∧ n.state = .pending then
        { n with nextAt := now + 1, error := some "binding queue capacity reached", updated := now }
      else n
  | .deliver m e now, n =>
      if n.notificationId = m.notificationId ∧ n.state = .pending then
        { n with deliveryId := some e.id, error := none, updated := now }
      else n
  | _, n => n

/-- The notification an entry puts into the outbox. -/
def Entry.newNotice? (crates : Crates) : Entry → Option RequestNotification
  | .transition r updateId state detail now =>
      if state.notifies = true then
        some (newNotification crates r updateId (r.revision + 1) state detail now)
      else none
  | _ => none

theorem Entry.onNotice_key (db : Db) (k : Entry) (n : RequestNotification) :
    (k.onNotice db n).key = n.key := by
  cases k with
  | route | expire | finish | failNotice | link | postpone | deliver =>
      simp only [Entry.onNotice, RequestNotification.abandoned, RequestNotification.settled]
      repeat' split
      all_goals rfl
  | _ => rfl

/-- What an entry did to a stored notification `n`, which is `n'` now. -/
inductive NoticeMove (db : Db) (n n' : RequestNotification) : Entry → Prop
  | stay {k : Entry} (hstate : n'.state = n.state) (hlink : n'.deliveryId = n.deliveryId) :
      NoticeMove db n n' k
  /-- its route was removed, and it had no event or a dead one -/
  | abandon {now : Rat} (hpending : n.state = .pending) (hfailed : n'.state = .failed)
      (hlink : n'.deliveryId = n.deliveryId)
      (hevent : n.deliveryId = none ∨ (db.killPending n.originalBinding now).events.Any fun e =>
        n.deliveryId = some e.id ∧ e.state = .dead) :
      NoticeMove db n n' (.route n.originalBinding .remove now)
  /-- its event expired -/
  | expire {e : Event} {now : Rat} (hpending : n.state = .pending) (hfailed : n'.state = .failed)
      (hlink : n'.deliveryId = n.deliveryId) (hevent : n.deliveryId = some e.id) :
      NoticeMove db n n' (.expire e now)
  /-- its event was accepted -/
  | accept {e : Event} {submissionId error : Option String} {now : Rat}
      (hpending : n.state = .pending) (haccepted : n'.state = .accepted)
      (hlink : n'.deliveryId = n.deliveryId) (hevent : n.deliveryId = some e.id) :
      NoticeMove db n n' (.finish e .accepted submissionId error now)
  /-- its event died -/
  | die {e : Event} {submissionId error : Option String} {now : Rat}
      (hpending : n.state = .pending) (hfailed : n'.state = .failed)
      (hlink : n'.deliveryId = n.deliveryId) (hevent : n.deliveryId = some e.id) :
      NoticeMove db n n' (.finish e .dead submissionId error now)
  /-- it can never be delivered -/
  | fail {error : String} {now : Rat} (hpending : n.state = .pending) (hfailed : n'.state = .failed)
      (hnone : n.deliveryId = none) (hlink : n'.deliveryId = none) :
      NoticeMove db n n' (.failNotice n error now)
  /-- it took over an event -/
  | link {e : Event} {now : Rat} (hpending : n.state = .pending) (hnone : n.deliveryId = none)
      (hstate : n'.state = (linkOutcome e.state).1) (hlink : n'.deliveryId = some e.id) :
      NoticeMove db n n' (.link n e now)
  /-- its own event was stored -/
  | deliver {e : Event} {now : Rat} (hpending : n.state = .pending) (hnone : n.deliveryId = none)
      (hstate : n'.state = .pending) (hlink : n'.deliveryId = some e.id) :
      NoticeMove db n n' (.deliver n e now)

/-- What the settlement of an event does to a notification. -/
theorem RequestNotification.settled_cases (id : String) (state : NoticeState)
    (error : Option String) (now : Rat) (n : RequestNotification) :
    n.settled id state error now = n ∨
      n.state = .pending ∧ n.deliveryId = some id ∧
        (n.settled id state error now).state = state ∧
        (n.settled id state error now).deliveryId = n.deliveryId := by
  unfold RequestNotification.settled
  split
  · rename_i h
    exact Or.inr ⟨h.2, h.1, rfl, rfl⟩
  · exact Or.inl rfl

theorem Entry.notice_move {crates : Crates} {db : Db} {k : Entry} (h : k.Enabled crates db)
    {n : RequestNotification} (hn : n ∈ db.requestNotifications) :
    NoticeMove db n (k.onNotice db n) k := by
  cases k with
  | route name action now =>
      simp only [Entry.onNotice]
      split
      · rename_i hremove
        subst hremove
        unfold RequestNotification.abandoned
        split
        · rename_i hmatch
          obtain ⟨hpending, rfl, hevent⟩ := hmatch
          exact .abandon hpending rfl rfl hevent
        · exact .stay rfl rfl
      · exact .stay rfl rfl
  | expire e now =>
      simp only [Entry.onNotice]
      rcases n.settled_cases e.id .failed (some "event expired") now with hsame |
        ⟨hpending, hevent, hstate, hlink⟩
      · rw [hsame]
        exact .stay rfl rfl
      · exact .expire hpending hstate hlink hevent
  | finish e state submissionId error now =>
      simp only [Entry.onNotice]
      split
      · rename_i haccepted
        subst haccepted
        rcases n.settled_cases e.id .accepted none now with hsame |
          ⟨hpending, hevent, hstate, hlink⟩
        · rw [hsame]
          exact .stay rfl rfl
        · exact .accept hpending hstate hlink hevent
      split
      · rename_i hdead
        subst hdead
        rcases n.settled_cases e.id .failed (some (error.getD "notification delivery failed")) now
          with hsame | ⟨hpending, hevent, hstate, hlink⟩
        · rw [hsame]
          exact .stay rfl rfl
        · exact .die hpending hstate hlink hevent
      · exact .stay rfl rfl
  | failNotice m error now =>
      simp only [Entry.onNotice]
      split
      · rename_i hm
        obtain rfl := RequestNotification.eq_of_id hn h.1.mem hm.1
        exact .fail hm.2 rfl h.1.unlinked h.1.unlinked
      · exact .stay rfl rfl
  | link m e now =>
      simp only [Entry.onNotice]
      split
      · rename_i hm
        obtain rfl := RequestNotification.eq_of_id hn h.1.mem hm.1
        exact .link hm.2 h.1.unlinked rfl rfl
      · exact .stay rfl rfl
  | postpone m now =>
      simp only [Entry.onNotice]
      split <;> exact .stay rfl rfl
  | deliver m e now =>
      simp only [Entry.onNotice]
      split
      · rename_i hm
        obtain rfl := RequestNotification.eq_of_id hn h.1.mem hm.1
        exact .deliver hm.2 h.1.unlinked hm.2 rfl
      · exact .stay rfl rfl
  | _ => exact .stay rfl rfl

theorem Entry.rows_notices {crates : Crates} {db : Db} {k : Entry} (h : k.Enabled crates db) :
    (k.apply crates db).requestNotifications.rows =
      db.requestNotifications.rows.map (k.onNotice db) ++ (k.newNotice? crates).toList := by
  cases k with
  | route name action now =>
      cases action with
      | pause => exact rows_untouched rfl
      | resume => exact rows_untouched rfl
      | remove => exact rows_rewritten
  | finish e state submissionId error now =>
      simp only [Entry.apply, Db.mirrorOutcome, Entry.newNotice?]
      by_cases haccepted : state = .accepted
      · subst haccepted
        exact rows_rewritten
      by_cases hdead : state = .dead
      · subst hdead
        exact rows_rewritten
      rw [if_neg haccepted, if_neg hdead]
      have hsame : (Entry.finish e state submissionId error now).onNotice db = id := by
        funext n
        simp [Entry.onNotice, haccepted, hdead]
      exact rows_untouched hsame
  | transition r updateId state detail now =>
      simp only [Entry.apply, Db.addNotice, Entry.newNotice?]
      split
      · rename_i hnotifies
        exact (Table.rows_add (h.2.2.2 hnotifies).2).trans (rows_appended rfl)
      · exact rows_untouched rfl
  | expire | failNotice | link | postpone | deliver => exact rows_rewritten
  | _ => exact rows_untouched rfl

/-- The notifications after an entry: the old ones, rewritten, and the new one. -/
theorem Entry.mem_notices {crates : Crates} {db : Db} {k : Entry} (h : k.Enabled crates db)
    {n : RequestNotification} :
    n ∈ (k.apply crates db).requestNotifications ↔
      (∃ m ∈ db.requestNotifications, k.onNotice db m = n) ∨ k.newNotice? crates = some n := by
  rw [Table.mem_def, Entry.rows_notices h, List.mem_append, List.mem_map]
  simp [Table.mem_def]

/-! ## Bindings -/

/-- What an entry makes of a stored binding. -/
def Entry.onBinding : Entry → Binding → Binding
  | .route name action _, b =>
      if b.name = name then
        { b with enabled := action = .resume, removed := action = .remove }
      else b
  | .watch w action _, b =>
      if b.name = w.binding then
        { b with enabled := action = .resume, removed := action = .remove }
      else b
  | _, b => b

/-- The binding an entry registers. -/
def Entry.newBinding? : Entry → Option Binding
  | .bind b => some b
  | .createWatch b _ => some b
  | _ => none

theorem Entry.onBinding_key (k : Entry) (b : Binding) :
    (k.onBinding b).name = b.name ∧ (k.onBinding b).thread = b.thread ∧
      (k.onBinding b).endpoint = b.endpoint ∧ (k.onBinding b).sources = b.sources := by
  cases k with
  | route | watch =>
      simp only [Entry.onBinding]
      split <;> exact ⟨rfl, rfl, rfl, rfl⟩
  | _ => exact ⟨rfl, rfl, rfl, rfl⟩

theorem Entry.rows_bindings {crates : Crates} {db : Db} {k : Entry} (h : k.Enabled crates db) :
    (k.apply crates db).bindings.rows =
      db.bindings.rows.map k.onBinding ++ k.newBinding?.toList := by
  cases k with
  | bind b => exact (Table.rows_add h.1).trans (rows_appended rfl)
  | createWatch b w => exact (Table.rows_add h.1).trans (rows_appended rfl)
  | route name action now => cases action <;> exact rows_rewritten
  | watch w action now => exact rows_rewritten
  | finish e state submissionId error now =>
      rw [Entry.apply, Db.mirrorOutcome_frame]
      exact rows_untouched rfl
  | transition r updateId state detail now =>
      rw [Entry.apply, Db.addNotice_frame]
      exact rows_untouched rfl
  | _ => exact rows_untouched rfl

theorem Entry.mem_bindings {crates : Crates} {db : Db} {k : Entry} (h : k.Enabled crates db)
    {b : Binding} :
    b ∈ (k.apply crates db).bindings ↔
      (∃ c ∈ db.bindings, k.onBinding c = b) ∨ k.newBinding? = some b := by
  rw [Table.mem_def, Entry.rows_bindings h, List.mem_append, List.mem_map]
  simp [Table.mem_def]

/-! ## Managed watches -/

/-- What an entry makes of a stored watch. -/
def Entry.onWatch : Entry → Watch → Watch
  | .route name action _, w =>
      if w.binding = name ∧ w.removed = false then
        { w with enabled := action = .resume, removed := action = .remove, epoch := w.epoch + 1 }
      else w
  | .watch v action now, w =>
      if w.id = v.id then
        { w with
          enabled := action = .resume
          removed := action = .remove
          epoch := w.epoch + 1
          updated := now }
      else w
  | .checkpoint v text now, w =>
      if w.id = v.id ∧ w.epoch = v.epoch then { w with checkpoint := some text, updated := now }
      else w
  | _, w => w

/-- The watch an entry registers. -/
def Entry.newWatch? : Entry → Option Watch
  | .createWatch _ w => some w
  | _ => none

theorem Entry.rows_watches {crates : Crates} {db : Db} {k : Entry} (h : k.Enabled crates db) :
    (k.apply crates db).managedWatches.rows =
      db.managedWatches.rows.map k.onWatch ++ k.newWatch?.toList := by
  cases k with
  | createWatch b w => exact (Table.rows_add h.2.1).trans (rows_appended rfl)
  | route name action now => cases action <;> exact rows_rewritten
  | watch | checkpoint => exact rows_rewritten
  | finish e state submissionId error now =>
      rw [Entry.apply, Db.mirrorOutcome_frame]
      exact rows_untouched rfl
  | transition r updateId state detail now =>
      rw [Entry.apply, Db.addNotice_frame]
      exact rows_untouched rfl
  | _ => exact rows_untouched rfl

theorem Entry.mem_watches {crates : Crates} {db : Db} {k : Entry} (h : k.Enabled crates db)
    {w : Watch} :
    w ∈ (k.apply crates db).managedWatches ↔
      (∃ v ∈ db.managedWatches, k.onWatch v = w) ∨ k.newWatch? = some w := by
  rw [Table.mem_def, Entry.rows_watches h, List.mem_append, List.mem_map]
  simp [Table.mem_def]

/-! ## Requests and their history -/

/-- What an entry makes of a stored request. -/
def Entry.onRequest : Entry → Request → Request
  | .transition q _ state _ now, r =>
      if r.requestId = q.requestId ∧ r.revision = q.revision then
        { r with state := state, revision := q.revision + 1, updated := now }
      else r
  | _, r => r

/-- The request an entry creates. -/
def Entry.newRequest? : Entry → Option Request
  | .create r => some r
  | _ => none

/-- The history row an entry appends. -/
def Entry.newUpdate? (db : Db) : Entry → Option RequestUpdate
  | .transition r updateId state detail now => some (transitionRow db r updateId state detail now)
  | _ => none

theorem Entry.onRequest_identity (k : Entry) (r : Request) :
    (k.onRequest r).identity = r.identity := by
  cases k with
  | transition =>
      simp only [Entry.onRequest]
      split <;> rfl
  | _ => rfl

theorem Entry.rows_requests {crates : Crates} {db : Db} {k : Entry} (h : k.Enabled crates db) :
    (k.apply crates db).requests.rows =
      db.requests.rows.map k.onRequest ++ k.newRequest?.toList := by
  cases k with
  | create r => exact (Table.rows_add h.1).trans (rows_appended rfl)
  | route name action now => cases action <;> exact rows_untouched rfl
  | finish e state submissionId error now =>
      rw [Entry.apply, Db.mirrorOutcome_frame]
      exact rows_untouched rfl
  | transition r updateId state detail now =>
      rw [Entry.apply, Db.addNotice_frame]
      exact rows_rewritten
  | _ => exact rows_untouched rfl

theorem Entry.mem_requests {crates : Crates} {db : Db} {k : Entry} (h : k.Enabled crates db)
    {r : Request} :
    r ∈ (k.apply crates db).requests ↔
      (∃ q ∈ db.requests, k.onRequest q = r) ∨ k.newRequest? = some r := by
  rw [Table.mem_def, Entry.rows_requests h, List.mem_append, List.mem_map]
  simp [Table.mem_def]

/-- History rows are only ever appended. -/
theorem Entry.rows_updates {crates : Crates} {db : Db} {k : Entry} (h : k.Enabled crates db) :
    (k.apply crates db).requestUpdates.rows =
      db.requestUpdates.rows ++ (k.newUpdate? db).toList := by
  cases k with
  | route name action now => cases action <;> exact (List.append_nil _).symm
  | finish e state submissionId error now =>
      rw [Entry.apply, Db.mirrorOutcome_frame]
      exact (List.append_nil _).symm
  | transition r updateId state detail now =>
      rw [Entry.apply, Db.addNotice_frame]
      exact Table.rows_add h.2.2.1
  | _ => exact (List.append_nil _).symm

theorem Entry.mem_updates {crates : Crates} {db : Db} {k : Entry} (h : k.Enabled crates db)
    {u : RequestUpdate} :
    u ∈ (k.apply crates db).requestUpdates ↔
      u ∈ db.requestUpdates ∨ k.newUpdate? db = some u := by
  rw [Table.mem_def, Entry.rows_updates h, List.mem_append]
  simp [Table.mem_def]

end CodexMonitor
