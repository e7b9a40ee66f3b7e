import CodexMonitor.Migration.Publish

/-!
# What a migration carries over

Requests and their transitions are copied by name, the other tables by position.  The
positions agree for every table of the Python runtime but one: a table of notifications
that was upgraded in place has its revision last, and its rows arrive shifted.  Counts
and the integrity check do not notice, since a cell of any type may stand in any column.
-/

namespace CodexMonitor

open Sql (Cell Column Carried)
open Faults (Fault Outcome Prog)
open Faults.Prog

/-! ## Columns of the same meaning -/

/-- Columns that keep their names. -/
def sameNames (columns : List Column) : List (String × String) :=
  columns.map fun column => (column.name, column.name)

/-- The columns of the Python runtime, with those of the same meaning. -/
def meaning (columns : List (String × String)) : List (String × String) := columns.map Prod.swap

/-- The rows of the monitor's tables arrive. -/
structure Legacy.Monitor.CarriedTo (m : Legacy.Monitor) (db : RustFile) : Prop where
  bindings : Carried m.bindings db.bindings (sameNames Legacy.bindings)
  conversationMetadata : Carried m.conversationMetadata db.conversationMetadata
    (sameNames Legacy.conversationMetadata)
  events : Carried m.events db.events (sameNames Legacy.events)

/-- The rows of the request tables arrive. -/
structure Legacy.Requests.CarriedTo (r : Legacy.Requests) (db : RustFile) : Prop where
  requests : Carried r.requests db.requests (meaning requestColumns)
  requestUpdates : Carried r.requestUpdates db.requestUpdates (meaning updateColumns)
  requestNotifications : Carried r.requestNotifications db.requestNotifications
    (sameNames Legacy.requestNotifications)

/-- Every row of every table arrives exactly once, with every column of the same meaning. -/
structure LegacyFiles.CarriedTo (legacy : LegacyFiles) (db : RustFile) : Prop where
  monitor : ∀ m, legacy.monitor = some m → m.CarriedTo db
  replies : ∀ r, legacy.replies = some r → Carried r db.replies (sameNames Legacy.replies)
  requests : ∀ r, legacy.requests = some r → r.CarriedTo db

/-- Files that the Python runtime wrote. -/
structure LegacyFiles.Produced (engine : Sql.Engine) (legacy : LegacyFiles) : Prop where
  monitor : ∀ m, legacy.monitor = some m → m.Produced engine
  replies : ∀ r, legacy.replies = some r → Legacy.Holds engine Legacy.replies r
  requests : ∀ r, legacy.requests = some r → r.Produced engine

/-! ## What each transaction copies -/

section copies

variable {tools : Tools} {plan : Place → Fault} {s t u : Disk} {db db' : RustFile} {n : Nat}

theorem statement_ends {α : Type} (place : Place) (x : Except String α) :
    Ends (fun a _ => x = .ok a) (statement place x) := by
  intro plan s a t h
  simp only [statement, bind_done, ofExcept_done] at h
  obtain ⟨_, _, _, hx, _⟩ := h
  cases x with
  | error e => cases hx
  | ok b =>
      obtain rfl := Except.ok.inj hx
      rfl

theorem copyTable_ends (engine : Sql.Engine) (n : Nat) (name : String) (table source : Sql.Table) :
    Ends (fun copied _ => table.insertSelect engine source = .ok copied)
      (copyTable engine n name table source) := by
  refine (statement_ends _ _).seq fun copied _ hcopied => ?_
  refine Ends.bind fun _ => Ends.bind fun _ => Ends.bind fun _ => ?_
  intro plan s a t h
  obtain ⟨rfl, _⟩ := pure_done.mp h
  exact hcopied

/-- A program that ends with a commit answers with what it committed. -/
theorem committed_ends {α : Type} {place : Place} {e : MigrateError} {f : Disk → Disk} {a : α}
    {Q : α → Prop} (h : Q a) :
    Ends (fun a _ => Q a) (do
      Prog.write place e f
      pure a) := by
  refine Ends.bind fun _ => ?_
  intro plan s a' t hrun
  obtain ⟨rfl, _⟩ := pure_done.mp hrun
  exact h

theorem copyMonitor_done (h : (copyMonitor tools db).run plan s = (.done (db', n), t)) :
    ∃ m, s.backup.monitor = some m ∧
      db.bindings.insertSelect tools.engine m.bindings = .ok db'.bindings ∧
      db.conversationMetadata.insertSelect tools.engine m.conversationMetadata =
        .ok db'.conversationMetadata ∧
      db.events.insertSelect tools.engine m.events = .ok db'.events ∧
      db'.replies = db.replies ∧ db'.requests = db.requests ∧
      db'.requestUpdates = db.requestUpdates ∧
      db'.requestNotifications = db.requestNotifications := by
  unfold copyMonitor at h
  obtain ⟨_, _, htouch, h⟩ := bind_done.mp h
  obtain ⟨_, rfl⟩ := write_done.mp htouch
  obtain ⟨attached, _, hread, h⟩ := bind_done.mp h
  obtain ⟨rfl, rfl⟩ := read_done.mp hread
  obtain ⟨_, _, _, h⟩ := bind_done.mp h
  obtain ⟨m, _, hm, h⟩ := bind_done.mp h
  cases hattached : s.backup.monitor with
  | none =>
      rw [hattached] at hm
      cases (ofExcept_done.mp hm).1
  | some old =>
      rw [hattached] at hm
      obtain rfl := Except.ok.inj (ofExcept_done.mp hm).1
      refine ⟨old, rfl, ?_⟩
      refine (?_ : Ends (fun (answer : RustFile × Nat) (_ : Disk) =>
        db.bindings.insertSelect tools.engine old.bindings = .ok answer.1.bindings ∧
        db.conversationMetadata.insertSelect tools.engine old.conversationMetadata =
          .ok answer.1.conversationMetadata ∧
        db.events.insertSelect tools.engine old.events = .ok answer.1.events ∧
        answer.1.replies = db.replies ∧ answer.1.requests = db.requests ∧
        answer.1.requestUpdates = db.requestUpdates ∧
        answer.1.requestNotifications = db.requestNotifications) _) plan _ _ t h
      refine (copyTable_ends _ _ _ _ _).seq fun bindings _ hbindings => ?_
      refine (copyTable_ends _ _ _ _ _).seq fun metadata _ hmetadata => ?_
      refine (copyTable_ends _ _ _ _ _).seq fun events _ hevents => ?_
      refine Ends.bind fun _ => Ends.bind fun _ => Ends.bind fun _ => Ends.bind fun _ => ?_
      exact committed_ends (Q := fun answer : RustFile × Nat => _ ∧ _)
        ⟨hbindings, hmetadata, hevents, rfl, rfl, rfl, rfl⟩

/-- What the copy of the replies leaves alone. -/
structure RustFile.SameMonitor (db db' : RustFile) : Prop where
  bindings_eq : db'.bindings = db.bindings
  conversationMetadata_eq : db'.conversationMetadata = db.conversationMetadata
  events_eq : db'.events = db.events

theorem copyReplies_done (h : (copyReplies tools db).run plan s = (.done db', t)) :
    db.SameMonitor db' ∧ db'.requests = db.requests ∧ db'.requestUpdates = db.requestUpdates ∧
      db'.requestNotifications = db.requestNotifications ∧
      ∀ old, s.backup.replies = some old →
        db.replies.insertSelect tools.engine old = .ok db'.replies := by
  simp only [copyReplies, bind_done, read_done] at h
  obtain ⟨attached, _, ⟨rfl, rfl⟩, h⟩ := h
  cases hattached : s.backup.replies with
  | none =>
      rw [hattached] at h
      obtain ⟨rfl, rfl⟩ := pure_done.mp h
      exact ⟨⟨rfl, rfl, rfl⟩, rfl, rfl, rfl, nofun⟩
  | some old =>
      rw [hattached] at h
      refine (?_ : Ends (fun (db' : RustFile) (_ : Disk) => db.SameMonitor db' ∧
        db'.requests = db.requests ∧ db'.requestUpdates = db.requestUpdates ∧
        db'.requestNotifications = db.requestNotifications ∧ ∀ other, some old = some other →
          db.replies.insertSelect tools.engine other = .ok db'.replies) _) plan s db' t h
      refine Ends.bind fun _ => Ends.bind fun _ => ?_
      refine (statement_ends _ _).seq fun replies _ hreplies => ?_
      refine Ends.bind fun _ => Ends.bind fun _ => Ends.bind fun _ => ?_
      refine committed_ends (Q := fun db' : RustFile => _ ∧ _) ⟨⟨rfl, rfl, rfl⟩, rfl, rfl, rfl, ?_⟩
      intro other hother
      obtain rfl := Option.some.inj hother
      exact hreplies

theorem copyRequests_done (h : (copyRequests tools db).run plan s = (.done db', t)) :
    db.SameMonitor db' ∧ db'.replies = db.replies ∧
      ∀ old, s.backup.requests = some old →
        db.requests.insertColumns tools.engine (requestColumns.map Prod.fst) old.requests
            (requestColumns.map Prod.snd) = .ok db'.requests ∧
          db.requestUpdates.insertColumns tools.engine (updateColumns.map Prod.fst)
            old.requestUpdates (updateColumns.map Prod.snd) = .ok db'.requestUpdates ∧
          db.requestNotifications.insertSelect tools.engine old.requestNotifications =
            .ok db'.requestNotifications := by
  simp only [copyRequests, bind_done, read_done] at h
  obtain ⟨attached, _, ⟨rfl, rfl⟩, h⟩ := h
  cases hattached : s.backup.requests with
  | none =>
      rw [hattached] at h
      obtain ⟨rfl, rfl⟩ := pure_done.mp h
      exact ⟨⟨rfl, rfl, rfl⟩, rfl, nofun⟩
  | some old =>
      rw [hattached] at h
      refine (?_ : Ends (fun (db' : RustFile) (_ : Disk) => db.SameMonitor db' ∧
        db'.replies = db.replies ∧ ∀ other, some old = some other →
          db.requests.insertColumns tools.engine (requestColumns.map Prod.fst) other.requests
              (requestColumns.map Prod.snd) = .ok db'.requests ∧
            db.requestUpdates.insertColumns tools.engine (updateColumns.map Prod.fst)
              other.requestUpdates (updateColumns.map Prod.snd) = .ok db'.requestUpdates ∧
            db.requestNotifications.insertSelect tools.engine other.requestNotifications =
              .ok db'.requestNotifications) _) plan s db' t h
      refine Ends.bind fun _ => Ends.bind fun _ => ?_
      refine (statement_ends _ _).seq fun requests _ hrequests => ?_
      refine (statement_ends _ _).seq fun updates _ hupdates => ?_
      refine (statement_ends _ _).seq fun notifications _ hnotifications => ?_
      refine Ends.bind fun _ => Ends.bind fun _ => Ends.bind fun _ => Ends.bind fun _ =>
        Ends.bind fun _ => Ends.bind fun _ => Ends.bind fun _ => Ends.bind fun _ =>
        Ends.bind fun _ => Ends.bind fun _ => ?_
      refine committed_ends (Q := fun db' : RustFile => _ ∧ _) ⟨⟨rfl, rfl, rfl⟩, rfl, ?_⟩
      intro other hother
      obtain rfl := Option.some.inj hother
      exact ⟨hrequests, hupdates, hnotifications⟩

end copies

/-! ## What a migration copies -/

/-- The statements by which the tables were copied. -/
structure LegacyFiles.CopiedTo (engine : Sql.Engine) (legacy : LegacyFiles) (db : RustFile) :
    Prop where
  monitor : ∃ m, legacy.monitor = some m ∧
    Rust.bindings.insertSelect engine m.bindings = .ok db.bindings ∧
    Rust.conversationMetadata.insertSelect engine m.conversationMetadata =
      .ok db.conversationMetadata ∧
    Rust.events.insertSelect engine m.events = .ok db.events
  replies : ∀ old, legacy.replies = some old →
    Rust.replies.insertSelect engine old = .ok db.replies
  requests : ∀ old, legacy.requests = some old →
    Rust.requests.insertColumns engine (requestColumns.map Prod.fst) old.requests
        (requestColumns.map Prod.snd) = .ok db.requests ∧
      Rust.requestUpdates.insertColumns engine (updateColumns.map Prod.fst) old.requestUpdates
        (updateColumns.map Prod.snd) = .ok db.requestUpdates ∧
      Rust.requestNotifications.insertSelect engine old.requestNotifications =
        .ok db.requestNotifications

section migrate

variable {tools : Tools} {plan : Place → Fault} {s t : Disk} {db : RustFile} {n : Nat}

/-- The backup holds the databases there are. -/
structure Disk.BackedUp (s t : Disk) : Prop where
  monitor_eq : t.backup.monitor = s.legacy.monitor
  replies_eq : t.backup.replies = s.legacy.replies
  requests_eq : t.backup.requests = s.legacy.requests

theorem snapshotFile_done {file : LegacyFile} {isThere : Disk → Bool} {copy : Disk → Disk} {u : Unit}
    (h : (snapshotFile file isThere copy).run plan s = (.done u, t)) :
    t = if isThere s then copy s else s := by
  unfold snapshotFile at h
  obtain ⟨here, _, hread, h⟩ := bind_done.mp h
  obtain ⟨rfl, rfl⟩ := read_done.mp hread
  by_cases hthere : isThere s = true
  · rw [if_pos hthere] at h ⊢
    simp only [touch, bind_done, write_done] at h
    obtain ⟨_, _, ⟨_, rfl⟩, _, _, ⟨_, rfl⟩, _, rfl⟩ := h
    rfl
  · rw [if_neg hthere] at h ⊢
    exact (pure_done.mp h).2.symm

theorem snapshot_done {original : String} {u : Unit}
    (h : (snapshot original).run plan s = (.done u, t)) : s.BackedUp t := by
  unfold snapshot at h
  obtain ⟨_, _, hcreate, h⟩ := bind_done.mp h
  obtain ⟨_, rfl⟩ := write_done.mp hcreate
  obtain ⟨_, v, hconfig, h⟩ := bind_done.mp h
  obtain ⟨_, w, hmonitor, h⟩ := bind_done.mp h
  obtain ⟨_, x, hreplies, hrequests⟩ := bind_done.mp h
  have hv := (privateWrite_keeps "migration-backups/config.json"
    (fun s => { s with backup := { s.backup with config := some original } }) original
    (I := fun t => t.legacy = s.legacy ∧ t.backup.monitor = none ∧ t.backup.replies = none ∧
      t.backup.requests = none) (fun _ ht => ht) fun _ _ ht => ht).state plan
    (s := { s with backup := Backup.empty }) ⟨rfl, rfl, rfl, rfl⟩
  rw [hconfig] at hv
  obtain ⟨hlegacy, hnone, hnone', hnone''⟩ : v.legacy = s.legacy ∧ v.backup.monitor = none ∧
    v.backup.replies = none ∧ v.backup.requests = none := hv
  obtain rfl := snapshotFile_done hmonitor
  obtain rfl := snapshotFile_done hreplies
  obtain rfl := snapshotFile_done hrequests
  constructor <;> cases hm : s.legacy.monitor <;> cases hr : s.legacy.replies <;>
    cases hq : s.legacy.requests <;> simp [hlegacy, hnone, hnone', hnone'', hm, hr, hq]

/-- The databases in the backup stay there. -/
theorem backedUp_unstaged : Unstaged s.BackedUp where
  temporary _ _ ht := ⟨ht.monitor_eq, ht.replies_eq, ht.requests_eq⟩
  managed _ _ ht := ⟨ht.monitor_eq, ht.replies_eq, ht.requests_eq⟩
  staging _ _ ht := ⟨ht.monitor_eq, ht.replies_eq, ht.requests_eq⟩

theorem stage_done {u : Disk} (hs : u.BackedUp s)
    (h : (stage tools).run plan s = (.done (db, n), t)) : u.legacy.CopiedTo tools.engine db := by
  simp only [stage, touch, bind_done, write_done, pure_done, Prod.mk.injEq] at h
  obtain ⟨_, _, ⟨_, rfl⟩, _, _, ⟨_, rfl⟩, ⟨first, _⟩, v, hmonitor, second, w, hreplies, third, x,
    hrequests, _, _, ⟨_, rfl⟩, _, _, ⟨_, rfl⟩, ⟨rfl, rfl⟩, rfl⟩ := h
  have hstart := backedUp_unstaged.staging _ (some RustFile.empty) hs
  have hv := (copyMonitor_keeps tools backedUp_unstaged RustFile.empty).state plan hstart
  rw [hmonitor] at hv
  have hw := (copyReplies_keeps tools backedUp_unstaged first).state plan hv
  rw [hreplies] at hw
  obtain ⟨m, hm, hbindings, hmetadata, hevents, hreplies₁, hrequests₁, hupdates₁, hnotices₁⟩ :=
    copyMonitor_done hmonitor
  obtain ⟨hsame, hrequests₂, hupdates₂, hnotices₂, hcopied⟩ := copyReplies_done hreplies
  obtain ⟨hsame', hreplies₂, hcopied'⟩ := copyRequests_done hrequests
  refine ⟨⟨m, hstart.monitor_eq.symm.trans hm, ?_, ?_, ?_⟩, fun old hold => ?_, fun old hold => ?_⟩
  · rw [hsame'.bindings_eq, hsame.bindings_eq]
    exact hbindings
  · rw [hsame'.conversationMetadata_eq, hsame.conversationMetadata_eq]
    exact hmetadata
  · rw [hsame'.events_eq, hsame.events_eq]
    exact hevents
  · have hinsert := hcopied old (hv.replies_eq.trans hold)
    rw [hreplies₁] at hinsert
    rw [hreplies₂]
    exact hinsert
  · have hinsert := hcopied' old (hw.requests_eq.trans hold)
    rw [hrequests₂, hrequests₁, hupdates₂, hupdates₁, hnotices₂, hnotices₁] at hinsert
    exact hinsert

/-- What `rust.sqlite3` holds after a migration that succeeds. -/
theorem migrate_done {report : Value} (h : (migrate tools).run plan s = (.done report, t)) :
    ∃ db, t.rust = some db ∧ s.legacy.CopiedTo tools.engine db := by
  unfold migrate at h
  obtain ⟨⟨original, config⟩, u, hprecheck, hbackup⟩ := bind_done.mp h
  obtain ⟨rfl, _⟩ := precheck_done hprecheck
  obtain ⟨_, v, hsnapshot, hbuild⟩ := bind_done.mp hbackup
  obtain ⟨⟨db, n⟩, w, hstage, hpublish⟩ := bind_done.mp (onFailure_done.mp hbuild)
  refine ⟨db, ?_, stage_done (snapshot_done hsnapshot) hstage⟩
  unfold publish at hpublish
  obtain ⟨_, _, hwrite, hrest⟩ := bind_done.mp hpublish
  obtain ⟨_, rfl⟩ := write_done.mp hwrite
  have hkeeps : Prog.Keeps (fun t : Disk => t.rust = w.staging)
      (do
        privateWrite "config.json"
          (fun s => { s with config := some (tools.pretty (adoptedConfig tools config)) })
          (tools.pretty (adoptedConfig tools config))
        let report ← Prog.read fun s => reportOf tools s db n
        privateWrite "migration-backups/report.json"
          (fun s => { s with backup := { s.backup with report := some report } })
          (tools.pretty report)
        pure report) :=
    (privateWrite_keeps _ _ _ (fun _ ht => ht) fun _ _ ht => ht).bind fun _ =>
      (Keeps.read _).bind fun _ =>
      (privateWrite_keeps _ _ _ (fun _ ht => ht) fun _ _ ht => ht).bind fun _ => Keeps.pure _
  have hrust := hkeeps.state plan (s := { w with rust := w.staging, staging := none }) rfl
  rw [hrest] at hrust
  exact hrust.trans (stage_staged hstage)

end migrate

/-! ## Which rows arrive -/

section carried

variable {engine : Sql.Engine} {legacy : LegacyFiles} {db : RustFile}

theorem Legacy.Holds.carried {columns : List Column} {t u source : Sql.Table}
    (h : Legacy.Holds engine columns source) (hinsert : t.insertSelect engine source = .ok u)
    (hempty : t.rows = []) (hnames : columns.map Column.name = t.columns.map Column.name)
    (haff : columns.map Column.affinity = t.columns.map Column.affinity) :
    Carried source u (sameNames columns) := by
  have hcarried := Sql.carried_insertSelect hinsert hempty (by rw [h.columns_eq, hnames])
    (by rw [h.columns_eq, haff]) h.stores (columns.map Column.name)
  rw [List.map_map] at hcarried
  exact hcarried

theorem monitor_carried {m : Legacy.Monitor} (hm : m.Produced engine)
    (hbindings : Rust.bindings.insertSelect engine m.bindings = .ok db.bindings)
    (hmetadata : Rust.conversationMetadata.insertSelect engine m.conversationMetadata =
      .ok db.conversationMetadata)
    (hevents : Rust.events.insertSelect engine m.events = .ok db.events) : m.CarriedTo db where
  bindings := hm.bindings.carried hbindings rfl (by decide) (by decide)
  conversationMetadata := hm.conversationMetadata.carried hmetadata rfl (by decide) (by decide)
  events := hm.events.carried hevents rfl (by decide) (by decide)

/-- A copy by name pairs columns of one affinity, whatever the order of the source. -/
theorem Legacy.Holds.carried_columns {columns : List Column} {t u source : Sql.Table}
    {pairs : List (String × String)} (h : Legacy.Holds engine columns source)
    (hinsert : t.insertColumns engine (pairs.map Prod.fst) source (pairs.map Prod.snd) = .ok u)
    (hempty : t.rows = []) (hnames : t.columns.map Column.name = pairs.map Prod.fst)
    (hnodup : (pairs.map Prod.fst).Nodup)
    (haff : ∀ pair ∈ (pairs.map Prod.snd).zip t.columns, ∀ column ∈ columns,
      column.name = pair.1 → column.affinity = pair.2.affinity) :
    Carried source u (meaning pairs) := by
  have hcarried := Sql.carried_insertColumns hinsert hempty hnames hnodup (by simp)
    (by rw [h.columns_eq]; exact haff) h.stores
  have hzip : (pairs.map Prod.snd).zip (pairs.map Prod.fst) = meaning pairs := by
    unfold meaning
    exact List.zip_map'
  rw [hzip] at hcarried
  exact hcarried

theorem requests_carried {r : Legacy.Requests} (hr : r.Produced engine)
    (hinsert : Rust.requests.insertColumns engine (requestColumns.map Prod.fst) r.requests
      (requestColumns.map Prod.snd) = .ok db.requests) :
    Carried r.requests db.requests (meaning requestColumns) := by
  rcases hr.requests with h | h
  · exact h.carried_columns hinsert rfl (by decide) (by decide) (by decide)
  · exact h.carried_columns hinsert rfl (by decide) (by decide) (by decide)

theorem updates_carried {r : Legacy.Requests} (hr : r.Produced engine)
    (hinsert : Rust.requestUpdates.insertColumns engine (updateColumns.map Prod.fst)
      r.requestUpdates (updateColumns.map Prod.snd) = .ok db.requestUpdates) :
    Carried r.requestUpdates db.requestUpdates (meaning updateColumns) :=
  hr.requestUpdates.carried_columns hinsert rfl (by decide) (by decide) (by decide)

/-- The notifications are in the order of a new table, or there are none. -/
def Legacy.Requests.InOrder (r : Legacy.Requests) : Prop :=
  r.requestNotifications.columns = Legacy.requestNotifications ∨ r.requestNotifications.rows = []

/-- A shifted row has its envelope for an event id, which no legacy row has. -/
theorem notifications_shifted (hsql : engine.Lawful) {r : Legacy.Requests} (hr : r.Produced engine)
    (hinsert : Rust.requestNotifications.insertSelect engine r.requestNotifications =
      .ok db.requestNotifications)
    (hcolumns : r.requestNotifications.columns = Legacy.upgradedNotifications)
    {row : List Cell} (hrow : row ∈ r.requestNotifications.rows) :
    ¬ Carried r.requestNotifications db.requestNotifications
      (sameNames Legacy.requestNotifications) := by
  intro hcarried
  obtain ⟨hnewColumns, hnewRows, _⟩ := Sql.Table.insertSelect_ok hinsert
  have hlen : ∀ row ∈ r.requestNotifications.rows,
      row.length = Legacy.upgradedNotifications.length := by
    intro row hrow
    rcases hr.requestNotifications with h | h
    · rw [h.columns_eq] at hcolumns
      exact absurd hcolumns (by decide)
    · rw [(h.stores row hrow).length_eq, hcolumns]
  -- The envelope stands where the new table has its event id.
  obtain ⟨fields, henvelope⟩ := (hr.announces row hrow).envelope
  rw [hcolumns] at henvelope
  have hcell : row[6]? = some (.text ("\x7b" ++ fields)) :=
    (Sql.cellAt_position (by decide) (hlen row hrow) 6 (textColumn "envelope")
      (by decide)).symm.trans henvelope
  have hwidth : row.length = Rust.requestNotifications.columns.length := hlen row hrow
  have hnew : Sql.cellAt db.requestNotifications.columns
      (Sql.stored engine Rust.requestNotifications.columns row) "event_id" =
      some (.text ("\x7b" ++ fields)) := by
    rw [hnewColumns]
    refine (Sql.cellAt_position (by decide) (Sql.length_stored hwidth) 6 (textColumn "event_id")
      (by decide)).trans ?_
    unfold Sql.stored
    rw [List.getElem?_zipWith, hcell]
    exact congrArg some (hsql.text _)
  have harrived := hcarried.mem_iff.mp (List.mem_map_of_mem (hnewRows ▸
    List.mem_append_right _ (List.mem_map_of_mem hrow)))
  obtain ⟨other, hother, hsame⟩ := List.mem_map.mp harrived
  have hevent := List.map_inj_left.mp hsame ("event_id", "event_id") (by decide)
  simp only [hnew] at hevent
  obtain ⟨id, hid⟩ := (hr.announces other hother).event_id
  rw [hid] at hevent
  have htext := congrArg String.toList (Cell.text.inj (Option.some.inj hevent))
  rw [String.toList_append, String.toList_append] at htext
  exact absurd (List.cons.inj htext).1 (by decide)

/-- The notifications arrive exactly when they are in order. -/
theorem notifications_carried_iff (hsql : engine.Lawful) {r : Legacy.Requests}
    (hr : r.Produced engine)
    (hinsert : Rust.requestNotifications.insertSelect engine r.requestNotifications =
      .ok db.requestNotifications) :
    Carried r.requestNotifications db.requestNotifications
      (sameNames Legacy.requestNotifications) ↔ r.InOrder := by
  rcases hr.requestNotifications with h | h
  · exact iff_of_true (h.carried hinsert rfl (by decide) (by decide)) (Or.inl h.columns_eq)
  · cases hrows : r.requestNotifications.rows with
    | nil =>
        refine iff_of_true ?_ (Or.inr hrows)
        obtain ⟨_, hnew, _⟩ := Sql.Table.insertSelect_ok hinsert
        unfold Carried
        rw [hnew, hrows]
        exact List.Perm.nil
    | cons row rows =>
        refine iff_of_false ?_ ?_
        · exact notifications_shifted hsql hr hinsert h.columns_eq
            (hrows ▸ List.mem_cons_self)
        · rintro (hfresh | hempty)
          · rw [h.columns_eq] at hfresh
            exact absurd hfresh (by decide)
          · rw [hrows] at hempty
            cases hempty

end carried

/-- **Which fields a migration carries over.**  When a migration of files that the Python runtime
wrote succeeds, every row of every table arrives exactly once, with the value of every column of the
same meaning, exactly when the notifications are not in an upgraded table, or there are none. -/
theorem migrate_carries_iff {tools : Tools} (hsql : tools.engine.Lawful) {plan : Place → Fault}
    {s t : Disk} {report : Value} (hlegacy : s.legacy.Produced tools.engine)
    (h : (migrate tools).run plan s = (.done report, t)) :
    ∃ db, t.rust = some db ∧ (s.legacy.CarriedTo db ↔
      ∀ r, s.legacy.requests = some r → r.InOrder) := by
  obtain ⟨db, hrust, hcopied⟩ := migrate_done h
  obtain ⟨m, hm, hbindings, hmetadata, hevents⟩ := hcopied.monitor
  refine ⟨db, hrust, fun hcarried r hr => ?_, fun horder => ⟨fun m' hm' => ?_, fun r hr => ?_,
    fun r hr => ?_⟩⟩
  · exact (notifications_carried_iff hsql (hlegacy.requests r hr) (hcopied.requests r hr).2.2).mp
      (hcarried.requests r hr).requestNotifications
  · obtain rfl : m = m' := Option.some.inj (hm.symm.trans hm')
    exact monitor_carried (hlegacy.monitor m hm) hbindings hmetadata hevents
  · exact (hlegacy.replies r hr).carried (hcopied.replies r hr) rfl (by decide) (by decide)
  · have hproduced := hlegacy.requests r hr
    obtain ⟨hrequests, hupdates, hnotices⟩ := hcopied.requests r hr
    exact ⟨requests_carried hproduced hrequests, updates_carried hproduced hupdates,
      (notifications_carried_iff hsql hproduced hnotices).mpr (horder r hr)⟩

/-! ## A table that was upgraded in place -/

/-- The doubles 1, 12 and 13 as cells. -/
def one : Cell := .real 0x3ff0000000000000

def twelve : Cell := .real 0x4028000000000000

def thirteen : Cell := .real 0x402a000000000000

/-- One request, completed and announced.  The table of notifications is older than its column
`revision`, which is last. -/
def sampleRequests : Legacy.Requests where
  requests := ⟨Legacy.requests, [["seq"], ["request_id"]], [[.integer 1, .text "request",
    .text "conversation-1", .text "ci", .text "job-1", .text "delivery", .text "deploy", .text "\x7b\x7d",
    .text "completed", .integer 1, .null, .null, twelve, thirteen]]⟩
  requestUpdates := ⟨Legacy.requestUpdates, [["seq"], ["request_id", "update_id"]], [[.integer 1,
    .text "done", .text "request", .integer 0, .integer 1, .text "received", .text "completed", .null,
    twelve]]⟩
  requestNotifications := ⟨Legacy.upgradedNotifications, [["notification_id"]],
    [[.text "request-notification-request-1", .text "request", .text "done", .text "deploy",
      .text "ci", .text "request-request-1", .text "\x7b\"id\":\"request-request-1\"\x7d",
      .text "accepted", .integer 0, twelve, .text "delivery-2", .null, twelve, thirteen,
      .integer 1]]⟩

def upgradedDisk : Disk :=
  { sampleDisk sampleConfigText with
    legacy := ⟨some sampleMonitor, none, some sampleRequests, fun _ => none⟩ }

/-- A migration that nothing disturbs. -/
def upgradedRun : Outcome MigrateError Value × Disk :=
  (migrate sampleTools).run (fun _ => .none) upgradedDisk

theorem sampleEngine_lawful : sampleEngine.Lawful where
  idem := by
    intro a c
    cases a with
    | text =>
        cases c with
        | real bits => cases h : sampleReals.lookup bits <;> simp [sampleEngine, h]
        | _ => rfl
    | integer =>
        cases c with
        | real bits => cases h : sampleReals.lookup bits <;> simp [sampleEngine, h]
        | _ => rfl
    | real =>
        cases c with
        | integer n =>
            cases h : sampleReals.find? fun pair => pair.2 = n <;> simp [sampleEngine, h]
        | _ => rfl
  text _ := rfl

/-- The rows of a table with at most one row. -/
theorem holds_singleton {engine : Sql.Engine} {columns : List Column} {unique : List (List String)}
    {row : List Cell} (hlen : row.length = columns.length)
    (hfixed : ∀ pair ∈ columns.zip row, engine.convert pair.1.affinity pair.2 = pair.2) :
    Legacy.Holds engine columns ⟨columns, unique, [row]⟩ := by
  refine ⟨rfl, fun other hother => ?_⟩
  obtain rfl := List.mem_singleton.mp hother
  exact ⟨hlen, hfixed⟩

theorem sampleMonitor_produced : sampleMonitor.Produced sampleEngine where
  bindings := holds_singleton rfl (by decide)
  conversationMetadata := ⟨rfl, fun _ hrow => absurd hrow List.not_mem_nil⟩
  events := ⟨rfl, fun _ hrow => absurd hrow List.not_mem_nil⟩

theorem sampleRequests_produced : sampleRequests.Produced sampleEngine where
  requests := Or.inl (holds_singleton rfl (by decide))
  requestUpdates := holds_singleton rfl (by decide)
  requestNotifications := Or.inr (holds_singleton rfl (by decide))
  announces := by
    intro row hrow
    obtain rfl := List.mem_singleton.mp hrow
    exact ⟨⟨"request-1", by decide⟩, ⟨"\"id\":\"request-request-1\"\x7d", by decide⟩⟩

theorem upgradedDisk_produced : upgradedDisk.legacy.Produced sampleTools.engine where
  monitor m hm := by
    obtain rfl := Option.some.inj hm
    exact sampleMonitor_produced
  replies _ hr := nomatch hr
  requests r hr := by
    obtain rfl := Option.some.inj hr
    exact sampleRequests_produced

theorem upgradedRun_done : ∃ report, (migrate sampleTools).run (fun _ => .none) upgradedDisk =
    (.done report, upgradedRun.2) := by
  have hdone : upgradedRun.1.isDone = true := by decide
  obtain ⟨report, hreport⟩ := Outcome.exists_of_isDone hdone
  exact ⟨report, Prod.ext hreport rfl⟩

/-- The migration succeeds, and the notification does not arrive as it was. -/
theorem migrate_carries_fails :
    upgradedRun.1.isDone = true ∧
      ∃ db, upgradedRun.2.rust = some db ∧ ¬ upgradedDisk.legacy.CarriedTo db := by
  obtain ⟨report, hrun⟩ := upgradedRun_done
  obtain ⟨db, hrust, hcopied⟩ := migrate_done hrun
  refine ⟨by decide, db, hrust, fun hcarried => ?_⟩
  exact notifications_shifted sampleEngine_lawful sampleRequests_produced
    (hcopied.requests sampleRequests rfl).2.2 rfl List.mem_cons_self
    (hcarried.requests sampleRequests rfl).requestNotifications

theorem migrate_carries_iff_sample :
    ∃ db, upgradedRun.2.rust = some db ∧ (upgradedDisk.legacy.CarriedTo db ↔
      ∀ r, upgradedDisk.legacy.requests = some r → r.InOrder) := by
  obtain ⟨report, hrun⟩ := upgradedRun_done
  exact migrate_carries_iff sampleEngine_lawful upgradedDisk_produced hrun

end CodexMonitor
