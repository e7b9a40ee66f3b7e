import CodexMonitor.Migration.Migrate

/-!
# Before the first rename

Up to the rename that publishes it, a migration writes the staging file, temporary
files and its backup.  The configuration, the database and the files of the Python
runtime stay as they were, however it ends, and the staging file holds what was built.
-/

namespace CodexMonitor

open Faults (Fault Outcome Prog)
open Faults.Prog

/-- The configuration, the database and the Python files are those of `s`. -/
structure Disk.Same (s t : Disk) : Prop where
  config_eq : t.config = s.config
  rust_eq : t.rust = s.rust
  legacy_eq : t.legacy = s.legacy

theorem Disk.Same.refl (s : Disk) : s.Same s := ⟨rfl, rfl, rfl⟩

/-! ## One file -/

section privateWrite

variable (path : String) (put : Disk → Disk) (bytes : String) {plan : Place → Fault} {s : Disk}

theorem replaceFile_keeps {I : Disk → Prop} (hput : ∀ s, I s → I { put s with temporary := none })
    (htemporary : ∀ s x, I s → I { s with temporary := x }) :
    Prog.Keeps I (replaceFile path put bytes) := by
  unfold replaceFile
  refine (Keeps.write fun s hs => htemporary s _ hs).bind fun _ => ?_
  refine (Keeps.write fun s hs => htemporary s _ hs).bind fun _ => ?_
  refine (Keeps.write fun s hs => hs).bind fun _ => ?_
  refine (Keeps.write hput).bind fun _ => ?_
  exact Keeps.write fun s hs => hs

theorem cleanTemporary_keeps {I : Disk → Prop}
    (htemporary : ∀ s x, I s → I { s with temporary := x }) :
    Prog.Keeps I (cleanTemporary path) := by
  unfold cleanTemporary
  refine (Keeps.read _).bind fun left => ?_
  split
  · exact Keeps.write fun s hs => htemporary s _ hs
  · exact Keeps.pure _

theorem privateWrite_keeps {I : Disk → Prop} (hput : ∀ s, I s → I { put s with temporary := none })
    (htemporary : ∀ s x, I s → I { s with temporary := x }) :
    Prog.Keeps I (privateWrite path put bytes) :=
  Keeps.andThen (replaceFile_keeps path put bytes hput htemporary)
    (cleanTemporary_keeps path htemporary)

end privateWrite

/-! ## The first part of a migration -/

section prepare

variable {tools : Tools} {plan : Place → Fault} {s t : Disk}

theorem touch_keeps {I : Disk → Prop} (place : Place) (e : MigrateError) :
    Prog.Keeps I (touch place e) :=
  Keeps.write fun _ hs => hs

theorem statement_keeps {I : Disk → Prop} {α : Type} (place : Place) (x : Except String α) :
    Prog.Keeps I (statement place x) :=
  (touch_keeps _ _).bind fun _ => Keeps.ofExcept _

theorem precheck_keeps (tools : Tools) {I : Disk → Prop} : Prog.Keeps I (precheck tools) := by
  unfold precheck
  refine (touch_keeps _ _).bind fun _ => (touch_keeps _ _).bind fun _ => ?_
  refine (Keeps.op fun t text u ht hread => ?_).bind fun _ => ?_
  · cases hconfig : t.config with
    | none =>
        rw [hconfig] at hread
        cases hread
    | some original =>
        rw [hconfig] at hread
        obtain rfl := (Prod.mk.inj (Except.ok.inj hread)).2
        exact ht
  · refine (Keeps.ofExcept _).bind fun _ => (Keeps.bailIf _ _).bind fun _ =>
      (Keeps.bailIf _ _).bind fun _ => (Keeps.bailIf _ _).bind fun _ =>
      (Keeps.read _).bind fun _ => (Keeps.bailIf _ _).bind fun _ => Keeps.pure _

theorem snapshotFile_keeps (file : LegacyFile) (isThere : Disk → Bool)
    (put : LegacyFiles → Backup → Backup) :
    Prog.Keeps s.Same (snapshotFile file isThere fun t =>
      { t with backup := put t.legacy t.backup }) := by
  unfold snapshotFile
  refine (Keeps.read _).bind fun here => ?_
  split
  · refine (touch_keeps _ _).bind fun _ => (Keeps.write fun t ht => ?_).bind fun _ => touch_keeps _ _
    exact ⟨ht.config_eq, ht.rust_eq, ht.legacy_eq⟩
  · exact Keeps.pure _

theorem snapshot_keeps (original : String) : Prog.Keeps s.Same (snapshot original) := by
  unfold snapshot
  refine (Keeps.write fun _ ht => ⟨ht.config_eq, ht.rust_eq, ht.legacy_eq⟩).bind fun _ => ?_
  refine (privateWrite_keeps _ _ _ (fun _ ht => ⟨ht.config_eq, ht.rust_eq, ht.legacy_eq⟩) fun _ _ ht =>
    ⟨ht.config_eq, ht.rust_eq, ht.legacy_eq⟩).bind fun _ => ?_
  refine (snapshotFile_keeps _ _ fun legacy b => { b with monitor := legacy.monitor }).bind fun _ => ?_
  refine (snapshotFile_keeps _ _ fun legacy b => { b with replies := legacy.replies }).bind fun _ => ?_
  exact snapshotFile_keeps _ _ fun legacy b => { b with requests := legacy.requests }

/-- What the staged part of a migration cannot change: it writes the staging file, temporary files
and copies of watch checkpoints. -/
structure Unstaged (I : Disk → Prop) : Prop where
  temporary : ∀ s x, I s → I { s with temporary := x }
  managed : ∀ s x, I s → I { s with backup := { s.backup with managed := x } }
  staging : ∀ s x, I s → I { s with staging := x }

theorem Disk.Same.unstaged (s : Disk) : Unstaged s.Same where
  temporary _ _ ht := ⟨ht.config_eq, ht.rust_eq, ht.legacy_eq⟩
  managed _ _ ht := ⟨ht.config_eq, ht.rust_eq, ht.legacy_eq⟩
  staging _ _ ht := ⟨ht.config_eq, ht.rust_eq, ht.legacy_eq⟩

section staged

variable {I : Disk → Prop}

theorem copyTable_keeps (engine : Sql.Engine) (n : Nat) (name : String) (table source : Sql.Table) :
    Prog.Keeps I (copyTable engine n name table source) := by
  unfold copyTable
  exact (statement_keeps _ _).bind fun _ => (touch_keeps _ _).bind fun _ =>
    (touch_keeps _ _).bind fun _ => (Keeps.bailIf _ _).bind fun _ => Keeps.pure _

theorem backup_keeps (hI : Unstaged I) (path text : String) :
    Prog.Keeps I (privateWrite ("migration-backups/" ++ path)
      (fun s => { s with
        backup := { s.backup with managed := s.backup.managed ++ [(path, text)] } }) text) :=
  privateWrite_keeps _ _ _ (fun _ hs => hI.temporary _ _ (hI.managed _ _ hs)) hI.temporary

theorem backupDebounce_keeps (hI : Unstaged I) (path : String) (debounce : Option String) :
    Prog.Keeps I (backupDebounce path debounce) := by
  cases debounce with
  | none => exact Keeps.pure _
  | some text => exact (touch_keeps _ _).bind fun _ => backup_keeps hI _ _

theorem adoptCheckpoint_keeps (hI : Unstaged I) (table : Sql.Table) (id : String)
    (condition : Option String) (path : String) (checkpoint : Option String) :
    Prog.Keeps I (adoptCheckpoint tools table id condition path checkpoint) := by
  cases checkpoint with
  | none => exact Keeps.pure _
  | some raw =>
      exact (touch_keeps _ _).bind fun _ => (Keeps.ofExcept _).bind fun _ =>
        (Keeps.bailIf _ _).bind fun _ => (backup_keeps hI _ _).bind fun _ =>
        (Keeps.ofExcept _).bind fun _ => (touch_keeps _ _).bind fun _ => Keeps.pure _

theorem adoptWatch_keeps (hI : Unstaged I) (table : Sql.Table) (watch : String × Option String) :
    Prog.Keeps I (adoptWatch tools table watch) := by
  obtain ⟨id, condition⟩ := watch
  exact (Keeps.bailIf _ _).bind fun _ => (Keeps.read _).bind fun _ =>
    (backupDebounce_keeps hI _ _).bind fun _ => (Keeps.read _).bind fun _ =>
    adoptCheckpoint_keeps hI _ _ _ _ _

/-- A commit writes to the staging file. -/
theorem commit_keeps (hI : Unstaged I) (file : LegacyFile) (e : MigrateError) (db : RustFile) :
    Prog.Keeps I (Prog.write (Place.commit file) e fun t : Disk => { t with staging := some db }) :=
  Keeps.write fun _ hs => hI.staging _ _ hs

theorem copyMonitor_keeps (tools : Tools) (hI : Unstaged I) (db : RustFile) :
    Prog.Keeps I (copyMonitor tools db) := by
  unfold copyMonitor
  exact (touch_keeps _ _).bind fun _ => (Keeps.read _).bind fun _ =>
    (touch_keeps _ _).bind fun _ => (Keeps.ofExcept _).bind fun _ =>
    (copyTable_keeps _ _ _ _ _).bind fun _ => (copyTable_keeps _ _ _ _ _).bind fun _ =>
    (copyTable_keeps _ _ _ _ _).bind fun _ => (touch_keeps _ _).bind fun _ =>
    (statement_keeps _ _).bind fun _ => (statement_keeps _ _).bind fun _ =>
    (Keeps.foldlM (fun _ _ => adoptWatch_keeps hI _ _) _ _).bind fun _ =>
    (commit_keeps hI _ _ _).bind fun _ => Keeps.pure _

theorem copyReplies_keeps (tools : Tools) (hI : Unstaged I) (db : RustFile) :
    Prog.Keeps I (copyReplies tools db) := by
  unfold copyReplies
  refine (Keeps.read _).bind fun attached => ?_
  cases attached with
  | none => exact Keeps.pure _
  | some old =>
      exact (touch_keeps _ _).bind fun _ => (touch_keeps _ _).bind fun _ =>
        (statement_keeps _ _).bind fun _ => (touch_keeps _ _).bind fun _ =>
        (touch_keeps _ _).bind fun _ => (Keeps.bailIf _ _).bind fun _ =>
        (commit_keeps hI _ _ _).bind fun _ => Keeps.pure _

theorem copyRequests_keeps (tools : Tools) (hI : Unstaged I) (db : RustFile) :
    Prog.Keeps I (copyRequests tools db) := by
  unfold copyRequests
  refine (Keeps.read _).bind fun attached => ?_
  cases attached with
  | none => exact Keeps.pure _
  | some old =>
      exact (touch_keeps _ _).bind fun _ => (touch_keeps _ _).bind fun _ =>
        (statement_keeps _ _).bind fun _ => (statement_keeps _ _).bind fun _ =>
        (statement_keeps _ _).bind fun _ => (touch_keeps _ _).bind fun _ =>
        (touch_keeps _ _).bind fun _ => (touch_keeps _ _).bind fun _ =>
        (Keeps.bailIf _ _).bind fun _ => (touch_keeps _ _).bind fun _ =>
        (touch_keeps _ _).bind fun _ => (Keeps.bailIf _ _).bind fun _ =>
        (touch_keeps _ _).bind fun _ => (touch_keeps _ _).bind fun _ =>
        (Keeps.bailIf _ _).bind fun _ => (commit_keeps hI _ _ _).bind fun _ => Keeps.pure _

theorem stage_keeps (tools : Tools) (hI : Unstaged I) : Prog.Keeps I (stage tools) := by
  unfold stage
  exact (Keeps.write fun _ hs => hI.staging _ _ hs).bind fun _ =>
    (touch_keeps _ _).bind fun _ => (copyMonitor_keeps tools hI _).bind fun _ =>
    (copyReplies_keeps tools hI _).bind fun _ => (copyRequests_keeps tools hI _).bind fun _ =>
    (touch_keeps _ _).bind fun _ => (touch_keeps _ _).bind fun _ => Keeps.pure _

end staged

/-! ## What is staged -/

/-- A commit that answers with what it committed. -/
theorem commit_ends {α : Type} (file : LegacyFile) (e : MigrateError) (db : RustFile) (a : α)
    {Q : α → Disk → Prop} (h : ∀ t : Disk, t.staging = some db → Q a t) :
    Ends Q (do
      Prog.write (Place.commit file) e fun t : Disk => { t with staging := some db }
      pure a) := by
  intro plan s a' t hrun
  simp only [bind_done, write_done, pure_done] at hrun
  obtain ⟨_, _, ⟨_, rfl⟩, rfl, rfl⟩ := hrun
  exact h _ rfl

theorem copyMonitor_staged {db db' : RustFile} {n : Nat}
    (h : (copyMonitor tools db).run plan s = (.done (db', n), t)) : t.staging = some db' := by
  have hends : Ends (fun (answer : RustFile × Nat) (t : Disk) => t.staging = some answer.1)
      (copyMonitor tools db) := by
    unfold copyMonitor
    refine Ends.bind fun _ => Ends.bind fun _ => Ends.bind fun _ => Ends.bind fun _ =>
      Ends.bind fun _ => Ends.bind fun _ => Ends.bind fun _ => Ends.bind fun _ =>
      Ends.bind fun _ => Ends.bind fun _ => Ends.bind fun _ => ?_
    exact commit_ends _ _ _ _ fun t ht => ht
  exact hends plan s _ t h

theorem copyReplies_staged {db db' : RustFile} (hs : s.staging = some db)
    (h : (copyReplies tools db).run plan s = (.done db', t)) : t.staging = some db' := by
  simp only [copyReplies, bind_done, read_done] at h
  obtain ⟨attached, _, ⟨rfl, rfl⟩, h⟩ := h
  cases hattached : s.backup.replies with
  | none =>
      rw [hattached] at h
      obtain ⟨rfl, rfl⟩ := pure_done.mp h
      exact hs
  | some old =>
      rw [hattached] at h
      refine (?_ : Ends (fun (db : RustFile) (t : Disk) => t.staging = some db) _) plan s db' t h
      refine Ends.bind fun _ => Ends.bind fun _ => Ends.bind fun _ => Ends.bind fun _ =>
        Ends.bind fun _ => Ends.bind fun _ => ?_
      exact commit_ends _ _ _ _ fun t ht => ht

theorem copyRequests_staged {db db' : RustFile} (hs : s.staging = some db)
    (h : (copyRequests tools db).run plan s = (.done db', t)) : t.staging = some db' := by
  simp only [copyRequests, bind_done, read_done] at h
  obtain ⟨attached, _, ⟨rfl, rfl⟩, h⟩ := h
  cases hattached : s.backup.requests with
  | none =>
      rw [hattached] at h
      obtain ⟨rfl, rfl⟩ := pure_done.mp h
      exact hs
  | some old =>
      rw [hattached] at h
      refine (?_ : Ends (fun (db : RustFile) (t : Disk) => t.staging = some db) _) plan s db' t h
      refine Ends.bind fun _ => Ends.bind fun _ => Ends.bind fun _ => Ends.bind fun _ =>
        Ends.bind fun _ => Ends.bind fun _ => Ends.bind fun _ => Ends.bind fun _ =>
        Ends.bind fun _ => Ends.bind fun _ => Ends.bind fun _ => Ends.bind fun _ =>
        Ends.bind fun _ => Ends.bind fun _ => Ends.bind fun _ => ?_
      exact commit_ends _ _ _ _ fun t ht => ht

/-- A staging file that is finished holds the database that was built. -/
theorem stage_staged {db : RustFile} {n : Nat}
    (h : (stage tools).run plan s = (.done (db, n), t)) : t.staging = some db := by
  simp only [stage, touch, bind_done, write_done, pure_done, Prod.mk.injEq] at h
  obtain ⟨_, _, ⟨_, rfl⟩, _, _, ⟨_, rfl⟩, ⟨first, _⟩, u, hmonitor, second, v, hreplies, third, w,
    hrequests, _, _, ⟨_, rfl⟩, _, _, ⟨_, rfl⟩, ⟨rfl, rfl⟩, rfl⟩ := h
  exact copyRequests_staged (copyReplies_staged (copyMonitor_staged hmonitor) hreplies) hrequests

end prepare

end CodexMonitor
