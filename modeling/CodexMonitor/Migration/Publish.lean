import CodexMonitor.Migration.Stage
import CodexMonitor.Store.Admission

/-!
# The two renames of a migration

A migration commits with two renames: the staging file becomes the database, then a new
configuration takes the place of the old one.  Everything before the first rename leaves
the directory as it was, and everything after the second leaves both in place.  What
stops between them leaves the new database under the old configuration, which neither a
second migration nor any other command accepts.
-/

namespace CodexMonitor

open Sql (Cell)
open Faults (Fault Outcome Prog)
open Faults.Prog

/-! ## What a directory says -/

/-- The configuration describes the Rust runtime. -/
def Disk.describesRust (tools : Tools) (s : Disk) : Bool :=
  (s.config.bind tools.crates.fromStr).any isRust

/-- The new database is there, under a configuration that says so. -/
structure Disk.Adopted (tools : Tools) (t : Disk) : Prop where
  rust : t.rust.isSome = true
  config : t.describesRust tools = true

/-! ## One file -/

section privateWrite

variable (path : String) (put : Disk → Disk) (bytes : String) {plan : Place → Fault} {s : Disk}

/-- The operations after which the file that is written is in place. -/
def replacing : List WriteStep := [.create, .write, .sync, .rename]

/-- A file that is replaced has its new content, even if the directory cannot be synced. -/
theorem privateWrite_put (h : ∀ step ∈ replacing, plan (.privateWrite path step) = .none) :
    ((privateWrite path put bytes).run plan s).2 =
      { put { s with temporary := some bytes } with temporary := none } := by
  have hcreate := h .create (by decide)
  have hwrite := h .write (by decide)
  have hsync := h .sync (by decide)
  have hrename := h .rename (by decide)
  cases hdir : plan (.privateWrite path .syncDir) <;>
    simp [privateWrite, replaceFile, cleanTemporary, run_andThen, run_bind, run_write, touch,
      Prog.read, hcreate, hwrite, hsync, hrename, hdir] <;> rfl

/-- Until the rename only the temporary file changes. -/
theorem replaceFile_cut (h : ∃ step ∈ replacing, plan (.privateWrite path step) ≠ .none) :
    (∀ u, ((replaceFile path put bytes).run plan s).1 ≠ .done u) ∧
      ∃ left, ((replaceFile path put bytes).run plan s).2 = { s with temporary := left } := by
  cases hcreate : plan (.privateWrite path .create) with
  | error => exact ⟨by simp [replaceFile, run_bind, run_write, hcreate], s.temporary,
      by simp [replaceFile, run_bind, run_write, hcreate]⟩
  | stop => exact ⟨by simp [replaceFile, run_bind, run_write, hcreate], s.temporary,
      by simp [replaceFile, run_bind, run_write, hcreate]⟩
  | none =>
    cases hwrite : plan (.privateWrite path .write) with
    | error => simp [replaceFile, run_bind, run_write, hcreate, hwrite]
    | stop => simp [replaceFile, run_bind, run_write, hcreate, hwrite]
    | none =>
      cases hsync : plan (.privateWrite path .sync) with
      | error => simp [replaceFile, run_bind, run_write, touch, hcreate, hwrite, hsync]
      | stop => simp [replaceFile, run_bind, run_write, touch, hcreate, hwrite, hsync]
      | none =>
        cases hrename : plan (.privateWrite path .rename) with
        | error => simp [replaceFile, run_bind, run_write, touch, hcreate, hwrite, hsync, hrename]
        | stop => simp [replaceFile, run_bind, run_write, touch, hcreate, hwrite, hsync, hrename]
        | none =>
          obtain ⟨step, hstep, hplan⟩ := h
          simp only [replacing, List.mem_cons, List.not_mem_nil, or_false] at hstep
          obtain rfl | rfl | rfl | rfl := hstep
          · exact absurd hcreate hplan
          · exact absurd hwrite hplan
          · exact absurd hsync hplan
          · exact absurd hrename hplan

/-- A file that is not replaced keeps its content. -/
theorem privateWrite_cut (h : ∃ step ∈ replacing, plan (.privateWrite path step) ≠ .none) :
    (∀ u, ((privateWrite path put bytes).run plan s).1 ≠ .done u) ∧
      ∃ left, ((privateWrite path put bytes).run plan s).2 = { s with temporary := left } := by
  obtain ⟨hnot, left, hleft⟩ := replaceFile_cut path put bytes (s := s) h
  unfold privateWrite
  rw [run_andThen]
  rcases hrun : (replaceFile path put bytes).run plan s with ⟨outcome, t⟩
  rw [hrun] at hnot hleft
  obtain rfl : t = { s with temporary := left } := hleft
  cases outcome with
  | done u => exact absurd rfl (hnot u)
  | stopped => exact ⟨nofun, left, rfl⟩
  | failed e =>
      cases left with
      | none => exact ⟨nofun, none, rfl⟩
      | some text =>
          cases hplan : plan (.privateWrite path .cleanup) <;>
            simp [cleanTemporary, run_bind, run_write, Prog.read, hplan]

end privateWrite

/-! ## The configuration that is written -/

theorem setField_nodup {key : String} {value : Value} {fields : List (String × Value)}
    (h : (fields.map Prod.fst).Nodup) : ((setField key value fields).map Prod.fst).Nodup := by
  unfold setField
  split
  · have hkeys : (fields.map fun field => if field.1 = key then (key, value) else field).map
        Prod.fst = fields.map Prod.fst := by
      rw [List.map_map]
      refine List.map_congr_left fun field _ => ?_
      by_cases hkey : field.1 = key
      · simp [hkey]
      · simp [hkey]
    rw [hkeys]
    exact h
  · rename_i hfresh
    have hperm := (List.perm_orderedInsert (fun a b : String × Value => a.1 ≤ b.1) (key, value)
      fields).map Prod.fst
    rw [hperm.nodup_iff, List.map_cons, List.nodup_cons]
    exact ⟨hfresh, h⟩

theorem mem_setField {key : String} {value : Value} {fields : List (String × Value)} :
    (key, value) ∈ setField key value fields := by
  unfold setField
  split
  · rename_i hkey
    obtain ⟨field, hfield, hname⟩ := List.mem_map.mp hkey
    exact List.mem_map.mpr ⟨field, hfield, if_pos hname⟩
  · exact (List.mem_orderedInsert _).mpr (Or.inl rfl)

theorem mem_setField_of_ne {key other : String} {value a : Value} {fields : List (String × Value)}
    (hne : other ≠ key) (h : (other, a) ∈ fields) : (other, a) ∈ setField key value fields := by
  unfold setField
  split
  · exact List.mem_map.mpr ⟨_, h, if_neg hne⟩
  · exact (List.mem_orderedInsert _).mpr (Or.inr h)

theorem fieldsWellFormed_iff {fields : List (String × Value)} :
    FieldsWellFormed fields ↔ ∀ field ∈ fields, field.2.WellFormed := by
  induction fields with
  | nil => simp [FieldsWellFormed]
  | cons field fields ih => simp [FieldsWellFormed, ih]

theorem setField_wellFormed {key : String} {value : Value} {fields : List (String × Value)}
    (h : FieldsWellFormed fields) (hvalue : value.WellFormed) :
    FieldsWellFormed (setField key value fields) := by
  rw [fieldsWellFormed_iff] at h ⊢
  intro field hfield
  unfold setField at hfield
  split at hfield
  · obtain ⟨other, hother, rfl⟩ := List.mem_map.mp hfield
    by_cases hkey : other.1 = key
    · simpa [hkey] using hvalue
    · simpa [hkey] using h other hother
  · obtain rfl | hold := (List.mem_orderedInsert _).mp hfield
    · exact hvalue
    · exact h field hold

theorem adoptedConfig_wellFormed {tools : Tools} {config : Value} (hwf : config.WellFormed) :
    (adoptedConfig tools config).WellFormed := by
  cases config with
  | object fields =>
      exact ⟨setField_nodup (setField_nodup hwf.1),
        setField_wellFormed (setField_wellFormed hwf.2 trivial) trivial⟩
  | _ => exact hwf

/-- The adopted configuration of an object describes the Rust runtime. -/
theorem runtime_adoptedConfig {tools : Tools} {config : Value} (hwf : config.WellFormed)
    (hobject : config.get "version" ≠ none) :
    (adoptedConfig tools config).getStr "runtime" = some "rust" := by
  cases config with
  | object fields =>
      have hmem : ("runtime", Value.string "rust") ∈
          setField "migration_backup" (.string tools.backupPath)
            (setField "runtime" (.string "rust") fields) :=
        mem_setField_of_ne (by decide) mem_setField
      have hget := (get_object (setField_nodup (setField_nodup hwf.1))).mpr hmem
      show ((Value.object _).get "runtime").bind Value.asStr = _
      rw [hget]
      rfl
  | _ => exact absurd rfl hobject

/-! ## Atomicity -/

/-- Third-party code reads a configuration back: a parsed object has no field twice, and the text of
what is made of it tells its runtime. -/
structure Tools.Reads (tools : Tools) : Prop where
  parsed : ∀ text v, tools.crates.fromStr text = some v → v.WellFormed
  printed : ∀ text v, tools.crates.fromStr text = some v →
    (tools.crates.fromStr (tools.pretty (adoptedConfig tools v))).bind
      (fun w => w.getStr "runtime") = (adoptedConfig tools v).getStr "runtime"

/-- The migration is cut between its two renames: the database is published, and then one of the
operations that replace the configuration fails, or the process stops at it. -/
structure Interrupted (tools : Tools) (plan : Place → Fault) (s : Disk) : Prop where
  prepared : ∃ answer t, (prepare tools).run plan s = (.done answer, t)
  published : plan .publish = .none
  cut : ∃ step ∈ replacing, plan (.privateWrite "config.json" step) ≠ .none

section atomic

variable {tools : Tools} {plan : Place → Fault} {s t u : Disk} {config : Value} {db : RustFile}
  {n : Nat}

theorem precheck_done {original : String}
    (h : (precheck tools).run plan s = (.done (original, config), t)) :
    t = s ∧ s.config = some original ∧ tools.crates.fromStr original = some config ∧
      config.get "version" ≠ none ∧ isRust config = false ∧ s.rust = none := by
  simp only [precheck, touch, bind_done, write_done, op_done, ofExcept_done, bailIf_done, read_done,
    pure_done, Prod.mk.injEq] at h
  obtain ⟨_, _, ⟨_, rfl⟩, _, _, ⟨_, rfl⟩, text, _, ⟨_, hread⟩, value, _, ⟨hparse, rfl⟩, _, _,
    ⟨hversion, rfl⟩, _, _, ⟨_, rfl⟩, _, _, ⟨hruntime, rfl⟩, _, _, ⟨hrust, rfl⟩, _, _,
    ⟨habsent, rfl⟩, ⟨rfl, rfl⟩, rfl⟩ := h
  cases hconfig : s.config with
  | none =>
      rw [hconfig] at hread
      cases hread
  | some original =>
      rw [hconfig] at hread
      obtain ⟨rfl, rfl⟩ := Prod.mk.inj (Except.ok.inj hread)
      refine ⟨rfl, rfl, ?_, ?_, ?_, ?_⟩
      · cases hvalue : tools.crates.fromStr original with
        | none =>
            rw [hvalue] at hparse
            cases hparse
        | some v =>
            rw [hvalue] at hparse
            rw [Except.ok.inj hparse]
      · intro hnone
        rw [hnone] at hversion
        refine hversion (Or.inl ?_)
        rw [Option.bind_none]
        exact (Option.some_ne_none 1).symm
      · exact Bool.eq_false_of_not_eq_true hruntime
      · rw [← hrust] at habsent
        simpa using habsent

/-- What a prepared migration starts from and leaves. -/
theorem prepare_done (h : (prepare tools).run plan s = (.done (config, db, n), t)) :
    s.Same t ∧ t.staging = some db ∧ s.rust = none ∧ s.describesRust tools = false ∧
      config.get "version" ≠ none ∧ ∃ original, tools.crates.fromStr original = some config := by
  simp only [prepare, bind_done, pure_done, Prod.mk.injEq] at h
  obtain ⟨⟨original, _⟩, u, hprecheck, _, v, hsnapshot, ⟨_, _⟩, w, hstage, ⟨rfl, rfl, rfl⟩,
    rfl⟩ := h
  obtain ⟨rfl, hconfig, hparse, hversion, hruntime, hrust⟩ := precheck_done hprecheck
  have hv := (snapshot_keeps (s := u) original).state plan (Disk.Same.refl u)
  rw [hsnapshot] at hv
  have hw := (stage_keeps tools (Disk.Same.unstaged u)).state plan hv
  rw [hstage] at hw
  refine ⟨hw, stage_staged hstage, hrust, ?_, hversion, original, hparse⟩
  unfold Disk.describesRust
  rw [hconfig, Option.bind_some, hparse]
  exact hruntime

/-- A prepared migration goes on with the renames. -/
theorem migrate_prepared (h : (prepare tools).run plan s = (.done (config, db, n), t)) :
    (migrate tools).run plan s = (onFailure (publish tools config db n)
      (Prog.write .removeStaging .io fun s => { s with staging := none })).run plan t := by
  simp only [prepare, bind_done, pure_done, Prod.mk.injEq] at h
  obtain ⟨⟨original, _⟩, u, hprecheck, _, v, hsnapshot, ⟨_, _⟩, w, hstage, ⟨rfl, rfl, rfl⟩,
    rfl⟩ := h
  unfold migrate
  rw [run_bind_of_done hprecheck]
  simp only
  rw [run_bind_of_done hsnapshot, run_onFailure_bind hstage]

theorem removeStaging_keeps {I : Disk → Prop} (hI : ∀ s, I s → I { s with staging := none }) :
    Prog.Keeps I
      (Prog.write Place.removeStaging MigrateError.io fun s : Disk => { s with staging := none }) :=
  Keeps.write hI

/-- A migration that is not prepared leaves the directory the same. -/
theorem migrate_unprepared (h : ∀ answer t, (prepare tools).run plan s ≠ (.done answer, t)) :
    s.Same ((migrate tools).run plan s).2 := by
  have hprecheck := (precheck_keeps tools (I := s.Same)).state plan (Disk.Same.refl s)
  unfold migrate
  rw [run_bind]
  rcases hrun : (precheck tools).run plan s with ⟨⟨original, config⟩ | e | _, t⟩ <;>
    rw [hrun] at hprecheck
  · simp only
    have hsnapshot := (snapshot_keeps (s := s) original).state plan hprecheck
    rw [run_bind]
    rcases hrun' : (snapshot original).run plan t with ⟨_ | e | _, u⟩ <;> rw [hrun'] at hsnapshot
    · simp only
      have hstage := (stage_keeps tools (Disk.Same.unstaged s)).state plan hsnapshot
      have hclean := removeStaging_keeps (I := s.Same) fun _ ht =>
        ⟨ht.config_eq, ht.rust_eq, ht.legacy_eq⟩
      rw [run_onFailure, run_bind]
      rcases hrun'' : (stage tools).run plan u with ⟨⟨db, n⟩ | e | _, v⟩ <;> rw [hrun''] at hstage
      · refine absurd ?_ (h (config, db, n) v)
        unfold prepare
        rw [run_bind_of_done hrun]
        simp only
        rw [run_bind_of_done hrun', run_bind_of_done hrun'']
        rfl
      · have hafter := hclean.state plan hstage
        simp only
        rcases hhandler : (Prog.write Place.removeStaging MigrateError.io fun s : Disk =>
            { s with staging := none }).run plan v with ⟨_ | _ | _, w⟩ <;>
          rw [hhandler] at hafter <;> exact hafter
      · exact hstage
    · exact hsnapshot
    · exact hsnapshot
  · exact hprecheck
  · exact hprecheck

/-- What a handler that keeps the state leaves after a failure. -/
theorem publish_cleanup (tools : Tools) (config : Value) (db : RustFile) (n : Nat)
    {I : Disk → Prop} (hI : ∀ s, I s → I { s with staging := none })
    (h : I ((publish tools config db n).run plan s).2) :
    I ((onFailure (publish tools config db n)
      (Prog.write .removeStaging .io fun s => { s with staging := none })).run plan s).2 := by
  rw [run_onFailure]
  rcases hrun : (publish tools config db n).run plan s with ⟨v | e | _, t⟩ <;> rw [hrun] at h
  · exact h
  · have hafter := (removeStaging_keeps hI).state plan h
    simp only
    rcases hhandler : (Prog.write Place.removeStaging MigrateError.io fun s : Disk =>
        { s with staging := none }).run plan t with ⟨_ | _ | _, w⟩ <;>
      rw [hhandler] at hafter <;> exact hafter
  · exact h

/-- A handler does not turn a failure into a success. -/
theorem publish_cleanup_not_done (h : ∀ v, ((publish tools config db n).run plan s).1 ≠ .done v)
    (v : Value) : ((onFailure (publish tools config db n)
      (Prog.write .removeStaging .io fun s => { s with staging := none })).run plan s).1 ≠
      .done v := by
  intro hdone
  refine h v ?_
  rcases hrun : (onFailure (publish tools config db n)
    (Prog.write .removeStaging .io fun s => { s with staging := none })).run plan s with ⟨o, t⟩
  rw [hrun] at hdone
  obtain rfl : o = .done v := hdone
  rw [onFailure_done.mp hrun]

/-- The database is not published. -/
theorem publish_unpublished (h : plan .publish ≠ .none) :
    ((publish tools config db n).run plan s).2 = s := by
  unfold publish
  rw [run_bind, run_write]
  cases hplan : plan .publish with
  | none => exact absurd hplan h
  | error => rfl
  | stop => rfl

/-- The database is published, and the configuration is not replaced. -/
theorem publish_cut (tools : Tools) (config : Value) (db : RustFile) (n : Nat)
    (hpublish : plan .publish = .none)
    (hcut : ∃ step ∈ replacing, plan (.privateWrite "config.json" step) ≠ .none) :
    (∀ v, ((publish tools config db n).run plan s).1 ≠ .done v) ∧
      ((publish tools config db n).run plan s).2.rust = s.staging ∧
      ((publish tools config db n).run plan s).2.config = s.config := by
  unfold publish
  rw [run_bind, run_write, hpublish]
  simp only
  obtain ⟨hnot, left, hleft⟩ := privateWrite_cut "config.json"
    (fun s => { s with config := some (tools.pretty (adoptedConfig tools config)) })
    (tools.pretty (adoptedConfig tools config))
    (s := { s with rust := s.staging, staging := none }) hcut
  rw [run_bind]
  rcases hrun : (privateWrite "config.json"
    (fun s => { s with config := some (tools.pretty (adoptedConfig tools config)) })
    (tools.pretty (adoptedConfig tools config))).run plan
    { s with rust := s.staging, staging := none } with ⟨o, t⟩
  rw [hrun] at hnot hleft
  obtain rfl : t = { { s with rust := s.staging, staging := none } with temporary := left } := hleft
  cases o with
  | done u => exact absurd rfl (hnot u)
  | failed e => exact ⟨nofun, rfl, rfl⟩
  | stopped => exact ⟨nofun, rfl, rfl⟩

/-- Both renames are made: whatever fails later, both files are in place. -/
theorem publish_committed (tools : Tools) (config : Value) (db : RustFile) (n : Nat)
    (hpublish : plan .publish = .none)
    (hreplace : ∀ step ∈ replacing, plan (.privateWrite "config.json" step) = .none) :
    ((publish tools config db n).run plan s).2.rust = s.staging ∧
      ((publish tools config db n).run plan s).2.config =
        some (tools.pretty (adoptedConfig tools config)) := by
  unfold publish
  rw [run_bind, run_write, hpublish]
  simp only
  have hput := privateWrite_put "config.json"
    (fun s => { s with config := some (tools.pretty (adoptedConfig tools config)) })
    (tools.pretty (adoptedConfig tools config))
    (s := { s with rust := s.staging, staging := none }) hreplace
  rw [run_bind]
  rcases hrun : (privateWrite "config.json"
    (fun s => { s with config := some (tools.pretty (adoptedConfig tools config)) })
    (tools.pretty (adoptedConfig tools config))).run plan
    { s with rust := s.staging, staging := none } with ⟨o, t⟩
  rw [hrun] at hput
  obtain rfl := hput
  cases o with
  | failed e => exact ⟨rfl, rfl⟩
  | stopped => exact ⟨rfl, rfl⟩
  | done u =>
      have hkeeps : Prog.Keeps (fun t : Disk => t.rust = s.staging ∧
          t.config = some (tools.pretty (adoptedConfig tools config)))
          (do
            let report ← Prog.read fun s => reportOf tools s db n
            privateWrite "migration-backups/report.json"
              (fun s => { s with backup := { s.backup with report := some report } })
              (tools.pretty report)
            pure report) :=
        (Keeps.read _).bind fun _ =>
          (privateWrite_keeps _ _ _ (fun _ ht => ht) fun _ _ ht => ht).bind fun _ => Keeps.pure _
      exact hkeeps.state plan ⟨rfl, rfl⟩

/-- **When a migration is atomic.**  A migration that does not succeed leaves the configuration, the
database and the Python files as they were, or the new database under a configuration that describes
the Rust runtime, exactly when it is not cut between its two renames. -/
theorem migrate_atomic_iff (hreads : tools.Reads) (plan : Place → Fault) (s : Disk) :
    ((∀ report, ((migrate tools).run plan s).1 ≠ .done report) →
        s.Same ((migrate tools).run plan s).2 ∨ ((migrate tools).run plan s).2.Adopted tools) ↔
      ¬ Interrupted tools plan s := by
  by_cases hprepared : ∃ answer t, (prepare tools).run plan s = (.done answer, t)
  · obtain ⟨⟨config, db, n⟩, t, hrun⟩ := hprepared
    obtain ⟨hsame, hstaging, hrust, hpython, hversion, original, hparse⟩ := prepare_done hrun
    rw [migrate_prepared hrun]
    by_cases hpublish : plan .publish = .none
    · by_cases hcut : ∃ step ∈ replacing, plan (.privateWrite "config.json" step) ≠ .none
      · obtain ⟨hnot, hnew, hold⟩ := publish_cut tools config db n (s := t) hpublish hcut
        refine iff_of_false (fun hatomic => ?_) (not_not.mpr ⟨⟨_, _, hrun⟩, hpublish, hcut⟩)
        have hleft := publish_cleanup tools config db n (s := t) (I := fun u => u.rust = some db ∧ u.config = s.config)
          (fun _ hu => hu) ⟨hnew.trans hstaging, hold.trans hsame.config_eq⟩
        rcases hatomic (publish_cleanup_not_done hnot) with hkept | hadopted
        · have hsome := hkept.rust_eq.symm.trans hleft.1
          rw [hrust] at hsome
          cases hsome
        · have hrust := hadopted.config
          unfold Disk.describesRust at hrust hpython
          rw [hleft.2, hpython] at hrust
          cases hrust
      · have hreplace : ∀ step ∈ replacing, plan (.privateWrite "config.json" step) = .none := by
          intro step hstep
          by_contra hplan
          exact hcut ⟨step, hstep, hplan⟩
        refine iff_of_true (fun _ => Or.inr ?_) fun h => hcut h.cut
        have hleft := publish_cleanup tools config db n (s := t) (I := fun u => u.rust = t.staging ∧
            u.config = some (tools.pretty (adoptedConfig tools config)))
          (fun _ hu => hu) (publish_committed tools config db n hpublish hreplace)
        refine ⟨by rw [hleft.1, hstaging]; rfl, ?_⟩
        have hwf := hreads.parsed original config hparse
        have hprinted := hreads.printed original config hparse
        rw [runtime_adoptedConfig hwf hversion] at hprinted
        unfold Disk.describesRust
        rw [hleft.2, Option.bind_some]
        obtain ⟨w, hw, hruntime⟩ := Option.bind_eq_some_iff.mp hprinted
        rw [hw]
        simp [isRust, hruntime]
    · refine iff_of_true (fun _ => Or.inl ?_) fun h => hpublish h.published
      refine publish_cleanup tools config db n (I := s.Same)
        (fun _ hu => ⟨hu.config_eq, hu.rust_eq, hu.legacy_eq⟩) ?_
      rw [publish_unpublished hpublish]
      exact hsame
  · refine iff_of_true (fun _ => Or.inl ?_) fun h => hprepared h.prepared
    exact migrate_unprepared fun answer t hrun => hprepared ⟨answer, t, hrun⟩

end atomic

/-! ## A full disk -/

/-- The doubles 1, 12 and 13. -/
def sampleReals : List (UInt64 × Int) :=
  [(0x3ff0000000000000, 1), (0x4028000000000000, 12), (0x402a000000000000, 13)]

/-- Conversions of the numbers above. -/
def sampleEngine : Sql.Engine where
  convert
    | .text, .integer n => .text (toString n)
    | .text, .real bits => ((sampleReals.lookup bits).map fun n => .text (toString n ++ ".0")).getD
        (.real bits)
    | .integer, .real bits => ((sampleReals.lookup bits).map .integer).getD (.real bits)
    | .real, .integer n =>
        ((sampleReals.find? fun pair => pair.2 = n).map fun pair => .real pair.1).getD (.integer n)
    | _, cell => cell

/-- A configuration of the Python runtime. -/
def pythonConfig : Value :=
  .object [("limits", .object []), ("port", .number (.ofI64 8766)), ("sources", .object []),
    ("version", .number (.ofI64 1))]

def sampleMonitor : Legacy.Monitor where
  bindings := ⟨Legacy.bindings, [["name"]], [[.text "deploy", .text "conversation-1",
    .text "shared-local", .text "[\"ci\"]", .integer 1, .integer 0]]⟩
  conversationMetadata := ⟨Legacy.conversationMetadata, [["thread"]], []⟩
  events := ⟨Legacy.events, [["seq"], ["id"], ["client_id"], ["binding", "source", "event_id"]], []⟩
  decisions := ⟨Legacy.decisions, [["id"]], []⟩
  managedWatches := ⟨Legacy.managedWatches, [["id"], ["binding"]], []⟩

/-- A directory of the Python runtime with one route. -/
def sampleDisk (config : String) : Disk where
  config := some config
  rust := none
  legacy := ⟨some sampleMonitor, none, none, fun _ => none⟩
  staging := none
  backup := ⟨none, none, none, none, [], none⟩
  temporary := none

def sampleTools : Tools where
  crates := .knowing [pythonConfig]
  engine := sampleEngine
  pretty := canonicalJson printer
  backupPath := "/state/migration-backups/1"

def sampleConfigText : String := canonicalJson printer pythonConfig

/-- There is no room for the new configuration. -/
def diskFull : Place → Fault
  | .privateWrite "config.json" .create => .error
  | _ => .none

/-- What the migration leaves when there is no room for the new configuration. -/
def cutDisk : Disk := ((migrate sampleTools).run diskFull (sampleDisk sampleConfigText)).2

/-- The migration fails and leaves the new database under the old configuration.  Neither a second
migration nor another command accepts that. -/
theorem migrate_atomic_fails :
    ((migrate sampleTools).run diskFull (sampleDisk sampleConfigText)).1.error? = some .io ∧
      ¬ ((sampleDisk sampleConfigText).Same cutDisk ∨ cutDisk.Adopted sampleTools) ∧
      ((migrate sampleTools).run (fun _ => .none) cutDisk).1.error? =
        some (.bail "Rust database already exists; inspect previous migration before retrying") ∧
      (legacyGuard sampleTools cutDisk).isOk = false := by
  have hrust : cutDisk.rust.isSome = true := by decide
  have hconfig : cutDisk.describesRust sampleTools = false := by decide
  refine ⟨by decide, ?_, by decide, by decide⟩
  rintro (hsame | hadopted)
  · rw [hsame.rust_eq] at hrust
    cases hrust
  · rw [hadopted.config] at hconfig
    cases hconfig

/-- The configuration of the adopted directory. -/
def rustConfig : Value := adoptedConfig sampleTools pythonConfig

/-- Third-party code that reads back the configurations above. -/
def exactTools : Tools := { sampleTools with crates := .knowing [pythonConfig, rustConfig] }

theorem exactTools_known {text : String} {v : Value} (h : exactTools.crates.fromStr text = some v) :
    v = pythonConfig ∨ v = rustConfig := by
  have hfound : [pythonConfig, rustConfig].find? (fun w => canonicalJson printer w = text) =
      some v := h
  exact List.mem_pair.mp (List.mem_of_find?_eq_some hfound)

theorem exactTools_reads : exactTools.Reads where
  parsed text v h := by
    have hpython : pythonConfig.WellFormed := by
      simp [pythonConfig, Value.WellFormed, FieldsWellFormed]
    obtain rfl | rfl := exactTools_known h
    · exact hpython
    · exact adoptedConfig_wellFormed hpython
  printed text v h := by
    obtain rfl | rfl := exactTools_known h
    · decide +kernel
    · decide +kernel

theorem migrate_atomic_iff_sample :
    ((∀ report, ((migrate exactTools).run diskFull (sampleDisk sampleConfigText)).1 ≠
          .done report) →
        (sampleDisk sampleConfigText).Same
            ((migrate exactTools).run diskFull (sampleDisk sampleConfigText)).2 ∨
          ((migrate exactTools).run diskFull (sampleDisk sampleConfigText)).2.Adopted exactTools) ↔
      ¬ Interrupted exactTools diskFull (sampleDisk sampleConfigText) :=
  migrate_atomic_iff exactTools_reads diskFull (sampleDisk sampleConfigText)

end CodexMonitor
