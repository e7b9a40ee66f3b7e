import CodexMonitor.Store.Operation
import CodexMonitor.Store.Statements

/-!
# The receiver beside operator commands

The receiver runs its transactions one at a time over one connection; every operator command
is a process of its own and commits over another.  The dispatcher ends on any error of its
`claim`, its `finish` or its `defer_unavailable`.  These transactions are deferred ones that
read before they write, so a command that commits in between makes the write fail as busy,
and the dispatcher end.
-/

namespace CodexMonitor

open Transaction Wal

instance {ρ : Type} [Schema ρ] [DecidableEq ρ] : DecidableEq (Table ρ) := fun t u =>
  decidable_of_iff (t.rows = u.rows) ⟨fun h => by cases t; cases u; cases h; rfl, congrArg _⟩

deriving instance DecidableEq for Db

/-- A transaction of the receiver.  Both the dispatcher's jobs and the reconciler finish events. -/
inductive Call
  | claim (clock : Nat → Rat)
  | finish (reconciling : Bool) (id state : String) (submissionId error : Option String) (now : Rat)
  | deferUnavailable (id error : String) (now : Rat)
  | commitSample (id : String) (epoch : Int) (checkpoint : Value) (event : Option Value)
      (uuid : Uuid) (now stamp : Rat)
  | ingest (binding : String) (envelope : Value) (uuid : Uuid) (now : Rat)

/-- The statements of a call; its answer is dropped. -/
def Call.body (crates : Crates) : Call → Statements Unit
  | .claim clock => do
      let _ ← claimStatements crates clock
  | .finish _ id state submissionId error now => finishStatements id state submissionId error now
  | .deferUnavailable id error now => deferStatements id error now
  | .commitSample id epoch checkpoint event uuid now stamp => do
      let _ ← commitStatements crates id epoch checkpoint event uuid now stamp
  | .ingest binding envelope uuid now => do
      let _ ← ingestStatements crates binding envelope uuid now

/-- The operation of the store that a call is. -/
def Call.op : Call → Op
  | .claim clock => .claim clock
  | .finish _ id state submissionId error now => .finish id state submissionId error now
  | .deferUnavailable id error now => .deferUnavailable id error now
  | .commitSample id epoch checkpoint event uuid now stamp =>
      .commitSample id epoch checkpoint event uuid now stamp
  | .ingest binding envelope uuid now => .ingest binding envelope uuid now

/-- The dispatcher, or one of its delivery jobs, makes the call. -/
def Call.dispatches : Call → Bool
  | .claim _ => true
  | .finish reconciling .. => !reconciling
  | .deferUnavailable .. => true
  | .commitSample .. => false
  | .ingest .. => false

/-- A command that an operator runs as a process of its own. -/
def Op.isCommand : Op → Bool
  | .bind .. => true
  | .routeAction .. => true
  | .watchCreate .. => true
  | .watchAction .. => true
  | .requestCreate .. => true
  | .requestUpdate .. => true
  | .replyPut .. => true
  | _ => false

structure Command where
  op : Op
  isCommand : op.isCommand = true

/-- A call that ended with an error. -/
def failed (result : Except (Failure StoreError) Unit) : Bool :=
  match result with
  | .ok _ => false
  | .error _ => true

/-- The dispatcher still runs: none of its calls ended with an error. -/
def dispatching (ended : List (Call × Except (Failure StoreError) Unit)) : Bool :=
  ended.all fun r => !(r.1.dispatches && failed r.2)

/-- The receiver and the operator's commands. -/
def receiver (crates : Crates) : Peers Db StoreError Call Command where
  body := Call.body crates
  may ended call := !call.dispatches || dispatching ended
  change command db := command.op.step crates db

/-! ## The statements are the store's operations -/

theorem withTx_discard {α : Type} (x : Statements α) :
    withTx (x >>= fun _ => pure ()).meaning = (withTx x.meaning >>= fun _ => pure () : StoreM Unit) := by
  rw [Body.meaning_bind]
  show Tx.mk _ = Tx.mk _
  refine congrArg Tx.mk (funext fun db => ?_)
  show _ = ((withTx x.meaning) >>= fun _ => (pure () : StoreM Unit)).run db
  rcases hx : x.meaning.run db with ⟨e | a, t⟩
  · have hfail : (withTx x.meaning).run db = (.error e, db) := by
      simp only [withTx, Tx.atomically, hx]
    rw [Tx.run_bind_of_error hfail, Tx.run_bind_of_error hx]
  · have hok : (withTx x.meaning).run db = (.ok a, t) := by
      simp only [withTx, Tx.atomically, hx]
    rw [Tx.run_bind_of_ok hok, Tx.run_bind_of_ok hx]
    rfl

/-- A call that nothing comes between is the store's operation. -/
theorem Call.body_meaning (crates : Crates) (call : Call) :
    withTx (call.body crates).meaning = call.op.exec crates := by
  cases call with
  | claim clock =>
      rw [body, withTx_discard, claimStatements_meaning]
      rfl
  | finish reconciling id state submissionId error now =>
      exact finishStatements_meaning id state submissionId error now
  | deferUnavailable id error now => exact deferStatements_meaning id error now
  | commitSample id epoch checkpoint event uuid now stamp =>
      rw [body, withTx_discard, commitStatements_meaning]
      rfl
  | ingest binding envelope uuid now =>
      rw [body, withTx_discard, ingestStatements_meaning]
      rfl

/-- Left alone, a call ends as the store's operation and leaves the database it leaves. -/
theorem call_alone (crates : Crates) (call : Call) (db : Db)
    (ended : List (Call × Except (Failure StoreError) Unit)) :
    ∃ n, Runs.run? (receiver crates).step (List.replicate n .statement)
        ⟨db, some (call, ⟨.begun, call.body crates⟩), ended⟩ =
      some ⟨call.op.step crates db, none,
        ended ++ [(call, report ((call.op.exec crates).run db).1)]⟩ := by
  obtain ⟨n, hn⟩ :=
    @runs_alone _ _ _ _ _ (receiver crates) call (call.body crates) .begun db ended nofun
  refine ⟨n, hn.trans ?_⟩
  rw [Op.step, ← Call.body_meaning]
  simp only [Phase.view, Body.leaves, withTx, Tx.atomically, Body.meaning]
  rcases (call.body crates).runOn db with ⟨e | a, t⟩ <;> rfl

/-! ## When the dispatcher survives -/

/-- The step is no commit of a command between the first read of the open transaction and its
first write. -/
abbrev KeepsApart (site : Site Db StoreError Call) (act : Act Call Command) : Prop :=
  site.apart act = true

/-- A dispatcher that has ended has seen the store reject one of its calls, or SQLite refuse
one. -/
theorem dispatching_false {ended : List (Call × Except (Failure StoreError) Unit)}
    (h : dispatching ended = false) (hbusy : ∀ r ∈ ended, r.2 ≠ .error .busy) :
    ∃ call e, call.dispatches = true ∧ (call, .error (.error e)) ∈ ended := by
  obtain ⟨⟨call, result⟩, hmem, hended⟩ := List.all_eq_false.mp h
  simp only [Bool.not_eq_true, Bool.not_eq_false', Bool.and_eq_true] at hended
  obtain ⟨hdispatches, hfailed⟩ := hended
  cases result with
  | ok _ => cases hfailed
  | error failure =>
      cases failure with
      | busy => exact absurd rfl (hbusy _ hmem)
      | error e => exact ⟨call, e, hdispatches, hmem⟩

/-- In a run that keeps the commands' commits out of the receiver's transactions, none of these is
refused because of a command and the dispatcher ends only when the store rejects one of its calls;
and every run after which no transaction is open and none was refused is such a run. -/
theorem commands_spare_dispatch_iff (crates : Crates) (db : Db) (acts : List (Act Call Command))
    (site : Site Db StoreError Call)
    (hrun : Runs.run? (receiver crates).step acts (.idle db) = some site) :
    (Runs.after? (receiver crates).step KeepsApart acts (.idle db) = some site →
      (∀ r ∈ site.ended, r.2 ≠ .error .busy) ∧
        (dispatching site.ended = false →
          ∃ call e, call.dispatches = true ∧ (call, .error (.error e)) ∈ site.ended)) ∧
    (site.current = none → (∀ r ∈ site.ended, r.2 ≠ .error .busy) →
      Runs.after? (receiver crates).step KeepsApart acts (.idle db) = some site) := by
  have hclear := clear_iff (Site.clear_idle db) hrun
  constructor
  · intro hapart
    have hended := (hclear.mpr hapart).ended
    exact ⟨hended, fun hdead => dispatching_false hdead hended⟩
  · intro hidle hended
    refine hclear.mp ⟨hended, ?_⟩
    rw [hidle]
    nofun

/-- A claim with the event of a build server to claim, and a new route before and after it. -/
def sampleCalls (early : Bool) : List (Act Call Command) :=
  let route : Act Call Command :=
    .commit ⟨.bind "nightly" "conversation-2" "shared-local" ["ci"], rfl⟩
  if early then
    [route, .start (.claim fun _ => 20), .statement, .statement, .statement, .statement]
  else [.start (.claim fun _ => 20), .statement, route, .statement]

/-- The site after the sample calls. -/
def sampleSite? (early : Bool) : Option (Site Db StoreError Call) :=
  Runs.run? (receiver sampleCrates).step (sampleCalls early) (.idle (Db.after sampleCrates sampleOps))

/-- A command that commits before the claim reads is no trouble. -/
theorem commands_spare_dispatch_sample :
    ∃ site, sampleSite? true = some site ∧ site.ended.length = 1 ∧
      ∀ r ∈ site.ended, r.2 ≠ .error .busy := by
  have hruns : (Runs.after? (receiver sampleCrates).step KeepsApart (sampleCalls true)
      (.idle (Db.after sampleCrates sampleOps))).any (fun site => site.ended.length = 1) = true := by
    decide +kernel
  obtain ⟨site, hapart, hended⟩ := (Option.any_eq_true _ _).mp hruns
  have hrun := Runs.run_of_after hapart
  have hspared := commands_spare_dispatch_iff sampleCrates _ (sampleCalls true) site hrun
  exact ⟨site, hrun, by simpa using hended, (hspared.1 hapart).1⟩

/-- An operator who registers a route between the claim's read and its write ends the
dispatcher. -/
theorem commands_spare_dispatch_fails :
    ¬ ∀ (crates : Crates) (db : Db) (acts : List (Act Call Command)) (site : Site Db StoreError Call),
      Reachable crates db → Runs.run? (receiver crates).step acts (.idle db) = some site →
        (∀ r ∈ site.ended, r.2 ≠ .error .busy) ∧ dispatching site.ended = true := by
  intro h
  have hrun : (sampleSite? false).any (fun site => !dispatching site.ended) = true := by
    decide +kernel
  obtain ⟨site, hsite, hdead⟩ := (Option.any_eq_true _ _).mp hrun
  have hlive := (h sampleCrates (Db.after sampleCrates sampleOps) _ site
    (reachable_after sampleCrates sampleOps) hsite).2
  rw [hlive] at hdead
  cases hdead

end CodexMonitor
