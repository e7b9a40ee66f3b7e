import CodexMonitor.Store.Commits.Routes
import CodexMonitor.Store.Commits.Delivery
import CodexMonitor.Store.Commits.Requests

/-!
# Every call commits a journal

A call that fails changes nothing, a call that succeeds writes entries of its own.
So whatever every entry keeps, every run keeps.
-/

namespace CodexMonitor

open Transaction

/-! ## Every call -/

theorem readOnly_validateText (value label : String) (maxBytes : Nat) :
    Tx.ReadOnly (validateText value label maxBytes) :=
  readOnly_bail _ _

theorem readOnly_validateSources (sources : List String) :
    Tx.ReadOnly (validateSources sources) := by
  induction sources with
  | nil => exact Tx.readOnly_pure _
  | cons source sources ih =>
      exact Tx.ReadOnly.bind (readOnly_bail _ _) fun _ =>
        Tx.ReadOnly.bind (readOnly_bail _ _) fun _ => ih

/-- A rejected update changes nothing. -/
theorem requestUpdate_harmless (crates : Crates) (thread source key updateId state : String)
    (expectedRevision : Option Int) (detail : Option String) (now : Rat) :
    Tx.Harmless
      (requestUpdate crates thread source key updateId state expectedRevision detail now) := by
  unfold requestUpdate validateIdentifier
  refine Tx.ReadOnly.bind_harmless (readOnly_bail _ _) fun _ => ?_
  refine Tx.ReadOnly.bind_harmless (readOnly_bail _ _) fun _ => ?_
  refine Tx.ReadOnly.bind_harmless (readOnly_bail _ _) fun _ => ?_
  refine Tx.ReadOnly.bind_harmless (readOnly_bail _ _) fun _ => ?_
  refine Tx.ReadOnly.bind_harmless (Tx.readOnly_expect _ _) fun _ => ?_
  refine Tx.ReadOnly.bind_harmless (readOnly_bail _ _) fun _ => ?_
  refine Tx.ReadOnly.bind_harmless (validateDetail_readOnly _) fun _ => ?_
  exact harmless_withTx _

/-- A call that fails changes nothing: the checks read, and the rest is one transaction. -/
theorem Op.harmless (crates : Crates) (op : Op) : Tx.Harmless (op.exec crates) := by
  cases op with
  | bind name thread endpoint sources =>
      refine Tx.Harmless.discard ?_
      unfold CodexMonitor.bind validateIdentifier
      refine Tx.ReadOnly.bind_harmless (readOnly_bail _ _) fun _ => ?_
      refine Tx.ReadOnly.bind_harmless (readOnly_bail _ _) fun _ => ?_
      refine Tx.ReadOnly.bind_harmless (readOnly_bail _ _) fun _ => ?_
      refine Tx.ReadOnly.bind_harmless (validateEndpoint_readOnly _ _) fun _ => ?_
      refine Tx.ReadOnly.bind_harmless (readOnly_bail _ _) fun _ => ?_
      refine Tx.ReadOnly.bind_harmless (readOnly_validateSources _) fun _ => ?_
      exact harmless_withTx _
  | routeAction name action now =>
      refine Tx.Harmless.discard ?_
      unfold CodexMonitor.routeAction validateIdentifier
      refine Tx.ReadOnly.bind_harmless (readOnly_bail _ _) fun _ => ?_
      refine Tx.ReadOnly.bind_harmless (Tx.readOnly_expect _ _) fun _ => ?_
      exact harmless_withTx _
  | ingest binding envelope uuid now =>
      refine Tx.Harmless.discard ?_
      exact Tx.ReadOnly.bind_harmless (readOnly_bail _ _) fun _ => harmless_withTx _
  | claim clock => exact Tx.Harmless.discard (harmless_withTx _)
  | finish id state submissionId error now =>
      unfold exec CodexMonitor.finish validateIdentifier
      refine Tx.ReadOnly.bind_harmless (readOnly_bail _ _) fun _ => ?_
      refine Tx.ReadOnly.bind_harmless (Tx.readOnly_expect _ _) fun _ => ?_
      refine Tx.ReadOnly.bind_harmless (readOnly_bail _ _) fun _ => ?_
      refine Tx.ReadOnly.bind_harmless (readOnly_bail _ _) fun _ => ?_
      exact harmless_withTx _
  | deferUnavailable id error now =>
      unfold exec CodexMonitor.deferUnavailable validateIdentifier
      refine Tx.ReadOnly.bind_harmless (readOnly_bail _ _) fun _ => ?_
      refine Tx.ReadOnly.bind_harmless (readOnly_bail _ _) fun _ => ?_
      exact harmless_withTx _
  | recoverSubmitting nextAt now =>
      unfold exec CodexMonitor.recoverSubmitting
      exact harmless_withTx _
  | watchCreate thread name path interval endpoint debounce condition uuid now =>
      refine Tx.Harmless.discard ?_
      unfold CodexMonitor.watchCreate validateIdentifier
      refine Tx.ReadOnly.bind_harmless (readOnly_bail _ _) fun _ => ?_
      refine Tx.ReadOnly.bind_harmless (readOnly_bail _ _) fun _ => ?_
      refine Tx.ReadOnly.bind_harmless (readOnly_bail _ _) fun _ => ?_
      refine Tx.ReadOnly.bind_harmless (readOnly_bail _ _) fun _ => ?_
      refine Tx.ReadOnly.bind_harmless (Tx.readOnly_expect _ _) fun _ => ?_
      refine Tx.ReadOnly.bind_harmless (Tx.readOnly_expect _ _) fun _ => ?_
      refine Tx.ReadOnly.bind_harmless (validateEndpoint_readOnly _ _) fun _ => ?_
      exact harmless_withTx _
  | watchAction thread name action now =>
      refine Tx.Harmless.discard ?_
      unfold CodexMonitor.watchAction validateIdentifier
      refine Tx.ReadOnly.bind_harmless (readOnly_bail _ _) fun _ => ?_
      refine Tx.ReadOnly.bind_harmless (readOnly_bail _ _) fun _ => ?_
      refine Tx.ReadOnly.bind_harmless (Tx.readOnly_expect _ _) fun _ => ?_
      exact harmless_withTx _
  | commitSample id epoch checkpoint event uuid now stamp =>
      refine Tx.Harmless.discard ?_
      unfold CodexMonitor.commitSample validateIdentifier
      refine Tx.ReadOnly.bind_harmless (readOnly_bail _ _) fun _ => ?_
      refine Tx.ReadOnly.bind_harmless (readOnly_bail _ _) fun _ => ?_
      refine Tx.ReadOnly.bind_harmless (readOnly_bail _ _) fun _ => ?_
      exact harmless_withTx _
  | replyPut deliveryId replyKey message uuid now =>
      refine Tx.Harmless.discard ?_
      unfold CodexMonitor.replyPut validateIdentifier
      refine Tx.ReadOnly.bind_harmless (readOnly_bail _ _) fun _ => ?_
      refine Tx.ReadOnly.bind_harmless (readOnly_bail _ _) fun _ => ?_
      refine Tx.ReadOnly.bind_harmless (readOnly_validateText _ _ _) fun _ => ?_
      exact harmless_withTx _
  | replyAck source replyId now =>
      unfold exec CodexMonitor.replyAck validateIdentifier
      refine Tx.ReadOnly.bind_harmless (readOnly_bail _ _) fun _ => ?_
      refine Tx.ReadOnly.bind_harmless (readOnly_bail _ _) fun _ => ?_
      exact harmless_withTx _
  | requestCreate thread source key deliveryId payload expiresAt uuid now =>
      refine Tx.Harmless.discard ?_
      unfold CodexMonitor.requestCreate validateIdentifier
      refine Tx.ReadOnly.bind_harmless (readOnly_bail _ _) fun _ => ?_
      refine Tx.ReadOnly.bind_harmless (readOnly_bail _ _) fun _ => ?_
      refine Tx.ReadOnly.bind_harmless (readOnly_bail _ _) fun _ => ?_
      refine Tx.ReadOnly.bind_harmless (readOnly_bail _ _) fun _ => ?_
      refine Tx.ReadOnly.bind_harmless (readOnly_bail _ _) fun _ => ?_
      refine Tx.ReadOnly.bind_harmless (Tx.readOnly_expect _ _) fun _ => ?_
      exact harmless_withTx _
  | requestUpdate thread source key updateId state expectedRevision detail now =>
      exact Tx.Harmless.discard (requestUpdate_harmless _ _ _ _ _ _ _ _ _)
  | requestMaintenance limit uuids now =>
      refine Tx.Harmless.discard ?_
      unfold CodexMonitor.requestMaintenance
      refine Tx.ReadOnly.bind_harmless (readOnly_bail _ _) fun _ => ?_
      refine Tx.ReadOnly.bind_harmless (Tx.readOnly_query _) fun needed => ?_
      split
      · exact (Tx.readOnly_pure _).harmless
      · exact harmless_withTx _

/-- A call that succeeds writes a journal of its own entries. -/
theorem Op.exec_commits {crates : Crates} {op : Op} {db t : Db} {u : Unit}
    (h : (op.exec crates).run db = (.ok u, t)) : op.Commits crates db t := by
  have hdrop : ∀ {α : Type} {x : StoreM α},
      (x >>= fun _ => (pure () : StoreM Unit)).run db = (.ok u, t) →
        ∃ a, x.run db = (.ok a, t) := by
    intro α x hx
    obtain ⟨a, _, ha, hpure⟩ := Tx.bind_ok.mp hx
    obtain ⟨_, rfl⟩ := Tx.pure_ok.mp hpure
    exact ⟨a, ha⟩
  cases op with
  | bind => obtain ⟨_, h⟩ := hdrop h; exact bind_commits h
  | routeAction => obtain ⟨_, h⟩ := hdrop h; exact routeAction_commits h
  | ingest => obtain ⟨_, h⟩ := hdrop h; exact ingest_commits h
  | claim => obtain ⟨_, h⟩ := hdrop h; exact claim_commits h
  | finish => exact finish_commits h
  | deferUnavailable => exact deferUnavailable_commits h
  | recoverSubmitting => exact recoverSubmitting_commits h
  | watchCreate => obtain ⟨_, h⟩ := hdrop h; exact watchCreate_commits h
  | watchAction => obtain ⟨_, h⟩ := hdrop h; exact watchAction_commits h
  | commitSample => obtain ⟨_, h⟩ := hdrop h; exact commitSample_commits h
  | replyPut => obtain ⟨_, h⟩ := hdrop h; exact replyPut_commits h
  | replyAck => exact replyAck_commits h
  | requestCreate => obtain ⟨_, h⟩ := hdrop h; exact requestCreate_commits h
  | requestUpdate => obtain ⟨_, h⟩ := hdrop h; exact requestUpdate_commits h
  | requestMaintenance => obtain ⟨_, h⟩ := hdrop h; exact requestMaintenance_commits h

/-- The database after a call whose answer is dropped. -/
theorem step_of_run {crates : Crates} {db t : Db} {α : Type} {op : Op} {x : StoreM α}
    (hop : op.exec crates = (do let _ ← x; pure ())) {answer : α}
    (h : x.run db = (.ok answer, t)) : op.step crates db = t := by
  have hexec : (op.exec crates).run db = (.ok (), t) := by
    rw [hop]
    exact Tx.bind_ok.mpr ⟨answer, t, h, Tx.pure_ok.mpr ⟨rfl, rfl⟩⟩
  unfold Op.step
  rw [hexec]

/-- The database after a call whose answer is dropped and that fails. -/
theorem step_of_fail {crates : Crates} {db t : Db} {α : Type} {op : Op} {x : StoreM α}
    (hop : op.exec crates = (do let _ ← x; pure ())) {error : StoreError}
    (h : x.run db = (.error error, t)) : op.step crates db = db := by
  have hexec : ((op.exec crates).run db).1 = .error error := by
    rw [hop, Tx.run_bind_of_error h]
  exact op.harmless crates db error hexec

/-- A call commits and leaves what it wrote, or it leaves everything as it was. -/
theorem Op.step_outcome (crates : Crates) (op : Op) (db : Db) :
    (op.exec crates).run db = (.ok (), op.step crates db) ∨ op.step crates db = db := by
  rcases (op.harmless crates).outcome db with ⟨_, h⟩ | h
  · exact Or.inl h
  · exact Or.inr h

/-- The database a call leaves is the one its entries make of the old one. -/
theorem Op.commits (crates : Crates) (op : Op) (db : Db) :
    op.Commits crates db (op.step crates db) := by
  rcases op.step_outcome crates db with h | h
  · exact exec_commits h
  · rw [h]
    exact .refl _ _

/-- What every entry keeps holds of every database a run leads to. -/
theorem Leads.invariant {crates : Crates} {P : Db → Prop} {db db' : Db}
    (h : Leads crates db db')
    (hstep : ∀ (k : Entry) d, k.Enabled crates d → P d → P (k.apply crates d)) (hdb : P db) :
    P db' :=
  LeadsBy.invariant (fun d op hd _ => (op.commits crates d).invariant
    (fun k _ d hk => hstep k d hk) hd) h hdb

end CodexMonitor
