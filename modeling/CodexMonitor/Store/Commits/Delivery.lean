import CodexMonitor.Store.Commits

/-!
# What delivery and replies commit

`claim`'s loop writes one expiry a round and at most one hand-over, at the clock
reading of its round.  The other operations write one entry or recognise that
there is nothing to write.
-/

namespace CodexMonitor

open Transaction

/-! ## Delivery -/

/-- The clock reading at which the loop expires or hands out an event. -/
theorem claimLoop_commits {crates : Crates} {clock : Nat → Rat} {fuel i : Nat} {db t : Db}
    {answer : Option ClaimedEvent}
    (h : (claimLoop crates clock fuel i).run db = (.ok answer, t)) :
    (Op.claim clock).Commits crates db t := by
  induction fuel generalizing db i with
  | zero => exact (Tx.fail_ok.mp h).elim
  | succ fuel ih =>
      simp only [claimLoop, Tx.bind_ok, Tx.query_ok] at h
      obtain ⟨row, _, ⟨hrow, rfl⟩, h⟩ := h
      split at h
      · obtain ⟨_, rfl⟩ := Tx.pure_ok.mp h
        exact .refl _ _
      · rename_i e
        obtain ⟨he, hclaimable⟩ := Table.mem_select.mp (List.mem_of_mem_head? hrow)
        split at h
        · rename_i hstale
          simp only [Tx.bind_ok, Tx.write_ok] at h
          obtain ⟨_, _, rfl, _, _, rfl, h⟩ := h
          have hexpire : (Op.claim clock).Commits crates db
              ((Entry.expire e (clock i)).apply crates db) :=
            .one (.expire i) ⟨he, hclaimable, hstale.2⟩
          exact hexpire.trans (ih h)
        · rename_i hfresh
          simp only [Tx.bind_ok, Tx.write_ok, Tx.query_ok, Tx.expect_ok, Tx.ofExcept_ok,
            Tx.pure_ok, if_pos hclaimable.1] at h
          obtain ⟨_, _, rfl, _, _, ⟨_, rfl⟩, _, _, ⟨_, rfl⟩, _, _, ⟨_, rfl⟩, _, _, ⟨_, rfl⟩,
            _, rfl⟩ := h
          have hage : clock i - e.created ≤ maxAgeSeconds :=
            not_lt.mp fun hstale => hfresh ⟨hclaimable.1, hstale⟩
          exact .one (.submit i) ⟨he, hclaimable, hage⟩

theorem claim_commits {crates : Crates} {clock : Nat → Rat} {db t : Db}
    {answer : Option ClaimedEvent} (h : (claim crates clock).run db = (.ok answer, t)) :
    (Op.claim clock).Commits crates db t := by
  simp only [claim, withTx, Tx.atomically_ok, Tx.bind_ok, Tx.query_ok] at h
  obtain ⟨_, _, ⟨_, rfl⟩, h⟩ := h
  exact claimLoop_commits h

theorem finishState?_ne_submitting {text : String} {state : EventState}
    (h : finishState? text = some state) : state ≠ .submitting := by
  rintro rfl
  unfold finishState? at h
  repeat' split at h
  all_goals cases h

/-- The outcome `finish` stores is never a hand-over, and a retry only within the limit. -/
theorem storedOutcome_spec {state : EventState} {error : Option String} {attempts : Int}
    (h : state ≠ .submitting) :
    (storedOutcome state error attempts).1 ≠ .submitting ∧
      ((storedOutcome state error attempts).1 = .pending → attempts < maxAttempts) := by
  unfold storedOutcome
  split
  · exact ⟨EventState.noConfusion, EventState.noConfusion⟩
  · rename_i hlimit
    exact ⟨h, fun hpending => not_le.mp fun hle => hlimit ⟨hpending, hle⟩⟩

/-- What a successful `finish` did: nothing to an event already accepted with the same
submission, one entry to an event in flight. -/
theorem finish_ok (crates : Crates) {id text : String} {submissionId error : Option String}
    {now : Rat} {db t : Db}
    (h : (finish id text submissionId error now).run db = (.ok (), t)) :
    ∃ e ∈ db.events, e.id = id ∧ ∃ state, finishState? text = some state ∧
      ((e.state = .accepted ∧ state = .accepted ∧ e.submissionId = submissionId ∧ t = db) ∨
        ((Entry.finish e (storedOutcome state error e.attempts).1 submissionId
            (storedOutcome state error e.attempts).2 now).Enabled crates db ∧
          t = (Entry.finish e (storedOutcome state error e.attempts).1 submissionId
            (storedOutcome state error e.attempts).2 now).apply crates db)) := by
  simp only [finish, Tx.bind_ok, validateIdentifier_ok, Tx.expect_ok, bailIf_run_ok, withTx,
    Tx.atomically_ok, Tx.query_ok] at h
  obtain ⟨_, _, ⟨_, rfl⟩, state, _, ⟨hstate, rfl⟩, _, _, ⟨_, rfl⟩, _, _, ⟨_, rfl⟩, row, _,
    ⟨hrow, rfl⟩, e, _, ⟨rfl, rfl⟩, h⟩ := h
  obtain ⟨he, rfl⟩ := Table.find?_some hrow
  refine ⟨e, he, rfl, state, hstate, ?_⟩
  split at h
  · rename_i haccepted
    obtain ⟨hsame, rfl⟩ := bailIf_run_ok.mp h
    obtain ⟨hstate, hsubmission⟩ := Decidable.of_not_not hsame
    exact Or.inl ⟨haccepted, hstate, hsubmission, rfl⟩
  · simp only [Tx.bind_ok, bailIf_run_ok, Tx.write_ok] at h
    obtain ⟨_, _, ⟨hflight, rfl⟩, _, _, rfl, rfl⟩ := h
    obtain ⟨hne, hlimit⟩ := storedOutcome_spec (finishState?_ne_submitting hstate)
    refine Or.inr ⟨⟨he, ?_, hne, hlimit⟩, rfl⟩
    rcases Decidable.of_not_not hflight with hs | hs
    · rw [hs]
      rfl
    · rw [hs]
      rfl

/-- The arguments of a successful `finish` passed its checks. -/
theorem finish_valid {id text : String} {submissionId error : Option String} {now : Rat}
    {db t : Db} (h : (finish id text submissionId error now).run db = (.ok (), t)) :
    isIdentifier id = true ∧ (∀ value ∈ submissionId, isIdentifier value = true) ∧
      ∀ value ∈ error, value.utf8ByteSize ≤ 4096 := by
  simp only [finish, Tx.bind_ok, validateIdentifier_ok, Tx.expect_ok, bailIf_run_ok] at h
  obtain ⟨_, _, ⟨hid, rfl⟩, _, _, ⟨_, rfl⟩, _, _, ⟨hsubmission, rfl⟩, _, _, ⟨herror, rfl⟩, _⟩ := h
  refine ⟨hid, fun value hmem => ?_, fun value hmem => ?_⟩
  · exact Bool.eq_true_of_not_eq_false (not_any_iff.mp hsubmission value hmem)
  · exact Nat.not_lt.mp (not_any_iff.mp herror value hmem)

/-- An event in flight is finished whenever the arguments pass the checks. -/
theorem finish_run (crates : Crates) {id text : String} {submissionId error : Option String}
    {now : Rat} {db : Db} {e : Event} {state : EventState} (he : e ∈ db.events) (hid : e.id = id)
    (hidentifier : isIdentifier id = true) (hstate : finishState? text = some state)
    (hsubmission : ∀ value ∈ submissionId, isIdentifier value = true)
    (herror : ∀ value ∈ error, value.utf8ByteSize ≤ 4096)
    (hflight : e.state.inFlight = true) :
    (finish id text submissionId error now).run db =
      (.ok (), (Entry.finish e (storedOutcome state error e.attempts).1 submissionId
        (storedOutcome state error e.attempts).2 now).apply crates db) := by
  have hrow : db.eventById id = some e :=
    Table.find?_eq_of_unique he hid fun f hf hfid => Event.eq_of_id hf he (hfid.trans hid.symm)
  have hsubmission : ¬ (submissionId.any fun value => isIdentifier value = false) = true :=
    not_any_iff.mpr fun value hmem hbad =>
      Bool.false_ne_true (hbad.symm.trans (hsubmission value hmem))
  have herror : ¬ (error.any fun value => 4096 < value.utf8ByteSize) = true :=
    not_any_iff.mpr fun value hmem => Nat.not_lt.mpr (herror value hmem)
  have hopen : e.state ≠ .accepted := by
    rintro haccepted
    rw [haccepted] at hflight
    cases hflight
  have hhanded : e.state = .submitting ∨ e.state = .uncertain := by
    cases hs : e.state with
    | submitting => exact Or.inl rfl
    | uncertain => exact Or.inr rfl
    | pending | accepted | dead | ignored =>
        rw [hs] at hflight
        cases hflight
  simp only [finish, Tx.bind_ok, validateIdentifier_ok, Tx.expect_ok, bailIf_run_ok, withTx,
    Tx.atomically_ok, Tx.query_ok]
  refine ⟨(), db, ⟨hidentifier, rfl⟩, state, db, ⟨hstate, rfl⟩, (), db, ⟨hsubmission, rfl⟩, (), db,
    ⟨herror, rfl⟩, some e, db, ⟨hrow, rfl⟩, e, db, ⟨rfl, rfl⟩, ?_⟩
  rw [if_neg hopen]
  simp only [Tx.bind_ok, bailIf_run_ok, Tx.write_ok]
  refine ⟨(), db, ⟨fun hnot => hnot hhanded, rfl⟩, (), _, rfl, ?_⟩
  subst hid
  rfl

theorem finish_commits {crates : Crates} {id text : String} {submissionId error : Option String}
    {now : Rat} {db t : Db}
    (h : (finish id text submissionId error now).run db = (.ok (), t)) :
    (Op.finish id text submissionId error now).Commits crates db t := by
  obtain ⟨e, _, hid, state, hstate, ⟨_, _, _, rfl⟩ | ⟨henabled, rfl⟩⟩ := finish_ok crates h
  · exact .refl _ _
  · exact .one (.finish hid hstate) henabled

/-- What a successful `deferUnavailable` did. -/
theorem deferUnavailable_ok (crates : Crates) {id error : String} {now : Rat} {db t : Db}
    (h : (deferUnavailable id error now).run db = (.ok (), t)) :
    ∃ e ∈ db.events, e.id = id ∧ e.state = .submitting ∧
      t = (Entry.defer e error now).apply crates db := by
  simp only [deferUnavailable, Tx.bind_ok, validateIdentifier_ok, bailIf_run_ok, withTx,
    Tx.atomically_ok, Tx.query_ok, Tx.expect_ok, Tx.write_ok] at h
  obtain ⟨_, _, ⟨_, rfl⟩, _, _, ⟨_, rfl⟩, row, _, ⟨hrow, rfl⟩, e, _, ⟨rfl, rfl⟩, _, _,
    ⟨hstate, rfl⟩, rfl⟩ := h
  obtain ⟨he, rfl⟩ := Table.find?_some hrow
  exact ⟨e, he, rfl, Decidable.of_not_not hstate, rfl⟩

/-- The arguments of a successful `deferUnavailable` passed its checks. -/
theorem deferUnavailable_valid {id error : String} {now : Rat} {db t : Db}
    (h : (deferUnavailable id error now).run db = (.ok (), t)) :
    isIdentifier id = true ∧ error.utf8ByteSize ≤ 4096 := by
  simp only [deferUnavailable, Tx.bind_ok, validateIdentifier_ok, bailIf_run_ok] at h
  obtain ⟨_, _, ⟨hid, rfl⟩, _, _, ⟨herror, rfl⟩, _⟩ := h
  exact ⟨hid, Nat.not_lt.mp herror⟩

/-- A submitting event is taken back whenever the arguments pass the checks. -/
theorem deferUnavailable_run (crates : Crates) {id error : String} {now : Rat} {db : Db}
    {e : Event} (he : e ∈ db.events) (hid : e.id = id) (hidentifier : isIdentifier id = true)
    (herror : error.utf8ByteSize ≤ 4096) (hstate : e.state = .submitting) :
    (deferUnavailable id error now).run db =
      (.ok (), (Entry.defer e error now).apply crates db) := by
  have hrow : db.eventById id = some e :=
    Table.find?_eq_of_unique he hid fun f hf hfid => Event.eq_of_id hf he (hfid.trans hid.symm)
  simp only [deferUnavailable, Tx.bind_ok, validateIdentifier_ok, bailIf_run_ok, withTx,
    Tx.atomically_ok, Tx.query_ok, Tx.expect_ok, Tx.write_ok]
  refine ⟨(), db, ⟨hidentifier, rfl⟩, (), db, ⟨Nat.not_lt.mpr herror, rfl⟩, some e, db,
    ⟨hrow, rfl⟩, e, db, ⟨rfl, rfl⟩, (), db, ⟨fun hne => hne hstate, rfl⟩, ?_⟩
  subst hid
  rfl

theorem deferUnavailable_commits {crates : Crates} {id error : String} {now : Rat} {db t : Db}
    (h : (deferUnavailable id error now).run db = (.ok (), t)) :
    (Op.deferUnavailable id error now).Commits crates db t := by
  obtain ⟨e, he, hid, hstate, rfl⟩ := deferUnavailable_ok crates h
  exact .one (.defer hid) ⟨he, hstate⟩

theorem recoverSubmitting_commits {crates : Crates} {nextAt now : Rat} {db t : Db}
    (h : (recoverSubmitting nextAt now).run db = (.ok (), t)) :
    (Op.recoverSubmitting nextAt now).Commits crates db t := by
  simp only [recoverSubmitting, withTx, Tx.atomically_ok, Tx.write_ok] at h
  subst h
  exact .one .recover trivial

/-! ## Replies -/

theorem replyPut_commits {crates : Crates} {deliveryId replyKey message : String} {uuid : Uuid}
    {now : Rat} {db t : Db} {receipt : ReplyReceipt}
    (h : (replyPut deliveryId replyKey message uuid now).run db = (.ok receipt, t)) :
    (Op.replyPut deliveryId replyKey message uuid now).Commits crates db t := by
  simp only [replyPut, Tx.bind_ok, validateIdentifier_ok, validateText_ok, withTx,
    Tx.atomically_ok, Tx.query_ok, Tx.expect_ok] at h
  obtain ⟨_, _, ⟨_, rfl⟩, _, _, ⟨_, rfl⟩, _, _, ⟨_, rfl⟩, row, _, ⟨hrow, rfl⟩, e, _, ⟨rfl, rfl⟩,
    _, _, ⟨_, rfl⟩, h⟩ := h
  obtain ⟨he, hid⟩ := Table.find?_some hrow
  split at h
  · simp only [Tx.bind_ok, bailIf_run_ok, Tx.pure_ok] at h
    obtain ⟨_, _, ⟨_, rfl⟩, _, rfl⟩ := h
    exact .refl _ _
  · simp only [Tx.bind_ok, Tx.query_ok, bailIf_run_ok, insertReply_ok, Tx.pure_ok] at h
    obtain ⟨_, _, ⟨rfl, rfl⟩, _, _, ⟨hroom, rfl⟩, _, _, ⟨hadmits, rfl⟩, _, rfl⟩ := h
    have henabled : (Entry.reply ⟨db.nextReplySeq, uuid.text, deliveryId, replyKey, e.source,
        e.binding, e.eventId, message, now, none⟩).Enabled crates db :=
      ⟨hadmits, rfl, rfl, ⟨e, he, hid, rfl, rfl, rfl⟩, Nat.lt_of_not_le hroom⟩
    exact .one (.reply rfl) henabled

theorem replyAck_commits {crates : Crates} {source replyId : String} {now : Rat} {db t : Db}
    (h : (replyAck source replyId now).run db = (.ok (), t)) :
    (Op.replyAck source replyId now).Commits crates db t := by
  simp only [replyAck, Tx.bind_ok, validateIdentifier_ok, withTx, Tx.atomically_ok, Tx.query_ok,
    Tx.expect_ok, Tx.write_ok] at h
  obtain ⟨_, _, ⟨_, rfl⟩, _, _, ⟨_, rfl⟩, row, _, ⟨hrow, rfl⟩, r, _, ⟨rfl, rfl⟩, rfl⟩ := h
  obtain ⟨hr, hid, hsource⟩ := Table.find?_some hrow
  exact .one .acknowledge ⟨r, hr, hid, hsource⟩

end CodexMonitor
