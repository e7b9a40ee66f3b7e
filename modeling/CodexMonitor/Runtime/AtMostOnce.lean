import CodexMonitor.Runtime.Answers
import CodexMonitor.Runtime.System

/-!
# At most one submission of an event

A live ticket keeps its event out of `pending`: only a delivery job whose add was
never handed over, or was refused, puts its event back.  So the receiver is a
disciplined sender in the sense of `Channel`, whatever the interleaving, and
whatever job, inspection or process is cut off where it stands.
-/

namespace CodexMonitor

open Transaction Session

/-! ## What a job makes of its event -/

section outcomes

variable {crates : Crates} {db : Db}

/-- Where an outcome may move an event: the one named `id`, out of flight. -/
def Event.Ends (id : String) (retry : Prop) (e : Event) (state : EventState) : Prop :=
  state = e.state ∨ (e.id = id ∧ e.state.inFlight = true ∧ (state = .pending → retry))

/-- A recorded outcome. -/
theorem finish_ends (crates : Crates) (hdb : CodexMonitor.Reachable crates db) {id text : String}
    {submissionId error : Option String} {now : Rat} {state : EventState} {retry : Prop}
    (hstate : finishState? text = some state) (hretry : state = .pending → retry) :
    CodexMonitor.Reachable crates ((finish id text submissionId error now).run db).2 ∧
      Db.Keeps (Event.Ends id retry) db ((finish id text submissionId error now).run db).2 := by
  refine ⟨Leads.step hdb (.finish id text submissionId error now),
    (finish_keeps crates hstate).mono fun e _ s hs => ?_⟩
  rcases hs with hsame | ⟨hid, hflight, hs⟩
  · exact Or.inl hsame
  · refine Or.inr ⟨hid, hflight, fun hpending => ?_⟩
    rcases hs with rfl | ⟨_, hdead⟩
    · exact hretry hpending
    · rw [hpending] at hdead
      cases hdead

/-- A job delivers the text of its event, if the envelope has one. -/
theorem deliverOne_run (c : ClaimedEvent) (probe add : Attempt) (now : Rat) :
    (c.text? crates = none ∧ ∃ error, (deliverOne crates c probe add now).run db = (.error error, db)) ∨
      ∃ text, c.text? crates = some text ∧
        (deliverOne crates c probe add now).run db =
          (match deliver crates c.endpoint c.thread c.row.clientId text probe add with
          | .ok submission => finish c.row.id "accepted" (some submission) none now
          | .error error => recordFailure c.row.id error now).run db := by
  unfold deliverOne ClaimedEvent.text? claimedEnvelope
  cases henvelope : c.envelope with
  | string text =>
      cases hparse : crates.fromStr text with
      | none =>
          simp only [hparse]
          exact Or.inl ⟨rfl, _, rfl⟩
      | some envelope =>
          simp only [hparse]
          exact Or.inr ⟨_, rfl, rfl⟩
  | null | bool | number | array | object => exact Or.inr ⟨_, rfl, rfl⟩

/-- A delivery that names a submission is recorded. -/
theorem deliverOne_delivered {c : ClaimedEvent} {text id : String} {probe add : Attempt}
    (htext : c.text? crates = some text)
    (hdeliver : deliver crates c.endpoint c.thread c.row.clientId text probe add = .ok id)
    (now : Rat) : (deliverOne crates c probe add now).run db =
      (finish c.row.id "accepted" (some id) none now).run db := by
  rcases @deliverOne_run crates db c probe add now with ⟨hnone, _⟩ | ⟨other, hother, hrun⟩
  · rw [htext] at hnone
    cases hnone
  · rw [htext] at hother
    obtain rfl := Option.some.inj hother
    rw [hrun, hdeliver]

/-- A finished job moves its own event out of flight, to pending only if its add was never handed
over or was refused. -/
theorem deliverOne_ends (hdb : CodexMonitor.Reachable crates db) (c : ClaimedEvent)
    (probe add : Attempt) (now : Rat) :
    CodexMonitor.Reachable crates ((deliverOne crates c probe add now).run db).2 ∧
      Db.Keeps
        (Event.Ends c.row.id (c.HandsOver crates probe add → add.exchange.Refused crates))
        db ((deliverOne crates c probe add now).run db).2 := by
  have hrest : ∀ retry, Db.Keeps (Event.Ends c.row.id retry) db db :=
    fun _ e he => ⟨e, he, rfl, Or.inl rfl⟩
  have hrun := @deliverOne_run crates db c probe add now
  rcases hrun with ⟨_, error, hrun⟩ | ⟨text, htext, hrun⟩
  · rw [hrun]
    exact ⟨hdb, hrest _⟩
  rw [hrun]
  -- an add that was handed over and not refused is accepted or uncertain
  have hhanded : c.HandsOver crates probe add → ¬ add.exchange.Refused crates →
      (∃ id, deliver crates c.endpoint c.thread c.row.clientId text probe add = .ok id) ∨
        ∃ message, deliver crates c.endpoint c.thread c.row.clientId text probe add =
          .error (.uncertain message) := by
    intro hover
    unfold ClaimedEvent.HandsOver at hover
    rw [htext] at hover
    exact deliver_handed hover
  cases hdeliver : deliver crates c.endpoint c.thread c.row.clientId text probe add with
  | ok submission => exact finish_ends crates hdb (rfl : finishState? "accepted" = some .accepted) nofun
  | error error =>
      rw [hdeliver] at hhanded
      have hretry : (∀ message, error ≠ .uncertain message) →
          c.HandsOver crates probe add → add.exchange.Refused crates := by
        intro hkind hover
        by_contra hrefused
        rcases hhanded hover hrefused with ⟨_, h⟩ | ⟨message, h⟩
        · cases h
        · exact hkind message (Except.error.inj h)
      cases error with
      | unavailable message =>
          simp only [recordFailure_unavailable]
          refine ⟨Leads.step hdb (.deferUnavailable _ _ now),
            (deferUnavailable_keeps crates).mono fun e _ s hs => ?_⟩
          rcases hs with hsame | ⟨hid, hstate, _⟩
          · exact Or.inl hsame
          · refine Or.inr ⟨hid, ?_, fun _ => hretry nofun⟩
            rw [hstate]
            rfl
      | permanent message =>
          simp only [recordFailure_permanent]
          exact finish_ends crates hdb (rfl : finishState? "dead" = some .dead) nofun
      | retryable message =>
          simp only [recordFailure_retryable]
          exact finish_ends crates hdb (rfl : finishState? "pending" = some .pending) fun _ => hretry nofun
      | uncertain message =>
          simp only [recordFailure_uncertain]
          exact finish_ends crates hdb (rfl : finishState? "uncertain" = some .uncertain) nofun

/-- An inspection accepts its event or leaves everything as it is. -/
theorem reconcileJob_ends (hdb : CodexMonitor.Reachable crates db) (c : ClaimedEvent)
    (probe : Attempt) (queue turns : Nat → Attempt) (inTime : Bool) (now : Rat) :
    CodexMonitor.Reachable crates
        ((reconcileJob crates c probe queue turns inTime now).run db).2 ∧
      Db.Keeps (fun e state => state = e.state ∨
          (e.id = c.row.id ∧ e.state.inFlight = true ∧ state = .accepted))
        db ((reconcileJob crates c probe queue turns inTime now).run db).2 := by
  have hrest : Db.Keeps (fun e state => state = e.state ∨
      (e.id = c.row.id ∧ e.state.inFlight = true ∧ state = .accepted)) db db :=
    fun e he => ⟨e, he, rfl, Or.inl rfl⟩
  unfold reconcileJob
  split
  · exact ⟨hdb, hrest⟩
  split
  · exact ⟨hdb, hrest⟩
  split
  · exact ⟨hdb, hrest⟩
  · refine ⟨Leads.step hdb (.finish c.row.id "accepted" _ none now),
      (finish_keeps crates (rfl : finishState? "accepted" = some .accepted)).mono fun e _ s hs => ?_⟩
    rcases hs with hsame | ⟨hid, hflight, rfl | ⟨hpending, _⟩⟩
    · exact Or.inl hsame
    · exact Or.inr ⟨hid, hflight, rfl⟩
    · cases hpending

end outcomes

/-! ## What holds of every system -/

/-- Found uncertain, and settled since at most. -/
def EventState.Seen (state : EventState) : Prop := state = .uncertain ∨ state = .accepted

/-- The invariant of the receiver and the App Server. -/
structure System.Sound (crates : Crates) (s : System) : Prop where
  /-- the store is in a reachable state -/
  stored : CodexMonitor.Reachable crates s.db
  /-- the event of a live ticket is not pending -/
  taken : ∀ t ∈ s.adds, t.Live → ∃ e ∈ s.db.events, e.clientId = t.key ∧ e.state ≠ .pending
  exclusive : Channel.Exclusive s.adds
  /-- the event of a job is being submitted -/
  submitting : ∀ job ∈ s.jobs,
    ∃ e ∈ s.db.events, e.key = job.claimed.row.key ∧ e.state = .submitting
  /-- no two jobs carry the same event -/
  distinct : (s.jobs.map fun job => job.claimed.row.id).Nodup
  /-- a live ticket of a job's event is the job's own -/
  tickets : ∀ job ∈ s.jobs, ∀ n t, s.adds[n]? = some t → t.Live →
    t.key = job.claimed.row.clientId → job.ticket = some n
  /-- the reconciler holds events that were uncertain -/
  seen : ∀ c ∈ s.rows ++ s.inspecting,
    ∃ e ∈ s.db.events, e.key = c.row.key ∧ e.state.Seen

/-- A stopped task holds nothing. -/
structure System.Orderly (s : System) : Prop where
  idle : s.dispatching = false → s.jobs = []
  still : s.reconciling = false → s.rows = [] ∧ s.inspecting = []

namespace System

variable {crates : Crates} {s t : System}

/-- The event of a job that holds no live ticket has no live ticket at all. -/
theorem Sound.quiet (h : s.Sound crates) {job : Job} (hjob : job ∈ s.jobs)
    (hdead : ∀ n ∈ job.ticket, ∀ t, s.adds[n]? = some t → ¬ t.Live) :
    Channel.Quiet s.adds job.claimed.row.clientId := by
  intro t ht hkey hlive
  obtain ⟨n, hn⟩ := List.mem_iff_getElem?.mp ht
  exact hdead n (h.tickets job hjob n t hn hlive hkey) t hn hlive

/-- The moves of the events that keep a system sound: an event with a live ticket does not become
pending, the event of a remaining job stays submitting, and an event the reconciler holds stays
uncertain or is accepted. -/
theorem Sound.move (h : s.Sound crates) {M : Event → EventState → Prop}
    (hstored : CodexMonitor.Reachable crates t.db) (hadds : t.adds = s.adds)
    (hkeeps : Db.Keeps M s.db t.db)
    (htaken : ∀ e ∈ s.db.events, ∀ state, M e state → e.state ≠ .pending → state = .pending →
      Channel.Quiet s.adds e.clientId)
    (hjobs : t.jobs.Sublist s.jobs)
    (hstay : ∀ job ∈ t.jobs, ∀ e ∈ s.db.events, e.key = job.claimed.row.key → ∀ state, M e state →
      e.state = .submitting → state = .submitting)
    (hheld : ∀ c ∈ t.rows ++ t.inspecting, c ∈ s.rows ++ s.inspecting)
    (hseen : ∀ e ∈ s.db.events, ∀ state, M e state → e.state.Seen → state.Seen) :
    t.Sound crates where
  stored := hstored
  taken := by
    intro ticket hticket hlive
    rw [hadds] at hticket
    obtain ⟨e, he, hkey, hstate⟩ := h.taken ticket hticket hlive
    obtain ⟨f, hf, hfkey, hmove⟩ := hkeeps e he
    refine ⟨f, hf, (Event.key_eq hfkey).2.2.1.trans hkey, fun hpending => ?_⟩
    exact htaken e he _ hmove hstate hpending ticket hticket hkey.symm hlive
  exclusive := by
    rw [hadds]
    exact h.exclusive
  submitting := by
    intro job hjob
    obtain ⟨e, he, hkey, hstate⟩ := h.submitting job (hjobs.subset hjob)
    obtain ⟨f, hf, hfkey, hmove⟩ := hkeeps e he
    exact ⟨f, hf, hfkey.trans hkey, hstay job hjob e he hkey _ hmove hstate⟩
  distinct := h.distinct.sublist (hjobs.map _)
  tickets := by
    intro job hjob
    rw [hadds]
    exact h.tickets job (hjobs.subset hjob)
  seen := by
    intro c hc
    obtain ⟨e, he, hkey, hstate⟩ := h.seen c (hheld c hc)
    obtain ⟨f, hf, hfkey, hmove⟩ := hkeeps e he
    exact ⟨f, hf, hfkey.trans hkey, hseen e he _ hmove hstate⟩

/-- A system that only drops jobs and inspections stays sound. -/
theorem Sound.drop (h : s.Sound crates) (hdb : t.db = s.db) (hadds : t.adds = s.adds)
    (hjobs : t.jobs.Sublist s.jobs)
    (hheld : ∀ c ∈ t.rows ++ t.inspecting, c ∈ s.rows ++ s.inspecting) : t.Sound crates := by
  refine h.move (M := fun e state => state = e.state) ?_ hadds ?_ ?_ hjobs ?_ hheld ?_
  · rw [hdb]
    exact h.stored
  · rw [hdb]
    exact fun e he => ⟨e, he, rfl, rfl⟩
  · rintro e he state rfl hne hpending
    exact absurd hpending hne
  · rintro job hjob e he hkey state rfl hstate
    exact hstate
  · rintro e he state rfl hstate
    exact hstate

/-- Events at rest keep a system sound. -/
theorem Sound.rest (h : s.Sound crates) (hstored : CodexMonitor.Reachable crates t.db)
    (hkeeps : Db.Keeps Event.Rests s.db t.db) (hadds : t.adds = s.adds) (hjobs : t.jobs = s.jobs)
    (hrows : t.rows = s.rows) (hinspecting : t.inspecting = s.inspecting) : t.Sound crates := by
  refine h.move hstored hadds hkeeps ?_ (hjobs ▸ List.Sublist.refl _) ?_ ?_ ?_
  · rintro e he state (rfl | ⟨hpending, _⟩) hne hstate
    · exact absurd hstate hne
    · exact absurd hpending hne
  · rintro job hjob e he hkey state (rfl | ⟨hpending, _⟩) hstate
    · exact hstate
    · rw [hstate] at hpending
      cases hpending
  · rw [hrows, hinspecting]
    exact fun c hc => hc
  · rintro e he state (rfl | ⟨hpending, _⟩) hstate
    · exact hstate
    · rcases hstate with h | h <;> rw [h] at hpending <;> cases hpending

/-! ## Claims -/

/-- A job for an event that no job and no live ticket carries. -/
theorem Sound.addJob (h : s.Sound crates) {c : ClaimedEvent}
    (hrow : ∃ e ∈ s.db.events, e.key = c.row.key ∧ e.state = .submitting)
    (hnew : ∀ job ∈ s.jobs, job.claimed.row.id ≠ c.row.id)
    (hquiet : Channel.Quiet s.adds c.row.clientId) :
    ({ s with jobs := s.jobs ++ [⟨c, none⟩] } : System).Sound crates where
  stored := h.stored
  taken := h.taken
  exclusive := h.exclusive
  submitting := by
    intro job hjob
    rcases List.mem_append.mp hjob with hjob | hjob
    · exact h.submitting job hjob
    · obtain rfl := List.mem_singleton.mp hjob
      exact hrow
  distinct := by
    rw [List.map_append, List.map_singleton, List.nodup_append]
    refine ⟨h.distinct, List.nodup_singleton _, ?_⟩
    intro id hid id' hid'
    obtain ⟨job, hjob, rfl⟩ := List.mem_map.mp hid
    obtain rfl := List.mem_singleton.mp hid'
    exact hnew job hjob
  tickets := by
    intro job hjob n t ht hlive hkey
    rcases List.mem_append.mp hjob with hjob | hjob
    · exact h.tickets job hjob n t ht hlive hkey
    · obtain rfl := List.mem_singleton.mp hjob
      exact absurd hlive (hquiet t (List.mem_of_getElem? ht) hkey)
  seen := h.seen

/-- A claimed event was pending: no job carries it, and no live ticket. -/
theorem Sound.claimed (h : s.Sound crates) {clock : Nat → Rat} {c : ClaimedEvent} {db : Db}
    (hclaim : (claim crates clock).run s.db = (.ok (some c), db)) :
    ({ s with db := db, jobs := s.jobs ++ [⟨c, none⟩] } : System).Sound crates := by
  obtain ⟨⟨e, he, hkey, hpending⟩, hkeeps⟩ := claim_some_keeps hclaim
  have hstored : CodexMonitor.Reachable crates db := by
    rw [← step_claim hclaim]
    exact Leads.step h.stored _
  have hmoved : ({ s with db := db } : System).Sound crates := by
    refine h.move hstored rfl hkeeps ?_ (List.Sublist.refl _) ?_ (fun c hc => hc) ?_
    · rintro f hf state ((rfl | ⟨hp, _⟩) | ⟨_, hp, _⟩) hne hstate
      · exact absurd hstate hne
      · exact absurd hp hne
      · exact absurd hp hne
    · rintro job hjob f hf hfkey state ((rfl | ⟨hp, _⟩) | ⟨_, hp, hstate⟩) hsubmitting
      · exact hsubmitting
      · rw [hsubmitting] at hp
        cases hp
      · exact hstate
    · rintro f hf state ((rfl | ⟨hp, _⟩) | ⟨_, hp, _⟩) hseen
      · exact hseen
      · rcases hseen with h | h <;> rw [h] at hp <;> cases hp
      · rcases hseen with h | h <;> rw [h] at hp <;> cases hp
  refine hmoved.addJob ?_ ?_ ?_
  · obtain ⟨hrow, hsubmitting, _⟩ := claimed_row hclaim
    exact ⟨c.row, hrow, rfl, hsubmitting⟩
  · intro job hjob hid
    obtain ⟨f, hf, hfkey, hsubmitting⟩ := h.submitting job hjob
    have hsame : f = e := by
      refine Event.eq_of_id hf he ?_
      rw [(Event.key_eq hfkey).2.1, hid, (Event.key_eq hkey).2.1]
    rw [hsame, hpending] at hsubmitting
    cases hsubmitting
  · intro t ht htkey hlive
    obtain ⟨f, hf, hfkey, hne⟩ := h.taken t ht hlive
    have hsame : f = e := by
      refine Event.eq_of_clientId hf he ?_
      rw [hfkey, htkey, (Event.key_eq hkey).2.2.1]
    rw [hsame] at hne
    exact hne hpending

/-! ## Hand-overs and decisions -/

/-- Two jobs at different places carry different events. -/
theorem Sound.jobs_differ (h : s.Sound crates) {i j : Nat} {a b : Job} (ha : s.jobs[i]? = some a)
    (hb : s.jobs[j]? = some b) (hij : i ≠ j) : a.claimed.row.id ≠ b.claimed.row.id := by
  intro hid
  have hi : (s.jobs.map fun job => job.claimed.row.id)[i]? = some a.claimed.row.id := by
    rw [List.getElem?_map, ha]
    rfl
  have hj : (s.jobs.map fun job => job.claimed.row.id)[j]? = some a.claimed.row.id := by
    rw [List.getElem?_map, hb, hid]
    rfl
  obtain ⟨hlt, _⟩ := List.getElem?_eq_some_iff.mp hi
  exact hij ((List.getElem?_inj hlt h.distinct).mp (hi.trans hj.symm))

/-- The write of a job's add gives the job its ticket; no other of the event is live. -/
theorem Sound.handOver (h : s.Sound crates) {i : Nat} {c : ClaimedEvent}
    (hi : s.jobs[i]? = some ⟨c, none⟩) :
    ({ s with
      jobs := s.jobs.set i ⟨c, some s.adds.length⟩
      adds := Channel.send s.adds c.row.clientId } : System).Sound crates := by
  have hjob : (⟨c, none⟩ : Job) ∈ s.jobs := List.mem_of_getElem? hi
  have hquiet : Channel.Quiet s.adds c.row.clientId := h.quiet hjob nofun
  obtain ⟨e, he, hkey, hsubmitting⟩ := h.submitting _ hjob
  obtain ⟨hlt, hget⟩ := List.getElem?_eq_some_iff.mp hi
  -- the events of the jobs stay the same
  have hids : (s.jobs.set i ⟨c, some s.adds.length⟩).map (fun job => job.claimed.row.id) =
      s.jobs.map fun job => job.claimed.row.id := by
    rw [List.map_set]
    refine List.ext_getElem? fun j => ?_
    rw [List.getElem?_set]
    split
    · rename_i hij
      subst hij
      simp [hlt, hget]
    · rfl
  refine ⟨h.stored, ?_, h.exclusive.send hquiet, ?_, ?_, ?_, h.seen⟩
  · intro t ht hlive
    rcases Channel.mem_send.mp ht with ht | rfl
    · exact h.taken t ht hlive
    · refine ⟨e, he, (Event.key_eq hkey).2.2.1, ?_⟩
      rw [hsubmitting]
      decide
  · intro job hjob'
    rcases List.mem_or_eq_of_mem_set hjob' with hjob' | rfl
    · exact h.submitting job hjob'
    · exact ⟨e, he, hkey, hsubmitting⟩
  · rw [hids]
    exact h.distinct
  · intro job hjob' n t ht hlive htkey
    obtain ⟨j, hj⟩ := List.mem_iff_getElem?.mp hjob'
    rw [List.getElem?_set] at hj
    split at hj
    · rename_i hij
      cases hj
      rcases Channel.getElem?_send.mp ht with hold | ⟨rfl, _⟩
      · exact absurd hlive (hquiet t (List.mem_of_getElem? hold) htkey)
      · rfl
    · rename_i hij
      rcases Channel.getElem?_send.mp ht with hold | ⟨_, rfl⟩
      · exact h.tickets job (List.mem_of_getElem? hj) n t hold hlive htkey
      · -- another job of the same client id is a job of the same event
        obtain ⟨f, hf, hfkey, _⟩ := h.submitting job (List.mem_of_getElem? hj)
        have hsame : f = e := by
          refine Event.eq_of_clientId hf he ?_
          rw [(Event.key_eq hfkey).2.2.1, ← htkey, (Event.key_eq hkey).2.2.1]
        have hid : job.claimed.row.id = c.row.id := by
          rw [← (Event.key_eq hfkey).2.1, hsame, (Event.key_eq hkey).2.1]
        exact absurd hid (h.jobs_differ hj hi (Ne.symm hij))

/-- Whatever the server decides, and whenever it does. -/
theorem Sound.decide (h : s.Sound crates) (n : Nat) (fate : Channel.Fate) :
    ({ s with adds := Channel.resolve s.adds n fate } : System).Sound crates where
  stored := h.stored
  taken := by
    intro t ht hlive
    obtain ⟨m, hm⟩ := List.mem_iff_getElem?.mp ht
    obtain ⟨old, hold, hkey, hlive'⟩ := Channel.live_of_resolve hm hlive
    rw [← hkey]
    exact h.taken old (List.mem_of_getElem? hold) hlive'
  exclusive := h.exclusive.resolve n fate
  submitting := h.submitting
  distinct := h.distinct
  tickets := by
    intro job hjob m t ht hlive hkey
    obtain ⟨old, hold, hkey', hlive'⟩ := Channel.live_of_resolve ht hlive
    exact h.tickets job hjob m old hold hlive' (hkey'.trans hkey)
  seen := h.seen

/-! ## Outcomes -/

/-- The event of a job, found by its id. -/
theorem Sound.job_event (h : s.Sound crates) {job : Job} (hjob : job ∈ s.jobs) {e : Event}
    (he : e ∈ s.db.events) (hid : e.id = job.claimed.row.id) :
    e.state = .submitting ∧ e.clientId = job.claimed.row.clientId := by
  obtain ⟨f, hf, hkey, hstate⟩ := h.submitting job hjob
  obtain rfl := Event.eq_of_id he hf (hid.trans (Event.key_eq hkey).2.1.symm)
  exact ⟨hstate, (Event.key_eq hkey).2.2.1⟩

/-- A job ends, whatever came of its attempts; a failure of the store ends the dispatcher. -/
theorem Sound.complete (h : s.Sound crates) {i : Nat} {job : Job} (hi : s.jobs[i]? = some job)
    {probe add : Attempt} (hfits : job.Fits crates s.adds probe add) (now : Rat)
    (hdb : t.db = ((deliverOne crates job.claimed probe add now).run s.db).2)
    (hadds : t.adds = s.adds) (hjobs : t.jobs.Sublist (s.jobs.eraseIdx i))
    (hrows : t.rows = s.rows) (hinspecting : t.inspecting = s.inspecting) : t.Sound crates := by
  obtain ⟨hstored, hkeeps⟩ := deliverOne_ends h.stored job.claimed probe add now
  have hjob : job ∈ s.jobs := List.mem_of_getElem? hi
  rw [← hdb] at hstored hkeeps
  refine h.move hstored hadds hkeeps ?_ (hjobs.trans (List.eraseIdx_sublist _ _)) ?_ ?_ ?_
  · rintro e he state (rfl | ⟨hid, _, hretry⟩) hne hpending
    · exact absurd hpending hne
    · rw [(h.job_event hjob he hid).2]
      refine h.quiet hjob fun n hn ticket hticket => ?_
      -- a job with a ticket handed its add over, so its retry was a refusal
      have hover : job.claimed.HandsOver crates probe add := by
        refine hfits.1.mpr ?_
        rw [hn]
        rfl
      have hfate := hfits.2 (hretry hpending hover) n hn
      rw [hticket] at hfate
      exact not_not.mpr (Option.some.inj hfate)
  · rintro other hother e he hkey state (rfl | ⟨hid, _, _⟩) hstate
    · exact hstate
    · obtain ⟨j, hne, hj⟩ := List.mem_eraseIdx_iff_getElem?.mp (hjobs.subset hother)
      exact absurd ((Event.key_eq hkey).2.1.symm.trans hid) (h.jobs_differ hj hi hne)
  · rw [hrows, hinspecting]
    exact fun c hc => hc
  · rintro e he state (rfl | ⟨hid, _, _⟩) hseen
    · exact hseen
    · have hstate := (h.job_event hjob he hid).1
      rcases hseen with h | h <;> rw [h] at hstate <;> cases hstate

/-- An inspection ends, whatever it found. -/
theorem Sound.inspected (h : s.Sound crates) {c : ClaimedEvent} (hc : c ∈ s.inspecting)
    (probe : Attempt) (queue turns : Nat → Attempt) (inTime : Bool) (now : Rat)
    (hdb : t.db = ((reconcileJob crates c probe queue turns inTime now).run s.db).2)
    (hadds : t.adds = s.adds) (hjobs : t.jobs = s.jobs)
    (hheld : ∀ c ∈ t.rows ++ t.inspecting, c ∈ s.rows ++ s.inspecting) : t.Sound crates := by
  obtain ⟨hstored, hkeeps⟩ := reconcileJob_ends h.stored c probe queue turns inTime now
  rw [← hdb] at hstored hkeeps
  refine h.move hstored hadds hkeeps ?_ (hjobs ▸ List.Sublist.refl _) ?_ hheld ?_
  · rintro e he state (rfl | ⟨_, _, rfl⟩) hne hpending
    · exact absurd hpending hne
    · cases hpending
  · rintro job hjob e he hkey state (rfl | ⟨hid, _, _⟩) hstate
    · exact hstate
    · -- the event inspected is not one that is being submitted
      obtain ⟨f, hf, hfkey, hseen⟩ := h.seen c (List.mem_append.mpr (Or.inr hc))
      obtain rfl := Event.eq_of_id he hf (hid.trans (Event.key_eq hfkey).2.1.symm)
      rcases hseen with h | h <;> rw [h] at hstate <;> cases hstate
  · rintro e he state (rfl | ⟨_, _, rfl⟩) hseen
    · exact hseen
    · exact Or.inr rfl

/-! ## The reconciler's rows -/

theorem mem_of_mapM_ok {ε α β : Type} {f : α → Except ε β} {l : List α} {bs : List β}
    (h : l.mapM f = .ok bs) : ∀ b ∈ bs, ∃ a ∈ l, f a = .ok b := by
  induction l generalizing bs with
  | nil =>
      rw [List.mapM_nil] at h
      cases h
      simp
  | cons a l ih =>
      rw [List.mapM_cons] at h
      obtain ⟨b, hb, h⟩ := bind_ok.mp h
      obtain ⟨bs', hbs, h⟩ := bind_ok.mp h
      cases h
      intro c hc
      rcases List.mem_cons.mp hc with rfl | hc
      · exact ⟨a, List.mem_cons_self, hb⟩
      · obtain ⟨a', ha', hf⟩ := ih hbs c hc
        exact ⟨a', List.mem_cons_of_mem _ ha', hf⟩

/-- The rows read are uncertain events. -/
theorem Sound.scanned (h : s.Sound crates) {rows : List ClaimedEvent} {db : Db}
    (hscan : (uncertainEvents crates).run s.db = (.ok rows, db)) (hempty : s.inspecting = []) :
    ({ s with db := db, rows := rows } : System).Sound crates := by
  simp only [uncertainEvents, Tx.bind_ok, Tx.query_ok, Tx.ofExcept_ok] at hscan
  obtain ⟨_, _, ⟨rfl, rfl⟩, hrows, rfl⟩ := hscan
  refine ⟨h.stored, h.taken, h.exclusive, h.submitting, h.distinct, h.tickets, fun c hc => ?_⟩
  rw [hempty, List.append_nil] at hc
  obtain ⟨e, he, hclaimed⟩ := mem_of_mapM_ok hrows c hc
  obtain ⟨he, hstate, _⟩ := Table.mem_select.mp he
  exact ⟨e, he, (claimedEvent_of hclaimed).key_eq.symm, Or.inl hstate⟩

/-! ## Steps and runs -/

theorem Orderly.step (h : s.Orderly) {action : Action} (hstep : s.step crates action = some t) :
    t.Orderly := by
  cases action with
  | call op =>
      simp only [System.step] at hstep
      split at hstep
      · cases hstep
      · cases hstep
        exact ⟨h.idle, h.still⟩
  | start nextAt now =>
      simp only [System.step] at hstep
      split at hstep
      · cases hstep
      · cases hstep
        exact ⟨Bool.noConfusion, Bool.noConfusion⟩
  | stop =>
      cases hstep
      exact ⟨fun _ => rfl, fun _ => ⟨rfl, rfl⟩⟩
  | claim clock =>
      simp only [System.step] at hstep
      split at hstep
      · rename_i hroom
        split at hstep
        · cases hstep
          exact ⟨fun hidle => Bool.noConfusion (hroom.1.symm.trans hidle), h.still⟩
        · cases hstep
          exact ⟨h.idle, h.still⟩
        · cases hstep
          exact ⟨fun _ => rfl, h.still⟩
      · cases hstep
  | handOver i =>
      simp only [System.step] at hstep
      split at hstep
      · rename_i hi
        cases hstep
        refine ⟨fun hidle => ?_, h.still⟩
        have hnone := h.idle hidle
        simp [hnone] at hi
      · cases hstep
  | decide n fate =>
      cases hstep
      exact ⟨h.idle, h.still⟩
  | complete i probe add now =>
      simp only [System.step] at hstep
      split at hstep
      · cases hstep
      split at hstep
      · split at hstep
        · cases hstep
          exact ⟨fun hidle => by simp [h.idle hidle], h.still⟩
        · cases hstep
          exact ⟨fun _ => rfl, h.still⟩
      · cases hstep
  | abort i =>
      cases hstep
      exact ⟨fun hidle => by simp [h.idle hidle], h.still⟩
  | scan =>
      simp only [System.step] at hstep
      split at hstep
      · rename_i hready
        split at hstep
        · cases hstep
          exact ⟨h.idle, fun hstill => Bool.noConfusion (hready.1.symm.trans hstill)⟩
        · cases hstep
          exact ⟨h.idle, fun _ => ⟨rfl, rfl⟩⟩
      · cases hstep
  | batch =>
      simp only [System.step] at hstep
      split at hstep
      · cases hstep
        exact ⟨h.idle, fun hstill => by simp [h.still hstill]⟩
      · cases hstep
  | inspected i probe queue turns inTime now =>
      simp only [System.step] at hstep
      split at hstep
      · cases hstep
      split at hstep
      · cases hstep
        exact ⟨h.idle, fun hstill => by simp [h.still hstill]⟩
      · cases hstep
        exact ⟨h.idle, fun _ => ⟨rfl, rfl⟩⟩
  | abandon i =>
      cases hstep
      exact ⟨h.idle, fun hstill => by simp [h.still hstill]⟩

theorem Sound.step (h : s.Sound crates) (horderly : s.Orderly) {action : Action}
    (hstep : s.step crates action = some t) : t.Sound crates := by
  cases action with
  | call op =>
      simp only [System.step] at hstep
      split at hstep
      · cases hstep
      · rename_i hop
        cases hstep
        exact h.rest (Leads.step h.stored op) (op.rests crates (Bool.not_eq_true _ ▸ hop) s.db)
          rfl rfl rfl rfl
  | start nextAt now =>
      simp only [System.step] at hstep
      split at hstep
      · cases hstep
      · rename_i hstopped
        cases hstep
        have hidle : s.jobs = [] := horderly.idle (by simp_all)
        refine h.move (Leads.step h.stored (.recoverSubmitting nextAt now)) rfl
          (recoverSubmitting_keeps crates s.db) ?_ (List.Sublist.refl _) ?_ (fun c hc => hc) ?_
        · rintro e he state (rfl | ⟨_, rfl⟩) hne hpending
          · exact absurd hpending hne
          · cases hpending
        · intro job hjob
          rw [hidle] at hjob
          cases hjob
        · rintro e he state (rfl | ⟨_, rfl⟩) hseen
          · exact hseen
          · exact Or.inl rfl
  | stop =>
      cases hstep
      exact h.drop rfl rfl (List.nil_sublist _) (fun c hc => by cases hc)
  | claim clock =>
      simp only [System.step] at hstep
      split at hstep
      · split at hstep
        · rename_i hclaim
          cases hstep
          exact h.claimed hclaim
        · rename_i hclaim
          cases hstep
          have hstored : CodexMonitor.Reachable crates _ := Leads.step h.stored (.claim clock)
          rw [step_claim hclaim] at hstored
          exact h.rest hstored (claim_none_rests hclaim) rfl rfl rfl rfl
        · rename_i hclaim
          cases hstep
          have hsame := harmless_withTx _ s.db _ (congrArg Prod.fst hclaim)
          exact h.drop ((congrArg Prod.snd hclaim).symm.trans hsame) rfl (List.nil_sublist _)
            fun c hc => hc
      · cases hstep
  | handOver i =>
      simp only [System.step] at hstep
      split at hstep
      · rename_i hi
        cases hstep
        exact h.handOver hi
      · cases hstep
  | decide n fate =>
      cases hstep
      exact h.decide n fate
  | complete i probe add now =>
      simp only [System.step] at hstep
      split at hstep
      · cases hstep
      rename_i hi
      split at hstep
      · rename_i hfits
        split at hstep
        · rename_i hrun
          cases hstep
          exact h.complete hi hfits now (congrArg Prod.snd hrun).symm rfl (List.Sublist.refl _)
            rfl rfl
        · rename_i hrun
          cases hstep
          exact h.complete hi hfits now (congrArg Prod.snd hrun).symm rfl (List.nil_sublist _)
            rfl rfl
      · cases hstep
  | abort i =>
      cases hstep
      exact h.drop rfl rfl (List.eraseIdx_sublist _ _) fun c hc => hc
  | scan =>
      simp only [System.step] at hstep
      split at hstep
      · rename_i hready
        split at hstep
        · rename_i hscan
          cases hstep
          exact h.scanned hscan hready.2.2
        · rename_i hscan
          cases hstep
          have hreads : Tx.ReadOnly (uncertainEvents crates) :=
            Tx.ReadOnly.bind (Tx.readOnly_query _) fun _ => Tx.readOnly_ofExcept _
          have hsame := hreads s.db
          rw [hscan] at hsame
          exact h.drop hsame rfl (List.Sublist.refl _) (fun c hc => by cases hc)
      · cases hstep
  | batch =>
      simp only [System.step] at hstep
      split at hstep
      · cases hstep
        refine h.drop rfl rfl (List.Sublist.refl _) fun c hc => ?_
        rcases List.mem_append.mp hc with hc | hc
        · exact List.mem_append.mpr (Or.inl (List.mem_of_mem_drop hc))
        · exact List.mem_append.mpr (Or.inl (List.mem_of_mem_take hc))
      · cases hstep
  | inspected i probe queue turns inTime now =>
      simp only [System.step] at hstep
      split at hstep
      · cases hstep
      rename_i hi
      have hc := List.mem_of_getElem? hi
      split at hstep
      · rename_i hrun
        cases hstep
        refine h.inspected hc probe queue turns inTime now (congrArg Prod.snd hrun).symm rfl rfl
          fun c hc => ?_
        rcases List.mem_append.mp hc with hc | hc
        · exact List.mem_append.mpr (Or.inl hc)
        · exact List.mem_append.mpr (Or.inr (List.mem_of_mem_eraseIdx hc))
      · rename_i hrun
        cases hstep
        exact h.inspected hc probe queue turns inTime now (congrArg Prod.snd hrun).symm rfl rfl
          (fun c hc => by cases hc)
  | abandon i =>
      cases hstep
      refine h.drop rfl rfl (List.Sublist.refl _) fun c hc => ?_
      rcases List.mem_append.mp hc with hc | hc
      · exact List.mem_append.mpr (Or.inl hc)
      · exact List.mem_append.mpr (Or.inr (List.mem_of_mem_eraseIdx hc))

theorem Sound.initial : System.initial.Sound crates where
  stored := .refl
  taken := fun _ ht => absurd ht List.not_mem_nil
  exclusive := List.Pairwise.nil
  submitting := fun _ hjob => absurd hjob List.not_mem_nil
  distinct := List.nodup_nil
  tickets := fun _ hjob => absurd hjob List.not_mem_nil
  seen := fun _ hc => absurd hc List.not_mem_nil

/-- Every run of the receiver is sound. -/
theorem Leads.sound (h : System.Leads crates s t) (hs : s.Sound crates ∧ s.Orderly) :
    t.Sound crates ∧ t.Orderly :=
  h.invariant (P := fun s => s.Sound crates ∧ s.Orderly)
    (fun _ _ _ hs hstep => ⟨hs.1.step hs.2 hstep, hs.2.step hstep⟩) hs

theorem Reachable.sound (h : System.Reachable crates s) : s.Sound crates ∧ s.Orderly :=
  Leads.sound h ⟨Sound.initial, ⟨fun _ => rfl, fun _ => ⟨rfl, rfl⟩⟩⟩

/-- An accepted add stays accepted. -/
theorem accepted_stays {ticket : Channel.Ticket String} (hfate : ticket.fate = .accepted)
    (h : System.Leads crates s t) (hs : ticket ∈ s.adds) : ticket ∈ t.adds := by
  refine h.invariant (P := fun s => ticket ∈ s.adds) ?_ hs
  intro s action t hs hstep
  cases action with
  | decide n fate =>
      cases hstep
      exact Channel.resolve_accepted hs hfate
  | handOver i =>
      simp only [System.step] at hstep
      split at hstep
      · cases hstep
        exact Channel.mem_send.mpr (Or.inl hs)
      · cases hstep
  | _ =>
      simp only [System.step] at hstep
      grind [System.endDispatch, System.endReconcile]

/-! ## At most once -/

/-- The server accepts at most one add of the event; while an add of it may be accepted, no claim
can select it, and once one is, no claim ever can. -/
structure AtMostOnce (crates : Crates) (s : System) (e : Event) : Prop where
  once : (s.adds.filter fun t => t.key = e.clientId ∧ t.fate = .accepted).length ≤ 1
  guarded : ∀ t ∈ s.adds, t.key = e.clientId → t.Live → ∀ now, ¬ s.db.Claimable now e
  forever : ∀ t ∈ s.adds, t.key = e.clientId → t.fate = .accepted →
    ∀ s', System.Leads crates s s' → ∀ f ∈ s'.db.events, f.clientId = e.clientId →
      ∀ now, ¬ s'.db.Claimable now f

/-- A live ticket keeps its event from every claim. -/
theorem Sound.guarded (h : s.Sound crates) {e : Event} (he : e ∈ s.db.events)
    {ticket : Channel.Ticket String} (hticket : ticket ∈ s.adds) (hkey : ticket.key = e.clientId)
    (hlive : ticket.Live) (now : Rat) : ¬ s.db.Claimable now e := by
  intro hclaimable
  obtain ⟨f, hf, hfkey, hne⟩ := h.taken ticket hticket hlive
  obtain rfl := Event.eq_of_clientId hf he (hfkey.trans hkey)
  exact hne hclaimable.1

/-- **At most once.**  In every reachable system every stored event is submitted at most once,
whatever the tasks, the operator and the server do, and wherever jobs, inspections and the receiver
are cut off. -/
theorem submitted_at_most_once (h : System.Reachable crates s) :
    ∀ e ∈ s.db.events, s.AtMostOnce crates e := by
  intro e he
  refine ⟨h.sound.1.exclusive.accepted_le_one e.clientId,
    fun ticket hticket hkey hlive => h.sound.1.guarded he hticket hkey hlive, ?_⟩
  intro ticket hticket hkey hfate s' hleads f hf hfkey
  have hsound : s'.Sound crates := (Leads.sound hleads h.sound).1
  refine hsound.guarded hf (accepted_stays hfate hleads hticket) (hkey.trans hfkey.symm) ?_
  unfold Channel.Ticket.Live
  rw [hfate]
  exact Channel.Fate.noConfusion

end System

/-- A build server's event is stored, claimed, handed over, accepted and recorded. -/
def deliveredActions : List Action :=
  [.call (.bind "deploy" "conversation-1" "shared-local" ["ci"]),
    .call (.ingest "deploy" (sampleEnvelope "build-1") (sampleUuid 1) 10),
    .start 10 10, .claim (fun _ => 11), .handOver 0, .decide 0 .accepted,
    .complete 0 (answeredCall 1 emptyQueue) (answeredCall 2 (addAnswer "submission-1")) 12]

def deliveredEvent : Event :=
  { submittedEvent with state := .accepted, updated := 12, submissionId := some "submission-1" }

/-- The delivered event was accepted once, and no claim can ever select it again. -/
theorem System.submitted_at_most_once_sample :
    ∃ s, System.after? answerCrates deliveredActions = some s ∧
      s.adds = [⟨deliveredEvent.clientId, .accepted⟩] ∧ deliveredEvent ∈ s.db.events ∧
      s.AtMostOnce answerCrates deliveredEvent := by
  -- the run up to the end of the job, and what the store makes of the server's answer there
  have hfront : (System.after? answerCrates deliveredActions.dropLast).map (fun s =>
      s.jobs.map fun job =>
        (job.ticket, job.claimed.row, job.claimed.thread, job.claimed.endpoint)) =
      some [(some 0, submittedEvent, "conversation-1", "shared-local")] := by
    decide +kernel
  have hsmall : (System.after? answerCrates deliveredActions.dropLast).map (fun s =>
      s.jobs.map fun job => (job.claimed.text? answerCrates).map fun text =>
        decide (text.utf8ByteSize ≤ 1000)) = some [some true] := by
    decide +kernel
  have hend : (System.after? answerCrates deliveredActions.dropLast).map (fun s =>
      let run := (finish submittedEvent.id "accepted" (some "submission-1") none 12).run s.db
      (s.adds, run.1.isOk, run.2.events.rows)) =
      some ([⟨deliveredEvent.clientId, .accepted⟩], true, [deliveredEvent]) := by
    decide +kernel
  obtain ⟨front, hreached, hjobs⟩ := Option.map_eq_some_iff.mp hfront
  obtain ⟨⟨claimed, ticket⟩, hjob, hclaimed⟩ := List.map_eq_singleton_iff.mp hjobs
  simp only [Prod.mk.injEq] at hclaimed
  obtain ⟨rfl, hrow, hthread, hendpoint⟩ := hclaimed
  rw [hreached, Option.map_some] at hsmall hend
  rw [hjob] at hsmall
  simp only [Option.some.injEq, List.map_cons, List.map_nil, List.cons.injEq, and_true,
    Prod.mk.injEq] at hsmall hend
  obtain ⟨text, htext, hsmall⟩ := Option.map_eq_some_iff.mp hsmall
  obtain ⟨hadds, hfinish, hrows⟩ := hend
  obtain ⟨u, hfinish⟩ := isOk_iff.mp hfinish
  -- the server's answer to this text
  have hnames : NamesSubmission answerCrates claimed.endpoint claimed.thread claimed.row.clientId text
      (answeredCall 1 emptyQueue) (answeredCall 2 (addAnswer "submission-1")) "submission-1" := by
    rw [hendpoint, hthread, hrow]
    exact namesSubmission_text (of_decide_eq_true hsmall) (by decide +kernel)
  have hrun := @deliverOne_delivered answerCrates front.db claimed text "submission-1" _ _ htext
    (deliver_ok.mpr hnames) 12
  obtain ⟨hprobe, result, hanswered, _⟩ := hnames
  have hfits : Job.Fits answerCrates ⟨claimed, some 0⟩ front.adds (answeredCall 1 emptyQueue)
      (answeredCall 2 (addAnswer "submission-1")) := by
    have hover : claimed.HandsOver answerCrates (answeredCall 1 emptyQueue)
        (answeredCall 2 (addAnswer "submission-1")) := by
      unfold ClaimedEvent.HandsOver
      rw [htext]
      exact ⟨hprobe, hanswered.started⟩
    have hrefused : ¬ (answeredCall 2 (addAnswer "submission-1")).exchange.Refused answerCrates := by
      decide +kernel
    exact ⟨⟨fun _ => rfl, fun _ => hover⟩, fun h => absurd h hrefused⟩
  rw [hrow, ← Prod.mk.eta (p := (finish submittedEvent.id "accepted" (some "submission-1") none
    12).run front.db), hfinish] at hrun
  have hstep := System.step_complete (i := 0) (by rw [hjob]; rfl) hfits hrun
  have hreached := System.after_concat hreached hstep
  have hmem : deliveredEvent ∈ ((finish submittedEvent.id "accepted" (some "submission-1") none
      12).run front.db).2.events := by
    rw [Table.mem_def, hrows]
    exact List.mem_singleton_self _
  exact ⟨_, hreached, hadds, hmem,
    System.submitted_at_most_once (System.reachable_after hreached) deliveredEvent hmem⟩

end CodexMonitor
