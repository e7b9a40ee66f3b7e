import CodexMonitor.Collector.Candidates
import CodexMonitor.Lib.History
import Mathlib.Tactic.Linarith

/-!
# The debounce window

A changed value is reported once it was observed for as long as the debounce asks, by
every attempt in between.  The candidate of a runtime stands for such a window: an
attempt began it at `firstSeen`, and every attempt since observed its value in its
epoch.

An attempt that fails leaves the candidate as it is, so the window goes on over a time
in which nothing was observed.  Windows are sound in the runs in which an attempt
fails only while there is no candidate.
-/

namespace CodexMonitor.Collector

open History

/-! ## Windows -/

/-- An attempt on the watch observed `v` in the epoch; other entries do not matter. -/
def Note.Observes (id : String) (epoch : Int) (v : Value) : Note → Prop
  | .attempted id' _ epoch' observed =>
      id' = id → epoch' = epoch ∧ observed.any (Value.eq v) = true
  | _ => True

/-- An attempt on the watch that was dispatched by `limit`. -/
def Note.AttemptedBy (id : String) (limit : Rat) : Note → Prop
  | .attempted id' now _ _ => id' = id ∧ now ≤ limit
  | _ => False

instance (id : String) (epoch : Int) (v : Value) : DecidablePred (Note.Observes id epoch v) :=
  fun note => by
    unfold Note.Observes
    split <;> infer_instance

instance (id : String) (limit : Rat) : DecidablePred (Note.AttemptedBy id limit) :=
  fun note => by
    unfold Note.AttemptedBy
    split <;> infer_instance

/-- Every attempt on the watch observed `v` in the epoch, since one that was dispatched by
`limit`. -/
def Stable (id : String) (epoch : Int) (v : Value) (limit : Rat) : List Note → Prop :=
  Since (Note.AttemptedBy id limit) (Note.Observes id epoch v)

/-- A change that is committed was stable for as long as the debounce asks. -/
def Note.Debounced (past : List Note) : Note → Prop
  | .committed w now _ (some change) _ =>
      0 < w.debounce → Stable w.id w.epoch change.current (now - w.debounce) past
  | _ => True

instance (past : List Note) (note : Note) : Decidable (note.Debounced past) := by
  unfold Note.Debounced Stable
  split <;> infer_instance

/-! ## Candidates stand for windows -/

/-- The window of a candidate. -/
def Candidate.Window (id : String) (c : Candidate) (notes : List Note) : Prop :=
  Stable id c.epoch c.sample c.firstSeen notes

/-- The candidates of idle watches and of jobs stand for windows, and a runtime whose job will be
dropped has no candidate. -/
structure Loop.Timed (l : Loop) : Prop where
  record : ∀ id r c, l.runtimes.get id = some r → r.candidate = some c → id ∉ l.inFlight →
    c.Window id l.notes
  dropped : ∀ task job r, l.jobs.get task = some job → l.runtimes.get job.id = some r →
    r.candidate ≠ none → r.epoch = job.runtime.epoch
  job : ∀ task job c, l.jobs.get task = some job → job.runtime.candidate = some c →
    c.Window job.id l.notes
  ripe : ∀ task job v change after w, l.jobs.get task = some job →
    job.stage = .committing v (some change) after → job.runtime.watch = some w → 0 < w.debounce →
      Stable job.id w.epoch change.current (job.now - w.debounce) l.notes
  debounced : Always Note.Debounced l.notes

section pieces

variable {l l' : Loop} {listed : Watch → Prop} {os : Native} {now : Rat} {id : String}
  {note : Note} {notes : List Note}

theorem Note.Idle.observes (h : note.Idle) (epoch : Int) (v : Value) :
    note.Observes id epoch v := by
  cases note with
  | attempted => exact h.elim
  | _ => trivial

theorem Note.Idle.debounced (h : note.Idle) (past : List Note) : note.Debounced past := by
  cases note with
  | committed => exact h.elim
  | _ => trivial

theorem timed_new (h : Always Note.Debounced notes) : (Loop.new notes).Timed := by
  have hidle : ∀ task job, (Loop.new notes).jobs.get task ≠ some job := by
    intro task job h
    have h : (∅ : Dict Nat Job).get task = some job := h
    rw [Dict.get_empty] at h
    cases h
  refine ⟨?_, fun task job _ hjob => absurd hjob (hidle task job),
    fun task job _ hjob => absurd hjob (hidle task job),
    fun task job _ _ _ _ hjob => absurd hjob (hidle task job), h⟩
  intro id r c hr
  have hr : (∅ : Dict String Runtime).get id = some r := hr
  rw [Dict.get_empty] at hr
  cases hr

/-- Runtimes may change as long as their candidates are kept in their epoch. -/
theorem Loop.Timed.runtimes (h : l.Timed) (notes : List Note)
    (hkept : ∀ id r', l'.runtimes.get id = some r' → r'.candidate ≠ none →
      ∃ r, l.runtimes.get id = some r ∧ r.candidate = r'.candidate ∧ r.epoch = r'.epoch)
    (hjobs : l'.jobs = l.jobs) (hinFlight : l'.inFlight = l.inFlight)
    (hnotes : l'.notes = l.notes ++ notes) (hidle : ∀ note ∈ notes, note.Idle) : l'.Timed := by
  have hstable : ∀ {id epoch v limit}, Stable id epoch v limit l.notes →
      Stable id epoch v limit l'.notes := by
    intro id epoch v limit hs
    rw [hnotes]
    exact Since.append hs fun note hnote => (hidle note hnote).observes epoch v
  refine ⟨?_, ?_, ?_, ?_, ?_⟩
  · intro id r' c hr' hc hfree
    obtain ⟨r, hr, hcandidate, _⟩ := hkept id r' hr' (by rw [hc]; exact nofun)
    rw [hinFlight] at hfree
    exact hstable (h.record id r c hr (hcandidate.trans hc) hfree)
  · intro task job r' hjob hr' hne
    obtain ⟨r, hr, hcandidate, hepoch⟩ := hkept job.id r' hr' hne
    rw [hjobs] at hjob
    rw [← hepoch]
    exact h.dropped task job r hjob hr (by rw [hcandidate]; exact hne)
  · intro task job c hjob hc
    rw [hjobs] at hjob
    exact hstable (h.job task job c hjob hc)
  · intro task job v change after w hjob hstage hw hpositive
    rw [hjobs] at hjob
    exact hstable (h.ripe task job v change after w hjob hstage hw hpositive)
  · rw [hnotes]
    exact h.debounced.append fun note hnote => (hidle note hnote).debounced

theorem Loop.Timed.load (h : l.Timed) (hl : l.Coherent listed) (w : Watch) :
    (Loop.load os now l w).Timed := by
  have hframe := load_frame l os now w
  refine h.runtimes (signalIf (((l.runtimes.get w.id).getD .new).alarms w) w.id) ?_
    (by rw [hframe]) (by rw [hframe]) (by rw [hframe]) (signalIf_idle _ _)
  intro id r' hr' hne
  rw [load_runtimes] at hr'
  split at hr'
  · rename_i heq
    obtain rfl := Option.some.inj hr'
    subst heq
    cases hr : l.runtimes.get w.id with
    | none =>
        rw [hr] at hne
        exact absurd rfl hne
    | some r =>
        rw [hr, Option.getD_some] at hne
        obtain ⟨v, hv, _⟩ := hl.known w.id r hr
        have hepoch : ¬ r.epochChanged w = true := by
          intro hchanged
          unfold Runtime.load at hne
          rw [if_pos hchanged] at hne
          exact hne rfl
        refine ⟨r, rfl, ?_, ?_⟩
        · rw [Option.getD_some]
          unfold Runtime.load
          rw [if_neg hepoch]
        · unfold Runtime.epochChanged at hepoch
          unfold Runtime.epoch
          rw [hv] at hepoch ⊢
          rw [Option.getD_some]
          show some v.epoch = some w.epoch
          simpa using hepoch
  · exact ⟨r', hr', rfl, rfl⟩

theorem Loop.Timed.drop (h : l.Timed) (id : String) : (Loop.drop os l id).Timed := by
  have hframe := drop_frame l os id
  refine h.runtimes [] ?_ (by rw [hframe]) (by rw [hframe])
    (by rw [hframe, List.append_nil]) (fun _ hnote => absurd hnote List.not_mem_nil)
  intro id' r hr _
  rw [hframe] at hr
  have hr : (l.runtimes.erase id).get id' = some r := hr
  rw [Dict.get_erase] at hr
  split at hr
  · cases hr
  · exact ⟨r, hr, rfl, rfl⟩

theorem Loop.Timed.mark (h : l.Timed) (p : Runtime → Bool) : (l.mark p).Timed := by
  refine h.runtimes _ ?_ rfl rfl rfl ?_
  · intro id r' hr' _
    have hr' : (l.runtimes.map _).get id = some r' := hr'
    rw [Dict.get_map] at hr'
    obtain ⟨r, hr, rfl⟩ := Option.map_eq_some_iff.mp hr'
    refine ⟨r, hr, ?_⟩
    split <;> exact ⟨rfl, rfl⟩
  · intro note hnote
    obtain ⟨entry, _, rfl⟩ := List.mem_map.mp hnote
    trivial

/-- The job's candidate is the runtime's again, and a runtime that is kept has none. -/
theorem Loop.Timed.join (h : l.Timed) (hl : l.Coherent listed) {task : Nat}
    (hjoin : l.join os task = some l') : l'.Timed := by
  obtain ⟨job, hjob, _, hcases⟩ := join_cases hjoin
  -- whoever is idle now was idle before or is the job's watch
  have hretired : ∀ task' job', (l.retire task job).jobs.get task' = some job' →
      l.jobs.get task' = some job' ∧ job'.id ≠ job.id := by
    intro task' job' hjob'
    have hjob' : (l.jobs.erase task).get task' = some job' := hjob'
    rw [Dict.get_erase] at hjob'
    split at hjob'
    · cases hjob'
    · rename_i hne
      exact ⟨hjob', fun heq => hne (hl.exclusive task' task job' job hjob' hjob heq)⟩
  have hfree : ∀ id, id ∉ (l.retire task job).inFlight → id ≠ job.id → id ∉ l.inFlight := by
    intro id hid hne hmem
    exact hid (Finset.mem_erase.mpr ⟨hne, hmem⟩)
  rcases hcases with ⟨current, hcurrent, hepoch, rfl⟩ | ⟨hstale, rfl⟩
  · rw [merge_frame]
    have hget : ∀ id r, (l.runtimes.set job.id { job.runtime with
          dirty := (job.runtime.dirty || ((l.retire task job).follow os job.id job.runtime).2) ||
            current.dirty }).get id = some r →
        (id = job.id ∧ r.candidate = job.runtime.candidate ∧ r.epoch = job.runtime.epoch) ∨
          (id ≠ job.id ∧ l.runtimes.get id = some r) := by
      intro id r hr
      rw [Dict.get_set] at hr
      split at hr
      · obtain rfl := Option.some.inj hr
        exact Or.inl ⟨by assumption, rfl, rfl⟩
      · exact Or.inr ⟨by assumption, hr⟩
    have hstable : ∀ {id epoch v limit}, Stable id epoch v limit l.notes →
        Stable id epoch v limit (l.notes ++
          signalIf ((l.retire task job).follow os job.id job.runtime).2 job.id) :=
      fun hs => Since.append hs fun note hnote => (signalIf_idle _ _ note hnote).observes _ _
    refine ⟨?_, ?_, ?_, ?_, ?_⟩
    · intro id r c hr hc hid
      rcases hget id r hr with ⟨rfl, hcandidate, _⟩ | ⟨hne, hr⟩
      · exact hstable (h.job task job c hjob (hcandidate.symm.trans hc))
      · exact hstable (h.record id r c hr hc (hfree id hid hne))
    · intro task' job' r hjob' hr hne
      obtain ⟨hjob', hother⟩ := hretired task' job' hjob'
      rcases hget job'.id r hr with ⟨heq, _⟩ | ⟨_, hr⟩
      · exact absurd heq hother
      · exact h.dropped task' job' r hjob' hr hne
    · exact fun task' job' c hjob' hc => hstable (h.job task' job' c (hretired task' job' hjob').1 hc)
    · exact fun task' job' v change after w hjob' hstage hw hpositive =>
        hstable (h.ripe task' job' v change after w (hretired task' job' hjob').1 hstage hw hpositive)
    · exact h.debounced.append fun note hnote => (signalIf_idle _ _ note hnote).debounced
  · refine ⟨?_, ?_, ?_, ?_, h.debounced⟩
    · intro id r c hr hc hid
      by_cases heq : id = job.id
      · subst heq
        refine absurd (h.dropped task job r hjob hr ?_) (hstale r hr)
        rw [hc]
        exact Option.some_ne_none c
      · exact h.record id r c hr hc (hfree id hid heq)
    · exact fun task' job' r hjob' => h.dropped task' job' r (hretired task' job' hjob').1
    · exact fun task' job' c hjob' => h.job task' job' c (hretired task' job' hjob').1
    · exact fun task' job' v change after w hjob' =>
        h.ripe task' job' v change after w (hretired task' job' hjob').1

/-- A job begins with the window of its runtime. -/
theorem Loop.Timed.dispatchOne (h : l.Timed) (id : String) :
    (l.dispatchOne now id).Timed := by
  rcases dispatchOne_cases l id now with
    ⟨current, watch, hcurrent, hwatch, _, _, hfree, _, heq⟩ | heq
  · rw [heq]
    have hstable : ∀ {id' epoch v limit}, Stable id' epoch v limit l.notes →
        Stable id' epoch v limit (l.spawn id current watch now).notes :=
      fun hs => Since.concat hs trivial
    have hruntimes : ∀ id' r, (l.spawn id current watch now).runtimes.get id' = some r →
        ∃ q, l.runtimes.get id' = some q ∧ q.candidate = r.candidate ∧ q.epoch = r.epoch := by
      intro id' r hr
      have hr : (l.runtimes.set id { current with dirty := false }).get id' = some r := hr
      rw [Dict.get_set] at hr
      split at hr
      · rename_i heq
        obtain rfl := Option.some.inj hr
        exact ⟨current, heq ▸ hcurrent, rfl, rfl⟩
      · exact ⟨r, hr, rfl, rfl⟩
    have hjobs : ∀ task job, (l.spawn id current watch now).jobs.get task = some job →
        job = ⟨id, now, { current with dirty := false }, .sampling⟩ ∨
          l.jobs.get task = some job := by
      intro task job hjob
      have hjob : (l.jobs.set l.tasks _).get task = some job := hjob
      rw [Dict.get_set] at hjob
      split at hjob
      · exact Or.inl (Option.some.inj hjob).symm
      · exact Or.inr hjob
    refine ⟨?_, ?_, ?_, ?_, always_concat.mpr ⟨h.debounced, trivial⟩⟩
    · intro id' r c hr hc hid
      obtain ⟨q, hq, hcandidate, _⟩ := hruntimes id' r hr
      exact hstable (h.record id' q c hq (hcandidate.trans hc) fun hmem =>
        hid (Finset.mem_insert_of_mem hmem))
    · intro task job r hjob hr hne
      obtain ⟨q, hq, hcandidate, hepoch⟩ := hruntimes job.id r hr
      rw [← hepoch]
      rcases hjobs task job hjob with rfl | hjob
      · rw [hcurrent] at hq
        rw [← Option.some.inj hq]
        rfl
      · exact h.dropped task job q hjob hq (by rw [hcandidate]; exact hne)
    · intro task job c hjob hc
      rcases hjobs task job hjob with rfl | hjob
      · exact hstable (h.record id current c hcurrent hc hfree)
      · exact hstable (h.job task job c hjob hc)
    · intro task job v change after w hjob hstage hw hpositive
      rcases hjobs task job hjob with rfl | hjob
      · cases hstage
      · exact hstable (h.ripe task job v change after w hjob hstage hw hpositive)
  · rw [heq]
    exact h

theorem Loop.Timed.turn (h : l.Timed) (hl : l.Coherent listed) {branch : Branch}
    {ids : List String}
    (hloads : ∀ w ∈ branch.loads, listed w ∧ ∀ v, listed v → v.id = w.id → v.Precedes w)
    (hturn : l.turn os branch ids now = some l') : l'.Timed := by
  refine (turn_keeps (P := fun m => m.Coherent listed ∧ m.Timed) hturn ⟨hl, h⟩ ?_ ?_ ?_ ?_ ?_ ?_).2
  · refine fun m _ _ _ hm => ⟨hm.1.congr rfl rfl rfl rfl, ?_⟩
    exact hm.2.runtimes [] (fun _ r hr _ => ⟨r, hr, rfl, rfl⟩) rfl rfl
      (List.append_nil _).symm fun _ hnote => absurd hnote List.not_mem_nil
  · exact fun m _ _ hjoin => ⟨hl.join hjoin, h.join hl hjoin⟩
  · exact fun m w hw _ hm => ⟨hm.1.load (hloads w hw).1 (hloads w hw).2, hm.2.load hm.1 w⟩
  · exact fun m id _ hm => ⟨hm.1.drop id, hm.2.drop id⟩
  · exact fun m p hm => ⟨hm.1.mark p, hm.2.mark p⟩
  · exact fun m id hm => ⟨hm.1.dispatchOne id, hm.2.dispatchOne id⟩

/-- A job moves on: nothing else changes, and its entries are about its own watch. -/
theorem Loop.Timed.advance (h : l.Timed) (hl : l.Coherent listed) {task : Nat} {job job' : Job}
    (hjob : l.jobs.get task = some job) (hid : job'.id = job.id)
    (hepoch : job'.runtime.epoch = job.runtime.epoch)
    (hown : ∀ note ∈ notes, ∀ id, id ≠ job.id → ∀ epoch v, note.Observes id epoch v)
    (hwindow : ∀ c, job'.runtime.candidate = some c → c.Window job.id (l.notes ++ notes))
    (hripe : ∀ v change after w, job'.stage = .committing v (some change) after →
      job'.runtime.watch = some w → 0 < w.debounce →
        Stable job.id w.epoch change.current (job'.now - w.debounce) (l.notes ++ notes))
    (hdebounced : Always Note.Debounced (l.notes ++ notes)) : (l.advance task job' notes).Timed := by
  have hget : ∀ task' k, (l.advance task job' notes).jobs.get task' = some k →
      k = job' ∨ (l.jobs.get task' = some k ∧ k.id ≠ job.id) := by
    intro task' k hk
    have hk : (l.jobs.set task job').get task' = some k := hk
    rw [Dict.get_set] at hk
    split at hk
    · exact Or.inl (Option.some.inj hk).symm
    · rename_i hne
      exact Or.inr ⟨hk, fun heq => hne (hl.exclusive task' task k job hk hjob heq)⟩
  have hother : ∀ {id epoch v limit}, id ≠ job.id → Stable id epoch v limit l.notes →
      Stable id epoch v limit (l.notes ++ notes) :=
    fun hne hs => Since.append hs fun note hnote => hown note hnote _ hne _ _
  refine ⟨?_, ?_, ?_, ?_, hdebounced⟩
  · intro id r c hr hc hfree
    refine hother (fun heq => hfree ?_) (h.record id r c hr hc hfree)
    exact (hl.inFlight_iff id).mpr ⟨task, job, hjob, heq.symm⟩
  · intro task' k r hk hr hne
    rcases hget task' k hk with rfl | ⟨hk, _⟩
    · rw [hid] at hr
      rw [hepoch]
      exact h.dropped task job r hjob hr hne
    · exact h.dropped task' k r hk hr hne
  · intro task' k c hk hc
    rcases hget task' k hk with rfl | ⟨hk, hne⟩
    · rw [hid]
      exact hwindow c hc
    · exact hother hne (h.job task' k c hk hc)
  · intro task' k v change after w hk hstage hw hpositive
    rcases hget task' k hk with rfl | ⟨hk, hne⟩
    · rw [hid]
      exact hripe v change after w hstage hw hpositive
    · exact hother hne (h.ripe task' k v change after w hk hstage hw hpositive)

/-- An entry about one watch says nothing about another. -/
theorem attempted_observes {id id' : String} (hne : id' ≠ id) (at_ : Rat) (epoch epoch' : Int)
    (observed : Option Value) (v : Value) :
    (Note.attempted id at_ epoch observed).Observes id' epoch' v := fun heq => absurd heq.symm hne

theorem Note.AttemptedBy.limit_le {limit limit' : Rat} (h : note.AttemptedBy id limit)
    (hle : limit ≤ limit') : note.AttemptedBy id limit' := by
  cases note with
  | attempted id' at_ epoch observed => exact ⟨h.1, h.2.trans hle⟩
  | _ => exact h.elim

/-- A worker answers: when the attempt is over there is no candidate. -/
theorem Loop.Timed.sampled (h : l.Timed) (hl : l.Coherent listed) {task : Nat} {job : Job}
    {w : Watch} (hjob : l.jobs.get task = some job) {reply : Option FileSample}
    (hsteady : (∃ ok r, look job.runtime (reply.map FileSample.value) = .ended ok r) →
      job.runtime.candidate = none) :
    (l.advance task (job.sampled w reply).1 (job.sampled w reply).2).Timed := by
  obtain ⟨hid, _, hwatch, hcandidate, _⟩ := sampled_frame job w reply
  have hepoch : (job.sampled w reply).1.runtime.epoch = job.runtime.epoch := by
    unfold Runtime.epoch
    rw [hwatch]
  cases hlook : look job.runtime (reply.map FileSample.value) with
  | ended ok r =>
      have hnone := hsteady ⟨ok, r, hlook⟩
      have hnotes : (job.sampled w reply).2 = [.attempted job.id job.now w.epoch none] := by
        unfold Job.sampled
        rw [hlook]
      have hstage : (job.sampled w reply).1.stage = .finished := by
        unfold Job.sampled
        rw [hlook]
        rfl
      refine h.advance hl hjob hid hepoch ?_ ?_ ?_ ?_
      · intro note hnote id hne epoch v
        rw [hnotes] at hnote
        rw [List.mem_singleton.mp hnote]
        exact attempted_observes hne _ _ _ _ _
      · intro c hc
        rw [hcandidate, hnone] at hc
        cases hc
      · intro v change after u hcommitting
        rw [hstage] at hcommitting
        cases hcommitting
      · rw [hnotes]
        exact always_concat.mpr ⟨h.debounced, trivial⟩
  | observed v r =>
      have hnotes : (job.sampled w reply).2 = [] := by
        unfold Job.sampled
        rw [hlook]
      have hstage : (job.sampled w reply).1.stage = .comparing v := by
        unfold Job.sampled
        rw [hlook]
      rw [hnotes]
      refine h.advance hl hjob hid hepoch ?_ ?_ ?_ ?_
      · exact fun note hnote => absurd hnote List.not_mem_nil
      · intro c hc
        rw [List.append_nil]
        exact h.job task job c hjob (hcandidate.symm.trans hc)
      · intro v change after u hcommitting
        rw [hstage] at hcommitting
        cases hcommitting
      · rw [List.append_nil]
        exact h.debounced

/-- The checkpoint is read: the window begins, goes on or ends. -/
theorem Loop.Timed.compared (h : l.Timed) (hl : l.Coherent listed) {task : Nat} {job : Job}
    {w : Watch} {observed : Value} (hjob : l.jobs.get task = some job)
    (hw : job.runtime.watch = some w) (hflat : Flat observed) {baseline : Option (Option Value)}
    (hsteady : baseline = none → job.runtime.candidate = none)
    (hcommits : ∀ v change after,
      (job.compared w observed baseline).1.stage = .committing v change after →
        (job.compared w observed baseline).1.runtime.candidate = none) :
    (l.advance task (job.compared w observed baseline).1 (job.compared w observed baseline).2).Timed := by
  obtain ⟨hid, hnow, hwatch, _, _⟩ := compared_frame job w observed baseline
  have hepoch : (job.compared w observed baseline).1.runtime.epoch = job.runtime.epoch := by
    unfold Runtime.epoch
    rw [hwatch]
  have hnotes := compared_notes job w observed baseline
  refine h.advance hl hjob hid hepoch ?_ ?_ ?_ ?_
  · intro note hnote id hne epoch v
    obtain ⟨x, hx⟩ := hnotes
    rw [hx] at hnote
    rw [List.mem_singleton.mp hnote]
    exact attempted_observes hne _ _ _ _ _
  · intro c hc
    unfold Job.compared at hc hcommits ⊢
    cases baseline with
    | none =>
        have hc : (job.finish false job.runtime).runtime.candidate = some c := hc
        rw [finish_candidate, hsteady rfl] at hc
        cases hc
    | some b =>
        have hjudge := judge_spec job.runtime w observed b job.now
        simp only at hc hcommits ⊢
        cases hjudged : judge job.runtime w observed b job.now with
        | ended r =>
            rw [hjudged] at hjudge hc
            have hc : (job.finish true r).runtime.candidate = some c := hc
            rw [finish_candidate] at hc
            cases hjudge with
            | unchanged => cases hc
            | fresh _ _ _ =>
                obtain rfl := Option.some.inj hc
                refine since_concat.mpr ⟨fun _ => ⟨rfl, hflat.eq_refl⟩, Or.inl ⟨rfl, le_refl _⟩⟩
            | young _ _ hcandidate hsame hsameEpoch =>
                have hc : job.runtime.candidate = some c := hc
                rw [hcandidate] at hc
                obtain rfl := Option.some.inj hc
                refine Since.concat (h.job task job _ hjob hcandidate) ?_
                exact fun _ => ⟨hsameEpoch.symm, hsame⟩
        | commit value change failed after =>
            rw [hjudged] at hc hcommits
            have hnone : failed.candidate = none := hcommits value change after rfl
            have hc : failed.candidate = some c := hc
            rw [hnone] at hc
            cases hc
  · intro v change after u hstage hu hpositive
    rw [hwatch, hw] at hu
    obtain rfl := Option.some.inj hu
    rw [hnow]
    unfold Job.compared at hstage ⊢
    cases baseline with
    | none =>
        have hstage : Stage.finished = .committing v (some change) after := hstage
        cases hstage
    | some b =>
        have hjudge := judge_spec job.runtime w observed b job.now
        simp only at hstage ⊢
        cases hjudged : judge job.runtime w observed b job.now with
        | ended r =>
            rw [hjudged] at hstage
            have hstage : Stage.finished = .committing v (some change) after := hstage
            cases hstage
        | commit value change' failed after' =>
            rw [hjudged] at hjudge hstage
            obtain ⟨rfl, rfl, rfl⟩ := Stage.committing.inj hstage
            cases hjudge with
            | prompt _ hdebounce =>
                rw [hdebounce] at hpositive
                exact absurd hpositive (lt_irrefl 0)
            | @ripe _ c _ _ hcandidate hsame hsameEpoch hripe =>
                -- a positive debounce is not longer than nothing
                have helapsed : w.debounce ≤ job.now - c.firstSeen := by
                  rcases le_max_iff.mp hripe with hle | hle
                  · exact absurd hle (not_le.mpr hpositive)
                  · exact hle
                have hlimit : c.firstSeen ≤ job.now - w.debounce := by linarith
                have hwindow := h.job task job c hjob hcandidate
                unfold Candidate.Window at hwindow
                rw [hsameEpoch] at hwindow
                refine Since.concat (hwindow.mono ?_ fun _ hkeeps => hkeeps) ?_
                · exact fun note hnote => hnote.limit_le hlimit
                · exact fun _ => ⟨rfl, hsame⟩
  · obtain ⟨x, hx⟩ := hnotes
    rw [hx]
    exact always_concat.mpr ⟨h.debounced, trivial⟩

end pieces

/-! ## Runs -/

/-- The attempt fails: the worker does, or its sample does not say what is to be compared. -/
def Fails (condition : Option Value) : Option FileSample → Bool
  | none => true
  | some sample => sample.Skips condition || sample.Misses condition

/-- An attempt that fails, or whose checkpoint cannot be read, finds no candidate. -/
def Steady (crates : Crates) (h : Host) : Act → Prop
  | .sampled task reply => ∀ job ∈ h.loop.jobs.get task, ∀ watch ∈ job.runtime.watch,
      Fails watch.condition reply = true → job.runtime.candidate.isNone = true
  | .compared task busy => ∀ job ∈ h.loop.jobs.get task,
      (readBaseline crates h.db job.id busy).isNone = true → job.runtime.candidate.isNone = true
  | _ => True

instance (crates : Crates) (h : Host) (act : Act) : Decidable (Steady crates h act) := by
  unfold Steady
  split <;> infer_instance

section host

variable {crates : Crates} {h t : Host} {act : Act}

theorem fails_of_over {r r' : Runtime} {w : Watch} {reply : Option FileSample} {ok : Bool}
    (hw : r.watch = some w) (hactive : w.active = true)
    (hlook : look r (reply.map FileSample.value) = .ended ok r') : Fails w.condition reply = true := by
  cases reply with
  | none => rfl
  | some sample =>
      have hlook : look r (some sample.value) = .ended ok r' := hlook
      rw [look_sample hw hactive] at hlook
      unfold Fails
      rw [Bool.or_eq_true]
      split at hlook
      · rename_i hskips
        exact Or.inl hskips
      split at hlook
      · rename_i hmisses
        exact Or.inr hmisses
      · cases hlook

/-- What the invariants say of a host. -/
structure Host.Timed (crates : Crates) (h : Host) : Prop where
  coherent : h.Coherent crates
  waits : h.Waits
  timed : h.loop.Timed

theorem Host.Timed.step (hh : h.Timed crates) (hok : Steady crates h act)
    (hstep : h.step crates act = some t) : t.Timed crates := by
  have hcoherent := hh.coherent.step hstep
  have hwaits := hh.waits.step hh.coherent hstep
  refine ⟨hcoherent, hwaits, ?_⟩
  have hc := hh.coherent
  cases Host.step_moved hstep with
  | called => exact hh.timed
  | notified =>
      unfold Loop.notify
      split
      · exact hh.timed.runtimes [] (fun _ r hr _ => ⟨r, hr, rfl, rfl⟩) rfl rfl
          (List.append_nil _).symm fun _ hnote => absurd hnote List.not_mem_nil
      · exact hh.timed.runtimes [] (fun _ r hr _ => ⟨r, hr, rfl, rfl⟩) rfl rfl
          (List.append_nil _).symm fun _ hnote => absurd hnote List.not_mem_nil
  | @sampled task job watch reply hjob hstage hwatch hanswers =>
      obtain ⟨w, hw, hactive, _⟩ := hc.working task job hjob
      rw [hwatch] at hw
      obtain rfl := Option.some.inj hw
      refine hh.timed.sampled hc hjob ?_
      rintro ⟨ok, r, hlook⟩
      exact Option.isNone_iff_eq_none.mp
        (hok job hjob watch hwatch (fails_of_over hwatch hactive hlook))
  | @compared task job watch observed busy hjob hstage hwatch =>
      obtain ⟨w, hw, _, hid, _⟩ := hc.working task job hjob
      rw [hwatch] at hw
      obtain rfl := Option.some.inj hw
      refine hh.timed.compared hc hjob hwatch ((hh.waits.job task job hjob).comparing observed hstage)
        ?_ ?_
      · intro hnone
        rw [hid] at hnone
        exact Option.isNone_iff_eq_none.mp (hok job hjob (Option.isNone_iff_eq_none.mpr hnone))
      · intro v change after hcommitting
        exact ((hwaits.job task _ Dict.get_set_self).committing v change after hcommitting).2.1
  | @committed task job watch value change after eventUuid uuid now stamp receipt db hjob hstage
      hwatch hnew hcommit =>
      obtain ⟨w, hw, _, hid, _⟩ := hc.working task job hjob
      rw [hwatch] at hw
      obtain rfl := Option.some.inj hw
      have hepoch : (job.finish true after).runtime.epoch = job.runtime.epoch := by
        unfold Runtime.epoch
        rw [finish_watch, hc.same_watch task job value change after hjob hstage]
      have hnone := ((hh.waits.job task job hjob).committing value change after hstage).2.2
      refine hh.timed.advance hc hjob (finish_id job true after) hepoch ?_ ?_ ?_ ?_
      · intro note hnote id _ epoch v
        rw [List.mem_singleton.mp hnote]
        trivial
      · intro c hcandidate
        rw [finish_candidate, hnone] at hcandidate
        cases hcandidate
      · intro v change' after' u hcommitting
        have hcommitting : Stage.finished = .committing v (some change') after' := hcommitting
        cases hcommitting
      · refine always_concat.mpr ⟨hh.timed.debounced, ?_⟩
        cases change with
        | none => trivial
        | some change =>
            intro hpositive
            rw [hid]
            exact hh.timed.ripe task job value change after watch hjob hstage hwatch hpositive
  | @refused task job watch value change after eventUuid uuid now stamp busy hjob hstage hwatch =>
      have hepoch : (job.finish false job.runtime).runtime.epoch = job.runtime.epoch := by
        unfold Runtime.epoch
        rw [finish_watch]
      refine hh.timed.advance hc hjob (finish_id job false job.runtime) hepoch ?_ ?_ ?_ ?_
      · exact fun note hnote => absurd hnote List.not_mem_nil
      · intro c hcandidate
        rw [finish_candidate] at hcandidate
        rw [List.append_nil]
        exact hh.timed.job task job c hjob hcandidate
      · intro v change' after' u hcommitting
        have hcommitting : Stage.finished = .committing v (some change') after' := hcommitting
        cases hcommitting
      · rw [List.append_nil]
        exact hh.timed.debounced
  | turned hbranch hturn =>
      exact hh.timed.turn hc (Branch.loads_keeps hbranch) hturn
  | reloaded hrows hturn => exact hh.timed.turn hc (fun w hw => (loaded_spec hrows hw).2) hturn
  | restarted => exact timed_new (always_concat.mpr ⟨hh.timed.debounced, trivial⟩)

/-- Every change of a debounced watch that is committed was stable for long enough, in the runs in
which attempts fail only while there is no candidate. -/
theorem changes_debounced (h : Host.ReachableBy crates (Steady crates) t) :
    Always Note.Debounced t.loop.notes := by
  have htimed : t.Timed crates := Runs.LeadsBy.invariant
    (fun _ _ _ hs hok hstep => Host.Timed.step hs hok hstep) h
    ⟨coherent_new [], each_new [], timed_new always_nil⟩
  exact htimed.timed.debounced

end host

/-! ## A file that cannot be read for a while -/

def sampleContent (sha256 : String) : FileSample :=
  ⟨"/srv/app/build.log", .present sha256 none, none⟩

def sampleFileCrates : Crates :=
  .knowing [(sampleContent "aa").observation none, (sampleContent "bb").observation none]

/-- The only watch is dispatched, its job goes through the steps, and it is joined. -/
def sampleAttempt (task : Nat) (now : Rat) (steps : List Act) : List Act :=
  .turned .works .woken [(sampleUuid 4).text] now :: steps ++
    [.turned .works (.joined task) [(sampleUuid 4).text] now]

/-- A file with a debounce of five seconds is watched, and its first sample is the baseline. -/
def sampleBaseline : List Act :=
  [.called (.watchCreate "conversation-1" "build-log" "/srv/app/build.log" (.finite 1)
      "shared-local" (.finite 5) none (sampleUuid 4) 10),
    .reloaded .works 11 [(sampleUuid 4).text] 11,
    .sampled 0 (some (sampleContent "aa")), .compared 0 false,
    .committed 0 (sampleUuid 5) (sampleUuid 6) 11 11 false,
    .turned .works (.joined 0) [(sampleUuid 4).text] 11]

/-- A change is seen once, then the worker fails, and five seconds later the change is seen
again. -/
def sampleOutage : List Act :=
  sampleBaseline ++
    sampleAttempt 1 12 [.sampled 1 (some (sampleContent "bb")), .compared 1 false] ++
    sampleAttempt 2 13 [.sampled 2 none] ++
    sampleAttempt 3 17 [.sampled 3 (some (sampleContent "bb")), .compared 3 false,
      .committed 3 (sampleUuid 7) (sampleUuid 8) 17 17 false]

/-- The time of the outage is credited as stable. -/
theorem changes_debounced_fails :
    ¬ ∀ (crates : Crates) (t : Host), Host.Reachable crates t →
      Always Note.Debounced t.loop.notes := by
  intro h
  have hrun : (Runs.run? (Host.step sampleFileCrates) sampleOutage .initial).any
      (fun t => ¬ Always Note.Debounced t.loop.notes) = true := by
    decide +kernel
  obtain ⟨t, ht, hcredited⟩ := Option.any_eq_true _ _ |>.mp hrun
  exact of_decide_eq_true hcredited (h sampleFileCrates t (Runs.leads_run ht))

/-- The worker fails before the change is seen, and the change is reported after five seconds. -/
def sampleRecovery : List Act :=
  sampleBaseline ++ sampleAttempt 1 12 [.sampled 1 none] ++
    sampleAttempt 2 13 [.sampled 2 (some (sampleContent "bb")), .compared 2 false] ++
    sampleAttempt 3 18 [.sampled 3 (some (sampleContent "bb")), .compared 3 false,
      .committed 3 (sampleUuid 7) (sampleUuid 8) 18 18 false]

/-- A run in which a change is reported. -/
theorem changes_debounced_sample :
    ∃ t, Runs.after? (Host.step sampleFileCrates) (Steady sampleFileCrates) sampleRecovery
          .initial = some t ∧
        (t.loop.notes.any fun note => note matches .committed _ _ _ (some _) _) = true ∧
        Always Note.Debounced t.loop.notes := by
  have hrun : (Runs.after? (Host.step sampleFileCrates) (Steady sampleFileCrates) sampleRecovery
      .initial).any
        (fun t => t.loop.notes.any fun note => note matches .committed _ _ _ (some _) _) = true := by
    decide +kernel
  obtain ⟨t, ht, hcommitted⟩ := Option.any_eq_true _ _ |>.mp hrun
  exact ⟨t, ht, hcommitted, changes_debounced (Runs.leadsBy_after ht)⟩

end CodexMonitor.Collector
