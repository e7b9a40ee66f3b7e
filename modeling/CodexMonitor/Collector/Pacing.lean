import CodexMonitor.Collector.Candidates
import CodexMonitor.Lib.History
import Mathlib.Tactic.Linarith

/-!
# Attempts are paced

An attempt that is over makes the watch due one interval after its dispatch, and
before that only a signal makes it due again: a notification or an overflow, a new
alias, a change of the lifecycle.

An attempt that returns early because its sample says nothing about the file leaves
`nextDue` as it was, in the past, and the watch is due at once.  Attempts are paced in
the runs in which no sample is skipped like that.
-/

namespace CodexMonitor.Collector

open History

/-! ## Pace -/

/-- The entry is no signal for the watch, and the collector goes on. -/
def Note.Calm (id : String) : Note → Prop
  | .signalled id' => id' ≠ id
  | .restarted => False
  | _ => True

/-- A dispatch of the watch at `t`, with the interval `interval`. -/
def Note.Starts (id : String) (t interval : Rat) : Note → Prop
  | .dispatched id' t' interval' => id' = id ∧ t' = t ∧ interval' = interval
  | _ => False

/-- If the entry is a dispatch of the watch, `limit` is an interval later. -/
def Note.Allows (id : String) (limit : Rat) : Note → Prop
  | .dispatched id' t interval => id' = id → t + interval ≤ limit
  | _ => True

instance (id : String) : DecidablePred (Note.Calm id) := fun note => by
  unfold Note.Calm
  split <;> infer_instance

instance (id : String) (limit : Rat) : DecidablePred (Note.Allows id limit) := fun note => by
  unfold Note.Allows
  split <;> infer_instance

/-- A dispatch comes an interval after every earlier one that no signal followed. -/
def Note.Paced (past : List Note) : Note → Prop
  | .dispatched id now _ => ∀ k : Fin past.length, (∀ note ∈ past.drop k, note.Calm id) →
      (past.get k).Allows id now
  | _ => True

instance (past : List Note) (note : Note) : Decidable (note.Paced past) := by
  unfold Note.Paced
  split <;> infer_instance

/-- The watch was dispatched at `t`, and no signal followed. -/
def Quiet (id : String) (t interval : Rat) : List Note → Prop :=
  Since (Note.Starts id t interval) (Note.Calm id)

section quiet

variable {id : String} {t interval : Rat} {notes more : List Note} {note : Note}

theorem paced_dispatched {t' interval' : Rat} (h : ∀ t interval, Quiet id t interval notes →
    t + interval ≤ t') : (Note.dispatched id t' interval').Paced notes := by
  intro k hcalm
  cases hget : notes.get k with
  | dispatched id' t interval =>
      rintro rfl
      refine h t interval ⟨k, ?_, hcalm⟩
      rw [hget]
      exact ⟨rfl, rfl, rfl⟩
  | _ => trivial

/-- What is quiet after entries that dispatch nothing was quiet before them. -/
theorem Quiet.of_append (h : Quiet id t interval (notes ++ more))
    (hmore : ∀ note ∈ more, ¬ note.Starts id t interval) : Quiet id t interval notes :=
  Since.of_append h hmore

theorem not_quiet_signal : ¬ Quiet id t interval (notes ++ [.signalled id]) :=
  not_since_concat fun h => h rfl

/-- A signal that is sent is no dispatch. -/
theorem signalIf_starts (c : Bool) (id' : String) :
    ∀ note ∈ signalIf c id', ¬ note.Starts id t interval := by
  intro note hnote
  unfold signalIf at hnote
  split at hnote
  · rw [List.mem_singleton.mp hnote]
    exact not_false
  · cases hnote

/-- No signal was sent where it stayed quiet. -/
theorem Quiet.signalIf {c : Bool} (h : Quiet id t interval (notes ++ signalIf c id)) : c = false := by
  cases c with
  | false => rfl
  | true => exact absurd h not_quiet_signal

theorem Note.paced_of_idle (h : ∀ id t interval, ¬ note.Starts id t interval) (past : List Note) :
    note.Paced past := by
  cases note with
  | dispatched id t interval => exact absurd ⟨rfl, rfl, rfl⟩ (h id t interval)
  | _ => trivial

end quiet

/-! ## When a watch is due -/

/-- A watch that is active is due some time. -/
def Runtime.Primed (_ : String) (r : Runtime) : Prop := r.active = true → r.nextDue ≠ none

/-- A job that is over, or about to be, makes the watch due one interval after its dispatch. -/
structure Job.Renews (job : Job) : Prop where
  finished : job.stage = .finished → ∀ w, job.runtime.watch = some w →
    job.runtime.nextDue = some (job.now + w.interval)
  committing : ∀ v change after, job.stage = .committing v change after →
    ∀ w, job.runtime.watch = some w →
      after.nextDue = some (job.now + w.interval) ∧ after.dirty = job.runtime.dirty

/-- The invariant of pacing. -/
structure Loop.Paced (l : Loop) : Prop where
  record : ∀ id r t interval, l.runtimes.get id = some r → Quiet id t interval l.notes →
    r.dirty = false ∧ (r.active = true → id ∉ l.inFlight → ∀ d, r.nextDue = some d → t + interval ≤ d)
  dropped : ∀ task job r t interval, l.jobs.get task = some job → l.runtimes.get job.id = some r →
    Quiet job.id t interval l.notes → r.epoch ≠ job.runtime.epoch → r.active = false
  job : ∀ task job w t interval, l.jobs.get task = some job → job.runtime.watch = some w →
    Quiet job.id t interval l.notes →
      job.runtime.dirty = false ∧ t + interval ≤ job.now + w.interval
  paced : Always Note.Paced l.notes

section pieces

variable {l l' : Loop} {listed : Watch → Prop} {os : Native} {now : Rat} {notes : List Note}

theorem paced_new (h : Always Note.Paced notes) : (Loop.new notes).Paced := by
  have hidle : ∀ task job, (Loop.new notes).jobs.get task ≠ some job := by
    intro task job h
    have h : (∅ : Dict Nat Job).get task = some job := h
    rw [Dict.get_empty] at h
    cases h
  refine ⟨?_, fun task job _ _ _ hjob => absurd hjob (hidle task job),
    fun task job _ _ _ hjob => absurd hjob (hidle task job), h⟩
  intro id r t interval hr
  have hr : (∅ : Dict String Runtime).get id = some r := hr
  rw [Dict.get_empty] at hr
  cases hr

/-- Where it stays quiet, a runtime is as it was, or is that of an inactive watch. -/
theorem Loop.Paced.runtimes (h : l.Paced) (notes : List Note)
    (hkept : ∀ id r' t interval, l'.runtimes.get id = some r' → Quiet id t interval l'.notes →
      (r'.active = false ∧ r'.dirty = false) ∨ ∃ r, l.runtimes.get id = some r ∧
        r'.dirty = r.dirty ∧ r'.active = r.active ∧ r'.nextDue = r.nextDue ∧ r'.epoch = r.epoch)
    (hjobs : l'.jobs = l.jobs) (hinFlight : l'.inFlight = l.inFlight)
    (hnotes : l'.notes = l.notes ++ notes)
    (hidle : ∀ note ∈ notes, ∀ id t interval, ¬ note.Starts id t interval) : l'.Paced := by
  have hquiet : ∀ {id t interval}, Quiet id t interval l'.notes → Quiet id t interval l.notes := by
    intro id t interval hq
    rw [hnotes] at hq
    exact hq.of_append fun note hnote => hidle note hnote id t interval
  refine ⟨?_, ?_, ?_, ?_⟩
  · intro id r' t interval hr' hq
    rcases hkept id r' t interval hr' hq with ⟨hinactive, hclean⟩ | ⟨r, hr, hdirty, hactive, hdue, _⟩
    · refine ⟨hclean, fun hactive => ?_⟩
      rw [hinactive] at hactive
      cases hactive
    · obtain ⟨hclean, hlate⟩ := h.record id r t interval hr (hquiet hq)
      rw [hdirty, hactive, hdue, hinFlight]
      exact ⟨hclean, hlate⟩
  · intro task job r' t interval hjob hr' hq hepoch
    rw [hjobs] at hjob
    rcases hkept job.id r' t interval hr' hq with ⟨hinactive, _⟩ | ⟨r, hr, _, hactive, _, hsame⟩
    · exact hinactive
    · rw [hactive]
      rw [hsame] at hepoch
      exact h.dropped task job r t interval hjob hr (hquiet hq) hepoch
  · intro task job w t interval hjob hw hq
    rw [hjobs] at hjob
    exact h.job task job w t interval hjob hw (hquiet hq)
  · rw [hnotes]
    exact h.paced.append fun note hnote => Note.paced_of_idle (hidle note hnote)

/-- Loading a watch wakes it only with a signal. -/
theorem Loop.Paced.load (h : l.Paced) (hl : l.Coherent listed)
    (hprimed : ∀ id r, l.runtimes.get id = some r → r.Primed id) (w : Watch) :
    (Loop.load os now l w).Paced := by
  have hframe := load_frame l os now w
  have hnotes : (Loop.load os now l w).notes =
      l.notes ++ signalIf (((l.runtimes.get w.id).getD .new).alarms w) w.id := by rw [hframe]
  refine h.runtimes _ ?_ (by rw [hframe]) (by rw [hframe]) hnotes
    fun note hnote id t interval => signalIf_starts _ _ note hnote
  intro id r' t interval hr' hq
  rw [load_runtimes] at hr'
  split at hr'
  · rename_i heq
    subst heq
    obtain rfl := Option.some.inj hr'
    rw [hnotes] at hq
    have halarms := hq.signalIf
    have hq := hq.of_append (signalIf_starts _ _)
    cases hr : l.runtimes.get w.id with
    | none =>
        rw [hr, Option.getD_none] at halarms
        have hinactive : w.active = false := by
          simpa [Runtime.alarms, Runtime.pathChanged, Runtime.new] using halarms
        refine Or.inl ⟨hinactive, ?_⟩
        rw [Option.getD_none]
        show (false || Runtime.new.alarms w) = false
        rw [halarms]
        rfl
    | some r =>
        rw [hr, Option.getD_some] at halarms
        rw [Option.getD_some]
        obtain ⟨v, hv, _⟩ := hl.known w.id r hr
        have hclean := (h.record w.id r t interval hr hq).1
        cases hactive : w.active with
        | false =>
            refine Or.inl ⟨hactive, ?_⟩
            show (r.dirty || r.alarms w) = false
            rw [hclean, halarms]
            rfl
        | true =>
            -- no alarm: the version that was loaded is active and of the same epoch
            have hquiet := halarms
            unfold Runtime.alarms at halarms
            rw [hactive, Bool.true_and, Bool.or_eq_false_iff, Bool.or_eq_false_iff] at halarms
            obtain ⟨⟨_, hwas⟩, hepoch⟩ := halarms
            have hwas : r.active = true := by simpa using hwas
            have hdue := hprimed w.id r hr hwas
            refine Or.inr ⟨r, rfl, ?_, ?_, ?_, ?_⟩
            · show (r.dirty || r.alarms w) = r.dirty
              rw [hquiet, Bool.or_false]
            · rw [hwas]
              exact hactive
            · refine if_neg ?_
              rintro ⟨_, hnone | hchanged⟩
              · exact hdue hnone
              · rw [hepoch] at hchanged
                cases hchanged
            · unfold Runtime.epochChanged at hepoch
              unfold Runtime.epoch
              rw [hv] at hepoch ⊢
              show some w.epoch = some v.epoch
              have hsame : v.epoch = w.epoch := by simpa using hepoch
              rw [hsame]
  · have hq := Quiet.of_append (hnotes ▸ hq) (signalIf_starts _ _)
    exact Or.inr ⟨r', hr', rfl, rfl, rfl, rfl⟩

theorem Loop.Paced.drop (h : l.Paced) (id : String) : (Loop.drop os l id).Paced := by
  have hframe := drop_frame l os id
  refine h.runtimes [] ?_ (by rw [hframe]) (by rw [hframe])
    (by rw [hframe, List.append_nil]) fun _ hnote => absurd hnote List.not_mem_nil
  intro id' r t interval hr _
  rw [hframe] at hr
  have hr : (l.runtimes.erase id).get id' = some r := hr
  rw [Dict.get_erase] at hr
  split at hr
  · cases hr
  · exact Or.inr ⟨r, hr, rfl, rfl, rfl, rfl⟩

/-- A watch becomes dirty only with a signal. -/
theorem Loop.Paced.mark (h : l.Paced) (p : Runtime → Bool) : (l.mark p).Paced := by
  have hidle : ∀ note ∈ (l.runtimes.entries.filter fun entry => p entry.2).map (fun entry =>
      Note.signalled entry.1), ∀ id t interval, ¬ note.Starts id t interval := by
    intro note hnote id t interval
    obtain ⟨entry, _, rfl⟩ := List.mem_map.mp hnote
    exact not_false
  refine h.runtimes _ ?_ rfl rfl rfl hidle
  intro id r' t interval hr' hq
  have hr' : (l.runtimes.map _).get id = some r' := hr'
  rw [Dict.get_map] at hr'
  obtain ⟨r, hr, rfl⟩ := Option.map_eq_some_iff.mp hr'
  have hcalm := Since.keeps_of_append hq fun note hnote => hidle note hnote id t interval
  split
  · rename_i hp
    have hsignal : Note.signalled id ∈ (l.runtimes.entries.filter fun entry => p entry.2).map
        fun entry => Note.signalled entry.1 :=
      List.mem_map.mpr ⟨(id, r), List.mem_filter.mpr ⟨Dict.get_eq_some.mp hr, hp⟩, rfl⟩
    exact absurd rfl (hcalm _ hsignal)
  · exact Or.inr ⟨r, hr, rfl, rfl, rfl, rfl⟩

/-- A job that is over makes its watch due one interval after its dispatch. -/
theorem Loop.Paced.join (h : l.Paced) (hl : l.Coherent listed)
    (hrenews : ∀ task job, l.jobs.get task = some job → job.Renews) {task : Nat}
    (hjoin : l.join os task = some l') : l'.Paced := by
  obtain ⟨job, hjob, hstage, hcases⟩ := join_cases hjoin
  obtain ⟨w, hw, _⟩ := hl.working task job hjob
  have hretired : ∀ task' job', (l.retire task job).jobs.get task' = some job' →
      l.jobs.get task' = some job' ∧ job'.id ≠ job.id := by
    intro task' job' hjob'
    have hjob' : (l.jobs.erase task).get task' = some job' := hjob'
    rw [Dict.get_erase] at hjob'
    split at hjob'
    · cases hjob'
    · rename_i hne
      exact ⟨hjob', fun heq => hne (hl.exclusive task' task job' job hjob' hjob heq)⟩
  have hfree : ∀ id, id ∉ (l.retire task job).inFlight → id ≠ job.id → id ∉ l.inFlight := by
    intro id hid hne hmem
    exact hid (Finset.mem_erase.mpr ⟨hne, hmem⟩)
  rcases hcases with ⟨current, hcurrent, _, rfl⟩ | ⟨hstale, rfl⟩
  · rw [merge_frame]
    have hquiet : ∀ {id t interval}, Quiet id t interval (l.notes ++
        signalIf ((l.retire task job).follow os job.id job.runtime).2 job.id) →
          Quiet id t interval l.notes := fun hq => hq.of_append (signalIf_starts _ _)
    refine ⟨?_, ?_, ?_, ?_⟩
    · intro id r t interval hr hq
      have hset : (l.runtimes.set job.id _).get id = some r := hr
      rw [Dict.get_set] at hset
      split at hset
      · rename_i heq
        subst heq
        obtain rfl := Option.some.inj hset
        have hfollow := Quiet.signalIf hq
        obtain ⟨hclean, hlate⟩ := h.job task job w t interval hjob hw (hquiet hq)
        have hcurrently := (h.record job.id current t interval hcurrent (hquiet hq)).1
        refine ⟨?_, fun _ _ d hd => ?_⟩
        · show ((job.runtime.dirty || _) || current.dirty) = false
          rw [hclean, hfollow, hcurrently]
          rfl
        · have hd : job.runtime.nextDue = some d := hd
          rw [(hrenews task job hjob).finished hstage w hw] at hd
          rw [← Option.some.inj hd]
          exact hlate
      · rename_i hne
        obtain ⟨hclean, hlate⟩ := h.record id r t interval hset (hquiet hq)
        exact ⟨hclean, fun hactive hid => hlate hactive (hfree id hid hne)⟩
    · intro task' job' r t interval hjob' hr hq
      obtain ⟨hjob', hother⟩ := hretired task' job' hjob'
      have hr : (l.runtimes.set job.id _).get job'.id = some r := hr
      rw [Dict.get_set, if_neg hother] at hr
      exact h.dropped task' job' r t interval hjob' hr (hquiet hq)
    · exact fun task' job' w' t interval hjob' hw' hq =>
        h.job task' job' w' t interval (hretired task' job' hjob').1 hw' (hquiet hq)
    · exact h.paced.append fun note hnote =>
        Note.paced_of_idle fun id t interval => signalIf_starts _ _ note hnote
  · refine ⟨?_, ?_, ?_, h.paced⟩
    · intro id r t interval hr hq
      obtain ⟨hclean, hlate⟩ := h.record id r t interval hr hq
      refine ⟨hclean, fun hactive hid => ?_⟩
      by_cases heq : id = job.id
      · subst heq
        rw [h.dropped task job r t interval hjob hr hq (hstale r hr)] at hactive
        cases hactive
      · exact hlate hactive (hfree id hid heq)
    · exact fun task' job' r t interval hjob' =>
        h.dropped task' job' r t interval (hretired task' job' hjob').1
    · exact fun task' job' w' t interval hjob' =>
        h.job task' job' w' t interval (hretired task' job' hjob').1

/-- A watch that is due was quiet for an interval, or was not quiet. -/
theorem Loop.Paced.dispatchOne (h : l.Paced) (hl : l.Coherent listed)
    (hpositive : ∀ w, listed w → 0 ≤ w.interval) (id : String) : (l.dispatchOne now id).Paced := by
  rcases dispatchOne_cases l id now with
    ⟨current, watch, hcurrent, hwatch, hactive, hdue, hfree, _, heq⟩ | heq
  · rw [heq]
    obtain ⟨w, hw, _, hlisted⟩ := hl.known id current hcurrent
    rw [hwatch] at hw
    obtain rfl := Option.some.inj hw
    have hinterval := hpositive watch hlisted
    have hlate : ∀ t interval, Quiet id t interval l.notes → t + interval ≤ now := by
      intro t interval hq
      obtain ⟨hclean, hlate⟩ := h.record id current t interval hcurrent hq
      have hrunning : current.active = true := by
        unfold Runtime.active
        rw [hwatch]
        exact hactive
      unfold Runtime.due at hdue
      rw [hclean, Bool.false_or] at hdue
      obtain ⟨d, hd, hle⟩ := Option.any_eq_true _ _ |>.mp hdue
      exact (hlate hrunning hfree d hd).trans (of_decide_eq_true hle)
    have hbefore : ∀ {id' t interval}, Quiet id' t interval (l.spawn id current watch now).notes →
        (id' = id ∧ t = now ∧ interval = watch.interval) ∨ Quiet id' t interval l.notes := by
      intro id' t interval hq
      have hq : Since _ _ (l.notes ++ [.dispatched id now watch.interval]) := hq
      rcases (since_concat.mp hq).2 with ⟨rfl, rfl, rfl⟩ | hq
      · exact Or.inl ⟨rfl, rfl, rfl⟩
      · exact Or.inr hq
    have hruntimes : ∀ id' r, (l.spawn id current watch now).runtimes.get id' = some r →
        (id' = id ∧ r = { current with dirty := false }) ∨
          (id' ≠ id ∧ l.runtimes.get id' = some r) := by
      intro id' r hr
      have hr : (l.runtimes.set id { current with dirty := false }).get id' = some r := hr
      rw [Dict.get_set] at hr
      split at hr
      · exact Or.inl ⟨by assumption, (Option.some.inj hr).symm⟩
      · exact Or.inr ⟨by assumption, hr⟩
    have hjobs : ∀ task job, (l.spawn id current watch now).jobs.get task = some job →
        job = ⟨id, now, { current with dirty := false }, .sampling⟩ ∨
          (l.jobs.get task = some job ∧ job.id ≠ id) := by
      intro task job hjob
      have hjob : (l.jobs.set l.tasks _).get task = some job := hjob
      rw [Dict.get_set] at hjob
      split at hjob
      · exact Or.inl (Option.some.inj hjob).symm
      · exact Or.inr ⟨hjob, fun heq => hfree ((hl.inFlight_iff id).mpr ⟨task, job, hjob, heq⟩)⟩
    refine ⟨?_, ?_, ?_, always_concat.mpr ⟨h.paced, paced_dispatched hlate⟩⟩
    · intro id' r t interval hr hq
      rcases hruntimes id' r hr with ⟨rfl, rfl⟩ | ⟨hne, hr⟩
      · exact ⟨rfl, fun _ hid => absurd (Finset.mem_insert_self id' l.inFlight) hid⟩
      · rcases hbefore hq with ⟨heq, _⟩ | hq
        · exact absurd heq hne
        · obtain ⟨hclean, hlate⟩ := h.record id' r t interval hr hq
          exact ⟨hclean, fun hactive hid => hlate hactive fun hmem =>
            hid (Finset.mem_insert_of_mem hmem)⟩
    · intro task job r t interval hjob hr hq hepoch
      rcases hjobs task job hjob with rfl | ⟨hjob, hne⟩
      · rcases hruntimes id r hr with ⟨_, rfl⟩ | ⟨hne, _⟩
        · exact absurd rfl hepoch
        · exact absurd rfl hne
      · rcases hruntimes job.id r hr with ⟨heq, _⟩ | ⟨_, hr⟩
        · exact absurd heq hne
        · rcases hbefore hq with ⟨heq, _⟩ | hq
          · exact absurd heq hne
          · exact h.dropped task job r t interval hjob hr hq hepoch
    · intro task job w t interval hjob hw hq
      rcases hjobs task job hjob with rfl | ⟨hjob, hne⟩
      · have hw : current.watch = some w := hw
        rw [hwatch] at hw
        obtain rfl := Option.some.inj hw
        refine ⟨rfl, ?_⟩
        show t + interval ≤ now + watch.interval
        rcases hbefore hq with ⟨_, rfl, rfl⟩ | hq
        · exact le_refl _
        · have hle := hlate t interval hq
          linarith
      · rcases hbefore hq with ⟨heq, _⟩ | hq
        · exact absurd heq hne
        · exact h.job task job w t interval hjob hw hq
  · rw [heq]
    exact h

/-- A job moves on: its runtime stays clean, and nothing is signalled or dispatched. -/
theorem Loop.Paced.advance (h : l.Paced) {task : Nat} {job job' : Job}
    (hjob : l.jobs.get task = some job) (hid : job'.id = job.id) (hnow : job'.now = job.now)
    (hwatch : job'.runtime.watch = job.runtime.watch) (hdirty : job'.runtime.dirty = job.runtime.dirty)
    (hidle : ∀ note ∈ notes, ∀ id t interval, ¬ note.Starts id t interval) :
    (l.advance task job' notes).Paced := by
  have hquiet : ∀ {id t interval}, Quiet id t interval (l.notes ++ notes) →
      Quiet id t interval l.notes :=
    fun hq => hq.of_append fun note hnote => hidle note hnote _ _ _
  have hget : ∀ task' k, (l.advance task job' notes).jobs.get task' = some k →
      ∃ j, l.jobs.get task' = some j ∧ k.id = j.id ∧ k.now = j.now ∧
        k.runtime.watch = j.runtime.watch ∧ k.runtime.dirty = j.runtime.dirty := by
    intro task' k hk
    have hk : (l.jobs.set task job').get task' = some k := hk
    rw [Dict.get_set] at hk
    split at hk
    · rename_i heq
      obtain rfl := Option.some.inj hk
      exact ⟨job, heq ▸ hjob, hid, hnow, hwatch, hdirty⟩
    · exact ⟨k, hk, rfl, rfl, rfl, rfl⟩
  refine ⟨fun id r t interval hr hq => h.record id r t interval hr (hquiet hq), ?_, ?_, ?_⟩
  · intro task' k r t interval hk hr hq hepoch
    obtain ⟨j, hj, hjid, _, hjwatch, _⟩ := hget task' k hk
    rw [hjid] at hr hq
    refine h.dropped task' j r t interval hj hr (hquiet hq) ?_
    unfold Runtime.epoch at hepoch ⊢
    rw [← hjwatch]
    exact hepoch
  · intro task' k w t interval hk hw hq
    obtain ⟨j, hj, hjid, hjnow, hjwatch, hjdirty⟩ := hget task' k hk
    rw [hjid] at hq
    rw [hjwatch] at hw
    rw [hjdirty, hjnow]
    exact h.job task' j w t interval hj hw (hquiet hq)
  · exact h.paced.append fun note hnote => Note.paced_of_idle (hidle note hnote)

end pieces

section renews

variable {job : Job} {w : Watch} {r : Runtime}

/-- After an error the watch is due one interval after the dispatch. -/
theorem renews_failed (job : Job) (r : Runtime) : (job.finish false r).Renews where
  finished _ u hu := by
    have hu : r.watch = some u := hu
    show some (job.now + (r.watch.map Watch.interval).getD 1) = _
    rw [hu]
    rfl
  committing v change after hstage := by
    have hstage : Stage.finished = .committing v change after := hstage
    cases hstage

theorem renews_finished (hw : r.watch = some w) (hdue : r.nextDue = some (job.now + w.interval)) :
    (job.finish true r).Renews where
  finished _ u hu := by
    have hu : r.watch = some u := hu
    rw [hw] at hu
    obtain rfl := Option.some.inj hu
    exact hdue
  committing v change after hstage := by
    have hstage : Stage.finished = .committing v change after := hstage
    cases hstage

/-- A worker answers, and the sample is not skipped. -/
theorem renews_sampled (hw : job.runtime.watch = some w) (hactive : w.active = true)
    {reply : Option FileSample} (hskips : ∀ sample ∈ reply, sample.Skips w.condition = false) :
    (job.sampled w reply).1.Renews := by
  unfold Job.sampled
  cases hlook : look job.runtime (reply.map FileSample.value) with
  | ended ok r =>
      cases ok with
      | false => exact renews_failed job r
      | true =>
          cases reply with
          | none =>
              unfold look at hlook
              rw [hw, Option.filter_some, if_pos hactive] at hlook
              cases hlook
          | some sample =>
              have hlook : look job.runtime (some sample.value) = .ended true r := hlook
              rw [look_sample hw hactive, hskips sample rfl, if_neg Bool.false_ne_true] at hlook
              split at hlook
              · cases hlook
              · cases hlook
  | observed v r =>
      refine ⟨fun hstage => ?_, fun v' change after hstage => ?_⟩
      · cases hstage
      · cases hstage

theorem renews_compared (hw : job.runtime.watch = some w) (observed : Value)
    (baseline : Option (Option Value)) : (job.compared w observed baseline).1.Renews := by
  unfold Job.compared
  cases baseline with
  | none => exact renews_failed job job.runtime
  | some b =>
      have hjudge := judge_spec job.runtime w observed b job.now
      simp only
      cases hjudged : judge job.runtime w observed b job.now with
      | ended r =>
          rw [hjudged] at hjudge
          cases hjudge with
          | unchanged => exact renews_finished hw rfl
          | fresh => exact renews_finished hw rfl
          | young => exact renews_finished hw rfl
      | commit value change failed after =>
          rw [hjudged] at hjudge
          refine ⟨fun hstage => ?_, fun v change' after' hstage u hu => ?_⟩
          · cases hstage
          · obtain ⟨rfl, rfl, rfl⟩ := Stage.committing.inj hstage
            cases hjudge with
            | first =>
                have hu : job.runtime.watch = some u := hu
                rw [hw] at hu
                obtain rfl := Option.some.inj hu
                exact ⟨rfl, rfl⟩
            | prompt =>
                have hu : job.runtime.watch = some u := hu
                rw [hw] at hu
                obtain rfl := Option.some.inj hu
                exact ⟨rfl, rfl⟩
            | ripe =>
                have hu : job.runtime.watch = some u := hu
                rw [hw] at hu
                obtain rfl := Option.some.inj hu
                exact ⟨rfl, rfl⟩

end renews

/-! ## Runs -/

/-- No sample is skipped: none is transient, and the file of a condition is there. -/
def NeverSkips (h : Host) : Act → Prop
  | .sampled task reply => ∀ job ∈ h.loop.jobs.get task, ∀ watch ∈ job.runtime.watch,
      ∀ sample ∈ reply, sample.Skips watch.condition = false
  | _ => True

instance (h : Host) : ∀ act : Act, Decidable (NeverSkips h act)
  | .sampled task reply => inferInstanceAs (Decidable (∀ job ∈ h.loop.jobs.get task,
      ∀ watch ∈ job.runtime.watch, ∀ sample ∈ reply, sample.Skips watch.condition = false))
  | .called _ | .notified _ | .compared .. | .committed .. | .turned .. | .reloaded ..
  | .restarted => isTrue trivial

/-- What the invariants say of a host. -/
structure Host.Paced (crates : Crates) (h : Host) : Prop where
  coherent : h.Coherent crates
  each : h.loop.Each Runtime.Primed Job.Renews
  paced : h.loop.Paced

section host

variable {crates : Crates} {h t : Host} {act : Act} {l l' : Loop} {listed : Watch → Prop}

theorem renews_carries : Carries Runtime.Primed Job.Renews where
  load id r w at_ _ hactive hnone := by
    have hactive : w.active = true := hactive
    have hnone : (if w.active = true ∧ (r.nextDue = none ∨ r.epochChanged w = true) then some at_
      else r.nextDue) = none := hnone
    split at hnone
    · cases hnone
    · rename_i hkeeps
      exact hkeeps ⟨hactive, Or.inl hnone⟩
  dirty _ _ _ hr := hr
  spawn id r at_ _ := by
    refine ⟨fun hstage => ?_, fun v change after hstage => ?_⟩
    · cases hstage
    · cases hstage
  join job dirty hjob hstage hactive hnone := by
    have hnone : job.runtime.nextDue = none := hnone
    obtain ⟨w, hw, _⟩ := Option.any_eq_true _ _ |>.mp hactive
    rw [hjob.finished hstage w hw] at hnone
    cases hnone

theorem Loop.Paced.turn (h : l.Paced) (hl : l.Coherent listed)
    (heach : l.Each Runtime.Primed Job.Renews) (hpositive : ∀ w, listed w → 0 ≤ w.interval)
    {os : Native} {branch : Branch} {ids : List String} {now : Rat}
    (hloads : ∀ w ∈ branch.loads, listed w ∧ ∀ v, listed v → v.id = w.id → v.Precedes w)
    (hturn : l.turn os branch ids now = some l') : l'.Paced := by
  have hc := renews_carries
  refine (turn_keeps (P := fun m => m.Coherent listed ∧ m.Each Runtime.Primed Job.Renews ∧ m.Paced)
    hturn ⟨hl, heach, h⟩ ?_ ?_ ?_ ?_ ?_ ?_).2.2
  · intro m queue overflow cursor hm
    refine ⟨hm.1.congr rfl rfl rfl rfl, hm.2.1.congr rfl rfl, ?_⟩
    exact hm.2.2.runtimes []
      (fun _ r _ _ hr _ => Or.inr ⟨r, hr, rfl, rfl, rfl, rfl⟩) rfl rfl
      (List.append_nil _).symm fun _ hnote => absurd hnote List.not_mem_nil
  · exact fun m _ _ hm => ⟨hl.join hm, heach.join hc hm, h.join hl heach.job hm⟩
  · intro m w hw at_ hm
    obtain ⟨hlisted, hlatest⟩ := hloads w hw
    exact ⟨hm.1.load hlisted hlatest, hm.2.1.load hc hm.1 hlatest,
      hm.2.2.load hm.1 hm.2.1.record w⟩
  · exact fun m id _ hm => ⟨hm.1.drop id, hm.2.1.drop id, hm.2.2.drop id⟩
  · exact fun m p hm => ⟨hm.1.mark p, hm.2.1.mark hc p, hm.2.2.mark p⟩
  · exact fun m id hm => ⟨hm.1.dispatchOne id, hm.2.1.dispatchOne hc id,
      hm.2.2.dispatchOne hm.1 hpositive id⟩

/-- An interval is never negative. -/
theorem Lists.interval_nonneg {db : Db} {w : Watch} (hw : Lists crates db w) : 0 ≤ w.interval := by
  obtain ⟨row, _, v, hv, hprecedes⟩ := hw
  have hinterval : v.interval = max row.interval minInterval := by rw [watchFromValue_some hv]
  rw [← hprecedes.interval_eq, hinterval]
  refine le_trans ?_ (le_max_right _ _)
  unfold minInterval
  norm_num

theorem Host.Paced.step (hh : h.Paced crates) (hok : NeverSkips h act)
    (hstep : h.step crates act = some t) : t.Paced crates := by
  have hcoherent := hh.coherent.step hstep
  have hc := hh.coherent
  cases Host.step_moved hstep with
  | called => exact ⟨hcoherent, hh.each, hh.paced⟩
  | notified =>
      refine ⟨hcoherent, ?_, ?_⟩
      · unfold Loop.notify
        split <;> exact hh.each.congr rfl rfl
      · unfold Loop.notify
        split
        · exact hh.paced.runtimes []
            (fun _ r _ _ hr _ => Or.inr ⟨r, hr, rfl, rfl, rfl, rfl⟩) rfl rfl
            (List.append_nil _).symm fun _ hnote => absurd hnote List.not_mem_nil
        · exact hh.paced.runtimes []
            (fun _ r _ _ hr _ => Or.inr ⟨r, hr, rfl, rfl, rfl, rfl⟩) rfl rfl
            (List.append_nil _).symm fun _ hnote => absurd hnote List.not_mem_nil
  | @sampled task job watch reply hjob hstage hwatch hanswers =>
      obtain ⟨w, hw, hactive, _⟩ := hc.working task job hjob
      rw [hwatch] at hw
      obtain rfl := Option.some.inj hw
      obtain ⟨hid, hnow, hsame, _, hdirty⟩ := sampled_frame job watch reply
      refine ⟨hcoherent, hh.each.setJob (renews_sampled hwatch hactive ?_) _,
        hh.paced.advance hjob hid hnow hsame hdirty ?_⟩
      · exact fun sample hsample => hok job hjob watch hwatch sample hsample
      · intro note hnote id at_ interval
        rw [sampled_notes job watch reply note hnote]
        exact not_false
  | @compared task job watch observed busy hjob hstage hwatch =>
      obtain ⟨hid, hnow, hsame, hdirty, _⟩ := compared_frame job watch observed
        (readBaseline crates h.db watch.id busy)
      refine ⟨hcoherent, hh.each.setJob (renews_compared hwatch observed _) _,
        hh.paced.advance hjob hid hnow hsame hdirty ?_⟩
      obtain ⟨v, hv⟩ := compared_notes job watch observed (readBaseline crates h.db watch.id busy)
      intro note hnote id at_ interval
      rw [hv] at hnote
      rw [List.mem_singleton.mp hnote]
      exact not_false
  | @committed task job watch value change after eventUuid uuid now stamp receipt db hjob hstage
      hwatch hnew hcommit =>
      have hsame := hc.same_watch task job value change after hjob hstage
      obtain ⟨hdue, hdirty⟩ := (hh.each.job task job hjob).committing value change after hstage
        watch hwatch
      refine ⟨hcoherent, hh.each.setJob (renews_finished (hsame.trans hwatch) hdue) _,
        hh.paced.advance hjob (finish_id job true after) rfl ?_ ?_ ?_⟩
      · rw [finish_watch]
        exact hsame
      · rw [finish_dirty]
        exact hdirty
      · intro note hnote id at_ interval
        rw [List.mem_singleton.mp hnote]
        exact not_false
  | @refused task job watch value change after eventUuid uuid now stamp busy hjob hstage hwatch =>
      refine ⟨hcoherent, hh.each.setJob (renews_failed job job.runtime) _,
        hh.paced.advance hjob (finish_id job false job.runtime) rfl
          (finish_watch job false job.runtime) (finish_dirty job false job.runtime) ?_⟩
      exact fun note hnote => absurd hnote List.not_mem_nil
  | turned hbranch hturn =>
      exact ⟨hcoherent, hh.each.turn renews_carries hc (Branch.loads_keeps hbranch) hturn,
        hh.paced.turn hc hh.each (fun w hw => hw.interval_nonneg) (Branch.loads_keeps hbranch) hturn⟩
  | reloaded hrows hturn =>
      exact ⟨hcoherent,
        hh.each.turn renews_carries hc (fun w hw => (loaded_spec hrows hw).2) hturn,
        hh.paced.turn hc hh.each (fun w hw => hw.interval_nonneg)
          (fun w hw => (loaded_spec hrows hw).2) hturn⟩
  | restarted =>
      exact ⟨hcoherent, each_new _, paced_new (always_concat.mpr ⟨hh.paced.paced, trivial⟩)⟩

/-- Attempts are paced in the runs in which no sample is skipped. -/
theorem attempts_paced (h : Host.ReachableBy crates NeverSkips t) :
    Always Note.Paced t.loop.notes := by
  have hpaced : t.Paced crates := Runs.LeadsBy.invariant
    (fun _ _ _ hs hok hstep => Host.Paced.step hs hok hstep) h
    ⟨coherent_new [], each_new [], paced_new always_nil⟩
  exact hpaced.paced.paced

end host

/-! ## A condition on a file that is not there -/

def sampleCondition : Value :=
  .object [("operator", .string "eq"), ("pointer", .string "/build/status"),
    ("value", .string "failed")]

def sampleConditionCrates : Crates :=
  .knowing [sampleCondition, .object [("condition", .string "not_matched")]]

/-- A condition is watched, and its file is gone. -/
def sampleGone : List Act :=
  [.called (.watchCreate "conversation-1" "build-failure" "/srv/app/status.json" (.finite 60)
      "shared-local" (.finite 0) (some sampleCondition) (sampleUuid 4) 10),
    .reloaded .works 11 [(sampleUuid 4).text] 11,
    .sampled 0 (some ⟨"/srv/app/status.json", .missing, none⟩),
    .turned .works (.joined 0) [(sampleUuid 4).text] 12]

/-- The watch is due again as soon as its job is joined. -/
theorem attempts_paced_fails :
    ¬ ∀ (crates : Crates) (t : Host), Host.Reachable crates t → Always Note.Paced t.loop.notes := by
  intro h
  have hrun : (Runs.run? (Host.step sampleConditionCrates) sampleGone .initial).any
      (fun t => ¬ Always Note.Paced t.loop.notes) = true := by
    decide +kernel
  obtain ⟨t, ht, hfast⟩ := Option.any_eq_true _ _ |>.mp hrun
  exact of_decide_eq_true hfast (h sampleConditionCrates t (Runs.leads_run ht))

/-- A minute lies between two attempts, the first of which finds that the condition does not hold
and the second of which fails. -/
def samplePaced : List Act :=
  [.called (.watchCreate "conversation-1" "build-failure" "/srv/app/status.json" (.finite 60)
      "shared-local" (.finite 0) (some sampleCondition) (sampleUuid 4) 10),
    .reloaded .works 11 [(sampleUuid 4).text] 11,
    .sampled 0 (some ⟨"/srv/app/status.json", .present "aa" (some .notMatched), none⟩),
    .compared 0 false, .committed 0 (sampleUuid 5) (sampleUuid 6) 11 11 false,
    .turned .works (.joined 0) [(sampleUuid 4).text] 12,
    .turned .works .woken [(sampleUuid 4).text] 71, .sampled 1 none,
    .turned .works (.joined 1) [(sampleUuid 4).text] 72,
    .turned .works .woken [(sampleUuid 4).text] 131]

/-- A run with three attempts. -/
theorem attempts_paced_sample :
    ∃ t, Runs.after? (Host.step sampleConditionCrates) NeverSkips samplePaced .initial = some t ∧
        t.loop.tasks = 3 ∧ Always Note.Paced t.loop.notes := by
  have hrun : (Runs.after? (Host.step sampleConditionCrates) NeverSkips samplePaced .initial).any
      (fun t => t.loop.tasks = 3) = true := by
    decide +kernel
  obtain ⟨t, ht, htasks⟩ := Option.any_eq_true _ _ |>.mp hrun
  exact ⟨t, ht, of_decide_eq_true htasks, attempts_paced (Runs.leadsBy_after ht)⟩

end CodexMonitor.Collector
