import CodexMonitor.Collector.Chain
import CodexMonitor.Collector.Registration
import Mathlib.Data.List.Rotate

/-!
# No signal is lost

A job works on a copy of its watch's runtime, and the copy replaces the live runtime
when the job is joined.  Notifications, overflows, reloads and new registrations come
in between.  Whatever the order, a runtime is dirty from a signal on until a job is
dispatched for it; and a turn leaves a dirty watch waiting only behind its own job or
when all workers are busy.
-/

namespace CodexMonitor.Collector

open History

/-! ## Signals in the notes -/

/-- No job is dispatched for the watch, and the process goes on. -/
def Note.Withholds (id : String) : Note → Prop
  | .dispatched id' _ _ => id' ≠ id
  | .restarted => False
  | _ => True

/-- A signal came for the watch, and no job was dispatched for it since. -/
def Unserved (id : String) : List Note → Prop := Since (· = .signalled id) (Note.Withholds id)

/-- A signal came for the watch, and then a job was dispatched for it or the process was
restarted. -/
def Served (id : String) (notes : List Note) : Prop :=
  ∃ before after, notes = before ++ .signalled id :: after ∧ ∃ note ∈ after, ¬ note.Withholds id

/-- An active runtime is dirty while a signal is unserved. -/
def Loop.Heeds (l : Loop) : Prop :=
  ∀ id r, l.runtimes.get id = some r → r.active = true → Unserved id l.notes → r.dirty = true

section pieces

variable {l l' : Loop} {os : Native} {now : Rat} {id : String} {notes more : List Note}
  {listed : Watch → Prop}

/-- Notes of other watches bring no signal. -/
theorem Unserved.of_append (h : Unserved id (notes ++ more))
    (hmore : ∀ note ∈ more, note ≠ .signalled id) : Unserved id notes :=
  Since.of_append h hmore

/-- A signal that no dispatch follows is unserved. -/
theorem unserved_or_served (notes : List Note) (hsignal : .signalled id ∈ more) :
    Unserved id (notes ++ more) ∨ Served id more := by
  obtain ⟨before, after, rfl⟩ := List.append_of_mem hsignal
  by_cases hafter : ∀ note ∈ after, note.Withholds id
  · left
    refine since_iff.mpr ⟨notes ++ before, .signalled id, after, by simp, rfl, ?_⟩
    intro note hnote
    obtain rfl | hnote := List.mem_cons.mp hnote
    · exact trivial
    · exact hafter note hnote
  · push Not at hafter
    exact .inr ⟨before, after, rfl, hafter⟩

theorem signalIf_ne {c : Bool} {id' : String} (hne : id ≠ id') :
    ∀ note ∈ signalIf c id', note ≠ .signalled id := by
  intro note hnote heq
  unfold signalIf at hnote
  split at hnote
  · have hsame := (List.mem_singleton.mp hnote).symm.trans heq
    exact hne (Note.signalled.inj hsame).symm
  · exact absurd hnote List.not_mem_nil

theorem heeds_new (notes : List Note) : (Loop.new notes).Heeds := by
  intro id r hr
  have hr : (∅ : Dict String Runtime).get id = some r := hr
  rw [Dict.get_empty] at hr
  cases hr

/-- Notes that bring no signal leave the runtimes as they are. -/
theorem Loop.Heeds.idle (h : l.Heeds) (hruntimes : l'.runtimes = l.runtimes)
    (hnotes : l'.notes = l.notes ++ more) (hmore : ∀ note ∈ more, ∀ id, note ≠ .signalled id) :
    l'.Heeds := by
  intro id r hr hactive hunserved
  rw [hruntimes] at hr
  rw [hnotes] at hunserved
  exact h id r hr hactive (hunserved.of_append fun note hnote => hmore note hnote id)

/-- A watch that is loaded without an alarm was active before. -/
theorem alarms_false {r : Runtime} {w : Watch} (h : r.alarms w = false) (hactive : w.active = true) :
    r.pathChanged w = false ∧ r.active = true ∧ r.epochChanged w = false := by
  unfold Runtime.alarms at h
  rw [hactive, Bool.true_and, Bool.or_eq_false_iff, Bool.or_eq_false_iff] at h
  exact ⟨h.1.1, by simpa using h.1.2, h.2⟩

theorem unchanged_epoch {r : Runtime} {w : Watch} (hactive : r.active = true)
    (h : r.epochChanged w = false) : r.epoch = some w.epoch := by
  obtain ⟨v, hv, _⟩ := Option.any_eq_true _ _ |>.mp hactive
  unfold Runtime.epochChanged at h
  unfold Runtime.epoch
  rw [hv] at h ⊢
  have hsame : v.epoch = w.epoch := by simpa using h
  rw [← hsame]
  rfl

theorem Loop.Heeds.load (h : l.Heeds) (w : Watch) : (Loop.load os now l w).Heeds := by
  intro id r' hr' hactive hunserved
  have hnotes : (Loop.load os now l w).notes =
      l.notes ++ signalIf (((l.runtimes.get w.id).getD .new).alarms w) w.id := by
    rw [load_frame]
  rw [load_runtimes] at hr'
  rw [hnotes] at hunserved
  split at hr'
  · rename_i heq
    subst heq
    obtain rfl := Option.some.inj hr'
    have hactive : w.active = true := hactive
    show (_ || ((l.runtimes.get w.id).getD .new).alarms w) = true
    cases halarms : ((l.runtimes.get w.id).getD .new).alarms w with
    | true => exact Bool.or_true _
    | false =>
        rw [halarms] at hunserved
        obtain ⟨hpath, hwas, _⟩ := alarms_false halarms hactive
        cases hr : l.runtimes.get w.id with
        | none =>
            rw [hr] at hpath
            cases hpath
        | some r =>
            rw [hr, Option.getD_some] at hwas
            have hunserved : Unserved w.id l.notes :=
              hunserved.of_append fun _ hnote => absurd hnote List.not_mem_nil
            rw [Option.getD_some, h w.id r hr hwas hunserved]
            rfl
  · rename_i hne
    exact h id r' hr' hactive (hunserved.of_append (signalIf_ne hne))

theorem Loop.Heeds.drop (h : l.Heeds) (id : String) : (Loop.drop os l id).Heeds := by
  intro id' r hr hactive hunserved
  rw [drop_frame] at hr hunserved
  have hr : (l.runtimes.erase id).get id' = some r := hr
  rw [Dict.get_erase] at hr
  split at hr
  · cases hr
  · exact h id' r hr hactive hunserved

theorem mem_marked {p : Runtime → Bool} :
    .signalled id ∈ ((l.runtimes.entries.filter fun entry => p entry.2).map fun entry =>
      Note.signalled entry.1) ↔ ∃ r, l.runtimes.get id = some r ∧ p r = true := by
  simp only [List.mem_map, List.mem_filter, Note.signalled.injEq, Prod.exists]
  constructor
  · rintro ⟨_, r, ⟨hentry, hp⟩, rfl⟩
    exact ⟨r, Dict.get_eq_some.mpr hentry, hp⟩
  · rintro ⟨r, hr, hp⟩
    exact ⟨id, r, ⟨Dict.get_eq_some.mp hr, hp⟩, rfl⟩

theorem Loop.Heeds.mark (h : l.Heeds) (p : Runtime → Bool) : (l.mark p).Heeds := by
  intro id r' hr' hactive hunserved
  have hr' : (l.runtimes.map _).get id = some r' := hr'
  rw [Dict.get_map] at hr'
  obtain ⟨r, hr, rfl⟩ := Option.map_eq_some_iff.mp hr'
  split
  · rfl
  · rename_i hp
    rw [if_neg hp] at hactive
    refine h id r hr hactive (Unserved.of_append hunserved fun note hnote heq => ?_)
    obtain ⟨q, hq, hpq⟩ := mem_marked.mp (heq ▸ hnote)
    obtain rfl := Option.some.inj (hr.symm.trans hq)
    exact hp hpq

/-- A job that is merged is of the version of the watch that is live. -/
theorem joined_active (hl : l.Coherent listed) {task : Nat} {job : Job} {current : Runtime}
    (hjob : l.jobs.get task = some job) (hcurrent : l.runtimes.get job.id = some current)
    (hepoch : current.epoch = job.runtime.epoch) : current.active = job.runtime.active := by
  obtain ⟨w, hw, _, _, _⟩ := hl.working task job hjob
  obtain ⟨v, hv, _, _⟩ := hl.known job.id current hcurrent
  have hprecedes := hl.behind task job current w v hjob hcurrent hw hv
  have hsame : v = w := by
    refine hprecedes.eq_of_epoch ?_
    unfold Runtime.epoch at hepoch
    rw [hv, hw] at hepoch
    exact Option.some.inj hepoch
  unfold Runtime.active
  rw [hv, hw, hsame]

/-- The live runtime's flag survives the join. -/
theorem Loop.Heeds.join (h : l.Heeds) (hl : l.Coherent listed) {task : Nat}
    (hjoin : l.join os task = some l') : l'.Heeds := by
  obtain ⟨job, hjob, _, ⟨current, hcurrent, hepoch, rfl⟩ | ⟨_, rfl⟩⟩ := join_cases hjoin
  · rw [merge_frame]
    intro id r hr hactive hunserved
    have hset : (l.runtimes.set job.id _).get id = some r := hr
    rw [Dict.get_set] at hset
    split at hset
    · rename_i heq
      subst heq
      obtain rfl := Option.some.inj hset
      have hactive : job.runtime.active = true := hactive
      show ((job.runtime.dirty || ((l.retire task job).follow os job.id job.runtime).2) ||
        current.dirty) = true
      cases hfollow : ((l.retire task job).follow os job.id job.runtime).2 with
      | true => rw [Bool.or_true, Bool.true_or]
      | false =>
          have hunserved : Unserved job.id (l.notes ++
            signalIf ((l.retire task job).follow os job.id job.runtime).2 job.id) := hunserved
          rw [hfollow] at hunserved
          have hcurrently : current.active = true :=
            (joined_active hl hjob hcurrent hepoch).trans hactive
          rw [h job.id current hcurrent hcurrently
            (hunserved.of_append fun _ hnote => absurd hnote List.not_mem_nil), Bool.or_true]
    · rename_i hne
      exact h id r hset hactive (Unserved.of_append hunserved (signalIf_ne hne))
  · exact h

/-- A dispatch serves the watch it is for. -/
theorem Loop.Heeds.dispatchOne (h : l.Heeds) (id : String) : (l.dispatchOne now id).Heeds := by
  rcases dispatchOne_cases l id now with ⟨current, watch, _, _, _, _, _, _, heq⟩ | heq
  · rw [heq]
    intro id' r hr hactive hunserved
    have hr : (l.runtimes.set id { current with dirty := false }).get id' = some r := hr
    have hunserved : Since _ _ (l.notes ++ [.dispatched id now watch.interval]) := hunserved
    obtain ⟨hwithholds, hstart⟩ := since_concat.mp hunserved
    have hne : id' ≠ id := fun heq => hwithholds heq.symm
    rw [Dict.get_set_ne hne] at hr
    obtain hsignal | hbefore := hstart
    · cases hsignal
    · exact h id' r hr hactive hbefore
  · rw [heq]
    exact h

theorem Loop.Heeds.turn (h : l.Heeds) (hl : l.Coherent listed) {branch : Branch}
    {ids : List String}
    (hloads : ∀ w ∈ branch.loads, listed w ∧ ∀ v, listed v → v.id = w.id → v.Precedes w)
    (hturn : l.turn os branch ids now = some l') : l'.Heeds := by
  refine (turn_keeps (P := fun m => m.Coherent listed ∧ m.Heeds) hturn ⟨hl, h⟩ ?_ ?_ ?_ ?_ ?_ ?_).2
  · exact fun m _ _ _ hm => ⟨hm.1.congr rfl rfl rfl rfl, hm.2⟩
  · exact fun m _ _ hjoin => ⟨hl.join hjoin, h.join hl hjoin⟩
  · intro m w hw at_ hm
    obtain ⟨hlisted, hlatest⟩ := hloads w hw
    exact ⟨hm.1.load hlisted hlatest, hm.2.load w⟩
  · exact fun m id _ hm => ⟨hm.1.drop id, hm.2.drop id⟩
  · exact fun m p hm => ⟨hm.1.mark p, hm.2.mark p⟩
  · exact fun m id hm => ⟨hm.1.dispatchOne id, hm.2.dispatchOne id⟩

end pieces

/-! ## What tells the loop that a file may have changed -/

def Act.Turns : Act → Bool
  | .turned .. | .reloaded .. => true
  | _ => false

/-- The step from `a` to `b` brings a signal for the watch. -/
inductive Signals (a b : Host) (id : String) : Act → Prop
  /-- a notification is received that is about the watch -/
  | received {path : Path} {queue : List Path} {r : Runtime} {os : Native} {ids : List String}
      {now : Rat} (hqueue : a.loop.queue = path :: queue) (hr : a.loop.runtimes.get id = some r)
      (hmatches : r.matches path = true) : Signals a b id (.turned os .received ids now)
  /-- the queue was full, and the watch is active -/
  | overflowed {act : Act} {r : Runtime} (hturns : act.Turns = true)
      (hoverflow : a.loop.overflow = true) (hr : b.loop.runtimes.get id = some r)
      (hactive : r.active = true) : Signals a b id act
  /-- the watch is active from now on, or in another epoch -/
  | loaded {act : Act} {r : Runtime} (hturns : act.Turns = true)
      (hr : b.loop.runtimes.get id = some r) (hactive : r.active = true)
      (hchanged : ∀ q, a.loop.runtimes.get id = some q → q.active = true → q.epoch ≠ r.epoch) :
      Signals a b id act
  /-- another directory is registered for the watch -/
  | aliased {act : Act} {parent : Path} (hturns : act.Turns = true)
      (halias : b.loop.aliases.get id = some parent)
      (hnew : a.loop.aliases.get id ≠ some parent) : Signals a b id act

/-- The loop `m` wrote `more` down since `l`, and its new versions and aliases are signalled there. -/
structure Loop.Alerts (l m : Loop) (more : List Note) : Prop where
  notes_eq : m.notes = l.notes ++ more
  loaded : ∀ id r, m.runtimes.get id = some r → r.active = true → .signalled id ∈ more ∨
    ∃ q, l.runtimes.get id = some q ∧ q.active = true ∧ q.epoch = r.epoch
  aliased : ∀ id parent, m.aliases.get id = some parent → .signalled id ∈ more ∨
    l.aliases.get id = some parent

section alerts

variable {l m m' : Loop} {os : Native} {now : Rat} {id : String} {more : List Note}
  {listed : Watch → Prop} {branch : Branch} {ids : List String}

theorem Loop.Alerts.refl (l : Loop) : l.Alerts l [] where
  notes_eq := (List.append_nil _).symm
  loaded _ r hr hactive := .inr ⟨r, hr, hactive, rfl⟩
  aliased _ _ halias := .inr halias

theorem mem_signalIf (id : String) : .signalled id ∈ signalIf true id := List.mem_singleton.mpr rfl

/-- An alias is dropped, or it is new and signalled. -/
theorem follow_aliases {finished : Runtime} {id' : String} {parent : Path}
    (h : (l.follow os id finished).1.aliases.get id' = some parent) :
    (id' = id ∧ (l.follow os id finished).2 = true) ∨ l.aliases.get id' = some parent := by
  have hdropped : ∀ {p : Path}, (l.dropAlias os id).aliases.get id' = some p →
      l.aliases.get id' = some p := by
    intro p hp
    rw [dropAlias_get] at hp
    split at hp
    · cases hp
    · exact hp
  have hset : ∀ {p : Path}, ((l.dropAlias os id).aliases.set id p).get id' = some parent →
      id' = id ∨ l.aliases.get id' = some parent := by
    intro p hp
    rw [Dict.get_set] at hp
    split at hp
    · rename_i heq
      exact .inl heq
    · exact .inr (hdropped hp)
  unfold Loop.follow at h ⊢
  cases hp : finished.aliasParent with
  | none =>
      rw [hp] at h
      exact .inr h
  | some p =>
      rw [hp] at h
      simp only at h ⊢
      split at h
      · exact .inr h
      · rename_i hne
        rw [if_neg hne]
        unfold Loop.addAlias at h ⊢
        cases hcount : (l.dropAlias os id).registered.get p with
        | some count =>
            rw [hcount] at h
            exact (hset h).imp_left fun heq => ⟨heq, rfl⟩
        | none =>
            rw [hcount] at h
            simp only at h ⊢
            split at h
            · rename_i hwatch
              rw [if_pos hwatch]
              exact (hset h).imp_left fun heq => ⟨heq, rfl⟩
            · exact .inr (hdropped h)

theorem Loop.Alerts.join (hl : l.Coherent listed) {task : Nat} (hjoin : l.join os task = some m) :
    ∃ more, l.Alerts m more := by
  obtain ⟨job, hjob, _, ⟨current, hcurrent, hepoch, rfl⟩ | ⟨_, rfl⟩⟩ := join_cases hjoin
  · have hframe := merge_frame (l.retire task job) os job.id current job.runtime
    refine ⟨signalIf ((l.retire task job).follow os job.id job.runtime).2 job.id, ?_, ?_, ?_⟩
    · rw [hframe]
      rfl
    · intro id r hr hactive
      rw [hframe] at hr
      have hset : (l.runtimes.set job.id _).get id = some r := hr
      rw [Dict.get_set] at hset
      split at hset
      · rename_i heq
        subst heq
        obtain rfl := Option.some.inj hset
        exact .inr ⟨current, hcurrent, (joined_active hl hjob hcurrent hepoch).trans hactive, hepoch⟩
      · exact .inr ⟨r, hset, hactive, rfl⟩
    · intro id parent halias
      have halias : ((l.retire task job).follow os job.id job.runtime).1.aliases.get id =
          some parent := halias
      obtain ⟨rfl, hfollow⟩ | hold := follow_aliases halias
      · rw [hfollow]
        exact .inl (mem_signalIf job.id)
      · exact .inr hold
  · exact ⟨[], (List.append_nil _).symm, (Loop.Alerts.refl l).loaded, (Loop.Alerts.refl l).aliased⟩

theorem Loop.Alerts.load (h : l.Alerts m more) (w : Watch) :
    ∃ more', l.Alerts (Loop.load os now m w) more' := by
  have hnotes : (Loop.load os now m w).notes =
      m.notes ++ signalIf (((m.runtimes.get w.id).getD .new).alarms w) w.id := by
    rw [load_frame]
  refine ⟨more ++ signalIf (((m.runtimes.get w.id).getD .new).alarms w) w.id, ?_, ?_, ?_⟩
  · rw [hnotes, h.notes_eq, List.append_assoc]
  · intro id r hr hactive
    rw [load_runtimes] at hr
    split at hr
    · rename_i heq
      subst heq
      obtain rfl := Option.some.inj hr
      have hactive : w.active = true := hactive
      cases halarms : ((m.runtimes.get w.id).getD .new).alarms w with
      | true => exact .inl (List.mem_append_right _ (mem_signalIf w.id))
      | false =>
          obtain ⟨hpath, hwas, hepoch⟩ := alarms_false halarms hactive
          cases hq : m.runtimes.get w.id with
          | none =>
              rw [hq] at hpath
              cases hpath
          | some q =>
              rw [hq, Option.getD_some] at hwas hepoch
              have hsame : q.epoch = some w.epoch := unchanged_epoch hwas hepoch
              refine (h.loaded w.id q hq hwas).imp (List.mem_append_left _) ?_
              rintro ⟨u, hu, huactive, huepoch⟩
              exact ⟨u, hu, huactive, huepoch.trans hsame⟩
    · exact (h.loaded id r hr hactive).imp_left (List.mem_append_left _)
  · intro id parent halias
    exact (h.aliased id parent (load_aliases m os now w halias).1).imp_left
      (List.mem_append_left _)

theorem Loop.Alerts.drop (h : l.Alerts m more) (id : String) : l.Alerts (Loop.drop os m id) more := by
  refine ⟨?_, fun id' r hr hactive => ?_, fun id' parent halias => ?_⟩
  · rw [drop_frame]
    exact h.notes_eq
  · rw [drop_frame] at hr
    have hr : (m.runtimes.erase id).get id' = some r := hr
    rw [Dict.get_erase] at hr
    split at hr
    · cases hr
    · exact h.loaded id' r hr hactive
  · have hkept : (Loop.drop os m id).aliases = ((m.releaseGone os id).dropAlias os id).aliases := rfl
    rw [hkept, dropAlias_get] at halias
    split at halias
    · cases halias
    · rw [releaseGone_frame] at halias
      exact h.aliased id' parent halias

/-- Notes are added, and each runtime is of the version it was of. -/
theorem Loop.Alerts.same (h : l.Alerts m more) {added : List Note}
    (hnotes : m'.notes = m.notes ++ added) (haliases : m'.aliases = m.aliases)
    (hruntimes : ∀ id r, m'.runtimes.get id = some r →
      ∃ q, m.runtimes.get id = some q ∧ q.watch = r.watch) : l.Alerts m' (more ++ added) := by
  refine ⟨?_, fun id r hr hactive => ?_, fun id parent halias => ?_⟩
  · rw [hnotes, h.notes_eq, List.append_assoc]
  · obtain ⟨q, hq, hwatch⟩ := hruntimes id r hr
    have hqactive : q.active = true := by
      unfold Runtime.active at hactive ⊢
      rw [hwatch]
      exact hactive
    have hqepoch : q.epoch = r.epoch := by
      unfold Runtime.epoch
      rw [hwatch]
    refine (h.loaded id q hq hqactive).imp (List.mem_append_left _) ?_
    rintro ⟨u, hu, huactive, huepoch⟩
    exact ⟨u, hu, huactive, huepoch.trans hqepoch⟩
  · rw [haliases] at halias
    exact (h.aliased id parent halias).imp_left (List.mem_append_left _)

theorem mark_watch {p : Runtime → Bool} {r : Runtime} (hr : (m.mark p).runtimes.get id = some r) :
    ∃ q, m.runtimes.get id = some q ∧ q.watch = r.watch := by
  have hr : (m.runtimes.map _).get id = some r := hr
  rw [Dict.get_map] at hr
  obtain ⟨q, hq, rfl⟩ := Option.map_eq_some_iff.mp hr
  refine ⟨q, hq, ?_⟩
  split <;> rfl

theorem dispatchOne_watch {id' : String} {r : Runtime}
    (hr : (m.dispatchOne now id').runtimes.get id = some r) :
    ∃ q, m.runtimes.get id = some q ∧ q.watch = r.watch := by
  rcases dispatchOne_cases m id' now with ⟨current, watch, hcurrent, _, _, _, _, _, heq⟩ | heq
  · rw [heq] at hr
    have hr : (m.runtimes.set id' { current with dirty := false }).get id = some r := hr
    rw [Dict.get_set] at hr
    split at hr
    · rename_i hid
      obtain rfl := Option.some.inj hr
      exact ⟨current, hid ▸ hcurrent, rfl⟩
    · exact ⟨r, hr, rfl⟩
  · rw [heq] at hr
    exact ⟨r, hr, rfl⟩

theorem dispatchOne_notes (m : Loop) (now : Rat) (id : String) :
    ∃ added, (m.dispatchOne now id).notes = m.notes ++ added ∧
      (m.dispatchOne now id).aliases = m.aliases := by
  rcases dispatchOne_cases m id now with ⟨current, watch, _, _, _, _, _, _, heq⟩ | heq
  · rw [heq]
    exact ⟨_, rfl, rfl⟩
  · rw [heq]
    exact ⟨[], (List.append_nil _).symm, rfl⟩

/-- A turn signals what it loads and registers. -/
theorem turn_alerts (hl : l.Coherent listed)
    (hturn : l.turn os branch ids now = some m) : ∃ more, l.Alerts m more := by
  refine turn_keeps (P := fun m => ∃ more, l.Alerts m more) hturn ⟨[], .refl l⟩ ?_ ?_ ?_ ?_ ?_ ?_
  · rintro m queue overflow cursor ⟨more, hm⟩
    exact ⟨more, hm.notes_eq, hm.loaded, hm.aliased⟩
  · exact fun m task _ hjoin => Loop.Alerts.join hl hjoin
  · rintro m w _ at_ ⟨more, hm⟩
    exact hm.load w
  · rintro m id _ ⟨more, hm⟩
    exact ⟨more, hm.drop id⟩
  · rintro m p ⟨more, hm⟩
    exact ⟨_, hm.same rfl rfl fun _ _ hr => mark_watch hr⟩
  · rintro m id ⟨more, hm⟩
    obtain ⟨added, hnotes, haliases⟩ := dispatchOne_notes m now id
    exact ⟨_, hm.same hnotes haliases fun _ _ hr => dispatchOne_watch hr⟩

end alerts

/-! ## The rest of a turn -/

/-- The loop `m` wrote a signal for the watch down since `l`. -/
def Loop.Signals (l m : Loop) (id : String) : Prop :=
  ∃ more, m.notes = l.notes ++ more ∧ .signalled id ∈ more

section turn

variable {l m : Loop} {os : Native} {now : Rat} {id : String} {branch : Branch} {ids : List String}

theorem Loop.Signals.append (h : l.Signals m id) {m' : Loop} {added : List Note}
    (hnotes : m'.notes = m.notes ++ added) : l.Signals m' id := by
  obtain ⟨more, hmore, hsignal⟩ := h
  refine ⟨more ++ added, ?_, List.mem_append_left _ hsignal⟩
  rw [hnotes, hmore, List.append_assoc]

theorem mark_signals {p : Runtime → Bool} {r : Runtime} {more : List Note}
    (hmore : m.notes = l.notes ++ more) (hr : m.runtimes.get id = some r) (hp : p r = true) :
    l.Signals (m.mark p) id := by
  refine ⟨more ++ (m.runtimes.entries.filter fun entry => p entry.2).map fun entry =>
    .signalled entry.1, ?_, List.mem_append_right _ (mem_marked.mpr ⟨r, hr, hp⟩)⟩
  show m.notes ++ _ = _
  rw [hmore, List.append_assoc]

theorem Loop.Signals.dispatch (h : l.Signals m id) : l.Signals (m.dispatch ids now) id := by
  refine dispatch_keeps (P := fun m => l.Signals m id) h (fun _ _ hm => hm) fun m id' hm => ?_
  obtain ⟨added, hadded, _⟩ := dispatchOne_notes m now id'
  exact hm.append hadded

theorem Loop.Signals.takeOverflow (h : l.Signals m id) : l.Signals m.takeOverflow id := by
  unfold Loop.takeOverflow
  split
  · exact h.append rfl
  · exact h

theorem dispatch_watch {r : Runtime} (hr : (m.dispatch ids now).runtimes.get id = some r) :
    ∃ q, m.runtimes.get id = some q ∧ q.watch = r.watch := by
  have hall : ∀ r, (m.dispatch ids now).runtimes.get id = some r →
      ∃ q, m.runtimes.get id = some q ∧ q.watch = r.watch := by
    refine dispatch_keeps (P := fun t => ∀ r, t.runtimes.get id = some r →
      ∃ q, m.runtimes.get id = some q ∧ q.watch = r.watch) ?_ (fun _ _ ht => ht) ?_
    · exact fun r hr => ⟨r, hr, rfl⟩
    · intro t id' ht r hr
      obtain ⟨q, hq, hwatch⟩ := dispatchOne_watch hr
      obtain ⟨u, hu, hsame⟩ := ht q hq
      exact ⟨u, hu, hsame.trans hwatch⟩
  exact hall r hr

/-- What a branch writes is added, and it leaves the overflow flag. -/
theorem branch_follows (h : l.branch os branch = some m) :
    (∃ more, m.notes = l.notes ++ more) ∧ m.overflow = l.overflow := by
  have hself : (∃ more, l.notes = l.notes ++ more) ∧ l.overflow = l.overflow :=
    ⟨⟨[], (List.append_nil _).symm⟩, rfl⟩
  cases branch with
  | joined task =>
      obtain ⟨job, _, _, ⟨current, _, _, rfl⟩ | ⟨_, rfl⟩⟩ := join_cases h
      · rw [merge_frame]
        exact ⟨⟨_, rfl⟩, rfl⟩
      · exact hself
  | reloaded watches at_ =>
      obtain rfl := Option.some.inj h
      refine reload_keeps (P := fun m => (∃ more, m.notes = l.notes ++ more) ∧
        m.overflow = l.overflow) hself (fun hl => ?_) ?_
      · refine List.foldlRecOn (motive := fun m => (∃ more, m.notes = l.notes ++ more) ∧
          m.overflow = l.overflow) watches (Loop.load os at_) hl fun m hm w _ => ?_
        obtain ⟨⟨more, hmore⟩, hoverflow⟩ := hm
        rw [load_frame]
        refine ⟨⟨more ++ signalIf (((m.runtimes.get w.id).getD .new).alarms w) w.id, ?_⟩, hoverflow⟩
        rw [← List.append_assoc, ← hmore]
      · intro m id _ hm
        rw [drop_frame]
        exact hm
  | received =>
      have hreceive : l.receive = some m := h
      unfold Loop.receive at hreceive
      split at hreceive
      · cases hreceive
      · obtain rfl := Option.some.inj hreceive
        exact ⟨⟨_, rfl⟩, rfl⟩
  | woken =>
      obtain rfl := Option.some.inj h
      exact hself

/-- An overflow signals every active watch. -/
theorem overflow_signals (hturn : l.turn os branch ids now = some m) (hoverflow : l.overflow = true)
    {r : Runtime} (hr : m.runtimes.get id = some r) (hactive : r.active = true) :
    l.Signals m id := by
  obtain ⟨b, hb, hrest⟩ := Option.bind_eq_some_iff.mp hturn
  obtain ⟨⟨more, hmore⟩, hkept⟩ := branch_follows hb
  simp only at hrest
  split at hrest
  · obtain rfl := Option.some.inj hrest
    obtain ⟨q, hq, hwatch⟩ := dispatch_watch hr
    refine Loop.Signals.dispatch ?_
    have htaken : b.takeOverflow = Loop.mark { b with overflow := false } Runtime.active := by
      unfold Loop.takeOverflow
      rw [if_pos (hkept.trans hoverflow)]
    rw [htaken] at hq ⊢
    obtain ⟨u, hu, hsame⟩ := mark_watch hq
    refine mark_signals (m := { b with overflow := false }) hmore hu ?_
    unfold Runtime.active at hactive ⊢
    rw [hsame, hwatch]
    exact hactive
  · cases hrest

/-- A notification signals the watches it is about. -/
theorem received_signals (hturn : l.turn os .received ids now = some m) {path : Path}
    {queue : List Path} {r : Runtime} (hqueue : l.queue = path :: queue)
    (hr : l.runtimes.get id = some r) (hmatches : r.matches path = true) : l.Signals m id := by
  obtain ⟨b, hb, hrest⟩ := Option.bind_eq_some_iff.mp hturn
  have hreceive : l.receive = some b := hb
  unfold Loop.receive at hreceive
  rw [hqueue] at hreceive
  obtain rfl := Option.some.inj hreceive
  simp only at hrest
  split at hrest
  · obtain rfl := Option.some.inj hrest
    exact Loop.Signals.dispatch (Loop.Signals.takeOverflow
      (mark_signals (m := { l with queue := queue }) (List.append_nil _).symm hr hmatches))
  · cases hrest

/-- A watch that waits is behind its own job, or all workers are busy. -/
def Loop.Waits (l : Loop) (id : String) : Prop :=
  ∀ r, l.runtimes.get id = some r → r.active = true → r.dirty = true →
    id ∈ l.inFlight ∨ maxWorkers ≤ l.jobs.size

/-- The scan gets to a watch and starts its job, if anything is free. -/
theorem dispatchOne_waits (l : Loop) (now : Rat) (id : String) : (l.dispatchOne now id).Waits id := by
  intro r hr hactive hdirty
  unfold Loop.dispatchOne at hr ⊢
  split at hr
  · rename_i hbusy
    rw [if_pos hbusy]
    exact hbusy.symm
  · rename_i hfree
    rw [if_neg hfree]
    cases hcurrent : l.runtimes.get id with
    | none =>
        rw [hcurrent] at hr
        exact absurd (hcurrent.symm.trans hr) (by simp)
    | some current =>
        rw [hcurrent] at hr
        simp only at hr ⊢
        cases hwatch : current.watch.filter Watch.active with
        | none =>
            rw [hwatch] at hr
            obtain rfl := Option.some.inj (hcurrent.symm.trans hr)
            obtain ⟨w, hw, hwactive⟩ := Option.any_eq_true _ _ |>.mp hactive
            rw [hw, Option.filter_some, if_pos hwactive] at hwatch
            cases hwatch
        | some watch =>
            rw [hwatch] at hr
            simp only at hr ⊢
            split at hr
            · rename_i hdue
              rw [if_pos hdue]
              exact .inl (Finset.mem_insert_self id l.inFlight)
            · rename_i hdue
              obtain rfl := Option.some.inj (hcurrent.symm.trans hr)
              unfold Runtime.due at hdue
              rw [hdirty] at hdue
              exact absurd rfl hdue

/-- The rest of the scan starts no job in its place. -/
theorem Loop.Waits.dispatchOne (h : l.Waits id) (id' : String) : (l.dispatchOne now id').Waits id := by
  rcases dispatchOne_cases l id' now with ⟨current, watch, _, _, _, _, _, hroom, heq⟩ | heq
  · rw [heq]
    intro r hr hactive hdirty
    have hr : (l.runtimes.set id' { current with dirty := false }).get id = some r := hr
    rw [Dict.get_set] at hr
    split at hr
    · obtain rfl := Option.some.inj hr
      cases hdirty
    · obtain hmem | hfull := h r hr hactive hdirty
      · exact .inl (Finset.mem_insert_of_mem hmem)
      · omega
  · rw [heq]
    exact h

/-- **A turn serves what it can.**  After a turn, each dirty watch waits for its own job or for a
worker. -/
theorem turn_waits (hturn : l.turn os branch ids now = some m) (id : String) : m.Waits id := by
  obtain ⟨b, _, hrest⟩ := Option.bind_eq_some_iff.mp hturn
  simp only at hrest
  split at hrest
  · rename_i hperm
    obtain rfl := Option.some.inj hrest
    intro r hr
    obtain ⟨q, hq, _⟩ := dispatch_watch hr
    have hid : id ∈ ids := hperm.mem_iff.mpr (Dict.mem_keys.mpr ⟨q, hq⟩)
    suffices hwaits : (b.takeOverflow.dispatch ids now).Waits id from hwaits r hr
    unfold Loop.dispatch
    rw [if_neg (List.ne_nil_of_mem hid)]
    have hscan : ∀ (order : List String) (l : Loop), id ∈ order →
        (order.foldl (Loop.dispatchOne now) l).Waits id := by
      intro order
      induction order using List.reverseRecOn with
      | nil => exact fun _ hmem => absurd hmem List.not_mem_nil
      | append_singleton order last ih =>
          intro l hmem
          rw [List.foldl_append, List.foldl_cons, List.foldl_nil]
          by_cases hlast : last = id
          · rw [hlast]
            exact dispatchOne_waits _ now id
          · obtain hmem | hmem := List.mem_append.mp hmem
            · exact (ih l hmem).dispatchOne last
            · exact absurd (List.mem_singleton.mp hmem).symm hlast
    exact hscan _ _ (List.mem_rotate.mpr hid)
  · cases hrest

end turn

/-! ## Every reachable host heeds its signals -/

section host

variable {crates : Crates} {h t : Host} {act : Act}

theorem Loop.Heeds.advance {l : Loop} (h : l.Heeds) (task : Nat) (job : Job) {notes : List Note}
    (hnotes : ∀ note ∈ notes, ∀ id, note ≠ .signalled id) : (l.advance task job notes).Heeds :=
  h.idle rfl rfl hnotes

theorem Host.heeds_step (hh : h.loop.Heeds) (hc : h.Coherent crates)
    (hstep : h.step crates act = some t) : t.loop.Heeds := by
  cases Host.step_moved hstep with
  | called => exact hh
  | notified =>
      unfold Loop.notify
      split
      · exact hh
      · exact hh
  | @sampled task job watch reply =>
      refine hh.advance _ _ fun note hnote id heq => ?_
      rw [sampled_notes job watch reply note hnote] at heq
      cases heq
  | @compared task job watch observed busy =>
      obtain ⟨v, hv⟩ := compared_notes job watch observed (readBaseline crates h.db watch.id busy)
      refine hh.advance _ _ fun note hnote id heq => ?_
      rw [hv] at hnote
      rw [List.mem_singleton.mp hnote] at heq
      cases heq
  | committed =>
      refine hh.advance _ _ fun note hnote id heq => ?_
      rw [List.mem_singleton.mp hnote] at heq
      cases heq
  | refused => exact hh.advance _ _ fun _ hnote => absurd hnote List.not_mem_nil
  | turned hbranch hturn => exact hh.turn hc (Branch.loads_keeps hbranch) hturn
  | reloaded hrows hturn => exact hh.turn hc (fun w hw => (loaded_spec hrows hw).2) hturn
  | restarted => exact heeds_new _

theorem Host.Reachable.heeds (h : Host.Reachable crates t) : t.loop.Heeds := by
  have hall : t.Coherent crates ∧ t.loop.Heeds :=
    Runs.Leads.invariant (P := fun t => t.Coherent crates ∧ t.loop.Heeds)
      (fun _ _ _ hs hstep => ⟨hs.1.step hstep, Host.heeds_step hs.2 hs.1 hstep⟩) h
      ⟨coherent_new [], heeds_new []⟩
  exact hall.2

end host

section kept

variable {crates : Crates} {h t a b c : Host} {act : Act} {id : String} {r : Runtime}

theorem turn_of_step (hturns : act.Turns = true) (hstep : h.step crates act = some t) :
    ∃ os branch ids now, h.loop.turn os branch ids now = some t.loop := by
  cases Host.step_moved hstep with
  | turned _ hturn => exact ⟨_, _, _, _, hturn⟩
  | reloaded _ hturn => exact ⟨_, _, _, _, hturn⟩
  | called | notified | sampled | compared | committed | refused | restarted => cases hturns

theorem Host.leads_notes (hleads : Runs.Leads (Host.step crates) h t) :
    ∃ more, t.loop.notes = h.loop.notes ++ more := by
  refine Runs.Leads.invariant (P := fun t => ∃ more, t.loop.notes = h.loop.notes ++ more) ?_ hleads
    ⟨[], (List.append_nil _).symm⟩
  rintro s act u ⟨before, hbefore⟩ hstep
  obtain ⟨more, hmore⟩ := Host.step_notes hstep
  exact ⟨before ++ more, by rw [hmore, hbefore, List.append_assoc]⟩

/-- A signal is written down in the step that brings it. -/
theorem Signals.noted (hc : a.Coherent crates) (hstep : a.step crates act = some b)
    (hsignal : Signals a b id act) : a.loop.Signals b.loop id := by
  cases hsignal with
  | received hqueue hr hmatches =>
      cases Host.step_moved hstep with
      | turned _ hturn => exact received_signals hturn hqueue hr hmatches
  | overflowed hturns hoverflow hr hactive =>
      obtain ⟨os, branch, ids, now, hturn⟩ := turn_of_step hturns hstep
      exact overflow_signals hturn hoverflow hr hactive
  | loaded hturns hr hactive hchanged =>
      obtain ⟨os, branch, ids, now, hturn⟩ := turn_of_step hturns hstep
      obtain ⟨more, hmore⟩ := turn_alerts hc hturn
      obtain hsignal | ⟨q, hq, hqactive, hepoch⟩ := hmore.loaded id _ hr hactive
      · exact ⟨more, hmore.notes_eq, hsignal⟩
      · exact absurd hepoch (hchanged q hq hqactive)
  | aliased hturns halias hnew =>
      obtain ⟨os, branch, ids, now, hturn⟩ := turn_of_step hturns hstep
      obtain ⟨more, hmore⟩ := turn_alerts hc hturn
      obtain hsignal | hold := hmore.aliased id _ halias
      · exact ⟨more, hmore.notes_eq, hsignal⟩
      · exact absurd hold hnew

/-- **No signal is lost.**  After a notification about the watch, an overflow, a new version or a
new directory of it, and any further steps, the watch, if it is active, is dirty, or a job was
dispatched for it after the signal or the process restarted. -/
theorem signal_kept (h : Host.Reachable crates a) (hstep : a.step crates act = some b)
    (hsignal : Signals a b id act) (hleads : Runs.Leads (Host.step crates) b c)
    (hr : c.loop.runtimes.get id = some r) (hactive : r.active = true) :
    r.dirty = true ∨ ∃ more, c.loop.notes = a.loop.notes ++ more ∧ Served id more := by
  obtain ⟨more, hmore, hmem⟩ := hsignal.noted h.coherent hstep
  obtain ⟨rest, hrest⟩ := Host.leads_notes hleads
  have hc : Host.Reachable crates c := (Runs.Leads.tail h hstep).trans hleads
  have hnotes : c.loop.notes = a.loop.notes ++ (more ++ rest) := by
    rw [hrest, hmore, List.append_assoc]
  obtain hunserved | hserved := unserved_or_served a.loop.notes
    (List.mem_append_left rest hmem)
  · rw [← hnotes] at hunserved
    exact .inl (hc.heeds id r hr hactive hunserved)
  · exact .inr ⟨_, hnotes, hserved⟩

end kept

/-- The file is reported while its watch has a job. -/
def reportedActs : List Act :=
  sampleBaseline ++ [.turned .works .woken [(sampleUuid 4).text] 12,
    .notified ⟨true, ["srv", "app", "build.log"]⟩]

def receivedAct : Act := .turned .works .received [(sampleUuid 4).text] 12

/-- Before the receipt of the report the watch is clean, and it matches. -/
def reported (a : Host) : Bool :=
  a.loop.queue = [⟨true, ["srv", "app", "build.log"]⟩] ∧
    ((a.loop.runtimes.get (sampleUuid 4).text).any fun r =>
      r.matches ⟨true, ["srv", "app", "build.log"]⟩ ∧ r.dirty = false) = true

theorem signals_of_reported {a b : Host} (h : reported a = true) :
    Signals a b (sampleUuid 4).text receivedAct := by
  obtain ⟨hqueue, hmatches⟩ := of_decide_eq_true h
  obtain ⟨r, hr, hr'⟩ := Option.any_eq_true _ _ |>.mp hmatches
  exact .received hqueue hr (of_decide_eq_true hr').1

/-- The job goes on while its watch is dirty. -/
theorem signal_kept_sample :
    ∃ (a c : Host) (r : Runtime), Host.Reachable sampleFileCrates a ∧ Runs.Leads (Host.step sampleFileCrates) a c ∧
      reported a = true ∧ c.loop.runtimes.get (sampleUuid 4).text = some r ∧
      (r.dirty = true ∨ ∃ more, c.loop.notes = a.loop.notes ++ more ∧
        Served (sampleUuid 4).text more) := by
  have hrun : (Runs.run? (Host.step sampleFileCrates) reportedActs .initial).any (fun a =>
      reported a = true ∧ ((a.step sampleFileCrates receivedAct).any fun b =>
        (Runs.run? (Host.step sampleFileCrates)
          [.sampled 1 (some (sampleContent "bb")), .compared 1 false] b).any fun c =>
            (c.loop.runtimes.get (sampleUuid 4).text).any Runtime.active) = true) = true := by
    decide +kernel
  obtain ⟨a, ha, hfacts⟩ := Option.any_eq_true _ _ |>.mp hrun
  obtain ⟨hreported, hstep⟩ := of_decide_eq_true hfacts
  obtain ⟨b, hb, hlater⟩ := Option.any_eq_true _ _ |>.mp hstep
  obtain ⟨c, hc, hruntime⟩ := Option.any_eq_true _ _ |>.mp hlater
  obtain ⟨r, hr, hactive⟩ := Option.any_eq_true _ _ |>.mp hruntime
  have hreachable : Host.Reachable sampleFileCrates a := Runs.leads_run ha
  have hleads := Runs.leads_run hc
  exact ⟨a, c, r, hreachable, (Runs.Leads.tail .refl hb).trans hleads, hreported, hr,
    signal_kept hreachable hb (signals_of_reported hreported) hleads hr hactive⟩

section served

variable {crates : Crates} {a b c : Host} {act : Act} {id : String} {r : Runtime}

/-- **Every signal is served.**  When the loop has just taken a turn, a worker is free and the watch
has no job, then each signal of the watch, if it is active, was followed by a dispatch or a
restart. -/
theorem signal_served (h : Host.Reachable crates a) (hstep : a.step crates act = some b)
    (hsignal : Signals a b id act) (hleads : Runs.Leads (Host.step crates) b c)
    (hturned : ∃ (s : Host) (act : Act), act.Turns = true ∧ s.step crates act = some c)
    (hr : c.loop.runtimes.get id = some r) (hactive : r.active = true)
    (hroom : c.loop.jobs.size < maxWorkers)
    (hidle : ∀ task job, c.loop.jobs.get task = some job → job.id ≠ id) :
    ∃ more, c.loop.notes = a.loop.notes ++ more ∧ Served id more := by
  obtain hdirty | hserved := signal_kept h hstep hsignal hleads hr hactive
  · obtain ⟨s, act', hturns, hlast⟩ := hturned
    obtain ⟨os, branch, ids, now, hturn⟩ := turn_of_step hturns hlast
    have hc : Host.Reachable crates c := (Runs.Leads.tail h hstep).trans hleads
    obtain hbusy | hfull := turn_waits hturn id r hr hactive hdirty
    · obtain ⟨task, job, hjob, hid⟩ := (hc.coherent.inFlight_iff id).mp hbusy
      exact absurd hid (hidle task job hjob)
    · omega
  · exact hserved

end served

/-- The job is joined, and another one goes through its steps and is joined too. -/
def servedActs : List Act :=
  [.sampled 1 (some (sampleContent "aa")), .compared 1 false,
    .turned .works (.joined 1) [(sampleUuid 4).text] 12,
    .sampled 2 (some (sampleContent "aa")), .compared 2 false]

theorem signal_served_sample :
    ∃ (a c : Host) (more : List Note), Host.Reachable sampleFileCrates a ∧ reported a = true ∧
      c.loop.notes = a.loop.notes ++ more ∧ Served (sampleUuid 4).text more := by
  have hrun : (Runs.run? (Host.step sampleFileCrates) reportedActs .initial).any (fun a =>
      reported a = true ∧ ((a.step sampleFileCrates receivedAct).any fun b =>
        (Runs.run? (Host.step sampleFileCrates) servedActs b).any fun s =>
          (s.step sampleFileCrates (.turned .works (.joined 2) [(sampleUuid 4).text] 12)).any
            fun c => (c.loop.runtimes.get (sampleUuid 4).text).any Runtime.active ∧
              c.loop.jobs.entries.isEmpty = true) = true) = true := by
    decide +kernel
  obtain ⟨a, ha, hfacts⟩ := Option.any_eq_true _ _ |>.mp hrun
  obtain ⟨hreported, hstep⟩ := of_decide_eq_true hfacts
  obtain ⟨b, hb, hlater⟩ := Option.any_eq_true _ _ |>.mp hstep
  obtain ⟨s, hs, hlast⟩ := Option.any_eq_true _ _ |>.mp hlater
  obtain ⟨c, hc, hends⟩ := Option.any_eq_true _ _ |>.mp hlast
  obtain ⟨hruntime, hempty⟩ := of_decide_eq_true hends
  obtain ⟨r, hr, hactive⟩ := Option.any_eq_true _ _ |>.mp hruntime
  have hnone := List.isEmpty_iff.mp hempty
  have hroom : c.loop.jobs.size < maxWorkers := by
    unfold Dict.size
    rw [hnone]
    decide
  have hidle : ∀ task job, c.loop.jobs.get task = some job → job.id ≠ (sampleUuid 4).text := by
    intro task job hjob
    have hmem := Dict.get_eq_some.mp hjob
    rw [hnone] at hmem
    exact absurd hmem List.not_mem_nil
  have hreachable : Host.Reachable sampleFileCrates a := Runs.leads_run ha
  obtain ⟨more, hmore, hserved⟩ := signal_served hreachable hb (signals_of_reported hreported)
    (Runs.Leads.tail (Runs.leads_run hs) hc) ⟨s, _, rfl, hc⟩ hr hactive hroom hidle
  exact ⟨a, c, more, hreachable, hreported, hmore, hserved⟩

end CodexMonitor.Collector
