import CodexMonitor.Collector.Watch
import CodexMonitor.Lib.Dict
import Mathlib.Data.Finset.Basic

/-!
# The loop of the collector

`Loop` holds the local variables of `run`, and one function stands for each branch of
its `select!`: a finished job is joined, the watches are loaded from the store again,
a notification of the native watcher is received.  Every turn then takes the overflow
flag and dispatches the watches that are due, in an order that starts one further
each time.

`notes` is a record of what happened; nothing reads it.
-/

namespace CodexMonitor.Collector

/-! ## State -/

def maxWorkers : Nat := 4

def eventQueueCapacity : Nat := 1024

/-- How far a job is. -/
inductive Stage
  | sampling
  | comparing (observed : Value)
  | committing (checkpoint : Value) (change : Option Change) (committed : Runtime)
  | finished

/-- A sampling job: the watch, the instant it was dispatched at, and its copy of the runtime. -/
structure Job where
  id : String
  now : Rat
  runtime : Runtime
  stage : Stage

/-- What is written down about a run. -/
inductive Note
  | dispatched (id : String) (now interval : Rat)
  /-- an attempt is over, with the value it observed or with none -/
  | attempted (id : String) (now : Rat) (epoch : Int) (observed : Option Value)
  | committed (watch : Watch) (now : Rat) (checkpoint : Value) (change : Option Change)
      (deliveryId : Option String)
  /-- a notification, an overflow, a new alias or a lifecycle change concerns the watch -/
  | signalled (id : String)
  | restarted

structure Loop where
  runtimes : Dict String Runtime
  registered : Dict Path Nat
  /-- the directories the native watcher watches -/
  native : Finset Path
  aliases : Dict String Path
  jobs : Dict Nat Job
  inFlight : Finset String
  queue : List Path
  overflow : Bool
  fairCursor : Nat
  /-- how many jobs were spawned; the next one gets this number -/
  tasks : Nat
  notes : List Note

def Loop.new (notes : List Note) : Loop := ⟨∅, ∅, ∅, ∅, ∅, ∅, [], false, 0, 0, notes⟩

/-- The calls of the native watcher that fail: the directories it does not start to watch, and
those it does not stop to watch. -/
structure Native where
  refused : List Path
  stuck : List Path
deriving DecidableEq

/-- Every call of the native watcher succeeds. -/
def Native.works : Native := ⟨[], []⟩

def Native.watch (os : Native) (path : Path) : Bool := path ∉ os.refused

def Native.unwatch (os : Native) (path : Path) : Bool := path ∉ os.stuck

/-! ## Registrations -/

/-- `release_registration`; `run` has the same statements twice more. -/
def Loop.release (l : Loop) (os : Native) (path : Path) : Loop :=
  match l.registered.get path with
  | none => l
  | some count =>
      if count - 1 = 0 then
        { l with
          registered := l.registered.erase path
          native := if os.unwatch path = true then l.native.erase path else l.native }
      else { l with registered := l.registered.set path (count - 1) }

/-- Register the directory of a watch. -/
def Loop.register (l : Loop) (os : Native) (path : Path) : Loop :=
  if l.registered.get path = none ∧ os.watch path = true then
    { l with registered := l.registered.set path 1, native := insert path l.native }
  else
    match l.registered.get path with
    | none => l
    | some count => { l with registered := l.registered.set path (count + 1) }

/-- Forget the alias of a watch. -/
def Loop.dropAlias (l : Loop) (os : Native) (id : String) : Loop :=
  match l.aliases.get id with
  | none => l
  | some target => Loop.release { l with aliases := l.aliases.erase id } os target

/-- Register the directory a watch's path leads to, if the native watcher can watch it. -/
def Loop.addAlias (l : Loop) (os : Native) (id : String) (parent : Path) : Loop × Bool :=
  match l.registered.get parent with
  | some count =>
      ({ l with
          registered := l.registered.set parent (count + 1)
          aliases := l.aliases.set id parent
          notes := l.notes ++ [.signalled id] }, true)
  | none =>
      if os.watch parent = true then
        ({ l with
            registered := l.registered.set parent 1
            native := insert parent l.native
            aliases := l.aliases.set id parent
            notes := l.notes ++ [.signalled id] }, true)
      else (l, false)

/-! ## A finished job is joined -/

/-- The directory that is to be registered besides the watch's own. -/
def Runtime.aliasParent (r : Runtime) : Option Path :=
  (r.nativePath.map parentFor).filter fun parent => r.watch.any fun w => parent ≠ w.parent

/-- Follow the watch's path to another directory; the flag says that it is registered now. -/
def Loop.follow (l : Loop) (os : Native) (id : String) (finished : Runtime) : Loop × Bool :=
  match finished.aliasParent with
  | none => (l, false)
  | some parent =>
      if l.aliases.get id = some parent then (l, false)
      else (l.dropAlias os id).addAlias os id parent

/-- The job's runtime replaces the live one, which may have become dirty in the meantime.  A new
alias makes it dirty too, for the changes between the sample and the registration. -/
def Loop.merge (l : Loop) (os : Native) (id : String) (current finished : Runtime) : Loop :=
  let moved := l.follow os id finished
  { moved.1 with
    runtimes := moved.1.runtimes.set id
      { finished with dirty := (finished.dirty || moved.2) || current.dirty } }

/-- A job of another lifecycle epoch is dropped. -/
def Loop.join (l : Loop) (os : Native) (task : Nat) : Option Loop :=
  match l.jobs.get task with
  | none => none
  | some job =>
      match job.stage with
      | .finished =>
          let l := { l with jobs := l.jobs.erase task, inFlight := l.inFlight.erase job.id }
          match l.runtimes.get job.id with
          | none => some l
          | some current =>
              if current.epoch = job.runtime.epoch then
                some (l.merge os job.id current job.runtime)
              else some l
      | _ => none

/-! ## The watches are loaded again -/

/-- The version of a watch that was loaded before has another path, or is none. -/
def Runtime.pathChanged (r : Runtime) (watch : Watch) : Bool :=
  r.watch.all fun prior => prior.location ≠ watch.location

/-- The version of a watch that was loaded before has another epoch. -/
def Runtime.epochChanged (r : Runtime) (watch : Watch) : Bool :=
  r.watch.any fun prior => prior.epoch ≠ watch.epoch

/-- Loading a watch makes its runtime dirty. -/
def Runtime.alarms (r : Runtime) (watch : Watch) : Bool :=
  watch.active && (r.pathChanged watch || !r.active || r.epochChanged watch)

/-- The runtime of a watch that was loaded. -/
def Runtime.load (r : Runtime) (watch : Watch) (now : Rat) : Runtime :=
  { watch := some watch
    candidate := if r.epochChanged watch = true then none else r.candidate
    nextDue := if watch.active = true ∧ (r.nextDue = none ∨ r.epochChanged watch = true) then
        some now
      else r.nextDue
    dirty := r.dirty || r.alarms watch
    nativePath := r.nativePath }

/-- Release the directory of the version of a watch that was loaded before, when its path or its
activity changed. -/
def Loop.releaseOld (l : Loop) (os : Native) (r : Runtime) (watch : Watch) : Loop :=
  if r.pathChanged watch = true ∨ r.active ≠ watch.active then
    match r.watch with
    | none => l
    | some old => l.release os old.parent
  else l

def Loop.releaseAlias (l : Loop) (os : Native) (r : Runtime) (watch : Watch) : Loop :=
  if watch.active = false ∨ r.pathChanged watch = true then l.dropAlias os watch.id else l

/-- Register the directory of a watch that is active now and was not. -/
def Loop.registerNew (l : Loop) (os : Native) (r : Runtime) (watch : Watch) : Loop :=
  if watch.active = true ∧ (r.pathChanged watch = true ∨ r.active = false) then
    l.register os watch.parent
  else l

/-- Move the registrations of a watch from the version that was loaded before to `watch`. -/
def Loop.reregister (l : Loop) (os : Native) (r : Runtime) (watch : Watch) : Loop :=
  ((l.releaseOld os r watch).releaseAlias os r watch).registerNew os r watch

/-- Load one watch. -/
def Loop.load (os : Native) (now : Rat) (l : Loop) (watch : Watch) : Loop :=
  let r := (l.runtimes.get watch.id).getD .new
  let moved := l.reregister os r watch
  { moved with
    runtimes := moved.runtimes.set watch.id (r.load watch now)
    notes := if r.alarms watch = true then moved.notes ++ [.signalled watch.id] else moved.notes }

/-- Release the directory of a watch that is no longer listed. -/
def Loop.releaseGone (l : Loop) (os : Native) (id : String) : Loop :=
  match (l.runtimes.get id).bind fun r => r.watch.filter Watch.active with
  | none => l
  | some watch => l.release os watch.parent

/-- Forget a watch that is no longer listed. -/
def Loop.drop (os : Native) (l : Loop) (id : String) : Loop :=
  let released := (l.releaseGone os id).dropAlias os id
  { released with runtimes := released.runtimes.erase id }

/-- The watches that are listed, each loaded, and no others. -/
def Loop.reload (l : Loop) (os : Native) (watches : List Watch) (now : Rat) : Loop :=
  let l := watches.foldl (Loop.load os now) l
  (l.runtimes.keys.filter fun id => id ∉ watches.map Watch.id).foldl (Loop.drop os) l

/-! ## Notifications -/

/-- The native watcher reports a path; a full queue sets the overflow flag. -/
def Loop.notify (l : Loop) (path : Path) : Loop :=
  if l.queue.length < eventQueueCapacity then { l with queue := l.queue ++ [path] }
  else { l with overflow := true }

/-- The path is the watch's, or its directory, or those of the path the watch leads to. -/
def Runtime.matches (r : Runtime) (path : Path) : Bool :=
  r.watch.any fun w => w.location = path ∨ w.parent = path ∨
    r.nativePath.any fun target => target = path ∨ parentFor target = path

/-- The watches that meet a condition become dirty. -/
def Loop.mark (l : Loop) (p : Runtime → Bool) : Loop :=
  { l with
    runtimes := l.runtimes.map fun _ r => if p r = true then { r with dirty := true } else r
    notes := l.notes ++ (l.runtimes.entries.filter fun entry => p entry.2).map fun entry =>
      .signalled entry.1 }

/-- The next notification is received. -/
def Loop.receive (l : Loop) : Option Loop :=
  match l.queue with
  | [] => none
  | path :: queue => some (Loop.mark { l with queue := queue } fun r => r.matches path)

/-- After an overflow every active watch is dirty. -/
def Loop.takeOverflow (l : Loop) : Loop :=
  if l.overflow = true then Loop.mark { l with overflow := false } Runtime.active else l

/-! ## Dispatch -/

/-- Start a job for a watch; its runtime is clean from here on. -/
def Loop.spawn (l : Loop) (id : String) (current : Runtime) (watch : Watch) (now : Rat) : Loop :=
  let runtime := { current with dirty := false }
  { l with
    runtimes := l.runtimes.set id runtime
    inFlight := insert id l.inFlight
    jobs := l.jobs.set l.tasks ⟨id, now, runtime, .sampling⟩
    tasks := l.tasks + 1
    notes := l.notes ++ [.dispatched id now watch.interval] }

/-- A runtime whose sample is due. -/
def Runtime.due (r : Runtime) (now : Rat) : Bool :=
  r.dirty || r.nextDue.any fun at_ => at_ ≤ now

/-- Start a job for a watch that is due, unless all workers are busy or it has one. -/
def Loop.dispatchOne (now : Rat) (l : Loop) (id : String) : Loop :=
  if maxWorkers ≤ l.jobs.size ∨ id ∈ l.inFlight then l
  else
    match l.runtimes.get id with
    | none => l
    | some current =>
        match current.watch.filter Watch.active with
        | none => l
        | some watch => if current.due now = true then l.spawn id current watch now else l

/-- Scan the watches, starting one further than the last time. -/
def Loop.dispatch (l : Loop) (ids : List String) (now : Rat) : Loop :=
  if ids = [] then l
  else
    let start := l.fairCursor % ids.length
    (ids.rotate start).foldl (Loop.dispatchOne now)
      { l with fairCursor := (start + 1) % ids.length }

/-! ## Turns -/

/-- The branches of `select!`. -/
inductive Branch
  | joined (task : Nat)
  | reloaded (watches : List Watch) (now : Rat)
  | received
  | woken

/-- The watches a branch loads. -/
def Branch.loads : Branch → List Watch
  | .reloaded watches _ => watches
  | _ => []

def Loop.branch (l : Loop) (os : Native) : Branch → Option Loop
  | .joined task => l.join os task
  | .reloaded watches now => some (l.reload os watches now)
  | .received => l.receive
  | .woken => some l

/-- One turn of the loop.  `ids` are the keys of the runtimes in the order the map lists them. -/
def Loop.turn (l : Loop) (os : Native) (branch : Branch) (ids : List String) (now : Rat) :
    Option Loop :=
  (l.branch os branch).bind fun l =>
    let l := l.takeOverflow
    if ids.Perm l.runtimes.keys then some (l.dispatch ids now) else none

/-! ## What each step leaves alone -/

section frame

variable (l : Loop) (os : Native) (id : String) (path : Path)

theorem release_frame : l.release os path =
    { l with
      registered := (l.release os path).registered
      native := (l.release os path).native } := by
  unfold Loop.release
  split
  · rfl
  · split <;> rfl

theorem register_frame : l.register os path =
    { l with
      registered := (l.register os path).registered
      native := (l.register os path).native } := by
  unfold Loop.register
  split
  · rfl
  · split <;> rfl

theorem dropAlias_frame : l.dropAlias os id =
    { l with
      registered := (l.dropAlias os id).registered
      native := (l.dropAlias os id).native
      aliases := (l.dropAlias os id).aliases } := by
  unfold Loop.dropAlias
  split
  · rfl
  · rw [release_frame]

/-- A note of a signal, if there is one. -/
def signalIf (c : Bool) (id : String) : List Note := if c = true then [.signalled id] else []

theorem addAlias_frame : (l.addAlias os id path).1 =
    { l with
      registered := (l.addAlias os id path).1.registered
      native := (l.addAlias os id path).1.native
      aliases := (l.addAlias os id path).1.aliases
      notes := l.notes ++ signalIf (l.addAlias os id path).2 id } := by
  unfold Loop.addAlias
  split
  · rfl
  · split
    · rfl
    · simp [signalIf]

theorem follow_frame (finished : Runtime) : (l.follow os id finished).1 =
    { l with
      registered := (l.follow os id finished).1.registered
      native := (l.follow os id finished).1.native
      aliases := (l.follow os id finished).1.aliases
      notes := l.notes ++ signalIf (l.follow os id finished).2 id } := by
  unfold Loop.follow
  split
  · simp [signalIf]
  · split
    · simp [signalIf]
    · rw [addAlias_frame, dropAlias_frame]

theorem merge_frame (current finished : Runtime) : l.merge os id current finished =
    { l with
      registered := (l.merge os id current finished).registered
      native := (l.merge os id current finished).native
      aliases := (l.merge os id current finished).aliases
      runtimes := l.runtimes.set id { finished with
        dirty := (finished.dirty || (l.follow os id finished).2) || current.dirty }
      notes := l.notes ++ signalIf (l.follow os id finished).2 id } := by
  simp only [Loop.merge]
  rw [follow_frame]

theorem releaseOld_frame (r : Runtime) (watch : Watch) : l.releaseOld os r watch =
    { l with
      registered := (l.releaseOld os r watch).registered
      native := (l.releaseOld os r watch).native } := by
  unfold Loop.releaseOld
  split
  · split
    · rfl
    · exact release_frame l os _
  · rfl

theorem releaseAlias_frame (r : Runtime) (watch : Watch) : l.releaseAlias os r watch =
    { l with
      registered := (l.releaseAlias os r watch).registered
      native := (l.releaseAlias os r watch).native
      aliases := (l.releaseAlias os r watch).aliases } := by
  unfold Loop.releaseAlias
  split
  · exact dropAlias_frame l os _
  · rfl

theorem registerNew_frame (r : Runtime) (watch : Watch) : l.registerNew os r watch =
    { l with
      registered := (l.registerNew os r watch).registered
      native := (l.registerNew os r watch).native } := by
  unfold Loop.registerNew
  split
  · exact register_frame l os _
  · rfl

theorem reregister_frame (r : Runtime) (watch : Watch) : l.reregister os r watch =
    { l with
      registered := (l.reregister os r watch).registered
      native := (l.reregister os r watch).native
      aliases := (l.reregister os r watch).aliases } := by
  unfold Loop.reregister
  rw [registerNew_frame, releaseAlias_frame, releaseOld_frame]

theorem load_frame (now : Rat) (watch : Watch) : Loop.load os now l watch =
    { l with
      registered := (Loop.load os now l watch).registered
      native := (Loop.load os now l watch).native
      aliases := (Loop.load os now l watch).aliases
      runtimes := l.runtimes.set watch.id
        (((l.runtimes.get watch.id).getD .new).load watch now)
      notes := l.notes ++
        signalIf (((l.runtimes.get watch.id).getD .new).alarms watch) watch.id } := by
  simp only [Loop.load]
  rw [reregister_frame]
  unfold signalIf
  split
  · rfl
  · simp only [List.append_nil]

theorem load_runtimes (now : Rat) (watch : Watch) (id' : String) :
    (Loop.load os now l watch).runtimes.get id' =
      if id' = watch.id then some (((l.runtimes.get watch.id).getD .new).load watch now)
      else l.runtimes.get id' := by
  rw [load_frame]
  exact Dict.get_set

theorem releaseGone_frame : l.releaseGone os id =
    { l with
      registered := (l.releaseGone os id).registered
      native := (l.releaseGone os id).native } := by
  unfold Loop.releaseGone
  split
  · rfl
  · exact release_frame l os _

theorem drop_frame : Loop.drop os l id =
    { l with
      registered := (Loop.drop os l id).registered
      native := (Loop.drop os l id).native
      aliases := (Loop.drop os l id).aliases
      runtimes := l.runtimes.erase id } := by
  simp only [Loop.drop]
  rw [dropAlias_frame, releaseGone_frame]

end frame

/-! ## Turns, piece by piece -/

section turn

variable {l l' : Loop} {os : Native} {branch : Branch} {ids : List String} {now : Rat}
  {P : Loop → Prop}

/-- The job `task` is out of the way. -/
def Loop.retire (l : Loop) (task : Nat) (job : Job) : Loop :=
  { l with jobs := l.jobs.erase task, inFlight := l.inFlight.erase job.id }

/-- A join retires a finished job, and merges its runtime if that is of the live epoch. -/
theorem join_cases {task : Nat} (h : l.join os task = some l') :
    ∃ job, l.jobs.get task = some job ∧ job.stage = .finished ∧
      ((∃ current, l.runtimes.get job.id = some current ∧ current.epoch = job.runtime.epoch ∧
          l' = (l.retire task job).merge os job.id current job.runtime) ∨
        ((∀ current, l.runtimes.get job.id = some current → current.epoch ≠ job.runtime.epoch) ∧
          l' = l.retire task job)) := by
  unfold Loop.join at h
  cases hjob : l.jobs.get task with
  | none =>
      rw [hjob] at h
      cases h
  | some job =>
      rw [hjob] at h
      simp only at h
      split at h
      · rename_i hstage
        refine ⟨job, rfl, hstage, ?_⟩
        split at h
        · rename_i hnone
          refine Or.inr ⟨fun current hcurrent => ?_, (Option.some.inj h).symm⟩
          rw [hcurrent] at hnone
          cases hnone
        · rename_i current hcurrent
          split at h
          · rename_i hepoch
            exact Or.inl ⟨current, hcurrent, hepoch, (Option.some.inj h).symm⟩
          · rename_i hepoch
            refine Or.inr ⟨fun other hother => ?_, (Option.some.inj h).symm⟩
            rw [hcurrent] at hother
            rw [← Option.some.inj hother]
            exact hepoch
      · cases h

/-- A watch is dispatched when it is due, has no job, and a worker is free. -/
theorem dispatchOne_cases (l : Loop) (id : String) (now : Rat) :
    (∃ current watch, l.runtimes.get id = some current ∧ current.watch = some watch ∧
        watch.active = true ∧ current.due now = true ∧ id ∉ l.inFlight ∧
        l.jobs.size < maxWorkers ∧ l.dispatchOne now id = l.spawn id current watch now) ∨
      l.dispatchOne now id = l := by
  unfold Loop.dispatchOne
  split
  · exact Or.inr rfl
  · rename_i hfree
    rw [not_or] at hfree
    cases hcurrent : l.runtimes.get id with
    | none => exact Or.inr rfl
    | some current =>
        simp only
        cases hwatch : current.watch.filter Watch.active with
        | none => exact Or.inr rfl
        | some watch =>
            obtain ⟨hwatch, hactive⟩ := Option.filter_eq_some_iff.mp hwatch
            simp only
            split
            · rename_i hdue
              exact Or.inl ⟨current, watch, rfl, hwatch, hactive, hdue, hfree.2,
                Nat.lt_of_not_le hfree.1, rfl⟩
            · exact Or.inr rfl

theorem dispatch_keeps (hl : P l) (hcursor : ∀ l cursor, P l → P { l with fairCursor := cursor })
    (hdispatch : ∀ l id, P l → P (l.dispatchOne now id)) : P (l.dispatch ids now) := by
  unfold Loop.dispatch
  split
  · exact hl
  · exact List.foldlRecOn _ _ (hcursor l _ hl) fun l hl id _ => hdispatch l id hl

/-- What a reload keeps, loading and forgetting one watch at a time. -/
theorem reload_keeps {watches : List Watch} (hl : P l)
    (hloads : P l → P (watches.foldl (Loop.load os now) l))
    (hdrop : ∀ l id, id ∉ watches.map Watch.id → P l → P (l.drop os id)) :
    P (l.reload os watches now) := by
  unfold Loop.reload
  refine List.foldlRecOn _ _ (hloads hl) fun l hl id hid => hdrop l id ?_ hl
  exact of_decide_eq_true (List.mem_filter.mp hid).2

/-- What the branch and each piece after it keep, a turn keeps. -/
theorem turn_keeps_after (h : l.turn os branch ids now = some l')
    (hbranch : ∀ b, l.branch os branch = some b → P b)
    (hfree : ∀ l queue overflow cursor, P l →
      P { l with queue := queue, overflow := overflow, fairCursor := cursor })
    (hmark : ∀ l p, P l → P (l.mark p))
    (hdispatch : ∀ l id, P l → P (l.dispatchOne now id)) : P l' := by
  obtain ⟨b, hb, hrest⟩ := Option.bind_eq_some_iff.mp h
  have hb : P b := hbranch b hb
  have ho : P b.takeOverflow := by
    unfold Loop.takeOverflow
    split
    · exact hmark _ _ (hfree b b.queue false b.fairCursor hb)
    · exact hb
  simp only at hrest
  split at hrest
  · obtain rfl := Option.some.inj hrest
    exact dispatch_keeps ho (fun l cursor => hfree l l.queue l.overflow cursor) hdispatch
  · cases hrest

/-- What each piece of a branch keeps, the branch keeps. -/
theorem branch_keeps {b : Loop} (h : l.branch os branch = some b) (hl : P l)
    (hfree : ∀ l queue overflow cursor, P l →
      P { l with queue := queue, overflow := overflow, fairCursor := cursor })
    (hjoin : ∀ l' task, branch = .joined task → l.join os task = some l' → P l')
    (hreload : ∀ watches now, branch = .reloaded watches now → P (l.reload os watches now))
    (hmark : ∀ l p, P l → P (l.mark p)) : P b := by
  cases branch with
  | joined task => exact hjoin b task rfl h
  | reloaded watches at_ =>
      obtain rfl := Option.some.inj h
      exact hreload watches at_ rfl
  | received =>
      have hreceive : l.receive = some b := h
      unfold Loop.receive at hreceive
      split at hreceive
      · cases hreceive
      · rename_i path queue _
        obtain rfl := Option.some.inj hreceive
        exact hmark _ _ (hfree l queue l.overflow l.fairCursor hl)
  | woken =>
      obtain rfl := Option.some.inj h
      exact hl

/-- What each piece of a turn keeps, a turn keeps. -/
theorem turn_keeps (h : l.turn os branch ids now = some l') (hl : P l)
    (hfree : ∀ l queue overflow cursor, P l →
      P { l with queue := queue, overflow := overflow, fairCursor := cursor })
    (hjoin : ∀ l' task, branch = .joined task → l.join os task = some l' → P l')
    (hload : ∀ l, ∀ watch ∈ branch.loads, ∀ now, P l → P (l.load os now watch))
    (hdrop : ∀ l id, id ∉ branch.loads.map Watch.id → P l → P (l.drop os id))
    (hmark : ∀ l p, P l → P (l.mark p))
    (hdispatch : ∀ l id, P l → P (l.dispatchOne now id)) : P l' := by
  refine turn_keeps_after h (fun b hb => ?_) hfree hmark hdispatch
  refine branch_keeps hb hl hfree hjoin (fun watches at_ hreload => ?_) hmark
  subst hreload
  exact reload_keeps hl (fun hl => List.foldlRecOn watches (Loop.load os at_) hl
    fun l hl watch hw => hload l watch hw at_ hl) hdrop

end turn

/-! ## What a turn writes down -/

/-- No attempt ended and nothing was committed. -/
def Note.Idle : Note → Prop
  | .attempted .. => False
  | .committed .. => False
  | _ => True

theorem signalIf_idle (c : Bool) (id : String) : ∀ note ∈ signalIf c id, note.Idle := by
  intro note hnote
  unfold signalIf at hnote
  split at hnote
  · rw [List.mem_singleton.mp hnote]
    trivial
  · cases hnote

/-- The loop `m` wrote down what `l` did and some idle notes more. -/
def Loop.Continues (l m : Loop) : Prop :=
  ∃ more, m.notes = l.notes ++ more ∧ ∀ note ∈ more, note.Idle

section continues

variable {l m m' : Loop} {os : Native} {now : Rat}

theorem Loop.Continues.refl (l : Loop) : l.Continues l :=
  ⟨[], (List.append_nil _).symm, fun _ hnote => absurd hnote List.not_mem_nil⟩

theorem Loop.Continues.append (h : l.Continues m) {more : List Note}
    (hnotes : m'.notes = m.notes ++ more) (hmore : ∀ note ∈ more, note.Idle) : l.Continues m' := by
  obtain ⟨before, hbefore, hidle⟩ := h
  refine ⟨before ++ more, ?_, fun note hnote => ?_⟩
  · rw [hnotes, hbefore, List.append_assoc]
  · rcases List.mem_append.mp hnote with hnote | hnote
    · exact hidle note hnote
    · exact hmore note hnote

/-- A turn writes down idle notes only. -/
theorem turn_continues {branch : Branch} {ids : List String}
    (h : l.turn os branch ids now = some m) : l.Continues m := by
  refine turn_keeps (P := l.Continues) h (.refl l) ?_ ?_ ?_ ?_ ?_ ?_
  · exact fun m _ _ _ hm => hm
  · intro m task _ hjoin
    obtain ⟨job, _, _, ⟨current, _, _, rfl⟩ | ⟨_, rfl⟩⟩ := join_cases hjoin
    · rw [merge_frame]
      exact (Loop.Continues.refl l).append rfl (signalIf_idle _ _)
    · exact .refl l
  · intro m w _ at_ hm
    rw [load_frame]
    exact hm.append rfl (signalIf_idle _ _)
  · intro m id _ hm
    rw [drop_frame]
    exact hm
  · intro m p hm
    refine hm.append rfl fun note hnote => ?_
    obtain ⟨entry, _, rfl⟩ := List.mem_map.mp hnote
    trivial
  · intro m id hm
    rcases dispatchOne_cases m id now with ⟨current, watch, _, _, _, _, _, _, heq⟩ | heq
    · rw [heq]
      refine hm.append (rfl : (m.spawn id current watch now).notes =
        m.notes ++ [.dispatched id now watch.interval]) fun note hnote => ?_
      rw [List.mem_singleton.mp hnote]
      trivial
    · rw [heq]
      exact hm

end continues

end CodexMonitor.Collector
