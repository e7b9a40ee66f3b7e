import CodexMonitor.OwnerHealth.Evidence

/-!
# The cache of observations

Several snapshots may be made at the same time, each of which asks after many
conversations; they share a cache of what owners have said.  A snapshot is a task: it
looks into the cache, probes an owner, and puts what it found there, while others do
the same.  Two tasks may probe one owner at once, and an entry may be put over a newer
one; what holds all the same is that whatever a task is told, it is told of answers
that the owner gave within two seconds before the snapshot was begun, or later.
-/

namespace CodexMonitor.OwnerHealth

open Dashboard (field isTrue isText strOr itemsOf textSet)
open Session (SessionError)
open Tasks

/-! ## Looking up a conversation -/

/-- Probe an owner and keep what is found. -/
def refresh (tools : Tools) (endpoint : String) (deadline : Nanos) : Probe EndpointCache := do
  let found ← probeEndpoint tools endpoint deadline
  let time ← now
  let entry : EndpointCache := ⟨time + cacheTtl, found.1, found.2, ∅⟩
  insert endpoint entry
  pure entry

/-- What is known of an owner: the cached entry, if it has not expired. -/
def currentEntry (tools : Tools) (endpoint : String) (deadline : Nanos) :
    Probe EndpointCache := do
  match ← lookup endpoint with
  | none => refresh tools endpoint deadline
  | some entry => do
      let time ← now
      if time < entry.expiresAt then pure entry else refresh tools endpoint deadline

/-- Keep what was found of a conversation, when the owner could be asked for it. -/
def remember (endpoint thread : String) (entry : EndpointCache) (value : Health) : Probe Unit :=
  if entry.loaded.isSome then
    insert endpoint { entry with threads := entry.threads.set thread value }
  else pure ()

/-- `OwnerHealthCache::get`. -/
def get (tools : Tools) (endpoint thread : String) (deadline : Nanos) : Probe Health := do
  let entry ← currentEntry tools endpoint deadline
  match entry.threads.get thread with
  | some value => pure value
  | none => do
      let value ← probeConversation tools endpoint thread (entry.base, entry.loaded) deadline
      remember endpoint thread entry value
      pure value

/-! ## A snapshot -/

def endpointOf (row : Value) : String := strOr (field row "endpoint") ""

def threadOf (row : Value) : String := strOr (field row "thread") ""

/-- Why the owner of a route is not asked. -/
def refusal (crates : Crates) (row : Value) : Option String :=
  if isTrue (field row "removed") then some "route is removed"
  else if ¬ isTrue (field row "enabled") then some "route is disabled"
  else if threadOf row = "" then some "conversation identity is unavailable"
  else if ¬ supportedEndpoint crates (endpointOf row) then
    some "owner endpoint is not an explicit supported transport"
  else none

/-- `binding["owner_health"] = …`. -/
def withHealth (row : Value) (h : Health) : Value :=
  match row with
  | .object fields =>
      .object (fields.filter (fun entry => entry.1 ≠ "owner_health") ++ [("owner_health", h.value)])
  | other => other

def attachRow (tools : Tools) (row : Value) (deadline : Nanos) : Probe Value :=
  match refusal tools.crates row with
  | some reason => pure (withHealth row (base tools (endpointOf row) (threadOf row) reason))
  | none => do
      let time ← now
      if deadline ≤ time then
        pure (withHealth row
          (base tools (endpointOf row) (threadOf row) "owner probe budget exhausted"))
      else do
        let value ← get tools (endpointOf row) (threadOf row) deadline
        pure (withHealth row value)

def attachRows (tools : Tools) (deadline : Nanos) : List Value → Probe (List Value)
  | [] => pure []
  | row :: rows => do
      let first ← attachRow tools row deadline
      let rest ← attachRows tools deadline rows
      pure (first :: rest)

def attach (tools : Tools) (rows : List Value) : Probe (List Value) := do
  let time ← now
  attachRows tools (time + probeBudget) rows

/-! ## The machine -/

/-- The clock and the cache. -/
structure Room where
  clock : Nanos
  cache : Dict String EndpointCache

/-- What is decided outside: what an owner answers, and which of the oldest entries go first. -/
structure Outside where
  answer : Option (Except SessionError Value)
  victims : List String

/-- The oldest entries go until the rest fits. -/
def evict : List String → Dict String EndpointCache → Option (Dict String EndpointCache)
  | [], cache => if cache.size ≤ cacheSize then some cache else none
  | endpoint :: victims, cache =>
      if cache.size ≤ cacheSize then some cache
      else
        match cache.get endpoint with
        | none => none
        | some entry =>
            if ∀ other ∈ cache.entries, entry.expiresAt ≤ other.2.expiresAt then
              evict victims (cache.erase endpoint)
            else none

def handle (o : Outside) : (q : Question) → Room → Option (Answer q × Room)
  | .now, s => some (s.clock, s)
  | .lookup endpoint, s => some (s.cache.get endpoint, s)
  | .insert endpoint entry, s =>
      (evict o.victims (s.cache.set endpoint entry)).map fun cache => ((), { s with cache })
  | .call _ _ _ _, s => some (o.answer, s)

/-- Snapshots of lists of routes; in between, time passes. -/
def machine (tools : Tools) : Machine Answer Room (List Value) (List Value) Outside Nanos where
  program := attach tools
  handle := handle
  turn span s := some { s with clock := s.clock + span }

/-- The tasks of a process that has just been started. -/
def idle : Pool Answer Room (List Value) (List Value) := Machine.start ⟨0, ∅⟩

/-- What the process may come to. -/
def Reachable (tools : Tools) (p : Pool Answer Room (List Value) (List Value)) : Prop :=
  (machine tools).Leads idle p

/-! ## What is known -/

abbrev Log := List (Nat × Asked)

/-- A task has probed an owner, and has read the clock at the end. -/
def Probed (tools : Tools) (log : Log) (endpoint : String) (found : Found) (time : Nanos) : Prop :=
  ∃ i deadline events, events ++ [⟨.now, time⟩] <:+ own i log ∧
    Traced (probeEndpoint tools endpoint deadline) events found

/-- A task has asked after a conversation. -/
def Inquired (tools : Tools) (log : Log) (endpoint thread : String) (found : Found)
    (value : Health) : Prop :=
  ∃ i deadline events, events <:+: own i log ∧
    Traced (probeConversation tools endpoint thread found deadline) events value

/-- Where an entry comes from: a probe, and what has been asked since. -/
def Known (tools : Tools) (log : Log) (endpoint : String) (entry : EndpointCache) : Prop :=
  ∃ earlier later time, log = earlier ++ later ∧
    Probed tools earlier endpoint (entry.base, entry.loaded) time ∧
    entry.expiresAt = time + cacheTtl ∧
    ∀ thread value, entry.threads.get thread = some value →
      Inquired tools later endpoint thread (entry.base, entry.loaded) value

/-- Where a value comes from: a probe whose result had not expired at a time, and what has been
asked since. -/
def Told (tools : Tools) (log : Log) (since : Nanos) (endpoint thread : String) (value : Health) :
    Prop :=
  ∃ earlier later found time, log = earlier ++ later ∧ Probed tools earlier endpoint found time ∧
    since < time + cacheTtl ∧ Inquired tools later endpoint thread found value

section known

variable {tools : Tools} {log more : Log} {endpoint thread : String} {entry : EndpointCache}
  {value : Health} {since : Nanos} {found : Found}

theorem Inquired.mono (h : Inquired tools log endpoint thread found value) (hlog : log <+: more) :
    Inquired tools more endpoint thread found value := by
  obtain ⟨i, deadline, events, hevents, htraced⟩ := h
  exact ⟨i, deadline, events, hevents.trans (own_mono hlog).isInfix, htraced⟩

theorem Known.mono (h : Known tools log endpoint entry) (hlog : log <+: more) :
    Known tools more endpoint entry := by
  obtain ⟨earlier, later, time, rfl, hprobed, htime, hthreads⟩ := h
  obtain ⟨rest, rfl⟩ := hlog
  refine ⟨earlier, later ++ rest, time, List.append_assoc _ _ _, hprobed, htime, ?_⟩
  intro thread value hget
  exact (hthreads thread value hget).mono (List.prefix_append _ _)

theorem Told.mono (h : Told tools log since endpoint thread value) (hlog : log <+: more) :
    Told tools more since endpoint thread value := by
  obtain ⟨earlier, later, found, time, rfl, hprobed, htime, hinquired⟩ := h
  obtain ⟨rest, rfl⟩ := hlog
  exact ⟨earlier, later ++ rest, found, time, List.append_assoc _ _ _, hprobed, htime,
    hinquired.mono (List.prefix_append _ _)⟩

/-- A cached conversation is told of. -/
theorem Known.told (h : Known tools log endpoint entry) (hsince : since < entry.expiresAt)
    (hget : entry.threads.get thread = some value) :
    Told tools log since endpoint thread value := by
  obtain ⟨earlier, later, time, hlog, hprobed, htime, hthreads⟩ := h
  exact ⟨earlier, later, _, time, hlog, hprobed, htime ▸ hsince, hthreads thread value hget⟩

/-- So is one that is asked after now, and the entry may remember it. -/
theorem Known.ask {i : Nat} {deadline : Nanos} {events : List Asked}
    (h : Known tools log endpoint entry) (hlog : log <+: more)
    (hown : own i more = own i log ++ events)
    (htraced : Traced
      (probeConversation tools endpoint thread (entry.base, entry.loaded) deadline) events value) :
    (∀ since < entry.expiresAt, Told tools more since endpoint thread value) ∧
      Known tools more endpoint { entry with threads := entry.threads.set thread value } := by
  obtain ⟨earlier, later, time, rfl, hprobed, htime, hthreads⟩ := h
  obtain ⟨rest, rfl⟩ := hlog
  have hrest : own i (later ++ rest) = own i later ++ events := by
    simpa [List.append_assoc] using hown
  have hinquired : Inquired tools (later ++ rest) endpoint thread (entry.base, entry.loaded) value :=
    ⟨i, deadline, events, hrest ▸ (List.suffix_append _ _).isInfix, htraced⟩
  refine ⟨fun since hsince => ?_, earlier, later ++ rest, time, List.append_assoc _ _ _, hprobed,
    htime, ?_⟩
  · exact ⟨earlier, later ++ rest, _, time, List.append_assoc _ _ _, hprobed, htime ▸ hsince,
      hinquired⟩
  · intro thread' value' hget
    by_cases heq : thread' = thread
    · subst heq
      rw [Dict.get_set_self] at hget
      cases hget
      exact hinquired
    · rw [Dict.get_set_ne heq] at hget
      exact (hthreads thread' value' hget).mono (List.prefix_append _ _)

/-- A probe that has just ended makes an entry. -/
theorem known_probed {i : Nat} {deadline time : Nanos} {events : List Asked}
    (htraced : Traced (probeEndpoint tools endpoint deadline) events found)
    (hown : events ++ [⟨.now, time⟩] <:+ own i log) :
    Known tools log endpoint ⟨time + cacheTtl, found.1, found.2, ∅⟩ := by
  refine ⟨log, [], time, (List.append_nil _).symm, ⟨i, deadline, events, hown, htraced⟩, rfl, ?_⟩
  intro thread value hget
  cases hget

end known

/-! ## The invariant -/

/-- The cache fits, no task has read the clock ahead of time, and every entry is known. -/
structure CacheSound (tools : Tools) (s : Shared Answer Room) : Prop where
  size : s.state.cache.size ≤ cacheSize
  clock : ∀ i time, (i, ⟨.now, time⟩) ∈ s.log → time ≤ s.state.clock
  known : ∀ endpoint entry, s.state.cache.get endpoint = some entry →
    Known tools s.log endpoint entry

section sound

variable {tools : Tools} {s t : Shared Answer Room} {i : Nat} {o : Outside} {room : Room}

theorem evict_get {victims : List String} {cache cache' : Dict String EndpointCache}
    (h : evict victims cache = some cache') :
    cache'.size ≤ cacheSize ∧ ∀ endpoint entry, cache'.get endpoint = some entry →
      cache.get endpoint = some entry := by
  induction victims generalizing cache with
  | nil =>
      obtain ⟨hsize, h⟩ := Option.ite_none_right_eq_some.mp h
      cases h
      exact ⟨hsize, fun _ _ h => h⟩
  | cons victim victims ih =>
      unfold evict at h
      split at h
      · rename_i hsize
        cases h
        exact ⟨hsize, fun _ _ h => h⟩
      · split at h
        · cases h
        · obtain ⟨_, h⟩ := Option.ite_none_right_eq_some.mp h
          obtain ⟨hsize, hget⟩ := ih h
          refine ⟨hsize, fun endpoint entry hentry => ?_⟩
          have herased := hget endpoint entry hentry
          rw [Dict.get_erase] at herased
          split at herased
          · cases herased
          · exact herased

/-- What is answered without a change to the cache. -/
theorem answered_sound (hs : CacheSound tools s) {q : Question} {a : Answer q}
    (hq : ∀ endpoint entry, q ≠ .insert endpoint entry)
    (h : handle o q s.state = some (a, room)) : CacheSound tools (s.answered i q a room) := by
  have hroom : room = s.state := by
    cases q with
    | insert endpoint entry => exact absurd rfl (hq endpoint entry)
    | now | lookup _ | call _ _ _ _ =>
        cases h
        rfl
  subst hroom
  refine ⟨hs.size, fun j time hmem => ?_, fun endpoint entry hget => ?_⟩
  · obtain hmem | hmem := List.mem_append.mp hmem
    · exact hs.clock j time hmem
    · obtain ⟨_, hevent⟩ := Prod.mk.inj (List.mem_singleton.mp hmem)
      cases hevent
      cases h
      exact Nat.le_refl _
  · exact (hs.known endpoint entry hget).mono (List.prefix_append _ _)

/-- An entry that is known is put into the cache. -/
theorem inserted_sound (hs : CacheSound tools s) {endpoint : String} {entry : EndpointCache}
    {a : Answer (.insert endpoint entry)} (hentry : Known tools s.log endpoint entry)
    (h : handle o (.insert endpoint entry) s.state = some (a, room)) :
    CacheSound tools (s.answered i (.insert endpoint entry) a room) := by
  obtain ⟨cache, hcache, heq⟩ := Option.map_eq_some_iff.mp h
  cases heq
  obtain ⟨hsize, hget⟩ := evict_get hcache
  refine ⟨hsize, fun j time hmem => ?_, fun endpoint' entry' hfound => ?_⟩
  · obtain hmem | hmem := List.mem_append.mp hmem
    · exact hs.clock j time hmem
    · obtain ⟨_, hevent⟩ := Prod.mk.inj (List.mem_singleton.mp hmem)
      cases hevent
  · refine Known.mono ?_ (List.prefix_append _ _)
    have hset := hget endpoint' entry' hfound
    by_cases heq : endpoint' = endpoint
    · subst heq
      rw [Dict.get_set_self] at hset
      cases hset
      exact hentry
    · rw [Dict.get_set_ne heq] at hset
      exact hs.known endpoint' entry' hset

/-! ## The programs -/

theorem reads_sound {endpoint : String} {q : Question} (hq : Reads endpoint q) {a : Answer q}
    (ht : CacheSound tools t) (h : handle o q t.state = some (a, room)) :
    CacheSound tools (t.answered i q a room) := by
  refine answered_sound ht (fun endpoint' entry heq => ?_) h
  subst heq
  cases hq

theorem now_meets : Meets handle (CacheSound tools) i (fun time t =>
    s.log <+: t.log ∧ own i t.log = own i s.log ++ [⟨.now, time⟩] ∧
      ∀ since, (i, ⟨.now, since⟩) ∈ s.log → since ≤ time) now s := by
  intro t hwaits ht o a room hanswer
  refine ⟨answered_sound ht (fun _ _ h => by cases h) hanswer, ?_⟩
  cases hanswer
  refine ⟨hwaits.log.trans (List.prefix_append _ _), ?_, fun since hsince => ?_⟩
  · simp only [Shared.answered, own_append, own_self, hwaits.own]
  · exact ht.clock i since (hwaits.log.subset hsince)

theorem lookup_meets {endpoint : String} : Meets handle (CacheSound tools) i (fun cached t =>
    s.log <+: t.log ∧ ∀ entry, cached = some entry → Known tools t.log endpoint entry)
    (lookup endpoint) s := by
  intro t hwaits ht o a room hanswer
  refine ⟨answered_sound ht (fun _ _ h => by cases h) hanswer, ?_⟩
  cases hanswer
  refine ⟨hwaits.log.trans (List.prefix_append _ _), fun entry hentry => ?_⟩
  exact (ht.known endpoint entry hentry).mono (List.prefix_append _ _)

theorem insert_meets {endpoint : String} {entry : EndpointCache}
    (hentry : Known tools s.log endpoint entry) :
    Meets handle (CacheSound tools) i (fun _ t => s.log <+: t.log) (insert endpoint entry) s := by
  intro t hwaits ht o a room hanswer
  refine ⟨inserted_sound ht (hentry.mono hwaits.log) hanswer, ?_⟩
  exact hwaits.log.trans (List.prefix_append _ _)

section get

variable {endpoint thread : String} {deadline since : Nanos} {entry : EndpointCache}

theorem refresh_meets (hsince : (i, ⟨.now, since⟩) ∈ s.log) :
    Meets handle (CacheSound tools) i (fun entry t => s.log <+: t.log ∧
      Known tools t.log endpoint entry ∧ since < entry.expiresAt)
      (refresh tools endpoint deadline) s := by
  refine Meets.bind ((meets_quiet probeEndpoint_asks
    (fun q hq t o a room ht h => reads_sound hq ht h) s).mono ?_)
  rintro found t ⟨hlog, events, hown, htraced⟩
  refine Meets.bind (now_meets.mono ?_)
  rintro time u ⟨hlog', hown', hlater⟩
  have hknown : Known tools u.log endpoint ⟨time + cacheTtl, found.1, found.2, ∅⟩ := by
    refine known_probed (i := i) htraced ?_
    rw [hown', hown, List.append_assoc]
    exact List.suffix_append _ _
  have htime : since < time + cacheTtl :=
    Nat.lt_of_le_of_lt (hlater since (hlog.subset hsince)) (Nat.lt_add_of_pos_right (by decide))
  refine Meets.bind ((insert_meets hknown).mono ?_)
  intro _ v hlog''
  exact ⟨hlog.trans (hlog'.trans hlog''), hknown.mono hlog'', htime⟩

/-- The entry that is gone by has not expired at the beginning of the task. -/
theorem currentEntry_meets (hsince : (i, ⟨.now, since⟩) ∈ s.log) :
    Meets handle (CacheSound tools) i (fun entry t => s.log <+: t.log ∧
      Known tools t.log endpoint entry ∧ since < entry.expiresAt)
      (currentEntry tools endpoint deadline) s := by
  refine Meets.bind (lookup_meets.mono ?_)
  rintro cached t ⟨hlog, hcached⟩
  cases cached with
  | none =>
      refine (refresh_meets (hlog.subset hsince)).mono ?_
      rintro entry u ⟨hlog', hentry⟩
      exact ⟨hlog.trans hlog', hentry⟩
  | some entry =>
      refine Meets.bind (now_meets.mono ?_)
      rintro time u ⟨hlog', _, hlater⟩
      by_cases hfresh : time < entry.expiresAt
      · simp only [hfresh, if_true]
        refine ⟨hlog.trans hlog', (hcached entry rfl).mono hlog', ?_⟩
        exact Nat.lt_of_le_of_lt (hlater since (hlog.subset hsince)) hfresh
      · simp only [hfresh, if_false]
        refine (refresh_meets ((hlog.trans hlog').subset hsince)).mono ?_
        rintro entry v ⟨hlog'', hentry⟩
        exact ⟨hlog.trans (hlog'.trans hlog''), hentry⟩

theorem remember_meets {value : Health}
    (hentry : Known tools s.log endpoint { entry with threads := entry.threads.set thread value }) :
    Meets handle (CacheSound tools) i (fun _ t => s.log <+: t.log)
      (remember endpoint thread entry value) s := by
  unfold remember
  split
  · exact insert_meets hentry
  · exact List.prefix_rfl

/-- Whatever others do meanwhile, a lookup is told of answers of this owner. -/
theorem get_meets (hsince : (i, ⟨.now, since⟩) ∈ s.log) :
    Meets handle (CacheSound tools) i (fun value t => s.log <+: t.log ∧
      Told tools t.log since endpoint thread value)
      (get tools endpoint thread deadline) s := by
  refine Meets.bind ((currentEntry_meets hsince).mono ?_)
  rintro entry t ⟨hlog, hentry, hfresh⟩
  cases hget : entry.threads.get thread with
  | some value =>
      exact ⟨hlog, hentry.told hfresh hget⟩
  | none =>
      refine Meets.bind ((meets_quiet (probeConversation_asks _)
        (fun q hq t o a room ht h => reads_sound hq ht h) t).mono ?_)
      rintro value u ⟨hlog', events, hown, htraced⟩
      obtain ⟨htold, hknown⟩ := hentry.ask hlog' hown htraced
      refine Meets.bind ((remember_meets hknown).mono ?_)
      intro _ v hlog''
      exact ⟨hlog.trans (hlog'.trans hlog''), (htold since hfresh).mono hlog''⟩

end get

/-! ## Snapshots -/

/-- What a snapshot says of a route: why its owner was not asked, or what it is told. -/
inductive Attached (tools : Tools) (log : Log) (since : Nanos) (row : Value) : Value → Prop
  | refused (reason : String) :
      Attached tools log since row
        (withHealth row (base tools (endpointOf row) (threadOf row) reason))
  | told {value : Health} (hrow : refusal tools.crates row = none)
      (hvalue : Told tools log since (endpointOf row) (threadOf row) value) :
      Attached tools log since row (withHealth row value)

theorem Attached.mono {log more : Log} {since : Nanos} {row out : Value}
    (h : Attached tools log since row out) (hlog : log <+: more) :
    Attached tools more since row out := by
  cases h with
  | refused reason => exact .refused reason
  | told hrow hvalue => exact .told hrow (hvalue.mono hlog)

theorem attachRow_meets {row : Value} {deadline since : Nanos}
    (hsince : (i, ⟨.now, since⟩) ∈ s.log) :
    Meets handle (CacheSound tools) i (fun out t => s.log <+: t.log ∧
      Attached tools t.log since row out) (attachRow tools row deadline) s := by
  unfold attachRow
  cases hrefusal : refusal tools.crates row with
  | some reason => exact ⟨List.prefix_rfl, .refused reason⟩
  | none =>
      refine Meets.bind (now_meets.mono ?_)
      rintro time t ⟨hlog, _, _⟩
      by_cases hlate : deadline ≤ time
      · simp only [hlate, if_true]
        exact ⟨hlog, .refused _⟩
      · simp only [hlate, if_false]
        refine Meets.bind ((get_meets (hlog.subset hsince)).mono ?_)
        rintro value u ⟨hlog', htold⟩
        exact ⟨hlog.trans hlog', .told hrefusal htold⟩

theorem attachRows_meets {rows : List Value} {deadline since : Nanos}
    (hsince : (i, ⟨.now, since⟩) ∈ s.log) :
    Meets handle (CacheSound tools) i (fun out t => s.log <+: t.log ∧
      List.Forall₂ (Attached tools t.log since) rows out) (attachRows tools deadline rows) s := by
  induction rows generalizing s with
  | nil => exact ⟨List.prefix_rfl, .nil⟩
  | cons row rows ih =>
      refine Meets.bind ((attachRow_meets hsince).mono ?_)
      rintro first t ⟨hlog, hfirst⟩
      refine Meets.bind ((ih (hlog.subset hsince)).mono ?_)
      rintro rest u ⟨hlog', hrest⟩
      exact ⟨hlog.trans hlog', .cons (hfirst.mono hlog') hrest⟩

/-- A snapshot that has ended: when it was begun, and what it says of each route. -/
def Snapshot (tools : Tools) (rows : List Value) (i : Nat) (out : List Value)
    (t : Shared Answer Room) : Prop :=
  ∃ since, (own i t.log).head? = some ⟨.now, since⟩ ∧
    List.Forall₂ (Attached tools t.log since) rows out

theorem attach_meets {rows : List Value} (hown : own i s.log = []) :
    Meets handle (CacheSound tools) i (Snapshot tools rows i) (attach tools rows) s := by
  refine Meets.bind (now_meets.mono ?_)
  rintro since t ⟨_, hnow, _⟩
  have hmem : (i, ⟨.now, since⟩) ∈ t.log := mem_own.mp (by simp [hnow])
  refine (attachRows_meets hmem).mono ?_
  rintro out u ⟨hlog, hout⟩
  obtain ⟨rest, hrest⟩ := own_mono (i := i) hlog
  refine ⟨since, ?_, hout⟩
  rw [← hrest, hnow, hown]
  rfl

/-- Everything that a reachable process keeps. -/
theorem machine_rules : (machine tools).Rules (CacheSound tools)
    (fun rows i => Snapshot tools rows i) where
  program rows i s hown _ := attach_meets hown
  turn span s room hs h := by
    cases h
    refine ⟨hs.size, fun j time hmem => ?_, hs.known⟩
    exact Nat.le_trans (hs.clock j time hmem) (Nat.le_add_right _ _)
  stable rows i out s t hwaits h := by
    obtain ⟨since, hhead, hout⟩ := h
    refine ⟨since, hwaits.own ▸ hhead, ?_⟩
    exact hout.imp fun _ _ hrow => hrow.mono hwaits.log

theorem reachable_sound {p : Pool Answer Room (List Value) (List Value)}
    (h : Reachable tools p) : p.Sound (machine tools) (CacheSound tools)
      (fun rows i => Snapshot tools rows i) := by
  refine leads_sound machine_rules ⟨Nat.zero_le _, fun i time hmem => ?_, fun e entry hget => ?_⟩ h
  · cases hmem
  · cases hget

end sound

end CodexMonitor.OwnerHealth
