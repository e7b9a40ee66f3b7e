import CodexMonitor.Lib.Keyed
import CodexMonitor.Canonical
import CodexMonitor.Store.Schema

/-!
# Alerts

The dashboard tells its user when the state of a conversation or of the event
receiver changes.  A state that may pass by itself is told only when it was
observed twice in a row; the others at once.  Each key, a pair of endpoint and
thread or the receiver, is a machine of its own (`turn`), so what is told about it
can be read off the observations of that key.
-/

namespace CodexMonitor.Alerts

open Machine

inductive State
  | ready | auth | disconnected | unloaded | execution | previousExecution | approval | input
  | both | unknown
deriving DecidableEq, Repr

def State.label : State → String
  | .ready => "Available again (not proof of completed work)"
  | .auth => "Login required"
  | .disconnected => "Connection lost"
  | .unloaded => "Conversation unloaded"
  | .execution => "Execution error"
  | .previousExecution => "Login access verified; previous turn still failed"
  | .approval => "Approval needed"
  | .input => "Response needed"
  | .both => "Approval and response needed"
  | .unknown => "Status could not be verified"

def State.problem : State → Bool
  | .ready | .unknown => false
  | _ => true

def State.debounce : State → Bool
  | .disconnected | .unloaded | .unknown | .ready => true
  | _ => false

/-- The state a health report describes. -/
def observed (health : Value) : State :=
  match (health.getStr "status").or (health.getStr "state") with
  | some "auth-required" => .auth
  | some "unavailable" => .disconnected
  | some "unloaded" => .unloaded
  | some "execution-error" =>
      if (health.get "execution_error").bind (·.getStr "kind") = some "authentication" ∧
          (health.get "current_auth").bind (·.getStr "status") ≠ some "unverified" then .auth
      else .execution
  | some "previous-execution-error" => .previousExecution
  | some "waiting-for-approval" =>
      if ((health.get "attention").bind (·.get "user_input_required")).bind Value.asBool =
          some true then .both
      else .approval
  | some "waiting-for-user-input" => .input
  | some "ready-to-receive" => .ready
  | _ => .unknown

structure Entry where
  confirmed : Option State
  candidate : State
  count : Nat
deriving DecidableEq, Repr

structure Notice where
  name : String
  state : State
deriving DecidableEq, Repr

/-- Characters that reorder a line. -/
def isOverride (c : Char) : Bool :=
  (0x202a ≤ c.toNat ∧ c.toNat ≤ 0x202e) ∨ (0x2066 ≤ c.toNat ∧ c.toNat ≤ 0x2069)

def safeText (text : String) (limit : Nat) : String :=
  String.ofList ((text.toList.filter fun c => !isControl c && !isOverride c).take limit)

def Notice.text (notice : Notice) : String := s!"{safeText notice.name 100}: {notice.state.label}"

/-! ## Observations -/

/-- What is told about: a conversation, or the receiver. -/
inductive Key
  | route (endpoint thread : String)
  | receiver
deriving DecidableEq, Repr

/-- JSON keeps pairs of endpoint and thread unambiguous. -/
def Key.text : Key → String
  | .route endpoint thread => "[" ++ stringText endpoint ++ "," ++ stringText thread ++ "]"
  | .receiver => "receiver"

/-- The name and the state an update shows for a key. -/
abbrev Observation := String × State

def rowName (row : Value) : String :=
  let project := (row.getStr "project").getD "Ungrouped"
  let name := (row.getStr "name").getD "Conversation"
  s!"{project} / {name}"

/-- The observation of a route of a row; a paused, removed or unnamed route has none. -/
def observeRoute (row route : Value) : Option (Key × Observation) :=
  if (route.get "enabled").bind Value.asBool ≠ some true ∨
      (route.get "removed").bind Value.asBool = some true then none
  else
    match route.getStr "endpoint", route.getStr "thread" with
    | some endpoint, some thread =>
        some (.route endpoint thread, rowName row, observed ((route.get "owner_health").getD .null))
    | _, _ => none

/-- The observations of all routes, in the order of the rows. -/
def observeRows (rows : List Value) : List (Key × Observation) :=
  rows.flatMap fun row =>
    (((row.get "routes").bind Value.asArray).getD []).filterMap (observeRoute row)

def observeReceiver (receiver : Value) : Observation :=
  ("Event receiver",
    if (receiver.get "ready").bind Value.asBool = some true then .ready else .disconnected)

/-- The observations of an update by key: the first of a key counts. -/
def observations (rows : List Value) (receiver : Value) : Dict String Observation :=
  let current := (observeRows rows).foldl
    (fun current seen => current.orInsert seen.1.text seen.2) (∅ : Dict String Observation)
  (current.set Key.receiver.text (observeReceiver receiver)).sort (· ≤ ·)

/-! ## The tracker -/

/-- An entry with one more observation of its candidate, or with a new candidate. -/
def Entry.counted (entry : Entry) (state : State) : Entry :=
  if entry.candidate = state then { entry with count := min 255 (entry.count + 1) }
  else { entry with candidate := state, count := 1 }

/-- The entry of a key and what is told of it after an observation. -/
def turn : Machine Entry Observation Notice := fun entry seen =>
  let entry := (entry.getD { confirmed := none, candidate := seen.2, count := 0 }).counted seen.2
  if entry.confirmed = some seen.2 ∨ (seen.2.debounce ∧ entry.count < 2) then (entry, none)
  else if seen.2 = .unknown ∧ entry.confirmed = none then (entry, none)
  else
    ({ entry with confirmed := some seen.2 },
      if seen.2.problem ∨ seen.2 = .unknown ∨
          (seen.2 = .ready ∧ entry.confirmed.any fun previous => previous ≠ .ready) then
        some { name := seen.1, state := seen.2 }
      else none)

structure Tracker where
  entries : Dict String Entry

/-- The entries after an update, and the notices by key. -/
def Tracker.changes (tracker : Tracker) (rows : List Value) (receiver : Value) :
    Dict String Entry × List (String × Notice) :=
  turn.advance tracker.entries (observations rows receiver)

def Tracker.update (tracker : Tracker) (rows : List Value) (receiver : Value) :
    Tracker × List String :=
  let result := tracker.changes rows receiver
  ({ entries := result.1 }, result.2.map fun notice => notice.2.text)

/-- The arguments of an update. -/
structure Update where
  rows : List Value
  receiver : Value

/-- The tracker before the update of a number; a finite sequence of updates is the start of one. -/
def trackerAt (updates : Nat → Update) : Nat → Tracker
  | 0 => { entries := ∅ }
  | n + 1 => ((trackerAt updates n).update (updates n).rows (updates n).receiver).1

/-- What the update of a number returns. -/
def saidAt (updates : Nat → Update) (n : Nat) : List String :=
  ((trackerAt updates n).update (updates n).rows (updates n).receiver).2

/-- The notices of the update of a number that are about a key. -/
def noticesAt (updates : Nat → Update) (key : Key) (n : Nat) : List Notice :=
  reportsOf key.text ((trackerAt updates n).changes (updates n).rows (updates n).receiver).2

/-- The observation an update holds for a key. -/
def seen (update : Update) : Key → Option Observation
  | .receiver => some (observeReceiver update.receiver)
  | .route endpoint thread =>
      ((observeRows update.rows).find? fun seen => seen.1 = .route endpoint thread).map Prod.snd

/-- The state observed for a key by the update of a number. -/
def stateAt (updates : Nat → Update) (key : Key) (n : Nat) : Option State :=
  (seen (updates n) key).map Prod.snd

/-- The key is observed by each of the updates from one on and before another. -/
def PresentFrom (updates : Nat → Update) (key : Key) (i j : Nat) : Prop :=
  Stays (fun n => seen (updates n) key) i j

/-- The state confirmed for a key before the update of a number. -/
def confirmedAt (updates : Nat → Update) (key : Key) (n : Nat) : Option State :=
  ((trackerAt updates n).entries.get key.text).bind Entry.confirmed

/-! ## Keys -/

theorem route_text (endpoint thread : String) :
    (Key.route endpoint thread).text.toList =
      '[' :: ((stringText endpoint).toList ++ (',' :: ((stringText thread).toList ++ [']']))) := by
  simp [Key.text, String.toList_append]

theorem Key.text_injective : Function.Injective Key.text := by
  intro a b h
  have hreceiver : ∀ endpoint thread, (Key.route endpoint thread).text ≠ Key.receiver.text := by
    intro endpoint thread heq
    have hlist := congrArg String.toList heq
    rw [route_text] at hlist
    have hhead := (List.cons.inj (hlist.trans (show Key.receiver.text.toList =
      'r' :: "eceiver".toList by decide))).1
    exact absurd hhead (by decide)
  cases a with
  | receiver =>
      cases b with
      | receiver => rfl
      | route endpoint thread => exact absurd h.symm (hreceiver endpoint thread)
  | route endpoint thread =>
      cases b with
      | receiver => exact absurd h (hreceiver endpoint thread)
      | route endpoint' thread' =>
          have hlist := congrArg String.toList h
          rw [route_text, route_text] at hlist
          have hstop : ∀ r, Decoding.Stops ',' (',' :: r) := fun r =>
            Decoding.stops_sep (by decide)
          obtain ⟨hendpoint, hrest⟩ := (stringText_balanced ',' endpoint).unique
            (stringText_balanced ',' endpoint') (hstop _) (hstop _) (List.cons.inj hlist).2
          have hthread := List.append_cancel_right (List.cons.inj hrest).2
          rw [stringText_inj (String.toList_inj.mp hendpoint),
            stringText_inj (String.toList_inj.mp hthread)]

/-- Collecting observations keeps the first of every key. -/
theorem collect_get (found : List (Key × Observation)) (current : Dict String Observation)
    (key : Key) :
    (found.foldl (fun current seen => current.orInsert seen.1.text seen.2) current).get key.text =
      (current.get key.text).or ((found.find? fun seen => seen.1 = key).map Prod.snd) := by
  induction found generalizing current with
  | nil => simp
  | cons first found ih =>
      rw [List.foldl_cons, ih, Dict.get_orInsert]
      by_cases hkey : first.1 = key
      · rw [List.find?_cons_of_pos (by simpa using hkey), hkey]
        cases current.get key.text <;> simp
      · have htext : ¬ key.text = first.1.text := fun heq => hkey (Key.text_injective heq.symm)
        rw [List.find?_cons_of_neg (by simpa using hkey), if_neg fun h => htext h.1]

/-- Only keys of observations are collected. -/
theorem collect_key (found : List (Key × Observation)) (current : Dict String Observation)
    {k : String} {now : Observation}
    (h : (found.foldl (fun current seen => current.orInsert seen.1.text seen.2) current).get k =
      some now) : (current.get k).isSome ∨ ∃ key, Key.text key = k := by
  induction found generalizing current with
  | nil => exact Or.inl (by rw [show current.get k = some now from h]; rfl)
  | cons first found ih =>
      rcases ih _ h with hcurrent | hkey
      · by_cases hfirst : k = first.1.text
        · exact Or.inr ⟨first.1, hfirst.symm⟩
        · rw [Dict.get_orInsert, if_neg fun h => hfirst h.1] at hcurrent
          exact Or.inl hcurrent
      · exact Or.inr hkey

/-- An update observes nothing but keys. -/
theorem observations_key {rows : List Value} {receiver : Value} {k : String} {now : Observation}
    (h : (observations rows receiver).get k = some now) : ∃ key, Key.text key = k := by
  unfold observations at h
  rw [Dict.get_eq_of_perm (List.perm_insertionSort _ _), Dict.get_set] at h
  by_cases hreceiver : k = Key.receiver.text
  · exact ⟨.receiver, hreceiver.symm⟩
  · rw [if_neg hreceiver] at h
    rcases collect_key _ _ h with hnone | hkey
    · cases hnone
    · exact hkey

/-- The observations of an update are those of its keys. -/
theorem observations_get (update : Update) (key : Key) :
    (observations update.rows update.receiver).get key.text = seen update key := by
  unfold observations
  rw [Dict.get_eq_of_perm (List.perm_insertionSort _ _), Dict.get_set]
  cases key with
  | receiver => rw [if_pos rfl]; rfl
  | route endpoint thread =>
      have hne : (Key.route endpoint thread).text ≠ Key.receiver.text := fun heq =>
        Key.noConfusion (Key.text_injective heq)
      rw [if_neg hne, collect_get]
      simp [seen]

/-! ## One key -/

/-- What the machine of a key reads. -/
def inputs (updates : Nat → Update) (key : Key) (n : Nat) : Option Observation :=
  seen (updates n) key

theorem trackerAt_eq (updates : Nat → Update) (n : Nat) :
    (trackerAt updates n).entries =
      turn.entries (fun i => observations (updates i).rows (updates i).receiver) n := by
  induction n with
  | zero => rfl
  | succ n ih =>
      show (turn.advance (trackerAt updates n).entries _).1 = _
      rw [ih]
      rfl

/-- The tracker's entry of a key is that of a machine that reads the observations of the key. -/
theorem trackerAt_get (updates : Nat → Update) (key : Key) (n : Nat) :
    (trackerAt updates n).entries.get key.text = turn.entry (inputs updates key) n := by
  rw [trackerAt_eq, entries_get]
  exact entry_congr fun i _ => observations_get (updates i) key

/-- The notices about a key are those of a machine that reads the observations of the key. -/
theorem noticesAt_eq (updates : Nat → Update) (key : Key) (n : Nat) :
    noticesAt updates key n = (turn.report (inputs updates key) n).toList := by
  unfold noticesAt Tracker.changes
  rw [trackerAt_eq, reports_eq, report_congr fun i _ => observations_get (updates i) key]
  rfl

/-- Every text an update returns is that of a notice about some key. -/
theorem saidAt_notice {updates : Nat → Update} {n : Nat} {text : String}
    (h : text ∈ saidAt updates n) :
    ∃ key, ∃ notice ∈ noticesAt updates key n, notice.text = text := by
  obtain ⟨⟨k, notice⟩, hmem, rfl⟩ := List.mem_map.mp h
  have hreport := mem_reportsOf.mpr hmem
  unfold Tracker.changes at hreport
  rw [(advance_step _ _).2, Option.mem_toList] at hreport
  cases hnow : (observations (updates n).rows (updates n).receiver).get k with
  | none => simp [step, hnow] at hreport
  | some now =>
      obtain ⟨key, rfl⟩ := observations_key hnow
      exact ⟨key, notice, mem_reportsOf.mpr hmem, rfl⟩

/-! ## One machine -/

section turns

variable {entry : Option Entry} {now : Observation}

/-- The entry a turn starts from. -/
def start (entry : Option Entry) (now : Observation) : Entry :=
  (entry.getD { confirmed := none, candidate := now.2, count := 0 }).counted now.2

theorem start_candidate : (start entry now).candidate = now.2 := by
  unfold start Entry.counted
  split
  · assumption
  · rfl

theorem start_confirmed : (start entry now).confirmed = entry.bind Entry.confirmed := by
  unfold start Entry.counted
  cases entry with
  | none => simp
  | some entry => simp only [Option.getD_some, Option.bind_some]; split <;> rfl

/-- A second observation in a row needs a first one. -/
theorem start_count (h : ¬ (start entry now).count < 2) :
    ∃ before, entry = some before ∧ before.candidate = now.2 := by
  unfold start Entry.counted at h
  cases entry with
  | none => simp at h
  | some before =>
      refine ⟨before, rfl, ?_⟩
      by_contra hne
      simp [hne] at h

theorem start_count_pos : 1 ≤ (start entry now).count := by
  unfold start Entry.counted
  split
  · show 1 ≤ min 255 (_ + 1)
    omega
  · exact Nat.le_refl 1

/-- An observation of the candidate is at least the second in a row. -/
theorem start_repeated {before : Entry} (hcandidate : before.candidate = now.2)
    (hcount : 1 ≤ before.count) : ¬ (start (some before) now).count < 2 := by
  unfold start Entry.counted
  rw [Option.getD_some, if_pos hcandidate]
  show ¬ min 255 (before.count + 1) < 2
  omega

/-- A turn leaves what is confirmed and tells nothing, because the state is confirmed already or has
to be seen again or nothing else was ever known, or it confirms the observed state; a state that is
confirmed first tells nothing when it is `ready`. -/
theorem turn_cases (entry : Option Entry) (now : Observation) :
    (turn entry now = (start entry now, none) ∧
      (entry.bind Entry.confirmed = some now.2 ∨
        (now.2.debounce ∧ (start entry now).count < 2) ∨
        (now.2 = .unknown ∧ entry.bind Entry.confirmed = none))) ∨
      (turn entry now = ({ start entry now with confirmed := some now.2 },
          if now.2 = .ready ∧ entry.bind Entry.confirmed = none then none
          else some { name := now.1, state := now.2 }) ∧
        entry.bind Entry.confirmed ≠ some now.2 ∧
        (now.2.debounce → ¬ (start entry now).count < 2) ∧
        (now.2 = .unknown → entry.bind Entry.confirmed ≠ none)) := by
  rw [← (start_confirmed : (start entry now).confirmed = entry.bind Entry.confirmed)]
  show ((if _ then _ else _) = _ ∧ _) ∨ (if _ then _ else _) = _ ∧ _
  generalize hstart : start entry now = e
  have hsame : (entry.getD { confirmed := none, candidate := now.2, count := 0 }).counted now.2 = e :=
    hstart
  simp only [hsame]
  by_cases hwait : e.confirmed = some now.2 ∨ (now.2.debounce ∧ e.count < 2)
  · exact Or.inl ⟨if_pos hwait, hwait.imp_right Or.inl⟩
  · rw [if_neg hwait]
    by_cases hunknown : now.2 = .unknown ∧ e.confirmed = none
    · exact Or.inl ⟨if_pos hunknown, Or.inr (Or.inr hunknown)⟩
    · rw [if_neg hunknown]
      refine Or.inr ⟨?_, fun h => hwait (Or.inl h), fun h hcount => hwait (Or.inr ⟨h, hcount⟩),
        fun h hnone => hunknown ⟨h, hnone⟩⟩
      have hconfirmed : e.confirmed ≠ some now.2 := fun h => hwait (Or.inl h)
      congr 1
      cases hstate : now.2 <;> cases hbefore : e.confirmed <;>
        simp_all [State.problem]

theorem turn_candidate : (turn entry now).1.candidate = now.2 := by
  rcases turn_cases entry now with ⟨hturn, -⟩ | ⟨hturn, -⟩
  · rw [hturn]
    exact start_candidate
  · rw [hturn]
    exact start_candidate

theorem turn_count_pos : 1 ≤ (turn entry now).1.count := by
  rcases turn_cases entry now with ⟨hturn, -⟩ | ⟨hturn, -⟩
  · rw [hturn]
    exact start_count_pos
  · rw [hturn]
    exact start_count_pos

end turns

section single

variable {observed : Nat → Option Observation} {n : Nat}

/-- The state confirmed before the observation of a number. -/
def confirmed (observed : Nat → Option Observation) (n : Nat) : Option State :=
  (turn.entry observed n).bind Entry.confirmed

/-- What the machine knows of the observations before one. -/
structure Knows (observed : Nat → Option Observation) (n : Nat) : Prop where
  /-- The candidate is the state observed last. -/
  candidate : ∀ e, turn.entry observed n = some e →
    ∃ i, n = i + 1 ∧ (observed i).map Prod.snd = some e.candidate
  /-- Nothing was told before something was confirmed. -/
  quiet : confirmed observed n = none →
    ∀ i < n, Stays observed i n → turn.report observed i = none
  /-- What is confirmed was told last, or is the `ready` nothing was told of. -/
  latest : ∀ s, confirmed observed n = some s →
    (s = .ready ∧ ∀ i < n, Stays observed i n → turn.report observed i = none) ∨
      ∃ i < n, Stays observed i n ∧ (∃ r, turn.report observed i = some r ∧ r.state = s) ∧
        ∀ l, i < l → l < n → turn.report observed l = none
  /-- Nothing is confirmed while only `unknown` is observed. -/
  known : confirmed observed n ≠ none →
    ∃ i < n, Stays observed i n ∧ ∃ s, (observed i).map Prod.snd = some s ∧ s ≠ .unknown

theorem entry_succ {now : Observation} (h : observed n = some now) :
    turn.entry observed (n + 1) = some (turn (turn.entry observed n) now).1 := by
  simp only [entry, step, h]

theorem report_now {now : Observation} (h : observed n = some now) :
    turn.report observed n = (turn (turn.entry observed n) now).2 := by
  simp only [report, step, h]

/-- An absent key is forgotten. -/
theorem Knows.absent (h : observed n = none) : Knows observed (n + 1) := by
  have hentry : turn.entry observed (n + 1) = none := by simp only [entry, step, h]
  have hconfirmed : confirmed observed (n + 1) = none := by rw [confirmed, hentry]; rfl
  constructor
  · intro e he
    rw [hentry] at he
    cases he
  · intro _ i hi hstays
    have hsome := hstays n (by omega) (by omega)
    rw [h] at hsome
    cases hsome
  · intro s hs
    rw [hconfirmed] at hs
    cases hs
  · intro hne
    exact absurd hconfirmed hne

/-- One observation keeps what the machine knows. -/
theorem Knows.present (hbefore : Knows observed n) {now : Observation}
    (h : observed n = some now) : Knows observed (n + 1) := by
  have hentry := entry_succ h
  have hreport := report_now h
  have hsome : (observed n).isSome := by rw [h]; rfl
  have hstays : ∀ {i}, i < n → Stays observed i n → Stays observed i (n + 1) := fun hi hi' =>
    (stays_succ_iff (by omega)).mpr ⟨hi', hsome⟩
  have hself : Stays observed n (n + 1) := (stays_succ_iff (by omega)).mpr
    ⟨fun l hl hl' => absurd hl (by omega), hsome⟩
  rcases turn_cases (turn.entry observed n) now with ⟨hturn, -⟩ | ⟨hturn, hnew, -, hunknown⟩
  · -- the turn tells nothing and confirms nothing
    rw [hturn] at hentry hreport
    have hconfirmed : confirmed observed (n + 1) = confirmed observed n := by
      rw [confirmed, hentry, Option.bind_some, start_confirmed]
      rfl
    have hquiet : (∀ i < n, Stays observed i n → turn.report observed i = none) →
        ∀ i < n + 1, Stays observed i (n + 1) → turn.report observed i = none := by
      intro hall i hi hi'
      by_cases hlast : i = n
      · rw [hlast]
        exact hreport
      · exact hall i (by omega) ((stays_succ_iff (by omega)).mp hi').1
    constructor
    · intro e he
      rw [hentry] at he
      obtain rfl := Option.some.inj he
      exact ⟨n, rfl, by rw [h, start_candidate]; rfl⟩
    · intro hnone
      exact hquiet (hbefore.quiet (hconfirmed ▸ hnone))
    · intro s hs
      rcases hbefore.latest s (hconfirmed ▸ hs) with ⟨hready, hall⟩ | ⟨i, hi, hi', htold, hall⟩
      · exact Or.inl ⟨hready, hquiet hall⟩
      · refine Or.inr ⟨i, by omega, hstays hi hi', htold, fun l hl hl' => ?_⟩
        by_cases hlast : l = n
        · rw [hlast]
          exact hreport
        · exact hall l hl (by omega)
    · intro hne
      obtain ⟨i, hi, hi', hstate⟩ := hbefore.known (hconfirmed ▸ hne)
      exact ⟨i, by omega, hstays hi hi', hstate⟩
  · -- the turn confirms the observed state
    rw [hturn] at hentry hreport
    have hconfirmed : confirmed observed (n + 1) = some now.2 := by
      rw [confirmed, hentry]
      rfl
    constructor
    · intro e he
      rw [hentry] at he
      obtain rfl := Option.some.inj he
      exact ⟨n, rfl, by rw [h]; exact congrArg some start_candidate.symm⟩
    · intro hnone
      rw [hconfirmed] at hnone
      cases hnone
    · intro s hs
      obtain rfl : now.2 = s := Option.some.inj (hconfirmed.symm.trans hs)
      by_cases hfirst : now.2 = .ready ∧ confirmed observed n = none
      · refine Or.inl ⟨hfirst.1, fun i hi hi' => ?_⟩
        by_cases hlast : i = n
        · rw [hlast, hreport]
          exact if_pos hfirst
        · exact hbefore.quiet hfirst.2 i (by omega) ((stays_succ_iff (by omega)).mp hi').1
      · refine Or.inr ⟨n, by omega, hself, ⟨_, hreport.trans (if_neg hfirst), rfl⟩, ?_⟩
        intro l hl hl'
        omega
    · intro _
      by_cases hstate : now.2 = .unknown
      · obtain ⟨i, hi, hi', hknown⟩ := hbefore.known (hunknown hstate)
        exact ⟨i, by omega, hstays hi hi', hknown⟩
      · exact ⟨n, by omega, hself, now.2, by rw [h]; rfl, hstate⟩

theorem knows (observed : Nat → Option Observation) (n : Nat) : Knows observed n := by
  induction n with
  | zero =>
      constructor
      · intro e he
        cases he
      · intro _ i hi
        omega
      · intro s hs
        cases hs
      · intro hne
        exact absurd rfl hne
  | succ n ih =>
      cases h : observed n with
      | none => exact Knows.absent h
      | some now => exact ih.present h

/-- What a notice says about the observations and about what was confirmed before. -/
theorem report_some {r : Notice} (h : turn.report observed n = some r) :
    ∃ now, observed n = some now ∧ r = { name := now.1, state := now.2 } ∧
      confirmed observed n ≠ some r.state ∧
      (r.state = .ready → confirmed observed n ≠ none) ∧
      (r.state = .unknown → confirmed observed n ≠ none) ∧
      (r.state.debounce → ∃ i, n = i + 1 ∧ (observed i).map Prod.snd = some r.state) := by
  obtain ⟨now, hnow⟩ := input_of_report h
  rw [report_now hnow] at h
  rcases turn_cases (turn.entry observed n) now with ⟨hturn, -⟩ | ⟨hturn, hnew, htwice, hunknown⟩
  · rw [hturn] at h
    cases h
  · rw [hturn] at h
    by_cases hfirst : now.2 = .ready ∧ confirmed observed n = none
    · cases (if_pos hfirst).symm.trans h
    · obtain rfl := Option.some.inj ((if_neg hfirst).symm.trans h)
      refine ⟨now, hnow, rfl, hnew, fun hready hnone => hfirst ⟨hready, hnone⟩, hunknown, ?_⟩
      intro hdebounce
      obtain ⟨before, hentry, hcandidate⟩ := start_count (htwice hdebounce)
      obtain ⟨i, hi, hstate⟩ := (knows observed n).candidate before hentry
      exact ⟨i, hi, hstate.trans (congrArg some hcandidate)⟩

theorem confirmed_succ {now : Observation} (h : observed n = some now) :
    confirmed observed (n + 1) = (turn (turn.entry observed n) now).1.confirmed := by
  rw [confirmed, entry_succ h]
  rfl

/-- A state is confirmed by its observation, one that may pass by itself by a second one in a row;
`unknown` only after something else. -/
theorem confirmed_of_observed {now : Observation} (h : observed n = some now)
    (htwice : now.2.debounce → ∃ i, n = i + 1 ∧ (observed i).map Prod.snd = some now.2)
    (hunknown : now.2 = .unknown → confirmed observed n ≠ none) :
    confirmed observed (n + 1) = some now.2 := by
  rw [confirmed_succ h]
  rcases turn_cases (turn.entry observed n) now with ⟨hturn, hwhy⟩ | ⟨hturn, -⟩
  · rw [hturn]
    show (start (turn.entry observed n) now).confirmed = some now.2
    rw [start_confirmed]
    obtain hsame | ⟨hdebounce, hcount⟩ | ⟨hstate, hnone⟩ := hwhy
    · exact hsame
    · obtain ⟨i, rfl, hbefore⟩ := htwice hdebounce
      obtain ⟨before, hbefore, hstate⟩ := Option.map_eq_some_iff.mp hbefore
      rw [entry_succ hbefore] at hcount
      exact absurd hcount (start_repeated (turn_candidate.trans hstate) turn_count_pos)
    · exact absurd hnone (hunknown hstate)
  · rw [hturn]

/-- A change of what is confirmed shows the observed state, and it is told; only the `ready` that is
confirmed first is not. -/
theorem report_of_change {s : State} (h : confirmed observed (n + 1) = some s)
    (hnew : confirmed observed n ≠ some s) :
    ∃ now, observed n = some now ∧ now.2 = s ∧ turn.report observed n =
      if s = .ready ∧ confirmed observed n = none then none
      else some { name := now.1, state := s } := by
  cases hnow : observed n with
  | none =>
      have hentry : turn.entry observed (n + 1) = none := by simp only [entry, step, hnow]
      rw [confirmed, hentry] at h
      cases h
  | some now =>
      rw [confirmed_succ hnow] at h
      rcases turn_cases (turn.entry observed n) now with ⟨hturn, -⟩ | ⟨hturn, -⟩
      · rw [hturn] at h
        exact absurd (start_confirmed.symm.trans h) hnew
      · rw [hturn] at h
        obtain rfl := Option.some.inj h
        refine ⟨now, rfl, rfl, ?_⟩
        rw [report_now hnow, hturn]
        rfl

/-- A notice tells a change of what is confirmed. -/
theorem change_of_report {r : Notice} (h : turn.report observed n = some r) :
    confirmed observed (n + 1) = some r.state := by
  obtain ⟨now, hnow⟩ := input_of_report h
  rw [report_now hnow] at h
  rw [confirmed_succ hnow]
  rcases turn_cases (turn.entry observed n) now with ⟨hturn, -⟩ | ⟨hturn, -⟩
  · rw [hturn] at h
    cases h
  · rw [hturn] at h ⊢
    obtain ⟨_, h⟩ := Option.ite_none_left_eq_some.mp h
    exact congrArg some (congrArg Notice.state (Option.some.inj h))

/-- What was told last is what is confirmed. -/
theorem confirmed_of_last {i : Nat} {last : Notice} (hlast : turn.report observed i = some last)
    (hi : i < n) (hstays : Stays observed i n)
    (hsilent : ∀ l, i < l → l < n → turn.report observed l = none) :
    confirmed observed n = some last.state := by
  have hknows := knows observed n
  cases hs : confirmed observed n with
  | none =>
      have hnone := hknows.quiet hs i hi hstays
      rw [hlast] at hnone
      cases hnone
  | some s =>
      rcases hknows.latest s hs with ⟨-, hall⟩ | ⟨j, hj, -, ⟨r, hr, rfl⟩, hafter⟩
      · have hnone := hall i hi hstays
        rw [hlast] at hnone
        cases hnone
      · have hsame : j = i := by
          rcases Nat.lt_trichotomy j i with hlt | heq | hgt
          · have hnone := hafter i hlt hi
            rw [hlast] at hnone
            cases hnone
          · exact heq
          · have hnone := hsilent j hgt hj
            rw [hr] at hnone
            cases hnone
        subst hsame
        rw [hr] at hlast
        rw [Option.some.inj hlast]

end single

/-! ## All updates -/

/-- What is told about a key along a sequence of updates. -/
structure FiresOncePerChange (updates : Nat → Update) (key : Key) : Prop where
  /-- An observed state is confirmed, one that may pass by itself when the update before showed it
  too, and `unknown` when something was confirmed before. -/
  confirms : ∀ n s, stateAt updates key n = some s →
    (s.debounce → ∃ i, n = i + 1 ∧ stateAt updates key i = some s) →
    (s = .unknown → confirmedAt updates key n ≠ none) → confirmedAt updates key (n + 1) = some s
  /-- An update that confirms another state than before tells it once; the `ready` that is confirmed
  first is not told. -/
  tells : ∀ n s, confirmedAt updates key (n + 1) = some s → confirmedAt updates key n ≠ some s →
    (s = .ready → confirmedAt updates key n ≠ none) →
    ∃ notice, noticesAt updates key n = [notice] ∧ notice.state = s
  /-- What is told is confirmed by that update, and was not confirmed before it. -/
  changes : ∀ n, ∀ notice ∈ noticesAt updates key n,
    confirmedAt updates key (n + 1) = some notice.state ∧
      confirmedAt updates key n ≠ some notice.state
  /-- A state that may pass by itself is told when the update before showed it too. -/
  twice : ∀ n, ∀ notice ∈ noticesAt updates key n, notice.state.debounce →
    ∃ i, n = i + 1 ∧ stateAt updates key i = some notice.state ∧
      stateAt updates key n = some notice.state
  /-- An update tells one thing at most. -/
  single : ∀ n, (noticesAt updates key n).length ≤ 1
  /-- Two successive notices tell different states. -/
  differ : ∀ i n, i < n → PresentFrom updates key i n →
    (∀ l, i < l → l < n → noticesAt updates key l = []) →
    ∀ first ∈ noticesAt updates key i, ∀ second ∈ noticesAt updates key n,
      first.state ≠ second.state
  /-- `ready` is told only when another state was confirmed before, and the last notice told it. -/
  again : ∀ n, ∀ notice ∈ noticesAt updates key n, notice.state = .ready →
    ∃ s, confirmedAt updates key n = some s ∧ s ≠ .ready ∧
      ∃ i < n, PresentFrom updates key i n ∧ (∃ last ∈ noticesAt updates key i, last.state = s) ∧
        ∀ l, i < l → l < n → noticesAt updates key l = []
  /-- Nothing is told while only `unknown` is observed. -/
  known : ∀ n, ∀ notice ∈ noticesAt updates key n,
    ∃ i ≤ n, PresentFrom updates key i (n + 1) ∧
      ∃ s, stateAt updates key i = some s ∧ s ≠ .unknown
  /-- A notice shows the observation of its update. -/
  shown : ∀ n, ∀ notice ∈ noticesAt updates key n,
    seen (updates n) key = some (notice.name, notice.state)
  /-- Updates that show the same of a key tell the same of it. -/
  own : ∀ others n, (∀ i ≤ n, seen (updates i) key = seen (others i) key) →
    noticesAt updates key n = noticesAt others key n

/-- For every sequence of updates, every conversation and the receiver have keys of their own,
what is returned are the texts of the notices about these keys, and each of them is told of once for
a confirmed change. -/
theorem fires_once_per_change (updates : Nat → Update) :
    Function.Injective Key.text ∧
      (∀ n text, text ∈ saidAt updates n ↔
        ∃ key, ∃ notice ∈ noticesAt updates key n, notice.text = text) ∧
      ∀ key, FiresOncePerChange updates key := by
  refine ⟨Key.text_injective, fun n text => ⟨saidAt_notice, ?_⟩, fun key => ?_⟩
  · rintro ⟨key, notice, hnotice, rfl⟩
    exact List.mem_map.mpr ⟨_, mem_reportsOf.mp hnotice, rfl⟩
  have hmem : ∀ {n notice}, notice ∈ noticesAt updates key n ↔
      turn.report (inputs updates key) n = some notice := by
    intro n notice
    rw [noticesAt_eq, Option.mem_toList]
  have hnil : ∀ {n}, noticesAt updates key n = [] ↔
      turn.report (inputs updates key) n = none := by
    intro n
    rw [noticesAt_eq, Option.toList_eq_nil_iff]
  have hconfirmed : ∀ n, confirmedAt updates key n = confirmed (inputs updates key) n := by
    intro n
    rw [confirmedAt, trackerAt_get]
    rfl
  constructor
  · intro n s hstate htwice hunknown
    obtain ⟨now, hnow, rfl⟩ := Option.map_eq_some_iff.mp hstate
    rw [hconfirmed] at hunknown ⊢
    exact confirmed_of_observed hnow htwice hunknown
  · intro n s hafter hbefore hready
    rw [hconfirmed] at hafter hbefore hready
    obtain ⟨now, -, -, hreport⟩ := report_of_change hafter hbefore
    rw [if_neg fun hfirst => hready hfirst.1 hfirst.2] at hreport
    rw [noticesAt_eq, hreport]
    exact ⟨_, rfl, rfl⟩
  · intro n notice htold
    obtain ⟨-, -, -, hnew, -⟩ := report_some (hmem.mp htold)
    rw [hconfirmed, hconfirmed]
    exact ⟨change_of_report (hmem.mp htold), hnew⟩
  · intro n notice htold hdebounce
    obtain ⟨now, hnow, rfl, -, -, -, htwice⟩ := report_some (hmem.mp htold)
    obtain ⟨i, hi, hstate⟩ := htwice hdebounce
    exact ⟨i, hi, hstate, congrArg (Option.map Prod.snd) hnow⟩
  · intro n
    rw [noticesAt_eq]
    cases turn.report (inputs updates key) n <;> simp
  · intro i n hi hpresent hbetween first hfirst second hsecond heq
    obtain ⟨-, -, -, hnew, -⟩ := report_some (hmem.mp hsecond)
    exact hnew ((confirmed_of_last (hmem.mp hfirst) hi hpresent
      fun l hl hl' => hnil.mp (hbetween l hl hl')).trans (congrArg some heq))
  · intro n notice htold hready
    obtain ⟨-, -, -, hnew, hsome, -⟩ := report_some (hmem.mp htold)
    obtain ⟨s, hs⟩ := Option.ne_none_iff_exists'.mp (hsome hready)
    have hne : s ≠ .ready := by
      intro h
      exact hnew (hs.trans (congrArg some (h.trans hready.symm)))
    rcases (knows (inputs updates key) n).latest s hs with
      ⟨h, -⟩ | ⟨i, hi, hpresent, ⟨last, hlast, hstate⟩, hsilent⟩
    · exact absurd h hne
    · exact ⟨s, (hconfirmed n).trans hs, hne, i, hi, hpresent, ⟨last, hmem.mpr hlast, hstate⟩,
        fun l hl hl' => hnil.mpr (hsilent l hl hl')⟩
  · intro n notice htold
    obtain ⟨now, hnow, rfl, -, -, hunknown, -⟩ := report_some (hmem.mp htold)
    have hsome : (inputs updates key n).isSome := by rw [hnow]; rfl
    by_cases hstate : now.2 = .unknown
    · obtain ⟨i, hi, hpresent, hother⟩ := (knows (inputs updates key) n).known (hunknown hstate)
      exact ⟨i, by omega, (stays_succ_iff (by omega)).mpr ⟨hpresent, hsome⟩, hother⟩
    · exact ⟨n, Nat.le_refl n,
        (stays_succ_iff (Nat.le_refl n)).mpr ⟨fun l hl hl' => absurd hl (by omega), hsome⟩,
        now.2, congrArg (Option.map Prod.snd) hnow, hstate⟩
  · intro n notice htold
    obtain ⟨now, hnow, rfl, -⟩ := report_some (hmem.mp htold)
    exact hnow
  · intro others n hsame
    have hreport : turn.report (inputs updates key) n = turn.report (inputs others key) n :=
      report_congr hsame
    rw [noticesAt_eq, noticesAt_eq, hreport]

end CodexMonitor.Alerts
