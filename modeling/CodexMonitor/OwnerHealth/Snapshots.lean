import CodexMonitor.OwnerHealth.Cache

/-!
# What a snapshot can be relied on for

The dashboard's labels are read off the health of a conversation's routes.  In any
interleaving of snapshots, whatever the owners answer: a label that says that a
conversation is ready, or that it waits for its user, is backed by what its owner said
within the last two seconds before the snapshot or in it; no health value is that of
another conversation; and every method that is called of an owner is one that reads.
-/

namespace CodexMonitor.OwnerHealth

open Dashboard (field isTrue isText strOr itemsOf routesOf isEnabled health)
open Session (SessionError)
open Tasks

variable {tools : Tools} {p : Pool Answer Room (List Value) (List Value)} {i : Nat}

/-! ## Rows with their health -/

section rows

variable {row : Value} {h : Health} {fields : List (String × Value)} {key : String}

/-- Replacing one field leaves the others. -/
theorem find_replaced {other : String} {value : Value} (hkey : key ≠ other) :
    (fields.filter (fun entry => entry.1 ≠ other) ++ [(other, value)]).find?
      (fun entry => entry.1 = key) = fields.find? fun entry => entry.1 = key := by
  have hfind : (fields.filter fun entry => entry.1 ≠ other).find?
      (fun entry => entry.1 = key) = fields.find? fun entry => entry.1 = key := by
    rw [List.find?_filter]
    congr 1
    funext entry
    by_cases heq : entry.1 = key
    · simp [heq, hkey]
    · simp [heq]
  rw [List.find?_append, hfind, List.find?_singleton, if_neg (by simpa using Ne.symm hkey),
    Option.or_none]

theorem field_withHealth (hkey : key ≠ "owner_health") :
    field (withHealth row h) key = field row key := by
  cases row with
  | object fields =>
      unfold withHealth field Value.get
      simp only [find_replaced hkey]
  | null | bool _ | number _ | string _ | array _ => rfl

/-- `b["permission"] = …` of `attach_permissions`. -/
def withPermission (row permission : Value) : Value :=
  match row with
  | .object fields =>
      .object (fields.filter (fun entry => entry.1 ≠ "permission") ++ [("permission", permission)])
  | other => other

theorem field_withPermission {permission : Value} (hkey : key ≠ "permission") :
    field (withPermission row permission) key = field row key := by
  cases row with
  | object fields =>
      unfold withPermission field Value.get
      simp only [find_replaced hkey]
  | null | bool _ | number _ | string _ | array _ => rfl

/-- A route as the dashboard groups it: one of a snapshot, which may have been given a permission
since. -/
def Shown (out : List Value) (route : Value) : Prop :=
  ∃ told ∈ out, ∀ key, key ≠ "permission" → field route key = field told key

theorem shown_withPermission {out : List Value} {told permission : Value} (h : told ∈ out) :
    Shown out (withPermission told permission) :=
  ⟨told, h, fun _ => field_withPermission⟩

theorem health_withHealth : health (withHealth (.object fields) h) = h.value := by
  have hnone : (fields.filter fun entry => entry.1 ≠ "owner_health").find?
      (fun entry => entry.1 = "owner_health") = none := by
    refine List.find?_eq_none.mpr fun entry hentry => ?_
    simpa using (List.mem_filter.mp hentry).2
  unfold health withHealth field Value.get
  simp only [List.find?_append, hnone]
  rfl

theorem isEnabled_withHealth : isEnabled (withHealth row h) = isEnabled row := by
  unfold isEnabled
  rw [field_withHealth (by decide)]

theorem endpointOf_withHealth : endpointOf (withHealth row h) = endpointOf row := by
  unfold endpointOf
  rw [field_withHealth (by decide)]

theorem threadOf_withHealth : threadOf (withHealth row h) = threadOf row := by
  unfold threadOf
  rw [field_withHealth (by decide)]

/-- A row with a field is an object. -/
theorem object_of_enabled (henabled : isEnabled row = true) : ∃ fields, row = .object fields := by
  cases row with
  | object fields => exact ⟨fields, rfl⟩
  | null | bool _ | number _ | string _ | array _ => cases henabled

end rows

/-! ## Labels -/

section labels

variable {row : Value}

/-- The routes that a label is about. -/
def activeRoutes (row : Value) : List Value := (routesOf row).filter isEnabled

theorem mem_activeRoutes {route : Value} :
    route ∈ activeRoutes row ↔ route ∈ routesOf row ∧ isEnabled route = true := List.mem_filter

theorem ready_label (h : Dashboard.ready row = "Ready" ∨ Dashboard.ready row = "Running") :
    activeRoutes row ≠ [] ∧
      ∀ route ∈ activeRoutes row, isTrue (field (health route) "ready") = true := by
  have hfacts : (activeRoutes row).isEmpty = false ∧
      (activeRoutes row).all (fun route => isTrue (field (health route) "ready")) = true := by
    unfold Dashboard.ready at h
    simp only at h
    split_ifs at h with hempty _ _ _ _ _ hall <;>
      first
      | exact absurd h (by decide)
      | exact ⟨Bool.eq_false_of_not_eq_true hempty, hall⟩
  refine ⟨fun hnil => ?_, List.all_eq_true.mp hfacts.2⟩
  rw [hnil] at hfacts
  cases hfacts.1

theorem approval_label (h : Dashboard.ready row = "Approval needed") :
    ∃ route ∈ activeRoutes row,
      isText (field (health route) "status") "waiting-for-approval" = true := by
  unfold Dashboard.ready at h
  simp only at h
  split_ifs at h with _ _ _ _ hreports <;>
    first
    | exact absurd h (by decide)
    | exact List.any_eq_true.mp hreports

theorem response_label (h : Dashboard.ready row = "Response needed") :
    ∃ route ∈ activeRoutes row,
      isText (field (health route) "status") "waiting-for-user-input" = true := by
  unfold Dashboard.ready at h
  simp only at h
  split_ifs at h with _ _ _ _ _ hreports <;>
    first
    | exact absurd h (by decide)
    | exact List.any_eq_true.mp hreports

end labels

/-! ## What a value goes back to -/

/-- The owner has said of a conversation what an answer says: in one probe, which had not expired at
a time, it let the account be used and named the conversation among all that it has loaded; since
then it has answered for the conversation itself. -/
def Vouched (tools : Tools) (log : Log) (since : Nanos) (endpoint thread : String)
    (value : Value) : Prop :=
  ∃ earlier later i j deadline events found time, log = earlier ++ later ∧
    Traced (probeEndpoint tools endpoint deadline) events found ∧
    events ++ [⟨.now, time⟩] <:+ own i earlier ∧ since < time + cacheTtl ∧
    Granted events endpoint ∧ (∃ loaded, Listed events endpoint loaded ∧ thread ∈ loaded) ∧
    Replied (own j later) endpoint "thread/read" (readParams thread) (.ok value)

section told

variable {log : Log} {since : Nanos} {endpoint thread : String} {value : Health}

theorem Told.names (h : Told tools log since endpoint thread value) :
    value.thread = thread ∧ value.endpoint = displayEndpoint tools endpoint := by
  obtain ⟨_, _, _, _, _, ⟨_, _, _, _, hprobe⟩, _, ⟨_, _, _, _, hconversation⟩⟩ := h
  obtain ⟨hquiet, hendpoint, _⟩ := probeEndpoint_traced hprobe
  obtain ⟨hthread, hsame, _⟩ := probeConversation_traced hquiet hconversation
  exact ⟨hthread, hsame.trans hendpoint⟩

theorem Told.vouched (h : Told tools log since endpoint thread value) (hloud : ¬ value.Quiet) :
    ∃ said, Vouched tools log since endpoint thread said ∧ value.Says said := by
  obtain ⟨earlier, later, found, time, hlog, ⟨i, deadline, events, hevents, hprobe⟩,
    hsince, ⟨j, _, asked, hasked, hconversation⟩⟩ := h
  obtain ⟨hquiet, _, hloaded⟩ := probeEndpoint_traced hprobe
  obtain ⟨_, _, hvalue⟩ := probeConversation_traced hquiet hconversation
  obtain hvalue | ⟨loaded, said, hfound, hmem, hreplied, hsays⟩ := hvalue
  · exact absurd hvalue hloud
  · obtain ⟨hgranted, hlisted⟩ := hloaded loaded hfound
    exact ⟨said, ⟨earlier, later, i, j, deadline, events, found, time, hlog, hprobe, hevents,
      hsince, hgranted, ⟨loaded, hlisted, hmem⟩, hreplied.mono hasked.subset⟩, hsays⟩

end told

/-! ## Snapshots -/

theorem supported_of_refusal {crates : Crates} {row : Value} (h : refusal crates row = none) :
    supportedEndpoint crates (endpointOf row) = true := by
  by_contra hother
  unfold refusal at h
  split_ifs at h

/-- The health of an enabled route is quiet, or its owner has been asked. -/
theorem attached_health {log : Log} {since : Nanos} {row route : Value}
    (h : Attached tools log since row route) (henabled : isEnabled route = true) :
    ∃ value : Health, health route = value.value ∧
      (value.Quiet ∨ (supportedEndpoint tools.crates (endpointOf route) = true ∧
        Told tools log since (endpointOf route) (threadOf route) value)) := by
  cases h with
  | refused reason =>
      rw [isEnabled_withHealth] at henabled
      obtain ⟨fields, rfl⟩ := object_of_enabled henabled
      exact ⟨_, health_withHealth, .inl ⟨rfl, unverified_quiet⟩⟩
  | @told value hrow hvalue =>
      rw [isEnabled_withHealth] at henabled
      obtain ⟨fields, rfl⟩ := object_of_enabled henabled
      rw [endpointOf_withHealth, threadOf_withHealth]
      exact ⟨value, health_withHealth, .inr ⟨supported_of_refusal hrow, hvalue⟩⟩

/-- What a snapshot that has ended says, and since when. -/
theorem snapshot_of_result {out : List Value} (hreach : Reachable tools p)
    (hout : p.result? i = some out) :
    ∃ rows since, p.tasks[i]? = some (rows, .done out) ∧
      (own i p.shared.log).head? = some ⟨.now, since⟩ ∧
      List.Forall₂ (Attached tools p.shared.log since) rows out := by
  obtain ⟨rows, htask, since, hhead, hrows⟩ := result_meets (reachable_sound hreach) hout
  exact ⟨rows, since, htask, hhead, hrows⟩

theorem attached_of_mem {log : Log} {since : Nanos} {rows out : List Value} {route : Value}
    (h : List.Forall₂ (Attached tools log since) rows out) (hroute : route ∈ out) :
    ∃ row ∈ rows, Attached tools log since row route := by
  induction h with
  | nil => cases hroute
  | @cons row first rows out hrow _ ih =>
      obtain rfl | hroute := List.mem_cons.mp hroute
      · exact ⟨row, List.mem_cons_self, hrow⟩
      · obtain ⟨row', hmem, hattached⟩ := ih hroute
        exact ⟨row', List.mem_cons_of_mem _ hmem, hattached⟩

@[simp] theorem isTrue_ready {h : Health} :
    isTrue (field h.value "ready") = true ↔ h.ready = true := by
  simp [Dashboard.isTrue, Value.asBool]

@[simp] theorem isText_status {h : Health} {status : String} :
    isText (field h.value "status") status = true ↔ h.status = status := by
  simp [isText, Value.asStr]

/-- Ready, or waiting for the user. -/
def Loud (health : Value) : Prop :=
  isTrue (field health "ready") = true ∨
    ∃ status ∈ waitingStates, isText (field health "status") status = true

theorem Loud.not_quiet {h : Health} (hloud : Loud h.value) : ¬ h.Quiet := by
  intro hquiet
  obtain hready | ⟨status, hmem, hstatus⟩ := hloud
  · rw [isTrue_ready, hquiet.ready] at hready
    cases hready
  · rw [isText_status] at hstatus
    exact hquiet.status (hstatus ▸ hmem)

/-- An enabled route whose health is not quiet is vouched for. -/
theorem route_vouched {log : Log} {since : Nanos} {rows out : List Value} {route : Value}
    (h : List.Forall₂ (Attached tools log since) rows out) (hroute : Shown out route)
    (henabled : isEnabled route = true) (hloud : Loud (health route)) :
    supportedEndpoint tools.crates (endpointOf route) = true ∧ ∃ (value : Health) (said : Value),
      health route = value.value ∧ value.Says said ∧
        Vouched tools log since (endpointOf route) (threadOf route) said := by
  obtain ⟨told, hmem, hsame⟩ := hroute
  have hon : isEnabled route = isEnabled told := by
    unfold isEnabled
    rw [hsame _ (by decide)]
  have hhealth : health route = health told := hsame _ (by decide)
  have hendpoint : endpointOf route = endpointOf told := by
    unfold endpointOf
    rw [hsame _ (by decide)]
  have hthread : threadOf route = threadOf told := by
    unfold threadOf
    rw [hsame _ (by decide)]
  rw [hon] at henabled
  rw [hhealth] at hloud ⊢
  rw [hendpoint, hthread]
  obtain ⟨row, _, hattached⟩ := attached_of_mem h hmem
  obtain ⟨value, hvalue, hkind⟩ := attached_health hattached henabled
  have hnot : ¬ value.Quiet := (hvalue ▸ hloud).not_quiet
  obtain ⟨hsupported, htold⟩ := hkind.resolve_left hnot
  obtain ⟨said, hvouched, hsays⟩ := htold.vouched hnot
  exact ⟨hsupported, value, said, hvalue, hsays, hvouched⟩

/-! ## Two snapshots of one owner -/

def sampleTools : Tools where
  crates := ⟨fun _ => "", fun _ => none, fun _ => none, fun _ => none⟩
  port _ := none
  path _ := ""
  redact := id

def sampleRoute : Value :=
  .object [("thread", .string "thread-1"), ("endpoint", .string "unix:///tmp/owner.sock"),
    ("enabled", .bool true)]

/-- The owner of a sample answers. -/
def answers (v : Value) : Act (List Value) Outside Nanos := .went 0 ⟨some (.ok v), []⟩

/-- A task goes on without an owner. -/
def goesOn (i : Nat) : Act (List Value) Outside Nanos := .went i ⟨none, []⟩

def sampleAccount : Value := .object [("account", .object [("type", .string "chatgpt")])]

def samplePage : Value :=
  .object [("data", .array [.string "thread-1"]), ("nextCursor", .null)]

def sampleStatus (status : Value) : Value := .object [("thread", .object [("status", status)])]

/-- A first snapshot asks the owner; a second, one second later, goes by the cache. -/
def sampleActs (status : Value) : List (Act (List Value) Outside Nanos) :=
  [.started [sampleRoute], goesOn 0, goesOn 0, goesOn 0, goesOn 0, answers sampleAccount, goesOn 0,
    answers samplePage, goesOn 0, goesOn 0, goesOn 0, answers (sampleStatus status), goesOn 0,
    .turned (10 ^ 9), .started [sampleRoute], goesOn 1, goesOn 1, goesOn 1, goesOn 1]

/-- The conversation of a snapshot's routes, each with its permission. -/
def sampleRow (out : List Value) : Value :=
  .object [("routes", .array (out.map fun told =>
    withPermission told (.object [("label", .string "Full Access")])))]

theorem sampleRow_shown {out : List Value} : ∀ route ∈ routesOf (sampleRow out), Shown out route := by
  intro route hroute
  obtain ⟨told, hmem, rfl⟩ := List.mem_map.mp hroute
  exact shown_withPermission hmem

def flaggedStatus : Value :=
  .object [("type", .string "active"), ("activeFlags", .array [.string "waitingOnApproval"])]

def isCall : Question → Bool
  | .call _ _ _ _ => true
  | _ => false

/-- The second snapshot ends with a label. -/
theorem sampleActs_run (status : Value) {label : String}
    (h : (Runs.run? (machine sampleTools).step (sampleActs status) idle).any (fun p =>
      (p.result? 1).any (fun out => Dashboard.ready (sampleRow out) = label) &&
        p.shared.log.any fun entry => isCall entry.2.1) = true) :
    ∃ p out, Reachable sampleTools p ∧ p.result? 1 = some out ∧
      Dashboard.ready (sampleRow out) = label ∧ ∃ entry ∈ p.shared.log, isCall entry.2.1 = true := by
  obtain ⟨p, hrun, hfacts⟩ := Option.any_eq_true _ _ |>.mp h
  obtain ⟨hout, hcall⟩ := Bool.and_eq_true_iff.mp hfacts
  obtain ⟨out, hout, hlabel⟩ := Option.any_eq_true _ _ |>.mp hout
  exact ⟨p, out, Runs.leads_run hrun, hout, of_decide_eq_true hlabel, List.any_eq_true.mp hcall⟩

theorem idle_run : ∃ p out, Reachable sampleTools p ∧ p.result? 1 = some out ∧
    Dashboard.ready (sampleRow out) = "Ready" ∧ ∃ entry ∈ p.shared.log, isCall entry.2.1 = true := by
  refine sampleActs_run (.string "idle") ?_
  decide +kernel

theorem flagged_run : ∃ p out, Reachable sampleTools p ∧ p.result? 1 = some out ∧
    Dashboard.ready (sampleRow out) = "Approval needed" ∧
      ∃ entry ∈ p.shared.log, isCall entry.2.1 = true := by
  refine sampleActs_run flaggedStatus ?_
  decide +kernel

/-- **A conversation that is called ready is ready.**  Whatever other snapshots do at the same time,
when the label of a conversation says that it is ready or that it runs, each of its enabled routes
names an explicit server; it let its account be used and listed the conversation as loaded, in a
probe not two seconds old when the snapshot was begun, and then said of the conversation itself that
there is no error and that nothing waits for the user. -/
theorem ready_vouched (tools : Tools) (p : Pool Answer Room (List Value) (List Value)) (i : Nat)
    (out : List Value) (row : Value) (hreach : Reachable tools p) (hout : p.result? i = some out)
    (hroutes : ∀ route ∈ routesOf row, Shown out route)
    (hlabel : Dashboard.ready row = "Ready" ∨ Dashboard.ready row = "Running") :
    activeRoutes row ≠ [] ∧ ∃ since, (own i p.shared.log).head? = some ⟨.now, since⟩ ∧
      ∀ route ∈ activeRoutes row, supportedEndpoint tools.crates (endpointOf route) = true ∧
        ∃ said, Vouched tools p.shared.log since (endpointOf route) (threadOf route) said ∧
          statusValue said ≠ some "systemError" ∧ (attentionOf said).status = "none" := by
  obtain ⟨rows, since, _, hhead, hrows⟩ := snapshot_of_result hreach hout
  obtain ⟨hsome, hall⟩ := ready_label hlabel
  refine ⟨hsome, since, hhead, fun route hroute => ?_⟩
  obtain ⟨hmem, henabled⟩ := mem_activeRoutes.mp hroute
  have hready := hall route hroute
  obtain ⟨hsupported, value, said, hvalue, hsays, hvouched⟩ :=
    route_vouched hrows (hroutes route hmem) henabled (.inl hready)
  rw [hvalue, isTrue_ready] at hready
  exact ⟨hsupported, said, hvouched, hsays.healthy, hsays.ready hready⟩

theorem ready_vouched_sample : ∃ p out, Reachable sampleTools p ∧ p.result? 1 = some out ∧
    activeRoutes (sampleRow out) ≠ [] ∧ ∃ since, ∀ route ∈ activeRoutes (sampleRow out),
      ∃ said, Vouched sampleTools p.shared.log since (endpointOf route) (threadOf route) said ∧
        (attentionOf said).status = "none" := by
  obtain ⟨p, out, hreach, hout, hlabel, _⟩ := idle_run
  obtain ⟨hsome, since, _, hroutes⟩ := ready_vouched sampleTools p 1 out (sampleRow out) hreach hout
    sampleRow_shown (.inl hlabel)
  refine ⟨p, out, hreach, hout, hsome, since, fun route hroute => ?_⟩
  obtain ⟨_, said, hvouched, _, hnone⟩ := hroutes route hroute
  exact ⟨said, hvouched, hnone⟩

/-- **A decision that is called for is called for by the owner.**  When the label of a conversation
asks for an approval or for a response, the owner of one of its enabled routes has just flagged its
running turn so; a response is asked for only where no approval is. -/
theorem decision_vouched (tools : Tools) (p : Pool Answer Room (List Value) (List Value)) (i : Nat)
    (out : List Value) (row : Value) (hreach : Reachable tools p) (hout : p.result? i = some out)
    (hroutes : ∀ route ∈ routesOf row, Shown out route) :
    ∃ since, (own i p.shared.log).head? = some ⟨.now, since⟩ ∧
      (Dashboard.ready row = "Approval needed" → ∃ route ∈ activeRoutes row, ∃ said input,
        Vouched tools p.shared.log since (endpointOf route) (threadOf route) said ∧
          attentionOf said = .flagged true input) ∧
      (Dashboard.ready row = "Response needed" → ∃ route ∈ activeRoutes row, ∃ said,
        Vouched tools p.shared.log since (endpointOf route) (threadOf route) said ∧
          attentionOf said = .flagged false true) := by
  obtain ⟨rows, since, _, hhead, hrows⟩ := snapshot_of_result hreach hout
  have hwaiting : ∀ route ∈ activeRoutes row, ∀ status ∈ waitingStates,
      isText (field (health route) "status") status = true →
      ∃ (value : Health) (said : Value), value.status = status ∧ value.Says said ∧
        Vouched tools p.shared.log since (endpointOf route) (threadOf route) said := by
    intro route hroute status hstatus htext
    obtain ⟨hmem, henabled⟩ := mem_activeRoutes.mp hroute
    obtain ⟨_, value, said, hvalue, hsays, hvouched⟩ :=
      route_vouched hrows (hroutes route hmem) henabled (.inr ⟨status, hstatus, htext⟩)
    rw [hvalue, isText_status] at htext
    exact ⟨value, said, htext, hsays, hvouched⟩
  refine ⟨since, hhead, fun hlabel => ?_, fun hlabel => ?_⟩
  · obtain ⟨route, hroute, htext⟩ := approval_label hlabel
    obtain ⟨value, said, hstatus, hsays, hvouched⟩ :=
      hwaiting route hroute _ List.mem_cons_self htext
    obtain ⟨input, hinput⟩ := hsays.approval hstatus
    exact ⟨route, hroute, said, input, hvouched, hinput⟩
  · obtain ⟨route, hroute, htext⟩ := response_label hlabel
    obtain ⟨value, said, hstatus, hsays, hvouched⟩ :=
      hwaiting route hroute _ (List.mem_cons_of_mem _ List.mem_cons_self) htext
    exact ⟨route, hroute, said, hvouched, hsays.input hstatus⟩

theorem decision_vouched_sample : ∃ p out, Reachable sampleTools p ∧ p.result? 1 = some out ∧
    ∃ since, ∃ route ∈ activeRoutes (sampleRow out), ∃ said input,
      Vouched sampleTools p.shared.log since (endpointOf route) (threadOf route) said ∧
        attentionOf said = .flagged true input := by
  obtain ⟨p, out, hreach, hout, hlabel, _⟩ := flagged_run
  obtain ⟨since, _, happroval, _⟩ := decision_vouched sampleTools p 1 out (sampleRow out) hreach hout
    sampleRow_shown
  exact ⟨p, out, hreach, hout, since, happroval hlabel⟩

/-- **Nothing is said of another conversation.**  A snapshot that has ended has kept its routes, in
their order and but for their health; the health of each names the conversation and the endpoint of
that route, whatever else has been put into the cache meanwhile. -/
theorem health_belongs (tools : Tools) (p : Pool Answer Room (List Value) (List Value)) (i : Nat)
    (out : List Value) (hreach : Reachable tools p) (hout : p.result? i = some out) :
    ∃ rows, p.tasks[i]? = some (rows, .done out) ∧ List.Forall₂ (fun row route =>
      (∀ key, key ≠ "owner_health" → field route key = field row key) ∧
      ∀ fields, row = .object fields →
        field (health route) "thread" = .string (threadOf row) ∧
        field (health route) "endpoint" =
          .string (displayEndpoint tools (endpointOf row))) rows out := by
  obtain ⟨rows, since, htask, _, hrows⟩ := snapshot_of_result hreach hout
  refine ⟨rows, htask, hrows.imp fun row route hattached => ?_⟩
  cases hattached with
  | refused reason =>
      refine ⟨fun key hkey => field_withHealth hkey, fun fields hfields => ?_⟩
      subst hfields
      rw [health_withHealth]
      exact ⟨rfl, rfl⟩
  | @told value hrow hvalue =>
      refine ⟨fun key hkey => field_withHealth hkey, fun fields hfields => ?_⟩
      subst hfields
      rw [health_withHealth]
      obtain ⟨hthread, hendpoint⟩ := hvalue.names
      exact ⟨congrArg Value.string hthread, congrArg Value.string hendpoint⟩

theorem health_belongs_sample : ∃ p out, Reachable sampleTools p ∧ p.result? 1 = some out ∧
    ∃ rows, p.tasks[1]? = some (rows, .done out) ∧ out.length = rows.length := by
  obtain ⟨p, out, hreach, hout, _⟩ := idle_run
  obtain ⟨rows, htask, hrows⟩ := health_belongs sampleTools p 1 out hreach hout
  exact ⟨p, out, hreach, hout, rows, htask, hrows.length_eq.symm⟩

/-! ## What owners are sent -/

/-- A question of a snapshot. -/
inductive Harmless (crates : Crates) : Question → Prop
  | now : Harmless crates .now
  | lookup (endpoint : String) : Harmless crates (.lookup endpoint)
  | insert (endpoint : String) (entry : EndpointCache) : Harmless crates (.insert endpoint entry)
  | call {endpoint method : String} {params : Value} {remaining : Nanos}
      (hsupported : supportedEndpoint crates endpoint = true) (hread : ReadOnly method params)
      (hpositive : 0 < remaining) (hlimit : remaining ≤ probeTimeout) :
      Harmless crates (.call endpoint method params remaining)

section asks

variable {crates : Crates} {endpoint thread : String} {deadline : Nanos}

theorem Reads.harmless (hsupported : supportedEndpoint crates endpoint = true) {q : Question}
    (h : Reads endpoint q) : Harmless crates q := by
  cases h with
  | now => exact .now
  | call hread hpositive hlimit => exact .call hsupported hread hpositive hlimit

theorem refresh_asks (hsupported : supportedEndpoint crates endpoint = true) :
    (refresh tools endpoint deadline).Asks (Harmless crates) := by
  refine Prog.asks_bind (probeEndpoint_asks.mono fun _ => Reads.harmless hsupported) fun found => ?_
  refine Prog.asks_bind (f := fun time => _) ⟨.now, fun _ => trivial⟩ fun time => ?_
  exact ⟨.insert _ _, fun _ => trivial⟩

theorem get_asks (hsupported : supportedEndpoint crates endpoint = true) :
    (get tools endpoint thread deadline).Asks (Harmless crates) := by
  have hcurrent : (currentEntry tools endpoint deadline).Asks (Harmless crates) := by
    refine Prog.asks_bind (f := fun cached => _) ⟨.lookup _, fun _ => trivial⟩ fun cached => ?_
    cases cached with
    | none => exact refresh_asks hsupported
    | some entry =>
        refine Prog.asks_bind (f := fun time => _) ⟨.now, fun _ => trivial⟩ fun time => ?_
        by_cases hfresh : time < entry.expiresAt
        · simp only [hfresh, if_true]
          trivial
        · simp only [hfresh, if_false]
          exact refresh_asks hsupported
  refine Prog.asks_bind hcurrent fun entry => ?_
  cases entry.threads.get thread with
  | some value => trivial
  | none =>
      refine Prog.asks_bind
        ((probeConversation_asks _).mono fun _ => Reads.harmless hsupported) fun value => ?_
      refine Prog.asks_bind ?_ fun _ => trivial
      unfold remember
      split
      · exact ⟨.insert _ _, fun _ => trivial⟩
      · trivial

theorem attach_asks (rows : List Value) : (attach tools rows).Asks (Harmless tools.crates) := by
  have hrow : ∀ row deadline, (attachRow tools row deadline).Asks (Harmless tools.crates) := by
    intro row deadline
    unfold attachRow
    cases hrefusal : refusal tools.crates row with
    | some reason => trivial
    | none =>
        refine Prog.asks_bind (f := fun time => _) ⟨.now, fun _ => trivial⟩ fun time => ?_
        by_cases hlate : deadline ≤ time
        · simp only [hlate, if_true]
          trivial
        · simp only [hlate, if_false]
          exact Prog.asks_bind (get_asks (supported_of_refusal hrefusal)) fun _ => trivial
  refine Prog.asks_bind (f := fun time => _) ⟨.now, fun _ => trivial⟩ fun time => ?_
  induction rows with
  | nil => trivial
  | cons row rows ih => exact Prog.asks_bind (hrow row _) fun _ => Prog.asks_bind ih fun _ => trivial

/-- A connection to a supported endpoint starts no process. -/
theorem supported_starts_none (h : supportedEndpoint crates endpoint = true)
    (opening : Session.Opening) (spawnError : Option String) (stdin stdout : Bool) :
    Session.openTransport endpoint { opening with
      spawnError := spawnError, stdinPiped := stdin, stdoutPiped := stdout } =
    Session.openTransport endpoint opening := by
  unfold supportedEndpoint at h
  split_ifs at h with hlocal hroot
  have hkind := (of_decide_eq_true h).1
  unfold Session.openTransport
  have hnotLocal : ¬ (endpoint = "shared-local" ∨ endpoint = "local") := fun h =>
    hlocal (h.imp_right Or.inl)
  simp only [if_neg hnotLocal]
  by_cases hunix : (stripLead "unix://" endpoint).isSome = true
  · simp only [if_pos hunix]
  · have hws : (stripLead "ws://" endpoint).isSome = true ∨
        (stripLead "wss://" endpoint).isSome = true := by
      obtain hws | hwss | hunix' := hkind
      · exact .inl hws
      · exact .inr hwss
      · exact absurd hunix' hunix
    simp only [if_neg hunix, if_pos hws]

end asks

/-- **Snapshots only read.**  Whatever the owners answer and however snapshots interleave, every
method that a snapshot calls is one of five that read, within the time limit, and goes to an explicit
server; to connect to it no process is started. -/
theorem snapshots_read_only (tools : Tools) (p : Pool Answer Room (List Value) (List Value))
    (i : Nat) (endpoint method : String) (params : Value) (remaining : Nanos)
    (answer : Answer (.call endpoint method params remaining)) (hreach : Reachable tools p)
    (hcall : (i, ⟨.call endpoint method params remaining, answer⟩) ∈ p.shared.log) :
    ReadOnly method params ∧ 0 < remaining ∧ remaining ≤ probeTimeout ∧
      supportedEndpoint tools.crates endpoint = true ∧
      ∀ (opening : Session.Opening) (spawnError : Option String) (stdin stdout : Bool),
        Session.openTransport endpoint { opening with
          spawnError := spawnError, stdinPiped := stdin, stdoutPiped := stdout } =
        Session.openTransport endpoint opening := by
  have hasked := leads_asks (m := machine tools) attach_asks hreach _ hcall
  cases hasked with
  | call hsupported hread hpositive hlimit =>
      exact ⟨hread, hpositive, hlimit, hsupported, supported_starts_none hsupported⟩

theorem snapshots_read_only_sample : ∃ p endpoint method params, Reachable sampleTools p ∧
    ReadOnly method params ∧ supportedEndpoint sampleTools.crates endpoint = true := by
  obtain ⟨p, out, hreach, _, _, ⟨i, q, answer⟩, hmem, hcall⟩ := idle_run
  cases q with
  | call endpoint method params remaining =>
      have hread := snapshots_read_only sampleTools p i endpoint method params remaining answer hreach
        hmem
      exact ⟨p, endpoint, method, params, hreach, hread.1, hread.2.2.2.1⟩
  | now | lookup _ | insert _ _ => cases hcall

end CodexMonitor.OwnerHealth
