import CodexMonitor.OwnerHealth.Probe

/-!
# What a probe has to go on

A probe is traced: the requests it made and the answers it got are a list.  A health
value that says that a conversation is ready, or waits for its user, comes from
answers in that list that say so; and whatever is answered, a probe makes requests
that read, each with a time limit, to the one owner it is about.
-/

namespace CodexMonitor.OwnerHealth

open Dashboard (field isTrue isText strOr itemsOf textSet)
open Session (SessionError)
open Tasks

/-! ## What is asked -/

/-- The requests of a probe, none of which changes anything at the owner. -/
inductive ReadOnly : String → Value → Prop
  | account : ReadOnly "account/read" accountParams
  | loaded (cursor : Option String) : ReadOnly "thread/loaded/list" (cursorParams cursor)
  | thread (thread : String) : ReadOnly "thread/read" (readParams thread)
  | turns (thread : String) : ReadOnly "thread/turns/list" (turnsParams thread)
  | limits : ReadOnly "account/rateLimits/read" (.object [])

/-- A question that reads the clock or asks one owner. -/
inductive Reads (endpoint : String) : Question → Prop
  | now : Reads endpoint .now
  | call {method : String} {params : Value} {remaining : Nanos} (hread : ReadOnly method params)
      (hpositive : 0 < remaining) (hlimit : remaining ≤ probeTimeout) :
      Reads endpoint (.call endpoint method params remaining)

section asks

variable {tools : Tools} {endpoint thread method : String} {params : Value} {deadline : Nanos}

theorem call_asks (h : ReadOnly method params) :
    (call endpoint method params deadline).Asks (Reads endpoint) := by
  refine Prog.asks_bind (f := fun time => _) ⟨.now, fun _ => trivial⟩ fun time => ?_
  by_cases hzero : min (deadline - time) probeTimeout = 0
  · simp only [hzero, if_true]
    trivial
  · simp only [hzero, if_false]
    exact ⟨.call h (Nat.pos_of_ne_zero hzero) (Nat.min_le_right _ _), fun _ => trivial⟩

theorem pagesFrom_asks (pages : Nat) (rows seen : List String) (cursor : Option String) :
    (pagesFrom endpoint deadline pages rows seen cursor).Asks (Reads endpoint) := by
  induction pages generalizing rows seen cursor with
  | zero => trivial
  | succ pages ih =>
      refine Prog.asks_bind (call_asks (.loaded cursor)) fun answer => ?_
      cases answer with
      | error failure => trivial
      | ok value =>
          cases hpage : readPage rows seen value with
          | failed => simp only [hpage]; trivial
          | last rows => simp only [hpage]; trivial
          | more rows seen next =>
              simp only [hpage]
              exact ih rows seen (some next)

theorem probeLoaded_asks (base : Health) (account : Account) :
    (probeLoaded endpoint deadline base account).Asks (Reads endpoint) := by
  unfold probeLoaded
  by_cases hauth : account.status = "auth-required"
  · simp only [hauth, if_true]
    trivial
  · simp only [hauth, if_false]
    refine Prog.asks_bind (pagesFrom_asks _ _ _ _) fun answer => ?_
    cases answer with
    | ok loaded => trivial
    | error failure => cases failure <;> trivial

theorem probeEndpoint_asks : (probeEndpoint tools endpoint deadline).Asks (Reads endpoint) := by
  refine Prog.asks_bind (call_asks .account) fun answer => ?_
  cases answer with
  | ok value => exact probeLoaded_asks _ _
  | error failure =>
      cases failure with
      | unsupported => exact probeLoaded_asks _ _
      | auth | unavailable => trivial

theorem probeError_asks (result : Health) :
    (probeError tools endpoint thread result deadline).Asks (Reads endpoint) := by
  refine Prog.asks_bind (call_asks (.turns thread)) fun page => ?_
  cases errorOf tools page with
  | unsupported | unavailable => trivial
  | observed authentication message =>
      cases authentication with
      | false => trivial
      | true => exact Prog.asks_bind (call_asks .limits) fun _ => trivial

theorem probeConversation_asks (found : Found) :
    (probeConversation tools endpoint thread found deadline).Asks (Reads endpoint) := by
  unfold probeConversation
  split
  · trivial
  · split
    · trivial
    · refine Prog.asks_bind (call_asks (.thread thread)) fun answer => ?_
      cases answer with
      | ok value =>
          by_cases herror : statusValue value = some "systemError"
          · simp only [herror, if_true]
            exact probeError_asks _
          · simp only [herror, if_false]
            trivial
      | error failure => cases failure <;> trivial

end asks

/-! ## What is answered -/

/-- A request was made, and its answer comes to this. -/
def Replied (events : List Asked) (endpoint method : String) (params : Value)
    (r : Except Failure Value) : Prop :=
  ∃ (remaining : Nanos) (answer : Answer (.call endpoint method params remaining)),
    ⟨.call endpoint method params remaining, answer⟩ ∈ events ∧ outcome answer = r

/-- The account of an owner may be used, for all that its answer says. -/
def Granted (events : List Asked) (endpoint : String) : Prop :=
  ∃ r, Replied events endpoint "account/read" accountParams r ∧
    (r = .error .unsupported ∨
      ∃ value, r = .ok value ∧ (accountObservation value).status ≠ "auth-required")

/-- The conversations that a page of the list names. -/
def names (page : Value) : List String := (itemsOf (field page "data")).filterMap rowId

/-- The pages of the list from a cursor to its end. -/
inductive Listing (events : List Asked) (endpoint : String) :
    Option String → List Value → Prop
  | last {cursor : Option String} {page : Value}
      (hread : Replied events endpoint "thread/loaded/list" (cursorParams cursor) (.ok page))
      (hlast : (page.get "nextCursor").all isNull = true) : Listing events endpoint cursor [page]
  | more {cursor : Option String} {page : Value} {next : String} {pages : List Value}
      (hread : Replied events endpoint "thread/loaded/list" (cursorParams cursor) (.ok page))
      (hnext : (page.get "nextCursor").bind Value.asStr = some next)
      (hrest : Listing events endpoint (some next) pages) :
      Listing events endpoint cursor (page :: pages)

section replies

variable {events more : List Asked} {endpoint method : String} {params : Value}
  {r : Except Failure Value}

theorem Replied.mono (h : Replied events endpoint method params r) (hsub : events ⊆ more) :
    Replied more endpoint method params r := by
  obtain ⟨remaining, answer, hmem, hr⟩ := h
  exact ⟨remaining, answer, hsub hmem, hr⟩

theorem Listing.mono {cursor : Option String} {pages : List Value}
    (h : Listing events endpoint cursor pages) (hsub : events ⊆ more) :
    Listing more endpoint cursor pages := by
  induction h with
  | last hread hlast => exact .last (hread.mono hsub) hlast
  | more hread hnext _ ih => exact .more (hread.mono hsub) hnext ih

/-- A call is answered, or was not made in time. -/
theorem call_traced {deadline : Nanos}
    (h : Traced (call endpoint method params deadline) events r) :
    r = .error .unavailable ∨ Replied events endpoint method params r := by
  obtain ⟨first, last, time, rfl, hnow, hcall⟩ := traced_bind h
  by_cases hzero : min (deadline - time) probeTimeout = 0
  · simp only [hzero, if_true] at hcall
    exact .inl (traced_done hcall).2
  · simp only [hzero, if_false] at hcall
    obtain ⟨answer, rest, rfl, hdone⟩ := traced_ask hcall
    refine .inr ⟨_, answer, List.mem_append_right _ List.mem_cons_self, ?_⟩
    exact (traced_done hdone).2.symm

theorem call_ok {deadline : Nanos} {value : Value}
    (h : Traced (call endpoint method params deadline) events (.ok value)) :
    Replied events endpoint method params (.ok value) := by
  obtain hfailed | hreplied := call_traced h
  · cases hfailed
  · exact hreplied

end replies

/-! ## The loaded conversations -/

theorem mem_textSet {text : String} {texts : List String} : text ∈ textSet texts ↔ text ∈ texts := by
  unfold textSet
  rw [List.mem_insertionSort, List.mem_dedup]

/-- What a page names. -/
theorem names_of_data {value : Value} {data : List Value}
    (h : (value.get "data").bind Value.asArray = some data) : names value = data.filterMap rowId := by
  obtain ⟨v, hv, hitems⟩ := Option.bind_eq_some_iff.mp h
  unfold names itemsOf field
  rw [hv, Option.getD_some, hitems, Option.getD_some]

/-- The ids after a page, with those before it. -/
theorem mem_withPage {rows : List String} {value : Value} {data : List Value}
    (h : (value.get "data").bind Value.asArray = some data) (thread : String) :
    thread ∈ textSet (rows ++ data.filterMap rowId) ↔ thread ∈ rows ∨ thread ∈ names value := by
  rw [mem_textSet, List.mem_append, names_of_data h]

theorem readPage_last {rows seen all : List String} {value : Value}
    (h : readPage rows seen value = .last all) :
    (value.get "nextCursor").all isNull = true ∧
      ∀ thread, thread ∈ all ↔ thread ∈ rows ∨ thread ∈ names value := by
  unfold readPage at h
  split at h
  · cases h
  · rename_i data hdata
    dsimp only at h
    split at h
    · cases h
    · split at h
      · rename_i hlast
        cases h
        exact ⟨hlast, mem_withPage hdata⟩
      · split at h
        · cases h
        · split at h <;> cases h

theorem readPage_more {rows seen all seen' : List String} {value : Value} {next : String}
    (h : readPage rows seen value = .more all seen' next) :
    (value.get "nextCursor").bind Value.asStr = some next ∧
      ∀ thread, thread ∈ all ↔ thread ∈ rows ∨ thread ∈ names value := by
  unfold readPage at h
  split at h
  · cases h
  · rename_i data hdata
    dsimp only at h
    split at h
    · cases h
    · split at h
      · cases h
      · split at h
        · cases h
        · rename_i next' hnext
          split at h
          · cases h
          · cases h
            exact ⟨hnext, mem_withPage hdata⟩

/-- A list that was read is made of the names on its pages. -/
theorem pagesFrom_traced {endpoint : String} {deadline : Nanos} (pages : Nat)
    {rows seen loaded : List String} {cursor : Option String} {events : List Asked}
    (h : Traced (pagesFrom endpoint deadline pages rows seen cursor) events (.ok loaded)) :
    ∃ values, values.length ≤ pages ∧ Listing events endpoint cursor values ∧
      ∀ thread, thread ∈ loaded ↔ thread ∈ rows ∨ ∃ value ∈ values, thread ∈ names value := by
  induction pages generalizing rows seen cursor events with
  | zero => cases (traced_done h).2
  | succ pages ih =>
      obtain ⟨first, last, answer, rfl, hcall, hrest⟩ := traced_bind h
      cases answer with
      | error failure => cases (traced_done hrest).2
      | ok value =>
          have hread := (call_ok hcall).mono (List.subset_append_left first last)
          cases hpage : readPage rows seen value with
          | failed =>
              simp only [hpage] at hrest
              cases (traced_done hrest).2
          | last all =>
              simp only [hpage] at hrest
              obtain ⟨hlast, hnames⟩ := readPage_last hpage
              cases (traced_done hrest).2
              refine ⟨[value], Nat.succ_le_succ (Nat.zero_le _), .last hread hlast, ?_⟩
              simpa using hnames
          | more all seen' next =>
              simp only [hpage] at hrest
              obtain ⟨hnext, hnames⟩ := readPage_more hpage
              obtain ⟨values, hlength, hlisting, hmem⟩ := ih hrest
              refine ⟨value :: values, Nat.succ_le_succ hlength, ?_, fun thread => ?_⟩
              · exact .more hread hnext (hlisting.mono (List.subset_append_right first last))
              · rw [hmem, hnames, List.exists_mem_cons_iff, or_assoc]

/-! ## The owner -/

def waitingStates : List String := ["waiting-for-approval", "waiting-for-user-input"]

/-- The value says neither that the conversation is ready nor that it waits for its user. -/
structure Health.Quiet (h : Health) : Prop where
  ready : h.ready = false
  status : h.status ∉ waitingStates

theorem unverified_quiet : "unverified" ∉ waitingStates := by decide

theorem unavailable_quiet : "unavailable" ∉ waitingStates := by decide

theorem authRequired_quiet : "auth-required" ∉ waitingStates := by decide

/-- The pages of the list, read to the end, name the loaded conversations. -/
def Listed (events : List Asked) (endpoint : String) (loaded : List String) : Prop :=
  ∃ pages, pages.length ≤ maxPages ∧ Listing events endpoint none pages ∧
    ∀ thread, thread ∈ loaded ↔ ∃ page ∈ pages, thread ∈ names page

section owners

variable {tools : Tools} {endpoint thread : String} {deadline : Nanos} {events : List Asked}
  {found : Found} {v : Health}

theorem probeLoaded_traced {b : Health} {account : Account} (hb : b.Quiet)
    (h : Traced (probeLoaded endpoint deadline b account) events found) :
    found.1.Quiet ∧ found.1.endpoint = b.endpoint ∧ ∀ loaded, found.2 = some loaded →
      account.status ≠ "auth-required" ∧ Listed events endpoint loaded := by
  unfold probeLoaded at h
  by_cases hauth : account.status = "auth-required"
  · simp only [hauth, if_true] at h
    obtain rfl := (traced_done h).2
    exact ⟨⟨rfl, authRequired_quiet⟩, rfl, fun loaded hloaded => by cases hloaded⟩
  · simp only [hauth, if_false] at h
    obtain ⟨first, last, answer, rfl, hpages, hrest⟩ := traced_bind h
    cases answer with
    | ok ids =>
        obtain rfl := (traced_done hrest).2
        refine ⟨⟨hb.ready, hb.status⟩, rfl, fun loaded hloaded => ⟨hauth, ?_⟩⟩
        cases hloaded
        obtain ⟨pages, hlength, hlisting, hnames⟩ := pagesFrom_traced maxPages hpages
        refine ⟨pages, hlength, hlisting.mono (List.subset_append_left _ _), fun thread => ?_⟩
        rw [hnames thread, or_iff_right List.not_mem_nil]
    | error failure =>
        cases failure with
        | auth =>
            obtain rfl := (traced_done hrest).2
            exact ⟨⟨rfl, authRequired_quiet⟩, rfl, fun loaded hloaded => by cases hloaded⟩
        | unsupported | unavailable =>
            obtain rfl := (traced_done hrest).2
            exact ⟨⟨hb.ready, hb.status⟩, rfl, fun loaded hloaded => by cases hloaded⟩

/-- A probe that finds the loaded conversations has been let in and has read the whole list. -/
theorem probeEndpoint_traced (h : Traced (probeEndpoint tools endpoint deadline) events found) :
    found.1.Quiet ∧ found.1.endpoint = displayEndpoint tools endpoint ∧
      ∀ loaded, found.2 = some loaded → Granted events endpoint ∧ Listed events endpoint loaded := by
  obtain ⟨first, last, answer, rfl, hcall, hrest⟩ := traced_bind h
  have hlater : ∀ loaded, Listed last endpoint loaded → Listed (first ++ last) endpoint loaded := by
    rintro loaded ⟨pages, hlength, hlisting, hnames⟩
    exact ⟨pages, hlength, hlisting.mono (List.subset_append_right _ _), hnames⟩
  cases answer with
  | ok value =>
      obtain ⟨hquiet, hendpoint, hloaded⟩ := probeLoaded_traced ⟨rfl, unverified_quiet⟩ hrest
      refine ⟨hquiet, hendpoint, fun loaded hfound => ?_⟩
      obtain ⟨hauth, hlisted⟩ := hloaded loaded hfound
      have hreplied := (call_ok hcall).mono (List.subset_append_left first last)
      exact ⟨⟨_, hreplied, .inr ⟨value, rfl, hauth⟩⟩, hlater loaded hlisted⟩
  | error failure =>
      cases failure with
      | unsupported =>
          obtain ⟨hquiet, hendpoint, hloaded⟩ := probeLoaded_traced ⟨rfl, unverified_quiet⟩ hrest
          refine ⟨hquiet, hendpoint, fun loaded hfound => ?_⟩
          obtain hfailed | hreplied := call_traced hcall
          · cases hfailed
          · have hreplied := hreplied.mono (List.subset_append_left first last)
            exact ⟨⟨_, hreplied, .inl rfl⟩, hlater loaded (hloaded loaded hfound).2⟩
      | auth =>
          obtain rfl := (traced_done hrest).2
          exact ⟨⟨rfl, authRequired_quiet⟩, rfl, fun loaded hloaded => by cases hloaded⟩
      | unavailable =>
          obtain rfl := (traced_done hrest).2
          exact ⟨⟨rfl, unavailable_quiet⟩, rfl, fun loaded hloaded => by cases hloaded⟩

/-! ## A conversation -/

/-- What a health value may say of an answer to `thread/read`. -/
structure Health.Says (h : Health) (value : Value) : Prop where
  healthy : statusValue value ≠ some "systemError"
  ready : h.ready = true → (attentionOf value).status = "none"
  approval : h.status = "waiting-for-approval" → ∃ input, attentionOf value = .flagged true input
  input : h.status = "waiting-for-user-input" → attentionOf value = .flagged false true

theorem attended_unverified (result : Health) {value : Value}
    (h : attentionOf value = .unverified) :
    (attended result value).ready = result.ready ∧
      (attended result value).status = result.status := by
  simp [attended, applyAttention, h, Attention.status]

theorem attended_clear (result : Health) {value : Value}
    (h : (attentionOf value).status = "none") :
    (attended result value).ready = true ∧
      (attended result value).status = "ready-to-receive" := by
  cases hattention : attentionOf value with
  | unverified =>
      rw [hattention] at h
      exact absurd (h : "unverified" = "none") (by decide)
  | idle => simp [attended, applyAttention, hattention, Attention.status]
  | flagged approval input =>
      have hnone : (approval || input) = false := by
        by_contra hsome
        rw [hattention, Attention.status, if_pos (Bool.eq_true_of_not_eq_false hsome)] at h
        revert h
        decide
      simp [attended, applyAttention, hattention, Attention.status, hnone]

theorem attended_waiting (result : Health) {value : Value} {approval input : Bool}
    (h : attentionOf value = .flagged approval input) (hwaits : (approval || input) = true) :
    (attended result value).ready = false ∧
      (attended result value).status = (waitingState approval input).1 := by
  simp [attended, applyAttention, h, hwaits]

theorem attended_says {result : Health} {value : Value} (hresult : result.Quiet)
    (hvalue : statusValue value ≠ some "systemError") : (attended result value).Says value := by
  have hclear : (attentionOf value).status = "none" → (attended result value).Says value := by
    intro h
    obtain ⟨_, hstatus⟩ := attended_clear result h
    refine ⟨hvalue, fun _ => h, fun hwaits => ?_, fun hwaits => ?_⟩
    · exact absurd (hstatus.symm.trans hwaits) (by decide)
    · exact absurd (hstatus.symm.trans hwaits) (by decide)
  cases hattention : attentionOf value with
  | unverified =>
      obtain ⟨hready, hstatus⟩ := attended_unverified result hattention
      refine ⟨hvalue, fun h => ?_, fun h => ?_, fun h => ?_⟩
      · rw [hready, hresult.ready] at h
        cases h
      · exact absurd (hstatus ▸ h ▸ List.mem_cons_self) hresult.status
      · exact absurd (hstatus ▸ h ▸ List.mem_cons_of_mem _ List.mem_cons_self) hresult.status
  | idle => exact hclear (hattention ▸ rfl)
  | flagged approval input =>
      by_cases hwaits : (approval || input) = true
      · obtain ⟨hready, hstatus⟩ := attended_waiting result hattention hwaits
        refine ⟨hvalue, fun h => ?_, fun h => ?_, fun h => ?_⟩
        · rw [hready] at h
          cases h
        · cases approval with
          | true => exact ⟨input, hattention⟩
          | false =>
              have hinput : "waiting-for-user-input" = "waiting-for-approval" := hstatus.symm.trans h
              exact absurd hinput (by decide)
        · cases approval with
          | true =>
              have happroval : "waiting-for-approval" = "waiting-for-user-input" :=
                hstatus.symm.trans h
              exact absurd happroval (by decide)
          | false =>
              obtain rfl : input = true := by simpa using hwaits
              exact hattention
      · refine hclear ?_
        rw [hattention, Attention.status, if_neg hwaits]

theorem attended_names {result : Health} {value : Value} :
    (attended result value).thread = result.thread ∧
      (attended result value).endpoint = result.endpoint := by
  unfold attended applyAttention
  cases attentionOf value with
  | unverified | idle => exact ⟨rfl, rfl⟩
  | flagged approval input => cases approval <;> cases input <;> exact ⟨rfl, rfl⟩

theorem withCurrentAuth_facts (result : Health) (limits : Except Failure Value) :
    (withCurrentAuth result limits).thread = result.thread ∧
      (withCurrentAuth result limits).endpoint = result.endpoint ∧
      (result.Quiet → (withCurrentAuth result limits).Quiet) := by
  cases limits with
  | ok limits =>
      unfold withCurrentAuth
      by_cases hlimits : hasLimits limits = true
      · simp only [hlimits, if_true]
        exact ⟨trivial, trivial, fun h =>
          ⟨h.ready, (by decide : "previous-execution-error" ∉ waitingStates)⟩⟩
      · simp only [hlimits]
        exact ⟨rfl, rfl, fun h => ⟨h.ready, h.status⟩⟩
  | error failure =>
      cases failure with
      | auth => exact ⟨rfl, rfl, fun h => ⟨h.ready, authRequired_quiet⟩⟩
      | unsupported | unavailable => exact ⟨rfl, rfl, fun h => ⟨h.ready, h.status⟩⟩

theorem probeError_traced {result : Health}
    (h : Traced (probeError tools endpoint thread result deadline) events v) :
    v.thread = result.thread ∧ v.endpoint = result.endpoint ∧ v.Quiet := by
  obtain ⟨first, last, page, rfl, _, hrest⟩ := traced_bind h
  have hquiet : ∀ error, (withError result error).Quiet := fun error =>
    ⟨rfl, (by decide : "execution-error" ∉ waitingStates)⟩
  cases herror : errorOf tools page with
  | unsupported | unavailable =>
      simp only [herror] at hrest
      obtain rfl := (traced_done hrest).2
      exact ⟨rfl, rfl, hquiet _⟩
  | observed authentication message =>
      simp only [herror] at hrest
      cases authentication with
      | false =>
          obtain rfl := (traced_done hrest).2
          exact ⟨rfl, rfl, hquiet _⟩
      | true =>
          obtain ⟨_, _, limits, _, _, hdone⟩ := traced_bind hrest
          obtain rfl := (traced_done hdone).2
          obtain ⟨hthread, hendpoint, hkept⟩ := withCurrentAuth_facts
            (withError result (.observed true message)) limits
          exact ⟨hthread, hendpoint, hkept (hquiet _)⟩

/-- A value is about its conversation; when it says that the conversation is ready or waits, the
owner has it loaded and has just said so. -/
theorem probeConversation_traced (hfound : found.1.Quiet)
    (h : Traced (probeConversation tools endpoint thread found deadline) events v) :
    v.thread = thread ∧ v.endpoint = found.1.endpoint ∧
      (v.Quiet ∨ ∃ loaded value, found.2 = some loaded ∧ thread ∈ loaded ∧
        Replied events endpoint "thread/read" (readParams thread) (.ok value) ∧ v.Says value) := by
  unfold probeConversation at h
  split at h
  · obtain rfl := (traced_done h).2
    exact ⟨rfl, rfl, .inl ⟨hfound.ready, hfound.status⟩⟩
  · rename_i loaded hloaded
    split at h
    · obtain rfl := (traced_done h).2
      exact ⟨rfl, rfl, .inl ⟨rfl, (by decide : "unloaded" ∉ waitingStates)⟩⟩
    · rename_i hmem
      obtain ⟨first, last, answer, rfl, hcall, hrest⟩ := traced_bind h
      cases answer with
      | ok value =>
          have hread := (call_ok hcall).mono (List.subset_append_left first last)
          by_cases herror : statusValue value = some "systemError"
          · simp only [herror, if_true] at hrest
            obtain ⟨hthread, hendpoint, hquiet⟩ := probeError_traced hrest
            exact ⟨hthread, hendpoint, .inl hquiet⟩
          · simp only [herror, if_false] at hrest
            obtain rfl := (traced_done hrest).2
            refine ⟨attended_names.1, attended_names.2, .inr ⟨loaded, value, hloaded, ?_, hread, ?_⟩⟩
            · exact not_not.mp hmem
            · exact attended_says ⟨hfound.ready, hfound.status⟩ herror
      | error failure =>
          cases failure with
          | auth =>
              obtain rfl := (traced_done hrest).2
              exact ⟨rfl, rfl, .inl ⟨rfl, authRequired_quiet⟩⟩
          | unsupported =>
              obtain rfl := (traced_done hrest).2
              exact ⟨rfl, rfl, .inl ⟨hfound.ready, hfound.status⟩⟩
          | unavailable =>
              obtain rfl := (traced_done hrest).2
              exact ⟨rfl, rfl, .inl ⟨rfl, unavailable_quiet⟩⟩

end owners

end CodexMonitor.OwnerHealth
