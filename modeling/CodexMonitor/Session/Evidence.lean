import CodexMonitor.Session.Pool
import CodexMonitor.Store.Operation

/-!
# What the evidence of an inspection is worth

An inspection asks for at most two hundred pages.  A submission it reports stands on
a row or a message that carries the client id.  When it reports nothing it has
followed the queue's and the history's cursors to their ends, each within a hundred
pages and with no cursor twice; a chain that is longer, comes back to a cursor or has
a page without rows is an error.  Then no row carries the client id, unless it does
so without an id of its own: such a row is passed over, which `inspect_sound_iff`
states and `inspect_sound_fails` runs.
-/

namespace CodexMonitor

namespace Session

/-! ## The pages that are asked for -/

/-- How many pages the scan of one method asks for. -/
def pagesRead (crates : Crates) (endpoint thread clientId method : String) (pages : Nat → Attempt) :
    Nat → Nat → Option String → List String → Nat
  | 0, _, _, _ => 0
  | fuel + 1, i, cursor, seen =>
      1 +
        match call crates endpoint method (pageParams method thread cursor) (pages i) with
        | .error _ => 0
        | .ok result =>
            match (result.get "data").bind Value.asArray with
            | none => 0
            | some rows =>
                match rows.findSome? (rowId? clientId), nextCursor? result with
                | none, some next =>
                    if next ∈ seen then 0
                    else
                      pagesRead crates endpoint thread clientId method pages fuel (i + 1)
                        (some next) (next :: seen)
                | _, _ => 0

/-- How many pages an inspection asks for. -/
def inspectReads (crates : Crates) (endpoint thread clientId : String) (probe : Attempt)
    (queue turns : Nat → Attempt) : Nat :=
  match checkTarget crates endpoint thread probe with
  | .error _ => 0
  | .ok _ =>
      pagesRead crates endpoint thread clientId "thread/queue/list" queue
          maxReconcilePages 0 none [] +
        match scanPages crates endpoint thread clientId "thread/queue/list" queue
            maxReconcilePages 0 none [] with
        | .ok none =>
            pagesRead crates endpoint thread clientId "thread/turns/list" turns
              maxReconcilePages 0 none []
        | _ => 0

section reads

variable {crates : Crates} {endpoint thread clientId method : String} {pages pages' : Nat → Attempt}

theorem pagesRead_le (fuel i : Nat) (cursor : Option String) (seen : List String) :
    pagesRead crates endpoint thread clientId method pages fuel i cursor seen ≤ fuel := by
  induction fuel generalizing i cursor seen with
  | zero => simp [pagesRead]
  | succ fuel ih =>
      simp only [pagesRead]
      split
      · omega
      · split
        · omega
        · split
          · split
            · omega
            · have hrest := ih (i + 1)
              grind
          · omega

/-- A page that is answered with rows that name nothing and the next cursor. -/
theorem scanPages_next {fuel i : Nat} {cursor : Option String} {seen : List String}
    {result : Value} {rows : List Value} {next : String}
    (hcall : call crates endpoint method (pageParams method thread cursor) (pages i) = .ok result)
    (hrows : (result.get "data").bind Value.asArray = some rows)
    (hrow : rows.findSome? (rowId? clientId) = none) (hnext : nextCursor? result = some next)
    (hfresh : next ∉ seen) :
    scanPages crates endpoint thread clientId method pages (fuel + 1) i cursor seen =
      scanPages crates endpoint thread clientId method pages fuel (i + 1) (some next)
        (next :: seen) := by
  rw [scanPages, hcall]
  simp only [Bind.bind, Except.bind, hrows, okOr, hrow, hnext, if_neg hfresh]

/-- A scan depends on no page but those it asks for. -/
theorem scanPages_congr {fuel i : Nat} {cursor : Option String} {seen : List String}
    (h : ∀ j, i ≤ j →
      j < i + pagesRead crates endpoint thread clientId method pages fuel i cursor seen →
        pages' j = pages j) :
    scanPages crates endpoint thread clientId method pages' fuel i cursor seen =
      scanPages crates endpoint thread clientId method pages fuel i cursor seen := by
  induction fuel generalizing i cursor seen with
  | zero => rfl
  | succ fuel ih =>
      have hfirst : pages' i = pages i := by
        refine h i (Nat.le_refl i) ?_
        simp only [pagesRead]
        omega
      by_cases hgoes : ∃ result rows next,
          call crates endpoint method (pageParams method thread cursor) (pages i) = .ok result ∧
            (result.get "data").bind Value.asArray = some rows ∧
            rows.findSome? (rowId? clientId) = none ∧ nextCursor? result = some next ∧
            next ∉ seen
      · obtain ⟨result, rows, next, hcall, hrows, hrow, hnext, hfresh⟩ := hgoes
        rw [scanPages_next hcall hrows hrow hnext hfresh,
          scanPages_next (hfirst ▸ hcall) hrows hrow hnext hfresh]
        simp only [pagesRead, hcall, hrows, hrow, hnext, if_neg hfresh] at h
        exact ih fun j hj hlt => h j (by omega) (by omega)
      · rw [scanPages, scanPages, hfirst]
        cases hcall : call crates endpoint method (pageParams method thread cursor) (pages i) with
        | error error => rfl
        | ok result =>
            simp only [Bind.bind, Except.bind]
            cases hrows : (result.get "data").bind Value.asArray with
            | none => rfl
            | some rows =>
                simp only [okOr]
                cases hrow : rows.findSome? (rowId? clientId) with
                | some id => rfl
                | none =>
                    cases hnext : nextCursor? result with
                    | none => rfl
                    | some next =>
                        by_cases hold : next ∈ seen
                        · simp only [if_pos hold]
                        · exact absurd ⟨result, rows, next, hcall, hrows, hrow, hnext, hold⟩ hgoes

end reads

/-- An inspection depends on no page but those it asks for. -/
theorem inspect_congr {crates : Crates} {endpoint thread clientId : String} {probe : Attempt}
    {queue turns queue' turns' : Nat → Attempt}
    (hqueue : ∀ j < pagesRead crates endpoint thread clientId "thread/queue/list" queue
      maxReconcilePages 0 none [], queue' j = queue j)
    (hturns : ∀ j < pagesRead crates endpoint thread clientId "thread/turns/list" turns
      maxReconcilePages 0 none [], turns' j = turns j) :
    inspect crates endpoint thread clientId probe queue' turns' =
      inspect crates endpoint thread clientId probe queue turns := by
  unfold inspect
  rw [scanPages_congr fun j _ hj => hqueue j (by omega),
    scanPages_congr fun j _ hj => hturns j (by omega)]

/-! ## Chains of pages -/

/-- The pages from the `i`-th on, each asked for with the cursor of the one before, until one has
no next cursor. -/
inductive Follows (crates : Crates) (endpoint thread method : String) (pages : Nat → Attempt) :
    Nat → Option String → List (List Value) → List String → Prop
  | last {i : Nat} {cursor : Option String} {rows : List Value}
      (hpage : Shows crates endpoint thread method cursor (pages i) rows none) :
      Follows crates endpoint thread method pages i cursor [rows] []
  | later {i : Nat} {cursor : Option String} {next : String} {rows : List Value}
      {rest : List (List Value)} {cursors : List String}
      (hpage : Shows crates endpoint thread method cursor (pages i) rows (some next))
      (hrest : Follows crates endpoint thread method pages (i + 1) (some next) rest cursors) :
      Follows crates endpoint thread method pages i cursor (rows :: rest) (next :: cursors)

/-- The chain of a method's pages has an end within the limit, and no cursor comes twice. -/
structure Complete (crates : Crates) (endpoint thread method : String) (pages : Nat → Attempt)
    (chain : List (List Value)) : Prop where
  follows : ∃ cursors, Follows crates endpoint thread method pages 0 none chain cursors ∧
    cursors.Nodup
  bounded : chain.length ≤ maxReconcilePages

/-- The chain of a method's pages has no end that a scan reaches: a page has no rows, a cursor
comes back, or there are more pages than the limit.  The pages before it name nothing. -/
inductive Breaks (crates : Crates) (endpoint thread clientId method : String)
    (pages : Nat → Attempt) : Nat → Nat → Option String → List String → Prop
  | long {i : Nat} {cursor : String} {seen : List String} :
      Breaks crates endpoint thread clientId method pages 0 i (some cursor) seen
  | bare {fuel i : Nat} {cursor : Option String} {seen : List String} {result : Value}
      (hpage : Answered crates endpoint method (pageParams method thread cursor) (pages i) result)
      (hrows : (result.get "data").bind Value.asArray = none) :
      Breaks crates endpoint thread clientId method pages (fuel + 1) i cursor seen
  | again {fuel i : Nat} {cursor : Option String} {next : String} {seen : List String}
      {rows : List Value}
      (hpage : Shows crates endpoint thread method cursor (pages i) rows (some next))
      (hrow : rows.findSome? (rowId? clientId) = none) (hold : next ∈ seen) :
      Breaks crates endpoint thread clientId method pages (fuel + 1) i cursor seen
  | later {fuel i : Nat} {cursor : Option String} {next : String} {seen : List String}
      {rows : List Value}
      (hpage : Shows crates endpoint thread method cursor (pages i) rows (some next))
      (hrow : rows.findSome? (rowId? clientId) = none) (hfresh : next ∉ seen)
      (hrest : Breaks crates endpoint thread clientId method pages fuel (i + 1)
        (some next) (next :: seen)) :
      Breaks crates endpoint thread clientId method pages (fuel + 1) i cursor seen

section chains

variable {crates : Crates} {endpoint thread clientId method : String} {pages : Nat → Attempt}

/-- A page shows one thing. -/
theorem Shows.unique {cursor next next' : Option String} {page : Attempt} {rows rows' : List Value}
    (h : Shows crates endpoint thread method cursor page rows next)
    (h' : Shows crates endpoint thread method cursor page rows' next') :
    rows = rows' ∧ next = next' := by
  obtain ⟨result, hanswer, hrows, rfl⟩ := h
  obtain ⟨result', hanswer', hrows', rfl⟩ := h'
  obtain rfl : result = result' :=
    Except.ok.inj ((call_ok.mpr hanswer).symm.trans (call_ok.mpr hanswer'))
  exact ⟨Option.some.inj (hrows.symm.trans hrows'), rfl⟩

/-- The pages of a method form one chain. -/
theorem Follows.unique {i : Nat} {cursor : Option String} {chain chain' : List (List Value)}
    {cursors cursors' : List String}
    (h : Follows crates endpoint thread method pages i cursor chain cursors)
    (h' : Follows crates endpoint thread method pages i cursor chain' cursors') :
    chain = chain' := by
  induction h generalizing chain' cursors' with
  | last hpage =>
      cases h' with
      | last hpage' => rw [(hpage.unique hpage').1]
      | later hpage' _ => cases (hpage.unique hpage').2
  | later hpage _ ih =>
      cases h' with
      | last hpage' => cases (hpage.unique hpage').2
      | later hpage' hrest' =>
          obtain ⟨rfl, hnext⟩ := hpage.unique hpage'
          obtain rfl := Option.some.inj hnext
          rw [ih hrest']

theorem Complete.unique {chain chain' : List (List Value)}
    (h : Complete crates endpoint thread method pages chain)
    (h' : Complete crates endpoint thread method pages chain') : chain = chain' := by
  obtain ⟨cursors, hfollows, _⟩ := h.follows
  obtain ⟨cursors', hfollows', _⟩ := h'.follows
  exact hfollows.unique hfollows'

/-- A chain that a scan follows to its end without finding anything. -/
theorem pagesEnd_iff {fuel i : Nat} {cursor : Option String} {seen : List String} :
    PagesEnd crates endpoint thread clientId method pages fuel i cursor seen ↔
      ∃ chain cursors, Follows crates endpoint thread method pages i cursor chain cursors ∧
        chain.length ≤ fuel ∧ cursors.Nodup ∧ (∀ next ∈ cursors, next ∉ seen) ∧
        ∀ rows ∈ chain, rows.findSome? (rowId? clientId) = none := by
  constructor
  · intro h
    induction h with
    | @last fuel i cursor seen rows hpage hrow =>
        exact ⟨[rows], [], .last hpage, by simp, List.nodup_nil, by simp, by simpa using hrow⟩
    | @later fuel i cursor next seen rows hpage hrow hfresh _ ih =>
        obtain ⟨chain, cursors, hfollows, hlength, hnodup, hnew, hrows⟩ := ih
        refine ⟨rows :: chain, next :: cursors, .later hpage hfollows, ?_, ?_, ?_, ?_⟩
        · rw [List.length_cons]
          omega
        · exact List.nodup_cons.mpr ⟨fun hmem => hnew next hmem List.mem_cons_self, hnodup⟩
        · intro c hc
          obtain rfl | hc := List.mem_cons.mp hc
          · exact hfresh
          · exact fun hold => hnew c hc (List.mem_cons_of_mem _ hold)
        · intro page hpage
          obtain rfl | hpage := List.mem_cons.mp hpage
          · exact hrow
          · exact hrows page hpage
  · intro ⟨chain, cursors, hfollows, hlength, hnodup, hnew, hrows⟩
    induction hfollows generalizing fuel seen with
    | last hpage =>
        cases fuel with
        | zero => simp at hlength
        | succ fuel => exact .last hpage (hrows _ List.mem_cons_self)
    | later hpage _ ih =>
        cases fuel with
        | zero => simp at hlength
        | succ fuel =>
            obtain ⟨hfresh, hnodup⟩ := List.nodup_cons.mp hnodup
            rw [List.length_cons] at hlength
            refine .later hpage (hrows _ List.mem_cons_self) (hnew _ List.mem_cons_self)
              (ih (by omega) hnodup ?_ fun page hmem => hrows page (List.mem_cons_of_mem _ hmem))
            intro c hc hold
            obtain rfl | hold := List.mem_cons.mp hold
            · exact hfresh hc
            · exact hnew c (List.mem_cons_of_mem _ hc) hold

/-- A scan from the first page finds nothing exactly when the chain is complete and names
nothing. -/
theorem scan_none :
    scanPages crates endpoint thread clientId method pages maxReconcilePages 0 none [] = .ok none ↔
      ∃ chain, Complete crates endpoint thread method pages chain ∧
        ∀ rows ∈ chain, rows.findSome? (rowId? clientId) = none := by
  have hlimit : maxReconcilePages + ([] : List String).length = maxReconcilePages := rfl
  rw [scanPages_none hlimit (fun h => absurd rfl h), pagesEnd_iff]
  constructor
  · intro ⟨chain, cursors, hfollows, hlength, hnodup, _, hrows⟩
    exact ⟨chain, ⟨⟨cursors, hfollows, hnodup⟩, hlength⟩, hrows⟩
  · intro ⟨chain, ⟨⟨cursors, hfollows, hnodup⟩, hlength⟩, hrows⟩
    exact ⟨chain, cursors, hfollows, hlength, hnodup, by simp, hrows⟩

/-- A broken chain is an error. -/
theorem Breaks.error {fuel i : Nat} {cursor : Option String} {seen : List String}
    (h : Breaks crates endpoint thread clientId method pages fuel i cursor seen)
    (hseen : fuel + seen.length = maxReconcilePages) :
    ∃ error, scanPages crates endpoint thread clientId method pages fuel i cursor seen =
      .error error := by
  induction h with
  | long =>
      rw [scanPages, scanEnd, if_pos ⟨rfl, by omega⟩]
      exact ⟨_, rfl⟩
  | bare hpage hrows =>
      rw [scanPages, call_ok.mpr hpage]
      simp only [Bind.bind, Except.bind, hrows, okOr]
      exact ⟨_, rfl⟩
  | again hpage hrow hold =>
      obtain ⟨result, hanswer, hrows, hnext⟩ := hpage
      rw [scanPages, call_ok.mpr hanswer]
      simp only [Bind.bind, Except.bind, hrows, okOr, hrow, hnext, if_pos hold]
      exact ⟨_, rfl⟩
  | later hpage hrow hfresh _ ih =>
      obtain ⟨result, hanswer, hrows, hnext⟩ := hpage
      obtain ⟨error, herror⟩ := ih (by rw [List.length_cons]; omega)
      refine ⟨error, ?_⟩
      rw [scanPages, call_ok.mpr hanswer]
      simp only [Bind.bind, Except.bind, hrows, okOr, hrow, hnext, if_neg hfresh]
      exact herror

end chains

/-! ## Rows that carry the client id -/

/-- A message of a turn that carries the client id. -/
def IsMessageOf (clientId : String) (item : Value) : Prop :=
  item.getStr "type" = some "userMessage" ∧ item.getStr "clientId" = some clientId

/-- A row, or a message of it, carries the client id. -/
def Carries (clientId : String) (row : Value) : Prop :=
  row.getStr "clientUserMessageId" = some clientId ∨
    ∃ item ∈ ((row.get "items").bind Value.asArray).getD [], IsMessageOf clientId item

/-- A row names a submission only if it carries the client id. -/
theorem carries_of_rowId {clientId id : String} {row : Value} (h : rowId? clientId row = some id) :
    Carries clientId row := by
  unfold rowId? at h
  by_cases hown : row.getStr "clientUserMessageId" = some clientId
  · exact .inl hown
  · rw [if_neg hown] at h
    obtain ⟨item, hitem, hid⟩ := List.exists_of_findSome?_eq_some h
    refine .inr ⟨item, hitem, ?_⟩
    unfold itemId? at hid
    by_cases hmessage : item.getStr "type" = some "userMessage" ∧
        item.getStr "clientId" = some clientId
    · exact hmessage
    · rw [if_neg hmessage] at hid
      cases hid

/-- A row that carries the client id has no id of its own. -/
def IsNameless (clientId : String) (row : Value) : Prop :=
  row.getStr "clientUserMessageId" = some clientId ∧ row.getStr "id" = none

/-- A row that carries the client id and names nothing has no id of its own. -/
theorem Carries.nameless {clientId : String} {row : Value} (hcarries : Carries clientId row)
    (hnone : rowId? clientId row = none) : IsNameless clientId row := by
  obtain ⟨hown, hmessages⟩ :
      (row.getStr "clientUserMessageId" = some clientId → row.getStr "id" = none) ∧
        ∀ item ∈ ((row.get "items").bind Value.asArray).getD [], itemId? clientId item = none := by
    simpa [rowId?] using hnone
  obtain hrow | ⟨item, hitem, hmessage⟩ := hcarries
  · exact ⟨hrow, hown hrow⟩
  · have hid := hmessages item hitem
    rw [itemId?, if_pos (show _ ∧ _ from hmessage)] at hid
    cases hid

/-- What an inspection returns is worth what it says. -/
structure InspectsSoundly (crates : Crates) (endpoint thread clientId : String) (probe : Attempt)
    (queue turns : Nat → Attempt) : Prop where
  /-- It asks for at most two hundred pages. -/
  bounded : inspectReads crates endpoint thread clientId probe queue turns ≤ 200
  /-- A submission in the queue stands on a row of a queue page. -/
  queued : ∀ id, inspect crates endpoint thread clientId probe queue turns =
      .ok (evidence "queued" id) →
    ∃ i < maxReconcilePages, ∃ cursor rows next,
      Shows crates endpoint thread "thread/queue/list" cursor (queue i) rows next ∧
        ∃ row ∈ rows, Carries clientId row
  /-- A consumed submission stands on a row of a history page. -/
  consumed : ∀ id, inspect crates endpoint thread clientId probe queue turns =
      .ok (evidence "consumed" id) →
    ∃ i < maxReconcilePages, ∃ cursor rows next,
      Shows crates endpoint thread "thread/turns/list" cursor (turns i) rows next ∧
        ∃ row ∈ rows, Carries clientId row
  /-- Without evidence both chains are complete, and no row of them carries the client id. -/
  unknown : inspect crates endpoint thread clientId probe queue turns = .ok noEvidence →
    ∃ queued turned, Complete crates endpoint thread "thread/queue/list" queue queued ∧
      Complete crates endpoint thread "thread/turns/list" turns turned ∧
      ∀ rows ∈ queued ++ turned, ∀ row ∈ rows, ¬ Carries clientId row
  /-- A chain that has no end within the limit is an error. -/
  broken : (checkTarget crates endpoint thread probe).isOk = true →
    Breaks crates endpoint thread clientId "thread/queue/list" queue maxReconcilePages 0 none [] ∨
      (∃ queued, Complete crates endpoint thread "thread/queue/list" queue queued ∧
          ∀ rows ∈ queued, rows.findSome? (rowId? clientId) = none) ∧
        Breaks crates endpoint thread clientId "thread/turns/list" turns
          maxReconcilePages 0 none [] →
    ∃ error, inspect crates endpoint thread clientId probe queue turns = .error error

/-! ## When it is sound -/

section soundness

variable {crates : Crates} {endpoint thread clientId method : String} {probe : Attempt}
  {pages queue turns : Nat → Attempt}

/-- What a scan finds stands on a row of a page. -/
theorem PagesName.carried {id : String} {fuel i : Nat} {cursor : Option String} {seen : List String}
    (h : PagesName crates endpoint thread clientId method pages id fuel i cursor seen) :
    ∃ j < i + fuel, ∃ cursor rows next,
      Shows crates endpoint thread method cursor (pages j) rows next ∧
        ∃ row ∈ rows, Carries clientId row := by
  induction h with
  | @here fuel i cursor next seen rows hpage hrow =>
      obtain ⟨row, hmem, hid⟩ := List.exists_of_findSome?_eq_some hrow
      exact ⟨i, by omega, cursor, rows, next, hpage, row, hmem, carries_of_rowId hid⟩
  | later _ _ _ _ ih =>
      obtain ⟨j, hj, hcarried⟩ := ih
      exact ⟨j, by omega, hcarried⟩

/-- The ways an inspection returns. -/
theorem inspect_ok {value : Value} :
    inspect crates endpoint thread clientId probe queue turns = .ok value ↔
      (checkTarget crates endpoint thread probe).isOk = true ∧
        ((∃ id, scanPages crates endpoint thread clientId "thread/queue/list" queue
            maxReconcilePages 0 none [] = .ok (some id) ∧ value = evidence "queued" id) ∨
          scanPages crates endpoint thread clientId "thread/queue/list" queue
              maxReconcilePages 0 none [] = .ok none ∧
            ((∃ id, scanPages crates endpoint thread clientId "thread/turns/list" turns
                maxReconcilePages 0 none [] = .ok (some id) ∧ value = evidence "consumed" id) ∨
              scanPages crates endpoint thread clientId "thread/turns/list" turns
                maxReconcilePages 0 none [] = .ok none ∧ value = noEvidence)) := by
  unfold inspect
  simp only [bind_ok, isOk_iff]
  constructor
  · intro ⟨target, htarget, found, hfound, h⟩
    refine ⟨⟨target, htarget⟩, ?_⟩
    cases found with
    | some id => exact .inl ⟨id, hfound, (Except.ok.inj h).symm⟩
    | none =>
        obtain ⟨consumed, hconsumed, h⟩ := bind_ok.mp h
        refine .inr ⟨hfound, ?_⟩
        cases consumed with
        | some id => exact .inl ⟨id, hconsumed, (Except.ok.inj h).symm⟩
        | none => exact .inr ⟨hconsumed, (Except.ok.inj h).symm⟩
  · intro ⟨⟨target, htarget⟩, h⟩
    refine ⟨target, htarget, ?_⟩
    obtain ⟨id, hfound, rfl⟩ | ⟨hfound, ⟨id, hconsumed, rfl⟩ | ⟨hconsumed, rfl⟩⟩ := h
    · exact ⟨some id, hfound, rfl⟩
    · exact ⟨none, hfound, bind_ok.mpr ⟨some id, hconsumed, rfl⟩⟩
    · exact ⟨none, hfound, bind_ok.mpr ⟨none, hconsumed, rfl⟩⟩

theorem evidence_inj {state state' id id' : String} (h : evidence state id = evidence state' id') :
    state = state' := by
  simp only [evidence, Value.object.injEq, List.cons.injEq, Prod.mk.injEq, Value.string.injEq,
    true_and, and_true] at h
  exact h.1

theorem evidence_ne_noEvidence {state id : String} : evidence state id ≠ noEvidence := by
  intro h
  simp [evidence, noEvidence] at h

theorem inspectReads_le :
    inspectReads crates endpoint thread clientId probe queue turns ≤ 200 := by
  have hlimit : ∀ (method : String) (pages : Nat → Attempt),
      pagesRead crates endpoint thread clientId method pages maxReconcilePages 0 none [] ≤ 100 :=
    fun _ _ => pagesRead_le _ _ _ _
  have hqueue := hlimit "thread/queue/list" queue
  have hturns := hlimit "thread/turns/list" turns
  unfold inspectReads
  split
  · omega
  · split <;> omega

/-- A chain that breaks leaves the inspection with an error. -/
theorem inspect_broken (hprobe : (checkTarget crates endpoint thread probe).isOk = true)
    (h : Breaks crates endpoint thread clientId "thread/queue/list" queue
        maxReconcilePages 0 none [] ∨
      (∃ queued, Complete crates endpoint thread "thread/queue/list" queue queued ∧
          ∀ rows ∈ queued, rows.findSome? (rowId? clientId) = none) ∧
        Breaks crates endpoint thread clientId "thread/turns/list" turns
          maxReconcilePages 0 none []) :
    ∃ error, inspect crates endpoint thread clientId probe queue turns = .error error := by
  obtain ⟨target, htarget⟩ := isOk_iff.mp hprobe
  unfold inspect
  rw [htarget]
  obtain hqueue | ⟨hqueue, hturns⟩ := h
  · obtain ⟨error, herror⟩ := hqueue.error rfl
    rw [herror]
    exact ⟨error, rfl⟩
  · obtain ⟨error, herror⟩ := hturns.error rfl
    rw [scan_none.mpr hqueue, herror]
    exact ⟨error, rfl⟩

/-- **When an inspection is sound.**  Whatever pages the server shows, an inspection ends, reports
only what carries the client id, and makes no evidence of a chain it did not follow to its end.
That nothing carries the client id when it reports nothing holds exactly where a row on complete
chains that carries the id without one of its own is made up for by a row that names a
submission. -/
theorem inspect_sound_iff (crates : Crates) (endpoint thread clientId : String) (probe : Attempt)
    (queue turns : Nat → Attempt) :
    InspectsSoundly crates endpoint thread clientId probe queue turns ↔
      ((checkTarget crates endpoint thread probe).isOk = true → ∀ queued turned,
        Complete crates endpoint thread "thread/queue/list" queue queued →
        Complete crates endpoint thread "thread/turns/list" turns turned →
        (∃ rows ∈ queued ++ turned, ∃ row ∈ rows, IsNameless clientId row) →
          ∃ rows ∈ queued ++ turned, ∃ row ∈ rows, (rowId? clientId row).isSome = true) := by
  constructor
  · intro hsound hprobe queued turned hqueued hturned ⟨rows, hrows, row, hrow, hnameless⟩
    by_contra hnone
    have hempty : ∀ rows ∈ queued ++ turned, rows.findSome? (rowId? clientId) = none := by
      intro rows hrows
      refine List.findSome?_eq_none_iff.mpr fun row hrow => ?_
      by_contra hsome
      exact hnone ⟨rows, hrows, row, hrow, Option.isSome_iff_ne_none.mpr hsome⟩
    have hunknown : inspect crates endpoint thread clientId probe queue turns = .ok noEvidence := by
      refine inspect_ok.mpr ⟨hprobe, .inr ⟨scan_none.mpr ⟨queued, hqueued, ?_⟩,
        .inr ⟨scan_none.mpr ⟨turned, hturned, ?_⟩, rfl⟩⟩⟩
      · exact fun rows hmem => hempty rows (List.mem_append_left _ hmem)
      · exact fun rows hmem => hempty rows (List.mem_append_right _ hmem)
    obtain ⟨queued', turned', hqueued', hturned', hfree⟩ := hsound.unknown hunknown
    obtain rfl := hqueued.unique hqueued'
    obtain rfl := hturned.unique hturned'
    exact hfree rows hrows row hrow (.inl hnameless.1)
  · intro hcondition
    refine ⟨inspectReads_le, ?_, ?_, ?_, inspect_broken⟩
    · intro id h
      obtain ⟨_, ⟨id', hfound, _⟩ | ⟨_, ⟨id', _, heq⟩ | ⟨_, heq⟩⟩⟩ := inspect_ok.mp h
      · simpa using (scanPages_some.mp hfound).carried
      · exact absurd (evidence_inj heq) (by decide)
      · exact absurd heq evidence_ne_noEvidence
    · intro id h
      obtain ⟨_, ⟨id', _, heq⟩ | ⟨_, ⟨id', hfound, _⟩ | ⟨_, heq⟩⟩⟩ := inspect_ok.mp h
      · exact absurd (evidence_inj heq) (by decide)
      · simpa using (scanPages_some.mp hfound).carried
      · exact absurd heq evidence_ne_noEvidence
    · intro h
      obtain ⟨hprobe, ⟨id', _, heq⟩ | ⟨hqueue, ⟨id', _, heq⟩ | ⟨hturns, _⟩⟩⟩ := inspect_ok.mp h
      · exact absurd heq.symm evidence_ne_noEvidence
      · exact absurd heq.symm evidence_ne_noEvidence
      · obtain ⟨queued, hqueued, hnoqueue⟩ := scan_none.mp hqueue
        obtain ⟨turned, hturned, hnoturn⟩ := scan_none.mp hturns
        have hempty : ∀ rows ∈ queued ++ turned, ∀ row ∈ rows, rowId? clientId row = none := by
          intro rows hrows row hrow
          obtain hrows | hrows := List.mem_append.mp hrows
          · exact List.findSome?_eq_none_iff.mp (hnoqueue rows hrows) row hrow
          · exact List.findSome?_eq_none_iff.mp (hnoturn rows hrows) row hrow
        refine ⟨queued, turned, hqueued, hturned, fun rows hrows row hrow hcarries => ?_⟩
        have hnameless := hcarries.nameless (hempty rows hrows row hrow)
        obtain ⟨rows', hrows', row', hrow', hsome⟩ :=
          hcondition hprobe queued turned hqueued hturned ⟨rows, hrows, row, hrow, hnameless⟩
        rw [hempty rows' hrows' row' hrow'] at hsome
        cases hsome

end soundness

/-! ## A queued row without an id -/

/-- The response of the server to the request with an id. -/
def responseTo (id : Nat) (result : Value) : Value :=
  .object [("id", .number (.ofI64 id)), ("result", result)]

def pageOf (rows : List Value) : Value := .object [("data", .array rows)]

/-- The client's message waits in the queue, and its row has no id. -/
def namelessRow : Value := .object [("clientUserMessageId", .string "client-1")]

def pageCrates : Crates :=
  .knowing [responseTo 1 (pageOf []), responseTo 2 (pageOf [namelessRow]),
    responseTo 3 (pageOf [])]

/-- A call on a pooled connection that is answered at once with a page. -/
def pageCall (id : Nat) (rows : List Value) : Attempt where
  pooled := .usable
  dial := ⟨true, ⟨none, true, true, none, none, .ok none, true, none⟩, ⟨true, 0, none, []⟩, .done⟩
  exchange := ⟨true, id, some .done,
    [.line (canonicalJson pageCrates (responseTo id (pageOf rows))) ""]⟩

/-- The page of the queue has a row that carries the client id. -/
theorem namelessRow_shown {rows : List Value} {next : Option String}
    (h : Shows pageCrates "shared-local" "conversation-1" "thread/queue/list" none
      (pageCall 2 [namelessRow]) rows next) : ∃ row ∈ rows, Carries "client-1" row := by
  have hany : ((call pageCrates "shared-local" "thread/queue/list"
      (pageParams "thread/queue/list" "conversation-1" none) (pageCall 2 [namelessRow])).toOption.bind
        fun result => ((result.get "data").bind Value.asArray).map fun rows =>
          rows.any fun row => row.getStr "clientUserMessageId" = some "client-1") = some true := by
    decide
  obtain ⟨result, hanswer, hrows, _⟩ := h
  rw [call_ok.mpr hanswer] at hany
  simp only [Except.toOption, Option.bind_some, hrows, Option.map_some, Option.some.injEq] at hany
  obtain ⟨row, hrow, hcarries⟩ := List.any_eq_true.mp hany
  exact ⟨row, hrow, .inl (of_decide_eq_true hcarries)⟩

/-- The message is in the queue, and the inspection finds no evidence of it. -/
theorem inspect_sound_fails :
    ¬ ∀ (crates : Crates) (endpoint thread clientId : String) (probe : Attempt)
        (queue turns : Nat → Attempt),
      InspectsSoundly crates endpoint thread clientId probe queue turns := by
  intro h
  have hsound := h pageCrates "shared-local" "conversation-1" "client-1" (pageCall 1 [])
    (fun _ => pageCall 2 [namelessRow]) (fun _ => pageCall 3 [])
  have hprobe : (checkTarget pageCrates "shared-local" "conversation-1"
      (pageCall 1 [])).isOk = true := by decide
  have hqueue : scanPages pageCrates "shared-local" "conversation-1" "client-1"
      "thread/queue/list" (fun _ => pageCall 2 [namelessRow]) maxReconcilePages 0 none [] =
        .ok none := by decide
  have hturns : scanPages pageCrates "shared-local" "conversation-1" "client-1"
      "thread/turns/list" (fun _ => pageCall 3 []) maxReconcilePages 0 none [] =
        .ok none := by decide
  obtain ⟨queued, turned, ⟨⟨cursors, hfollows, _⟩, _⟩, _, hfree⟩ :=
    hsound.unknown (inspect_ok.mpr ⟨hprobe, .inr ⟨hqueue, .inr ⟨hturns, rfl⟩⟩⟩)
  cases hfollows with
  | @last _ _ rows hpage =>
      obtain ⟨row, hrow, hcarries⟩ := namelessRow_shown hpage
      exact hfree rows (by simp) row hrow hcarries
  | @later _ _ _ rows _ _ hpage _ =>
      obtain ⟨row, hrow, hcarries⟩ := namelessRow_shown hpage
      exact hfree rows (by simp) row hrow hcarries

end Session

end CodexMonitor
