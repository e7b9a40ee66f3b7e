import CodexMonitor.Lib.Keyset
import CodexMonitor.Runtime.Http
import CodexMonitor.Store.Creation

/-!
# Reading all requests page by page

`request_list` answers a page of a source's requests in a thread and the row number of its
last one, as a text, when a request is left.  Row numbers only grow and requests keep their
scope, so the pages of one traversal are a keyset walk over the scope's rows, whatever the
store does between two calls.
-/

namespace CodexMonitor

open Transaction

/-! ## One page -/

/-- The answer of `request_list`. -/
structure RequestListing where
  data : List RequestView
  next : Option String

/-- `after.map(|value| value.parse::<i64>()).transpose()`. -/
def parseCursor : Option String → Option (Option Int)
  | none => some none
  | some value => (parseI64 value).map some

/-- A page of requests, as a source reads it. -/
def requestList (crates : Crates) (thread source : String) (limit : Nat) (after : Option String) :
    StoreM RequestListing := do
  let cursor ← Tx.expect (.bail "request cursor must be a nonnegative integer") (parseCursor after)
  let page ← requestPage crates thread source limit cursor
  pure ⟨page.data.map RequestValue.view, page.next⟩

/-- The decimal text of a row number is read back. -/
theorem parseI64_natText {n : Nat} (h : n < 2 ^ 63) : parseI64 (toString n) = some (n : Int) := by
  have hlist : (toString n).toList = Nat.toDigits 10 n := Nat.toList_repr
  have hdigits : ∀ c ∈ Nat.toDigits 10 n, c.isDigit = true := by
    intro c hc
    exact Nat.isDigit_of_mem_toDigits (by decide) (by decide) hc
  have hvalue : digitsValue (Nat.toDigits 10 n) = some n := by
    unfold digitsValue
    rw [if_neg]
    · exact congrArg some Nat.ofDigitChars_ten_toDigits
    · intro hbad
      rcases hbad with hnil | hany
      · exact Nat.toDigits_ne_nil hnil
      · obtain ⟨c, hc, hnot⟩ := List.any_eq_true.mp hany
        simp [hdigits c hc] at hnot
  unfold parseI64
  rw [hlist]
  split
  · rename_i cs heq
    have hdash := hdigits '-' (by rw [heq]; exact List.mem_cons_self)
    exact absurd hdash (by decide)
  · rename_i cs heq
    have hplus := hdigits '+' (by rw [heq]; exact List.mem_cons_self)
    exact absurd hplus (by decide)
  · rw [hvalue]
    simp only [Option.bind_some]
    rw [if_pos h]

/-- The requests of a thread and a source, in the order they were created. -/
def Db.scope (db : Db) (thread source : String) : List RequestIdentity :=
  (db.requests.rows.filter fun r => r.thread = thread ∧ r.source = source).map Request.identity

section page

variable {crates : Crates} {db : Db} {thread source : String} {limit c : Nat}

theorem Db.mem_scope {q : RequestIdentity} :
    q ∈ db.scope thread source ↔
      ∃ r ∈ db.requests, r.thread = thread ∧ r.source = source ∧ r.identity = q := by
  simp only [Db.scope, List.mem_map, List.mem_filter, decide_eq_true_eq, Table.mem_def]
  constructor
  · intro h
    obtain ⟨r, ⟨hr, hthread, hsource⟩, hq⟩ := h
    exact ⟨r, hr, hthread, hsource, hq⟩
  · intro h
    obtain ⟨r, hr, hthread, hsource, hq⟩ := h
    exact ⟨r, ⟨hr, hthread, hsource⟩, hq⟩

theorem Db.scope_ordered (db : Db) (thread source : String) :
    Keyset.Ordered RequestIdentity.seq (db.scope thread source) := by
  unfold Keyset.Ordered Db.scope
  rw [List.pairwise_map]
  exact (db.requests.fits.imp fun hfit => hfit.1).filter _

/-- The rows a page reads are the scope's rows beyond the cursor. -/
theorem requestRows_identity :
    (db.requestRows thread source c limit).map Request.identity =
      (Keyset.beyond RequestIdentity.seq c (db.scope thread source)).take (limit + 1) := by
  have hsorted : db.requests.rows.Pairwise fun a b => a.seq ≤ b.seq :=
    db.requests.fits.imp fun hfit => Nat.le_of_lt hfit.1
  have hrows : (db.requests.select
      (fun r => r.thread = thread ∧ r.source = source ∧ (c : Int) < r.seq)
      fun a b => a.seq ≤ b.seq) =
      db.requests.rows.filter
        fun r => r.thread = thread ∧ r.source = source ∧ (c : Int) < r.seq :=
    Table.select_of_pairwise hsorted
  unfold Db.requestRows Keyset.beyond Db.scope
  rw [hrows, List.map_take, List.filter_map, List.filter_filter]
  congr 2
  refine List.filter_congr fun r _ => ?_
  rw [Bool.eq_iff_iff]
  simp only [decide_eq_true_eq, Bool.and_eq_true, Function.comp_apply, Request.identity]
  constructor
  · intro h
    exact ⟨decide_eq_true (Int.ofNat_lt.mp h.2.2), h.1, h.2.1⟩
  · intro h
    exact ⟨h.2.1, h.2.2, Int.ofNat_lt.mpr (of_decide_eq_true h.1)⟩

/-- Rows that can all be read are read one by one. -/
theorem mapM_requestValue {rows : List Request}
    (h : ∀ r ∈ rows, ∃ value, requestValue crates r = .ok value) :
    ∃ values, rows.mapM (requestValue crates) = .ok values ∧
      values.map RequestValue.row = rows ∧
      ∀ v ∈ values, requestValue crates v.row = .ok v := by
  induction rows with
  | nil => exact ⟨[], rfl, rfl, fun v hv => absurd hv List.not_mem_nil⟩
  | cons r rows ih =>
      obtain ⟨value, hvalue⟩ := h r List.mem_cons_self
      obtain ⟨values, hvalues, hmap, hread⟩ := ih fun q hq => h q (List.mem_cons_of_mem _ hq)
      have hrow : value.row = r := by
        unfold requestValue at hvalue
        split at hvalue
        · cases hvalue
        · rw [← Except.ok.inj hvalue]
      refine ⟨value :: values, ?_, ?_, ?_⟩
      · rw [List.mapM_cons, hvalue, hvalues]
        rfl
      · rw [List.map_cons, hrow, hmap]
      · intro v hv
        rcases List.mem_cons.mp hv with rfl | hv
        · rw [hrow, hvalue]
        · exact hread v hv

/-- The values of a page are those of the keyset page over the scope. -/
structure PageOf (crates : Crates) (db : Db) (values : List RequestValue)
    (ids : List RequestIdentity) : Prop where
  ids_eq : values.map (fun v => v.row.identity) = ids
  stored : ∀ v ∈ values, v.row ∈ db.requests
  read : ∀ v ∈ values, requestValue crates v.row = .ok v

theorem requestPage_run (hdb : db.Listable crates) (hthread : isIdentifier thread = true)
    (hsource : isIdentifier source = true) (hlimit : 1 ≤ limit ∧ limit ≤ maxRequestListLimit)
    {after : Option Int} (hafter : after.getD 0 = c) :
    ∃ values, PageOf crates db values
        (Keyset.page RequestIdentity.seq c limit (db.scope thread source)).1 ∧
      (requestPage crates thread source limit after).run db = (.ok ⟨values,
        (Keyset.page RequestIdentity.seq c limit (db.scope thread source)).2.map toString⟩, db) := by
  have hmem : ∀ r ∈ db.requestRows thread source c limit, r ∈ db.requests := fun r hr =>
    (Table.mem_select.mp (List.mem_of_mem_take hr)).1
  have hreadable : ∀ r ∈ db.requestRows thread source c limit,
      ∃ value, requestValue crates r = .ok value := fun r hr => hdb.readable r (hmem r hr)
  obtain ⟨values, hvalues, hrows, hread⟩ := mapM_requestValue hreadable
  have hstored : ∀ v ∈ values, v.row ∈ db.requests := by
    intro v hv
    refine hmem v.row ?_
    rw [← hrows]
    exact List.mem_map_of_mem hv
  have hids : values.map (fun v => v.row.identity) =
      (Keyset.beyond RequestIdentity.seq c (db.scope thread source)).take (limit + 1) := by
    rw [← requestRows_identity, ← hrows, List.map_map]
    rfl
  have hlength := congrArg List.length hids
  rw [List.length_map] at hlength
  have hrun : ∀ answer : RequestPage,
      (if limit < values.length then
        (pure ⟨values.take limit, (values.take limit).getLast?.map fun value =>
          toString value.row.seq⟩ : StoreM RequestPage)
      else pure ⟨values, none⟩).run db = (.ok answer, db) →
      (requestPage crates thread source limit after).run db = (.ok answer, db) := by
    intro answer hanswer
    simp only [requestPage, Tx.bind_ok, validateIdentifier_ok, bailIf_run_ok, Tx.query_ok,
      Tx.ofExcept_ok]
    refine ⟨(), db, ⟨hthread, rfl⟩, (), db, ⟨hsource, rfl⟩, (), db, ⟨not_not.mpr hlimit, rfl⟩, (),
      db, ⟨?_, rfl⟩, _, db, ⟨rfl, rfl⟩, values, db, ⟨?_, rfl⟩, hanswer⟩
    · rw [hafter]
      omega
    · rw [hafter]
      exact hvalues
  unfold Keyset.page
  by_cases hmore : limit < ((Keyset.beyond RequestIdentity.seq c
      (db.scope thread source)).take (limit + 1)).length
  · rw [if_pos hmore]
    have htake : (values.take limit).map (fun v => v.row.identity) =
        ((Keyset.beyond RequestIdentity.seq c (db.scope thread source)).take (limit + 1)).take
          limit := by
      rw [List.map_take, hids]
    refine ⟨values.take limit, ⟨htake, fun v hv => hstored v (List.mem_of_mem_take hv),
      fun v hv => hread v (List.mem_of_mem_take hv)⟩, hrun _ ?_⟩
    rw [if_pos (by omega), ← htake, List.getLast?_map, Option.map_map, Option.map_map]
    rfl
  · rw [if_neg hmore]
    refine ⟨values, ⟨hids, hstored, hread⟩, hrun _ ?_⟩
    rw [if_neg (by omega)]
    rfl

/-- A page after a place that an earlier page named, or after none. -/
theorem requestList_run (hdb : db.Listable crates) (hthread : isIdentifier thread = true)
    (hsource : isIdentifier source = true) (hlimit : 1 ≤ limit ∧ limit ≤ maxRequestListLimit)
    {after : Option String}
    (hafter : after = none ∧ c = 0 ∨ after = some (toString c) ∧ c ≤ maxRequests) :
    ∃ values, PageOf crates db values
        (Keyset.page RequestIdentity.seq c limit (db.scope thread source)).1 ∧
      (requestList crates thread source limit after).run db = (.ok ⟨values.map RequestValue.view,
        (Keyset.page RequestIdentity.seq c limit (db.scope thread source)).2.map toString⟩, db) := by
  have hpage : ∀ cursor : Option Int, cursor.getD 0 = c → parseCursor after = some cursor →
      ∃ values, PageOf crates db values
          (Keyset.page RequestIdentity.seq c limit (db.scope thread source)).1 ∧
        (requestList crates thread source limit after).run db =
          (.ok ⟨values.map RequestValue.view,
            (Keyset.page RequestIdentity.seq c limit (db.scope thread source)).2.map toString⟩,
            db) := by
    intro cursor hcursor hparse
    obtain ⟨values, hvalues, hrun⟩ := requestPage_run hdb hthread hsource hlimit hcursor
    refine ⟨values, hvalues, ?_⟩
    unfold requestList
    rw [hparse, Tx.run_expect_bind, Tx.run_bind_of_ok hrun, Tx.run_pure]
  rcases hafter with ⟨rfl, rfl⟩ | ⟨rfl, hc⟩
  · exact hpage none rfl rfl
  · refine hpage (some c) rfl ?_
    have hsmall : c < 2 ^ 63 := Nat.lt_of_le_of_lt hc (by decide)
    simp only [parseCursor, parseI64_natText hsmall, Option.map_some]

end page

/-! ## A traversal -/

/-- The store at each call of a traversal, with any operations in between, and the limits. -/
structure Interleaved (crates : Crates) (dbs : Nat → Db) (limits : Nat → Nat) : Prop where
  reachable : Reachable crates (dbs 0)
  runs : ∀ i, Leads crates (dbs i) (dbs (i + 1))
  limits_ok : ∀ i, 1 ≤ limits i ∧ limits i ≤ maxRequestListLimit

section traversal

variable (crates : Crates) (thread source : String) (dbs : Nat → Db) (limits : Nat → Nat)

/-- The `n`-th answer of a traversal: the first call has no cursor, each other one the cursor
that the answer before it names. -/
def listing : Nat → Option RequestListing
  | 0 => ((requestList crates thread source (limits 0) none).run (dbs 0)).1.toOption
  | n + 1 => ((listing n).bind RequestListing.next).bind fun after =>
      ((requestList crates thread source (limits (n + 1)) (some after)).run (dbs (n + 1))).1.toOption

/-- The ids of the requests in the first `n` answers. -/
def listedIds (n : Nat) : List String :=
  (List.range n).flatMap fun i => ((listing crates thread source dbs limits i).elim []
    RequestListing.data).map RequestView.requestId

/-- The `n`-th answer names no next page. -/
def Exhausted (n : Nat) : Prop :=
  ∃ answer, listing crates thread source dbs limits n = some answer ∧ answer.next = none

variable {crates thread source dbs limits}

/-- Requests keep their places and their identity; new ones come after them. -/
theorem Leads.requestRows {db db' : Db} (h : Leads crates db db') :
    ∃ added, db'.requests.rows.map Request.identity =
      db.requests.rows.map Request.identity ++ added := by
  refine Leads.invariant (P := fun d => ∃ added, d.requests.rows.map Request.identity =
    db.requests.rows.map Request.identity ++ added) h ?_ ⟨[], (List.append_nil _).symm⟩
  intro k d hk hd
  obtain ⟨added, hadded⟩ := hd
  have hsame : (d.requests.rows.map k.onRequest).map Request.identity =
      d.requests.rows.map Request.identity := by
    rw [List.map_map]
    exact List.map_congr_left fun r _ => k.onRequest_identity r
  refine ⟨added ++ k.newRequest?.toList.map Request.identity, ?_⟩
  rw [Entry.rows_requests hk, List.map_append, hsame, hadded, List.append_assoc]

theorem Db.scope_eq (db : Db) (thread source : String) :
    db.scope thread source = (db.requests.rows.map Request.identity).filter
      fun q => q.thread = thread ∧ q.source = source := by
  unfold Db.scope
  rw [List.filter_map]
  rfl

theorem Leads.scope {db db' : Db} (h : Leads crates db db') (thread source : String) :
    ∃ added, db'.scope thread source = db.scope thread source ++ added := by
  obtain ⟨added, hadded⟩ := h.requestRows
  refine ⟨added.filter fun q => q.thread = thread ∧ q.source = source, ?_⟩
  rw [Db.scope_eq, Db.scope_eq, hadded, List.filter_append]

section interleaved

variable (h : Interleaved crates dbs limits)
include h

theorem Interleaved.leads (n : Nat) : Leads crates (dbs 0) (dbs n) := by
  induction n with
  | zero => exact Relation.ReflTransGen.refl
  | succ n ih => exact Relation.ReflTransGen.trans ih (h.runs n)

theorem Interleaved.listable (n : Nat) : (dbs n).Listable crates :=
  Leads.listable (h.leads n) h.reachable.listable

theorem Interleaved.grows (thread source : String) :
    Keyset.Grows RequestIdentity.seq 0 fun n => (dbs n).scope thread source where
  ordered n := (dbs n).scope_ordered thread source
  grown n := (h.runs n).scope thread source
  started := by
    intro q hq
    obtain ⟨r, hr, _, _, rfl⟩ := Db.mem_scope.mp hq
    exact ((h.listable 0).numbered r hr).1

/-- The answers of a traversal are the pages of a keyset walk over the scope. -/
theorem Interleaved.listing_walk (hthread : isIdentifier thread = true)
    (hsource : isIdentifier source = true) (n : Nat) :
    (Keyset.walk RequestIdentity.seq 0 (fun n => (dbs n).scope thread source) limits n = none ∧
      listing crates thread source dbs limits n = none) ∨
    ∃ ids next values,
      Keyset.walk RequestIdentity.seq 0 (fun n => (dbs n).scope thread source) limits n =
        some (ids, next) ∧
      PageOf crates (dbs n) values ids ∧
      listing crates thread source dbs limits n =
        some ⟨values.map RequestValue.view, next.map toString⟩ := by
  induction n with
  | zero =>
      obtain ⟨values, hvalues, hrun⟩ := requestList_run (h.listable 0) hthread hsource
        (h.limits_ok 0) (Or.inl ⟨rfl, rfl⟩)
      refine Or.inr ⟨_, _, values, rfl, hvalues, ?_⟩
      rw [listing, hrun]
      rfl
  | succ n ih =>
      rcases ih with ⟨hwalk, hlisting⟩ | ⟨ids, next, values, hwalk, _, hlisting⟩
      · refine Or.inl ⟨?_, ?_⟩
        · rw [Keyset.walk, hwalk]
          rfl
        · rw [listing, hlisting]
          rfl
      · cases next with
        | none =>
            refine Or.inl ⟨?_, ?_⟩
            · rw [Keyset.walk, hwalk]
              rfl
            · rw [listing, hlisting]
              rfl
        | some c =>
            -- the place is the number of a stored request, so its text is read back
            obtain ⟨⟨q, hq, hqc⟩, _⟩ := Keyset.walk_more (h.grows thread source) hwalk
            obtain ⟨r, hr, _, _, rfl⟩ := Db.mem_scope.mp hq
            have hc : c ≤ maxRequests := by
              rw [hqc]
              exact Nat.le_trans ((h.listable n).numbered r hr).2 (h.listable n).bounded
            obtain ⟨values', hvalues', hrun⟩ := requestList_run (h.listable (n + 1)) hthread
              hsource (h.limits_ok (n + 1)) (Or.inr ⟨rfl, hc⟩)
            have hnext : Keyset.walk RequestIdentity.seq 0 (fun n => (dbs n).scope thread source)
                limits (n + 1) = some (Keyset.page RequestIdentity.seq c (limits (n + 1))
                  ((dbs (n + 1)).scope thread source)) := by
              rw [Keyset.walk, hwalk]
              rfl
            refine Or.inr ⟨_, _, values', hnext, hvalues', ?_⟩
            rw [listing, hlisting]
            simp only [Option.map_some, Option.bind_some, hrun]
            rfl

theorem Interleaved.listing_isSome (hthread : isIdentifier thread = true)
    (hsource : isIdentifier source = true) (n : Nat) :
    (listing crates thread source dbs limits n).isSome = true ∨
      ∃ j < n, Exhausted crates thread source dbs limits j := by
  rcases Keyset.walk_some_or_ended RequestIdentity.seq 0
    (fun n => (dbs n).scope thread source) limits n with ⟨ids, next, hwalk⟩ | ⟨j, hj, ids, hwalk⟩
  · rcases h.listing_walk hthread hsource n with ⟨hnone, _⟩ | ⟨_, _, _, _, _, hlisting⟩
    · rw [hwalk] at hnone
      cases hnone
    · rw [hlisting]
      exact Or.inl rfl
  · rcases h.listing_walk hthread hsource j with ⟨hnone, _⟩ | ⟨_, next, _, hwalk', _, hlisting⟩
    · rw [hwalk] at hnone
      cases hnone
    · rw [hwalk] at hwalk'
      cases hwalk'
      exact Or.inr ⟨j, hj, _, hlisting, rfl⟩

theorem Interleaved.exhausted (hthread : isIdentifier thread = true)
    (hsource : isIdentifier source = true) {k : Nat}
    (hsettled : ∀ i, k ≤ i → (dbs i).scope thread source = (dbs k).scope thread source) :
    ∃ n, Exhausted crates thread source dbs limits n := by
  obtain ⟨n, ids, hwalk⟩ := Keyset.walk_ends limits (h.grows thread source) hsettled
  rcases h.listing_walk hthread hsource n with ⟨hnone, _⟩ | ⟨_, next, _, hwalk', _, hlisting⟩
  · rw [hwalk] at hnone
    cases hnone
  · rw [hwalk] at hwalk'
    cases hwalk'
    exact ⟨n, _, hlisting, rfl⟩

/-- A page is no longer than its limit and stays within its scope. -/
theorem Interleaved.page_bounded (hthread : isIdentifier thread = true)
    (hsource : isIdentifier source = true) {n : Nat} {answer : RequestListing}
    (hanswer : listing crates thread source dbs limits n = some answer) :
    answer.data.length ≤ limits n ∧
      ∀ v ∈ answer.data, v.thread = thread ∧ v.source = source := by
  rcases h.listing_walk hthread hsource n with ⟨_, hnone⟩ |
    ⟨ids, next, values, hwalk, hvalues, hlisting⟩
  · rw [hanswer] at hnone
    cases hnone
  rw [hanswer] at hlisting
  obtain rfl := Option.some.inj hlisting
  -- every page of a walk is a keyset page at some place
  obtain ⟨c, hpage⟩ : ∃ c, Keyset.page RequestIdentity.seq c (limits n)
      ((dbs n).scope thread source) = (ids, next) := by
    cases n with
    | zero => exact ⟨0, Option.some.inj hwalk⟩
    | succ n =>
        obtain ⟨c, _, hpage⟩ := Option.map_eq_some_iff.mp hwalk
        exact ⟨c, hpage⟩
  have hids : ids = (Keyset.beyond RequestIdentity.seq c
      ((dbs n).scope thread source)).take (limits n) := by
    rw [← Keyset.page_fst, hpage]
  have hsame := hvalues.ids_eq
  constructor
  · have hlength := congrArg List.length hsame
    rw [hids, List.length_map, List.length_take] at hlength
    rw [List.length_map]
    omega
  · intro v hv
    obtain ⟨value, hvalue, rfl⟩ := List.mem_map.mp hv
    have hmem : value.row.identity ∈ (dbs n).scope thread source := by
      have hid : value.row.identity ∈ ids := by
        rw [← hsame]
        exact List.mem_map_of_mem hvalue
      rw [hids] at hid
      exact (List.mem_filter.mp (List.mem_of_mem_take hid)).1
    obtain ⟨r, _, hrthread, hrsource, hrid⟩ := Db.mem_scope.mp hmem
    have hcolumns := Request.identity_eq hrid
    exact ⟨hcolumns.2.2.1.symm.trans hrthread, hcolumns.2.2.2.1.symm.trans hrsource⟩

theorem Interleaved.listedIds_eq (hthread : isIdentifier thread = true)
    (hsource : isIdentifier source = true) (n : Nat) :
    listedIds crates thread source dbs limits n =
      (Keyset.returned RequestIdentity.seq 0 (fun n => (dbs n).scope thread source) limits n).map
        RequestIdentity.requestId := by
  unfold listedIds Keyset.returned
  rw [List.map_flatMap]
  congr 1
  funext i
  rcases h.listing_walk hthread hsource i with ⟨hwalk, hlisting⟩ |
    ⟨ids, next, values, hwalk, hvalues, hlisting⟩
  · rw [hwalk, hlisting]
    rfl
  · rw [hwalk, hlisting]
    simp only [Option.map_some, Option.getD_some, Option.elim_some]
    rw [← hvalues.ids_eq, List.map_map, List.map_map]
    rfl

/-- What was listed so far, as rows of the store in the order they were created. -/
theorem Interleaved.listed_rows (hthread : isIdentifier thread = true)
    (hsource : isIdentifier source = true) {n : Nat} {answer : RequestListing}
    (hanswer : listing crates thread source dbs limits n = some answer) :
    ∃ rows : List Request, rows.Sublist (dbs n).requests.rows ∧
      listedIds crates thread source dbs limits (n + 1) = rows.map Request.requestId ∧
      (∀ r ∈ rows, r.thread = thread ∧ r.source = source) ∧
      (answer.next = none → ∀ r ∈ (dbs n).requests, r.thread = thread → r.source = source →
        r ∈ rows) := by
  have hids := h.listedIds_eq hthread hsource (n + 1)
  rcases h.listing_walk hthread hsource n with ⟨_, hnone⟩ |
    ⟨ids, next, values, hwalk, _, hlisting⟩
  · rw [hanswer] at hnone
    cases hnone
  rw [hanswer] at hlisting
  obtain rfl := Option.some.inj hlisting
  have hscoped : ∀ {r : Request}, r ∈ (dbs n).requests.rows.filter
      (fun r => r.thread = thread ∧ r.source = source) → r.thread = thread ∧ r.source = source :=
    fun hr => of_decide_eq_true (List.mem_filter.mp hr).2
  cases next with
  | none =>
      have hall := Keyset.walk_last (h.grows thread source) (fun i => (h.limits_ok i).1) hwalk
      refine ⟨(dbs n).requests.rows.filter fun r => r.thread = thread ∧ r.source = source,
        List.filter_sublist, ?_, fun r hr => hscoped hr, fun _ r hr hrthread hrsource => ?_⟩
      · rw [hids, hall, Db.scope, List.map_map]
        rfl
      · exact List.mem_filter.mpr ⟨hr, decide_eq_true ⟨hrthread, hrsource⟩⟩
  | some c =>
      have hsome := (Keyset.walk_more (h.grows thread source) hwalk).2
      refine ⟨((dbs n).requests.rows.filter fun r => r.thread = thread ∧ r.source = source).filter
        fun r => r.seq ≤ c, List.filter_sublist.trans List.filter_sublist, ?_,
        fun r hr => hscoped (List.mem_filter.mp hr).1, fun hnone => ?_⟩
      · rw [hids, hsome, Keyset.upTo, Db.scope, List.filter_map, List.map_map]
        rfl
      · cases hnone

/-- **A traversal loses and repeats nothing.**  Whatever limits its calls use and whatever the
store does between them: no call fails, no page is longer than its limit or leaves the scope, what
was listed so far is listed once and in creation order, the last page completes the requests that
existed when the traversal began, and there is a last page once no request of the scope is
created any more. -/
theorem traversal_complete (hthread : isIdentifier thread = true)
    (hsource : isIdentifier source = true) :
    (∀ n, (listing crates thread source dbs limits n).isSome = true ∨
      ∃ j < n, Exhausted crates thread source dbs limits j) ∧
    (∀ k, (∀ i, k ≤ i → (dbs i).scope thread source = (dbs k).scope thread source) →
      ∃ n, Exhausted crates thread source dbs limits n) ∧
    ∀ n answer, listing crates thread source dbs limits n = some answer →
      (answer.data.length ≤ limits n ∧
        ∀ v ∈ answer.data, v.thread = thread ∧ v.source = source) ∧
      (listedIds crates thread source dbs limits (n + 1)).Nodup ∧
      (∃ rows : List Request, rows.Sublist (dbs n).requests.rows ∧
        rows.Pairwise (fun a b => a.seq < b.seq) ∧
        listedIds crates thread source dbs limits (n + 1) = rows.map Request.requestId) ∧
      (answer.next = none → ∀ r ∈ (dbs 0).requests, r.thread = thread → r.source = source →
        r.requestId ∈ listedIds crates thread source dbs limits (n + 1)) := by
  refine ⟨h.listing_isSome hthread hsource, fun k hsettled => h.exhausted hthread hsource hsettled,
    fun n answer hanswer => ?_⟩
  obtain ⟨rows, hsub, hids, _, hcomplete⟩ := h.listed_rows hthread hsource hanswer
  have hfits := (dbs n).requests.fits.sublist hsub
  refine ⟨h.page_bounded hthread hsource hanswer, ?_, ⟨rows, hsub, ?_, hids⟩, ?_⟩
  · rw [hids]
    unfold List.Nodup
    rw [List.pairwise_map]
    exact hfits.imp fun hfit => hfit.2.1
  · exact hfits.imp fun hfit => hfit.1
  · intro hlast r hr hrthread hrsource
    obtain ⟨q, hq, hidentity, _⟩ := (h.leads n).request h.reachable.recorded hr
    have hcolumns := Request.identity_eq hidentity
    rw [hids, ← hcolumns.2.1]
    exact List.mem_map_of_mem (hcomplete hlast q hq (hcolumns.2.2.1.trans hrthread)
      (hcolumns.2.2.2.1.trans hrsource))

end interleaved

end traversal

/-- The second event of the build server is tracked, too. -/
def sampleTracked : Db :=
  Db.after sampleCrates (sampleRequestOps ++
    [.requestCreate "conversation-1" "ci" "job-2" (sampleUuid 2).text (.object []) none
      (sampleUuid 5) 14])

/-- And once more, after the first page was read. -/
def sampleTrackedAgain : Db :=
  (Op.requestCreate "conversation-1" "ci" "job-3" (sampleUuid 2).text (.object []) none
    (sampleUuid 6) 15).step sampleCrates sampleTracked

/-- Three pages of one request each; the last request was created after the first page. -/
theorem traversal_complete_sample :
    listedIds sampleCrates "conversation-1" "ci"
        (fun n => if n = 0 then sampleTracked else sampleTrackedAgain) (fun _ => 1) 3 =
      [(sampleUuid 3).text, (sampleUuid 5).text, (sampleUuid 6).text] ∧
    ∃ n, Exhausted sampleCrates "conversation-1" "ci"
      (fun n => if n = 0 then sampleTracked else sampleTrackedAgain) (fun _ => 1) n := by
  have hinterleaved : Interleaved sampleCrates
      (fun n => if n = 0 then sampleTracked else sampleTrackedAgain) (fun _ => 1) := by
    refine ⟨reachable_after _ _, fun i => ?_, fun _ => by decide⟩
    cases i with
    | zero => exact Leads.step .refl _
    | succ i => exact Relation.ReflTransGen.refl
  refine ⟨by decide +kernel, ?_⟩
  refine (traversal_complete hinterleaved (by decide) (by decide)).2.1 1 fun i hi => ?_
  have hlater : i ≠ 0 := by omega
  simp only [hlater, if_false, Nat.one_ne_zero]

end CodexMonitor
