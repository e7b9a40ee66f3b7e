import CodexMonitor.Discord.Worker
import CodexMonitor.Lib.Backlog
import Mathlib.Data.Set.Finite.List
import Mathlib.Data.Set.Card

/-!
# A message that is no longer accepted

A raw message may have been stored under an earlier configuration.  The first one that
the present configuration does not accept ends every cycle that gets to it: what stands
in front of it is prepared, and nothing behind it ever is.  The theorems say exactly
when a cycle does all its work and when a message is prepared in the end, whatever
arrives in between.
-/

namespace CodexMonitor

namespace Discord

open Backlog

/-! ## One cycle -/

/-- A cycle moves the accepted messages of its batch on, attempts every delivery that is due then and
looks at the receipts. -/
structure Gateway.Works (g : Gateway) (w : World) (db : Adapter) : Prop where
  moved : ∀ r ∈ db.batch, g.accepts r = true →
    ¬ (g.cycle w db).db.Waits r.id ∧ (g.cycle w db).db.Prepared r.id
  attempted : ∀ p ∈ (g.prepare w db).db.due g.maxAttempts w.now,
    .attempted p.id ∈ (g.cycle w db).deeds
  confirmed : ∃ ids, .confirmed ids ∈ (g.cycle w db).deeds

section works

variable {g : Gateway} {w : World} {db : Adapter}

theorem mem_batch {r : RawRow} (hr : r ∈ db.batch) : r ∈ db.raw :=
  (Table.mem_select.mp (List.mem_of_mem_take hr)).1

theorem Adapter.Keyed.batch (h : db.Keyed g.crates) : KeyedRows g.crates db.batch :=
  fun r hr => h r (mem_batch hr)

theorem prepareRows_deeds {rows : List RawRow} {deed : Deed}
    (h : deed ∈ (g.prepareRows w rows db).deeds) : ∃ id, deed = .prepared id := by
  induction rows generalizing db with
  | nil => exact absurd h List.not_mem_nil
  | cons row rows ih =>
      cases hread : g.read row.payload with
      | error e =>
          rw [Gateway.prepareRows, hread] at h
          exact absurd h List.not_mem_nil
      | ok found =>
          rw [prepareRows_cons hread] at h
          obtain rfl | h := List.mem_cons.mp h
          · exact ⟨_, rfl⟩
          · exact ih h

theorem deliver_ok : (g.deliver w db).result = .ok () ↔ g.maxAttempts < 2 ^ 63 := by
  unfold Gateway.deliver
  split
  · rename_i hbig
    exact iff_of_false (by intro h; cases h) (by omega)
  · rename_i hsmall
    exact iff_of_true rfl (by omega)

theorem deliver_deeds {deed : Deed} (h : deed ∈ (g.deliver w db).deeds) :
    ∃ id, deed = .attempted id := by
  unfold Gateway.deliver at h
  split at h
  · exact absurd h List.not_mem_nil
  · obtain ⟨row, _, rfl⟩ := List.mem_map.mp h
    exact ⟨_, rfl⟩

theorem prepare_ok : (g.prepare w db).result = .ok () ↔ ∀ r ∈ db.batch, g.accepts r = true :=
  prepareRows_ok

/-- The receipts are looked at exactly in the cycles whose other steps do not fail. -/
theorem confirmed_iff : (∃ ids, .confirmed ids ∈ (g.cycle w db).deeds) ↔
    (g.prepare w db).result = .ok () ∧ (g.deliver w (g.prepare w db).db).result = .ok () := by
  unfold Gateway.cycle
  by_cases hprepare : (g.prepare w db).result = .ok ()
  · by_cases hdeliver : (g.deliver w (g.prepare w db).db).result = .ok ()
    · refine iff_of_true ?_ ⟨hprepare, hdeliver⟩
      rw [andThen_assoc, andThen_of_ok _ hprepare, andThen_of_ok _ hdeliver]
      exact ⟨_, List.mem_append_right _ (List.mem_append_right _ List.mem_cons_self)⟩
    · refine iff_of_false ?_ fun h => hdeliver h.2
      rw [andThen_assoc, andThen_of_ok _ hprepare, andThen_of_error _ hdeliver]
      intro h
      obtain ⟨ids, hmem⟩ := h
      obtain hmem | hmem := List.mem_append.mp hmem
      · obtain ⟨_, heq⟩ := prepareRows_deeds hmem
        cases heq
      · obtain ⟨_, heq⟩ := deliver_deeds hmem
        cases heq
  · refine iff_of_false ?_ fun h => hprepare h.1
    rw [andThen_of_error _ hprepare, andThen_of_error _ hprepare]
    intro h
    obtain ⟨ids, hmem⟩ := h
    obtain ⟨_, heq⟩ := prepareRows_deeds hmem
    cases heq

theorem front_of_all {rows : List RawRow} (h : ∀ r ∈ rows, g.accepts r = true) :
    g.front rows = rows := List.takeWhile_eq_self_iff.mpr h

/-- What the cycle gets to is prepared. -/
theorem cycle_front (hkeyed : db.Keyed g.crates) {r : RawRow} (hr : r ∈ g.front db.batch) :
    ¬ (g.cycle w db).db.Waits r.id ∧ (g.cycle w db).db.Prepared r.id := by
  obtain ⟨hwaits, hprepared⟩ := @prepareRows_messages g w db _ hkeyed.batch r.id
  have halike := @cycle_alike g w db
  refine ⟨fun hw => ?_, (halike.prepared r.id).mpr (hprepared.mpr (.inr ⟨r, hr, rfl⟩))⟩
  unfold Adapter.Waits at hw
  rw [halike.raw] at hw
  exact (hwaits.mp hw).2 r hr rfl

/-- **When a cycle does its work.**  A cycle moves every accepted message of its batch, attempts
every delivery that is due and looks at the receipts exactly when each message of the batch is
accepted and the limit of attempts fits the query. -/
theorem cycle_works_iff (g : Gateway) (w : World) (db : Adapter) (hkeyed : db.Keyed g.crates) :
    g.Works w db ↔ (∀ r ∈ db.batch, g.accepts r = true) ∧ g.maxAttempts < 2 ^ 63 := by
  constructor
  · intro h
    obtain ⟨hprepare, hdeliver⟩ := confirmed_iff.mp h.confirmed
    exact ⟨prepare_ok.mp hprepare, deliver_ok.mp hdeliver⟩
  · intro h
    obtain ⟨hall, hlimit⟩ := h
    have hprepare : (g.prepare w db).result = .ok () := prepare_ok.mpr hall
    have hdeliver : (g.deliver w (g.prepare w db).db).result = .ok () := deliver_ok.mpr hlimit
    refine ⟨fun r hr _ => ?_, fun p hp => ?_, confirmed_iff.mpr ⟨hprepare, hdeliver⟩⟩
    · refine cycle_front hkeyed ?_
      rwa [front_of_all hall]
    · have hdeeds : (g.deliver w (g.prepare w db).db).deeds =
          ((g.prepare w db).db.due g.maxAttempts w.now).map fun row => .attempted row.id := by
        unfold Gateway.deliver
        rw [if_neg (by omega)]
      unfold Gateway.cycle
      rw [andThen_assoc, andThen_of_ok _ hprepare, andThen_of_ok _ hdeliver]
      refine List.mem_append_right _ (List.mem_append_left _ ?_)
      rw [hdeeds]
      exact List.mem_map.mpr ⟨p, hp, rfl⟩

end works

theorem waiting_keyed (messages : List Value)
    (h : ∀ r ∈ (waiting messages).raw.rows,
      (sampleGateway.crates.fromStr r.payload).all fun m => text m "id" = r.id) :
    (waiting messages).Keyed sampleGateway.crates := by
  intro r hr m hm
  have hall := h r hr
  rw [hm] at hall
  exact of_decide_eq_true hall

/-- A cycle gets to the accepted message, and not past the one of a stranger. -/
theorem cycle_works_sample :
    sampleGateway.Works sampleWorld (waiting [acceptedMessage]) ∧
      ¬ sampleGateway.Works sampleWorld (waiting [strangerMessage, acceptedMessage]) := by
  constructor
  · refine (cycle_works_iff _ _ _ (waiting_keyed _ ?_)).mpr ⟨?_, ?_⟩
    · decide +kernel
    · decide +kernel
    · decide
  · intro h
    have hall := ((cycle_works_iff _ _ _ (waiting_keyed _ (by decide +kernel))).mp h).1
    revert hall
    decide +kernel

/-! ## The order of the ids -/

theorem IdLe.refl (a : String) : IdLe a a := .inr ⟨rfl, String.le_refl a⟩

instance idLe_total : Std.Total IdLe where
  total a b := by
    unfold IdLe
    obtain h | h | h := Nat.lt_trichotomy a.length b.length
    · exact .inl (.inl h)
    · obtain hle | hle := String.le_total a b
      · exact .inl (.inr ⟨h, hle⟩)
      · exact .inr (.inr ⟨h.symm, hle⟩)
    · exact .inr (.inl h)

instance idLe_trans : IsTrans String IdLe where
  trans a b c hab hbc := by
    unfold IdLe at hab hbc ⊢
    obtain hab | ⟨hab, hab'⟩ := hab
    · obtain hbc | ⟨hbc, _⟩ := hbc
      · exact .inl (hab.trans hbc)
      · exact .inl (hbc ▸ hab)
    · obtain hbc | ⟨hbc, hbc'⟩ := hbc
      · exact .inl (hab ▸ hbc)
      · exact .inr ⟨hab.trans hbc, String.le_trans hab' hbc'⟩

theorem IdLe.antisymm {a b : String} (h : IdLe a b) (h' : IdLe b a) : a = b := by
  unfold IdLe at h h'
  obtain h | ⟨_, hle⟩ := h
  · omega
  · obtain h' | ⟨_, hle'⟩ := h'
    · omega
    · exact String.le_antisymm hle hle'

/-- Only finitely many ids stand in front of one. -/
theorem idLe_finite (a : String) : {b : String | IdLe b a}.Finite := by
  have hchars : Finite Char := by
    refine Finite.of_injective (fun c : Char => (⟨c.toNat, ?_⟩ : Fin 1114112)) ?_
    · have hvalid := c.valid
      unfold UInt32.isValidChar Nat.isValidChar at hvalid
      show c.val.toNat < 1114112
      omega
    · intro c d h
      exact Char.toNat_inj.mp (Fin.mk.inj h)
  have hlists := List.finite_length_le Char a.length
  refine (hlists.image String.ofList).subset ?_
  intro b hb
  refine ⟨b.toList, ?_, String.ofList_toList⟩
  have hle : b.length ≤ a.length := by
    obtain h | ⟨h, _⟩ := hb
    · exact Nat.le_of_lt h
    · exact Nat.le_of_eq h
  rwa [Set.mem_ofPred_eq, String.length_toList]

/-! ## Cycle after cycle -/

/-- The text that is stored for a message is read back as one with its id and its command. -/
def Gateway.Readable (g : Gateway) (m : Value) : Prop :=
  ∃ m', g.crates.fromStr (canonicalJson g.crates m) = some m' ∧ text m' "id" = text m "id" ∧
    parse g.config m' = parse g.config m

/-- What arrives before a cycle, and how the outside answers in it. -/
structure Turn where
  arrivals : List Value
  world : World

/-- Take arrivals in, one after the other. -/
def Gateway.enqueueAll (g : Gateway) (arrivals : List Value) (db : Adapter) : Adapter :=
  arrivals.foldl (fun db m => g.enqueue m db) db

def Gateway.turn (g : Gateway) (turn : Turn) (db : Adapter) : Adapter :=
  (g.cycle turn.world (g.enqueueAll turn.arrivals db)).db

/-- The database after a number of turns. -/
def Gateway.after (g : Gateway) (turns : Nat → Turn) (db : Adapter) : Nat → Adapter
  | 0 => db
  | n + 1 => g.turn (turns n) (g.after turns db n)

/-- Every message up to `id` is accepted. -/
def Gateway.Clear (g : Gateway) (db : Adapter) (id : String) : Prop :=
  ∀ q ∈ db.raw, IdLe q.id id → g.accepts q = true

/-- What a cycle may assume of the tables. -/
structure Gateway.Orderly (g : Gateway) (db : Adapter) : Prop where
  keyed : db.Keyed g.crates
  disjoint : db.Disjoint

section turns

variable {g : Gateway} {w : World} {db : Adapter} {id : String}

theorem mem_enqueue {m : Value} {q : RawRow} (hq : q ∈ (g.enqueue m db).raw) :
    q ∈ db.raw ∨ (q = ⟨text m "id", canonicalJson g.crates m⟩ ∧ (parse g.config m).isSome) := by
  unfold Gateway.enqueue at hq
  split at hq
  · exact .inl hq
  · rename_i command hparse
    obtain hq | ⟨rfl, _⟩ := Adapter.mem_insertRaw hq
    · exact .inl hq
    · exact .inr ⟨rfl, by rw [hparse]; rfl⟩

theorem enqueue_pending {m : Value} : (g.enqueue m db).pending = db.pending := by
  unfold Gateway.enqueue
  split
  · rfl
  · exact Adapter.insertRaw_pending

theorem enqueue_orderly {m : Value} (hm : g.Readable m) (h : g.Orderly db) :
    g.Orderly (g.enqueue m db) := by
  refine ⟨fun r hr m' hm' => ?_, ?_⟩
  · obtain hr | ⟨rfl, _⟩ := mem_enqueue hr
    · exact h.keyed r hr m' hm'
    · obtain ⟨back, hback, hid, _⟩ := hm
      obtain rfl := Option.some.inj (hback.symm.trans hm')
      exact hid
  · unfold Gateway.enqueue
    split
    · exact h.disjoint
    · exact Adapter.insertRaw_disjoint h.disjoint _

theorem enqueue_clear {m : Value} (hm : g.Readable m) (h : g.Clear db id) :
    g.Clear (g.enqueue m db) id := by
  intro q hq hle
  obtain hq | ⟨rfl, haccepted⟩ := mem_enqueue hq
  · exact h q hq hle
  · obtain ⟨back, hback, _, hparse⟩ := hm
    rw [← hparse] at haccepted
    obtain ⟨command, hcommand⟩ := Option.isSome_iff_exists.mp haccepted
    refine accepts_iff.mpr ⟨back, command, ?_⟩
    unfold Gateway.read
    simp only [hback, hcommand]

/-- What every arrival keeps. -/
theorem enqueueAll_keeps {P : Adapter → Prop} {arrivals : List Value}
    (hstep : ∀ m ∈ arrivals, ∀ db, P db → P (g.enqueue m db)) (h : P db) :
    P (g.enqueueAll arrivals db) := by
  induction arrivals generalizing db with
  | nil => exact h
  | cons m arrivals ih =>
      exact ih (fun m hm => hstep m (List.mem_cons_of_mem _ hm))
        (hstep m List.mem_cons_self db h)

/-- The messages a cycle does not get to stay as they are. -/
theorem cycle_messages (hkeyed : db.Keyed g.crates) (id : String) :
    ((g.cycle w db).db.Waits id ↔ db.Waits id ∧ ∀ r ∈ g.front db.batch, r.id ≠ id) ∧
    ((g.cycle w db).db.Prepared id ↔ db.Prepared id ∨ ∃ r ∈ g.front db.batch, r.id = id) := by
  obtain ⟨hwaits, hprepared⟩ := @prepareRows_messages g w db _ hkeyed.batch id
  have halike := @cycle_alike g w db
  refine ⟨?_, (halike.prepared id).trans hprepared⟩
  unfold Adapter.Waits at hwaits ⊢
  rw [halike.raw]
  exact hwaits

theorem prepareRows_raw {rows : List RawRow} {r : RawRow}
    (hr : r ∈ (g.prepareRows w rows db).db.raw) : r ∈ db.raw := by
  induction rows generalizing db with
  | nil => exact hr
  | cons row rows ih =>
      cases hread : g.read row.payload with
      | error e =>
          rw [Gateway.prepareRows, hread] at hr
          exact hr
      | ok found =>
          rw [prepareRows_cons hread] at hr
          exact (Table.mem_delete.mp (ih hr)).1

theorem cycle_raw {r : RawRow} (hr : r ∈ (g.cycle w db).db.raw) : r ∈ db.raw := by
  rw [cycle_alike.raw] at hr
  exact prepareRows_raw hr

theorem cycle_orderly (h : g.Orderly db) : g.Orderly (g.cycle w db).db := by
  refine ⟨fun r hr => h.keyed r (cycle_raw hr), fun id hwaits hprepared => ?_⟩
  obtain ⟨hw, hp⟩ := cycle_messages (w := w) h.keyed id
  obtain ⟨hwaits, hnot⟩ := hw.mp hwaits
  obtain hprepared | ⟨r, hr, hid⟩ := hp.mp hprepared
  · exact h.disjoint id hwaits hprepared
  · exact hnot r hr hid

theorem batch_sorted : (db.raw.select (fun _ => True) fun a b => IdLe a.id b.id).Pairwise
    fun a b => IdLe a.id b.id := by
  have htotal : Std.Total fun a b : RawRow => IdLe a.id b.id :=
    ⟨fun a b => Std.Total.total a.id b.id⟩
  have htrans : IsTrans RawRow fun a b => IdLe a.id b.id :=
    ⟨fun a b c => IsTrans.trans a.id b.id c.id⟩
  exact List.pairwise_insertionSort _ _

/-- Where everything up to a message is accepted, a cycle prepares it, or prepares a whole batch in
front of it. -/
theorem cycle_round (h : g.Orderly db) {r : RawRow} (hr : r ∈ db.raw) (hclear : g.Clear db r.id) :
    (g.cycle w db).db.Prepared r.id ∨
      db.batch.length = batchSize ∧ (∀ q ∈ db.batch, IdLe q.id r.id) ∧ g.front db.batch = db.batch := by
  have hmem : r ∈ db.raw.select (fun _ => True) fun a b => IdLe a.id b.id :=
    Table.mem_select.mpr ⟨hr, trivial⟩
  obtain ⟨front, back, hbatch, hfront⟩ | ⟨hlength, hall⟩ := take_cases batch_sorted hmem batchSize
  · left
    refine (cycle_front h.keyed (r := r) ?_).2
    have heq : db.batch = front ++ r :: back := hbatch
    have haccepted : ∀ q ∈ front, g.accepts q = true := by
      intro q hq
      refine hclear q (mem_batch ?_) (hfront q hq)
      rw [heq]
      exact List.mem_append_left _ hq
    unfold Gateway.front
    rw [heq, List.takeWhile_append_of_pos haccepted,
      List.takeWhile_cons_of_pos (hclear r hr (.refl _))]
    exact List.mem_append_right _ List.mem_cons_self
  · right
    exact ⟨hlength, hall, front_of_all fun q hq => hclear q (mem_batch hq) (hall q hq)⟩

/-- The ids up to one that are not prepared. -/
def Adapter.behind (db : Adapter) (id : String) : Set String :=
  {j | IdLe j id ∧ ¬ db.Prepared j}

theorem behind_finite : (db.behind id).Finite :=
  (idLe_finite id).subset fun _ h => h.1

/-- The batch's rows have different ids. -/
theorem batch_nodup : (db.batch.map RawRow.id).Nodup := by
  have hids : (db.raw.select (fun _ => True) fun a b => IdLe a.id b.id).Pairwise
      fun a b => a.id ≠ b.id :=
    Table.select_pairwise Ne.symm db.raw.fits
  unfold Adapter.batch
  rw [List.Nodup, List.pairwise_map]
  exact hids.sublist (List.take_sublist _ _)

/-- A whole batch in front of `id` leaves that many fewer ids to prepare. -/
theorem behind_round (h : g.Orderly db) (hlength : db.batch.length = batchSize)
    (hall : ∀ q ∈ db.batch, IdLe q.id id) (hfront : g.front db.batch = db.batch) :
    ((g.cycle w db).db.behind id).ncard + batchSize ≤ (db.behind id).ncard := by
  let ids : Finset String := (db.batch.map RawRow.id).toFinset
  have hcard : ids.card = batchSize := by
    rw [List.toFinset_card_of_nodup batch_nodup, List.length_map, hlength]
  have hids : ∀ j, j ∈ ids ↔ ∃ r ∈ db.batch, r.id = j := fun j => by
    simp only [ids, List.mem_toFinset, List.mem_map]
  have hsub : (g.cycle w db).db.behind id ∪ ↑ids ⊆ db.behind id := by
    intro j hj
    obtain ⟨hle, hnot⟩ | hj := hj
    · exact ⟨hle, fun hp => hnot ((cycle_messages h.keyed j).2.mpr (.inl hp))⟩
    · obtain ⟨r, hr, rfl⟩ := (hids j).mp hj
      exact ⟨hall r hr, h.disjoint r.id ⟨r, mem_batch hr, rfl⟩⟩
  have hdisjoint : Disjoint ((g.cycle w db).db.behind id) (↑ids : Set String) := by
    rw [Set.disjoint_left]
    intro j hj hmem
    obtain ⟨r, hr, rfl⟩ := (hids j).mp hmem
    refine hj.2 ((cycle_messages h.keyed r.id).2.mpr (.inr ⟨r, ?_, rfl⟩))
    rwa [hfront]
  calc ((g.cycle w db).db.behind id).ncard + batchSize
      = ((g.cycle w db).db.behind id).ncard + (↑ids : Set String).ncard := by
        rw [Set.ncard_coe_finset, hcard]
    _ = ((g.cycle w db).db.behind id ∪ ↑ids).ncard :=
        (Set.ncard_union_eq hdisjoint behind_finite ids.finite_toSet).symm
    _ ≤ (db.behind id).ncard := Set.ncard_le_ncard hsub behind_finite

end turns

/-! ## Whether a message is prepared in the end -/

/-- Whatever arrives is read back. -/
def Gateway.Reads (g : Gateway) (turns : Nat → Turn) : Prop :=
  ∀ n, ∀ m ∈ (turns n).arrivals, g.Readable m

section eventually

variable {g : Gateway} {db : Adapter} {turns : Nat → Turn} {turn : Turn} {id : String}

theorem arrived_orderly (hreads : ∀ m ∈ turn.arrivals, g.Readable m) (h : g.Orderly db) :
    g.Orderly (g.enqueueAll turn.arrivals db) :=
  enqueueAll_keeps (fun m hm _ h => enqueue_orderly (hreads m hm) h) h

theorem arrived_prepared (arrivals : List Value) :
    (g.enqueueAll arrivals db).Prepared id ↔ db.Prepared id := by
  have hpending : (g.enqueueAll arrivals db).pending = db.pending :=
    enqueueAll_keeps (P := fun t => t.pending = db.pending)
      (fun _ _ _ h => enqueue_pending.trans h) rfl
  unfold Adapter.Prepared
  rw [hpending]

theorem arrived_mem {arrivals : List Value} {r : RawRow} (hr : r ∈ db.raw) :
    r ∈ (g.enqueueAll arrivals db).raw := by
  refine enqueueAll_keeps (P := fun t => r ∈ t.raw) (fun m _ t h => ?_) hr
  unfold Gateway.enqueue
  split
  · exact h
  · unfold Adapter.insertRaw
    split
    · exact h
    · exact Table.mem_add_of_mem h

theorem turn_orderly (hreads : ∀ m ∈ turn.arrivals, g.Readable m) (h : g.Orderly db) :
    g.Orderly (g.turn turn db) := cycle_orderly (arrived_orderly hreads h)

theorem turn_prepared (hreads : ∀ m ∈ turn.arrivals, g.Readable m) (h : g.Orderly db)
    (hid : db.Prepared id) : (g.turn turn db).Prepared id :=
  (cycle_messages (arrived_orderly hreads h).keyed id).2.mpr (.inl ((arrived_prepared _).mpr hid))

/-- One turn prepares the message, or takes a whole batch from in front of it. -/
theorem turn_round (hreads : ∀ m ∈ turn.arrivals, g.Readable m) (h : g.Orderly db)
    (hclear : g.Clear db id) (hwaits : db.Waits id) :
    (g.turn turn db).Prepared id ∨
      (g.Clear (g.turn turn db) id ∧ (g.turn turn db).Waits id) ∧
        ((g.turn turn db).behind id).ncard + batchSize ≤ (db.behind id).ncard := by
  have harrived := arrived_orderly hreads h
  have hclear' : g.Clear (g.enqueueAll turn.arrivals db) id :=
    enqueueAll_keeps (P := fun t => g.Clear t id)
      (fun m hm _ h => enqueue_clear (hreads m hm) h) hclear
  obtain ⟨r, hr, rfl⟩ := hwaits
  have hr' : r ∈ (g.enqueueAll turn.arrivals db).raw := arrived_mem hr
  by_cases hdone : (g.turn turn db).Prepared r.id
  · exact .inl hdone
  · obtain hprepared | ⟨hlength, hall, hfront⟩ :=
      cycle_round (w := turn.world) harrived hr' hclear'
    · exact absurd hprepared hdone
    · refine .inr ⟨⟨fun q hq => hclear' q (cycle_raw hq), ?_⟩, ?_⟩
      · refine (cycle_messages harrived.keyed r.id).1.mpr ⟨⟨r, hr', rfl⟩, fun q hq hid => hdone ?_⟩
        exact (cycle_messages harrived.keyed r.id).2.mpr (.inr ⟨q, hq, hid⟩)
      · have hfewer := behind_round (w := turn.world) harrived hlength hall hfront
        have hsame : (g.enqueueAll turn.arrivals db).behind r.id = db.behind r.id := by
          unfold Adapter.behind
          simp only [arrived_prepared]
        rwa [hsame] at hfewer

theorem after_orderly (hreads : g.Reads turns) (h : g.Orderly db) (n : Nat) :
    g.Orderly (g.after turns db n) := by
  induction n with
  | zero => exact h
  | succ n ih => exact turn_orderly (hreads n) ih

/-- A message behind accepted ones only is prepared within a number of turns. -/
theorem prepared_within (hreads : g.Reads turns) (h : g.Orderly db) (hclear : g.Clear db id)
    (hwaits : db.Waits id) :
    (g.after turns db ((db.behind id).ncard / batchSize + 1)).Prepared id := by
  refine served_within
    (fun n => g.Clear (g.after turns db n) id ∧ (g.after turns db n).Waits id)
    (fun n => (g.after turns db n).Prepared id)
    (fun n => ((g.after turns db n).behind id).ncard) (by decide) ⟨hclear, hwaits⟩ ?_ ?_
  · intro n _ hn
    exact turn_round (hreads n) (after_orderly hreads h n) hn.1 hn.2
  · intro n hn
    exact turn_prepared (hreads n) (after_orderly hreads h n) hn

/-- Behind a message that is not accepted, a cycle prepares nothing. -/
theorem cycle_blocked {u r : RawRow} (hu : u ∈ db.raw)
    (hstuck : g.accepts u = false) (hr : r ∈ db.raw) (hle : IdLe u.id r.id) :
    ∀ q ∈ g.front db.batch, q.id ≠ r.id := by
  intro q hq hid
  have hbatch : q ∈ db.batch := (List.takeWhile_sublist _).subset hq
  obtain rfl := RawRow.eq_of_id (mem_batch hbatch) hr hid
  have haccepted : ∀ q ∈ g.front db.batch, g.accepts q = true :=
    fun q hq => List.mem_takeWhile_imp hq
  obtain ⟨before, rest, hsplit⟩ := List.append_of_mem hq
  have hlead : g.front db.batch <+: db.raw.select (fun _ => True) fun a b => IdLe a.id b.id :=
    (List.takeWhile_prefix _).trans (List.take_prefix _ _)
  obtain ⟨more, hall⟩ := hlead
  rw [hsplit] at hall haccepted
  have hmem : u ∈ db.raw.select (fun _ => True) fun a b => IdLe a.id b.id :=
    Table.mem_select.mpr ⟨hu, trivial⟩
  have hsorted := @batch_sorted db
  rw [← hall, List.append_assoc, List.cons_append] at hmem hsorted
  obtain hmem | hmem := List.mem_append.mp hmem
  · -- in front of it everything is accepted
    rw [haccepted u (List.mem_append_left _ hmem)] at hstuck
    cases hstuck
  · have hsame : u.id = q.id := by
      obtain rfl | hmem := List.mem_cons.mp hmem
      · rfl
      · have hback := List.rel_of_pairwise_cons (List.pairwise_append.mp hsorted).2.1 hmem
        exact hle.antisymm hback
    obtain rfl := RawRow.eq_of_id hu hr hsame
    rw [haccepted u (List.mem_append_right _ List.mem_cons_self)] at hstuck
    cases hstuck

/-- A message behind one that is not accepted is never prepared. -/
theorem never_prepared (hreads : g.Reads turns) (h : g.Orderly db) {u r : RawRow}
    (hu : u ∈ db.raw) (hstuck : g.accepts u = false) (hr : r ∈ db.raw) (hle : IdLe u.id r.id)
    (n : Nat) : u ∈ (g.after turns db n).raw ∧ r ∈ (g.after turns db n).raw := by
  induction n with
  | zero => exact ⟨hu, hr⟩
  | succ n ih =>
      have horderly := arrived_orderly (hreads n) (after_orderly hreads h n)
      have hstays : ∀ q ∈ (g.after turns db n).raw, IdLe u.id q.id →
          q ∈ (g.after turns db (n + 1)).raw := by
        intro q hq hle
        have hq' : q ∈ (g.enqueueAll (turns n).arrivals (g.after turns db n)).raw := arrived_mem hq
        have hblocked := cycle_blocked (arrived_mem ih.1) hstuck hq' hle
        have hwaits := (cycle_messages (w := (turns n).world) horderly.keyed q.id).1.mpr
          ⟨⟨q, hq', rfl⟩, hblocked⟩
        obtain ⟨q', hmem, hid⟩ := hwaits
        obtain rfl := RawRow.eq_of_id (cycle_raw hmem) hq' hid
        exact hmem
      exact ⟨hstays u ih.1 (.refl _), hstays r ih.2 hle⟩

/-- **Which messages are prepared in the end.**  Whatever arrives between the cycles and whatever
the outside answers in them, a waiting message is prepared by some cycle exactly when no waiting
message up to it has stopped being accepted. -/
theorem prepared_in_the_end_iff (g : Gateway) (db : Adapter) (turns : Nat → Turn) (id : String)
    (h : g.Orderly db) (hreads : g.Reads turns) (hwaits : db.Waits id) :
    (∃ n, (g.after turns db n).Prepared id) ↔ g.Clear db id := by
  constructor
  · intro hprepared q hq hle
    obtain ⟨n, hn⟩ := hprepared
    obtain ⟨r, hr, rfl⟩ := hwaits
    by_contra hnot
    have hstays := never_prepared hreads h hq (Bool.eq_false_of_not_eq_true hnot) hr hle n
    exact (after_orderly hreads h n).disjoint r.id ⟨r, hstays.2, rfl⟩ hn
  · intro hclear
    exact ⟨_, prepared_within hreads h hclear hwaits⟩

end eventually

theorem prepared_in_the_end_sample :
    (∃ n, (sampleGateway.after (fun _ => ⟨[acceptedMessage], sampleWorld⟩)
      (waiting [acceptedMessage]) n).Prepared "66666666666666666") ∧
    ¬ ∃ n, (sampleGateway.after (fun _ => ⟨[acceptedMessage], sampleWorld⟩)
      (waiting [strangerMessage, acceptedMessage]) n).Prepared "66666666666666666" := by
  have hreads : sampleGateway.Reads fun _ => ⟨[acceptedMessage], sampleWorld⟩ := by
    intro n m hm
    obtain rfl := List.mem_singleton.mp hm
    exact ⟨acceptedMessage, recalling_reads _ _, rfl, rfl⟩
  constructor
  · refine (prepared_in_the_end_iff _ _ _ _ ⟨waiting_keyed _ ?_, waiting_disjoint _⟩ hreads ?_).mpr ?_
    · decide +kernel
    · exact ⟨_, List.mem_singleton.mpr rfl, rfl⟩
    · intro q hq _
      revert q
      decide +kernel
  · have hkeyed : (waiting [strangerMessage, acceptedMessage]).Keyed sampleGateway.crates := by
      refine waiting_keyed _ ?_
      decide +kernel
    have hrows : ∀ m ∈ [strangerMessage, acceptedMessage],
        (⟨text m "id", canonicalJson exactPrinter m⟩ : RawRow) ∈
          (waiting [strangerMessage, acceptedMessage]).raw.rows := by
      decide +kernel
    have hwaits : (waiting [strangerMessage, acceptedMessage]).Waits "66666666666666666" :=
      ⟨_, hrows acceptedMessage (.tail _ (.head _)), rfl⟩
    intro hprepared
    have hclear := (prepared_in_the_end_iff _ _ _ _ ⟨hkeyed, waiting_disjoint _⟩ hreads hwaits).mp
      hprepared
    have hstuck := hclear _ (hrows strangerMessage (.head _)) (by decide +kernel)
    revert hstuck
    decide +kernel

end Discord

end CodexMonitor
