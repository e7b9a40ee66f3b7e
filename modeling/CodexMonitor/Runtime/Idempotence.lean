import CodexMonitor.Store.Creation
import CodexMonitor.Store.Dedup
import CodexMonitor.Runtime.Ownership

/-!
# Creating a request again

A repeated `request_create` finds the request of its key before it asks for room, and
compares the payload it is given with the stored text, which it parses and prints again.
Printing tells all values apart, but the parser may read a printed double as its neighbour:
then the text that is compared is not the text that was stored.
-/

namespace CodexMonitor

open Transaction

/-! ## Reading a printed value -/

mutual

/-- The doubles of a value. -/
def Value.floats : Value → List UInt64
  | .number (.float bits) => [bits]
  | .array items => itemFloats items
  | .object fields => fieldFloats fields
  | .null | .bool _ | .number (.posInt _) | .number (.negInt _) | .string _ => []

def itemFloats : List Value → List UInt64
  | [] => []
  | item :: items => item.floats ++ itemFloats items

def fieldFloats : List (String × Value) → List UInt64
  | [] => []
  | (_, value) :: fields => value.floats ++ fieldFloats fields

end

/-- What the parser makes of a printed value: it may give up (a value that is nested too deeply),
or it reads the value with each double as `f` says. -/
def Crates.Rereads (crates : Crates) (f : UInt64 → UInt64) : Prop :=
  ∀ v w : Value, v.WellFormed → crates.fromStr (canonicalJson crates v) = some w →
    w.WellFormed ∧ w.Same (v.reread f)

section reread

variable {f : UInt64 → UInt64}

theorem rereadFields_keys (fields : List (String × Value)) :
    (rereadFields f fields).map Prod.fst = fields.map Prod.fst := by
  induction fields with
  | nil => rfl
  | cons field fields ih =>
      obtain ⟨key, value⟩ := field
      rw [rereadFields, List.map_cons, List.map_cons, ih]

mutual

theorem reread_wellFormed : ∀ v : Value, v.WellFormed → (v.reread f).WellFormed
  | .array items, h => rereadItems_wellFormed items h
  | .object fields, h => by
      refine ⟨?_, rereadFields_wellFormed fields h.2⟩
      rw [rereadFields_keys]
      exact h.1
  | .null, _ | .bool _, _ | .number (.posInt _), _ | .number (.negInt _), _
  | .number (.float _), _ | .string _, _ => trivial

theorem rereadItems_wellFormed : ∀ items : List Value, ItemsWellFormed items →
    ItemsWellFormed (rereadItems f items)
  | [], _ => trivial
  | item :: items, h => ⟨reread_wellFormed item h.1, rereadItems_wellFormed items h.2⟩

theorem rereadFields_wellFormed : ∀ fields : List (String × Value), FieldsWellFormed fields →
    FieldsWellFormed (rereadFields f fields)
  | [], _ => trivial
  | (_, value) :: fields, h => ⟨reread_wellFormed value h.1, rereadFields_wellFormed fields h.2⟩

end

/-- Two fields of one name are one field. -/
theorem field_unique {fields : List (String × Value)} (h : (fields.map Prod.fst).Nodup)
    {key : String} {a b : Value} (ha : (key, a) ∈ fields) (hb : (key, b) ∈ fields) : a = b :=
  congrArg Prod.snd (List.inj_on_of_nodup_map h ha hb rfl)

mutual

/-- A value is read back exactly when each of its doubles is. -/
theorem same_reread : ∀ v : Value, v.WellFormed →
    ((v.reread f).Same v ↔ ∀ bits ∈ v.floats, f bits = bits)
  | .null, _ => by simp [Value.reread, Value.Same, Value.floats]
  | .bool _, _ => by simp [Value.reread, Value.Same, Value.floats]
  | .number (.posInt _), _ => by simp [Value.reread, Value.Same, Value.floats]
  | .number (.negInt _), _ => by simp [Value.reread, Value.Same, Value.floats]
  | .number (.float bits), _ => by simp [Value.reread, Value.Same, Value.floats, Number.value]
  | .string _, _ => by simp [Value.reread, Value.Same, Value.floats]
  | .array items, h => by
      rw [Value.reread, Value.Same, Value.floats]
      exact same_rereadItems items h
  | .object fields, h => by
      have hlength : (rereadFields f fields).length = fields.length := by
        have hkeys := congrArg List.length (rereadFields_keys (f := f) fields)
        rwa [List.length_map, List.length_map] at hkeys
      rw [Value.reread, Value.Same, Value.floats,
        same_rereadFields fields fields h.2 h.1 (List.Subset.refl _)]
      exact and_iff_right hlength

theorem same_rereadItems : ∀ items : List Value, ItemsWellFormed items →
    (SameItems (rereadItems f items) items ↔ ∀ bits ∈ itemFloats items, f bits = bits)
  | [], _ => by simp [rereadItems, SameItems, itemFloats]
  | item :: items, h => by
      rw [rereadItems, SameItems, same_reread item h.1, same_rereadItems items h.2, itemFloats]
      simp only [List.mem_append, or_imp, forall_and]

theorem same_rereadFields : ∀ fields others : List (String × Value), FieldsWellFormed fields →
    (others.map Prod.fst).Nodup → fields ⊆ others →
      (SameFields (rereadFields f fields) others ↔ ∀ bits ∈ fieldFloats fields, f bits = bits)
  | [], _, _, _, _ => by simp [rereadFields, SameFields, fieldFloats]
  | (key, value) :: fields, others, h, hkeys, hsub => by
      obtain ⟨hmem, hrest⟩ := List.cons_subset.mp hsub
      have hfield : (∃ b, (key, b) ∈ others ∧ (value.reread f).Same b) ↔
          (value.reread f).Same value := by
        constructor
        · intro hsome
          obtain ⟨b, hb, hsame⟩ := hsome
          obtain rfl := field_unique hkeys hmem hb
          exact hsame
        · intro hsame
          exact ⟨value, hmem, hsame⟩
      rw [rereadFields, SameFields, hfield, same_reread value h.1,
        same_rereadFields fields others h.2 hkeys hrest, fieldFloats]
      simp only [List.mem_append, or_imp, forall_and]

end

/-- The text of what is read back is the text that was printed exactly when each double is read
back as it was. -/
theorem Crates.Rereads.text_eq_iff {crates : Crates} (hreads : crates.Rereads f)
    (hprints : crates.PrintsFloats) {v w : Value} (hv : v.WellFormed)
    (h : crates.fromStr (canonicalJson crates v) = some w) :
    canonicalJson crates w = canonicalJson crates v ↔ ∀ bits ∈ v.floats, f bits = bits := by
  obtain ⟨hw, hsame⟩ := hreads v w hv h
  have hreread := reread_wellFormed (f := f) v hv
  rw [(canonicalJson_eq_iff hprints hw hreread).mpr hsame,
    canonicalJson_eq_iff hprints hreread hv, same_reread v hv]

end reread

/-! ## The stored request -/

section creation

variable {crates : Crates} {db db' t : Db} {thread source key deliveryId : String}
  {payload other : Value} {expiresAt : Option F64} {uuid : Uuid} {now : Rat}
  {answer : RequestAnswer} {r : Request}

/-- A request stays under its key, and what a creation of it needs stays. -/
theorem Db.Recreates.leads
    (h : db.Recreates crates thread source key deliveryId payload expiresAt r)
    (hdb : db.Recorded) (hleads : Leads crates db db') :
    ∃ q, q.identity = r.identity ∧
      db'.Recreates crates thread source key deliveryId payload expiresAt q := by
  obtain ⟨hr, hthread, hsource, hkey⟩ := Table.find?_some h.stored
  obtain ⟨q, hq, hidentity, _⟩ := hleads.request hdb hr
  have hcolumns := Request.identity_eq hidentity
  have hkept := Leads.ownersKept hleads
  obtain ⟨e, he, hid, hesource, b, hb, hname, hbthread⟩ := h.delivered
  obtain ⟨f, hf, hfkey⟩ := hkept.events e he
  obtain ⟨c, hc, hcname, hcthread⟩ := hkept.bindings b hb
  have hevent := Event.key_eq hfkey
  have hqkey : q.thread = thread ∧ q.source = source ∧ q.requestKey = key :=
    ⟨hcolumns.2.2.1.trans hthread, hcolumns.2.2.2.1.trans hsource,
      hcolumns.2.2.2.2.1.trans hkey⟩
  refine ⟨q, hidentity, h.thread_ok, h.source_ok, h.key_ok, h.deliveryId_ok, h.payload_ok, ?_,
    ⟨f, hf, hevent.2.1.trans hid, hevent.2.2.2.2.1.trans hesource, c, hc, ?_,
      hcthread.trans hbthread⟩, ?_, ?_⟩
  · rw [h.expiry_ok, hcolumns.2.2.2.2.2.2.2.2.1]
  · rw [hcname, hname, hevent.2.2.2.1]
  · exact Table.find?_eq_of_unique hq hqkey fun p hp hpkey =>
      Request.eq_of_requestKey hp hq (hpkey.1.trans hqkey.1.symm)
        (hpkey.2.1.trans hqkey.2.1.symm) (hpkey.2.2.trans hqkey.2.2.symm)
  · rw [hcolumns.2.2.2.2.2.1, h.delivery_eq]

/-- The expiry of a creation that passed its check is the only one that is checked alike. -/
theorem validExpiry_inj {a b : Option F64} {expiry : Option Rat} (ha : validExpiry a = some expiry)
    (hb : validExpiry b = some expiry) : a = b := by
  have hvalue : ∀ {c : Option F64}, validExpiry c = some expiry → c = expiry.map F64.finite := by
    intro c hc
    cases c with
    | none =>
        obtain rfl := Option.some.inj hc
        rfl
    | some value =>
        cases value with
        | finite x =>
            simp only [validExpiry] at hc
            split at hc
            · obtain rfl := Option.some.inj hc
              rfl
            · cases hc
        | infinite => cases hc
        | nan => cases hc
  rw [hvalue ha, hvalue hb]

/-- A creation under a key that is taken changes nothing, and it succeeds exactly when it names the
stored delivery and expiry and a payload of the text that is read back. -/
theorem requestCreate_taken
    (h : db.Recreates crates thread source key deliveryId payload expiresAt r)
    {value : RequestValue} (hvalue : requestValue crates r = .ok value) (deliveryId' : String)
    (other : Value) (expiresAt' : Option F64) (uuid : Uuid) (now : Rat) :
    (deliveryId' = deliveryId ∧ expiresAt' = expiresAt ∧
        (canonicalJson crates other).utf8ByteSize ≤ maxRequestBytes ∧
        canonicalJson crates value.payload = canonicalJson crates other ∧
        (requestCreate crates thread source key deliveryId' other expiresAt' uuid now).run db =
          (.ok ⟨value, true⟩, db)) ∨
      ((deliveryId' ≠ deliveryId ∨ expiresAt' ≠ expiresAt ∨
          maxRequestBytes < (canonicalJson crates other).utf8ByteSize ∨
          canonicalJson crates value.payload ≠ canonicalJson crates other) ∧
        ∃ error, (requestCreate crates thread source key deliveryId' other expiresAt' uuid now).run
          db = (.error error, db)) := by
  rcases hrun : (requestCreate crates thread source key deliveryId' other expiresAt' uuid now).run
    db with ⟨error | answer, t⟩
  · have hexec : ((Op.requestCreate thread source key deliveryId' other expiresAt' uuid now).exec
        crates).run db = (.error error, t) := Tx.run_bind_of_error hrun _
    have hharmless := Op.harmless crates _ db error (by rw [hexec])
    rw [hexec] at hharmless
    obtain rfl : db = t := hharmless.symm
    refine Or.inr ⟨?_, error, rfl⟩
    by_contra hall
    simp only [not_or, not_not, Nat.not_lt] at hall
    obtain ⟨rfl, rfl, hsize, htext⟩ := hall
    have hagain : db.Recreates crates thread source key deliveryId' other expiresAt' r :=
      { h with payload_ok := hsize }
    rw [requestCreate_found uuid now hagain hvalue htext] at hrun
    cases hrun
  · rcases requestCreate_cases hrun with ⟨q, found, hagain, hfound, htext, rfl, rfl⟩ |
      ⟨hcreates, _⟩
    · obtain rfl : q = r := Option.some.inj (hagain.stored.symm.trans h.stored)
      rw [hvalue] at hfound
      obtain rfl := Except.ok.inj hfound
      exact Or.inl ⟨hagain.delivery_eq.symm.trans h.delivery_eq,
        validExpiry_inj hagain.expiry_ok h.expiry_ok, hagain.payload_ok, htext, hrun ▸ rfl⟩
    · have hnew := hcreates.new
      rw [h.stored] at hnew
      cases hnew

theorem requestValue_ok {value : RequestValue} :
    requestValue crates r = .ok value ↔
      value.row = r ∧ crates.fromStr r.payload = some value.payload := by
  unfold requestValue
  cases hparse : crates.fromStr r.payload with
  | none => simp
  | some parsed =>
      simp only [Except.ok.injEq, Option.some.injEq]
      constructor
      · intro h
        rw [← h]
        exact ⟨rfl, rfl⟩
      · intro h
        obtain ⟨hrow, hpayload⟩ := h
        rw [← hrow, hpayload]

/-- What a successful creation leaves behind: the request under its key, which is read as the call
answered it. -/
theorem requestCreate_stores
    (h : (requestCreate crates thread source key deliveryId payload expiresAt uuid now).run db
      = (.ok answer, t)) :
    ∃ r, t.Recreates crates thread source key deliveryId payload expiresAt r ∧
      requestValue crates r = .ok answer.value ∧
      ((db.requestAt thread source key ≠ none ∧
          canonicalJson crates answer.value.payload = canonicalJson crates payload) ∨
        (db.requestAt thread source key = none ∧
          crates.fromStr (canonicalJson crates payload) = some answer.value.payload)) := by
  rcases requestCreate_cases h with ⟨r, value, hstored, hvalue, htext, rfl, rfl⟩ |
    ⟨hcreates, e, he, heid, hesource, b, hb, hname, hbthread, expiry, r, value, hexpiry, hr,
      henabled, hvalue, rfl, rfl⟩
  · refine ⟨r, hstored, hvalue, Or.inl ⟨?_, htext⟩⟩
    rw [hstored.stored]
    exact nofun
  · have hmem : r ∈ ((Entry.create r).apply crates db).requests :=
      (Entry.mem_requests henabled).mpr (Or.inr rfl)
    refine ⟨r, ⟨hcreates.thread_ok, hcreates.source_ok, hcreates.key_ok, hcreates.deliveryId_ok,
      hcreates.payload_ok, ?_, ⟨e, he, heid, hesource, b, hb, hname, hbthread⟩, ?_, ?_⟩, hvalue,
      Or.inr ⟨hcreates.new, ?_⟩⟩
    · rw [hexpiry, hr]
      rfl
    · refine Table.find?_eq_of_unique hmem ?_ fun q hq hqkey => ?_
      · rw [hr]
        exact ⟨rfl, rfl, rfl⟩
      · refine Request.eq_of_requestKey hq hmem ?_ ?_ ?_
        · rw [hqkey.1, hr]
          rfl
        · rw [hqkey.2.1, hr]
          rfl
        · rw [hqkey.2.2, hr]
          rfl
    · rw [hr]
      rfl
    · have hparse := (requestValue_ok.mp hvalue).2
      rw [hr] at hparse
      exact hparse

/-- After any further operations the same call, up to the order of fields, is a repetition with the
request's id, and one with another delivery, payload or expiry is refused; neither changes
anything. -/
def CreatesOnce (crates : Crates) (t : Db) (thread source key deliveryId : String)
    (payload : Value) (expiresAt : Option F64) (requestId : String) : Prop :=
  ∀ db', Leads crates t db' → ∀ uuid now,
    (∀ other, other.WellFormed → payload.Same other → ∃ value, value.row.requestId = requestId ∧
      (requestCreate crates thread source key deliveryId other expiresAt uuid now).run db' =
        (.ok ⟨value, true⟩, db')) ∧
    ∀ deliveryId' other expiresAt', other.WellFormed →
      deliveryId' ≠ deliveryId ∨ ¬ payload.Same other ∨ expiresAt' ≠ expiresAt →
        ∃ error, (requestCreate crates thread source key deliveryId' other expiresAt' uuid now).run
          db' = (.error error, db')

/-- A stored request is created once exactly when its payload is read back with the text the call
gave. -/
theorem createsOnce_iff (hprints : crates.PrintsFloats) (hpayload : payload.WellFormed)
    (h : t.Recreates crates thread source key deliveryId payload expiresAt r) (ht : t.Recorded)
    {value : RequestValue} (hvalue : requestValue crates r = .ok value) :
    CreatesOnce crates t thread source key deliveryId payload expiresAt r.requestId ↔
      canonicalJson crates value.payload = canonicalJson crates payload := by
  constructor
  · intro honce
    have hself : payload.Same payload := (canonicalJson_eq_iff hprints hpayload hpayload).mp rfl
    obtain ⟨found, _, hrun⟩ := (honce t .refl (sampleUuid 0) 0).1 payload hpayload hself
    rcases requestCreate_taken h hvalue deliveryId payload expiresAt (sampleUuid 0) 0 with
      ⟨_, _, _, htext, _⟩ | ⟨_, error, hfail⟩
    · exact htext
    · rw [hrun] at hfail
      cases hfail
  · intro htext db' hleads uuid now
    obtain ⟨q, hidentity, hstored⟩ := h.leads ht hleads
    have hcolumns := Request.identity_eq hidentity
    have hq : requestValue crates q = .ok ⟨q, value.payload⟩ := by
      refine requestValue_ok.mpr ⟨rfl, ?_⟩
      rw [hcolumns.2.2.2.2.2.2.2.1]
      exact (requestValue_ok.mp hvalue).2
    constructor
    · intro other hother hsame
      have hothertext := (canonicalJson_eq_iff hprints hpayload hother).mpr hsame
      refine ⟨⟨q, value.payload⟩, hcolumns.2.1, ?_⟩
      rcases requestCreate_taken hstored hq deliveryId other expiresAt uuid now with
        ⟨_, _, _, _, hrun⟩ | ⟨hbad, _⟩
      · exact hrun
      · have hsize := hstored.payload_ok
        rw [hothertext] at hsize
        rcases hbad with hne | hne | hlong | hne
        · exact absurd rfl hne
        · exact absurd rfl hne
        · omega
        · exact absurd (htext.trans hothertext) hne
    · intro deliveryId' other expiresAt' hother hdiffers
      rcases requestCreate_taken hstored hq deliveryId' other expiresAt' uuid now with
        ⟨hdelivery, hexpiry, _, hsame, _⟩ | ⟨_, hfail⟩
      · rcases hdiffers with hne | hne | hne
        · exact absurd hdelivery hne
        · exact absurd ((canonicalJson_eq_iff hprints hpayload hother).mp
            (htext.symm.trans hsame)) hne
        · exact absurd hexpiry hne
      · exact hfail

/-- **When a creation is idempotent.**  A request that was created stays created for the call, after
any further operations, exactly when its key was taken before or the parser reads each double of
its payload back as it was. -/
theorem requestCreate_once_iff {f : UInt64 → UInt64} (hprints : crates.PrintsFloats)
    (hreads : crates.Rereads f) (hpayload : payload.WellFormed) (h : Reachable crates db)
    (hrun : (requestCreate crates thread source key deliveryId payload expiresAt uuid now).run db
      = (.ok answer, t)) :
    CreatesOnce crates t thread source key deliveryId payload expiresAt
        answer.value.row.requestId ↔
      db.requestAt thread source key ≠ none ∨ ∀ bits ∈ payload.floats, f bits = bits := by
  have ht : Reachable crates t := by
    have hstep : (Op.requestCreate thread source key deliveryId payload expiresAt uuid now).step
        crates db = t := step_of_run rfl hrun
    rw [← hstep]
    exact Leads.step h _
  obtain ⟨r, hstored, hvalue, hcase⟩ := requestCreate_stores hrun
  rw [(requestValue_ok.mp hvalue).1, createsOnce_iff hprints hpayload hstored ht.recorded hvalue]
  rcases hcase with ⟨htaken, htext⟩ | ⟨hnew, hparse⟩
  · exact iff_of_true htext (Or.inl htaken)
  · rw [hreads.text_eq_iff hprints hpayload hparse]
    simp [hnew]

end creation

/-! ## A double that is read back as its neighbour -/

/-- The double `5.1e-36`. -/
def driftBits : UInt64 := 0x389b1dc2a20cce6b

/-- The double next to it, which the parser makes of its text. -/
def neighbourBits : UInt64 := 0x389b1dc2a20cce6c

/-- How the parser reads the printed doubles. -/
def drift (bits : UInt64) : UInt64 := if bits = driftBits then neighbourBits else bits

def driftText (bits : UInt64) : String :=
  if bits = driftBits then "5.1e-36"
  else if bits = neighbourBits then "5.1000000000000004e-36"
  else exactPrinter.floatText bits

/-- A payload with the double. -/
def driftPayload : Value := .object [("x", .number (.float driftBits))]

/-- A JSON library that knows the two payloads of the samples. -/
def driftCrates : Crates where
  floatText := driftText
  fromStr text :=
    if text = "\x7b\"x\":5.1e-36\x7d" then some (driftPayload.reread drift)
    else if text = "\x7b\x7d" then some (.object [])
    else none
  parseUrl _ := none
  extractTraceId _ := none

theorem driftText_exponent : 'e' ∈ "5.1e-36".toList ∧ 'e' ∈ "5.1000000000000004e-36".toList := by
  decide

theorem driftCrates_printsFloats : driftCrates.PrintsFloats where
  injective := by
    have hexact : ∀ bits text, 'e' ∈ String.toList text → exactPrinter.floatText bits ≠ text := by
      intro bits text he heq
      rw [← heq] at he
      exact exactPrinter_no_exponent bits he
    have hne : "5.1e-36" ≠ "5.1000000000000004e-36" := by decide
    intro a b h
    simp only [driftCrates, driftText] at h
    by_cases ha : a = driftBits
    · by_cases hb : b = driftBits
      · rw [ha, hb]
      · rw [if_pos ha, if_neg hb] at h
        by_cases hb' : b = neighbourBits
        · rw [if_pos hb'] at h
          exact absurd h hne
        · rw [if_neg hb'] at h
          exact absurd h.symm (hexact b _ driftText_exponent.1)
    · rw [if_neg ha] at h
      by_cases ha' : a = neighbourBits
      · rw [if_pos ha'] at h
        by_cases hb : b = driftBits
        · rw [if_pos hb] at h
          exact absurd h.symm hne
        · rw [if_neg hb] at h
          by_cases hb' : b = neighbourBits
          · rw [ha', hb']
          · rw [if_neg hb'] at h
            exact absurd h.symm (hexact b _ driftText_exponent.2)
      · rw [if_neg ha'] at h
        by_cases hb : b = driftBits
        · rw [if_pos hb] at h
          exact absurd h (hexact a _ driftText_exponent.1)
        · rw [if_neg hb] at h
          by_cases hb' : b = neighbourBits
          · rw [if_pos hb'] at h
            exact absurd h (hexact a _ driftText_exponent.2)
          · rw [if_neg hb'] at h
            exact exactPrinter_printsFloats.injective a b h
  numeric := by
    have hknown : (∀ c ∈ "5.1e-36".toList, c.isDigit = true ∨ c ∈ ['-', '+', '.', 'e', 'E']) ∧
        ∀ c ∈ "5.1000000000000004e-36".toList,
          c.isDigit = true ∨ c ∈ ['-', '+', '.', 'e', 'E'] := by
      decide
    intro bits c hc
    simp only [driftCrates, driftText] at hc
    split at hc
    · exact hknown.1 c hc
    split at hc
    · exact hknown.2 c hc
    · exact exactPrinter_printsFloats.numeric bits c hc
  fractional := by
    intro bits
    simp only [driftCrates, driftText]
    split
    · exact Or.inr driftText_exponent.1
    split
    · exact Or.inr driftText_exponent.2
    · exact exactPrinter_printsFloats.fractional bits

theorem driftPayload_wellFormed : driftPayload.WellFormed := ⟨by decide, trivial, trivial⟩

/-- Only the payload itself is printed like it. -/
theorem eq_driftPayload {v : Value} (h : driftPayload.Same v) : v = driftPayload := by
  cases v with
  | object others =>
      obtain ⟨hlength, ⟨b, hb, hsame⟩, _⟩ := h
      obtain ⟨field, rfl⟩ := List.length_eq_one_iff.mp hlength.symm
      obtain rfl := List.mem_singleton.mp hb
      cases b with
      | number n =>
          cases n with
          | float bits =>
              obtain rfl : driftBits = bits := Sum.inr.inj hsame
              rfl
          | posInt n => exact absurd hsame nofun
          | negInt n => exact absurd hsame nofun
      | _ => exact hsame.elim
  | _ => exact h.elim

theorem driftCrates_rereads : driftCrates.Rereads drift := by
  have htext : canonicalJson driftCrates driftPayload = "\x7b\"x\":5.1e-36\x7d" := by
    decide
  have hempty : canonicalJson driftCrates (.object []) = "\x7b\x7d" := by
    decide
  intro v w _ hparse
  simp only [driftCrates] at hparse
  split at hparse
  · rename_i heq
    obtain rfl := Option.some.inj hparse
    have hsame := same_of_text driftCrates_printsFloats driftPayload v (htext.trans heq.symm)
    rw [eq_driftPayload hsame]
    exact ⟨⟨by decide, trivial, trivial⟩, rfl, ⟨_, .head _, rfl⟩, trivial⟩
  split at hparse
  · rename_i heq
    obtain rfl := Option.some.inj hparse
    have hsame := same_of_text driftCrates_printsFloats (.object []) v (hempty.trans heq.symm)
    cases v with
    | object others =>
        obtain rfl := List.length_eq_zero_iff.mp hsame.1.symm
        exact ⟨⟨List.nodup_nil, trivial⟩, rfl, trivial⟩
    | _ => exact hsame.elim
  · cases hparse

/-- The sample event is tracked as a request, with a payload. -/
def driftCreate (payload : Value) : Except StoreError RequestAnswer × Db :=
  (requestCreate driftCrates "conversation-1" "ci" "job-1" (sampleUuid 1).text payload none
    (sampleUuid 3) 12).run (Db.after driftCrates sampleOps)

/-- A payload without doubles is created once. -/
theorem requestCreate_once_sample :
    ∃ requestId, CreatesOnce driftCrates (driftCreate (.object [])).2 "conversation-1" "ci" "job-1"
      (sampleUuid 1).text (.object []) none requestId := by
  have hsome : (driftCreate (.object [])).1.toOption.isSome = true := by decide +kernel
  rcases hcreate : driftCreate (.object []) with ⟨error | answer, t⟩
  · rw [hcreate] at hsome
    cases hsome
  · have hempty : (Value.object []).WellFormed := ⟨List.nodup_nil, trivial⟩
    exact ⟨_, (requestCreate_once_iff driftCrates_printsFloats driftCrates_rereads hempty
      (reachable_after _ _) hcreate).mpr (Or.inr nofun)⟩

/-- The same call with the double in its payload is refused the second time. -/
theorem requestCreate_once_fails :
    ¬ ∀ (crates : Crates) (f : UInt64 → UInt64) (db t : Db) (thread source key deliveryId : String)
        (payload : Value) (expiresAt : Option F64) (uuid : Uuid) (now : Rat)
        (answer : RequestAnswer), crates.PrintsFloats → crates.Rereads f → payload.WellFormed →
      Reachable crates db →
      (requestCreate crates thread source key deliveryId payload expiresAt uuid now).run db
        = (.ok answer, t) →
      CreatesOnce crates t thread source key deliveryId payload expiresAt
        answer.value.row.requestId := by
  intro h
  have hsome : (driftCreate driftPayload).1.toOption.isSome = true := by decide +kernel
  have hagain : ((requestCreate driftCrates "conversation-1" "ci" "job-1" (sampleUuid 1).text
      driftPayload none (sampleUuid 4) 13).run (driftCreate driftPayload).2).1.toOption.isSome =
        false := by
    decide +kernel
  rcases hcreate : driftCreate driftPayload with ⟨error | answer, t⟩
  · rw [hcreate] at hsome
    cases hsome
  · have honce := h driftCrates drift _ t _ _ _ _ driftPayload none _ _ answer
      driftCrates_printsFloats driftCrates_rereads driftPayload_wellFormed (reachable_after _ _)
      hcreate
    have hsame : driftPayload.Same driftPayload :=
      same_of_text driftCrates_printsFloats _ _ rfl
    obtain ⟨value, _, hrun⟩ := (honce t .refl (sampleUuid 4) 13).1 driftPayload
      driftPayload_wellFormed hsame
    rw [hcreate, hrun] at hagain
    cases hagain

end CodexMonitor
