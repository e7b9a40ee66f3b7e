import Mathlib.Logic.Function.Basic
import CodexMonitor.Lib.Runs
import CodexMonitor.Session.Transport

/-!
# Callers that share a connection

A pooled connection has a flag that says it is invalid, a transport, and a lock for each
of calls and transport.  Any number of callers hold the connection; each of them sends
requests and notifications on it, and may fail, run out of time or be cancelled wherever
it waits.  A guard around every exchange sets the flag when the exchange ends without
being complete; the pool hands out no connection whose flag is set.

The flag is read when the connection is fetched and never again, so a caller that fetched
it before goes on to write where another one was cut off: `waiting_writes_on_broken`.
`used_intact` says that this needs a caller cut off in the middle of its exchange while
another one holds the connection, or a fetch before the flag is set.
-/

namespace CodexMonitor

namespace Session

namespace Sharing

/-- Whether the boundary between two messages on a transport is known. -/
inductive Framing
  | intact
  | unknown
deriving DecidableEq, Repr

inductive Kind
  | request
  | notification
deriving DecidableEq, Repr

/-- How an exchange ends, as its `RequestGuard` sees it. -/
inductive Ending
  | complete
  /-- an error is returned -/
  | failed
  /-- the future is dropped -/
  | dropped
deriving DecidableEq, Repr

/-- Where a caller is in `request_raw` or `send_notification`. -/
inductive Phase
  /-- it does not hold the connection -/
  | away
  /-- it holds the connection and does nothing on it -/
  | held
  /-- it waits for the call lock -/
  | queued (kind : Kind)
  /-- it has the call lock and waits for the transport lock -/
  | serial (kind : Kind)
  /-- it has both locks and a transport to send on -/
  | ready (kind : Kind)
  | writing (kind : Kind)
  | reading
  /-- it closes the transport it took; it has the call lock -/
  | closing
  /-- it lets go of the transport lock, then of the call lock -/
  | letGo (ending : Ending)
  /-- it lets go of the transport lock after the call lock -/
  | releasing (ending : Ending)
  /-- it lets go of the call lock -/
  | unlocking (ending : Ending)
  /-- it holds no lock; its guard is dropped next -/
  | ending (ending : Ending)
deriving DecidableEq, Repr

/-- Writing a frame on the transport or reading from it. -/
def Phase.Uses : Phase → Prop
  | .writing _ | .reading => True
  | _ => False

def Phase.HasCall : Phase → Prop
  | .serial _ | .ready _ | .writing _ | .reading | .closing | .letGo _ | .unlocking _ => True
  | _ => False

def Phase.HasTransport : Phase → Prop
  | .ready _ | .writing _ | .reading | .letGo _ | .releasing _ => True
  | _ => False

/-- The transport lock was taken with a transport behind it. -/
def Phase.Attached : Phase → Prop
  | .ready _ | .writing _ | .reading => True
  | _ => False

theorem Phase.Attached.hasTransport {p : Phase} (h : p.Attached) : p.HasTransport := by
  cases p <;> first | exact trivial | exact h.elim

theorem Phase.Uses.attached {p : Phase} (h : p.Uses) : p.Attached := by
  cases p <;> first | exact trivial | exact h.elim

/-- The future is dropped and its guard is not yet. -/
def Phase.Dropping : Phase → Prop
  | .letGo e | .releasing e | .unlocking e | .ending e => e = .dropped
  | _ => False

/-- A connection and the callers that share it. -/
structure Shared where
  invalid : Bool
  transport : Option Framing
  callLock : Option Nat
  transportLock : Option Nat
  phase : Nat → Phase

/-- A connection as it enters the pool. -/
def fresh : Shared := ⟨false, some .intact, none, none, fun _ => .away⟩

/-- `usable`; a transport whose lock is taken counts as one. -/
def Shared.usable (s : Shared) : Bool :=
  if s.invalid then false
  else if s.transportLock.isSome then true
  else s.transport.isSome

def Shared.put (s : Shared) (caller : Nat) (phase : Phase) : Shared :=
  { s with phase := Function.update s.phase caller phase }

/-- What one `Transport::receive` of a request yields. -/
inductive Received
  /-- a message that does not answer the request -/
  | other
  /-- the answer, with a result or an error object -/
  | response
  /-- an error, the end of the stream or a malformed answer -/
  | stuck
deriving DecidableEq, Repr

inductive Act
  /-- `SessionPool::connection` answers with this connection -/
  | fetch (caller : Nat)
  /-- the caller lets go of the connection -/
  | leave (caller : Nat)
  /-- a request or a notification makes its guard and asks for the call lock -/
  | call (caller : Nat) (kind : Kind)
  | lockCall (caller : Nat)
  | lockTransport (caller : Nat)
  /-- the message is too large and nothing of it is written -/
  | refuse (caller : Nat)
  | write (caller : Nat)
  | wrote (caller : Nat) (write : Write)
  | receive (caller : Nat) (received : Received)
  /-- the deadline of a request passes in the middle of a write or a read -/
  | timeOut (caller : Nat)
  | closed (caller : Nat)
  | unlockTransport (caller : Nat)
  | unlockCall (caller : Nat)
  /-- the guard is dropped -/
  | finish (caller : Nat)
  /-- the future of the caller is dropped where it waits -/
  | cancel (caller : Nat)
  /-- the pool closes a connection it does not hand out any more -/
  | retire
deriving DecidableEq, Repr

def when (p : Prop) [Decidable p] (s : Shared) : Option Shared := if p then some s else none

@[simp] theorem when_eq_some {p : Prop} [Decidable p] {s t : Shared} :
    when p s = some t ↔ p ∧ s = t := by
  by_cases hp : p <;> simp [when, hp]

/-- The transport is taken out of the connection and its lock freed. -/
def Shared.takeTransport (s : Shared) : Shared :=
  { s with transport := none, transportLock := none }

/-- A caller's future is dropped: its locals go in the reverse order of their declaration,
the transport guard, the call lock and last the `RequestGuard`. -/
def Shared.cancelled (s : Shared) (caller : Nat) : Option Shared :=
  match s.phase caller with
  | .held => some (s.put caller .away)
  | .queued _ => some (s.put caller (.ending .dropped))
  | .serial _ => some (s.put caller (.unlocking .dropped))
  | .writing _ | .reading =>
      some { s.put caller (.letGo .dropped) with
        transport := s.transport.map fun _ => .unknown }
  | .closing => some (s.put caller (.unlocking .dropped))
  | _ => none

def step (s : Shared) : Act → Option Shared
  | .fetch c => when (s.phase c = .away ∧ s.usable = true) (s.put c .held)
  | .leave c => when (s.phase c = .held) (s.put c .away)
  | .call c kind => when (s.phase c = .held) (s.put c (.queued kind))
  | .lockCall c =>
      match s.phase c with
      | .queued kind =>
          when (s.callLock = none) { s.put c (.serial kind) with callLock := some c }
      | _ => none
  | .lockTransport c =>
      match s.phase c with
      | .serial kind =>
          when (s.transportLock = none)
            { s.put c (if s.transport.isSome then .ready kind else .letGo .failed) with
              transportLock := some c }
      | _ => none
  | .refuse c =>
      match s.phase c with
      -- a request drops the call lock before it returns
      | .ready .request => some { s.put c (.releasing .failed) with callLock := none }
      | .ready .notification => some (s.put c (.letGo .failed))
      | _ => none
  | .write c =>
      match s.phase c with
      | .ready kind => some (s.put c (.writing kind))
      | _ => none
  | .wrote c write =>
      match s.phase c, write with
      | .writing .request, .done => some (s.put c .reading)
      | .writing .notification, .done => some (s.put c (.letGo .complete))
      | .writing _, .failed _ | .writing _, .flushFailed _ =>
          some (s.takeTransport.put c .closing)
      | _, _ => none
  | .receive c received =>
      match s.phase c, received with
      | .reading, .other => some s
      | .reading, .response =>
          some { s.put c (.releasing .complete) with callLock := none }
      | .reading, .stuck => some (s.takeTransport.put c .closing)
      | _, _ => none
  | .timeOut c =>
      match s.phase c with
      | .writing .request | .reading => some (s.takeTransport.put c .closing)
      | _ => none
  | .closed c => when (s.phase c = .closing) (s.put c (.unlocking .failed))
  | .unlockTransport c =>
      match s.phase c with
      | .letGo e => some { s.put c (.unlocking e) with transportLock := none }
      | .releasing e => some { s.put c (.ending e) with transportLock := none }
      | _ => none
  | .unlockCall c =>
      match s.phase c with
      | .unlocking e => some { s.put c (.ending e) with callLock := none }
      | _ => none
  | .finish c =>
      match s.phase c with
      | .ending .complete => some (s.put c .held)
      | .ending .failed => some { s.put c .held with invalid := true }
      | .ending .dropped => some { s.put c .away with invalid := true }
      | _ => none
  | .cancel c => s.cancelled c
  | .retire =>
      when (s.callLock = none ∧ s.transportLock = none) { s with transport := none }

/-! ## Who holds which lock -/

@[simp] theorem put_self (s : Shared) (c : Nat) (p : Phase) : (s.put c p).phase c = p := by
  simp [Shared.put]

@[simp] theorem put_other {s : Shared} {c d : Nat} (p : Phase) (h : d ≠ c) :
    (s.put c p).phase d = s.phase d := by
  simp [Shared.put, h]

/-- The locks are held by the callers that are where a lock is held, and a caller that
sends or reads has a transport. -/
structure Locked (s : Shared) : Prop where
  call : ∀ c, (s.phase c).HasCall → s.callLock = some c
  transport : ∀ c, (s.phase c).HasTransport → s.transportLock = some c
  attached : ∀ c, (s.phase c).Attached → s.transport.isSome

theorem locked_fresh : Locked fresh :=
  ⟨fun _ h => h.elim, fun _ h => h.elim, fun _ h => h.elim⟩

/-- What one action of a caller leaves: its own phase is new, and the locks and the transport
change only where the caller has them or they are free. -/
theorem Locked.act {s t : Shared} (h : Locked s) {c : Nat} {p : Phase}
    (hphase : t.phase = (s.put c p).phase)
    (hcall : t.callLock = s.callLock ∨ s.callLock = none ∨ s.callLock = some c)
    (htransport : t.transportLock = s.transportLock ∨ s.transportLock = none ∨
      s.transportLock = some c)
    (hkept : t.transport.isSome = s.transport.isSome ∨ s.transportLock = some c)
    (hp : p.HasCall → t.callLock = some c)
    (hp' : p.HasTransport → t.transportLock = some c)
    (hp'' : p.Attached → t.transport.isSome) : Locked t := by
  have hother : ∀ d, d ≠ c → t.phase d = s.phase d := by
    intro d hd
    rw [hphase, put_other p hd]
  have hself : t.phase c = p := by rw [hphase, put_self]
  constructor
  · intro d hd
    by_cases hdc : d = c
    · subst hdc
      exact hp (hself ▸ hd)
    · have hs := h.call d (hother d hdc ▸ hd)
      grind
  · intro d hd
    by_cases hdc : d = c
    · subst hdc
      exact hp' (hself ▸ hd)
    · have hs := h.transport d (hother d hdc ▸ hd)
      grind
  · intro d hd
    by_cases hdc : d = c
    · subst hdc
      exact hp'' (hself ▸ hd)
    · have hd' : (s.phase d).Attached := hother d hdc ▸ hd
      have hs := h.attached d hd'
      have hlock := h.transport d hd'.hasTransport
      grind

/-- A caller that takes or frees no lock goes to a phase that needs none it does not have. -/
theorem Locked.stay {s t : Shared} (h : Locked s) {c : Nat} {p q : Phase} (hc : s.phase c = q)
    (hphase : t.phase = (s.put c p).phase) (hcall : t.callLock = s.callLock)
    (htransport : t.transportLock = s.transportLock)
    (hkept : t.transport.isSome = s.transport.isSome) (hp : p.HasCall → q.HasCall)
    (hp' : p.HasTransport → q.HasTransport) (hp'' : p.Attached → q.Attached) : Locked t := by
  subst hc
  refine h.act hphase (.inl hcall) (.inl htransport) (.inl hkept) ?_ ?_ ?_
  · intro hq
    rw [hcall]
    exact h.call c (hp hq)
  · intro hq
    rw [htransport]
    exact h.transport c (hp' hq)
  · intro hq
    rw [hkept]
    exact h.attached c (hp'' hq)

/-- A caller that has both locks takes the transport and frees its lock. -/
theorem Locked.take {s : Shared} (h : Locked s) {c : Nat} {q : Phase} (hc : s.phase c = q)
    (hcall : q.HasCall) (htransport : q.HasTransport) :
    Locked (s.takeTransport.put c .closing) := by
  subst hc
  have hlock := h.transport c htransport
  exact h.act rfl (.inl rfl) (.inr (.inr hlock)) (.inr hlock) (fun _ => h.call c hcall) nofun nofun

theorem Locked.cancelled {s t : Shared} {c : Nat} (h : Locked s)
    (ht : s.cancelled c = some t) : Locked t := by
  simp only [Shared.cancelled] at ht
  split at ht
  case h_7 => cases ht
  all_goals
    rename_i hc
    obtain rfl := Option.some.inj ht
  · exact h.stay hc rfl rfl rfl rfl nofun nofun nofun
  · exact h.stay hc rfl rfl rfl rfl nofun nofun nofun
  · exact h.stay hc rfl rfl rfl rfl (fun _ => trivial) nofun nofun
  · exact h.stay hc rfl rfl rfl (by simp) (fun _ => trivial) (fun _ => trivial) nofun
  · exact h.stay hc rfl rfl rfl (by simp) (fun _ => trivial) (fun _ => trivial) nofun
  · exact h.stay hc rfl rfl rfl rfl (fun _ => trivial) nofun nofun

/-- Every action keeps the locks with the callers that are where a lock is held. -/
theorem Locked.step {s t : Shared} {act : Act} (h : Locked s) (ht : step s act = some t) :
    Locked t := by
  cases act with
  | fetch c | leave c | call c kind =>
      simp only [Sharing.step, when_eq_some] at ht
      obtain ⟨-, rfl⟩ := ht
      exact h.stay rfl rfl rfl rfl rfl nofun nofun nofun
  | closed c =>
      simp only [Sharing.step, when_eq_some] at ht
      obtain ⟨hc, rfl⟩ := ht
      exact h.stay hc rfl rfl rfl rfl (fun _ => trivial) nofun nofun
  | retire =>
      simp only [Sharing.step, when_eq_some] at ht
      obtain ⟨⟨-, hfree⟩, rfl⟩ := ht
      refine ⟨h.call, h.transport, fun c hc => ?_⟩
      have hlock := h.transport c (hc.hasTransport)
      rw [hfree] at hlock
      cases hlock
  | cancel c => exact h.cancelled ht
  | lockCall c =>
      simp only [Sharing.step] at ht
      split at ht
      · simp only [when_eq_some] at ht
        obtain ⟨hfree, rfl⟩ := ht
        exact h.act (c := c) rfl (.inr (.inl hfree)) (.inl rfl) (.inl rfl) (fun _ => rfl) nofun
          nofun
      · cases ht
  | lockTransport c =>
      simp only [Sharing.step] at ht
      split at ht
      · rename_i kind hc
        simp only [when_eq_some] at ht
        obtain ⟨hfree, rfl⟩ := ht
        have hlock : s.callLock = some c := h.call c (by simp [hc, Phase.HasCall])
        refine h.act (c := c) rfl (.inl rfl) (.inr (.inl hfree)) (.inl rfl) (fun _ => hlock)
          (fun _ => rfl) ?_
        by_cases hsome : s.transport.isSome
        · exact fun _ => hsome
        · simp [hsome, Phase.Attached]
      · cases ht
  | refuse c =>
      simp only [Sharing.step] at ht
      split at ht
      · rename_i hc
        cases ht
        have hlock : s.callLock = some c := h.call c (by simp [hc, Phase.HasCall])
        have hown : s.transportLock = some c := h.transport c (by simp [hc, Phase.HasTransport])
        exact h.act (c := c) rfl (.inr (.inr hlock)) (.inl rfl) (.inl rfl) nofun (fun _ => hown)
          nofun
      · rename_i hc
        cases ht
        exact h.stay hc rfl rfl rfl rfl (fun _ => trivial) (fun _ => trivial) nofun
      · cases ht
  | write c =>
      simp only [Sharing.step] at ht
      split at ht
      · rename_i hc
        cases ht
        exact h.stay hc rfl rfl rfl rfl (fun _ => trivial) (fun _ => trivial) (fun _ => trivial)
      · cases ht
  | wrote c write =>
      simp only [Sharing.step] at ht
      split at ht
      case h_5 => cases ht
      all_goals
        rename_i hc
        cases ht
      · exact h.stay hc rfl rfl rfl rfl (fun _ => trivial) (fun _ => trivial) (fun _ => trivial)
      · exact h.stay hc rfl rfl rfl rfl (fun _ => trivial) (fun _ => trivial) nofun
      · exact h.take hc trivial trivial
      · exact h.take hc trivial trivial
  | receive c received =>
      simp only [Sharing.step] at ht
      split at ht
      · cases ht
        exact h
      · rename_i hc
        cases ht
        have hlock : s.callLock = some c := h.call c (by simp [hc, Phase.HasCall])
        have hown : s.transportLock = some c := h.transport c (by simp [hc, Phase.HasTransport])
        exact h.act (c := c) rfl (.inr (.inr hlock)) (.inl rfl) (.inl rfl) nofun (fun _ => hown)
          nofun
      · rename_i hc
        cases ht
        exact h.take hc trivial trivial
      · cases ht
  | timeOut c =>
      simp only [Sharing.step] at ht
      split at ht
      case h_3 => cases ht
      all_goals
        rename_i hc
        cases ht
        exact h.take hc trivial trivial
  | unlockTransport c =>
      simp only [Sharing.step] at ht
      split at ht
      case h_3 => cases ht
      all_goals
        rename_i hc
        cases ht
        have hown : s.transportLock = some c := h.transport c (by simp [hc, Phase.HasTransport])
      · have hlock : s.callLock = some c := h.call c (by simp [hc, Phase.HasCall])
        exact h.act (c := c) rfl (.inl rfl) (.inr (.inr hown)) (.inl rfl) (fun _ => hlock) nofun
          nofun
      · exact h.act (c := c) rfl (.inl rfl) (.inr (.inr hown)) (.inl rfl) nofun nofun nofun
  | unlockCall c =>
      simp only [Sharing.step] at ht
      split at ht
      · rename_i hc
        cases ht
        have hlock : s.callLock = some c := h.call c (by simp [hc, Phase.HasCall])
        exact h.act (c := c) rfl (.inr (.inr hlock)) (.inl rfl) (.inl rfl) nofun nofun nofun
      · cases ht
  | finish c =>
      simp only [Sharing.step] at ht
      split at ht
      case h_4 => cases ht
      all_goals
        rename_i hc
        cases ht
        exact h.stay hc rfl rfl rfl rfl nofun nofun nofun

/-! ## A transport whose boundary is lost -/

/-- A caller that does nothing on the connection any more than let go of it. -/
def Phase.Gone (p : Phase) : Prop := p = .away ∨ p.Dropping

/-- While the boundary is unknown nobody holds the connection, and nobody can fetch it once
the guards are dropped. -/
structure Sealed (s : Shared) : Prop where
  gone : s.transport = some .unknown → ∀ c, (s.phase c).Gone
  marked : s.transport = some .unknown → s.invalid = true ∨ ∃ c, (s.phase c).Dropping

theorem sealed_fresh : Sealed fresh := ⟨nofun, nofun⟩

/-- A caller is cut off in the middle of its exchange only while no other one holds the
connection, and none fetches it before the guard is dropped. -/
def Quiet (s : Shared) : Act → Prop
  | .cancel c => (s.phase c).Uses → ∀ d, d ≠ c → (s.phase d).Gone
  | .fetch _ => s.transport = some .unknown → ∀ d, ¬ (s.phase d).Dropping
  | _ => True

/-- Only a caller cut off where it writes or reads loses the boundary. -/
theorem step_loses {s t : Shared} {act : Act} (ht : step s act = some t)
    (hs : s.transport ≠ some .unknown) (hlost : t.transport = some .unknown) :
    ∃ c, act = .cancel c ∧ (s.phase c).Uses ∧ t.phase = (s.put c (.letGo .dropped)).phase := by
  have hkeep : t.transport ≠ s.transport := by
    intro heq
    exact hs (heq ▸ hlost)
  cases act with
  | cancel c =>
      simp only [Sharing.step, Shared.cancelled] at ht
      split at ht
      case h_4 | h_5 =>
        rename_i hc
        obtain rfl := Option.some.inj ht
        exact ⟨c, rfl, by simp [hc, Phase.Uses], rfl⟩
      case h_7 => cases ht
      all_goals
        obtain rfl := Option.some.inj ht
        exact absurd rfl hkeep
  | fetch c | leave c | call c kind | closed c =>
      simp only [Sharing.step, when_eq_some] at ht
      obtain ⟨-, rfl⟩ := ht
      exact absurd rfl hkeep
  | retire =>
      simp only [Sharing.step, when_eq_some] at ht
      obtain ⟨-, rfl⟩ := ht
      cases hlost
  | lockCall c | lockTransport c =>
      simp only [Sharing.step] at ht
      split at ht
      · simp only [when_eq_some] at ht
        obtain ⟨-, rfl⟩ := ht
        exact absurd rfl hkeep
      · cases ht
  | refuse c | write c | wrote c write | receive c received | timeOut c | unlockTransport c
  | unlockCall c | finish c =>
      simp only [Sharing.step] at ht
      split at ht <;> cases ht <;> first | exact absurd rfl hkeep | cases hlost

theorem Phase.Dropping.ends {p : Phase} (h : p.Dropping) :
    p = .letGo .dropped ∨ p = .releasing .dropped ∨ p = .unlocking .dropped ∨
      p = .ending .dropped := by
  cases p <;> simp_all [Phase.Dropping]

/-- What can be done once the boundary is lost and nobody holds the connection: it is fetched
again, it is closed, or a caller that was cut off goes on letting go of it. -/
theorem step_gone {s t : Shared} {act : Act} (hs : ∀ c, (s.phase c).Gone)
    (ht : step s act = some t) :
    (∃ c, act = .fetch c ∧ s.usable = true) ∨ t.transport = none ∨
      ∃ c p, t.phase = (s.put c p).phase ∧
        (p.Dropping ∧ t.invalid = s.invalid ∨ p = .away ∧ t.invalid = true) := by
  have hpast : ∀ c p, s.phase c = p → p.Gone := by
    intro c p hc
    exact hc ▸ hs c
  cases act with
  | fetch c =>
      simp only [Sharing.step, when_eq_some] at ht
      exact Or.inl ⟨c, rfl, ht.1.2⟩
  | retire =>
      simp only [Sharing.step, when_eq_some] at ht
      obtain ⟨-, rfl⟩ := ht
      exact Or.inr (Or.inl rfl)
  | leave c | call c kind | closed c =>
      simp only [Sharing.step, when_eq_some] at ht
      have hgone := hpast c _ ht.1
      simp [Phase.Gone, Phase.Dropping] at hgone
  | cancel c =>
      simp only [Sharing.step, Shared.cancelled] at ht
      split at ht
      case h_7 => cases ht
      all_goals
        rename_i hc
        have hgone := hpast c _ hc
        simp [Phase.Gone, Phase.Dropping] at hgone
  | lockCall c | lockTransport c | refuse c | write c | wrote c write | receive c received
  | timeOut c =>
      simp only [Sharing.step] at ht
      split at ht
      all_goals first
        | cases ht
          done
        | rename_i hc
          have hgone := hpast c _ hc
          simp [Phase.Gone, Phase.Dropping] at hgone
  | unlockTransport c =>
      simp only [Sharing.step] at ht
      split at ht
      case h_3 => cases ht
      all_goals
        rename_i e hc
        have hgone := (hpast c _ hc).resolve_left nofun
        cases ht
        exact Or.inr (Or.inr ⟨c, _, rfl, Or.inl ⟨hgone, rfl⟩⟩)
  | unlockCall c =>
      simp only [Sharing.step] at ht
      split at ht
      · rename_i e hc
        have hgone := (hpast c _ hc).resolve_left nofun
        cases ht
        exact Or.inr (Or.inr ⟨c, _, rfl, Or.inl ⟨hgone, rfl⟩⟩)
      · cases ht
  | finish c =>
      simp only [Sharing.step] at ht
      split at ht
      case h_4 => cases ht
      case h_3 =>
        cases ht
        exact Or.inr (Or.inr ⟨c, _, rfl, Or.inr ⟨rfl, rfl⟩⟩)
      all_goals
        rename_i hc
        have hgone := hpast c _ hc
        simp [Phase.Gone, Phase.Dropping] at hgone

theorem Sealed.step {s t : Shared} {act : Act} (h : Sealed s) (hquiet : Quiet s act)
    (ht : step s act = some t) : Sealed t := by
  by_cases hbroken : s.transport = some .unknown
  · obtain ⟨c, rfl, husable⟩ | hnone | ⟨c, p, hphase, hp⟩ := step_gone (h.gone hbroken) ht
    · -- the flag is not set, so a guard is still to be dropped
      have hvalid : ¬ s.invalid = true := by
        intro hinvalid
        simp [Shared.usable, hinvalid] at husable
      obtain ⟨d, hd⟩ := (h.marked hbroken).resolve_left hvalid
      exact absurd hd (hquiet hbroken d)
    · exact ⟨fun hlost => by simp [hnone] at hlost, fun hlost => by simp [hnone] at hlost⟩
    · have hgone : ∀ d, (t.phase d).Gone := by
        intro d
        rw [hphase]
        by_cases hd : d = c
        · subst hd
          rw [put_self]
          exact hp.symm.imp And.left And.left
        · rw [put_other p hd]
          exact h.gone hbroken d
      refine ⟨fun _ => hgone, fun _ => ?_⟩
      obtain ⟨hdrop, -⟩ | ⟨-, hmark⟩ := hp
      · exact Or.inr ⟨c, by rwa [hphase, put_self]⟩
      · exact Or.inl hmark
  · constructor
    · intro hlost d
      obtain ⟨c, rfl, huses, hphase⟩ := step_loses ht hbroken hlost
      rw [hphase]
      by_cases hd : d = c
      · subst hd
        rw [put_self]
        exact Or.inr rfl
      · rw [put_other _ hd]
        exact hquiet huses d hd
    · intro hlost
      obtain ⟨c, -, -, hphase⟩ := step_loses ht hbroken hlost
      refine Or.inr ⟨c, ?_⟩
      rw [hphase, put_self]
      rfl

/-- In a run where a caller is cut off in the middle of its exchange only while no other one
holds the connection, and none fetches it until the guard is dropped, whoever writes a frame
or reads a response does it on a transport whose boundary is known. -/
theorem used_intact {s : Shared} (hrun : Runs.LeadsBy step Quiet fresh s) {c : Nat}
    (hc : (s.phase c).Uses) : s.transport = some .intact := by
  have hinv : Locked s ∧ Sealed s :=
    Runs.LeadsBy.invariant (P := fun u => Locked u ∧ Sealed u)
      (fun u a v hu hok hv => ⟨hu.1.step hv, hu.2.step hok hv⟩) hrun ⟨locked_fresh, sealed_fresh⟩
  obtain ⟨framing, hframing⟩ := Option.isSome_iff_exists.mp (hinv.1.attached c hc.attached)
  cases framing with
  | intact => exact hframing
  | unknown =>
      obtain haway | hdrop := hinv.2.gone hframing c
      · rw [haway] at hc
        exact hc.elim
      · obtain h | h | h | h := hdrop.ends <;> simp [h, Phase.Uses] at hc

/-- Two callers fetch the connection; one of them sends its request and waits for the answer,
the other one for the call lock. -/
def sampleWaiting : List Act :=
  [.fetch 0, .fetch 1, .call 0 .request, .lockCall 0, .lockTransport 0, .write 0, .call 1 .request,
    .wrote 0 .done]

/-- The first one is cut off; its locks go and its guard sets the flag.  The second one goes on. -/
def sampleCutOff : List Act :=
  [.cancel 0, .unlockTransport 0, .unlockCall 0, .finish 0, .lockCall 1, .lockTransport 1, .write 1]

/-- The caller that waits for the call lock is cancelled, which is allowed: it has sent nothing. -/
theorem used_intact_alone :
    ∃ s t : Shared, s.phase 1 = .queued .request ∧ step s (.cancel 1) = some t ∧
      (t.phase 0).Uses ∧ t.transport = some .intact := by
  have hmove : ∀ {s t : Shared} (act : Act), Quiet s act → step s act = some t →
      Runs.Moves step Quiet s t := fun act hquiet ht => ⟨act, hquiet, ht⟩
  have hrun : ∃ s, Runs.LeadsBy step Quiet fresh s ∧ s.phase 1 = .queued .request ∧
      ∃ t, step s (.cancel 1) = some t ∧ (t.phase 0).Uses := by
    have hfirst := Relation.ReflTransGen.single (hmove (s := fresh) (.fetch 0) nofun rfl)
    have hboth := hfirst.tail (hmove (.fetch 1) nofun rfl)
    have hcall := hboth.tail (hmove (.call 0 .request) trivial rfl)
    have hlock := hcall.tail (hmove (.lockCall 0) trivial rfl)
    have hready := hlock.tail (hmove (.lockTransport 0) trivial rfl)
    have hwrite := hready.tail (hmove (.write 0) trivial rfl)
    have hwaits := hwrite.tail (hmove (.call 1 .request) trivial rfl)
    exact ⟨_, hwaits, rfl, _, rfl, trivial⟩
  obtain ⟨s, hrun, hqueued, t, hcancel, hc⟩ := hrun
  have hquiet : Quiet s (.cancel 1) := by
    intro huses
    rw [hqueued] at huses
    exact huses.elim
  exact ⟨s, t, hqueued, hcancel, hc, used_intact (hrun.tail ⟨.cancel 1, hquiet, hcancel⟩) hc⟩

/-- The flag is set and the boundary unknown, and a caller that waited for the call lock
writes its frame. -/
theorem waiting_writes_on_broken :
    ∃ s, Runs.Leads step fresh s ∧ s.invalid = true ∧ s.transport = some .unknown ∧
      s.phase 1 = .writing .request := by
  have hrun : Runs.run? step (sampleWaiting ++ sampleCutOff) fresh = some _ := rfl
  exact ⟨_, Runs.leads_run hrun, rfl, rfl, rfl⟩

end Sharing

end Session

end CodexMonitor
