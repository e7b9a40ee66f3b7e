import CodexMonitor.Session.Pool

/-!
# How a delivery's outcome is classified

The error of a delivery says what may be done with the input.  Before the add's frame
is handed to a transport an error is `unavailable` or `permanent`; from then on a
delivery returns the submission of the server's result, leaves acceptance unknown, or
reports the explicit error that the server gave for the add's own request id.
-/

namespace CodexMonitor

namespace Session

/-! ## Before the handoff -/

/-- An error that says that nothing was accepted because nothing was handed over. -/
def IsEarly (error : SessionError) : Prop :=
  (∃ message, error = .unavailable message) ∨ ∃ message, error = .permanent message

section early

variable {crates : Crates} {endpoint thread method : String} {params : Value} {attempt : Attempt}
  {error : SessionError}

theorem dialError_early (text : String) (error : SessionError) : IsEarly (dialError text error) := by
  cases error with
  | permanent message => exact .inr ⟨message, rfl⟩
  | unavailable | retryable | uncertain => exact .inl ⟨_, rfl⟩

theorem probeError_early (text : String) (error : SessionError) :
    IsEarly (probeError text error) := by
  cases error with
  | permanent message => exact .inr ⟨message, rfl⟩
  | unavailable | retryable | uncertain => exact .inl ⟨_, rfl⟩

/-- An error of a step is the step's own or that of what follows it. -/
theorem bind_error {α β : Type} {x : Except SessionError α} {f : α → Except SessionError β} :
    (x >>= f) = .error error ↔ x = .error error ∨ ∃ a, x = .ok a ∧ f a = .error error := by
  cases x with
  | error e => simp [Bind.bind, Except.bind]
  | ok a => simp [Bind.bind, Except.bind]

theorem mapError_error {α : Type} {x : Except SessionError α}
    {f : SessionError → SessionError} (h : x.mapError f = .error error) :
    ∃ cause, error = f cause := by
  cases x with
  | error cause => exact ⟨cause, (Except.error.inj h).symm⟩
  | ok a => cases h

theorem early_permanent {message : String}
    (h : (.error (.permanent message) : Except SessionError Unit) = .error error) :
    IsEarly error :=
  .inr ⟨message, (Except.error.inj h).symm⟩

theorem early_unavailable {message : String}
    (h : (.error (.unavailable message) : Except SessionError Unit) = .error error) :
    IsEarly error :=
  .inl ⟨message, (Except.error.inj h).symm⟩

theorem validateEndpoint_early (h : validateEndpoint crates endpoint = .error error) :
    IsEarly error := by
  unfold validateEndpoint at h
  repeat' split at h
  all_goals first
    | exact early_permanent h
    | cases h

theorem openChild_early {what stream : String} {opening : Opening}
    (h : openChild what stream opening = .error error) : IsEarly error := by
  unfold openChild at h
  repeat' split at h
  all_goals first
    | exact early_unavailable h
    | cases h

theorem openTransport_early {opening : Opening}
    (h : openTransport endpoint opening = .error error) : IsEarly error := by
  unfold openTransport at h
  repeat' split at h
  all_goals first
    | exact openChild_early h
    | exact early_unavailable h
    | exact early_permanent h
    | cases h

theorem connect_early {dial : Dial} (h : connect crates endpoint dial = .error error) :
    IsEarly error := by
  unfold connect at h
  obtain hendpoint | ⟨_, _, h⟩ := bind_error.mp h
  · exact validateEndpoint_early hendpoint
  split at h
  · exact early_unavailable h
  obtain hopen | ⟨_, _, h⟩ := bind_error.mp h
  · exact openTransport_early hopen
  split at h
  · obtain ⟨cause, rfl⟩ := mapError_error h
    exact dialError_early _ cause
  · exact early_unavailable h
  · obtain rfl := Except.error.inj h
    exact dialError_early _ _

theorem connection_early {pooled : Pooled} {dial : Dial}
    (h : connection crates endpoint pooled dial = .error error) : IsEarly error := by
  unfold connection at h
  obtain hendpoint | ⟨_, _, h⟩ := bind_error.mp h
  · exact validateEndpoint_early hendpoint
  cases pooled with
  | usable => cases h
  | full => exact early_unavailable h
  | vacant => exact connect_early h

/-- A call that has not begun to write its frame fails early. -/
theorem call_early (hstarted : ¬ Started crates endpoint method params attempt)
    (h : call crates endpoint method params attempt = .error error) : IsEarly error := by
  unfold call at h
  by_cases hnamed : method = "" ∨ Char.ofNat 0 ∈ method.toList
  · rw [if_pos hnamed] at h
    exact .inr ⟨_, (Except.error.inj h).symm⟩
  rw [if_neg hnamed] at h
  by_cases hallowed : endpoint = "shared-local" ∧ method ∈ ownerMethods
  · rw [if_pos hallowed] at h
    exact .inr ⟨_, (Except.error.inj h).symm⟩
  rw [if_neg hallowed] at h
  by_cases hbounded : maxRequestBytes < encodedBytes crates params
  · rw [if_pos hbounded] at h
    exact .inr ⟨_, (Except.error.inj h).symm⟩
  rw [if_neg hbounded] at h
  obtain hconnection | ⟨_, hconnected, h⟩ := bind_error.mp h
  · exact connection_early hconnection
  unfold request at h
  by_cases hkind : EndpointKind.of endpoint = .sharedLocal ∧ method ∈ ownerMethods
  · rw [if_pos hkind] at h
    exact .inr ⟨_, (Except.error.inj h).symm⟩
  rw [if_neg hkind, requestRaw] at h
  by_cases hattached : attempt.exchange.attached = false
  · rw [if_pos hattached] at h
    exact .inl ⟨_, (Except.error.inj h).symm⟩
  rw [if_neg hattached] at h
  by_cases hframed : maxRequestBytes <
      encodedBytes crates (requestFrame attempt.exchange.requestId method params)
  · rw [send.eq_def, if_pos hframed] at h
    exact .inr ⟨_, (Except.error.inj h).symm⟩
  · exact absurd ⟨hnamed, hallowed, hbounded, hconnected, by simpa using hattached, hframed⟩
      hstarted

/-- A probe that fails does so early, whatever went wrong. -/
theorem checkTarget_early {probe : Attempt}
    (h : checkTarget crates endpoint thread probe = .error error) : IsEarly error := by
  unfold checkTarget at h
  split at h
  · exact .inr ⟨_, (Except.error.inj h).symm⟩
  split at h
  · obtain ⟨cause, rfl⟩ := mapError_error h
    exact probeError_early _ cause
  obtain hprobe | ⟨value, _, h⟩ := bind_error.mp h
  · obtain ⟨cause, rfl⟩ := mapError_error hprobe
    exact probeError_early _ cause
  obtain hloaded | ⟨loaded, _, h⟩ := bind_error.mp h
  · cases hdata : (value.get "data").bind Value.asArray with
    | none =>
        rw [hdata] at hloaded
        exact .inl ⟨_, (Except.error.inj hloaded).symm⟩
    | some items =>
        rw [hdata] at hloaded
        cases hloaded
  split at h
  · cases h
  · exact .inl ⟨_, (Except.error.inj h).symm⟩

end early

/-! ## The classification -/

/-- The server answers the very request of an exchange with an explicit error. -/
def AnswersWithError (crates : Crates) (x : Exchange) : Prop :=
  ∃ response failure, Answers crates x.requestId response x.incoming ∧
    RpcFailure.fromValue response = some failure

theorem Exchange.Refused.answer {crates : Crates} {x : Exchange} (h : x.Refused crates) :
    AnswersWithError crates x := by
  unfold Exchange.Refused at h
  split at h
  · rename_i failure hawait
    obtain ⟨response, hanswer, hfailure⟩ := awaitResponse_rpc.mp hawait
    exact ⟨response, failure, hanswer, hfailure⟩
  · exact h.elim

section outcomes

variable {crates : Crates} {endpoint thread clientId text : String} {probe add : Attempt}

/-- Without a handoff a delivery fails early. -/
theorem deliver_early (h : ¬ HandsOver crates endpoint thread clientId text probe add) :
    ∃ error, IsEarly error ∧
      deliver crates endpoint thread clientId text probe add = .error error := by
  unfold deliver
  cases hprobe : checkTarget crates endpoint thread probe with
  | error error => exact ⟨error, checkTarget_early hprobe, rfl⟩
  | ok target =>
      have hstarted : ¬ Started crates endpoint "thread/queue/add"
          (addParams thread clientId text) add := by
        intro hstarted
        exact h ⟨isOk_iff.mpr ⟨target, hprobe⟩, hstarted⟩
      cases hcall : call crates endpoint "thread/queue/add" (addParams thread clientId text) add with
      | error error => exact ⟨error, call_early hstarted hcall, rfl⟩
      | ok value => exact absurd hcall (not_started hstarted value)

/-- An add that is refused is never `unavailable`. -/
theorem classifyRpc_add (failure : RpcFailure) (message : String) :
    classifyRpc "thread/queue/add" failure ≠ .unavailable message := by
  unfold classifyRpc
  simp only [if_true]
  split
  · simp
  · split <;> simp

/-- A delivery that was handed over and refused reports the refusal. -/
theorem deliver_refused (h : HandsOver crates endpoint thread clientId text probe add)
    (hrefused : add.exchange.Refused crates) :
    ∃ failure, deliver crates endpoint thread clientId text probe add =
      .error (classifyRpc "thread/queue/add" failure) := by
  obtain ⟨hprobe, hstarted⟩ := h
  obtain ⟨target, htarget⟩ := isOk_iff.mp hprobe
  unfold Exchange.Refused at hrefused
  split at hrefused
  · rename_i failure hawait
    refine ⟨failure, ?_⟩
    have hsend : send crates (requestFrame add.exchange.requestId "thread/queue/add"
        (addParams thread clientId text)) add.exchange.write = .ok () := by
      rw [send.eq_def, if_neg hstarted.framed, hrefused]
    unfold deliver
    rw [htarget, hstarted.call_eq, hsend, hawait]
    rfl
  · exact hrefused.elim

/-- **Deliveries are classified soundly.**  Whatever the transports and the server do: `unavailable`
says that no byte of the add was handed over; `retryable` and `permanent` say so too, or the server
answered the add's request with an explicit error; and once the add was handed over, in part or
whole, and no such error came, the delivery returns the id in the result of that request or leaves
acceptance unknown.  What was not handed over is reported as `unavailable` or `permanent`. -/
theorem deliver_classified (crates : Crates) (endpoint thread clientId text : String)
    (probe add : Attempt) :
    (∀ message,
        deliver crates endpoint thread clientId text probe add = .error (.unavailable message) →
          ¬ HandsOver crates endpoint thread clientId text probe add) ∧
      (∀ message,
        deliver crates endpoint thread clientId text probe add = .error (.retryable message) ∨
            deliver crates endpoint thread clientId text probe add = .error (.permanent message) →
          ¬ HandsOver crates endpoint thread clientId text probe add ∨
            AnswersWithError crates add.exchange) ∧
      (HandsOver crates endpoint thread clientId text probe add →
        ¬ AnswersWithError crates add.exchange →
          (∃ id, deliver crates endpoint thread clientId text probe add = .ok id ∧
            NamesSubmission crates endpoint thread clientId text probe add id) ∨
          ∃ message, deliver crates endpoint thread clientId text probe add =
            .error (.uncertain message)) ∧
      (¬ HandsOver crates endpoint thread clientId text probe add →
        ∃ error, IsEarly error ∧
          deliver crates endpoint thread clientId text probe add = .error error) := by
  have hhanded : HandsOver crates endpoint thread clientId text probe add →
      ¬ add.exchange.Refused crates →
        (∃ id, deliver crates endpoint thread clientId text probe add = .ok id ∧
          NamesSubmission crates endpoint thread clientId text probe add id) ∨
        ∃ message, deliver crates endpoint thread clientId text probe add =
          .error (.uncertain message) := by
    intro h hrefused
    obtain ⟨id, hid⟩ | ⟨message, hmessage⟩ := deliver_handed h hrefused
    · exact .inl ⟨id, hid, deliver_ok.mp hid⟩
    · exact .inr ⟨message, hmessage⟩
  refine ⟨?_, ?_, fun h hnone => hhanded h fun hrefused => hnone hrefused.answer, deliver_early⟩
  · intro message hdeliver h
    by_cases hrefused : add.exchange.Refused crates
    · obtain ⟨failure, hfailure⟩ := deliver_refused h hrefused
      rw [hfailure] at hdeliver
      exact classifyRpc_add failure message (Except.error.inj hdeliver)
    · obtain ⟨id, hid, _⟩ | ⟨text, htext⟩ := hhanded h hrefused
      · rw [hid] at hdeliver
        cases hdeliver
      · rw [htext] at hdeliver
        cases hdeliver
  · intro message hdeliver
    by_cases h : HandsOver crates endpoint thread clientId text probe add
    · refine .inr ?_
      by_cases hrefused : add.exchange.Refused crates
      · exact hrefused.answer
      · obtain ⟨id, hid, _⟩ | ⟨text, htext⟩ := hhanded h hrefused
        · rw [hid] at hdeliver
          obtain hdeliver | hdeliver := hdeliver <;> cases hdeliver
        · rw [htext] at hdeliver
          obtain hdeliver | hdeliver := hdeliver <;> cases hdeliver
    · exact .inl h

end outcomes

end Session

end CodexMonitor
