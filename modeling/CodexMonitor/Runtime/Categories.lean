import CodexMonitor.Lib.Text
import CodexMonitor.Runtime.Http

/-!
# The status of a rule

The store's rules turn a call away with a text, and `storageError` finds its status by searching
the text.  A message is `Reported` when its rule's own words give a status of the 400s and the
client's text after them does not change it.  The words of five messages are matched by no
search, and the name of an unknown field can carry the words of another rule.
-/

namespace CodexMonitor

/-! ## Rules -/

def identifierLabels : List String :=
  ["binding", "event id", "event source", "event type", "trace_id", "thread", "source",
    "request key", "delivery id", "update id"]

def envelopeLabels : List String := ["event id", "event source", "event type", "trace_id"]

/-- The rules that turn a call of the intake away. -/
inductive Rule
  | identifier (label : String) (known : label ∈ identifierLabels)
  | identifierText (label : String) (known : label ∈ envelopeLabels)
  | required (field : String) (known : field ∈ requiredFields)
  | unknownField
  | object | hops | envelopeSize | binding | source | content | disabled | pending | rate | trace
  | payloadSize | expiry | event | requestSource | requestThread | requestKey | requests
  | state | revision | detail | request | updateContent | conflict | transition | updates
  | notifications

/-- The words of a rule's message. -/
def Rule.words : Rule → String
  | .identifier label _ => label ++ " must be a nonempty identifier"
  | .identifierText label _ => label ++ " must be an identifier"
  | .required field _ => "event requires " ++ field
  | .unknownField => "unknown event field "
  | .object => "event must be an object"
  | .hops => "hops must be an integer between 0 and 8"
  | .envelopeSize => "event exceeds 32 KiB"
  | .binding => "unknown binding"
  | .source => "source is not allowed for this binding"
  | .content => "event ID already used for different content"
  | .disabled => "binding is disabled"
  | .pending => "pending queue capacity reached"
  | .rate => "binding event rate limit reached"
  | .trace => "trace conversation budget reached"
  | .payloadSize => "request payload exceeds 16 KiB"
  | .expiry => "expiry must be finite and nonnegative"
  | .event => "event not found"
  | .requestSource => "request source does not match delivery"
  | .requestThread => "request thread does not match delivery"
  | .requestKey => "request key already belongs to different immutable content"
  | .requests => "request capacity reached"
  | .state => "unknown request state"
  | .revision => "expected revision must be nonnegative"
  | .detail => "request detail is empty, too long, or contains control characters"
  | .request => "request not found"
  | .updateContent => "update id already used for different content"
  | .conflict => "request revision conflict"
  | .transition => "request state transition is not allowed"
  | .updates => "request update capacity reached; terminal expiry slot is reserved"
  | .notifications => "request notification capacity reached"

/-- A rejection: the rule and the client's text after its words. -/
structure Rejection where
  rule : Rule
  quoted : String
  quotes : rule = .unknownField ∨ quoted = ""

def Rejection.message (r : Rejection) : String := r.rule.words ++ r.quoted

/-- The status under which a message reaches the client. -/
def statusOf (message : String) : Nat := (storageError (.bail message)).status

/-- The message is a rejection whose rule alone decides the status, and the status blames the
client. -/
def Reported (message : String) : Prop :=
  ∃ r : Rejection, r.message = message ∧ 400 ≤ statusOf r.rule.words ∧
    statusOf r.rule.words < 500 ∧ statusOf r.message = statusOf r.rule.words

/-! ## Searches -/

/-- The searches that come before the one for `unknown`, with the status that each one gives. -/
def earlierSearches : List (String × Nat) :=
  [("paused", 409), ("disabled", 409), ("removed", 409), ("conflict", 409), ("different", 409),
    ("duplicate", 409), ("exists", 409), ("state transition is not allowed", 409),
    ("capacity", 429), ("rate", 429), ("unknown request state", 400)]

def laterSearches : List (String × Nat) :=
  [("not found", 404), ("unknown", 404), ("invalid", 400), ("must", 400), ("exceed", 400),
    ("empty", 400), ("too long", 400), ("finite", 400), ("malformed", 400), ("paused", 400),
    ("removed", 400), ("disabled", 400), ("source", 400)]

def searches : List (String × Nat) := earlierSearches ++ laterSearches

/-- The status of the first search that finds its part. -/
def firstStatus (finds : String → Bool) : List (String × Nat) → Nat
  | [] => 503
  | (part, status) :: rest => if finds part then status else firstStatus finds rest

section first

variable {finds : String → Bool} {earlier : List (String × Nat)}

theorem firstStatus_append (h : ∀ search ∈ earlier, finds search.1 = false)
    (later : List (String × Nat)) :
    firstStatus finds (earlier ++ later) = firstStatus finds later := by
  induction earlier with
  | nil => rfl
  | cons search earlier ih =>
      have hfirst := h search List.mem_cons_self
      have hrest := ih fun other hother => h other (List.mem_cons_of_mem _ hother)
      simp [firstStatus, hfirst, hrest]

theorem firstStatus_mem (h : ¬ ∀ search ∈ earlier, finds search.1 = false)
    (later : List (String × Nat)) :
    ∃ search ∈ earlier, firstStatus finds (earlier ++ later) = search.2 := by
  induction earlier with
  | nil => simp at h
  | cons search earlier ih =>
      by_cases hfirst : finds search.1 = true
      · exact ⟨search, List.mem_cons_self, by simp [firstStatus, hfirst]⟩
      · have hrest : ¬ ∀ other ∈ earlier, finds other.1 = false := by
          intro hnone
          exact h (List.forall_mem_cons.mpr ⟨Bool.eq_false_of_not_eq_true hfirst, hnone⟩)
        obtain ⟨other, hother, hstatus⟩ := ih hrest
        exact ⟨other, List.mem_cons_of_mem _ hother, by simp [firstStatus, hfirst, hstatus]⟩

end first

/-- `storageError` tries the searches in order. -/
theorem statusOf_eq (message : String) :
    statusOf message = firstStatus (mentions (Text.toLowercase message)) searches := by
  unfold statusOf storageError
  obtain ⟨finds, hfinds⟩ : ∃ finds, mentions (Text.toLowercase message) = finds := ⟨_, rfl⟩
  simp only [StoreError.text, hfinds, searches, earlierSearches, laterSearches, List.cons_append, List.nil_append,
    firstStatus, Bool.or_eq_true, ite_or, apply_ite ApiError.status]

/-- The text of a message that `storageError` searches. -/
def lowered (message : String) : List Char := message.toList.flatMap Text.lowercase

theorem mentions_eq (message part : String) :
    mentions (Text.toLowercase message) part = decide (part.toList <:+: lowered message) := by
  unfold mentions lowered
  rw [Text.toList_toLowercase]

theorem lowered_append (s t : String) : lowered (s ++ t) = lowered s ++ lowered t := by
  simp [lowered, List.flatMap_append]

/-- A message blames the client as soon as some search finds its part. -/
theorem blames_of_found {message part : String} {status : Nat} (hpart : (part, status) ∈ searches)
    (hfound : part.toList <:+: lowered message) :
    400 ≤ statusOf message ∧ statusOf message < 500 := by
  have hsome : ¬ ∀ search ∈ searches, mentions (Text.toLowercase message) search.1 = false := by
    intro hnone
    have hmissed := hnone _ hpart
    rw [mentions_eq] at hmissed
    exact absurd hfound (of_decide_eq_false hmissed)
  obtain ⟨search, hsearch, hstatus⟩ := firstStatus_mem hsome []
  have hrange : ∀ search ∈ searches, 400 ≤ search.2 ∧ search.2 < 500 := by decide
  rw [List.append_nil, ← statusOf_eq] at hstatus
  rw [hstatus]
  exact hrange search hsearch

/-! ## The rules' own words -/

/-- Some search finds its part in the rule's words. -/
def Rule.isMatched : Rule → Bool
  | .required field _ => field = "source"
  | .trace => false
  | .requestThread => false
  | _ => true

theorem lowered_must (label : String) {words : String} (h : "must".toList <:+: lowered words) :
    "must".toList <:+: lowered (label ++ words) := by
  rw [lowered_append]
  exact List.infix_append_of_infix_right h

/-- A part that a search finds in the rule's words. -/
theorem Rule.found {rule : Rule} (h : rule.isMatched = true) :
    ∃ search ∈ searches, search.1.toList <:+: lowered rule.words := by
  cases rule with
  | identifier label known =>
      exact ⟨("must", 400), by decide, lowered_must label (by decide +kernel)⟩
  | identifierText label known =>
      exact ⟨("must", 400), by decide, lowered_must label (by decide +kernel)⟩
  | required field known =>
      obtain rfl : field = "source" := of_decide_eq_true h
      have hfound : "source".toList <:+: lowered ("event requires " ++ "source") := by
        decide +kernel
      exact ⟨("source", 400), by decide, hfound⟩
  | unknownField => exact ⟨("unknown", 404), by decide, by decide +kernel⟩
  | object => exact ⟨("must", 400), by decide, by decide +kernel⟩
  | hops => exact ⟨("must", 400), by decide, by decide +kernel⟩
  | envelopeSize => exact ⟨("exceed", 400), by decide, by decide +kernel⟩
  | binding => exact ⟨("unknown", 404), by decide, by decide +kernel⟩
  | source => exact ⟨("source", 400), by decide, by decide +kernel⟩
  | content => exact ⟨("different", 409), by decide, by decide +kernel⟩
  | disabled => exact ⟨("disabled", 409), by decide, by decide +kernel⟩
  | pending => exact ⟨("capacity", 429), by decide, by decide +kernel⟩
  | rate => exact ⟨("rate", 429), by decide, by decide +kernel⟩
  | trace => cases h
  | payloadSize => exact ⟨("exceed", 400), by decide, by decide +kernel⟩
  | expiry => exact ⟨("must", 400), by decide, by decide +kernel⟩
  | event => exact ⟨("not found", 404), by decide, by decide +kernel⟩
  | requestSource => exact ⟨("source", 400), by decide, by decide +kernel⟩
  | requestThread => cases h
  | requestKey => exact ⟨("different", 409), by decide, by decide +kernel⟩
  | requests => exact ⟨("capacity", 429), by decide, by decide +kernel⟩
  | state => exact ⟨("unknown", 404), by decide, by decide +kernel⟩
  | revision => exact ⟨("must", 400), by decide, by decide +kernel⟩
  | detail => exact ⟨("empty", 400), by decide, by decide +kernel⟩
  | request => exact ⟨("not found", 404), by decide, by decide +kernel⟩
  | updateContent => exact ⟨("different", 409), by decide, by decide +kernel⟩
  | conflict => exact ⟨("conflict", 409), by decide, by decide +kernel⟩
  | transition =>
      exact ⟨("state transition is not allowed", 409), by decide, by decide +kernel⟩
  | updates => exact ⟨("capacity", 429), by decide, by decide +kernel⟩
  | notifications => exact ⟨("capacity", 429), by decide, by decide +kernel⟩

/-- No search finds anything in the words of the other rules. -/
theorem Rule.outage {rule : Rule} (h : rule.isMatched = false) : statusOf rule.words = 503 := by
  have hwords : ∀ words ∈ ["event requires id", "event requires type", "event requires data",
      "trace conversation budget reached", "request thread does not match delivery"],
      firstStatus (fun part => decide (part.toList <:+: lowered words)) searches = 503 := by
    decide +kernel
  have hstatus : ∀ words, firstStatus (fun part => decide (part.toList <:+: lowered words)) searches
      = statusOf words := by
    intro words
    rw [statusOf_eq]
    congr 1
    funext part
    exact (mentions_eq words part).symm
  simp only [hstatus, List.forall_mem_cons] at hwords
  obtain ⟨hid, htype, hdata, htrace, hthread, _⟩ := hwords
  cases rule with
  | required field known =>
      have hother : field ≠ "source" := of_decide_eq_false h
      simp only [requiredFields, List.mem_cons, List.not_mem_nil, or_false] at known
      obtain rfl | rfl | rfl | rfl := known
      · exact hid
      · exact absurd rfl hother
      · exact htype
      · exact hdata
  | trace => exact htrace
  | requestThread => exact hthread
  | _ => cases h

/-- The rules whose message quotes nothing. -/
def Rule.plain (rule : Rule) : Rejection := ⟨rule, "", Or.inr rfl⟩

theorem Rule.message_plain (rule : Rule) : rule.plain.message = rule.words := String.append_empty

theorem Rule.reported {rule : Rule} (h : rule.isMatched = true) : Reported rule.words := by
  obtain ⟨search, hsearch, hfound⟩ := Rule.found h
  obtain ⟨hle, hlt⟩ := blames_of_found hsearch hfound
  exact ⟨rule.plain, rule.message_plain, hle, hlt, congrArg statusOf rule.message_plain⟩

theorem Rule.not_reported {rule : Rule} (h : rule.isMatched = false) : ¬ Reported rule.words := by
  intro hreported
  obtain ⟨r, hmessage, _, hlt, hstatus⟩ := hreported
  rw [hmessage, Rule.outage h] at hstatus
  omega

/-! ## The name of an unknown field -/

theorem earlierSearches_apart : ∀ search ∈ earlierSearches,
    Text.Apart search.1.toList (lowered Rule.unknownField.words) := by
  decide +kernel

/-- An earlier search finds its part in the name. -/
def Misleading (key : String) : Prop :=
  ∃ search ∈ earlierSearches, mentions (Text.toLowercase key) search.1 = true

instance (key : String) : Decidable (Misleading key) :=
  inferInstanceAs (Decidable (∃ search ∈ earlierSearches, _))

theorem mentions_unknownField {search : String × Nat} (hsearch : search ∈ earlierSearches)
    (key : String) :
    mentions (Text.toLowercase (Rule.unknownField.words ++ key)) search.1 =
      mentions (Text.toLowercase key) search.1 := by
  rw [mentions_eq, mentions_eq, lowered_append]
  exact decide_eq_decide.mpr (Text.infix_append_iff (earlierSearches_apart search hsearch) _)

/-- The message of an unknown field has the status of `not found` unless an earlier search finds
its part in the name. -/
theorem statusOf_unknownField (key : String) :
    statusOf (Rule.unknownField.words ++ key) = 404 ↔ ¬ Misleading key := by
  rw [statusOf_eq]
  by_cases hmisleading : Misleading key
  · obtain ⟨search, hsearch, hfinds⟩ := hmisleading
    have hsome : ¬ ∀ search ∈ earlierSearches,
        mentions (Text.toLowercase (Rule.unknownField.words ++ key)) search.1 = false := by
      intro hnone
      have hmissed := hnone search hsearch
      rw [mentions_unknownField hsearch, hfinds] at hmissed
      cases hmissed
    obtain ⟨found, hfound, hstatus⟩ := firstStatus_mem hsome laterSearches
    have hother : ∀ search ∈ earlierSearches, search.2 ≠ 404 := by decide
    have hstatus : firstStatus (mentions (Text.toLowercase (Rule.unknownField.words ++ key)))
        searches = found.2 := hstatus
    rw [hstatus]
    exact ⟨fun h => absurd h (hother found hfound), fun h => absurd ⟨search, hsearch, hfinds⟩ h⟩
  · have hnone : ∀ search ∈ earlierSearches,
        mentions (Text.toLowercase (Rule.unknownField.words ++ key)) search.1 = false := by
      intro search hsearch
      rw [mentions_unknownField hsearch]
      exact Bool.eq_false_of_not_eq_true fun hfinds => hmisleading ⟨search, hsearch, hfinds⟩
    have hunknown : mentions (Text.toLowercase (Rule.unknownField.words ++ key)) "unknown" = true := by
      rw [mentions_eq, lowered_append]
      exact decide_eq_true (List.infix_append_of_infix_left (by decide +kernel))
    have hstatus := firstStatus_append hnone laterSearches
    have hlater : firstStatus (mentions (Text.toLowercase (Rule.unknownField.words ++ key)))
        laterSearches = 404 := by
      unfold laterSearches
      simp only [firstStatus, hunknown, if_true, ite_self]
    exact ⟨fun _ => hmisleading, fun _ => hstatus.trans hlater⟩

/-- No other rule's words begin with those of an unknown field. -/
theorem Rule.unknownField_apart {rule : Rule} (h : rule ≠ .unknownField) :
    ¬ Rule.unknownField.words.toList <+: rule.words.toList := by
  have hidentifier : ∀ label ∈ identifierLabels,
      ¬ Rule.unknownField.words.toList <+: (label ++ " must be a nonempty identifier").toList := by
    decide +kernel
  have htext : ∀ label ∈ envelopeLabels,
      ¬ Rule.unknownField.words.toList <+: (label ++ " must be an identifier").toList := by
    decide +kernel
  have hrequired : ∀ field ∈ requiredFields,
      ¬ Rule.unknownField.words.toList <+: ("event requires " ++ field).toList := by
    decide +kernel
  cases rule with
  | identifier label known => exact hidentifier label known
  | identifierText label known => exact htext label known
  | required field known => exact hrequired field known
  | unknownField => exact absurd rfl h
  | _ => decide +kernel

theorem reported_unknownField (key : String) :
    Reported (Rule.unknownField.words ++ key) ↔ ¬ Misleading key := by
  rw [← statusOf_unknownField]
  have hwords : statusOf Rule.unknownField.words = 404 := by
    have hempty : ¬ Misleading "" := by decide +kernel
    have hstatus := (statusOf_unknownField "").mpr hempty
    rwa [String.append_empty] at hstatus
  constructor
  · intro hreported
    obtain ⟨⟨rule, quoted, hquotes⟩, hmessage, _, _, hstatus⟩ := hreported
    by_cases hrule : rule = .unknownField
    · subst hrule
      rw [← hmessage, hstatus]
      exact hwords
    · obtain rfl := hquotes.resolve_left hrule
      have hlist : rule.words.toList = Rule.unknownField.words.toList ++ key.toList := by
        have := congrArg String.toList hmessage
        simpa [Rejection.message] using this
      exact absurd ⟨key.toList, hlist.symm⟩ (Rule.unknownField_apart hrule)
  · intro hstatus
    refine ⟨⟨.unknownField, key, Or.inl rfl⟩, rfl, ?_, ?_, hstatus.trans hwords.symm⟩
    · show 400 ≤ statusOf Rule.unknownField.words
      omega
    · show statusOf Rule.unknownField.words < 500
      omega

end CodexMonitor
