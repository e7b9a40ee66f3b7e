import CodexMonitor.Lib.Text
import CodexMonitor.Store.Schema

/-!
# Which messages are commands

The Discord gateway reads its configuration and every message as a JSON value.
`validate` refuses a configuration whose routes leave the source's scope; `parse`
turns a message of an allowed author into the command of one registered role, and
every other message into nothing.
-/

namespace CodexMonitor

namespace Discord

/-! ## Reading JSON -/

/-- `v[key]`: null where the value has no such field. -/
def field (v : Value) (key : String) : Value := (v.get key).getD .null

/-- The string under a key, empty where there is none. -/
def text (v : Value) (key : String) : String := (field v key).asStr.getD ""

/-- `v == true`. -/
def isTrue (v : Value) : Bool := v.asBool = some true

def isNull : Value → Bool
  | .null => true
  | _ => false

def isString (v : Value) : Bool := v.asStr.isSome

/-- An id as Discord writes it. -/
def numeric (s : String) : Bool :=
  17 ≤ s.utf8ByteSize && s.utf8ByteSize ≤ 20 && s.toList.all Char.isDigit

/-! ## The configuration -/

/-- The binding of a role: the configured one, or the source's own for the role. -/
def destination (c : Value) (source role : String) : String :=
  (field (field c "monitor_bindings") role).asStr.getD (source ++ "-" ++ role)

/-- What the configuration is checked against: the home directory and the UUID parser. -/
structure Host where
  home : String
  isUuid : String → Bool

/-- `Path::join`. -/
def join (base rest : String) : String :=
  if rest.toList.head? = some '/' ∨ base = "" then rest
  else if base.toList.getLast? = some '/' then base ++ rest
  else base ++ "/" ++ rest

/-- A path with the home directory for a leading `~/`. -/
def expand (host : Host) (p : String) : String :=
  match stripLead "~/" p with
  | some rest => join host.home (String.ofList rest)
  | none => p

/-- `^[a-z][a-z0-9-]{0,63}$`. -/
def isSource (source : String) : Bool :=
  match source.toList with
  | c :: cs => c.isLower && cs.length ≤ 63 && cs.all fun d => d.isLower || d.isDigit || d = '-'
  | [] => false

/-- `^[A-Za-z][A-Za-z0-9_-]{0,31}$`. -/
def isProjectName (name : String) : Bool :=
  match name.toList with
  | c :: cs => c.isAlpha && cs.length ≤ 31 && cs.all fun d => d.isAlphanum || d = '_' || d = '-'
  | [] => false

/-- `[1-9][0-9]*`. -/
def isVersion : List Char → Bool
  | d :: ds => d.isDigit && d ≠ '0' && ds.all Char.isDigit
  | [] => false

/-- `(?:-cli(?:-v[1-9][0-9]*)?)?`. -/
def isRelease (rest : List Char) : Bool :=
  rest = [] || rest = "-cli".toList ||
    ("-cli-v".toList.isPrefixOf rest && isVersion (rest.drop "-cli-v".toList.length))

/-- `^source-role(?:-cli(?:-v[1-9][0-9]*)?)?$`. -/
def inScope (source role target : String) : Bool :=
  match stripLead (source ++ "-" ++ role) target with
  | some rest => isRelease rest
  | none => false

def ensure (c : Prop) [Decidable c] (message : String) : Except String Unit :=
  if c then .ok () else .error message

def context {α : Type} (message : String) : Option α → Except String α
  | some a => .ok a
  | none => .error message

/-- The loop over the roles. -/
def validateRoles (host : Host) (c : Value) (source : String) :
    List (String × Value) → Except String Unit
  | [] => .ok ()
  | (role, thread) :: roles => do
      ensure (role ≠ "" ∧ role.toList.all Char.isLower) "invalid role"
      ensure (isNull thread ∨ thread.asStr.any host.isUuid) "invalid Codex thread"
      ensure (inScope source role (destination c source role)) "binding outside source/role scope"
      validateRoles host c source roles

/-- The loop over the registered threads. -/
def validateThreads (c : Value) : List (String × Value) → Except String Unit
  | [] => .ok ()
  | (id, role) :: threads => do
      ensure (numeric id ∧ role.asStr.any fun role => isString (field (field c "roles") role))
        "unregistered Discord thread"
      validateThreads c threads

/-- Refuse a configuration that the gateway cannot serve. -/
def validate (host : Host) (c : Value) (source : String) : Except String Unit := do
  ensure (isSource source) "invalid source"
  ensure (isProjectName (text c "project_name")) "invalid project name"
  ensure (numeric (text c "guild_id")) "invalid Discord ID"
  ensure (numeric (text c "channel_id")) "invalid Discord ID"
  ensure (numeric (text c "application_id")) "invalid Discord ID"
  let users ← context "allowed_user_ids required" (field c "allowed_user_ids").asArray
  ensure (users ≠ [] ∧ users.all fun v => v.asStr.any numeric) "explicit allowed user IDs required"
  let roles ← context "roles required" (field c "roles").asObject
  let threads ← context "discord_threads required" (field c "discord_threads").asObject
  validateRoles host c source roles
  validateThreads c threads
  -- lifecycle work is refused rather than dropped
  ensure (¬ isTrue (field c "request_lifecycle"))
    ("request_lifecycle observer is not supported by this native gateway; " ++
      "retain the existing adapter")
  ensure ((expand host (text c "state_file")).toList.head? = some '/')
    "absolute adapter state_file required"

/-! ## Commands -/

/-- The longest message, in characters. -/
def maxBody : Nat := 6000

/-- The command in a message. -/
structure Command where
  id : Value
  role : String
  body : String
  authorId : Value
  channelId : String

/-- `(?s)^!([a-z]+)\s+(.+)$`: the word after the mark, and what follows the white space. -/
def capture : List Char → Option (List Char × List Char)
  | '!' :: rest =>
      let word := rest.takeWhile Char.isLower
      let blanks := (rest.dropWhile Char.isLower).takeWhile isWhitespace
      let tail := (rest.dropWhile Char.isLower).dropWhile isWhitespace
      if word = [] ∨ blanks = [] then none
      else if tail ≠ [] then some (word, tail)
      -- the white space gives its last character back
      else if 2 ≤ blanks.length then some (word, blanks.drop (blanks.length - 1))
      else none
  | _ => none

/-- What a message says, or a request to look at the images it has instead. -/
def bodyOf (m : Value) : List Char :=
  let body := Text.trim isWhitespace (text m "content").toList
  if body = [] ∧ (field m "attachments").asArray.any fun items => items ≠ [] then
    "Please inspect the attached images.".toList
  else body

/-- The author is on the list, or everybody in a registered thread is. -/
def isAllowed (c m : Value) (role : Option String) : Bool :=
  (role.isSome && isTrue (field c "allow_all_thread_users")) ||
    (field c "allowed_user_ids").asArray.any fun users =>
      users.any fun v => v.asStr = some (text (field m "author") "id")

/-- The role a message is for: the thread's, which a leading word may repeat, or the word's. -/
def selected (role : Option String) (body : List Char) : Option String :=
  match role with
  | some role =>
      if maxBody < body.length then none
      else if (capture body).any fun found => String.ofList found.1 ≠ role then none
      else some role
  | none => (capture body).map fun found => String.ofList found.1

/-- The body of the command. -/
def commandBody (body : List Char) : List Char :=
  match capture body with
  | some (_, rest) => Text.trim isWhitespace rest
  | none => body

/-- The command of an accepted message. -/
def parse (c m : Value) : Option Command :=
  let channel := text m "channel_id"
  let author := field m "author"
  let role := (field (field c "discord_threads") channel).asStr
  let body := bodyOf m
  if text m "guild_id" ≠ text c "guild_id" ∨ isTrue (field author "bot") ∨
      ¬ isNull (field m "webhook_id") then none
  else if (field m "type").asU64.getD 0 ∉ [0, 19] then none
  else if isTrue (field c "threads_only") ∧ channel = text c "channel_id" then none
  else if channel ≠ text c "channel_id" ∧ role = none then none
  else if ¬ isAllowed c m role then none
  else if ¬ (numeric (text m "id") ∧ numeric (text author "id")) then none
  else match selected role body with
  | none => none
  | some role =>
      let body := commandBody body
      if body = [] ∨ maxBody < body.length ∨ ¬ isString (field (field c "roles") role) then none
      else some ⟨field m "id", role, String.ofList body, field author "id", channel⟩

/-! ## What is accepted -/

/-- Facts of a message that `parse` accepts, and of its command. -/
structure Accepts (c m : Value) (command : Command) : Prop where
  guild : text m "guild_id" = text c "guild_id"
  human : isTrue (field (field m "author") "bot") = false
  noWebhook : isNull (field m "webhook_id") = true
  channel : text m "channel_id" = text c "channel_id" ∨
    isString (field (field c "discord_threads") (text m "channel_id")) = true
  author : isAllowed c m (field (field c "discord_threads") (text m "channel_id")).asStr = true
  id : numeric (text m "id") = true
  authorId : numeric (text (field m "author") "id") = true
  role : isString (field (field c "roles") command.role) = true
  body_ne : command.body ≠ ""
  body_le : command.body.length ≤ maxBody
  id_eq : command.id = field m "id"
  authorId_eq : command.authorId = field (field m "author") "id"
  channelId_eq : command.channelId = text m "channel_id"

theorem parse_some {c m : Value} {command : Command} (h : parse c m = some command) :
    Accepts c m command := by
  unfold parse at h
  simp only at h
  split at h
  · cases h
  rename_i hsender
  split at h
  · cases h
  split at h
  · cases h
  split at h
  · cases h
  rename_i hchannel
  split at h
  · cases h
  rename_i hallowed
  split at h
  · cases h
  rename_i hids
  split at h
  · cases h
  rename_i role hrole
  split at h
  · cases h
  rename_i hbody
  obtain rfl := Option.some.inj h
  simp only [not_or, Decidable.not_not, Bool.not_eq_true, Bool.not_eq_false]
    at hsender hallowed hids hbody
  refine ⟨hsender.1, hsender.2.1, hsender.2.2, ?_, hallowed, hids.1, hids.2, hbody.2.2, ?_, ?_,
    rfl, rfl, rfl⟩
  · by_cases hmain : text m "channel_id" = text c "channel_id"
    · exact .inl hmain
    · refine .inr (Option.isSome_iff_ne_none.mpr fun hnone => ?_)
      exact hchannel ⟨hmain, hnone⟩
  · intro hempty
    refine hbody.1 ?_
    have hlist := congrArg String.toList hempty
    rwa [String.toList_ofList] at hlist
  · rw [String.length_ofList]
    exact Nat.le_of_not_lt hbody.2.1

/-- A nonempty text under a key is a string there. -/
theorem field_of_text {v : Value} {key : String} (h : text v key ≠ "") :
    field v key = .string (text v key) := by
  unfold text at h ⊢
  cases hfield : field v key with
  | string s => rfl
  | null => rw [hfield] at h; exact absurd rfl h
  | bool b => rw [hfield] at h; exact absurd rfl h
  | number n => rw [hfield] at h; exact absurd rfl h
  | array items => rw [hfield] at h; exact absurd rfl h
  | object fields => rw [hfield] at h; exact absurd rfl h

theorem numeric_ne_empty {s : String} (h : numeric s = true) : s ≠ "" := by
  intro hempty
  subst hempty
  exact absurd h (by decide)

/-! ## What a validated configuration promises -/

theorem ensure_ok {c : Prop} [Decidable c] {message : String} {u : Unit} :
    ensure c message = .ok u ↔ c := by
  unfold ensure
  split
  · rename_i hc
    exact iff_of_true rfl hc
  · rename_i hc
    exact iff_of_false (by intro h; cases h) hc

theorem bind_ok {ε α β : Type} {x : Except ε α} {f : α → Except ε β} {b : β} :
    (x >>= f) = .ok b ↔ ∃ a, x = .ok a ∧ f a = .ok b := by
  cases x with
  | error e =>
      refine iff_of_false ?_ ?_
      · intro h
        cases h
      · intro hor
        obtain ⟨_, h, _⟩ := hor
        cases h
  | ok a =>
      constructor
      · intro h
        exact ⟨a, rfl, h⟩
      · intro hor
        obtain ⟨_, h, hrest⟩ := hor
        cases h
        exact hrest

theorem validateRoles_scope {host : Host} {c : Value} {source : String}
    {roles : List (String × Value)} {u : Unit} (h : validateRoles host c source roles = .ok u) :
    ∀ entry ∈ roles, inScope source entry.1 (destination c source entry.1) = true := by
  induction roles with
  | nil => exact List.forall_mem_nil _
  | cons entry roles ih =>
      obtain ⟨role, thread⟩ := entry
      simp only [validateRoles, bind_ok, ensure_ok] at h
      obtain ⟨_, _, _, _, _, hscope, hrest⟩ := h
      intro entry hentry
      obtain rfl | hentry := List.mem_cons.mp hentry
      · exact hscope
      · exact ih hrest entry hentry

/-- The roles of a validated configuration are bound within the source's scope. -/
theorem validate_scope {host : Host} {c : Value} {source role : String} {u : Unit}
    (h : validate host c source = .ok u)
    (hrole : isString (field (field c "roles") role) = true) :
    inScope source role (destination c source role) = true := by
  simp only [validate, bind_ok, ensure_ok] at h
  obtain ⟨_, _, _, _, _, _, _, _, _, _, _, _, _, _, roles, hroles, _, _, _, hscope, _⟩ := h
  have hobject : field c "roles" = .object roles := by
    cases hfield : field c "roles" with
    | object fields =>
        rw [hfield] at hroles
        obtain rfl : fields = roles := Except.ok.inj hroles
        rfl
    | null => rw [hfield] at hroles; cases hroles
    | bool b => rw [hfield] at hroles; cases hroles
    | number n => rw [hfield] at hroles; cases hroles
    | string s => rw [hfield] at hroles; cases hroles
    | array items => rw [hfield] at hroles; cases hroles
  rw [hobject] at hrole
  unfold field Value.get at hrole
  cases hfind : roles.find? fun entry => entry.1 = role with
  | none =>
      simp only [hfind] at hrole
      cases hrole
  | some entry =>
      have hkey : entry.1 = role := of_decide_eq_true (List.find?_some hfind :)
      rw [← hkey]
      exact validateRoles_scope hscope entry (List.mem_of_find?_eq_some hfind)

end Discord

end CodexMonitor
