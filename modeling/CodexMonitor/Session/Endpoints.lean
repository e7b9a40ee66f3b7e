import CodexMonitor.Session.Connection
import CodexMonitor.Store.Routes

/-!
# Endpoint checks

An endpoint is checked by the store when a route is registered, by the session when
an event is delivered, by the Python runtime before a migration, and by `reconnect`,
which works on local endpoints.  The store accepts no endpoint the session rejects.
The other two differ from the session in how they spell hosts and fragments.
-/

namespace CodexMonitor

namespace Endpoints

open Transaction

/-! ## The checks -/

/-- What `urlsplit` finds, with the host name and the port read. -/
structure SplitResult where
  scheme : String
  netloc : String
  hostname : Option String
  username : Option String
  password : Option String
  fragment : String
deriving DecidableEq, Repr

/-- `str.isspace`, of one character. -/
def isSpace (c : Char) : Bool := isWhitespace c || (0x1c ≤ c.toNat && c.toNat ≤ 0x1f)

/-- The alias of `_SSH_ALIAS`. -/
def isAlias : List Char → Bool
  | [] => false
  | c :: rest => c.isAlphanum ∧ rest.length ≤ 99 ∧
      rest.all fun d => d.isAlphanum ∨ d ∈ ['_', '.', '-']

def loopbackNames : List String := ["127.0.0.1", "localhost", "::1"]

/-- `validate_endpoint` of the Python runtime; `urlsplit` gives none where it, or reading the host
or the port, raises `ValueError`. -/
def pythonValidate (urlsplit : String → Option SplitResult) (endpoint : String) :
    Except String Unit :=
  if endpoint = "" ∨ Char.ofNat 0 ∈ endpoint.toList then
    .error "endpoint must be a valid local or App Server transport"
  else if endpoint ∈ ["shared-local", "local", "unix://"] then .ok ()
  else if let some path := stripLead "unix://" endpoint then
    if path.head? ≠ some '/' ∨ Char.ofNat 0 ∈ path then
      .error "Unix endpoint must use an absolute socket path"
    else .ok ()
  else if (stripLead "ws://" endpoint).isSome ∨ (stripLead "wss://" endpoint).isSome then
    if endpoint.toList.any isSpace then .error "endpoint URL is malformed"
    else
      match urlsplit endpoint with
      | none => .error "endpoint URL is malformed"
      | some parsed =>
          if parsed.scheme ∉ ["ws", "wss"] ∨ parsed.netloc = "" ∨
              parsed.netloc.toList.getLast? = some ':' ∨ parsed.hostname.getD "" = "" ∨
              parsed.username ≠ none ∨ parsed.password ≠ none ∨ parsed.fragment ≠ "" then
            .error "endpoint URL is malformed or contains credentials"
          else if parsed.scheme = "ws" ∧
              Text.toLowercase (parsed.hostname.getD "") ∉ loopbackNames then
            .error "ws endpoint must use a loopback host; use wss:// for remote hosts"
          else .ok ()
  else if (stripLead "ssh://" endpoint).any isAlias then .ok ()
  else
    .error ("endpoint must be shared-local, local, ssh://ALIAS, unix:///absolute/path, " ++
      "ws://loopback, or wss://")

/-- The hosts `configuration` takes for local. -/
def localHosts : List String := ["127.0.0.1", "localhost", "[::1]"]

/-- The endpoints `configuration` works on. -/
def isLocal (crates : Crates) (endpoint : String) : Bool :=
  (stripLead "unix:///" endpoint).isSome ∨
    (crates.parseUrl endpoint).any fun url =>
      url.scheme = "ws" ∧ url.host.any fun host => host ∈ localHosts

/-- The store accepts an endpoint. -/
def StoreAccepts (crates : Crates) (endpoint : String) : Prop :=
  ∃ s t, (CodexMonitor.validateEndpoint crates endpoint).run s = (.ok (), t)

def SessionAccepts (crates : Crates) (endpoint : String) : Prop :=
  Session.validateEndpoint crates endpoint = .ok ()

def PythonAccepts (urlsplit : String → Option SplitResult) (endpoint : String) : Prop :=
  pythonValidate urlsplit endpoint = .ok ()

def isWs (endpoint : String) : Bool := (stripLead "ws://" endpoint).isSome

def isWss (endpoint : String) : Bool := (stripLead "wss://" endpoint).isSome

/-! ## The libraries -/

/-- How `host_str` writes a host name. -/
def bracketed (hostname : String) : String :=
  if ':' ∈ hostname.toList then "[" ++ hostname ++ "]" else hostname

/-- The two libraries split web endpoints alike, up to the brackets of an address and the difference
between no fragment and an empty one; both give host names in lower case. -/
structure SplitAlike (crates : Crates) (urlsplit : String → Option SplitResult) : Prop where
  ws : ∀ endpoint url, isWs endpoint → crates.parseUrl endpoint = some url → url.scheme = "ws"
  wss : ∀ endpoint url, isWss endpoint → crates.parseUrl endpoint = some url → url.scheme = "wss"
  lower : ∀ endpoint url host, isWs endpoint ∨ isWss endpoint →
    crates.parseUrl endpoint = some url → url.host = some host →
    host.toList.map Char.toLower = host.toList
  brackets : ∀ endpoint url, isWs endpoint ∨ isWss endpoint →
    crates.parseUrl endpoint = some url → url.host ≠ some "::1"
  hostname : ∀ endpoint parsed name, isWs endpoint ∨ isWss endpoint →
    urlsplit endpoint = some parsed → parsed.hostname = some name → Text.toLowercase name = name
  alike : ∀ endpoint parsed name, isWs endpoint ∨ isWss endpoint →
    endpoint.toList.any isSpace = false → urlsplit endpoint = some parsed →
    parsed.netloc.toList.getLast? ≠ some ':' → parsed.hostname = some name → name ≠ "" →
    ∃ url, crates.parseUrl endpoint = some url ∧ url.scheme = parsed.scheme ∧
      url.host = some (bracketed name) ∧ url.username = parsed.username.getD "" ∧
      (parsed.password = none → url.password = none) ∧ url.fragment.getD "" = parsed.fragment

/-! ## The store and the session -/

variable {crates : Crates} {urlsplit : String → Option SplitResult} {endpoint : String}

/-- A text that has a lead starts with the first character of the lead. -/
theorem head_of_lead {lead value : String} {c : Char} (hc : lead.toList.head? = some c)
    (h : (stripLead lead value).isSome) : value.toList.head? = some c := by
  unfold stripLead at h
  by_cases hstart : lead.toList.isPrefixOf value.toList
  · obtain ⟨rest, hrest⟩ := List.isPrefixOf_iff_prefix.mp hstart
    rw [← hrest, List.head?_append, hc]
    rfl
  · rw [if_neg hstart] at h
    cases h

/-- A text starts with one of two leads that differ in their first character. -/
theorem lead_unique {a b value : String} {c d : Char} (ha : a.toList.head? = some c)
    (hb : b.toList.head? = some d) (hne : c ≠ d) (h : (stripLead a value).isSome) :
    stripLead b value = none := by
  cases hb' : stripLead b value with
  | none => rfl
  | some rest =>
      have hfirst := head_of_lead ha h
      rw [head_of_lead hb (by rw [hb']; rfl)] at hfirst
      exact absurd (Option.some.inj hfirst).symm hne

theorem ssh_not_web (h : (stripLead "ssh://" endpoint).isSome) :
    stripLead "ws://" endpoint = none ∧ stripLead "wss://" endpoint = none :=
  ⟨lead_unique (c := 's') (d := 'w') (by decide) (by decide) (by decide) h,
    lead_unique (c := 's') (d := 'w') (by decide) (by decide) (by decide) h⟩

/-- The store and the session read aliases alike. -/
theorem isSshTarget_of_alias {rest : List Char} (h : isSshAlias rest) :
    Session.isSshTarget rest := by
  cases rest with
  | nil => cases h
  | cons c rest =>
      unfold isSshAlias at h
      simp only [decide_eq_true_eq, Bool.decide_and, Bool.and_eq_true] at h
      obtain ⟨hlength, hc, hrest⟩ := h
      have hchars : ∀ d ∈ c :: rest, d.isAlphanum ∨ d ∈ ['_', '.', '-'] := by
        intro d hd
        rcases List.mem_cons.mp hd with rfl | hd
        · exact Or.inl hc
        · simpa using List.all_eq_true.mp hrest d hd
      have hascii : ∀ d : Char, d.isAlphanum ∨ d ∈ ['_', '.', '-'] → d.utf8Size = 1 := by
        intro d hd
        have hsmall : d.toNat < 128 := by
          rcases hd with hd | hd
          · change (decide (d.val ≥ 'A'.val ∧ d.val ≤ 'Z'.val) ||
              (decide (d.val ≥ 'a'.val) && decide (d.val ≤ 'z'.val)) ||
                (decide (d.val ≥ '0'.val) && decide (d.val ≤ '9'.val))) = true at hd
            simp only [Bool.or_eq_true, Bool.and_eq_true, decide_eq_true_eq,
              UInt32.le_iff_toNat_le] at hd
            have hcode : d.toNat = d.val.toNat := rfl
            simp at hd
            omega
          · simp only [List.mem_cons, List.not_mem_nil, or_false] at hd
            rcases hd with rfl | rfl | rfl <;> decide
        have hle : d.val ≤ 0x7f := by
          rw [UInt32.le_iff_toNat_le]
          exact Nat.le_of_lt_succ hsmall
        exact if_pos hle
      have hsize : ∀ l : List Char, (∀ d ∈ l, d.utf8Size = 1) →
          (String.ofList l).utf8ByteSize = l.length := by
        intro l hl
        induction l with
        | nil => rfl
        | cons d l ih =>
            rw [Text.ofList_cons_bytes, hl d List.mem_cons_self, ih fun e he => hl e (List.mem_cons_of_mem d he),
              List.length_cons]
            omega
      unfold Session.isSshTarget
      rw [hsize _ fun d hd => hascii d (hchars d hd)]
      simp only [decide_eq_true_eq, Bool.decide_and, Bool.and_eq_true]
      refine ⟨by simp, by rw [List.length_cons]; omega, ?_, by simpa using hc⟩
      refine List.all_eq_true.mpr fun entry hentry => ?_
      obtain ⟨d, i⟩ := entry
      have hget := List.mem_zipIdx_iff_getElem?.mp hentry
      dsimp only at hget ⊢
      cases i with
      | zero =>
          obtain rfl : c = d := Option.some.inj hget
          simp [hc]
      | succ i =>
          have hd : d ∈ rest := List.mem_of_getElem? hget
          have hkind := List.all_eq_true.mp hrest d hd
          simp only [List.mem_cons, List.not_mem_nil, or_false, decide_eq_true_eq] at hkind ⊢
          rcases hkind with h | h | h | h
          · exact Or.inl h
          · exact Or.inr (Or.inl h)
          · exact Or.inr (Or.inr (Or.inl h))
          · exact Or.inr (Or.inr (Or.inr ⟨h, by omega⟩))

/-- Any endpoint the store accepts is accepted when an event is delivered. -/
theorem session_of_store (h : StoreAccepts crates endpoint) : SessionAccepts crates endpoint := by
  obtain ⟨s, t, h⟩ := h
  unfold CodexMonitor.validateEndpoint at h
  simp only [Tx.bind_ok, bailIf_run_ok] at h
  obtain ⟨_, _, ⟨hshape, rfl⟩, h⟩ := h
  simp only [not_or] at hshape
  obtain ⟨hempty, hlong, hwhite, hzero⟩ := hshape
  unfold SessionAccepts Session.validateEndpoint
  rw [if_neg (by simp only [not_or]; exact ⟨hempty, hlong, hzero⟩)]
  by_cases hword : endpoint ∈ ["shared-local", "local", "unix://"]
  · rw [if_pos hword]
  · rw [if_neg hword] at h ⊢
    cases hunix : stripLead "unix://" endpoint with
    | some path =>
        rw [hunix] at h
        simp only [bailIf_run_ok] at h
        exact if_neg h.1
    | none =>
        rw [hunix] at h
        dsimp only at h ⊢
        cases hssh : stripLead "ssh://" endpoint with
        | some rest =>
            rw [hssh] at h
            simp only [bailIf_run_ok] at h
            obtain ⟨hws, hwss⟩ := ssh_not_web (by rw [hssh]; rfl)
            rw [hws, hwss, if_neg (by simp), if_pos]
            exact isSshTarget_of_alias (by simpa using h.1)
        | none =>
            rw [hssh] at h
            dsimp only at h
            by_cases hweb : (stripLead "ws://" endpoint).isSome ∨ (stripLead "wss://" endpoint).isSome
            · rw [if_pos hweb] at h ⊢
              simp only [Tx.bind_ok, Tx.expect_ok, bailIf_run_ok] at h
              obtain ⟨url, _, ⟨hurl, rfl⟩, _, _, ⟨hparts, rfl⟩, hlocal, rfl⟩ := h
              simp only [not_or, not_not] at hparts
              obtain ⟨hscheme, hhost, huser, hpassword, hfragment⟩ := hparts
              obtain ⟨host, hsome⟩ := Option.ne_none_iff_exists'.mp hhost
              rw [if_neg hwhite, hurl]
              dsimp only
              rw [hsome]
              dsimp only
              rw [if_neg (by simp [huser, hpassword, hfragment]), if_neg]
              intro hand
              refine hlocal ⟨hand.1, ?_⟩
              rw [hsome]
              intro hmem
              refine hand.2 ?_
              simp only [List.mem_cons, List.not_mem_nil, or_false, Option.some.injEq] at hmem
              rcases hmem with rfl | rfl | rfl <;> decide
            · rw [if_neg hweb] at h
              simp only [Tx.fail_ok] at h

/-- A registered route has an endpoint the store accepts. -/
theorem bind_accepts {name thread : String} {sources : List String} {s t : Db} {b : Binding}
    (h : (bind crates name thread endpoint sources).run s = (.ok b, t)) :
    StoreAccepts crates endpoint := by
  simp only [bind, Tx.bind_ok, validateIdentifier_ok, bailIf_run_ok] at h
  obtain ⟨_, _, _, _, _, _, _, _, _, _, _, hendpoint, -⟩ := h
  exact ⟨_, _, hendpoint⟩

/-- A watch has an endpoint the store accepts. -/
theorem watchCreate_accepts {thread name path : String} {interval debounce : F64}
    {condition : Option Value} {uuid : Uuid} {now : Rat} {s t : Db} {w : Watch}
    (h : (watchCreate crates thread name path interval endpoint debounce condition uuid now).run s =
      (.ok w, t)) : StoreAccepts crates endpoint := by
  simp only [watchCreate, Tx.bind_ok, validateIdentifier_ok, bailIf_run_ok, Tx.expect_ok] at h
  obtain ⟨_, _, _, _, _, _, _, _, _, _, _, _, _, _, _, _, _, _, _, _, hendpoint, _⟩ := h
  exact ⟨_, _, hendpoint⟩

/-! ## Web endpoints -/

/-- A web endpoint is none of the words, and no socket path. -/
theorem web_shape (hweb : isWs endpoint ∨ isWss endpoint) :
    endpoint ≠ "" ∧ endpoint ∉ ["shared-local", "local", "unix://"] ∧
      stripLead "unix://" endpoint = none ∧
      ((stripLead "ws://" endpoint).isSome ∨ (stripLead "wss://" endpoint).isSome) := by
  have hhead : endpoint.toList.head? = some 'w' := by
    rcases hweb with h | h
    · exact head_of_lead (by decide) h
    · exact head_of_lead (by decide) h
  have hwords : ∀ word ∈ ["", "shared-local", "local", "unix://"],
      word.toList.head? ≠ some 'w' := by decide
  refine ⟨?_, ?_, ?_, hweb⟩
  · intro heq
    exact hwords endpoint (by rw [heq]; simp) hhead
  · intro hmem
    exact hwords endpoint (List.mem_cons_of_mem "" hmem) hhead
  · rcases hweb with h | h
    · exact lead_unique (c := 'w') (d := 'u') (by decide) (by decide) (by decide) h
    · exact lead_unique (c := 'w') (d := 'u') (by decide) (by decide) (by decide) h

/-- When the session accepts a web endpoint. -/
theorem session_web_iff (hweb : isWs endpoint ∨ isWss endpoint)
    (hsize : endpoint.utf8ByteSize ≤ maxEndpointBytes) :
    SessionAccepts crates endpoint ↔
      Char.ofNat 0 ∉ endpoint.toList ∧ endpoint.toList.any isWhitespace = false ∧
        ∃ url host, crates.parseUrl endpoint = some url ∧ url.host = some host ∧
          url.username = "" ∧ url.password = none ∧ url.fragment = none ∧
          (url.scheme = "ws" → host.toList.map Char.toLower ∈
            ["127.0.0.1".toList, "localhost".toList, "::1".toList]) := by
  obtain ⟨hempty, hword, hunix, hlead⟩ := web_shape hweb
  unfold SessionAccepts Session.validateEndpoint
  by_cases hzero : Char.ofNat 0 ∈ endpoint.toList
  · rw [if_pos (Or.inr (Or.inr hzero))]
    simp [hzero]
  · rw [if_neg (by simp only [not_or]; exact ⟨hempty, by omega, hzero⟩), if_neg hword, hunix]
    dsimp only
    rw [if_pos hlead]
    by_cases hwhite : endpoint.toList.any isWhitespace = true
    · rw [if_pos hwhite]
      simp [hwhite]
    · have hnone : endpoint.toList.any isWhitespace = false := by simpa using hwhite
      rw [if_neg hwhite]
      cases hurl : crates.parseUrl endpoint with
      | none => simp
      | some url =>
          dsimp only
          cases hhost : url.host with
          | none => simp [hhost]
          | some host =>
              dsimp only
              by_cases hparts : url.username ≠ "" ∨ url.password ≠ none ∨ url.fragment ≠ none
              · rw [if_pos hparts]
                constructor
                · intro h
                  cases h
                · intro h
                  obtain ⟨-, -, other, _, heq, -, huser, hpassword, hfragment, -⟩ := h
                  obtain rfl := Option.some.inj heq
                  rcases hparts with h | h | h
                  · exact absurd huser h
                  · exact absurd hpassword h
                  · exact absurd hfragment h
              · rw [if_neg hparts]
                simp only [not_or, not_not] at hparts
                obtain ⟨huser, hpassword, hfragment⟩ := hparts
                by_cases hlocal : url.scheme = "ws" ∧ host.toList.map Char.toLower ∉
                    ["127.0.0.1".toList, "localhost".toList, "::1".toList]
                · rw [if_pos hlocal]
                  constructor
                  · intro h
                    cases h
                  · intro h
                    obtain ⟨-, -, other, name, heq, hname, -, -, -, hin⟩ := h
                    obtain rfl := Option.some.inj heq
                    obtain rfl := Option.some.inj (hhost.symm.trans hname)
                    exact absurd (hin hlocal.1) hlocal.2
                · rw [if_neg hlocal]
                  simp only [true_iff]
                  refine ⟨hzero, hnone, url, host, rfl, hhost, huser, hpassword, hfragment, ?_⟩
                  intro hscheme
                  by_contra hout
                  exact hlocal ⟨hscheme, hout⟩

/-- When the Python runtime accepts a web endpoint. -/
theorem python_web_iff (hweb : isWs endpoint ∨ isWss endpoint) :
    PythonAccepts urlsplit endpoint ↔
      Char.ofNat 0 ∉ endpoint.toList ∧ endpoint.toList.any isSpace = false ∧
        ∃ parsed name, urlsplit endpoint = some parsed ∧ parsed.scheme ∈ ["ws", "wss"] ∧
          parsed.netloc ≠ "" ∧ parsed.netloc.toList.getLast? ≠ some ':' ∧
          parsed.hostname = some name ∧ name ≠ "" ∧ parsed.username = none ∧
          parsed.password = none ∧ parsed.fragment = "" ∧
          (parsed.scheme = "ws" → Text.toLowercase name ∈ loopbackNames) := by
  obtain ⟨hempty, hword, hunix, hlead⟩ := web_shape hweb
  unfold PythonAccepts pythonValidate
  by_cases hzero : Char.ofNat 0 ∈ endpoint.toList
  · rw [if_pos (Or.inr hzero)]
    simp [hzero]
  · rw [if_neg (by simp only [not_or]; exact ⟨hempty, hzero⟩), if_neg hword, hunix]
    dsimp only
    rw [if_pos hlead]
    by_cases hspace : endpoint.toList.any isSpace = true
    · rw [if_pos hspace]
      simp [hspace]
    · have hnone : endpoint.toList.any isSpace = false := by simpa using hspace
      rw [if_neg hspace]
      cases hurl : urlsplit endpoint with
      | none => simp
      | some parsed =>
          dsimp only
          by_cases hparts : parsed.scheme ∉ ["ws", "wss"] ∨ parsed.netloc = "" ∨
              parsed.netloc.toList.getLast? = some ':' ∨ parsed.hostname.getD "" = "" ∨
              parsed.username ≠ none ∨ parsed.password ≠ none ∨ parsed.fragment ≠ ""
          · rw [if_pos hparts]
            constructor
            · intro h
              cases h
            · intro h
              obtain ⟨-, -, other, name, heq, hscheme, hnetloc, hport, hname, hne, huser, hpassword,
                hfragment, -⟩ := h
              obtain rfl := Option.some.inj heq
              rcases hparts with h | h | h | h | h | h | h
              · exact absurd hscheme h
              · exact absurd h hnetloc
              · exact absurd h hport
              · rw [hname] at h
                exact absurd h hne
              · exact absurd huser h
              · exact absurd hpassword h
              · exact absurd hfragment h
          · rw [if_neg hparts]
            simp only [not_or, not_not] at hparts
            obtain ⟨hscheme, hnetloc, hport, hhost, huser, hpassword, hfragment⟩ := hparts
            obtain ⟨name, hname, hne⟩ : ∃ name, parsed.hostname = some name ∧ name ≠ "" := by
              cases hcase : parsed.hostname with
              | none => simp [hcase] at hhost
              | some name => exact ⟨name, rfl, by simpa [hcase] using hhost⟩
            rw [hname, Option.getD_some]
            by_cases hlocal : parsed.scheme = "ws" ∧ Text.toLowercase name ∉ loopbackNames
            · rw [if_pos hlocal]
              constructor
              · intro h
                cases h
              · intro h
                obtain ⟨-, -, other, found, heq, -, -, -, hfound, -, -, -, -, hin⟩ := h
                obtain rfl := Option.some.inj heq
                obtain rfl := Option.some.inj (hname.symm.trans hfound)
                exact absurd (hin hlocal.1) hlocal.2
            · rw [if_neg hlocal]
              simp only [true_iff]
              refine ⟨hzero, hnone, parsed, name, rfl, hscheme, hnetloc, hport, hname, hne, huser,
                hpassword, hfragment, ?_⟩
              intro hws
              by_contra hout
              exact hlocal ⟨hws, hout⟩

/-- An endpoint that is no web endpoint and that the Python runtime accepts is accepted by the
session. -/
theorem session_of_python_plain (hplain : ¬ (isWs endpoint ∨ isWss endpoint))
    (hsize : endpoint.utf8ByteSize ≤ maxEndpointBytes) (h : PythonAccepts urlsplit endpoint) :
    SessionAccepts crates endpoint := by
  unfold PythonAccepts pythonValidate at h
  unfold SessionAccepts Session.validateEndpoint
  by_cases hshape : endpoint = "" ∨ Char.ofNat 0 ∈ endpoint.toList
  · rw [if_pos hshape] at h
    cases h
  · rw [if_neg hshape] at h
    rw [not_or] at hshape
    rw [if_neg (by simp only [not_or]; exact ⟨hshape.1, by omega, hshape.2⟩)]
    by_cases hword : endpoint ∈ ["shared-local", "local", "unix://"]
    · rw [if_pos hword]
    · rw [if_neg hword] at h ⊢
      cases hunix : stripLead "unix://" endpoint with
      | some path =>
          rw [hunix] at h
          dsimp only at h ⊢
          by_cases hpath : path.head? ≠ some '/' ∨ Char.ofNat 0 ∈ path
          · rw [if_pos hpath] at h
            cases h
          · rw [not_or] at hpath
            exact if_neg hpath.1
      | none =>
          rw [hunix] at h
          dsimp only at h ⊢
          have hlead : ¬ ((stripLead "ws://" endpoint).isSome ∨
              (stripLead "wss://" endpoint).isSome) := hplain
          rw [if_neg hlead] at h ⊢
          by_cases hssh : (stripLead "ssh://" endpoint).any isAlias
          · obtain ⟨rest, hrest, halias⟩ := (Option.any_eq_true _ _).mp hssh
            rw [hrest, if_pos]
            refine isSshTarget_of_alias ?_
            cases rest with
            | nil => cases halias
            | cons c rest =>
                simp only [isAlias, decide_eq_true_eq] at halias
                simp only [isSshAlias, decide_eq_true_eq]
                exact ⟨by omega, halias.1, halias.2.2⟩
          · rw [if_neg hssh] at h
            cases h

/-! ## All endpoints -/

/-- What is asked of an endpoint: no route that is stored or migrated fails the check at delivery,
and `reconnect` works on the local web endpoints that can be delivered to. -/
def StaysDeliverable (crates : Crates) (urlsplit : String → Option SplitResult)
    (endpoint : String) : Prop :=
  (StoreAccepts crates endpoint → SessionAccepts crates endpoint) ∧
    (PythonAccepts urlsplit endpoint → SessionAccepts crates endpoint) ∧
    (isWs endpoint → (isLocal crates endpoint ↔ SessionAccepts crates endpoint))

/-- How an endpoint has to be spelled: a loopback host of `ws://` is no bracketed address and stands
with no credentials, fragment, white space or NUL; behind a proper host of `wss://` no fragment
is opened. -/
structure Spelled (crates : Crates) (urlsplit : String → Option SplitResult)
    (endpoint : String) : Prop where
  ws : ∀ url, isWs endpoint → crates.parseUrl endpoint = some url →
    url.host.any (fun host => host ∈ localHosts) →
      url.host ≠ some "[::1]" ∧ url.username = "" ∧ url.password = none ∧ url.fragment = none ∧
        endpoint.toList.any isWhitespace = false ∧ Char.ofNat 0 ∉ endpoint.toList
  wss : ∀ url parsed name, isWss endpoint → crates.parseUrl endpoint = some url →
    Char.ofNat 0 ∉ endpoint.toList → endpoint.toList.any isSpace = false →
    urlsplit endpoint = some parsed → parsed.netloc ≠ "" →
    parsed.netloc.toList.getLast? ≠ some ':' → parsed.hostname = some name → name ≠ "" →
    parsed.username = none → parsed.password = none → url.fragment ≠ some ""

theorem isLocal_web (hweb : isWs endpoint ∨ isWss endpoint) :
    isLocal crates endpoint = true ↔
      ∃ url, crates.parseUrl endpoint = some url ∧ url.scheme = "ws" ∧
        url.host.any (fun host => host ∈ localHosts) := by
  have hunix : stripLead "unix:///" endpoint = none := by
    rcases hweb with h | h
    · exact lead_unique (c := 'w') (d := 'u') (by decide) (by decide) (by decide) h
    · exact lead_unique (c := 'w') (d := 'u') (by decide) (by decide) (by decide) h
  unfold isLocal
  rw [hunix]
  cases crates.parseUrl endpoint with
  | none => simp
  | some url => simp

/-- A loopback host that is no bracketed address passes the check of the session. -/
theorem loopback_of_local {host : String} (h : host ∈ localHosts) (hne : host ≠ "[::1]") :
    host.toList.map Char.toLower ∈ ["127.0.0.1".toList, "localhost".toList, "::1".toList] := by
  simp only [localHosts, List.mem_cons, List.not_mem_nil, or_false] at h
  rcases h with rfl | rfl | rfl
  · decide
  · decide
  · exact absurd rfl hne

/-- A host that passes the check of the session is local. -/
theorem local_of_loopback (hsplit : SplitAlike crates urlsplit) {url : Url} {host : String}
    (hweb : isWs endpoint ∨ isWss endpoint) (hurl : crates.parseUrl endpoint = some url) (hhost : url.host = some host)
    (h : host.toList.map Char.toLower ∈
      ["127.0.0.1".toList, "localhost".toList, "::1".toList]) :
    host ∈ localHosts ∧ host ≠ "[::1]" := by
  rw [hsplit.lower endpoint url host hweb hurl hhost] at h
  simp only [List.mem_cons, List.not_mem_nil, or_false, String.toList_inj] at h
  rcases h with rfl | rfl | rfl
  · exact ⟨by decide, by decide⟩
  · exact ⟨by decide, by decide⟩
  · exact absurd hhost (hsplit.brackets endpoint url hweb hurl)

theorem white_of_space {text : List Char} (h : text.any isSpace = false) :
    text.any isWhitespace = false := by
  rw [List.any_eq_false] at h ⊢
  intro c hc hwhite
  exact h c hc (by simp [isSpace, hwhite])

/-- What the session finds in a web endpoint the Python runtime accepts. -/
theorem python_split (hsplit : SplitAlike crates urlsplit) (hweb : isWs endpoint ∨ isWss endpoint)
    (h : PythonAccepts urlsplit endpoint) :
    Char.ofNat 0 ∉ endpoint.toList ∧ endpoint.toList.any isWhitespace = false ∧
      ∃ url name, crates.parseUrl endpoint = some url ∧ url.host = some (bracketed name) ∧
        url.username = "" ∧ url.password = none ∧ url.fragment.getD "" = "" ∧
        (url.scheme = "ws" → name ∈ loopbackNames) := by
  obtain ⟨hzero, hspace, parsed, name, hparsed, -, -, hport, hname, hne, huser, hpassword,
    hfragment, hlocal⟩ := (python_web_iff hweb).mp h
  obtain ⟨url, hurl, hscheme, hhost, husername, hpass, hfrag⟩ :=
    hsplit.alike endpoint parsed name hweb hspace hparsed hport hname hne
  refine ⟨hzero, white_of_space hspace, url, name, hurl, hhost, ?_, hpass hpassword,
    hfrag.trans hfragment, fun hws => ?_⟩
  · rw [husername, huser]
    rfl
  · have hin := hlocal (hscheme.symm.trans hws)
    rwa [hsplit.hostname endpoint parsed name hweb hparsed hname] at hin

/-- A web endpoint that is spelled so and that the Python runtime accepts is accepted by the
session. -/
theorem session_of_python (hsplit : SplitAlike crates urlsplit)
    (hsize : endpoint.utf8ByteSize ≤ maxEndpointBytes) (h : Spelled crates urlsplit endpoint)
    (hweb : isWs endpoint ∨ isWss endpoint) (haccepts : PythonAccepts urlsplit endpoint) :
    SessionAccepts crates endpoint := by
  obtain ⟨hzero, hwhite, url, name, hurl, hhost, huser, hpassword, hfragment, hin⟩ :=
    python_split hsplit hweb haccepts
  refine (session_web_iff hweb hsize).mpr ⟨hzero, hwhite, url, bracketed name, hurl, hhost, huser,
    hpassword, ?_⟩
  rcases hweb with hws | hwss
  · have hscheme := hsplit.ws endpoint url hws hurl
    have hname := hin hscheme
    have hlocal : bracketed name ∈ localHosts := by
      simp only [loopbackNames, List.mem_cons, List.not_mem_nil, or_false] at hname
      rcases hname with rfl | rfl | rfl <;> decide
    obtain ⟨hne, -, -, hnone, -⟩ := h.ws url hws hurl (by rw [hhost]; simpa using hlocal)
    refine ⟨hnone, fun _ => loopback_of_local hlocal fun heq => ?_⟩
    exact hne (hhost.trans (congrArg some heq))
  · have hscheme := hsplit.wss endpoint url hwss hurl
    obtain ⟨-, hspace, parsed, found, hparsed, -, hnetloc, hport, hfound, hne, hnouser,
      hnopassword, -⟩ := (python_web_iff (Or.inr hwss)).mp haccepts
    have hnotEmpty := h.wss url parsed found hwss hurl hzero hspace hparsed hnetloc hport hfound
      hne hnouser hnopassword
    constructor
    · cases hcase : url.fragment with
      | none => rfl
      | some fragment =>
          rw [hcase] at hfragment hnotEmpty
          exact absurd (congrArg some hfragment) hnotEmpty
    · intro hws
      exact absurd (hscheme.symm.trans hws) (by decide)

/-- An endpoint stays deliverable exactly when it is spelled so. -/
theorem staysDeliverable_iff (hsplit : SplitAlike crates urlsplit)
    (hsize : endpoint.utf8ByteSize ≤ maxEndpointBytes) :
    StaysDeliverable crates urlsplit endpoint ↔ Spelled crates urlsplit endpoint := by
  constructor
  · intro h
    obtain ⟨-, hpython, hlocal⟩ := h
    constructor
    · intro url hws hurl hhost
      have hsession := (hlocal hws).mp ((isLocal_web (Or.inl hws)).mpr
        ⟨url, hurl, hsplit.ws endpoint url hws hurl, hhost⟩)
      obtain ⟨hzero, hwhite, other, host, hother, hsome, huser, hpassword, hfragment, hin⟩ :=
        (session_web_iff (Or.inl hws) hsize).mp hsession
      obtain rfl := Option.some.inj (hurl.symm.trans hother)
      have hne := (local_of_loopback hsplit (Or.inl hws) hurl hsome
        (hin (hsplit.ws endpoint url hws hurl))).2
      refine ⟨?_, huser, hpassword, hfragment, hwhite, hzero⟩
      rw [hsome]
      exact fun heq => hne (Option.some.inj heq)
    · intro url parsed name hwss hurl hzero hspace hparsed hnetloc hport hname hne huser hpassword
        hempty
      obtain ⟨other, hother, hscheme, -, -, -, hfragment⟩ :=
        hsplit.alike endpoint parsed name (Or.inr hwss) hspace hparsed hport hname hne
      obtain rfl := Option.some.inj (hurl.symm.trans hother)
      have hwss' : parsed.scheme = "wss" := hscheme.symm.trans (hsplit.wss endpoint url hwss hurl)
      have haccepts : PythonAccepts urlsplit endpoint := by
        refine (python_web_iff (Or.inr hwss)).mpr ⟨hzero, hspace, parsed, name, hparsed, ?_,
          hnetloc, hport, hname, hne, huser, hpassword, ?_, ?_⟩
        · rw [hwss']
          decide
        · rw [← hfragment, hempty]
          rfl
        · intro hws
          exact absurd (hwss'.symm.trans hws) (by decide)
      obtain ⟨-, -, found, _, hfound, -, -, -, hnone, -⟩ :=
        (session_web_iff (Or.inr hwss) hsize).mp (hpython haccepts)
      obtain rfl := Option.some.inj (hurl.symm.trans hfound)
      rw [hempty] at hnone
      cases hnone
  · intro h
    refine ⟨session_of_store, fun haccepts => ?_, fun hws => ⟨fun hlocal => ?_, fun hsession => ?_⟩⟩
    · by_cases hweb : isWs endpoint ∨ isWss endpoint
      · exact session_of_python hsplit hsize h hweb haccepts
      · exact session_of_python_plain hweb hsize haccepts
    · obtain ⟨url, hurl, hscheme, hhost⟩ := (isLocal_web (Or.inl hws)).mp hlocal
      obtain ⟨hne, huser, hpassword, hfragment, hwhite, hzero⟩ := h.ws url hws hurl hhost
      obtain ⟨host, hsome, hin⟩ := (Option.any_eq_true _ _).mp hhost
      refine (session_web_iff (Or.inl hws) hsize).mpr ⟨hzero, hwhite, url, host, hurl, hsome, huser,
        hpassword, hfragment, fun _ => loopback_of_local (by simpa using hin) ?_⟩
      intro heq
      exact hne (hsome.trans (congrArg some heq))
    · obtain ⟨-, -, url, host, hurl, hsome, -, -, -, hin⟩ :=
        (session_web_iff (Or.inl hws) hsize).mp hsession
      have hscheme := hsplit.ws endpoint url hws hurl
      refine (isLocal_web (Or.inl hws)).mpr ⟨url, hurl, hscheme, ?_⟩
      rw [hsome]
      simpa using (local_of_loopback hsplit (Or.inl hws) hurl hsome (hin hscheme)).1

/-! ## An address in brackets -/

def sampleParse (endpoint : String) : Option Url :=
  if endpoint = "ws://[::1]:4500" then some ⟨"ws", some "[::1]", "", none, none⟩
  else if endpoint = "ws://127.0.0.1:4500" then some ⟨"ws", some "127.0.0.1", "", none, none⟩
  else none

def sampleCrates : Crates := ⟨fun _ => "0.0", fun _ => none, sampleParse, fun _ => none⟩

def sampleSplit (endpoint : String) : Option SplitResult :=
  if endpoint = "ws://[::1]:4500" then some ⟨"ws", "[::1]:4500", some "::1", none, none, ""⟩
  else if endpoint = "ws://127.0.0.1:4500" then
    some ⟨"ws", "127.0.0.1:4500", some "127.0.0.1", none, none, ""⟩
  else none

theorem sample_cases {P : Url → SplitResult → Prop}
    (haddress : P ⟨"ws", some "[::1]", "", none, none⟩
      ⟨"ws", "[::1]:4500", some "::1", none, none, ""⟩)
    (hlocal : P ⟨"ws", some "127.0.0.1", "", none, none⟩
      ⟨"ws", "127.0.0.1:4500", some "127.0.0.1", none, none, ""⟩) (endpoint : String) :
    (sampleParse endpoint = none ∧ sampleSplit endpoint = none) ∨
      ∃ url parsed, sampleParse endpoint = some url ∧ sampleSplit endpoint = some parsed ∧
        P url parsed ∧ isWss endpoint = false := by
  unfold sampleParse sampleSplit
  by_cases hfirst : endpoint = "ws://[::1]:4500"
  · rw [if_pos hfirst, if_pos hfirst, hfirst]
    exact Or.inr ⟨_, _, rfl, rfl, haddress, by decide⟩
  · rw [if_neg hfirst, if_neg hfirst]
    by_cases hsecond : endpoint = "ws://127.0.0.1:4500"
    · rw [if_pos hsecond, if_pos hsecond, hsecond]
      exact Or.inr ⟨_, _, rfl, rfl, hlocal, by decide⟩
    · rw [if_neg hsecond, if_neg hsecond]
      exact Or.inl ⟨rfl, rfl⟩

theorem sample_alike : SplitAlike sampleCrates sampleSplit := by
  have hfacts := fun endpoint => sample_cases
    (P := fun url parsed => url.scheme = "ws" ∧ url.host ≠ some "::1" ∧
      (∀ host ∈ url.host, host.toList.map Char.toLower = host.toList) ∧
      ∀ name ∈ parsed.hostname, Text.toLowercase name = name ∧ url.scheme = parsed.scheme ∧
        url.host = some (bracketed name) ∧ url.username = parsed.username.getD "" ∧
        url.password = none ∧ url.fragment.getD "" = parsed.fragment)
    (by decide) (by decide) endpoint
  constructor
  · intro endpoint url _ hurl
    rcases hfacts endpoint with ⟨hnone, -⟩ | ⟨other, _, hother, -, hP, -⟩
    · cases hnone.symm.trans hurl
    · obtain rfl := Option.some.inj (hother.symm.trans hurl)
      exact hP.1
  · intro endpoint url hwss hurl
    rcases hfacts endpoint with ⟨hnone, -⟩ | ⟨_, _, _, -, _, hno⟩
    · cases hnone.symm.trans hurl
    · rw [hno] at hwss
      cases hwss
  · intro endpoint url host _ hurl hhost
    rcases hfacts endpoint with ⟨hnone, -⟩ | ⟨other, _, hother, -, hP, -⟩
    · cases hnone.symm.trans hurl
    · obtain rfl := Option.some.inj (hother.symm.trans hurl)
      exact hP.2.2.1 host hhost
  · intro endpoint url _ hurl
    rcases hfacts endpoint with ⟨hnone, -⟩ | ⟨other, _, hother, -, hP, -⟩
    · cases hnone.symm.trans hurl
    · obtain rfl := Option.some.inj (hother.symm.trans hurl)
      exact hP.2.1
  · intro endpoint parsed name _ hparsed hname
    rcases hfacts endpoint with ⟨-, hnone⟩ | ⟨_, other, -, hother, hP, -⟩
    · cases hnone.symm.trans hparsed
    · obtain rfl := Option.some.inj (hother.symm.trans hparsed)
      exact (hP.2.2.2 name hname).1
  · intro endpoint parsed name _ _ hparsed _ hname _
    rcases hfacts endpoint with ⟨-, hnone⟩ | ⟨url, other, hurl, hother, hP, -⟩
    · cases hnone.symm.trans hparsed
    · obtain rfl := Option.some.inj (hother.symm.trans hparsed)
      obtain ⟨-, hscheme, hhost, huser, hpassword, hfragment⟩ := hP.2.2.2 name hname
      exact ⟨url, hurl, hscheme, hhost, huser, fun _ => hpassword, hfragment⟩

/-- The Python runtime and `reconnect` accept an address in brackets that the session rejects. -/
theorem bracketed_address_rejected : SplitAlike sampleCrates sampleSplit ∧
    PythonAccepts sampleSplit "ws://[::1]:4500" ∧ isLocal sampleCrates "ws://[::1]:4500" ∧
    ¬ StaysDeliverable sampleCrates sampleSplit "ws://[::1]:4500" := by
  have hpython : PythonAccepts sampleSplit "ws://[::1]:4500" := by
    unfold PythonAccepts
    decide
  have hsession : ¬ SessionAccepts sampleCrates "ws://[::1]:4500" := by
    unfold SessionAccepts
    decide
  exact ⟨sample_alike, hpython, by decide, fun h => hsession (h.2.1 hpython)⟩

theorem staysDeliverable_iff_loopback :
    StaysDeliverable sampleCrates sampleSplit "ws://127.0.0.1:4500" := by
  refine (staysDeliverable_iff sample_alike (by decide)).mpr ⟨?_, ?_⟩
  · intro url _ hurl _
    obtain rfl : (⟨"ws", some "127.0.0.1", "", none, none⟩ : Url) = url :=
      Option.some.inj ((show _ = some _ by decide).symm.trans hurl)
    decide
  · intro url parsed name hwss
    exact absurd hwss (by decide)

end Endpoints

end CodexMonitor
