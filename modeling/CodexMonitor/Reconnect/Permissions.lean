import CodexMonitor.Lib.Decoding
import CodexMonitor.Lib.Text
import CodexMonitor.Reconnect.Execute

/-!
# Permission options

`policyArgs` takes the permission options out of the arguments of a service and puts
those of a policy in.  What stays of the arguments is a list of units, single
arguments and configuration pairs, that the scan passes over unchanged; so rewriting
again changes the options only.  The labels read the options of the last policy
back.
-/

namespace CodexMonitor

namespace Reconnect

/-! ## Labels -/

/-- The pairs of neighbours. -/
def windows (args : List String) : List (String × String) := args.zip args.tail

def permissionLabel (args : List String) : String :=
  match option args "--sandbox" with
  | some "danger-full-access" => "Full Access"
  | some "read-only" => "Read-only"
  | some "workspace-write" => if "--network-access" ∈ args then "Project Access" else "Workspace"
  | _ => "Access unknown"

/-- White space and quotes around a value. -/
def configValue (value : List Char) : String :=
  String.ofList (Text.trim (fun c => c = Decoding.quote || c.toNat = 0x27)
    (Text.trim isWhitespace value))

/-- The loop over the configuration pairs of an owner: the mode and the network access they set,
none when a pair selects a permission profile. -/
def ownerScan : List String → Option String → Option String →
    Option (Option String × Option String)
  | [], mode, network => some (mode, network)
  | pair :: rest, mode, network =>
      match Text.splitOnce '=' pair.toList with
      | none => ownerScan rest mode network
      | some (key, value) =>
          let key := Text.trim isWhitespace key
          if key = "sandbox_mode".toList then ownerScan rest (some (configValue value)) network
          else if key = "sandbox_workspace_write.network_access".toList then
            ownerScan rest mode (some (configValue value))
          else if key = "default_permissions".toList ∨ key = "permissions".toList ∨
              "permissions.".toList.isPrefixOf key then none
          else ownerScan rest mode network

def isProfile (arg : String) : Bool :=
  arg = "--profile" ∨ arg = "-p" ∨ startsWith arg "--profile="

/-- An option that may hide a permission. -/
def isOpaque (arg : String) : Bool :=
  isProfile arg ∨ startsWith arg "--config=" ∨ (startsWith arg "-c" ∧ arg ≠ "-c")

def configPairs (args : List String) : List String :=
  ((windows args).filter fun window => window.1 = "-c" ∨ window.1 = "--config").map Prod.snd

def ownerPermission (args : List String) : String :=
  match ownerScan (configPairs args) none none with
  | none => "Access unknown"
  | some (mode, network) =>
      if args.any isOpaque then "Access unknown"
      else
        match mode with
        | some "danger-full-access" => "Full Access"
        | some "read-only" => "Read-only"
        | some "workspace-write" =>
            if network = some "true" then "Project Access" else "Workspace"
        | _ => "Access unknown"

/-- The label of a policy. -/
def policyLabel (policy : String) : String :=
  if policy = "full" then "Full Access"
  else if policy = "read-only" then "Read-only"
  else "Project Access"

/-! ## What stays -/

theorem map_ok {α β : Type} {x : Except String α} {f : α → β} {b : β} (h : x.map f = .ok b) :
    ∃ a, x = .ok a ∧ f a = b := by
  cases x with
  | error message => cases h
  | ok a => exact ⟨a, rfl, Except.ok.inj h⟩

/-- A single argument that stays: it is no option of permissions, and for an owner no
configuration. -/
structure Ordinary (resident : Bool) (arg : String) : Prop where
  combined : arg ∉ combinedFlags
  sandbox : arg ∉ ["--sandbox", "-s"]
  flag : ¬ (startsWith arg "--sandbox=" ∨ arg ∈ ["--network-access", "--no-network-access"])
  config : ¬ (resident = false ∧ arg ∈ ["-c", "--config"])
  compact : ¬ (resident = false ∧
    (startsWith arg "--config=" ∨ (startsWith arg "-c" ∧ arg ≠ "-c")))

/-- The arguments without the options of permissions, in their order. -/
inductive Keeps (resident : Bool) : List String → List String → Prop
  | nil : Keeps resident [] []
  /-- an option of permissions and its value go -/
  | sandbox {arg value : String} {args kept : List String} (h : arg ∈ ["--sandbox", "-s"])
      (rest : Keeps resident args kept) : Keeps resident (arg :: value :: args) kept
  | flag {arg : String} {args kept : List String}
      (h : startsWith arg "--sandbox=" ∨ arg ∈ ["--network-access", "--no-network-access"])
      (rest : Keeps resident args kept) : Keeps resident (arg :: args) kept
  /-- an owner's configuration with a key of permissions goes -/
  | permission {arg value : String} {args kept : List String} (howner : resident = false)
      (h : arg ∈ ["-c", "--config"]) (hkey : isPermissionKey (configKey value))
      (rest : Keeps resident args kept) : Keeps resident (arg :: value :: args) kept
  /-- another configuration of an owner stays -/
  | config {arg value : String} {args kept : List String} (howner : resident = false)
      (h : arg ∈ ["-c", "--config"]) (hkey : isPermissionKey (configKey value) = false)
      (rest : Keeps resident args kept) :
      Keeps resident (arg :: value :: args) (arg :: value :: kept)
  | ordinary {arg : String} {args kept : List String} (h : Ordinary resident arg)
      (rest : Keeps resident args kept) : Keeps resident (arg :: args) (arg :: kept)

/-- The options of a policy. -/
def policyOptions (policy mode : String) (resident : Bool) : List String :=
  if resident then
    ["--sandbox", mode] ++ (if policy = "workspace-network" then ["--network-access"] else [])
  else
    ["-c", "sandbox_mode=\"" ++ mode ++ "\"", "-c",
      "sandbox_workspace_write.network_access=" ++
        (if policy = "workspace-network" then "true" else "false")]

/-- The options behind the executable of an owner, or behind the arguments of a resident. -/
def place (resident : Bool) (kept options : List String) : List String :=
  if resident then kept ++ options else kept.take 1 ++ options ++ kept.drop 1

theorem Keeps.sublist {resident : Bool} {args kept : List String} (h : Keeps resident args kept) :
    kept.Sublist args := by
  induction h with
  | nil => exact List.Sublist.refl []
  | sandbox _ _ ih => exact (ih.cons _).cons _
  | flag _ _ ih => exact ih.cons _
  | permission _ _ _ _ ih => exact (ih.cons _).cons _
  | config _ _ _ _ ih => exact (ih.cons_cons _).cons_cons _
  | ordinary _ _ ih => exact ih.cons_cons _

/-- The scan at an argument. -/
theorem keptArgs_cons (resident : Bool) (a : String) (rest : List String) :
    keptArgs resident (a :: rest) =
      if a ∈ combinedFlags then
        .error ("Normalize combined approval/sandbox flags before changing permissions; " ++
          "approval policy must remain explicit")
      else if a ∈ ["--sandbox", "-s"] then
        match rest with
        | [] => .error "Malformed sandbox option"
        | _ :: rest => keptArgs resident rest
      else if startsWith a "--sandbox=" ∨ a ∈ ["--network-access", "--no-network-access"] then
        keptArgs resident rest
      else if resident = false ∧ a ∈ ["-c", "--config"] then
        match rest with
        | [] => .error "Malformed owner config"
        | value :: rest =>
            (keptArgs resident rest).map fun out =>
              if isPermissionKey (configKey value) then out else a :: value :: out
      else if resident = false ∧ (startsWith a "--config=" ∨ (startsWith a "-c" ∧ a ≠ "-c")) then
        .error "Normalize compact owner config before changing permissions"
      else (keptArgs resident rest).map fun out => a :: out := by
  cases rest <;> rfl

/-- The scan keeps what is to be kept. -/
theorem keeps_of_ok {resident : Bool} {args kept : List String}
    (h : keptArgs resident args = .ok kept) : Keeps resident args kept := by
  induction args using keptArgs.induct resident generalizing kept with
  | case1 =>
      obtain rfl := Except.ok.inj h
      exact .nil
  | case2 a rest hcombined =>
      rw [keptArgs_cons, if_pos hcombined] at h
      cases h
  | case3 a hcombined hsandbox =>
      rw [keptArgs_cons, if_neg hcombined, if_pos hsandbox] at h
      cases h
  | case4 a hcombined hsandbox value rest ih =>
      rw [keptArgs_cons, if_neg hcombined, if_pos hsandbox] at h
      exact .sandbox hsandbox (ih h)
  | case5 a rest hcombined hsandbox hflag ih =>
      rw [keptArgs_cons, if_neg hcombined, if_neg hsandbox, if_pos hflag] at h
      exact .flag hflag (ih h)
  | case6 a hcombined hsandbox hflag hconfig =>
      rw [keptArgs_cons, if_neg hcombined, if_neg hsandbox, if_neg hflag, if_pos hconfig] at h
      cases h
  | case7 a hcombined hsandbox hflag hconfig value rest ih =>
      rw [keptArgs_cons, if_neg hcombined, if_neg hsandbox, if_neg hflag, if_pos hconfig] at h
      obtain ⟨out, hrest, rfl⟩ := map_ok h
      by_cases hkey : isPermissionKey (configKey value)
      · rw [if_pos hkey]
        exact .permission hconfig.1 hconfig.2 hkey (ih hrest)
      · rw [if_neg hkey]
        exact .config hconfig.1 hconfig.2 (by simpa using hkey) (ih hrest)
  | case8 a rest hcombined hsandbox hflag hconfig hcompact =>
      rw [keptArgs_cons, if_neg hcombined, if_neg hsandbox, if_neg hflag, if_neg hconfig,
        if_pos hcompact] at h
      cases h
  | case9 a rest hcombined hsandbox hflag hconfig hcompact ih =>
      rw [keptArgs_cons, if_neg hcombined, if_neg hsandbox, if_neg hflag, if_neg hconfig,
        if_neg hcompact] at h
      obtain ⟨out, hrest, rfl⟩ := map_ok h
      exact .ordinary ⟨hcombined, hsandbox, hflag, hconfig, hcompact⟩ (ih hrest)

example : (keptArgs false ["/bin/codex", "-s", "read-only", "app-server"]).toOption =
    some ["/bin/codex", "app-server"] := by decide

theorem config_plain : ∀ a ∈ ["-c", "--config"], a ∉ combinedFlags ∧ a ∉ ["--sandbox", "-s"] ∧
    ¬ (startsWith a "--sandbox=" ∨ a ∈ ["--network-access", "--no-network-access"]) := by
  decide

/-- What was kept once is kept again. -/
theorem Keeps.self {resident : Bool} {args kept : List String} (h : Keeps resident args kept) :
    Keeps resident kept kept := by
  induction h with
  | nil => exact .nil
  | sandbox _ _ ih => exact ih
  | flag _ _ ih => exact ih
  | permission _ _ _ _ ih => exact ih
  | config howner h hkey _ ih => exact .config howner h hkey ih
  | ordinary h _ ih => exact .ordinary h ih

theorem flag_plain : ∀ a ∈ combinedFlags ++ ["--sandbox", "-s"], ¬ (startsWith a "--sandbox=" ∨
    a ∈ ["--network-access", "--no-network-access"]) := by
  decide

/-- The scan of arguments in front of others keeps of them what is to be kept. -/
theorem Keeps.ok {resident : Bool} {args kept rest out : List String}
    (h : Keeps resident args kept) (hrest : keptArgs resident rest = .ok out) :
    keptArgs resident (args ++ rest) = .ok (kept ++ out) := by
  induction h with
  | nil => exact hrest
  | @sandbox arg value _ _ h _ ih =>
      have hcombined : ∀ a ∈ ["--sandbox", "-s"], a ∉ combinedFlags := by decide
      rw [List.cons_append, List.cons_append, keptArgs_cons, if_neg (hcombined arg h), if_pos h]
      exact ih
  | @flag arg _ _ h _ ih =>
      have hplain : arg ∉ combinedFlags ++ ["--sandbox", "-s"] := fun hmem => flag_plain arg hmem h
      rw [List.mem_append, not_or] at hplain
      rw [List.cons_append, keptArgs_cons, if_neg hplain.1, if_neg hplain.2, if_pos h, ih]
  | @permission arg value _ _ howner h hkey _ ih =>
      obtain ⟨hcombined, hsandbox, hflag⟩ := config_plain arg h
      rw [List.cons_append, List.cons_append, keptArgs_cons, if_neg hcombined, if_neg hsandbox,
        if_neg hflag, if_pos ⟨howner, h⟩]
      dsimp only
      rw [ih, hkey]
      rfl
  | @config arg value _ _ howner h hkey _ ih =>
      obtain ⟨hcombined, hsandbox, hflag⟩ := config_plain arg h
      rw [List.cons_append, List.cons_append, keptArgs_cons, if_neg hcombined, if_neg hsandbox,
        if_neg hflag, if_pos ⟨howner, h⟩]
      dsimp only
      rw [ih, hkey]
      rfl
  | ordinary h _ ih =>
      rw [List.cons_append, keptArgs_cons, if_neg h.combined, if_neg h.sandbox, if_neg h.flag,
        if_neg h.config, if_neg h.compact, ih]
      rfl

/-! ## The options of a policy -/

theorem policyMode_cases {policy mode : String} (h : policyMode policy = some mode) :
    (policy = "full" ∧ mode = "danger-full-access") ∨
      (policy = "read-only" ∧ mode = "read-only") ∨
      (policy = "workspace-network" ∧ mode = "workspace-write") := by
  unfold policyMode at h
  by_cases hfull : policy = "full"
  · rw [if_pos hfull] at h
    exact Or.inl ⟨hfull, (Option.some.inj h).symm⟩
  · rw [if_neg hfull] at h
    by_cases hread : policy = "read-only"
    · rw [if_pos hread] at h
      exact Or.inr (Or.inl ⟨hread, (Option.some.inj h).symm⟩)
    · rw [if_neg hread] at h
      by_cases hnetwork : policy = "workspace-network"
      · rw [if_pos hnetwork] at h
        exact Or.inr (Or.inr ⟨hnetwork, (Option.some.inj h).symm⟩)
      · rw [if_neg hnetwork] at h
        cases h

/-- The options of a policy are options of permissions. -/
theorem policyOptions_dropped {policy mode : String} (h : policyMode policy = some mode)
    (resident : Bool) : Keeps resident (policyOptions policy mode resident) [] := by
  rcases policyMode_cases h with ⟨rfl, rfl⟩ | ⟨rfl, rfl⟩ | ⟨rfl, rfl⟩ <;> cases resident
  · exact .permission rfl (by decide) (by decide)
      (.permission rfl (by decide) (by decide) .nil)
  · exact .sandbox (by decide) .nil
  · exact .permission rfl (by decide) (by decide)
      (.permission rfl (by decide) (by decide) .nil)
  · exact .sandbox (by decide) .nil
  · exact .permission rfl (by decide) (by decide)
      (.permission rfl (by decide) (by decide) .nil)
  · exact .sandbox (by decide) (.flag (Or.inr (by decide)) .nil)

/-- The arguments under a policy are what stays, with the options of the policy in place. -/
theorem policyArgs_ok {args result : List String} {policy : String} {resident : Bool}
    (h : policyArgs args policy resident = .ok result) :
    ∃ mode kept, policyMode policy = some mode ∧ keptArgs resident args = .ok kept ∧
      result = place resident kept (policyOptions policy mode resident) := by
  unfold policyArgs at h
  cases hmode : policyMode policy with
  | none =>
      rw [hmode] at h
      cases h
  | some mode =>
      rw [hmode] at h
      obtain ⟨kept, hkept, rfl⟩ := map_ok h
      refine ⟨mode, kept, rfl, hkept, ?_⟩
      cases resident
      · rfl
      · exact List.append_assoc _ _ _

/-- A first argument that is a path stays. -/
theorem keeps_executable {resident : Bool} {args kept : List String}
    (h : Keeps resident args kept) (habsolute : args.head?.any isAbsolute) :
    ∃ exe rest, kept = exe :: rest ∧ isAbsolute exe ∧ Ordinary resident exe ∧
      Keeps resident rest rest := by
  have hdash : ∀ {arg start : String}, startsWith arg start → start.toList.head? = some '-' →
      isAbsolute arg → False := by
    intro arg start hstart hhead hpath
    unfold startsWith at hstart
    obtain ⟨rest, hrest⟩ := List.isPrefixOf_iff_prefix.mp hstart
    have hfirst : arg.toList.head? = some '-' := by
      rw [← hrest, List.head?_append, hhead]
      rfl
    unfold isAbsolute at hpath
    rw [hfirst] at hpath
    exact absurd hpath (by decide)
  have hlist : ∀ arg ∈ ["--sandbox", "-s", "--network-access", "--no-network-access", "-c",
      "--config"], isAbsolute arg = false := by decide
  cases h with
  | nil => cases habsolute
  | @sandbox arg _ _ _ h _ =>
      have hpath : isAbsolute arg = true := habsolute
      rw [hlist arg (by simp at h ⊢; tauto)] at hpath
      cases hpath
  | @flag arg _ _ h _ =>
      have hpath : isAbsolute arg = true := habsolute
      rcases h with hstart | hmem
      · exact absurd hpath fun hpath => hdash hstart (by decide) hpath
      · rw [hlist arg (by simp at hmem ⊢; tauto)] at hpath
        cases hpath
  | @permission arg _ _ _ _ h _ _ =>
      have hpath : isAbsolute arg = true := habsolute
      rw [hlist arg (by simp at h ⊢; tauto)] at hpath
      cases hpath
  | @config arg _ _ _ _ h _ _ =>
      have hpath : isAbsolute arg = true := habsolute
      rw [hlist arg (by simp at h ⊢; tauto)] at hpath
      cases hpath
  | @ordinary arg _ kept h rest => exact ⟨arg, kept, rfl, habsolute, h, rest.self⟩

/-- The options that were put in are taken out again, and nothing else. -/
theorem keptArgs_place {resident : Bool} {args kept : List String} {policy mode : String}
    (h : Keeps resident args kept) (habsolute : args.head?.any isAbsolute)
    (hmode : policyMode policy = some mode) :
    keptArgs resident (place resident kept (policyOptions policy mode resident)) = .ok kept := by
  have hoptions := policyOptions_dropped hmode resident
  cases resident with
  | true =>
      have hnone : keptArgs true (policyOptions policy mode true ++ []) = .ok ([] ++ []) :=
        hoptions.ok rfl
      rw [List.append_nil, List.append_nil] at hnone
      have hkept := h.self.ok hnone
      rw [List.append_nil] at hkept
      exact hkept
  | false =>
      obtain ⟨exe, rest, rfl, -, hexe, hrest⟩ := keeps_executable h habsolute
      have hkept : keptArgs false (rest ++ []) = .ok (rest ++ []) := hrest.ok rfl
      rw [List.append_nil] at hkept
      have hone : Keeps false [exe] [exe] := .ordinary hexe .nil
      exact hone.ok (hoptions.ok hkept)

/-! ## Reading the labels back -/

theorem option_skip {args : List String} {key : String} (h : key ∉ args) (rest : List String) :
    option (args ++ rest) key = option rest key := by
  have hfilter : ((args ++ rest).zip (args ++ rest).tail).filter (fun window => window.1 = key) =
      (rest.zip rest.tail).filter fun window => window.1 = key := by
    induction args with
    | nil => rfl
    | cons a args ih =>
        have ha : a ≠ key := fun heq => h (heq ▸ List.mem_cons_self)
        have hargs : key ∉ args := fun hmem => h (List.mem_cons_of_mem a hmem)
        rw [← ih hargs, List.cons_append, List.tail_cons]
        cases args ++ rest with
        | nil => rfl
        | cons b l => rw [List.zip_cons_cons, List.filter_cons_of_neg (by simpa using ha)]; rfl
  unfold option
  rw [hfilter]

/-- No kept argument of a resident is an option of permissions. -/
theorem Keeps.resident_plain {args kept : List String} (h : Keeps true args kept) :
    "--sandbox" ∉ kept ∧ "--network-access" ∉ kept := by
  induction h with
  | nil => exact ⟨List.not_mem_nil, List.not_mem_nil⟩
  | sandbox _ _ ih => exact ih
  | flag _ _ ih => exact ih
  | permission howner => cases howner
  | config howner => cases howner
  | @ordinary arg _ _ h _ ih =>
      constructor
      · intro hmem
        rcases List.mem_cons.mp hmem with heq | hmem
        · exact h.sandbox (heq ▸ List.mem_cons_self)
        · exact ih.1 hmem
      · intro hmem
        rcases List.mem_cons.mp hmem with heq | hmem
        · exact h.flag (Or.inr (heq ▸ List.mem_cons_self))
        · exact ih.2 hmem

theorem resident_label {args kept : List String} {policy mode : String}
    (h : Keeps true args kept) (hmode : policyMode policy = some mode) :
    permissionLabel (place true kept (policyOptions policy mode true)) = policyLabel policy := by
  obtain ⟨hsandbox, hnetwork⟩ := h.resident_plain
  show permissionLabel (kept ++ _) = _
  unfold permissionLabel
  rw [option_skip hsandbox]
  rcases policyMode_cases hmode with ⟨rfl, rfl⟩ | ⟨rfl, rfl⟩ | ⟨rfl, rfl⟩
  · rfl
  · rfl
  · have hadded : "--network-access" ∈ kept ++ policyOptions "workspace-network"
        "workspace-write" true := List.mem_append_right kept (by decide)
    show (if _ then _ else _) = _
    rw [if_pos hadded]
    rfl

/-- The values of the configuration options, as the scan finds them. -/
def configValues : List String → List String
  | [] => []
  | [_] => []
  | a :: value :: rest =>
      if a ∈ ["--sandbox", "-s"] then configValues rest
      else if a ∈ ["-c", "--config"] then value :: configValues rest
      else configValues (value :: rest)

theorem configValues_skip {a : String} (hsandbox : a ∉ ["--sandbox", "-s"])
    (hconfig : a ∉ ["-c", "--config"]) (rest : List String) :
    configValues (a :: rest) = configValues rest := by
  cases rest with
  | nil => rfl
  | cons b rest => rw [configValues, if_neg hsandbox, if_neg hconfig]

theorem configPairs_skip {a : String} (h : a ∉ ["-c", "--config"]) (rest : List String) :
    configPairs (a :: rest) = configPairs rest := by
  cases rest with
  | nil => rfl
  | cons b rest =>
      have hne : ¬ (a = "-c" ∨ a = "--config") := by simpa using h
      unfold configPairs windows
      rw [List.tail_cons, List.zip_cons_cons, List.filter_cons_of_neg (by simpa using hne)]
      rfl

theorem configPairs_take {a : String} (h : a ∈ ["-c", "--config"]) (value : String)
    (rest : List String) :
    configPairs (a :: value :: rest) = value :: configPairs (value :: rest) := by
  have heq : a = "-c" ∨ a = "--config" := by simpa using h
  unfold configPairs windows
  rw [List.tail_cons, List.zip_cons_cons, List.filter_cons_of_pos (by simpa using heq)]
  rfl

example : configPairs ["/bin/codex", "-c", "model=o", "--config", "a=b"] = ["model=o", "a=b"] := by
  decide

/-- A value that is not spelled like an option is no option. -/
theorem dash_of_mem : ∀ a ∈ ["-c", "--config"], startsWith a "-" := by decide

theorem dash_of_isOpaque {a : String} (h : isOpaque a) : startsWith a "-" := by
  have hstart : ∀ {start : String}, startsWith a start → startsWith start "-" →
      startsWith a "-" := by
    intro start hfirst hsecond
    unfold startsWith at hfirst hsecond ⊢
    rw [List.isPrefixOf_iff_prefix] at hfirst hsecond ⊢
    exact hsecond.trans hfirst
  unfold isOpaque isProfile at h
  simp only [Bool.decide_or, Bool.or_eq_true, decide_eq_true_eq, Bool.decide_and,
    Bool.and_eq_true] at h
  rcases h with ((rfl | rfl | h) | h | h)
  · decide
  · decide
  · exact hstart h (by decide)
  · exact hstart h (by decide)
  · exact hstart h.1 (by decide)

theorem config_not_opaque : ∀ a ∈ ["-c", "--config"], isOpaque a = false := by decide

theorem config_not_sandbox : ∀ a ∈ ["-c", "--config"], a ∉ ["--sandbox", "-s"] := by decide

theorem flag_not_config : ∀ a ∈ ["-c", "--config", "--sandbox", "-s"],
    ¬ (startsWith a "--sandbox=" ∨ a ∈ ["--network-access", "--no-network-access"]) := by
  decide

/-- The configuration pairs of the kept arguments of an owner set no permission, and no kept
argument hides one. -/
theorem Keeps.owner_plain {args kept : List String} (h : Keeps false args kept)
    (hvalues : ∀ value ∈ configValues args, startsWith value "-" = false)
    (hprofile : ∀ arg ∈ kept, isProfile arg = false) :
    (∀ value ∈ configPairs kept, isPermissionKey (configKey value) = false) ∧
      ∀ arg ∈ kept, isOpaque arg = false := by
  induction h with
  | nil =>
      constructor
      · intro value hvalue
        simp [configPairs, windows] at hvalue
      · intro arg harg
        cases harg
  | @sandbox arg value args kept h _ ih =>
      refine ih (fun v hv => hvalues v ?_) hprofile
      rw [configValues, if_pos h]
      exact hv
  | @flag arg args kept h _ ih =>
      have hplain : arg ∉ ["-c", "--config", "--sandbox", "-s"] := fun hmem =>
        flag_not_config arg hmem h
      refine ih (fun v hv => hvalues v ?_) hprofile
      rw [configValues_skip (by simp at hplain ⊢; tauto) (by simp at hplain ⊢; tauto)]
      exact hv
  | @permission arg value args kept _ h _ _ ih =>
      refine ih (fun v hv => hvalues v ?_) hprofile
      rw [configValues, if_neg (config_not_sandbox arg h), if_pos h]
      exact List.mem_cons_of_mem value hv
  | @config arg value args kept _ h hkey _ ih =>
      have hlist : configValues (arg :: value :: args) = value :: configValues args := by
        rw [configValues, if_neg (config_not_sandbox arg h), if_pos h]
      have hdash : startsWith value "-" = false := hvalues value (by rw [hlist]; simp)
      obtain ⟨hpairs, hopaque⟩ := ih (fun v hv => hvalues v (by rw [hlist]; simp [hv]))
        fun a ha => hprofile a (by simp [ha])
      have hvalue : value ∉ ["-c", "--config"] := fun hmem => by
        rw [dash_of_mem value hmem] at hdash
        cases hdash
      constructor
      · intro v hv
        rw [configPairs_take h, configPairs_skip hvalue] at hv
        rcases List.mem_cons.mp hv with rfl | hv
        · exact hkey
        · exact hpairs v hv
      · intro a ha
        rcases List.mem_cons.mp ha with rfl | ha
        · exact config_not_opaque _ h
        · rcases List.mem_cons.mp ha with rfl | ha
          · cases hcase : isOpaque a with
            | false => rfl
            | true =>
                rw [dash_of_isOpaque hcase] at hdash
                cases hdash
          · exact hopaque a ha
  | @ordinary arg args kept h _ ih =>
      have hconfig : arg ∉ ["-c", "--config"] := fun hmem => h.config ⟨rfl, hmem⟩
      obtain ⟨hpairs, hopaque⟩ := ih
        (fun v hv => hvalues v (by rw [configValues_skip h.sandbox hconfig]; exact hv))
        fun a ha => hprofile a (by simp [ha])
      constructor
      · rw [configPairs_skip hconfig]
        exact hpairs
      · intro a ha
        rcases List.mem_cons.mp ha with rfl | ha
        · have hcompact : ¬ (startsWith a "--config=" ∨ (startsWith a "-c" ∧ a ≠ "-c")) :=
            fun hc => h.compact ⟨rfl, hc⟩
          have hnone := hprofile a List.mem_cons_self
          unfold isOpaque
          simp [hnone, hcompact]
        · exact hopaque a ha

/-- Pairs that set no permission leave what is found as it is. -/
theorem ownerScan_plain {values : List String}
    (h : ∀ value ∈ values, isPermissionKey (configKey value) = false) (mode network : Option String) :
    ownerScan values mode network = some (mode, network) := by
  induction values with
  | nil => rfl
  | cons value values ih =>
      have hrest := ih fun v hv => h v (List.mem_cons_of_mem value hv)
      rw [ownerScan]
      cases hsplit : Text.splitOnce '=' value.toList with
      | none => exact hrest
      | some parts =>
          obtain ⟨heq, hkey⟩ := Text.splitOnce_eq_some hsplit
          have htake : value.toList.takeWhile (fun c => c ≠ '=') = parts.1 := by
            rw [heq, List.takeWhile_append_of_pos]
            · simp
            · intro c hc
              have hne : c ≠ '=' := fun h => hkey (h ▸ hc)
              simpa using hne
          have hconfig : configKey value = Text.trim isWhitespace parts.1 := by
            unfold configKey
            rw [htake]
            rfl
          have hplain := h value List.mem_cons_self
          rw [hconfig] at hplain
          unfold isPermissionKey at hplain
          simp only [Bool.decide_or, Bool.or_eq_false_iff, decide_eq_false_iff_not,
            Bool.not_eq_true] at hplain
          obtain ⟨hmode, hnetwork, hdefault, hpermissions, hdotted⟩ := hplain
          dsimp only
          rw [if_neg hmode, if_neg hnetwork, if_neg]
          · exact hrest
          · intro hor
            rcases hor with hor | hor | hor
            · exact hdefault hor
            · exact hpermissions hor
            · rw [hdotted] at hor
              cases hor

/-- The pairs of the options of a policy stand before those of the arguments. -/
theorem configPairs_options {exe mode network : String} (hexe : exe ∉ ["-c", "--config"])
    (hmode : mode ∉ ["-c", "--config"]) (hnetwork : network ∉ ["-c", "--config"])
    (rest : List String) :
    configPairs (exe :: "-c" :: mode :: "-c" :: network :: rest) =
      mode :: network :: configPairs rest := by
  rw [configPairs_skip hexe, configPairs_take (by decide), configPairs_skip hmode,
    configPairs_take (by decide), configPairs_skip hnetwork]

theorem ownerScan_mode {pair : String} (mode : String)
    (h : Text.splitOnce '=' pair.toList =
      some ("sandbox_mode".toList, Decoding.quote :: mode.toList ++ [Decoding.quote]))
    (hvalue : configValue (Decoding.quote :: mode.toList ++ [Decoding.quote]) = mode)
    (rest : List String) (network : Option String) :
    ownerScan (pair :: rest) none network = ownerScan rest (some mode) network := by
  have hkey : Text.trim isWhitespace "sandbox_mode".toList = "sandbox_mode".toList := by
    decide
  rw [ownerScan, h]
  dsimp only
  rw [hkey, if_pos rfl, hvalue]

theorem ownerScan_network {pair : String} (network : String)
    (h : Text.splitOnce '=' pair.toList =
      some ("sandbox_workspace_write.network_access".toList, network.toList))
    (hvalue : configValue network.toList = network) (rest : List String) (mode : Option String) :
    ownerScan (pair :: rest) mode none = ownerScan rest mode (some network) := by
  have hkey : Text.trim isWhitespace "sandbox_workspace_write.network_access".toList =
      "sandbox_workspace_write.network_access".toList := by decide
  have hne : "sandbox_workspace_write.network_access".toList ≠ "sandbox_mode".toList := by
    decide
  rw [ownerScan, h]
  dsimp only
  rw [hkey, if_neg hne, if_pos rfl, hvalue]

/-- What the options of a policy set. -/
theorem ownerScan_options {policy mode : String} (h : policyMode policy = some mode) :
    ∃ pair network value, policyOptions policy mode false = ["-c", pair, "-c", network] ∧
      (∀ arg ∈ ["-c", pair, "-c", network], isOpaque arg = false) ∧
      pair ∉ ["-c", "--config"] ∧ network ∉ ["-c", "--config"] ∧
      value = (if policy = "workspace-network" then "true" else "false") ∧
      ∀ rest, ownerScan (pair :: network :: rest) none none =
        ownerScan rest (some mode) (some value) := by
  rcases policyMode_cases h with ⟨rfl, rfl⟩ | ⟨rfl, rfl⟩ | ⟨rfl, rfl⟩
  · refine ⟨_, _, "false", rfl, by decide, by decide, by decide, rfl,
      fun rest => ?_⟩
    rw [ownerScan_mode "danger-full-access" (by decide) (by decide),
      ownerScan_network "false" (by decide) (by decide)]
  · refine ⟨_, _, "false", rfl, by decide, by decide, by decide, rfl,
      fun rest => ?_⟩
    rw [ownerScan_mode "read-only" (by decide) (by decide),
      ownerScan_network "false" (by decide) (by decide)]
  · refine ⟨_, _, "true", rfl, by decide, by decide, by decide, rfl,
      fun rest => ?_⟩
    rw [ownerScan_mode "workspace-write" (by decide) (by decide),
      ownerScan_network "true" (by decide) (by decide)]

theorem owner_label {args kept : List String} {policy mode : String} (h : Keeps false args kept)
    (habsolute : args.head?.any isAbsolute) (hmode : policyMode policy = some mode)
    (hvalues : ∀ value ∈ configValues args, startsWith value "-" = false)
    (hprofile : ∀ arg ∈ kept, isProfile arg = false) :
    ownerPermission (place false kept (policyOptions policy mode false)) = policyLabel policy := by
  obtain ⟨exe, rest, rfl, hpath, hexe, -⟩ := keeps_executable h habsolute
  obtain ⟨hpairs, hopaque⟩ := h.owner_plain hvalues hprofile
  have hconfig : exe ∉ ["-c", "--config"] := fun hmem => hexe.config ⟨rfl, hmem⟩
  rw [configPairs_skip hconfig] at hpairs
  obtain ⟨pair, network, value, hoptions, hplain, hpair, hnetwork, hvalue, hscan⟩ :=
    ownerScan_options hmode
  have hplace : place false (exe :: rest) (policyOptions policy mode false) =
      exe :: "-c" :: pair :: "-c" :: network :: rest := by
    rw [hoptions]
    rfl
  have hclear : (exe :: "-c" :: pair :: "-c" :: network :: rest).any isOpaque = false := by
    refine List.any_eq_false.mpr fun arg harg => ?_
    rw [Bool.not_eq_true]
    rcases List.mem_cons.mp harg with heq | hmem
    · exact hopaque arg (heq ▸ List.mem_cons_self)
    · rcases List.mem_append.mp (show arg ∈ ["-c", pair, "-c", network] ++ rest from hmem) with
        hmem | hmem
      · exact hplain arg hmem
      · exact hopaque arg (List.mem_cons_of_mem exe hmem)
  rw [hplace, ownerPermission, configPairs_options hconfig hpair hnetwork, hscan,
    ownerScan_plain hpairs]
  dsimp only
  rw [hclear, if_neg (by simp), hvalue]
  rcases policyMode_cases hmode with ⟨rfl, rfl⟩ | ⟨rfl, rfl⟩ | ⟨rfl, rfl⟩
  · rfl
  · rfl
  · rfl

/-- The options of a policy replace those of any other: rewriting is idempotent and forgets the
policy before, what stays keeps its order, and the label of the result is that of the policy. -/
theorem policyArgs_rewrites {args result : List String} {policy : String} {resident : Bool}
    (habsolute : args.head?.any isAbsolute) (h : policyArgs args policy resident = .ok result) :
    policyArgs result policy resident = .ok result ∧
      (∀ other, policyArgs result other resident = policyArgs args other resident) ∧
      (∃ mode kept, policyMode policy = some mode ∧ Keeps resident args kept ∧
        kept.Sublist args ∧ result = place resident kept (policyOptions policy mode resident)) ∧
      (resident = true → permissionLabel result = policyLabel policy) ∧
      (resident = false → (∀ value ∈ configValues args, startsWith value "-" = false) →
        (∀ arg ∈ result, isProfile arg = false) →
          ownerPermission result = policyLabel policy) := by
  obtain ⟨mode, kept, hmode, hkept, rfl⟩ := policyArgs_ok h
  have hkeeps := keeps_of_ok hkept
  have hagain := keptArgs_place hkeeps habsolute hmode
  have hother : ∀ other, policyArgs (place resident kept (policyOptions policy mode resident))
      other resident = policyArgs args other resident := by
    intro other
    unfold policyArgs
    rw [hagain, hkept]
  refine ⟨(hother policy).trans h, hother, ⟨mode, kept, hmode, hkeeps, hkeeps.sublist, rfl⟩,
    ?_, ?_⟩
  · intro hresident
    subst hresident
    exact resident_label hkeeps hmode
  · intro howner hvalues hprofile
    subst howner
    refine owner_label hkeeps habsolute hmode hvalues fun arg harg => hprofile arg ?_
    obtain ⟨exe, rest, rfl, -⟩ := keeps_executable hkeeps habsolute
    show arg ∈ exe :: (_ ++ rest)
    rcases List.mem_cons.mp harg with rfl | hmem
    · exact List.mem_cons_self
    · exact List.mem_cons_of_mem _ (List.mem_append_right _ hmem)

theorem policyArgs_rewrites_owner :
    let args := ["/bin/codex", "app-server", "-s", "read-only", "-c", "model=o"]
    let result := ["/bin/codex", "-c", "sandbox_mode=\"workspace-write\"", "-c",
      "sandbox_workspace_write.network_access=true", "app-server", "-c", "model=o"]
    policyArgs args "workspace-network" false = .ok result ∧
      policyArgs result "workspace-network" false = .ok result ∧
      ownerPermission result = "Project Access" := by
  intro args result
  have hargs : policyArgs args "workspace-network" false = .ok result := by decide
  obtain ⟨hagain, -, -, -, hlabel⟩ :=
    policyArgs_rewrites (by decide) hargs
  exact ⟨hargs, hagain, hlabel rfl (by decide) (by decide)⟩

end Reconnect

end CodexMonitor
