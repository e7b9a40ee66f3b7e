import CodexMonitor.Lib.Decoding
import CodexMonitor.Lib.Text
import CodexMonitor.Reconnect.Execute

/-!
# Unit files of systemd

A service is read from its unit file, and a permission change writes the file again
with other arguments.  `parse` and `rewrite` follow the sections of the file each in
its own way; they agree on every text that `parse` accepts, so the line that is
replaced is the one the arguments were read from.  The arguments are quoted such
that `words` reads them back.
-/

namespace CodexMonitor

namespace Reconnect

namespace Systemd

open Decoding (quote)
open Text (splitOnce splitInclusive)

def trim (text : List Char) : List Char := Text.trim isWhitespace text

/-! ## Words -/

def apostrophe : Char := Char.ofNat 0x27

/-- The loop of `words`: the words so far, the one that is read, the quote it is in, and whether it
has started. -/
def wordsLoop : List Char → List String → List Char → Option Char → Bool →
    Except String (List String)
  | [], _, _, some _, _ => .error "Unterminated systemd quoting"
  | [], out, word, none, started => .ok (if started then out ++ [String.ofList word] else out)
  | c :: rest, out, word, some delimiter, started =>
      if c = delimiter then wordsLoop rest out word none started
      else wordsLoop rest out (word ++ [c]) (some delimiter) started
  | c :: rest, out, word, none, started =>
      if c = apostrophe ∨ c = quote then wordsLoop rest out word (some c) true
      else if isWhitespace c then
        if started then wordsLoop rest (out ++ [String.ofList word]) [] none false
        else wordsLoop rest out word none false
      else wordsLoop rest out (word ++ [c]) none true

/-- The characters that unit files expand. -/
def isExpanded (c : Char) : Bool := c ∈ ['\\', '%', '$']

/-- Only literal arguments are read. -/
def words (value : List Char) : Except String (List String) :=
  if value.any fun c => isExpanded c || c.toNat = 0 then
    .error "Use literal systemd arguments without escapes or expansions for reconnect"
  else wordsLoop value [] [] none false

/-! ## `parse` -/

/-- What the lines of a unit file have said. -/
structure UnitFile where
  header : List Char
  args : Option (List String)
  env : List (String × String)
  cwd : Option String
deriving DecidableEq, Repr

def setEnv (env : List (String × String)) (key value : String) : List (String × String) :=
  (env.filter fun entry => entry.1 ≠ key).orderedInsert (fun a b => a.1 ≤ b.1) (key, value)

def isNameChar (c : Char) : Bool := c.isAlphanum || c = '_'

def parseEnvironment (env : List (String × String)) :
    List String → Except String (List (String × String))
  | [] => .ok env
  | entry :: entries =>
      match splitOnce '=' entry.toList with
      | none => .error "Invalid unit environment"
      | some (key, value) =>
          if key = [] ∨ ¬ key.all isNameChar then .error "Invalid environment name"
          else parseEnvironment (setEnv env (String.ofList key) (String.ofList value)) entries

/-- The directives that are left alone. -/
def ignoredKeys : List String :=
  ["Restart", "RestartSec", "TimeoutStartSec", "TimeoutStopSec", "KillMode", "KillSignal",
    "SendSIGKILL", "StandardOutput", "StandardError", "SyslogIdentifier", "UMask", "MemoryHigh",
    "MemoryMax", "TasksMax", "CPUQuota"]

def execKey : List Char := "ExecStart".toList

def serviceSection : List Char := "[Service]".toList

/-- A directive of the service section. -/
def directive (unit : UnitFile) (key value : List Char) : Except String UnitFile :=
  if key = execKey then
    if unit.args.isSome then .error "Reconnect requires exactly one ExecStart"
    else
      match words value with
      | .error message => .error message
      | .ok parsed =>
          if parsed.head?.any isAbsolute then .ok { unit with args := some parsed }
          else .error "Reconnect requires an absolute direct executable"
  else if key = "Environment".toList then
    match words value with
    | .error message => .error message
    | .ok entries =>
        match parseEnvironment (if value = [] then [] else unit.env) entries with
        | .error message => .error message
        | .ok env => .ok { unit with env := env }
  else if key = "WorkingDirectory".toList then
    match words value with
    | .error message => .error message
    | .ok [dir] =>
        if isAbsolute dir then .ok { unit with cwd := some dir }
        else .error "Reconnect requires an absolute working directory"
    | .ok _ => .error "Reconnect requires an absolute working directory"
  else if key = "Type".toList ∧ (value = "simple".toList ∨ value = "exec".toList) then .ok unit
  else if String.ofList key ∈ ignoredKeys then .ok unit
  else .error ("Unsupported reconnect service directive: " ++ String.ofList key)

/-- A line without the white space around it. -/
def parseLine (unit : UnitFile) (line : List Char) : Except String UnitFile :=
  if line = [] ∨ line.head? = some '#' ∨ line.head? = some ';' then .ok unit
  else if line.getLast? = some '\\' then
    .error "Normalize unit line continuations before reconnect"
  else if line.head? = some '[' ∧ line.getLast? = some ']' then .ok { unit with header := line }
  else
    match splitOnce '=' line with
    | none => .error "Invalid unit directive"
    | some (key, value) =>
        if unit.header = serviceSection then directive unit (trim key) (trim value) else .ok unit

/-- `str::lines` cuts a line feed off, and a carriage return before it. -/
def chop (line : List Char) : List Char :=
  if line.getLast? = some '\n' then
    if line.dropLast.getLast? = some '\r' then line.dropLast.dropLast else line.dropLast
  else line

def parseLines (unit : UnitFile) : List (List Char) → Except String UnitFile
  | [] => .ok unit
  | line :: lines =>
      match parseLine unit (trim (chop line)) with
      | .error message => .error message
      | .ok unit => parseLines unit lines

def toUtf8 (text : List Char) : Bytes := text.flatMap String.utf8EncodeChar

/-- `str::from_utf8` -/
def fromUtf8 (bytes : Bytes) : Option (List Char) :=
  (String.fromUTF8? bytes.toByteArray).map String.toList

def isLabelChar (c : Char) : Bool := c.isAlphanum || c ∈ ['_', '.', '-']

def isLabel (label : String) : Bool :=
  ".service".toList.isSuffixOf label.toList ∧ label.toList.head? ≠ some '-' ∧
    label.toList.all isLabelChar

/-- The service of a unit file; `home` is the user's. -/
def parse (home : Option String) (path : String) (raw : Bytes) : Except String Job :=
  match fileName path with
  | none => .error "Invalid unit name"
  | some label =>
      if isLabel label = false then
        .error "Reconnect requires a direct, non-template user service"
      else
        match fromUtf8 raw with
        | none => .error "invalid utf-8"
        | some text =>
            match parseLines ⟨[], none, [], none⟩ (splitInclusive '\n' text) with
            | .error message => .error message
            | .ok unit =>
                match unit.args with
                | none => .error "Missing ExecStart"
                | some args =>
                    let home := (unit.env.lookup "HOME").or home
                    .ok ⟨path, raw, ⟨label, args, unit.env, unit.cwd.or home⟩⟩

/-! ## `rewrite` -/

/-- An argument in single quotes; a single quote stands in double quotes of its own. -/
def quoteArg (arg : String) : List Char :=
  apostrophe :: (arg.toList.flatMap fun c =>
    if c = apostrophe then [apostrophe, quote, apostrophe, quote, apostrophe] else [c]) ++ [apostrophe]

def quoteArgs (args : List String) : List Char := [' '].intercalate (args.map quoteArg)

/-- The new line, its line feed included. -/
def execLine (args : List String) : List Char := execKey ++ '=' :: quoteArgs args ++ ['\n']

/-- Whether a line is a directive for the executable. -/
def isExec (line : List Char) : Bool :=
  (splitOnce '=' line).any fun parts => trim parts.1 = execKey

/-- Whether the lines behind a line are in the service section. -/
def inService (service : Bool) (line : List Char) : Bool :=
  if line.head? = some '[' then line = serviceSection else service

/-- The text with the directives for the executable replaced, and their number. -/
def rewriteLines (new : List Char) (service : Bool) : List (List Char) → List Char × Nat
  | [] => ([], 0)
  | line :: lines =>
      let trimmed := trim line
      let service := inService service trimmed
      let rest := rewriteLines new service lines
      if service ∧ isExec trimmed then (new ++ rest.1, rest.2 + 1) else (line ++ rest.1, rest.2)

def isLiteral (arg : String) : Bool := arg.toList.all fun c => !isControl c && !isExpanded c

def rewrite (home : Option String) (job : Job) (args : List String) : Except String Bytes :=
  if args.all isLiteral = false then
    .error "Permission arguments require literal systemd values"
  else
    match fromUtf8 job.raw with
    | none => .error "invalid utf-8"
    | some text =>
        let output := rewriteLines (execLine args) false (splitInclusive '\n' text)
        match parse home job.path (toUtf8 output.1) with
        | .error message => .error message
        | .ok parsed =>
            if output.2 ≠ 1 ∨ parsed.args ≠ args ∨ parsed.settings.env ≠ job.settings.env ∨
                parsed.settings.cwd ≠ job.settings.cwd then
              .error "Rewritten unit did not preserve service configuration"
            else .ok (toUtf8 output.1)

/-! ## Quoting -/

/-- One character between single quotes. -/
def quoteChar (c : Char) : List Char :=
  if c = apostrophe then [apostrophe, quote, apostrophe, quote, apostrophe] else [c]

theorem quoteArg_eq (arg : String) :
    quoteArg arg = apostrophe :: (arg.toList.flatMap quoteChar ++ [apostrophe]) := rfl

/-- What stands between single quotes is read as it was before quoting. -/
theorem wordsLoop_quoted (body rest word : List Char) (out : List String) :
    wordsLoop (body.flatMap quoteChar ++ apostrophe :: rest) out word (some apostrophe) true =
      wordsLoop rest out (word ++ body) none true := by
  induction body generalizing word with
  | nil =>
      rw [List.flatMap_nil, List.nil_append, wordsLoop, if_pos rfl, List.append_nil]
  | cons c body ih =>
      rw [List.flatMap_cons, quoteChar]
      by_cases hc : c = apostrophe
      · -- out of the single quotes, through double quotes, and in again
        rw [if_pos hc, hc]
        have hne : apostrophe ≠ quote := by decide
        show wordsLoop (apostrophe :: quote :: apostrophe :: quote :: apostrophe ::
          (body.flatMap quoteChar ++ apostrophe :: rest)) out word (some apostrophe) true = _
        rw [wordsLoop, if_pos rfl, wordsLoop, if_pos (Or.inr rfl), wordsLoop, if_neg hne, wordsLoop,
          if_pos rfl, wordsLoop, if_pos (Or.inl rfl), ih, List.append_assoc]
        rfl
      · rw [if_neg hc]
        show wordsLoop (c :: (body.flatMap quoteChar ++ apostrophe :: rest)) out word
          (some apostrophe) true = _
        rw [wordsLoop, if_neg hc, ih, List.append_assoc]
        rfl

theorem wordsLoop_quoteArg (arg : String) (rest : List Char) (out : List String) (started : Bool) :
    wordsLoop (quoteArg arg ++ rest) out [] none started =
      wordsLoop rest out arg.toList none true := by
  rw [quoteArg_eq, List.cons_append, List.append_assoc, wordsLoop, if_pos (Or.inl rfl)]
  exact wordsLoop_quoted arg.toList rest [] out

theorem wordsLoop_quoteArgs (args : List String) (out : List String) :
    wordsLoop (quoteArgs args) out [] none false = .ok (out ++ args) := by
  induction args generalizing out with
  | nil => rw [List.append_nil]; rfl
  | cons arg args ih =>
      cases args with
      | nil =>
          have hone := wordsLoop_quoteArg arg [] out false
          rw [List.append_nil] at hone
          show wordsLoop (quoteArg arg ++ []) out [] none false = _
          rw [List.append_nil, hone, wordsLoop, if_pos rfl, String.ofList_toList]
      | cons second args =>
          have hspace : ¬ (' ' = apostrophe ∨ ' ' = quote) := by decide
          have hwhite : isWhitespace ' ' = true := by decide
          have hjoin : quoteArgs (arg :: second :: args) =
              quoteArg arg ++ (' ' :: quoteArgs (second :: args)) := by
            unfold quoteArgs
            rw [List.map_cons, List.map_cons, List.intercalate_cons_cons, List.append_assoc]
            rfl
          rw [hjoin, wordsLoop_quoteArg, wordsLoop, if_neg hspace, if_pos hwhite, if_pos rfl,
            String.ofList_toList, ih, List.append_assoc]
          rfl

/-- A character of the quoted arguments is one of an argument, a quote or a space. -/
theorem mem_quoteArgs {args : List String} {c : Char} (h : c ∈ quoteArgs args) :
    (∃ arg ∈ args, c ∈ arg.toList) ∨ c = apostrophe ∨ c = quote ∨ c = ' ' := by
  induction args with
  | nil => cases h
  | cons arg args ih =>
      have hquoted : c ∈ quoteArg arg →
          (∃ a ∈ arg :: args, c ∈ a.toList) ∨ c = apostrophe ∨ c = quote ∨ c = ' ' := by
        intro hmem
        rw [quoteArg_eq] at hmem
        rcases List.mem_cons.mp hmem with hc | hmem
        · exact Or.inr (Or.inl hc)
        · rcases List.mem_append.mp hmem with hmem | hc
          · obtain ⟨d, hd, hcd⟩ := List.mem_flatMap.mp hmem
            unfold quoteChar at hcd
            by_cases happ : d = apostrophe
            · rw [if_pos happ] at hcd
              simp only [List.mem_cons, List.not_mem_nil, or_false] at hcd
              tauto
            · rw [if_neg happ] at hcd
              rw [List.mem_singleton.mp hcd]
              exact Or.inl ⟨arg, List.mem_cons_self, hd⟩
          · exact Or.inr (Or.inl (List.mem_singleton.mp hc))
      cases args with
      | nil =>
          refine hquoted ?_
          simpa [quoteArgs] using h
      | cons second args =>
          unfold quoteArgs at h ih
          rw [List.map_cons, List.map_cons, List.intercalate_cons_cons, List.append_assoc] at h
          rcases List.mem_append.mp h with hmem | hmem
          · exact hquoted hmem
          · rcases List.mem_append.mp hmem with hc | hmem
            · exact Or.inr (Or.inr (Or.inr (List.mem_singleton.mp hc)))
            · rcases ih hmem with ⟨a, ha, hca⟩ | hc
              · exact Or.inl ⟨a, List.mem_cons_of_mem arg ha, hca⟩
              · exact Or.inr hc

/-- Reading words undoes quoting. -/
theorem words_quoteArgs {args : List String}
    (h : ∀ arg ∈ args, ∀ c ∈ arg.toList, isExpanded c = false ∧ c.toNat ≠ 0) :
    words (quoteArgs args) = .ok args := by
  have hliteral : ¬ ((quoteArgs args).any fun c => isExpanded c || c.toNat = 0) = true := by
    intro hany
    obtain ⟨c, hc, hbad⟩ := List.any_eq_true.mp hany
    rcases mem_quoteArgs hc with ⟨arg, harg, hmem⟩ | rfl | rfl | rfl
    · obtain ⟨hexpanded, hzero⟩ := h arg harg c hmem
      simp [hexpanded, hzero] at hbad
    · revert hbad; decide
    · revert hbad; decide
    · revert hbad; decide
  rw [words, if_neg hliteral, wordsLoop_quoteArgs, List.nil_append]

/-! ## Bytes and lines -/

/-- Bytes are read as the text whose encoding they are. -/
theorem fromUtf8_iff {bytes : Bytes} {text : List Char} :
    fromUtf8 bytes = some text ↔ toUtf8 text = bytes := by
  have hencode : ∀ s : String, s.toByteArray = (toUtf8 s.toList).toByteArray := by
    intro s
    rw [← String.utf8Encode_toList]
    rfl
  unfold fromUtf8 String.fromUTF8?
  rw [← List.toByteArray_inj]
  constructor
  · intro h
    obtain ⟨s, hs, rfl⟩ := Option.map_eq_some_iff.mp h
    split at hs
    · obtain rfl := Option.some.inj hs
      exact (hencode _).symm
    · cases hs
  · intro h
    have hvalid : bytes.toByteArray.IsValidUTF8 := by
      rw [← h, ← String.toList_ofList (l := text), ← hencode]
      exact (String.ofList text).isValidUTF8
    rw [dif_pos hvalid]
    have hsame : String.fromUTF8 bytes.toByteArray hvalid = String.ofList text := by
      rw [← String.toByteArray_inj, hencode (String.ofList text), String.toList_ofList, h]
      rfl
    rw [hsame, Option.map_some, String.toList_ofList]

theorem isWhitespace_ends : isWhitespace '\n' = true ∧ isWhitespace '\r' = true := by decide

/-- What ends a line is trimmed away. -/
theorem trim_chop (line : List Char) : trim (chop line) = trim line := by
  have hlast : ∀ {l : List Char} {c : Char}, l.getLast? = some c → isWhitespace c = true →
      trim l.dropLast = trim l := by
    intro l c hc hwhite
    obtain ⟨body, rfl⟩ := List.getLast?_eq_some_iff.mp hc
    rw [List.dropLast_concat]
    refine (Text.trim_append (fun a ha => ?_) body).symm
    rw [List.mem_singleton.mp ha]
    exact hwhite
  unfold chop
  by_cases hfeed : line.getLast? = some '\n'
  · rw [if_pos hfeed]
    by_cases hreturn : line.dropLast.getLast? = some '\r'
    · rw [if_pos hreturn, hlast hreturn isWhitespace_ends.2, hlast hfeed isWhitespace_ends.1]
    · rw [if_neg hreturn, hlast hfeed isWhitespace_ends.1]
  · rw [if_neg hfeed]

/-! ## One line -/

/-- A directive for the executable sets the arguments of a unit that has none; any other keeps the
arguments and does not read them, and its key does not open a bracket.  None leaves the section. -/
theorem directive_cases {unit next : UnitFile} {key value : List Char}
    (h : directive unit key value = .ok next) :
    (key = execKey ∧ unit.args = none ∧
        ∃ parsed, words value = .ok parsed ∧ next = { unit with args := some parsed }) ∨
      (key ≠ execKey ∧ key.head? ≠ some '[' ∧ next.args = unit.args ∧
        next.header = unit.header ∧ ∀ args,
          directive { unit with args := args } key value = .ok { next with args := args }) := by
  unfold directive at h
  by_cases hexec : key = execKey
  · rw [if_pos hexec] at h
    by_cases hsome : unit.args.isSome
    · rw [if_pos hsome] at h
      cases h
    · rw [if_neg hsome] at h
      have hnone : unit.args = none := by simpa using hsome
      cases hwords : words value with
      | error message =>
          rw [hwords] at h
          cases h
      | ok parsed =>
          rw [hwords] at h
          dsimp only at h
          by_cases habsolute : parsed.head?.any isAbsolute
          · rw [if_pos habsolute] at h
            exact Or.inl ⟨hexec, hnone, parsed, rfl, (Except.ok.inj h).symm⟩
          · rw [if_neg habsolute] at h
            cases h
  · rw [if_neg hexec] at h
    refine Or.inr ⟨hexec, ?_⟩
    by_cases henv : key = "Environment".toList
    · have hhead : key.head? ≠ some '[' := by rw [henv]; decide
      rw [if_pos henv] at h
      cases hwords : words value with
      | error message =>
          rw [hwords] at h
          cases h
      | ok entries =>
          rw [hwords] at h
          dsimp only at h
          cases hparsed : parseEnvironment (if value = [] then [] else unit.env) entries with
          | error message =>
              rw [hparsed] at h
              cases h
          | ok env =>
              rw [hparsed] at h
              obtain rfl := Except.ok.inj h
              refine ⟨hhead, rfl, rfl, fun args => ?_⟩
              unfold directive
              rw [if_neg hexec, if_pos henv, hwords]
              dsimp only
              rw [hparsed]
    · rw [if_neg henv] at h
      by_cases hcwd : key = "WorkingDirectory".toList
      · have hhead : key.head? ≠ some '[' := by rw [hcwd]; decide
        rw [if_pos hcwd] at h
        cases hwords : words value with
        | error message =>
            rw [hwords] at h
            cases h
        | ok values =>
            rw [hwords] at h
            match values, h with
            | [dir], h =>
                dsimp only at h
                by_cases habsolute : isAbsolute dir
                · rw [if_pos habsolute] at h
                  obtain rfl := Except.ok.inj h
                  refine ⟨hhead, rfl, rfl, fun args => ?_⟩
                  unfold directive
                  rw [if_neg hexec, if_neg henv, if_pos hcwd, hwords]
                  exact if_pos habsolute
                · rw [if_neg habsolute] at h
                  cases h
            | [], h => cases h
            | _ :: _ :: _, h => cases h
      · rw [if_neg hcwd] at h
        by_cases htype : key = "Type".toList ∧ (value = "simple".toList ∨ value = "exec".toList)
        · rw [if_pos htype] at h
          obtain rfl := Except.ok.inj h
          refine ⟨by rw [htype.1]; decide, rfl, rfl, fun args => ?_⟩
          unfold directive
          rw [if_neg hexec, if_neg henv, if_neg hcwd, if_pos htype]
        · rw [if_neg htype] at h
          by_cases hignored : String.ofList key ∈ ignoredKeys
          · have hheads : ∀ k ∈ ignoredKeys, k.toList.head? ≠ some '[' := by decide
            have hhead := hheads _ hignored
            rw [String.toList_ofList] at hhead
            rw [if_pos hignored] at h
            obtain rfl := Except.ok.inj h
            refine ⟨hhead, rfl, rfl, fun args => ?_⟩
            unfold directive
            rw [if_neg hexec, if_neg henv, if_neg hcwd, if_neg htype, if_pos hignored]
          · rw [if_neg hignored] at h
            cases h

/-- A key that starts with a bracket is no key of the service section. -/
theorem head_key {line key value : List Char} (hsplit : splitOnce '=' line = some (key, value))
    {c : Char} (hne : c ≠ '=') (hwhite : isWhitespace c = false) (h : line.head? = some c) :
    (trim key).head? = some c := by
  obtain ⟨rfl, -⟩ := Text.splitOnce_eq_some hsplit
  refine Text.head_trim ?_ hwhite
  cases key with
  | nil => exact absurd (Option.some.inj h).symm hne
  | cons d key => exact h

/-- A line that starts with a character no key starts with is no directive for the executable. -/
theorem isExec_head {line : List Char} {c : Char} (h : line.head? = some c) (hne : c ≠ '=')
    (hwhite : isWhitespace c = false) (hkey : c ≠ 'E') : isExec line = false := by
  unfold isExec
  cases hsplit : splitOnce '=' line with
  | none => rfl
  | some parts =>
      have hhead := head_key hsplit hne hwhite h
      have hother : trim parts.1 ≠ execKey := by
        intro heq
        rw [heq] at hhead
        exact hkey (Option.some.inj hhead).symm
      simp [hother]

/-- What a line may be, whatever the lines before it said: a comment, the head of a section,
malformed, or a directive. -/
theorem parseLine_cases (line : List Char) :
    (line.head? ≠ some '[' ∧ isExec line = false ∧ ∀ unit, parseLine unit line = .ok unit) ∨
      (line.head? = some '[' ∧ isExec line = false ∧
        ∀ unit, parseLine unit line = .ok { unit with header := line }) ∨
      (∃ message, ∀ unit, parseLine unit line = .error message) ∨
      (line ≠ serviceSection ∧ ∃ key value, splitOnce '=' line = some (key, value) ∧
        ∀ unit, parseLine unit line =
          if unit.header = serviceSection then directive unit (trim key) (trim value)
          else .ok unit) := by
  by_cases hcomment : line = [] ∨ line.head? = some '#' ∨ line.head? = some ';'
  · refine Or.inl ⟨?_, ?_, fun unit => by unfold parseLine; rw [if_pos hcomment]⟩
    · rcases hcomment with rfl | h | h
      · simp
      · rw [h]; decide
      · rw [h]; decide
    · rcases hcomment with rfl | h | h
      · rfl
      · exact isExec_head h (by decide) (by decide) (by decide)
      · exact isExec_head h (by decide) (by decide) (by decide)
  · refine Or.inr ?_
    by_cases hslash : line.getLast? = some '\\'
    · refine Or.inr (Or.inl ⟨"Normalize unit line continuations before reconnect", fun unit => ?_⟩)
      unfold parseLine
      rw [if_neg hcomment, if_pos hslash]
    · by_cases hhead : line.head? = some '[' ∧ line.getLast? = some ']'
      · refine Or.inl ⟨hhead.1, isExec_head hhead.1 (by decide) (by decide) (by decide),
          fun unit => ?_⟩
        unfold parseLine
        rw [if_neg hcomment, if_neg hslash, if_pos hhead]
      · refine Or.inr ?_
        cases hsplit : splitOnce '=' line with
        | none =>
            refine Or.inl ⟨"Invalid unit directive", fun unit => ?_⟩
            unfold parseLine
            rw [if_neg hcomment, if_neg hslash, if_neg hhead, hsplit]
        | some parts =>
            refine Or.inr ⟨?_, parts.1, parts.2, rfl, fun unit => ?_⟩
            · intro heq
              rw [heq] at hhead
              exact hhead (by decide)
            · unfold parseLine
              rw [if_neg hcomment, if_neg hslash, if_neg hhead, hsplit]

/-- The words of a directive's value. -/
def valueWords (line : List Char) : Option (List String) :=
  (splitOnce '=' line).bind fun parts => (words (trim parts.2)).toOption

/-- `parse` and `rewrite` agree on a line that `parse` accepts: on the section it leaves, and on
whether it is a directive for the executable. -/
theorem line_agrees {unit next : UnitFile} {line : List Char}
    (h : parseLine unit line = .ok next) :
    inService (unit.header = serviceSection) line = decide (next.header = serviceSection) ∧
      if next.header = serviceSection ∧ isExec line then
        unit.args = none ∧
          ∃ parsed, valueWords line = some parsed ∧ next = { unit with args := some parsed }
      else
        next.args = unit.args ∧ ∀ args,
          parseLine { unit with args := args } line = .ok { next with args := args } := by
  unfold inService
  rcases parseLine_cases line with ⟨hhead, hexec, hline⟩ | ⟨hhead, hexec, hline⟩ |
    ⟨message, hline⟩ | ⟨hopen, key, value, hsplit, hline⟩
  · obtain rfl := Except.ok.inj ((hline unit).symm.trans h)
    rw [if_neg hhead, if_neg (by simp [hexec])]
    exact ⟨rfl, rfl, fun args => hline _⟩
  · obtain rfl := Except.ok.inj ((hline unit).symm.trans h)
    rw [if_pos hhead, if_neg (by simp [hexec])]
    exact ⟨rfl, rfl, fun args => hline _⟩
  · cases (hline unit).symm.trans h
  · have hkeyExec : isExec line = decide (trim key = execKey) := by
      unfold isExec
      rw [hsplit]
      rfl
    rw [hline] at h
    by_cases hservice : unit.header = serviceSection
    · rw [if_pos hservice] at h
      rcases directive_cases h with ⟨hkey, hnone, parsed, hwords, rfl⟩ |
        ⟨hkey, hbracket, hargs, hheader, hany⟩
      · have hhead : line.head? ≠ some '[' := by
          intro hhead
          have hopening := head_key hsplit (by decide) (by decide) hhead
          rw [hkey] at hopening
          exact absurd hopening (by decide)
        rw [if_neg hhead, if_pos ⟨hservice, by simp [hkeyExec, hkey]⟩]
        have hvalue : valueWords line = some parsed := by
          unfold valueWords
          rw [hsplit, Option.bind_some, hwords]
          rfl
        exact ⟨rfl, hnone, parsed, hvalue, rfl⟩
      · have hhead : line.head? ≠ some '[' := fun hhead =>
          hbracket (head_key hsplit (by decide) (by decide) hhead)
        constructor
        · rw [if_neg hhead, hheader]
        · rw [if_neg (by simp [hkeyExec, hkey])]
          refine ⟨hargs, fun args => ?_⟩
          rw [hline]
          exact (if_pos hservice).trans (hany args)
    · rw [if_neg hservice] at h
      obtain rfl := Except.ok.inj h
      constructor
      · by_cases hhead : line.head? = some '['
        · rw [if_pos hhead]
          simp [hopen, hservice]
        · rw [if_neg hhead]
      · rw [if_neg fun hand => hservice hand.1]
        refine ⟨rfl, fun args => ?_⟩
        rw [hline]
        exact if_neg hservice

/-! ## All lines -/

theorem quoteArgs_ends (arg : String) (args : List String) :
    (quoteArgs (arg :: args)).head? = some apostrophe ∧
      (quoteArgs (arg :: args)).getLast? = some apostrophe := by
  induction args generalizing arg with
  | nil =>
      have hone : quoteArgs [arg] = quoteArg arg := by simp [quoteArgs]
      rw [hone, quoteArg_eq, ← List.cons_append, List.getLast?_concat]
      exact ⟨rfl, rfl⟩
  | cons second args ih =>
      have hjoin : quoteArgs (arg :: second :: args) =
          quoteArg arg ++ (' ' :: quoteArgs (second :: args)) := by
        unfold quoteArgs
        rw [List.map_cons, List.map_cons, List.intercalate_cons_cons, List.append_assoc]
        rfl
      constructor
      · rw [hjoin, quoteArg_eq]
        rfl
      · rw [hjoin, List.getLast?_append, List.getLast?_cons, (ih second).2]
        rfl

theorem literal_of_isLiteral {args : List String} (h : ∀ arg ∈ args, isLiteral arg) :
    ∀ arg ∈ args, ∀ c ∈ arg.toList, isExpanded c = false ∧ isControl c = false := by
  intro arg harg c hc
  have hchar := List.all_eq_true.mp (h arg harg) c hc
  simp only [Bool.and_eq_true, Bool.not_eq_true'] at hchar
  exact ⟨hchar.2, hchar.1⟩

theorem words_literal {args : List String} (h : ∀ arg ∈ args, isLiteral arg) :
    words (quoteArgs args) = .ok args := by
  refine words_quoteArgs fun arg harg c hc => ?_
  obtain ⟨hexpanded, hcontrol⟩ := literal_of_isLiteral h arg harg c hc
  refine ⟨hexpanded, fun hzero => ?_⟩
  simp [isControl, hzero] at hcontrol

/-- The new line is read as the arguments it quotes. -/
theorem parseLine_exec {unit : UnitFile} {args : List String}
    (hservice : unit.header = serviceSection) (hnone : unit.args = none)
    (habsolute : args.head?.any isAbsolute) (hliteral : ∀ arg ∈ args, isLiteral arg) :
    parseLine unit (trim (chop (execLine args))) = .ok { unit with args := some args } := by
  have hwords := words_literal hliteral
  obtain ⟨hfirst, hlast⟩ : (quoteArgs args).head? = some apostrophe ∧
      (quoteArgs args).getLast? = some apostrophe := by
    cases args with
    | nil => cases habsolute
    | cons arg args => exact quoteArgs_ends arg args
  revert hwords hfirst hlast
  unfold execLine
  generalize quoteArgs args = quoted
  intro hwords hfirst hlast
  have hkept : isWhitespace apostrophe = false := by decide
  have hline : trim (execKey ++ '=' :: quoted) = execKey ++ '=' :: quoted := by
    refine Text.trim_eq_self (fun c hc => ?_) (fun c hc => ?_)
    · obtain rfl : 'E' = c := Option.some.inj hc
      decide
    · rw [List.getLast?_append, List.getLast?_cons, hlast] at hc
      obtain rfl : apostrophe = c := Option.some.inj hc
      exact hkept
  have hchopped : trim (chop (execKey ++ '=' :: quoted ++ ['\n'])) = execKey ++ '=' :: quoted := by
    rw [trim_chop]
    refine (Text.trim_append (fun c hc => ?_) _).trans hline
    rw [List.mem_singleton.mp hc]
    exact isWhitespace_ends.1
  have hvalue : trim quoted = quoted := by
    refine Text.trim_eq_self (fun c hc => ?_) (fun c hc => ?_)
    · obtain rfl : apostrophe = c := Option.some.inj (hfirst.symm.trans hc)
      exact hkept
    · obtain rfl : apostrophe = c := Option.some.inj (hlast.symm.trans hc)
      exact hkept
  have hend : (execKey ++ '=' :: quoted).getLast? = some apostrophe := by
    rw [List.getLast?_append, List.getLast?_cons, hlast]
    rfl
  have hstart : (execKey ++ '=' :: quoted).head? = some 'E' := rfl
  have hne : execKey ++ '=' :: quoted ≠ [] := by simp
  have hkey : trim execKey = execKey := by decide
  rw [hchopped, parseLine, hstart, hend, if_neg (by simp [hne]), if_neg (by decide),
    if_neg (by decide), Text.splitOnce_append (by decide)]
  dsimp only
  rw [if_pos hservice, hkey, hvalue, directive, if_pos rfl, hnone, if_neg (by simp), hwords]
  dsimp only
  rw [if_pos habsolute]

/-- Lines behind the arguments hold no directive for the executable. -/
theorem run_kept {unit final : UnitFile} {lines : List (List Char)} (new : List Char)
    (h : parseLines unit lines = .ok final) (hargs : unit.args ≠ none) :
    rewriteLines new (unit.header = serviceSection) lines = (lines.flatten, 0) ∧
      final.args = unit.args ∧ ∀ args, parseLines { unit with args := args } lines = .ok { final with args := args } := by
  induction lines generalizing unit with
  | nil =>
      obtain rfl := Except.ok.inj h
      exact ⟨rfl, rfl, fun args => rfl⟩
  | cons line lines ih =>
      rw [parseLines] at h
      cases hline : parseLine unit (trim (chop line)) with
      | error message =>
          rw [hline] at h
          cases h
      | ok next =>
          rw [hline] at h
          dsimp only at h
          rw [trim_chop] at hline
          obtain ⟨hservice, hrest⟩ := line_agrees hline
          by_cases hexec : next.header = serviceSection ∧ isExec (trim line)
          · rw [if_pos hexec] at hrest
            exact absurd hrest.1 hargs
          · rw [if_neg hexec] at hrest
            obtain ⟨hsame, hany⟩ := hrest
            obtain ⟨hrewritten, hkept, hparsed⟩ := ih h (hsame ▸ hargs)
            refine ⟨?_, hkept.trans hsame, fun args => ?_⟩
            · rw [rewriteLines, hservice, if_neg (by simpa using hexec), hrewritten,
                List.flatten_cons]
            ·
              rw [parseLines, trim_chop, hany args]
              exact hparsed args

/-- The line the arguments come from is the one that is replaced. -/
theorem run_replaced {unit final : UnitFile} {lines : List (List Char)} (new : List Char)
    (h : parseLines unit lines = .ok final) (hargs : unit.args = none)
    (hfinal : final.args ≠ none) :
    ∃ before line after, lines = before ++ line :: after ∧ isExec (trim line) ∧
      valueWords (trim line) = final.args ∧ rewriteLines new (unit.header = serviceSection) lines =
        (before.flatten ++ new ++ after.flatten, 1) ∧
      ∀ other args, (∀ u : UnitFile, u.header = serviceSection → u.args = none →
          parseLine u (trim (chop other)) = .ok { u with args := some args }) →
        parseLines unit (before ++ other :: after) = .ok { final with args := some args } := by
  induction lines generalizing unit with
  | nil =>
      obtain rfl := Except.ok.inj h
      exact absurd hargs hfinal
  | cons line lines ih =>
      rw [parseLines] at h
      cases hline : parseLine unit (trim (chop line)) with
      | error message =>
          rw [hline] at h
          cases h
      | ok next =>
          have hchopped := hline
          rw [hline] at h
          dsimp only at h
          rw [trim_chop] at hline
          obtain ⟨hservice, hrest⟩ := line_agrees hline
          by_cases hexec : next.header = serviceSection ∧ isExec (trim line)
          · rw [if_pos hexec] at hrest
            obtain ⟨-, parsed, hvalue, rfl⟩ := hrest
            obtain ⟨hrewritten, hsame, hparsed⟩ := run_kept new h (by simp)
            refine ⟨[], line, lines, rfl, hexec.2, hvalue.trans hsame.symm, ?_,
              fun other args hother => ?_⟩
            · rw [rewriteLines]
              dsimp only at hservice ⊢
              rw [hservice, if_pos (by simpa using hexec), hrewritten]
              rfl
            · rw [List.nil_append, parseLines, hother unit hexec.1 hargs]
              exact hparsed (some args)
          · rw [if_neg hexec] at hrest
            obtain ⟨hsame, -⟩ := hrest
            obtain ⟨before, exec, after, rfl, hisExec, hvalue, hrewritten, hparsed⟩ :=
              ih h (hsame.trans hargs)
            refine ⟨line :: before, exec, after, rfl, hisExec, hvalue, ?_,
              fun other args hother => ?_⟩
            · rw [rewriteLines, hservice, if_neg (by simpa using hexec), hrewritten,
                List.flatten_cons]
              simp
            · rw [List.cons_append, parseLines, hchopped]
              exact hparsed other args hother

theorem execLine_body {args : List String} (hliteral : ∀ arg ∈ args, isLiteral arg) :
    '\n' ∉ execKey ++ '=' :: quoteArgs args := by
  intro hmem
  rcases List.mem_append.mp hmem with hkey | hmem
  · exact absurd hkey (by decide)
  · rcases List.mem_cons.mp hmem with heq | hmem
    · exact absurd heq (by decide)
    · rcases mem_quoteArgs hmem with ⟨arg, harg, hc⟩ | h | h | h
      · obtain ⟨-, hcontrol⟩ := literal_of_isLiteral hliteral arg harg _ hc
        exact absurd hcontrol (by decide)
      · exact absurd h (by decide)
      · exact absurd h (by decide)
      · exact absurd h (by decide)

/-- A file that is parsed has a name and a text, and its lines set the arguments. -/
theorem parse_ok {home : Option String} {path : String} {raw : Bytes} {job : Job}
    (h : parse home path raw = .ok job) :
    ∃ label text unit, fileName path = some label ∧ isLabel label = true ∧
      fromUtf8 raw = some text ∧
      parseLines ⟨[], none, [], none⟩ (splitInclusive '\n' text) = .ok unit ∧
      unit.args = some job.args ∧ job = ⟨path, raw, ⟨label, job.args, unit.env,
        unit.cwd.or ((unit.env.lookup "HOME").or home)⟩⟩ := by
  unfold parse at h
  cases hname : fileName path with
  | none =>
      rw [hname] at h
      cases h
  | some label =>
      rw [hname] at h
      dsimp only at h
      cases hlabel : isLabel label with
      | false =>
          rw [hlabel, if_pos rfl] at h
          cases h
      | true =>
          rw [hlabel, if_neg (by simp)] at h
          cases htext : fromUtf8 raw with
          | none =>
              rw [htext] at h
              cases h
          | some text =>
              rw [htext] at h
              dsimp only at h
              cases hlines : parseLines ⟨[], none, [], none⟩ (splitInclusive '\n' text) with
              | error message =>
                  rw [hlines] at h
                  cases h
              | ok unit =>
                  rw [hlines] at h
                  dsimp only at h
                  cases hargs : unit.args with
                  | none =>
                      rw [hargs] at h
                      cases h
                  | some args =>
                      rw [hargs] at h
                      obtain rfl := Except.ok.inj h
                      exact ⟨label, text, unit, rfl, hlabel, rfl, hlines, hargs, rfl⟩

/-- A job that was parsed is rewritten to any literal arguments with an absolute executable: one
line is replaced, the one its arguments were read from, and the new file is read as the same
service with these arguments. -/
theorem rewrite_replaces_exec {home : Option String} {path : String} {raw : Bytes} {job : Job}
    (hjob : parse home path raw = .ok job) {args : List String}
    (habsolute : args.head?.any isAbsolute)
    (hliteral : ∀ arg ∈ args, ∀ c ∈ arg.toList, isControl c = false ∧ c ∉ ['\\', '$', '%']) :
    words (quoteArgs args) = .ok args ∧
      ∃ before line after,
        fromUtf8 job.raw = some (before ++ line :: after).flatten ∧
        splitInclusive '\n' (before ++ line :: after).flatten = before ++ line :: after ∧
        isExec (trim line) ∧ valueWords (trim line) = some job.args ∧
        ∃ output, rewrite home job args = .ok output ∧
          output = toUtf8 (before ++ execLine args :: after).flatten ∧
          splitInclusive '\n' (before ++ execLine args :: after).flatten =
            before ++ execLine args :: after ∧
          parse home job.path output =
            .ok { job with raw := output, settings := { job.settings with args := args } } := by
  have hplain : ∀ arg ∈ args, isLiteral arg := by
    intro arg harg
    refine List.all_eq_true.mpr fun c hc => ?_
    obtain ⟨hcontrol, hexpanded⟩ := hliteral arg harg c hc
    simp only [List.mem_cons, List.not_mem_nil, or_false, not_or] at hexpanded
    simp [hcontrol, isExpanded, hexpanded]
  refine ⟨words_literal hplain, ?_⟩
  obtain ⟨label, text, unit, hname, hlabel, htext, hlines, hargs, hshape⟩ := parse_ok hjob
  obtain ⟨before, line, after, hcut, hexec, hvalue, hrewritten, hparsed⟩ :=
    run_replaced (execLine args) hlines rfl (by rw [hargs]; simp)
  have hflat : (before ++ line :: after).flatten = text := by
    rw [← hcut, Text.flatten_splitInclusive]
  have hraw : job.raw = raw := by rw [hshape]
  have hpath : job.path = path := by rw [hshape]
  have hnew : splitInclusive '\n' (before ++ execLine args :: after).flatten =
      before ++ execLine args :: after :=
    Text.splitInclusive_replace hcut (execLine_body hplain)
  have hread : parse home path (toUtf8 (before ++ execLine args :: after).flatten) =
      .ok { job with
        raw := toUtf8 (before ++ execLine args :: after).flatten
        settings := { job.settings with args := args } } := by
    unfold parse
    rw [hname]
    dsimp only
    rw [hlabel, if_neg (by simp), fromUtf8_iff.mpr rfl]
    dsimp only
    rw [hnew, hparsed (execLine args) args fun u hservice hnone =>
      parseLine_exec hservice hnone habsolute hplain]
    dsimp only
    rw [hshape]
  have houtput : (rewriteLines (execLine args) false (splitInclusive '\n' text)) =
      ((before ++ execLine args :: after).flatten, 1) := by
    have hstart : (decide (([] : List Char) = serviceSection)) = false := by decide
    rw [← hstart]
    refine hrewritten.trans ?_
    simp
  refine ⟨before, line, after, by rw [hraw, hflat, htext], by rw [hflat, hcut], hexec,
    hvalue.trans hargs, _, ?_, rfl, hnew,
    (congrArg (fun p => parse home p _) hpath).trans hread⟩
  have hall : args.all isLiteral = true := List.all_eq_true.mpr hplain
  unfold rewrite
  rw [hall, if_neg (by simp), hraw, htext]
  dsimp only
  rw [houtput, hpath, hread]
  simp [Job.args]

/-- The unit file of an owner. -/
def ownerText : List Char :=
  "[Service]\nType=exec\nExecStart=/bin/codex app-server\nUMask=0077\n".toList

def ownerJob : Job :=
  ⟨"owner.service", toUtf8 ownerText, ⟨"owner.service", ["/bin/codex", "app-server"], [], none⟩⟩

theorem parse_owner : parse none "owner.service" (toUtf8 ownerText) = .ok ownerJob := by
  have hname : fileName "owner.service" = some "owner.service" := by decide
  have hlabel : isLabel "owner.service" = true := by decide
  have hlines : parseLines ⟨[], none, [], none⟩ (splitInclusive '\n' ownerText) =
      .ok ⟨serviceSection, some ["/bin/codex", "app-server"], [], none⟩ := by decide
  unfold parse
  rw [hname]
  dsimp only
  rw [hlabel, if_neg (by simp), fromUtf8_iff.mpr rfl]
  dsimp only
  rw [hlines]
  rfl

theorem rewrite_replaces_exec_owner :
    ∃ output, rewrite none ownerJob ["/bin/codex", "it's", ""] = .ok output ∧
      (parse none "owner.service" output).toOption.map Job.args =
        some ["/bin/codex", "it's", ""] := by
  have habsolute : ["/bin/codex", "it's", ""].head?.any isAbsolute := by decide
  have hliteral : ∀ arg ∈ ["/bin/codex", "it's", ""], ∀ c ∈ arg.toList,
      isControl c = false ∧ c ∉ ['\\', '$', '%'] := by decide
  obtain ⟨-, before, line, after, -, -, -, -, output, houtput, -, -, hparsed⟩ :=
    rewrite_replaces_exec parse_owner habsolute hliteral
  refine ⟨output, houtput, ?_⟩
  have hread : parse none "owner.service" output = _ := hparsed
  rw [hread]
  rfl

end Systemd

end Reconnect

end CodexMonitor
