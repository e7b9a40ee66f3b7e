import CodexMonitor.Collector.Pointer
import CodexMonitor.Collector.Sample
import CodexMonitor.Lib.Framing

/-!
# The lines between the collector and a worker

The collector writes a job to a worker as one line and reads one line back.  The two ends
read with loops of their own, bounded by the same constant: the worker passes over the rest of
a record that is too long and answers it like one it cannot parse, the collector gives up.
Every job and every reply is one line, whatever strings and numbers it holds; a job comes out of its
line as it went in, doubles apart, unless its arrays and objects are too deep for the parser.
-/

namespace CodexMonitor

/-! ## Nesting -/

mutual

/-- How deep the arrays and objects of a value are nested. -/
def Value.depth : Value → Nat
  | .array items => itemsDepth items + 1
  | .object fields => fieldsDepth fields + 1
  | .null | .bool _ | .number _ | .string _ => 0

def itemsDepth : List Value → Nat
  | [] => 0
  | a :: items => max a.depth (itemsDepth items)

def fieldsDepth : List (String × Value) → Nat
  | [] => 0
  | (_, a) :: fields => max a.depth (fieldsDepth fields)

end

namespace Collector

open Scanner (asBytes)

/-! ## The ends of the pipe -/

def newline : UInt8 := 0x0a

def maxWorkerLine : Nat := 16 * 1024

/-- What reading gives behind the bytes that were written: the end of the stream, an error, or
nothing yet. -/
inductive Tail
  | closed
  | failed (errno : Errno)
  | opened

/-- What `read_sync_line` keeps of a record, and whether it passes over the rest of it. -/
structure Held where
  line : List UInt8
  draining : Bool
deriving DecidableEq, Repr

/-- One byte in the loops of `read_sync_line`. -/
def syncLine : Framing.Reader UInt8 Held (List UInt8) where
  start := ⟨[], false⟩
  push held byte :=
    if held.draining = true then
      if byte = newline then .inr [] else .inl held
    else
      let line := held.line ++ [byte]
      if byte = newline then .inr line
      else if maxWorkerLine < line.length then .inl ⟨line, true⟩
      else .inl ⟨line, false⟩

inductive LineRead
  | line (line rest : List UInt8)
  | finished
  | failed (errno : Errno)
  | waiting (held : Held)

/-- `read_sync_line` -/
def readSyncLine (tail : Tail) (input : List UInt8) : LineRead :=
  match syncLine.read syncLine.start input with
  | .inl (line, rest) => .line line rest
  | .inr held =>
      match tail with
      | .closed =>
          if held.draining = true then .line [] []
          else if held.line = [] then .finished
          else .line held.line []
      | .failed errno => .failed errno
      | .opened => .waiting held

/-- One byte in the loop of `read_async_line`. -/
def asyncLine : Framing.Reader UInt8 (List UInt8) (Except String (List UInt8)) where
  start := []
  push held byte :=
    let line := held ++ [byte]
    if byte = newline then .inr (.ok line)
    else if maxWorkerLine < line.length then .inr (.error "worker_result")
    else .inl line

/-! ## The worker -/

structure WorkerJob where
  path : String
  condition : Option Value

structure WorkerReply where
  ok : Bool
  sample : Option Value
  error : Option String

/-- The functions of the JSON library that read the lines. -/
structure PipeCrates extends WorkerCrates where
  /-- `serde_json::from_slice::<WorkerJob>`, with the text of its error -/
  readJob : List UInt8 → Except String WorkerJob
  /-- `serde_json::from_slice::<WorkerReply>` -/
  readReply : List UInt8 → Option WorkerReply
  /-- the double that is read from the text of one -/
  reread : UInt64 → UInt64

/-- The text of a reply. -/
def WorkerReply.text (crates : Crates) (reply : WorkerReply) : String :=
  "\x7b\"ok\":" ++ (if reply.ok = true then "true" else "false") ++ ",\"sample\":" ++
    reply.sample.elim "null" (canonicalJson crates) ++ ",\"error\":" ++
    reply.error.elim "null" stringText ++ "\x7d"

/-- The line of a reply. -/
def WorkerReply.line (crates : Crates) (reply : WorkerReply) : List UInt8 :=
  asBytes (reply.text crates).toList ++ [newline]

/-- `Path::parent` -/
def Path.parent (path : Path) : Option Path :=
  if path.parts = [] then none else some ⟨path.absolute, path.parts.dropLast⟩

/-- `Path::file_name` -/
def Path.fileName (path : Path) : Option String :=
  path.parts.getLast?.filter fun part => part ≠ ".." ∧ part ≠ "."

/-- `Path::join` with a name. -/
def joinName (directory : List UInt8) (name : String) : List UInt8 :=
  directory ++ (if directory.getLast?.any (· ≠ 0x2f) = true then [0x2f] else []) ++
    asBytes name.toList

/-- `Path::to_str` -/
def toStr (path : List UInt8) : Option String := String.fromUTF8? path.toByteArray

/-- What the file system answers while a worker handles one record. -/
structure Files where
  cwd : Option String
  state : String → FileState
  /-- `std::fs::canonicalize` -/
  canonicalize : Path → Option (List UInt8)

/-- Where the directory of a path leads, with the name of the file. -/
def nativePath (canonicalize : Path → Option (List UInt8)) (path : String) :
    Option (List UInt8) := do
  let parent ← (Path.ofString path).parent
  let name ← (Path.ofString path).fileName
  let resolved ← canonicalize parent
  some (joinName resolved name)

/-- A sample with the path it leads to; none when the worker panics, since `json!` takes a path for
text. -/
def Files.sample (crates : WorkerCrates) (files : Files) (path : String)
    (condition : Option Value) : Option FileSample :=
  let sample (native : Option String) :=
    sampleFile crates files.cwd path condition native (files.state path)
  match nativePath files.canonicalize path with
  | none => some (sample none)
  | some resolved => (toStr resolved).map fun native => sample (some native)

/-- The reply with a sample. -/
def sampled (sample : FileSample) : WorkerReply := ⟨true, some sample.value, none⟩

/-- The reply to a line that is no longer than the bound; none when the worker panics. -/
def process (crates : PipeCrates) (files : Files) (line : List UInt8) : Option WorkerReply :=
  match crates.readJob line with
  | .error error => some ⟨false, none, some ("worker_request:" ++ error)⟩
  | .ok job => (files.sample crates.toWorkerCrates job.path job.condition).map sampled

/-- The reply to a line that is too long. -/
def oversized : WorkerReply := ⟨false, none, some "worker_request"⟩

/-- The reply to a line. -/
def answer (crates : PipeCrates) (files : Files) (line : List UInt8) : Option WorkerReply :=
  if maxWorkerLine < line.length then some oversized else process crates files line

inductive Ending
  | finished
  | failed (errno : Errno)
  | waiting (held : Held)
  | panicked

/-- What a worker has written, and how it stands. -/
structure WorkerRun where
  output : List UInt8
  ending : Ending

theorem readSyncLine_shorter {tail : Tail} {input line rest : List UInt8}
    (h : readSyncLine tail input = .line line rest) : rest.length < input.length := by
  unfold readSyncLine at h
  cases hread : syncLine.read syncLine.start input with
  | inl returned =>
      obtain ⟨out, left⟩ := returned
      rw [hread] at h
      obtain ⟨rfl, rfl⟩ := LineRead.line.inj h
      exact Framing.Reader.read_shorter hread
  | inr held =>
      rw [hread] at h
      cases tail with
      | failed errno => cases h
      | opened => cases h
      | closed =>
          -- the reader has kept something, so there was something to read
          have hend : rest = [] ∧ held ≠ syncLine.start := by
            dsimp only at h
            by_cases hdraining : held.draining = true
            · rw [if_pos hdraining] at h
              cases h
              refine ⟨rfl, fun hstart => ?_⟩
              rw [hstart] at hdraining
              cases hdraining
            · rw [if_neg hdraining] at h
              by_cases hline : held.line = []
              · rw [if_pos hline] at h
                cases h
              · rw [if_neg hline] at h
                cases h
                refine ⟨rfl, fun hstart => ?_⟩
                rw [hstart] at hline
                exact hline rfl
          obtain ⟨rfl, hheld⟩ := hend
          cases input with
          | nil => exact absurd (Sum.inr.inj hread).symm hheld
          | cons byte input => simp

/-- `worker_main_sync`, with the answers of the file system for each record. -/
def workerMainSync (crates : PipeCrates) (tail : Tail) (files : Nat → Files)
    (input : List UInt8) : WorkerRun :=
  match _h : readSyncLine tail input with
  | .finished => ⟨[], .finished⟩
  | .failed errno => ⟨[], .failed errno⟩
  | .waiting held => ⟨[], .waiting held⟩
  | .line line rest =>
      match answer crates (files 0) line with
      | none => ⟨[], .panicked⟩
      | some reply =>
          let run := workerMainSync crates tail (fun n => files (n + 1)) rest
          ⟨reply.line crates.toCrates ++ run.output, run.ending⟩
termination_by input.length
decreasing_by exact readSyncLine_shorter _h

/-! ## The collector's end -/

inductive ReplyRead
  | line (line rest : List UInt8)
  | failed (error : String)
  | blocked

/-- `read_async_line`, on what a worker has written.  A worker that has ended has closed its
output. -/
def readAsyncLine (ending : Ending) (output : List UInt8) : ReplyRead :=
  match asyncLine.read asyncLine.start output with
  | .inl (.ok line, rest) => .line line rest
  | .inl (.error error, _) => .failed error
  | .inr line =>
      match ending with
      | .waiting _ => .blocked
      | _ => .failed (if line = [] then "worker_exited" else "worker_result")

/-- The line of a `WorkerJob`, without its end. -/
def jobText (crates : Crates) (path : String) (condition : Option Value) : String :=
  "\x7b\"path\":" ++ stringText path ++ ",\"condition\":" ++
    condition.elim "null" (canonicalJson crates) ++ "\x7d"

/-- The bytes of a job. -/
def request (crates : Crates) (cwd : Option String) (path : String) (condition : Option Value) :
    List UInt8 :=
  asBytes (jobText crates (absoluteDisplayPath cwd path) condition).toList

/-- The levels of a job, its own among them. -/
def jobDepth (condition : Option Value) : Nat := condition.elim 0 Value.depth + 1

/-- How many levels `serde_json` reads. -/
def maxDepth : Nat := 127

/-- The condition in a job, as it is read there. -/
def PipeCrates.jobCondition (crates : PipeCrates) : Option Value → Option Value
  | none => none
  | some .null => none
  | some condition => some (condition.reread crates.reread)

/-- The line of a job reads back, unless it has too many levels. -/
structure PipeCrates.ReadsJob (crates : PipeCrates) (cwd : Option String) (path : String)
    (condition : Option Value) : Prop where
  read : jobDepth condition ≤ maxDepth →
    crates.readJob (request crates.toCrates cwd path condition ++ [newline]) =
      .ok ⟨absoluteDisplayPath cwd path, crates.jobCondition condition⟩
  deep : maxDepth < jobDepth condition →
    ∃ error, crates.readJob (request crates.toCrates cwd path condition ++ [newline]) =
      .error error

/-- A worker, what was written to it, and how much of its output was read. -/
structure WorkerConnection where
  files : Nat → Files
  sent : List UInt8
  taken : Nat

/-- What the worker has written by the time it waits for more. -/
def WorkerConnection.run (crates : PipeCrates) (conn : WorkerConnection) : WorkerRun :=
  workerMainSync crates .opened conn.files conn.sent

/-- The connection once a job was written. -/
def WorkerConnection.write (conn : WorkerConnection) (job : List UInt8) : WorkerConnection :=
  { conn with sent := conn.sent ++ job ++ [newline] }

/-- What a reply says, if the line was one. -/
def WorkerReply.result (reply : Option WorkerReply) : Except String Value :=
  match reply with
  | none => .error "worker_result"
  | some reply =>
      if reply.ok = true then
        match reply.sample with
        | none => .error "worker_result"
        | some sample => .ok sample
      else .error (reply.error.getD "worker_result")

/-- `WorkerConnection::sample`, under the time limit of the pool. -/
def WorkerConnection.sample (crates : PipeCrates) (cwd : Option String) (conn : WorkerConnection)
    (path : String) (condition : Option Value) : Except String Value × WorkerConnection :=
  let job := request crates.toCrates cwd path condition
  if maxWorkerLine < job.length then (.error "worker_request", conn)
  else
    let conn := conn.write job
    let run := conn.run crates
    match readAsyncLine run.ending (run.output.drop conn.taken) with
    | .blocked => (.error "worker_timeout", conn)
    | .failed error => (.error error, conn)
    | .line line rest =>
        (WorkerReply.result (crates.readReply line),
          { conn with taken := run.output.length - rest.length })

/-- The pool keeps a connection as long as its samples succeed. -/
inductive WorkerConnection.Reached (crates : PipeCrates) (cwd : Option String) :
    WorkerConnection → Prop
  | start (files : Nat → Files) : Reached crates cwd ⟨files, [], 0⟩
  | sample {conn conn' : WorkerConnection} {path : String} {condition : Option Value}
      {value : Value} (h : Reached crates cwd conn)
      (hsample : conn.sample crates cwd path condition = (.ok value, conn')) :
      Reached crates cwd conn'

/-! ## What the two loops read -/

/-- What the worker keeps of a record that has not ended. -/
def keptOf (body : List UInt8) : Held :=
  ⟨body.take (maxWorkerLine + 1), decide (maxWorkerLine < body.length)⟩

theorem syncLine_follows : syncLine.Follows newline (fun _ => True) keptOf
    fun body => if maxWorkerLine < body.length then [] else body ++ [newline] where
  start := rfl
  shorter := fun _ => trivial
  push := by
    intro body a _ ha
    by_cases hlong : maxWorkerLine < body.length
    · have hmore : maxWorkerLine < (body ++ [a]).length := by
        rw [List.length_append]
        omega
      have hsame : keptOf (body ++ [a]) = keptOf body := by
        simp only [keptOf, hlong, hmore, List.take_append_of_le_length (Nat.succ_le_of_lt hlong)]
      have hdraining : (keptOf body).draining = true := decide_eq_true hlong
      rw [hsame, syncLine]
      simp only [hdraining, if_true, if_neg ha]
    · have hline : (keptOf body).line = body := List.take_of_length_le (by omega)
      have hdraining : (keptOf body).draining = false := decide_eq_false hlong
      have hkept : keptOf (body ++ [a]) =
          ⟨body ++ [a], decide (maxWorkerLine < (body ++ [a]).length)⟩ := by
        have hlength : (body ++ [a]).length ≤ maxWorkerLine + 1 := by
          rw [List.length_append, List.length_singleton]
          omega
        rw [keptOf, List.take_of_length_le hlength]
      rw [hkept, syncLine]
      simp only [hline, hdraining, Bool.false_eq_true, if_false, if_neg ha]
      by_cases hmore : maxWorkerLine < (body ++ [a]).length
      · rw [if_pos hmore, decide_eq_true hmore]
      · rw [if_neg hmore, decide_eq_false hmore]
  ended := by
    intro body _
    by_cases hlong : maxWorkerLine < body.length
    · have hdraining : (keptOf body).draining = true := decide_eq_true hlong
      rw [if_pos hlong, syncLine]
      simp only [hdraining, if_true]
    · have hline : (keptOf body).line = body := List.take_of_length_le (by omega)
      have hdraining : (keptOf body).draining = false := decide_eq_false hlong
      rw [if_neg hlong, syncLine]
      simp only [hline, hdraining, Bool.false_eq_true, if_false, if_true]

/-- The worker never keeps more than one byte over the bound. -/
theorem syncLine_bounds : syncLine.Bounds
    (fun held => held.line.length ≤ maxWorkerLine + 1 ∧
      (held.draining = false → held.line.length ≤ maxWorkerLine))
    (fun line => line.length ≤ maxWorkerLine + 1) where
  start := ⟨Nat.zero_le _, fun _ => Nat.zero_le _⟩
  push := by
    intro held byte held' hheld hpush
    rw [syncLine] at hpush
    dsimp only at hpush
    split_ifs at hpush with hdraining hend hend' hlong
    · cases hpush
      exact hheld
    · cases hpush
      rw [List.length_append, List.length_singleton]
      have := hheld.2 (by simpa using hdraining)
      exact ⟨by omega, nofun⟩
    · cases hpush
      have hfits : (held.line ++ [byte]).length ≤ maxWorkerLine := Nat.not_lt.mp hlong
      exact ⟨Nat.le_succ_of_le hfits, fun _ => hfits⟩
  ended := by
    intro held byte line hheld hpush
    rw [syncLine] at hpush
    dsimp only at hpush
    split_ifs at hpush with hdraining hend hend' hlong
    · cases hpush
      exact Nat.zero_le _
    · cases hpush
      rw [List.length_append, List.length_singleton]
      have := hheld.2 (by simpa using hdraining)
      omega

/-- The collector's loop reads a line up to the bound, its end not counted. -/
theorem asyncLine_follows : asyncLine.Follows newline (fun body => body.length ≤ maxWorkerLine) id
    fun body => .ok (body ++ [newline]) where
  start := rfl
  shorter := by
    intro body a h
    rw [List.length_append] at h
    omega
  push := by
    intro body a h ha
    rw [asyncLine]
    simp only [id, if_neg ha, if_neg (Nat.not_lt.mpr h)]
  ended := by
    intro body _
    rw [asyncLine]
    simp only [id, if_true]

theorem readAsyncLine_record (ending : Ending) {body : List UInt8} (hbody : newline ∉ body)
    (hfits : body.length ≤ maxWorkerLine) (rest : List UInt8) :
    readAsyncLine ending (body ++ newline :: rest) = .line (body ++ [newline]) rest := by
  rw [readAsyncLine, asyncLine_follows.read_record hfits hbody]

theorem readAsyncLine_long (ending : Ending) {body : List UInt8} (hbody : newline ∉ body)
    (hlong : maxWorkerLine < body.length) (rest : List UInt8) :
    readAsyncLine ending (body ++ rest) = .failed "worker_result" := by
  have hsplit : body = body.take maxWorkerLine ++ body[maxWorkerLine] ::
      body.drop (maxWorkerLine + 1) := by
    rw [← List.drop_eq_getElem_cons, List.take_append_drop]
  have hfront : asyncLine.read asyncLine.start (body.take maxWorkerLine) =
      .inr (body.take maxWorkerLine) :=
    asyncLine_follows.read_body (List.length_take_le _ _) fun hmem =>
      hbody (List.mem_of_mem_take hmem)
  have hbyte : body[maxWorkerLine] ≠ newline := fun heq => hbody (heq ▸ List.getElem_mem hlong)
  have hpush : asyncLine.push (body.take maxWorkerLine) body[maxWorkerLine] =
      .inr (.error "worker_result") := by
    have hlength : maxWorkerLine < (body.take maxWorkerLine ++ [body[maxWorkerLine]]).length := by
      rw [List.length_append, List.length_take, List.length_singleton]
      omega
    rw [asyncLine]
    simp only [if_neg hbyte, if_pos hlength]
  rw [readAsyncLine, hsplit, List.append_assoc, Framing.Reader.read_append_held hfront,
    List.cons_append, Framing.Reader.read, hpush]

/-! ## Texts of one line -/

/-- No character of the text ends a line. -/
def OneLine (text : List Char) : Prop := '\n' ∉ text

instance (text : List Char) : Decidable (OneLine text) := inferInstanceAs (Decidable (_ ∉ _))

theorem OneLine.append {text more : List Char} (h : OneLine text) (hmore : OneLine more) :
    OneLine (text ++ more) := by
  intro hmem
  rcases List.mem_append.mp hmem with hmem | hmem
  · exact h hmem
  · exact hmore hmem

theorem OneLine.text {text more : String} (h : OneLine text.toList) (hmore : OneLine more.toList) :
    OneLine (text ++ more).toList := by
  rw [String.toList_append]
  exact h.append hmore

theorem oneLine_intercalate {texts : List (List Char)} (h : ∀ text ∈ texts, OneLine text) :
    OneLine ([','].intercalate texts) := by
  induction texts with
  | nil => exact List.not_mem_nil
  | cons text texts ih =>
      have htext := h text List.mem_cons_self
      have hrest := ih fun other hother => h other (List.mem_cons_of_mem text hother)
      cases texts with
      | nil => simpa using htext
      | cons next texts =>
          rw [List.intercalate_cons_cons]
          exact (htext.append (by decide)).append hrest

/-- The ends of the lines of a string are escaped. -/
theorem stringText_oneLine (s : String) : OneLine (stringText s).toList := by
  have hescaped : ∀ c ∈ escapedChars, OneLine (escapeChar c) := by decide
  rw [stringText_toList]
  intro hmem
  rcases List.mem_cons.mp hmem with heq | hmem
  · cases heq
  rcases List.mem_append.mp hmem with hmem | hmem
  · obtain ⟨c, _, hc⟩ := List.mem_flatMap.mp hmem
    rcases escapeChar_cases c with hc' | ⟨_, _, hplain⟩
    · exact hescaped c hc' hc
    · rw [hplain] at hc
      obtain rfl := List.mem_singleton.mp hc
      have hself := hescaped '\n' (by decide)
      rw [hplain] at hself
      exact hself List.mem_cons_self
  · cases List.mem_singleton.mp hmem

theorem number_oneLine {crates : Crates} (h : crates.PrintsFloats) (n : Number) :
    OneLine (n.text crates).toList := by
  intro hmem
  rcases n.text_chars h _ hmem with hdigit | hmark
  · exact absurd hdigit (by decide)
  · exact absurd hmark (by decide)

mutual

/-- The text of a value is one line. -/
theorem canonicalJson_oneLine {crates : Crates} (h : crates.PrintsFloats) :
    ∀ a : Value, OneLine (canonicalJson crates a).toList
  | .null => (by decide : OneLine "null".toList)
  | .bool true => (by decide : OneLine "true".toList)
  | .bool false => (by decide : OneLine "false".toList)
  | .number n => number_oneLine h n
  | .string s => stringText_oneLine s
  | .array items => by
      have hitems := items_oneLine h items
      rw [canonicalJson_array]
      refine ((by decide : OneLine ['[']).append (oneLine_intercalate ?_)).append (by decide)
      intro text htext
      obtain ⟨a, ha, rfl⟩ := List.mem_map.mp htext
      exact hitems a ha
  | .object fields => by
      have hfields := fields_oneLine h fields
      rw [canonicalJson_object]
      refine ((by decide : OneLine [Char.ofNat 0x7b]).append
        (oneLine_intercalate ?_)).append (by decide)
      intro text htext
      obtain ⟨field, hfield, rfl⟩ := List.mem_map.mp htext
      rw [mem_sortKeys, canonicalFields_eq_map] at hfield
      obtain ⟨source, hsource, rfl⟩ := List.mem_map.mp hfield
      exact (stringText_oneLine source.1).append
        ((by decide : OneLine [':']).append (hfields source hsource))

theorem items_oneLine {crates : Crates} (h : crates.PrintsFloats) :
    ∀ items : List Value, ∀ a ∈ items, OneLine (canonicalJson crates a).toList
  | [], _, ha => (List.not_mem_nil ha).elim
  | a :: items, b, hb => by
      rcases List.mem_cons.mp hb with hb | hb
      · rw [hb]
        exact canonicalJson_oneLine h a
      · exact items_oneLine h items b hb

theorem fields_oneLine {crates : Crates} (h : crates.PrintsFloats) :
    ∀ fields : List (String × Value), ∀ field ∈ fields,
      OneLine (canonicalJson crates field.2).toList
  | [], _, hfield => (List.not_mem_nil hfield).elim
  | (key, a) :: fields, other, hother => by
      rcases List.mem_cons.mp hother with hother | hother
      · rw [hother]
        exact canonicalJson_oneLine h a
      · exact fields_oneLine h fields other hother

end

/-- Only the character that ends a line has its byte. -/
theorem newline_mem_asBytes {text : List Char} (h : newline ∈ asBytes text) : ¬ OneLine text := by
  obtain ⟨c, hc, hmem⟩ := List.mem_flatMap.mp h
  have hten : ∀ n : Nat, n < 256 → (newline = UInt8.ofNat n ↔ n = 10) := by
    intro n hn
    rw [← UInt8.toNat_inj, UInt8.toNat_ofNat']
    show 10 = _ ↔ _
    omega
  have hval : c.val.toNat = 10 := by
    unfold String.utf8EncodeChar at hmem
    generalize c.val.toNat = v at hmem
    dsimp only at hmem
    split_ifs at hmem with h1 h2 h3
    · rw [List.mem_singleton, hten _ (by omega)] at hmem
      exact hmem
    all_goals
      -- every byte of a longer character has its high bit set
      simp only [List.mem_cons, List.not_mem_nil, or_false] at hmem
      simp (disch := omega) only [hten] at hmem
      omega
  obtain rfl : c = '\n' := Char.toNat_inj.mp hval
  exact fun hone => hone hc

theorem reply_oneLine {crates : Crates} (h : crates.PrintsFloats) (reply : WorkerReply) :
    newline ∉ asBytes (reply.text crates).toList := by
  have hsample : OneLine (reply.sample.elim "null" (canonicalJson crates)).toList := by
    cases reply.sample with
    | none => exact (by decide : OneLine "null".toList)
    | some sample => exact canonicalJson_oneLine h sample
  have herror : OneLine (reply.error.elim "null" stringText).toList := by
    cases reply.error with
    | none => exact (by decide : OneLine "null".toList)
    | some error => exact stringText_oneLine error
  have hok : OneLine (if reply.ok = true then "true" else "false").toList := by
    cases reply.ok with
    | true => exact (by decide : OneLine "true".toList)
    | false => exact (by decide : OneLine "false".toList)
  have hstart : OneLine "\x7b\"ok\":".toList := by decide
  have hsampleKey : OneLine ",\"sample\":".toList := by decide
  have herrorKey : OneLine ",\"error\":".toList := by decide
  have hend : OneLine "\x7d".toList := by decide
  intro hmem
  refine newline_mem_asBytes hmem ?_
  exact (((((hstart.text hok).text hsampleKey).text hsample).text herrorKey).text herror).text hend

theorem request_oneLine {crates : Crates} (h : crates.PrintsFloats) (cwd : Option String)
    (path : String) (condition : Option Value) : newline ∉ request crates cwd path condition := by
  have hcondition : OneLine (condition.elim "null" (canonicalJson crates)).toList := by
    cases condition with
    | none => exact (by decide : OneLine "null".toList)
    | some condition => exact canonicalJson_oneLine h condition
  have hpath : OneLine "\x7b\"path\":".toList := by decide
  have hconditionKey : OneLine ",\"condition\":".toList := by decide
  have hend : OneLine "\x7d".toList := by decide
  intro hmem
  refine newline_mem_asBytes hmem ?_
  exact (((hpath.text (stringText_oneLine _)).text hconditionKey).text hcondition).text hend

/-! ## The bytes of a job -/

theorem asBytes_length (s : String) : (asBytes s.toList).length = s.utf8ByteSize := by
  have hlist : ∀ cs : List Char, (asBytes cs).length = (String.ofList cs).utf8ByteSize := by
    intro cs
    induction cs with
    | nil => rfl
    | cons c cs ih => rw [Scanner.asBytes_cons_length, Text.ofList_cons_bytes, ih]
  rw [hlist, String.ofList_toList]

/-- An absolute path is displayed as it is. -/
theorem absoluteDisplayPath_eq {cwd : Option String} {path : String}
    (h : path.toList.head? = some '/') : absoluteDisplayPath cwd path = path := by
  unfold absoluteDisplayPath
  rw [if_pos]
  simp [Path.ofString, h]

theorem request_bytes (crates : Crates) (cwd : Option String) (path : String)
    (condition : Option Value) :
    (request crates cwd path condition).length =
      22 + (stringText (absoluteDisplayPath cwd path)).utf8ByteSize +
        (condition.elim "null" (canonicalJson crates)).utf8ByteSize := by
  have hstart : "\x7b\"path\":".utf8ByteSize = 8 := by decide
  have hcondition : ",\"condition\":".utf8ByteSize = 13 := by decide
  have hend : "\x7d".utf8ByteSize = 1 := by decide
  rw [request, asBytes_length]
  simp only [jobText, String.utf8ByteSize_append, hstart, hcondition, hend]
  omega

end Collector

end CodexMonitor
