import CodexMonitor.Collector.Pipe
import CodexMonitor.Store.Dedup

/-!
# One reply for each record

A worker answers a stream record by record: `output_eq` has the whole output, and each reply is
that of a worker that reads the record alone.  On a connection of the pool every sample gets the
reply to its own job.  The worker's bound on a line counts its end and the collector's bound on a
job does not, so the two ends disagree on jobs of exactly that length (`worker_frames_iff`).
-/

namespace CodexMonitor.Collector

open Scanner (asBytes)

/-! ## The records of a stream -/

/-- The line that `read_sync_line` returns for a record. -/
def received (record : List UInt8) : List UInt8 :=
  if maxWorkerLine < (record.takeWhile (· ≠ newline)).length then [] else record

theorem received_ended {body : List UInt8} (h : newline ∉ body) :
    received (body ++ [newline]) =
      if maxWorkerLine < body.length then [] else body ++ [newline] := by
  have hbody : (body ++ [newline]).takeWhile (· ≠ newline) = body := by
    rw [List.takeWhile_append_of_pos]
    · simp
    · intro byte hbyte
      exact decide_eq_true fun heq => h (heq ▸ hbyte)
  rw [received, hbody]

theorem received_rest {rest : List UInt8} (h : newline ∉ rest) :
    received rest = if maxWorkerLine < rest.length then [] else rest := by
  have hrest : rest.takeWhile (· ≠ newline) = rest := by
    rw [List.takeWhile_eq_self_iff]
    intro byte hbyte
    exact decide_eq_true fun heq => h (heq ▸ hbyte)
  rw [received, hrest]

theorem readSyncLine_record (tail : Tail) {body : List UInt8} (h : newline ∉ body)
    (rest : List UInt8) :
    readSyncLine tail (body ++ newline :: rest) = .line (received (body ++ [newline])) rest := by
  rw [readSyncLine, syncLine_follows.read_record trivial h, received_ended h]

/-- The last record of a stream is read to the end of the stream. -/
theorem readSyncLine_rest {rest : List UInt8} (h : newline ∉ rest) (hne : rest ≠ []) :
    readSyncLine .closed rest = .line (received rest) [] := by
  rw [readSyncLine, syncLine_follows.read_body trivial h, received_rest h]
  by_cases hlong : maxWorkerLine < rest.length
  · have hdraining : (keptOf rest).draining = true := decide_eq_true hlong
    simp only [hdraining, if_true, if_pos hlong]
  · have hdraining : (keptOf rest).draining = false := decide_eq_false hlong
    have hline : (keptOf rest).line = rest := List.take_of_length_le (by omega)
    simp only [hdraining, hline, Bool.false_eq_true, if_false, if_neg hne, if_neg hlong]

/-- The records of a stream, each with its end; the last may lack it. -/
def records (bytes : List UInt8) : List (List UInt8) := Text.splitInclusive newline bytes

/-- A stream is read record by record, whatever the records are. -/
theorem readSyncLine_closed {bytes record : List UInt8} {others : List (List UInt8)}
    (h : records bytes = record :: others) :
    readSyncLine .closed bytes = .line (received record) others.flatten := by
  obtain ⟨bodies, rest, hbodies, hrest, rfl⟩ := Framing.exists_joined newline bytes
  rw [records] at h
  cases bodies with
  | nil =>
      rw [Framing.joined, Framing.splitInclusive_rest hrest] at h
      by_cases hne : rest = []
      · rw [if_pos hne] at h
        cases h
      · rw [if_neg hne] at h
        cases h
        exact readSyncLine_rest hrest hne
  | cons body bodies =>
      have hbody := hbodies body List.mem_cons_self
      have hsplit : Framing.joined newline (body :: bodies) rest =
          body ++ [newline] ++ Framing.joined newline bodies rest := by
        simp [Framing.joined]
      rw [hsplit, Text.splitInclusive_line hbody] at h
      obtain ⟨rfl, rfl⟩ := List.cons.inj h
      rw [Text.flatten_splitInclusive, Framing.joined, readSyncLine_record .closed hbody]

/-! ## The run of a worker -/

/-- A run that begins with the reply to a record; a panic ends it. -/
def WorkerRun.after (crates : Crates) (reply : Option WorkerReply) (run : WorkerRun) : WorkerRun :=
  match reply with
  | none => ⟨[], .panicked⟩
  | some reply => ⟨reply.line crates ++ run.output, run.ending⟩

@[simp] theorem WorkerRun.after_none (crates : Crates) (run : WorkerRun) :
    WorkerRun.after crates none run = ⟨[], .panicked⟩ := rfl

@[simp] theorem WorkerRun.after_some (crates : Crates) (reply : WorkerReply) (run : WorkerRun) :
    WorkerRun.after crates (some reply) run = ⟨reply.line crates ++ run.output, run.ending⟩ := rfl

theorem workerMainSync_line {crates : PipeCrates} {tail : Tail} (files : Nat → Files)
    {input line rest : List UInt8} (h : readSyncLine tail input = .line line rest) :
    workerMainSync crates tail files input =
      .after crates.toCrates (answer crates (files 0) line)
        (workerMainSync crates tail (fun n => files (n + 1)) rest) := by
  rw [workerMainSync]
  split
  · rename_i hread
    rw [h] at hread
    cases hread
  · rename_i errno hread
    rw [h] at hread
    cases hread
  · rename_i held hread
    rw [h] at hread
    cases hread
  · rename_i line' rest' hread
    rw [h] at hread
    cases hread
    rfl

theorem workerMainSync_closed_nil (crates : PipeCrates) (files : Nat → Files) :
    workerMainSync crates .closed files [] = ⟨[], .finished⟩ := by
  rw [workerMainSync]
  rfl

/-- What the worker does on a stream, from record to record. -/
theorem workerMainSync_closed {crates : PipeCrates} (files : Nat → Files)
    {bytes record : List UInt8} {others : List (List UInt8)} (h : records bytes = record :: others) :
    workerMainSync crates .closed files bytes =
      .after crates.toCrates (answer crates (files 0) (received record))
        (workerMainSync crates .closed (fun n => files (n + 1)) others.flatten) :=
  workerMainSync_line files (readSyncLine_closed h)

/-- No record makes the worker panic. -/
def Answered (crates : PipeCrates) (files : Nat → Files) (lines : List (List UInt8)) : Prop :=
  ∀ k record, lines[k]? = some record → answer crates (files k) (received record) ≠ none

theorem answered_cons {crates : PipeCrates} {files : Nat → Files} {record : List UInt8}
    {others : List (List UInt8)} :
    Answered crates files (record :: others) ↔
      answer crates (files 0) (received record) ≠ none ∧
        Answered crates (fun n => files (n + 1)) others := by
  constructor
  · intro h
    exact ⟨h 0 record rfl, fun k other hk => h (k + 1) other hk⟩
  · intro h k other hk
    cases k with
    | zero =>
        obtain rfl := Option.some.inj hk
        exact h.1
    | succ k => exact h.2 k other hk

theorem records_nil {bytes : List UInt8} (h : records bytes = []) : bytes = [] := by
  have hflatten := Text.flatten_splitInclusive newline bytes
  rw [records] at h
  rw [h] at hflatten
  exact hflatten.symm

theorem records_flatten {bytes record : List UInt8} {others : List (List UInt8)}
    (h : records bytes = record :: others) : records others.flatten = others :=
  (Text.splitInclusive_cons h).1

/-- The worker comes to the end of the stream when no record makes it panic. -/
theorem finished_iff {crates : PipeCrates} {files : Nat → Files} {bytes : List UInt8} :
    (workerMainSync crates .closed files bytes).ending = .finished ↔
      Answered crates files (records bytes) := by
  generalize hlines : records bytes = lines
  induction lines generalizing bytes files with
  | nil =>
      rw [records_nil hlines, workerMainSync_closed_nil]
      exact ⟨fun _ k record hk => (by cases hk), fun _ => rfl⟩
  | cons record others ih =>
      rw [workerMainSync_closed files hlines, answered_cons, ← ih (records_flatten hlines)]
      cases hanswer : answer crates (files 0) (received record) with
      | none => simp only [WorkerRun.after_none, reduceCtorEq, ne_eq, not_true_eq_false, false_and]
      | some reply =>
          simp only [WorkerRun.after_some, ne_eq, reduceCtorEq, not_false_eq_true, true_and]

/-- The texts of the replies to records. -/
def replies (crates : PipeCrates) : (Nat → Files) → List (List UInt8) → List (List UInt8)
  | _, [] => []
  | files, record :: others =>
      (answer crates (files 0) (received record)).elim []
        (fun reply => asBytes (reply.text crates.toCrates).toList) ::
      replies crates (fun n => files (n + 1)) others

theorem replies_length (crates : PipeCrates) (files : Nat → Files) (lines : List (List UInt8)) :
    (replies crates files lines).length = lines.length := by
  induction lines generalizing files with
  | nil => rfl
  | cons record others ih => rw [replies, List.length_cons, List.length_cons, ih]

theorem replies_get (crates : PipeCrates) (files : Nat → Files) {lines : List (List UInt8)}
    {k : Nat} {record : List UInt8} (h : lines[k]? = some record) :
    (replies crates files lines)[k]? = some ((answer crates (files k) (received record)).elim []
      fun reply => asBytes (reply.text crates.toCrates).toList) := by
  induction lines generalizing files k with
  | nil => cases h
  | cons other others ih =>
      cases k with
      | zero =>
          obtain rfl := Option.some.inj h
          rfl
      | succ k => exact ih (fun n => files (n + 1)) h

theorem replies_oneLine {crates : PipeCrates} (hfloats : crates.toCrates.PrintsFloats)
    (files : Nat → Files) (lines : List (List UInt8)) :
    ∀ reply ∈ replies crates files lines, newline ∉ reply := by
  induction lines generalizing files with
  | nil => intro reply hreply; cases hreply
  | cons record others ih =>
      intro reply hreply
      rcases List.mem_cons.mp hreply with rfl | hreply
      · cases answer crates (files 0) (received record) with
        | none => exact List.not_mem_nil
        | some reply =>
            rw [Option.elim_some]
            exact reply_oneLine hfloats reply
      · exact ih (fun n => files (n + 1)) reply hreply

/-- What the worker writes on a stream it comes to the end of. -/
theorem output_eq {crates : PipeCrates} {files : Nat → Files} {bytes : List UInt8}
    (h : Answered crates files (records bytes)) :
    (workerMainSync crates .closed files bytes).output =
      ((replies crates files (records bytes)).map (· ++ [newline])).flatten := by
  generalize hlines : records bytes = lines at h
  induction lines generalizing bytes files with
  | nil =>
      rw [records_nil hlines, workerMainSync_closed_nil]
      rfl
  | cons record others ih =>
      obtain ⟨hanswer, hothers⟩ := answered_cons.mp h
      obtain ⟨reply, hreply⟩ := Option.ne_none_iff_exists'.mp hanswer
      rw [workerMainSync_closed files hlines, replies, List.map_cons, List.flatten_cons,
        ← ih (records_flatten hlines) hothers, hreply, WorkerRun.after_some, Option.elim_some,
        WorkerReply.line]

/-! ## One reply for each record -/

/-- Every record has one reply, a line, in the order of the records: the reply of a worker that
reads this record alone. -/
structure Framed (crates : PipeCrates) (files : Nat → Files) (bytes : List UInt8) : Prop where
  finished : (workerMainSync crates .closed files bytes).ending = .finished
  replies : ∃ replies : List (List UInt8), replies.length = (records bytes).length ∧
    (∀ reply ∈ replies, newline ∉ reply) ∧
    (workerMainSync crates .closed files bytes).output = (replies.map (· ++ [newline])).flatten ∧
    ∀ k record reply, (records bytes)[k]? = some record → replies[k]? = some reply →
      (workerMainSync crates .closed (fun n => files (k + n)) record).output = reply ++ [newline]

theorem framed_iff {crates : PipeCrates} (hfloats : crates.toCrates.PrintsFloats)
    {files : Nat → Files} {bytes : List UInt8} :
    Framed crates files bytes ↔ Answered crates files (records bytes) := by
  constructor
  · intro h
    exact finished_iff.mp h.finished
  · intro h
    refine ⟨finished_iff.mpr h, replies crates files (records bytes), replies_length .., ?_,
      output_eq h, ?_⟩
    · exact replies_oneLine hfloats files (records bytes)
    · intro k record reply hk hreply
      obtain ⟨answered, hanswered⟩ := Option.ne_none_iff_exists'.mp (h k record hk)
      rw [replies_get crates files hk, hanswered] at hreply
      obtain rfl := Option.some.inj hreply
      have halone : records record = [record] :=
        Framing.splitInclusive_record (List.mem_of_getElem? hk)
      rw [workerMainSync_closed _ halone, Nat.add_zero, hanswered, List.flatten_nil,
        workerMainSync_closed_nil, WorkerRun.after_some, List.append_nil, WorkerReply.line,
        Option.elim_some]

/-! ## When the worker panics -/

/-- The texts of doubles, and that an empty line is no job. -/
structure PipeCrates.Documented (crates : PipeCrates) : Prop where
  floats : crates.toCrates.PrintsFloats
  empty : ∃ error, crates.readJob [] = .error error

/-- The path that a file resolves to, if any, is text. -/
def NameReadable (canonicalize : Path → Option (List UInt8)) (path : String) : Prop :=
  ∀ resolved, nativePath canonicalize path = some resolved → (toStr resolved).isSome = true

/-- No job among the records leads to a directory whose path is not text. -/
def NamesReadable (crates : PipeCrates) (files : Nat → Files) (bytes : List UInt8) : Prop :=
  ∀ k record job, (records bytes)[k]? = some record → record.length ≤ maxWorkerLine →
    crates.readJob record = .ok job → NameReadable (files k).canonicalize job.path

theorem sample_eq_none {crates : WorkerCrates} {files : Files} {path : String}
    {condition : Option Value} :
    files.sample crates path condition = none ↔ ¬ NameReadable files.canonicalize path := by
  unfold Files.sample NameReadable
  cases hnative : nativePath files.canonicalize path with
  | none => simp
  | some resolved => simp

theorem process_eq_none {crates : PipeCrates} {files : Files} {line : List UInt8} :
    process crates files line = none ↔ ∃ job, crates.readJob line = .ok job ∧
      ¬ NameReadable files.canonicalize job.path := by
  unfold process
  cases hread : crates.readJob line with
  | error error => simp
  | ok job => simp [sample_eq_none]

/-- A record within the bound is what the worker reads of it. -/
theorem received_eq {record : List UInt8} (h : record.length ≤ maxWorkerLine) :
    received record = record := by
  have hbody : (record.takeWhile (· ≠ newline)).length ≤ record.length :=
    (List.takeWhile_prefix _).length_le
  rw [received, if_neg (by omega)]

/-- A record over the bound is never handed to the parser of jobs, or nothing of it is. -/
theorem received_long {record : List UInt8} (h : maxWorkerLine < record.length) :
    received record = [] ∨ maxWorkerLine < (received record).length := by
  rw [received]
  by_cases hlong : maxWorkerLine < (record.takeWhile (· ≠ newline)).length
  · exact .inl (if_pos hlong)
  · rw [if_neg hlong]
    exact .inr h

theorem answered_iff {crates : PipeCrates} (hcrates : crates.Documented) {files : Nat → Files}
    {bytes : List UInt8} :
    Answered crates files (records bytes) ↔ NamesReadable crates files bytes := by
  constructor
  · intro h k record job hk hshort hread
    have hanswer := h k record hk
    rw [received_eq hshort, answer, if_neg (Nat.not_lt.mpr hshort), ne_eq, process_eq_none] at hanswer
    by_contra hname
    exact hanswer ⟨job, hread, hname⟩
  · intro h k record hk hanswer
    rw [answer] at hanswer
    by_cases hshort : record.length ≤ maxWorkerLine
    · rw [received_eq hshort, if_neg (Nat.not_lt.mpr hshort), process_eq_none] at hanswer
      obtain ⟨job, hread, hname⟩ := hanswer
      exact hname (h k record job hk hshort hread)
    · rcases received_long (Nat.not_le.mp hshort) with hempty | hlong
      · obtain ⟨error, herror⟩ := hcrates.empty
        rw [hempty, if_neg (by simp), process_eq_none] at hanswer
        obtain ⟨job, hread, _⟩ := hanswer
        rw [herror] at hread
        cases hread
      · rw [if_pos hlong] at hanswer
        cases hanswer

/-! ## A connection that is kept -/

/-- Everything sent is records that ended, the worker waits for the next, and all that it has
written was read. -/
structure Settled (crates : PipeCrates) (conn : WorkerConnection) (bodies : List (List UInt8)) :
    Prop where
  sent : conn.sent = Framing.joined newline bodies []
  ended : ∀ body ∈ bodies, newline ∉ body
  waiting : (conn.run crates).ending = .waiting ⟨[], false⟩
  taken : conn.taken = (conn.run crates).output.length

theorem workerMainSync_opened_nil (crates : PipeCrates) (files : Nat → Files) :
    workerMainSync crates .opened files [] = ⟨[], .waiting ⟨[], false⟩⟩ := by
  rw [workerMainSync]
  rfl

/-- What follows records that ended is handled as if it stood alone. -/
theorem workerMainSync_opened {crates : PipeCrates} {files : Nat → Files}
    {bodies : List (List UInt8)} {held : Held} (hbodies : ∀ body ∈ bodies, newline ∉ body)
    (hwaiting : (workerMainSync crates .opened files (Framing.joined newline bodies [])).ending =
      .waiting held) (more : List UInt8) :
    workerMainSync crates .opened files (Framing.joined newline bodies more) =
      ⟨(workerMainSync crates .opened files (Framing.joined newline bodies [])).output ++
          (workerMainSync crates .opened (fun n => files (n + bodies.length)) more).output,
        (workerMainSync crates .opened (fun n => files (n + bodies.length)) more).ending⟩ := by
  induction bodies generalizing files with
  | nil =>
      simp only [Framing.joined, List.length_nil, Nat.add_zero]
      rw [workerMainSync_opened_nil, List.nil_append]
  | cons body bodies ih =>
      have hbody := hbodies body List.mem_cons_self
      have hothers : ∀ other ∈ bodies, newline ∉ other := fun other hother =>
        hbodies other (List.mem_cons_of_mem body hother)
      have hline : ∀ rest, workerMainSync crates .opened files
          (Framing.joined newline (body :: bodies) rest) =
            .after crates.toCrates (answer crates (files 0) (received (body ++ [newline])))
              (workerMainSync crates .opened (fun n => files (n + 1))
                (Framing.joined newline bodies rest)) :=
        fun rest => workerMainSync_line files (readSyncLine_record .opened hbody _)
      rw [hline] at hwaiting
      rw [hline, hline]
      cases hanswer : answer crates (files 0) (received (body ++ [newline])) with
      | none =>
          rw [hanswer, WorkerRun.after_none] at hwaiting
          cases hwaiting
      | some reply =>
          rw [hanswer, WorkerRun.after_some] at hwaiting
          dsimp only at hwaiting
          rw [WorkerRun.after_some, WorkerRun.after_some, ih hothers hwaiting]
          simp only [List.append_assoc, List.length_cons, Nat.add_assoc]

/-- The worker handles a job that is written to it as the record behind those that were sent. -/
theorem Settled.run_write {crates : PipeCrates} {conn : WorkerConnection}
    {bodies : List (List UInt8)} (h : Settled crates conn bodies) {job : List UInt8}
    (hjob : newline ∉ job) :
    (conn.write job).run crates =
      ⟨(conn.run crates).output ++ (WorkerRun.after crates.toCrates
          (answer crates (conn.files bodies.length) (received (job ++ [newline])))
          ⟨[], .waiting ⟨[], false⟩⟩).output,
        (WorkerRun.after crates.toCrates
          (answer crates (conn.files bodies.length) (received (job ++ [newline])))
          ⟨[], .waiting ⟨[], false⟩⟩).ending⟩ := by
  have hsent : (conn.write job).sent = Framing.joined newline bodies (job ++ newline :: []) := by
    rw [WorkerConnection.write, h.sent, List.append_assoc, Framing.joined_nil_append]
  have hwaiting := h.waiting
  rw [WorkerConnection.run, h.sent] at hwaiting
  have hlast := @workerMainSync_line crates .opened (fun n => conn.files (n + bodies.length)) _ _ _
    (readSyncLine_record .opened hjob [])
  rw [workerMainSync_opened_nil, Nat.zero_add] at hlast
  rw [WorkerConnection.run, hsent, WorkerConnection.run, h.sent, ← hlast]
  exact workerMainSync_opened h.ended hwaiting _

/-- The records sent so far. -/
theorem Settled.records {crates : PipeCrates} {conn : WorkerConnection}
    {bodies : List (List UInt8)} (h : Settled crates conn bodies) :
    (records conn.sent).length = bodies.length := by
  rw [Collector.records, h.sent, Framing.splitInclusive_joined h.ended List.not_mem_nil]
  simp

/-- A sample on a settled connection gets the worker's reply to its own job. -/
theorem Settled.sample_eq {crates : PipeCrates} (hfloats : crates.toCrates.PrintsFloats)
    {cwd : Option String} {conn : WorkerConnection} {bodies : List (List UInt8)}
    (h : Settled crates conn bodies) {path : String} {condition : Option Value}
    (hfits : (request crates.toCrates cwd path condition).length ≤ maxWorkerLine) :
    conn.sample crates cwd path condition =
      let job := request crates.toCrates cwd path condition
      match answer crates (conn.files bodies.length) (received (job ++ [newline])) with
      | none => (.error "worker_exited", conn.write job)
      | some reply =>
          if maxWorkerLine < (asBytes (reply.text crates.toCrates).toList).length then
            (.error "worker_result", conn.write job)
          else
            (WorkerReply.result (crates.readReply (reply.line crates.toCrates)),
              { conn.write job with taken := ((conn.write job).run crates).output.length }) := by
  have hrun := h.run_write (request_oneLine hfloats cwd path condition)
  unfold WorkerConnection.sample
  generalize request crates.toCrates cwd path condition = job at hfits hrun ⊢
  have htaken : (conn.write job).taken = (conn.run crates).output.length := h.taken
  dsimp only
  rw [if_neg (Nat.not_lt.mpr hfits), htaken, hrun, List.drop_left]
  cases answer crates (conn.files bodies.length) (received (job ++ [newline])) with
  | none => rfl
  | some reply =>
      have hline := reply_oneLine hfloats reply
      simp only [WorkerRun.after_some, List.append_nil, WorkerReply.line]
      by_cases hlong : maxWorkerLine < (asBytes (reply.text crates.toCrates).toList).length
      · rw [readAsyncLine_long _ hline hlong, if_pos hlong]
      · rw [readAsyncLine_record _ hline (Nat.not_lt.mp hlong), if_neg hlong]
        rfl

/-- A connection on which a sample succeeded is settled again. -/
theorem Settled.sample {crates : PipeCrates} (hfloats : crates.toCrates.PrintsFloats)
    {cwd : Option String} {conn conn' : WorkerConnection} {bodies : List (List UInt8)}
    (h : Settled crates conn bodies) {path : String} {condition : Option Value} {value : Value}
    (hsample : conn.sample crates cwd path condition = (.ok value, conn')) :
    Settled crates conn' (bodies ++ [request crates.toCrates cwd path condition]) := by
  have hjob := request_oneLine hfloats cwd path condition
  have hrun := h.run_write hjob
  have hfits : (request crates.toCrates cwd path condition).length ≤ maxWorkerLine := by
    by_contra hlong
    rw [WorkerConnection.sample] at hsample
    dsimp only at hsample
    rw [if_pos (Nat.not_le.mp hlong)] at hsample
    cases hsample
  rw [h.sample_eq hfloats hfits] at hsample
  generalize request crates.toCrates cwd path condition = job at hjob hrun hsample ⊢
  dsimp only at hsample
  cases hanswer : answer crates (conn.files bodies.length) (received (job ++ [newline])) with
  | none =>
      rw [hanswer] at hsample
      cases hsample
  | some reply =>
      rw [hanswer] at hsample hrun
      dsimp only at hsample
      by_cases hlong : maxWorkerLine < (asBytes (reply.text crates.toCrates).toList).length
      · rw [if_pos hlong] at hsample
        cases hsample
      rw [if_neg hlong] at hsample
      obtain rfl := (Prod.mk.inj hsample).2
      refine ⟨?_, ?_, ?_, rfl⟩
      · show conn.sent ++ job ++ [newline] = _
        rw [h.sent, List.append_assoc, Framing.joined_nil_append, Framing.joined_append]
        rfl
      · intro body hbody
        rcases List.mem_append.mp hbody with hbody | hbody
        · exact h.ended body hbody
        · rw [List.mem_singleton.mp hbody]
          exact hjob
      · show ((conn.write job).run crates).ending = _
        rw [hrun, WorkerRun.after_some]

theorem settled_start (crates : PipeCrates) (files : Nat → Files) :
    Settled crates ⟨files, [], 0⟩ [] where
  sent := rfl
  ended := by simp
  waiting := by rw [WorkerConnection.run, workerMainSync_opened_nil]
  taken := by
    rw [WorkerConnection.run, workerMainSync_opened_nil]
    rfl

/-- Every connection of the pool is settled. -/
theorem WorkerConnection.Reached.settled {crates : PipeCrates}
    (hfloats : crates.toCrates.PrintsFloats) {cwd : Option String} {conn : WorkerConnection}
    (h : conn.Reached crates cwd) : ∃ bodies, Settled crates conn bodies := by
  induction h with
  | start files => exact ⟨[], settled_start crates files⟩
  | sample _ hsample ih =>
      obtain ⟨bodies, hsettled⟩ := ih
      exact ⟨_, hsettled.sample hfloats hsample⟩

/-! ## The limit -/

theorem readSyncLine_bound {tail : Tail} {input line rest : List UInt8}
    (h : readSyncLine tail input = .line line rest) : line.length ≤ maxWorkerLine + 1 := by
  obtain ⟨hheld, hreturned⟩ := syncLine_bounds.read syncLine_bounds.start input
  unfold readSyncLine at h
  cases hread : syncLine.read syncLine.start input with
  | inl returned =>
      obtain ⟨out, left⟩ := returned
      rw [hread] at h
      cases h
      exact hreturned _ _ hread
  | inr held =>
      have hbound := (hheld held hread).1
      rw [hread] at h
      cases tail with
      | failed errno => cases h
      | opened => cases h
      | closed =>
          dsimp only at h
          by_cases hdraining : held.draining = true
          · rw [if_pos hdraining] at h
            cases h
            exact Nat.zero_le _
          · rw [if_neg hdraining] at h
            by_cases hline : held.line = []
            · rw [if_pos hline] at h
              cases h
            · rw [if_neg hline] at h
              cases h
              exact hbound

theorem readSyncLine_waiting {tail : Tail} {input : List UInt8} {held : Held}
    (h : readSyncLine tail input = .waiting held) : held.line.length ≤ maxWorkerLine + 1 := by
  obtain ⟨hheld, _⟩ := syncLine_bounds.read syncLine_bounds.start input
  unfold readSyncLine at h
  cases hread : syncLine.read syncLine.start input with
  | inl returned =>
      rw [hread] at h
      cases h
  | inr kept =>
      rw [hread] at h
      cases tail with
      | failed errno => cases h
      | opened =>
          cases h
          exact (hheld _ hread).1
      | closed =>
          dsimp only at h
          split_ifs at h

/-- At whatever byte the worker waits, it keeps no more than the bound and one byte. -/
theorem waiting_bound {crates : PipeCrates} {tail : Tail} {files : Nat → Files}
    {input : List UInt8} {held : Held}
    (h : (workerMainSync crates tail files input).ending = .waiting held) :
    held.line.length ≤ maxWorkerLine + 1 := by
  induction hlength : input.length using Nat.strong_induction_on generalizing input files with
  | _ n ih =>
      by_cases hline : ∃ line rest, readSyncLine tail input = .line line rest
      · obtain ⟨line, rest, hread⟩ := hline
        have hshorter := readSyncLine_shorter hread
        rw [workerMainSync_line files hread] at h
        cases hanswer : answer crates (files 0) line with
        | none =>
            rw [hanswer, WorkerRun.after_none] at h
            cases h
        | some reply =>
            rw [hanswer, WorkerRun.after_some] at h
            dsimp only at h
            exact ih rest.length (by omega) h rfl
      · rw [workerMainSync] at h
        split at h
        · cases h
        · cases h
        · rename_i kept hread
          obtain rfl : kept = held := Ending.waiting.inj h
          exact readSyncLine_waiting hread
        · rename_i line rest hread
          exact absurd ⟨line, rest, hread⟩ hline

/-! ## Both ends -/

/-- What the worker keeps of a record, at every byte of the stream and when it hands a line on. -/
structure Bounded (crates : PipeCrates) (files : Nat → Files) (bytes : List UInt8) : Prop where
  kept : ∀ front, front <+: bytes → ∀ held,
    (workerMainSync crates .opened files front).ending = .waiting held →
      held.line.length ≤ maxWorkerLine + 1
  returned : ∀ tail input line rest, input <:+ bytes →
    readSyncLine tail input = .line line rest → line.length ≤ maxWorkerLine + 1

/-- The job is read whole, and the worker replies with the sample of its path and condition. -/
structure Delivered (crates : PipeCrates) (cwd : Option String) (conn : WorkerConnection)
    (path : String) (condition : Option Value) : Prop where
  whole : ∀ tail rest,
    readSyncLine tail (request crates.toCrates cwd path condition ++ newline :: rest) =
      .line (request crates.toCrates cwd path condition ++ [newline]) rest
  processed : ∃ sample, (conn.files (records conn.sent).length).sample crates.toWorkerCrates
      (absoluteDisplayPath cwd path) (crates.jobCondition condition) = some sample ∧
    ((conn.write (request crates.toCrates cwd path condition)).run crates).output =
      (conn.run crates).output ++ (sampled sample).line crates.toCrates

/-- What the two ends of the pipe promise each other: on a stream `bytes`, and for a job sent on a
connection of the pool. -/
structure WorkerFrames (crates : PipeCrates) (files : Nat → Files) (bytes : List UInt8)
    (cwd : Option String) (conn : WorkerConnection) (path : String) (condition : Option Value) :
    Prop where
  framed : Framed crates files bytes
  bounded : Bounded crates files bytes
  delivered : (request crates.toCrates cwd path condition).length ≤ maxWorkerLine →
    Delivered crates cwd conn path condition

theorem asBytes_inj {text other : List Char} (h : asBytes text = asBytes other) : text = other := by
  have hbytes : text.utf8Encode = other.utf8Encode := by
    rw [List.utf8Encode, List.utf8Encode]
    exact congrArg List.toByteArray h
  have htext : String.ofList text = String.ofList other := by
    apply String.toByteArray_inj.mp
    rw [String.toByteArray_ofList, String.toByteArray_ofList, hbytes]
  simpa using congrArg String.toList htext

theorem line_inj {crates : Crates} {reply other : WorkerReply}
    (h : reply.line crates = other.line crates) :
    (reply.text crates).toList = (other.text crates).toList :=
  asBytes_inj (List.append_cancel_right h)

theorem text_ok {crates : Crates} {reply other : WorkerReply}
    (h : (reply.text crates).toList = (other.text crates).toList) : reply.ok = other.ok := by
  have hsplit : ∀ r : WorkerReply, ∃ rest, (r.text crates).toList =
      "\x7b\"ok\":".toList ++ ((if r.ok = true then "true" else "false").toList ++ rest) := by
    intro r
    refine ⟨",\"sample\":".toList ++ ((r.sample.elim "null" (canonicalJson crates)).toList ++
      (",\"error\":".toList ++ ((r.error.elim "null" stringText).toList ++ "\x7d".toList))), ?_⟩
    simp only [WorkerReply.text, String.toList_append, List.append_assoc]
  obtain ⟨rest, hreply⟩ := hsplit reply
  obtain ⟨rest', hother⟩ := hsplit other
  rw [hreply, hother] at h
  have hwords := List.append_cancel_left h
  cases hok : reply.ok with
  | true =>
      cases hok' : other.ok with
      | true => rfl
      | false =>
          rw [hok, hok'] at hwords
          exact absurd (congrArg List.head? hwords) (by simp)
  | false =>
      cases hok' : other.ok with
      | false => rfl
      | true =>
          rw [hok, hok'] at hwords
          exact absurd (congrArg List.head? hwords) (by simp)

/-- A job that is short enough and not too deep is sampled, when its path leads to text. -/
theorem answer_sampled {crates : PipeCrates} {cwd : Option String} {path : String}
    {condition : Option Value} (hjob : crates.ReadsJob cwd path condition) {files : Files}
    {sample : FileSample} (hshort : (request crates.toCrates cwd path condition).length < maxWorkerLine)
    (hdepth : jobDepth condition ≤ maxDepth)
    (hsample : files.sample crates.toWorkerCrates (absoluteDisplayPath cwd path)
      (crates.jobCondition condition) = some sample) :
    answer crates files (request crates.toCrates cwd path condition ++ [newline]) =
      some (sampled sample) := by
  have hline : ¬ maxWorkerLine <
      (request crates.toCrates cwd path condition ++ [newline]).length := by
    rw [List.length_append, List.length_singleton]
    omega
  rw [answer, if_neg hline, process, hjob.read hdepth]
  simp only [hsample, Option.map_some]

/-- Only such a job gets a reply that is no error. -/
theorem answer_ok {crates : PipeCrates} {cwd : Option String} {path : String}
    {condition : Option Value} (hjob : crates.ReadsJob cwd path condition) {files : Files}
    {reply : WorkerReply}
    (hanswer : answer crates files (request crates.toCrates cwd path condition ++ [newline]) =
      some reply) (hok : reply.ok = true) :
    (request crates.toCrates cwd path condition).length < maxWorkerLine ∧
      jobDepth condition ≤ maxDepth ∧
      ∃ sample, files.sample crates.toWorkerCrates (absoluteDisplayPath cwd path)
        (crates.jobCondition condition) = some sample ∧ reply = sampled sample := by
  unfold answer at hanswer
  split at hanswer
  · obtain rfl := Option.some.inj hanswer
    cases hok
  · rename_i hline
    rw [List.length_append, List.length_singleton] at hline
    by_cases hdepth : jobDepth condition ≤ maxDepth
    · rw [process, hjob.read hdepth] at hanswer
      obtain ⟨sample, hsample, rfl⟩ := Option.map_eq_some_iff.mp hanswer
      exact ⟨by omega, hdepth, sample, hsample, rfl⟩
    · obtain ⟨error, herror⟩ := hjob.deep (Nat.not_le.mp hdepth)
      rw [process, herror] at hanswer
      obtain rfl := Option.some.inj hanswer
      cases hok

/-- What a job needs to be handled: its end does not take it over the worker's bound, the parser
reads all its levels, and its path leads to text. -/
structure Handled (crates : PipeCrates) (cwd : Option String) (conn : WorkerConnection)
    (path : String) (condition : Option Value) : Prop where
  short : (request crates.toCrates cwd path condition).length ≠ maxWorkerLine
  shallow : jobDepth condition ≤ maxDepth
  named : NameReadable (conn.files (records conn.sent).length).canonicalize
    (absoluteDisplayPath cwd path)

/-- The worker's reply to a job that is delivered. -/
theorem Settled.delivered_answer {crates : PipeCrates} (hfloats : crates.toCrates.PrintsFloats)
    {cwd : Option String} {conn : WorkerConnection} {bodies : List (List UInt8)}
    (h : Settled crates conn bodies) {path : String} {condition : Option Value}
    (hfits : (request crates.toCrates cwd path condition).length ≤ maxWorkerLine)
    (hdelivered : Delivered crates cwd conn path condition) :
    ∃ reply, answer crates (conn.files bodies.length)
      (request crates.toCrates cwd path condition ++ [newline]) = some reply ∧ reply.ok = true := by
  have hjob := request_oneLine hfloats cwd path condition
  have hrun := h.run_write hjob
  rw [received_ended hjob, if_neg (Nat.not_lt.mpr hfits)] at hrun
  obtain ⟨sample, -, hprocessed⟩ := hdelivered.processed
  rw [hrun] at hprocessed
  have hline := List.append_cancel_left hprocessed
  cases hanswer : answer crates (conn.files bodies.length)
      (request crates.toCrates cwd path condition ++ [newline]) with
  | none =>
      rw [hanswer, WorkerRun.after_none, WorkerReply.line] at hline
      exact absurd hline.symm (by simp)
  | some reply =>
      rw [hanswer, WorkerRun.after_some, List.append_nil] at hline
      exact ⟨reply, rfl, text_ok (line_inj hline)⟩

/-- The worker takes a job whose end takes it over the bound for a line that is too long. -/
theorem Settled.oversized {crates : PipeCrates} (hfloats : crates.toCrates.PrintsFloats)
    {cwd : Option String} {conn : WorkerConnection} {bodies : List (List UInt8)}
    (h : Settled crates conn bodies) {path : String} {condition : Option Value}
    (hedge : (request crates.toCrates cwd path condition).length = maxWorkerLine) :
    ¬ Delivered crates cwd conn path condition := by
  intro hdelivered
  obtain ⟨reply, hanswer, hok⟩ := h.delivered_answer hfloats hedge.le hdelivered
  have hlong : maxWorkerLine <
      (request crates.toCrates cwd path condition ++ [newline]).length := by
    rw [List.length_append, List.length_singleton]
    omega
  rw [answer, if_pos hlong] at hanswer
  obtain rfl := Option.some.inj hanswer
  cases hok

/-- Which of the jobs that are sent are sampled. -/
theorem Settled.delivered_iff {crates : PipeCrates} (hfloats : crates.toCrates.PrintsFloats)
    {cwd : Option String} {conn : WorkerConnection} {bodies : List (List UInt8)}
    (h : Settled crates conn bodies) {path : String} {condition : Option Value}
    (hreads : crates.ReadsJob cwd path condition)
    (hfits : (request crates.toCrates cwd path condition).length ≤ maxWorkerLine) :
    Delivered crates cwd conn path condition ↔ Handled crates cwd conn path condition := by
  have hjob := request_oneLine hfloats cwd path condition
  have hreceived : received (request crates.toCrates cwd path condition ++ [newline]) =
      request crates.toCrates cwd path condition ++ [newline] := by
    rw [received_ended hjob, if_neg (Nat.not_lt.mpr hfits)]
  constructor
  · intro hdelivered
    obtain ⟨reply, hanswer, hok⟩ := h.delivered_answer hfloats hfits hdelivered
    obtain ⟨hshort, hdepth, sample, hsample, -⟩ := answer_ok hreads hanswer hok
    refine ⟨hshort.ne, hdepth, by_contra fun hname => ?_⟩
    rw [h.records] at hname
    rw [sample_eq_none.mpr hname] at hsample
    cases hsample
  · intro hhandled
    have hrun := h.run_write hjob
    rw [hreceived] at hrun
    refine ⟨fun tail rest => ?_, ?_⟩
    · rw [readSyncLine_record tail hjob, hreceived]
    · obtain ⟨sample, hsample⟩ := Option.ne_none_iff_exists'.mp fun hnone =>
        sample_eq_none.mp hnone hhandled.named
      refine ⟨sample, hsample, ?_⟩
      rw [h.records] at hsample
      rw [hrun, answer_sampled hreads (lt_of_le_of_ne hfits hhandled.short) hhandled.shallow hsample,
        WorkerRun.after_some, List.append_nil]

/-- **The two ends of the pipe.**  A stream has one reply for each record, whatever their lengths,
unless a job leads to a path that is not text; and a job that is sent is sampled unless it has
exactly the length of the bound, has too many levels for the parser, or leads to such a path. -/
theorem worker_frames_iff {crates : PipeCrates} (hcrates : crates.Documented)
    (files : Nat → Files) (bytes : List UInt8) {cwd : Option String} {conn : WorkerConnection}
    (hconn : conn.Reached crates cwd) {path : String} {condition : Option Value}
    (hreads : crates.ReadsJob cwd path condition) :
    WorkerFrames crates files bytes cwd conn path condition ↔
      NamesReadable crates files bytes ∧
        ((request crates.toCrates cwd path condition).length ≤ maxWorkerLine →
          Handled crates cwd conn path condition) := by
  obtain ⟨bodies, hsettled⟩ := hconn.settled hcrates.floats
  have hdelivered := fun hfits => hsettled.delivered_iff hcrates.floats hreads hfits
  constructor
  · intro h
    refine ⟨(answered_iff hcrates).mp ((framed_iff hcrates.floats).mp h.framed), fun hfits => ?_⟩
    exact (hdelivered hfits).mp (h.delivered hfits)
  · intro h
    refine ⟨(framed_iff hcrates.floats).mpr ((answered_iff hcrates).mpr h.1), ⟨?_, ?_⟩, ?_⟩
    · exact fun _ _ _ hwaiting => waiting_bound hwaiting
    · exact fun _ _ _ _ _ hread => readSyncLine_bound hread
    · exact fun hfits => (hdelivered hfits).mpr (h.2 hfits)

/-! ## At the bound -/

/-- A directory and a file in it. -/
def pipeFiles : Files where
  cwd := some "/"
  state _ := .unresolved .enoent
  canonicalize _ := some (asBytes "/srv".toList)

/-- Third-party code that reads the job of one path and condition. -/
def readingJob (crates : Crates) (path : String) (condition : Option Value) : PipeCrates where
  toCrates := crates
  fromSlice _ := none
  sha256 _ := String.ofList (List.replicate 64 '0')
  readJob line :=
    if line = request crates none path condition ++ [newline] then .ok ⟨path, condition⟩
    else .error "EOF while parsing a value at line 1 column 0"
  readReply _ := none
  reread bits := bits

section readingJob

variable {crates : Crates} {path : String} {condition : Option Value}

theorem readingJob_readJob (line : List UInt8) : (readingJob crates path condition).readJob line =
    if line = request crates none path condition ++ [newline] then .ok ⟨path, condition⟩
    else .error "EOF while parsing a value at line 1 column 0" := rfl

theorem readingJob_reads (habsolute : path.toList.head? = some '/')
    (hsame : (readingJob crates path condition).jobCondition condition = condition)
    (hdepth : jobDepth condition ≤ maxDepth) (cwd : Option String) :
    (readingJob crates path condition).ReadsJob cwd path condition := by
  have hrequest : request crates cwd path condition = request crates none path condition := by
    rw [request, request, absoluteDisplayPath_eq habsolute, absoluteDisplayPath_eq habsolute]
  refine ⟨fun _ => ?_, fun hdeep => absurd hdepth (Nat.not_le.mpr hdeep)⟩
  rw [readingJob_readJob, hsame, absoluteDisplayPath_eq habsolute, if_pos]
  exact congrArg (· ++ [newline]) hrequest

theorem readingJob_documented (hfloats : crates.PrintsFloats) :
    (readingJob crates path condition).Documented where
  floats := hfloats
  empty := by
    refine ⟨"EOF while parsing a value at line 1 column 0", ?_⟩
    have hne : ([] : List UInt8) ≠ request crates none path condition ++ [newline] := by
      simp
    rw [readingJob_readJob, if_neg hne]

end readingJob

/-- A condition on the status in a file. -/
def statusCondition (pointer : String) : Value :=
  .object [("operator", .string "eq"), ("pointer", .string pointer), ("value", .number (.posInt 1))]

/-- An empty record, a job, and an empty stream behind them. -/
theorem worker_frames_sample :
    WorkerFrames (readingJob exactPrinter "/srv/a" (some (statusCondition "/status"))) (fun _ => pipeFiles)
      (newline :: request exactPrinter none "/srv/a" (some (statusCondition "/status")) ++ [newline]) (some "/")
      ⟨fun _ => pipeFiles, [], 0⟩ "/srv/a" (some (statusCondition "/status")) := by
  have hname : NameReadable pipeFiles.canonicalize "/srv/a" := by
    have hresolved : nativePath pipeFiles.canonicalize "/srv/a" =
        some (asBytes "/srv/a".toList) := by decide
    intro resolved hnative
    obtain rfl := Option.some.inj (hresolved.symm.trans hnative)
    decide
  refine (worker_frames_iff (readingJob_documented exactPrinter_printsFloats) (fun _ => pipeFiles) _
    (.start _) (readingJob_reads (by decide) rfl (by decide) _)).mpr ⟨?_, fun _ => ⟨?_, ?_, ?_⟩⟩
  · intro k record job _ _ hread
    have hjob : job = ⟨"/srv/a", some (statusCondition "/status")⟩ := by
      rw [readingJob_readJob] at hread
      split at hread
      · exact (Except.ok.inj hread).symm
      · cases hread
    rw [hjob]
    exact hname
  · decide
  · decide
  · exact hname

/-- An absolute path whose job has the length of the bound. -/
def edgePath : String := String.ofList ('/' :: List.replicate 16355 'a')

/-- This job is sent, and the worker answers that the line is too long. -/
theorem worker_frames_edge :
    ¬ WorkerFrames (readingJob exactPrinter edgePath none) (fun _ => pipeFiles) [] (some "/")
      ⟨fun _ => pipeFiles, [], 0⟩ edgePath none := by
  have hlist : edgePath.toList = '/' :: List.replicate 16355 'a' := String.toList_ofList
  have habsolute : edgePath.toList.head? = some '/' := by rw [hlist]; rfl
  have hplain : ∀ c ∈ edgePath.toList, escapeChar c = [c] ∧ c.utf8Size = 1 := by
    intro c hc
    rw [hlist] at hc
    rcases List.mem_cons.mp hc with rfl | hc
    · decide
    · rw [List.eq_of_mem_replicate hc]
      decide
  have hnull : "null".utf8ByteSize = 4 := by decide
  have hedge : (request exactPrinter (some "/") edgePath none).length = maxWorkerLine := by
    rw [request_bytes, absoluteDisplayPath_eq habsolute, stringText_bytes hplain, hlist,
      List.length_cons, List.length_replicate, Option.elim_none, hnull]
    rfl
  intro h
  have hsettled := settled_start (readingJob exactPrinter edgePath none) fun _ => pipeFiles
  exact hsettled.oversized exactPrinter_printsFloats hedge (h.delivered hedge.le)

end CodexMonitor.Collector
