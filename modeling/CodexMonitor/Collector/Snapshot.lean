import CodexMonitor.Collector.Sample
import CodexMonitor.Store.Operation

/-!
# Sampling a file that another process writes

`FileState` says what reading a path gives; here are the system calls it is read with.
Each call on the descriptor may find another version of the file: the first look, the
reads of the chunked loop, and the second look.  `Sampling.sample_eq` says which
`FileState` a run of the calls amounts to.

What is present was read to the size of the first look, and the second look found the
same device, inode and size, and the same nanoseconds of the modification time; its
seconds are not compared.  `snapshot_iff` says that a sample is a snapshot unless the
file is changed to another time of the same nanoseconds.
-/

namespace CodexMonitor.Collector

/-! ## The calls -/

/-- The file as a call finds it. -/
structure Version where
  bytes : List UInt8
  device : Nat
  inode : Nat
  size : Nat
  seconds : Int
  nanoseconds : Nat
deriving DecidableEq, Repr

/-- What `symlink_metadata` says of the path. -/
inductive Lstat
  | failed (errno : Errno)
  | symlink
  | special
  | regular (size : Nat)
deriving DecidableEq, Repr

/-- What the system answers while a path is sampled.  The calls on the descriptor are numbered:
call `0` is the first look at the file, and the last one the second look. -/
structure Sampling where
  lstat : Lstat
  /-- the error of opening the path -/
  opening : Option Errno
  /-- the error of the first look -/
  looking : Option Errno
  /-- whether the descriptor is that of a regular file -/
  isFile : Bool
  /-- the file as a call finds it -/
  file : Nat → Version
  /-- whether the deadline has passed before a call -/
  late : Nat → Bool
  /-- how many bytes a read gives, when there are so many -/
  read : Nat → Except Errno Nat
  /-- the error of the second look -/
  lookingAgain : Option Errno

def readChunk : Nat := 64 * 1024

/-- The bytes that a read of at most `requested` bytes gives. -/
def Version.block (v : Version) (offset requested count : Nat) : List UInt8 :=
  ((v.bytes.drop offset).take requested).take count

/-- The fields that `sample_file` compares. -/
def Version.identity (v : Version) : Nat × Nat × Nat × Nat :=
  (v.device, v.inode, v.size, v.nanoseconds)

namespace Sampling

/-- The block that the `n`-th call reads. -/
def block (s : Sampling) (n offset remaining count : Nat) : List UInt8 :=
  (s.file n).block offset (min remaining readChunk) count

/-- The reading loop, from the `n`-th call on; a round per unit of fuel.  With the bytes it returns
the number of the call after the last read. -/
def readAll (s : Sampling) : Nat → Nat → Nat → Nat → Except Reading (List UInt8 × Nat)
  | 0, n, _, _ => .ok ([], n)
  | fuel + 1, n, offset, remaining =>
      if remaining = 0 then .ok ([], n)
      else if s.late n = true then .error .late
      else
        match s.read n with
        | .error errno => .error (.failed errno)
        | .ok count =>
            if s.block n offset remaining count = [] then .error .short
            else
              (s.readAll fuel (n + 1) (offset + (s.block n offset remaining count).length)
                (remaining - (s.block n offset remaining count).length)).map fun rest =>
                  (s.block n offset remaining count ++ rest.1, rest.2)

/-- What is said of a file that could not be read. -/
def readingError : Reading → Outcome
  | .failed .eagain | .late => .unreadable "read_timeout"
  | .failed errno => .unreadable (errorName errno)
  | .short => .unreadable "short_read"
  -- the loop ends with neither of these
  | .changed | .content _ => .unreadable "changed_during_read"

/-- `sample_file` from the moment that the path is open. -/
def sampleOpen (crates : WorkerCrates) (condition : Option Value) (s : Sampling) : Outcome :=
  match s.looking with
  | some errno => .unreadable (errorName errno)
  | none =>
      if s.isFile = false then .unreadable "not_regular_file"
      else if maxFileBytes < (s.file 0).size then .unreadable "file_too_large"
      else
        match s.readAll (s.file 0).size 1 0 (s.file 0).size with
        | .error reading => readingError reading
        | .ok (bytes, last) =>
            match s.lookingAgain with
            | some errno => .unreadable (errorName errno)
            | none =>
                if (s.file 0).identity ≠ (s.file last).identity then
                  .unreadable "changed_during_read"
                else presentFile crates condition bytes

/-- The outcome of `sample_file`. -/
def sample (crates : WorkerCrates) (condition : Option Value) (s : Sampling) : Outcome :=
  match s.lstat with
  | .failed .enoent => .missing
  | .failed errno => .unreadable (errorName errno)
  | .symlink => .unreadable "symlink"
  | .special => .unreadable "not_regular_file"
  | .regular size =>
      if maxFileBytes < size then .unreadable "file_too_large"
      else
        match s.opening with
        | some .enoent => .missing
        | some errno => .unreadable (errorName errno)
        | none => s.sampleOpen crates condition

/-! ## What the loop reads -/

/-- The reads from the `n`-th call on give these bytes, in time and without an end of the file, and
leave nothing to read. -/
inductive Reads (s : Sampling) : Nat → Nat → Nat → List UInt8 → Nat → Prop
  | done {n offset : Nat} : Reads s n offset 0 [] n
  | more {n offset remaining count last : Nat} {rest : List UInt8}
      (hremaining : remaining ≠ 0) (hlate : s.late n = false) (hread : s.read n = .ok count)
      (hblock : s.block n offset remaining count ≠ [])
      (hrest : Reads s (n + 1) (offset + (s.block n offset remaining count).length)
        (remaining - (s.block n offset remaining count).length) rest last) :
      Reads s n offset remaining (s.block n offset remaining count ++ rest) last

theorem block_length (s : Sampling) (n offset remaining count : Nat) :
    (s.block n offset remaining count).length ≤ remaining := by
  simp only [block, Version.block, List.length_take]
  omega

/-- The bytes that are read are as many as there were to read. -/
theorem Reads.length {s : Sampling} {n offset remaining last : Nat} {bytes : List UInt8}
    (h : Reads s n offset remaining bytes last) : bytes.length = remaining := by
  induction h with
  | done => rfl
  | @more n offset remaining count last rest _ _ _ _ _ ih =>
      have hle := s.block_length n offset remaining count
      rw [List.length_append, ih]
      omega

/-- The loop ends with the bytes that the reads give. -/
theorem readAll_ok {s : Sampling} {fuel n offset remaining last : Nat} {bytes : List UInt8}
    (hfuel : remaining ≤ fuel) :
    s.readAll fuel n offset remaining = .ok (bytes, last) ↔
      Reads s n offset remaining bytes last := by
  induction fuel generalizing n offset remaining bytes last with
  | zero =>
      obtain rfl := Nat.le_zero.mp hfuel
      constructor
      · intro h
        cases h
        exact .done
      · intro h
        cases h with
        | done => rfl
        | more hremaining => exact absurd rfl hremaining
  | succ fuel ih =>
      rw [readAll]
      constructor
      · intro h
        by_cases hnone : remaining = 0
        · subst hnone
          cases h
          exact .done
        rw [if_neg hnone] at h
        by_cases hlate : s.late n = true
        · rw [if_pos hlate] at h
          cases h
        rw [if_neg hlate] at h
        split at h
        · cases h
        rename_i count hread
        by_cases hblock : s.block n offset remaining count = []
        · rw [if_pos hblock] at h
          cases h
        rw [if_neg hblock] at h
        have hpos := List.length_pos_iff.mpr hblock
        cases hrest : s.readAll fuel (n + 1) (offset + (s.block n offset remaining count).length)
            (remaining - (s.block n offset remaining count).length) with
        | error reading =>
            rw [hrest] at h
            cases h
        | ok rest =>
            rw [hrest] at h
            cases h
            exact .more hnone (by simpa using hlate) hread hblock ((ih (by omega)).mp hrest)
      · intro h
        cases h with
        | done => rfl
        | more hnone hlate hread hblock hrest =>
            have hpos := List.length_pos_iff.mpr hblock
            rw [if_neg hnone, if_neg (by simp [hlate]), hread]
            simp only [if_neg hblock]
            rw [(ih (by omega)).mpr hrest]
            rfl

/-! ## Which state of the path the calls amount to -/

/-- A look at the descriptor that fails. -/
def lookingError (errno : Errno) : FileState :=
  if errno = .eagain then .regular 0 (some errno) .late else .regular 0 none (.failed errno)

/-- The state of an open path. -/
def openState (s : Sampling) : FileState :=
  match s.looking with
  | some errno => lookingError errno
  | none =>
      if s.isFile = false then .special none
      else
        match s.readAll (s.file 0).size 1 0 (s.file 0).size with
        | .error reading => .regular (s.file 0).size none reading
        | .ok (bytes, last) =>
            match s.lookingAgain with
            | some errno =>
                if maxFileBytes < (s.file 0).size then .regular (s.file 0).size none .late
                else lookingError errno
            | none =>
                .regular (s.file 0).size none
                  (if (s.file 0).identity ≠ (s.file last).identity then .changed
                  else .content bytes)

def state (s : Sampling) : FileState :=
  match s.lstat with
  | .failed errno => .unresolved errno
  | .symlink => .symlink
  | .special => .special none
  | .regular size =>
      if maxFileBytes < size then .regular size s.opening .late
      else
        match s.opening with
        | some errno => .regular size (some errno) .late
        | none => s.openState

theorem lookingError_sample (crates : WorkerCrates) (condition : Option Value) (errno : Errno) :
    (lookingError errno).sample crates condition = .unreadable (errorName errno) := by
  unfold lookingError
  by_cases hagain : errno = .eagain
  · subst hagain
    rfl
  · rw [if_neg hagain]
    cases errno <;> first | rfl | exact absurd rfl hagain

theorem readingError_sample (crates : WorkerCrates) (condition : Option Value) {size : Nat}
    (hsize : ¬ maxFileBytes < size) {reading : Reading} (h : ∀ bytes, reading ≠ .content bytes) :
    (FileState.regular size none reading).sample crates condition = readingError reading := by
  simp only [FileState.sample, if_neg hsize]
  cases reading with
  | content bytes => exact absurd rfl (h bytes)
  | failed errno => cases errno <;> rfl
  | late | short | changed => rfl

/-- The loop ends early with an error of the reads, never with a content. -/
theorem readAll_error {s : Sampling} {fuel n offset remaining : Nat} {reading : Reading}
    (h : s.readAll fuel n offset remaining = .error reading) (bytes : List UInt8) :
    reading ≠ .content bytes := by
  induction fuel generalizing n offset remaining with
  | zero => cases h
  | succ fuel ih =>
      rw [readAll] at h
      split at h
      · cases h
      split at h
      · cases h
        simp
      split at h
      · cases h
        simp
      split at h
      · cases h
        simp
      · cases hrest : s.readAll fuel _ _ _ with
        | error reading' =>
            rw [hrest] at h
            cases h
            exact ih hrest
        | ok rest =>
            rw [hrest] at h
            cases h

/-- **The calls and the state of the path.**  Sampling a path with its calls gives what its state
gives. -/
theorem sample_eq (crates : WorkerCrates) (condition : Option Value) (s : Sampling) :
    s.sample crates condition = s.state.sample crates condition := by
  have hopen : s.sampleOpen crates condition = s.openState.sample crates condition := by
    unfold sampleOpen openState
    cases s.looking with
    | some errno => exact (lookingError_sample crates condition errno).symm
    | none =>
        dsimp only
        by_cases hfile : s.isFile = false
        · rw [if_pos hfile, if_pos hfile]
          rfl
        rw [if_neg hfile, if_neg hfile]
        by_cases hsize : maxFileBytes < (s.file 0).size
        · rw [if_pos hsize]
          cases s.readAll (s.file 0).size 1 0 (s.file 0).size with
          | error reading => simp only [FileState.sample, if_pos hsize]
          | ok result =>
              cases s.lookingAgain with
              | none => simp only [FileState.sample, if_pos hsize]
              | some errno => simp only [FileState.sample, if_pos hsize]
        rw [if_neg hsize]
        cases hread : s.readAll (s.file 0).size 1 0 (s.file 0).size with
        | error reading =>
            exact (readingError_sample crates condition hsize (readAll_error hread)).symm
        | ok result =>
            cases s.lookingAgain with
            | some errno =>
                simp only [if_neg hsize]
                exact (lookingError_sample crates condition errno).symm
            | none =>
                simp only [FileState.sample, if_neg hsize]
                by_cases hsame : (s.file 0).identity ≠ (s.file result.2).identity
                · rw [if_pos hsame, if_pos hsame]
                · rw [if_neg hsame, if_neg hsame]
  unfold sample state
  cases s.lstat with
  | failed errno => cases errno <;> rfl
  | symlink | special => rfl
  | regular size =>
      dsimp only
      by_cases hsize : maxFileBytes < size
      · rw [if_pos hsize, if_pos hsize]
        simp only [FileState.sample, if_pos hsize]
      rw [if_neg hsize, if_neg hsize]
      cases s.opening with
      | some errno =>
          simp only [FileState.sample, if_neg hsize]
          cases errno <;> rfl
      | none => exact hopen

/-! ## Snapshots -/

/-- The calls get to the second look, having read these bytes. -/
structure Completes (s : Sampling) (bytes : List UInt8) (last : Nat) : Prop where
  lstat : ∃ size ≤ maxFileBytes, s.lstat = .regular size
  opening : s.opening = none
  looking : s.looking = none
  isFile : s.isFile = true
  bounded : (s.file 0).size ≤ maxFileBytes
  reads : s.Reads 1 0 (s.file 0).size bytes last
  lookingAgain : s.lookingAgain = none

/-- The looks before and after the reads find the same file, with the same modification time. -/
structure Unchanged (before after : Version) : Prop where
  device : before.device = after.device
  inode : before.inode = after.inode
  size : before.size = after.size
  seconds : before.seconds = after.seconds
  nanoseconds : before.nanoseconds = after.nanoseconds

/-- What is present is a snapshot of the file. -/
structure IsSnapshot (crates : WorkerCrates) (condition : Option Value) (s : Sampling) : Prop where
  /-- The digest is that of the bytes that were read, as many as the size of the first look, and the
  second look finds the file unchanged. -/
  present : ∀ sha256 predicate, s.sample crates condition = .present sha256 predicate →
    ∃ bytes last, s.Completes bytes last ∧ bytes.length = (s.file 0).size ∧
      sha256 = crates.sha256 bytes ∧ Unchanged (s.file 0) (s.file last)
  /-- Everything else is missing or unreadable. -/
  absent : (∀ sha256 predicate, s.sample crates condition ≠ .present sha256 predicate) →
    s.sample crates condition = .missing ∨
      ∃ error, s.sample crates condition = .unreadable error
  /-- A write that leaves another modification time is noticed. -/
  written : ∀ bytes last, s.Completes bytes last →
    ¬ ((s.file 0).seconds = (s.file last).seconds ∧
      (s.file 0).nanoseconds = (s.file last).nanoseconds) →
    s.sample crates condition = .unreadable "changed_during_read"

/-- Calls that get to the second look compare what it finds. -/
theorem Completes.sample_eq {s : Sampling} {bytes : List UInt8} {last : Nat}
    (h : s.Completes bytes last) (crates : WorkerCrates) (condition : Option Value) :
    s.sample crates condition =
      if (s.file 0).identity ≠ (s.file last).identity then .unreadable "changed_during_read"
      else presentFile crates condition bytes := by
  obtain ⟨size, hsize, hlstat⟩ := h.lstat
  unfold sample
  rw [hlstat]
  simp only [if_neg (Nat.not_lt.mpr hsize), h.opening, sampleOpen, h.looking, h.isFile,
    if_neg (Nat.not_lt.mpr h.bounded), (readAll_ok (Nat.le_refl _)).mpr h.reads, h.lookingAgain,
    Bool.true_eq_false, if_false]

theorem presentFile_present {crates : WorkerCrates} {condition : Option Value} {bytes : List UInt8}
    {sha256 : String} {predicate : Option Predicate}
    (h : presentFile crates condition bytes = .present sha256 predicate) :
    sha256 = crates.sha256 bytes := by
  unfold presentFile at h
  split at h
  · cases h
    rfl
  · split at h
    · cases h
    · cases h
      rfl

/-- What is present was read to the second look, which found the identity of the first. -/
theorem sample_present {s : Sampling} {crates : WorkerCrates} {condition : Option Value}
    {sha256 : String} {predicate : Option Predicate}
    (h : s.sample crates condition = .present sha256 predicate) :
    ∃ bytes last, s.Completes bytes last ∧ (s.file 0).identity = (s.file last).identity ∧
      sha256 = crates.sha256 bytes := by
  unfold sample at h
  split at h
  · cases h
  · cases h
  · cases h
  · cases h
  rename_i size hlstat
  by_cases hsize : maxFileBytes < size
  · rw [if_pos hsize] at h
    cases h
  rw [if_neg hsize] at h
  split at h
  · cases h
  · cases h
  rename_i hopening
  unfold sampleOpen at h
  split at h
  · cases h
  rename_i hlooking
  by_cases hfile : s.isFile = false
  · rw [if_pos hfile] at h
    cases h
  rw [if_neg hfile] at h
  by_cases hbounded : maxFileBytes < (s.file 0).size
  · rw [if_pos hbounded] at h
    cases h
  rw [if_neg hbounded] at h
  split at h
  · rename_i reading _
    unfold readingError at h
    split at h <;> cases h
  rename_i bytes last hread
  split at h
  · cases h
  rename_i hlookingAgain
  by_cases hsame : (s.file 0).identity ≠ (s.file last).identity
  · rw [if_pos hsame] at h
    cases h
  rw [if_neg hsame] at h
  refine ⟨bytes, last, ?_, not_not.mp hsame, presentFile_present h⟩
  exact ⟨⟨size, Nat.le_of_not_lt hsize, hlstat⟩, hopening, hlooking, by simpa using hfile,
    Nat.le_of_not_lt hbounded, (readAll_ok (Nat.le_refl _)).mp hread, hlookingAgain⟩

/-- **When a sample is a snapshot.**  For every history of the file the sample is a snapshot, and a
write with another modification time is noticed, exactly when the file is not changed, while it is
read, to a modification time that differs in its seconds alone. -/
theorem snapshot_iff (crates : WorkerCrates) (condition : Option Value) (s : Sampling) :
    s.IsSnapshot crates condition ↔
      ∀ bytes last, s.Completes bytes last →
        (s.file 0).identity = (s.file last).identity →
          (s.file 0).seconds = (s.file last).seconds := by
  constructor
  · intro hsnapshot bytes last hcompletes hidentity
    by_contra hseconds
    have hwritten := hsnapshot.written bytes last hcompletes fun htime => hseconds htime.1
    have hpresent := hcompletes.sample_eq crates condition
    rw [if_neg (not_not_intro hidentity), hwritten] at hpresent
    unfold presentFile at hpresent
    split at hpresent
    · cases hpresent
    · split at hpresent
      · exact absurd (Outcome.unreadable.inj hpresent) (by decide)
      · cases hpresent
  · intro hseconds
    refine ⟨?_, ?_, ?_⟩
    · intro sha256 predicate h
      obtain ⟨bytes, last, hcompletes, hidentity, hdigest⟩ := sample_present h
      have htime := hseconds bytes last hcompletes hidentity
      simp only [Version.identity, Prod.mk.injEq] at hidentity
      obtain ⟨hdevice, hinode, hsize, hnanoseconds⟩ := hidentity
      exact ⟨bytes, last, hcompletes, hcompletes.reads.length, hdigest,
        ⟨hdevice, hinode, hsize, htime, hnanoseconds⟩⟩
    · intro hnone
      cases hsample : s.sample crates condition with
      | missing => exact .inl rfl
      | unreadable error => exact .inr ⟨error, rfl⟩
      | present sha256 predicate => exact absurd hsample (hnone sha256 predicate)
    · intro bytes last hcompletes htime
      rw [hcompletes.sample_eq crates condition]
      refine if_pos fun hidentity => htime ⟨hseconds bytes last hcompletes hidentity, ?_⟩
      simp only [Version.identity, Prod.mk.injEq] at hidentity
      exact hidentity.2.2.2

/-! ## A write a second later -/

/-- A file of one byte, last written at a second. -/
def byteAt (byte : UInt8) (seconds : Int) : Version := ⟨[byte], 1, 2, 1, seconds, 0⟩

/-- The file is written again, a second later, after its byte was read. -/
def rewritten : Sampling where
  lstat := .regular 1
  opening := none
  looking := none
  isFile := true
  file n := if n < 2 then byteAt 97 100 else byteAt 98 101
  late _ := false
  read _ := .ok 1
  lookingAgain := none

/-- The file is present, as it was a second before. -/
theorem snapshot_fails :
    ¬ ∀ (crates : WorkerCrates) (condition : Option Value) (s : Sampling),
      s.IsSnapshot crates condition := by
  intro h
  have hblock : rewritten.block 1 0 1 1 ≠ [] := by decide
  have hreads : rewritten.Reads 1 0 1 (rewritten.block 1 0 1 1 ++ []) 2 :=
    .more Nat.one_ne_zero rfl rfl hblock .done
  have hcompletes : rewritten.Completes [97] 2 :=
    ⟨⟨1, by decide, rfl⟩, rfl, rfl, rfl, by decide, hreads, rfl⟩
  have hwritten := (h ⟨printer, fun _ => none, fun _ => "digest"⟩ none rewritten).written [97] 2
    hcompletes (by decide)
  have hpresent := hcompletes.sample_eq ⟨printer, fun _ => none, fun _ => "digest"⟩ none
  rw [hwritten] at hpresent
  cases hpresent

end Sampling

end CodexMonitor.Collector
