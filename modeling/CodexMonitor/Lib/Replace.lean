import CodexMonitor.Lib.Faults

/-!
# Replacing a file

New content goes to a temporary file that is synced, renamed over the file and followed by a sync
of the directory; the temporary file is removed whatever happens.  Up to the rename the file keeps
its content, from the rename on it has the new one.
-/

namespace Faults

namespace Replace

/-- The operations of a replacement. -/
inductive Step
  | create
  | write
  | sync
  | rename
  | syncDir
  | cleanup
deriving DecidableEq, Repr

/-- A file that is replaced: the places of its operations, its temporary file, and the state in
which it has its new content. -/
structure Target (κ σ β : Type) where
  place : Step → κ
  temporary : σ → Option β
  setTemporary : Option β → σ → σ
  put : β → σ → σ

variable {κ σ ε β : Type} (target : Target κ σ β) (e : ε) (empty bytes : β)

/-- The operations that must succeed. -/
def replaceFile : Prog κ σ ε Unit := do
  Prog.write (target.place .create) e (target.setTemporary (some empty))
  Prog.write (target.place .write) e (target.setTemporary (some bytes))
  Prog.probe (target.place .sync) e
  Prog.write (target.place .rename) e fun s => target.setTemporary none (target.put bytes s)
  Prog.probe (target.place .syncDir) e

/-- Remove the temporary file, if it is still there. -/
def cleanTemporary : Prog κ σ ε Unit := do
  let left ← Prog.read fun s => (target.temporary s).isSome
  if left then Prog.write (target.place .cleanup) e (target.setTemporary none)
  else pure ()

/-- Replace the file, and clean up whatever comes of it. -/
def replace : Prog κ σ ε Unit :=
  Prog.andThen (replaceFile target e empty bytes) (cleanTemporary target e)

/-! ## What a replacement leaves -/

/-- The operations after which the file has its new content. -/
def replacing : List Step := [.create, .write, .sync, .rename]

/-- What holds of a state whatever its temporary file is. -/
def Steady (I : σ → Prop) : Prop := ∀ s x, I s → I (target.setTemporary x s)

section rules

open Prog

variable {target : Target κ σ β} {e : ε} {empty bytes : β} {I J E : σ → Prop}

theorem replaceFile_spec (hI : Steady target I) (hput : ∀ s, I s → J (target.put bytes s))
    (hJ : Steady target J) :
    Spec I (replaceFile target e empty bytes) (fun _ => J) (fun s => I s ∨ J s) := by
  have hwrite : ∀ step x,
      Spec I (write (target.place step) e (target.setTemporary x)) (fun _ => I)
        (fun s => I s ∨ J s) :=
    fun step x => (Keeps.write fun s hs => hI s x hs).mono (fun _ h => h) (fun _ _ h => h)
      fun _ h => Or.inl h
  have hrename : Spec I (write (target.place .rename) e fun s =>
      target.setTemporary none (target.put bytes s)) (fun _ => J) (fun s => I s ∨ J s) := by
    intro plan s hs
    rw [run_write]
    cases plan (target.place .rename) with
    | none => exact hJ _ _ (hput s hs)
    | error => exact Or.inl hs
    | stop => exact Or.inl hs
  unfold replaceFile
  refine (hwrite .create (some empty)).bind fun _ => (hwrite .write (some bytes)).bind fun _ => ?_
  refine ((Keeps.probe (target.place .sync) e).mono (fun _ h => h) (fun _ _ h => h)
    fun _ h => Or.inl h).bind fun _ => hrename.bind fun _ => ?_
  exact (Keeps.probe (target.place .syncDir) e).mono (fun _ h => h) (fun _ _ h => h)
    fun _ h => Or.inr h

theorem cleanTemporary_keeps (hI : Steady target I) : Keeps I (cleanTemporary target e) := by
  unfold cleanTemporary
  refine (Keeps.read _).bind fun left => ?_
  split
  · exact Keeps.write fun s hs => hI s none hs
  · exact Keeps.pure _

/-- A replacement that is done takes `I` to `J`; any other leaves one of the two. -/
theorem replace_spec (hI : Steady target I) (hput : ∀ s, I s → J (target.put bytes s))
    (hJ : Steady target J) :
    Spec I (replace target e empty bytes) (fun _ => J) (fun s => I s ∨ J s) := by
  have heither : Steady target fun s => I s ∨ J s :=
    fun s x h => h.imp (hI s x) (hJ s x)
  intro plan s hs
  have hspec : Spec I (replaceFile target e empty bytes) _ _ := replaceFile_spec hI hput hJ
  have hfile := hspec plan s hs
  unfold replace
  rw [run_andThen]
  rcases hrun : (replaceFile target e empty bytes).run plan s with ⟨u | err | _, t⟩ <;>
    rw [hrun] at hfile
  · have hclean := (cleanTemporary_keeps (e := e) hJ).state plan hfile
    rcases hafter : (cleanTemporary target e).run plan t with ⟨_ | _ | _, v⟩ <;>
      rw [hafter] at hclean
    · simpa only [hafter] using hclean
    · simpa only [hafter] using hclean
    · simpa only [hafter] using Or.inr hclean
  · have hclean := (cleanTemporary_keeps (e := e) heither).state plan hfile
    rcases hafter : (cleanTemporary target e).run plan t with ⟨_ | _ | _, v⟩ <;>
      rw [hafter] at hclean <;> simpa only [hafter] using hclean
  · exact hfile

/-- The operations that must succeed. -/
def writing : List Step := [.create, .write, .sync, .rename, .syncDir]

theorem replace_done {plan : κ → Fault} {s t : σ} {u : Unit}
    (h : (replace target e empty bytes).run plan s = (.done u, t)) :
    ∀ step ∈ writing, plan (target.place step) = .none := by
  obtain ⟨v, hfile, -⟩ := andThen_done h
  unfold replaceFile at hfile
  simp only [bind_done, probe, write_done] at hfile
  obtain ⟨_, _, ⟨hcreate, -⟩, _, _, ⟨hwrite, -⟩, _, _, ⟨hsync, -⟩, _, _, ⟨hrename, -⟩, hdir, -⟩ :=
    hfile
  simp only [writing, List.forall_mem_cons]
  exact ⟨hcreate, hwrite, hsync, hrename, hdir, List.forall_mem_nil _⟩

theorem replace_done_temporary {plan : κ → Fault} {s t : σ} {u : Unit}
    (hclean : ∀ s, target.temporary (target.setTemporary none s) = none)
    (h : (replace target e empty bytes).run plan s = (.done u, t)) : target.temporary t = none := by
  obtain ⟨v, hfile, rfl⟩ := andThen_done h
  have hv : target.temporary v = none := by
    unfold replaceFile at hfile
    simp only [bind_done, probe, write_done] at hfile
    obtain ⟨_, _, ⟨-, -⟩, _, _, ⟨-, -⟩, _, _, ⟨-, -⟩, _, _, ⟨-, rfl⟩, -, rfl⟩ := hfile
    exact hclean _
  have hgone : (cleanTemporary target e).run plan v = (.done (), v) := by
    unfold cleanTemporary
    simp only [bind_done, read_done]
    exact ⟨_, v, ⟨rfl, rfl⟩, by simp [hv]⟩
  rw [hgone]
  exact hv

/-- A replacement whose temporary file is not created changes nothing. -/
theorem replace_blocked {plan : κ → Fault} (hplan : plan (target.place .create) ≠ .none) :
    Spec (fun s => I s ∧ target.temporary s = none) ((replace target e empty bytes).under plan)
      (fun _ _ => False) (fun s => I s ∧ target.temporary s = none) := by
  intro other s hs
  have hunder : ((replace target e empty bytes).under plan).run other s =
      (replace target e empty bytes).run plan s := rfl
  have hgone : (cleanTemporary target e).run plan s = (.done (), s) := by
    unfold cleanTemporary
    simp only [bind_done, read_done]
    exact ⟨_, s, ⟨rfl, rfl⟩, by simp [hs.2]⟩
  rw [hunder]
  unfold replace replaceFile
  simp only [run_andThen, run_bind, run_write]
  cases hfault : plan (target.place .create) with
  | none => exact absurd hfault hplan
  | error => simpa only [hgone] using hs
  | stop => exact hs

/-- When one of the operations up to the rename does not run, the file keeps its content and the
replacement is not done. -/
theorem replace_untouched {plan : κ → Fault}
    (hplan : ¬ ∀ step ∈ replacing, plan (target.place step) = .none) (hI : Steady target I) :
    Spec I ((replace target e empty bytes).under plan) (fun _ _ => False) I := by
  have hfile : ∀ s, I s → I ((replaceFile target e empty bytes).run plan s).2 ∧
      ∀ u, ((replaceFile target e empty bytes).run plan s).1 ≠ .done u := by
    intro s hs
    have hsome := hI s (some empty) hs
    have hfull := hI _ (some bytes) hsome
    unfold replaceFile
    cases hcreate : plan (target.place .create) with
    | error | stop => simp [run_bind, run_write, hcreate, hs]
    | none =>
        cases hwrite : plan (target.place .write) with
        | error | stop => simp [run_bind, run_write, hcreate, hwrite, hsome]
        | none =>
            cases hsync : plan (target.place .sync) with
            | error | stop => simp [run_bind, run_write, probe, hcreate, hwrite, hsync, hfull]
            | none =>
                cases hrename : plan (target.place .rename) with
                | error | stop =>
                    simp [run_bind, run_write, probe, hcreate, hwrite, hsync, hrename, hfull]
                | none =>
                    refine absurd ?_ hplan
                    simp [replacing, hcreate, hwrite, hsync, hrename]
  intro other s hs
  obtain ⟨hkept, hundone⟩ := hfile s hs
  have hunder : ((replace target e empty bytes).under plan).run other s =
      (replace target e empty bytes).run plan s := rfl
  rw [hunder]
  unfold replace
  rw [run_andThen]
  rcases hrun : (replaceFile target e empty bytes).run plan s with ⟨u | err | _, t⟩ <;>
    rw [hrun] at hkept hundone
  · exact absurd rfl (hundone u)
  · have hclean := (cleanTemporary_keeps (e := e) hI).state plan hkept
    rcases hafter : (cleanTemporary target e).run plan t with ⟨_ | _ | _, v⟩ <;>
      rw [hafter] at hclean <;> simpa only [hafter] using hclean
  · exact hkept

/-- When the operations up to the rename run, the file has its new content, however the
replacement ends. -/
theorem replace_replaced {plan : κ → Fault}
    (hplan : ∀ step ∈ replacing, plan (target.place step) = .none) (hI : Steady target I)
    (hput : ∀ s, I s → J (target.put bytes s)) (hJ : Steady target J) :
    Spec I ((replace target e empty bytes).under plan) (fun _ => J) J := by
  have hfile : ∀ s, I s → J ((replaceFile target e empty bytes).run plan s).2 := by
    intro s hs
    have hafter : J (target.setTemporary none (target.put bytes (target.setTemporary (some bytes)
        (target.setTemporary (some empty) s)))) :=
      hJ _ _ (hput _ (hI _ _ (hI _ _ hs)))
    unfold replaceFile
    simp only [run_bind, run_write, probe, hplan .create (by decide), hplan .write (by decide),
      hplan .sync (by decide), hplan .rename (by decide)]
    cases plan (target.place .syncDir) <;> exact hafter
  refine Spec.of_final fun _ s hs => ?_
  have hreplaced := hfile s hs
  show J ((replace target e empty bytes).run plan s).2
  unfold replace
  rw [run_andThen]
  rcases hrun : (replaceFile target e empty bytes).run plan s with ⟨u | err | _, t⟩ <;>
    rw [hrun] at hreplaced
  · have hclean := (cleanTemporary_keeps (e := e) hJ).state plan hreplaced
    rcases hafter : (cleanTemporary target e).run plan t with ⟨_ | _ | _, v⟩ <;>
      rw [hafter] at hclean <;> simpa only [hafter] using hclean
  · have hclean := (cleanTemporary_keeps (e := e) hJ).state plan hreplaced
    rcases hafter : (cleanTemporary target e).run plan t with ⟨_ | _ | _, v⟩ <;>
      rw [hafter] at hclean <;> simpa only [hafter] using hclean
  · exact hreplaced

/-- Once the file has its new content the replacement fails only at the sync of the directory. -/
theorem replace_not_failed {plan : κ → Fault}
    (hplan : ∀ step ∈ replacing, plan (target.place step) = .none)
    (hdir : plan (target.place .syncDir) ≠ .error) {s t : σ} {err : ε} :
    (replace target e empty bytes).run plan s ≠ (.failed err, t) := by
  unfold replace replaceFile
  simp only [run_andThen, run_bind, run_write, probe, hplan .create (by decide),
    hplan .write (by decide), hplan .sync (by decide), hplan .rename (by decide)]
  cases hfault : plan (target.place .syncDir) with
  | none =>
      dsimp only
      split <;> simp
  | error => exact absurd hfault hdir
  | stop => simp

/-- What neither the temporary file nor the new content touches stays as it is. -/
theorem replace_keeps (hI : Steady target I) (hput : ∀ s, I s → I (target.put bytes s)) :
    Keeps I (replace target e empty bytes) :=
  (replace_spec hI hput hI).mono (fun _ h => h) (fun _ _ h => h) fun _ h => h.elim id id

/-- A replacement that nothing disturbs is done. -/
theorem replace_total {plan : κ → Fault}
    (hplan : ∀ step ∈ writing, plan (target.place step) = .none)
    (hI : Steady target I) (hput : ∀ s, I s → J (target.put bytes s)) (hJ : Steady target J)
    (hclean : ∀ s, target.temporary (target.setTemporary none s) = none) :
    Total plan I (replace target e empty bytes) fun _ => J := by
  intro s hs
  have hafter : J (target.setTemporary none (target.put bytes (target.setTemporary (some bytes)
      (target.setTemporary (some empty) s)))) :=
    hJ _ _ (hput _ (hI _ _ (hI _ _ hs)))
  refine ⟨(), _, ?_, hafter⟩
  unfold replace cleanTemporary replaceFile
  simp only [run_andThen, run_bind, run_write, probe, Prog.read, hplan .create (by decide),
    hplan .write (by decide), hplan .sync (by decide), hplan .rename (by decide),
    hplan .syncDir (by decide), hclean, Option.isSome_none, Bool.false_eq_true, if_false]
  rfl

/-- The first operation that does not run fails and mends, and the process is not stopped where
the temporary file is removed after it. -/
def Safe (target : Target κ σ β) (plan : κ → Fault) (M : Prop) (steps : List Step) : Prop :=
  Mended plan (fun p => M ∧ (p ∈ [Step.write, .sync, .rename].map target.place →
    plan (target.place .cleanup) ≠ .stop)) (steps.map target.place)

section safe

variable {plan : κ → Fault} {M : Prop}

/-- How the operations that must succeed end when they are safe: only a failure before the rename
leaves the temporary file. -/
theorem replaceFile_guarded (hplan : Safe target plan M writing) (hI : Steady target I)
    (hput : ∀ s, I s → J (target.put bytes s)) (hJ : Steady target J)
    (hclean : ∀ s, target.temporary (target.setTemporary none s) = none) :
    Guarded plan (fun s => I s ∧ target.temporary s = none) (replaceFile target e empty bytes)
      (fun _ s => J s ∧ target.temporary s = none)
      (fun s => ((I s ∨ J s) ∧ M) ∧
        (target.temporary s = none ∨ plan (target.place .cleanup) ≠ .stop)) := by
  unfold replaceFile
  refine (Guarded.write (Q := I) hplan (fun s hs => hI s _ hs.1)
    fun s hs hp => ⟨⟨.inl hs.1, hp.1⟩, .inl hs.2⟩).bind fun _ => Guarded.given fun ⟨_, hwrite⟩ => ?_
  refine (Guarded.write (Q := I) hwrite (fun s hs => hI s _ hs)
    fun s hs hp => ⟨⟨.inl hs, hp.1⟩, .inr (hp.2 (by simp))⟩).bind fun _ =>
      Guarded.given fun ⟨_, hsync⟩ => ?_
  refine (Guarded.write (Q := I) hsync (fun s hs => hs)
    fun s hs hp => ⟨⟨.inl hs, hp.1⟩, .inr (hp.2 (by simp))⟩).bind fun _ =>
      Guarded.given fun ⟨_, hrename⟩ => ?_
  refine (Guarded.write (Q := fun s => J s ∧ target.temporary s = none) hrename
    (fun s hs => ⟨hJ _ none (hput s hs), hclean _⟩)
    fun s hs hp => ⟨⟨.inl hs, hp.1⟩, .inr (hp.2 (by simp))⟩).bind fun _ =>
      Guarded.given fun ⟨_, hdir⟩ => ?_
  exact (Guarded.write hdir (fun s hs => hs)
    fun s hs hp => ⟨⟨.inr hs.1, hp.1⟩, .inl hs.2⟩).mono (fun _ hs => hs) (fun _ _ hs => hs.1)
      fun _ hs => hs

/-- A safe replacement does not stop.  When it fails its temporary file is gone, or could not be
removed. -/
theorem replace_guarded (hplan : Safe target plan M writing) (hI : Steady target I)
    (hput : ∀ s, I s → J (target.put bytes s)) (hJ : Steady target J)
    (hclean : ∀ s, target.temporary (target.setTemporary none s) = none) :
    Guarded plan (fun s => I s ∧ target.temporary s = none) (replace target e empty bytes)
      (fun _ s => J s ∧ target.temporary s = none)
      (fun s => ((I s ∨ J s) ∧ M) ∧
        (target.temporary s = none ∨ plan (target.place .cleanup) = .error)) := by
  have hgone : ∀ s, target.temporary s = none →
      (cleanTemporary target e).run plan s = (.done (), s) := by
    intro s hs
    unfold cleanTemporary
    simp only [bind_done, read_done]
    refine ⟨_, s, ⟨rfl, rfl⟩, ?_⟩
    simp [hs]
  have heither : Steady target fun s => I s ∨ J s := fun s x h => h.imp (hI s x) (hJ s x)
  intro s hs
  have hspec : Guarded plan _ (replaceFile target e empty bytes) _ _ :=
    replaceFile_guarded hplan hI hput hJ hclean
  have hfile := hspec s hs
  unfold replace
  rw [run_andThen]
  rcases hrun : (replaceFile target e empty bytes).run plan s with ⟨u | err | _, t⟩ <;>
    rw [hrun] at hfile
  · simpa only [hgone t hfile.2] using hfile
  · obtain ⟨⟨hstate, hM⟩, hleft⟩ := hfile
    by_cases htemporary : target.temporary t = none
    · simpa only [hgone t htemporary] using ⟨⟨hstate, hM⟩, Or.inl htemporary⟩
    · have hcleanup := hleft.resolve_left htemporary
      have hsome : (target.temporary t).isSome = true := Option.isSome_iff_ne_none.mpr htemporary
      unfold cleanTemporary
      simp only [run_bind, Prog.read, hsome, if_true, run_write]
      cases hfault : plan (target.place .cleanup) with
      | none => exact ⟨⟨heither t none hstate, hM⟩, .inl (hclean t)⟩
      | error => exact ⟨⟨hstate, hM⟩, .inr rfl⟩
      | stop => exact absurd hfault hcleanup
  · exact hfile

end safe

end rules

end Replace

end Faults
