import CodexMonitor.Collector.Coherent

/-!
# Native registrations are counted

The native watcher is asked for directories, which watches and aliases share.
`registered` counts, for every directory, how many hold it; the native watcher should
watch exactly those that someone holds.

A reload releases the directory of a watch whose activity changed, also when the
watch was not active before and so held nothing.  Resuming a watch therefore takes a
registration away from another watch of the directory.  The count is right in the runs
in which a watch is resumed only while nobody has registered its directory.
-/

namespace CodexMonitor.Collector

/-! ## Counts -/

/-- `registered` counts `f` for every directory, and the native watcher watches those that are
counted. -/
structure Loop.Tallies (l : Loop) (f : Path → Nat) : Prop where
  count : ∀ p, (l.registered.get p).getD 0 = f p
  positive : ∀ p, l.registered.get p ≠ some 0
  native_iff : ∀ p, p ∈ l.native ↔ 0 < f p

section tallies

variable {l l' : Loop} {f g : Path → Nat} {p : Path}

theorem Loop.Tallies.congr (h : l.Tallies f) (hregistered : l'.registered = l.registered)
    (hnative : l'.native = l.native) (hf : ∀ p, g p = f p) : l'.Tallies g := by
  refine ⟨fun p => ?_, fun p => ?_, fun p => ?_⟩
  · rw [hregistered, hf]
    exact h.count p
  · rw [hregistered]
    exact h.positive p
  · rw [hnative, hf]
    exact h.native_iff p

theorem Loop.Tallies.get_eq_none (h : l.Tallies f) : l.registered.get p = none ↔ f p = 0 := by
  have hcount := h.count p
  have hpositive := h.positive p
  cases hget : l.registered.get p with
  | none =>
      rw [hget] at hcount
      exact ⟨fun _ => hcount.symm, fun _ => rfl⟩
  | some n =>
      rw [hget] at hcount hpositive
      have hn : n = f p := hcount
      refine ⟨nofun, fun hzero => absurd ?_ hpositive⟩
      rw [hn, hzero]

theorem Loop.Tallies.get_eq_some (h : l.Tallies f) {n : Nat} (hget : l.registered.get p = some n) :
    n = f p ∧ 0 < n := by
  have hcount := h.count p
  have hpositive := h.positive p
  rw [hget] at hcount hpositive
  refine ⟨hcount, Nat.pos_of_ne_zero fun hzero => hpositive ?_⟩
  rw [hzero]

/-- A holder of a directory lets go of it. -/
theorem Loop.Tallies.release (h : l.Tallies f) (hp : 0 < f p)
    (hg : ∀ q, f q = g q + if q = p then 1 else 0) : (l.release .works p).Tallies g := by
  have hother : ∀ q, q ≠ p → g q = f q := by
    intro q hq
    rw [hg q, if_neg hq, Nat.add_zero]
  have hself : f p = g p + 1 := by
    rw [hg p, if_pos rfl]
  obtain ⟨n, hn⟩ : ∃ n, l.registered.get p = some n := by
    refine Option.ne_none_iff_exists'.mp fun hnone => ?_
    rw [h.get_eq_none] at hnone
    omega
  obtain ⟨hnf, _⟩ := h.get_eq_some hn
  unfold Loop.release
  rw [hn]
  simp only
  split
  · rename_i hzero
    refine ⟨fun q => ?_, fun q => ?_, fun q => ?_⟩
    · rw [Dict.get_erase]
      split
      · rename_i heq
        subst heq
        show 0 = g q
        omega
      · rename_i hne
        rw [hother q hne]
        exact h.count q
    · rw [Dict.get_erase]
      split
      · exact (Option.some_ne_none 0).symm
      · exact h.positive q
    · show q ∈ l.native.erase p ↔ 0 < g q
      rw [Finset.mem_erase, h.native_iff q]
      by_cases heq : q = p
      · subst heq
        simp only [ne_eq, not_true_eq_false, false_and, false_iff]
        omega
      · rw [hother q heq]
        simp [heq]
  · rename_i hnonzero
    refine ⟨fun q => ?_, fun q => ?_, fun q => ?_⟩
    · rw [Dict.get_set]
      split
      · rename_i heq
        subst heq
        show n - 1 = g q
        omega
      · rename_i hne
        rw [hother q hne]
        exact h.count q
    · rw [Dict.get_set]
      split
      · intro hzero
        exact hnonzero (Option.some.inj hzero)
      · exact h.positive q
    · show q ∈ l.native ↔ 0 < g q
      rw [h.native_iff q]
      by_cases heq : q = p
      · subst heq
        omega
      · rw [hother q heq]

/-- A directory nobody holds is not released. -/
theorem Loop.Tallies.release_none (h : l.Tallies f) (hp : f p = 0) (os : Native) :
    l.release os p = l := by
  unfold Loop.release
  rw [h.get_eq_none.mpr hp]

/-- Write a directory's count and have it watched. -/
theorem Loop.Tallies.set (h : l.Tallies f) (hregistered : l'.registered = l.registered.set p (f p + 1))
    (hnative : ∀ q, q ∈ l'.native ↔ q = p ∨ q ∈ l.native)
    (hg : ∀ q, g q = f q + if q = p then 1 else 0) : l'.Tallies g := by
  have hother : ∀ q, q ≠ p → g q = f q := by
    intro q hq
    rw [hg q, if_neg hq, Nat.add_zero]
  have hself : g p = f p + 1 := by
    rw [hg p, if_pos rfl]
  refine ⟨fun q => ?_, fun q => ?_, fun q => ?_⟩
  · rw [hregistered, Dict.get_set]
    split
    · rename_i heq
      subst heq
      exact hself.symm
    · rename_i hne
      rw [hother q hne]
      exact h.count q
  · rw [hregistered, Dict.get_set]
    split
    · intro hzero
      exact absurd (Option.some.inj hzero) (Nat.succ_ne_zero _)
    · exact h.positive q
  · rw [hnative q, h.native_iff q]
    by_cases heq : q = p
    · subst heq
      simp only [true_or, true_iff]
      omega
    · rw [hother q heq]
      simp [heq]

/-- Another holder of a directory. -/
theorem Loop.Tallies.register (h : l.Tallies f) (hg : ∀ q, g q = f q + if q = p then 1 else 0) :
    (l.register .works p).Tallies g := by
  unfold Loop.register
  split
  · rename_i hnone
    have hzero : f p = 0 := h.get_eq_none.mp hnone.1
    refine h.set (p := p) ?_ (fun q => Finset.mem_insert) hg
    rw [hzero]
  · rename_i hsome
    cases hget : l.registered.get p with
    | none => exact absurd ⟨hget, rfl⟩ hsome
    | some n =>
        obtain ⟨hn, hpos⟩ := h.get_eq_some hget
        refine h.set (p := p) ?_ (fun q => ?_) hg
        · rw [hn]
        · show q ∈ l.native ↔ _
          constructor
          · exact Or.inr
          · rintro (rfl | hq)
            · exact (h.native_iff q).mpr (by omega)
            · exact hq

end tallies

/-! ## Who holds a directory -/

/-- The runtime's watch is active and in the directory. -/
def Runtime.Holds (r : Runtime) (p : Path) : Prop :=
  r.watch.any (fun w => w.active && w.parent = p) = true

instance (r : Runtime) (p : Path) : Decidable (r.Holds p) := inferInstanceAs (Decidable (_ = true))

/-- The active watches of a directory and the aliases that lead to it. -/
def Loop.holders (l : Loop) (p : Path) : Nat :=
  (l.runtimes.count fun _ r => r.Holds p) + l.aliases.count fun _ q => q = p

/-- Every directory is counted as often as it is held, and watched when it is held. -/
def Loop.Registered (l : Loop) : Prop := l.Tallies l.holders

theorem Runtime.holds_iff {r : Runtime} {w : Watch} (hw : r.watch = some w) {p : Path} :
    r.Holds p ↔ w.active = true ∧ w.parent = p := by
  unfold Runtime.Holds
  rw [hw]
  simp

section holders

variable {l l' : Loop} {id : String} {r : Runtime} {p : Path}

/-- The loop without the runtime of a watch. -/
def Loop.without (l : Loop) (id : String) : Loop := { l with runtimes := l.runtimes.erase id }

/-- The loop with a runtime of a watch in the place of the one it has. -/
def Loop.put (l : Loop) (id : String) (r : Runtime) : Loop :=
  { l with runtimes := l.runtimes.set id r }

/-- The holders once a runtime is replaced. -/
theorem holders_put (l : Loop) (id : String) (r : Runtime) (p : Path) :
    (l.put id r).holders p = (l.without id).holders p + if r.Holds p then 1 else 0 := by
  have hcount := Dict.count_set (d := l.runtimes) (k := id) (a := r) (p := fun _ r => r.Holds p)
  unfold Loop.holders Loop.put Loop.without
  simp only at hcount ⊢
  omega

/-- The holders before a runtime is dropped. -/
theorem holders_without (hr : l.runtimes.get id = some r) (p : Path) :
    l.holders p = (l.without id).holders p + if r.Holds p then 1 else 0 := by
  have hcount := Dict.count_erase_some (p := fun _ r => r.Holds p) hr
  unfold Loop.holders Loop.without
  simp only at hcount ⊢
  omega

theorem holders_without_none (hr : l.runtimes.get id = none) (p : Path) :
    (l.without id).holders p = l.holders p := by
  unfold Loop.holders Loop.without
  simp only [Dict.count_erase_none hr]

/-- A runtime that is replaced by one of the same watch holds the same. -/
theorem holders_put_same {r' : Runtime} (hr : l.runtimes.get id = some r)
    (hsame : r'.Holds p ↔ r.Holds p) : (l.put id r').holders p = l.holders p := by
  rw [holders_put, holders_without hr]
  simp only [hsame]

/-- An alias that is dropped holds its directory no longer. -/
theorem Loop.Registered.dropAlias (h : l.Registered) (id : String) :
    (l.dropAlias .works id).Registered := by
  unfold Loop.dropAlias
  cases htarget : l.aliases.get id with
  | none => exact h
  | some target =>
      have hcount := fun q => Dict.count_erase_some (p := fun _ r => r = q) htarget
      have hheld : 0 < l.holders target := by
        unfold Loop.holders
        rw [hcount target, if_pos rfl]
        omega
      have hg : ∀ q, l.holders q =
          Loop.holders { l with aliases := l.aliases.erase id } q + if q = target then 1 else 0 := by
        intro q
        unfold Loop.holders
        simp only [hcount q, eq_comm (a := target)]
        omega
      have hreleased := Loop.Tallies.release (l := { l with aliases := l.aliases.erase id })
        (Loop.Tallies.congr h rfl rfl fun _ => rfl) hheld hg
      refine Loop.Tallies.congr hreleased rfl rfl fun q => ?_
      simp only
      rw [release_frame]
      rfl

/-- A new alias holds the directory it leads to. -/
theorem Loop.Registered.addAlias (h : l.Registered) (hfree : l.aliases.get id = none) (p : Path) :
    (l.addAlias .works id p).1.Registered := by
  have hg : ∀ q, Loop.holders { l with aliases := l.aliases.set id p } q =
      l.holders q + if q = p then 1 else 0 := by
    intro q
    unfold Loop.holders
    simp only [Dict.count_set, Dict.count_erase_none hfree, eq_comm (a := p)]
    omega
  unfold Loop.addAlias
  cases hget : l.registered.get p with
  | none =>
      have hzero : l.holders p = 0 := (Loop.Tallies.get_eq_none h).mp hget
      refine Loop.Tallies.set (p := p) h ?_ (fun q => Finset.mem_insert) hg
      rw [hzero]
      rfl
  | some n =>
      obtain ⟨hn, hpos⟩ := Loop.Tallies.get_eq_some h hget
      refine Loop.Tallies.set (p := p) h ?_ (fun q => ?_) hg
      · rw [hn]
      · show q ∈ l.native ↔ _
        constructor
        · exact Or.inr
        · rintro (rfl | hq)
          · exact (h.native_iff q).mpr (by omega)
          · exact hq

/-- What an alias leads to once another one is dropped. -/
theorem dropAlias_get (l : Loop) (os : Native) (id id' : String) :
    (l.dropAlias os id).aliases.get id' = if id' = id then none else l.aliases.get id' := by
  unfold Loop.dropAlias
  cases htarget : l.aliases.get id with
  | none =>
      simp only
      split
      · rename_i heq
        rw [heq, htarget]
      · rfl
  | some target =>
      simp only
      rw [release_frame]
      exact Dict.get_erase

/-- Dropping an alias does not look at the runtimes. -/
theorem dropAlias_without (l : Loop) (os : Native) (id : String) :
    (l.without id).dropAlias os id = (l.dropAlias os id).without id := by
  unfold Loop.dropAlias
  cases htarget : l.aliases.get id with
  | none =>
      have htarget' : (l.without id).aliases.get id = none := htarget
      rw [htarget']
  | some target =>
      have htarget' : (l.without id).aliases.get id = some target := htarget
      rw [htarget']
      simp only [Loop.release, Loop.without]
      cases l.registered.get target with
      | none => rfl
      | some count =>
          simp only
          split <;> rfl

/-- Following a path moves an alias and the directory it holds. -/
theorem Loop.Registered.follow (h : l.Registered) (id : String) (finished : Runtime) :
    (l.follow .works id finished).1.Registered := by
  unfold Loop.follow
  cases finished.aliasParent with
  | none => exact h
  | some parent =>
      simp only
      split
      · exact h
      · refine (h.dropAlias id).addAlias ?_ parent
        rw [dropAlias_get, if_pos rfl]

end holders

/-! ## Joins -/

section join

variable {l l' : Loop} {listed : Watch → Prop}

/-- A join keeps the count: the runtime that is merged is of the version that is loaded. -/
theorem Loop.Registered.join (h : l.Registered) (hl : l.Coherent listed) {task : Nat}
    (hjoin : l.join .works task = some l') : l'.Registered := by
  obtain ⟨job, hjob, _, hmerge | ⟨_, rfl⟩⟩ := join_cases hjoin
  · obtain ⟨current, hcurrent, hepoch, rfl⟩ := hmerge
    obtain ⟨w, hw, _, hid, _⟩ := hl.working task job hjob
    obtain ⟨v, hv, _, _⟩ := hl.known job.id current hcurrent
    have hprecedes := hl.behind task job current w v hjob hcurrent hw hv
    have hsame : v = w := by
      refine hprecedes.eq_of_epoch ?_
      unfold Runtime.epoch at hepoch
      rw [hv, hw] at hepoch
      exact Option.some.inj hepoch
    have hretired : (l.retire task job).Registered := Loop.Tallies.congr h rfl rfl fun _ => rfl
    have hfollowed := hretired.follow job.id job.runtime
    refine Loop.Tallies.congr hfollowed rfl rfl fun p => ?_
    refine holders_put_same (l := ((l.retire task job).follow .works job.id job.runtime).1)
      (r := current) ?_ ?_
    · rw [follow_frame]
      exact hcurrent
    · refine (Runtime.holds_iff (w := w) (by exact hw)).trans ?_
      rw [Runtime.holds_iff hv, hsame]
  · exact Loop.Tallies.congr h rfl rfl fun _ => rfl

end join

/-! ## Reloads -/

section reload

variable {l l' : Loop} {listed : Watch → Prop} {id : String} {r : Runtime} {w : Watch}

theorem Runtime.not_holds (hactive : r.active = false) (p : Path) : ¬ r.Holds p := by
  intro hholds
  unfold Runtime.active at hactive
  unfold Runtime.Holds at hholds
  cases hwatch : r.watch with
  | none =>
      rw [hwatch] at hholds
      cases hholds
  | some v =>
      rw [hwatch] at hactive hholds
      have hactive : v.active = false := hactive
      have hholds : (v.active && decide (v.parent = p)) = true := hholds
      rw [hactive] at hholds
      cases hholds

/-- A watch that is not loaded, or was loaded while it was paused, holds nothing. -/
theorem Loop.Registered.without (h : l.Registered)
    (hidle : ∀ r, l.runtimes.get id = some r → r.active = false) : (l.without id).Registered := by
  refine Loop.Tallies.congr h rfl rfl fun p => ?_
  cases hr : l.runtimes.get id with
  | none => exact holders_without_none hr p
  | some r => rw [holders_without hr, if_neg (Runtime.not_holds (hidle r hr) p), Nat.add_zero]

/-- A watch that holds its directory lets go of it. -/
theorem Loop.Registered.letGo (h : l.Registered) (hr : l.runtimes.get id = some r)
    (hw : r.watch = some w) (hactive : w.active = true) :
    ((l.release .works w.parent).without id).Registered := by
  have hheld : ∀ p, r.Holds p ↔ p = w.parent := by
    intro p
    rw [Runtime.holds_iff hw]
    exact ⟨fun h => h.2.symm, fun h => ⟨hactive, h.symm⟩⟩
  have hreleased := Loop.Tallies.release (p := w.parent) (g := (l.without id).holders) h ?_ ?_
  · refine Loop.Tallies.congr hreleased rfl rfl fun p => ?_
    rw [release_frame]
    rfl
  · rw [holders_without hr, if_pos ((hheld _).mpr rfl)]
    omega
  · intro p
    rw [holders_without hr]
    simp only [hheld]

/-- A paused watch is loaded. -/
theorem Loop.Registered.putIdle (h : (l.without id).Registered) (hactive : r.active = false) :
    (l.put id r).Registered := by
  refine Loop.Tallies.congr h rfl rfl fun p => ?_
  rw [holders_put, if_neg (Runtime.not_holds hactive p), Nat.add_zero]

/-- An active watch is loaded, and its directory is registered. -/
theorem Loop.Registered.putActive (h : (l.without id).Registered) (hw : r.watch = some w)
    (hactive : w.active = true) : ((l.register .works w.parent).put id r).Registered := by
  have hheld : ∀ p, r.Holds p ↔ p = w.parent := by
    intro p
    rw [Runtime.holds_iff hw]
    exact ⟨fun h => h.2.symm, fun h => ⟨hactive, h.symm⟩⟩
  have hregistered := Loop.Tallies.register (l := l) (p := w.parent)
    (f := (l.without id).holders) (g := (l.put id r).holders)
    (Loop.Tallies.congr h rfl rfl fun _ => rfl) ?_
  · refine Loop.Tallies.congr hregistered rfl rfl fun p => ?_
    rw [register_frame]
    rfl
  · intro p
    rw [holders_put]
    simp only [hheld]

/-- `w` is active and was paused when it was loaded before. -/
def Loop.Resumes (l : Loop) (w : Watch) : Prop :=
  w.active = true ∧ (l.runtimes.get w.id).any (fun r => !r.active) = true

instance (l : Loop) (w : Watch) : Decidable (l.Resumes w) := inferInstanceAs (Decidable (_ ∧ _))

/-- A watch that is loaded may become active when nobody holds its directory. -/
theorem Loop.Registered.load (h : l.Registered) (hl : l.Coherent listed)
    (hlatest : ∀ v, listed v → v.id = w.id → v.Precedes w)
    (hvacant : l.Resumes w → l.holders w.parent = 0) (now : Rat) :
    (Loop.load .works now l w).Registered := by
  have hput : (l.reregister .works ((l.runtimes.get w.id).getD .new) w).put w.id
      (((l.runtimes.get w.id).getD .new).load w now) |>.Registered →
        (Loop.load .works now l w).Registered :=
    fun h => Loop.Tallies.congr h rfl rfl fun _ => rfl
  refine hput ?_
  unfold Loop.reregister
  cases hr : l.runtimes.get w.id with
  | none =>
      have hpath : Runtime.new.pathChanged w = true := rfl
      have hidle : (l.without w.id).Registered := h.without fun r hr' => by
        rw [hr] at hr'
        cases hr'
      have hdropped := hidle.dropAlias w.id
      rw [dropAlias_without] at hdropped
      have hold : l.releaseOld .works .new w = l := by
        unfold Loop.releaseOld
        rw [if_pos (Or.inl hpath)]
        rfl
      have halias : l.releaseAlias .works .new w = l.dropAlias .works w.id := by
        unfold Loop.releaseAlias
        rw [if_pos (Or.inr hpath)]
      rw [Option.getD_none, hold, halias]
      unfold Loop.registerNew
      by_cases hactive : w.active = true
      · rw [if_pos ⟨hactive, Or.inl hpath⟩]
        exact hdropped.putActive rfl hactive
      · rw [if_neg fun h => hactive h.1]
        refine hdropped.putIdle ?_
        exact Bool.eq_false_of_not_eq_true hactive
  | some r =>
      obtain ⟨v, hv, hid, hlisted⟩ := hl.known w.id r hr
      have hprecedes := hlatest v hlisted hid
      have hpath : r.pathChanged w = false := by
        unfold Runtime.pathChanged
        rw [hv]
        simp [hprecedes.location_eq]
      have hwas : r.active = v.active := by
        unfold Runtime.active
        rw [hv]
        rfl
      rw [Option.getD_some]
      unfold Loop.releaseOld Loop.releaseAlias Loop.registerNew
      simp only [hpath, hwas, hv, Bool.false_eq_true, false_or, or_false]
      have hidle : v.active = false → (l.without w.id).Registered := by
        intro hinactive
        refine h.without fun r' hr' => ?_
        rw [hr] at hr'
        rw [← Option.some.inj hr', hwas, hinactive]
      cases hold : v.active with
      | false =>
          cases hnew : w.active with
          | false =>
              simp only [ne_eq, not_true_eq_false, if_false, if_true, Bool.false_eq_true, false_and]
              have hdropped := (hidle hold).dropAlias w.id
              rw [dropAlias_without] at hdropped
              exact hdropped.putIdle hnew
          | true =>
              -- the release finds nothing to let go of
              have hnobody : l.holders w.parent = 0 := hvacant ⟨hnew, by rw [hr]; simp [hwas, hold]⟩
              have hkept := Loop.Tallies.release_none h hnobody .works
              rw [hprecedes.parent_eq] at hkept
              simp only [ne_eq, Bool.false_eq_true, not_false_eq_true, if_true, hkept, if_false,
                and_self, reduceCtorEq]
              exact (hidle hold).putActive rfl hnew
      | true =>
          cases hnew : w.active with
          | false =>
              simp only [ne_eq, Bool.false_eq_true, not_false_eq_true, if_true, if_false, false_and,
                reduceCtorEq]
              have hdropped := (h.letGo hr hv hold).dropAlias w.id
              rw [dropAlias_without] at hdropped
              exact hdropped.putIdle hnew
          | true =>
              simp only [ne_eq, not_true_eq_false, if_false, and_false, Bool.true_eq_false]
              refine Loop.Tallies.congr h rfl rfl fun p => ?_
              refine holders_put_same hr ?_
              rw [Runtime.holds_iff (w := w) rfl, Runtime.holds_iff hv, hprecedes.parent_eq, hold, hnew]

/-- A watch that is no longer listed lets go of its directories. -/
theorem Loop.Registered.drop (h : l.Registered) (id : String) : (Loop.drop .works l id).Registered := by
  have hreleased : ((l.releaseGone .works id).without id).Registered := by
    unfold Loop.releaseGone
    split
    · rename_i hnone
      refine h.without fun r hr => ?_
      rw [hr] at hnone
      unfold Runtime.active
      cases hwatch : r.watch with
      | none => rfl
      | some w =>
          have hnone : r.watch.filter Watch.active = none := hnone
          rw [hwatch, Option.filter_some] at hnone
          split at hnone
          · cases hnone
          · rename_i hinactive
            exact Bool.eq_false_of_not_eq_true hinactive
    · rename_i w hsome
      obtain ⟨r, hr, hfilter⟩ := Option.bind_eq_some_iff.mp hsome
      obtain ⟨hw, hactive⟩ := Option.filter_eq_some_iff.mp hfilter
      exact h.letGo hr hw hactive
  have hdropped := hreleased.dropAlias id
  rw [dropAlias_without] at hdropped
  exact hdropped

/-- Nobody holds the directory `p` once the watches `earlier` are loaded. -/
def Loop.Vacant (l : Loop) (earlier : List Watch) (p : Path) : Prop :=
  (∀ v ∈ earlier, v.active = true → v.parent ≠ p) ∧
    (∀ entry ∈ l.runtimes.entries, entry.1 ∉ earlier.map Watch.id → ¬ entry.2.Holds p) ∧
    ∀ entry ∈ l.aliases.entries, entry.2 = p → ∃ v ∈ earlier, v.id = entry.1 ∧ v.active = false

instance (l : Loop) (earlier : List Watch) (p : Path) : Decidable (l.Vacant earlier p) :=
  inferInstanceAs (Decidable (_ ∧ _ ∧ _))

/-- A watch that is resumed is alone in its directory when its turn comes. -/
def Loop.ResumesAlone (l : Loop) (watches : List Watch) : Prop :=
  ∀ k : Fin watches.length,
    l.Resumes (watches.get k) → l.Vacant (watches.take k) (watches.get k).parent

instance (l : Loop) (watches : List Watch) : Decidable (l.ResumesAlone watches) :=
  inferInstanceAs (Decidable (∀ _, _))

/-- What is left of `l` once the watches `earlier` are loaded. -/
structure Loop.Loaded (l : Loop) (earlier : List Watch) (m : Loop) : Prop where
  runtimes : ∀ id r, m.runtimes.get id = some r → (∃ v ∈ earlier, v.id = id ∧ r.watch = some v) ∨
    (id ∉ earlier.map Watch.id ∧ l.runtimes.get id = some r)
  aliases : ∀ id q, m.aliases.get id = some q → l.aliases.get id = some q ∧
    ∀ v ∈ earlier, v.id = id → v.active = true

theorem Loop.Loaded.start (l : Loop) : l.Loaded [] l :=
  ⟨fun _ _ hr => Or.inr ⟨List.not_mem_nil, hr⟩, fun _ _ hq => ⟨hq, fun _ hv => by cases hv⟩⟩

/-- Loading a watch drops its alias or none. -/
theorem load_aliases (m : Loop) (os : Native) (now : Rat) (w : Watch) {id : String} {q : Path}
    (hq : (Loop.load os now m w).aliases.get id = some q) :
    m.aliases.get id = some q ∧ (id = w.id → w.active = true) := by
  have hkept : (Loop.load os now m w).aliases =
      ((m.releaseOld os ((m.runtimes.get w.id).getD .new) w).releaseAlias os
        ((m.runtimes.get w.id).getD .new) w).aliases := by
    simp only [Loop.load, Loop.reregister]
    rw [registerNew_frame]
  rw [hkept] at hq
  unfold Loop.releaseAlias at hq
  split at hq
  · rw [dropAlias_get] at hq
    split at hq
    · cases hq
    · rename_i hne
      rw [releaseOld_frame] at hq
      exact ⟨hq, fun heq => absurd heq hne⟩
  · rename_i hkeeps
    rw [not_or] at hkeeps
    rw [releaseOld_frame] at hq
    exact ⟨hq, fun _ => by simpa using hkeeps.1⟩

section loaded

variable {m : Loop} {earlier : List Watch} {p : Path}

theorem Loop.Loaded.load (h : l.Loaded earlier m) (os : Native) (now : Rat) (w : Watch) :
    l.Loaded (earlier ++ [w]) (Loop.load os now m w) where
  runtimes id r hr := by
    rw [load_runtimes] at hr
    split at hr
    · rename_i heq
      refine Or.inl ⟨w, List.mem_append_right _ List.mem_cons_self, heq.symm, ?_⟩
      rw [← Option.some.inj hr]
      rfl
    · rename_i hne
      rcases h.runtimes id r hr with ⟨v, hv, hid, hwatch⟩ | ⟨hnew, hr⟩
      · exact Or.inl ⟨v, List.mem_append_left _ hv, hid, hwatch⟩
      · refine Or.inr ⟨?_, hr⟩
        rw [List.map_append, List.mem_append, not_or]
        exact ⟨hnew, fun hmem => hne (List.mem_singleton.mp hmem)⟩
  aliases id q hq := by
    obtain ⟨hq, hactive⟩ := load_aliases m os now w hq
    obtain ⟨hl, hearlier⟩ := h.aliases id q hq
    refine ⟨hl, fun v hv hid => ?_⟩
    rcases List.mem_append.mp hv with hv | hv
    · exact hearlier v hv hid
    · obtain rfl := List.mem_singleton.mp hv
      exact hactive hid.symm

/-- Nobody holds a directory that is vacant. -/
theorem Loop.Loaded.holders_eq_zero (h : l.Loaded earlier m) (hvacant : l.Vacant earlier p) :
    m.holders p = 0 := by
  obtain ⟨hwatches, hruntimes, haliases⟩ := hvacant
  have hheld : ¬ 0 < m.runtimes.count fun _ r => r.Holds p := by
    rw [Dict.count_pos]
    rintro ⟨id, r, hr, hholds⟩
    rcases h.runtimes id r hr with ⟨v, hv, _, hwatch⟩ | ⟨hnew, hr⟩
    · obtain ⟨hactive, hparent⟩ := (Runtime.holds_iff hwatch).mp hholds
      exact hwatches v hv hactive hparent
    · exact hruntimes (id, r) (Dict.get_eq_some.mp hr) hnew hholds
  have hled : ¬ 0 < m.aliases.count fun _ q => q = p := by
    rw [Dict.count_pos]
    rintro ⟨id, q, hq, heq⟩
    obtain ⟨hl, hactive⟩ := h.aliases id q hq
    obtain ⟨v, hv, hid, hinactive⟩ := haliases (id, q) (Dict.get_eq_some.mp hl) heq
    rw [hactive v hv hid] at hinactive
    cases hinactive
  unfold Loop.holders
  omega

/-- A watch whose turn has not come was not loaded yet. -/
theorem Loop.Loaded.resumes (h : l.Loaded earlier m) (hnew : w.id ∉ earlier.map Watch.id)
    (hresumes : m.Resumes w) : l.Resumes w := by
  obtain ⟨hactive, hany⟩ := hresumes
  refine ⟨hactive, ?_⟩
  cases hr : m.runtimes.get w.id with
  | none =>
      rw [hr] at hany
      cases hany
  | some r =>
      rcases h.runtimes w.id r hr with ⟨v, hv, hid, _⟩ | ⟨_, hr'⟩
      · exact absurd (List.mem_map.mpr ⟨v, hv, hid⟩) hnew
      · rw [hr'] at *
        rw [hr] at hany
        exact hany

end loaded

/-- Loading the watches keeps the count when those that are resumed are alone. -/
theorem Loop.Registered.loads {watches : List Watch} (h : l.Registered) (hl : l.Coherent listed)
    (hlisted : ∀ w ∈ watches, listed w ∧ ∀ v, listed v → v.id = w.id → v.Precedes w)
    (hdistinct : (watches.map Watch.id).Nodup) (halone : l.ResumesAlone watches) (now : Rat) :
    (watches.foldl (Loop.load .works now) l).Coherent listed ∧
      (watches.foldl (Loop.load .works now) l).Registered := by
  -- the watches `earlier` are loaded, and the watches `later` are not
  have hrest : ∀ (later earlier : List Watch) (m : Loop), watches = earlier ++ later →
      l.Loaded earlier m → m.Coherent listed → m.Registered →
      (later.foldl (Loop.load .works now) m).Coherent listed ∧
        (later.foldl (Loop.load .works now) m).Registered := by
    intro later
    induction later with
    | nil => exact fun _ _ _ _ hm hm' => ⟨hm, hm'⟩
    | cons w later ih =>
        intro earlier m hsplit hloaded hm hm'
        have hw : w ∈ watches := by
          rw [hsplit]
          exact List.mem_append_right _ List.mem_cons_self
        obtain ⟨hlw, hlatest⟩ := hlisted w hw
        have hnew : w.id ∉ earlier.map Watch.id := by
          rw [hsplit, List.map_append, List.map_cons] at hdistinct
          intro hmem
          exact List.disjoint_of_nodup_append hdistinct hmem List.mem_cons_self
        have hvacant : m.Resumes w → m.holders w.parent = 0 := by
          intro hresumes
          have hk : earlier.length < watches.length := by
            rw [hsplit, List.length_append, List.length_cons]
            omega
          have hget : watches.get ⟨earlier.length, hk⟩ = w := by
            simp [hsplit]
          have htake : watches.take earlier.length = earlier := by
            rw [hsplit, List.take_left]
          have hturn := halone ⟨earlier.length, hk⟩
          rw [hget] at hturn
          simp only [htake] at hturn
          exact hloaded.holders_eq_zero (hturn (hloaded.resumes hnew hresumes))
        refine ih (earlier ++ [w]) (Loop.load .works now m w) ?_ (hloaded.load .works now w)
          (hm.load hlw hlatest) (hm'.load hm hlatest hvacant now)
        rw [hsplit, List.append_assoc]
        rfl
  exact hrest watches [] l rfl (.start l) hl h

end reload

/-! ## Runs -/

section host

variable {crates : Crates} {h t : Host} {act : Act}

theorem Loop.Registered.mark {l : Loop} (h : l.Registered) (p : Runtime → Bool) :
    (l.mark p).Registered := by
  refine Loop.Tallies.congr h rfl rfl fun q => ?_
  unfold Loop.holders Loop.mark
  simp only
  rw [Dict.count_map (q := fun _ r => r.Holds q)]
  intro id r _
  split <;> rfl

theorem Loop.Registered.dispatchOne {l : Loop} (h : l.Registered) (id : String) (now : Rat) :
    (l.dispatchOne now id).Registered := by
  rcases dispatchOne_cases l id now with ⟨current, watch, hcurrent, _, _, _, _, _, heq⟩ | heq
  · rw [heq]
    exact Loop.Tallies.congr h rfl rfl fun p => holders_put_same hcurrent Iff.rfl
  · rw [heq]
    exact h

/-- The watches that a reload loads. -/
def Host.listed (crates : Crates) (h : Host) : List Watch :=
  match (watches crates).run h.db with
  | (.ok rows, _) => rows.filterMap (watchFromValue crates)
  | (.error _, _) => []

/-- The native watcher works. -/
def NativeWorks : Act → Prop
  | .turned os _ _ _ => os = .works
  | .reloaded os _ _ _ => os = .works
  | _ => True

instance (act : Act) : Decidable (NativeWorks act) := by
  unfold NativeWorks
  split <;> infer_instance

/-- The native watcher works, and a watch is resumed only while its directory is vacant. -/
def ResumesAlone (crates : Crates) (h : Host) (act : Act) : Prop :=
  NativeWorks act ∧
    match act with
    | .reloaded _ _ _ _ => h.loop.ResumesAlone (h.listed crates)
    | _ => True

instance (crates : Crates) (h : Host) (act : Act) : Decidable (ResumesAlone crates h act) := by
  unfold ResumesAlone
  split <;> infer_instance

/-- Nobody holds anything at the start. -/
theorem registered_new (notes : List Note) : (Loop.new notes).Registered := by
  have hzero : ∀ p, (Loop.new notes).holders p = 0 := fun _ => rfl
  refine ⟨fun p => ?_, fun p => ?_, fun p => ?_⟩
  · rw [hzero]
    rfl
  · exact nofun
  · rw [hzero]
    constructor
    · exact fun h => absurd h (Finset.notMem_empty p)
    · exact fun h => absurd h (Nat.lt_irrefl 0)

/-- What the invariant says of a host. -/
def Host.Registered (crates : Crates) (h : Host) : Prop :=
  h.Coherent crates ∧ h.loop.Registered

/-- A turn keeps the count when its branch does. -/
theorem Loop.Registered.turn {l l' : Loop} {listed : Watch → Prop} {branch : Branch}
    {ids : List String} {now : Rat} (h : l.Registered) (hl : l.Coherent listed)
    (hreload : ∀ watches now, branch = .reloaded watches now →
      (l.reload .works watches now).Coherent listed ∧ (l.reload .works watches now).Registered)
    (hturn : l.turn .works branch ids now = some l') : l'.Registered := by
  have hfree : ∀ (m : Loop) queue overflow cursor, m.Coherent listed ∧ m.Registered →
      Loop.Coherent listed { m with queue := queue, overflow := overflow, fairCursor := cursor } ∧
        Loop.Registered { m with queue := queue, overflow := overflow, fairCursor := cursor } :=
    fun m _ _ _ hm => ⟨hm.1.congr rfl rfl rfl rfl, Loop.Tallies.congr hm.2 rfl rfl fun _ => rfl⟩
  have hmark : ∀ (m : Loop) p, m.Coherent listed ∧ m.Registered →
      (m.mark p).Coherent listed ∧ (m.mark p).Registered :=
    fun m p hm => ⟨hm.1.mark p, hm.2.mark p⟩
  refine (turn_keeps_after (P := fun m => m.Coherent listed ∧ m.Registered) hturn
    (fun b hb => ?_) hfree hmark fun m id hm => ⟨hm.1.dispatchOne id, hm.2.dispatchOne id now⟩).2
  exact branch_keeps (P := fun m => m.Coherent listed ∧ m.Registered) hb ⟨hl, h⟩ hfree
    (fun _ _ _ hjoin => ⟨hl.join hjoin, h.join hl hjoin⟩) hreload hmark

theorem Host.Registered.step (hh : h.Registered crates) (hok : ResumesAlone crates h act)
    (hstep : h.step crates act = some t) : t.Registered crates := by
  refine ⟨hh.1.step hstep, ?_⟩
  have hcongr : ∀ l : Loop, l.registered = h.loop.registered → l.native = h.loop.native →
      l.runtimes = h.loop.runtimes → l.aliases = h.loop.aliases → l.Registered := by
    intro l hregistered hnative hruntimes haliases
    refine Loop.Tallies.congr hh.2 hregistered hnative fun p => ?_
    unfold Loop.holders
    rw [hruntimes, haliases]
  cases Host.step_moved hstep with
  | called => exact hh.2
  | notified =>
      unfold Loop.notify
      split
      · exact hcongr _ rfl rfl rfl rfl
      · exact hcongr _ rfl rfl rfl rfl
  | sampled => exact hcongr _ rfl rfl rfl rfl
  | compared => exact hcongr _ rfl rfl rfl rfl
  | committed => exact hcongr _ rfl rfl rfl rfl
  | refused => exact hcongr _ rfl rfl rfl rfl
  | turned hbranch hturn =>
      obtain ⟨hworks, _⟩ := hok
      obtain rfl := hworks
      refine hh.2.turn hh.1 ?_ hturn
      rintro watches now rfl
      cases hbranch
  | reloaded hrows hturn =>
      obtain ⟨hworks, halone⟩ := hok
      obtain rfl := hworks
      unfold Host.listed at halone
      rw [hrows] at halone
      refine hh.2.turn hh.1 ?_ hturn
      rintro _ now ⟨rfl, rfl⟩
      have hlisted := fun w hw => (loaded_spec (w := w) hrows hw).2
      refine reload_keeps (P := fun m => m.Coherent _ ∧ m.Registered) hh (fun hm => ?_)
        fun m id _ hm => ⟨hm.1.drop id, hm.2.drop id⟩
      exact hm.2.loads hm.1 hlisted (loaded_distinct hrows) halone _
  | restarted => exact registered_new _

/-- Every directory is counted once for each active watch in it and each alias that leads to it,
and the native watcher watches the directories that are counted. -/
def Loop.Counted (l : Loop) : Prop :=
  ∀ p, (l.registered.get p).getD 0 = l.holders p ∧ (p ∈ l.native ↔ 0 < l.holders p)

/-- The count is right in every state of a run in which watches are resumed only while their
directories are vacant. -/
theorem registrations_counted (h : Host.ReachableBy crates (ResumesAlone crates) t) :
    t.loop.Counted := by
  have hregistered : t.Registered crates := Runs.LeadsBy.invariant
    (fun _ _ _ hs hok hstep => Host.Registered.step hs hok hstep) h
    ⟨coherent_new [], registered_new []⟩
  exact fun p => ⟨hregistered.2.count p, hregistered.2.native_iff p⟩

end host

/-! ## Two watches in one directory -/

def sampleKeys : List String := [(sampleUuid 4).text, (sampleUuid 5).text]

/-- Two files of one directory are watched, and the first watch is paused. -/
def samplePauses : List Act :=
  [.called (.watchCreate "conversation-1" "build-log" "/srv/app/build.log" (.finite 1)
      "shared-local" (.finite 0) none (sampleUuid 4) 10),
    .called (.watchCreate "conversation-1" "test-log" "/srv/app/test.log" (.finite 1)
      "shared-local" (.finite 0) none (sampleUuid 5) 10),
    .reloaded .works 11 sampleKeys 11,
    .called (.watchAction "conversation-1" "build-log" "pause" 12),
    .reloaded .works 13 sampleKeys 13]

/-- The first watch is resumed, and the second one is paused. -/
def sampleResumes : List Act :=
  samplePauses ++
    [.called (.watchAction "conversation-1" "build-log" "resume" 14),
      .reloaded .works 15 sampleKeys 15,
      .called (.watchAction "conversation-1" "test-log" "pause" 16),
      .reloaded .works 17 sampleKeys 17]

/-- The first watch is active, and its directory is not watched. -/
theorem registrations_counted_fails :
    ¬ ∀ (crates : Crates) (t : Host),
      Host.ReachableBy crates (fun _ act => NativeWorks act) t → t.loop.Counted := by
  intro h
  have hrun : (Runs.after? (Host.step sampleCrates) (fun _ act => NativeWorks act) sampleResumes
      .initial).any (fun t => t.loop.registered.get ⟨true, ["srv", "app"]⟩ = none ∧
        t.loop.holders ⟨true, ["srv", "app"]⟩ = 1) = true := by
    decide +kernel
  obtain ⟨t, ht, hlost⟩ := Option.any_eq_true _ _ |>.mp hrun
  obtain ⟨hnone, hheld⟩ := of_decide_eq_true hlost
  have hcount := (h sampleCrates t (Runs.leadsBy_after ht) ⟨true, ["srv", "app"]⟩).1
  rw [hnone, hheld] at hcount
  cases hcount

/-- A run in which a watch is resumed in a directory that nobody holds. -/
theorem registrations_counted_sample :
    ∃ t, Runs.after? (Host.step sampleCrates) (ResumesAlone sampleCrates) (samplePauses ++
          [.called (.watchAction "conversation-1" "test-log" "pause" 14),
            .reloaded .works 15 sampleKeys 15,
            .called (.watchAction "conversation-1" "build-log" "resume" 16),
            .reloaded .works 17 sampleKeys 17]) .initial = some t ∧
        t.loop.holders ⟨true, ["srv", "app"]⟩ = 1 ∧ t.loop.Counted := by
  have hrun : (Runs.after? (Host.step sampleCrates) (ResumesAlone sampleCrates) (samplePauses ++
      [.called (.watchAction "conversation-1" "test-log" "pause" 14),
        .reloaded .works 15 sampleKeys 15,
        .called (.watchAction "conversation-1" "build-log" "resume" 16),
        .reloaded .works 17 sampleKeys 17]) .initial).any
          (fun t => t.loop.holders ⟨true, ["srv", "app"]⟩ = 1) = true := by
    decide +kernel
  obtain ⟨t, ht, hheld⟩ := Option.any_eq_true _ _ |>.mp hrun
  exact ⟨t, ht, of_decide_eq_true hheld, registrations_counted (Runs.leadsBy_after ht)⟩

end CodexMonitor.Collector
