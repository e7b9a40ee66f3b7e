import CodexMonitor.Install.Releases

/-!
# What the release installer recovers from

`Sound` says what every run may count on: the releases are the registered ones, each of them is
complete, and there are none without `current`.  A run keeps it when it `Meets` a condition on where
it is cut off: not between the first trace of its release and the registration, unless that trace
is removed, and a first installation not before `current` is switched either.  From a sound prefix
the same action, or an upgrade once a release is published, succeeds when nothing disturbs it.
-/

namespace CodexMonitor

namespace Install

namespace Releases

open Faults (Fault Outcome Prog)
open Faults.Replace (Step Target writing replacing)
open Faults.Prog

/-! ## What a run may find -/

/-- What holds of a prefix with a marker. -/
structure Owned (host : Host) (s : Root) (records : List Record) : Prop where
  layout : ∀ id, (s.releases.get id).isSome ↔ id ∈ records.map Record.id
  nodup : (records.map Record.id).Nodup
  verified : ∀ record ∈ records, verifyRelease host s record = .ok ()
  published : s.current = none → records = []
  known : ∀ id, s.current = some id → id ∈ records.map Record.id
  launched : s.launcher = true → s.current.isSome

/-- What every run may count on. -/
structure Sound (host : Host) (s : Root) : Prop where
  settled : s.temporary = none
  service : s.service = false
  unmarked : s.marker = none →
    s.occupied = false ∧ (∀ id, s.releases.get id = none) ∧ s.launcher = false
  owned : ∀ records, s.marker = some records → Owned host s records

/-- The launcher resolves to a complete release. -/
def Serves (host : Host) (s : Root) : Prop :=
  s.launcher = true ∧ ∃ records record, s.marker = some records ∧ record ∈ records ∧
    s.current = some record.id ∧ verifyRelease host s record = .ok ()

section checks

variable {host : Host} {s t : Root} {records : List Record}

/-- A release is verified by its directory alone. -/
theorem verifyRelease_congr {record : Record}
    (h : t.releases.get record.id = s.releases.get record.id) :
    verifyRelease host t record = verifyRelease host s record := by
  unfold verifyRelease
  rw [h]

theorem filter_id {id : String} (hnodup : (records.map Record.id).Nodup)
    (hid : id ∈ records.map Record.id) :
    ∃ record ∈ records, record.id = id ∧ (records.filter fun r => r.id = id) = [record] := by
  induction records with
  | nil => cases hid
  | cons record records ih =>
      rw [List.map_cons, List.nodup_cons] at hnodup
      by_cases hsame : record.id = id
      · refine ⟨record, List.mem_cons_self, hsame, ?_⟩
        have hnone : (records.filter fun r => r.id = id) = [] := by
          rw [List.filter_eq_nil_iff]
          intro r hr hrid
          exact hnodup.1 (List.mem_map.mpr ⟨r, hr, (of_decide_eq_true hrid).trans hsame.symm⟩)
        simp [hsame, hnone]
      · have hrest : id ∈ records.map Record.id := by
          simpa [Ne.symm hsame] using hid
        obtain ⟨r, hr, hrid, hfilter⟩ := ih hnodup.2 hrest
        exact ⟨r, List.mem_cons_of_mem _ hr, hrid, by simp [hsame, hfilter]⟩

theorem Owned.currentId (h : Owned host s records) : currentId host s records = .ok s.current := by
  unfold Releases.currentId
  cases hcurrent : s.current with
  | none => rfl
  | some id =>
      have hknown := h.known id hcurrent
      obtain ⟨record, -, -, hfilter⟩ := filter_id h.nodup hknown
      obtain ⟨release, hrelease⟩ := Option.isSome_iff_exists.mp ((h.layout id).mpr hknown)
      simp only [hfilter, hrelease]

theorem Owned.checkLayout (h : Owned host s records) : checkLayout host s records = .ok () := by
  have hsame : (∀ id ∈ s.releases.keys, id ∈ records.map Record.id) ∧
      ∀ id ∈ records.map Record.id, id ∈ s.releases.keys := by
    constructor
    · intro id hid
      obtain ⟨release, hrelease⟩ := Dict.mem_keys.mp hid
      exact (h.layout id).mp (by simp [hrelease])
    · intro id hid
      exact Dict.mem_keys.mpr (Option.isSome_iff_exists.mp ((h.layout id).mpr hid))
  unfold Releases.checkLayout
  simp only [h.currentId]
  rw [if_neg]
  exact fun hdiffers => hdiffers.2 hsame

theorem Owned.currentRecord (h : Owned host s records) {id : String} (hid : s.current = some id) :
    ∃ record ∈ records, record.id = id ∧ currentRecord records id = .ok record := by
  obtain ⟨record, hrecord, hsame, hfilter⟩ := filter_id h.nodup (h.known id hid)
  exact ⟨record, hrecord, hsame, by simp only [Releases.currentRecord, hfilter]⟩

/-- What the state allows. -/
def Allowed (action : Action) (s : Root) : Prop :=
  match action with
  | .install => s.current = none
  | .upgrade => s.current.isSome

theorem Owned.checkAction (h : Owned host s records) (action : Action) :
    checkAction action records s.current = .ok () ↔ Allowed action s := by
  unfold Releases.checkAction Allowed
  cases action with
  | install =>
      cases hcurrent : s.current with
      | none => simp [h.published hcurrent]
      | some id => simp
  | upgrade => cases hcurrent : s.current <;> simp

theorem Owned.congr (h : Owned host s records) (hreleases : ∀ id, t.releases.get id =
      s.releases.get id) (hcurrent : t.current = s.current) (hlauncher : t.launcher = s.launcher) :
    Owned host t records where
  layout id := by rw [hreleases, h.layout]
  nodup := h.nodup
  verified record hrecord := by
    rw [verifyRelease_congr (hreleases record.id)]
    exact h.verified record hrecord
  published hnone := h.published (hcurrent ▸ hnone)
  known id hid := h.known id (hcurrent ▸ hid)
  launched hlaunched := by
    rw [hcurrent]
    exact h.launched (hlauncher ▸ hlaunched)

/-- A new release is registered and its directory is there. -/
theorem Owned.register (h : Owned host s records) {record : Record} {release : Release}
    (hnew : s.releases.get record.id = none)
    (hreleases : ∀ id, t.releases.get id =
      if id = record.id then some release else s.releases.get id)
    (hverified : verifyRelease host t record = .ok ())
    (hcurrent : t.current = s.current ∧ s.current.isSome ∨ t.current = some record.id) :
    Owned host t (records ++ [record]) where
  layout id := by
    rw [hreleases, List.map_append, List.mem_append, List.map_singleton, List.mem_singleton]
    by_cases hid : id = record.id
    · simp [hid]
    · simp [hid, h.layout]
  nodup := by
    rw [List.map_append, List.map_singleton]
    refine List.nodup_append.mpr ⟨h.nodup, List.nodup_singleton _, ?_⟩
    intro id hid other hother hsame
    rw [List.mem_singleton] at hother
    have hthere := (h.layout id).mpr hid
    rw [hsame, hother, hnew] at hthere
    cases hthere
  verified r hr := by
    obtain hr | hr := List.mem_append.mp hr
    · have hne : r.id ≠ record.id := by
        intro hsame
        have hthere := (h.layout r.id).mpr (List.mem_map_of_mem hr)
        rw [hsame, hnew] at hthere
        cases hthere
      rw [verifyRelease_congr (s := s) (by rw [hreleases, if_neg hne])]
      exact h.verified r hr
    · rw [List.mem_singleton.mp hr]
      exact hverified
  published hnone := by
    obtain ⟨hsame, hsome⟩ | hswitched := hcurrent
    · rw [← hsame, hnone] at hsome
      cases hsome
    · rw [hnone] at hswitched
      cases hswitched
  known id hid := by
    rw [List.map_append, List.mem_append]
    obtain ⟨hsame, -⟩ | hswitched := hcurrent
    · exact Or.inl (h.known id (hsame ▸ hid))
    · rw [hid] at hswitched
      obtain rfl := Option.some.inj hswitched
      simp
  launched _ := by
    obtain ⟨hsame, hsome⟩ | hswitched := hcurrent
    · rw [hsame]
      exact hsome
    · simp [hswitched]

end checks

/-! ## The checks of a run -/

/-- What is left of a run: a sound prefix, with a launcher and a `current` where there were some. -/
structure Ended (host : Host) (s₀ s : Root) : Prop where
  sound : Sound host s.left
  launcher : s₀.launcher = true → s.launcher = true
  current : s₀.current.isSome → s.current.isSome

/-- The prefix after the checks: it has a marker. -/
structure Claimed (s₀ s : Root) (records : List Record) : Prop where
  marker : s.marker = some records
  settled : s.temporary = none
  service : s.service = s₀.service
  releases : s.releases = s₀.releases
  current : s.current = s₀.current
  launcher : s.launcher = s₀.launcher
  records : s₀.marker = none ∧ records = [] ∨ s₀.marker = some records

section enter

variable {host : Host} {s₀ s : Root} {records : List Record}

theorem occupied_current (h : s.occupied = false) : s.current = none := by
  simp only [Root.occupied, Bool.or_eq_false_iff] at h
  exact Option.not_isSome_iff_eq_none.mp (by simp [h.1.1.1.2])

theorem Claimed.owned (h : Claimed s₀ s records) (hs : Sound host s₀) : Owned host s records := by
  obtain ⟨hnone, rfl⟩ | hmarker := h.records
  · obtain ⟨hfree, hempty, hlauncher⟩ := hs.unmarked hnone
    have hcurrent : s.current = none := h.current.trans (occupied_current hfree)
    refine ⟨fun id => ?_, List.nodup_nil, nofun, fun _ => rfl, ?_, ?_⟩
    · simp [h.releases, hempty]
    · simp [hcurrent]
    · simp [h.launcher, hlauncher]
  · exact (hs.owned records hmarker).congr (fun id => by rw [h.releases]) h.current h.launcher

/-- A prefix that has all of another one's releases, links and marker. -/
theorem Owned.ended (h : Owned host s records) (hmarker : s.marker = some records)
    (hservice : s.service = false) (hlauncher : s₀.launcher = true → s.launcher = true)
    (hcurrent : s₀.current.isSome → s.current.isSome) : Ended host s₀ s := by
  refine ⟨⟨rfl, hservice, ?_, ?_⟩, hlauncher, hcurrent⟩
  · intro hnone
    rw [show s.left.marker = s.marker from rfl, hmarker] at hnone
    cases hnone
  · intro other hother
    rw [show s.left.marker = s.marker from rfl, hmarker] at hother
    obtain rfl := Option.some.inj hother
    exact h.congr (fun _ => rfl) rfl rfl

theorem Claimed.ended (h : Claimed s₀ s records) (hs : Sound host s₀) : Ended host s₀ s :=
  (h.owned hs).ended h.marker (h.service.trans hs.service) (fun hl => h.launcher.trans hl)
    fun hc => h.current ▸ hc

/-- The prefix as it was, but for its directory. -/
def Opened (s₀ s : Root) : Prop := ∃ there, s = { s₀ with there := there }

theorem Opened.ended (h : Opened s₀ s) (hs : Sound host s₀) : Ended host s₀ s := by
  obtain ⟨there, rfl⟩ := h
  refine ⟨⟨rfl, hs.service, ?_, ?_⟩, id, id⟩
  · intro hnone
    obtain ⟨hfree, hempty⟩ := hs.unmarked hnone
    refine ⟨?_, hempty⟩
    simp only [Root.occupied, Bool.or_eq_false_iff] at hfree
    simp [Root.occupied, Root.left, hfree, hs.settled]
  · intro records hmarker
    exact (hs.owned records hmarker).congr (fun _ => rfl) rfl rfl

def Steady (I : Root → Prop) : Prop := ∀ s x, I s → I (s.setTemporary x)

/-- The files of a run are written under the process's temporary file. -/
def Plain (target : Target Place Root Content) : Prop :=
  target.temporary = Root.temporary ∧ target.setTemporary = Root.setTemporary

section write

variable {target : Target Place Root Content} (content : Content) {plan : Place → Fault}
  {I J : Root → Prop}

theorem Plain.steady (h : Plain target) (hI : Steady I) : Faults.Replace.Steady target I := by
  intro s x hs
  rw [h.2]
  exact hI s x hs

theorem Plain.clean (h : Plain target) (s : Root) :
    target.temporary (target.setTemporary none s) = none := by
  rw [h.1, h.2]
  rfl

theorem atomicJson_done {s t : Root} {u : Unit} (h : Plain target)
    (hrun : (atomicJson target content).run plan s = (.done u, t)) :
    (∀ step ∈ writing, plan (target.place step) = .none) ∧ t.temporary = none := by
  refine ⟨Faults.Replace.replace_done hrun, ?_⟩
  have hnone := Faults.Replace.replace_done_temporary h.clean hrun
  rwa [h.1] at hnone

theorem atomicJson_blocked (h : Plain target) (hplan : plan (target.place .create) ≠ .none) :
    Spec (fun s => I s ∧ s.temporary = none) ((atomicJson target content).under plan)
      (fun _ _ => False) (fun s => I s ∧ s.temporary = none) := by
  have hspec : Spec (fun s => I s ∧ target.temporary s = none)
      ((atomicJson target content).under plan) _ _ := Faults.Replace.replace_blocked hplan
  rwa [h.1] at hspec

theorem atomicJson_untouched (h : Plain target) (hI : Steady I)
    (hplan : ¬ ∀ step ∈ replacing, plan (target.place step) = .none) :
    Spec I ((atomicJson target content).under plan) (fun _ _ => False) I :=
  Faults.Replace.replace_untouched hplan (h.steady hI)

theorem atomicJson_replaced (h : Plain target) (hI : Steady I)
    (hput : ∀ s, I s → J (target.put content s)) (hJ : Steady J)
    (hplan : ∀ step ∈ replacing, plan (target.place step) = .none) :
    Spec I ((atomicJson target content).under plan) (fun _ => J) J :=
  Faults.Replace.replace_replaced hplan (h.steady hI) hput (h.steady hJ)

theorem atomicJson_total (h : Plain target) (hI : Steady I)
    (hput : ∀ s, I s → J (target.put content s)) (hJ : Steady J)
    (hplan : ∀ step ∈ writing, plan (target.place step) = .none) :
    Total plan I (atomicJson target content) fun _ => J :=
  Faults.Replace.replace_total hplan (h.steady hI) hput (h.steady hJ) h.clean

theorem atomicJson_guarded {M : Prop} (h : Plain target)
    (hplan : Faults.Replace.Safe target plan M writing) (hI : Steady I)
    (hput : ∀ s, I s → J (target.put content s)) (hJ : Steady J) :
    Guarded plan (fun s => I s ∧ s.temporary = none) (atomicJson target content)
      (fun _ s => J s ∧ s.temporary = none)
      (fun s => ((I s ∨ J s) ∧ M) ∧
        (s.temporary = none ∨ plan (target.place .cleanup) = .error)) := by
  have hspec : Guarded plan (fun s => I s ∧ target.temporary s = none) (atomicJson target content)
      _ _ := Faults.Replace.replace_guarded hplan (h.steady hI) hput (h.steady hJ) h.clean
  rwa [h.1] at hspec

end write

/-- The prefix as it was, but for its directory and a temporary file. -/
def Writing (s₀ s : Root) : Prop :=
  ∃ there x, s = { s₀ with there := there, temporary := x }

/-- The prefix after its claim, but for a temporary file. -/
def Marked (s₀ s : Root) : Prop :=
  ∃ there x, s = { s₀ with there := there, marker := some [], temporary := x }

theorem writing_steady : Steady (Writing s₀) := by
  intro s x h
  obtain ⟨there, y, rfl⟩ := h
  exact ⟨there, x, rfl⟩

theorem marked_steady : Steady (Marked s₀) := by
  intro s x h
  obtain ⟨there, y, rfl⟩ := h
  exact ⟨there, x, rfl⟩

theorem Writing.put (h : Writing s₀ s) : Marked s₀ ((markerFile .claim).put (.marker []) s) := by
  obtain ⟨there, x, rfl⟩ := h
  exact ⟨there, x, rfl⟩

theorem Opened.writing (h : Opened s₀ s) : Writing s₀ s := by
  obtain ⟨there, rfl⟩ := h
  exact ⟨there, s₀.temporary, rfl⟩

theorem Writing.opened (h : Writing s₀ s) (hs : s₀.temporary = none) (hnone : s.temporary = none) :
    Opened s₀ s := by
  obtain ⟨there, x, rfl⟩ := h
  refine ⟨there, ?_⟩
  rw [show x = s₀.temporary from hnone.trans hs.symm]

theorem Marked.claimed (h : Marked s₀ s) (hs₀ : s₀.marker = none) (hnone : s.temporary = none) :
    Claimed s₀ s [] := by
  obtain ⟨there, x, rfl⟩ := h
  exact ⟨rfl, hnone, rfl, rfl, rfl, rfl, .inl ⟨hs₀, rfl⟩⟩

theorem Marked.ended (h : Marked s₀ s) (hs : Sound host s₀) (hs₀ : s₀.marker = none) :
    Ended host s₀ s := by
  have hclaimed : Claimed s₀ (s.setTemporary none) [] := by
    obtain ⟨there, x, rfl⟩ := h
    exact ⟨rfl, rfl, rfl, rfl, rfl, rfl, .inl ⟨hs₀, rfl⟩⟩
  have howned : Owned host s [] := (hclaimed.owned hs).congr (fun _ => rfl) rfl rfl
  refine howned.ended hclaimed.marker (hclaimed.service.trans hs.service) ?_ ?_
  · exact fun hl => hclaimed.launcher.trans hl
  · exact fun hc => hclaimed.current ▸ hc

/-- The marker is written, or the prefix is left as it was, unless a temporary file stays. -/
theorem claim_spec {plan : Place → Fault} (hs : Sound host s₀) (hnone : s₀.marker = none)
    (hcut : plan (.claim .create) = .none →
      Mended plan (fun _ => plan (.claim .cleanup) = .none)
        [.claim .write, .claim .sync, .claim .rename]) :
    Spec (Opened s₀) ((atomicJson (markerFile .claim) (.marker [])).under plan)
      (fun _ s => Claimed s₀ s [] ∧ Calm plan (writing.map .claim)) (Ended host s₀) := by
  have hplain : Plain (markerFile .claim) := ⟨rfl, rfl⟩
  have hopened : ∀ s, Opened s₀ s → Writing s₀ s ∧ s.temporary = none := by
    intro s h
    refine ⟨h.writing, ?_⟩
    obtain ⟨there, rfl⟩ := h
    exact hs.settled
  by_cases hcreate : plan (.claim .create) = .none
  · by_cases hcalm : ∀ step ∈ replacing, plan (.claim step) = .none
    · refine Spec.mono ((atomicJson_replaced (.marker []) hplain writing_steady
        (fun _ h => h.put) marked_steady hcalm).ends fun s u t hrun =>
          atomicJson_done _ hplain hrun) (fun s h => h.writing) ?_ fun s h => h.ended hs hnone
      intro _ s h
      exact ⟨h.1.claimed hnone h.2.2, List.forall_mem_map.mpr h.2.1⟩
    · have hsafe : Faults.Replace.Safe (markerFile .claim) plan (plan (.claim .cleanup) = .none)
          writing := by
        have hmended : Mended plan (fun _ => plan (.claim .cleanup) = .none)
            (replacing.map .claim) := by
          unfold replacing
          simp only [List.map_cons, List.map_nil]
          unfold Mended
          rw [hcreate]
          exact hcut hcreate
        have hall := hmended.extend (fun hall => hcalm (List.forall_mem_map.mp hall))
          [.claim .syncDir]
        refine hall.mono fun place _ hclean => ⟨hclean, fun _ => ?_⟩
        rw [show (markerFile .claim).place .cleanup = .claim .cleanup from rfl, hclean]
        exact Faults.Fault.noConfusion
      have hsteady : Steady (Writing s₀) := writing_steady
      have hguarded := (atomicJson_guarded (.marker []) hplain hsafe hsteady (fun _ h => h.put)
        marked_steady).and (atomicJson_untouched (.marker []) hplain hsteady hcalm)
      refine hguarded.spec.mono (fun s h => ⟨hopened s h, h.writing⟩) (fun _ _ h => h.2.elim) ?_
      intro s h
      obtain ⟨⟨⟨-, hclean⟩, hleft⟩, hwriting⟩ := h
      refine (hwriting.opened hs.settled (hleft.resolve_right ?_)).ended hs
      rw [show (markerFile .claim).place .cleanup = .claim .cleanup from rfl, hclean]
      exact Faults.Fault.noConfusion
  · refine (atomicJson_blocked (I := Opened s₀) (.marker []) hplain hcreate).mono
      (fun s h => ⟨h, (hopened s h).2⟩) (fun _ _ h => h.elim) fun _ h => h.1.ended hs

/-- The operations before the marker is looked for. -/
def openingPlaces (s : Root) : List Place := .lock :: if s.there then [] else [.createRoot]

/-- What a run must not do to a prefix that it claims. -/
def ClaimsSafely (s : Root) (plan : Place → Fault) : Prop :=
  s.marker = none → Calm plan (openingPlaces s ++ [.claim .create]) →
    Mended plan (fun _ => plan (.claim .cleanup) = .none)
      [.claim .write, .claim .sync, .claim .rename]

/-- The operations that read or write the marker. -/
def markerPlaces (s : Root) : List Place :=
  match s.marker with
  | some _ => [.readMarker]
  | none => writing.map .claim

/-- The operations of the checks once the prefix has its marker. -/
def verifyPlaces (current : Option String) : List Place := if current.isSome then [.verify] else []

/-- The operations of the checks. -/
def entryPlaces (s : Root) : List Place :=
  openingPlaces s ++ markerPlaces s ++ verifyPlaces s.current

/-- The marker is read, or the prefix is claimed. -/
theorem readOrClaim_spec {plan : Place → Fault} (hs : Sound host s₀) (hcut : ClaimsSafely s₀ plan)
    (hopening : Calm plan (openingPlaces s₀)) :
    Spec (Opened s₀) ((readOrClaim host s₀.marker).under plan)
      (fun records s => Claimed s₀ s records ∧ Calm plan (markerPlaces s₀)) (Ended host s₀) := by
  have hmarked : ∀ records, s₀.marker = some records → ∀ s, Opened s₀ s →
      Claimed s₀ s records := by
    intro records hmarker s h
    obtain ⟨there, rfl⟩ := h
    exact ⟨hmarker, hs.settled, rfl, rfl, rfl, rfl, .inr hmarker⟩
  have hended : ∀ s, Opened s₀ s → Ended host s₀ s := fun s h => h.ended hs
  cases hmarker : s₀.marker with
  | some records =>
      unfold readOrClaim
      rw [under_bind]
      refine Spec.bind (Spec.known (c := fun _ => plan .readMarker = .none)
        ((Spec.write (fun _ h => h) hended).under plan) fun s u t hrun =>
          (write_done.mp hrun).1) fun _ => Spec.given fun hread => ?_
      refine (Spec.pure fun s h => ?_).under plan
      refine ⟨hmarked records hmarker s h, ?_⟩
      simpa [Calm, markerPlaces, hmarker] using hread
  | none =>
      unfold readOrClaim
      rw [under_bind]
      refine Spec.bind ((Spec.read _).under plan) fun occupied => ?_
      rw [under_bind]
      refine Spec.bind (((Spec.bailIf fun s h => hended s h.1).mono (fun _ h => h)
        (fun _ _ h => h.1.1) fun _ h => h).under plan) fun _ => ?_
      rw [under_bind]
      refine Spec.bind (claim_spec hs hmarker fun hcreate => hcut hmarker ?_) fun _ =>
        (Spec.pure fun s h => ?_).under plan
      · intro place hplace
        obtain hplace | hplace := List.mem_append.mp hplace
        · exact hopening place hplace
        · rw [List.mem_singleton.mp hplace]
          exact hcreate
      · simpa only [markerPlaces, hmarker] using h

theorem openRoot_spec {plan : Place → Fault} (hs : Sound host s₀) (hlock : plan .lock = .none) :
    Spec (fun s => s = s₀) (openRoot.under plan)
      (fun _ s => Opened s₀ s ∧ Calm plan (openingPlaces s₀)) (Ended host s₀) := by
  have hended : ∀ s, Opened s₀ s → Ended host s₀ s := fun s h => h.ended hs
  unfold openRoot
  rw [under_bind]
  refine Spec.bind ((Spec.read _).under plan) fun there => ?_
  cases there with
  | true =>
      refine (Spec.pure fun s h => ?_).under plan
      obtain ⟨rfl, hthere⟩ := h
      refine ⟨⟨s.there, rfl⟩, ?_⟩
      simpa [Calm, openingPlaces, hthere] using hlock
  | false =>
      refine Spec.mono (Spec.known (c := fun _ => plan .createRoot = .none) ((Spec.write
        (P := fun s => s = s₀ ∧ s.there = false) (Q := fun s => Opened s₀ s ∧ s₀.there = false)
        (fun s h => ?_) fun s h => hended s ?_).under plan) fun s u t hrun =>
          (write_done.mp hrun).1) (fun _ h => h) ?_ fun _ h => h
      · obtain ⟨rfl, hthere⟩ := h
        exact ⟨⟨true, rfl⟩, hthere⟩
      · obtain ⟨rfl, -⟩ := h
        exact ⟨s.there, rfl⟩
      · intro _ s h
        refine ⟨h.1.1, ?_⟩
        simp [Calm, openingPlaces, h.1.2, hlock, h.2]

theorem claimOrRead_spec {plan : Place → Fault} (hs : Sound host s₀) (hcut : ClaimsSafely s₀ plan)
    (hlock : plan .lock = .none) :
    Spec (fun s => s = s₀) ((claimOrRead host).under plan)
      (fun records s => Claimed s₀ s records ∧ Calm plan (openingPlaces s₀ ++ markerPlaces s₀))
      (Ended host s₀) := by
  unfold claimOrRead
  rw [under_bind]
  refine Spec.bind (openRoot_spec hs hlock) fun _ => Spec.given fun hopening => ?_
  rw [under_bind]
  refine Spec.bind (Q := fun marker s => Opened s₀ s ∧ marker = s₀.marker) ?_ fun marker =>
    Spec.given fun hmarker => ?_
  · refine ((Spec.read _).under plan).mono (fun _ h => h) ?_ fun _ h => h
    intro marker s h
    obtain ⟨⟨there, rfl⟩, rfl⟩ := h
    exact ⟨⟨there, rfl⟩, rfl⟩
  subst hmarker
  refine (readOrClaim_spec hs hcut hopening).mono (fun _ h => h) (fun records s h => ⟨h.1, ?_⟩)
    fun _ h => h
  intro place hplace
  exact (List.mem_append.mp hplace).elim (hopening place) (h.2 place)

theorem ofExcept_spec {α : Type} {P E : Root → Prop} {x : Except InstallError α}
    (hE : ∀ s, P s → E s) :
    Spec P (Prog.ofExcept x : Run α) (fun a s => P s ∧ x = .ok a) E := by
  intro plan s hs
  cases x with
  | error error => exact hE s hs
  | ok a => exact ⟨hs, rfl⟩

theorem check_spec {α : Type} {P E : Root → Prop} (f : Root → Except InstallError α)
    (hE : ∀ s, P s → E s) : Spec P (check f) (fun a s => P s ∧ f s = .ok a) E := by
  unfold check
  refine (Spec.read f).bind fun result => ?_
  refine (ofExcept_spec fun s h => hE s h.1).mono (fun _ h => h) ?_ fun _ h => h
  intro a s h
  exact ⟨h.1.1, h.1.2.trans h.2⟩

theorem verifyCurrent_spec {plan : Place → Fault} {P E : Root → Prop} (current : Option String)
    (hE : ∀ s, P s → E s) :
    Spec P ((verifyCurrent host records current).under plan)
      (fun _ s => P s ∧ Calm plan (verifyPlaces current)) E := by
  cases current with
  | none => exact (Spec.pure fun s h => ⟨h, nofun⟩).under plan
  | some id =>
      unfold verifyCurrent
      rw [under_bind]
      refine Spec.bind ((ofExcept_spec hE).under plan) fun record => ?_
      rw [under_bind]
      refine Spec.bind (Spec.known (c := fun _ => plan .verify = .none) ((Spec.write
        (fun _ h => h.1) fun s h => hE s h.1).under plan) fun s u t hrun =>
          (write_done.mp hrun).1) fun _ => Spec.given fun hverify => ?_
      refine ((check_spec _ hE).mono (fun _ h => h) (fun _ s h => ⟨h.1, ?_⟩)
        fun _ h => h).under plan
      simpa [Calm, verifyPlaces] using hverify

/-- The checks leave a prefix with a marker, and pass when the state allows the action. -/
theorem enter_spec {action : Action} {plan : Place → Fault} (hs : Sound host s₀)
    (hcut : ClaimsSafely s₀ plan) :
    Spec (fun s => s = s₀) ((enter host action).under plan)
      (fun records s => Claimed s₀ s records ∧ Allowed action s₀ ∧ Calm plan (entryPlaces s₀))
      (Ended host s₀) := by
  have hstart : ∀ s, s = s₀ → Ended host s₀ s := by
    intro s h
    exact Opened.ended ⟨s.there, by rw [h]⟩ hs
  have hended : ∀ records s, Claimed s₀ s records → Ended host s₀ s := fun _ s h => h.ended hs
  unfold enter
  rw [under_bind]
  refine Spec.bind (Spec.known (c := fun _ => plan .lock = .none) ((Spec.write
    (fun _ h => h) hstart).under plan) fun s u t hrun => (write_done.mp hrun).1) fun _ =>
      Spec.given fun hlock => ?_
  rw [under_bind]
  refine Spec.bind (claimOrRead_spec hs hcut hlock) fun records => Spec.given fun hentry => ?_
  rw [under_bind]
  refine Spec.bind ((check_spec _ (hended records)).under plan) fun _ => ?_
  rw [under_bind]
  refine Spec.bind (((Spec.read Root.service).mono (fun _ h => h) (fun _ s h => h.1.1)
    fun _ h => h).under plan) fun service => ?_
  rw [under_bind]
  refine Spec.bind (((Spec.bailIf (hended records)).mono (fun _ h => h) (fun _ s h => h.1)
    fun _ h => h).under plan) fun _ => ?_
  rw [under_bind]
  refine Spec.bind (Q := fun current s => Claimed s₀ s records ∧ current = s₀.current) ?_
    fun current => Spec.given fun hcurrent => ?_
  · refine ((check_spec _ (hended records)).mono (fun _ h => h) ?_ fun _ h => h).under plan
    intro current s h
    obtain ⟨hclaimed, hok⟩ := h
    rw [(hclaimed.owned hs).currentId] at hok
    exact ⟨hclaimed, (Except.ok.inj hok).symm.trans hclaimed.current⟩
  subst hcurrent
  rw [under_bind]
  refine Spec.bind (Q := fun _ s => Claimed s₀ s records ∧ Allowed action s₀) ?_ fun _ =>
    Spec.given fun hallowed => ?_
  · refine ((ofExcept_spec (hended records)).mono (fun _ h => h) ?_ fun _ h => h).under plan
    intro _ s h
    obtain ⟨hclaimed, hok⟩ := h
    rw [← hclaimed.current, (hclaimed.owned hs).checkAction] at hok
    refine ⟨hclaimed, ?_⟩
    unfold Allowed at hok ⊢
    rwa [hclaimed.current] at hok
  rw [under_bind]
  refine Spec.bind (verifyCurrent_spec s₀.current (hended records)) fun _ =>
    Spec.given fun hverify => ?_
  refine (Spec.pure fun s h => ⟨h, hallowed, ?_⟩).under plan
  intro place hplace
  exact (List.mem_append.mp hplace).elim (hentry place) (hverify place)

end enter

/-! ## A release on its way -/

/-- The prefix with one more directory among the releases. -/
structure Holding (b : Root) (name : String) (release : Release) (s : Root) : Prop where
  marker : s.marker = b.marker
  service : s.service = b.service
  current : s.current = b.current
  launcher : s.launcher = b.launcher
  releases : ∀ id, s.releases.get id = if id = name then some release else b.releases.get id

/-- The prefix as it was before a release was on its way. -/
structure Kept (b s : Root) : Prop where
  marker : s.marker = b.marker
  service : s.service = b.service
  current : s.current = b.current
  launcher : s.launcher = b.launcher
  releases : ∀ id, s.releases.get id = b.releases.get id

section staging

variable {host : Host} {source : Source} {build : Build} {b s : Root} {name : String}
  {release : Release} {plan : Place → Fault}

theorem holding_steady : Steady (Holding b name release) :=
  fun _ _ h => ⟨h.marker, h.service, h.current, h.launcher, h.releases⟩

theorem Kept.hold (h : Kept b s) (name : String) (release : Release) :
    Holding b name release (s.setRelease name release) := by
  refine ⟨h.marker, h.service, h.current, h.launcher, fun id => ?_⟩
  show (s.releases.set name release).get id = _
  rw [Dict.get_set, h.releases]

theorem Holding.get (h : Holding b name release s) : s.releases.get name = some release := by
  rw [h.releases, if_pos rfl]

theorem Holding.set (h : Holding b name release s) (release' : Release) :
    Holding b name release' (s.setRelease name release') := by
  refine ⟨h.marker, h.service, h.current, h.launcher, fun id => ?_⟩
  show (s.releases.set name release').get id = _
  rw [Dict.get_set, h.releases]
  by_cases hid : id = name <;> simp [hid]

theorem Holding.change (h : Holding b name release s) {f : Release → Release}
    {release' : Release} (hf : f release = release') :
    Holding b name release' (s.change name f) := by
  unfold Root.change
  rw [h.get, ← hf]
  exact h.set (f release)

@[simp] theorem change_temporary (s : Root) (name : String) (f : Release → Release) :
    (s.change name f).temporary = s.temporary := by
  unfold Root.change
  split <;> rfl

/-- The directory is removed again. -/
theorem Holding.erase (h : Holding b name release s) (hnew : b.releases.get name = none) :
    Kept b { s with releases := s.releases.erase name } := by
  refine ⟨h.marker, h.service, h.current, h.launcher, fun id => ?_⟩
  show (s.releases.erase name).get id = _
  rw [Dict.get_erase, h.releases]
  by_cases hid : id = name
  · subst hid
    simp [hnew]
  · simp [hid]

/-- The directory gets its name among the releases. -/
theorem Holding.rename (h : Holding b name release s) (hnew : b.releases.get name = none)
    (id : String) :
    Holding b id release { s with releases := (s.releases.erase name).set id release } := by
  refine ⟨h.marker, h.service, h.current, h.launcher, fun other => ?_⟩
  show ((s.releases.erase name).set id release).get other = _
  rw [Dict.get_set, Dict.get_erase, h.releases]
  by_cases hid : other = id
  · simp [hid]
  · by_cases hname : other = name
    · subst hname
      simp [hid, hnew]
    · simp [hid, hname]

theorem removeTree_total {place : Place} (hplace : plan place = .none)
    (hnew : b.releases.get name = none) :
    Total plan (fun s => ∃ release, Holding b name release s) (removeTree place name)
      fun _ s => Kept b s := by
  unfold removeTree
  refine Total.bind (Q := fun there s => (∃ release, Holding b name release s) ∧
    there = true) (Total.read fun s h => ?_) fun there => ?_
  · obtain ⟨release, h⟩ := h
    exact ⟨⟨release, h⟩, by rw [h.get]; rfl⟩
  · intro s h
    obtain ⟨⟨release, h⟩, rfl⟩ := h
    rw [if_pos rfl]
    exact Total.write (P := fun s => Holding b name release s) hplace
      (fun _ h => h.erase hnew) s h

/-- A directory that is not there is not removed. -/
theorem removeTree_absent {place : Place} (hnew : b.releases.get name = none) :
    Total plan (Kept b) (removeTree place name) fun _ s => Kept b s := by
  unfold removeTree
  refine Total.bind (Q := fun there s => Kept b s ∧ there = false) (Total.read fun s h => ?_)
    fun there => ?_
  · exact ⟨h, by rw [h.releases, hnew]; rfl⟩
  · intro s h
    obtain ⟨h, rfl⟩ := h
    exact Total.pure (fun _ h => h) s h

/-- The operations that fill the stage. -/
def copyPlaces : List Place := [.createStageBin, .copy, .permissions, .hashCopy, .smoke]

/-- The operations that publish it. -/
def publishPlaces : List Place := writing.map .provenance ++ [.publish]

/-- A failure of the operation is followed by the removal of the stage. -/
def Discards (plan : Place → Fault) (place : Place) : Prop :=
  plan .discardStage = .none ∧ (place ∈ [Step.write, .sync, .rename].map .provenance →
    plan (.provenance .cleanup) ≠ .stop)

theorem copyBinary_guarded (hstage : plan .createStage = .none)
    (hcopy : Mended plan (Discards plan) copyPlaces)
    (hsmoke : ∀ error, smoke host source.bytes = .error error → Calm plan copyPlaces →
      plan .discardStage = .none) :
    Guarded plan (fun s => Kept b s ∧ s.temporary = none) (copyBinary host source build)
      (fun version s => (smoke host source.bytes = .ok version ∧ Calm plan copyPlaces) ∧
        Holding b build.stage ⟨some ⟨source.bytes, source.executable⟩, none⟩ s ∧
          s.temporary = none)
      (fun s => (∃ release, Holding b build.stage release s) ∧ plan .discardStage = .none) := by
  have hfail : ∀ release place s, Holding b build.stage release s ∧ s.temporary = none →
      Discards plan place →
        (∃ release, Holding b build.stage release s) ∧ plan .discardStage = .none :=
    fun release place s h hp => ⟨⟨release, h.1⟩, hp.1⟩
  unfold copyBinary
  refine Guarded.bind (Q := fun _ s => Holding b build.stage ⟨none, none⟩ s ∧ s.temporary = none)
    (Total.write hstage fun s h => ⟨h.1.hold _ _, h.2⟩).guarded fun _ => ?_
  refine (Guarded.write hcopy (fun _ h => h) (hfail _ _)).bind fun _ =>
    Guarded.given fun ⟨hbin, hcopy⟩ => ?_
  refine (Guarded.write (Q := fun s =>
    Holding b build.stage ⟨some ⟨source.bytes, false⟩, none⟩ s ∧ s.temporary = none) hcopy
    (fun s h => ⟨h.1.change rfl, (change_temporary _ _ _).trans h.2⟩) (hfail _ _)).bind fun _ =>
      Guarded.given fun ⟨hwritten, hcopy⟩ => ?_
  refine (Guarded.write (Q := fun s =>
    Holding b build.stage ⟨some ⟨source.bytes, source.executable⟩, none⟩ s ∧ s.temporary = none)
    hcopy (fun s h => ⟨h.1.change rfl, (change_temporary _ _ _).trans h.2⟩) (hfail _ _)).bind
      fun _ => Guarded.given fun ⟨hmode, hcopy⟩ => ?_
  refine (Guarded.write hcopy (fun _ h => h) (hfail _ _)).bind fun _ =>
    Guarded.given fun ⟨hhash, hcopy⟩ => ?_
  refine (Guarded.write hcopy (fun _ h => h) (hfail _ _)).bind fun _ =>
    Guarded.given fun ⟨hrun, _⟩ => ?_
  have hcalm : Calm plan copyPlaces := by
    simp only [Calm, copyPlaces, List.forall_mem_cons]
    exact ⟨hbin, hwritten, hmode, hhash, hrun, nofun⟩
  exact Guarded.ofExcept (fun _ s hversion h => ⟨⟨hversion, hcalm⟩, h⟩) fun error s herror h =>
    ⟨⟨_, h.1⟩, hsmoke error herror hcalm⟩

/-- The names a run makes up are not among the releases. -/
structure Fresh (host : Host) (source : Source) (build : Build) (b : Root) : Prop where
  stage : b.releases.get build.stage = none
  release : ∀ version, b.releases.get (host.releaseId source build version) = none
  apart : ∀ version, host.releaseId source build version ≠ build.stage

/-- The release that a run makes. -/
def made (host : Host) (source : Source) (build : Build) (version : String) : Release where
  executable := some ⟨source.bytes, source.executable⟩
  provenance := some (host.provenance source build version)

theorem publishStage_guarded (hfresh : Fresh host source build b) (version : String)
    (hpublish : Mended plan (Discards plan) publishPlaces) :
    Guarded plan (fun s => Holding b build.stage ⟨some ⟨source.bytes, source.executable⟩, none⟩ s ∧
        s.temporary = none)
      (publishStage host source build version)
      (fun _ s => (Holding b (host.releaseId source build version)
        (made host source build version) s ∧ s.temporary = none) ∧ Calm plan publishPlaces)
      (fun s => (∃ release, Holding b build.stage release s) ∧ plan .discardStage = .none) := by
  have hplain : Plain (provenanceFile build.stage) := ⟨rfl, rfl⟩
  have hput : ∀ s, Holding b build.stage ⟨some ⟨source.bytes, source.executable⟩, none⟩ s →
      Holding b build.stage (made host source build version) ((provenanceFile build.stage).put
        (.provenance (host.provenance source build version)) s) := by
    intro s h
    have hset := h.set (made host source build version)
    simpa [provenanceFile, h.get, made] using hset
  have hwrite := (atomicJson_guarded (.provenance (host.provenance source build version)) hplain
    (M := plan .discardStage = .none) hpublish.left holding_steady hput holding_steady).known
      fun s u t hrun => (atomicJson_done _ hplain hrun).1
  unfold publishStage
  refine (hwrite.mono (fun _ h => h) (fun _ _ h => h) ?_).bind fun _ =>
    Guarded.given fun hwritten => ?_
  · intro s h
    exact ⟨h.1.1.elim (fun h => ⟨_, h⟩) fun h => ⟨_, h⟩, h.1.2⟩
  have hcalm : Calm plan (writing.map .provenance) := List.forall_mem_map.mpr hwritten
  refine Guarded.bind (Q := fun taken s => (Holding b build.stage
    (made host source build version) s ∧ s.temporary = none) ∧ taken = false)
    (Guarded.read fun s h => ⟨h, ?_⟩) fun taken => Guarded.given fun htaken => ?_
  · rw [h.1.releases, if_neg (hfresh.apart version), hfresh.release]
    rfl
  refine Guarded.bind (Q := fun _ s => Holding b build.stage (made host source build version) s ∧
    s.temporary = none) (Guarded.bailIf (fun _ _ h => h) fun s htrue _ => ?_) fun _ => ?_
  · rw [htaken] at htrue
    cases htrue
  refine (Guarded.write (hpublish.right hcalm) (fun s h => ?_) fun s h hp => ⟨⟨_, h.1⟩, hp.1⟩).mono
    (fun _ h => h) (fun _ s h => ⟨h.1, ?_⟩) fun _ h => h
  · simp only [h.1.get]
    exact ⟨h.1.rename hfresh.stage _, h.2⟩
  · intro place hplace
    obtain hplace | hplace := List.mem_append.mp hplace
    · exact hcalm place hplace
    · rw [List.mem_singleton.mp hplace]
      exact h.2.1

/-- A run that makes a stage publishes it or removes it again. -/
structure Stages (host : Host) (source : Source) (plan : Place → Fault) : Prop where
  copied : Mended plan (Discards plan) copyPlaces
  rejected : ∀ error, smoke host source.bytes = .error error → Calm plan copyPlaces →
    plan .discardStage = .none
  published : ∀ version, smoke host source.bytes = .ok version → Calm plan copyPlaces →
    Mended plan (Discards plan) publishPlaces

theorem fillStage_spec (hfresh : Fresh host source build b)
    (hcut : plan .createStage = .none → Stages host source plan) :
    Spec (fun s => Kept b s ∧ s.temporary = none)
      ((Prog.onFailure (fillStage host source build)
        (removeTree .discardStage build.stage)).under plan)
      (fun version s => (Holding b (host.releaseId source build version)
        (made host source build version) s ∧ s.temporary = none) ∧
          smoke host source.bytes = .ok version ∧
            Calm plan (.createStage :: copyPlaces ++ publishPlaces))
      (Kept b) := by
  by_cases hstage : plan .createStage = .none
  · have hstages := hcut hstage
    have hfill : Guarded plan (fun s => Kept b s ∧ s.temporary = none)
        (fillStage host source build)
        (fun version s => (Holding b (host.releaseId source build version)
          (made host source build version) s ∧ s.temporary = none) ∧
            smoke host source.bytes = .ok version ∧
              Calm plan (.createStage :: copyPlaces ++ publishPlaces))
        (fun s => (∃ release, Holding b build.stage release s) ∧ plan .discardStage = .none) := by
      unfold fillStage
      refine (copyBinary_guarded hstage hstages.copied hstages.rejected).bind fun version => ?_
      refine Guarded.mono (P := fun s => (Holding b build.stage
        ⟨some ⟨source.bytes, source.executable⟩, none⟩ s ∧ s.temporary = none) ∧
          (smoke host source.bytes = .ok version ∧ Calm plan copyPlaces)) (Guarded.given
            fun hcopied => ?_) (fun s h => ⟨h.2, h.1⟩) (fun _ _ h => h) fun _ h => h
      refine (publishStage_guarded hfresh version
        (hstages.published version hcopied.1 hcopied.2)).bind fun _ => Guarded.pure fun s h => ?_
      refine ⟨h.1, hcopied.1, ?_⟩
      rw [List.cons_append]
      refine List.forall_mem_cons.mpr ⟨hstage, fun place hplace => ?_⟩
      exact (List.mem_append.mp hplace).elim (hcopied.2 place) (h.2 place)
    exact (hfill.onFailure fun s h => removeTree_total h.2 hfresh.stage s h.1).spec
  · refine Spec.onFailure ?_ (removeTree_absent hfresh.stage).spec
    refine Spec.mono (Q := fun _ _ => False) ?_ (fun s h => h.1) (fun _ _ h => h.elim)
      fun _ h => h
    unfold fillStage copyBinary
    rw [under_bind, under_bind]
    exact Spec.bind (Q := fun _ _ => False) (Spec.bind (Q := fun _ _ => False)
      (Spec.blocked hstage) fun _ _ _ h => h.elim) fun _ _ _ h => h.elim

/-- The record of the release that a run makes. -/
def recordOf (host : Host) (source : Source) (build : Build) (version : String) : Record where
  id := host.releaseId source build version
  version := version
  sha256 := host.sha256 source.bytes
  sourceSha256 := host.sha256 source.bytes
  validatedAt := build.validatedAt
  files := (made host source build version).inventory host

/-- The operations before a run makes its stage. -/
def preparePlaces : List Place := [.checkSource, .hashSource, .createReleases]

/-- The operations up to the publication of a release. -/
def stagePlaces : List Place := preparePlaces ++ (.createStage :: copyPlaces ++ publishPlaces)

/-- The operations of a release that is published and not registered. -/
def inspectPlaces : List Place := [.syncReleases, .inventory]

theorem inspectRelease_spec (hfresh : Fresh host source build b) (version : String)
    (hinspect : Mended plan (fun _ => plan .discardRelease = .none) inspectPlaces) :
    Spec (fun s => Holding b (host.releaseId source build version)
        (made host source build version) s ∧ s.temporary = none)
      ((Prog.onFailure (inspectRelease host source build version)
        (removeTree .discardRelease (host.releaseId source build version))).under plan)
      (fun record s => (Holding b (host.releaseId source build version)
        (made host source build version) s ∧ s.temporary = none) ∧
          record = recordOf host source build version ∧ Calm plan inspectPlaces)
      (Kept b) := by
  have hfail : ∀ s, Holding b (host.releaseId source build version)
      (made host source build version) s ∧ s.temporary = none → plan .discardRelease = .none →
        (∃ release, Holding b (host.releaseId source build version) release s) ∧
          plan Place.discardRelease = .none :=
    fun s h hp => ⟨⟨_, h.1⟩, hp⟩
  have hguarded : Guarded plan (fun s => Holding b (host.releaseId source build version)
        (made host source build version) s ∧ s.temporary = none)
      (inspectRelease host source build version)
      (fun record s => (Holding b (host.releaseId source build version)
        (made host source build version) s ∧ s.temporary = none) ∧
          record = recordOf host source build version ∧ Calm plan inspectPlaces)
      (fun s => (∃ release, Holding b (host.releaseId source build version) release s) ∧
        plan Place.discardRelease = .none) := by
    unfold inspectRelease
    refine (Guarded.write hinspect (fun _ h => h) hfail).bind fun _ =>
      Guarded.given fun ⟨hsync, hrest⟩ => ?_
    refine (Guarded.write hrest (fun _ h => h) hfail).bind fun _ =>
      Guarded.given fun ⟨hinventory, _⟩ => ?_
    refine Guarded.bind (Q := fun files s => (Holding b (host.releaseId source build version)
      (made host source build version) s ∧ s.temporary = none) ∧
        files = (made host source build version).inventory host)
      (Guarded.read fun s h => ⟨h, by rw [h.1.get]; rfl⟩) fun files => Guarded.pure fun s h => ?_
    refine ⟨h.1, by rw [h.2]; rfl, ?_⟩
    simp only [Calm, inspectPlaces, List.forall_mem_cons]
    exact ⟨hsync, hinventory, nofun⟩
  exact (hguarded.onFailure fun s h =>
    removeTree_total h.2 (hfresh.release version) s h.1).spec

/-- The binary passes every check, and answers with its version. -/
structure Accepted (host : Host) (source : Source) (version : String) : Prop where
  source_ok : checkSource source = .ok ()
  expected : checkExpected host source = .ok ()
  smoked : smoke host source.bytes = .ok version

theorem prepareRelease_spec (hfresh : Fresh host source build b)
    (hstage : checkSource source = .ok () → checkExpected host source = .ok () →
      Calm plan (preparePlaces ++ [.createStage]) → Stages host source plan)
    (hinspect : ∀ version, Accepted host source version → Calm plan stagePlaces →
      Mended plan (fun _ => plan .discardRelease = .none) inspectPlaces) :
    Spec (fun s => Kept b s ∧ s.temporary = none)
      ((prepareRelease host source build).under plan)
      (fun record s => (∃ version, Accepted host source version ∧
        record = recordOf host source build version ∧
          Holding b record.id (made host source build version) s ∧ s.temporary = none) ∧
            Calm plan (stagePlaces ++ inspectPlaces))
      (Kept b) := by
  have hkept : ∀ s, Kept b s ∧ s.temporary = none → Kept b s := fun _ h => h.1
  unfold prepareRelease
  rw [under_bind]
  refine Spec.bind (Spec.known (c := fun _ => plan .checkSource = .none)
    ((Spec.write (fun _ h => h) hkept).under plan) fun s u t hrun => (write_done.mp hrun).1)
      fun _ => Spec.given fun hcheck => ?_
  rw [under_bind]
  refine Spec.bind ((ofExcept_spec hkept).under plan) fun _ => Spec.given fun hsource => ?_
  rw [under_bind]
  refine Spec.bind (Spec.known (c := fun _ => plan .hashSource = .none)
    ((Spec.write (fun _ h => h) hkept).under plan) fun s u t hrun => (write_done.mp hrun).1)
      fun _ => Spec.given fun hhash => ?_
  rw [under_bind]
  refine Spec.bind ((ofExcept_spec hkept).under plan) fun _ => Spec.given fun hexpected => ?_
  rw [under_bind]
  refine Spec.bind (Spec.known (c := fun _ => plan .createReleases = .none) ((Spec.write
    (Q := fun s => Kept b s ∧ s.temporary = none) (fun s h => ⟨⟨h.1.marker, h.1.service,
      h.1.current, h.1.launcher, h.1.releases⟩, h.2⟩) hkept).under plan) fun s u t hrun =>
        (write_done.mp hrun).1) fun _ => Spec.given fun hreleases => ?_
  have hprepare : Calm plan preparePlaces := by
    simp only [Calm, preparePlaces, List.forall_mem_cons]
    exact ⟨hcheck, hhash, hreleases, nofun⟩
  rw [under_bind]
  refine Spec.bind (fillStage_spec hfresh fun hcreate => hstage hsource hexpected ?_)
    fun version => Spec.given fun hfilled => ?_
  · intro place hplace
    obtain hplace | hplace := List.mem_append.mp hplace
    · exact hprepare place hplace
    · rw [List.mem_singleton.mp hplace]
      exact hcreate
  have hstaged : Calm plan stagePlaces := by
    intro place hplace
    exact (List.mem_append.mp hplace).elim (hprepare place) (hfilled.2 place)
  have haccepted : Accepted host source version := ⟨hsource, hexpected, hfilled.1⟩
  refine (inspectRelease_spec hfresh version (hinspect version haccepted hstaged)).mono
    (fun _ h => h) (fun record s h => ?_) fun _ h => h
  obtain ⟨⟨hholding, hnone⟩, rfl, hcalm⟩ := h
  refine ⟨⟨version, haccepted, rfl, hholding, hnone⟩, fun place hplace => ?_⟩
  exact (List.mem_append.mp hplace).elim (hstaged place) (hcalm place)

/-- A release as it was made is what its record says. -/
theorem verify_made {version : String} (haccepted : Accepted host source version)
    (hmade : s.releases.get (host.releaseId source build version) =
      some (made host source build version)) :
    verifyRelease host s (recordOf host source build version) = .ok () := by
  obtain ⟨hsource, -, hversion⟩ := haccepted
  have hexecutable : source.executable = true := by
    unfold checkSource at hsource
    split at hsource
    · cases hsource
    split at hsource
    · cases hsource
    · rename_i h
      simpa using h
  have hsmoke : host.smoke source.bytes = .ok version := by
    unfold smoke at hversion
    split at hversion
    · rename_i v hv
      rw [hv, Except.ok.inj hversion]
    · cases hversion
  simp only [verifyRelease, recordOf, hmade, ne_eq, not_true_eq_false, if_false, made,
    Host.provenance, or_self, checkBinary, hexecutable, hsmoke, Bool.true_eq_false]

end staging

/-! ## The registration -/

section registering

variable {host : Host} {b s : Root} {records : List Record} {record : Record} {release : Release}
  {plan : Place → Fault}

/-- The prefix once the release is registered, with what the links were. -/
def registered (b : Root) (records : List Record) (record : Record) : Root :=
  { b with marker := some (records ++ [record]) }

theorem Holding.register (h : Holding b record.id release s) :
    Holding (registered b records record) record.id release
      ((markerFile .register).put (.marker (records ++ [record])) s) :=
  ⟨rfl, h.service, h.current, h.launcher, h.releases⟩

/-- A failure of the operation is followed by the removal of the release. -/
def Unregisters (plan : Place → Fault) (place : Place) : Prop :=
  plan .unregister = .none ∧ (place ∈ [Step.write, .sync, .rename].map .register →
    plan (.register .cleanup) ≠ .stop)

/-- A directory that cannot be removed stays. -/
theorem removeTree_blocked {I : Root → Prop} {place : Place} {name : String}
    (hplace : plan place ≠ .none) :
    Spec I ((removeTree place name).under plan) (fun _ => I) I := by
  unfold removeTree
  rw [under_bind]
  refine Spec.bind (((Spec.read _).mono (fun _ h => h) (fun _ _ h => h.1)
    fun _ h => h).under plan) fun there => ?_
  cases there with
  | true => exact (Spec.blocked hplace).mono (fun _ h => h) (fun _ _ h => h.elim) fun _ h => h
  | false =>
      have hpure : Spec I (pure () : Run Unit) (fun _ => I) I := Spec.pure fun _ h => h
      exact hpure.under plan

/-- A release that could not be registered is removed; one that is stays, unless a failure right
after the registration removes it. -/
theorem register_spec (records : List Record) (release : Release) (hnew : b.releases.get record.id = none)
    (hmended : Mended plan (Unregisters plan) (replacing.map .register))
    (hcommit : Calm plan (replacing.map .register) → plan (.register .syncDir) = .error →
      plan .unregister ≠ .none) :
    Spec (fun s => Holding b record.id release s ∧ s.temporary = none)
      ((Prog.onFailure (atomicJson (markerFile .register) (.marker (records ++ [record])))
        (removeTree .unregister record.id)).under plan)
      (fun _ s => Holding (registered b records record) record.id release s ∧
        Calm plan (writing.map .register))
      (fun s => Kept b s ∨ Calm plan (replacing.map .register) ∧
        plan (.register .syncDir) ≠ .none ∧
          Holding (registered b records record) record.id release s) := by
  have hplain : Plain (markerFile .register) := ⟨rfl, rfl⟩
  have hput : ∀ s, Holding b record.id release s →
      Holding (registered b records record) record.id release
        ((markerFile .register).put (.marker (records ++ [record])) s) := fun s h => h.register
  by_cases hcalm : ∀ step ∈ replacing, plan (.register step) = .none
  · have hreplaced : Calm plan (replacing.map .register) := List.forall_mem_map.mpr hcalm
    have hdone := (atomicJson_replaced (.marker (records ++ [record])) hplain holding_steady hput
      holding_steady hcalm).ends fun s u t hrun => (atomicJson_done _ hplain hrun).1
    cases hdir : plan (.register .syncDir) with
    | none =>
        have hall : ∀ step ∈ writing, plan (.register step) = .none := by
          simp only [writing, List.forall_mem_cons]
          simp only [replacing, List.forall_mem_cons] at hcalm
          exact ⟨hcalm.1, hcalm.2.1, hcalm.2.2.1, hcalm.2.2.2.1, hdir, List.forall_mem_nil _⟩
        have htotal : Total plan (Holding b record.id release)
            (atomicJson (markerFile .register) (.marker (records ++ [record])))
            fun _ => Holding (registered b records record) record.id release :=
          atomicJson_total _ hplain holding_steady hput holding_steady hall
        refine (Guarded.onFailure (F := fun _ => False) htotal.guarded fun _ h => h.elim).spec.mono
          (fun _ h => h.1) (fun _ s h => ⟨h, List.forall_mem_map.mpr hall⟩) fun _ h => h
    | error =>
        -- the handler would remove a release that is registered, but cannot
        refine Spec.mono (Spec.onFailure (hdone.mono (fun _ h => h) (fun _ _ h => h) fun _ h => h)
          (removeTree_blocked (hcommit hreplaced hdir))) (fun _ h => h.1)
            (fun _ s h => ⟨h.1, List.forall_mem_map.mpr h.2⟩)
              fun s h => Or.inr ⟨hreplaced, by simp, h⟩
    | stop =>
        refine Spec.mono (hdone.unhandled fun s e t _ => ?_) (fun _ h => h.1)
          (fun _ s h => ⟨h.1, List.forall_mem_map.mpr h.2⟩)
            fun s h => Or.inr ⟨hreplaced, by simp, h⟩
        refine Faults.Replace.replace_not_failed hcalm ?_
        rw [show (markerFile .register).place .syncDir = .register .syncDir from rfl, hdir]
        exact Faults.Fault.noConfusion
  · have hsafe : Faults.Replace.Safe (markerFile .register) plan (plan .unregister = .none)
        writing :=
      hmended.extend (fun hall => hcalm (List.forall_mem_map.mp hall)) [.register .syncDir]
    have hsteady : Steady (Holding b record.id release) := holding_steady
    have hguarded := (atomicJson_guarded (.marker (records ++ [record])) hplain hsafe hsteady hput
      holding_steady).and (atomicJson_untouched _ hplain hsteady hcalm)
    have hhandled : Guarded plan _ (Prog.onFailure (atomicJson (markerFile .register)
        (.marker (records ++ [record]))) (removeTree .unregister record.id)) _ (Kept b) :=
      hguarded.onFailure fun s h => removeTree_total h.1.1.2 hnew s ⟨release, h.2⟩
    exact hhandled.spec.mono (fun s h => ⟨h, h.1⟩) (fun _ _ h => h.2.elim) fun _ h => Or.inl h

end registering

end Releases

end Install

end CodexMonitor
