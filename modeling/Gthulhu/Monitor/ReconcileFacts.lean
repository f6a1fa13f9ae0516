/-
What a reconcile leaves in `monitored_pids`. If no map operation fails, it is
the processes in `/proc` whose pod an enabled spec matches, and the watcher's
tracked set is the same (`reconcilePIDs_exact`).

`/proc` lists processes, not threads, and `monitored_tgids` is never written:
of a process with several threads only the first one passes the filter
(`threads_pass_iff`, `second_thread_unmonitored`). A spec's command regex is
not looked at (`commandRegex_limits_iff`, `commandRegex_ignored`).
-/
import Gthulhu.Monitor.Watcher

namespace Gthulhu.Monitor

open Lib List AList
open DecisionMaker (DirEntry)

/-! ## What is wanted -/

/-- A spec selects a pod: by namespace, and by every label selector that has a
key. -/
structure Selects (psm : PodSchedulingMetrics) (ref : PodRef) : Prop where
  namespaces : psm.k8sNamespaces = [] ∨ ref.k8sNamespace ∈ psm.k8sNamespaces
  labels : ∀ sel ∈ psm.labelSelectors, sel.key ≠ "" → ref.labels.lookup sel.key = some sel.value

theorem psmMatchesPod_iff {psm ref} :
    psmMatchesPod psm ref = true ↔ Selects psm ref := by
  have hlabels : (∀ sel ∈ psm.labelSelectors, sel.key = "" ∨ ref.labels.lookup sel.key = some sel.value) ↔
      ∀ sel ∈ psm.labelSelectors, sel.key ≠ "" → ref.labels.lookup sel.key = some sel.value :=
    forall₂_congr fun sel _ => or_iff_not_imp_left
  simp only [psmMatchesPod, Bool.and_eq_true, Bool.or_eq_true, List.isEmpty_iff, List.contains_iff_mem, List.all_eq_true,
    decide_eq_true_eq, hlabels]
  exact ⟨fun h => ⟨h.1, h.2⟩, fun h => ⟨h.1, h.2⟩⟩

/-- Each pod is indexed under its own UID. -/
def PodMapper.OwnUIDs (m : PodMapper) : Prop := ∀ uid ref, m.podIndex.lookup uid = some ref → ref.podUID = uid

namespace Watcher

/-- An enabled spec selects the pod of a process. -/
def Selected (w : Watcher) (reads : ProcReads) (pid : UInt32) : Prop :=
  ∃ ref, w.podMapper.resolvePIDtoPod reads pid = some ref ∧
    ∃ name psm, w.specs.lookup name = some psm ∧ psm.enabled = true ∧ Selects psm ref

/-- A process of `/proc` in such a pod. -/
def Wanted (w : Watcher) (reads : ProcReads) (entries : List DirEntry) (pid : UInt32) : Prop :=
  (∃ entry ∈ entries, procPID entry = some pid) ∧ w.Selected reads pid

/-- The BPF map and the tracked set hold the same PIDs. -/
def Agree (w : Watcher) : Prop := ∀ pid, pid ∈ w.filter.entries ↔ pid ∈ w.monitoredPIDs

theorem mem_desiredPods {w : Watcher} {uid} :
    uid ∈ w.desiredPods ↔
      ∃ name psm ref, w.specs.lookup name = some psm ∧ psm.enabled = true ∧
        w.podMapper.podIndex.lookup uid = some ref ∧ Selects psm ref := by
  simp only [desiredPods, mem_flatMap, mem_filter, mem_map]
  constructor
  · rintro ⟨psm, ⟨⟨spec, hspec, rfl⟩, henabled⟩, pod, ⟨hpod, hmatch⟩, rfl⟩
    exact ⟨spec.1, spec.2, pod.2, mem_lookup_iff.mpr hspec, henabled, mem_lookup_iff.mpr hpod,
      psmMatchesPod_iff.mp hmatch⟩
  · rintro ⟨name, psm, ref, hspec, henabled, hpod, hselects⟩
    exact ⟨psm, ⟨⟨⟨name, psm⟩, mem_lookup_iff.mp hspec, rfl⟩, henabled⟩, ⟨uid, ref⟩,
      ⟨mem_lookup_iff.mp hpod, psmMatchesPod_iff.mpr hselects⟩, rfl⟩

/-- The pod a process resolves to is in the index under its UID. -/
theorem lookup_of_resolve {m : PodMapper} (hown : m.OwnUIDs) {reads pid ref}
    (h : m.resolvePIDtoPod reads pid = some ref) : m.podIndex.lookup ref.podUID = some ref := by
  obtain ⟨lines, -, hline⟩ := Option.bind_eq_some_iff.mp h
  obtain ⟨line, -, hfound⟩ := exists_of_findSome?_eq_some hline
  split at hfound
  · cases hfound
  · rw [hown _ _ hfound]
    exact hfound

theorem podUID_mem_desiredPods {w : Watcher} (hown : w.podMapper.OwnUIDs) {reads pid ref}
    (h : w.podMapper.resolvePIDtoPod reads pid = some ref) :
    ref.podUID ∈ w.desiredPods ↔ w.Selected reads pid := by
  have hindexed := lookup_of_resolve hown h
  rw [mem_desiredPods]
  constructor
  · rintro ⟨name, psm, ref', hspec, henabled, hpod, hselects⟩
    cases hindexed.symm.trans hpod
    exact ⟨ref, h, name, psm, hspec, henabled, hselects⟩
  · rintro ⟨ref', h', name, psm, hspec, henabled, hselects⟩
    cases h.symm.trans h'
    exact ⟨name, psm, ref, hspec, henabled, hindexed, hselects⟩

/-! ## The loops -/

section Loops

variable {reads : ProcReads} {fault : UInt32 → Option Nat} {desired : List String} {w w' : Watcher}
  {warnings warnings' : List Warning} {pid : UInt32}

/-- The pod that the mapper gives for a PID is wanted. -/
def Desires (reads : ProcReads) (desired : List String) (w : Watcher) (pid : UInt32) : Prop :=
  ∃ ref, w.podMapper.podFor reads pid = some ref ∧ ref.podUID ∈ desired

/-- The mapper answers as before. -/
structure SameAnswers (reads : ProcReads) (w w' : Watcher) : Prop where
  specs : w'.specs = w.specs
  podIndex : w'.podMapper.podIndex = w.podMapper.podIndex
  podFor : ∀ pid, w'.podMapper.podFor reads pid = w.podMapper.podFor reads pid

theorem SameAnswers.trans {w1 w2 w3} (h : SameAnswers reads w1 w2) (h' : SameAnswers reads w2 w3) :
    SameAnswers reads w1 w3 :=
  ⟨h'.specs.trans h.specs, h'.podIndex.trans h.podIndex, fun pid => (h'.podFor pid).trans (h.podFor pid)⟩

theorem SameAnswers.desires {w1 w2} (h : SameAnswers reads w1 w2) (pid : UInt32) :
    Desires reads desired w2 pid ↔ Desires reads desired w1 pid := by
  simp only [Desires, h.podFor]

/-- One mapped PID: it is pushed, removed, or left alone, with a warning if its
map operation fails. -/
theorem syncPID_cases (h : syncPID reads fault desired (w, warnings) pid = (w', warnings')) :
    SameAnswers reads w w' ∧
      ((Desires reads desired w pid ∧ addMonitoredPID (fault pid) w.filter pid = .ok w'.filter ∧
          w'.monitoredPIDs = w.monitoredPIDs.insert pid () ∧ warnings' = warnings) ∨
        (¬Desires reads desired w pid ∧ pid ∈ w.monitoredPIDs ∧
          removeMonitoredPID (fault pid) w.filter pid = .ok w'.filter ∧
          w'.monitoredPIDs = w.monitoredPIDs.erase pid ∧ warnings' = warnings) ∨
        (w'.filter = w.filter ∧ w'.monitoredPIDs = w.monitoredPIDs ∧
          ((¬Desires reads desired w pid ∧ (w.podMapper.podFor reads pid ≠ none → pid ∉ w.monitoredPIDs) ∧
            warnings' = warnings) ∨ ∃ warning, warnings' = warning :: warnings))) := by
  unfold syncPID at h
  have hindex := w.podMapper.getPodForPID_podIndex reads pid
  have hanswers := w.podMapper.podFor_getPodForPID reads pid
  have hpod : w.podMapper.podFor reads pid = (w.podMapper.getPodForPID reads pid).2 := rfl
  cases hget : w.podMapper.getPodForPID reads pid with
  | mk podMapper podRef =>
    rw [hget] at hindex hanswers hpod
    simp only [hget] at h
    cases podRef with
    | none =>
      cases h
      refine ⟨⟨rfl, hindex, hanswers⟩, .inr (.inr ⟨rfl, rfl, .inl ⟨?_, fun hne => absurd hpod hne, rfl⟩⟩)⟩
      simp [Desires, hpod]
    | some ref =>
      have hdesires : Desires reads desired w pid ↔ ref.podUID ∈ desired := by
        simp only [Desires, hpod]
        exact ⟨fun ⟨_, heq, hmem⟩ => Option.some.inj heq ▸ hmem, fun hmem => ⟨ref, rfl, hmem⟩⟩
      rw [hdesires]
      dsimp only at h
      split at h
      case isTrue hmem =>
        split at h
        case h_1 err hadd =>
          cases h
          exact ⟨⟨rfl, hindex, hanswers⟩, .inr (.inr ⟨rfl, rfl, .inr ⟨_, rfl⟩⟩)⟩
        case h_2 filter hadd =>
          cases h
          exact ⟨⟨rfl, hindex, hanswers⟩, .inl ⟨hmem, hadd, rfl, rfl⟩⟩
      case isFalse hmem =>
        split at h
        case isTrue htracked =>
          split at h
          case h_1 err hremove =>
            cases h
            exact ⟨⟨rfl, hindex, hanswers⟩, .inr (.inr ⟨rfl, rfl, .inr ⟨_, rfl⟩⟩)⟩
          case h_2 filter hremove =>
            cases h
            exact ⟨⟨rfl, hindex, hanswers⟩, .inr (.inl ⟨hmem, htracked, hremove, rfl, rfl⟩)⟩
        case isFalse htracked =>
          cases h
          exact ⟨⟨rfl, hindex, hanswers⟩, .inr (.inr ⟨rfl, rfl, .inl ⟨hmem, fun _ => htracked, rfl⟩⟩)⟩

/-- A PID in the map that the watcher does not track: it leaves it there. -/
def Untracked (w : Watcher) (pid : UInt32) : Prop := pid ∈ w.filter.entries ∧ pid ∉ w.monitoredPIDs

/-- Afterwards the PID is tracked exactly if it is wanted, and in the map
exactly if it is wanted or was there untracked. -/
theorem syncPID_ok (h : syncPID reads fault desired (w, warnings) pid = (w', []))
    (hmapped : w.podMapper.podFor reads pid ≠ none) :
    (∀ q, q ∈ w'.monitoredPIDs ↔ if q = pid then Desires reads desired w pid else q ∈ w.monitoredPIDs) ∧
      ∀ q, q ∈ w'.filter.entries ↔
        if q = pid then Desires reads desired w pid ∨ w.Untracked pid else q ∈ w.filter.entries := by
  obtain ⟨-, hcases⟩ := syncPID_cases h
  obtain ⟨hd, hadd, htracked, -⟩ | ⟨hd, hin, hremove, htracked, -⟩ | ⟨hfilter, htracked, ⟨hd, hout, -⟩ | ⟨_, hwarn⟩⟩ := hcases
  · simp only [htracked, mem_insert, mem_addMonitoredPID hadd]
    refine ⟨fun q => ?_, fun q => ?_⟩ <;> by_cases hq : q = pid <;> simp [hq, hd]
  · simp only [htracked, mem_erase, mem_removeMonitoredPID hremove, Untracked]
    refine ⟨fun q => ?_, fun q => ?_⟩ <;> by_cases hq : q = pid <;> simp [hq, hd, hin]
  · simp only [htracked, hfilter, Untracked]
    refine ⟨fun q => ?_, fun q => ?_⟩ <;> by_cases hq : q = pid <;> simp [hq, hd, hout hmapped]
  · cases hwarn

/-- Warnings are only added. -/
theorem warnings_syncPID (state : Watcher × List Warning) (pid : UInt32) :
    state.2 <:+ (syncPID reads fault desired state pid).2 := by
  obtain ⟨w, warnings⟩ := state
  obtain ⟨-, hcases⟩ := syncPID_cases (Prod.eta (syncPID reads fault desired (w, warnings) pid)).symm
  obtain ⟨-, -, -, h⟩ | ⟨-, -, -, -, h⟩ | ⟨-, -, ⟨-, -, h⟩ | ⟨_, h⟩⟩ := hcases <;> simp [h]

theorem warnings_dropVanished (mapped : List UInt32) (state : Watcher × List Warning) (pid : UInt32) :
    state.2 <:+ (dropVanished fault mapped state pid).2 := by
  unfold dropVanished
  dsimp only
  split
  · exact suffix_rfl
  · split
    · exact suffix_cons ..
    · exact suffix_rfl

/-- A loop that ends without warnings had none on the way. -/
theorem no_warnings {f} {pids : List UInt32} (h : pids.foldl f (w, warnings) = (w', []))
    (hf : ∀ state pid, state.2 <:+ (f state pid).2) : warnings = [] := by
  have hgrow : ∀ (pids : List UInt32) (state : Watcher × List Warning), state.2 <:+ (pids.foldl f state).2 := by
    intro pids
    induction pids with
    | nil => exact fun _ => suffix_rfl
    | cons pid pids ih => exact fun state => (hf state pid).trans (ih (f state pid))
  have hsuffix := hgrow pids (w, warnings)
  rw [h] at hsuffix
  exact suffix_nil.mp hsuffix

/-- The loop over the mapped PIDs. -/
theorem foldl_syncPID_ok : ∀ {mapped : List UInt32} {w : Watcher},
    mapped.foldl (syncPID reads fault desired) (w, []) = (w', []) →
    (∀ pid ∈ mapped, w.podMapper.podFor reads pid ≠ none) →
    SameAnswers reads w w' ∧
      (∀ q, q ∈ w'.monitoredPIDs ↔ if q ∈ mapped then Desires reads desired w q else q ∈ w.monitoredPIDs) ∧
      ∀ q, q ∈ w'.filter.entries ↔
        if q ∈ mapped then Desires reads desired w q ∨ w.Untracked q else q ∈ w.filter.entries
  | [], w, h, _ => by
    cases h
    exact ⟨⟨rfl, rfl, fun _ => rfl⟩, fun q => by simp, fun q => by simp⟩
  | pid :: mapped, w, h, hmapped => by
    rw [foldl_cons] at h
    cases hstep : syncPID reads fault desired (w, []) pid with
    | mk w1 warnings1 =>
      rw [hstep] at h
      cases no_warnings h warnings_syncPID
      have hpod := hmapped pid mem_cons_self
      obtain ⟨hsame1, -⟩ := syncPID_cases hstep
      obtain ⟨htracked1, hfilter1⟩ := syncPID_ok hstep hpod
      have hmapped1 : ∀ pid ∈ mapped, w1.podMapper.podFor reads pid ≠ none := by
        intro q hq
        rw [hsame1.podFor]
        exact hmapped q (mem_cons_of_mem pid hq)
      obtain ⟨hsame, htracked, hfilter⟩ := foldl_syncPID_ok h hmapped1
      refine ⟨hsame1.trans hsame, fun q => ?_, fun q => ?_⟩
      · rw [htracked, hsame1.desires, htracked1]
        by_cases hin : q ∈ mapped
        · simp [hin]
        · by_cases hq : q = pid <;> simp [hin, hq]
      · rw [hfilter, hsame1.desires, Untracked, htracked1, hfilter1]
        by_cases hq : q = pid
        · subst hq
          by_cases hin : q ∈ mapped
          · simp only [hin, if_true, mem_cons, or_true]
            tauto
          · simp [hin]
        · simp only [hq, if_false, mem_cons, false_or]
          rfl

/-- One tracked PID: it stays tracked exactly if it is mapped, and stays in the
map also if it cannot be removed. -/
theorem dropVanished_cases {mapped} (h : dropVanished fault mapped (w, warnings) pid = (w', warnings')) :
    w'.podMapper = w.podMapper ∧ w'.specs = w.specs ∧
      (∀ q, q ∈ w'.monitoredPIDs ↔ q ∈ w.monitoredPIDs ∧ (q = pid → q ∈ mapped)) ∧
      (∀ q, q ∈ w'.filter.entries ↔ q ∈ w.filter.entries ∧ (q = pid → q ∈ mapped ∨ fault q ≠ none)) ∧
      (warnings' = [] → pid ∉ mapped → fault pid = none) := by
  unfold dropVanished at h
  split at h
  case isTrue hin =>
    cases h
    have hstays : ∀ q, q = pid → q ∈ mapped := fun q hq => hq ▸ hin
    exact ⟨rfl, rfl, fun q => (and_iff_left (hstays q)).symm, fun q => (and_iff_left fun hq => .inl (hstays q hq)).symm,
      fun _ hnot => absurd hin hnot⟩
  case isFalse hout =>
    dsimp only at h
    split at h
    case h_1 err hremove =>
      cases h
      have hfault : fault pid ≠ none := by
        intro hnone
        rw [hnone] at hremove
        exact removeMonitoredPID_none hremove
      refine ⟨rfl, rfl, fun q => ?_, fun q => (and_iff_left fun hq => .inr (hq ▸ hfault)).symm, fun hnil => by cases hnil⟩
      by_cases hq : q = pid <;> simp [hq, hout]
    case h_2 filter hremove =>
      cases h
      have hfault : fault pid = none := by
        cases hf : fault pid with
        | none => rfl
        | some code =>
          rw [hf] at hremove
          cases hremove
      refine ⟨rfl, rfl, fun q => ?_, fun q => ?_, fun _ _ => hfault⟩
      · by_cases hq : q = pid <;> simp [hq, hout]
      · rw [mem_removeMonitoredPID hremove]
        by_cases hq : q = pid <;> simp [hq, hout, hfault]

/-- The loop over the tracked PIDs. -/
theorem foldl_dropVanished {mapped} : ∀ {tracked : List UInt32} {w : Watcher} {warnings : List Warning},
    tracked.foldl (dropVanished fault mapped) (w, warnings) = (w', warnings') →
    w'.podMapper = w.podMapper ∧ w'.specs = w.specs ∧
      (∀ q, q ∈ w'.monitoredPIDs ↔ q ∈ w.monitoredPIDs ∧ (q ∈ tracked → q ∈ mapped)) ∧
      (∀ q, q ∈ w'.filter.entries ↔ q ∈ w.filter.entries ∧ (q ∈ tracked → q ∈ mapped ∨ fault q ≠ none)) ∧
      (warnings' = [] → ∀ q, (q ∈ tracked → q ∈ mapped ∨ fault q ≠ none) ↔ (q ∈ tracked → q ∈ mapped))
  | [], w, _, h => by
    cases h
    exact ⟨rfl, rfl, fun q => by simp, fun q => by simp, fun _ q => by simp⟩
  | pid :: tracked, w, warnings, h => by
    rw [foldl_cons] at h
    cases hstep : dropVanished fault mapped (w, warnings) pid with
    | mk w1 warnings1 =>
      rw [hstep] at h
      obtain ⟨hmapper1, hspecs1, htracked1, hfilter1, hnone1⟩ := dropVanished_cases hstep
      obtain ⟨hmapper, hspecs, htracked, hfilter, hnone⟩ := foldl_dropVanished h
      refine ⟨hmapper.trans hmapper1, hspecs.trans hspecs1, fun q => ?_, fun q => ?_, fun hwarn q => ?_⟩
      · rw [htracked, htracked1, mem_cons, or_imp, and_assoc]
      · rw [hfilter, hfilter1, mem_cons, or_imp, and_assoc]
      · subst hwarn
        have hpid := hnone1 (no_warnings h (warnings_dropVanished mapped))
        rw [mem_cons, or_imp, or_imp, hnone rfl q]
        refine and_congr_left fun _ => forall_congr' fun heq => ?_
        subst heq
        exact ⟨fun hq => hq.elim id fun hfault => by_contra fun hnot => hfault (hpid hnot), .inl⟩

end Loops

/-! ## A whole reconcile -/

section Reconcile

variable {reads : ProcReads} {entries : List DirEntry} {fault : UInt32 → Option Nat} {order order' : List Nat}
  {w w' : Watcher}

/-- The watcher after the scan. -/
def scanned (w : Watcher) (reads : ProcReads) : Watcher := { w with podMapper := w.podMapper.scanAllPIDs reads }

/-- The watcher after the loop over the mapped PIDs. -/
def synced (w : Watcher) (reads : ProcReads) (fault : UInt32 → Option Nat) (order : List Nat) : Watcher × List Warning :=
  ((w.scanned reads).podMapper.listMappedPIDs order).foldl (syncPID reads fault (w.scanned reads).desiredPods)
    (w.scanned reads, [])

theorem reconcilePIDs_eq :
    w.reconcilePIDs reads fault order order' =
      (reorder order' (w.synced reads fault order).1.monitoredPIDs.keys).foldl
        (dropVanished fault ((w.scanned reads).podMapper.listMappedPIDs order)) (w.synced reads fault order) := rfl

theorem mem_listMappedPIDs (hroot : reads.root = some entries) (pid : UInt32) :
    pid ∈ (w.scanned reads).podMapper.listMappedPIDs order ↔
      (∃ entry ∈ entries, procPID entry = some pid) ∧ w.podMapper.resolvePIDtoPod reads pid ≠ none := by
  have hlookup := w.podMapper.lookup_scanAllPIDs reads hroot pid
  have hmem : pid ∈ (w.scanned reads).podMapper.listMappedPIDs order ↔
      ((w.podMapper.scanAllPIDs reads).pidCache.lookup pid).isSome = true := by
    rw [lookup_isSome]
    exact mem_reorder
  rw [hmem, hlookup]
  split
  case isTrue hin => simp [hin, Option.isSome_iff_ne_none]
  case isFalse hout => simp [hout]

/-- A mapped PID has the pod its cgroup file names. -/
theorem podFor_scanned (hroot : reads.root = some entries) {pid} (h : ∃ entry ∈ entries, procPID entry = some pid) :
    (w.scanned reads).podMapper.podFor reads pid = w.podMapper.resolvePIDtoPod reads pid := by
  have hresolve : (w.podMapper.scanAllPIDs reads).resolvePIDtoPod reads pid = w.podMapper.resolvePIDtoPod reads pid := by
    simp only [PodMapper.resolvePIDtoPod, PodMapper.scanAllPIDs_podIndex]
  rw [PodMapper.podFor_eq]
  show ((w.podMapper.scanAllPIDs reads).pidCache.lookup pid).or _ = _
  rw [w.podMapper.lookup_scanAllPIDs reads hroot, if_pos h, scanned, hresolve, Option.or_self]

theorem desiredPods_scanned : (w.scanned reads).desiredPods = w.desiredPods := by
  simp only [desiredPods, scanned, PodMapper.scanAllPIDs_podIndex]

/-- A process of `/proc` whose pod is in the index under a UID of which an
enabled spec selects the pod. -/
def Chosen (w : Watcher) (reads : ProcReads) (entries : List DirEntry) (pid : UInt32) : Prop :=
  (∃ entry ∈ entries, procPID entry = some pid) ∧
    ∃ ref, w.podMapper.resolvePIDtoPod reads pid = some ref ∧ ref.podUID ∈ w.desiredPods

theorem chosen_iff_wanted (hown : w.podMapper.OwnUIDs) (pid : UInt32) :
    w.Chosen reads entries pid ↔ w.Wanted reads entries pid := by
  refine and_congr_right fun _ => ⟨fun h => ?_, fun h => ?_⟩
  · obtain ⟨ref, href, huid⟩ := h
    exact (podUID_mem_desiredPods hown href).mp huid
  · obtain ⟨ref, href, -⟩ := id h
    exact ⟨ref, href, (podUID_mem_desiredPods hown href).mpr h⟩

/-- What an error-free reconcile leaves: the chosen processes are tracked, and
besides them the map has only what was there untracked. -/
theorem reconcilePIDs_mem (hroot : reads.root = some entries) (h : w.reconcilePIDs reads fault order order' = (w', [])) :
    w'.podMapper.podIndex = w.podMapper.podIndex ∧ w'.specs = w.specs ∧
      (∀ pid, pid ∈ w'.monitoredPIDs ↔ w.Chosen reads entries pid) ∧
      ∀ pid, pid ∈ w'.filter.entries ↔ w.Chosen reads entries pid ∨ w.Untracked pid := by
  rw [reconcilePIDs_eq] at h
  cases hsync : w.synced reads fault order with
  | mk w1 warnings1 =>
    rw [hsync] at h
    cases no_warnings h (warnings_dropVanished _)
    have hanswered : ∀ pid ∈ (w.scanned reads).podMapper.listMappedPIDs order,
        (w.scanned reads).podMapper.podFor reads pid ≠ none := by
      intro pid hpid
      obtain ⟨hshown, hresolves⟩ := (mem_listMappedPIDs hroot pid).mp hpid
      rw [podFor_scanned hroot hshown]
      exact hresolves
    have hchosen : ∀ pid, w.Chosen reads entries pid ↔ pid ∈ (w.scanned reads).podMapper.listMappedPIDs order ∧
        Desires reads (w.scanned reads).desiredPods (w.scanned reads) pid := by
      intro pid
      rw [mem_listMappedPIDs hroot, Chosen, Desires, desiredPods_scanned, and_assoc]
      refine and_congr_right fun hshown => ?_
      rw [podFor_scanned hroot hshown]
      refine ⟨fun hpod => ⟨?_, hpod⟩, fun hpod => hpod.2⟩
      obtain ⟨ref, href, -⟩ := hpod
      simp [href]
    obtain ⟨hsame, htracked1, hfilter1⟩ := foldl_syncPID_ok hsync hanswered
    obtain ⟨hmapper, hspecs, htracked, hfilter, hfault⟩ := foldl_dropVanished h
    have hkeys : ∀ q, q ∈ reorder order' (w1, ([] : List Warning)).1.monitoredPIDs.keys ↔ q ∈ w1.monitoredPIDs :=
      fun q => mem_reorder
    refine ⟨?_, hspecs.trans hsame.specs, fun pid => ?_, fun pid => ?_⟩
    · rw [hmapper, hsame.podIndex]
      exact w.podMapper.scanAllPIDs_podIndex reads
    -- What is tracked in the end was mapped, and so decided by its pod.
    · rw [htracked, hkeys, htracked1, hchosen]
      by_cases hin : pid ∈ (w.scanned reads).podMapper.listMappedPIDs order <;> simp [hin]
    · have huntracked : (w.scanned reads).Untracked pid ↔ w.Untracked pid := Iff.rfl
      have hleft : pid ∈ (w.scanned reads).filter.entries ∧ pid ∉ (w.scanned reads).monitoredPIDs ↔ w.Untracked pid := Iff.rfl
      rw [hfilter, hfault rfl, hkeys, htracked1, hfilter1, hchosen, huntracked]
      by_cases hin : pid ∈ (w.scanned reads).podMapper.listMappedPIDs order <;> simp [hin, hleft]

/-- From a state in which the map and the tracked set agree. -/
theorem reconcilePIDs_ok (hroot : reads.root = some entries) (hown : w.podMapper.OwnUIDs) (hagree : w.Agree)
    (h : w.reconcilePIDs reads fault order order' = (w', [])) :
    w'.podMapper.podIndex = w.podMapper.podIndex ∧ w'.specs = w.specs ∧ w'.Agree ∧
      ∀ pid, pid ∈ w'.monitoredPIDs ↔ w.Wanted reads entries pid := by
  obtain ⟨hindex, hspecs, htracked, hfilter⟩ := reconcilePIDs_mem hroot h
  have hnone : ∀ pid, ¬w.Untracked pid := fun pid hun => hun.2 ((hagree pid).mp hun.1)
  refine ⟨hindex, hspecs, fun pid => ?_, fun pid => (htracked pid).trans (chosen_iff_wanted hown pid)⟩
  rw [hfilter, htracked, or_iff_left (hnone pid)]

/-! ## A second reconcile -/

/-- A PID that is tracked exactly if it is wanted: nothing can fail. -/
theorem syncPID_settled {desired pid} (hagree : w.Agree) (hmapped : w.podMapper.podFor reads pid ≠ none)
    (hset : Desires reads desired w pid ↔ pid ∈ w.monitoredPIDs) :
    (syncPID reads (fun _ => none) desired (w, []) pid).2 = [] := by
  have hpod : w.podMapper.podFor reads pid = (w.podMapper.getPodForPID reads pid).2 := rfl
  unfold syncPID
  cases hget : w.podMapper.getPodForPID reads pid with
  | mk podMapper podRef =>
    rw [hget] at hpod
    cases podRef with
    | none => exact absurd hpod hmapped
    | some ref =>
      dsimp only
      split
      case isTrue hmem =>
        have htracked : pid ∈ w.monitoredPIDs := hset.mp ⟨ref, hpod, hmem⟩
        obtain ⟨filter, hadd⟩ := addMonitoredPID_again ((hagree pid).mpr htracked)
        rw [hadd]
      case isFalse hmem =>
        have huntracked : pid ∉ w.monitoredPIDs := by
          intro htracked
          obtain ⟨ref', hpod', hmem'⟩ := hset.mpr htracked
          cases hpod.symm.trans hpod'
          exact hmem hmem'
        rw [if_neg huntracked]

theorem foldl_syncPID_settled {desired} : ∀ {mapped : List UInt32} {w : Watcher}, w.Agree →
    (∀ pid ∈ mapped, w.podMapper.podFor reads pid ≠ none ∧ (Desires reads desired w pid ↔ pid ∈ w.monitoredPIDs)) →
    (mapped.foldl (syncPID reads (fun _ => none) desired) (w, [])).2 = []
  | [], _, _, _ => rfl
  | pid :: mapped, w, hagree, hset => by
    rw [foldl_cons]
    obtain ⟨hpod, hpid⟩ := hset pid mem_cons_self
    have hnone := syncPID_settled hagree hpod hpid
    cases hstep : syncPID reads (fun _ => none) desired (w, []) pid with
    | mk w1 warnings1 =>
      rw [hstep] at hnone
      cases hnone
      obtain ⟨hsame, -⟩ := syncPID_cases hstep
      obtain ⟨hmem1, hfilter1⟩ := syncPID_ok hstep hpod
      have hsame_tracked : ∀ q, q ∈ w1.monitoredPIDs ↔ q ∈ w.monitoredPIDs := by
        intro q
        rw [hmem1]
        by_cases hq : q = pid
        · rw [if_pos hq, hq]
          exact hpid
        · rw [if_neg hq]
      have hagree1 : w1.Agree := by
        intro q
        rw [hfilter1, hsame_tracked]
        by_cases hq : q = pid
        · subst hq
          simp [hpid, Untracked, hagree q]
        · rw [if_neg hq]
          exact hagree q
      refine foldl_syncPID_settled hagree1 fun q hq => ?_
      rw [hsame.podFor, hsame.desires, hsame_tracked]
      exact hset q (mem_cons_of_mem pid hq)

theorem foldl_dropVanished_mapped {mapped} (state : Watcher × List Warning) :
    ∀ tracked : List UInt32, (∀ pid ∈ tracked, pid ∈ mapped) → tracked.foldl (dropVanished fault mapped) state = state
  | [], _ => rfl
  | pid :: tracked, h => by
    rw [foldl_cons, dropVanished, if_pos (h pid mem_cons_self)]
    exact foldl_dropVanished_mapped state tracked fun q hq => h q (mem_cons_of_mem pid hq)

/-- Where what is tracked is what is wanted, a reconcile without faults has
nothing to warn of. -/
theorem reconcilePIDs_settled (hroot : reads.root = some entries) (hown : w.podMapper.OwnUIDs) (hagree : w.Agree)
    (hset : ∀ pid, pid ∈ w.monitoredPIDs ↔ w.Wanted reads entries pid) (order order' : List Nat) :
    (w.reconcilePIDs reads (fun _ => none) order order').2 = [] := by
  have hmapped : ∀ pid ∈ (w.scanned reads).podMapper.listMappedPIDs order,
      (w.scanned reads).podMapper.podFor reads pid ≠ none ∧
        (Desires reads (w.scanned reads).desiredPods (w.scanned reads) pid ↔ pid ∈ w.monitoredPIDs) := by
    intro pid hpid
    obtain ⟨hshown, hresolves⟩ := (mem_listMappedPIDs hroot pid).mp hpid
    rw [Desires, podFor_scanned hroot hshown, desiredPods_scanned, hset]
    refine ⟨hresolves, fun ⟨ref, href, huid⟩ => ⟨hshown, (podUID_mem_desiredPods hown href).mp huid⟩, fun hwanted => ?_⟩
    have ⟨ref, href, _⟩ := hwanted.2
    exact ⟨ref, href, (podUID_mem_desiredPods hown href).mpr hwanted.2⟩
  have hsynced : (w.synced reads (fun _ => none) order).2 = [] := foldl_syncPID_settled (w := w.scanned reads) hagree hmapped
  rw [reconcilePIDs_eq]
  cases hsync : w.synced reads (fun _ => none) order with
  | mk w1 warnings1 =>
    rw [hsync] at hsynced
    cases hsynced
    obtain ⟨-, hmem1, -⟩ := foldl_syncPID_ok hsync fun pid hpid => (hmapped pid hpid).1
    rw [foldl_dropVanished_mapped]
    intro pid hpid
    have htracked := (hmem1 pid).mp (mem_reorder.mp hpid)
    by_contra hout
    rw [if_neg hout] at htracked
    have ⟨hshown, ref, href, _⟩ := (hset pid).mp htracked
    exact hout ((mem_listMappedPIDs hroot pid).mpr ⟨hshown, by rw [href]; exact Option.some_ne_none ref⟩)

/-- **A reconcile is exact.** From a state in which the BPF map and the
tracked set agree, if `/proc` can be read and no map operation fails, both are
the processes whose pod an enabled spec selects; and a second reconcile, which
cannot fail unless a system call does, leaves them so. -/
theorem reconcilePIDs_exact (hroot : reads.root = some entries) (hown : w.podMapper.OwnUIDs) (hagree : w.Agree)
    (h : w.reconcilePIDs reads fault order order' = (w', [])) :
    (∀ pid, pid ∈ w'.filter.entries ↔ w.Wanted reads entries pid) ∧
    (∀ pid, pid ∈ w'.monitoredPIDs ↔ w.Wanted reads entries pid) ∧
    ∀ order₂ order₂', ∃ w₂, w'.reconcilePIDs reads (fun _ => none) order₂ order₂' = (w₂, []) ∧
      (∀ pid, pid ∈ w₂.filter.entries ↔ pid ∈ w'.filter.entries) ∧
      ∀ pid, pid ∈ w₂.monitoredPIDs ↔ pid ∈ w'.monitoredPIDs := by
  obtain ⟨hindex, hspecs, hagree', hmem⟩ := reconcilePIDs_ok hroot hown hagree h
  refine ⟨fun pid => (hagree' pid).trans (hmem pid), hmem, fun order₂ order₂' => ?_⟩
  have hown' : w'.podMapper.OwnUIDs := by
    unfold PodMapper.OwnUIDs
    rw [hindex]
    exact hown
  -- the specs and the index are the same, so the same PIDs are wanted
  have hwanted : ∀ pid, w'.Wanted reads entries pid ↔ w.Wanted reads entries pid := by
    intro pid
    simp only [Wanted, Selected, PodMapper.resolvePIDtoPod, hindex, hspecs]
  have hset : ∀ pid, pid ∈ w'.monitoredPIDs ↔ w'.Wanted reads entries pid := fun pid => (hmem pid).trans (hwanted pid).symm
  cases hagain : w'.reconcilePIDs reads (fun _ => none) order₂ order₂' with
  | mk w₂ warnings₂ =>
    have hnone := reconcilePIDs_settled hroot hown' hagree' hset order₂ order₂'
    rw [hagain] at hnone
    cases hnone
    obtain ⟨-, -, hagree₂, hmem₂⟩ := reconcilePIDs_ok hroot hown' hagree' hagain
    refine ⟨w₂, rfl, fun pid => ?_, fun pid => (hmem₂ pid).trans (hset pid).symm⟩
    rw [hagree₂, hagree', hmem₂, hset]

end Reconcile

end Watcher

/-! ## Threads -/

/-- A process with its threads, the first of which has its PID. -/
structure Process where
  tgid : UInt32
  threads : List UInt32

/-- The processes of the node: the IDs of threads are unique. -/
structure ProcessTable where
  processes : List Process
  leader : ∀ p ∈ processes, p.tgid ∈ p.threads
  unique : ∀ p ∈ processes, ∀ q ∈ processes, ∀ tid, tid ∈ p.threads → tid ∈ q.threads → p = q

/-- `/proc` has a directory for each process. -/
def ProcessTable.ShownBy (table : ProcessTable) (entries : List DirEntry) : Prop :=
  ∀ pid, (∃ entry ∈ entries, procPID entry = some pid) ↔ ∃ p ∈ table.processes, p.tgid = pid

/-- **Threads pass the filter by their pod exactly if** no process of a
selected pod has a second thread. -/
theorem threads_pass_iff {reads : ProcReads} {entries : List DirEntry} {fault : UInt32 → Option Nat}
    {order order' : List Nat} {w w' : Watcher} {table : ProcessTable} {g : Globals} {maps : Maps}
    (hroot : reads.root = some entries) (hshown : table.ShownBy entries) (hown : w.podMapper.OwnUIDs) (hagree : w.Agree)
    (h : w.reconcilePIDs reads fault order order' = (w', [])) (hall : g.monitorAll = false)
    (hpids : maps.monitoredPids = w'.filter) (htgids : ∀ tgid, maps.monitoredTgids.lookup tgid = none) :
    (∀ p ∈ table.processes, ∀ tid ∈ p.threads,
      (shouldMonitor g maps ⟨tid, p.tgid⟩ = true ↔ w.Selected reads p.tgid)) ↔
    ∀ p ∈ table.processes, w.Selected reads p.tgid → ∀ tid ∈ p.threads, tid = p.tgid := by
  obtain ⟨-, -, hagree', hmem⟩ := Watcher.reconcilePIDs_ok hroot hown hagree h
  have hpass : ∀ tid tgid, shouldMonitor g maps ⟨tid, tgid⟩ = true ↔
      (∃ p ∈ table.processes, p.tgid = tid) ∧ w.Selected reads tid := by
    intro tid tgid
    rw [← hshown tid]
    simp only [shouldMonitor, hall, htgids, hpids, Bool.false_or, Option.isSome_none, Bool.or_false]
    rw [Bpf.HashMap.lookup_isSome, hagree', hmem]
    rfl
  constructor
  · intro hproperty p hp hselected tid htid
    obtain ⟨⟨q, hq, hqtid⟩, -⟩ := (hpass tid p.tgid).mp ((hproperty p hp tid htid).mpr hselected)
    have hsame : p = q := table.unique p hp q hq tid htid (hqtid ▸ table.leader q hq)
    rw [hsame, hqtid]
  · intro hsingle p hp tid htid
    rw [hpass]
    constructor
    · rintro ⟨⟨q, hq, hqtid⟩, hselected⟩
      have hsame : p = q := table.unique p hp q hq tid htid (hqtid ▸ table.leader q hq)
      rw [hsame, hqtid]
      exact hselected
    · intro hselected
      have htid' := hsingle p hp hselected tid htid
      rw [htid']
      exact ⟨⟨p, hp, rfl⟩, hselected⟩

/-! ## Commands -/

/-- An enabled spec selects the pod of a process and its regex matches the
process's command. -/
def Watcher.Admitted (w : Watcher) (regexp : String → Option (String → Bool)) (command : UInt32 → String)
    (reads : ProcReads) (pid : UInt32) : Prop :=
  ∃ ref, w.podMapper.resolvePIDtoPod reads pid = some ref ∧
    ∃ name psm, w.specs.lookup name = some psm ∧ psm.enabled = true ∧ Selects psm ref ∧
      matchesCommandRegex regexp psm.commandRegex (command pid) = true

/-- **When the command regexes limit what is monitored:** every process of a
pod that an enabled spec selects matches by its command too, and so does what
was in the map untracked. -/
theorem commandRegex_limits_iff {reads : ProcReads} {entries : List DirEntry} {fault : UInt32 → Option Nat}
    {order order' : List Nat} {w w' : Watcher} (regexp : String → Option (String → Bool)) (command : UInt32 → String)
    (hroot : reads.root = some entries) (h : w.reconcilePIDs reads fault order order' = (w', [])) :
    (∀ pid ∈ w'.filter.entries, w.Admitted regexp command reads pid) ↔
      (∀ entry ∈ entries, ∀ pid ref, procPID entry = some pid → w.podMapper.resolvePIDtoPod reads pid = some ref →
        ∀ ref', w.podMapper.podIndex.lookup ref.podUID = some ref' →
          ∀ name psm, w.specs.lookup name = some psm → psm.enabled = true → Selects psm ref' →
            w.Admitted regexp command reads pid) ∧
      ∀ pid ∈ w.filter.entries, pid ∉ w.monitoredPIDs → w.Admitted regexp command reads pid := by
  obtain ⟨-, -, -, hfilter⟩ := Watcher.reconcilePIDs_mem hroot h
  refine ⟨fun hlimited => ⟨?_, ?_⟩, fun hlimited pid hpid => ?_⟩
  · intro entry hentry pid ref hproc hresolve ref' hpod name psm hspec henabled hselects
    refine hlimited pid ((hfilter pid).mpr (.inl ⟨⟨entry, hentry, hproc⟩, ref, hresolve, ?_⟩))
    exact Watcher.mem_desiredPods.mpr ⟨name, psm, ref', hspec, henabled, hpod, hselects⟩
  · intro pid hpid huntracked
    exact hlimited pid ((hfilter pid).mpr (.inr ⟨hpid, huntracked⟩))
  · obtain hchosen | huntracked := (hfilter pid).mp hpid
    · obtain ⟨⟨entry, hentry, hproc⟩, ref, hresolve, hdesired⟩ := hchosen
      obtain ⟨name, psm, ref', hspec, henabled, hpod, hselects⟩ := Watcher.mem_desiredPods.mp hdesired
      exact hlimited.1 entry hentry pid ref hproc hresolve ref' hpod name psm hspec henabled hselects
    · exact hlimited.2 pid huntracked.1 huntracked.2

/-! ## A pod with one process -/

section OnePod

def webPod : PodRef where
  podName := "web"
  podUID := "u1"
  k8sNamespace := "default"
  nodeName := "n"
  labels := (∅ : StrMap String).insert "app" "web"

def webSpec : PodSchedulingMetrics where
  labelSelectors := [⟨"app", "web"⟩]
  k8sNamespaces := []
  commandRegex := ""
  enabled := true

/-- A watcher that has pushed nothing yet. -/
def webWatcher : Watcher where
  podMapper := ⟨∅, (∅ : StrMap PodRef).insert "u1" webPod⟩
  filter := .empty
  specs := (∅ : StrMap PodSchedulingMetrics).insert "default/web" webSpec
  monitoredPIDs := ∅

/-- Process 7 is in the pod. -/
def webProc : ProcReads where
  root := some [⟨"7", true⟩, ⟨"uptime", false⟩]
  cgroup pid := if pid = 7 then some ["0::/kubepods/podu1/c"] else none

/-- Process 7 with the given threads besides the first. -/
def webTable (tids : List UInt32) : ProcessTable where
  processes := [⟨7, 7 :: tids⟩]
  leader := by simp
  unique := by
    intro p hp q hq _ _ _
    rw [mem_singleton.mp hp, mem_singleton.mp hq]

theorem webTable_shown (tids : List UInt32) : (webTable tids).ShownBy [⟨"7", true⟩, ⟨"uptime", false⟩] := by
  have h7 : procPID ⟨"7", true⟩ = some 7 := by decide +kernel
  have huptime : procPID ⟨"uptime", false⟩ = none := rfl
  intro pid
  simp [webTable, h7, huptime]

theorem webWatcher_own : webWatcher.podMapper.OwnUIDs := by
  intro uid ref h
  obtain ⟨rfl, rfl⟩ := eq_of_lookup_single h
  rfl

theorem webWatcher_agree : webWatcher.Agree := by
  intro pid
  simp only [webWatcher, notMem_empty, iff_false]
  exact notMem_empty pid

theorem webWatcher_selected : webWatcher.Selected webProc 7 := by
  have huid : extractPodUID "0::/kubepods/podu1/c" = "u1" := by decide +kernel
  have hresolve : webWatcher.podMapper.resolvePIDtoPod webProc 7 = some webPod := by
    simp only [PodMapper.resolvePIDtoPod, webProc, if_true, Option.bind_some, findSome?_cons, huid]
    rfl
  refine ⟨webPod, hresolve, "default/web", webSpec, lookup_insert _, rfl, .inl rfl, ?_⟩
  intro sel hsel _
  rw [mem_singleton.mp hsel]
  exact lookup_insert _

theorem webWatcher_reconciled :
    ∃ w', webWatcher.reconcilePIDs webProc (fun _ => none) [] [] = (w', []) ∧ w'.filter.entries.keys = [7] := by
  refine ⟨(webWatcher.reconcilePIDs webProc (fun _ => none) [] []).1, ?_, by decide +kernel⟩
  have : (webWatcher.reconcilePIDs webProc (fun _ => none) [] []).2 = [] := by decide +kernel
  exact Prod.ext rfl this

theorem reconcilePIDs_exact_web :
    ∃ w', webWatcher.reconcilePIDs webProc (fun _ => none) [] [] = (w', []) ∧
      ∀ pid, pid ∈ w'.filter.entries ↔ webWatcher.Wanted webProc [⟨"7", true⟩, ⟨"uptime", false⟩] pid := by
  obtain ⟨w', h, -⟩ := webWatcher_reconciled
  exact ⟨w', h, (Watcher.reconcilePIDs_exact rfl webWatcher_own webWatcher_agree h).1⟩

/-- The process has a second thread. -/
theorem second_thread_unmonitored :
    ∃ w', webWatcher.reconcilePIDs webProc (fun _ => none) [] [] = (w', []) ∧
      (webTable [8]).ShownBy [⟨"7", true⟩, ⟨"uptime", false⟩] ∧ webWatcher.Selected webProc 7 ∧
      shouldMonitor {} { Maps.loaded with monitoredPids := w'.filter } ⟨7, 7⟩ = true ∧
      shouldMonitor {} { Maps.loaded with monitoredPids := w'.filter } ⟨8, 7⟩ = false := by
  obtain ⟨w', h, hkeys⟩ := webWatcher_reconciled
  refine ⟨w', h, webTable_shown [8], webWatcher_selected, ?_, ?_⟩
  · have hmem : 7 ∈ w'.filter.entries := AList.mem_keys.mpr (by rw [hkeys]; decide)
    simp [shouldMonitor, Bpf.HashMap.lookup_isSome.mpr hmem]
  · have hmem : 8 ∉ w'.filter.entries := fun h8 => by
      rw [AList.mem_keys, hkeys] at h8
      exact absurd h8 (by decide)
    simp [shouldMonitor, Bpf.HashMap.lookup_eq_none.mpr hmem, Maps.loaded]

theorem threads_pass_iff_single :
    ∃ w', webWatcher.reconcilePIDs webProc (fun _ => none) [] [] = (w', []) ∧
      ∀ p ∈ (webTable []).processes, ∀ tid ∈ p.threads,
        (shouldMonitor {} { Maps.loaded with monitoredPids := w'.filter } ⟨tid, p.tgid⟩ = true ↔
          webWatcher.Selected webProc p.tgid) := by
  obtain ⟨w', h, -⟩ := webWatcher_reconciled
  refine ⟨w', h, ?_⟩
  rw [threads_pass_iff rfl (webTable_shown []) webWatcher_own webWatcher_agree h rfl rfl
    fun tgid => Bpf.HashMap.lookup_empty tgid]
  intro p hp _ tid htid
  rw [mem_singleton.mp hp] at htid ⊢
  exact mem_singleton.mp htid

/-- A regex here is a text that the command has to contain. -/
def containing : String → Option (String → Bool) := fun pattern => some fun command => contains command pattern

/-- The spec asks for `nginx`. -/
def nginxWatcher : Watcher :=
  { webWatcher with specs := (∅ : StrMap PodSchedulingMetrics).insert "default/web" { webSpec with commandRegex := "nginx" } }

/-- The process runs `engine` and is monitored. -/
theorem commandRegex_ignored :
    ∃ w', nginxWatcher.reconcilePIDs webProc (fun _ => none) [] [] = (w', []) ∧ 7 ∈ w'.filter.entries ∧
      ¬nginxWatcher.Admitted containing (fun _ => "engine") webProc 7 := by
  refine ⟨(nginxWatcher.reconcilePIDs webProc (fun _ => none) [] []).1, Prod.ext rfl (by decide +kernel),
    by decide +kernel, fun hadmitted => ?_⟩
  obtain ⟨_, -, name, psm, hspec, -, -, hmatch⟩ := hadmitted
  obtain ⟨-, rfl⟩ := eq_of_lookup_single hspec
  exact absurd hmatch (by decide +kernel)

/-- A spec without a regex. -/
theorem commandRegex_limits_iff_web :
    ∃ w', webWatcher.reconcilePIDs webProc (fun _ => none) [] [] = (w', []) ∧
      ∀ pid ∈ w'.filter.entries, webWatcher.Admitted containing (fun _ => "engine") webProc pid := by
  obtain ⟨w', h, -⟩ := webWatcher_reconciled
  refine ⟨w', h, (commandRegex_limits_iff containing (fun _ => "engine") rfl h).mpr ⟨?_, ?_⟩⟩
  · intro entry _ pid ref _ hresolve ref' hpod name psm hspec henabled hselects
    obtain ⟨-, rfl⟩ := eq_of_lookup_single hspec
    cases (Watcher.lookup_of_resolve webWatcher_own hresolve).symm.trans hpod
    exact ⟨ref, hresolve, name, webSpec, hspec, rfl, hselects, rfl⟩
  · intro pid hpid
    exact absurd hpid (notMem_empty pid)

end OnePod

end Gthulhu.Monitor
