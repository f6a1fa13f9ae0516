/-
From PIDs to pods (`collector/pod_mapper.go`): the pod index that the pod
indexer sets, and the cache of the PIDs found in `/proc`.

What the reads of `/proc` give is an input. `podFor` is what the mapper
answers for a PID; an answer that is put into the cache changes no other
(`podFor_getPodForPID`), and after a scan the cache holds exactly the
directories of `/proc` whose cgroup file names an indexed pod
(`lookup_scanAllPIDs`).
-/
import Gthulhu.DecisionMaker.ProcScan
import Gthulhu.Lib.GoRuntime

namespace Gthulhu.Monitor

open Lib
open DecisionMaker (DirEntry)

structure PodRef where
  podName : String
  podUID : String
  k8sNamespace : String
  nodeName : String
  labels : StrMap String

structure PodMapper where
  pidCache : AList fun _ : UInt32 => PodRef
  podIndex : StrMap PodRef

/-- What the reads of `/proc` give. -/
structure ProcReads where
  /-- The entries of the root, where it can be read. -/
  root : Option (List DirEntry)
  /-- The lines of a process's cgroup file, as far as it can be read. -/
  cgroup : UInt32 → Option (List String)

/-- Systemd writes a dash as an underscore. -/
def normalizePodUID (raw : String) : String := replaceChar raw '_' '-'

def extractPodUID (line : String) : String :=
  match cut line "/pod" with
  | some (_, rest) =>
    match cut rest "/" with
    | some (uid, _) => normalizePodUID uid
    | none => normalizePodUID rest
  | none =>
    match cut line "-pod" with
    | some (_, rest) =>
      match cut rest ".slice" with
      | some (uid, _) => normalizePodUID uid
      | none => ""
    | none => ""

example : extractPodUID "0::/kubepods/burstable/podab_cd/1f" = "ab-cd" ∧
    extractPodUID "12:memory:/kubepods.slice/kubepods-podab_cd.slice/x" = "ab-cd" := by
  decide +kernel

/-- The PID a directory of `/proc` is for. -/
def procPID (entry : DirEntry) : Option UInt32 := if entry.isDir then parseUint32 entry.name else none

namespace PodMapper

variable (reads : ProcReads) (m : PodMapper)

/-- `SetPodIndex`. -/
def setPodIndex (pods : StrMap PodRef) : PodMapper where
  pidCache := ∅
  podIndex := pods

/-- The first line of the cgroup file that names a pod of the index. -/
def resolvePIDtoPod (pid : UInt32) : Option PodRef :=
  (reads.cgroup pid).bind fun lines => lines.findSome? fun line =>
    if extractPodUID line = "" then none else m.podIndex.lookup (extractPodUID line)

def getPodForPID (pid : UInt32) : PodMapper × Option PodRef :=
  match m.pidCache.lookup pid with
  | some ref => (m, some ref)
  | none =>
    match m.resolvePIDtoPod reads pid with
    | some ref => ({ m with pidCache := m.pidCache.insert pid ref }, some ref)
    | none => (m, none)

/-- One entry of the root, over the cache that is being built. -/
def scanEntry (newCache : AList fun _ : UInt32 => PodRef) (entry : DirEntry) : AList fun _ : UInt32 => PodRef :=
  match procPID entry with
  | none => newCache
  | some pid =>
    match m.resolvePIDtoPod reads pid with
    | some ref => newCache.insert pid ref
    | none => newCache

/-- A root that cannot be read leaves the old cache. -/
def scanAllPIDs : PodMapper :=
  match reads.root with
  | none => m
  | some entries => { m with pidCache := entries.foldl (m.scanEntry reads) ∅ }

/-- The PIDs of the cache, in the order the map happens to have. -/
def listMappedPIDs (order : List Nat) : List UInt32 := reorder order m.pidCache.keys

/-! ## Answers -/

/-- What the mapper answers for a PID. -/
def podFor (pid : UInt32) : Option PodRef := (m.getPodForPID reads pid).2

theorem getPodForPID_podIndex (pid : UInt32) : (m.getPodForPID reads pid).1.podIndex = m.podIndex := by
  unfold getPodForPID
  split
  · rfl
  · split <;> rfl

theorem podFor_eq (pid : UInt32) : m.podFor reads pid = (m.pidCache.lookup pid).or (m.resolvePIDtoPod reads pid) := by
  unfold podFor getPodForPID
  cases m.pidCache.lookup pid with
  | some ref => rfl
  | none => cases hr : m.resolvePIDtoPod reads pid <;> simp

/-- An answer that is cached changes no other answer. -/
theorem podFor_getPodForPID (pid pid' : UInt32) :
    (m.getPodForPID reads pid).1.podFor reads pid' = m.podFor reads pid' := by
  unfold getPodForPID
  split
  · rfl
  case h_2 hmiss =>
    split
    case h_1 ref hr =>
      simp only [podFor_eq]
      by_cases hp : pid' = pid
      · subst hp
        rw [AList.lookup_insert, hmiss, hr]
        rfl
      · rw [AList.lookup_insert_ne hp]
        rfl
    case h_2 => rfl

theorem lookup_foldl_scanEntry (pid : UInt32) : ∀ (entries : List DirEntry) (cache : AList fun _ : UInt32 => PodRef),
    (entries.foldl (m.scanEntry reads) cache).lookup pid =
      if ∃ entry ∈ entries, procPID entry = some pid then
        (m.resolvePIDtoPod reads pid).or (cache.lookup pid)
      else cache.lookup pid
  | [], cache => by simp
  | entry :: entries, cache => by
    rw [List.foldl_cons, lookup_foldl_scanEntry pid entries]
    have hstep : (m.scanEntry reads cache entry).lookup pid =
        if procPID entry = some pid then (m.resolvePIDtoPod reads pid).or (cache.lookup pid) else cache.lookup pid := by
      unfold scanEntry
      cases hp : procPID entry with
      | none => simp
      | some pid' =>
        by_cases heq : pid' = pid
        · subst heq
          cases hr : m.resolvePIDtoPod reads pid' <;> simp [hr]
        · have hne : pid ≠ pid' := fun h => heq h.symm
          cases hr : m.resolvePIDtoPod reads pid' <;> simp [hr, heq, AList.lookup_insert_ne hne]
    rw [hstep]
    by_cases hhere : procPID entry = some pid
    · cases hr : m.resolvePIDtoPod reads pid <;> simp [hhere]
    · simp [hhere]

/-- After a scan of a root that could be read the cache holds the directories
whose cgroup file names an indexed pod. -/
theorem lookup_scanAllPIDs {entries} (hroot : reads.root = some entries) (pid : UInt32) :
    (m.scanAllPIDs reads).pidCache.lookup pid =
      if ∃ entry ∈ entries, procPID entry = some pid then m.resolvePIDtoPod reads pid else none := by
  unfold scanAllPIDs
  simp [hroot, lookup_foldl_scanEntry]

theorem scanAllPIDs_podIndex : (m.scanAllPIDs reads).podIndex = m.podIndex := by
  unfold scanAllPIDs
  split <;> rfl

end PodMapper

end Gthulhu.Monitor
