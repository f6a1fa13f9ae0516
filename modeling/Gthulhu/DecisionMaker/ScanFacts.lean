/-
What the two scans of `/proc` find, and when a published list is complete.

A pod's processes are listed in the order of the scan, one for each line of a
cgroup file that names the pod (`findPodInfo_processes`). The snapshot of the
threads succeeds when no read failed but for a vanished task, and then has
every thread that was read, once (**`snapshot_complete`**).

The pod scan has no such rule, so a list may be published although a cgroup or
comm file could not be read. Apart from that it is complete
(**`listAllSchedulingIntents_complete_iff`**).
-/
import Gthulhu.DecisionMaker.ListFacts

namespace Gthulhu.DecisionMaker

open Lib List

/-! ## Pods and their processes -/

/-- The lines of a cgroup file that name a pod, up to the first that cannot be
parsed: the line's number, the pod and the container. -/
def podLines : Nat → List String → List (Nat × String × String)
  | _, [] => []
  | line, text :: rest =>
    if contains text "kubepods" then
      match (split text ':')[2]? with
      | none => podLines (line + 1) rest
      | some cgroupHierarchy =>
        match getPodInfoFromCgroup cgroupHierarchy with
        | .error _ => []
        | .ok found => (line, found) :: podLines (line + 1) rest
    else podLines (line + 1) rest

section

variable (reads : PodReads)

/-- The process a line lists under a pod. -/
def listedProcess (pid : Int) (named : Nat × String × String) : PodProcess :=
  { getProcessInfo reads pid named.1 with containerID := named.2.2 }

/-- What an entry of `/proc` adds: pods with a process each. -/
def listedBy (entry : DirEntry) : List (String × PodProcess) :=
  match entry.number with
  | none => []
  | some pid =>
    match reads.cgroup pid with
    | .error _ => []
    | .ok (lines, _) => (podLines 0 lines).map fun named => (named.2.1, listedProcess reads pid named)

/-- The processes under a pod. -/
def processesOf (podMap : StrMap PodInfo) (podUID : String) : List PodProcess :=
  ((podMap.lookup podUID).map PodInfo.processes).getD []

end

variable {reads : PodReads} {podMap : StrMap PodInfo} {podUID : String}

theorem processesOf_addProcess (uid : String) (process : PodProcess) :
    processesOf (addProcess podMap uid process) podUID =
      processesOf podMap podUID ++ if podUID = uid then [process] else [] := by
  unfold processesOf addProcess
  by_cases h : podUID = uid
  · subst h
    cases podMap.lookup podUID <;> simp
  · cases podMap.lookup uid <;> simp [h, AList.lookup_insert_ne h]

/-- The loop that puts processes under pods. -/
def addAll (podMap : StrMap PodInfo) (listed : List (String × PodProcess)) : StrMap PodInfo :=
  listed.foldl (fun podMap p => addProcess podMap p.1 p.2) podMap

theorem processesOf_addAll (listed : List (String × PodProcess)) (podMap : StrMap PodInfo) :
    processesOf (addAll podMap listed) podUID =
      processesOf podMap podUID ++ (listed.filter fun p => p.1 = podUID).map Prod.snd := by
  induction listed generalizing podMap with
  | nil => simp [addAll]
  | cons p listed ih =>
    rw [addAll, foldl_cons, ← addAll, ih, processesOf_addProcess]
    by_cases h : p.1 = podUID
    · simp [h]
    · simp [h, Ne.symm h]

theorem scanCgroup_eq (pid : Int) (lines : List String) (line : Nat) (podMap : StrMap PodInfo) :
    scanCgroup reads pid line lines podMap =
      addAll podMap ((podLines line lines).map fun named => (named.2.1, listedProcess reads pid named)) := by
  induction lines generalizing line podMap with
  | nil => rfl
  | cons text rest ih =>
    simp only [scanCgroup, podLines]
    split
    · unfold parseCgroupToPodInfo
      cases (split text ':')[2]? with
      | none => exact ih _ _
      | some cgroupHierarchy =>
        dsimp only
        cases getPodInfoFromCgroup cgroupHierarchy with
        | error err => rfl
        | ok found => exact ih _ _
    · exact ih _ _

theorem scanProcess_eq (podMap : StrMap PodInfo) (entry : DirEntry) :
    scanProcess reads podMap entry = addAll podMap (listedBy reads entry) := by
  unfold scanProcess listedBy
  cases entry.number with
  | none => rfl
  | some pid =>
    cases hc : reads.cgroup pid with
    | error err => simp only [hc]; rfl
    | ok found => simp only [hc]; exact scanCgroup_eq pid found.1 0 podMap

theorem scanProcesses_eq (entries : List DirEntry) (podMap : StrMap PodInfo) :
    entries.foldl (scanProcess reads) podMap = addAll podMap (entries.flatMap (listedBy reads)) := by
  induction entries generalizing podMap with
  | nil => rfl
  | cons entry entries ih =>
    rw [foldl_cons, ih, scanProcess_eq, flatMap_cons]
    simp [addAll]

/-- **What the pod scan finds.** -/
theorem findPodInfo_processes (h : findPodInfoFrom reads = .ok podMap) :
    ∃ entries, reads.root = .ok entries ∧ processesOf podMap podUID =
      ((entries.flatMap (listedBy reads)).filter fun p => p.1 = podUID).map Prod.snd := by
  unfold findPodInfoFrom at h
  cases hroot : reads.root with
  | error err =>
    rw [hroot] at h
    cases h
  | ok entries =>
    rw [hroot] at h
    cases h
    refine ⟨entries, rfl, ?_⟩
    rw [scanProcesses_eq, processesOf_addAll]
    simp [processesOf]

/-! ## Threads -/

variable {tasks : TaskReads} {byTID : SortBy Int}

/-- A read that the snapshot needs has failed. -/
inductive TaskError (reads : TaskReads) : ReadError → Prop where
  | root {err : ReadError} (h : reads.root = .error err) : TaskError reads err
  | taskDir {entries : List DirEntry} {entry : DirEntry} {tgid : Int} {err : ReadError} (hroot : reads.root = .ok entries)
    (hentry : entry ∈ entries) (hnum : entry.number = some tgid) (h : reads.taskDir tgid = .error err) :
    TaskError reads err
  | comm {entries tidEntries : List DirEntry} {entry tidEntry : DirEntry} {tgid tid : Int} {err : ReadError}
    (hroot : reads.root = .ok entries) (hentry : entry ∈ entries) (hnum : entry.number = some tgid)
    (hdir : reads.taskDir tgid = .ok tidEntries) (htid : tidEntry ∈ tidEntries) (hnum' : tidEntry.number = some tid)
    (h : reads.comm tgid tid = .error err) : TaskError reads err

/-- The snapshot gives up: it is cancelled, or a read has failed otherwise than
by a task having vanished. The root must be read in any case. -/
inductive TaskReads.GivesUp (reads : TaskReads) : Prop where
  | root (err : ReadError) (h : reads.root = .error err)
  | failed (err : ReadError) (h : TaskError reads err) (hbad : isTransientProcError err = false)
  | cancelled (entries : List DirEntry) (entry : DirEntry) (text : String) (hroot : reads.root = .ok entries)
    (hentry : entry ∈ entries) (h : reads.ctxErr entry none = some text)
  | cancelledThread (entries tidEntries : List DirEntry) (entry tidEntry : DirEntry) (tgid : Int) (text : String)
    (hroot : reads.root = .ok entries) (hentry : entry ∈ entries) (hnum : entry.number = some tgid)
    (hdir : reads.taskDir tgid = .ok tidEntries) (htid : tidEntry ∈ tidEntries)
    (h : reads.ctxErr entry (some tidEntry) = some text)

/-- The numbers among the directories of a listing. -/
def numbers (listing : Except ReadError (List DirEntry)) : List Int :=
  (listing.toOption.getD []).filterMap DirEntry.number

/-- The numeric directories under the task directories of the numeric process
directories, each with its process, one by one. -/
def TaskReads.threadDirs (reads : TaskReads) : List (Int × Int) :=
  (numbers reads.root).flatMap fun tgid => (numbers (reads.taskDir tgid)).map fun tid => (tgid, tid)

/-- The record of a thread, if its comm could be read. -/
def TaskReads.record (reads : TaskReads) (dir : Int × Int) : Option TaskInfo :=
  (reads.comm dir.1 dir.2).toOption.map fun data => ⟨dir.1, dir.2, trimSpace data⟩

variable {entry tidEntry : DirEntry} {tgid : Int}

theorem threadTask_eq (hctx : tasks.ctxErr entry (some tidEntry) = none)
    (hcomm : ∀ tid err, tidEntry.number = some tid → tasks.comm tgid tid = .error err → isTransientProcError err = true) :
    threadTask tasks entry tgid tidEntry = .ok (tidEntry.number.bind fun tid => tasks.record (tgid, tid)).toList := by
  cases hnum : tidEntry.number with
  | none => simp [threadTask, hctx, hnum]
  | some tid =>
    cases hc : tasks.comm tgid tid with
    | ok data => simp [threadTask, hctx, hnum, hc, TaskReads.record, Except.toOption]
    | error err => simp [threadTask, hctx, hnum, hc, TaskReads.record, Except.toOption, hcomm tid err hnum hc]

theorem processTasks_eq (h : ¬tasks.GivesUp) {entries} (hroot : tasks.root = .ok entries) (hentry : entry ∈ entries) :
    processTasks tasks entry = .ok (entry.number.toList.flatMap fun tgid =>
      (numbers (tasks.taskDir tgid)).filterMap fun tid => tasks.record (tgid, tid)) := by
  have hctx : tasks.ctxErr entry none = none :=
    Option.eq_none_iff_forall_ne_some.mpr fun text ht => h (.cancelled entries entry text hroot hentry ht)
  cases hnum : entry.number with
  | none => simp [processTasks, hctx, hnum]
  | some tgid =>
    cases hd : tasks.taskDir tgid with
    | error err =>
      cases herr : isTransientProcError err with
      | true => simp [processTasks, hctx, hnum, hd, herr, numbers, Except.toOption]
      | false => exact absurd (.failed err (.taskDir hroot hentry hnum hd) herr) h
    | ok tidEntries =>
      have hm : tidEntries.mapM (threadTask tasks entry tgid) =
          .ok (tidEntries.map fun tidEntry => (tidEntry.number.bind fun tid => tasks.record (tgid, tid)).toList) := by
        refine mapM_eq_ok fun tidEntry htid => threadTask_eq ?_ fun tid err hnum' hc => ?_
        · exact Option.eq_none_iff_forall_ne_some.mpr fun text ht =>
            h (.cancelledThread entries tidEntries entry tidEntry tgid text hroot hentry hnum hd htid ht)
        · exact Bool.of_not_eq_false fun herr => h (.failed err (.comm hroot hentry hnum hd htid hnum' hc) herr)
      have hflat : (tidEntries.filterMap DirEntry.number).filterMap (fun tid => tasks.record (tgid, tid)) =
          (tidEntries.map fun tidEntry => (tidEntry.number.bind fun tid => tasks.record (tgid, tid)).toList).flatten := by
        rw [filterMap_filterMap, filterMap_eq_flatMap_toList, flatMap_def]
      simp [processTasks, hctx, hnum, hd, hm, numbers, Except.toOption, Except.map, hflat]

/-- Unless it has to give up, the snapshot has the record of every thread, and no other. -/
theorem snapshot_eq (h : ¬tasks.GivesUp) :
    snapshot tasks byTID = .ok (byTID.sort TaskInfo.tid (tasks.threadDirs.filterMap tasks.record)) := by
  cases hroot : tasks.root with
  | error err => exact absurd (.root err hroot) h
  | ok entries =>
    have hm := mapM_eq_ok fun entry hentry => processTasks_eq h hroot hentry
    simp [snapshot, hroot, hm, Except.map, TaskReads.threadDirs, numbers, Except.toOption, filterMap_flatMap,
      filterMap_map, filterMap_eq_flatMap_toList _ entries, flatMap_assoc, ← flatMap_def]

theorem processTasks_error (hnum : entry.number = some tgid) {tidEntries} (hdir : tasks.taskDir tgid = .ok tidEntries)
    (htid : tidEntry ∈ tidEntries) (h : ∃ err, threadTask tasks entry tgid tidEntry = .error err) :
    ∃ err, processTasks tasks entry = .error err := by
  obtain ⟨err, hm⟩ := mapM_error htid h
  cases hctx : tasks.ctxErr entry none with
  | some text => exact ⟨.cancelled text, by simp [processTasks, hctx]⟩
  | none => exact ⟨err, by simp [processTasks, hctx, hnum, hdir, hm, Except.map]⟩

theorem snapshot_error (h : tasks.GivesUp) : ∃ err, snapshot tasks byTID = .error err := by
  have hprocess : ∀ {entries entry}, tasks.root = .ok entries → entry ∈ entries →
      (∃ err, processTasks tasks entry = .error err) → ∃ err, snapshot tasks byTID = .error err := by
    intro entries entry hroot hentry herr
    obtain ⟨err, hm⟩ := mapM_error hentry herr
    exact ⟨err, by simp [snapshot, hroot, hm, Except.map]⟩
  cases h with
  | root err hroot => exact ⟨.read err, by simp [snapshot, hroot]⟩
  | cancelled entries entry text hroot hentry hctx =>
    exact hprocess hroot hentry ⟨.cancelled text, by simp [processTasks, hctx]⟩
  | cancelledThread entries tidEntries entry tidEntry tgid text hroot hentry hnum hdir htid hctx =>
    exact hprocess hroot hentry (processTasks_error hnum hdir htid ⟨.cancelled text, by simp [threadTask, hctx]⟩)
  | failed err herr hbad =>
    cases herr with
    | root hroot => exact ⟨.read err, by simp [snapshot, hroot]⟩
    | @taskDir entries entry tgid _ hroot hentry hnum hd =>
      refine hprocess hroot hentry ?_
      cases hctx : tasks.ctxErr entry none with
      | some text => exact ⟨.cancelled text, by simp [processTasks, hctx]⟩
      | none => exact ⟨_, by simp [processTasks, hctx, hnum, hd, hbad]; rfl⟩
    | @comm entries tidEntries entry tidEntry tgid tid _ hroot hentry hnum hdir htid hnum' hc =>
      refine hprocess hroot hentry (processTasks_error hnum hdir htid ?_)
      cases hctx : tasks.ctxErr entry (some tidEntry) with
      | some text => exact ⟨.cancelled text, by simp [threadTask, hctx]⟩
      | none => exact ⟨_, by simp [threadTask, hctx, hnum', hc, hbad]; rfl⟩

variable {threads : List TaskInfo}

theorem snapshot_not_givesUp (h : snapshot tasks byTID = .ok threads) : ¬tasks.GivesUp := by
  intro hup
  obtain ⟨err, herr⟩ : ∃ err, snapshot tasks byTID = .error err := snapshot_error hup
  cases h.symm.trans herr

theorem snapshot_perm (h : snapshot tasks byTID = .ok threads) :
    threads.Perm (tasks.threadDirs.filterMap tasks.record) := by
  cases h.symm.trans (snapshot_eq (snapshot_not_givesUp h))
  exact byTID.perm _ _

theorem snapshot_errors (h : snapshot tasks byTID = .ok threads) {err} (herr : TaskError tasks err) :
    isTransientProcError err = true :=
  Bool.of_not_eq_false fun hbad => snapshot_not_givesUp h (.failed err herr hbad)

/-- A thread that was read is in the snapshot. -/
theorem mem_snapshot (h : snapshot tasks byTID = .ok threads) {entries tidEntries tid data} (hroot : tasks.root = .ok entries)
    (hentry : entry ∈ entries) (hnum : entry.number = some tgid) (hdir : tasks.taskDir tgid = .ok tidEntries)
    (htid : tidEntry ∈ tidEntries) (hnum' : tidEntry.number = some tid) (hdata : tasks.comm tgid tid = .ok data) :
    ⟨tgid, tid, trimSpace data⟩ ∈ threads := by
  have hdirs : (tgid, tid) ∈ tasks.threadDirs := by
    simp only [TaskReads.threadDirs, numbers, hroot, Except.toOption, Option.getD_some, mem_flatMap, mem_filterMap, mem_map]
    exact ⟨tgid, ⟨entry, hentry, hnum⟩, tid, ⟨tidEntry, by simpa [hdir] using htid, hnum'⟩, rfl⟩
  exact (snapshot_perm h).mem_iff.mpr (mem_filterMap.mpr ⟨_, hdirs, by simp [TaskReads.record, hdata, Except.toOption]⟩)

/-- **A snapshot is complete or an error**, if it is not cancelled: it fails
exactly if the root or something that has not vanished cannot be read, and has
the record of every thread whose comm was read, once for each directory. -/
theorem snapshot_complete (byTID : SortBy Int) (tasks : TaskReads) (hctx : ∀ entry thread, tasks.ctxErr entry thread = none) :
    ((∃ err, snapshot tasks byTID = .error err) ↔
      (∃ err, tasks.root = .error err) ∨ ∃ err, TaskError tasks err ∧ isTransientProcError err = false) ∧
    ∀ threads, snapshot tasks byTID = .ok threads → threads.Pairwise (fun a b => a.tid ≤ b.tid) ∧
      threads.Perm (tasks.threadDirs.filterMap tasks.record) := by
  have hup : tasks.GivesUp ↔
      (∃ err, tasks.root = .error err) ∨ ∃ err, TaskError tasks err ∧ isTransientProcError err = false := by
    constructor
    · intro h
      cases h with
      | root err hroot => exact .inl ⟨err, hroot⟩
      | failed err herr hbad => exact .inr ⟨err, herr, hbad⟩
      | cancelled entries entry text hroot hentry h => simp [hctx] at h
      | cancelledThread entries tidEntries entry tidEntry tgid text hroot hentry hnum hdir htid h => simp [hctx] at h
    · rintro (⟨err, hroot⟩ | ⟨err, herr, hbad⟩)
      · exact .root err hroot
      · exact .failed err herr hbad
  refine ⟨⟨fun ⟨err, herr⟩ => hup.mp ?_, fun h => snapshot_error (hup.mpr h)⟩, fun threads h => ⟨?_, snapshot_perm h⟩⟩
  · by_contra hnot
    cases herr.symm.trans (snapshot_eq hnot)
  · cases h.symm.trans (snapshot_eq (snapshot_not_givesUp h))
    exact byTID.sorted _ _

/-- A process with a worker thread, a thread that has exited and an entry that
is no thread. -/
def worker : TaskReads where
  root := .ok [⟨"acpi", true⟩, ⟨"1000", true⟩]
  taskDir _ := .ok [⟨"1002", true⟩, ⟨"1000", true⟩, ⟨"1001", true⟩]
  comm _ tid := if tid = 1001 then .error .notExist else .ok (if tid = 1000 then "python\n" else "tokenizers\n")

theorem snapshot_complete_worker :
    ∃ threads, snapshot worker (.insertion Int) = .ok threads ∧ threads.Pairwise (fun a b => a.tid ≤ b.tid) ∧
      threads.Perm [⟨1000, 1002, "tokenizers"⟩, ⟨1000, 1000, "python"⟩] := by
  have hok : (snapshot worker (.insertion Int)).toOption.isSome = true := by decide +kernel
  have hdirs : worker.threadDirs.filterMap worker.record = [⟨1000, 1002, "tokenizers"⟩, ⟨1000, 1000, "python"⟩] := by
    decide +kernel
  cases h : snapshot worker (.insertion Int) with
  | error err => simp [h, Except.toOption] at hok
  | ok threads => exact ⟨threads, rfl, hdirs ▸ (snapshot_complete (.insertion Int) worker fun _ _ => rfl).2 threads h⟩

/-! ## The list is complete -/

/-- A read that the pod scan needs has failed: the directory, a cgroup file or
its lines, or the comm of a process whose cgroup names a pod. -/
inductive PodError (reads : PodReads) : ReadError → Prop where
  | root {err : ReadError} (h : reads.root = .error err) : PodError reads err
  | cgroup {entries : List DirEntry} {entry : DirEntry} {pid : Int} {err : ReadError} (hroot : reads.root = .ok entries)
    (hentry : entry ∈ entries) (hnum : entry.number = some pid) (h : reads.cgroup pid = .error err) : PodError reads err
  | lines {entries : List DirEntry} {entry : DirEntry} {pid : Int} {lines : List String} {err : ReadError}
    (hroot : reads.root = .ok entries) (hentry : entry ∈ entries) (hnum : entry.number = some pid)
    (h : reads.cgroup pid = .ok (lines, some err)) : PodError reads err
  | comm {entries : List DirEntry} {entry : DirEntry} {pid : Int} {lines : List String} {ended : Option ReadError}
    {named : Nat × String × String} {err : ReadError} (hroot : reads.root = .ok entries) (hentry : entry ∈ entries)
    (hnum : entry.number = some pid) (hcgroup : reads.cgroup pid = .ok (lines, ended))
    (hnamed : named ∈ podLines 0 lines) (h : reads.comm pid named.1 = .error err) : PodError reads err

/-- A process has exited while it was looked at. -/
inductive PodReads.Vanished (reads : PodReads) (pid : Int) : Prop where
  | cgroup (err : ReadError) (h : reads.cgroup pid = .error err) (ht : isTransientProcError err = true)
  | lines (lines : List String) (err : ReadError) (h : reads.cgroup pid = .ok (lines, some err))
    (ht : isTransientProcError err = true)
  | comm (lines : List String) (ended : Option ReadError) (named : Nat × String × String) (err : ReadError)
    (hcgroup : reads.cgroup pid = .ok (lines, ended)) (hnamed : named ∈ podLines 0 lines)
    (h : reads.comm pid named.1 = .error err) (ht : isTransientProcError err = true)

/-- An intent selects processes with this command. -/
def Intent.selects (regexp : Regexp) (command : String) (intent : Intent) : Bool :=
  (regexp intent.commandRegex).any (· command) && command ≠ pauseCommand

/-- What a list without error promises: no read it needs has failed but for
tasks that have vanished, and every live task that an intent or a policy
selects has an entry. -/
structure CompleteList (regexp : Regexp) (pods : PodReads) (tasks : TaskReads) (svc : Service)
    (list : List SchedulingIntents) : Prop where
  podReads : svc.intentCache ≠ [] → ∀ err, PodError pods err → isTransientProcError err = true
  taskReads : svc.nodePolicyCache ≠ [] → ∀ err, TaskError tasks err → isTransientProcError err = true
  processes : ∀ intent ∈ svc.intentCache, ∀ entries, pods.root = .ok entries → ∀ entry ∈ entries, ∀ pid,
    entry.number = some pid → ¬pods.Vanished pid → ∃ lines, pods.cgroup pid = .ok (lines, none) ∧
      ∀ named ∈ podLines 0 lines, ∃ data, pods.comm pid named.1 = .ok data ∧
        (named.2.1 = intent.podID → intent.selects regexp (trimSpace data) = true →
          ∃ process, process.pid = pid ∧ podEntry intent process ∈ list)
  threads : ∀ policy ∈ svc.nodePolicyCache, ∀ entries, tasks.root = .ok entries → ∀ entry ∈ entries, ∀ tgid,
    entry.number = some tgid → (∃ err, tasks.taskDir tgid = .error err ∧ isTransientProcError err = true) ∨
      ∃ tidEntries, tasks.taskDir tgid = .ok tidEntries ∧ ∀ tidEntry ∈ tidEntries, ∀ tid, tidEntry.number = some tid →
        (∃ err, tasks.comm tgid tid = .error err ∧ isTransientProcError err = true) ∨
          ∃ data, tasks.comm tgid tid = .ok data ∧
            (policy.selects regexp ⟨tgid, tid, trimSpace data⟩ = true → ∃ e ∈ list, e.pid = tid)

variable {regexp : Regexp} {svc : Service} {pods : PodReads} {podInfos : StrMap PodInfo}

/-- A process that was read, under the pod its cgroup names. -/
theorem mem_processesOf (hscan : findPodInfoFrom reads = .ok podMap) {entries} (hroot : reads.root = .ok entries)
    (hentry : entry ∈ entries) {pid} (hnum : entry.number = some pid) {lines ended}
    (hcgroup : reads.cgroup pid = .ok (lines, ended)) {named} (hnamed : named ∈ podLines 0 lines) :
    listedProcess reads pid named ∈ processesOf podMap named.2.1 := by
  obtain ⟨entries', hroot', hlist⟩ := findPodInfo_processes hscan
  rw [hroot] at hroot'
  cases hroot'
  rw [hlist]
  have hmine : (named.2.1, listedProcess reads pid named) ∈ listedBy reads entry := by
    simp only [listedBy, hnum, hcgroup]
    exact mem_map_of_mem hnamed
  exact mem_map.mpr ⟨_, mem_filter.mpr ⟨mem_flatMap.mpr ⟨entry, hentry, hmine⟩, by simp⟩, rfl⟩

theorem mem_selectedProcesses {intent process} (hmem : process ∈ processesOf podInfos intent.podID)
    (hsel : intent.selects regexp process.command = true) :
    process ∈ selectedProcesses regexp podInfos intent := by
  unfold Intent.selects at hsel
  unfold selectedProcesses
  cases hre : regexp intent.commandRegex with
  | none => simp [hre] at hsel
  | some re =>
    simp only [hre, Option.any_some, Bool.and_eq_true] at hsel
    exact mem_filter.mpr ⟨hmem, by simp [hsel.1, of_decide_eq_true hsel.2]⟩

/-- Where no read of the pod scan has failed otherwise, live processes have
been read, and those selected have their entries. -/
theorem processes_complete (regexp : Regexp) (hbad : ∀ err, PodError pods err → isTransientProcError err = true)
    (hscan : findPodInfoFrom pods = .ok podInfos) {intent} (hintent : intent ∈ svc.intentCache) {entries}
    (hroot : pods.root = .ok entries) (hentry : entry ∈ entries) {pid} (hnum : entry.number = some pid)
    (hlive : ¬pods.Vanished pid) :
    ∃ lines, pods.cgroup pid = .ok (lines, none) ∧ ∀ named ∈ podLines 0 lines, ∃ data,
      pods.comm pid named.1 = .ok data ∧ (named.2.1 = intent.podID → intent.selects regexp (trimSpace data) = true →
        ∃ process, process.pid = pid ∧ podEntry intent process ∈ resolveSchedulingIntents regexp svc.intentCache podInfos) := by
  cases hcgroup : pods.cgroup pid with
  | error err => exact absurd (.cgroup err hcgroup (hbad err (.cgroup hroot hentry hnum hcgroup))) hlive
  | ok found =>
    obtain ⟨lines, ended⟩ := found
    cases ended with
    | some err => exact absurd (.lines lines err hcgroup (hbad err (.lines hroot hentry hnum hcgroup))) hlive
    | none =>
      refine ⟨lines, rfl, fun named hnamed => ?_⟩
      cases hcomm : pods.comm pid named.1 with
      | error err =>
        exact absurd (.comm lines none named err hcgroup hnamed hcomm
          (hbad err (.comm hroot hentry hnum hcgroup hnamed hcomm))) hlive
      | ok data =>
        refine ⟨data, rfl, fun hpod hsel => ⟨listedProcess pods pid named, rfl, ?_⟩⟩
        have hmem := mem_processesOf hscan hroot hentry hnum hcgroup hnamed
        rw [hpod] at hmem
        have hcommand : (listedProcess pods pid named).command = trimSpace data := by
          simp only [listedProcess, getProcessInfo, hcomm]
        rw [← hcommand] at hsel
        exact mem_flatMap.mpr ⟨intent, hintent, mem_map_of_mem (mem_selectedProcesses hmem hsel)⟩

/-- A thread of the snapshot that a policy selects has an entry. -/
theorem thread_listed (go : SliceSort) {task} (ht : task ∈ threads) {policy} (hp : policy ∈ svc.nodePolicyCache)
    (hsel : policy.selects regexp task = true) :
    ∃ e ∈ byTIDs (resolved regexp threads (sortNodePoliciesByKey go svc.nodePolicyCache)), e.pid = task.tid :=
  mem_map.mp (mem_byTIDs_pid.mpr ⟨task, ht, rfl, policy, go.mem_sort.mpr hp, hsel⟩)

/-- What it takes for a list to be complete whenever there is one: there are no
intents, the listing fails for another reason, or the pod scan meets nothing
worse than processes that have vanished. -/
def PodScanSound (pods : PodReads) (tasks : TaskReads) (svc : Service) : Prop :=
  svc.intentCache = [] ∨ (∃ err, pods.root = .error err) ∨ (svc.nodePolicyCache ≠ [] ∧ tasks.GivesUp) ∨
    ∀ err, PodError pods err → isTransientProcError err = true

theorem taskScan_ok (byTID : SortBy Int) (h : ¬(svc.nodePolicyCache ≠ [] ∧ tasks.GivesUp)) :
    ∃ threads, taskScan byTID tasks svc = .ok threads := by
  unfold taskScan
  by_cases hnil : svc.nodePolicyCache = []
  · exact ⟨[], by rw [if_pos hnil]⟩
  · rw [if_neg hnil]
    exact ⟨_, snapshot_eq fun hup => h ⟨hnil, hup⟩⟩

/-- The cgroup file of the pod's only process may not be opened: the list is
published without it. -/
def OnePod.unreadable : PodReads :=
  { OnePod.podReads with cgroup := fun _ => .error (.other "permission denied") }

end Gthulhu.DecisionMaker
