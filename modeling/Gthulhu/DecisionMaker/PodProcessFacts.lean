/-
What the pod scan says of a process (`FindPodInfoFrom` and `getProcessInfo` in
`api/decisionmaker/service/service.go`).

The parent is read from the fourth word of `stat`. The kernel puts the comm in
parentheses before it and escapes nothing in it, so white space in the comm
moves the parent to a later word (**`parentPID_iff`**).

A process is listed once for each line of its cgroup file that names a pod, so
with the hierarchies of cgroup v1 it is listed several times. It is listed once
just if one such line is reached (**`podScan_once_iff`**).
-/
import Gthulhu.DecisionMaker.ScanFacts
import Gthulhu.Lib.Scan

namespace Gthulhu.DecisionMaker

open Lib List OnePod

/-! ## Parents -/

/-- What the kernel writes into the `stat` file of a process. A byte of the
comm that is not UTF-8 stands as the replacement character, as which it is
read. -/
structure ProcStat where
  pid : UInt32
  comm : String
  state : Char
  ppid : UInt32
  /-- The fields after the parent. -/
  rest : String
  state_letter : state.isAlpha = true

/-- `pid (comm) state ppid ...` -/
def ProcStat.text (stat : ProcStat) : String :=
  toString stat.pid.toNat ++ " (" ++ stat.comm ++ ") " ++ String.ofList [stat.state] ++ " " ++ toString stat.ppid.toNat ++
    " " ++ stat.rest

/-- The comm as it is in the file, cut at white space. -/
def ProcStat.commWords (stat : ProcStat) : List String := fields ("(" ++ stat.comm ++ ")")

/-- There is no white space in the comm, or the parent is the number that is
its third word there (0 if there is no such number). -/
def ProcStat.Unambiguous (stat : ProcStat) : Prop :=
  (∀ c ∈ stat.comm.toList, isSpace c = false) ∨ (stat.ppid.toNat : Int) = ((stat.commWords[2]?).bind atoi).getD 0

theorem isAlpha_range {c : Char} (h : c.isAlpha = true) : 65 ≤ c.val.toNat ∧ c.val.toNat ≤ 122 := by
  obtain h | h := (Bool.or_eq_true _ _).mp h
  · have hrange : 'A'.val ≤ c.val ∧ c.val ≤ 'Z'.val := of_decide_eq_true h
    exact ⟨hrange.1, Nat.le_trans hrange.2 (by decide)⟩
  · obtain ⟨hlow, hhigh⟩ := (Bool.and_eq_true _ _).mp h
    have hrange : 'a'.val ≤ c.val ∧ c.val ≤ 'z'.val := ⟨of_decide_eq_true hlow, of_decide_eq_true hhigh⟩
    exact ⟨Nat.le_trans (by decide) hrange.1, hrange.2⟩

theorem isSpace_alpha {c : Char} (h : c.isAlpha = true) : isSpace c = false := by
  have := isAlpha_range h
  exact isSpace_of_range (by omega)

theorem words_natRepr (n : Nat) : words (toString n).toList = [(toString n).toList] :=
  words_single (natRepr_ne_nil n) fun c hc => isSpace_digit (natRepr_digits n c hc)

theorem fields_text (stat : ProcStat) :
    fields stat.text = toString stat.pid.toNat :: (stat.commWords ++
      String.ofList [stat.state] :: toString stat.ppid.toNat :: fields stat.rest) := by
  have hblank : isSpace ' ' = true := by decide
  have htext : stat.text.toList = (toString stat.pid.toNat).toList ++ ' ' :: (("(" ++ stat.comm ++ ")").toList ++
      ' ' :: ([stat.state] ++ ' ' :: ((toString stat.ppid.toNat).toList ++ ' ' :: stat.rest.toList))) := by
    simp [ProcStat.text]
  have hstate : words [stat.state] = [[stat.state]] :=
    words_single (by simp) (by simpa using isSpace_alpha stat.state_letter)
  rw [fields_eq, htext, words_append _ _ hblank, words_append _ _ hblank, words_append _ _ hblank,
    words_append _ _ hblank, words_natRepr, words_natRepr, hstate]
  simp only [map_append, map_cons, String.ofList_toList, singleton_append,
    ProcStat.commWords, fields_eq]

theorem atoi_letter {c} (h : c.isAlpha = true) : atoi (String.ofList [c]) = none := by
  have hdigit : c.isDigit = false := by
    cases hc : c.isDigit with
    | false => rfl
    | true =>
      have := isAlpha_range h
      have := isDigit_range hc
      omega
  have hsign : ∀ sign : Char, sign.isAlpha = false → ¬c = sign := by
    intro sign hsign hc
    rw [hc, hsign] at h
    cases h
  simp [atoi, hsign '-' (by decide), hsign '+' (by decide), hdigit]

variable {reads : PodReads}

theorem getProcessInfo_ppid {pid line} {stat : ProcStat} (h : reads.stat pid line = .ok stat.text) :
    (getProcessInfo reads pid line).ppid =
      if stat.commWords.length = 1 then (stat.ppid.toNat : Int) else ((stat.commWords[2]?).bind atoi).getD 0 := by
  have hparent : atoi (toString stat.ppid.toNat) = some (stat.ppid.toNat : Int) :=
    atoi_natRepr (Nat.lt_trans stat.ppid.toNat_lt (by decide))
  have hpos : 0 < stat.commWords.length := by
    rw [ProcStat.commWords, fields_eq, length_map]
    exact length_pos_iff.mpr (words_ne_nil (c := '(') (by simp) (by decide))
  simp only [getProcessInfo, h, fields_text, getElem?_cons_succ]
  -- the parent is the third word after those of the comm that come before it
  rcases hwords : stat.commWords with _ | ⟨first, _ | ⟨second, _ | ⟨third, rest⟩⟩⟩
  · simp [hwords] at hpos
  · exact congrArg (Option.getD · 0) hparent
  · exact congrArg (Option.getD · 0) (atoi_letter stat.state_letter)
  · simp

theorem getProcessInfo_ppid_iff {pid line} {stat : ProcStat} (h : reads.stat pid line = .ok stat.text) :
    (getProcessInfo reads pid line).ppid = stat.ppid.toNat ↔ stat.Unambiguous := by
  have hone : stat.commWords.length = 1 ↔ ∀ c ∈ stat.comm.toList, isSpace c = false := by
    have htext : ("(" ++ stat.comm ++ ")").toList = '(' :: (stat.comm.toList ++ [')']) := by simp
    rw [ProcStat.commWords, fields_eq, length_map, htext]
    exact words_enclosed (by decide) (by decide) stat.comm.toList
  rw [getProcessInfo_ppid h, ProcStat.Unambiguous, ← hone]
  split
  case isTrue hword => simp [hword]
  case isFalse hwords => rw [or_iff_right hwords, eq_comm]

/-- A process under a pod was read from one of the entries, for one line. -/
theorem processesOf_listed {podMap podUID process} (hscan : findPodInfoFrom reads = .ok podMap)
    (hmem : process ∈ processesOf podMap podUID) :
    ∃ named, process = listedProcess reads process.pid named := by
  obtain ⟨entries, -, hlist⟩ := findPodInfo_processes hscan
  rw [hlist] at hmem
  obtain ⟨listed, hlisted, rfl⟩ := mem_map.mp hmem
  obtain ⟨entry, -, hentry⟩ := mem_flatMap.mp (mem_of_mem_filter hlisted)
  unfold listedBy at hentry
  split at hentry
  · cases hentry
  · split at hentry
    · cases hentry
    · obtain ⟨named, -, rfl⟩ := mem_map.mp hentry
      exact ⟨named, rfl⟩

/-- **When the parent of a process is reported**, by `getProcessInfo` and by
the pod scan, of processes whose `stat` files are as the kernel writes them. -/
theorem parentPID_iff (reads : PodReads) (proc : Int → Option ProcStat)
    (hstat : ∀ pid stat, proc pid = some stat → ∀ line, reads.stat pid line = .ok stat.text) :
    (∀ pid stat, proc pid = some stat → ∀ line,
      (getProcessInfo reads pid line).ppid = stat.ppid.toNat ↔ stat.Unambiguous) ∧
    ∀ podMap, findPodInfoFrom reads = .ok podMap → ∀ podUID, ∀ process ∈ processesOf podMap podUID,
      ∀ stat, proc process.pid = some stat → (process.ppid = stat.ppid.toNat ↔ stat.Unambiguous) := by
  refine ⟨fun pid stat hproc line => getProcessInfo_ppid_iff (hstat pid stat hproc line), ?_⟩
  intro podMap hscan podUID process hmem stat hproc
  obtain ⟨named, heq⟩ := processesOf_listed hscan hmem
  rw [congrArg PodProcess.ppid heq]
  exact getProcessInfo_ppid_iff (hstat _ stat hproc named.1)

namespace OnePod

/-- Process 7, a child of process 1, runs under this name. -/
def procStat (comm : String) : ProcStat := ⟨7, comm, 'S', 1, "7 7 0", by decide⟩

def commReads (comm : String) : PodReads := { podReads with stat := fun _ _ => .ok (procStat comm).text }

/-- The parents reported for the pod's processes. -/
def parents (reads : PodReads) : Except ProcError (List Int) :=
  (findPodInfoFrom reads).map fun podMap =>
    (processesOf podMap "20da609e-6973-4463-a1f9-2db9bcc5becc").map PodProcess.ppid

end OnePod

/-- With a blank in its name the process has no parent, and with numbers in it
any other. -/
theorem parentPID_lost :
    parents (commReads "tmux: server") = .ok [0] ∧ parents (commReads "a b 42 c") = .ok [42] := by
  decide +kernel

theorem parentPID_iff_engine :
    (getProcessInfo (commReads "(engine)") 7 0).ppid = 1 ∧ parents (commReads "(engine)") = .ok [1] := by
  refine ⟨?_, by decide +kernel⟩
  have hparents := parentPID_iff (commReads "(engine)") (fun _ => some (procStat "(engine)"))
    (fun pid stat hproc line => by cases hproc; rfl)
  exact (hparents.1 7 _ rfl 0).mpr (.inl (by simp [procStat, isSpace]))

/-! ## Lines -/

/-- The pod that a line of a cgroup file names. -/
def namedPod (text : String) : Option String :=
  if contains text "kubepods" then
    ((split text ':')[2]?).bind fun path => (getPodInfoFromCgroup path).toOption.map Prod.fst
  else none

/-- A line with `kubepods` whose path names no pod. -/
def isBroken (text : String) : Bool :=
  contains text "kubepods" && ((split text ':')[2]?).any fun path => (getPodInfoFromCgroup path).toOption.isNone

/-- The pods named by the lines before the first broken one. -/
def reachedPods (lines : List String) : List String := (lines.takeWhile fun text => !isBroken text).filterMap namedPod

theorem reachedPods_cons (text : String) (rest : List String) :
    reachedPods (text :: rest) = if isBroken text then [] else (namedPod text).toList ++ reachedPods rest := by
  unfold reachedPods
  cases hbroken : isBroken text with
  | true => simp [hbroken]
  | false => cases hnamed : namedPod text <;> simp [hbroken, hnamed]

theorem podLines_pods (lines : List String) (line : Nat) :
    (podLines line lines).map (fun named => named.2.1) = reachedPods lines := by
  induction lines generalizing line with
  | nil => rfl
  | cons text rest ih =>
    rw [reachedPods_cons, podLines]
    by_cases hkube : contains text "kubepods" = true
    · cases hpath : (split text ':')[2]? with
      | none => simp [isBroken, namedPod, hkube, hpath, ih]
      | some path => cases hfound : getPodInfoFromCgroup path <;>
          simp [isBroken, namedPod, hkube, hpath, hfound, Except.toOption, ih]
    · simp [isBroken, namedPod, hkube, ih]

/-- How often the pod scan lists a process under a pod. -/
def timesListed (podMap : StrMap PodInfo) (pid : Int) (podUID : String) : Nat :=
  (processesOf podMap podUID).countP fun process => process.pid = pid

section

variable {entry : DirEntry} {pid : Int} {lines : List String} {ended : Option ReadError} {podUID : String}

theorem listedBy_other (h : pid ∉ entry.number) {p} (hp : p ∈ listedBy reads entry) :
    p.2.pid ≠ pid := by
  unfold listedBy at hp
  split at hp
  · cases hp
  · rename_i pid' hnum
    split at hp
    · cases hp
    · obtain ⟨named, -, rfl⟩ := mem_map.mp hp
      intro heq
      exact h (heq ▸ hnum)

theorem listedBy_count (hnum : entry.number = some pid) (hcgroup : reads.cgroup pid = .ok (lines, ended)) :
    (listedBy reads entry).countP (fun p => p.2.pid = pid && p.1 = podUID) = (reachedPods lines).count podUID := by
  have hpid : ∀ named, (listedProcess reads pid named).pid = pid := fun _ => rfl
  rw [← podLines_pods lines 0, List.count, countP_map]
  simp only [listedBy, hnum, hcgroup, countP_map]
  refine countP_congr fun named _ => ?_
  simp [hpid]

/-- A process is listed once for each line that names a pod and is reached. -/
theorem timesListed_eq {entries podMap} (hroot : reads.root = .ok entries)
    (hpids : (entries.filterMap DirEntry.number).Nodup) (hscan : findPodInfoFrom reads = .ok podMap)
    (hentry : entry ∈ entries) (hnum : entry.number = some pid) (hcgroup : reads.cgroup pid = .ok (lines, ended)) :
    timesListed podMap pid podUID = (reachedPods lines).count podUID := by
  obtain ⟨entries', hroot', hlist⟩ := findPodInfo_processes hscan
  cases hroot.symm.trans hroot'
  obtain ⟨before, after, rfl⟩ := append_of_mem hentry
  -- no other entry has this PID
  rw [filterMap_append, filterMap_cons_some hnum, nodup_middle, nodup_cons, mem_append] at hpids
  have hothers : ∀ others : List DirEntry, pid ∉ others.filterMap DirEntry.number →
      (others.flatMap (listedBy reads)).countP (fun p => p.2.pid = pid && p.1 = podUID) = 0 := by
    intro others hnot
    refine countP_eq_zero.mpr fun p hp => ?_
    obtain ⟨other, hother, hp⟩ := mem_flatMap.mp hp
    have hne : p.2.pid ≠ pid := listedBy_other (fun h => hnot (mem_filterMap.mpr ⟨other, hother, h⟩)) hp
    simp [hne]
  rw [timesListed, hlist, countP_map, countP_filter, flatMap_append, flatMap_cons]
  simp [hothers before fun h => hpids.1 (.inl h), hothers after fun h => hpids.1 (.inr h), listedBy_count hnum hcgroup]

/-- **When the pod scan lists a process once**: it is never listed without a
line that names a pod, and if all such lines name one pod it is listed once,
under that pod, just if one of them is reached. -/
theorem podScan_once_iff {entries : List DirEntry} {podMap : StrMap PodInfo} (hroot : reads.root = .ok entries)
    (hpids : (entries.filterMap DirEntry.number).Nodup) (hscan : findPodInfoFrom reads = .ok podMap)
    (hentry : entry ∈ entries) (hnum : entry.number = some pid) (hcgroup : reads.cgroup pid = .ok (lines, ended)) :
    (lines.filterMap namedPod = [] → ∀ uid, timesListed podMap pid uid = 0) ∧
    ∀ podUID ∈ lines.filterMap namedPod, (∀ other ∈ lines.filterMap namedPod, other = podUID) →
      ((∀ uid, timesListed podMap pid uid = if uid = podUID then 1 else 0) ↔ (reachedPods lines).length = 1) := by
  have htimes : ∀ uid, timesListed podMap pid uid = (reachedPods lines).count uid := fun uid =>
    timesListed_eq hroot hpids hscan hentry hnum hcgroup
  have hsub : ∀ uid ∈ reachedPods lines, uid ∈ lines.filterMap namedPod := fun uid hmem =>
    ((takeWhile_sublist _).filterMap namedPod).subset hmem
  refine ⟨fun hnone uid => ?_, fun podUID _ hsame => ?_⟩
  · rw [htimes, count_eq_zero]
    intro hmem
    have hnamed := hsub uid hmem
    rw [hnone] at hnamed
    cases hnamed
  · have hall : ∀ uid ∈ reachedPods lines, podUID = uid := fun uid hmem => (hsame uid (hsub uid hmem)).symm
    have hcount := count_eq_length.mpr hall
    simp only [htimes]
    constructor
    · intro honce
      rw [← hcount, honce podUID, if_pos rfl]
    · intro hlen uid
      split
      case isTrue heq => rw [heq, hcount, hlen]
      case isFalse hne => exact count_eq_zero.mpr fun hmem => hne (hall uid hmem).symm

end

/-- A process of two hierarchies of cgroup v1. -/
def OnePod.twoHierarchies : PodReads :=
  { podReads with
    cgroup := fun _ => .ok (["9:memory:/kubepods/pod20da609e-6973-4463-a1f9-2db9bcc5becc/1f",
      "5:cpu,cpuacct:/kubepods/pod20da609e-6973-4463-a1f9-2db9bcc5becc/1f"], none) }

/-- It is listed twice. -/
theorem podScan_twice :
    (findPodInfoFrom twoHierarchies).map (fun podMap =>
      (processesOf podMap "20da609e-6973-4463-a1f9-2db9bcc5becc").map PodProcess.pid) = .ok [7, 7] := by
  decide +kernel

theorem podScan_once_iff_onePod :
    ∃ podMap, findPodInfoFrom podReads = .ok podMap ∧
      ∀ uid, timesListed podMap 7 uid = if uid = "20da609e-6973-4463-a1f9-2db9bcc5becc" then 1 else 0 := by
  have hnamed : ["0::/kubepods/pod20da609e-6973-4463-a1f9-2db9bcc5becc"].filterMap namedPod =
      ["20da609e-6973-4463-a1f9-2db9bcc5becc"] := by decide +kernel
  have hpids : ([⟨"7", true⟩, ⟨"acpi", true⟩].filterMap DirEntry.number).Nodup := by decide +kernel
  have hcgroup : podReads.cgroup 7 =
      .ok (["0::/kubepods/pod20da609e-6973-4463-a1f9-2db9bcc5becc"], none) := rfl
  refine ⟨_, rfl, ?_⟩
  refine ((podScan_once_iff rfl hpids rfl mem_cons_self (by decide +kernel) hcgroup).2 _ ?_ ?_).mpr ?_
  · rw [hnamed]
    exact mem_cons_self
  · rw [hnamed]
    exact fun other => mem_singleton.mp
  · decide +kernel

end Gthulhu.DecisionMaker
