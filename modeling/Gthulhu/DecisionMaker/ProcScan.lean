/-
The two scans of `/proc`: pods with their processes (`FindPodInfoFrom` in
`api/decisionmaker/service/service.go`), and every thread of the node
(`procTaskSource.Snapshot` in `procmonitor.go`).

What each read gives is an input. The first scan goes on after a read that
failed, whatever the error was: a process whose cgroup file cannot be opened
is left out, lines after a read error are missing, and a process whose comm
cannot be read has the empty command. The second one skips what has vanished
and fails on any other error.
-/
import Gthulhu.DecisionMaker.Service
import Gthulhu.Lib.GoText

namespace Gthulhu.DecisionMaker

open Lib

/-! ## Reads -/

inductive ReadError where
  /-- ENOENT -/
  | notExist
  /-- ESRCH -/
  | noProcess
  | other (text : String)
  deriving DecidableEq

/-- The process or thread has vanished since its directory was listed. -/
def isTransientProcError : ReadError → Bool
  | .notExist | .noProcess => true
  | .other _ => false

inductive ProcError where
  | read (err : ReadError)
  | cancelled (text : String)
  | wrapped (message : String) (err : ProcError)
  deriving DecidableEq

structure DirEntry where
  name : String
  isDir : Bool
  deriving DecidableEq

/-- The number a directory's name is. -/
def DirEntry.number (entry : DirEntry) : Option Int := if entry.isDir then atoi entry.name else none

/-- What the reads of one pod scan give. -/
structure PodReads where
  root : Except ReadError (List DirEntry)
  /-- The lines of a process's cgroup file, and the error they end with if the
  file is not read to its end. -/
  cgroup : Int → Except ReadError (List String × Option ReadError)
  /-- `comm` and `stat` of a process, as read for a line of its cgroup file. -/
  comm : Int → Nat → Except ReadError String
  stat : Int → Nat → Except ReadError String

/-- What the reads of one snapshot give. -/
structure TaskReads where
  root : Except ReadError (List DirEntry)
  taskDir : Int → Except ReadError (List DirEntry)
  comm : Int → Int → Except ReadError String
  /-- `ctx.Err()` before a process is looked at, or one of its threads. -/
  ctxErr : DirEntry → Option DirEntry → Option String := fun _ _ => none

/-! ## Pods -/

structure PodProcess where
  pid : Int
  command : String := ""
  ppid : Int := 0
  containerID : String := ""
  deriving DecidableEq

structure PodInfo where
  podUID : String
  processes : List PodProcess
  deriving DecidableEq

def isHexDigit (c : Char) : Bool := c.isDigit || ('a' ≤ c && c ≤ 'f') || ('A' ≤ c && c ≤ 'F')

/-- The group of `podRegex`: 8, 4, 4, 4 and 12 hex digits with a dash or an
underscore between. -/
def uidPattern : List (Char → Bool) :=
  let hex (n : Nat) : List (Char → Bool) := List.replicate n isHexDigit
  let separator (c : Char) : Bool := c = '-' || c = '_'
  hex 8 ++ separator :: (hex 4 ++ separator :: (hex 4 ++ separator :: (hex 4 ++ separator :: hex 12)))

/-- The characters at the start of a text that match the pattern one by one. -/
def matchHere : List (Char → Bool) → List Char → Option (List Char)
  | [], _ => some []
  | _ :: _, [] => none
  | p :: ps, c :: cs => if p c then (matchHere ps cs).map (c :: ·) else none

/-- `podRegex.FindStringSubmatch`: the group of the leftmost match. -/
def findPodUID : List Char → Option (List Char)
  | [] => none
  | c :: cs =>
    let here := if "pod".toList.isPrefixOf (c :: cs) then matchHere uidPattern ((c :: cs).drop 3) else none
    here.or (findPodUID cs)

/-- One part of a cgroup path, over the pod and the container found so far. -/
def readPathPart (found : String × String) (part : String) : String × String :=
  let podUID :=
    match findPodUID part.toList with
    | some uid => String.ofList (uid.map fun c => if c = '_' then '-' else c)
    | none => found.1
  let containerID :=
    if startsWith part "cri-containerd-" ∧ endsWith part ".scope" then
      String.ofList ((part.toList.drop "cri-containerd-".length).rdrop ".scope".length)
    else found.2
  (podUID, containerID)

def getPodInfoFromCgroup (cgroupPath : String) : Except String (String × String) :=
  let found := (split cgroupPath '/').foldl readPathPart ("", "")
  if found.1 = "" then .error "pod UID not found in cgroup path" else .ok found

section

variable (reads : PodReads)

/-- The comm and the parent, where they can be read. -/
def getProcessInfo (pid : Int) (line : Nat) : PodProcess :=
  { pid := pid
    command :=
      match reads.comm pid line with
      | .ok data => trimSpace data
      | .error _ => ""
    ppid :=
      match reads.stat pid line with
      | .ok data => (((fields data)[3]?).bind atoi).getD 0
      | .error _ => 0 }

/-- A process put under its pod. -/
def addProcess (podInfoMap : StrMap PodInfo) (podUID : String) (process : PodProcess) : StrMap PodInfo :=
  match podInfoMap.lookup podUID with
  | some podInfo => podInfoMap.insert podUID { podInfo with processes := podInfo.processes ++ [process] }
  | none => podInfoMap.insert podUID ⟨podUID, [process]⟩

def parseCgroupToPodInfo (text : String) (pid : Int) (line : Nat) (podInfoMap : StrMap PodInfo) :
    Except String (StrMap PodInfo) :=
  match (split text ':')[2]? with
  | none => .ok podInfoMap
  | some cgroupHierarchy => do
    let (podUID, containerID) ← getPodInfoFromCgroup cgroupHierarchy
    .ok (addProcess podInfoMap podUID { getProcessInfo reads pid line with containerID := containerID })

/-- The loop over the lines of a cgroup file; the first one that cannot be
parsed ends it. -/
def scanCgroup (pid : Int) : Nat → List String → StrMap PodInfo → StrMap PodInfo
  | _, [], podMap => podMap
  | line, text :: rest, podMap =>
    if contains text "kubepods" then
      match parseCgroupToPodInfo reads text pid line podMap with
      | .error _ => podMap
      | .ok podMap => scanCgroup pid (line + 1) rest podMap
    else scanCgroup pid (line + 1) rest podMap

/-- The body of the loop over the entries of `/proc`. -/
def scanProcess (podMap : StrMap PodInfo) (entry : DirEntry) : StrMap PodInfo :=
  match entry.number with
  | none => podMap
  | some pid =>
    match reads.cgroup pid with
    | .error _ => podMap
    -- `scanner.Err()` is looked at and dropped.
    | .ok (lines, _) => scanCgroup reads pid 0 lines podMap

def findPodInfoFrom : Except ProcError (StrMap PodInfo) :=
  match reads.root with
  | .error err => .error (.wrapped "failed to read /proc directory" (.read err))
  | .ok entries => .ok (entries.foldl (scanProcess reads) ∅)

end

/-! ## Threads -/

structure TaskInfo where
  tgid : Int
  tid : Int
  comm : String
  deriving DecidableEq

section

variable (reads : TaskReads)

/-- One entry of a task directory: its thread, or nothing. -/
def threadTask (tgidEntry : DirEntry) (tgid : Int) (tidEntry : DirEntry) : Except ProcError (List TaskInfo) :=
  match reads.ctxErr tgidEntry (some tidEntry) with
  | some text => .error (.cancelled text)
  | none =>
    match tidEntry.number with
    | none => .ok []
    | some tid =>
      match reads.comm tgid tid with
      | .ok data => .ok [⟨tgid, tid, trimSpace data⟩]
      | .error err =>
        if isTransientProcError err then .ok []
        else .error (.wrapped ("read comm for tid " ++ toString tid) (.read err))

/-- One entry of `/proc`: the threads of its process. -/
def processTasks (tgidEntry : DirEntry) : Except ProcError (List TaskInfo) :=
  match reads.ctxErr tgidEntry none with
  | some text => .error (.cancelled text)
  | none =>
    match tgidEntry.number with
    | none => .ok []
    | some tgid =>
      match reads.taskDir tgid with
      | .ok tidEntries => (tidEntries.mapM (threadTask reads tgidEntry tgid)).map List.flatten
      | .error err =>
        if isTransientProcError err then .ok []
        else .error (.wrapped ("read task dir for tgid " ++ toString tgid) (.read err))

def snapshot (byTID : SortBy Int) : Except ProcError (List TaskInfo) :=
  match reads.root with
  | .error err => .error (.read err)
  | .ok tgidEntries =>
    (tgidEntries.mapM (processTasks reads)).map fun tasks => byTID.sort TaskInfo.tid tasks.flatten

end

end Gthulhu.DecisionMaker
