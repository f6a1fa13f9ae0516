/-
The decision makers of a cluster (`QueryDecisionMakerPods` in
`api/manager/k8s_adapter/adapter.go`), from the pods listed on: which nodes
are asked for, the host, and the port, which `firstContainerPort` takes from
the ports of all containers.

The names of ports come with an order of preference. The scan goes by the
order of the ports instead and returns at the first preferred name, and a port
number of 0 counts as none seen so far; the documented port comes out just
when neither makes a difference (**`firstContainerPort_documented_iff`**).

Port numbers are natural numbers; the server takes no negative ones.
-/
import Gthulhu.Manager.Domain

namespace Gthulhu.Manager

open List

structure ContainerPort where
  name : String
  containerPort : Nat

structure Container where
  ports : List ContainerPort

inductive PodPhase where
  | pending | running | succeeded | failed | unknown

structure KubePod where
  nodeName : String
  podIP : String
  hostIP : String
  phase : PodPhase
  containers : List Container

def decisionMakerPortNames : List String := ["http", "api", "sidecar", "dm", "decisionmaker"]

def excludedPortNames : List String := ["monitor-metrics", "metrics", "prometheus"]

/-! ## The scan -/

structure PortScan where
  fallback : Nat := 0
  nonExcluded : Nat := 0

/-- A variable that is set while it is 0. -/
def keepFirst (kept port : Nat) : Nat := if kept = 0 then port else kept

/-- The body of the loop over the ports; the error is the return. -/
def PortScan.visit (s : PortScan) (port : ContainerPort) : Except Nat PortScan :=
  let s := { s with fallback := keepFirst s.fallback port.containerPort }
  if port.name ∈ excludedPortNames then .ok s
  else if port.name ∈ decisionMakerPortNames then .error port.containerPort
  else .ok { s with nonExcluded := keepFirst s.nonExcluded port.containerPort }

def firstContainerPort (containers : List Container) : Nat :=
  match containers.foldlM (fun s container => container.ports.foldlM PortScan.visit s) {} with
  | .error port => port
  | .ok s => if s.nonExcluded ≠ 0 then s.nonExcluded else s.fallback

def mapPodState : PodPhase → NodeState
  | .running => .online
  | .pending => .unknown
  | _ => .offline

def decisionMakerPod (pod : KubePod) : DecisionMakerPod where
  nodeID := pod.nodeName
  port := firstContainerPort pod.containers
  host := if pod.podIP = "" then pod.hostIP else pod.podIP
  state := mapPodState pod.phase

/-- `QueryDecisionMakerPods` on the pods it has listed. -/
def decisionMakerPods (opt : QueryDecisionMakerPodsOptions) (pods : List KubePod) : List DecisionMakerPod :=
  (pods.filter fun pod => opt.nodeIDs = [] || opt.nodeIDs.contains pod.nodeName).map decisionMakerPod

/-! ## What is documented -/

/-- The preferred name that comes first in the list of them. -/
def preferredName (ports : List ContainerPort) : Option String :=
  decisionMakerPortNames.find? fun name => ports.any (·.name = name)

def included (ports : List ContainerPort) : List ContainerPort := ports.filter (·.name ∉ excludedPortNames)

/-- Without a preferred name: the first port that is not excluded, else the
first port, else 0. -/
def otherPort (ports : List ContainerPort) : Nat :=
  (((included ports).map (·.containerPort)).head?.or (ports.map (·.containerPort)).head?).getD 0

structure Documented (ports : List ContainerPort) (n : Nat) : Prop where
  preferred : ∀ name ∈ preferredName ports, ∃ port ∈ ports, port.name = name ∧ port.containerPort = n
  other : preferredName ports = none → n = otherPort ports
  /-- An excluded port is not taken where there is another. -/
  excluded : included ports ≠ [] → ∃ port ∈ included ports, port.containerPort = n

/-- The first port with a preferred name has the number of one with the first
of the names; where there is none, the port to take has a number. -/
structure InOrder (ports : List ContainerPort) : Prop where
  preferred : ∀ first ∈ ports.find? (·.name ∈ decisionMakerPortNames),
    ∃ port ∈ ports, port.name ∈ preferredName ports ∧ port.containerPort = first.containerPort
  other : preferredName ports = none → otherPort ports ≠ 0 ∨ ∀ port ∈ ports, port.containerPort = 0

/-! ## The scan keeps the first of each kind -/

theorem foldl_keepFirst {n} (h : n ≠ 0) : ∀ ms : List Nat, ms.foldl keepFirst n = n
  | [] => rfl
  | _ :: ms => by rw [foldl_cons, keepFirst, if_neg h, foldl_keepFirst h ms]

theorem foldl_keepFirst_eq_zero : ∀ {ms : List Nat}, ms.foldl keepFirst 0 = 0 ↔ ∀ m ∈ ms, m = 0
  | [] => by simp
  | m :: ms => by
    rw [foldl_cons, keepFirst, if_pos rfl, forall_mem_cons]
    by_cases hm : m = 0
    · simp [hm, foldl_keepFirst_eq_zero]
    · simp [hm, foldl_keepFirst hm]

theorem head_getD_foldl {ms : List Nat} (h : ms.head?.getD 0 ≠ 0) : ms.foldl keepFirst 0 = ms.head?.getD 0 := by
  cases ms with
  | nil => rfl
  | cons m ms => exact foldl_keepFirst h ms

theorem foldlM_visit (ports : List ContainerPort) (s : PortScan) : ports.foldlM PortScan.visit s =
    match ports.find? (·.name ∈ decisionMakerPortNames) with
    | some first => .error first.containerPort
    | none => .ok ⟨(ports.map (·.containerPort)).foldl keepFirst s.fallback,
        ((included ports).map (·.containerPort)).foldl keepFirst s.nonExcluded⟩ := by
  have hapart : ∀ name ∈ excludedPortNames, name ∉ decisionMakerPortNames := by decide
  induction ports generalizing s with
  | nil => rfl
  | cons port ports ih =>
    rw [foldlM_cons, PortScan.visit, find?_cons, included, filter_cons]
    by_cases hex : port.name ∈ excludedPortNames
    · simp [hex, hapart _ hex, bind, Except.bind, ih, included]
    · by_cases hpre : port.name ∈ decisionMakerPortNames
      · simp [hex, hpre, bind, Except.bind]
      · simp [hex, hpre, bind, Except.bind, ih, included]

theorem foldlM_ports (containers : List Container) (s : PortScan) :
    containers.foldlM (fun s container => container.ports.foldlM PortScan.visit s) s =
      (containers.flatMap Container.ports).foldlM PortScan.visit s := by
  induction containers generalizing s with
  | nil => rfl
  | cons container containers ih => simp only [foldlM_cons, flatMap_cons, foldlM_append, ih]

/-! ## The choice -/

theorem preferredName_eq_none {ports} :
    preferredName ports = none ↔ ports.find? (·.name ∈ decisionMakerPortNames) = none := by
  simp only [preferredName, find?_eq_none, any_eq_true, decide_eq_true_eq, not_exists, not_and]
  exact ⟨fun h port hp hname => h _ hname port hp rfl, fun h name hname port hp he => h port hp (he ▸ hname)⟩

theorem Documented.mk' {ports n} (hpre : ∀ name ∈ preferredName ports, ∃ port ∈ ports, port.name = name ∧ port.containerPort = n)
    (hother : preferredName ports = none → n = otherPort ports) : Documented ports n := by
  refine ⟨hpre, hother, fun hne => ?_⟩
  cases hname : preferredName ports with
  | some name =>
    obtain ⟨port, hp, hport, hn⟩ := hpre name hname
    have hmem : name ∈ decisionMakerPortNames := mem_of_find?_eq_some hname
    have hapart : ∀ name ∈ decisionMakerPortNames, name ∉ excludedPortNames := by decide
    exact ⟨port, mem_filter.mpr ⟨hp, by simpa [hport] using hapart name hmem⟩, hn⟩
  | none =>
    obtain ⟨port, rest, hports⟩ := exists_cons_of_ne_nil hne
    refine ⟨port, by simp [hports], ?_⟩
    simp [hother hname, otherPort, hports]

theorem scanned_eq_otherPort_iff {ports : List ContainerPort} {n m}
    (hm : m = (ports.map (·.containerPort)).foldl keepFirst 0)
    (hn : n = ((included ports).map (·.containerPort)).foldl keepFirst 0) :
    (if n ≠ 0 then n else m) = otherPort ports ↔ otherPort ports ≠ 0 ∨ ∀ port ∈ ports, port.containerPort = 0 := by
  have hzero : m = 0 ↔ ∀ port ∈ ports, port.containerPort = 0 := by
    rw [hm, foldl_keepFirst_eq_zero, forall_mem_map]
  have hzero' : m = 0 → n = 0 := by
    rw [hzero, hn, foldl_keepFirst_eq_zero, forall_mem_map]
    exact fun h port hp => h port (mem_of_mem_filter hp)
  by_cases hother : otherPort ports = 0
  · rw [hother, ← hzero]
    split <;> omega
  · refine iff_of_true ?_ (.inl hother)
    cases hinc : included ports with
    | nil =>
      have hhead : otherPort ports = (ports.map (·.containerPort)).head?.getD 0 := by simp [otherPort, hinc]
      rw [hinc] at hn
      rw [hhead] at hother ⊢
      simp [hn, hm, head_getD_foldl hother]
    | cons port rest =>
      have hhead : otherPort ports = port.containerPort := by simp [otherPort, hinc]
      rw [hhead] at hother ⊢
      have hport : n = port.containerPort := by rw [hn, hinc]; exact foldl_keepFirst hother _
      rw [hport, if_pos hother]

/-- **The documented port is chosen** just when the ports are in order; and a
decision maker is asked at the port chosen for its pod. -/
theorem firstContainerPort_documented_iff (containers : List Container) (opt : QueryDecisionMakerPodsOptions)
    (pods : List KubePod) :
    (Documented (containers.flatMap Container.ports) (firstContainerPort containers) ↔
      InOrder (containers.flatMap Container.ports)) ∧
    ∀ dm ∈ decisionMakerPods opt pods, ∃ pod ∈ pods,
      dm.nodeID = pod.nodeName ∧ dm.port = firstContainerPort pod.containers := by
  refine ⟨?_, fun dm hdm => ?_⟩
  · rw [firstContainerPort, foldlM_ports, foldlM_visit]
    generalize containers.flatMap Container.ports = ports
    cases hfirst : ports.find? (·.name ∈ decisionMakerPortNames) with
    | some first =>
      have hsome : preferredName ports ≠ none := fun h => by simp [preferredName_eq_none.mp h] at hfirst
      obtain ⟨name, hname⟩ := Option.ne_none_iff_exists'.mp hsome
      refine ⟨fun h => ⟨fun p hp => ?_, fun h' => absurd h' hsome⟩, fun h => .mk' (fun name hn => ?_) fun h' => absurd h' hsome⟩
      · obtain ⟨port, hmem, hport, heq⟩ := h.preferred name hname
        rw [hfirst, Option.mem_some_iff] at hp
        exact ⟨port, hmem, hport ▸ hname, hp ▸ heq⟩
      · obtain ⟨port, hmem, hport, heq⟩ := h.preferred first hfirst
        exact ⟨port, hmem, Option.mem_unique hport hn, heq⟩
    | none =>
      have hnone := preferredName_eq_none.mpr hfirst
      have hiff := @scanned_eq_otherPort_iff ports _ _ rfl rfl
      exact ⟨fun h => ⟨by simp [hfirst], fun _ => hiff.mp (h.other hnone)⟩,
        fun h => .mk' (by simp [hnone]) fun _ => hiff.mpr (h.other hnone)⟩
  · obtain ⟨pod, hp, rfl⟩ := mem_map.mp hdm
    exact ⟨pod, mem_of_mem_filter hp, rfl, rfl⟩

/-- A port `api` of the scheduler's container, before the sidecar's `http`. -/
theorem firstContainerPort_api :
    ¬ Documented [⟨"api", 8081⟩, ⟨"http", 8080⟩] (firstContainerPort [⟨[⟨"api", 8081⟩]⟩, ⟨[⟨"http", 8080⟩]⟩]) := by
  have hport : firstContainerPort [⟨[⟨"api", 8081⟩]⟩, ⟨[⟨"http", 8080⟩]⟩] = 8081 := rfl
  intro h
  simpa [hport] using h.preferred "http" rfl

end Gthulhu.Manager
