/-
The published list of two decision makers with the same intents and policies.

The part from node policies is the same for both. The part from pod intents
follows the cache, entry by entry: two intents that select one process give it
two entries, a node policy may give it a third, and the order is the one the
intents were pushed in. The lists have one entry a process and agree just when
no process is selected twice and the intents that select anything stand in the
same order in both caches (**`listAllSchedulingIntents_unambiguous_iff`**). An
execution time is listed as it is when it is not negative
(**`executionTime_kept_iff`**).
-/
import Gthulhu.DecisionMaker.ResolveFacts

namespace Gthulhu.DecisionMaker

open Lib Util List

variable {go go₁ go₂ : SliceSort} {regexp : Regexp} {byTID : SortBy Int} {pods : PodReads} {tasks : TaskReads}
  {podInfos : StrMap PodInfo} {threads : List TaskInfo} {svc svc₁ svc₂ : Service}

/-! ## The list and the two scans -/

/-- The pods that a listing goes by: without intents it does not look. -/
def podScan (pods : PodReads) (svc : Service) : Except ProcError (StrMap PodInfo) :=
  if svc.intentCache = [] then .ok ∅ else findPodInfoFrom pods

/-- The threads it goes by: without policies it does not look. -/
def taskScan (byTID : SortBy Int) (tasks : TaskReads) (svc : Service) : Except ProcError (List TaskInfo) :=
  if svc.nodePolicyCache = [] then .ok [] else snapshot tasks byTID

def published (go : SliceSort) (regexp : Regexp) (podInfos : StrMap PodInfo) (threads : List TaskInfo) (svc : Service) :
    List SchedulingIntents :=
  resolveSchedulingIntents regexp svc.intentCache podInfos ++
    byTIDs (resolved regexp threads (sortNodePoliciesByKey go svc.nodePolicyCache))

theorem listAll_eq : listAllSchedulingIntents go regexp byTID pods tasks svc =
    match podScan pods svc, taskScan byTID tasks svc with
    | .error err, _ => .error err
    | .ok _, .error err => .error (.wrapped "resolve node scheduling intents" (.wrapped "snapshot tasks" err))
    | .ok podInfos, .ok threads => .ok (published go regexp podInfos threads svc) := by
  have hnode : resolveNodeSchedulingIntents go regexp (some (snapshot tasks byTID)) svc =
      match taskScan byTID tasks svc with
      | .error err => .error (.wrapped "snapshot tasks" err)
      | .ok threads => .ok (byTIDs (resolved regexp threads (sortNodePoliciesByKey go svc.nodePolicyCache))) := by
    by_cases hnil : svc.nodePolicyCache = []
    · simp only [resolveNodeSchedulingIntents, taskScan, hnil, if_true, sortNodePoliciesByKey, go.sort_nil]
      rfl
    · cases hs : snapshot tasks byTID with
      | error err => simp only [resolveNodeSchedulingIntents, taskScan, hnil, if_false, hs]
      | ok threads => rw [resolveNode_ok]; simp only [taskScan, hnil, if_false, hs]
  unfold listAllSchedulingIntents
  rw [hnode]
  by_cases hnil : svc.intentCache = []
  · simp only [podScan, hnil, if_true, published, resolveSchedulingIntents, flatMap_nil, nil_append]
    cases taskScan byTID tasks svc <;> rfl
  · simp only [podScan, hnil, if_false]
    cases findPodInfoFrom pods with
    | error err => rfl
    | ok podInfos => cases taskScan byTID tasks svc <;> rfl

theorem listAll_ok_iff {list} :
    listAllSchedulingIntents go regexp byTID pods tasks svc = .ok list ↔
      ∃ podInfos threads, podScan pods svc = .ok podInfos ∧ taskScan byTID tasks svc = .ok threads ∧
        list = published go regexp podInfos threads svc := by
  rw [listAll_eq]
  cases podScan pods svc with
  | error err => simp
  | ok podInfos =>
    cases taskScan byTID tasks svc with
    | error err => simp
    | ok threads => simp [eq_comm]

/-! ## One entry a process -/

/-- No process is selected by both intents. -/
def Apart (regexp : Regexp) (podInfos : StrMap PodInfo) (i j : Intent) : Prop :=
  ∀ x ∈ selectedProcesses regexp podInfos i, ∀ y ∈ selectedProcesses regexp podInfos j, x.pid ≠ y.pid

instance : Std.Symm (Apart regexp podInfos) := ⟨fun _ _ h x hx y hy => (h y hy x hx).symm⟩

/-- No process is selected twice: by two intents, as listed twice under its
pod, or by an intent and a policy. -/
structure SelectedOnce (regexp : Regexp) (podInfos : StrMap PodInfo) (threads : List TaskInfo) (svc : Service) : Prop where
  intents : svc.intentCache.Pairwise (Apart regexp podInfos)
  listed : ∀ i ∈ svc.intentCache, ((selectedProcesses regexp podInfos i).map PodProcess.pid).Nodup
  policies : ∀ i ∈ svc.intentCache, ∀ x ∈ selectedProcesses regexp podInfos i, ∀ task ∈ threads, task.tid = x.pid →
    ∀ policy ∈ svc.nodePolicyCache, policy.selects regexp task = false

theorem mem_byTIDs_pid {policies tid} :
    tid ∈ (byTIDs (resolved regexp threads policies)).map SchedulingIntents.pid ↔
      ∃ task ∈ threads, task.tid = tid ∧ ∃ policy ∈ policies, policy.selects regexp task = true := by
  have hwrite : tid ∈ (byTIDs (resolved regexp threads policies)).map SchedulingIntents.pid ↔
      ∃ e ∈ nodeWrites regexp threads policies, e.1 = tid := by
    simp only [mem_map, mem_byTIDs]
    refine ⟨fun h => ?_, fun h => ?_⟩
    · obtain ⟨e, ⟨tid', hl⟩, rfl⟩ := h
      have hpid := (resolved_lookup_some hl).1
      rw [resolved_lookup] at hl
      obtain ⟨w, hw, _⟩ := Option.map_eq_some_iff.mp hl
      have hw := mem_filter.mp (mem_of_getLast? hw)
      exact ⟨w, hw.1, by rw [hpid]; exact of_decide_eq_true hw.2⟩
    · obtain ⟨w, hw, rfl⟩ := h
      have hne : (nodeWrites regexp threads policies).filter (fun e => e.1 = w.1) ≠ [] :=
        ne_nil_of_mem (mem_filter.mpr ⟨hw, by simp⟩)
      have hsome : ((resolved regexp threads policies).lookup w.1).isSome = true := by
        rw [resolved_lookup, getLast?_eq_some_getLast hne]
        rfl
      obtain ⟨e, hl⟩ := Option.isSome_iff_exists.mp hsome
      exact ⟨e, ⟨w.1, hl⟩, (resolved_lookup_some hl).1⟩
  rw [hwrite]
  simp only [nodeWrites, mem_flatMap, mem_map, mem_filter]
  refine ⟨fun h => ?_, fun h => ?_⟩
  · obtain ⟨_, ⟨policy, hp, task, ⟨ht, hsel⟩, rfl⟩, htid⟩ := h
    exact ⟨task, ht, htid, policy, hp, hsel⟩
  · obtain ⟨task, ht, htid, policy, hp, hsel⟩ := h
    exact ⟨_, ⟨policy, hp, task, ⟨ht, hsel⟩, rfl⟩, htid⟩

theorem nodup_published_iff :
    ((published go regexp podInfos threads svc).map SchedulingIntents.pid).Nodup ↔
      SelectedOnce regexp podInfos threads svc := by
  have hpods : (resolveSchedulingIntents regexp svc.intentCache podInfos).map SchedulingIntents.pid =
      svc.intentCache.flatMap fun i => (selectedProcesses regexp podInfos i).map PodProcess.pid := by
    simp only [resolveSchedulingIntents, map_flatMap, map_map]
    rfl
  have hnodes : ((byTIDs (resolved regexp threads (sortNodePoliciesByKey go svc.nodePolicyCache))).map
      SchedulingIntents.pid).Nodup := by
    rw [List.Nodup, pairwise_map]
    exact (byTIDs_increasing fun tid e h => (resolved_lookup_some h).1).imp fun h => h.ne
  rw [published, map_append, hpods, nodup_append', nodup_flatMap]
  refine ⟨fun h => ?_, fun h => ⟨⟨h.listed, ?_⟩, hnodes, ?_⟩⟩
  · obtain ⟨⟨hlisted, hdisjoint⟩, -, happart⟩ := h
    refine ⟨hdisjoint.imp fun hd x hx y hy he => ?_, hlisted, fun i hi x hx task ht htid policy hp => ?_⟩
    · exact hd (mem_map_of_mem hx) (he ▸ mem_map_of_mem hy)
    · rw [← Bool.not_eq_true]
      intro hsel
      refine happart (mem_flatMap.mpr ⟨i, hi, mem_map_of_mem hx⟩) (mem_byTIDs_pid.mpr ?_)
      exact ⟨task, ht, htid, policy, go.mem_sort.mpr hp, hsel⟩
  · refine h.intents.imp fun hne pid hx hy => ?_
    obtain ⟨x, hx', hpid⟩ := mem_map.mp hx
    obtain ⟨y, hy', hpid'⟩ := mem_map.mp hy
    exact hne x hx' y hy' (hpid.trans hpid'.symm)
  · intro pid hx hy
    obtain ⟨i, hi, hx⟩ := mem_flatMap.mp hx
    obtain ⟨x, hx', hpid⟩ := mem_map.mp hx
    obtain ⟨task, ht, htid, policy, hp, hsel⟩ := mem_byTIDs_pid.mp hy
    rw [h.policies i hi x hx' task ht (htid.trans hpid.symm) policy (go.mem_sort.mp hp)] at hsel
    cases hsel

/-! ## One order -/

/-- The intents that select anything. -/
def selecting (regexp : Regexp) (podInfos : StrMap PodInfo) (intents : List Intent) : List Intent :=
  intents.filter fun i => selectedProcesses regexp podInfos i ≠ []

/-- The fields of an entry that a scheduler goes by. -/
def SchedulingIntents.shown (e : SchedulingIntents) : Int × Int64 × UInt64 × String :=
  (e.pid, e.priority, e.executionTime, e.commandRegex)

theorem resolve_selecting (intents : List Intent) :
    resolveSchedulingIntents regexp intents podInfos =
      resolveSchedulingIntents regexp (selecting regexp podInfos intents) podInfos := by
  induction intents with
  | nil => rfl
  | cons i intents ih =>
    simp only [resolveSchedulingIntents, selecting, flatMap_cons, filter_cons] at ih ⊢
    by_cases hi : selectedProcesses regexp podInfos i = []
    · simp [hi, ih]
    · simp [hi, ih]

/-- Blocks that are told apart by any of their items stand in one order. -/
theorem eq_of_flatMap_eq {α β : Type} {f : α → List β} {l l' : List α} (hne : ∀ a ∈ l, f a ≠ [])
    (hne' : ∀ a ∈ l', f a ≠ []) (hblock : ∀ a ∈ l, ∀ b ∈ l', ∀ x ∈ f a, x ∈ f b → a = b)
    (h : l.flatMap f = l'.flatMap f) : l = l' := by
  induction l generalizing l' with
  | nil =>
    cases l' with
    | nil => rfl
    | cons b l' =>
      have hnil := (append_eq_nil_iff.mp h.symm).1
      exact absurd hnil (hne' b (by simp))
  | cons a l ih =>
    obtain ⟨x, block, hx⟩ := exists_cons_of_ne_nil (hne a (by simp))
    cases l' with
    | nil =>
      have hnil := (append_eq_nil_iff.mp h).1
      exact absurd hnil (hne a (by simp))
    | cons b l' =>
      obtain ⟨y, block', hy⟩ := exists_cons_of_ne_nil (hne' b (by simp))
      rw [flatMap_cons, flatMap_cons] at h
      have hxy : x = y := by
        rw [hx, hy, cons_append, cons_append] at h
        exact (List.cons.inj h).1
      obtain rfl : a = b := hblock a (by simp) b (by simp) x (by simp [hx]) (by simp [hy, hxy])
      rw [ih (fun c hc => hne c (by simp [hc])) (fun c hc => hne' c (by simp [hc]))
        (fun c hc d hd => hblock c (by simp [hc]) d (by simp [hd])) (append_cancel_left h)]

theorem shown_resolve (intents : List Intent) :
    (resolveSchedulingIntents regexp intents podInfos).map SchedulingIntents.shown =
      intents.flatMap fun i => (selectedProcesses regexp podInfos i).map fun x => (podEntry i x).shown := by
  simp only [resolveSchedulingIntents, map_flatMap, map_map]
  rfl

/-- Where no process is selected twice, the entries show the order of the intents. -/
theorem selecting_eq_of_shown {cache1 cache2} (hsame : ∀ i, i ∈ cache1 ↔ i ∈ cache2)
    (hapart : cache1.Pairwise (Apart regexp podInfos))
    (h : (resolveSchedulingIntents regexp cache1 podInfos).map SchedulingIntents.shown =
      (resolveSchedulingIntents regexp cache2 podInfos).map SchedulingIntents.shown) :
    selecting regexp podInfos cache1 = selecting regexp podInfos cache2 := by
  rw [resolve_selecting cache1, resolve_selecting cache2, shown_resolve, shown_resolve] at h
  have hne : ∀ {cache : List Intent}, ∀ i ∈ selecting regexp podInfos cache,
      (selectedProcesses regexp podInfos i).map (fun x => (podEntry i x).shown) ≠ [] := by
    intro cache i hi hnil
    have hsel := (mem_filter.mp hi).2
    rw [map_eq_nil_iff] at hnil
    simp [hnil] at hsel
  refine eq_of_flatMap_eq hne hne (fun i hi j hj e he he' => ?_) h
  obtain ⟨x, hx, rfl⟩ := mem_map.mp he
  obtain ⟨y, hy, heq⟩ := mem_map.mp he'
  have hpid : y.pid = x.pid := congrArg Prod.fst heq
  by_contra hij
  have hjoint := hapart.forall (mem_of_mem_filter hi) ((hsame j).mpr (mem_of_mem_filter hj)) hij
  exact hjoint x hx y hy hpid.symm

/-! ## Two decision makers -/

/-- Both listings succeed with one entry a process and show the same entries in
the same order, or both fail alike. -/
structure Unambiguous (r₁ r₂ : Except ProcError (List SchedulingIntents)) : Prop where
  once₁ : ∀ list, r₁ = .ok list → (list.map SchedulingIntents.pid).Nodup
  once₂ : ∀ list, r₂ = .ok list → (list.map SchedulingIntents.pid).Nodup
  same : r₁.map (List.map SchedulingIntents.shown) = r₂.map (List.map SchedulingIntents.shown)

/-- What it takes: no process is selected twice, and the intents that select
anything stand in one order in both caches. -/
structure OnceInOrder (regexp : Regexp) (podInfos : StrMap PodInfo) (threads : List TaskInfo) (svc₁ svc₂ : Service) :
    Prop where
  once : SelectedOnce regexp podInfos threads svc₁
  order : selecting regexp podInfos svc₁.intentCache = selecting regexp podInfos svc₂.intentCache

theorem unambiguous_published_iff (hintents : ∀ i, i ∈ svc₁.intentCache ↔ i ∈ svc₂.intentCache)
    (hplain : ∀ p ∈ svc₁.nodePolicyCache, p.Plain)
    (hpolicies : ∀ p, p ∈ svc₁.nodePolicyCache ↔ p ∈ svc₂.nodePolicyCache) :
    Unambiguous (.ok (published go₁ regexp podInfos threads svc₁)) (.ok (published go₂ regexp podInfos threads svc₂)) ↔
      OnceInOrder regexp podInfos threads svc₁ svc₂ := by
  have hnodes : byTIDs (resolved regexp threads (sortNodePoliciesByKey go₁ svc₁.nodePolicyCache)) =
      byTIDs (resolved regexp threads (sortNodePoliciesByKey go₂ svc₂.nodePolicyCache)) :=
    byTIDs_resolved_eq go₁ go₂ hplain hpolicies
  have hshown : (published go₁ regexp podInfos threads svc₁).map SchedulingIntents.shown =
      (published go₂ regexp podInfos threads svc₂).map SchedulingIntents.shown ↔
        (resolveSchedulingIntents regexp svc₁.intentCache podInfos).map SchedulingIntents.shown =
          (resolveSchedulingIntents regexp svc₂.intentCache podInfos).map SchedulingIntents.shown := by
    rw [published, published, map_append, map_append, hnodes, append_cancel_right_eq]
  refine ⟨fun h => ?_, fun h => ?_⟩
  · have honce := nodup_published_iff.mp (h.once₁ _ rfl)
    exact ⟨honce, selecting_eq_of_shown hintents honce.intents (hshown.mp (Except.ok.inj h.same))⟩
  · have hpods : resolveSchedulingIntents regexp svc₁.intentCache podInfos =
        resolveSchedulingIntents regexp svc₂.intentCache podInfos := by
      rw [resolve_selecting svc₁.intentCache, resolve_selecting svc₂.intentCache, h.order]
    have hlists : published go₁ regexp podInfos threads svc₁ = published go₂ regexp podInfos threads svc₂ := by
      rw [published, published, hnodes, hpods]
    have hnodup : ((published go₁ regexp podInfos threads svc₁).map SchedulingIntents.pid).Nodup :=
      nodup_published_iff.mpr h.once
    refine ⟨fun list hl => ?_, fun list hl => ?_, ?_⟩
    · cases hl
      exact hnodup
    · cases hl
      rw [← hlists]
      exact hnodup
    · rw [hlists]

/-- The messages hashed for the tree over a process's intents. -/
def Process.intentMessages (go : SliceSort) (p : Process) : List (List UInt8) :=
  DecisionMaker.intentMessages (sortIntentsByKey go p.intents)

/-- The root a process reports is that of its intents, sorted. -/
theorem intentRoot_eq (go : SliceSort) {p : Process} (hplain : ∀ i ∈ p.intents, i.Plain) :
    (p.serve go (.ok ()) .getIntentMerkleRoot).1 =
      .merkleRoot (buildMerkleTree ((sortIntentsByKey go p.intents).map hashIntent)).hash := by
  rcases hserve : p.serve go (.ok ()) .getIntentMerkleRoot with ⟨resp, p'⟩
  obtain ⟨⟨l, hl, hs, rfl⟩, _⟩ := Process.serve_getIntentMerkleRoot hserve
  have hsorted : l = sortIntentsByKey go p.intents :=
    sorted_unique intentSortKey_inj (hl.trans (go.perm _ _).symm) (fun i hi => hplain i (hl.mem_iff.mp hi)) hs (go.sorted _ _)
  rw [hsorted]

theorem sameIntents {p1 p2 : Process} (hplain1 : ∀ i ∈ p1.intents, i.Plain) (hplain2 : ∀ i ∈ p2.intents, i.Plain)
    (hsha : Set.InjOn sha256 {m | m ∈ p1.intentMessages go₁ ∨ m ∈ p2.intentMessages go₂})
    (hroot : (p1.serve go₁ (.ok ()) .getIntentMerkleRoot).1 = (p2.serve go₂ (.ok ()) .getIntentMerkleRoot).1)
    (i : Intent) : i ∈ p1.intents ↔ i ∈ p2.intents := by
  rw [intentRoot_eq go₁ hplain1, intentRoot_eq go₂ hplain2] at hroot
  have hsame := sameIntents_of_root_eq (fun i h => hplain1 i (go₁.mem_sort.mp h))
    (fun i h => hplain2 i (go₂.mem_sort.mp h)) hsha (Response.merkleRoot.inj hroot) i
  rwa [go₁.mem_sort, go₂.mem_sort] at hsame

namespace OnePod

/-- Every regex matches everything. -/
def anything : Regexp := fun _ => some fun _ => true

def intent (priority : Int64) : Intent where
  podName := "p"
  podID := "20da609e-6973-4463-a1f9-2db9bcc5becc"
  nodeID := "a"
  k8sNamespace := "default"
  commandRegex := ".*"
  priority := priority
  executionTime := 20
  podLabels := ∅

theorem intent_plain (priority : Int64) : (intent priority).Plain where
  podName := (by decide : '|' ∉ "p".toList)
  podID := (by decide : '|' ∉ "20da609e-6973-4463-a1f9-2db9bcc5becc".toList)
  nodeID := (by decide : '|' ∉ "a".toList)
  k8sNamespace := (by decide : '|' ∉ "default".toList)
  podLabels label hl := absurd hl (Multiset.notMem_zero label)

/-- A decision maker that was sent these intents. -/
def sent (intents : List Intent) : Process := (Process.fresh.serve .insertion (.ok ()) (.handleIntents intents)).2

/-- Process 7 is the pod's, and runs `engine`. -/
def podReads : PodReads where
  root := .ok [⟨"7", true⟩, ⟨"acpi", true⟩]
  cgroup _ := .ok (["0::/kubepods/pod20da609e-6973-4463-a1f9-2db9bcc5becc"], none)
  comm _ _ := .ok "engine"
  stat _ _ := .ok "7 (engine) S 1"

def taskReads : TaskReads where
  root := .ok []
  taskDir _ := .ok []
  comm _ _ := .error .notExist

def list (p : Process) : Except ProcError (List SchedulingIntents) :=
  listAllSchedulingIntents .insertion anything (.insertion Int) podReads taskReads p.svc

end OnePod

theorem intentRoot_perm (go : SliceSort) {p1 p2 : Process} (hp : p1.intents.Perm p2.intents)
    (hplain : ∀ i ∈ p1.intents, i.Plain) :
    (p1.serve go (.ok ()) .getIntentMerkleRoot).1 = (p2.serve go (.ok ()) .getIntentMerkleRoot).1 := by
  have hsorted : sortIntentsByKey go p1.intents = sortIntentsByKey go p2.intents :=
    sorted_unique intentSortKey_inj (((go.perm _ _).trans hp).trans (go.perm _ _).symm)
      (fun i hi => hplain i (go.mem_sort.mp hi)) (go.sorted _ _) (go.sorted _ _)
  rw [intentRoot_eq go hplain, intentRoot_eq go fun i hi => hplain i (hp.mem_iff.mpr hi), hsorted]

theorem toUInt64_toNat_iff (t : Int64) : (t.toUInt64.toNat : Int) = t.toInt ↔ 0 ≤ t := by
  refine ⟨fun h => ?_, fun h => ?_⟩
  · rw [Int64.le_iff_toInt_le, ← h]
    simp
  · rw [Int64.toNat_toUInt64_of_le h, Int64.toNatClampNeg, Int.toNat_of_nonneg]
    simpa [Int64.le_iff_toInt_le] using h

/-- An entry from node policies is what one of them gives a thread it selects. -/
theorem mem_byTIDs_resolved {policies e} (h : e ∈ byTIDs (resolved regexp threads policies)) :
    ∃ policy ∈ policies, ∃ task ∈ threads, policy.selects regexp task = true ∧ e = nodeEntry policy task := by
  obtain ⟨tid, hl⟩ := mem_byTIDs.mp h
  rw [resolved_lookup] at hl
  obtain ⟨w, hw, rfl⟩ := Option.map_eq_some_iff.mp hl
  obtain ⟨policy, hp, he⟩ := mem_flatMap.mp (mem_of_mem_filter (mem_of_getLast? hw))
  obtain ⟨task, ht, rfl⟩ := mem_map.mp he
  rw [mem_filter] at ht
  exact ⟨policy, hp, task, ht.1, ht.2, rfl⟩

/-- **Execution times are kept when they are not negative**, and only then.
Every process an intent selects and every thread a policy selects is listed. -/
theorem executionTime_kept_iff {go : SliceSort} {regexp : Regexp} {byTID : SortBy Int} {pods : PodReads} {tasks : TaskReads}
    {svc : Service} {list : List SchedulingIntents}
    (hlist : listAllSchedulingIntents go regexp byTID pods tasks svc = .ok list) :
    ∃ podInfos threads, podScan pods svc = .ok podInfos ∧ taskScan byTID tasks svc = .ok threads ∧
      (∀ intent ∈ svc.intentCache, ∀ process ∈ selectedProcesses regexp podInfos intent,
        podEntry intent process ∈ list ∧
          (((podEntry intent process).executionTime.toNat : Int) = intent.executionTime.toInt ↔ 0 ≤ intent.executionTime)) ∧
      (∀ policy ∈ svc.nodePolicyCache, ∀ task ∈ threads, policy.selects regexp task = true →
        task.tid ∈ list.map SchedulingIntents.pid ∧
          (((nodeEntry policy task).executionTime.toNat : Int) = policy.executionTime.toInt ↔ 0 ≤ policy.executionTime)) ∧
      ∀ e ∈ list,
        (∃ intent ∈ svc.intentCache, ∃ process ∈ selectedProcesses regexp podInfos intent, e = podEntry intent process) ∨
        ∃ policy ∈ svc.nodePolicyCache, ∃ task ∈ threads, policy.selects regexp task = true ∧ e = nodeEntry policy task := by
  obtain ⟨podInfos, threads, hpods, hthreads, rfl⟩ := listAll_ok_iff.mp hlist
  refine ⟨podInfos, threads, hpods, hthreads, fun intent hi process hp => ⟨?_, toUInt64_toNat_iff _⟩,
    fun policy hp task ht hsel => ⟨?_, toUInt64_toNat_iff _⟩, fun e he => ?_⟩
  · exact mem_append_left _ (mem_flatMap.mpr ⟨intent, hi, mem_map.mpr ⟨process, hp, rfl⟩⟩)
  · rw [published, map_append, mem_append]
    exact .inr (mem_byTIDs_pid.mpr ⟨task, ht, rfl, policy, go.mem_sort.mpr hp, hsel⟩)
  · rcases mem_append.mp he with hpod | hnode
    · obtain ⟨intent, hi, he⟩ := mem_flatMap.mp hpod
      obtain ⟨process, hp, rfl⟩ := mem_map.mp he
      exact .inl ⟨intent, hi, process, hp, rfl⟩
    · obtain ⟨policy, hp, he⟩ := mem_byTIDs_resolved hnode
      exact .inr ⟨policy, go.mem_sort.mp hp, he⟩

theorem executionTime_kept_onePod : ∃ list, OnePod.list (OnePod.sent [OnePod.intent 1]) = .ok list ∧
    ∀ e ∈ list, e.executionTime = 20 := by
  have hok : ((OnePod.list (OnePod.sent [OnePod.intent 1])).toOption.isSome) = true := by decide +kernel
  cases hlist : OnePod.list (OnePod.sent [OnePod.intent 1]) with
  | error err =>
    rw [hlist] at hok
    cases hok
  | ok list =>
    obtain ⟨_, _, _, _, _, _, hof⟩ := executionTime_kept_iff hlist
    refine ⟨list, rfl, fun e he => ?_⟩
    rcases hof e he with ⟨intent, hi, process, _, rfl⟩ | ⟨policy, hp, _⟩
    · obtain rfl : intent = OnePod.intent 1 := mem_singleton.mp hi
      rfl
    · cases hp

/-- An execution time of -1 ns is listed as 2 ^ 64 - 1 ns. -/
theorem executionTime_negative :
    ((OnePod.list (OnePod.sent [{ OnePod.intent 1 with executionTime := -1 }])).map
      (List.map SchedulingIntents.shown)) = .ok [(7, 1, 18446744073709551615, ".*")] := by
  decide +kernel

end Gthulhu.DecisionMaker
