/-
What the decision maker derives from its caches: the map of resolved
scheduling intents and the targets of the pod metrics, with the requests that
touch them (`api/decisionmaker/service/service.go`).

`Service` has the caches alone, and a request does to them what `handle` says
(`serve_svc`). Both derived parts are computed anew from the cache by every
push and every listing. `DeleteIntentByPID` takes one key out of the map and
nothing out of the cache, so no later listing is without the process for it:
the request takes effect just when no cached intent of the pod selects the
process, or the pod's intents have left the cache since
(**`deleteIntentByPID_takesEffect_iff`**).
-/
import Gthulhu.DecisionMaker.PodMetricCollector

namespace Gthulhu.DecisionMaker

open Lib List OnePod

structure LiveService where
  svc : Service
  /-- By pod and process; `Range` goes over the keys in any order. -/
  schedulingIntentsMap : StrMap (List SchedulingIntents) := ∅
  podSchedCollector : PodSchedMetricCollector

/-- The reads of one listing. -/
structure ListReads where
  pods : PodReads
  tasks : TaskReads

namespace LiveService

section

variable (go : SliceSort) (regexp : Regexp) (byTID : SortBy Int)

def resolvedKey (podID : String) (pid : Int) : String := podID ++ "-" ++ toString pid

/-- What `resolveSchedulingIntents` leaves in the map, cleared before. -/
def resolvedMap (intents : List Intent) (podInfos : StrMap PodInfo) : StrMap (List SchedulingIntents) :=
  intents.foldl (fun resolved intent =>
    (selectedProcesses regexp podInfos intent).foldl (fun resolved process =>
      resolved.insert (resolvedKey intent.podID process.pid) [podEntry intent process]) resolved) ∅

def eraseAll (keys : List String) (resolved : StrMap (List SchedulingIntents)) : StrMap (List SchedulingIntents) :=
  keys.foldl (fun resolved key => resolved.erase key) resolved

def listAllSchedulingIntents (reads : ListReads) (s : LiveService) :
    Except ProcError (List SchedulingIntents) × LiveService :=
  let node (s : LiveService) (podSchedulingIntents : List SchedulingIntents) :
      Except ProcError (List SchedulingIntents) × LiveService :=
    match resolveNodeSchedulingIntents go regexp (some (snapshot reads.tasks byTID)) s.svc with
    | .error err => (.error (.wrapped "resolve node scheduling intents" err), s)
    | .ok nodeSchedulingIntents => (.ok (podSchedulingIntents ++ nodeSchedulingIntents), s)
  if s.svc.intentCache = [] then
    node
      { s with
        podSchedCollector := s.podSchedCollector.updatePodTargets [] ∅
        schedulingIntentsMap := ∅ } []
  else
    match findPodInfoFrom reads.pods with
    | .error err => (.error err, s)
    | .ok podInfos =>
      node
        { s with
          podSchedCollector := s.podSchedCollector.updatePodTargets (s.svc.intentCache.map some) podInfos
          schedulingIntentsMap := resolvedMap regexp s.svc.intentCache podInfos }
        (resolveSchedulingIntents regexp s.svc.intentCache podInfos)

def processIntents (pods : PodReads) (intents : List (Option Intent)) (s : LiveService) :
    Except ProcError Unit × LiveService :=
  match findPodInfoFrom pods with
  | .error err => (.error err, s)
  | .ok podInfos =>
    let normalizedIntents := normalizeInputs intents
    (.ok (), {
      svc := (DecisionMaker.processIntents go (.ok ()) intents s.svc).2
      schedulingIntentsMap := resolvedMap regexp normalizedIntents podInfos
      podSchedCollector := s.podSchedCollector.updatePodTargets (normalizedIntents.map some) podInfos })

def deleteIntentByPodID (podID : String) (s : LiveService) : LiveService where
  svc := DecisionMaker.deleteIntentByPodID go podID s.svc
  schedulingIntentsMap :=
    eraseAll (s.schedulingIntentsMap.keys.filter fun key => startsWith key (podID ++ "-")) s.schedulingIntentsMap
  podSchedCollector := s.podSchedCollector.removePodMetricTarget podID

def deleteIntentByPID (podID : String) (pid : Int) (s : LiveService) : LiveService :=
  { s with schedulingIntentsMap := s.schedulingIntentsMap.erase (resolvedKey podID pid) }

def deleteAllIntents (s : LiveService) : LiveService where
  svc := DecisionMaker.deleteAllIntents go s.svc
  schedulingIntentsMap := eraseAll s.schedulingIntentsMap.keys s.schedulingIntentsMap
  podSchedCollector := s.podSchedCollector.updatePodTargets [] ∅

/-- A request, with the reads of its scan if it makes one. -/
def serve (pods : PodReads) (req : Request) (s : LiveService) : Response × LiveService :=
  match req with
  | .handleIntents intents =>
    match s.processIntents go regexp pods (intents.map some) with
    | (.error _, s) => (.failure 500 "Failed to process intents", s)
    | (.ok (), s) => (.success, s)
  | .deleteIntent podID pid all =>
    if all then (.success, s.deleteAllIntents go)
    else if podID = "" then (.failure 400 "PodID is required when 'all' is false", s)
    else
      match pid with
      | some pid => (.success, s.deleteIntentByPID podID pid)
      | none => (.success, s.deleteIntentByPodID go podID)
  -- The other requests are about the trees and the node policies alone.
  | req =>
    let (resp, svc) := handle go (.ok ()) req s.svc
    (resp, { s with svc := svc })

/-! ## The caches -/

variable {go regexp byTID} {pods : PodReads} {reads : ListReads} {s : LiveService}

/-- The scan of a push, as the caches see it. -/
def scanOutcome (pods : PodReads) : Except String Unit :=
  match findPodInfoFrom pods with
  | .error _ => .error "scan"
  | .ok _ => .ok ()

/-- A request does to the caches what it does without the derived parts. -/
theorem serve_svc (req : Request) :
    (s.serve go regexp pods req).1 = (handle go (scanOutcome pods) req s.svc).1 ∧
      (s.serve go regexp pods req).2.svc = (handle go (scanOutcome pods) req s.svc).2 := by
  cases req with
  | handleIntents intents =>
    cases hscan : findPodInfoFrom pods with
    | error _ | ok _ => simp [serve, handle, processIntents, DecisionMaker.processIntents, scanOutcome, hscan]
  | deleteIntent podID pid all =>
    cases all with
    | true => exact ⟨rfl, rfl⟩
    | false =>
      by_cases hpod : podID = ""
      · simp [serve, handle, hpod]
      · cases pid <;> simp [serve, handle, hpod, deleteIntentByPID, deleteIntentByPodID]
  | getIntentMerkleRoot => exact ⟨rfl, rfl⟩
  | handleNodePolicies policies => exact ⟨rfl, rfl⟩
  | deleteNodePolicy policyID all => exact ⟨rfl, rfl⟩
  | getNodePolicyMerkleRoot => exact ⟨rfl, rfl⟩

/-- The list is the one of the caches, and a listing leaves them alone. -/
theorem list_svc :
    (s.listAllSchedulingIntents go regexp byTID reads).1 =
        DecisionMaker.listAllSchedulingIntents go regexp byTID reads.pods reads.tasks s.svc ∧
      (s.listAllSchedulingIntents go regexp byTID reads).2.svc = s.svc := by
  unfold listAllSchedulingIntents DecisionMaker.listAllSchedulingIntents
  by_cases hnil : s.svc.intentCache = []
  · cases hnode : resolveNodeSchedulingIntents go regexp (some (snapshot reads.tasks byTID)) s.svc <;>
      simp [hnil, hnode]
  · cases hscan : findPodInfoFrom reads.pods with
    | error err =>
      simp only [hnil, if_false]
      exact ⟨rfl, trivial⟩
    | ok podInfos =>
      cases hnode : resolveNodeSchedulingIntents go regexp (some (snapshot reads.tasks byTID)) s.svc <;>
      · simp only [hnil, if_false, hnode]
        exact ⟨rfl, trivial⟩

end

/-! ## Where the entries come from -/

/-- An entry of the list, with the intent and the process it was made for if a
pod intent made it. -/
structure Traced where
  origin : Option (Intent × PodProcess)
  entry : SchedulingIntents

/-- The list, traced. -/
def listTraced (go : SliceSort) (regexp : Regexp) (byTID : SortBy Int) (reads : ListReads) (s : LiveService) :
    Except ProcError (List Traced) :=
  match podScan reads.pods s.svc, taskScan byTID reads.tasks s.svc with
  | .error err, _ => .error err
  | .ok _, .error err => .error (.wrapped "resolve node scheduling intents" (.wrapped "snapshot tasks" err))
  | .ok podInfos, .ok threads =>
    .ok (
      (s.svc.intentCache.flatMap fun intent =>
        (selectedProcesses regexp podInfos intent).map fun process => ⟨some (intent, process), podEntry intent process⟩) ++
      (byTIDs (resolved regexp threads (sortNodePoliciesByKey go s.svc.nodePolicyCache))).map fun entry => ⟨none, entry⟩)

section

variable {go : SliceSort} {regexp : Regexp} {byTID : SortBy Int} {pods : PodReads} {reads : ListReads} {s : LiveService}

theorem list_eq_traced :
    (s.listAllSchedulingIntents go regexp byTID reads).1 =
      (s.listTraced go regexp byTID reads).map (List.map Traced.entry) := by
  rw [list_svc.1, listAll_eq, listTraced]
  cases podScan reads.pods s.svc with
  | error err => rfl
  | ok podInfos =>
    cases taskScan byTID reads.tasks s.svc with
    | error err => rfl
    | ok threads =>
      simp [Except.map, published, resolveSchedulingIntents, map_flatMap, Function.comp_def]

/-- What pod intents give to a list: an entry for every cached intent and every
process that it selects. -/
theorem mem_listTraced {list} (hlist : s.listTraced go regexp byTID reads = .ok list) (intent : Intent)
    (process : PodProcess) :
    (∃ e ∈ list, e.origin = some (intent, process)) ↔
      intent ∈ s.svc.intentCache ∧
        ∃ podInfos, findPodInfoFrom reads.pods = .ok podInfos ∧ process ∈ selectedProcesses regexp podInfos intent := by
  by_cases hnil : s.svc.intentCache = []
  · have horigin : ∀ e ∈ list, e.origin = none := by
      unfold listTraced at hlist
      simp only [podScan, hnil, if_true, flatMap_nil, nil_append] at hlist
      cases hthreads : taskScan byTID reads.tasks s.svc with
      | error err => simp [hthreads] at hlist
      | ok threads =>
        simp only [hthreads, Except.ok.injEq] at hlist
        subst hlist
        simp
    simp only [hnil, not_mem_nil, false_and, iff_false]
    intro h
    obtain ⟨e, he, horig⟩ := h
    rw [horigin e he] at horig
    cases horig
  · unfold listTraced at hlist
    simp only [podScan, hnil, if_false] at hlist
    cases hscan : findPodInfoFrom reads.pods with
    | error err => simp [hscan] at hlist
    | ok podInfos =>
      cases hthreads : taskScan byTID reads.tasks s.svc with
      | error err => simp [hscan, hthreads] at hlist
      | ok threads =>
        simp only [hscan, hthreads, Except.ok.injEq] at hlist
        subst hlist
        refine ⟨fun h => ?_, fun h => ?_⟩
        · obtain ⟨e, he, horig⟩ := h
          simp only [mem_append, mem_flatMap, mem_map] at he
          obtain ⟨i, hi, x, hx, rfl⟩ | ⟨entry, -, rfl⟩ := he
          · cases horig
            exact ⟨hi, podInfos, rfl, hx⟩
          · cases horig
        · obtain ⟨hi, _, hinfos, hx⟩ := h
          cases hinfos
          refine ⟨⟨some (intent, process), podEntry intent process⟩, mem_append_left _ ?_, rfl⟩
          exact mem_flatMap.mpr ⟨intent, hi, mem_map_of_mem hx⟩

/-! ## After the request -/

/-- A request or a listing, with what its reads give. -/
inductive Event where
  | request (pods : PodReads) (req : Request)
  | list (reads : ListReads)

/-- The events come one after another. -/
def after (go : SliceSort) (regexp : Regexp) (byTID : SortBy Int) (s : LiveService) (events : List Event) : LiveService :=
  events.foldl (fun s event =>
    match event with
    | .request pods req => (s.serve go regexp pods req).2
    | .list reads => (s.listAllSchedulingIntents go regexp byTID reads).2) s

/-- The event pushes an intent for the pod. -/
def Event.Pushes (podID : String) : Event → Prop
  | .request _ (.handleIntents intents) => ∃ intent ∈ intents, intent.podID = podID
  | _ => False

/-- The event empties the cache of the pod's intents: a push, which replaces all
of them, or a deletion of the pod or of everything. -/
def Event.Drops (podID : String) : Event → Prop
  | .request pods (.handleIntents _) => ∃ podInfos, findPodInfoFrom pods = .ok podInfos
  | .request _ (.deleteIntent podID' pid all) => all = true ∨ (podID' = podID ∧ podID ≠ "" ∧ pid = none)
  | _ => False

theorem mem_cache_serve {intent req} (hpush : ¬(Event.request pods req).Pushes intent.podID) :
    intent ∈ (s.serve go regexp pods req).2.svc.intentCache ↔
      ¬(Event.request pods req).Drops intent.podID ∧ intent ∈ s.svc.intentCache := by
  rw [(serve_svc req).2]
  cases req with
  | handleIntents intents =>
    cases hscan : findPodInfoFrom pods with
    | error err => simp [Event.Drops, hscan, handle, DecisionMaker.processIntents, scanOutcome]
    | ok podInfos =>
      have hother : intent ∉ intents := fun hi => hpush ⟨intent, hi, rfl⟩
      simp [Event.Drops, hscan, handle, DecisionMaker.processIntents, scanOutcome, normalizeInputs, hother]
  | deleteIntent podID pid all =>
    cases all with
    | true => simp [Event.Drops, handle, DecisionMaker.deleteAllIntents, rebuildIntentMerkleTreeLocked]
    | false =>
      by_cases hempty : podID = ""
      · simp +contextual [Event.Drops, handle, hempty]
      · cases pid with
        | some pid => simp [Event.Drops, handle, hempty]
        | none =>
          simp only [Event.Drops, handle, hempty, Bool.false_eq_true, if_false, false_or, and_true,
            DecisionMaker.deleteIntentByPodID, rebuildIntentMerkleTreeLocked, mem_filter, decide_eq_true_eq]
          grind
  | getIntentMerkleRoot =>
    simp only [Event.Drops, handle, traverseIntentMerkleTree, refreshIntentMerkleTreeIfNeeded]
    cases s.svc.intentMerkleRoot <;> simp
  | handleNodePolicies policies => simp [Event.Drops, handle, processNodePolicies]
  | deleteNodePolicy policyID all =>
    cases all with
    | true => simp [Event.Drops, handle, deleteAllNodePolicies, rebuildNodePolicyMerkleRootLocked]
    | false =>
      by_cases hpolicy : policyID = "" <;>
        simp [Event.Drops, handle, hpolicy, deleteNodePolicyByID, rebuildNodePolicyMerkleRootLocked]
  | getNodePolicyMerkleRoot => simp [Event.Drops, handle]

/-- An intent of a pod for which nothing is pushed stays until an event drops it. -/
theorem mem_cache_after {intent} (events : List Event) (hpush : ∀ event ∈ events, ¬event.Pushes intent.podID) :
    intent ∈ (s.after go regexp byTID events).svc.intentCache ↔
      (∀ event ∈ events, ¬event.Drops intent.podID) ∧ intent ∈ s.svc.intentCache := by
  induction events generalizing s with
  | nil => simp [after]
  | cons event events ih =>
    have hrest := ih (s := s.after go regexp byTID [event]) fun e he => hpush e (by simp [he])
    have hstep : intent ∈ (s.after go regexp byTID [event]).svc.intentCache ↔
        ¬event.Drops intent.podID ∧ intent ∈ s.svc.intentCache := by
      cases event with
      | request pods req => exact mem_cache_serve (hpush _ (by simp))
      | list reads => simp [after, list_svc.2, Event.Drops]
    rw [hstep] at hrest
    simp only [forall_mem_cons]
    exact hrest.trans (by tauto)

/-- **When deleting one process's intent takes effect.** -/
theorem deleteIntentByPID_takesEffect_iff {podID : String} {pid : Int} {s₁ : LiveService} {events : List Event}
    {list : List Traced} (hdelete : s.serve go regexp pods (.deleteIntent podID (some pid) false) = (.success, s₁))
    (hpush : ∀ event ∈ events, ¬event.Pushes podID)
    (hlist : (s₁.after go regexp byTID events).listTraced go regexp byTID reads = .ok list) :
    ((s₁.after go regexp byTID events).listAllSchedulingIntents go regexp byTID reads).1 = .ok (list.map Traced.entry) ∧
      ((∀ e ∈ list, ∀ intent process, e.origin = some (intent, process) → intent.podID = podID → process.pid ≠ pid) ↔
        (∃ event ∈ events, event.Drops podID) ∨
          ∀ intent ∈ s.svc.intentCache, intent.podID = podID → ∀ podInfos, findPodInfoFrom reads.pods = .ok podInfos →
            ∀ process ∈ selectedProcesses regexp podInfos intent, process.pid ≠ pid) ∧
      ((∀ event ∈ events, ¬event.Drops podID) →
        ∀ intent ∈ s.svc.intentCache, intent.podID = podID → ∀ podInfos, findPodInfoFrom reads.pods = .ok podInfos →
          ∀ process ∈ selectedProcesses regexp podInfos intent, process.pid ≠ pid →
            ∃ e ∈ list, e.origin = some (intent, process)) := by
  have hcache : s₁.svc.intentCache = s.svc.intentCache := by
    by_cases hempty : podID = ""
    · simp [serve, hempty] at hdelete
    · simp only [serve, hempty, Bool.false_eq_true, if_false, Prod.mk.injEq, true_and] at hdelete
      rw [← hdelete]
      rfl
  -- Which intents of the pod the list goes by, in terms of the cache at the request.
  have hmem : ∀ intent process, intent.podID = podID →
      ((∃ e ∈ list, e.origin = some (intent, process)) ↔
        ((∀ event ∈ events, ¬event.Drops podID) ∧ intent ∈ s.svc.intentCache) ∧
          ∃ podInfos, findPodInfoFrom reads.pods = .ok podInfos ∧ process ∈ selectedProcesses regexp podInfos intent) := by
    intro intent process hpod
    subst hpod
    rw [mem_listTraced hlist, mem_cache_after events hpush, hcache]
  refine ⟨by rw [list_eq_traced, hlist, Except.map], ⟨fun h => ?_, fun h e he intent process horig hpod hpid => ?_⟩,
    fun hkept intent hi hpod podInfos hscan process hx _ => ?_⟩
  · by_cases hdrop : ∃ event ∈ events, event.Drops podID
    · exact .inl hdrop
    · refine .inr fun intent hi hpod podInfos hscan process hx => ?_
      have hkept : ∀ event ∈ events, ¬event.Drops podID := fun event he hd => hdrop ⟨event, he, hd⟩
      obtain ⟨e, he, horig⟩ := (hmem intent process hpod).mpr ⟨⟨hkept, hi⟩, podInfos, hscan, hx⟩
      exact h e he intent process horig hpod
  · obtain ⟨⟨hkept, hi⟩, podInfos, hscan, hx⟩ := (hmem intent process hpod).mp ⟨e, he, horig⟩
    obtain ⟨event, hevent, hdrop⟩ | hnone := h
    · exact hkept event hevent hdrop
    · exact hnone intent hi hpod podInfos hscan process hx hpid
  · exact (hmem intent process hpod).mpr ⟨⟨hkept, hi⟩, podInfos, hscan, hx⟩

end

end LiveService

namespace OnePod

/-- A decision maker that was sent one intent, which selects the pod's process 7. -/
def live : LiveService :=
  (({ svc := {}, podSchedCollector := { nodeName := "a" } } : LiveService).serve .insertion anything podReads
    (.handleIntents [intent 1])).2

/-- The intent of one process of the pod is deleted. -/
def deleted (pid : Int) : Response × LiveService :=
  live.serve .insertion anything podReads (.deleteIntent podInfo.podUID (some pid) false)

def reads : ListReads := ⟨podReads, taskReads⟩

end OnePod

/-- The request succeeds, and the next list has the process. -/
theorem deleteIntentByPID_withoutEffect :
    (deleted 7).1 = .success ∧
      ((deleted 7).2.listAllSchedulingIntents .insertion anything (.insertion Int) reads).1.map
        (List.map SchedulingIntents.shown) = .ok [(7, 1, 20, ".*")] := by
  decide +kernel

/-- For a process that no intent selects it does nothing, which is right. -/
theorem deleteIntentByPID_takesEffect_iff_other :
    ∃ list, (deleted 8).2.listTraced .insertion anything (.insertion Int) reads = .ok list ∧
      ∀ e ∈ list, ∀ intent process, e.origin = some (intent, process) → intent.podID = podInfo.podUID →
        process.pid ≠ 8 := by
  have hselected : (findPodInfoFrom podReads).map (fun podInfos =>
      (selectedProcesses anything podInfos (intent 1)).map PodProcess.pid) = .ok [7] := by decide +kernel
  have hsome : ((deleted 8).2.listTraced .insertion anything (.insertion Int) reads).isOk = true := by
    decide +kernel
  cases hlist : (deleted 8).2.listTraced .insertion anything (.insertion Int) reads with
  | error err =>
    rw [hlist] at hsome
    cases hsome
  | ok list =>
    have hdelete : deleted 8 = (.success, (deleted 8).2) := Prod.ext (by decide +kernel) rfl
    have hpush : ∀ event ∈ ([] : List LiveService.Event), ¬event.Pushes podInfo.podUID := by simp
    have heffect := LiveService.deleteIntentByPID_takesEffect_iff hdelete hpush hlist
    refine ⟨list, rfl, heffect.2.1.mpr (.inr fun intent hi _ podInfos hscan process hx => ?_)⟩
    have hcache : OnePod.live.svc.intentCache = [OnePod.intent 1] := rfl
    rw [hcache, mem_singleton] at hi
    have hscan' : findPodInfoFrom podReads = .ok podInfos := hscan
    rw [hscan', Except.map, Except.ok.injEq] at hselected
    have hpid : process.pid ∈ [(7 : Int)] := hselected ▸ hi ▸ mem_map_of_mem hx
    rw [mem_singleton.mp hpid]
    decide

end Gthulhu.DecisionMaker
