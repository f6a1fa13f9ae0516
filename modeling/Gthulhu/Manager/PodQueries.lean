/-
The pod queries of the Kubernetes adapter (`listPods` in
`api/manager/k8s_adapter/adapter.go`): from the informer's cache once that has
synced, by one request for each namespace before.

The cache takes the namespaces as a set, or as all of them where the list is
empty or `[""]`; the requests go by the entries, and the entry `""` asks for
every namespace. The answers agree just when that makes no difference
(**`listPods_agree_iff`**).
-/
import Gthulhu.Lib.GoRuntime
import Gthulhu.Manager.DecisionMakerPods

namespace Gthulhu.Manager

open Lib List
open DecisionMaker (Labels)

/-- `labels.Selector`; one without a text has no requirements. -/
structure ParsedSelector where
  string : String
  isMatch : Labels → Bool
  everything : string = "" → ∀ labels, isMatch labels = true

structure ClusterPod extends KubePod where
  uid : String
  k8sNamespace : String
  labels : Labels

/-- The pods of a cluster, with UIDs of their own. -/
structure PodCluster where
  pods : List ClusterPod
  nodup : (pods.map ClusterPod.uid).Nodup
  named : ∀ pod ∈ pods, pod.k8sNamespace ≠ ""

/-- The server's answer to `Pods(ns).List`; no name stands for all namespaces. -/
def PodCluster.list (cluster : PodCluster) (selector : ParsedSelector) (ns : String) : List ClusterPod :=
  cluster.pods.filter fun pod => (ns = "" || ns = pod.k8sNamespace) && selector.isMatch pod.labels

namespace K8SAdapter

def setPodCache (cache : StrMap ClusterPod) (pod : ClusterPod) : StrMap ClusterPod := cache.insert pod.uid pod

/-- The order of the entries is that of the range over the map. -/
def podsFromCache (cache : StrMap ClusterPod) (namespaces : List String) (selector : ParsedSelector) : List ClusterPod :=
  (cache.entries.map Sigma.snd).filter fun pod =>
    (namespaces = [] || namespaces = [""] || namespaces.contains pod.k8sNamespace) &&
      !(selector.string ≠ "" && !selector.isMatch pod.labels)

section

-- the adapter and the server parse the text of a selector alike
variable (cluster : PodCluster) (parse : String → Option ParsedSelector) (labelSelector : String)

def listPodsLive : List String → StrMap ClusterPod → Except Error (List ClusterPod) × StrMap ClusterPod
  | [], cache => (.ok [], cache)
  | ns :: namespaces, cache =>
    match parse labelSelector with
    | none => (.error (.wrap ("list pods in namespace " ++ ns) (.text "unable to parse requirement")), cache)
    | some selector =>
      let items := cluster.list selector ns
      let rest := listPodsLive namespaces (items.foldl setPodCache cache)
      (rest.1.map (items ++ ·), rest.2)

def listPods (cacheHasSynced : Bool) (namespaces : List String) (cache : StrMap ClusterPod) :
    Except Error (List ClusterPod) × StrMap ClusterPod :=
  match parse labelSelector with
  | none => (.error (.wrap ("parse label selector " ++ labelSelector) (.text "unable to parse requirement")), cache)
  | some selector =>
    if cacheHasSynced then (.ok (podsFromCache cache namespaces selector), cache)
    else listPodsLive cluster parse labelSelector namespaces cache

end

end K8SAdapter

/-- The same pods, each of them once, or the same error. -/
def SamePods : Except Error (List ClusterPod) → Except Error (List ClusterPod) → Prop
  | .ok cached, .ok live => (∀ pod, pod ∈ cached ↔ pod ∈ live) ∧ cached.Nodup ∧ live.Nodup
  | .error err, .error err' => err = err'
  | _, _ => False

namespace PodCluster

open K8SAdapter

variable (cluster : PodCluster) (cache : StrMap ClusterPod) (selector : ParsedSelector) (namespaces : List String)

/-- The cache holds exactly the cluster's pods, under their UIDs. -/
def CachedIn : Prop := cache.entries ~ cluster.pods.map fun pod => ⟨pod.uid, pod⟩

/-- All namespaces are asked for, by `[""]`, or some by name, with at most one entry for a pod. -/
def AskedOnce : Prop := ∀ pod ∈ cluster.pods, selector.isMatch pod.labels = true →
  namespaces = [""] ∨ namespaces ≠ [] ∧ "" ∉ namespaces ∧ namespaces.count pod.k8sNamespace ≤ 1

variable {cluster cache selector namespaces}

theorem nodup_pods : cluster.pods.Nodup := Nodup.of_map _ cluster.nodup

variable (namespaces selector) in
theorem podsFromCache_perm (h : cluster.CachedIn cache) : podsFromCache cache namespaces selector ~
    cluster.pods.filter fun pod =>
      (namespaces = [] || namespaces = [""] || namespaces.contains pod.k8sNamespace) && selector.isMatch pod.labels := by
  have hmatch : ∀ labels, (!(selector.string ≠ "" && !selector.isMatch labels)) = selector.isMatch labels := by
    intro labels
    by_cases hs : selector.string = ""
    · simp [hs, selector.everything hs]
    · simp [hs]
  have hpods : cache.entries.map Sigma.snd ~ cluster.pods := by simpa [Function.comp_def] using h.map Sigma.snd
  simpa only [podsFromCache, hmatch] using hpods.filter _

theorem listPodsLive_ok {parse labelSelector} (hparse : parse labelSelector = some selector) :
    (listPodsLive cluster parse labelSelector namespaces cache).1 = .ok (namespaces.flatMap (cluster.list selector)) := by
  induction namespaces generalizing cache with
  | nil => rfl
  | cons ns namespaces ih => simp [listPodsLive, hparse, ih, Except.map]

open Classical in
theorem count_list {pod} (hp : pod ∈ cluster.pods) (hmatch : selector.isMatch pod.labels = true) :
    (namespaces.flatMap (cluster.list selector)).count pod = namespaces.count "" + namespaces.count pod.k8sNamespace := by
  have hns := cluster.named pod hp
  induction namespaces with
  | nil => rfl
  | cons ns namespaces ih =>
    rw [flatMap_cons, count_append, ih, list, (nodup_pods.filter _).count, count_cons, count_cons]
    simp only [mem_filter, hp, hmatch]
    grind

theorem count_eq_iff {ns} (hns : ns ≠ "") :
    (if namespaces = [] ∨ namespaces = [""] ∨ ns ∈ namespaces then 1 else 0) = namespaces.count "" + namespaces.count ns ↔
      namespaces = [""] ∨ namespaces ≠ [] ∧ "" ∉ namespaces ∧ namespaces.count ns ≤ 1 := by
  by_cases hall : namespaces = [""]
  · simp [hall, hns.symm]
  · by_cases hnil : namespaces = []
    · simp [hnil]
    · have hempty := count_pos_iff (a := "") (l := namespaces)
      have hname := count_pos_iff (a := ns) (l := namespaces)
      simp only [hall, hnil, false_or, ne_eq, not_false_eq_true, true_and]
      split <;> grind

/-- **The cache and the server answer alike**, if the cache holds the cluster's
pods, just where the namespaces ask for each pod once. -/
theorem listPods_agree_iff (hcache : cluster.CachedIn cache) (parse : String → Option ParsedSelector)
    (labelSelector : String) (namespaces : List String) :
    SamePods (listPods cluster parse labelSelector true namespaces cache).1
        (listPods cluster parse labelSelector false namespaces cache).1 ↔
      ∀ selector ∈ parse labelSelector, cluster.AskedOnce selector namespaces := by
  classical
  cases hparse : parse labelSelector with
  | none => simp [listPods, hparse, SamePods]
  | some selector =>
    have hcached := podsFromCache_perm selector namespaces hcache
    have honce := hcached.nodup_iff.mpr (nodup_pods.filter _)
    simp only [listPods, hparse, if_true, Bool.false_eq_true, if_false, listPodsLive_ok hparse, SamePods,
      Option.mem_some_iff, forall_eq']
    -- without repetitions, the same pods are the same up to order, and that is a matter of counting
    calc _ ↔ podsFromCache cache namespaces selector ~ namespaces.flatMap (cluster.list selector) :=
          ⟨fun h => (perm_ext_iff_of_nodup honce h.2.2).mpr h.1, fun h => ⟨fun _ => h.mem_iff, honce, h.nodup_iff.mp honce⟩⟩
      _ ↔ _ := by rw [hcached.congr_left, perm_iff_count]
      _ ↔ cluster.AskedOnce selector namespaces := forall_congr' fun pod => ?_
    rw [(nodup_pods.filter _).count]
    by_cases hp : pod ∈ cluster.pods ∧ selector.isMatch pod.labels = true
    · rw [count_list hp.1 hp.2]
      simpa [hp, or_assoc] using count_eq_iff (cluster.named pod hp.1)
    · have hzero : (namespaces.flatMap (cluster.list selector)).count pod = 0 :=
        count_eq_zero_of_not_mem (by simp [list]; grind)
      rw [hzero]
      simp
      grind

def onePod : PodCluster := ⟨[⟨⟨"node-1", "", "", .running, []⟩, "u-1", "default", ∅⟩], by simp, by simp⟩

def onePodCache : StrMap ClusterPod := onePod.pods.foldl setPodCache ∅

def everyPod (_ : String) : Option ParsedSelector := some ⟨"", fun _ => true, fun _ _ => rfl⟩

theorem listPods_agree_default : SamePods (listPods onePod everyPod "" true ["default"] onePodCache).1
    (listPods onePod everyPod "" false ["default"] onePodCache).1 :=
  (listPods_agree_iff (show onePod.CachedIn onePodCache from .refl _) everyPod "" ["default"]).mpr
    (by simp [everyPod, AskedOnce, onePod])

/-- A namespace that is given twice. -/
theorem listPods_disagree_default : ¬ SamePods (listPods onePod everyPod "" true ["default", "default"] onePodCache).1
    (listPods onePod everyPod "" false ["default", "default"] onePodCache).1 := by
  rintro ⟨-, -, hlive⟩
  exact hlive.notMem mem_cons_self

end PodCluster

end Gthulhu.Manager
