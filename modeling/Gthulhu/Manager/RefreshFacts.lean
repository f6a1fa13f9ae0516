/-
What the refresh makes of the stored intents.

A strategy's intents are compared with the pods it selects by pod ID alone: an
intent whose pod is gone goes, a pod without an intent gets one, and every
other intent stays as it is, its node included. So the refresh tracks the
cluster just when the stored intents of the pods still there name the nodes
those pods are on (**`refreshStaleIntents_tracks_iff`**). A pod matched while
it is pending has no node, and its intent keeps none.
-/
import Gthulhu.Manager.DeleteFacts

namespace Gthulhu.Manager

open Lib World Prog OneNode
open DecisionMaker (Intent)

variable {go : SliceSort} {env : Nat → Choice} {w w' : World} {calls : Calls}

/-! ## Tracking the cluster -/

/-- The stored intents of a strategy name the pods it selects and their nodes. -/
def World.Tracks (w : World) (strategy : ScheduleStrategy) : Prop :=
  ∀ podID nodeID, (∃ i ∈ w.intentsOf strategy.id, i.podID = podID ∧ i.nodeID = nodeID) ↔
    ∃ pod ∈ w.selectedPods strategy, pod.podID = podID ∧ pod.nodeID = nodeID

/-- The stored intents of pods that are still selected have those pods' nodes,
and none of the nodes is missing. -/
structure World.Placed (w : World) (strategy : ScheduleStrategy) : Prop where
  node : ∀ i ∈ w.intentsOf strategy.id, (∃ pod ∈ w.selectedPods strategy, pod.podID = i.podID) →
    ∃ pod ∈ w.selectedPods strategy, pod.podID = i.podID ∧ pod.nodeID = i.nodeID
  covered : ∀ pod ∈ w.selectedPods strategy, (∃ i ∈ w.intentsOf strategy.id, i.podID = pod.podID) →
    ∃ i ∈ w.intentsOf strategy.id, i.podID = pod.podID ∧ i.nodeID = pod.nodeID

theorem mem_of_added {strategy : ScheduleStrategy} {id} {pods : List Pod} {added : List ScheduleIntent}
    (h : added.map ScheduleIntent.core = pods.map fun pod => (strategy.intentFor pod, id)) (podID nodeID : String) :
    (∃ i ∈ added, i.podID = podID ∧ i.nodeID = nodeID) ↔ ∃ pod ∈ pods, pod.podID = podID ∧ pod.nodeID = nodeID := by
  have hpairs := congrArg (List.map fun c : Intent × ObjectID => (c.1.podID, c.1.nodeID)) h
  rw [List.map_map, List.map_map] at hpairs
  have hmem := congrArg (fun l => (podID, nodeID) ∈ l) hpairs
  simp only [List.mem_map, Function.comp_apply, eq_iff_iff] at hmem
  constructor
  · rintro ⟨i, hi, rfl, rfl⟩
    obtain ⟨pod, hpod, heq⟩ := hmem.mp ⟨i, hi, rfl⟩
    exact ⟨pod, hpod, (Prod.mk.inj heq).1, (Prod.mk.inj heq).2⟩
  · rintro ⟨pod, hpod, rfl, rfl⟩
    obtain ⟨i, hi, heq⟩ := hmem.mpr ⟨pod, hpod, rfl⟩
    exact ⟨i, hi, (Prod.mk.inj heq).1, (Prod.mk.inj heq).2⟩

section

variable {strategy : ScheduleStrategy} {added : List ScheduleIntent}
  (hown : w'.intentsOf strategy.id = ((w.intentsOf strategy.id).filter fun i => i ∉ w.staleOf strategy) ++ added)
  (hadded : added.map ScheduleIntent.core = (w.newPods strategy).map fun pod => (strategy.intentFor pod, strategy.id))
include hown hadded

/-- The stored intents after a refresh, by pod and node. -/
theorem refreshed_pairs (podID nodeID : String) :
    (∃ i ∈ w'.intentsOf strategy.id, i.podID = podID ∧ i.nodeID = nodeID) ↔
      (∃ i ∈ w.intentsOf strategy.id, (∃ pod ∈ w.selectedPods strategy, pod.podID = i.podID) ∧ i.podID = podID ∧
        i.nodeID = nodeID) ∨ ∃ pod ∈ w.newPods strategy, pod.podID = podID ∧ pod.nodeID = nodeID := by
  rw [hown, ← mem_of_added hadded]
  simp only [List.mem_append, List.mem_filter, decide_eq_true_eq, or_and_right, exists_or]
  refine or_congr_left (exists_congr fun i => ?_)
  constructor
  · rintro ⟨⟨hi, hkept⟩, hpair⟩
    refine ⟨hi, ?_, hpair⟩
    by_contra hnone
    exact hkept (mem_staleOf.mpr ⟨mem_intentsOf.mp hi, fun pod hpod heq => hnone ⟨pod, hpod, heq⟩⟩)
  · rintro ⟨hi, ⟨pod, hpod, heq⟩, hpair⟩
    exact ⟨⟨hi, fun hstale => (mem_staleOf.mp hstale).2 pod hpod heq⟩, hpair⟩

theorem refreshed_tracks_iff (hcluster : w'.cluster = w.cluster) : w'.Tracks strategy ↔ w.Placed strategy := by
  simp only [Tracks, refreshed_pairs hown hadded, selectedPods_congr hcluster]
  constructor
  · refine fun h => ⟨fun i hi hcurrent => ?_, fun pod hpod ⟨i, hi, heq⟩ => ?_⟩
    · exact (h i.podID i.nodeID).mp (.inl ⟨i, hi, hcurrent, rfl, rfl⟩)
    · rcases (h pod.podID pod.nodeID).mpr ⟨pod, hpod, rfl, rfl⟩ with ⟨j, hj, -, hpair⟩ | ⟨pod', hnew, hpod', -⟩
      · exact ⟨j, hj, hpair⟩
      · exact absurd (heq.trans hpod'.symm) ((mem_newPods.mp hnew).2 i hi)
  · intro h podID nodeID
    constructor
    · rintro (⟨i, hi, hcurrent, rfl, rfl⟩ | ⟨pod, hnew, hpair⟩)
      · exact h.node i hi hcurrent
      · exact ⟨pod, (mem_newPods.mp hnew).1, hpair⟩
    · rintro ⟨pod, hpod, rfl, rfl⟩
      by_cases hhas : ∃ i ∈ w.intentsOf strategy.id, i.podID = pod.podID
      · obtain ⟨i, hi, hpair⟩ := h.covered pod hpod hhas
        exact .inl ⟨i, hi, ⟨pod, hpod, hpair.1.symm⟩, hpair⟩
      · refine .inr ⟨pod, mem_newPods.mpr ⟨hpod, fun i hi heq => hhas ⟨i, hi, heq⟩⟩, rfl, rfl⟩

end

/-! ## Once more -/

/-- A call that inserts or deletes intents. -/
def Writes (e : Prog.Event Call.Resp) : Prop :=
  (∃ intents, e.1 = .insertIntents intents) ∨ ∃ ids, e.1 = .deleteIntents ids

/-- Every intent is for a pod its strategy selects, and no such pod is without. -/
def World.Settled (w : World) : Prop := ∀ s ∈ w.strategies, w.staleOf s = [] ∧ w.newPods s = []

theorem Refreshed.settled (h : Refreshed w w' w.strategies) : w'.Settled := by
  intro s hs
  rw [h.strategies] at hs
  obtain ⟨added, hown, hadded⟩ := h.own s hs
  have hpods := World.selectedPods_congr h.cluster s
  constructor
  · refine List.eq_nil_iff_forall_not_mem.mpr fun i hi => ?_
    obtain ⟨hi, hgone⟩ := mem_staleOf.mp hi
    rw [hpods] at hgone
    obtain ⟨j, hj, hcurrent, heq, -⟩ | ⟨pod, hnew, heq, -⟩ :=
      (refreshed_pairs hown hadded i.podID i.nodeID).mp ⟨i, mem_intentsOf.mpr hi, rfl, rfl⟩
    · obtain ⟨pod, hpod, hid⟩ := hcurrent
      exact hgone pod hpod (hid.trans heq)
    · exact hgone pod (mem_newPods.mp hnew).1 heq
  · refine List.eq_nil_iff_forall_not_mem.mpr fun pod hpod => ?_
    obtain ⟨hpod, hnone⟩ := mem_newPods.mp hpod
    rw [hpods] at hpod
    by_cases hhas : ∃ i ∈ w.intentsOf s.id, i.podID = pod.podID
    · obtain ⟨i, hi, heq⟩ := hhas
      obtain ⟨j, hj, hid, -⟩ := (refreshed_pairs hown hadded pod.podID i.nodeID).mpr
        (.inl ⟨i, hi, ⟨pod, hpod, heq.symm⟩, heq, rfl⟩)
      exact hnone j hj hid
    · obtain ⟨j, hj, hid, -⟩ := (refreshed_pairs hown hadded pod.podID pod.nodeID).mpr
        (.inr ⟨pod, mem_newPods.mpr ⟨hpod, fun i hi heq => hhas ⟨i, hi, heq⟩⟩, rfl, rfl⟩)
      exact hnone j hj hid

/-- What the queries of a refresh answer. -/
def World.Tells (w : World) : Prog.Event Call.Resp → Prop
  | ⟨.queryStrategies _, .ok l⟩ => ∀ s ∈ l, s ∈ w.strategies
  | ⟨.queryPods opt, .ok pods⟩ => pods = w.cluster.queryPods opt
  | ⟨.queryIntents opt, .ok l⟩ => ∀ i, i ∈ l ↔
    i ∈ w.intents ∧ (opt.ids = [] ∨ i.id ∈ opt.ids) ∧ Repo.matchesIntentFilter opt i = true
  | _ => True

def Call.Looks : Call → Prop
  | .queryStrategies _ | .queryPods _ | .queryIntents _ => True
  | _ => False

theorem serve_tells {call} (hcall : call.Looks) :
    w.Tells ⟨call, (serve go env call w).1⟩ ∧ Unchanged w (serve go env call w).2 := by
  obtain ⟨es, hp⟩ : ∃ es, ApiRuns go env call.program w es (serve go env call w).1 (serve go env call w).2 :=
    serve_runs rfl
  cases call with
  | queryStrategies opt =>
    refine ⟨?_, query_unchanged hp⟩
    cases hr : (serve go env (.queryStrategies opt) w).1 with
    | error e => trivial
    | ok l => exact fun s hs => ((queryStrategies_ok (hr ▸ hp) s).mp hs).1
  | queryPods opt =>
    refine ⟨?_, (queryPods_inv hp).1⟩
    cases hr : (serve go env (.queryPods opt) w).1 with
    | error e => trivial
    | ok pods => exact (queryPods_inv hp).2 pods hr
  | queryIntents opt =>
    refine ⟨?_, query_unchanged hp⟩
    cases hr : (serve go env (.queryIntents opt) w).1 with
    | error e => trivial
    | ok l => exact queryIntents_ok (hr ▸ hp)
  | _ => exact hcall.elim

/-- Where nothing is stale or missing, a refresh only reads. -/
theorem makes_refreshStaleIntents_settled (hsettled : w.Settled) :
    Makes w.Tells Call.Looks (fun _ => True) refreshStaleIntents := by
  refine Makes.bind (Makes.mapError (makes_call trivial fun _ h => h)) fun strategies hstrategies => makes_forM fun s hs => ?_
  obtain ⟨hstale, hnew⟩ := hsettled s (hstrategies s hs)
  unfold refreshStrategy
  refine makes_attempt (makes_call trivial fun _ h => h) (fun _ => makes_pure trivial) fun pods hpods => ?_
  refine makes_attempt (makes_call trivial fun _ h => h) (fun _ => makes_pure trivial) fun intents hintents => ?_
  obtain rfl : pods = w.selectedPods s := hpods
  have hof : ∀ i, i ∈ intents ↔ i ∈ w.intentsOf s.id := fun i => by
    rw [hintents i, mem_intentsOf]
    simp [Repo.matchesIntentFilter, Repo.admits]
  have hnone : staleIntents (w.selectedPods s) intents = [] := List.eq_nil_iff_forall_not_mem.mpr fun i hi => by
    rw [staleIntents, List.mem_filter, hof] at hi
    have hmem : i ∈ w.staleOf s := List.mem_filter.mpr hi
    simp [hstale] at hmem
  dsimp only
  rw [hnone, newPods_of hof, hnew]
  refine makes_ite (fun h => absurd h (by simp)) fun _ => ?_
  exact Makes.bind (makes_pure rfl) fun new hnil => makes_ite (fun h => absurd h (by simp [hnil])) fun _ => makes_pure trivial

theorem refreshStaleIntents_reads {r} (hsettled : w.Settled)
    (h : Runs go env refreshStaleIntents w calls r w') : ∀ e ∈ calls, ¬Writes e := by
  have hcalls := Run.makes_calls (J := Unchanged w) (fun w1 call hu hcall => by
    obtain ⟨htells, hu'⟩ := @serve_tells go env w1 call hcall
    refine ⟨?_, hu.trans hu'⟩
    rw [hu.eq] at htells ⊢
    exact htells) h (makes_refreshStaleIntents_settled hsettled) (Unchanged.refl w)
  rintro ⟨call, r⟩ he (⟨_, rfl⟩ | ⟨_, rfl⟩)
  · exact hcalls _ he
  · exact hcalls _ he

instance (w : World) (strategy : ScheduleStrategy) : Decidable (w.Placed strategy) :=
  decidable_of_iff
    ((∀ i ∈ w.intentsOf strategy.id, (∃ pod ∈ w.selectedPods strategy, pod.podID = i.podID) →
        ∃ pod ∈ w.selectedPods strategy, pod.podID = i.podID ∧ pod.nodeID = i.nodeID) ∧
      ∀ pod ∈ w.selectedPods strategy, (∃ i ∈ w.intentsOf strategy.id, i.podID = pod.podID) →
        ∃ i ∈ w.intentsOf strategy.id, i.podID = pod.podID ∧ i.nodeID = pod.nodeID)
    ⟨fun ⟨h₁, h₂⟩ => ⟨h₁, h₂⟩, fun ⟨h₁, h₂⟩ => ⟨h₁, h₂⟩⟩

namespace OneNode

/-- Nothing is stored, and pod `p` is on no node yet. -/
def pendingWorld : World where
  store := store (.empty _) (.empty _)
  processes _ := .fresh
  cluster := cluster [{ pod "p" with nodeID := "" }] []

/-- The pod has been scheduled to node `a`. -/
def scheduled (w : World) : World := { w with cluster := cluster [pod "p"] [] }

def refresh (w : World) : Calls × Except Error Unit × World :=
  Prog.exec (serve .insertion newIDs) refreshStaleIntents.run w

end OneNode

end Gthulhu.Manager
