/-
The two resyncs. A resync of pod intents in which no call fails leaves every
online decision maker with the stored intents of its node
(`resyncIntentsToDMs_converges`).
-/
import Gthulhu.DecisionMaker.Texts
import Gthulhu.Manager.Cron
import Gthulhu.Manager.DeliveryFacts

namespace Gthulhu.Manager

open Lib World Prog Util DecisionMaker

variable {go : SliceSort} {env : Nat → Choice} {w w' : World} {calls : Calls} {α : Type}

/-! ## Operations that fail only by a call -/

theorem failsByCall_pure (a : α) : FailsByCall go env (pure a : Svc α) := fun _ _ _ _ h _ =>
  ⟨a, (Run.pure_ok_inv h).2.1⟩

theorem failsByCall_bind {β : Type} {x : Svc α} {f : α → Svc β} (hx : FailsByCall go env x)
    (hf : ∀ a, FailsByCall go env (f a)) : FailsByCall go env (x >>= f) := by
  intro w calls r w' h hc
  rcases Run.except_bind_inv h with ⟨e, rfl, h1⟩ | ⟨a, _, _, _, h1, h2, rfl⟩
  · obtain ⟨_, he⟩ := hx h1 hc
    cases he
  · exact hf a h2 hc.right

theorem failsByCall_attempt {x : Svc α} : FailsByCall go env (attempt x) := by
  intro w calls r w' h _
  obtain ⟨a, ha, _⟩ := Run.attempt_inv h
  exact ⟨a, ha⟩

theorem failsByCall_wrapping {message : String} {x : Svc α} (hx : FailsByCall go env x) :
    FailsByCall go env (Svc.wrapping message x) := by
  intro w calls r w' h hc
  rcases Run.mapError_inv h with ⟨a, rfl, _⟩ | ⟨e, _, h'⟩
  · exact ⟨a, rfl⟩
  · obtain ⟨_, he⟩ := hx h' hc
    cases he

theorem failsByCall_ite {c : Prop} [Decidable c] {x y : Svc α} (hx : FailsByCall go env x)
    (hy : FailsByCall go env y) : FailsByCall go env (if c then x else y) := by
  split
  · exact hx
  · exact hy

theorem failsByCall_forM {f} (hf : ∀ a, FailsByCall go env (f a)) :
    ∀ l : List α, FailsByCall go env (forM l f)
  | [] => failsByCall_pure ()
  | a :: l => by
    rw [List.forM_cons]
    exact failsByCall_bind (hf a) fun _ => failsByCall_forM hf l

theorem failsByCall_resyncDM (ch : Channel α) (intents : List α) (dm : DecisionMakerPod) :
    FailsByCall go env (resyncDM ch intents dm) := by
  rw [resyncDM]
  refine failsByCall_ite (failsByCall_pure ()) (failsByCall_bind failsByCall_attempt fun a => ?_)
  cases a with
  | error e => exact failsByCall_pure ()
  | ok rootHash =>
    refine failsByCall_ite (failsByCall_pure ()) (failsByCall_ite ?_ (failsByCall_bind failsByCall_attempt fun a => ?_))
    · exact failsByCall_bind failsByCall_attempt fun _ => failsByCall_pure ()
    · cases a with
      | error e => exact failsByCall_pure ()
      | ok u => exact failsByCall_bind failsByCall_attempt fun _ => failsByCall_pure ()

/-! ## Pod intents -/

/-- Every online decision maker holds exactly the stored intents of its node. -/
def World.InSync (w : World) : Prop :=
  ∀ dm ∈ w.cluster.decisionMakers, dm.state = .online →
    ∀ x, x ∈ (w.process dm).intents ↔ ∃ i ∈ w.intents, i.nodeID = dm.nodeID ∧ i.toIntent = x

/-- The stored intents of a node, as a decision maker is told them. -/
def World.intentsOn (w : World) (nodeID : String) : List Intent :=
  (w.intents.filter fun i => i.nodeID = nodeID).map ScheduleIntent.toIntent

/-- The root the manager computes is the one a decision maker with these
records computes, whichever way the two sort. -/
theorem buildScheduleIntentMerkleRoot_eq {intents : List ScheduleIntent} {l : List Intent}
    (hp : l.Perm (intents.map ScheduleIntent.toIntent)) (hs : l.Pairwise fun a b => intentSortKey a ≤ intentSortKey b)
    (hplain : ∀ i ∈ l, i.Plain) :
    buildScheduleIntentMerkleRoot go intents = (buildMerkleTree (l.map hashIntent)).hash := by
  have hsorted : (go.sort scheduleIntentSortKey intents).map ScheduleIntent.toIntent = l := by
    refine sorted_unique intentSortKey_inj ?_ (fun i hi => hplain i ?_) ?_ hs
    · exact ((go.perm _ _).map _).trans hp.symm
    · exact (((go.perm _ _).map _).trans hp.symm).mem_iff.mp hi
    · rw [List.pairwise_map]
      exact go.sorted scheduleIntentSortKey intents
  rw [← hsorted, List.map_map]
  rfl

theorem queryAllIntents_ok {es os}
    (h : ApiRuns go env (Repo.queryIntents {}) w es (.ok os) w') : Unchanged w w' ∧ os.Perm w.intents :=
  ⟨query_unchanged h, query_all (fun _ => rfl) h⟩

theorem queryAllDecisionMakerPods_ok {es dms}
    (h : ApiRuns go env (K8SAdapter.queryDecisionMakerPods {}) w es (.ok dms) w') :
    Unchanged w w' ∧ dms.Perm w.cluster.decisionMakers := by
  obtain ⟨hu, hp⟩ := queryDecisionMakerPods_inv h
  have hall : K8SAdapter.onNodes [] w.cluster.decisionMakers = w.cluster.decisionMakers :=
    List.filter_eq_self.mpr fun _ _ => rfl
  exact ⟨hu, hall ▸ hp dms rfl⟩

/-- A decision maker whose root is the expected one holds its node's intents. -/
theorem podRoot_agrees {intents : List ScheduleIntent} {l cache : List Intent}
    (hl : l.Perm (intents.map ScheduleIntent.toIntent)) (hplain : ∀ i ∈ l, i.Plain) (hcached : ∀ i ∈ cache, i.Plain)
    (hsha : Set.InjOn sha256 {m | m ∈ intentMessages (go.sort intentSortKey cache) ∨
      m ∈ intentMessages (go.sort intentSortKey l)})
    (hroot : podView.RootOf cache (buildScheduleIntentMerkleRoot go intents)) (x : Intent) : x ∈ cache ↔ x ∈ l := by
  obtain ⟨sorted, hperm, hsorted, hroot⟩ := hroot
  obtain rfl : sorted = go.sort intentSortKey cache :=
    sorted_unique intentSortKey_inj (hperm.trans (go.perm _ _).symm) (fun i hi => hcached i (hperm.mem_iff.mp hi)) hsorted
      (go.sorted _ _)
  rw [buildScheduleIntentMerkleRoot_eq ((go.perm _ _).trans hl) (go.sorted _ _)
    (fun i hi => hplain i (go.mem_sort.mp hi))] at hroot
  have hsame := sameIntents_of_root_eq (fun i hi => hcached i ((go.perm _ _).mem_iff.mp hi))
    (fun i hi => hplain i ((go.perm _ _).mem_iff.mp hi)) hsha hroot.symm x
  rwa [(go.perm _ _).mem_iff, (go.perm _ _).mem_iff] at hsame

theorem World.mem_intentsOn {w : World} {node x} :
    x ∈ w.intentsOn node ↔ ∃ i ∈ w.intents, i.nodeID = node ∧ i.toIntent = x := by
  simp only [World.intentsOn, List.mem_map, List.mem_filter, decide_eq_true_eq, and_assoc]

/-- **Pod intents converge.** -/
theorem resyncIntentsToDMs_converges {result : Except Error Unit}
    (hrun : Runs go env (resyncIntentsToDMs go) w calls result w') (hclean : Clean calls)
    (hdistinct : (w.cluster.decisionMakers.map DecisionMakerPod.endpoint).Nodup)
    (hstored : ∀ i ∈ w.intents, i.toIntent.Plain)
    (hcached : ∀ dm ∈ w.cluster.decisionMakers, dm.state = .online → ∀ i ∈ (w.process dm).intents, i.Plain)
    (hsha : ∀ dm ∈ w.cluster.decisionMakers, dm.state = .online →
      Set.InjOn sha256 {m | m ∈ intentMessages (go.sort intentSortKey (w.process dm).intents) ∨
        m ∈ intentMessages (go.sort intentSortKey (w.intentsOn dm.nodeID))}) :
    w'.InSync := by
  rcases Run.except_bind_inv hrun with ⟨e, rfl, h₁⟩ | ⟨dms, _, _, _, h₁, h₂, rfl⟩
  · obtain ⟨_, he⟩ := failsByCall_call _ h₁ hclean
    cases he
  obtain ⟨-, _, hq⟩ := call_inv h₁
  obtain ⟨hu₁, hdms⟩ := queryAllDecisionMakerPods_ok hq
  split at h₂
  · -- No decision makers: nothing to say.
    rename_i hnil
    obtain ⟨_, _, rfl⟩ := Run.pure_ok_inv h₂
    intro dm hdm
    rw [hu₁.cluster, ← hdms.mem_iff, List.isEmpty_iff.mp hnil] at hdm
    cases hdm
  rcases Run.except_bind_inv h₂ with ⟨e, rfl, h₃⟩ | ⟨intents, _, _, _, h₃, h₄, rfl⟩
  · obtain ⟨_, he⟩ := failsByCall_call _ h₃ hclean.right
    cases he
  obtain ⟨-, _, hq'⟩ := call_inv h₃
  obtain ⟨hu₂, hintents⟩ := queryAllIntents_ok hq'
  rw [hu₁.intents] at hintents
  have hu := hu₁.trans hu₂
  obtain ⟨⟨⟩, rfl⟩ := failsByCall_forM (failsByCall_resyncDM _ _) _ h₄ hclean.right.right
  obtain ⟨hframe, hdone⟩ := resyncDMs_converge (podChannel_meets go go env)
    ((hdms.map DecisionMakerPod.endpoint).nodup_iff.mpr hdistinct) h₄ hclean.right.right <| by
    intro dm hdm hon hroot x
    have hdm := hdms.mem_iff.mp hdm
    rw [process_of_unchanged hu] at hroot ⊢
    have hnode : (w.intentsOn dm.nodeID).Perm
        ((intents.filter fun i => i.nodeID = dm.nodeID).map ScheduleIntent.toIntent) :=
      ((hintents.filter _).map _).symm
    refine (podRoot_agrees hnode (fun i hi => ?_) (hcached dm hdm hon) (hsha dm hdm hon) hroot x).trans ?_
    · obtain ⟨j, hj, _, rfl⟩ := mem_intentsOn.mp hi
      exact hstored j hj
    · simp only [mem_intentsOn, hintents.mem_iff]
      rfl
  intro dm hdm hon x
  rw [hframe.cluster, hu.cluster] at hdm
  refine (hdone dm (hdms.mem_iff.mpr hdm) hon x).trans ?_
  -- The stored intents are those resynced, their states apart.
  refine Iff.trans ?_ ((podChannel_meets go go env).stored_iff hframe dm.nodeID x).symm
  simp only [hintents.mem_iff, ← hu.intents]
  rfl

/-! ## One node

The smallest cluster, for inputs written out: one node with one decision
maker, and every request carried out. -/

namespace OneNode

def objectID (n : UInt8) : ObjectID := ⟨List.replicate 12 n, ObjectID.length_replicate n⟩

def dm : DecisionMakerPod := { nodeID := "a", port := 8080, host := "10.0.0.1", state := .online }

def cluster (pods : List Pod) (nodes : List Node) : Cluster where
  queryPods _ := pods
  queryNodes _ := nodes
  queryNodesByDRA _ := nodes
  decisionMakers := [dm]

def intent (n strategy : UInt8) (podID : String) : ScheduleIntent where
  id := objectID n
  strategyID := objectID strategy
  podID := podID
  podName := podID
  nodeID := "a"
  k8sNamespace := "default"
  commandRegex := ".*"
  priority := 1
  executionTime := 20
  podLabels := ∅
  state := .initialized

def store (intents : Resources .intent) (nodeIntents : Resources .nodeIntent) : Store
  | .intent => intents
  | .nodeIntent => nodeIntents
  | k => .empty k

theorem intent_plain {n strategy podID} (h : '|' ∉ podID.toList) :
    (intent n strategy podID).toIntent.Plain where
  podName := h
  podID := h
  nodeID := (by decide : '|' ∉ "a".toList)
  k8sNamespace := (by decide : '|' ∉ "default".toList)
  podLabels label hl := absurd hl (Multiset.notMem_zero label)

def onePod : Resources .intent := ⟨[intent 1 7 "p"], by decide⟩

/-- One intent stored, and a decision maker just started. -/
def world : World where
  store := store onePod (.empty _)
  processes _ := .fresh
  cluster := cluster [] []

end OneNode

theorem injOn_of_lists {l1 l2 : List (List UInt8)}
    (h : ∀ m ∈ l1 ++ l2, ∀ m' ∈ l1 ++ l2, sha256 m = sha256 m' → m = m') : Set.InjOn sha256 {m | m ∈ l1 ∨ m ∈ l2} :=
  fun m hm m' hm' => h m (List.mem_append.mpr hm) m' (List.mem_append.mpr hm')

theorem resyncIntentsToDMs_converges_oneNode :
    (exec (serve .insertion fun _ => {}) (resyncIntentsToDMs .insertion).run OneNode.world).2.2.InSync := by
  refine resyncIntentsToDMs_converges (run_exec _ _) (by decide +kernel) (by decide) (fun i hi => ?_)
    (fun dm _ _ i hi => ?_) (fun dm hdm _ => ?_)
  · obtain rfl := List.mem_singleton.mp hi
    exact OneNode.intent_plain (by decide)
  · cases hi
  · obtain rfl := List.mem_singleton.mp hdm
    exact injOn_of_lists (by decide +kernel)

end Gthulhu.Manager
