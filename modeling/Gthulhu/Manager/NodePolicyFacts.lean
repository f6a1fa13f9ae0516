/-
What node policies do to each other.

A decision maker replaces its node policies by whatever it is sent, and the
manager sends one policy's intents at a time. An intent carries its policy's
ID, so a push never contains another policy's: those stay in force exactly if
the policy goes to no decision maker on whose node they are
(`policyChange_keepsOthers_iff`). Removal is by policy ID and harms nobody
else.

The reconciliation goes policy by policy, each one's new intents pushed on
their own. It keeps all in force if no two policies meet on the node of a
decision maker that is sent something (`refreshStaleNodeIntents_keepsAll`).
-/
import Gthulhu.Manager.NodeResyncFacts
import Gthulhu.Manager.ResolveNodes
import Gthulhu.Manager.StrategyFacts

namespace Gthulhu.Manager

open Lib World Prog DecisionMaker List

variable {go : SliceSort} {env : Nat → Choice} {w w' : World} {calls : Calls}

/-! ## The nodes of a policy -/

/-- The nodes a policy selects now, by name: every kind of selector given must match. -/
def World.policyNodes (w : World) (policy : NodeSchedulingPolicy) : List String :=
  let selected := (w.cluster.queryNodes ⟨policy.nodeSelectors, policy.nodeNames⟩).map Node.name
  let byDRA := (w.cluster.queryNodesByDRA policy.draSelectors).map Node.name
  if policy.nodeSelectors.isEmpty && policy.nodeNames.isEmpty then
    if policy.draSelectors.isEmpty then [] else byDRA
  else if policy.draSelectors.isEmpty then selected else selected.filter fun name => name ∈ byDRA

/-- The queries are answered from the cluster. -/
def Cluster.Answers (cluster : Cluster) : Event Call.Resp → Prop
  | ⟨.queryNodesBySelectors opt, .ok nodes⟩ => nodes = cluster.queryNodes opt
  | ⟨.queryNodesByDRA selectors, .ok nodes⟩ => nodes = cluster.queryNodesByDRA selectors
  | _ => True

theorem serve_queries {policy : NodeSchedulingPolicy} {call : Call} {r} (hq : policy.Queries call)
    (h : serve go env call w = (r, w')) : w.cluster.Answers ⟨call, r⟩ ∧ Unchanged w w' := by
  obtain ⟨es, hp⟩ := serve_runs h
  rcases hq with rfl | rfl | rfl
  · obtain ⟨hu, hnodes⟩ := queryNodesBySelectors_inv hp
    cases r with
    | ok nodes => exact ⟨hnodes nodes rfl, hu⟩
    | error e => exact ⟨trivial, hu⟩
  · obtain ⟨hu, hnodes⟩ := queryNodesByDRA_inv hp
    cases r with
    | ok nodes => exact ⟨hnodes nodes rfl, hu⟩
    | error e => exact ⟨trivial, hu⟩
  · obtain ⟨order, -, hcall⟩ := Run.lift_inv hp
    exact ⟨trivial, (Prod.mk.inj (Run.call_inv hcall).2).2 ▸ unchanged_tick w _⟩

theorem resolveNodesForPolicy_inv {policy r} (h : Runs go env (resolveNodesForPolicy policy) w calls r w') :
    Unchanged w w' ∧ ∀ nodes, r = .ok nodes → ∀ name, name ∈ nodes.map Node.name ↔ name ∈ w.policyNodes policy := by
  have hstep : ∀ w1 call, Unchanged w w1 → policy.Queries call →
      w.cluster.Answers ⟨call, (serve go env call w1).1⟩ ∧ Unchanged w (serve go env call w1).2 := fun w1 call hu hq => by
    obtain ⟨hanswer, hu'⟩ := serve_queries hq rfl
    exact ⟨hu.cluster ▸ hanswer, hu.trans hu'⟩
  obtain ⟨hu, hresolved⟩ := Run.makes hstep h
    (along_resolveNodesForPolicy policy (fun _ => id) fun _ _ _ _ => trivial) (Unchanged.refl w)
  refine ⟨hu, fun nodes hr name => ?_⟩
  obtain ⟨selected, byDRA, hsel, hdra, -, hmem⟩ := hresolved nodes hr
  rw [hmem, NodeSchedulingPolicy.selects_congr (fun hlist => congrArg _ (hsel hlist)) fun hne => congrArg _ (hdra hne)]
  exact .rfl

/-! ## The intents of a policy -/

/-- What a decision maker is told of a node under a policy, whose ID is `id`. -/
def NodeSchedulingPolicy.intentFor (policy : NodeSchedulingPolicy) (id : ObjectID) (name : String) : NodePolicy :=
  (newNodeSchedulingIntent 0 { policy with id := id } ⟨name⟩).toNodePolicy

theorem newNodeSchedulingIntents_inv {policy nodes r}
    (h : Runs go env (newNodeSchedulingIntents policy nodes) w calls r w') :
    Unchanged w w' ∧ ∃ intents, r = .ok intents ∧
      intents.map NodeSchedulingIntent.core = nodes.map fun node => (policy.intentFor policy.id node.name, policy.id) := by
  rw [newNodeSchedulingIntents_eq] at h
  exact stampAll_inv h fun _ _ => rfl

/-- Intents of the policy `id`, one for each of the nodes. -/
structure IntentsFor (id : ObjectID) (nodes : List String) (intents : List NodeSchedulingIntent) : Prop where
  owner : ∀ i ∈ intents, i.policyID = id
  nodes : ∀ name, name ∈ nodes ↔ ∃ i ∈ intents, i.nodeID = name

theorem intentsFor_of_core {policy : NodeSchedulingPolicy} {id id'} {nodes : List Node} {names}
    {intents : List NodeSchedulingIntent} (hnames : ∀ name, name ∈ nodes.map Node.name ↔ name ∈ names)
    (h : intents.map NodeSchedulingIntent.core = nodes.map fun node => (policy.intentFor id' node.name, id)) :
    IntentsFor id names intents := by
  constructor
  · intro i hi
    have hmem := mem_map_of_mem (f := NodeSchedulingIntent.core) hi
    rw [h, mem_map] at hmem
    obtain ⟨node, _, heq⟩ := hmem
    exact (Prod.mk.inj heq).2.symm
  · intro name
    have hmap := congrArg (List.map fun c : NodePolicy × ObjectID => c.1.nodeID) h
    rw [map_map, map_map] at hmap
    have hids : nodes.map Node.name = intents.map fun i => i.nodeID := hmap.symm
    rw [← hnames, hids, mem_map]

/-! ## Dropping a policy -/

/-- Nothing but policy `id`, at decision makers on the nodes, has been dropped,
and nothing else changed. -/
structure DropsPolicy (w w' : World) (id : ObjectID) (nodes : List String) : Prop where
  store : w'.store = w.store
  cluster : w'.cluster = w.cluster
  keep : ∀ e, ∀ x ∈ (w.processes e).nodePolicies,
    (x.policyID = id.hex → ∀ dm ∈ w.cluster.decisionMakers, dm.endpoint = e → dm.nodeID ∉ nodes) →
    x ∈ (w'.processes e).nodePolicies

theorem DropsPolicy.of_unchanged {id nodes} (h : Unchanged w w') : DropsPolicy w w' id nodes :=
  ⟨h.store, h.cluster, fun _ _ hx _ => h.processes.symm ▸ hx⟩

theorem DropsPolicy.trans {id nodes w1} (h : DropsPolicy w w1 id nodes)
    (h' : DropsPolicy w1 w' id nodes) : DropsPolicy w w' id nodes :=
  ⟨h'.store.trans h.store, h'.cluster.trans h.cluster, fun e x hx hk => h'.keep e x (h.keep e x hx hk) (by
    rw [h.cluster]
    exact hk)⟩

theorem dropPolicy_inv {dm id nodes r} (hdm : dm ∈ w.cluster.decisionMakers ∧ dm.nodeID ∈ nodes)
    (h : Runs go env (do let _ ← attempt (Svc.call (.deleteNodeSchedulingIntents dm { policyID := id.hex }))) w calls r w') :
    r = .ok () ∧ DropsPolicy w w' id nodes := by
  obtain ⟨a, _, _, _, h1, h2, rfl⟩ := Run.attempt_bind_inv h
  obtain ⟨_, rfl, rfl⟩ := Run.pure_ok_inv h2
  obtain ⟨-, _, hp⟩ := call_inv h1
  obtain ⟨p, hs, heffect⟩ := deleteNodeSchedulingIntents_inv hp
  refine ⟨rfl, hs.store, hs.cluster, fun e x hx hk => ?_⟩
  by_cases he : e = dm.endpoint
  · subst he
    rw [hs.self]
    rcases heffect with ⟨hdropped, -⟩ | ⟨-, hsame, -⟩
    · rw [hdropped, mem_filter, decide_eq_true_iff]
      exact ⟨hx, fun hid => hk hid dm hdm.1 rfl hdm.2⟩
    · exact hsame.symm ▸ hx
  · rwa [hs.other he]

theorem notifyDMsDeleteNodeIntents_inv {intents id r} (hid : ∀ i ∈ intents, i.policyID = id)
    (h : Runs go env (notifyDMsDeleteNodeIntents intents) w calls r w') :
    r = .ok () ∧ DropsPolicy w w' id (intents.map fun i => i.nodeID) := by
  rw [notifyDMsDeleteNodeIntents] at h
  split at h
  · obtain ⟨_, rfl, rfl⟩ := Run.pure_ok_inv h
    exact ⟨rfl, .of_unchanged (Unchanged.refl _)⟩
  rename_i hne
  obtain ⟨a, w1, _, _, h1, h2, rfl⟩ := Run.attempt_bind_inv h
  obtain ⟨-, _, hq⟩ := call_inv h1
  have hu : DropsPolicy w w1 id (intents.map fun i => i.nodeID) := .of_unchanged (queryDecisionMakerPods_inv hq).1
  cases a with
  | error e =>
    obtain ⟨_, rfl, rfl⟩ := Run.pure_ok_inv h2
    exact ⟨rfl, hu⟩
  | ok dms =>
    obtain ⟨-, hdms⟩ := queryDecisionMakersOn_ok (fun _ => mem_eraseDups) (by simpa using hne) h1
    -- a pod is named only the policies of its node's intents, all of them `id`
    refine Run.forM_total (DropsPolicy w · id (intents.map fun i => i.nodeID))
      (fun dm hmem w2 calls r w3 hi hdm => ?_) h2 hu
    split at hdm
    · obtain ⟨_, rfl, rfl⟩ := Run.pure_ok_inv hdm
      exact ⟨rfl, hi⟩
    rcases Run.except_bind_inv hdm with ⟨e, _, hk⟩ | ⟨policyIDs, _, _, _, hk, hloop, rfl⟩
    · obtain ⟨_, _, he, _⟩ := keySet_inv hk
      cases he
    obtain ⟨hu', _, ⟨⟩, hids⟩ := keySet_inv hk
    refine Run.forM_total (DropsPolicy w · id (intents.map fun i => i.nodeID))
      (fun policyID hid' w5 calls r w6 hi hdrop => ?_) hloop (hi.trans (.of_unchanged hu'))
    rw [hids, getD_groupBy, mem_map] at hid'
    obtain ⟨i, hi', rfl⟩ := hid'
    rw [hid i (mem_filter.mp hi').1] at hdrop
    obtain ⟨hr, hd⟩ := dropPolicy_inv (hi.cluster.symm ▸ (hdms dm).mp hmem) hdrop
    exact ⟨hr, hi.trans hd⟩

/-! ## Pushing a policy -/

section

variable {intents : List NodeSchedulingIntent} {id : ObjectID} {nodes : List String} (hintents : IntentsFor id nodes intents)
include hintents

theorem IntentsFor.asked (node : String) : node ∈ (intents.map fun i => i.nodeID).eraseDups ↔ node ∈ nodes := by
  rw [mem_eraseDups, hintents.nodes, mem_map]

theorem IntentsFor.nodes_nil (hnil : intents = []) : nodes = [] :=
  eq_nil_iff_forall_not_mem.mpr fun name hname => by
    obtain ⟨i, hi, _⟩ := (hintents.nodes name).mp hname
    rw [hnil] at hi
    cases hi

theorem IntentsFor.nodes_ne (hne : intents ≠ []) : nodes ≠ [] := by
  obtain ⟨i, hi⟩ := exists_mem_of_ne_nil _ hne
  exact ne_nil_of_mem ((hintents.nodes i.nodeID).mpr ⟨i, hi, rfl⟩)

/-- The push, however it ends; and when it is done. -/
theorem sendNodeIntentsToDMs_inv {r} (h : Runs go env (sendNodeIntentsToDMs go intents) w calls r w') :
    nodeView.Pushed (nodeChannel go) nodes intents w w' ∧
      (r = .ok () → nodeView.PushDone (nodeChannel go) nodes intents w w') := by
  have hm := nodeChannel_meets go env
  rw [sendNodeIntentsToDMs] at h
  split at h
  · rename_i hnil
    obtain ⟨_, rfl, rfl⟩ := Run.pure_ok_inv h
    have hp := View.Pushed.of_unchanged hm nodes intents (Unchanged.refl w')
    refine ⟨hp, fun _ => ⟨hp, fun dm _ hreach => ?_⟩⟩
    obtain ⟨_, _, hnode, _⟩ := hreach
    rw [hintents.nodes_nil (isEmpty_iff.mp hnil)] at hnode
    cases hnode
  rename_i hne
  rcases Run.except_bind_inv h with ⟨e, rfl, h1⟩ | ⟨dms, _, _, _, h1, h2, rfl⟩
  · obtain ⟨-, _, hq⟩ := call_inv h1
    exact ⟨.of_unchanged hm _ _ (queryDecisionMakerPods_inv hq).1, nofun⟩
  obtain ⟨hu, hdms⟩ := queryDecisionMakersOn_ok hintents.asked (hintents.nodes_ne (by simpa using hne)) h1
  split at h2
  · rename_i hempty
    obtain ⟨_, rfl, rfl⟩ := Run.pure_ok_inv h2
    have hdone := pushDone hm hintents.nodes hu hdms (.inl ⟨isEmpty_iff.mp hempty, rfl⟩)
    exact ⟨hdone.toPushed, fun _ => hdone⟩
  · refine ⟨(pushed_of_deliver hm hintents.nodes (hu.cluster.symm ▸ hdms) h2).after hm hu, ?_⟩
    rintro rfl
    exact pushDone hm hintents.nodes hu hdms (.inr ⟨_, _, _, h2⟩)

end

/-! ## What is left of the other policies -/

/-- The node intents of every policy but `id` are held where they apply. -/
def World.OtherPoliciesInForce (w : World) (id : ObjectID) : Prop :=
  ∀ i ∈ w.nodeIntents, i.policyID ≠ id → ∀ dm ∈ w.cluster.decisionMakers, dm.state = .online → dm.nodeID = i.nodeID →
    i.toNodePolicy ∈ (w.process dm).nodePolicies

instance (w : World) (id : ObjectID) : Decidable (w.OtherPoliciesInForce id) :=
  inferInstanceAs (Decidable (∀ i ∈ w.nodeIntents, i.policyID ≠ id → ∀ dm ∈ w.cluster.decisionMakers, _ → _ → _))

/-- No online decision maker that the nodes lead to is on the node of one of the intents. -/
def World.Apart (w : World) (nodes : List String) (others : List NodeSchedulingIntent) : Prop :=
  ∀ dm ∈ w.cluster.decisionMakers, dm.state = .online → w.Reaches nodes dm.endpoint → ∀ i ∈ others, i.nodeID ≠ dm.nodeID

instance (w : World) (nodes : List String) (others : List NodeSchedulingIntent) : Decidable (w.Apart nodes others) :=
  inferInstanceAs (Decidable (∀ dm ∈ w.cluster.decisionMakers, _ → _ → ∀ i ∈ others, _))

/-- The stored node intents of the other policies. -/
def World.nodeIntentsOfOthers (w : World) (id : ObjectID) : List NodeSchedulingIntent :=
  w.nodeIntents.filter fun i => i.policyID ≠ id

theorem World.mem_nodeIntentsOfOthers {id i} :
    i ∈ w.nodeIntentsOfOthers id ↔ i ∈ w.nodeIntents ∧ i.policyID ≠ id := by
  simp [World.nodeIntentsOfOthers]

theorem otherPoliciesInForce_iff (w w1 : World) (id : ObjectID)
    (hcore : w'.nodeIntents.map NodeSchedulingIntent.core = w1.nodeIntents.map NodeSchedulingIntent.core)
    (hothers : ∀ i, i.policyID ≠ id → (i ∈ w1.nodeIntents ↔ i ∈ w.nodeIntents)) (hcluster : w'.cluster = w.cluster) :
    w'.OtherPoliciesInForce id ↔ ∀ i ∈ w.nodeIntentsOfOthers id, ∀ dm ∈ w.cluster.decisionMakers, dm.state = .online →
      dm.nodeID = i.nodeID → i.toNodePolicy ∈ (w'.process dm).nodePolicies := by
  have hiff := View.othersInForce_iff (v := nodeView) (fun h => congrArg NodePolicy.nodeID h) w w1 id hcore hothers
    hcluster
  simp only [mem_nodeIntentsOfOthers, and_imp]
  exact hiff

/-- What other policies than `id` have stored is as before, and nothing but
policy `id`, on the nodes, has been dropped by the decision makers. -/
structure SparesOthers (w w' : World) (id : ObjectID) (nodes : List String) : Prop where
  cluster : w'.cluster = w.cluster
  stored : ∀ i, i.policyID ≠ id → (i ∈ w'.nodeIntents ↔ i ∈ w.nodeIntents)
  keep : ∀ e, ∀ x ∈ (w.processes e).nodePolicies,
    (x.policyID = id.hex → ∀ dm ∈ w.cluster.decisionMakers, dm.endpoint = e → dm.nodeID ∉ nodes) →
    x ∈ (w'.processes e).nodePolicies

namespace SparesOthers

variable {id : ObjectID} {nodes : List String}

theorem trans {w1} (h : SparesOthers w w1 id nodes) (h' : SparesOthers w1 w' id nodes) :
    SparesOthers w w' id nodes :=
  ⟨h'.cluster.trans h.cluster, fun i hid => (h'.stored i hid).trans (h.stored i hid),
    fun e x hx hk => h'.keep e x (h.keep e x hx hk) (by
      rw [h.cluster]
      exact hk)⟩

theorem mono {nodes'} (h : SparesOthers w w' id nodes) (hsub : ∀ name ∈ nodes, name ∈ nodes') :
    SparesOthers w w' id nodes' :=
  ⟨h.cluster, h.stored, fun e x hx hk => h.keep e x hx fun hid dm hdm he hmem => hk hid dm hdm he (hsub _ hmem)⟩

theorem of_dropsPolicy (h : DropsPolicy w w' id nodes) : SparesOthers w w' id nodes :=
  ⟨h.cluster, fun i _ => by rw [World.nodeIntents, h.store]; rfl, h.keep⟩

theorem of_unchanged (h : Unchanged w w') : SparesOthers w w' id nodes := of_dropsPolicy (.of_unchanged h)

theorem of_stored {k os} (hk : k ≠ .nodeIntent) (h : Stored w w' k os) :
    SparesOthers w w' id nodes :=
  ⟨h.cluster, fun i _ => by rw [World.nodeIntents, h.others _ hk.symm]; rfl, fun e x hx _ => by rwa [h.processes]⟩

/-- A write of node intents that removes and adds only `id`'s own. -/
theorem of_nodeIntents {os} (h : Stored w w' .nodeIntent os)
    (hos : ∀ i, i.policyID ≠ id → (i ∈ os ↔ i ∈ w.nodeIntents)) : SparesOthers w w' id nodes :=
  ⟨h.cluster, fun i hid => by rw [World.nodeIntents, h.objects]; exact hos i hid, fun e x hx _ => by rwa [h.processes]⟩

theorem of_added {added} (h : Stored w w' .nodeIntent (w.nodeIntents ++ added))
    (hadded : ∀ i ∈ added, i.policyID = id) : SparesOthers w w' id nodes :=
  of_nodeIntents h fun i hid => by
    rw [mem_append, or_iff_left]
    exact fun hi => hid (hadded i hi)

end SparesOthers

/-- The other policies' intents are held where they apply. -/
theorem World.NodeInSync.held {dm i} (h : w.NodeInSync) (hdm : dm ∈ w.cluster.decisionMakers)
    (honline : dm.state = .online) (hi : i ∈ w.nodeIntents)
    (hnode : dm.nodeID = i.nodeID) : i.toNodePolicy ∈ (w.process dm).nodePolicies :=
  (h dm hdm honline _).mpr ⟨i, hi, hnode.symm, rfl⟩

/-- Other policies stay in force exactly if the push comes to none of their nodes. -/
theorem otherPolicies_pushed {w2 id nodes dropped added} (hheld : w.OtherPoliciesInForce id)
    (hspares : SparesOthers w w2 id dropped) (hadded : IntentsFor id nodes added)
    (hpush : nodeView.Pushed (nodeChannel go) nodes added w2 w') :
    (w.Apart nodes (w.nodeIntentsOfOthers id) → w'.OtherPoliciesInForce id) ∧
      (w.OneProcessPerHost → nodeView.PushDone (nodeChannel go) nodes added w2 w' →
        (w'.OtherPoliciesInForce id ↔ w.Apart nodes (w.nodeIntentsOfOthers id))) := by
  have hcluster := hspares.cluster
  have hiff := otherPoliciesInForce_iff w w2 id hpush.frame.core hspares.stored (hpush.frame.cluster.trans hcluster)
  have hreaches : ∀ e, w2.Reaches nodes e ↔ w.Reaches nodes e := fun e => by rw [Reaches, Reaches, hcluster]
  have hsuff : w.Apart nodes (w.nodeIntentsOfOthers id) → w'.OtherPoliciesInForce id := fun hapart => by
    refine hiff.mpr fun i hi dm hdm honline hnode => ?_
    obtain ⟨hi', hid⟩ := mem_nodeIntentsOfOthers.mp hi
    have hnot : ¬w2.Reaches nodes dm.endpoint := fun hreach =>
      hapart dm hdm honline ((hreaches _).mp hreach) i hi hnode.symm
    rw [show (w'.process dm).nodePolicies = (w2.process dm).nodePolicies from hpush.others dm hnot]
    exact hspares.keep _ _ (hheld i hi' hid dm hdm honline hnode) fun hhex => (hid (ObjectID.hex_injective hhex)).elim
  refine ⟨hsuff, fun hone hdone => ⟨fun hforce dm hdm honline hreach i hi hnode => ?_, hsuff⟩⟩
  -- one reached holds the policy's own intents only
  have hsole : w2.SoleOnHost nodes dm.endpoint := by
    rw [SoleOnHost, hcluster]
    exact hone.sole hdm nodes
  obtain ⟨a, ha, hwire⟩ := (hdone.replaced dm (hcluster ▸ hdm) ((hreaches _).mpr hreach) hsole).1 _
    (hiff.mp hforce i hi dm hdm honline hnode.symm)
  have hhex : a.policyID.hex = i.policyID.hex := congrArg NodePolicy.policyID hwire
  exact (mem_nodeIntentsOfOthers.mp hi).2 ((ObjectID.hex_injective hhex).symm.trans (hadded.owner a ha))

theorem World.NodeInSync.othersInForce (h : w.NodeInSync) (id : ObjectID) : w.OtherPoliciesInForce id :=
  fun _ hi _ _ hdm honline hnode => h.held hdm honline hi hnode

theorem queryNodePolicies_unchanged {opt r es}
    (h : ApiRuns go env (Repo.queryNodePolicies opt) w es r w') : Unchanged w w' :=
  query_unchanged h

theorem queryNodeIntents_unchanged {opt r es}
    (h : ApiRuns go env (Repo.queryNodeIntents opt) w es r w') : Unchanged w w' :=
  query_unchanged h

/-- A policy created: its intents are stored and pushed. -/
theorem createNodeSchedulingPolicy_ok {operator : Claims} {policy p : NodeSchedulingPolicy}
    (h : Runs go env (createNodeSchedulingPolicy go operator policy) w calls (.ok p) w') :
    ∃ w2 added, SparesOthers w w2 p.id [] ∧ IntentsFor p.id (w.policyNodes policy) added ∧
      nodeView.PushDone (nodeChannel go) (w.policyNodes policy) added w2 w' := by
  rw [createNodeSchedulingPolicy] at h
  obtain ⟨operatorID, _, _, _, h1, h2, rfl⟩ := Run.ok_bind_inv h
  obtain ⟨_, rfl⟩ := parse_ok h1
  obtain ⟨nodes, w2, _, _, h3, h4, rfl⟩ := Run.ok_bind_inv h2
  obtain ⟨hu1, hnodes⟩ := resolveNodesForPolicy_inv h3
  split at h4
  · exact (Run.throw_ok h4).elim
  obtain ⟨time, _, _, _, h5, h6, rfl⟩ := Run.ok_bind_inv h4
  obtain ⟨intents, _, _, _, h7, h8, rfl⟩ := Run.ok_bind_inv h6
  obtain ⟨hu2, _, ⟨⟩, hcore⟩ := newNodeSchedulingIntents_inv h7
  have hu := (hu1.trans (nowCall_inv h5).1).trans hu2
  obtain ⟨⟨p', added⟩, w5, _, _, h9, h10, rfl⟩ := Run.ok_bind_inv h8
  obtain ⟨_, hins⟩ := wrapped_ok h9
  obtain ⟨_, hs, hs', hinserted, -⟩ := insertWithOwned_ok hins
  have hadded := Kind.Inserted.map_eq NodeSchedulingIntent.core hinserted fun _ _ _ => rfl
  have hcore' : added.map NodeSchedulingIntent.core =
      nodes.map fun node => (policy.intentFor p'.id node.name, p'.id) := by
    have hset := congrArg (List.map fun c : NodePolicy × ObjectID => ({ c.1 with policyID := p'.id.hex }, p'.id)) hcore
    rw [map_map, map_map] at hset
    exact hadded.trans hset
  have hfor := intentsFor_of_core (hnodes nodes rfl) hcore'
  obtain ⟨⟨⟩, _, _, _, h11, h12, rfl⟩ := Run.ok_bind_inv h10
  obtain ⟨_, ⟨⟩, rfl⟩ := Run.pure_ok_inv h12
  refine ⟨w5, added, ?_, hfor, (sendNodeIntentsToDMs_inv hfor h11).2 rfl⟩
  exact ((SparesOthers.of_unchanged hu).trans (.of_stored (by decide) hs)).trans (.of_added hs' hfor.owner)

theorem queryNodePolicies_ok {opt os es} (h : ApiRuns go env (Repo.queryNodePolicies opt) w es (.ok os) w')
    (o : NodeSchedulingPolicy) : o ∈ os ↔ o ∈ (w.store .nodePolicy).objects ∧ (opt.ids = [] ∨ o.id ∈ opt.ids) ∧
      Repo.matchesNodePolicyFilter opt o = true := by
  refine query_ok (fun o hm => ?_) h o
  exact selects_buildLabelSelector (by simp [Kind.labels]) hm

/-- A policy updated: its old intents are replaced in the store, the policy
dropped where they were, and the new ones pushed. -/
theorem updateNodeSchedulingPolicy_ok {operator policyID policy}
    (h : Runs go env (updateNodeSchedulingPolicy go operator policyID policy) w calls (.ok ()) w') :
    ∃ current w2 added dropped push, objectIDFromHex policyID = .ok current.id ∧
      current ∈ (w.store .nodePolicy).objects ∧
      (∃ stored ∈ (w2.store .nodePolicy).objects, stored.createdTime = current.createdTime ∧
        stored.updatedTime = policy.updatedTime) ∧
      SparesOthers w w2 current.id dropped ∧ IntentsFor current.id (w.policyNodes policy) added ∧
      Runs go env (sendNodeIntentsToDMs go added) w2 push (.ok ()) w' := by
  rw [updateNodeSchedulingPolicy] at h
  obtain ⟨id, _, _, _, h1, h2, rfl⟩ := Run.ok_bind_inv h
  obtain ⟨hid, rfl⟩ := parse_ok h1
  obtain ⟨operatorID, w2, _, _, h3, h4, rfl⟩ := Run.ok_bind_inv h2
  obtain ⟨_, rfl⟩ := parse_ok h3
  obtain ⟨existing, _, _, _, h5, h6, rfl⟩ := Run.ok_bind_inv h4
  obtain ⟨_, hq1⟩ := call_ok h5
  have hu1 := queryNodePolicies_unchanged hq1
  cases existing with
  | nil => exact (Run.throw_ok h6).elim
  | cons currentPolicy _ =>
    obtain ⟨hcurrent, hids, -⟩ := (queryNodePolicies_ok hq1 currentPolicy).mp mem_cons_self
    obtain rfl : currentPolicy.id = id := by simpa using hids
    simp only at h6
    obtain ⟨nodes, _, _, _, h7, h8, rfl⟩ := Run.ok_bind_inv h6
    obtain ⟨hu2, hnodes⟩ := resolveNodesForPolicy_inv h7
    rw [World.policyNodes, hu1.cluster] at hnodes
    split at h8
    · exact (Run.throw_ok h8).elim
    obtain ⟨oldIntents, _, _, _, h9, h10, rfl⟩ := Run.ok_bind_inv h8
    obtain ⟨_, hq2⟩ := wrapped_ok h9
    have hold : ∀ i ∈ oldIntents, i.policyID = currentPolicy.id := fun i hi => by
      have hmatch := ((queryNodeIntents_ok hq2 i).mp hi).2.2
      simpa [Repo.matchesNodeIntentFilter, Repo.admits] using hmatch
    have hu3 := queryNodeIntents_unchanged hq2
    have hu := (hu1.trans hu2).trans hu3
    obtain ⟨⟨⟩, w6, _, _, h11, h12, rfl⟩ := Run.ok_bind_inv h10
    obtain ⟨_, hupd⟩ := wrapped_ok h11
    obtain ⟨os, hs1, hnew, -⟩ := updateOwner_inv hupd
    obtain ⟨⟨⟩, w7, _, _, h13, h14, rfl⟩ := Run.ok_bind_inv h12
    obtain ⟨_, hdel⟩ := wrapped_ok h13
    have hs2 := deleteNodeIntentsByPolicyID_ok hdel
    obtain ⟨intents, _, _, _, h15, h16, rfl⟩ := Run.ok_bind_inv h14
    obtain ⟨hu4, _, ⟨⟩, hcore⟩ := newNodeSchedulingIntents_inv h15
    obtain ⟨added, _, _, _, h17, h18, rfl⟩ := Run.ok_bind_inv h16
    obtain ⟨_, hins⟩ := wrapped_ok h17
    obtain ⟨_, hs3, -, hadded⟩ := insertAll_inv NodeSchedulingIntent.core (fun _ _ _ => rfl) hins
    obtain ⟨rfl, hadded⟩ := hadded _ rfl
    have hfor := intentsFor_of_core (hnodes nodes rfl) (hadded.trans hcore)
    obtain ⟨⟨⟩, w10, _, _, h19, h20, rfl⟩ := Run.ok_bind_inv h18
    obtain ⟨-, hdrops⟩ := notifyDMsDeleteNodeIntents_inv hold h19
    have hstored := hnew rfl
    rw [← hs1.objects, ← hs2.others _ (by decide), ← hu4.store, ← hs3.others _ (by decide), ← hdrops.store] at hstored
    refine ⟨currentPolicy, w10, added, oldIntents.map fun i => i.nodeID, _, hid, hcurrent, ⟨_, hstored, rfl, rfl⟩, ?_, hfor, h20⟩
    have hdeleted : SparesOthers w6 w7 currentPolicy.id (oldIntents.map fun i => i.nodeID) := .of_nodeIntents hs2 fun i hne => by
      rw [mem_filter, and_iff_left (by simpa using hne)]
    exact (((((SparesOthers.of_unchanged hu).trans (.of_stored (by decide) hs1)).trans hdeleted).trans
      (.of_unchanged hu4)).trans (.of_added hs3 hfor.owner)).trans (.of_dropsPolicy hdrops)

/-! ## The reconciliation, one policy -/

theorem failsByCall_resolveNodesForPolicy (policy : NodeSchedulingPolicy) :
    FailsByCall go env (resolveNodesForPolicy policy) := by
  intro w calls r w' h hclean
  have hend := h.along_of_answers hclean (along_resolveNodesForPolicy policy (P := fun _ => True) (E := False)
    (fun _ _ => trivial) fun _ _ _ he => by cases he)
  cases r with
  | ok nodes => exact ⟨nodes, rfl⟩
  | error e => exact hend.elim

theorem failsByCall_sendNodeIntentsToDMs (intents : List NodeSchedulingIntent) :
    FailsByCall go env (sendNodeIntentsToDMs go intents) := by
  rw [sendNodeIntentsToDMs]
  refine failsByCall_ite (failsByCall_pure _) (failsByCall_bind (failsByCall_call _) fun dms => ?_)
  split
  · exact failsByCall_pure _
  rw [deliver]
  refine failsByCall_bind (failsByCall_call _) fun order => failsByCall_forM (fun group => ?_) _
  rw [deliverGroup]
  split
  · exact failsByCall_pure _
  · exact failsByCall_bind (failsByCall_wrapping (failsByCall_call _)) fun _ => failsByCall_wrapping (failsByCall_call _)

/-- The nodes a policy selects now without having an intent there. -/
def World.newPolicyNodes (w : World) (policy : NodeSchedulingPolicy) : List String :=
  (w.policyNodes policy).filter fun name => ¬∃ i ∈ w.nodeIntents, i.policyID = policy.id ∧ i.nodeID = name

theorem World.mem_newPolicyNodes {policy name} :
    name ∈ w.newPolicyNodes policy ↔
      name ∈ w.policyNodes policy ∧ ¬∃ i ∈ w.nodeIntents, i.policyID = policy.id ∧ i.nodeID = name := by
  rw [newPolicyNodes, mem_filter, decide_eq_true_iff]

/-- The stored intents of a policy. -/
def World.nodeIntentsOf (w : World) (id : ObjectID) : List NodeSchedulingIntent :=
  w.nodeIntents.filter fun i => i.policyID = id

theorem World.mem_nodeIntentsOf {id i} :
    i ∈ w.nodeIntentsOf id ↔ i ∈ w.nodeIntents ∧ i.policyID = id := by
  simp [World.nodeIntentsOf]

theorem queryNodeIntentsOf_ok {id os es}
    (h : ApiRuns go env (Repo.queryNodeIntents { policyIDs := [id] }) w es (.ok os) w') :
    Unchanged w w' ∧ ∀ i, i ∈ os ↔ i ∈ w.nodeIntentsOf id := by
  refine ⟨query_unchanged h, fun i => ?_⟩
  rw [queryNodeIntents_ok h, mem_nodeIntentsOf]
  simp [Repo.matchesNodeIntentFilter, Repo.admits]

/-- The nodes where a policy has an intent without selecting them now. -/
def World.stalePolicyNodes (w : World) (policy : NodeSchedulingPolicy) : List String :=
  ((w.nodeIntentsOf policy.id).filter fun i => i.nodeID ∉ w.policyNodes policy).map fun i => i.nodeID

theorem World.mem_stalePolicyNodes {policy name} :
    name ∈ w.stalePolicyNodes policy ↔
      name ∉ w.policyNodes policy ∧ ∃ i ∈ w.nodeIntents, i.policyID = policy.id ∧ i.nodeID = name := by
  simp only [stalePolicyNodes, mem_map, mem_filter, mem_nodeIntentsOf, decide_eq_true_iff]
  constructor
  · rintro ⟨i, ⟨⟨hi, hid⟩, hnot⟩, rfl⟩
    exact ⟨hnot, i, hi, hid, rfl⟩
  · rintro ⟨hnot, i, hi, hid, rfl⟩
    exact ⟨i, ⟨⟨hi, hid⟩, hnot⟩, rfl⟩

/-- What a policy's turn comes to: its intents on the nodes `stale` are dropped,
and intents for nodes among `fresh` stored and pushed; all of it, if the turn
is `done`. -/
def Turn (go : SliceSort) (w w' : World) (id : ObjectID) (stale fresh : List String) (done : Prop) : Prop :=
  ∃ w₂ nodes added, (∀ name ∈ nodes, name ∈ fresh) ∧ SparesOthers w w₂ id stale ∧ IntentsFor id nodes added ∧
    nodeView.Pushed (nodeChannel go) nodes added w₂ w' ∧
    (done → (∀ name ∈ fresh, name ∈ nodes) ∧ nodeView.PushDone (nodeChannel go) nodes added w₂ w' ∧
      w₂.nodeIntents = w.nodeIntents.filter (fun i => ¬(i.policyID = id ∧ i.nodeID ∈ stale)) ++ added)

/-- A turn given up before anything is pushed. -/
theorem Turn.givenUp {id stale fresh} {done : Prop} (hspares : SparesOthers w w' id stale)
    (hdone : ¬done) : Turn go w w' id stale fresh done :=
  ⟨w', [], [], nofun, hspares, ⟨nofun, by simp⟩,
    .of_unchanged (nodeChannel_meets go fun _ => {}) _ _ (Unchanged.refl _), fun h => (hdone h).elim⟩

/-- New nodes get their intents, and those are pushed. -/
theorem addNodeIntents_inv {policy newNodes r} (h : Runs go env (addNodeIntents go policy newNodes) w calls r w') :
    r = .ok () ∧ Turn go w w' policy.id [] (newNodes.map Node.name) (Clean calls) := by
  have hkept : w.nodeIntents.filter (fun i => ¬(i.policyID = policy.id ∧ i.nodeID ∈ [])) = w.nodeIntents := by simp
  rcases Run.except_bind_inv h with ⟨e, _, h1⟩ | ⟨intents, _, _, _, h1, h2, rfl⟩
  · obtain ⟨_, _, he, _⟩ := newNodeSchedulingIntents_inv h1
    cases he
  obtain ⟨hu, _, ⟨⟩, hcore⟩ := newNodeSchedulingIntents_inv h1
  have hfor : IntentsFor policy.id (newNodes.map Node.name) intents := intentsFor_of_core (fun _ => .rfl) hcore
  split at h2
  · obtain ⟨a, w2, _, _, h3, h4, rfl⟩ := Run.attempt_bind_inv h2
    obtain ⟨-, _, hins⟩ := call_inv h3
    obtain ⟨added, hs, hcores, hok⟩ := insertAll_inv NodeSchedulingIntent.core (fun _ _ _ => rfl) hins
    have howner : ∀ i ∈ added, i.policyID = policy.id := fun i hi => by
      obtain ⟨j, hj, hcore⟩ := mem_map.mp (hcores i hi)
      exact (Prod.mk.inj hcore).2.symm.trans (hfor.owner j hj)
    have hspares : SparesOthers w w2 policy.id [] :=
      (SparesOthers.of_unchanged hu).trans (.of_added hs howner)
    cases a with
    | error e =>
      obtain ⟨_, rfl, rfl⟩ := Run.pure_ok_inv h4
      refine ⟨rfl, .givenUp hspares fun hc => ?_⟩
      obtain ⟨_, he⟩ := failsByCall_call _ h3 hc.right.left
      cases he
    | ok newIntents =>
      obtain ⟨rfl, hsame⟩ := hok _ rfl
      have hadded : IntentsFor policy.id (newNodes.map Node.name) newIntents :=
        intentsFor_of_core (fun _ => .rfl) (hsame.trans hcore)
      obtain ⟨a, _, _, _, h5, h6, rfl⟩ := Run.attempt_bind_inv h4
      obtain ⟨_, rfl, rfl⟩ := Run.pure_ok_inv h6
      obtain ⟨hpushed, hdone⟩ := sendNodeIntentsToDMs_inv hadded h5
      refine ⟨rfl, w2, _, newIntents, fun _ => id, hspares, hadded, hpushed, fun hc => ⟨fun _ => id, ?_, ?_⟩⟩
      · obtain ⟨⟨⟩, ha⟩ := failsByCall_sendNodeIntentsToDMs newIntents h5 hc.right.right.left
        exact hdone ha
      · rw [World.nodeIntents, hs.objects, hu.store, hkept]
        rfl
  · rename_i hempty
    obtain ⟨_, rfl, rfl⟩ := Run.pure_ok_inv h2
    have hnil : intents = [] := by simpa using hempty
    have hp := View.Pushed.of_unchanged (nodeChannel_meets go env) [] [] (Unchanged.refl w')
    refine ⟨rfl, w', [], [], (fun _ hn => by cases hn), .of_unchanged hu, ⟨(fun _ hi => by cases hi), by simp⟩, hp,
      fun _ => ⟨?_, ⟨hp, fun dm _ hreach => ?_⟩, ?_⟩⟩
    · rw [hfor.nodes_nil hnil]
      exact fun _ => id
    · obtain ⟨_, _, hnode, _⟩ := hreach
      cases hnode
    · rw [append_nil, hu.nodeIntents, hkept]

/-- Steps before a turn that only drop what is stale belong to it. -/
theorem Turn.after {w1 id stale fresh fresh'} {done done' : Prop} (hspares : SparesOthers w w1 id stale)
    (hstored : done' → w1.nodeIntents = w.nodeIntents.filter fun i => ¬(i.policyID = id ∧ i.nodeID ∈ stale))
    (h : Turn go w1 w' id [] fresh' done) (hfresh : ∀ name, name ∈ fresh' ↔ name ∈ fresh) (hdone : done' → done) :
    Turn go w w' id stale fresh done' := by
  obtain ⟨w2, nodes, added, hsub, hspares', hfor, hpushed, hall⟩ := h
  refine ⟨w2, nodes, added, fun name hname => (hfresh name).mp (hsub name hname), hspares.trans (hspares'.mono nofun),
    hfor, hpushed, fun hd => ?_⟩
  obtain ⟨hnodes, hpush, hstore⟩ := hall (hdone hd)
  refine ⟨fun name hname => hnodes name ((hfresh name).mpr hname), hpush, ?_⟩
  rw [hstore, ← hstored hd]
  simp

/-- One policy's turn in the reconciliation, however it goes. -/
theorem refreshNodePolicy_inv {policy r} (h : Runs go env (refreshNodePolicy go policy) w calls r w') :
    r = .ok () ∧ Turn go w w' policy.id (w.stalePolicyNodes policy) (w.newPolicyNodes policy) (Clean calls) := by
  rw [refreshNodePolicy] at h
  obtain ⟨a, _, _, _, h1, h2, rfl⟩ := Run.attempt_bind_inv h
  obtain ⟨hu1, hnodes⟩ := resolveNodesForPolicy_inv h1
  cases a with
  | error e =>
    obtain ⟨_, rfl, rfl⟩ := Run.pure_ok_inv h2
    refine ⟨rfl, .givenUp (.of_unchanged hu1) fun hc => ?_⟩
    obtain ⟨_, he⟩ := failsByCall_resolveNodesForPolicy policy h1 hc.left
    cases he
  | ok currentNodes =>
    obtain ⟨a, w2, _, _, h3, h4, rfl⟩ := Run.attempt_bind_inv h2
    obtain ⟨-, _, hq⟩ := call_inv h3
    have hu := hu1.trans (queryNodeIntents_unchanged hq)
    cases a with
    | error e =>
      obtain ⟨_, rfl, rfl⟩ := Run.pure_ok_inv h4
      refine ⟨rfl, .givenUp (.of_unchanged hu) fun hc => ?_⟩
      obtain ⟨_, he⟩ := failsByCall_call _ h3 hc.right.left
      cases he
    | ok intents =>
      have hnodes := hnodes currentNodes rfl
      have hintents : ∀ i, i ∈ intents ↔ i ∈ w.nodeIntents ∧ i.policyID = policy.id := fun i => by
        rw [(queryNodeIntentsOf_ok hq).2, mem_nodeIntentsOf, hu1.nodeIntents]
      have hstale : ∀ i, i ∈ staleNodeIntents currentNodes intents ↔
          (i ∈ w.nodeIntents ∧ i.policyID = policy.id) ∧ i.nodeID ∉ w.policyNodes policy := fun i => by
        rw [staleNodeIntents, mem_filter, hintents, ← hnodes]
        simp
      have hown : ∀ i ∈ w.nodeIntents, i ∈ staleNodeIntents currentNodes intents ↔
          i.policyID = policy.id ∧ i.nodeID ∈ w.stalePolicyNodes policy := fun i hi => by
        rw [hstale, mem_stalePolicyNodes]
        constructor
        · rintro ⟨⟨_, hid⟩, hnot⟩
          exact ⟨hid, hnot, i, hi, hid, rfl⟩
        · rintro ⟨hid, hnot, _⟩
          exact ⟨⟨hi, hid⟩, hnot⟩
      have hfresh : ∀ name, name ∈ ((currentNodes.filter fun node =>
          !intents.any fun intent => intent.nodeID = node.name).map Node.name) ↔ name ∈ w.newPolicyNodes policy := by
        intro name
        rw [mem_newPolicyNodes, ← hnodes, mem_map, mem_map]
        constructor
        · rintro ⟨node, hnode, rfl⟩
          obtain ⟨hnode, hnew⟩ := mem_filter.mp hnode
          refine ⟨⟨node, hnode, rfl⟩, ?_⟩
          rintro ⟨i, hi, hid, hname⟩
          simp only [Bool.not_eq_true', any_eq_false, decide_eq_true_iff] at hnew
          exact hnew i ((hintents i).mpr ⟨hi, hid⟩) hname
        · rintro ⟨⟨node, hnode, rfl⟩, hnew⟩
          refine ⟨node, mem_filter.mpr ⟨hnode, ?_⟩, rfl⟩
          simp only [Bool.not_eq_true', any_eq_false, decide_eq_true_iff]
          intro i hi hname
          obtain ⟨hi, hid⟩ := (hintents i).mp hi
          exact hnew ⟨i, hi, hid, hname⟩
      dsimp only at h4
      split at h4
      · obtain ⟨a, w3, _, _, h5, h6, rfl⟩ := Run.attempt_bind_inv h4
        obtain ⟨-, _, hdel⟩ := call_inv h5
        have hids : ∀ i ∈ w.nodeIntents, i.id ∈ (staleNodeIntents currentNodes intents).map (fun i => i.id) ↔
            i ∈ staleNodeIntents currentNodes intents := fun i hi =>
          Resources.mem_ids (fun j hj => ((hstale j).mp hj).1.1) hi
        obtain ⟨os, hs, hsub, hkept⟩ := deleteIDs_inv hdel
        have hspares : SparesOthers w2 w3 policy.id (w.stalePolicyNodes policy) := .of_nodeIntents hs fun i hne => by
          refine ⟨hsub i, fun hi => hkept i hi fun hmem => hne ?_⟩
          have hi : i ∈ w.nodeIntents := hu.nodeIntents ▸ hi
          exact ((hstale i).mp ((hids i hi).mp hmem)).1.2
        have hmine : ∀ i ∈ staleNodeIntents currentNodes intents, i.policyID = policy.id := fun i hi =>
          ((hstale i).mp hi).1.2
        rcases Run.except_bind_inv h6 with ⟨e, _, h7⟩ | ⟨⟨⟩, w4, _, _, h7, h8, rfl⟩
        · cases (notifyDMsDeleteNodeIntents_inv hmine h7).1
        obtain ⟨-, hdrops⟩ := notifyDMsDeleteNodeIntents_inv hmine h7
        obtain ⟨hr, hturn⟩ := addNodeIntents_inv h8
        have hdropped : SparesOthers w3 w4 policy.id (w.stalePolicyNodes policy) :=
          (SparesOthers.of_dropsPolicy hdrops).mono fun name hname => by
            obtain ⟨i, hi, rfl⟩ := mem_map.mp hname
            exact ((hown i ((hstale i).mp hi).1.1).mp hi).2
        refine ⟨hr, hturn.after (((SparesOthers.of_unchanged hu).trans hspares).trans hdropped) (fun hc => ?_) hfresh
          fun hc => hc.right.right.right.right⟩
        obtain ⟨⟨⟩, rfl⟩ := failsByCall_call _ h5 hc.right.right.left
        rw [World.nodeIntents, hdrops.store, (deleteIDs_ok hdel).objects, hu.store]
        refine filter_congr fun i hi => ?_
        rw [decide_eq_decide, not_iff_not, ← hown i hi]
        exact hids i hi
      · rename_i hempty
        have hnil : staleNodeIntents currentNodes intents = [] := by simpa using hempty
        obtain ⟨hr, hturn⟩ := addNodeIntents_inv h4
        refine ⟨hr, hturn.after (.of_unchanged hu) (fun _ => ?_) hfresh fun hc => hc.right.right⟩
        rw [hu.nodeIntents]
        refine (filter_eq_self.mpr fun i hi => decide_eq_true ?_).symm
        rw [← hown i hi, hnil]
        exact not_mem_nil

/-! ## The reconciliation, policy after policy -/

/-- A policy has an intent on a node. -/
def World.HasIntent (w : World) (id : ObjectID) (node : String) : Prop :=
  ∃ i ∈ w.nodeIntents, i.policyID = id ∧ i.nodeID = node

theorem World.hasIntent_congr
    (h : w'.nodeIntents.map NodeSchedulingIntent.core = w.nodeIntents.map NodeSchedulingIntent.core) (id : ObjectID)
    (node : String) : w'.HasIntent id node ↔ w.HasIntent id node := by
  have hcore : ∀ w : World, w.HasIntent id node ↔
      ∃ c ∈ w.nodeIntents.map NodeSchedulingIntent.core, c.2 = id ∧ c.1.nodeID = node := fun w => by
    simp [HasIntent, NodeSchedulingIntent.core, NodeSchedulingIntent.toNodePolicy]
  rw [hcore, hcore, h]

/-- Every stored node intent is held where it applies. -/
def World.PoliciesInForce (w : World) : Prop :=
  ∀ i ∈ w.nodeIntents, ∀ dm ∈ w.cluster.decisionMakers, dm.state = .online → dm.nodeID = i.nodeID →
    i.toNodePolicy ∈ (w.process dm).nodePolicies

/-- No two decision makers are on one host. -/
def World.DistinctHosts (w : World) : Prop := (w.cluster.decisionMakers.map fun dm => dm.host).Nodup

theorem World.DistinctHosts.eq {dm dm'} (h : w.DistinctHosts) (hdm : dm ∈ w.cluster.decisionMakers)
    (hdm' : dm' ∈ w.cluster.decisionMakers) (hhost : dm.host = dm'.host) : dm = dm' :=
  inj_on_of_nodup_map h hdm hdm' hhost

theorem World.DistinctHosts.reaches_iff {dm} (h : w.DistinctHosts) (hdm : dm ∈ w.cluster.decisionMakers)
    (nodes : List String) : w.Reaches nodes dm.endpoint ↔ dm.nodeID ∈ nodes := by
  constructor
  · rintro ⟨dm', hdm', hnode, he⟩
    rwa [h.eq hdm' hdm (congrArg Prod.fst he)] at hnode
  · exact fun hnode => ⟨dm, hdm, hnode, rfl⟩

section

variable {id : ObjectID} {stale fresh : List String} {done : Prop} (hturn : Turn go w w' id stale fresh done) (hdone : done)
include hturn hdone

theorem Turn.hasIntent (p : ObjectID) (node : String) :
    w'.HasIntent p node ↔ (w.HasIntent p node ∧ ¬(p = id ∧ node ∈ stale)) ∨ (p = id ∧ node ∈ fresh) := by
  obtain ⟨_, nodes, added, hsub, -, hfor, -, hall⟩ := hturn
  obtain ⟨hnodes, hpush, hstore⟩ := hall hdone
  rw [World.hasIntent_congr hpush.frame.core, HasIntent, hstore]
  simp only [mem_append, mem_filter, decide_eq_true_iff]
  constructor
  · rintro ⟨i, ⟨hi, hkept⟩ | hi, rfl, rfl⟩
    · exact .inl ⟨⟨i, hi, rfl, rfl⟩, hkept⟩
    · exact .inr ⟨hfor.owner i hi, hsub _ ((hfor.nodes _).mpr ⟨i, hi, rfl⟩)⟩
  · rintro (⟨⟨i, hi, rfl, rfl⟩, hkept⟩ | ⟨rfl, hnode⟩)
    · exact ⟨i, .inl ⟨hi, hkept⟩, rfl, rfl⟩
    · obtain ⟨i, hi, rfl⟩ := (hfor.nodes node).mp (hnodes node hnode)
      exact ⟨i, .inr hi, hfor.owner i hi, rfl⟩

/-- A turn that is done keeps all in force, if what it pushes comes to no node
where another policy has an intent. -/
theorem Turn.policiesInForce (hforce : w.PoliciesInForce) (hhosts : w.DistinctHosts)
    (hapart : w.Apart fresh (w.nodeIntentsOfOthers id)) (hnew : ∀ node ∈ fresh, ¬w.HasIntent id node) :
    w'.PoliciesInForce := by
  obtain ⟨w2, nodes, added, hsub, hspares, hfor, hpushed, hall⟩ := hturn
  obtain ⟨-, hpush, hstore⟩ := hall hdone
  have hcluster := hspares.cluster
  have hothers : w'.OtherPoliciesInForce id :=
    (otherPolicies_pushed (fun i hi _ => hforce i hi) hspares hfor hpushed).1 fun dm hdm honline hreach i hi =>
      hapart dm hdm honline (hreach.mono hsub) i hi
  intro i hi dm hdm honline hnode
  by_cases hid : i.policyID = id
  swap
  · exact hothers i hi hid dm hdm honline hnode
  -- an own intent is a new one, or an old one that is not stale
  rw [hpush.frame.cluster, hcluster] at hdm
  have hmem := mem_map_of_mem (f := NodeSchedulingIntent.core) hi
  rw [show w'.nodeIntents.map NodeSchedulingIntent.core = w2.nodeIntents.map NodeSchedulingIntent.core from
    hpush.frame.core, hstore, mem_map] at hmem
  obtain ⟨j, hj, hcore⟩ := hmem
  obtain ⟨hwire, howner⟩ := Prod.mk.inj hcore
  have hjnode : dm.nodeID = j.nodeID := hnode.trans (congrArg NodePolicy.nodeID hwire).symm
  rw [← hwire]
  rcases mem_append.mp hj with hj | hj
  · obtain ⟨hj, hkept⟩ := mem_filter.mp hj
    have hjid : j.policyID = id := howner.trans hid
    have hnot : ¬w2.Reaches nodes dm.endpoint := by
      rw [Reaches, hcluster]
      intro hreach
      have hfresh := hsub _ ((hhosts.reaches_iff hdm nodes).mp hreach)
      exact hnew _ hfresh ⟨j, hj, hjid, hjnode.symm⟩
    rw [show (w'.process dm).nodePolicies = (w2.process dm).nodePolicies from hpush.others dm hnot]
    refine hspares.keep _ _ (hforce j hj dm hdm honline hjnode) fun _ dm' hdm' he hstale => ?_
    rw [hhosts.eq hdm' hdm (congrArg Prod.fst he), hjnode] at hstale
    exact of_decide_eq_true hkept ⟨hjid, hstale⟩
  · have hreach : w2.Reaches nodes dm.endpoint := by
      rw [Reaches, hcluster]
      exact ⟨dm, hdm, (hfor.nodes _).mpr ⟨j, hj, hjnode.symm⟩, rfl⟩
    have hsole : w2.SoleOnHost nodes dm.endpoint := by
      rw [SoleOnHost, hcluster]
      exact fun dm' hdm' _ hhost => by rw [hhosts.eq hdm' hdm hhost]
    exact (hpush.replaced dm (hcluster ▸ hdm) hreach hsole).2 j hj hjnode.symm

end

theorem World.apart_iff {id nodes} :
    w.Apart nodes (w.nodeIntentsOfOthers id) ↔ ∀ dm ∈ w.cluster.decisionMakers, dm.state = .online →
      w.Reaches nodes dm.endpoint → ∀ p, p ≠ id → ¬w.HasIntent p dm.nodeID := by
  simp only [Apart, mem_nodeIntentsOfOthers, HasIntent, and_imp]
  constructor
  · rintro h dm hdm honline hreach p hp ⟨i, hi, rfl, hnode⟩
    exact h dm hdm honline hreach i hi hp hnode
  · intro h dm hdm honline hreach i hi hid hnode
    exact h dm hdm honline hreach i.policyID hid ⟨i, hi, rfl, hnode⟩

/-- No policy gets new nodes where another has an intent or gets one, as far as
there are decision makers online. -/
def World.TurnsApart (w : World) (policies : List NodeSchedulingPolicy) : Prop :=
  ∀ s ∈ policies, w.Apart (w.newPolicyNodes s) (w.nodeIntentsOfOthers s.id) ∧
    ∀ t ∈ policies, t.id ≠ s.id → ∀ dm ∈ w.cluster.decisionMakers, dm.state = .online →
      dm.nodeID ∈ w.newPolicyNodes s → dm.nodeID ∉ w.newPolicyNodes t

instance (w : World) (policies : List NodeSchedulingPolicy) : Decidable (w.TurnsApart policies) :=
  inferInstanceAs (Decidable (∀ s ∈ policies, _ ∧ ∀ t ∈ policies, _ → ∀ dm ∈ w.cluster.decisionMakers, _ → _ → _))

theorem Turn.cluster {id stale fresh} {done : Prop} (h : Turn go w w' id stale fresh done) :
    w'.cluster = w.cluster := by
  obtain ⟨_, _, _, _, hspares, _, hpushed, _⟩ := h
  exact hpushed.frame.cluster.trans hspares.cluster

/-- A turn leaves the nodes another policy will get as they were. -/
theorem Turn.mem_newPolicyNodes {s t : NodeSchedulingPolicy} {stale fresh} {done : Prop}
    (h : Turn go w w' s.id stale fresh done) (hdone : done) (hne : t.id ≠ s.id) (name : String) :
    name ∈ w'.newPolicyNodes t ↔ name ∈ w.newPolicyNodes t := by
  rw [World.mem_newPolicyNodes, World.mem_newPolicyNodes, World.policyNodes, World.policyNodes, h.cluster]
  refine and_congr_right fun _ => not_congr ?_
  change w'.HasIntent t.id name ↔ w.HasIntent t.id name
  rw [h.hasIntent hdone]
  simp [hne]

theorem Turn.turnsApart {s : NodeSchedulingPolicy} {policies} {done : Prop}
    (h : Turn go w w' s.id (w.stalePolicyNodes s) (w.newPolicyNodes s) done) (hdone : done) (hhosts : w.DistinctHosts)
    (hne : ∀ t ∈ policies, t.id ≠ s.id) (hapart : w.TurnsApart (s :: policies)) : w'.TurnsApart policies := by
  intro t ht
  have hnew := fun t ht => h.mem_newPolicyNodes hdone (hne t ht)
  obtain ⟨hothers, hdisjoint⟩ := hapart t (mem_cons_of_mem _ ht)
  constructor
  · rw [apart_iff, h.cluster]
    intro dm hdm honline hreach p hp
    have hreach : w.Reaches (w.newPolicyNodes t) dm.endpoint := by
      rw [Reaches, h.cluster] at hreach
      exact World.Reaches.mono hreach fun node => (hnew t ht node).mp
    rw [h.hasIntent hdone]
    rintro (⟨hi, _⟩ | ⟨rfl, hi⟩)
    · exact apart_iff.mp hothers dm hdm honline hreach p hp hi
    · exact hdisjoint s (by simp) hp dm hdm honline ((hhosts.reaches_iff hdm _).mp hreach) hi
  · intro t' ht' hid dm hdm honline hmem hmem'
    rw [h.cluster] at hdm
    exact hdisjoint t' (mem_cons_of_mem _ ht') hid dm hdm honline ((hnew t ht _).mp hmem) ((hnew t' ht' _).mp hmem')

theorem refreshTurns_inv {policies r} (hnodup : (policies.map fun s => s.id).Nodup) (hclean : Clean calls)
    (hhosts : w.DistinctHosts) (hapart : w.TurnsApart policies) (hforce : w.PoliciesInForce)
    (h : Runs go env (forM policies (refreshNodePolicy go)) w calls r w') : w'.PoliciesInForce := by
  induction policies generalizing w calls with
  | nil =>
    obtain ⟨_, rfl, rfl⟩ := Run.pure_ok_inv h
    exact hforce
  | cons s policies ih =>
    rw [map_cons, nodup_cons] at hnodup
    rw [forM_cons] at h
    rcases Run.except_bind_inv h with ⟨e, _, h1⟩ | ⟨⟨⟩, _, _, _, h1, h2, rfl⟩
    · cases (refreshNodePolicy_inv h1).1
    obtain ⟨-, hturn⟩ := refreshNodePolicy_inv h1
    have hne : ∀ t ∈ policies, t.id ≠ s.id := fun t ht heq => hnodup.1 (heq ▸ mem_map_of_mem ht)
    refine ih hnodup.2 hclean.right ?_ (hturn.turnsApart hclean.left hhosts hne hapart) ?_ h2
    · rw [DistinctHosts, hturn.cluster]
      exact hhosts
    · exact hturn.policiesInForce hclean.left hforce hhosts (hapart s (by simp)).1 fun node hnode =>
        (mem_newPolicyNodes.mp hnode).2

/-- The node policies stored. -/
def World.policies (w : World) : List NodeSchedulingPolicy := (w.store .nodePolicy).objects

/-- A reconciliation in which nothing fails keeps all in force, if no two
policies meet on the node of a decision maker that is sent something. -/
theorem refreshStaleNodeIntents_keepsAll (hclean : Clean calls) (hhosts : w.DistinctHosts)
    (hapart : w.TurnsApart w.policies) (hforce : w.PoliciesInForce)
    (h : Runs go env (refreshStaleNodeIntents go) w calls (.ok ()) w') : w'.PoliciesInForce := by
  obtain ⟨policies, _, _, _, h1, h2, rfl⟩ := Run.ok_bind_inv h
  obtain ⟨_, hq⟩ := wrapped_ok h1
  have hu := queryNodePolicies_unchanged hq
  have hperm : policies.Perm w.policies := query_all (fun _ => rfl) hq
  have hnodup : (policies.map fun s => s.id).Nodup :=
    (hperm.map fun s => s.id).nodup_iff.mpr (w.store .nodePolicy).nodup
  rw [hu.eq] at h2
  refine refreshTurns_inv hnodup hclean.right ?_ (fun s hs => ?_) ?_ h2
  · exact hhosts
  · obtain ⟨hothers, hdisjoint⟩ := hapart s (hperm.mem_iff.mp hs)
    exact ⟨hothers, fun t ht => hdisjoint t (hperm.mem_iff.mp ht)⟩
  · exact hforce

/-! ## Policies do not displace each other, if they keep apart -/

theorem World.NodeInSync.policiesInForce (h : w.NodeInSync) : w.PoliciesInForce :=
  fun _ hi _ hdm honline hnode => h.held hdm honline hi hnode

/-- **Other policies stay in force exactly if the push comes to none of their
nodes**, on creation, on update, and when it is a policy's turn in the
reconciliation; a whole reconciliation keeps all in force if the policies keep
apart. -/
theorem policyChange_keepsOthers_iff (hsync : w.NodeInSync) (operator : Claims) (policy : NodeSchedulingPolicy) :
    (∀ calls p w', Runs go env (createNodeSchedulingPolicy go operator policy) w calls (.ok p) w' →
      (w.Apart (w.policyNodes policy) w.nodeIntents → w'.OtherPoliciesInForce p.id) ∧
        (w.OneProcessPerHost → (∀ i ∈ w.nodeIntents, i.policyID ≠ p.id) →
          (w'.OtherPoliciesInForce p.id ↔ w.Apart (w.policyNodes policy) w.nodeIntents))) ∧
    (∀ policyID id calls w', objectIDFromHex policyID = .ok id →
      Runs go env (updateNodeSchedulingPolicy go operator policyID policy) w calls (.ok ()) w' →
      (w.Apart (w.policyNodes policy) (w.nodeIntentsOfOthers id) → w'.OtherPoliciesInForce id) ∧
        (w.OneProcessPerHost →
          (w'.OtherPoliciesInForce id ↔ w.Apart (w.policyNodes policy) (w.nodeIntentsOfOthers id)))) ∧
    (∀ calls r w', Runs go env (refreshNodePolicy go policy) w calls r w' →
      (w.Apart (w.newPolicyNodes policy) (w.nodeIntentsOfOthers policy.id) → w'.OtherPoliciesInForce policy.id) ∧
        (w.OneProcessPerHost → Clean calls →
          (w'.OtherPoliciesInForce policy.id ↔
            w.Apart (w.newPolicyNodes policy) (w.nodeIntentsOfOthers policy.id)))) ∧
    ∀ calls w', Runs go env (refreshStaleNodeIntents go) w calls (.ok ()) w' → Clean calls → w.DistinctHosts →
      w.TurnsApart w.policies → ∀ id, w'.OtherPoliciesInForce id := by
  refine ⟨fun calls p w' h => ?_, fun policyID id calls w' hid h => ?_, fun calls r w' h => ?_,
    fun calls w' h hclean hhosts hapart id => ?_⟩
  · obtain ⟨_, added, hspares, hfor, hdone⟩ := createNodeSchedulingPolicy_ok h
    obtain ⟨hsuff, hiff⟩ := otherPolicies_pushed (hsync.othersInForce p.id) hspares hfor hdone.toPushed
    refine ⟨fun hapart => hsuff fun dm hdm honline hreach i hi =>
      hapart dm hdm honline hreach i (mem_nodeIntentsOfOthers.mp hi).1, fun hone hfresh => ?_⟩
    have hall : w.nodeIntentsOfOthers p.id = w.nodeIntents :=
      filter_eq_self.mpr fun i hi => decide_eq_true (hfresh i hi)
    rw [hiff hone hdone, hall]
  · obtain ⟨_, _, added, dropped, _, hid', -, -, hspares, hfor, hsend⟩ := updateNodeSchedulingPolicy_ok h
    obtain rfl := Except.ok.inj (hid.symm.trans hid')
    have hdone := (sendNodeIntentsToDMs_inv hfor hsend).2 rfl
    obtain ⟨hsuff, hiff⟩ := otherPolicies_pushed (hsync.othersInForce _) hspares hfor hdone.toPushed
    exact ⟨hsuff, fun hone => hiff hone hdone⟩
  · obtain ⟨-, _, nodes, added, hsub, hspares, hfor, hpushed, hall⟩ := refreshNodePolicy_inv h
    obtain ⟨hsuff, hiff⟩ := otherPolicies_pushed (hsync.othersInForce policy.id) hspares hfor hpushed
    have hnarrow : w.Apart (w.newPolicyNodes policy) (w.nodeIntentsOfOthers policy.id) →
        w.Apart nodes (w.nodeIntentsOfOthers policy.id) := fun hapart dm hdm honline hreach =>
      hapart dm hdm honline (hreach.mono hsub)
    refine ⟨fun hapart => hsuff (hnarrow hapart), fun hone hclean => ?_⟩
    obtain ⟨hnodes, hdone, -⟩ := hall hclean
    rw [hiff hone hdone]
    exact ⟨fun hapart dm hdm honline hreach => hapart dm hdm honline (hreach.mono hnodes), hnarrow⟩
  · exact fun i hi _ => refreshStaleNodeIntents_keepsAll hclean hhosts hapart hsync.policiesInForce h i hi

namespace TwoNodes

def dm : DecisionMakerPod := { OneNode.dm with nodeID := "b", host := "10.0.0.2" }

def nodeIntent : NodeSchedulingIntent := { OneNode.nodeIntent 1 7 with nodeID := "b" }

def policy (n : UInt8) : NodeSchedulingPolicy :=
  { id := OneNode.objectID n, creatorID := OneNode.objectID 9, nodeNames := ["x"], commandRegex := ".*", priority := 1 }

/-- Policy 7 has an intent on node `b`, held there; policies 6 and 7 select `selected`. -/
def world (selected : String) : World where
  store := Function.update (OneNode.store (.empty _) ⟨[nodeIntent], by decide⟩) .nodePolicy ⟨[policy 6, policy 7], by decide⟩
  processes e := if e = dm.endpoint then OneNode.sentNodeIntents [nodeIntent] else .fresh
  cluster := { OneNode.cluster [] [⟨selected⟩] with decisionMakers := [OneNode.dm, dm] }

theorem world_inSync (selected : String) : (world selected).NodeInSync := by
  have ha : ((world selected).process OneNode.dm).nodePolicies = [] := by
    change (if OneNode.dm.endpoint = dm.endpoint then OneNode.sentNodeIntents [nodeIntent] else .fresh).nodePolicies = []
    rw [if_neg (by decide)]
    rfl
  have hb : ((world selected).process dm).nodePolicies = [nodeIntent.toNodePolicy] := by
    change (if dm.endpoint = dm.endpoint then OneNode.sentNodeIntents [nodeIntent] else .fresh).nodePolicies = _
    rw [if_pos rfl]
    simp [OneNode.sentNodeIntents, Process.serve, handle, processNodePolicies, normalizeInputs, Process.nodePolicies]
  intro dm hdm _ x
  change _ ↔ ∃ i ∈ [nodeIntent], i.nodeID = dm.nodeID ∧ i.toNodePolicy = x
  simp only [world, mem_cons, not_mem_nil, or_false] at hdm
  rcases hdm with rfl | rfl
  · rw [ha]
    simp [nodeIntent, OneNode.dm]
  · rw [hb]
    simp [nodeIntent, TwoNodes.dm, eq_comm]

end TwoNodes

/-- A policy selecting node `b` is created, and the intent of policy 7 there is
gone from the decision maker. -/
theorem createNodeSchedulingPolicy_displaces :
    (TwoNodes.world "b").NodeInSync ∧
      ∃ calls p w', Runs .insertion OneNode.newIDs
        (createNodeSchedulingPolicy .insertion OneNode.operator (TwoNodes.policy 0)) (TwoNodes.world "b") calls (.ok p) w' ∧
        Clean calls ∧ ¬w'.OtherPoliciesInForce p.id :=
  ⟨TwoNodes.world_inSync "b", Run.exists_ok (by decide +kernel)⟩

/-- A policy that selects node `a` leaves policy 7 on node `b` in force, created,
updated or in its turn. -/
theorem policyChange_keepsOthers_iff_twoNodes :
    (∃ calls p w', Runs .insertion OneNode.newIDs
        (createNodeSchedulingPolicy .insertion OneNode.operator (TwoNodes.policy 0)) (TwoNodes.world "a") calls (.ok p) w' ∧
        w'.OtherPoliciesInForce p.id) ∧
      (∃ calls w', Runs .insertion OneNode.newIDs
        (updateNodeSchedulingPolicy .insertion OneNode.operator (OneNode.objectID 6).hex (TwoNodes.policy 6))
        (TwoNodes.world "a") calls (.ok ()) w' ∧ w'.OtherPoliciesInForce (OneNode.objectID 6)) ∧
      ∃ calls w', Runs .insertion OneNode.newIDs (refreshNodePolicy .insertion (TwoNodes.policy 6))
        (TwoNodes.world "a") calls (.ok ()) w' ∧ w'.OtherPoliciesInForce (OneNode.objectID 6) := by
  have hsync := TwoNodes.world_inSync "a"
  refine ⟨?_, ?_, ?_⟩
  · refine Run.exists_ok_of (fun _ _ _ => True) (by decide +kernel) fun calls p w' hrun _ => ?_
    exact ((policyChange_keepsOthers_iff hsync OneNode.operator _).1 _ _ _ hrun).1 (by decide)
  · refine Run.exists_unit_of (fun _ _ => True) (by decide +kernel) fun calls w' hrun _ => ?_
    exact ((policyChange_keepsOthers_iff hsync OneNode.operator _).2.1 _ _ _ _ rfl hrun).1 (by decide)
  · refine Run.exists_unit_of (fun _ _ => True) (by decide +kernel) fun calls w' hrun _ => ?_
    exact ((policyChange_keepsOthers_iff hsync OneNode.operator _).2.2.1 _ _ _ hrun).1 (by decide)

end Gthulhu.Manager
