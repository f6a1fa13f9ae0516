/-
The nodes `resolveNodesForPolicy` finds, by name, from what its queries are
answered. A query that the policy gives no list for is not made; whoever
answers the others, the result is `NodeSchedulingPolicy.selects` of the
answers (`along_resolveNodesForPolicy`).
-/
import Gthulhu.Manager.ServiceCalls

namespace Gthulhu.Manager

open Lib Prog

/-! ## Nodes by name -/

/-- Every node stands under its name. -/
def Named (m : StrMap Node) : Prop := ∀ name node, m.lookup name = some node → node.name = name

theorem Named.insert {m} (h : Named m) (node : Node) : Named (m.insert node.name node) := by
  intro name node' hl
  by_cases hn : name = node.name
  · subst hn
    rw [AList.lookup_insert, Option.some.injEq] at hl
    rw [hl]
  · rw [AList.lookup_insert_ne hn] at hl
    exact h name node' hl

theorem nodesByName_from (nodes : List Node) : ∀ (m : StrMap Node), Named m →
    Named (nodes.foldl (fun byName node => byName.insert node.name node) m) ∧
      ∀ name, name ∈ nodes.foldl (fun byName node => byName.insert node.name node) m ↔
        name ∈ m ∨ name ∈ nodes.map Node.name := by
  induction nodes with
  | nil => exact fun m hm => ⟨hm, by simp⟩
  | cons node nodes ih =>
    intro m hm
    obtain ⟨hnamed, hmem⟩ := ih _ (hm.insert node)
    refine ⟨hnamed, fun name => (hmem name).trans ?_⟩
    rw [AList.mem_insert, List.map_cons, List.mem_cons]
    tauto

theorem named_empty : Named ∅ := fun _ _ h => by simp at h

theorem nodesByName_named (nodes : List Node) : Named (nodesByName nodes) := (nodesByName_from nodes ∅ named_empty).1

theorem mem_nodesByName {nodes name} : name ∈ nodesByName nodes ↔ name ∈ nodes.map Node.name := by
  rw [nodesByName, (nodesByName_from nodes ∅ named_empty).2]
  simp

theorem entries_named {m} (h : Named m) : ∀ e ∈ m.entries, e.2.name = e.1 := fun e he =>
  h e.1 e.2 (AList.mem_lookup_iff.mpr he)

/-- The candidates kept are put in by their names. -/
theorem intersectNodes_some {candidates} (h : Named candidates) (nodes : List Node) :
    intersectNodes (some candidates) nodes =
      nodesByName ((candidates.entries.filter fun e => e.1 ∈ nodesByName nodes).map Sigma.snd) := by
  rw [intersectNodes]
  generalize nodesByName nodes = kept
  rw [nodesByName, List.foldl_map, List.foldl_filter]
  refine List.foldl_ext _ _ _ fun result e he => ?_
  simp only [decide_eq_true_iff, entries_named h e he]

theorem mem_intersectNodes {candidates} (h : Named candidates) {nodes name} :
    name ∈ intersectNodes (some candidates) nodes ↔ name ∈ candidates ∧ name ∈ nodes.map Node.name := by
  simp only [intersectNodes_some h, mem_nodesByName, List.map_map, List.mem_map (f := _ ∘ _), List.mem_filter,
    decide_eq_true_iff, Function.comp_apply]
  constructor
  · rintro ⟨e, ⟨he, hkeep⟩, rfl⟩
    rw [entries_named h e he]
    exact ⟨AList.mem_keys.mpr (List.mem_keys_of_mem he), hkeep⟩
  · rintro ⟨hc, hkeep⟩
    obtain ⟨node, hnode⟩ := List.exists_of_mem_keys (AList.mem_keys.mp hc)
    exact ⟨_, ⟨hnode, hkeep⟩, entries_named h _ hnode⟩

/-- A range over the map finds every name once. -/
theorem range_nodes {candidates} (h : Named candidates) (order : List Nat) :
    (((reorder order candidates.entries).map fun node => node.2).map Node.name).Nodup ∧
      ∀ name, name ∈ ((reorder order candidates.entries).map fun node => node.2).map Node.name ↔ name ∈ candidates := by
  have hnames : ((reorder order candidates.entries).map fun node => node.2).map Node.name =
      (reorder order candidates.entries).map Sigma.fst := by
    rw [List.map_map]
    exact List.map_congr_left fun e he => entries_named h e (mem_reorder.mp he)
  have hperm := (reorder_perm order candidates.entries).map Sigma.fst
  rw [hnames]
  exact ⟨hperm.nodup_iff.mpr candidates.nodupKeys, fun name => hperm.mem_iff.trans AList.mem_keys.symm⟩

/-! ## The nodes of a policy -/

/-- The names a policy selects, from those its selectors and its devices lead to:
every kind of selector given must match. -/
def NodeSchedulingPolicy.selects (policy : NodeSchedulingPolicy) (selected byDRA : List String) : List String :=
  if policy.nodeSelectors.isEmpty && policy.nodeNames.isEmpty then
    if policy.draSelectors.isEmpty then [] else byDRA
  else if policy.draSelectors.isEmpty then selected else selected.filter fun name => name ∈ byDRA

/-- Nodes that the policy selects, from answers that meet `A`. -/
def NodeSchedulingPolicy.Resolved (policy : NodeSchedulingPolicy) (A : Event Call.Resp → Prop) (nodes : List Node) : Prop :=
  ∃ selected byDRA : List Node,
    (¬(policy.nodeSelectors.isEmpty && policy.nodeNames.isEmpty) →
      A ⟨.queryNodesBySelectors ⟨policy.nodeSelectors, policy.nodeNames⟩, .ok selected⟩) ∧
    (¬policy.draSelectors.isEmpty → A ⟨.queryNodesByDRA policy.draSelectors, .ok byDRA⟩) ∧
    (nodes.map Node.name).Nodup ∧
    ∀ name, name ∈ nodes.map Node.name ↔ name ∈ policy.selects (selected.map Node.name) (byDRA.map Node.name)

/-- The calls made for the nodes of a policy. -/
def NodeSchedulingPolicy.Queries (policy : NodeSchedulingPolicy) (call : Call) : Prop :=
  call = .queryNodesBySelectors ⟨policy.nodeSelectors, policy.nodeNames⟩ ∨ call = .queryNodesByDRA policy.draSelectors ∨
    call = .mapOrder

variable {A : Event Call.Resp → Prop} {P : Call → Prop} {E : Prop} {policy : NodeSchedulingPolicy}

/-- **The nodes found are those selected**, and only a failed call makes it fail. -/
theorem along_resolveNodesForPolicy (policy : NodeSchedulingPolicy) (hP : ∀ call, policy.Queries call → P call)
    (hE : ∀ call e, policy.Queries call → A ⟨call, .error e⟩ → E) :
    Along A (fun _ _ => ()) (fun _ => P) (Ends (fun _ nodes => policy.Resolved A nodes) fun _ _ => E) ()
      (resolveNodesForPolicy policy).run := by
  have hcall : ∀ {call : Call} {K : Unit → call.Result → Prop} {g : Unit}, policy.Queries call →
      (∀ a, A ⟨call, .ok a⟩ → K g a) →
      Along A (fun _ _ => ()) (fun _ => P) (Ends K fun _ _ => E) g (Svc.call call).run := by
    intro call K g hq hK
    refine along_mk.mpr (along_perform.mpr ⟨hP call hq, fun r hr => ?_⟩)
    cases r with
    | ok a => exact hK a hr
    | error e => exact hE call e hq hr
  have hfrom : ∀ nodes : List Node, Named (intersectNodes none nodes) := nodesByName_named
  unfold resolveNodesForPolicy NodeSchedulingPolicy.Resolved NodeSchedulingPolicy.selects
  simp only [← Bool.not_and]
  generalize (policy.nodeSelectors.isEmpty && policy.nodeNames.isEmpty) = noList
  generalize policy.draSelectors.isEmpty = noDRA
  cases noList <;> cases noDRA <;>
    simp only [Bool.and_true, Bool.and_false, Bool.not_true, Bool.not_false, if_true, if_false, Bool.false_eq_true,
      along_except_bind, along_mapError, along_pure, Svc.wrapping, not_true_eq_false, not_false_eq_true, false_implies,
      true_implies, Option.getD_some]
  · refine hcall (.inl rfl) fun selected hA => hcall (.inr (.inl rfl)) fun byDRA hB => hcall (.inr (.inr rfl)) fun order _ => ?_
    obtain ⟨hnodup, hmem⟩ := range_nodes (intersectNodes_some (hfrom selected) byDRA ▸ nodesByName_named _) order
    refine ⟨selected, byDRA, hA, hB, hnodup, fun name => (hmem name).trans ?_⟩
    rw [mem_intersectNodes (hfrom selected)]
    simp [intersectNodes, mem_nodesByName]
  · refine hcall (.inl rfl) fun selected hA => hcall (.inr (.inr rfl)) fun order _ => ?_
    obtain ⟨hnodup, hmem⟩ := range_nodes (hfrom selected) order
    exact ⟨selected, [], hA, trivial, hnodup, fun name => (hmem name).trans mem_nodesByName⟩
  · refine hcall (.inr (.inl rfl)) fun byDRA hB => hcall (.inr (.inr rfl)) fun order _ => ?_
    obtain ⟨hnodup, hmem⟩ := range_nodes (hfrom byDRA) order
    exact ⟨[], byDRA, trivial, hB, hnodup, fun name => (hmem name).trans mem_nodesByName⟩
  · exact ⟨[], [], trivial, trivial, List.nodup_nil, fun _ => .rfl⟩

theorem makes_resolveNodesForPolicy (hP : ∀ call, call.Harmless → P call) :
    Makes A P (fun _ => True) (resolveNodesForPolicy policy) := by
  refine Makes.imp (along_resolveNodesForPolicy policy (fun call hq => hP call ?_) fun _ _ _ _ => trivial) fun _ _ => trivial
  rcases hq with rfl | rfl | rfl <;> trivial

/-- Only an answer to a query that is made counts. -/
theorem NodeSchedulingPolicy.selects_congr {selected selected' byDRA byDRA'}
    (hlist : ¬(policy.nodeSelectors.isEmpty && policy.nodeNames.isEmpty) → selected = selected')
    (hdra : ¬policy.draSelectors.isEmpty → byDRA = byDRA') :
    policy.selects selected byDRA = policy.selects selected' byDRA' := by
  unfold selects
  split
  · split
    · rfl
    · exact hdra ‹_›
  · rw [hlist ‹_›]
    split
    · rfl
    · rw [hdra ‹_›]

end Gthulhu.Manager
