/-
What the decision maker keeps true of its caches: the tree beside a cache is
the tree over that cache, sorted, or the service has never been written to
(`TreeState`, `handle_wellFormed`). `Process` carries it; the rest of the
development speaks of no other service state.

The other half of the module is one lemma for each request: what it does to
the two caches and what it answers.
-/
import Gthulhu.DecisionMaker.Service

namespace Gthulhu.DecisionMaker

open Lib Util

/-! ## The invariant -/

/-- The tree kept over a cache: none yet, or the tree of the cache sorted by key. -/
inductive TreeState {α : Type} (key leaf : α → String) (cache : List α) : Option MerkleNode → String → Prop where
  | fresh (h : cache = []) : TreeState key leaf cache none ""
  | built (l : List α) (hp : l.Perm cache) (hs : l.Pairwise fun a b => key a ≤ key b) :
    TreeState key leaf cache (some (buildMerkleTree (l.map leaf))) (buildMerkleTree (l.map leaf)).hash

structure Service.WellFormed (svc : Service) : Prop where
  intents : TreeState intentSortKey hashIntent svc.intentCache svc.intentMerkleRoot svc.intentMerkleRootHash
  nodePolicies : TreeState nodePolicySortKey hashNodePolicy svc.nodePolicyCache svc.nodePolicyMerkleRoot
    svc.nodePolicyMerkleRootHash

theorem wellFormed_fresh : ({} : Service).WellFormed := ⟨.fresh rfl, .fresh rfl⟩

variable {go : SliceSort} {scan : Except String Unit} {svc : Service}

theorem treeState_sort {α : Type} (key leaf : α → String) (cache : List α) :
    TreeState key leaf cache (some (buildMerkleTree ((go.sort key cache).map leaf)))
      (buildMerkleTree ((go.sort key cache).map leaf)).hash :=
  .built _ (go.perm key cache) (go.sorted key cache)

theorem rebuildIntents_wellFormed
    (h : TreeState nodePolicySortKey hashNodePolicy svc.nodePolicyCache svc.nodePolicyMerkleRoot
      svc.nodePolicyMerkleRootHash) : (rebuildIntentMerkleTreeLocked go svc).WellFormed :=
  ⟨treeState_sort _ _ _, h⟩

theorem rebuildNodePolicies_wellFormed
    (h : TreeState intentSortKey hashIntent svc.intentCache svc.intentMerkleRoot svc.intentMerkleRootHash) :
    (rebuildNodePolicyMerkleRootLocked go svc).WellFormed :=
  ⟨h, treeState_sort _ _ _⟩

theorem refresh_wellFormed (h : svc.WellFormed) : (refreshIntentMerkleTreeIfNeeded go svc).WellFormed := by
  unfold refreshIntentMerkleTreeIfNeeded
  split
  · exact h
  · exact ⟨treeState_sort _ _ _, h.nodePolicies⟩

/-- **The service invariant.** No request leaves a tree that is not the cache's. -/
theorem handle_wellFormed (h : svc.WellFormed) (req : Request) : (handle go scan req svc).2.WellFormed := by
  cases req with
  | handleIntents intents =>
    cases scan with
    | error err => exact h
    | ok u => exact ⟨treeState_sort _ _ _, h.nodePolicies⟩
  | deleteIntent podID pid all =>
    simp only [handle]
    split
    · exact rebuildIntents_wellFormed h.nodePolicies
    · split
      · exact h
      · split
        · exact h
        · exact rebuildIntents_wellFormed h.nodePolicies
  | getIntentMerkleRoot => exact refresh_wellFormed h
  | handleNodePolicies policies => exact ⟨h.intents, treeState_sort _ _ _⟩
  | deleteNodePolicy policyID all =>
    simp only [handle]
    split
    · exact rebuildNodePolicies_wellFormed h.intents
    · split
      · exact rebuildNodePolicies_wellFormed h.intents
      · exact h
  | getNodePolicyMerkleRoot => exact h

/-- A decision maker process: its service, in a state its requests can lead to. -/
structure Process where
  svc : Service
  wellFormed : svc.WellFormed

namespace Process

/-- A process just started. -/
def fresh : Process := ⟨{}, wellFormed_fresh⟩

/-- One request served. -/
def serve (go : SliceSort) (scan : Except String Unit) (req : Request) (p : Process) : Response × Process :=
  ((handle go scan req p.svc).1, ⟨(handle go scan req p.svc).2, handle_wellFormed p.wellFormed req⟩)

/-- The pod intents held. -/
def intents (p : Process) : List Intent := p.svc.intentCache

/-- The node policies held. -/
def nodePolicies (p : Process) : List NodePolicy := p.svc.nodePolicyCache

variable {p p' : Process} {resp : Response}

/-! ## The requests, one by one -/

/-- A push replaces the cache, or fails and leaves the process as it was. -/
theorem serve_handleIntents {intents} (h : p.serve go scan (.handleIntents intents) = (resp, p')) :
    (resp = .success ∧ p'.intents = intents ∧ p'.nodePolicies = p.nodePolicies) ∨
      ((∃ code message, resp = .failure code message) ∧ p' = p) := by
  cases scan with
  | error err =>
    simp only [serve, handle, processIntents, Prod.mk.injEq] at h
    exact .inr ⟨⟨_, _, h.1.symm⟩, h.2.symm⟩
  | ok u =>
    simp only [serve, handle, processIntents, Prod.mk.injEq] at h
    obtain ⟨rfl, rfl⟩ := h
    simp [Process.intents, Process.nodePolicies, normalizeInputs]

theorem serve_deleteAllIntents {podID pid} (h : p.serve go scan (.deleteIntent podID pid true) = (resp, p')) :
    resp = .success ∧ p'.intents = [] ∧ p'.nodePolicies = p.nodePolicies := by
  simp only [serve, handle, if_true, Prod.mk.injEq] at h
  obtain ⟨rfl, rfl⟩ := h
  exact ⟨rfl, rfl, rfl⟩

theorem serve_deleteIntent {podID} (h : p.serve go scan (.deleteIntent podID none false) = (resp, p')) :
    (resp = .success ∧ p'.intents = p.intents.filter (fun intent => intent.podID ≠ podID) ∧
        p'.nodePolicies = p.nodePolicies) ∨
      ((∃ code message, resp = .failure code message) ∧ p' = p) := by
  by_cases hp : podID = ""
  · simp only [serve, handle, hp, Bool.false_eq_true, if_false, if_true, Prod.mk.injEq] at h
    exact .inr ⟨⟨_, _, h.1.symm⟩, h.2.symm⟩
  · simp only [serve, handle, hp, Bool.false_eq_true, if_false, Prod.mk.injEq] at h
    obtain ⟨rfl, rfl⟩ := h
    exact .inl ⟨rfl, rfl, rfl⟩

theorem serve_handleNodePolicies {policies} (h : p.serve go scan (.handleNodePolicies policies) = (resp, p')) :
    resp = .success ∧ p'.nodePolicies = policies ∧ p'.intents = p.intents := by
  simp only [serve, handle, Prod.mk.injEq] at h
  obtain ⟨rfl, rfl⟩ := h
  simp [Process.intents, Process.nodePolicies, processNodePolicies, normalizeInputs]

theorem serve_deleteAllNodePolicies {policyID} (h : p.serve go scan (.deleteNodePolicy policyID true) = (resp, p')) :
    resp = .success ∧ p'.nodePolicies = [] ∧ p'.intents = p.intents := by
  simp only [serve, handle, if_true, Prod.mk.injEq] at h
  obtain ⟨rfl, rfl⟩ := h
  exact ⟨rfl, rfl, rfl⟩

theorem serve_deleteNodePolicy {policyID} (h : p.serve go scan (.deleteNodePolicy policyID false) = (resp, p')) :
    (resp = .success ∧ p'.nodePolicies = p.nodePolicies.filter (fun policy => policy.policyID ≠ policyID) ∧
        p'.intents = p.intents) ∨
      ((∃ code message, resp = .failure code message) ∧ p' = p) := by
  by_cases hp : policyID = ""
  · simp only [serve, handle, hp, Bool.false_eq_true, if_false, ne_eq, not_true_eq_false, Prod.mk.injEq] at h
    exact .inr ⟨⟨_, _, h.1.symm⟩, h.2.symm⟩
  · simp only [serve, handle, hp, Bool.false_eq_true, if_false, ne_eq, not_false_eq_true, if_true,
      Prod.mk.injEq] at h
    obtain ⟨rfl, rfl⟩ := h
    exact .inl ⟨rfl, rfl, rfl⟩

theorem truncateMerkleTree_hash (node : MerkleNode) (depth : Int64) :
    (truncateMerkleTree node depth).hash = node.hash := by
  cases node with
  | leaf h => rfl
  | node h l r =>
    simp only [truncateMerkleTree]
    split <;> rfl

/-- The root read of the pod intents: the root of the tree over the cache. -/
theorem serve_getIntentMerkleRoot (h : p.serve go scan .getIntentMerkleRoot = (resp, p')) :
    (∃ l : List Intent, l.Perm p.intents ∧ (l.Pairwise fun a b => intentSortKey a ≤ intentSortKey b) ∧
      resp = .merkleRoot (buildMerkleTree (l.map hashIntent)).hash) ∧
      p'.intents = p.intents ∧ p'.nodePolicies = p.nodePolicies := by
  simp only [serve, handle, traverseIntentMerkleTree, Prod.mk.injEq] at h
  obtain ⟨rfl, rfl⟩ := h
  have hcache : (refreshIntentMerkleTreeIfNeeded go p.svc).intentCache = p.intents ∧
      (refreshIntentMerkleTreeIfNeeded go p.svc).nodePolicyCache = p.nodePolicies := by
    unfold refreshIntentMerkleTreeIfNeeded
    split <;> exact ⟨rfl, rfl⟩
  refine ⟨?_, hcache⟩
  have hwf := (@refresh_wellFormed go p.svc p.wellFormed).intents
  rw [hcache.1] at hwf
  generalize hroot : (refreshIntentMerkleTreeIfNeeded go p.svc).intentMerkleRoot = root at hwf ⊢
  generalize (refreshIntentMerkleTreeIfNeeded go p.svc).intentMerkleRootHash = hash at hwf
  cases hwf with
  | fresh h =>
    -- The refresh has built a tree where there was none.
    exfalso
    unfold refreshIntentMerkleTreeIfNeeded at hroot
    split at hroot
    · rename_i heq; rw [heq] at hroot; cases hroot
    · cases hroot
  | built l hp hs => exact ⟨l, hp, hs, by simp [truncateMerkleTree_hash]⟩

theorem serve_getNodePolicyMerkleRoot (h : p.serve go scan .getNodePolicyMerkleRoot = (resp, p')) :
    resp = .merkleRoot (getNodePolicyMerkleRootHash p.svc) ∧ p' = p := by
  simp only [serve, handle, Prod.mk.injEq] at h
  exact ⟨h.1.symm, h.2.symm⟩

/-- The root reported for the node policies: that of the tree over the cache,
or the empty text before the first change. -/
theorem getNodePolicyMerkleRootHash_cases (p : Process) :
    (p.nodePolicies = [] ∧ getNodePolicyMerkleRootHash p.svc = "") ∨
      ∃ l : List NodePolicy, l.Perm p.nodePolicies ∧ (l.Pairwise fun a b => nodePolicySortKey a ≤ nodePolicySortKey b) ∧
        getNodePolicyMerkleRootHash p.svc = (buildMerkleTree (l.map hashNodePolicy)).hash := by
  have hwf := p.wellFormed.nodePolicies
  rw [getNodePolicyMerkleRootHash]
  generalize p.svc.nodePolicyMerkleRoot = root at hwf
  generalize p.svc.nodePolicyMerkleRootHash = hash at hwf ⊢
  cases hwf with
  | fresh h => exact .inl ⟨h, rfl⟩
  | built l hp hs => exact .inr ⟨l, hp, hs, rfl⟩

end Process

end Gthulhu.DecisionMaker
