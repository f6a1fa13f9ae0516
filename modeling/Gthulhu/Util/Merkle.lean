/-
The Merkle trees both services build over their intents (`api/pkg/util/merkle.go`):
hex SHA-256 digests, combined in pairs, an odd last node with itself.

Where SHA-256 has no collision among the messages hashed, and no leaf's message
is 64 bytes long, so that it cannot pass for two digests, nodes with one hash
are one subtree (`MerkleNode.eq_of_hash_eq`; `treeMessages` lists the messages
above the leaves). So it does not matter which of them a search by hash finds,
and trees with one root hash are trees over the same messages, as sets
(`sameMessages_of_root_eq`), none of these being empty: the empty one is what
the empty tree hashes.
-/
import Gthulhu.Lib.Sha256
import Gthulhu.Lib.Hex
import Gthulhu.Lib.MerkleTree
import Mathlib.Data.Set.Function

namespace Gthulhu.Util

open Lib List MerkleTree

/-! ## Digests -/

/-- The bytes of a Go string. -/
def utf8 (s : String) : List UInt8 := s.toUTF8.data.toList

def hashSHA256Hex (data : List UInt8) : String := hexEncode (sha256 data)

def hashStringSHA256Hex (value : String) : String := hashSHA256Hex (utf8 value)

/-! ## Trees -/

/-- A node and its two children; the nodes built have both or none. -/
inductive MerkleNode where
  | leaf (hash : String)
  | node (hash : String) (left right : MerkleNode)
  deriving DecidableEq, Repr

def MerkleNode.hash : MerkleNode → String
  | .leaf h => h
  | .node h _ _ => h

/-- What `hashMerklePair` hashes: the two digests' bytes, or the two texts when
one of them is not hex. -/
def pairMessage (leftHash rightHash : String) : List UInt8 :=
  match hexDecode leftHash, hexDecode rightHash with
  | some leftBytes, some rightBytes => leftBytes ++ rightBytes
  | _, _ => utf8 (leftHash ++ rightHash)

def hashMerklePair (leftHash rightHash : String) : String := hashSHA256Hex (pairMessage leftHash rightHash)

def mergeNodes (left right : MerkleNode) : MerkleNode :=
  .node (hashMerklePair left.hash right.hash) left right

/-- One turn of the outer loop: the level above `nodes`. -/
def nextLevel : List MerkleNode → List MerkleNode
  | [] => []
  | [left] => [mergeNodes left left]
  | left :: right :: rest => mergeNodes left right :: nextLevel rest

theorem nextLevel_length : ∀ nodes : List MerkleNode, (nextLevel nodes).length = (nodes.length + 1) / 2
  | [] => by simp [nextLevel]
  | [_] => by simp [nextLevel]
  | _ :: _ :: rest => by simp [nextLevel, nextLevel_length rest]; omega

/-- The loop `for len(nodes) > 1`. -/
def mergeLevels (nodes : List MerkleNode) : List MerkleNode :=
  if 1 < nodes.length then mergeLevels (nextLevel nodes) else nodes
termination_by nodes.length
decreasing_by rw [nextLevel_length]; omega

def buildMerkleTree (leafHashes : List String) : MerkleNode :=
  -- Without leaves the loop is not reached; with some it ends in one node, `nodes[0]`.
  (mergeLevels (leafHashes.map .leaf)).headD (.leaf (hashStringSHA256Hex ""))

def findMerkleNode : MerkleNode → String → Option MerkleNode
  | .leaf h, hash => if h = hash then some (.leaf h) else none
  | .node h left right, hash =>
    if h = hash then some (.node h left right)
    else (findMerkleNode left hash).or (findMerkleNode right hash)

def truncateMerkleTree : MerkleNode → Int64 → MerkleNode
  | .leaf h, _ => .leaf h
  | .node h left right, depth =>
    if depth ≤ 0 then .leaf h
    else .node h (truncateMerkleTree left (depth - 1)) (truncateMerkleTree right (depth - 1))

/-! ## Roots -/

theorem nextLevel_eq : ∀ nodes : List MerkleNode, nextLevel nodes = level mergeNodes nodes
  | [] => rfl
  | [_] => rfl
  | _ :: _ :: rest => by simp [nextLevel, nextLevel_eq rest, level, pairs]

theorem mergeLevels_eq (nodes : List MerkleNode) (d : MerkleNode) :
    (mergeLevels nodes).headD d = root mergeNodes d nodes := by
  induction nodes using mergeLevels.induct with
  | case1 nodes h ih => rw [mergeLevels, if_pos h, ih, nextLevel_eq, ← root_level h]
  | case2 nodes h =>
    rw [mergeLevels, if_neg h]
    match nodes, h with
    | [], _ => simp
    | [n], _ => simp
    | _ :: _ :: _, h => simp at h

/-- The tree, in the terms of the general development. -/
theorem buildMerkleTree_eq (leafHashes : List String) :
    buildMerkleTree leafHashes = root mergeNodes (.leaf (hashStringSHA256Hex "")) (leafHashes.map .leaf) :=
  mergeLevels_eq _ _

theorem mergeNodes_hash (left right : MerkleNode) :
    (mergeNodes left right).hash = hashMerklePair left.hash right.hash := rfl

theorem map_hash_leaf (leafHashes : List String) : (leafHashes.map MerkleNode.leaf).map MerkleNode.hash = leafHashes := by
  rw [map_map]
  exact map_id'' (fun _ => rfl) leafHashes

theorem buildMerkleTree_hash (leafHashes : List String) :
    (buildMerkleTree leafHashes).hash = root hashMerklePair (hashStringSHA256Hex "") leafHashes := by
  rw [buildMerkleTree_eq, ← root_map MerkleNode.hash mergeNodes_hash, map_hash_leaf]
  rfl

/-- The messages hashed to build a tree over `leafHashes`, its leaves' own apart. -/
def treeMessages : List String → List (List UInt8)
  | [] => [utf8 ""]
  | leafHashes => (MerkleTree.combined hashMerklePair leafHashes).map fun p => pairMessage p.1 p.2

theorem hashSHA256Hex_injOn {S} (h : Set.InjOn sha256 S) : Set.InjOn hashSHA256Hex S :=
  fun _ hm _ hm' he => h hm hm' (hexEncode_injective he)

theorem pairMessage_digests (a b : List UInt8) :
    pairMessage (hashSHA256Hex a) (hashSHA256Hex b) = sha256 a ++ sha256 b := by
  simp [pairMessage, hashSHA256Hex]

/-- The trees here are made of digests only. -/
def IsDigest (hash : String) : Prop := ∃ m, hash = hashSHA256Hex m

theorem IsDigest.ne_empty {hash} (h : IsDigest hash) : hash ≠ "" := by
  obtain ⟨m, rfl⟩ := h
  intro he
  have hnil := congrArg List.length (hexEncode_eq_empty.mp he)
  rw [sha256_length] at hnil
  cases hnil

/-- The root of a tree over digests is one. -/
theorem buildMerkleTree_isDigest {leafHashes} (h : ∀ x ∈ leafHashes, IsDigest x) :
    IsDigest (buildMerkleTree leafHashes).hash := by
  rw [buildMerkleTree_hash]
  by_cases hnil : leafHashes = []
  · rw [hnil, root_nil]
    exact ⟨utf8 "", rfl⟩
  · exact root_forall hnil h fun p _ _ _ => ⟨pairMessage p.1 p.2, rfl⟩

theorem hashMerklePair_inj {S} (hinj : Set.InjOn sha256 S) {a b c d} (ha : IsDigest a) (hb : IsDigest b)
    (hc : IsDigest c) (hd : IsDigest d) (hs : pairMessage a b ∈ S) (hs' : pairMessage c d ∈ S)
    (he : hashMerklePair a b = hashMerklePair c d) :
    a = c ∧ b = d := by
  have hm := hashSHA256Hex_injOn hinj hs hs' he
  obtain ⟨ma, rfl⟩ := ha
  obtain ⟨mb, rfl⟩ := hb
  obtain ⟨mc, rfl⟩ := hc
  obtain ⟨md, rfl⟩ := hd
  rw [pairMessage_digests, pairMessage_digests] at hm
  obtain ⟨h1, h2⟩ := append_inj hm (by rw [sha256_length, sha256_length])
  exact ⟨congrArg hexEncode h1, congrArg hexEncode h2⟩

/-- The messages of one tree, leaves included. -/
def messages (leaves : List (List UInt8)) : List (List UInt8) :=
  leaves ++ treeMessages (leaves.map hashSHA256Hex)

/-! ## Subtrees -/

namespace MerkleNode

/-- The nodes of a tree, each with all that is below it. -/
def nodes : MerkleNode → List MerkleNode
  | .leaf h => [.leaf h]
  | .node h left right => .node h left right :: (left.nodes ++ right.nodes)

/-- The hashes of the leaves. -/
def leaves : MerkleNode → List String
  | .leaf h => [h]
  | .node _ left right => left.leaves ++ right.leaves

/-- The first `depth` levels below the root. -/
def cut : Nat → MerkleNode → MerkleNode
  | 0, t => .leaf t.hash
  | _ + 1, .leaf h => .leaf h
  | depth + 1, .node h left right => .node h (left.cut depth) (right.cut depth)

/-- Every node is the hash of a message in `S`: a leaf of one that is not 64
bytes long, an inner node of its children's digests. -/
def Over (S : Set (List UInt8)) : MerkleNode → Prop
  | .leaf h => ∃ m ∈ S, m.length ≠ 64 ∧ h = hashSHA256Hex m
  | .node h left right =>
    h = hashMerklePair left.hash right.hash ∧ pairMessage left.hash right.hash ∈ S ∧ left.Over S ∧ right.Over S

variable {S : Set (List UInt8)} {t u : MerkleNode}

theorem mem_nodes_self (t : MerkleNode) : t ∈ t.nodes := by cases t <;> simp [nodes]

theorem Over.of_mem (h : t.Over S) (hu : u ∈ t.nodes) : u.Over S := by
  induction t with
  | leaf x => rwa [mem_singleton.mp hu]
  | node x left right ihl ihr =>
    rcases mem_cons.mp hu with rfl | hu
    · exact h
    · exact (mem_append.mp hu).elim (ihl h.2.2.1) (ihr h.2.2.2)

theorem Over.isDigest (h : t.Over S) : IsDigest t.hash := by
  cases t with
  | leaf x =>
    obtain ⟨m, -, -, rfl⟩ := h
    exact ⟨m, rfl⟩
  | node x left right => exact ⟨_, h.1⟩

theorem Over.leaf_ne_node (hinj : Set.InjOn sha256 S) {x y left right} (hl : (leaf x).Over S)
    (hn : (node y left right).Over S) : x ≠ y := by
  obtain ⟨m, hm, hlen, rfl⟩ := hl
  obtain ⟨rfl, hp, hleft, hright⟩ := hn
  intro h
  obtain rfl := hashSHA256Hex_injOn hinj hm hp h
  obtain ⟨a, ha⟩ := hleft.isDigest
  obtain ⟨b, hb⟩ := hright.isDigest
  simp [ha, hb, pairMessage_digests, sha256_length] at hlen

/-- **Equal hashes, equal subtrees.** -/
theorem eq_of_hash_eq (hinj : Set.InjOn sha256 S) (ht : t.Over S) (hu : u.Over S) (h : t.hash = u.hash) : t = u := by
  induction t generalizing u with
  | leaf x =>
    cases u with
    | leaf y => exact congrArg leaf h
    | node y left right => exact absurd h (ht.leaf_ne_node hinj hu)
  | node x left right ihl ihr =>
    cases u with
    | leaf y => exact absurd h.symm (hu.leaf_ne_node hinj ht)
    | node y left' right' =>
      obtain ⟨hx, hp, hl, hr⟩ := ht
      obtain ⟨hy, hp', hl', hr'⟩ := hu
      obtain ⟨h1, h2⟩ := hashMerklePair_inj hinj hl.isDigest hr.isDigest hl'.isDigest hr'.isDigest hp hp'
        (hx.symm.trans (h.trans hy))
      rw [ihl hl hl' h1, ihr hr hr' h2, show x = y from h]

end MerkleNode

open MerkleNode

theorem findMerkleNode_eq (t : MerkleNode) (hash : String) :
    findMerkleNode t hash = t.nodes.find? fun n => n.hash = hash := by
  induction t with
  | leaf h => by_cases hh : h = hash <;> simp [findMerkleNode, nodes, MerkleNode.hash, hh]
  | node h left right ihl ihr =>
    by_cases hh : h = hash <;> simp [findMerkleNode, nodes, MerkleNode.hash, hh, ihl, ihr, find?_append]

theorem truncateMerkleTree_eq {t : MerkleNode} {depth : Int64} (h : 0 ≤ depth) :
    truncateMerkleTree t depth = t.cut depth.toInt.toNat := by
  have hle : 0 ≤ depth.toInt := by simpa using Int64.le_iff_toInt_le.mp h
  induction t generalizing depth with
  | leaf x => cases depth.toInt.toNat <;> rfl
  | node x left right ihl ihr =>
    have hlt := depth.toInt_lt
    have hzero : depth ≤ 0 ↔ depth.toInt ≤ 0 := by simp [Int64.le_iff_toInt_le]
    by_cases hd : depth ≤ 0
    · have hcut : depth.toInt.toNat = 0 := by
        have := hzero.mp hd
        omega
      rw [truncateMerkleTree, if_pos hd, hcut]
      rfl
    · have hpos : ¬depth.toInt ≤ 0 := hd ∘ hzero.mpr
      have hsub : (depth - 1).toInt = depth.toInt - 1 := by
        rw [Int64.toInt_sub, Int.bmod_eq_of_le] <;> simp <;> omega
      have hle' : 0 ≤ depth - 1 := Int64.le_iff_toInt_le.mpr (by rw [hsub]; simp; omega)
      have hcut : depth.toInt.toNat = (depth - 1).toInt.toNat + 1 := by omega
      rw [truncateMerkleTree, if_neg hd, ihl hle' (by omega), ihr hle' (by omega), hcut]
      rfl

theorem buildMerkleTree_over {S leaves} (hlen : ∀ m ∈ leaves, m.length ≠ 64) (hS : ∀ m ∈ messages leaves, m ∈ S) :
    (buildMerkleTree (leaves.map hashSHA256Hex)).Over S := by
  rw [buildMerkleTree_eq]
  cases leaves with
  | nil =>
    rw [map_nil, map_nil, root_nil]
    exact ⟨utf8 "", hS _ (by simp [messages, treeMessages]), by decide, rfl⟩
  | cons m ms =>
    refine root_forall (by simp) (fun t ht => ?_) fun p hp h1 h2 => ⟨rfl, hS _ (mem_append_right _ ?_), h1, h2⟩
    · obtain ⟨_, hx, rfl⟩ := mem_map.mp ht
      obtain ⟨m', hm', rfl⟩ := mem_map.mp hx
      exact ⟨m', hS m' (mem_append_left _ hm'), hlen m' hm', rfl⟩
    · have hpair := mem_map_of_mem (f := fun p => (p.1.hash, p.2.hash)) hp
      rw [← combined_map MerkleNode.hash mergeNodes_hash, map_hash_leaf] at hpair
      exact mem_map.mpr ⟨_, hpair, rfl⟩

theorem mem_leaves_buildMerkleTree {leafHashes x} :
    x ∈ (buildMerkleTree leafHashes).leaves ↔ x ∈ leafHashes ∨ (leafHashes = [] ∧ x = hashStringSHA256Hex "") := by
  rw [buildMerkleTree_eq]
  by_cases hnil : leafHashes = []
  · simp [hnil, leaves]
  · refine (root_iff_exists (P := (x ∈ leaves ·)) (fun _ _ => mem_append) (by simpa using hnil)).trans ?_
    simp [hnil, leaves]

/-! ## What equal roots say -/

/-- **Equal roots, equal messages.** -/
theorem sameMessages_of_root_eq {ms1 ms2} (hlen : ∀ m, m ∈ ms1 ∨ m ∈ ms2 → m ≠ [] ∧ m.length ≠ 64)
    (hinj : Set.InjOn sha256 {m | m ∈ messages ms1 ∨ m ∈ messages ms2})
    (hr : (buildMerkleTree (ms1.map hashSHA256Hex)).hash = (buildMerkleTree (ms2.map hashSHA256Hex)).hash) :
    ∀ m, m ∈ ms1 ↔ m ∈ ms2 := by
  have htree : buildMerkleTree (ms1.map hashSHA256Hex) = buildMerkleTree (ms2.map hashSHA256Hex) :=
    eq_of_hash_eq hinj (buildMerkleTree_over (fun m hm => (hlen m (.inl hm)).2) fun _ => .inl)
      (buildMerkleTree_over (fun m hm => (hlen m (.inr hm)).2) fun _ => .inr) hr
  -- Equal leaves are digests of equal messages, and only the empty tree has that of the empty one.
  have hsub : ∀ {a b : List (List UInt8)}, (∀ m ∈ a, m ≠ [] ∧ (m ∈ messages ms1 ∨ m ∈ messages ms2)) →
      (∀ m ∈ messages b, m ∈ messages ms1 ∨ m ∈ messages ms2) →
      buildMerkleTree (a.map hashSHA256Hex) = buildMerkleTree (b.map hashSHA256Hex) → ∀ m ∈ a, m ∈ b := by
    intro a b ha hb heq m hm
    have hx := mem_leaves_buildMerkleTree.mpr (.inl (mem_map_of_mem (f := hashSHA256Hex) hm))
    rw [heq, mem_leaves_buildMerkleTree] at hx
    rcases hx with hx | ⟨hnil, hx⟩
    · obtain ⟨m', hm', he⟩ := mem_map.mp hx
      rwa [← hashSHA256Hex_injOn hinj (hb m' (mem_append_left _ hm')) (ha m hm).2 he]
    · have hempty : utf8 "" ∈ messages b := by simp [map_eq_nil_iff.mp hnil, messages, treeMessages]
      exact absurd (hashSHA256Hex_injOn hinj (ha m hm).2 (hb _ hempty) hx) (ha m hm).1
  intro m
  constructor
  · exact hsub (fun m hm => ⟨(hlen m (.inl hm)).1, .inl (mem_append_left _ hm)⟩) (fun _ => .inr) htree m
  · exact hsub (fun m hm => ⟨(hlen m (.inr hm)).1, .inr (mem_append_left _ hm)⟩) (fun _ => .inl) htree.symm m

end Gthulhu.Util
