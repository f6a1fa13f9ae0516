/-
Merkle roots by levels: neighbours are combined in pairs, an odd last node with
itself, until one node is left.

What is combined may be digests, or the trees over them: a map that respects
the combination takes one computation to the other (`root_map`,
`combined_map`). What holds of the leaves and passes from the two nodes of every
pair combined on the way to their combination holds of the root
(`root_forall`).
-/
import Mathlib.Data.List.Basic

namespace Lib.MerkleTree

open List

variable {δ : Type} (combine : δ → δ → δ)

/-! ## Levels -/

/-- Neighbours in pairs, the last one of an odd list with itself. -/
def pairs : List δ → List (δ × δ)
  | [] => []
  | [a] => [(a, a)]
  | a :: b :: rest => (a, b) :: pairs rest

theorem pairs_length : ∀ l : List δ, (pairs l).length = (l.length + 1) / 2
  | [] => by simp [pairs]
  | [_] => by simp [pairs]
  | _ :: _ :: rest => by simp [pairs, pairs_length rest]; omega

/-- Every node is in some pair, and pairs hold nothing else. -/
theorem mem_iff_mem_pairs {x} : ∀ {l : List δ}, x ∈ l ↔ ∃ p ∈ pairs l, x = p.1 ∨ x = p.2
  | [] => by simp [pairs]
  | [a] => by simp [pairs]
  | a :: b :: rest => by
    have ih := mem_iff_mem_pairs (x := x) (l := rest)
    simp only [pairs, mem_cons, ih]
    constructor
    · rintro (rfl | rfl | ⟨p, hp, hx⟩)
      · exact ⟨_, .inl rfl, .inl rfl⟩
      · exact ⟨_, .inl rfl, .inr rfl⟩
      · exact ⟨p, .inr hp, hx⟩
    · rintro ⟨p, rfl | hp, hx⟩
      · rcases hx with rfl | rfl
        · exact .inl rfl
        · exact .inr (.inl rfl)
      · exact .inr (.inr ⟨p, hp, hx⟩)

/-- The level above `l`. -/
def level (l : List δ) : List δ := (pairs l).map fun p => combine p.1 p.2

theorem level_length (l : List δ) : (level combine l).length = (l.length + 1) / 2 := by
  simp [level, pairs_length]

theorem level_length_lt {l} (h : 2 ≤ l.length) : (level combine l).length < l.length := by
  rw [level_length]; omega

theorem level_ne_nil {l} (h : l ≠ []) : level combine l ≠ [] := by
  have := length_pos_iff.mpr h
  rw [← length_pos_iff, level_length]; omega

theorem mem_level {x l} : x ∈ level combine l ↔ ∃ p ∈ pairs l, combine p.1 p.2 = x := by
  simp [level]

/-- The root: `empty` for no leaves, else the node the levels end in. -/
def root (empty : δ) : List δ → δ
  | [] => empty
  | [a] => a
  | a :: b :: rest => root empty (level combine (a :: b :: rest))
termination_by l => l.length
decreasing_by exact level_length_lt combine (by simp)

/-- The pairs combined on the way to the root. -/
def combined (l : List δ) : List (δ × δ) :=
  if 2 ≤ l.length then pairs l ++ combined (level combine l) else []
termination_by l.length
decreasing_by exact level_length_lt combine (by assumption)

variable {combine} {empty : δ}

@[simp] theorem root_nil : root combine empty [] = empty := by rw [root]

@[simp] theorem root_singleton {a} : root combine empty [a] = a := by rw [root]

theorem root_level {l} (h : 2 ≤ l.length) :
    root combine empty l = root combine empty (level combine l) := by
  match l, h with
  | a :: b :: rest, _ => rw [root]

theorem combined_of_two_le {l} (h : 2 ≤ l.length) :
    combined combine l = pairs l ++ combined combine (level combine l) := by
  rw [combined, if_pos h]

/-! ## From the leaves to the root -/

/-- What holds of the leaves, and of a combination made on the way if it holds of
the two nodes combined, holds of the root. -/
theorem root_forall {P : δ → Prop} {l} (hne : l ≠ []) (hl : ∀ x ∈ l, P x)
    (hc : ∀ p ∈ combined combine l, P p.1 → P p.2 → P (combine p.1 p.2)) : P (root combine empty l) := by
  induction l using root.induct combine with
  | case1 => exact absurd rfl hne
  | case2 a => simpa using hl
  | case3 a b rest ih =>
    rw [combined_of_two_le (by simp)] at hc
    rw [root_level (by simp)]
    refine ih (level_ne_nil _ (by simp)) (fun x hx => ?_) fun p hp => hc p (mem_append_right _ hp)
    obtain ⟨p, hp, rfl⟩ := (mem_level _).mp hx
    exact hc p (mem_append_left _ hp) (hl _ (mem_iff_mem_pairs.mpr ⟨p, hp, .inl rfl⟩))
      (hl _ (mem_iff_mem_pairs.mpr ⟨p, hp, .inr rfl⟩))

/-- What a combination has from one of its two nodes, the root has from a leaf. -/
theorem root_iff_exists {P : δ → Prop} (hc : ∀ a b, P (combine a b) ↔ P a ∨ P b) {l} (hne : l ≠ []) :
    P (root combine empty l) ↔ ∃ a ∈ l, P a := by
  induction l using root.induct combine with
  | case1 => exact absurd rfl hne
  | case2 a => simp
  | case3 a b rest ih =>
    rw [root_level (by simp), ih (level_ne_nil _ (by simp))]
    constructor
    · rintro ⟨_, hx, hP⟩
      obtain ⟨p, hp, rfl⟩ := (mem_level _).mp hx
      rcases (hc _ _).mp hP with hP | hP
      · exact ⟨p.1, mem_iff_mem_pairs.mpr ⟨p, hp, .inl rfl⟩, hP⟩
      · exact ⟨p.2, mem_iff_mem_pairs.mpr ⟨p, hp, .inr rfl⟩, hP⟩
    · rintro ⟨x, hx, hP⟩
      obtain ⟨p, hp, rfl | rfl⟩ := mem_iff_mem_pairs.mp hx
      · exact ⟨_, (mem_level _).mpr ⟨p, hp, rfl⟩, (hc _ _).mpr (.inl hP)⟩
      · exact ⟨_, (mem_level _).mpr ⟨p, hp, rfl⟩, (hc _ _).mpr (.inr hP)⟩

/-! ## Maps -/

section

variable {δ' : Type} {combine' : δ' → δ' → δ'} (f : δ → δ')

theorem pairs_map : ∀ l : List δ, pairs (l.map f) = (pairs l).map fun p => (f p.1, f p.2)
  | [] => rfl
  | [_] => rfl
  | _ :: _ :: rest => by simp [pairs, pairs_map rest]

variable (hf : ∀ a b, f (combine a b) = combine' (f a) (f b))
include hf

theorem level_map (l : List δ) : level combine' (l.map f) = (level combine l).map f := by
  simp [level, pairs_map, hf]

theorem root_map (l : List δ) : root combine' (f empty) (l.map f) = f (root combine empty l) := by
  induction l using root.induct combine with
  | case1 => simp
  | case2 a => simp
  | case3 a b rest ih =>
    rw [root_level (by simp), root_level (l := a :: b :: rest) (by simp), ← ih, level_map f hf]

theorem combined_map (l : List δ) : combined combine' (l.map f) = (combined combine l).map fun p => (f p.1, f p.2) := by
  induction l using combined.induct combine with
  | case1 l h ih =>
    rw [combined_of_two_le h, combined_of_two_le (by simpa using h), pairs_map, level_map f hf, ih, map_append]
  | case2 l h =>
    rw [combined, if_neg (by simpa using h), combined, if_neg h]
    rfl

end

end Lib.MerkleTree
