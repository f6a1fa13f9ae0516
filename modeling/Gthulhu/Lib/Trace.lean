/-
Traces: lists of what has happened, in order. `lastOf f` is the last value
that `f` gives for an event; `Always Q` says of every event that it meets `Q`
with the events before it, and `Followed p q` that every event in `p` has one
in `q` after it.
-/
import Mathlib.Data.List.Basic

namespace Lib

variable {ε β : Type} {f : ε → Option β} {t t₁ t₂ : List ε} {e : ε}

/-- What is kept by appending each event is the trace. -/
theorem foldl_snoc (t t' : List ε) : t'.foldl (fun g e => g ++ [e]) t = t ++ t' := by
  induction t' generalizing t with
  | nil => simp
  | cons e t' ih => simp [ih]

def lastOf (f : ε → Option β) (t : List ε) : Option β := (t.filterMap f).getLast?

@[simp] theorem lastOf_nil : lastOf f [] = none := rfl

theorem lastOf_append : lastOf f (t₁ ++ t₂) = (lastOf f t₂).or (lastOf f t₁) := by
  simp [lastOf, List.getLast?_append]

theorem lastOf_singleton : lastOf f [e] = f e := by
  cases h : f e <;> simp [lastOf, h]

theorem lastOf_cons : lastOf f (e :: t) = (lastOf f t).or (f e) := by
  rw [← List.singleton_append, lastOf_append, lastOf_singleton]

theorem lastOf_snoc : lastOf f (t ++ [e]) = (f e).or (lastOf f t) := by
  rw [lastOf_append, lastOf_singleton]

theorem exists_of_lastOf {v} (h : lastOf f t = some v) : ∃ e ∈ t, f e = some v :=
  List.mem_filterMap.mp (List.mem_of_getLast? h)

theorem lastOf_eq_none : lastOf f t = none ↔ ∀ e ∈ t, f e = none := by
  simp [lastOf]

/-- The event itself, and what comes after. -/
theorem lastOf_split {v} (h : lastOf f t = some v) :
    ∃ t₁ e t₂, t = t₁ ++ e :: t₂ ∧ f e = some v ∧ ∀ e' ∈ t₂, f e' = none := by
  induction t with
  | nil => cases h
  | cons e t ih =>
    rw [lastOf_cons] at h
    cases hrest : lastOf f t with
    | some v' =>
      rw [hrest, Option.some_or] at h
      obtain ⟨t₁, e', t₂, rfl, he', hnone⟩ := ih (hrest.trans h)
      exact ⟨e :: t₁, e', t₂, rfl, he', hnone⟩
    | none =>
      rw [hrest, Option.none_or] at h
      exact ⟨[], e, t, rfl, h, lastOf_eq_none.mp hrest⟩

def Followed (p q : ε → Prop) (t : List ε) : Prop := ∀ t₁ e t₂, t = t₁ ++ e :: t₂ → p e → ∃ e' ∈ t₂, q e'

/-- **The last value is as wanted** if every one that is not is followed by one that is. -/
theorem lastOf_iff {P : β → Prop} (hsome : ∃ e ∈ t, ∃ v, f e = some v ∧ P v) :
    (∃ v, lastOf f t = some v ∧ P v) ↔
      Followed (fun e => ∃ v, f e = some v ∧ ¬P v) (fun e => ∃ v, f e = some v ∧ P v) t := by
  constructor
  · intro ⟨v, hlast, hv⟩ t₁ e t₂ ht ⟨u, he, hu⟩
    rw [ht, lastOf_append, lastOf_cons, he] at hlast
    cases hafter : lastOf f t₂ with
    | none =>
      rw [hafter] at hlast
      cases hlast
      exact absurd hv hu
    | some v' =>
      rw [hafter] at hlast
      cases hlast
      obtain ⟨e', hmem, he'⟩ := exists_of_lastOf hafter
      exact ⟨e', hmem, v, he', hv⟩
  · intro h
    cases hlast : lastOf f t with
    | none =>
      obtain ⟨e, hmem, v, he, -⟩ := hsome
      rw [lastOf_eq_none.mp hlast e hmem] at he
      cases he
    | some v =>
      refine ⟨v, rfl, Classical.byContradiction fun hv => ?_⟩
      obtain ⟨t₁, e, t₂, ht, he, hnone⟩ := lastOf_split hlast
      obtain ⟨e', hmem, v', he', -⟩ := h t₁ e t₂ ht ⟨v, he, hv⟩
      rw [hnone e' hmem] at he'
      cases he'

theorem lastOf_of_all {P : β → Prop} (hsome : ∃ e ∈ t, ∃ v, f e = some v) (hall : ∀ e ∈ t, ∀ v, f e = some v → P v) :
    ∃ v, lastOf f t = some v ∧ P v := by
  obtain ⟨e, he, v, hv⟩ := hsome
  refine (lastOf_iff ⟨e, he, v, hv, hall e he v hv⟩).mpr fun t₁ e' t₂ ht ⟨u, he', hu⟩ => ?_
  exact absurd (hall e' (by simp [ht]) u he') hu

/-- Two parties of which one gives only wanted values and the other none: the last value is wanted
if the one always follows the other. -/
theorem lastOf_iff_followed {P : β → Prop} {mine theirs : ε → Prop} (hcases : ∀ e ∈ t, mine e ∨ theirs e)
    (hmine : ∀ e ∈ t, mine e → ∀ v, f e = some v → P v) (htheirs : ∀ e ∈ t, theirs e → ∀ v, f e = some v → ¬P v)
    (hsome : ∃ e ∈ t, mine e ∧ ∃ v, f e = some v) :
    (∃ v, lastOf f t = some v ∧ P v) ↔
      Followed (fun e => theirs e ∧ (f e).isSome = true) (fun e => mine e ∧ (f e).isSome = true) t := by
  obtain ⟨e, he, hm, v, hv⟩ := hsome
  rw [lastOf_iff ⟨e, he, v, hv, hmine e he hm v hv⟩]
  constructor
  · intro h t₁ e1 t₂ ht ⟨htheir, hsome⟩
    obtain ⟨u, hu⟩ := Option.isSome_iff_exists.mp hsome
    obtain ⟨e2, he2, v2, hv2, hp2⟩ := h t₁ e1 t₂ ht ⟨u, hu, htheirs e1 (by simp [ht]) htheir u hu⟩
    have hmem : e2 ∈ t := by simp [ht, he2]
    refine ⟨e2, he2, (hcases e2 hmem).resolve_right fun htheir2 => ?_, by simp [hv2]⟩
    exact htheirs e2 hmem htheir2 v2 hv2 hp2
  · intro h t₁ e1 t₂ ht ⟨u, hu, hp⟩
    have hmem : e1 ∈ t := by simp [ht]
    have htheir := (hcases e1 hmem).resolve_left fun hm1 => hp (hmine e1 hmem hm1 u hu)
    obtain ⟨e2, he2, hm2, hsome2⟩ := h t₁ e1 t₂ ht ⟨htheir, by simp [hu]⟩
    obtain ⟨v2, hv2⟩ := Option.isSome_iff_exists.mp hsome2
    exact ⟨e2, he2, v2, hv2, hmine e2 (by simp [ht, he2]) hm2 v2 hv2⟩

def Always (Q : List ε → ε → Prop) (t : List ε) : Prop := ∀ t₁ e t₂, t = t₁ ++ e :: t₂ → Q t₁ e

theorem always_iff {Q} : Always Q t ↔ ∀ i : Fin t.length, Q (t.take i) (t.get i) := by
  constructor
  · intro h i
    refine h (t.take i) (t.get i) (t.drop (i + 1)) ?_
    rw [List.get_eq_getElem, ← List.drop_eq_getElem_cons i.isLt, List.take_append_drop]
  · intro h t₁ e t₂ ht
    subst ht
    have hi := h ⟨t₁.length, by simp⟩
    simpa using hi

instance {Q : List ε → ε → Prop} [∀ t e, Decidable (Q t e)] : Decidable (Always Q t) := decidable_of_iff _ always_iff.symm

theorem always_nil {Q : List ε → ε → Prop} : Always Q [] := by
  intro t₁ e t₂ h
  simp at h

theorem Always.snoc {Q} (h : Always Q t) (he : Q t e) : Always Q (t ++ [e]) := by
  intro t₁ e' t₂ heq
  rcases List.eq_nil_or_concat t₂ with rfl | ⟨t3, e3, rfl⟩
  · obtain ⟨rfl, hone⟩ := List.append_inj' heq rfl
    cases hone
    exact he
  · rw [List.concat_eq_append, ← List.cons_append, ← List.append_assoc] at heq
    obtain ⟨ht, -⟩ := List.append_inj' heq rfl
    exact h t₁ e' t3 ht

end Lib
