/-
Pre- and postconditions for programs that make calls and may fail.

An assertion `J g` is about the state and a value `g` that only grows on the
way: a time that has passed, or nothing at all (`Unit`), which gives the usual
invariant. `Spec h J g x φ` says that `x`, run where `J g` holds, ends where
`J g'` holds for some later `g'`, and that what it returns satisfies `φ g'`.
There is one rule for each way a program is put together; `Spec.fix` proves a
part in which the value does not grow with the invariant it gives, and
`Makes.spec` a part of which only the calls it makes matter.
-/
import Gthulhu.Lib.Pool
import Mathlib.Order.CompleteBooleanAlgebra
import Mathlib.Order.CompletePartialOrder

namespace Lib

namespace Prog

variable {Op : Type} {Resp : Op → Type} {α β γ ε σ : Type} [Preorder γ]

def Spec (h : (o : Op) → σ → Resp o × σ) (J : γ → σ → Prop) (g : γ) (x : ExceptT ε (Prog Op Resp) α)
    (φ : γ → α → Prop) : Prop :=
  ∀ ⦃s s' : σ⦄ ⦃es : List (Event Resp)⦄ ⦃r : Except ε α⦄, J g s → Run h x.run s es r s' →
    ∃ g', g ≤ g' ∧ J g' s' ∧ ∀ a, r = .ok a → φ g' a

variable {h : (o : Op) → σ → Resp o × σ} {J : γ → σ → Prop} {g : γ} {φ : γ → α → Prop} {ψ : γ → β → Prop}

theorem Spec.pure {a} (ha : φ g a) : Spec h J g (pure a : ExceptT ε (Prog Op Resp) α) φ := by
  intro s s' es r hj hr
  obtain ⟨-, rfl, rfl⟩ := Run.pure_ok_inv hr
  refine ⟨g, le_rfl, hj, fun b hb => ?_⟩
  cases hb
  exact ha

theorem Spec.throw {e} : Spec h J g (throw e : ExceptT ε (Prog Op Resp) α) φ := by
  intro s s' es r hj hr
  obtain ⟨-, rfl, rfl⟩ := Run.throw_inv hr
  exact ⟨g, le_rfl, hj, fun b hb => by cases hb⟩

variable {x : ExceptT ε (Prog Op Resp) α}

theorem Spec.bind {f} (hx : Spec h J g x φ)
    (hf : ∀ g' a, g ≤ g' → φ g' a → Spec h J g' (f a) ψ) : Spec h J g (x >>= f) ψ := by
  intro s s' es r hj hr
  rcases Run.except_bind_inv hr with ⟨e, rfl, h1⟩ | ⟨a, _, _, _, h1, h2, -⟩
  · obtain ⟨g', hle, hj', -⟩ := hx hj h1
    exact ⟨g', hle, hj', fun b hb => by cases hb⟩
  · obtain ⟨g1, hle1, hj1, ha⟩ := hx hj h1
    obtain ⟨g2, hle2, hj2, hb⟩ := hf g1 a hle1 (ha a rfl) hj1 h2
    exact ⟨g2, le_trans hle1 hle2, hj2, hb⟩

theorem Spec.attempt_bind {f} (hx : Spec h J g x φ)
    (hf : ∀ g' r, g ≤ g' → (∀ a, r = .ok a → φ g' a) → Spec h J g' (f r) ψ) : Spec h J g (attempt x >>= f) ψ := by
  intro s s' es r hj hr
  obtain ⟨a, _, _, _, h1, h2, -⟩ := Run.attempt_bind_inv hr
  obtain ⟨g1, hle1, hj1, ha⟩ := hx hj h1
  obtain ⟨g2, hle2, hj2, hb⟩ := hf g1 a hle1 ha hj1 h2
  exact ⟨g2, le_trans hle1 hle2, hj2, hb⟩

theorem Spec.mapError {f} (hx : Spec h J g x φ) : Spec h J g (mapError f x) φ := by
  intro s s' es r hj hr
  rcases Run.mapError_inv hr with ⟨a, rfl, h1⟩ | ⟨e, rfl, h1⟩
  · exact hx hj h1
  · obtain ⟨g', hle, hj', -⟩ := hx hj h1
    exact ⟨g', hle, hj', fun b hb => by cases hb⟩

/-- A loop whose body can be run from then on. -/
theorem Spec.forM {f : α → ExceptT ε (Prog Op Resp) PUnit} {l : List α} :
    ∀ {g : γ}, (∀ a ∈ l, ∀ g', g ≤ g' → Spec h J g' (f a) fun _ _ => True) →
      Spec h J g (forM l f) fun _ _ => True := by
  induction l with
  | nil =>
    intro g _
    exact Spec.pure trivial
  | cons a l ih =>
    intro g hf
    rw [List.forM_cons]
    refine Spec.bind (hf a List.mem_cons_self g le_rfl) fun g1 _ hle _ => ih fun b hb g' hg' => ?_
    exact hf b (List.mem_cons_of_mem a hb) g' (le_trans hle hg')

/-- Where the value does not grow. -/
theorem Spec.fix (hx : Spec h (fun _ : Unit => J g) () x fun _ a => φ g a) : Spec h J g x φ := by
  intro s s' es r hj hr
  obtain ⟨_, _, hj', ha⟩ := hx hj hr
  exact ⟨g, le_rfl, hj', ha⟩

/-- What every call in `P` keeps, a program of such calls keeps. -/
theorem Makes.spec {P K} (hx : Makes (fun _ => True) P K x)
    (hstep : ∀ g s o, P o → J g s → ∃ g', g ≤ g' ∧ J g' (h o s).2) : Spec h J g x fun _ => K := by
  intro s s' es r hj hr
  obtain ⟨⟨g', hle, hj'⟩, hk⟩ := Run.makes (J := fun s => ∃ g', g ≤ g' ∧ J g' s) (fun s o hs ho => by
    obtain ⟨g1, hle1, hj1⟩ := hs
    obtain ⟨g2, hle2, hj2⟩ := hstep g1 s o ho hj1
    exact ⟨trivial, g2, le_trans hle1 hle2, hj2⟩) hr hx ⟨g, le_rfl, hj⟩
  exact ⟨g', hle, hj', hk⟩

end Prog

end Lib
