/-
Programs at two levels. `implement` replaces every call of a program by a
program over other calls; `Refines` says that from related states two programs
return the same and leave related states, whatever happens in between.

The rules follow the shape of the programs (`Refines.bind`, `Refines.attempt`,
`refines_forM`, ..); `refines_implement` is the rule for a program and its
implementation, from the single calls it makes.
-/
import Gthulhu.Lib.Pool

namespace Lib

namespace Prog

variable {Op₁ Op₂ : Type} {Resp₁ : Op₁ → Type} {Resp₂ : Op₂ → Type} {α β γ ε σ τ : Type}

def implement (impl : (o : Op₂) → Prog Op₁ Resp₁ (Resp₂ o)) : Prog Op₂ Resp₂ α → Prog Op₁ Resp₁ α
  | .ret a => .ret a
  | .call o k => impl o >>= fun r => implement impl (k r)

/-- From related states, `p` and `q` return what is related by `V`. -/
def Relates (h₁ : (o : Op₁) → σ → Resp₁ o × σ) (h₂ : (o : Op₂) → τ → Resp₂ o × τ) (R : σ → τ → Prop) (V : α → β → Prop)
    (p : Prog Op₁ Resp₁ α) (q : Prog Op₂ Resp₂ β) : Prop :=
  ∀ s t, R s t → V (result h₁ p s).1 (result h₂ q t).1 ∧ R (result h₁ p s).2 (result h₂ q t).2

def Refines (h₁ : (o : Op₁) → σ → Resp₁ o × σ) (h₂ : (o : Op₂) → τ → Resp₂ o × τ) (R : σ → τ → Prop)
    (p : Prog Op₁ Resp₁ α) (q : Prog Op₂ Resp₂ α) : Prop := Relates h₁ h₂ R Eq p q

variable {h₁ : (o : Op₁) → σ → Resp₁ o × σ} {h₂ : (o : Op₂) → τ → Resp₂ o × τ} {R : σ → τ → Prop}

theorem refines_ret (a : α) : Refines h₁ h₂ R (.ret a) (.ret a) := fun _ _ hr => ⟨rfl, hr⟩

theorem Relates.bind {V : α → β → Prop} {p : Prog Op₁ Resp₁ α} {q : Prog Op₂ Resp₂ β} {f : α → Prog Op₁ Resp₁ γ}
    {g : β → Prog Op₂ Resp₂ γ} (hp : Relates h₁ h₂ R V p q) (hf : ∀ a b, V a b → Refines h₁ h₂ R (f a) (g b)) :
    Refines h₁ h₂ R (p >>= f) (q >>= g) := by
  intro s t hr
  obtain ⟨hv, hr'⟩ := hp s t hr
  rw [result_bind, result_bind]
  exact hf _ _ hv _ _ hr'

theorem Refines.bind {p : Prog Op₁ Resp₁ α} {q : Prog Op₂ Resp₂ α} {f : α → Prog Op₁ Resp₁ β} {g : α → Prog Op₂ Resp₂ β}
    (hp : Refines h₁ h₂ R p q) (hf : ∀ a, Refines h₁ h₂ R (f a) (g a)) : Refines h₁ h₂ R (p >>= f) (q >>= g) :=
  Relates.bind hp fun a _ hv => hv ▸ hf a

/-- The calls of `p` are all in `P`. -/
def CallsIn (P : Op₂ → Prop) : Prog Op₂ Resp₂ α → Prop
  | .ret _ => True
  | .call o k => P o ∧ ∀ r, CallsIn P (k r)

/-- **The rule for implementations.** -/
theorem refines_implement {impl P} (himpl : ∀ o, P o → Refines h₁ h₂ R (impl o) (perform o)) :
    ∀ {p : Prog Op₂ Resp₂ α}, CallsIn P p → Refines h₁ h₂ R (implement impl p) p
  | .ret a, _ => refines_ret a
  | .call o _, hp => (himpl o hp.1).bind fun r => refines_implement himpl (hp.2 r)

theorem Makes.callsIn {P : Op₂ → Prop} {x : ExceptT ε (Prog Op₂ Resp₂) α}
    (hx : Makes (fun _ => True) P (fun _ => True) x) : CallsIn P x.run := by
  have halong : ∀ p : Prog Op₂ Resp₂ (Except ε α),
      Along (fun _ => True) (fun _ _ => ()) (fun _ => P) (Ends (fun _ _ => True) fun _ _ => True) () p → CallsIn P p := by
    intro p
    induction p with
    | ret a => exact fun _ => trivial
    | call o k ih => exact fun hp => ⟨hp.1, fun r => ih r (hp.2 r trivial)⟩
  exact halong _ hx

/-! ## Programs that return errors -/

variable {x : ExceptT ε (Prog Op₁ Resp₁) α} {y : ExceptT ε (Prog Op₂ Resp₂) α}

theorem Refines.except_bind {f : α → ExceptT ε (Prog Op₁ Resp₁) β} {g : α → ExceptT ε (Prog Op₂ Resp₂) β}
    (hx : Refines h₁ h₂ R x.run y.run) (hf : ∀ a, Refines h₁ h₂ R (f a).run (g a).run) :
    Refines h₁ h₂ R (x >>= f).run (y >>= g).run := by
  refine hx.bind fun r => ?_
  cases r with
  | ok a => exact hf a
  | error e => exact refines_ret _

theorem Refines.attempt (hx : Refines h₁ h₂ R x.run y.run) : Refines h₁ h₂ R (attempt x).run (attempt y).run :=
  hx.bind fun _ => refines_ret _

theorem Refines.mapError (f : ε → ε) (hx : Refines h₁ h₂ R x.run y.run) :
    Refines h₁ h₂ R (mapError f x).run (mapError f y).run := by
  refine hx.bind fun r => ?_
  cases r <;> exact refines_ret _

theorem refines_forM_map {f : γ → ExceptT ε (Prog Op₁ Resp₁) PUnit} {g : α → ExceptT ε (Prog Op₂ Resp₂) PUnit} {u : α → γ}
    (hf : ∀ a, Refines h₁ h₂ R (f (u a)).run (g a).run) (l : List α) :
    Refines h₁ h₂ R (forM (l.map u) f).run (forM l g).run := by
  induction l with
  | nil => exact refines_ret _
  | cons a l ih =>
    rw [List.map_cons, List.forM_cons, List.forM_cons]
    exact (hf a).except_bind fun _ => ih

theorem refines_forM {f : α → ExceptT ε (Prog Op₁ Resp₁) PUnit} {g : α → ExceptT ε (Prog Op₂ Resp₂) PUnit}
    (hf : ∀ a, Refines h₁ h₂ R (f a).run (g a).run) (l : List α) : Refines h₁ h₂ R (forM l f).run (forM l g).run := by
  have h := refines_forM_map (u := id) hf l
  rwa [List.map_id] at h

end Prog

end Lib
