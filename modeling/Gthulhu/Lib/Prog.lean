/-
Programs that make calls. A `Prog` is the tree of calls a piece of code makes:
it returns, or it makes one call and goes on by the answer. What the calls do
is given apart, by a handler on a state; `Run` is a program run by a handler,
with the calls it made and their answers in order.

Code that returns an error is `ExceptT ε (Prog ..)`, as usual; `attempt` is
the caller that looks at the error and goes on. The rules a proof uses are the
inversions (`Run.ok_bind_inv`, `Run.except_bind_inv`, `Run.attempt_bind_inv`,
`Run.call_inv`) and the loop rules `Run.forM_calls` and `Run.forM_total`.
Programs are trees of finite
depth and handlers are functions, so there is always exactly one run
(`run_exec`, `Run.eq_exec`): a statement about every run is never empty.
-/
import Mathlib.Logic.Basic

namespace Lib

/-- A program over the calls `Op`, where call `o` is answered in `Resp o`. -/
inductive Prog (Op : Type) (Resp : Op → Type) (α : Type) : Type where
  | ret (a : α)
  | call (o : Op) (k : Resp o → Prog Op Resp α)

namespace Prog

variable {Op : Type} {Resp : Op → Type} {α β ε σ : Type}

def bind : Prog Op Resp α → (α → Prog Op Resp β) → Prog Op Resp β
  | .ret a, f => f a
  | .call o k, f => .call o fun r => (k r).bind f

instance : Monad (Prog Op Resp) where
  pure := .ret
  bind := .bind

/-- One call. -/
def perform (o : Op) : Prog Op Resp (Resp o) := .call o .ret

/-- A program whose calls are some of those of another interface. -/
def embed {Op' : Type} {Resp' : Op' → Type} (f : Op → Op') :
    Prog Op (fun o => Resp' (f o)) α → Prog Op' Resp' α
  | .ret a => .ret a
  | .call o k => .call (f o) fun r => embed f (k r)

/-- A call made and answered. -/
abbrev Event (Resp : Op → Type) : Type := (o : Op) × Resp o

/-- The run of a program: the calls it made, its result and the state it left. -/
inductive Run (h : (o : Op) → σ → Resp o × σ) :
    Prog Op Resp α → σ → List (Event Resp) → α → σ → Prop
  | ret {a : α} {s : σ} : Run h (.ret a) s [] a s
  | call {o : Op} {k : Resp o → Prog Op Resp α} {s s' : σ} {es : List (Event Resp)} {a : α} :
    Run h (k (h o s).1) (h o s).2 es a s' → Run h (.call o k) s (⟨o, (h o s).1⟩ :: es) a s'

/-- The run, computed. -/
def exec (h : (o : Op) → σ → Resp o × σ) : Prog Op Resp α → σ → List (Event Resp) × α × σ
  | .ret a, s => ([], a, s)
  | .call o k, s =>
    let r := h o s
    let rest := exec h (k r.1) r.2
    (⟨o, r.1⟩ :: rest.1, rest.2)

variable {h : (o : Op) → σ → Resp o × σ} {s s' : σ} {es : List (Event Resp)}

theorem run_exec : ∀ (p : Prog Op Resp α) (s : σ), Run h p s (exec h p s).1 (exec h p s).2.1 (exec h p s).2.2
  | .ret _, _ => .ret
  | .call _ _, _ => .call (run_exec _ _)

variable {p : Prog Op Resp α}

theorem Run.eq_exec {a} (hr : Run h p s es a s') : exec h p s = (es, a, s') := by
  induction hr with
  | ret => rfl
  | call _ ih => simp only [exec, ih]

/-- A successful run, evaluated. -/
theorem Run.exists_ok {ε : Type} {p : Prog Op Resp (Except ε α)} {P : List (Event Resp) → α → σ → Prop}
    [∀ es a s', Decidable (P es a s')]
    (hp : (exec h p s).2.1.toOption.any (fun a => P (exec h p s).1 a (exec h p s).2.2) = true) :
    ∃ es a s', Run h p s es (.ok a) s' ∧ P es a s' := by
  cases hr : (exec h p s).2.1 with
  | error e =>
    rw [hr] at hp
    cases hp
  | ok a =>
    rw [hr] at hp
    exact ⟨_, a, _, hr ▸ run_exec p s, of_decide_eq_true hp⟩

/-- What follows from a run that has been evaluated. -/
theorem Run.exists_ok_of {ε : Type} {p : Prog Op Resp (Except ε α)} {Q : List (Event Resp) → α → σ → Prop}
    (P : List (Event Resp) → α → σ → Prop) [∀ es a s', Decidable (P es a s')]
    (hp : (exec h p s).2.1.toOption.any (fun a => P (exec h p s).1 a (exec h p s).2.2) = true)
    (hq : ∀ es a s', Run h p s es (.ok a) s' → P es a s' → Q es a s') :
    ∃ es a s', Run h p s es (.ok a) s' ∧ Q es a s' := by
  obtain ⟨es, a, s', hrun, hP⟩ : ∃ es a s', Run h p s es (.ok a) s' ∧ P es a s' := exists_ok hp
  exact ⟨es, a, s', hrun, hq es a s' hrun hP⟩

theorem Run.exists_unit_of {ε : Type} {p : Prog Op Resp (Except ε Unit)} {Q : List (Event Resp) → σ → Prop}
    (P : List (Event Resp) → σ → Prop) [∀ es s', Decidable (P es s')]
    (hp : (exec h p s).2.1.toOption.any (fun _ => P (exec h p s).1 (exec h p s).2.2) = true)
    (hq : ∀ es s', Run h p s es (.ok ()) s' → P es s' → Q es s') : ∃ es s', Run h p s es (.ok ()) s' ∧ Q es s' := by
  obtain ⟨es, ⟨⟩, s', hrun⟩ := exists_ok_of (fun es _ s' => P es s') hp fun es _ s' => hq es s'
  exact ⟨es, s', hrun⟩

/-- A run that fails, evaluated. -/
theorem Run.exists_error {ε : Type} {p : Prog Op Resp (Except ε α)} {P : List (Event Resp) → ε → σ → Prop}
    [∀ es e s', Decidable (P es e s')]
    (hp : (match (exec h p s).2.1 with
      | .ok _ => false
      | .error e => decide (P (exec h p s).1 e (exec h p s).2.2)) = true) :
    ∃ es e s', Run h p s es (.error e) s' ∧ P es e s' := by
  cases hr : (exec h p s).2.1 with
  | ok a =>
    rw [hr] at hp
    cases hp
  | error e =>
    rw [hr] at hp
    exact ⟨_, e, _, hr ▸ run_exec p s, of_decide_eq_true hp⟩

theorem Run.ret_inv {a b} (hr : Run h (.ret a : Prog Op Resp α) s es b s') : es = [] ∧ b = a ∧ s' = s := by
  cases hr
  exact ⟨rfl, rfl, rfl⟩

theorem Run.call_inv {o r} (hr : Run h (perform o) s es r s') :
    es = [⟨o, r⟩] ∧ h o s = (r, s') := by
  cases hr with
  | call hr =>
    obtain ⟨rfl, rfl, rfl⟩ := hr.ret_inv
    exact ⟨rfl, rfl⟩

theorem Run.bind_inv {f : α → Prog Op Resp β} {b : β} (hr : Run h (p >>= f) s es b s') :
    ∃ a s1 es1 es2, Run h p s es1 a s1 ∧ Run h (f a) s1 es2 b s' ∧ es = es1 ++ es2 := by
  induction p generalizing s es with
  | ret a => exact ⟨a, s, [], es, .ret, hr, rfl⟩
  | call o k ih =>
    cases hr with
    | call hr =>
      obtain ⟨a, s1, es1, es2, h1, h2, rfl⟩ := ih _ hr
      exact ⟨a, s1, _ :: es1, es2, .call h1, h2, rfl⟩

/-- The run of an embedded program, with the calls it makes itself. -/
theorem Run.embed_inv {Op' : Type} {Resp' : Op' → Type} {f : Op → Op'} {h' : (o : Op') → σ → Resp' o × σ}
    {p : Prog Op (fun o => Resp' (f o)) α} {es : List (Event Resp')} {a : α} (hr : Run h' (embed f p) s es a s') :
    ∃ es', Run (fun o => h' (f o)) p s es' a s' := by
  induction p generalizing s es with
  | ret b =>
    obtain ⟨-, rfl, rfl⟩ := hr.ret_inv
    exact ⟨[], .ret⟩
  | call o k ih =>
    cases hr with
    | call hr =>
      obtain ⟨es', hrun⟩ := ih _ hr
      exact ⟨_, .call hrun⟩

/-- A run seen through a map of the states that the handlers agree on. -/
theorem Run.map_state {τ : Type} {h'} (f : σ → τ) (hf : ∀ o s, h' o (f s) = ((h o s).1, f (h o s).2)) {a}
    (hr : Run h p s es a s') :
    Run h' p (f s) es a (f s') := by
  induction hr with
  | ret => exact .ret
  | @call o k s s' es a _ ih =>
    have hstep : (⟨o, (h o s).1⟩ : Event Resp) = ⟨o, (h' o (f s)).1⟩ := by rw [hf]
    rw [hstep]
    refine .call ?_
    rw [hf]
    exact ih

/-! ## Programs that return errors -/

/-- Run `x` and look at its error instead of returning it. -/
def attempt (x : ExceptT ε (Prog Op Resp) α) : ExceptT ε (Prog Op Resp) (Except ε α) :=
  ExceptT.lift x.run

/-- `x` with its error passed through `f`. -/
def mapError (f : ε → ε) (x : ExceptT ε (Prog Op Resp) α) : ExceptT ε (Prog Op Resp) α :=
  tryCatch x fun e => throw (f e)

/-! ## Evaluation -/

/-- What a program returns, and the state it leaves. -/
def result (h : (o : Op) → σ → Resp o × σ) (p : Prog Op Resp α) (s : σ) : α × σ := (exec h p s).2

theorem result_bind {f : α → Prog Op Resp β} :
    result h (p >>= f) s = result h (f (result h p s).1) (result h p s).2 := by
  induction p generalizing s with
  | ret a => rfl
  | call o k ih => exact ih _

theorem result_perform {o} : result h (perform o) s = h o s := rfl

variable {f : α → ExceptT ε (Prog Op Resp) β} {x : ExceptT ε (Prog Op Resp) α}

theorem result_ok_bind {a : α} (hx : result h x.run s = (.ok a, s')) :
    result h (x >>= f).run s = result h (f a).run s' := by
  have hbind : result h (x >>= f).run s = result h (x.run >>= ExceptT.bindCont f) s := rfl
  rw [hbind, result_bind, hx]
  rfl

theorem result_error_bind {e : ε} (hx : result h x.run s = (.error e, s')) :
    result h (x >>= f).run s = (.error e, s') := by
  have hbind : result h (x >>= f).run s = result h (x.run >>= ExceptT.bindCont f) s := rfl
  rw [hbind, result_bind, hx]
  rfl

variable {r : Except ε α}

theorem result_attempt_bind {f : Except ε α → ExceptT ε (Prog Op Resp) β} (hx : result h x.run s = (r, s')) :
    result h (attempt x >>= f).run s = result h (f r).run s' := by
  refine result_ok_bind (result_bind.trans ?_)
  rw [hx]
  rfl

theorem result_mapError {f a} (hx : result h x.run s = (.ok a, s')) :
    result h (mapError f x).run s = (.ok a, s') := by
  have hx : result h x s = (.ok a, s') := hx
  refine result_bind.trans ?_
  rw [hx]
  rfl

theorem Run.pure_ok_inv {a} (hr : Run h (pure a : ExceptT ε (Prog Op Resp) α).run s es r s') :
    es = [] ∧ r = .ok a ∧ s' = s :=
  Run.ret_inv hr

theorem Run.throw_inv {e} (hr : Run h (throw e : ExceptT ε (Prog Op Resp) α).run s es r s') :
    es = [] ∧ r = .error e ∧ s' = s :=
  Run.ret_inv hr

theorem Run.throw_ok {e a} (hr : Run h (throw e : ExceptT ε (Prog Op Resp) α).run s es (.ok a) s') :
    False := by
  cases (Run.throw_inv hr).2.1

theorem Run.lift_inv (hr : Run h (ExceptT.lift p : ExceptT ε (Prog Op Resp) α).run s es r s') :
    ∃ a, r = .ok a ∧ Run h p s es a s' := by
  obtain ⟨a, _, _, _, h1, h2, rfl⟩ := Run.bind_inv hr
  obtain ⟨rfl, rfl, rfl⟩ := Run.ret_inv h2
  exact ⟨a, rfl, by simpa using h1⟩

theorem Run.attempt_inv {r} (hr : Run h (attempt x).run s es r s') :
    ∃ a, r = .ok a ∧ Run h x.run s es a s' :=
  Run.lift_inv hr

/-- The two ways a sequence ends: its first part fails, or it goes on. -/
theorem Run.except_bind_inv {r} (hr : Run h (x >>= f).run s es r s') :
    (∃ e, r = .error e ∧ Run h x.run s es (.error e) s') ∨
      ∃ a s1 es1 es2, Run h x.run s es1 (.ok a) s1 ∧ Run h (f a).run s1 es2 r s' ∧ es = es1 ++ es2 := by
  obtain ⟨a, s1, es1, es2, h1, h2, rfl⟩ := Run.bind_inv hr
  cases a with
  | error e =>
    obtain ⟨rfl, rfl, rfl⟩ := Run.ret_inv h2
    exact .inl ⟨e, rfl, (List.append_nil es1).symm ▸ h1⟩
  | ok a => exact .inr ⟨a, s1, es1, es2, h1, h2, rfl⟩

theorem Run.ok_bind_inv {b} (hr : Run h (x >>= f).run s es (.ok b) s') :
    ∃ a s1 es1 es2, Run h x.run s es1 (.ok a) s1 ∧ Run h (f a).run s1 es2 (.ok b) s' ∧ es = es1 ++ es2 := by
  rcases Run.except_bind_inv hr with ⟨e, he, _⟩ | hr
  · cases he
  · exact hr

/-- After an attempt the program always goes on. -/
theorem Run.attempt_bind_inv {f : Except ε α → ExceptT ε (Prog Op Resp) β} {r : Except ε β}
    (hr : Run h (attempt x >>= f).run s es r s') :
    ∃ a s1 es1 es2, Run h x.run s es1 a s1 ∧ Run h (f a).run s1 es2 r s' ∧ es = es1 ++ es2 := by
  rcases Run.except_bind_inv hr with ⟨e, _, h1⟩ | ⟨a, s1, es1, es2, h1, h2, hes⟩
  · obtain ⟨_, he, _⟩ := Run.attempt_inv h1
    cases he
  · obtain ⟨_, ⟨⟩, hx⟩ := Run.attempt_inv h1
    exact ⟨a, s1, es1, es2, hx, h2, hes⟩

theorem Run.mapError_inv {f} (hr : Run h (mapError f x).run s es r s') :
    (∃ a, r = .ok a ∧ Run h x.run s es (.ok a) s') ∨ ∃ e, r = .error (f e) ∧ Run h x.run s es (.error e) s' := by
  obtain ⟨a, _, es1, _, h1, h2, rfl⟩ := Run.bind_inv hr
  cases a with
  | ok a =>
    obtain ⟨rfl, rfl, rfl⟩ := Run.ret_inv h2
    exact .inl ⟨a, rfl, (List.append_nil es1).symm ▸ h1⟩
  | error e =>
    obtain ⟨rfl, rfl, rfl⟩ := Run.ret_inv h2
    exact .inr ⟨e, rfl, (List.append_nil es1).symm ▸ h1⟩

theorem Run.mapError_ok {f a} (hr : Run h (mapError f x).run s es (.ok a) s') :
    Run h x.run s es (.ok a) s' := by
  rcases Run.mapError_inv hr with ⟨b, hb, h'⟩ | ⟨e, he, _⟩
  · cases hb; exact h'
  · cases he

/-- What every call of a loop meets, from what the calls of one item meet. -/
theorem Run.forM_calls {f : α → ExceptT ε (Prog Op Resp) PUnit} (I : σ → Prop) (P : Event Resp → Prop) {l : List α}
    (step : ∀ x ∈ l, ∀ s es r s1, I s → Run h (f x).run s es r s1 → (∀ e ∈ es, P e) ∧ I s1) :
    ∀ {s es r s'}, Run h (forM l f).run s es r s' → I s → (∀ e ∈ es, P e) ∧ I s' := by
  induction l with
  | nil =>
    intro s es r s' hr hi
    obtain ⟨rfl, _, rfl⟩ := Run.pure_ok_inv hr
    exact ⟨by simp, hi⟩
  | cons x xs ih =>
    intro s es r s' hr hi
    rw [List.forM_cons] at hr
    rcases Run.except_bind_inv hr with ⟨e, rfl, h1⟩ | ⟨⟨⟩, s1, _, _, h1, h2, rfl⟩
    · exact step x (by simp) _ _ _ _ hi h1
    · obtain ⟨hp1, hi1⟩ := step x (by simp) _ _ _ _ hi h1
      obtain ⟨hp2, hi2⟩ := ih (fun y hy => step y (by simp [hy])) h2 hi1
      exact ⟨fun e he => (List.mem_append.mp he).elim (hp1 e) (hp2 e), hi2⟩

/-- The calls of a loop are those of its items, of all of them when it does not fail. -/
theorem Run.forM_parts {f : α → ExceptT ε (Prog Op Resp) PUnit} {l : List α} :
    ∀ {s es r s'}, Run h (forM l f).run s es r s' →
      (∀ e ∈ es, ∃ x ∈ l, ∃ s1 es1 r1 s2, Run h (f x).run s1 es1 r1 s2 ∧ e ∈ es1) ∧
        (r = .ok ⟨⟩ → ∀ x ∈ l, ∃ s1 es1 s2, Run h (f x).run s1 es1 (.ok ⟨⟩) s2 ∧ ∀ e ∈ es1, e ∈ es) := by
  induction l with
  | nil =>
    intro s es r s' hr
    obtain ⟨rfl, _, rfl⟩ := Run.pure_ok_inv hr
    simp
  | cons x xs ih =>
    intro s es r s' hr
    rw [List.forM_cons] at hr
    rcases Run.except_bind_inv hr with ⟨e, rfl, h1⟩ | ⟨⟨⟩, s1, es1, _, h1, h2, rfl⟩
    · exact ⟨fun e he => ⟨x, by simp, _, _, _, _, h1, he⟩, nofun⟩
    · obtain ⟨hsub, hall⟩ := ih h2
      constructor
      · intro e he
        rcases List.mem_append.mp he with he | he
        · exact ⟨x, by simp, _, _, _, _, h1, he⟩
        · obtain ⟨y, hy, hpart⟩ := hsub e he
          exact ⟨y, List.mem_cons_of_mem _ hy, hpart⟩
      · intro hok y hy
        rcases List.mem_cons.mp hy with rfl | hy
        · exact ⟨_, _, _, h1, fun e he => List.mem_append_left _ he⟩
        · obtain ⟨s2, es3, s3, hrun, hes⟩ := hall hok y hy
          exact ⟨s2, es3, s3, hrun, fun e he => List.mem_append_right _ (hes e he)⟩

/-- A loop whose items never fail, and keep `I`. -/
theorem Run.forM_total {f : α → ExceptT ε (Prog Op Resp) PUnit} (I : σ → Prop) {l : List α}
    (step : ∀ x ∈ l, ∀ s es r s1, I s → Run h (f x).run s es r s1 → r = .ok ⟨⟩ ∧ I s1) :
    ∀ {s es r s'}, Run h (forM l f).run s es r s' → I s → r = .ok ⟨⟩ ∧ I s' := by
  induction l with
  | nil =>
    intro s es r s' hr hi
    obtain ⟨_, rfl, rfl⟩ := Run.pure_ok_inv hr
    exact ⟨rfl, hi⟩
  | cons x xs ih =>
    intro s es r s' hr hi
    rw [List.forM_cons] at hr
    rcases Run.except_bind_inv hr with ⟨e, rfl, h1⟩ | ⟨⟨⟩, s1, _, _, h1, h2, rfl⟩
    · cases (step x (by simp) _ _ _ _ hi h1).1
    · exact ih (fun y hy => step y (by simp [hy])) h2 (step x (by simp) _ _ _ _ hi h1).2

end Prog

end Lib
