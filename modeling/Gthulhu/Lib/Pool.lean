/-
Calls in progress side by side. Each is a `Prog`, and its turns come in any
order: a `Pool` is the state they share, what is left of each, and the trace
of what has been called and answered. `Serial` is the same programs one after
the other.

What a program does by itself is said with `Along`: `g` is what can be told
from its own calls so far, `P g o` holds when it makes call `o`, and `Q g a`
when it returns `a`, for all answers that meet `A`. The rules rewrite `Along`
of a program to the conditions at its calls and ends (`along_*`); whoever runs
the program, and whatever happens between its calls, those conditions hold:
`Pool.Follows.step`, `Serial.along`.
-/
import Gthulhu.Lib.Prog
import Gthulhu.Lib.Machine

namespace Lib

open List

namespace Prog

variable {Op : Type} {Resp : Op → Type} {α β ε γ σ : Type}

def Along (A : Event Resp → Prop) (next : γ → Event Resp → γ) (P : γ → Op → Prop) (Q : γ → α → Prop) :
    γ → Prog Op Resp α → Prop
  | g, .ret a => Q g a
  | g, .call o k => P g o ∧ ∀ r, A ⟨o, r⟩ → Along A next P Q (next g ⟨o, r⟩) (k r)

/-- What holds at the two ends of a program that may fail. -/
def Ends (K : γ → α → Prop) (E : γ → ε → Prop) : γ → Except ε α → Prop
  | g, .ok a => K g a
  | g, .error e => E g e

section

variable {A : Event Resp → Prop} {next : γ → Event Resp → γ} {P : γ → Op → Prop} {Q : γ → α → Prop} {g : γ}

theorem along_bind {p : Prog Op Resp β} {f : β → Prog Op Resp α} :
    Along A next P Q g (p >>= f) ↔ Along A next P (fun g b => Along A next P Q g (f b)) g p := by
  induction p generalizing g with
  | ret b => exact Iff.rfl
  | call o k ih => exact and_congr Iff.rfl (forall_congr' fun r => imp_congr Iff.rfl (ih r))

theorem Along.imp {Q'} (h : ∀ g a, Q g a → Q' g a) :
    ∀ {p : Prog Op Resp α} {g : γ}, Along A next P Q g p → Along A next P Q' g p
  | .ret a, g, hp => h g a hp
  | .call _ _, _, hp => ⟨hp.1, fun r hr => (hp.2 r hr).imp h⟩

theorem Along.weaken {P'} (h : ∀ g o, P g o → P' g o) :
    ∀ {p : Prog Op Resp α} {g : γ}, Along A next P Q g p → Along A next P' Q g p
  | .ret _, _, hp => hp
  | .call o _, g, hp => ⟨h g o hp.1, fun r hr => (hp.2 r hr).weaken h⟩

/-- What is told from the calls is used up in `J`. -/
theorem Along.forget {A' : Event Resp → Prop} {P' : Op → Prop} {J : γ → Prop} (hcall : ∀ g o, J g → P g o → P' o)
    (hnext : ∀ g e, J g → P g e.1 → A' e → A e ∧ J (next g e)) : ∀ {p : Prog Op Resp α} {g : γ}, J g →
      Along A next P Q g p → Along A' (fun _ _ => ()) (fun _ => P') (fun _ _ => True) () p
  | .ret _, _, _, _ => trivial
  | .call o _, g, hj, hp => ⟨hcall g o hj hp.1, fun r hr =>
      have hr := hnext g ⟨o, r⟩ hj hp.1 hr
      Along.forget hcall hnext hr.2 (hp.2 r hr.1)⟩

theorem along_congr {Q'} (h : ∀ g a, Q g a ↔ Q' g a) {p} :
    Along A next P Q g p ↔ Along A next P Q' g p :=
  ⟨Along.imp fun g a => (h g a).mp, Along.imp fun g a => (h g a).mpr⟩

variable {K : γ → α → Prop} {E : γ → ε → Prop}

theorem along_pure {a} : Along A next P (Ends K E) g (pure a : ExceptT ε (Prog Op Resp) α).run ↔ K g a := Iff.rfl

theorem along_throw {e} : Along A next P (Ends K E) g (throw e : ExceptT ε (Prog Op Resp) α).run ↔ E g e := Iff.rfl

theorem along_except_bind {x : ExceptT ε (Prog Op Resp) β} {f : β → ExceptT ε (Prog Op Resp) α} :
    Along A next P (Ends K E) g (x >>= f).run ↔
      Along A next P (Ends (fun g b => Along A next P (Ends K E) g (f b).run) E) g x.run :=
  along_bind.trans (along_congr fun g r => by cases r <;> exact Iff.rfl)

theorem along_mapError {f x} :
    Along A next P (Ends K E) g (mapError f x).run ↔ Along A next P (Ends K fun g e => E g (f e)) g x.run :=
  along_bind.trans (along_congr fun g r => by cases r <;> exact Iff.rfl)

/-- A call that may fail. -/
theorem along_mk {x} :
    Along A next P (Ends K E) g (ExceptT.mk x).run ↔ Along A next P (Ends K E) g x := Iff.rfl

theorem along_perform {o Q} :
    Along A next P Q g (perform o) ↔ P g o ∧ ∀ r, A ⟨o, r⟩ → Q (next g ⟨o, r⟩) r := Iff.rfl

theorem along_ite {c : Prop} [Decidable c] {x y : ExceptT ε (Prog Op Resp) α} :
    Along A next P (Ends K E) g (if c then x else y).run ↔
      (c → Along A next P (Ends K E) g x.run) ∧ (¬c → Along A next P (Ends K E) g y.run) := by
  by_cases hc : c <;> simp [hc]

/-- The condition holds at the end of every run, with what `J` keeps of the
state on the way. -/
theorem Run.along {h} (J : γ → σ → Prop)
    (hstep : ∀ g s o, J g s → P g o → A ⟨o, (h o s).1⟩ ∧ J (next g ⟨o, (h o s).1⟩) (h o s).2) {p s s' es a}
    (hr : Run h p s es a s') :
    ∀ {g : γ}, Along A next P Q g p → J g s → Q (es.foldl next g) a ∧ J (es.foldl next g) s' := by
  induction hr with
  | ret => exact fun hp hj => ⟨hp, hj⟩
  | call _ ih =>
    intro g hp hj
    obtain ⟨ha, hj'⟩ := hstep g _ _ hj hp.1
    exact ih (hp.2 _ ha) hj'

/-- The condition holds at the end of a run whose calls are answered within `A`. -/
theorem Run.along_of_answers {h : (o : Op) → σ → Resp o × σ} {p : Prog Op Resp α} {s s' : σ} {es : List (Event Resp)}
    {a : α} (hr : Run h p s es a s') (hA : ∀ e ∈ es, A e) : ∀ {g : γ}, Along A next P Q g p → Q (es.foldl next g) a := by
  induction hr with
  | ret => exact id
  | call _ ih =>
    rw [forall_mem_cons] at hA
    exact fun hp => ih hA.2 (hp.2 _ hA.1)

end

/-! ### Paths -/

/-- `p` makes the calls `es`, so answered, and is left at `p'`. -/
inductive Path : Prog Op Resp α → List (Event Resp) → Prog Op Resp α → Prop where
  | nil {p : Prog Op Resp α} : Path p [] p
  | cons {o : Op} {k : Resp o → Prog Op Resp α} {r : Resp o} {es : List (Event Resp)} {p' : Prog Op Resp α} :
    Path (k r) es p' → Path (.call o k) (⟨o, r⟩ :: es) p'

theorem Path.snoc {p : Prog Op Resp α} {es : List (Event Resp)} {o : Op} {k : Resp o → Prog Op Resp α} (r : Resp o)
    (h : Path p es (.call o k)) : Path p (es ++ [⟨o, r⟩]) (k r) := by
  generalize hp' : Prog.call o k = p' at h
  induction h with
  | nil =>
    subst hp'
    exact .cons .nil
  | cons _ ih => exact .cons (ih hp')

/-- The conditions hold at the calls made and at the point reached. -/
theorem Path.along {A : Event Resp → Prop} {next : γ → Event Resp → γ} {P : γ → Op → Prop} {Q : γ → α → Prop}
    {p p' : Prog Op Resp α} {es : List (Event Resp)} (h : Path p es p') (hA : ∀ e ∈ es, A e) :
    ∀ {g : γ}, Along A next P Q g p → Along A next P Q (es.foldl next g) p' ∧
      ∀ es1 e es2, es = es1 ++ e :: es2 → P (es1.foldl next g) e.1 := by
  induction h with
  | nil => exact fun hp => ⟨hp, fun es1 e es2 heq => by simp at heq⟩
  | @cons o k r es p' _ ih =>
    intro g hp
    obtain ⟨hend, hcalls⟩ := ih (fun e he => hA e (by simp [he])) (hp.2 r (hA _ (by simp)))
    refine ⟨hend, fun es1 e es2 heq => ?_⟩
    cases es1 with
    | nil =>
      cases heq
      exact hp.1
    | cons e1 es1 =>
      obtain ⟨rfl, hrest⟩ := cons_eq_cons.mp heq
      exact hcalls es1 e es2 hrest

/-! ### Traces -/

/-- However it is answered, `p` makes calls in `P`, and `φ` holds of them and of what `p` returns. -/
def Traced (P : Op → Prop) : Prog Op Resp α → (List (Event Resp) → α → Prop) → Prop
  | .ret a, φ => φ [] a
  | .call o k, φ => P o ∧ ∀ r, Traced P (k r) fun es => φ (⟨o, r⟩ :: es)

section

variable {P : Op → Prop}

theorem Traced.imp {p : Prog Op Resp α} {φ ψ : List (Event Resp) → α → Prop} (hp : Traced P p φ)
    (h : ∀ es a, φ es a → ψ es a) : Traced P p ψ := by
  induction p generalizing φ ψ with
  | ret a => exact h [] a hp
  | call o k ih => exact ⟨hp.1, fun r => ih r (hp.2 r) fun es a => h _ a⟩

theorem traced_bind {p : Prog Op Resp β} {f : β → Prog Op Resp α} {φ : List (Event Resp) → α → Prop} :
    Traced P (p >>= f) φ ↔ Traced P p fun es b => Traced P (f b) fun es' => φ (es ++ es') := by
  induction p generalizing φ with
  | ret b => exact Iff.rfl
  | call o k ih => exact and_congr Iff.rfl (forall_congr' fun r => ih r)

theorem traced_congr {p : Prog Op Resp α} {φ ψ : List (Event Resp) → α → Prop} (h : ∀ es a, φ es a ↔ ψ es a) :
    Traced P p φ ↔ Traced P p ψ :=
  ⟨fun hp => hp.imp fun es a => (h es a).mp, fun hp => hp.imp fun es a => (h es a).mpr⟩

variable {x : ExceptT ε (Prog Op Resp) β} {φ : List (Event Resp) → Except ε α → Prop}

theorem traced_except_bind {f} :
    Traced P (x >>= f).run φ ↔ Traced P x.run fun es r =>
      (∀ b, r = .ok b → Traced P (f b).run fun es' => φ (es ++ es')) ∧ ∀ e, r = .error e → φ es (.error e) := by
  refine traced_bind.trans (traced_congr fun es r => ?_)
  cases r with
  | ok b =>
    change Traced P (f b).run _ ↔ _
    simp
  | error e =>
    change φ (es ++ []) (.error e) ↔ _
    simp

/-- A first part that does not fail. -/
theorem Traced.bind {f} (hx : Traced P x.run fun es r => ∃ b, r = .ok b ∧ Traced P (f b).run fun es' => φ (es ++ es')) :
    Traced P (x >>= f).run φ := by
  refine traced_except_bind.mpr (hx.imp fun es r hr => ?_)
  obtain ⟨b, rfl, hf⟩ := hr
  refine ⟨fun b' hb => ?_, fun e he => by cases he⟩
  cases hb
  exact hf

/-- ... and whose value is passed on. -/
theorem Traced.map {f : β → α} (hx : Traced P x.run fun es r => ∃ b, r = .ok b ∧ φ es (.ok (f b))) :
    Traced P (do let b ← x; pure (f b)).run φ := by
  refine Traced.bind (hx.imp fun es r hr => ?_)
  obtain ⟨b, hb, hf⟩ := hr
  refine ⟨b, hb, ?_⟩
  change φ (es ++ []) _
  rwa [append_nil]

/-- What holds of every trace holds of a run. -/
theorem Run.traced {h : (o : Op) → σ → Resp o × σ} {p : Prog Op Resp α} {s s' : σ} {es : List (Event Resp)} {a : α}
    (hr : Run h p s es a s') : ∀ {φ : List (Event Resp) → α → Prop}, Traced P p φ → φ es a ∧ ∀ e ∈ es, P e.1 := by
  induction hr with
  | ret => exact fun hp => ⟨hp, fun e he => by cases he⟩
  | call _ ih =>
    intro φ hp
    obtain ⟨hend, hcalls⟩ := ih (hp.2 _)
    exact ⟨hend, forall_mem_cons.mpr ⟨hp.1, hcalls⟩⟩

/-- ... and along the program. -/
theorem Traced.along {p : Prog Op Resp α} {φ : List (Event Resp) → α → Prop} (A : Event Resp → Prop) (hp : Traced P p φ) :
    Along A (fun g e => g ++ [e]) (fun _ => P) φ [] p := by
  have hfrom : ∀ g, (Traced P p fun es => φ (g ++ es)) → Along A (fun g e => g ++ [e]) (fun _ => P) φ g p := by
    clear hp
    induction p with
    | ret a =>
      intro g hp
      exact append_nil g ▸ hp
    | call o k ih =>
      intro g hp
      refine ⟨hp.1, fun r _ => ih r _ ?_⟩
      simpa using hp.2 r
  exact hfrom [] hp

end

/-! ### Calls of a kind -/

section

variable {A : Event Resp → Prop} {P : Op → Prop} {K : α → Prop}

/-- All calls of `x` meet `P` while the answers meet `A`, and so does its result `K`,
if there is one. -/
def Makes (A : Event Resp → Prop) (P : Op → Prop) (K : α → Prop) (x : ExceptT ε (Prog Op Resp) α) : Prop :=
  Along A (fun _ _ => ()) (fun _ => P) (Ends (fun _ => K) fun _ _ => True) () x.run

theorem makes_pure {a} (h : K a) : Makes A P K (pure a : ExceptT ε (Prog Op Resp) α) := along_pure.mpr h

theorem makes_throw {e} : Makes A P K (throw e : ExceptT ε (Prog Op Resp) α) := along_throw.mpr trivial

theorem Makes.imp {x : ExceptT ε (Prog Op Resp) α} {K' : α → Prop} (h : Makes A P K x) (hk : ∀ a, K a → K' a) :
    Makes A P K' x := by
  refine Along.imp (fun _ r => ?_) h
  cases r with
  | ok a => exact hk a
  | error e => exact id

theorem Makes.weaken {x : ExceptT ε (Prog Op Resp) α} {P' : Op → Prop} (h : Makes A P K x) (hp : ∀ o, P o → P' o) :
    Makes A P' K x := Along.weaken (fun _ => hp) h

theorem Makes.bind {x : ExceptT ε (Prog Op Resp) β} {f : β → ExceptT ε (Prog Op Resp) α} {L : β → Prop}
    (hx : Makes A P L x) (hf : ∀ b, L b → Makes A P K (f b)) : Makes A P K (x >>= f) := by
  refine along_except_bind.mpr (Along.imp (fun _ r => ?_) hx)
  cases r with
  | ok b => exact hf b
  | error e => exact id

theorem Makes.mapError {x : ExceptT ε (Prog Op Resp) α} {f : ε → ε} (hx : Makes A P K x) :
    Makes A P K (mapError f x) := along_mapError.mpr hx

theorem Makes.attempt {x} (hx : Makes A P K x) :
    Makes A P (fun r : Except ε α => ∀ a, r = .ok a → K a) (attempt x) := by
  refine along_bind.mpr (Along.imp (fun _ r h => ?_) hx)
  cases r with
  | ok a =>
    intro b hb
    cases hb
    exact h
  | error e =>
    intro b hb
    cases hb

theorem makes_ite {c : Prop} [Decidable c] {x y : ExceptT ε (Prog Op Resp) α} (hx : c → Makes A P K x)
    (hy : ¬c → Makes A P K y) : Makes A P K (if c then x else y) := by
  by_cases hc : c
  · rw [if_pos hc]
    exact hx hc
  · rw [if_neg hc]
    exact hy hc

theorem makes_forM {f : β → ExceptT ε (Prog Op Resp) PUnit} {l : List β}
    (h : ∀ b ∈ l, Makes A P (fun _ => True) (f b)) : Makes A P (fun _ => True) (forM l f) := by
  induction l with
  | nil => exact makes_pure trivial
  | cons b l ih =>
    rw [forM_cons]
    exact (h b (by simp)).bind fun _ _ => ih fun b' hb' => h b' (by simp [hb'])

/-- What every call in `P` keeps, and answers within `A`, is kept by the run. -/
theorem Run.makes {h : (o : Op) → σ → Resp o × σ} {J : σ → Prop}
    (hstep : ∀ s o, J s → P o → A ⟨o, (h o s).1⟩ ∧ J (h o s).2) {x : ExceptT ε (Prog Op Resp) α} {s s' es r}
    (hr : Run h x.run s es r s') (hx : Makes A P K x) (hj : J s) :
    J s' ∧ ∀ a, r = .ok a → K a := by
  obtain ⟨hk, hj'⟩ := Run.along (fun _ => J) (fun _ => hstep) hr hx hj
  refine ⟨hj', fun a ha => ?_⟩
  subst ha
  exact hk

/-- All calls of a run are of the kind. -/
theorem Run.makes_calls {h : (o : Op) → σ → Resp o × σ} {J : σ → Prop}
    (hstep : ∀ s o, J s → P o → A ⟨o, (h o s).1⟩ ∧ J (h o s).2) {x : ExceptT ε (Prog Op Resp) α} {s s' es r}
    (hr : Run h x.run s es r s') (hx : Makes A P K x) (hj : J s) :
    ∀ e ∈ es, P e.1 := by
  have hcalls : ∀ {p : Prog Op Resp (Except ε α)} {s s' es r}, Run h p s es r s' →
      Along A (fun _ _ => ()) (fun _ => P) (Ends (fun _ => K) fun _ _ => True) () p → J s → ∀ e ∈ es, P e.1 := by
    intro p s s' es r hr
    induction hr with
    | ret => exact fun _ _ e he => absurd he not_mem_nil
    | call _ ih =>
      intro hp hj e he
      obtain ⟨ha, hj'⟩ := hstep _ _ hj hp.1
      rcases mem_cons.mp he with rfl | he
      · exact hp.1
      · exact ih (hp.2 _ ha) hj' e he
  exact hcalls hr hx hj

/-- `es'` is what is left of `es` after calls of the kind. -/
def After (P : Op → Prop) (es es' : List (Event Resp)) : Prop := ∃ before, es = before ++ es' ∧ ∀ e ∈ before, P e.1

theorem After.refl (P : Op → Prop) (es : List (Event Resp)) : After P es es := ⟨[], rfl, by simp⟩

/-- The first part of a sequence makes calls of the kind, and the second is left. -/
theorem Run.ok_bind_after {h : (o : Op) → σ → Resp o × σ} {x : ExceptT ε (Prog Op Resp) α}
    {f : α → ExceptT ε (Prog Op Resp) β} {s s' : σ} {es all : List (Event Resp)} {b : β} (hall : After P all es)
    (hr : Run h (x >>= f).run s es (.ok b) s') (hx : Makes (fun _ => True) P K x) :
    ∃ a s1 es1 es2, Run h x.run s es1 (.ok a) s1 ∧ Run h (f a).run s1 es2 (.ok b) s' ∧ (∀ e ∈ es1, e ∈ all) ∧
      After P all es2 := by
  obtain ⟨a, s1, es1, es2, h1, h2, rfl⟩ := Run.ok_bind_inv hr
  obtain ⟨before, rfl, hbefore⟩ := hall
  refine ⟨a, s1, es1, es2, h1, h2, fun e he => by simp [he], before ++ es1, (append_assoc ..).symm, fun e he => ?_⟩
  exact (mem_append.mp he).elim (hbefore e) (h1.makes_calls (J := fun _ => True) (fun _ _ _ _ => ⟨trivial, trivial⟩) hx trivial e)

end

end Prog

/-! ## Side by side -/

structure Pool (σ ι : Type) (Op : Type) (Resp : Op → Type) (α : Type) where
  shared : σ
  /-- Each call, and what is left of it. -/
  threads : List (ι × Prog Op Resp α) := []
  /-- Who called what, and the answer. -/
  trace : List (Nat × Prog.Event Resp) := []

inductive PoolEvent (ι χ : Type) where
  | start (op : ι)
  /-- Thread `i` makes its next call; `choice` is what the environment decides. -/
  | turn (i : Nat) (choice : χ)

namespace Pool

variable {σ ι χ Op α γ : Type} {Resp : Op → Type}

/-- Thread `i` has made call `o`, with answer `r`. -/
def answered (s : Pool σ ι Op Resp α) (i : Nat) (op : ι) (o : Op) (r : Resp o) (rest : Prog Op Resp α) (shared : σ) :
    Pool σ ι Op Resp α where
  shared := shared
  threads := s.threads.set i (op, rest)
  trace := s.trace ++ [(i, ⟨o, r⟩)]

def machine (program : ι → Prog Op Resp α) (h : χ → (o : Op) → σ → Resp o × σ) :
    Machine (Pool σ ι Op Resp α) (PoolEvent ι χ) where
  step s
    | .start op => some { s with threads := s.threads ++ [(op, program op)] }
    | .turn i choice =>
      match s.threads[i]? with
      | some (op, .call o k) =>
        some (s.answered i op o (h choice o s.shared).1 (k (h choice o s.shared).1) (h choice o s.shared).2)
      | _ => none

/-- The call thread `i` makes at its next turn. -/
def next? (s : Pool σ ι Op Resp α) (i : Nat) : Option Op :=
  match s.threads[i]? with
  | some (_, .call o _) => some o
  | _ => none

/-- Thread `i` is a call of `op`. -/
def Runs (s : Pool σ ι Op Resp α) (i : Nat) (op : ι) : Prop := ∃ p, s.threads[i]? = some (op, p)

/-- Thread `i` has returned. -/
def Returned (s : Pool σ ι Op Resp α) (i : Nat) (op : ι) (a : α) : Prop := s.threads[i]? = some (op, .ret a)

/-- What can be told from the calls of thread `i`. -/
def view (next : γ → Prog.Event Resp → γ) (init : γ) (s : Pool σ ι Op Resp α) (i : Nat) : γ :=
  s.trace.foldl (fun g e => if e.1 = i then next g e.2 else g) init

variable {program : ι → Prog Op Resp α} {h : χ → (o : Op) → σ → Resp o × σ} {s s' : Pool σ ι Op Resp α}
  {e : PoolEvent ι χ}

/-- **What a step can do.** -/
theorem step_cases (hs : (machine program h).step s e = some s') :
    (∃ op, e = .start op ∧ s' = { s with threads := s.threads ++ [(op, program op)] }) ∨
      ∃ i choice op o k r shared, e = .turn i choice ∧ s.threads[i]? = some (op, .call o k) ∧
        h choice o s.shared = (r, shared) ∧ s' = s.answered i op o r (k r) shared := by
  cases e with
  | start op => exact .inl ⟨op, rfl, (Option.some.inj hs).symm⟩
  | turn i choice =>
    simp only [machine] at hs
    split at hs
    · rename_i op o k hi
      exact .inr ⟨i, choice, op, o, k, _, _, rfl, hi, rfl, (Option.some.inj hs).symm⟩
    · cases hs

/-- A thread was there before, or has just been started. -/
theorem runs_step {i op} (hs : (machine program h).step s e = some s') (hr : s'.Runs i op) :
    s.Runs i op ∨ s.threads.length ≤ i := by
  obtain ⟨p, hp⟩ := hr
  rcases step_cases hs with ⟨op', rfl, rfl⟩ | ⟨k, choice, op', o, rest, r, shared, rfl, hk, hr, rfl⟩
  · by_cases hlt : i < s.threads.length
    · rw [getElem?_append_left hlt] at hp
      exact .inl ⟨p, hp⟩
    · exact .inr (Nat.le_of_not_lt hlt)
  · simp only [answered, getElem?_set] at hp
    split at hp
    · rename_i hki
      subst hki
      split at hp
      · cases hp
        exact .inl ⟨_, hk⟩
      · cases hp
    · exact .inl ⟨p, hp⟩

/-- What has returned stays as it is. -/
theorem returned_step {i op a} (hs : (machine program h).step s e = some s')
    (hr : s.Returned i op a) : s'.Returned i op a := by
  rcases step_cases hs with ⟨op', rfl, rfl⟩ | ⟨k, choice, op', o, rest, r, shared, rfl, hk, _, rfl⟩
  · exact List.getElem?_append_left (List.getElem?_eq_some_iff.mp hr).1 |>.trans hr
  · have hki : k ≠ i := by
      rintro rfl
      cases hk.symm.trans hr
    simp only [Returned, answered, getElem?_set_ne hki]
    exact hr

theorem returned_exec {i op a es} (he : (machine program h).exec s es = some s')
    (hr : s.Returned i op a) : s'.Returned i op a :=
  Machine.invariant (I := fun s => s.Returned i op a) (fun hr hs => returned_step hs hr) he hr

instance decidableReturned [DecidableEq ι] [DecidableEq α] (s : Pool σ ι Op Resp α) (i : Nat) (op : ι) (a : α) :
    Decidable (s.Returned i op a) :=
  match hi : s.threads[i]? with
  | some (op', .ret a') =>
    decidable_of_iff (op' = op ∧ a' = a) (by
      simp only [Returned, hi, Option.some.injEq, Prod.mk.injEq, Prog.ret.injEq])
  | some (op', .call o k) => .isFalse fun hr => by cases hi.symm.trans hr
  | none => .isFalse fun hr => by cases hi.symm.trans hr

variable {next : γ → Prog.Event Resp → γ} {init : γ} {i j : Nat} {op : ι} {o : Op} {r : Resp o} {rest : Prog Op Resp α}
  {shared : σ}

/-- A turn leaves the threads what they are. -/
theorem map_fst_answered {p} (hi : s.threads[i]? = some (op, p)) :
    (s.answered i op o r rest shared).threads.map Prod.fst = s.threads.map Prod.fst := by
  refine ext_getElem? fun j => ?_
  simp only [answered, getElem?_map, getElem?_set]
  split
  · rename_i hij
    subst hij
    rw [hi, if_pos (List.getElem?_eq_some_iff.mp hi).1]
    rfl
  · rfl

theorem view_answered : (s.answered i op o r rest shared).view next init j =
    if i = j then next (s.view next init j) ⟨o, r⟩ else s.view next init j := by
  simp [view, answered, foldl_append]

theorem view_answered_self : (s.answered i op o r rest shared).view next init i =
    next (s.view next init i) ⟨o, r⟩ := by
  rw [view_answered, if_pos rfl]

theorem view_answered_ne (hij : i ≠ j) : (s.answered i op o r rest shared).view next init j = s.view next init j := by
  rw [view_answered, if_neg hij]

/-- Each thread is at some point of its program, as its calls show. -/
structure Follows (A : Prog.Event Resp → Prop) (next : γ → Prog.Event Resp → γ) (init : γ) (P : ι → γ → Op → Prop)
    (Q : ι → γ → α → Prop) (s : Pool σ ι Op Resp α) : Prop where
  along : ∀ (i : Nat) (op : ι) (p : Prog Op Resp α), s.threads[i]? = some (op, p) →
    p.Along A next (P op) (Q op) (s.view next init i)
  callers : ∀ e ∈ s.trace, e.1 < s.threads.length

variable {A : Prog.Event Resp → Prop} {P : ι → γ → Op → Prop} {Q : ι → γ → α → Prop}

theorem Follows.nil (shared : σ) : Follows A next init P Q { shared := shared, threads := [], trace := [] } :=
  ⟨fun _ _ _ hi => (by cases hi), fun _ he => (by cases he)⟩

/-- A thread that has made no call yet. -/
theorem Follows.view_new (hf : Follows A next init P Q s) (hi : s.threads.length ≤ i) : s.view next init i = init := by
  have hne : ∀ e ∈ s.trace, e.1 ≠ i := fun e he => Nat.ne_of_lt (Nat.lt_of_lt_of_le (hf.callers e he) hi)
  exact List.foldlRecOn (motive := fun g => g = init) s.trace _ rfl fun g hg e he => by rw [if_neg (hne e he), hg]

/-- **The rule.** Programs that meet their conditions alone meet them in every
pool. -/
theorem Follows.step (hA : ∀ choice o shared, A ⟨o, (h choice o shared).1⟩)
    (hp : ∀ op, (program op).Along A next (P op) (Q op) init) (hf : Follows A next init P Q s)
    (hs : (machine program h).step s e = some s') : Follows A next init P Q s' := by
  rcases step_cases hs with ⟨op, rfl, rfl⟩ | ⟨i, choice, op, o, k, r, shared, rfl, hi, hr, rfl⟩
  · refine ⟨fun i op' p hi => ?_, fun e he => ?_⟩
    · rw [getElem?_append] at hi
      split at hi
      · exact hf.along i op' p hi
      · rename_i hlt
        rw [getElem?_singleton] at hi
        split at hi
        · cases hi
          have hnew := hf.view_new (Nat.le_of_not_lt hlt)
          simp only [view] at hnew ⊢
          rw [hnew]
          exact hp op
        · cases hi
    · rw [length_append]
      exact Nat.lt_add_right _ (hf.callers e he)
  · refine ⟨fun j op' p hj => ?_, fun e he => ?_⟩
    · rw [view_answered]
      simp only [answered, getElem?_set] at hj
      split at hj
      · rename_i hij
        subst hij
        rw [if_pos rfl]
        split at hj
        · cases hj
          refine (hf.along i _ _ hi).2 r ?_
          have := hA choice o s.shared
          rwa [hr] at this
        · cases hj
      · rename_i hij
        rw [if_neg hij]
        exact hf.along j op' p hj
    · simp only [answered, length_set, mem_append, mem_singleton] at he ⊢
      rcases he with he | rfl
      · exact hf.callers e he
      · exact (List.getElem?_eq_some_iff.mp hi).1

theorem Follows.call (hf : Follows A next init P Q s) {k}
    (hi : s.threads[i]? = some (op, .call o k)) : P op (s.view next init i) o :=
  (hf.along i _ _ hi).1

theorem Follows.returned (hf : Follows A next init P Q s) {a} (hi : s.Returned i op a) :
    Q op (s.view next init i) a :=
  hf.along i _ _ hi

/-! ### Threads on their paths -/

/-- The calls of thread `i`. -/
def callsOf (trace : List (Nat × Prog.Event Resp)) (i : Nat) : List (Prog.Event Resp) :=
  trace.filterMap fun e => if e.1 = i then some e.2 else none

theorem callsOf_append (t1 t2 : List (Nat × Prog.Event Resp)) (i : Nat) :
    callsOf (t1 ++ t2) i = callsOf t1 i ++ callsOf t2 i := filterMap_append ..

theorem callsOf_cons (e : Prog.Event Resp) (t : List (Nat × Prog.Event Resp)) (i : Nat) :
    callsOf ((i, e) :: t) i = e :: callsOf t i := by
  simp [callsOf]

theorem mem_callsOf {trace : List (Nat × Prog.Event Resp)} {e : Prog.Event Resp} : e ∈ callsOf trace i ↔ (i, e) ∈ trace := by
  simp [callsOf]

structure OnPaths (program : ι → Prog Op Resp α) (s : Pool σ ι Op Resp α) : Prop where
  path : ∀ (i : Nat) (op : ι) (p : Prog Op Resp α), s.threads[i]? = some (op, p) →
    (program op).Path (callsOf s.trace i) p
  callers : ∀ e ∈ s.trace, e.1 < s.threads.length

theorem OnPaths.nil (shared : σ) : OnPaths program { shared := shared } :=
  ⟨fun _ _ _ hi => (by cases hi), fun _ he => (by cases he)⟩

/-- A thread that has made no call yet. -/
theorem OnPaths.callsOf_new (hs : OnPaths program s) (hi : s.threads.length ≤ i) : callsOf s.trace i = [] := by
  refine filterMap_eq_nil_iff.mpr fun e he => ?_
  rw [if_neg (Nat.ne_of_lt (Nat.lt_of_lt_of_le (hs.callers e he) hi))]

theorem OnPaths.step (hp : OnPaths program s) (hs : (machine program h).step s e = some s') : OnPaths program s' := by
  rcases step_cases hs with ⟨op, rfl, rfl⟩ | ⟨i, choice, op, o, k, r, shared, rfl, hi, hr, rfl⟩
  · refine ⟨fun i op' p hi => ?_, fun e he => ?_⟩
    · rw [getElem?_append] at hi
      split at hi
      · exact hp.path i op' p hi
      · rename_i hlt
        rw [getElem?_singleton] at hi
        split at hi
        · cases hi
          show (program op).Path (callsOf s.trace i) (program op)
          rw [hp.callsOf_new (Nat.le_of_not_lt hlt)]
          exact .nil
        · cases hi
    · rw [length_append]
      exact Nat.lt_add_right _ (hp.callers e he)
  · refine ⟨fun j op' p hj => ?_, fun e he => ?_⟩
    · simp only [answered, getElem?_set] at hj
      simp only [answered, callsOf_append]
      split at hj
      · rename_i hij
        subst hij
        split at hj
        · cases hj
          rw [callsOf_cons]
          exact (hp.path i _ _ hi).snoc r
        · cases hj
      · rename_i hij
        have hother : callsOf [(i, (⟨o, r⟩ : Prog.Event Resp))] j = [] := by simp [callsOf, hij]
        rw [hother, append_nil]
        exact hp.path j op' p hj
    · simp only [answered, length_set, mem_append, mem_singleton] at he ⊢
      rcases he with he | rfl
      · exact hp.callers e he
      · exact (List.getElem?_eq_some_iff.mp hi).1

/-! ### Threads that make calls of a kind -/

/-- Whatever its calls answer within `A`, a thread makes calls in `P` only. -/
def AllMake (A : Prog.Event Resp → Prop) (P : Op → Prop) (s : Pool σ ι Op Resp α) : Prop :=
  ∀ x ∈ s.threads, x.2.Along A (fun _ _ => ()) (fun _ => P) (fun _ _ => True) ()

/-- **What calls in `P` keep, and answer within `A`, is kept** by threads that make
no others. -/
theorem AllMake.step {A : Prog.Event Resp → Prop} {P : Op → Prop} {J : σ → Prop} (hm : s.AllMake A P)
    (hstart : ∀ op, e = .start op → (program op).Along A (fun _ _ => ()) (fun _ => P) (fun _ _ => True) ())
    (hcall : ∀ choice o shared, J shared → P o → A ⟨o, (h choice o shared).1⟩ ∧ J (h choice o shared).2)
    (hj : J s.shared) (hs : (machine program h).step s e = some s') : s'.AllMake A P ∧ J s'.shared := by
  rcases step_cases hs with ⟨op, rfl, rfl⟩ | ⟨i, choice, op, o, k, r, shared, rfl, hi, hr, rfl⟩
  · refine ⟨fun x hx => ?_, hj⟩
    rcases mem_append.mp hx with hx | hx
    · exact hm x hx
    · rw [mem_singleton] at hx
      subst hx
      exact hstart op rfl
  · have hthread : (Prog.call o k).Along A (fun _ _ => ()) (fun _ => P) (fun _ _ => True) () :=
      hm _ (mem_of_getElem? hi)
    have hanswer := hcall choice o s.shared hj hthread.1
    rw [hr] at hanswer
    refine ⟨fun x hx => ?_, hanswer.2⟩
    rcases mem_or_eq_of_mem_set hx with hx | rfl
    · exact hm x hx
    · exact hthread.2 r hanswer.1

end Pool

/-! ## One after the other -/

/-- A call that was made in state `before`, with the calls it made itself. -/
structure Entry (σ ι : Type) (Op : Type) (Resp : Op → Type) (α : Type) where
  before : σ
  op : ι
  calls : List (Prog.Event Resp)
  result : α

structure Serial (σ ι : Type) (Op : Type) (Resp : Op → Type) (α : Type) where
  shared : σ
  log : List (Entry σ ι Op Resp α) := []

namespace Serial

variable {σ ι χ Op α γ : Type} {Resp : Op → Type}

/-- The calls are answered with the choices of `env`, in their order. -/
def handler (h : χ → (o : Op) → σ → Resp o × σ) (env : Nat → χ) (o : Op) (s : σ × Nat) : Resp o × (σ × Nat) :=
  ((h (env s.2) o s.1).1, (h (env s.2) o s.1).2, s.2 + 1)

def machine (program : ι → Prog Op Resp α) (h : χ → (o : Op) → σ → Resp o × σ) :
    Machine (Serial σ ι Op Resp α) (ι × (Nat → χ)) where
  step s e :=
    let r := (program e.1).exec (handler h e.2) (s.shared, 0)
    some { shared := r.2.2.1, log := s.log ++ [⟨s.shared, e.1, r.1, r.2.1⟩] }

variable {program : ι → Prog Op Resp α} {h : χ → (o : Op) → σ → Resp o × σ} {s s' : Serial σ ι Op Resp α}
  {op : ι} {env : Nat → χ}

/-- The choices are used up one by one. -/
theorem handler_le {p : Prog Op Resp α} {s s' : σ × Nat} {es : List (Prog.Event Resp)} {a : α}
    (hr : Prog.Run (handler h env) p s es a s') : s.2 ≤ s'.2 := by
  induction hr with
  | ret => exact Nat.le_refl _
  | call _ ih => exact Nat.le_of_succ_le ih

/-- **What a step does**: one call, from its start to its end. -/
theorem step_run (hs : (machine program h).step s (op, env) = some s') :
    ∃ calls a n, Prog.Run (handler h env) (program op) (s.shared, 0) calls a (s'.shared, n) ∧
      s'.log = s.log ++ [⟨s.shared, op, calls, a⟩] := by
  cases Option.some.inj hs
  exact ⟨_, _, _, Prog.run_exec _ _, rfl⟩

/-- **The rule.** The condition holds at the end of the call, with what `J` keeps
of the state on the way. -/
theorem along {A : Prog.Event Resp → Prop} {next : γ → Prog.Event Resp → γ} {init : γ} {P : ι → γ → Op → Prop}
    {Q : ι → γ → α → Prop} (hp : ∀ op, (program op).Along A next (P op) (Q op) init)
    (hA : ∀ choice o shared, A ⟨o, (h choice o shared).1⟩) (J : γ → σ → Prop)
    (hstep : ∀ g shared choice o r shared', J g shared → P op g o → h choice o shared = (r, shared') →
      J (next g ⟨o, r⟩) shared')
    (hinit : J init s.shared) (hs : (machine program h).step s (op, env) = some s') :
    ∃ entry, s'.log = s.log ++ [entry] ∧ entry.before = s.shared ∧ entry.op = op ∧
      Q op (entry.calls.foldl next init) entry.result ∧ J (entry.calls.foldl next init) s'.shared := by
  obtain ⟨_, a, n, hrun, hlog⟩ := step_run hs
  refine ⟨_, hlog, rfl, rfl, ?_⟩
  refine hrun.along (A := A) (P := P op) (fun g (s : σ × Nat) => J g s.1) (fun g s o hj hcall => ⟨hA _ o s.1, ?_⟩)
    (hp op) hinit
  exact hstep g s.1 (env s.2) o _ _ hj hcall rfl

end Serial

end Lib
