/-
Machines that take one event at a time. What the environment decides is part
of the event, so a step is a function, undefined where the event cannot
happen; the runs are all the sequences of events that can.

`Machine.invariant` is the rule for safety: what holds at the start and is
kept by every step holds at the end of every run. `Machine.invariantWhere` is
the same for runs whose steps all meet a condition on the state they are
taken in, `Machine.Guarded`; `Machine.history` speaks of the states passed on
the way too.
-/
import Mathlib.Data.List.Induction

namespace Lib

structure Machine (σ ε : Type) where
  step : σ → ε → Option σ

namespace Machine

variable {σ ε : Type} (m : Machine σ ε)

/-- The state after a sequence of events. -/
def exec : σ → List ε → Option σ
  | s, [] => some s
  | s, e :: es => (m.step s e).bind fun s' => exec s' es

/-- Every step of the run is taken where `G` holds. -/
def Guarded (G : σ → ε → Prop) : σ → List ε → Prop
  | _, [] => True
  | s, e :: es => G s e ∧ ∀ s', m.step s e = some s' → Guarded G s' es

variable {m}

theorem exec_cons {s s' e es} (h : m.exec s (e :: es) = some s') :
    ∃ s1, m.step s e = some s1 ∧ m.exec s1 es = some s' :=
  Option.bind_eq_some_iff.mp h

theorem exec_append {s s'} : ∀ {es1 es2 : List ε}, m.exec s (es1 ++ es2) = some s' →
    ∃ s1, m.exec s es1 = some s1 ∧ m.exec s1 es2 = some s'
  | [], _, h => ⟨s, rfl, h⟩
  | e :: es1, es2, h => by
    obtain ⟨s1, hstep, hrest⟩ := exec_cons h
    obtain ⟨s2, h1, h2⟩ := exec_append hrest
    exact ⟨s2, Option.bind_eq_some_iff.mpr ⟨s1, hstep, h1⟩, h2⟩

theorem exec_trans {s s1 s'} : ∀ {es1 es2 : List ε}, m.exec s es1 = some s1 → m.exec s1 es2 = some s' →
    m.exec s (es1 ++ es2) = some s'
  | [], _, h1, h2 => by
    cases h1
    exact h2
  | e :: es1, es2, h1, h2 => by
    obtain ⟨s2, hstep, hrest⟩ := exec_cons h1
    exact Option.bind_eq_some_iff.mpr ⟨s2, hstep, exec_trans hrest h2⟩

/-- **The rule with the run so far.** `I es s` is about state `s` and the
events `es` that led to it. -/
theorem history {I : List ε → σ → Prop} {s0 : σ} (hnil : I [] s0)
    (hstep : ∀ {es s e s'}, m.exec s0 es = some s → I es s → m.step s e = some s' → I (es ++ [e]) s')
    {es : List ε} : ∀ {s : σ}, m.exec s0 es = some s → I es s := by
  induction es using List.reverseRecOn with
  | nil =>
    intro s h
    cases h
    exact hnil
  | append_singleton es e ih =>
    intro s h
    obtain ⟨_, h1, h2⟩ := exec_append h
    obtain ⟨_, hs, he⟩ := exec_cons h2
    cases he
    exact hstep h1 (ih h1) hs

/-- A run, evaluated. -/
theorem exists_exec {s es P} [DecidablePred P]
    (h : (m.exec s es).any (fun s' => P s') = true) : ∃ s', m.exec s es = some s' ∧ P s' := by
  cases he : m.exec s es with
  | none =>
    rw [he] at h
    cases h
  | some s' =>
    rw [he] at h
    exact ⟨s', rfl, of_decide_eq_true h⟩

theorem exists_exec_of {s es} {Q : σ → Prop} (P : σ → Prop) [DecidablePred P] (h : (m.exec s es).any (fun s' => P s') = true)
    (hq : ∀ s', m.exec s es = some s' → P s' → Q s') : ∃ s', m.exec s es = some s' ∧ Q s' := by
  obtain ⟨s', he, hP⟩ := exists_exec h
  exact ⟨s', he, hq s' he hP⟩

instance decidableGuarded {G : σ → ε → Prop} [∀ s e, Decidable (G s e)] :
    ∀ (s : σ) (es : List ε), Decidable (m.Guarded G s es)
  | _, [] => .isTrue trivial
  | s, e :: es =>
    match hs : m.step s e with
    | none =>
      decidable_of_iff (G s e) ⟨fun h => ⟨h, fun s' h' => by rw [hs] at h'; cases h'⟩, fun h => h.1⟩
    | some s' =>
      have : Decidable (m.Guarded G s' es) := decidableGuarded s' es
      decidable_of_iff (G s e ∧ m.Guarded G s' es)
        ⟨fun h => ⟨h.1, fun _ h' => Option.some.inj (hs.symm.trans h') ▸ h.2⟩, fun h => ⟨h.1, h.2 s' hs⟩⟩

/-- **The rule for runs under a condition.** -/
theorem invariantWhere {G : σ → ε → Prop} {I : σ → Prop}
    (hstep : ∀ {s e s'}, I s → G s e → m.step s e = some s' → I s') :
    ∀ {es : List ε} {s s' : σ}, m.exec s es = some s' → m.Guarded G s es → I s → I s'
  | [], s, s', h, _, hi => by
    cases h
    exact hi
  | e :: es, s, s', h, hg, hi => by
    obtain ⟨s1, h1, h2⟩ := exec_cons h
    exact invariantWhere hstep h2 (hg.2 s1 h1) (hstep hi hg.1 h1)

theorem Guarded.and {G H} : ∀ {es : List ε} {s : σ}, m.Guarded G s es → m.Guarded H s es →
    m.Guarded (fun s e => G s e ∧ H s e) s es
  | [], _, _, _ => trivial
  | _ :: _, _, hg, hh => ⟨⟨hg.1, hh.1⟩, fun s' hs => (hg.2 s' hs).and (hh.2 s' hs)⟩

theorem guarded_append {G} : ∀ {es1 es2 : List ε} {s s1 : σ}, m.Guarded G s (es1 ++ es2) →
    m.exec s es1 = some s1 → m.Guarded G s es1 ∧ m.Guarded G s1 es2
  | [], _, _, _, hg, h => by
    cases h
    exact ⟨trivial, hg⟩
  | e :: es1, es2, s, s1, hg, h => by
    obtain ⟨s2, hstep, hrest⟩ := exec_cons h
    refine ⟨⟨hg.1, fun s' hs' => ?_⟩, (guarded_append (hg.2 s2 hstep) hrest).2⟩
    cases hstep.symm.trans hs'
    exact (guarded_append (hg.2 s2 hstep) hrest).1

theorem guarded_true {s} : ∀ {es : List ε}, m.Guarded (fun _ _ => True) s es
  | [] => trivial
  | _ :: _ => ⟨trivial, fun _ _ => guarded_true⟩

theorem guarded_of_forall {P : ε → Prop} : ∀ {es : List ε} {s : σ}, (∀ e ∈ es, P e) → m.Guarded (fun _ e => P e) s es
  | [], _, _ => trivial
  | e :: _, _, h => ⟨h e List.mem_cons_self, fun _ _ => guarded_of_forall fun e' he' => h e' (List.mem_cons_of_mem e he')⟩

theorem guarded_of_splits {G} : ∀ {es : List ε} {s : σ},
    (∀ es1 e es2 s1, es = es1 ++ e :: es2 → m.exec s es1 = some s1 → G s1 e) → m.Guarded G s es
  | [], _, _ => trivial
  | e :: es, s, h => by
    refine ⟨h [] e es s rfl rfl, fun s' hs => guarded_of_splits fun es1 e' es2 s1 heq hexec => ?_⟩
    refine h (e :: es1) e' es2 s1 (by rw [heq]; rfl) ?_
    exact Option.bind_eq_some_iff.mpr ⟨s', hs, hexec⟩

/-- **The rule for all runs.** -/
theorem invariant {I : σ → Prop} (hstep : ∀ {s e s'}, I s → m.step s e = some s' → I s') {es : List ε} {s s' : σ}
    (h : m.exec s es = some s') (hi : I s) : I s' :=
  invariantWhere (G := fun _ _ => True) (fun hi _ hs => hstep hi hs) h guarded_true hi

end Machine

end Lib
