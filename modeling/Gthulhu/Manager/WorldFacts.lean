/-
What one request does to the world, whatever its outcome: the frame it keeps
and the change it makes. A request to the API server changes the resources of
one kind at most (`World.Stored`), a request to a decision maker one process
(`World.Sent`), everything else nothing (`World.Unchanged`).
-/
import Gthulhu.Manager.Calls

namespace Gthulhu.Manager

open Lib Function

/-! ## Frames -/

/-- Nothing has changed but the count of requests. -/
structure World.Unchanged (w w' : World) : Prop where
  store : w'.store = w.store
  processes : w'.processes = w.processes
  cluster : w'.cluster = w.cluster

/-- Only the resources of kind `k` may have changed, and they are `os` now. -/
structure World.Stored (w w' : World) (k : Kind) (os : List k.Object) : Prop where
  objects : (w'.store k).objects = os
  others : ∀ k', k' ≠ k → w'.store k' = w.store k'
  processes : w'.processes = w.processes
  cluster : w'.cluster = w.cluster

/-- Only the process at `endpoint` may have changed, and it is `p` now. -/
structure World.Sent (w w' : World) (endpoint : String × Nat) (p : DecisionMaker.Process) : Prop where
  process : w'.processes = Function.update w.processes endpoint p
  store : w'.store = w.store
  cluster : w'.cluster = w.cluster

namespace World

variable {w w₁ w' : World} {k : Kind} {os os' : List k.Object} {endpoint : String × Nat} {p p' : DecisionMaker.Process}

theorem Unchanged.refl (w : World) : Unchanged w w := ⟨rfl, rfl, rfl⟩

theorem Unchanged.trans (h : Unchanged w w₁) (h' : Unchanged w₁ w') : Unchanged w w' :=
  ⟨h'.store.trans h.store, h'.processes.trans h.processes, h'.cluster.trans h.cluster⟩

theorem Unchanged.eq (h : Unchanged w w') : w' = { w with tick := w'.tick } := by
  cases w'
  obtain ⟨rfl, rfl, rfl⟩ := h
  rfl

theorem Unchanged.intents (h : Unchanged w w') : w'.intents = w.intents := by
  rw [World.intents, World.intents, h.store]

theorem Unchanged.nodeIntents (h : Unchanged w w') : w'.nodeIntents = w.nodeIntents := by
  rw [World.nodeIntents, World.nodeIntents, h.store]

theorem Unchanged.stored (h : Unchanged w w') (k : Kind) : Stored w w' k (w.store k).objects :=
  ⟨by rw [h.store], fun k' _ => by rw [h.store], h.processes, h.cluster⟩

theorem Stored.trans (h : Stored w w₁ k os) (h' : Stored w₁ w' k os') : Stored w w' k os' :=
  ⟨h'.objects, fun k' hk => (h'.others k' hk).trans (h.others k' hk), h'.processes.trans h.processes,
    h'.cluster.trans h.cluster⟩

theorem Stored.after (h : Unchanged w w₁) (h' : Stored w₁ w' k os) : Stored w w' k os :=
  (h.stored k).trans h'

theorem Unchanged.sent (h : Unchanged w w') (endpoint : String × Nat) :
    Sent w w' endpoint (w.processes endpoint) :=
  ⟨by rw [h.processes, update_eq_self], h.store, h.cluster⟩

theorem Sent.trans (h : Sent w w₁ endpoint p) (h' : Sent w₁ w' endpoint p') : Sent w w' endpoint p' :=
  ⟨by rw [h'.process, h.process, update_idem], h'.store.trans h.store, h'.cluster.trans h.cluster⟩

theorem Sent.after (h : Unchanged w w₁) (h' : Sent w₁ w' endpoint p) : Sent w w' endpoint p :=
  (h.sent endpoint).trans h'

theorem Sent.self (h : Sent w w' endpoint p) : w'.processes endpoint = p := by
  rw [h.process, update_self]

theorem Sent.other (h : Sent w w' endpoint p) {endpoint'} (hne : endpoint' ≠ endpoint) :
    w'.processes endpoint' = w.processes endpoint' := by
  rw [h.process, update_of_ne hne]

end World

/-! ## Requests -/

/-- A program over the requests, run. -/
abbrev ApiRuns (go : SliceSort) (env : Nat → Choice) {α : Type} (x : Api α) (w : World)
    (es : List (Prog.Event ApiCall.Resp)) (r : Except Error α) (w' : World) : Prop :=
  Prog.Run (World.respond go env) x.run w es r w'

variable {go : SliceSort} {env : Nat → Choice} {w w' : World} {es : List (Prog.Event ApiCall.Resp)} {k : Kind}

open World

theorem unchanged_tick (w : World) (n : Nat) : Unchanged w { w with tick := n } := ⟨rfl, rfl, rfl⟩

theorem Outcome.read_cases {α : Type} (outcome : Outcome) (answer : Except Error α) :
    outcome.read answer = answer ∨ outcome.read answer = .error .unavailable := by
  cases outcome
  · exact .inl rfl
  · exact .inr rfl
  · exact .inr rfl

theorem Outcome.read_ok {α : Type} {outcome : Outcome} {a b : α} (h : outcome.read (.ok a) = .ok b) : b = a := by
  rcases Outcome.read_cases outcome (.ok a) with ho | ho <;> cases ho.symm.trans h
  rfl

theorem get_inv {id r} (h : ApiRuns go env (Api.get k id) w es r w') :
    Unchanged w w' ∧ (r = (w.store k).get id ∨ r = .error .unavailable) := by
  obtain ⟨-, he⟩ := Prog.Run.call_inv h
  simp only [respond, answer, Prod.mk.injEq] at he
  obtain ⟨rfl, rfl⟩ := he
  exact ⟨unchanged_tick w _, Outcome.read_cases _ _⟩

theorem list_inv {sel r} (h : ApiRuns go env (Api.list k sel) w es r w') :
    Unchanged w w' ∧ ((∃ order, r = .ok (reorder order ((w.store k).select sel))) ∨ r = .error .unavailable) := by
  obtain ⟨-, he⟩ := Prog.Run.call_inv h
  simp only [respond, answer, Prod.mk.injEq] at he
  obtain ⟨rfl, rfl⟩ := he
  exact ⟨unchanged_tick w _, (Outcome.read_cases _ _).imp_left fun h => ⟨_, h⟩⟩

theorem newObjectID_inv {r} (h : ApiRuns go env Api.newObjectID w es r w') :
    Unchanged w w' ∧ ∃ id, r = .ok id := by
  obtain ⟨id, rfl, hp⟩ := Prog.Run.lift_inv h
  obtain ⟨-, he⟩ := Prog.Run.call_inv hp
  simp only [respond, answer, Prod.mk.injEq] at he
  exact ⟨he.2 ▸ unchanged_tick w _, id, rfl⟩

theorem now_inv {r} (h : ApiRuns go env Api.now w es r w') :
    Unchanged w w' ∧ ∃ time, r = .ok time := by
  obtain ⟨time, rfl, hp⟩ := Prog.Run.lift_inv h
  obtain ⟨-, he⟩ := Prog.Run.call_inv hp
  simp only [respond, answer, Prod.mk.injEq] at he
  exact ⟨he.2 ▸ unchanged_tick w _, time, rfl⟩

/-- The three ways a write ends. -/
theorem writeStore_inv {outcome result r n} (h : World.writeStore { w with tick := n } outcome k result = (r, w')) :
    ∃ rs : Resources k, Stored w w' k rs.objects ∧ ((rs = result.2 ∧ r = result.1) ∨
      (rs = result.2 ∧ r = .error .unavailable) ∨ (rs = w.store k ∧ r = .error .unavailable)) := by
  have stored : ∀ rs : Resources k,
      Stored w { w with store := Function.update w.store k rs, tick := n } k rs.objects := fun rs =>
    ⟨by simp, fun k' hk => by simp [update_of_ne hk], rfl, rfl⟩
  cases outcome with
  | ok =>
    simp only [World.writeStore, Outcome.write, Prod.mk.injEq] at h
    obtain ⟨rfl, rfl⟩ := h
    exact ⟨_, stored _, .inl ⟨rfl, rfl⟩⟩
  | refused =>
    simp only [World.writeStore, Outcome.write, Prod.mk.injEq] at h
    obtain ⟨rfl, rfl⟩ := h
    exact ⟨_, stored _, .inr (.inr ⟨rfl, rfl⟩)⟩
  | lost =>
    simp only [World.writeStore, Outcome.write, Prod.mk.injEq] at h
    obtain ⟨rfl, rfl⟩ := h
    exact ⟨_, stored _, .inr (.inl ⟨rfl, rfl⟩)⟩

theorem create_inv {o r} (h : ApiRuns go env (Api.create k o) w es r w') :
    ∃ os, Stored w w' k os ∧ (r = .ok () → os = (w.store k).objects ++ [o]) ∧
      (os = (w.store k).objects ∨ os = (w.store k).objects ++ [o]) := by
  obtain ⟨-, he⟩ := Prog.Run.call_inv h
  obtain ⟨rs, hs, hcases⟩ := writeStore_inv he
  refine ⟨rs.objects, hs, ?_⟩
  by_cases hid : k.id o ∈ (w.store k).objects.map k.id
  · have hc : (w.store k).create o = (.error (.alreadyExists (k.id o).hex), w.store k) := by
      rw [Resources.create, dif_pos hid]
    rw [hc] at hcases
    rcases hcases with ⟨rfl, rfl⟩ | ⟨rfl, rfl⟩ | ⟨rfl, rfl⟩
    · exact ⟨nofun, .inl rfl⟩
    · exact ⟨nofun, .inl rfl⟩
    · exact ⟨nofun, .inl rfl⟩
  · have hc : ((w.store k).create o).2.objects = (w.store k).objects ++ [o] := by
      rw [Resources.create, dif_neg hid]
    rcases hcases with ⟨rfl, rfl⟩ | ⟨rfl, rfl⟩ | ⟨rfl, rfl⟩
    · exact ⟨fun _ => hc, .inr hc⟩
    · exact ⟨fun _ => hc, .inr hc⟩
    · exact ⟨nofun, .inl rfl⟩

theorem update_inv {o r} (h : ApiRuns go env (Api.update k o) w es r w') :
    ∃ os, Stored w w' k os ∧ (r = .ok () → o ∈ os) ∧ (os = (w.store k).objects ∨
      os = (w.store k).objects.map fun o' => if k.id o' = k.id o then o else o') := by
  obtain ⟨-, he⟩ := Prog.Run.call_inv h
  obtain ⟨rs, hs, hcases⟩ := writeStore_inv he
  refine ⟨rs.objects, hs, ?_⟩
  rw [Resources.update] at hcases
  split at hcases
  · rename_i hid
    obtain ⟨o', ho', heq⟩ := List.mem_map.mp hid
    have hmem := List.mem_map_of_mem (f := fun o' => if k.id o' = k.id o then o else o') ho'
    rw [if_pos heq] at hmem
    rcases hcases with ⟨rfl, -⟩ | ⟨rfl, -⟩ | ⟨rfl, rfl⟩
    · exact ⟨fun _ => hmem, .inr rfl⟩
    · exact ⟨fun _ => hmem, .inr rfl⟩
    · exact ⟨nofun, .inl rfl⟩
  · rcases hcases with ⟨rfl, rfl⟩ | ⟨rfl, rfl⟩ | ⟨rfl, rfl⟩
    · exact ⟨nofun, .inl rfl⟩
    · exact ⟨nofun, .inl rfl⟩
    · exact ⟨nofun, .inl rfl⟩

/-- A delete that succeeds or finds nothing leaves no resource of that name;
a delete that fails may have. -/
theorem delete_inv {id r} (h : ApiRuns go env (Api.delete k id) w es r w') :
    ∃ os, Stored w w' k os ∧
      ((r = .ok () ∨ ∃ err, r = .error err ∧ err.isNotFound = true) →
        os = (w.store k).objects.filter fun o => k.id o ≠ id) ∧
      (os = (w.store k).objects ∨ os = (w.store k).objects.filter fun o => k.id o ≠ id) := by
  obtain ⟨-, he⟩ := Prog.Run.call_inv h
  obtain ⟨rs, hs, hcases⟩ := writeStore_inv he
  have hd : ((w.store k).delete id).2.objects = (w.store k).objects.filter fun o => k.id o ≠ id := by
    rw [Resources.delete]
    split
    · rfl
    · rename_i hid
      symm
      rw [List.filter_eq_self]
      intro o ho
      simp only [ne_eq, decide_not, Bool.not_eq_true', decide_eq_false_iff_not]
      exact fun heq => hid (heq ▸ List.mem_map_of_mem ho)
  refine ⟨rs.objects, hs, ?_⟩
  rcases hcases with ⟨rfl, -⟩ | ⟨rfl, -⟩ | ⟨rfl, rfl⟩
  · exact ⟨fun _ => hd, .inr hd⟩
  · exact ⟨fun _ => hd, .inr hd⟩
  · refine ⟨fun hr => ?_, .inl rfl⟩
    rcases hr with hr | ⟨err, hr, hn⟩
    · cases hr
    · cases hr
      cases hn

/-- A request to a decision maker reaches its process, with or without its
answer coming back, or does not. -/
theorem http_inv {dm req r} (h : ApiRuns go env (Client.http dm req) w es r w') :
    (∃ scan, Sent w w' dm.endpoint ((w.process dm).serve go scan req).2 ∧
      (r = .ok ((w.process dm).serve go scan req).1 ∨ r = .error .unavailable)) ∨
    (Unchanged w w' ∧ r = .error .unavailable) := by
  obtain ⟨-, he⟩ := Prog.Run.call_inv h
  simp only [respond, answer, World.send] at he
  cases hout : (env w.tick).outcome with
  | ok =>
    simp only [hout, Outcome.write, Prod.mk.injEq] at he
    obtain ⟨rfl, rfl⟩ := he
    exact .inl ⟨(env w.tick).scan, ⟨rfl, rfl, rfl⟩, .inl rfl⟩
  | refused =>
    simp only [hout, Outcome.write, Prod.mk.injEq] at he
    obtain ⟨rfl, rfl⟩ := he
    exact .inr ⟨⟨rfl, update_eq_self _ _, rfl⟩, rfl⟩
  | lost =>
    simp only [hout, Outcome.write, Prod.mk.injEq] at he
    obtain ⟨rfl, rfl⟩ := he
    exact .inl ⟨(env w.tick).scan, ⟨rfl, rfl, rfl⟩, .inr rfl⟩

theorem token_inv {dm r} (h : ApiRuns go env (Client.getToken dm) w es r w') : Unchanged w w' := by
  obtain ⟨-, he⟩ := Prog.Run.call_inv h
  simp only [respond, answer, Prod.mk.injEq] at he
  exact he.2 ▸ unchanged_tick w _

/-! ## Calls -/

/-- A call run is its program run. -/
theorem serve_runs {call r} (h : serve go env call w = (r, w')) :
    ∃ es, ApiRuns go env call.program w es r w' := by
  have hr := Prog.run_exec (h := respond go env) call.program.run w
  have he : (Prog.exec (respond go env) call.program.run w).2 = (r, w') := h
  rw [he] at hr
  exact ⟨_, hr⟩

/-- One call of a service. -/
theorem call_inv {call calls r} (h : Runs go env (Svc.call call) w calls r w') :
    calls = [⟨call, r⟩] ∧ ∃ es, ApiRuns go env call.program w es r w' := by
  obtain ⟨hc, he⟩ := Prog.Run.call_inv h
  exact ⟨hc, serve_runs he⟩

end Gthulhu.Manager
