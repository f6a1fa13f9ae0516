/-
The times of all that the manager stores, over whole runs.

`TimeFacts` is about the resources of strategies and node policies; here the
PodSchedulingMetrics objects join them, and requests of every kind follow one
another on one clock. No stored record is older than its creation as long as
the two operations that leave the time of the update to their caller are given
one (`stamped_iff`). The REST handlers fill in no time, so what they pass is 0,
and the record of an updated policy or PodSchedulingMetrics object then says it
was last changed before it was made (`updated_unstamped`).
-/
import Gthulhu.Manager.TimeFacts

namespace Gthulhu.Manager

open Lib World Prog OneNode

/-! ## PodSchedulingMetrics objects -/

/-- Every object that can be read is dated. -/
def PSMObjects.Dated (objs : PSMObjects) (now : Int64) : Prop :=
  ∀ obj ∈ objs.objects, ∀ psm, unstructuredToDomainPSM obj = .ok psm → psm.toBaseEntity.Dated now

section

variable {crNamespace : String} {env : Nat → Choice} {objs : PSMObjects} {now : Int64} {obj : Unstructured}

theorem PSMObjects.Dated.create (h : objs.Dated now)
    (hobj : ∀ psm, unstructuredToDomainPSM obj = .ok psm → psm.toBaseEntity.Dated now) : (objs.create obj).2.Dated now := by
  unfold PSMObjects.create
  split
  · intro obj' hobj'
    unfold Objects.create at hobj'
    split at hobj'
    · exact h obj' hobj'
    · rcases List.mem_append.mp hobj' with hold | hnew
      · exact h obj' hold
      · rwa [List.mem_singleton.mp hnew]
  · exact h

theorem PSMObjects.Dated.update (h : objs.Dated now)
    (hobj : ∀ psm, unstructuredToDomainPSM obj = .ok psm → psm.toBaseEntity.Dated now) : (objs.update obj).2.Dated now := by
  intro obj' hobj'
  unfold PSMObjects.update Objects.update at hobj'
  dsimp only at hobj'
  split at hobj'
  · obtain ⟨old, hold, rfl⟩ := List.mem_map.mp hobj'
    split
    · exact hobj
    · exact h old hold
  · exact h obj' hobj'

theorem PSMObjects.Dated.delete {name} (h : objs.Dated now) : (objs.delete name).2.Dated now := by
  intro obj' hobj'
  unfold PSMObjects.delete Objects.delete at hobj'
  dsimp only at hobj'
  split at hobj'
  · exact h obj' (List.mem_of_mem_filter hobj')
  · exact h obj' hobj'

theorem PSMObjects.Dated.mono {n n'} (hclock : Clock env) (h : objs.Dated (env n).now) (hle : n ≤ n') :
    objs.Dated (env n').now :=
  fun obj hobj psm hpsm => (h obj hobj psm hpsm).mono hclock hle

theorem PSMObjects.Dated.holds {name psm} (h : objs.Dated now)
    (hpsm : objs.Holds name psm) : psm.toBaseEntity.Dated now := by
  obtain ⟨obj, hget, hdecode⟩ := hpsm
  exact h obj (Objects.get_eq_ok.mp hget).1 psm hdecode

/-- The times of a new record: the first one shown by the clock is kept. -/
theorem dated_created {psm : PodSchedulingMetrics} {id uid n} (hclock : Clock env) :
    (psm.created id uid (env n).now (env (n + 2)).now).toBaseEntity.Dated (env (n + 4)).now := by
  have hne : (env n).now ≠ 0 := fun heq => Int64.lt_irrefl (heq ▸ hclock.pos n)
  have htime : (psm.created id uid (env n).now (env (n + 2)).now).createdTime = (env n).now := if_neg hne
  refine ⟨?_, ?_, ?_⟩
  · rw [htime]
    exact hclock.pos n
  · rw [htime]
    exact hclock.mono (by omega)
  · rw [htime]
    exact hclock.mono (by omega)

/-- The time the caller gives to an update is not before the creation of the object. -/
def TimelyPSM (objs : PSMObjects) (name : String) (psm : PodSchedulingMetrics) : Prop :=
  ∀ old, objs.Holds name old → old.createdTime ≤ psm.updatedTime

def PSMOp.Timely (objs : PSMObjects) : PSMOp → Prop
  | .update _ name psm => TimelyPSM objs name psm
  | _ => True

/-- **The step.** -/
theorem PSMObjects.Dated.run {s s' : PSMObjects × Nat} {es r} {op : PSMOp} (hclock : Clock env)
    (hs : s.1.Dated (env s.2).now) (htimely : op.Timely s.1)
    (h : PSMRuns env (op.program crNamespace) s es r s') :
    s'.1.Dated (env s'.2).now := by
  have hnow : s.1.Dated (env s'.2).now := hs.mono hclock (Serial.handler_le h)
  have hsame : s'.1 = s.1 → s'.1.Dated (env s'.2).now := fun heq => heq ▸ hnow
  cases op with
  | create operator psm =>
    rcases create_run h with heq | ⟨id, uid, heq, htick⟩
    · exact hsame heq
    rw [heq]
    refine hnow.create fun psm' hpsm' => ?_
    cases hpsm'.symm.trans (psm_roundTrip _ _)
    rw [htick]
    exact dated_created hclock
  | list ids => exact hsame (list_run h)
  | update operator name psm =>
    rcases update_run h with ⟨heq, -⟩ | ⟨id, uid, old, -, -, hold, heq⟩
    · exact hsame heq
    rw [heq]
    refine hnow.update fun psm' hpsm' => ?_
    cases hpsm'.symm.trans (psm_roundTrip _ _)
    have hdated := hnow.holds hold
    exact ⟨hdated.pos, htimely old hold, hdated.past⟩
  | delete operator name =>
    rcases delete_run h with heq | heq
    · exact hsame heq
    · rw [heq]
      exact hnow.delete

end

/-! ## Requests -/

/-- All that is stored is dated by now. -/
structure ManagerState.Dated (env : Nat → Choice) (s : ManagerState) : Prop where
  world : s.world.Dated env s.world.tick
  metrics : s.metrics.Dated (env s.world.tick).now

/-- No stored record is older than its creation. -/
structure ManagerState.Stamped (s : ManagerState) : Prop where
  world : ∀ k, ∀ o ∈ (s.world.store k).objects, 0 < (k.base o).createdTime ∧ (k.base o).createdTime ≤ (k.base o).updatedTime
  metrics : ∀ name psm, s.metrics.Holds name psm → 0 < psm.createdTime ∧ psm.createdTime ≤ psm.updatedTime

/-- A request that leaves the time of an update to the caller is given one that is not before the creation. -/
def Timely (s : ManagerState) : ManagerRequest → Prop
  | .op (.updateNodeSchedulingPolicy _ policyID policy) => TimelyPolicy s.world policyID policy
  | .metrics op => op.Timely s.metrics
  | _ => True

section

variable {go : SliceSort} {crNamespace : String} {env : Nat → Choice} {s : ManagerState} {req : ManagerRequest}

theorem ManagerState.Dated.stamped (h : s.Dated env) : s.Stamped where
  world := fun k o ho => ⟨(h.world.stored k o ho).pos, (h.world.stored k o ho).updated⟩
  metrics := fun _ _ hholds => ⟨(h.metrics.holds hholds).pos, (h.metrics.holds hholds).updated⟩

theorem dated_discard {α : Type} {n : Nat} {x : Svc α} (h : DatedSvc go env n x fun _ _ => True) :
    DatedSvc go env n (do let _ ← x) fun _ _ => True :=
  Spec.bind h fun _ _ _ _ => Spec.pure trivial

/-- **The step** for the operations on strategies and node policies. -/
theorem dated_op {op : ManagerOp} {n : Nat} (hclock : Clock env)
    (hop : ∀ operator policyID policy, op ≠ .updateNodeSchedulingPolicy operator policyID policy) :
    DatedSvc go env n (op.program go) fun _ _ => True := by
  cases op with
  | createScheduleStrategy operator strategy => exact dated_discard (dated_createScheduleStrategy hclock)
  | updateScheduleStrategy operator strategyID strategy => exact dated_updateScheduleStrategy hclock
  | deleteScheduleStrategy operator strategyID =>
    exact dated_noInsert hclock (makes_deleteScheduleStrategy Call.Harmless.noInsert fun _ _ _ _ _ _ => ⟨trivial, trivial⟩)
  | deleteScheduleIntents operator intentIDs =>
    exact dated_noInsert hclock (makes_deleteScheduleIntents Call.Harmless.noInsert fun _ _ _ _ _ _ => trivial)
  | createNodeSchedulingPolicy operator policy => exact dated_discard (dated_createNodeSchedulingPolicy hclock)
  | updateNodeSchedulingPolicy operator policyID policy => exact absurd rfl (hop operator policyID policy)
  | deleteNodeSchedulingPolicy operator policyID =>
    exact dated_noInsert hclock (makes_deleteNodeSchedulingPolicy Call.Harmless.noInsert fun _ => ⟨trivial, trivial⟩)
  | deleteNodeSchedulingIntents operator intentIDs =>
    exact dated_noInsert hclock (makes_deleteNodeSchedulingIntents Call.Harmless.noInsert fun _ => trivial)
  | reconcileIntents => exact dated_reconcileIntents hclock

/-- **The step** of the manager. -/
theorem ManagerState.Dated.serve (hclock : Clock env) (h : s.Dated env) (htimely : Timely s req) :
    (s.serve go crNamespace env req).2.Dated env := by
  cases req with
  | op op =>
    have hrun : Runs go env (op.program go) s.world _ _ _ := Prog.run_exec _ s.world
    obtain ⟨n, hle, hdated⟩ : ∃ n, s.world.tick ≤ n ∧ (s.serve go crNamespace env (.op op)).2.world.Dated env n := by
      by_cases hop : ∃ operator policyID policy, op = .updateNodeSchedulingPolicy operator policyID policy
      · obtain ⟨operator, policyID, policy, rfl⟩ := hop
        exact updateNodeSchedulingPolicy_dated hclock h.world htimely hrun
      · refine h.world.run (Nat.le_refl _) hrun (dated_op hclock fun operator policyID policy heq => ?_)
        exact hop ⟨operator, policyID, policy, heq⟩
    exact ⟨hdated.mono hclock hdated.reached (Nat.le_refl _),
      h.metrics.mono hclock (Nat.le_trans hle hdated.reached)⟩
  | metrics op =>
    have hrun := Prog.run_exec (h := Serial.handler PSMObjects.answer env) (op.program crNamespace).run (s.metrics, s.world.tick)
    refine ⟨⟨fun k o ho => (h.world.stored k o ho).mono hclock (Serial.handler_le hrun), Nat.le_refl _⟩, ?_⟩
    exact PSMObjects.Dated.run (s := (s.metrics, s.world.tick)) hclock h.metrics htimely hrun
  | elsewhere processes cluster => exact ⟨⟨h.world.stored, Nat.le_refl _⟩, h.metrics⟩

/-- A successful request stores what it was given. -/
theorem timely_of_stamped (hok : (s.serve go crNamespace env req).1 = .ok ())
    (hstamped : (s.serve go crNamespace env req).2.Stamped) : Timely s req := by
  cases req with
  | op op =>
    cases op with
    | updateNodeSchedulingPolicy operator policyID policy =>
      have hrun := Prog.run_exec (h := Manager.serve go env)
        (updateNodeSchedulingPolicy go operator policyID policy).run s.world
      have hr : (Prog.exec (Manager.serve go env) (updateNodeSchedulingPolicy go operator policyID policy).run s.world).2.1 =
        .ok () := hok
      rw [hr] at hrun
      obtain ⟨current, hcurrent, hid, stored, hstored, hcreated, hupdated⟩ := updateNodeSchedulingPolicy_stores hrun
      intro current' hcurrent' hid'
      have hsame : current'.id = current.id := Except.ok.inj (hid'.symm.trans hid)
      cases List.inj_on_of_nodup_map (s.world.store .nodePolicy).nodup hcurrent' hcurrent hsame
      have hle := (hstamped.world .nodePolicy stored hstored).2
      rw [← hcreated, ← hupdated]
      exact hle
    | _ => trivial
  | metrics op =>
    cases op with
    | update operator name psm =>
      have hrun := Prog.run_exec (h := Serial.handler PSMObjects.answer env)
        (PSM.updatePodSchedulingMetrics crNamespace operator name psm).run (s.metrics, s.world.tick)
      intro old hold
      rcases update_run hrun with ⟨-, err, herr⟩ | ⟨id, uid, old', hid, -, hold', heq⟩
      · cases herr.symm.trans hok
      · cases hold.unique hold'
        have hheld : (s.serve go crNamespace env (.metrics (.update operator name psm))).2.metrics.Holds name
            (psm.updated old id uid) := by
          rw [show (s.serve go crNamespace env (.metrics (.update operator name psm))).2.metrics = _ from heq]
          exact holds_updated hid hold
        exact (hstamped.metrics name _ hheld).2
    | _ => trivial
  | elsewhere processes cluster => trivial

end

/-- **Stored records are never older than their creation** in runs whose updates
are given a time, and a successful update keeps it so exactly if it is given one. -/
theorem stamped_iff (go : SliceSort) (crNamespace : String) (env : Nat → Choice) (s₀ s : ManagerState)
    (reqs : List ManagerRequest) (hclock : Clock env) (hdated : s₀.Dated env)
    (hrun : (ManagerState.machine go crNamespace env).exec s₀ reqs = some s)
    (hguard : (ManagerState.machine go crNamespace env).Guarded Timely s₀ reqs) :
    s.Stamped ∧ ∀ req, (s.serve go crNamespace env req).1 = .ok () →
      ((s.serve go crNamespace env req).2.Stamped ↔ Timely s req) := by
  have hdated : s.Dated env := by
    refine Machine.invariantWhere (I := ManagerState.Dated env) ?_ hrun hguard hdated
    intro s₁ req s₂ hs₁ htimely hstep
    cases hstep
    exact hs₁.serve hclock htimely
  refine ⟨hdated.stamped, fun req hok => ⟨fun hstamped => timely_of_stamped hok hstamped, fun htimely => ?_⟩⟩
  exact (hdated.serve hclock htimely).stamped

/-- The answers to the requests. -/
def ManagerState.results (go : SliceSort) (crNamespace : String) (env : Nat → Choice) (s : ManagerState) :
    List ManagerRequest → List (Except Error Unit)
  | [] => []
  | req :: reqs => (s.serve go crNamespace env req).1 :: results go crNamespace env (s.serve go crNamespace env req).2 reqs

/-- When the node policies and the PodSchedulingMetrics objects were created and last updated. -/
def ManagerState.times (s : ManagerState) : List (Int64 × Int64) × List (Int64 × Int64) :=
  ((s.world.store .nodePolicy).objects.map fun policy : NodeSchedulingPolicy => (policy.createdTime, policy.updatedTime),
    s.metrics.objects.filterMap fun obj =>
      (unstructuredToDomainPSM obj).toOption.map fun psm => (psm.createdTime, psm.updatedTime))

/-- A node and nothing stored, at time 5. -/
def AtFive.env (_ : Nat) : Choice := { newID := objectID 3, now := 5 }

def AtFive.start : ManagerState where
  world := { store := fun k => .empty k, processes := fun _ => .fresh, cluster := cluster [] [⟨"a"⟩] }
  metrics := .empty

def AtFive.creations : List ManagerRequest := [
  .op (.createNodeSchedulingPolicy operator (TwoNodes.policy 0)),
  .metrics (.create operator (TwoOperators.psm "a"))]

/-- What is created is updated, with this time in the record. -/
def AtFive.updates (time : Int64) : List ManagerRequest := [
  .op (.updateNodeSchedulingPolicy operator (objectID 3).hex { TwoNodes.policy 0 with updatedTime := time }),
  .metrics (.update operator (objectID 3).hex { TwoOperators.psm "b" with updatedTime := time })]

theorem AtFive.clock : Clock AtFive.env where
  pos := fun _ => show (0 : Int64) < 5 by decide
  mono := fun _ => Int64.le_refl _

theorem AtFive.start_dated : AtFive.start.Dated AtFive.env where
  world := ⟨fun _ _ ho => absurd ho List.not_mem_nil, Nat.le_refl _⟩
  metrics := fun _ hobj => absurd hobj List.not_mem_nil

theorem stamped_iff_creations :
    ∃ s, (ManagerState.machine .insertion "gthulhu" AtFive.env).exec AtFive.start AtFive.creations = some s ∧ s.Stamped ∧
      ∀ req ∈ AtFive.updates 6, (s.serve .insertion "gthulhu" AtFive.env req).1 = .ok () ∧
        ((s.serve .insertion "gthulhu" AtFive.env req).2.Stamped ↔ Timely s req) := by
  refine Machine.exists_exec_of (fun s => ∀ req ∈ AtFive.updates 6, (s.serve .insertion "gthulhu" AtFive.env req).1 = .ok ())
    (by decide +kernel) fun s hrun hok => ?_
  have hguard : (ManagerState.machine .insertion "gthulhu" AtFive.env).Guarded Timely AtFive.start AtFive.creations :=
    ⟨trivial, fun _ _ => ⟨trivial, fun _ _ => trivial⟩⟩
  obtain ⟨hstamped, hiff⟩ := stamped_iff .insertion "gthulhu" AtFive.env _ s _ AtFive.clock AtFive.start_dated hrun hguard
  exact ⟨hstamped, fun req hreq => ⟨hok req hreq, hiff req (hok req hreq)⟩⟩

/-- **Updated at 0**: all that is asked for succeeds, on a clock that stands at 5. -/
theorem updated_unstamped :
    Clock AtFive.env ∧ AtFive.start.Dated AtFive.env ∧
      AtFive.start.results .insertion "gthulhu" AtFive.env (AtFive.creations ++ AtFive.updates 0) =
        [.ok (), .ok (), .ok (), .ok ()] ∧
      ∃ s, (ManagerState.machine .insertion "gthulhu" AtFive.env).exec AtFive.start
        (AtFive.creations ++ AtFive.updates 0) = some s ∧ s.times = ([(5, 0)], [(5, 0)]) :=
  ⟨AtFive.clock, AtFive.start_dated, by decide +kernel, Machine.exists_exec (by decide +kernel)⟩

end Gthulhu.Manager
