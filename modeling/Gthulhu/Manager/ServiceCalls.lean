/-
The calls that the parts of the services make.

Most parts read, tell decision makers to drop something and ask for the time
(`Call.Harmless`), and so meet every condition on calls that those meet. The
lemmas are stated for any such condition `P` and any `A` that the answers are
known to meet, as in `Makes`.
-/
import Gthulhu.Lib.Pool
import Gthulhu.Manager.Cron

namespace Gthulhu.Manager

open Lib Prog

/-- A call that writes no resource and sends nothing to a decision maker. -/
def Call.Harmless : Call → Prop
  | .queryStrategies _ | .queryIntents _ | .queryNodePolicies _ | .queryNodeIntents _ | .queryPods _
  | .queryDecisionMakerPods _ | .queryNodesBySelectors _ | .queryNodesByDRA _ | .deleteSchedulingIntents _ _
  | .deleteNodeSchedulingIntents _ _ | .now | .mapOrder => True
  | _ => False

/-- A call that sends no scheduling intents and marks none as sent. -/
def Call.Quiet : Call → Prop
  | .sendSchedulingIntent _ _ | .batchUpdateIntentsState _ _ => False
  | _ => True

theorem Call.Harmless.quiet (call : Call) (h : call.Harmless) : call.Quiet := by
  cases call <;> first | exact h.elim | exact trivial

section

variable {A : Event Call.Resp → Prop} {P : Call → Prop} {α β : Type} {K : α → Prop} {K' : β → Prop}

theorem makes_call {call K} (hcall : P call) (h : ∀ a, A ⟨call, .ok a⟩ → K a) :
    Makes A P K (Svc.call call) := by
  refine along_mk.mpr (along_perform.mpr ⟨hcall, fun r hr => ?_⟩)
  cases r with
  | ok a => exact h a hr
  | error e => exact trivial

theorem makes_any {call} (hcall : P call) : Makes A P (fun _ => True) (Svc.call call) :=
  makes_call hcall fun _ _ => trivial

theorem makes_parse {message parsed} (h : ∀ a, parsed = .ok a → K a) :
    Makes A P K (Svc.parse message parsed) := by
  cases parsed with
  | ok a => exact makes_pure (h a rfl)
  | error e => exact makes_throw

/-- A part whose error is looked at. -/
theorem makes_attempt {x : Svc α} {f : Except Error α → Svc β} (hx : Makes A P K x)
    (herror : ∀ e, Makes A P K' (f (.error e))) (hok : ∀ a, K a → Makes A P K' (f (.ok a))) :
    Makes A P K' (attempt x >>= f) := by
  refine Makes.bind hx.attempt fun r hr => ?_
  cases r with
  | ok a => exact hok a (hr a rfl)
  | error e => exact herror e

/-- A part whose error is logged. -/
theorem makes_logged {x : Svc α} (hx : Makes A P K x) : Makes A P (fun _ => True) (do let _ ← attempt x) :=
  Makes.bind hx.attempt fun _ _ => makes_pure trivial

theorem makes_parseIDs {message texts} : Makes A P (fun _ => True) (parseIDs message texts) := by
  induction texts with
  | nil => exact makes_pure trivial
  | cons text texts ih =>
    exact Makes.bind (makes_parse fun _ _ => trivial) fun _ _ => Makes.bind ih fun _ _ => makes_pure trivial

end

/-- One record for each item, each with its own reading of the clock. -/
def stampAll {α β : Type} (make : Int64 → α → β) : List α → Svc (List β)
  | [] => pure []
  | a :: l => do
    let time ← Svc.call .now
    let rest ← stampAll make l
    pure (make time a :: rest)

theorem newScheduleIntents_eq (strategy : ScheduleStrategy) (pods : List Pod) :
    newScheduleIntents strategy pods = stampAll (newScheduleIntent · strategy) pods := by
  induction pods with
  | nil => rfl
  | cons pod pods ih => simp only [newScheduleIntents, stampAll, ih]

theorem newNodeSchedulingIntents_eq (policy : NodeSchedulingPolicy) (nodes : List Node) :
    newNodeSchedulingIntents policy nodes = stampAll (newNodeSchedulingIntent · policy) nodes := by
  induction nodes with
  | nil => rfl
  | cons node nodes ih => simp only [newNodeSchedulingIntents, stampAll, ih]

section

variable {A : Event Call.Resp → Prop} {P : Call → Prop} (hP : ∀ call, call.Harmless → P call)
include hP

theorem makes_harmless {call} (hcall : call.Harmless) : Makes A P (fun _ => True) (Svc.call call) :=
  makes_any (hP call hcall)

theorem makes_keySet {keys} : Makes A P (fun _ => True) (Svc.keySet keys) :=
  Makes.bind (makes_harmless hP trivial) fun _ _ => makes_pure trivial

theorem makes_stampAll {α β : Type} {make : Int64 → α → β} {l : List α} :
    Makes A P (fun made => ∀ b ∈ made, ∃ time, ∃ a ∈ l, b = make time a) (stampAll make l) := by
  induction l with
  | nil => exact makes_pure fun b hb => by cases hb
  | cons a l ih =>
    refine Makes.bind (makes_harmless hP trivial) fun time _ => Makes.bind ih fun rest hrest => makes_pure fun b hb => ?_
    rcases List.mem_cons.mp hb with rfl | hb
    · exact ⟨time, a, List.mem_cons_self, rfl⟩
    · obtain ⟨time', a', ha', heq⟩ := hrest b hb
      exact ⟨time', a', List.mem_cons_of_mem a ha', heq⟩

/-- The intents of a strategy belong to it and to its creator, and are for its pods. -/
theorem makes_newScheduleIntents {strategy pods} :
    Makes A P (fun intents => ∀ i ∈ intents, i.strategyID = strategy.id ∧ i.creatorID = strategy.creatorID ∧
      ∃ pod ∈ pods, i.podID = pod.podID) (newScheduleIntents strategy pods) := by
  rw [newScheduleIntents_eq]
  refine (makes_stampAll hP).imp fun intents h i hi => ?_
  obtain ⟨time, pod, hpod, rfl⟩ := h i hi
  exact ⟨rfl, rfl, pod, hpod, rfl⟩

theorem makes_notifyDelete {nodeIDs podIDs} :
    Makes A P (fun _ => True) (notifyDelete nodeIDs podIDs) := by
  unfold notifyDelete
  refine makes_ite (fun _ => makes_pure trivial) fun _ => ?_
  refine makes_attempt (makes_harmless hP trivial) (fun _ => makes_pure trivial) fun dmPods _ => makes_forM fun dm _ => ?_
  exact makes_logged (makes_harmless hP trivial)

theorem makes_notifyDeleteOf {intents} : Makes A P (fun _ => True) (notifyDeleteOf intents) :=
  Makes.bind (makes_keySet hP) fun _ _ => Makes.bind (makes_keySet hP) fun _ _ => makes_notifyDelete hP

theorem makes_notifyDMsDeleteIntents {nodeIDs podIDs} :
    Makes A P (fun _ => True) (notifyDMsDeleteIntents nodeIDs podIDs) := by
  unfold notifyDMsDeleteIntents
  refine makes_ite (fun _ => makes_pure trivial) fun _ => Makes.bind (makes_keySet hP) fun _ _ => ?_
  refine makes_attempt (makes_harmless hP trivial) (fun _ => makes_pure trivial) fun dmPods _ => makes_forM fun dm _ => ?_
  exact makes_ite (fun _ => makes_pure trivial) fun _ => makes_logged (makes_harmless hP trivial)

theorem makes_notifyDMsDeleteNodeIntents {intents} :
    Makes A P (fun _ => True) (notifyDMsDeleteNodeIntents intents) := by
  unfold notifyDMsDeleteNodeIntents
  refine makes_ite (fun _ => makes_pure trivial) fun _ => ?_
  refine makes_attempt (makes_harmless hP trivial) (fun _ => makes_pure trivial) fun dmPods _ => makes_forM fun dm _ => ?_
  refine makes_ite (fun _ => makes_pure trivial) fun _ => Makes.bind (makes_keySet hP) fun _ _ => ?_
  exact makes_forM fun _ _ => makes_logged (makes_harmless hP trivial)

/-! ## Deletions -/

theorem makes_deleteScheduleStrategy {operator strategyID}
    (h : ∀ id operatorID existing, operator.getBsonObjectUID = .ok operatorID →
      A ⟨.queryStrategies { ids := [id], creatorIDs := [operatorID] }, .ok existing⟩ → existing ≠ [] →
      P (.deleteIntentsByStrategyID id) ∧ P (.deleteStrategy id)) :
    Makes A P (fun _ => True) (deleteScheduleStrategy operator strategyID) := by
  unfold deleteScheduleStrategy
  refine Makes.bind (makes_parse fun _ _ => trivial) fun id _ => Makes.bind (makes_parse fun _ h => h) fun operatorID ho => ?_
  refine Makes.bind (makes_call (hP _ trivial) fun _ h => h) fun existing hq => makes_ite (fun _ => makes_throw) fun hne => ?_
  obtain ⟨hintents, hstrategy⟩ := h id operatorID existing ho hq (by simpa using hne)
  refine Makes.bind (Makes.mapError (makes_harmless hP trivial)) fun intents _ => ?_
  refine Makes.bind (makes_keySet hP) fun _ _ => Makes.bind (makes_keySet hP) fun _ _ => ?_
  refine Makes.bind (Makes.mapError (makes_any hintents)) fun _ _ => ?_
  exact Makes.bind (Makes.mapError (makes_any hstrategy)) fun _ _ => makes_notifyDelete hP

theorem makes_deleteScheduleIntents {operator intentIDs}
    (h : ∀ ids operatorID intents, operator.getBsonObjectUID = .ok operatorID →
      A ⟨.queryIntents { ids := ids, creatorIDs := [operatorID] }, .ok intents⟩ →
      (intents.filter fun intent => ids.contains intent.id).length = ids.length → P (.deleteIntents ids)) :
    Makes A P (fun _ => True) (deleteScheduleIntents operator intentIDs) := by
  unfold deleteScheduleIntents
  refine makes_ite (fun _ => makes_pure trivial) fun _ => Makes.bind (makes_parse fun _ h => h) fun operatorID ho => ?_
  refine Makes.bind makes_parseIDs fun ids _ => Makes.bind (makes_call (hP _ trivial) fun _ h => h) fun intents hq => ?_
  refine makes_ite (fun _ => makes_throw) fun _ => makes_ite (fun _ => makes_throw) fun _ => ?_
  refine makes_ite (fun _ => makes_throw) fun hcount => ?_
  refine Makes.bind (makes_keySet hP) fun _ _ => Makes.bind (makes_keySet hP) fun _ _ => ?_
  exact Makes.bind (Makes.mapError (makes_any (h ids operatorID intents ho hq (not_not.mp hcount)))) fun _ _ =>
    makes_notifyDelete hP

theorem makes_deleteNodeSchedulingPolicy {operator policyID}
    (h : ∀ id, P (.deleteNodeIntentsByPolicyID id) ∧ P (.deleteNodePolicy id)) :
    Makes A P (fun _ => True) (deleteNodeSchedulingPolicy operator policyID) := by
  unfold deleteNodeSchedulingPolicy
  refine Makes.bind (makes_parse fun _ _ => trivial) fun id _ => Makes.bind (makes_parse fun _ _ => trivial) fun _ _ => ?_
  refine Makes.bind (makes_harmless hP trivial) fun existing _ => makes_ite (fun _ => makes_throw) fun _ => ?_
  refine Makes.bind (Makes.mapError (makes_harmless hP trivial)) fun intents _ => ?_
  refine Makes.bind (Makes.mapError (makes_any (h id).1)) fun _ _ => ?_
  exact Makes.bind (Makes.mapError (makes_any (h id).2)) fun _ _ => makes_notifyDMsDeleteNodeIntents hP

theorem makes_deleteNodeSchedulingIntents {operator intentIDs} (h : ∀ ids, P (.deleteNodeIntents ids)) :
    Makes A P (fun _ => True) (deleteNodeSchedulingIntents operator intentIDs) := by
  unfold deleteNodeSchedulingIntents
  refine makes_ite (fun _ => makes_pure trivial) fun _ => Makes.bind (makes_parse fun _ _ => trivial) fun _ _ => ?_
  refine Makes.bind makes_parseIDs fun ids _ => Makes.bind (makes_harmless hP trivial) fun intents _ => ?_
  refine makes_ite (fun _ => makes_throw) fun _ => ?_
  exact Makes.bind (Makes.mapError (makes_any (h ids))) fun _ _ => makes_notifyDMsDeleteNodeIntents hP

end

end Gthulhu.Manager
