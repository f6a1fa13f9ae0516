/-
What the services write of strategies and intents.

A service looks a strategy or an intent up, by its creator where an operator
asks, and what it writes after that is about what it has found. `Scope` is
what can be found, `Scope.Allows` the writes that stay with it, and the
services make no others (`permits_*`), whatever the API server answers and
whichever of its requests fail. What such a write can do to the store is said
once, in `Change` (`serve_change`).
-/
import Gthulhu.Lib.Pool
import Gthulhu.Manager.DeleteFacts
import Gthulhu.Manager.ExactDeliveryFacts

namespace Gthulhu.Manager

open Lib World Prog List

/-! ## What the services write -/

/-- The strategies and intents that queries can find, the IDs that inserted
intents can get, and whether strategies may be deleted. -/
structure Scope where
  strategy : ScheduleStrategy → Prop
  intent : ScheduleIntent → Prop
  inserted : ObjectID → Prop
  deleting : Prop

namespace Scope

/-- What is found is in scope and matches; a query by IDs that finds as many as
it was given has found each of them. -/
def Answers (c : Scope) : Event Call.Resp → Prop
  | ⟨.queryStrategies opt, r⟩ => ∀ l, r = .ok l → ∀ s ∈ l,
    c.strategy s ∧ (opt.ids = [] ∨ s.id ∈ opt.ids) ∧ Repo.matchesStrategyFilter opt s = true
  | ⟨.queryIntents opt, r⟩ => ∀ l, r = .ok l →
    (∀ i ∈ l, c.intent i ∧ (opt.ids = [] ∨ i.id ∈ opt.ids) ∧ Repo.matchesIntentFilter opt i = true) ∧
      (opt.ids ≠ [] → l.length = opt.ids.length → ∀ id ∈ opt.ids, ∃ i ∈ l, i.id = id)
  | ⟨.insertIntents _, r⟩ => ∀ l, r = .ok l → ∀ i ∈ l, c.inserted i.id
  | _ => True

/-- `id` is the ID of a strategy in scope whose creator is in `own`. -/
def OwnStrategy (c : Scope) (own : ObjectID → Prop) (id : ObjectID) : Prop :=
  ∃ s, c.strategy s ∧ own s.creatorID ∧ s.id = id

def OwnIntent (c : Scope) (own : ObjectID → Prop) (id : ObjectID) : Prop :=
  ∃ i, c.intent i ∧ own i.creatorID ∧ i.id = id

/-- `id` and `creatorID` are those of a strategy in scope, and the creator is in `own`. -/
def Owner (c : Scope) (own : ObjectID → Prop) (id creatorID : ObjectID) : Prop :=
  ∃ s, c.strategy s ∧ own s.creatorID ∧ s.id = id ∧ s.creatorID = creatorID

/-- The calls that write nothing but what is in scope and in `own`. -/
def Allows (c : Scope) (own : ObjectID → Prop) : Call → Prop
  | .insertIntents intents => ∀ i ∈ intents, c.Owner own i.strategyID i.creatorID
  | .batchUpdateIntentsState ids _ => ∀ id ∈ ids, c.inserted id ∨ c.OwnIntent own id
  | .updateStrategy strategy => c.Owner own strategy.id strategy.creatorID
  | .deleteStrategy id => c.deleting ∧ c.OwnStrategy own id
  | .deleteIntents ids => ∀ id ∈ ids, c.OwnIntent own id
  | .deleteIntentsByStrategyID id => c.OwnStrategy own id
  | .insertStrategyAndIntents _ _ | .insertNodePolicyAndIntents _ _ | .insertNodeIntents _
  | .batchUpdateNodeIntentsState _ _ | .updateNodePolicy _ | .deleteNodePolicy _ | .deleteNodeIntents _
  | .deleteNodeIntentsByPolicyID _ => False
  | _ => True

/-- What the services' calls are, in scope `c`. -/
abbrev Permits (c : Scope) (own : ObjectID → Prop) {α : Type} (K : α → Prop) (x : Svc α) : Prop :=
  Makes c.Answers (c.Allows own) K x

end Scope

section

variable {c : Scope} {own : ObjectID → Prop} {α : Type} {K : α → Prop}

open Scope

theorem Call.Harmless.allowed (call : Call) (h : call.Harmless) : c.Allows own call := by
  cases call <;> first | exact h.elim | exact trivial

/-! ## The services -/

/-- Looked up by its ID and by its creator. -/
theorem lookup_found {id operatorID l}
    (h : c.Answers ⟨.queryStrategies { ids := [id], creatorIDs := [operatorID] }, .ok l⟩) {s}
    (hs : s ∈ l) : c.strategy s ∧ s.id = id ∧ s.creatorID = operatorID := by
  obtain ⟨hscope, hid, hmatch⟩ := h l rfl s hs
  simp [Repo.matchesStrategyFilter, Repo.admits] at hid hmatch
  exact ⟨hscope, hid, hmatch⟩

theorem permits_updateScheduleStrategy {go operator strategyID strategy}
    (hown : ∀ id, operator.getBsonObjectUID = .ok id → own id) :
    c.Permits own (fun _ => True) (updateScheduleStrategy go operator strategyID strategy) := by
  unfold updateScheduleStrategy
  refine Makes.bind (makes_parse fun _ _ => trivial) fun id _ => ?_
  refine Makes.bind (makes_parse fun _ h => h) fun operatorID hoperator => ?_
  refine Makes.bind (makes_call trivial fun _ h => h) fun existing hexisting => ?_
  cases existing with
  | nil => exact makes_throw
  | cons current rest =>
    obtain ⟨hscope, hid, hcreator⟩ := lookup_found hexisting mem_cons_self
    have hown' : own current.creatorID := hcreator ▸ hown operatorID hoperator
    refine Makes.bind (makes_any trivial) fun pods _ => makes_ite (fun _ => makes_throw) fun _ => ?_
    refine Makes.bind (Makes.mapError (makes_any trivial)) fun oldIntents _ => Makes.bind (makes_any trivial) fun time _ => ?_
    refine Makes.bind (Makes.mapError (makes_any ⟨current, hscope, hown', hid, rfl⟩)) fun _ _ => ?_
    refine Makes.bind (Makes.mapError (makes_any ⟨current, hscope, hown', hid⟩)) fun _ _ => ?_
    refine Makes.bind (makes_newScheduleIntents Call.Harmless.allowed) fun intents hintents => ?_
    refine Makes.bind (Makes.mapError (makes_call (K := fun l => ∀ i ∈ l, c.inserted i.id) (fun i hi => ?_)
      fun l hl => hl l rfl)) fun inserted hinserted => ?_
    · obtain ⟨hstrategy, hi, -⟩ := hintents i hi
      exact ⟨current, hscope, hown', hid.trans hstrategy.symm, hi.symm⟩
    · refine Makes.bind (makes_notifyDeleteOf Call.Harmless.allowed) fun _ _ => ?_
      refine Makes.bind (makes_any trivial) fun dms _ => makes_ite (fun _ => makes_pure trivial) fun _ => ?_
      refine makes_deliver trivial (fun _ _ => makes_any trivial) fun ids hids => makes_any fun id hid => .inl ?_
      obtain ⟨i, hi, rfl⟩ := hids id hid
      exact hinserted i hi

theorem permits_deleteScheduleStrategy {operator strategyID} (hdeleting : c.deleting)
    (hown : ∀ id, operator.getBsonObjectUID = .ok id → own id) :
    c.Permits own (fun _ => True) (deleteScheduleStrategy operator strategyID) := by
  refine makes_deleteScheduleStrategy Call.Harmless.allowed fun id operatorID existing hoperator hexisting hne => ?_
  obtain ⟨current, hcurrent⟩ := exists_mem_of_ne_nil existing hne
  obtain ⟨hscope, hid, hcreator⟩ := lookup_found hexisting hcurrent
  have hfound : c.OwnStrategy own id := ⟨current, hscope, hcreator ▸ hown operatorID hoperator, hid⟩
  exact ⟨hfound, hdeleting, hfound⟩

theorem permits_deleteScheduleIntents {operator intentIDs} (hown : ∀ id, operator.getBsonObjectUID = .ok id → own id) :
    c.Permits own (fun _ => True) (deleteScheduleIntents operator intentIDs) := by
  refine makes_deleteScheduleIntents Call.Harmless.allowed fun ids operatorID intents hoperator hintents hcount id hid => ?_
  obtain ⟨hfound, hall⟩ := hintents intents rfl
  -- All that were asked for have been found, and what is found is the caller's.
  have hids : ids ≠ [] := ne_nil_of_mem hid
  have hlength : intents.length = ids.length := by
    rwa [filter_eq_self.mpr fun i hi => ?_] at hcount
    simpa using (hfound i hi).2.1.resolve_left hids
  obtain ⟨i, hi, rfl⟩ := hall hids hlength id hid
  obtain ⟨hscope, -, hmatch⟩ := hfound i hi
  simp [Repo.matchesIntentFilter, Repo.admits] at hmatch
  exact ⟨i, hscope, hmatch ▸ hown operatorID hoperator, rfl⟩

/-- The reconciliation looks everything up, whoever it belongs to. -/
theorem permits_refreshStaleIntents (hown : ∀ id, own id) : c.Permits own (fun _ => True) refreshStaleIntents := by
  unfold refreshStaleIntents
  refine Makes.bind (Makes.mapError (makes_call (K := fun l => ∀ s ∈ l, c.strategy s) trivial
    fun l hl s hs => (hl l rfl s hs).1)) fun strategies hstrategies => makes_forM fun s hs => ?_
  unfold refreshStrategy
  refine makes_attempt (makes_any trivial) (fun _ => makes_pure trivial) fun pods _ => ?_
  refine makes_attempt (makes_call (K := fun l => ∀ i ∈ l, c.intent i) trivial
    fun l hl i hi => ((hl l rfl).1 i hi).1) (fun _ => makes_pure trivial) fun intents hintents => ?_
  have hadd : ∀ pods, c.Permits own (fun _ => True) (addIntents s pods) := by
    intro pods
    refine Makes.bind (makes_newScheduleIntents Call.Harmless.allowed) fun new hnew =>
      makes_ite (fun _ => ?_) fun _ => makes_pure trivial
    refine makes_logged (makes_any fun i hi => ?_)
    exact ⟨s, hstrategies s hs, hown _, (hnew i hi).1.symm, (hnew i hi).2.1.symm⟩
  refine makes_ite (fun _ => ?_) fun _ => hadd _
  refine Makes.bind (Makes.attempt (makes_any fun id hid => ?_)) fun _ _ =>
    Makes.bind (makes_notifyDMsDeleteIntents Call.Harmless.allowed) fun _ _ => hadd _
  obtain ⟨i, hi, rfl⟩ := mem_map.mp hid
  exact ⟨i, hintents i (mem_of_mem_filter hi), hown _, rfl⟩

theorem permits_resyncIntentsToDMs {go} (hown : ∀ id, own id) :
    c.Permits own (fun _ => True) (resyncIntentsToDMs go) := by
  unfold resyncIntentsToDMs
  refine Makes.bind (makes_any trivial) fun dms _ => makes_ite (fun _ => makes_pure trivial) fun _ => ?_
  refine Makes.bind (makes_call (K := fun l => ∀ i ∈ l, c.intent i) trivial
    fun l hl i hi => ((hl l rfl).1 i hi).1) fun intents hintents => ?_
  refine makes_resyncDMs (fun _ => makes_any trivial) (fun _ => makes_any trivial) (fun _ _ => makes_any trivial)
    fun ids hids => makes_any fun id hid => .inr ?_
  obtain ⟨i, hi, rfl⟩ := hids id hid
  exact ⟨i, hintents i hi, hown _, rfl⟩

end

/-! ## Calls that leave the store alone -/

/-- A call that writes no resource. -/
def Call.KeepsStore : Call → Prop
  | .insertStrategyAndIntents _ _ | .insertIntents _ | .batchUpdateIntentsState _ _ | .updateStrategy _
  | .deleteStrategy _ | .deleteIntents _ | .deleteIntentsByStrategyID _ | .insertNodePolicyAndIntents _ _
  | .insertNodeIntents _ | .batchUpdateNodeIntentsState _ _ | .updateNodePolicy _ | .deleteNodePolicy _
  | .deleteNodeIntents _ | .deleteNodeIntentsByPolicyID _ => False
  | _ => True

theorem serve_store {go env w w' call r} (hc : call.KeepsStore)
    (h : serve go env call w = (r, w')) : w'.store = w.store := by
  obtain ⟨_, hp⟩ := serve_runs h
  have hone : ∀ {dm : DecisionMakerPod} {req failure} {r : Except Error Unit} {es},
      ApiRuns go env (Client.getToken dm >>= fun _ => Client.requestOK dm req failure) w es r w' → w'.store = w.store := by
    intro dm req failure r es hp
    obtain ⟨_, hs, -⟩ := request_effect (fun _ _ => True) (fun _ => .inl trivial) hp
    exact hs.store
  cases call with
  | queryStrategies opt => exact (query_unchanged hp).store
  | queryIntents opt => exact (query_unchanged hp).store
  | queryNodePolicies opt => exact (query_unchanged hp).store
  | queryNodeIntents opt => exact (query_unchanged hp).store
  | queryPods opt => exact (queryPods_inv hp).1.store
  | queryDecisionMakerPods opt => exact (queryDecisionMakerPods_inv hp).1.store
  | queryNodesBySelectors opt => exact (queryNodesBySelectors_inv hp).1.store
  | queryNodesByDRA selectors => exact (queryNodesByDRA_inv hp).1.store
  | sendSchedulingIntent dm intents => exact hone hp
  | getIntentMerkleRoot dm =>
    obtain ⟨_, hs, -⟩ := getIntentMerkleRoot_inv hp
    exact hs.store
  | deleteSchedulingIntents dm req =>
    obtain ⟨podIDs, _ | _⟩ := req
    · obtain ⟨_, hs, -⟩ := deleteSchedulingIntents_inv hp
      exact hs.store
    · exact hone hp
  | sendNodeSchedulingPolicies dm intents => exact hone hp
  | getNodePolicyMerkleRoot dm => exact (getNodePolicyMerkleRoot_inv hp).1.store
  | deleteNodeSchedulingIntents dm req => exact hone hp
  | now => exact (now_inv hp).1.store
  | mapOrder =>
    obtain ⟨order, -, hcall⟩ := Run.lift_inv hp
    exact (Prod.mk.inj (Run.call_inv hcall).2).2 ▸ rfl
  | _ => exact hc.elim

/-! ## What an allowed call does to the store -/

/-- The intents that a call may mark. -/
def Scope.Touches (c : Scope) (own : ObjectID → Prop) (id : ObjectID) : Prop := c.inserted id ∨ c.OwnIntent own id

structure Change (c : Scope) (own : ObjectID → Prop) (w w' : World) : Prop where
  strategy_from : ∀ s ∈ w'.strategies, s ∈ w.strategies ∨ c.Owner own s.id s.creatorID
  strategy_kept : ∀ s ∈ w.strategies, s ∈ w'.strategies ∨ c.OwnStrategy own s.id
  replaced : ¬c.deleting → ∀ s ∈ w.strategies, s ∈ w'.strategies ∨
    ∃ s' ∈ w'.strategies, s'.id = s.id ∧ c.Owner own s'.id s'.creatorID
  intent_from : ∀ i ∈ w'.intents, i ∈ w.intents ∨ c.Owner own i.strategyID i.creatorID ∨
    (c.Touches own i.id ∧ ∃ j ∈ w.intents, j.id = i.id ∧ j.strategyID = i.strategyID ∧ j.creatorID = i.creatorID)
  intent_kept : ∀ i ∈ w.intents, i ∈ w'.intents ∨ c.OwnStrategy own i.strategyID ∨ c.Touches own i.id

namespace Change

variable {c : Scope} {own : ObjectID → Prop} {w w' : World}

theorem of_store (h : w'.store = w.store) : Change c own w w' := by
  have hs : w'.strategies = w.strategies := by rw [World.strategies, World.strategies, h]
  have hi : w'.intents = w.intents := by rw [World.intents, World.intents, h]
  exact ⟨fun s hm => .inl (hs ▸ hm), fun s hm => .inl (hs ▸ hm), fun _ s hm => .inl (hs ▸ hm),
    fun i hm => .inl (hi ▸ hm), fun i hm => .inl (hi ▸ hm)⟩

/-- A write of intents. -/
theorem of_intents {os} (h : Stored w w' .intent os)
    (hfrom : ∀ i ∈ os, i ∈ w.intents ∨ c.Owner own i.strategyID i.creatorID ∨
      (c.Touches own i.id ∧ ∃ j ∈ w.intents, j.id = i.id ∧ j.strategyID = i.strategyID ∧ j.creatorID = i.creatorID))
    (hkept : ∀ i ∈ w.intents, i ∈ os ∨ c.OwnStrategy own i.strategyID ∨ c.Touches own i.id) : Change c own w w' := by
  have hs : w'.strategies = w.strategies := by rw [World.strategies, World.strategies, h.others _ (by decide)]
  have hi : w'.intents = os := h.objects
  exact ⟨fun s hm => .inl (hs ▸ hm), fun s hm => .inl (hs ▸ hm), fun _ s hm => .inl (hs ▸ hm), hi ▸ hfrom, hi ▸ hkept⟩

/-- A write of strategies. -/
theorem of_strategies {os} (h : Stored w w' .strategy os)
    (hfrom : ∀ s ∈ os, s ∈ w.strategies ∨ c.Owner own s.id s.creatorID)
    (hkept : ∀ s ∈ w.strategies, s ∈ os ∨ c.OwnStrategy own s.id)
    (hreplaced : ¬c.deleting → ∀ s ∈ w.strategies, s ∈ os ∨ ∃ s' ∈ os, s'.id = s.id ∧ c.Owner own s'.id s'.creatorID) :
    Change c own w w' := by
  have hi : w'.intents = w.intents := by rw [World.intents, World.intents, h.others _ (by decide)]
  have hs : w'.strategies = os := h.objects
  exact ⟨hs ▸ hfrom, hs ▸ hkept, hs ▸ hreplaced, fun i hm => .inl (hi ▸ hm), fun i hm => .inl (hi ▸ hm)⟩

end Change

section

variable {c : Scope} {own : ObjectID → Prop} {go : SliceSort} {env : Nat → Choice} {w w' : World}
  {es : List (Event ApiCall.Resp)}

/-- What an inserted intent belongs to. -/
def ScheduleIntent.belongs (intent : ScheduleIntent) : ObjectID × ObjectID := (intent.strategyID, intent.creatorID)

theorem insertIntents_change {intents r} (ha : c.Allows own (.insertIntents intents))
    (h : ApiRuns go env (Repo.insertIntents intents) w es r w') :
    Change c own w w' := by
  obtain ⟨added, hs, hadded, -⟩ := insertAll_inv ScheduleIntent.belongs
    (fun (o : ScheduleIntent) _ hb => congrArg (Prod.mk o.strategyID) hb.creatorID) h
  refine .of_intents hs (fun i hi => ?_) fun i hi => .inl (mem_append_left _ hi)
  rcases mem_append.mp hi with hi | hi
  · exact .inl hi
  · obtain ⟨i0, hi0, hbelongs⟩ := mem_map.mp (hadded i hi)
    obtain ⟨hstrategy, hcreator⟩ := Prod.mk.inj hbelongs
    exact .inr (.inl (hstrategy ▸ hcreator ▸ ha i0 hi0))

theorem updateStrategy_change {strategy r} (ha : c.Allows own (.updateStrategy strategy))
    (h : ApiRuns go env (Repo.updateStrategy strategy) w es r w') :
    Change c own w w' := by
  obtain ⟨os, hs, -, hor⟩ := updateOwner_inv h
  have hown : c.OwnStrategy own strategy.id := by
    obtain ⟨s, hscope, howns, hid, -⟩ := ha
    exact ⟨s, hscope, howns, hid⟩
  have hreplaced : ∀ s ∈ w.strategies, s ∈ os ∨ (strategy ∈ os ∧ strategy.id = s.id) := by
    intro s hmem
    rcases hor with rfl | rfl
    · exact .inl hmem
    · by_cases hid : s.id = strategy.id
      · exact .inr ⟨mem_map.mpr ⟨s, hmem, if_pos hid⟩, hid.symm⟩
      · exact .inl (mem_map.mpr ⟨s, hmem, if_neg hid⟩)
  refine .of_strategies hs (fun s hmem => ?_) (fun s hmem => ?_) fun _ s hmem => ?_
  · rcases hor with rfl | rfl
    · exact .inl hmem
    · obtain ⟨_, hs', rfl⟩ := mem_map.mp hmem
      split
      · exact .inr ha
      · exact .inl hs'
  · rcases hreplaced s hmem with hkept | ⟨-, hid⟩
    · exact .inl hkept
    · exact .inr (hid ▸ hown)
  · rcases hreplaced s hmem with hkept | ⟨hnew, hid⟩
    · exact .inl hkept
    · exact .inr ⟨strategy, hnew, hid, ha⟩

theorem deleteStrategy_change {id r} (ha : c.Allows own (.deleteStrategy id))
    (h : ApiRuns go env (Repo.deleteStrategy id) w es r w') : Change c own w w' := by
  obtain ⟨os, hs, hsub, hkeep⟩ := deleteOwner_inv h
  refine .of_strategies hs (fun s hmem => .inl (hsub s hmem)) (fun s hmem => ?_) fun hnot => (hnot ha.1).elim
  by_cases hid : s.id = id
  · exact .inr (hid ▸ ha.2)
  · exact .inl (hkeep s hmem hid)

theorem deleteIntents_change {ids r} (ha : c.Allows own (.deleteIntents ids))
    (h : ApiRuns go env (Repo.deleteIntents ids) w es r w') : Change c own w w' := by
  obtain ⟨os, hs, hsub, hkeep⟩ := deleteIDs_inv h
  refine .of_intents hs (fun i hi => .inl (hsub i hi)) fun i hi => ?_
  by_cases hid : i.id ∈ ids
  · exact .inr (.inr (.inr (ha i.id hid)))
  · exact .inl (hkeep i hi hid)

theorem deleteIntentsByStrategyID_change {id r} (ha : c.Allows own (.deleteIntentsByStrategyID id))
    (h : ApiRuns go env (Repo.deleteIntentsByStrategyID id) w es r w') : Change c own w w' := by
  obtain ⟨os, hs, hsub, hkeep⟩ := deleteByLabel_inv h
  refine .of_intents hs (fun i hi => .inl (hsub i hi)) fun i hi => ?_
  by_cases hid : i.strategyID = id
  · exact .inr (.inl (hid ▸ ha))
  · refine .inl (hkeep i hi fun hlabel => hid ?_)
    simpa [Kind.labels, labelStrategyID, labelCreatorID, labelState, ObjectID.hex_injective.eq_iff, eq_comm] using hlabel

theorem batchUpdateIntentsState_change {ids newState r} (ha : c.Allows own (.batchUpdateIntentsState ids newState))
    (h : ApiRuns go env (Repo.batchUpdateIntentsState ids newState) w es r w') : Change c own w w' := by
  -- What is left of an intent: all of it where its ID is not named.
  let core (i : ScheduleIntent) : ObjectID × ObjectID × ObjectID × Option ScheduleIntent :=
    (i.id, i.strategyID, i.creatorID, if i.id ∈ ids then none else some i)
  obtain ⟨os, hs, hmap⟩ := batchUpdate_inv core h (fun time i hi => by
    have hi : i.id ∈ ids := hi
    simp only [core, if_pos hi]) (fun _ _ => rfl)
  have hsame : ∀ {l l' : List ScheduleIntent}, l.map core = l'.map core → ∀ i ∈ l, ∃ j ∈ l', core j = core i := by
    intro l l' hl i hi
    have hmem := mem_map_of_mem (f := core) hi
    rw [hl] at hmem
    exact mem_map.mp hmem
  have hrest : ∀ {i j : ScheduleIntent}, core j = core i → i.id ∉ ids → j = i := by
    intro i j hcore hid
    obtain ⟨hjd, -, -, hopt⟩ := by simpa only [core, Prod.mk.injEq] using hcore
    rw [hjd, if_neg hid, if_neg hid] at hopt
    exact Option.some.inj hopt
  refine .of_intents hs (fun i hi => ?_) fun i hi => ?_
  · obtain ⟨j, hj, hcore⟩ := hsame hmap i hi
    by_cases hid : i.id ∈ ids
    · obtain ⟨hjd, hstrategy, hcreator, -⟩ := by simpa only [core, Prod.mk.injEq] using hcore
      exact .inr (.inr ⟨ha i.id hid, j, hj, hjd, hstrategy, hcreator⟩)
    · exact .inl (hrest hcore hid ▸ hj)
  · by_cases hid : i.id ∈ ids
    · exact .inr (.inr (ha i.id hid))
    · obtain ⟨j, hj, hcore⟩ := hsame hmap.symm i hi
      exact .inl (hrest hcore hid ▸ hj)

/-- **What an allowed call does**, however it ends. -/
theorem serve_change {call r} (ha : c.Allows own call) (h : serve go env call w = (r, w')) :
    Change c own w w' := by
  obtain ⟨_, hp⟩ := serve_runs h
  cases call with
  | insertIntents intents => exact insertIntents_change ha hp
  | batchUpdateIntentsState ids newState => exact batchUpdateIntentsState_change ha hp
  | updateStrategy strategy => exact updateStrategy_change ha hp
  | deleteStrategy id => exact deleteStrategy_change ha hp
  | deleteIntents ids => exact deleteIntents_change ha hp
  | deleteIntentsByStrategyID id => exact deleteIntentsByStrategyID_change ha hp
  | insertStrategyAndIntents _ _ => exact ha.elim
  | insertNodePolicyAndIntents _ _ => exact ha.elim
  | insertNodeIntents _ => exact ha.elim
  | batchUpdateNodeIntentsState _ _ => exact ha.elim
  | updateNodePolicy _ => exact ha.elim
  | deleteNodePolicy _ => exact ha.elim
  | deleteNodeIntents _ => exact ha.elim
  | deleteNodeIntentsByPolicyID _ => exact ha.elim
  | _ =>
    refine .of_store (serve_store ?_ h)
    exact trivial

/-- What is answered is in scope, if the scope has all that is stored, and the
IDs that are still free. -/
theorem serve_answers {call r} (hstrategy : ∀ s ∈ w.strategies, c.strategy s) (hintent : ∀ i ∈ w.intents, c.intent i)
    (hinserted : ∀ id, (∀ i ∈ w.intents, i.id ≠ id) → c.inserted id)
    (h : serve go env call w = (r, w')) : c.Answers ⟨call, r⟩ := by
  obtain ⟨es, hp⟩ := serve_runs h
  cases call with
  | queryStrategies opt =>
    rintro l rfl s hs
    obtain ⟨hs, hrest⟩ := (queryStrategies_ok hp s).mp hs
    exact ⟨hstrategy s hs, hrest⟩
  | queryIntents opt =>
    rintro l rfl
    refine ⟨fun i hi => ?_, fun hne hlength => ?_⟩
    · obtain ⟨hi, hrest⟩ := (queryIntents_ok hp i).mp hi
      exact ⟨hintent i hi, hrest⟩
    · have hget : ApiRuns go env (Repo.query .intent opt.ids _ (Repo.matchesIntentFilter opt)) w es (.ok l) w' := hp
      rw [Repo.query, if_pos (by simpa using hne)] at hget
      exact (getMatching_ok hget).2.2 hlength
  | insertIntents intents =>
    rintro l rfl i hi
    obtain ⟨added, hs, -, hres⟩ := insertAll_inv (fun _ => ()) (fun _ _ _ => rfl) hp
    obtain ⟨rfl, -⟩ := hres l rfl
    -- No two resources have one name, so the new ones have names of their own.
    have hnodup := (w'.store .intent).nodup
    rw [hs.objects, map_append, nodup_append] at hnodup
    refine hinserted i.id fun j hj hid => ?_
    exact hnodup.2.2 _ (mem_map_of_mem hj) _ (mem_map_of_mem hi) hid
  | _ => exact trivial

end

end Gthulhu.Manager
