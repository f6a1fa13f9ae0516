/-
The repository keeps its objects the conversions of records with distinct IDs,
and returns what the functions over records return (`refines_*`).

Labels and spec of an object thus never disagree, whatever has been done
before, and with whatever failures on the way. A query is exact on both its
paths, and a deletion by owner removes what it is for (**`queries_exact`**).
-/
import Gthulhu.Manager.ResourceRepository
import Gthulhu.Manager.RepositoryFacts

namespace Gthulhu.Manager

open Lib Prog List

/-! ## Objects and records -/

section

variable {crNamespace : String} {k : Kind}

theorem Kind.decode_encode (o : k.Object) : k.decode (k.encode crNamespace o) = .ok o := by
  cases k with
  | strategy => exact strategy_roundTrip o crNamespace
  | intent => exact intent_roundTrip o crNamespace
  | nodePolicy => exact nodePolicy_roundTrip o crNamespace
  | nodeIntent => exact nodeIntent_roundTrip o crNamespace

@[simp] theorem Kind.getName_encode (o : k.Object) : (k.encode crNamespace o).getName = (k.id o).hex := by
  cases k <;> exact getName_customResource

@[simp] theorem Kind.getLabels_encode (o : k.Object) : (k.encode crNamespace o).getLabels = k.labels o := by
  cases k <;> exact getLabels_customResource

/-- The objects are the conversions of the records. -/
def Objects.Of (crNamespace : String) (objs : Objects) (rs : Resources k) : Prop :=
  objs.objects = rs.objects.map (k.encode crNamespace)

variable {objs : Objects} {rs : Resources k}

theorem Objects.Of.names (h : objs.Of crNamespace rs) (id : ObjectID) :
    id.hex ∈ objs.objects.map Unstructured.getName ↔ id ∈ rs.objects.map k.id := by
  have hnames : objs.objects.map Unstructured.getName = (rs.objects.map k.id).map ObjectID.hex := by
    rw [h, map_map, map_map]
    refine map_congr_left fun o _ => ?_
    simp
  rw [hnames]
  exact mem_map_of_injective ObjectID.hex_injective

theorem Objects.Of.get (h : objs.Of crNamespace rs) (id : ObjectID) :
    objs.get id.hex = (rs.get id).map (k.encode crNamespace) := by
  have hfind : objs.objects.find? (fun obj => obj.getName = id.hex) =
      (rs.objects.find? fun o => k.id o = id).map (k.encode crNamespace) := by
    rw [h, find?_map]
    congr 2
    funext o
    simp [ObjectID.hex_injective.eq_iff]
  unfold Objects.get Resources.get
  rw [hfind]
  cases rs.objects.find? fun o => k.id o = id <;> rfl

theorem Objects.Of.name_encode (h : objs.Of crNamespace rs) (o : k.Object) :
    (k.encode crNamespace o).getName ∈ objs.objects.map Unstructured.getName ↔ k.id o ∈ rs.objects.map k.id := by
  rw [Kind.getName_encode]
  exact h.names (k.id o)

theorem Objects.Of.create (h : objs.Of crNamespace rs) (o : k.Object) :
    (objs.create (k.encode crNamespace o)).1 = (rs.create o).1 ∧
      (objs.create (k.encode crNamespace o)).2.Of crNamespace (rs.create o).2 := by
  have hmem := h.name_encode o
  unfold Objects.create Resources.create
  by_cases hin : k.id o ∈ rs.objects.map k.id
  · rw [dif_pos (hmem.mpr hin), dif_pos hin, Kind.getName_encode]
    exact ⟨rfl, h⟩
  · rw [dif_neg (fun hn => hin (hmem.mp hn)), dif_neg hin]
    refine ⟨rfl, ?_⟩
    simp only [Objects.Of, map_append, map_singleton]
    rw [h]

theorem Objects.Of.update (h : objs.Of crNamespace rs) (o : k.Object) :
    (objs.update (k.encode crNamespace o)).1 = (rs.update o).1 ∧
      (objs.update (k.encode crNamespace o)).2.Of crNamespace (rs.update o).2 := by
  have hmem := h.name_encode o
  unfold Objects.update Resources.update
  by_cases hin : k.id o ∈ rs.objects.map k.id
  · rw [if_pos (hmem.mpr hin), if_pos hin]
    refine ⟨rfl, ?_⟩
    simp only [Objects.Of]
    rw [h, map_map, map_map]
    refine map_congr_left fun o' _ => ?_
    by_cases hid : k.id o' = k.id o
    · simp [hid]
    · have hhex : (k.id o').hex ≠ (k.id o).hex := fun he => hid (ObjectID.hex_injective he)
      simp [hid, hhex]
  · rw [if_neg (fun hn => hin (hmem.mp hn)), if_neg hin, Kind.getName_encode]
    exact ⟨rfl, h⟩

theorem Objects.Of.delete (h : objs.Of crNamespace rs) (id : ObjectID) :
    (objs.delete id.hex).1 = (rs.delete id).1 ∧ (objs.delete id.hex).2.Of crNamespace (rs.delete id).2 := by
  have hmem := h.names id
  unfold Objects.delete Resources.delete
  by_cases hin : id ∈ rs.objects.map k.id
  · rw [if_pos (hmem.mpr hin), if_pos hin]
    refine ⟨rfl, ?_⟩
    simp only [Objects.Of]
    rw [h, filter_map]
    congr 2
    funext o
    simp [ObjectID.hex_injective.eq_iff]
  · rw [if_neg (fun hn => hin (hmem.mp hn)), if_neg hin]
    exact ⟨rfl, h⟩

theorem Objects.Of.select (h : objs.Of crNamespace rs) {sel} (hplain : ∀ r ∈ sel, Requirement.Plain r) :
    objs.select (selectorText sel) = .ok ((rs.select sel).map (k.encode crNamespace)) := by
  unfold Objects.select Resources.select
  rw [parseSelector_selectorText hplain, h]
  simp [filter_map, Function.comp_def]

theorem decode_items (os : List k.Object) : (os.map (k.encode crNamespace)).mapM k.decode = .ok os := by
  induction os with
  | nil => rfl
  | cons o os ih =>
    rw [map_cons, mapM_cons, Kind.decode_encode, ih]
    rfl

/-! ## Worlds -/

/-- The world of objects is that of the records. -/
structure ObjectWorld.Of (crNamespace : String) (s : ObjectWorld) (w : World) : Prop where
  objects : ∀ k, (s.objects k).Of crNamespace (w.store k)
  processes : s.processes = w.processes
  cluster : s.cluster = w.cluster
  tick : s.tick = w.tick

variable {go : SliceSort} {env : Nat → Choice} {s : ObjectWorld} {w : World}

/-- What a request asks for can be asked for. -/
def ApiCall.Askable : ApiCall → Prop
  | .list _ sel => ∀ r ∈ sel, Requirement.Plain r
  | _ => True

theorem ObjectWorld.Of.next (h : s.Of crNamespace w) :
    ObjectWorld.Of crNamespace { s with tick := s.tick + 1 } { w with tick := w.tick + 1 } :=
  ⟨h.objects, h.processes, h.cluster, congrArg (· + 1) h.tick⟩

/-- A write to both stores. -/
theorem ObjectWorld.Of.write (h : s.Of crNamespace w) (outcome : Outcome) (k : Kind) {r r'}
    (hr : r.1 = r'.1 ∧ r.2.Of crNamespace r'.2) :
    (s.writeObjects outcome k r).1 = (w.writeStore outcome k r').1 ∧
      (s.writeObjects outcome k r).2.Of crNamespace (w.writeStore outcome k r').2 := by
  have hone : (outcome.write (s.objects k) r).1 = (outcome.write (w.store k) r').1 ∧
      (outcome.write (s.objects k) r).2.Of crNamespace (outcome.write (w.store k) r').2 := by
    cases outcome with
    | ok => exact hr
    | refused => exact ⟨rfl, h.objects k⟩
    | lost => exact ⟨rfl, hr.2⟩
  refine ⟨hone.1, fun k' => ?_, h.processes, h.cluster, h.tick⟩
  by_cases hk : k' = k
  · subst hk
    simp only [ObjectWorld.writeObjects, World.writeStore, Function.update_self]
    exact hone.2
  · simp only [ObjectWorld.writeObjects, World.writeStore, Function.update_of_ne hk]
    exact h.objects k'

/-- The programs return the same, and leave the objects conversions of the records. -/
abbrev Realizes (crNamespace : String) (go : SliceSort) (env : Nat → Choice) {α : Type} :
    Prog ObjectCall ObjectCall.Resp α → Prog ApiCall ApiCall.Resp α → Prop :=
  Refines (ObjectWorld.respond go env) (World.respond go env) (ObjectWorld.Of crNamespace)

theorem relates_get (k : Kind) (id : ObjectID) :
    Relates (ObjectWorld.respond go env) (World.respond go env) (ObjectWorld.Of crNamespace)
      (fun r r' => r = r'.map (k.encode crNamespace)) (perform (ObjectCall.get k id.hex)) (perform (ApiCall.get k id)) := by
  intro s w hof
  have htick : env s.tick = env w.tick := by rw [hof.tick]
  have hget := (hof.objects k).get id
  simp only [result_perform, ObjectWorld.respond, World.respond, ObjectWorld.answer, World.answer, htick, hget]
  refine ⟨?_, hof.next⟩
  cases (env w.tick).outcome <;> rfl

theorem relates_list (k : Kind) {sel} (hplain : ∀ r ∈ sel, Requirement.Plain r) :
    Relates (ObjectWorld.respond go env) (World.respond go env) (ObjectWorld.Of crNamespace)
      (fun r r' => r = r'.map (List.map (k.encode crNamespace))) (perform (ObjectCall.list k (selectorText sel)))
      (perform (ApiCall.list k sel)) := by
  intro s w hof
  have htick : env s.tick = env w.tick := by rw [hof.tick]
  have hselect := (hof.objects k).select hplain
  simp only [result_perform, ObjectWorld.respond, World.respond, ObjectWorld.answer, World.answer, htick, hselect,
    Except.map, reorder_map]
  refine ⟨?_, hof.next⟩
  cases (env w.tick).outcome <;> rfl

/-- **One request.** -/
theorem refines_call {call} (hcall : call.Askable) :
    Realizes crNamespace go env (implementation crNamespace call) (perform call) := by
  intro s w hof
  have hnext := hof.next
  have htick : env s.tick = env w.tick := by rw [hof.tick]
  cases call with
  | create k o =>
    have hone := hnext.write (env w.tick).outcome k ((hnext.objects k).create o)
    simp only [implementation, result_perform, ObjectWorld.respond, World.respond, ObjectWorld.answer, World.answer, htick]
    exact hone
  | get k id =>
    obtain ⟨hget, hof'⟩ := @relates_get crNamespace go env k id s w hof
    simp only [implementation, result_bind, hget]
    refine ⟨?_, hof'⟩
    cases (result (World.respond go env) (perform (ApiCall.get k id)) w).1 with
    | ok o => exact Kind.decode_encode o
    | error err => rfl
  | list k sel =>
    obtain ⟨hlist, hof'⟩ := @relates_list crNamespace go env k sel hcall s w hof
    simp only [implementation, result_bind, hlist]
    refine ⟨?_, hof'⟩
    cases (result (World.respond go env) (perform (ApiCall.list k sel)) w).1 with
    | ok os => exact decode_items os
    | error err => rfl
  | update k o =>
    have hone := hnext.write (env w.tick).outcome k ((hnext.objects k).update o)
    simp only [implementation, result_perform, ObjectWorld.respond, World.respond, ObjectWorld.answer, World.answer, htick]
    exact hone
  | delete k id =>
    have hone := hnext.write (env w.tick).outcome k ((hnext.objects k).delete id)
    simp only [implementation, result_perform, ObjectWorld.respond, World.respond, ObjectWorld.answer, World.answer, htick]
    exact hone
  | http endpoint req =>
    simp only [implementation, result_perform, ObjectWorld.respond, World.respond, ObjectWorld.answer, World.answer, htick,
      ObjectWorld.rest, World.send, hof.processes]
    exact ⟨trivial, hnext.objects, rfl, hnext.cluster, hnext.tick⟩
  | listPods _ | listDecisionMakerPods | listNodes _ | listNodesByDRA _ | token _ | newObjectID | now | mapOrder =>
    simp only [implementation, result_perform, ObjectWorld.respond, World.respond, ObjectWorld.answer, World.answer, htick,
      ObjectWorld.rest, hof.cluster]
    exact ⟨trivial, hnext.objects, hnext.processes, rfl, hnext.tick⟩

/-! ## Functions that convert at every request -/

/-- What the function asks for can be asked for. -/
abbrev Asks {α : Type} (x : Api α) : Prop := Makes (fun _ => True) ApiCall.Askable (fun _ => True) x

theorem refines_converting {α : Type} {x : Api α} (hx : Asks x) :
    Realizes crNamespace go env (ObjectRepo.converting crNamespace x).run x.run :=
  refines_implement (fun _ hcall => refines_call hcall) hx.callsIn

theorem ends_any {α : Type} (r : Except Error α) : Ends (fun (_ : Unit) _ => True) (fun _ _ => True) () r := by
  cases r <;> exact trivial

theorem asks_create (o : k.Object) : Asks (Api.create k o) := ⟨trivial, fun r _ => ends_any r⟩
theorem asks_get (id : ObjectID) : Asks (Api.get k id) := ⟨trivial, fun r _ => ends_any r⟩
theorem asks_delete (id : ObjectID) : Asks (Api.delete k id) := ⟨trivial, fun r _ => ends_any r⟩

theorem asks_list {sel} (hplain : ∀ r ∈ sel, Requirement.Plain r) : Asks (Api.list k sel) :=
  ⟨hplain, fun r _ => ends_any r⟩

theorem asks_bind {α β : Type} {x : Api α} {f : α → Api β} (hx : Asks x) (hf : ∀ a, Asks (f a)) : Asks (x >>= f) :=
  Makes.bind hx fun a _ => hf a

theorem asks_attempt {α β : Type} {x : Api α} {f : Except Error α → Api β} (hx : Asks x) (hf : ∀ r, Asks (f r)) :
    Asks (attempt x >>= f) :=
  Makes.bind hx.attempt fun r _ => hf r

theorem asks_pure {α : Type} (a : α) : Asks (pure a) := makes_pure trivial

theorem asks_now : Asks Api.now := ⟨trivial, fun _ _ => trivial⟩
theorem asks_newObjectID : Asks Api.newObjectID := ⟨trivial, fun _ _ => trivial⟩

theorem asks_ensureID (id : ObjectID) : Asks (Repo.ensureID id) :=
  makes_ite (fun _ => asks_newObjectID) fun _ => asks_pure _

theorem asks_fillBase (now : Int64) (b : BaseEntity) : Asks (Repo.fillBase now b) :=
  asks_bind (asks_ensureID _) fun _ => asks_pure _

theorem asks_rollbackDelete (id : ObjectID) : Asks (Repo.rollbackDelete k id) :=
  asks_attempt (asks_delete id) fun r => by cases r <;> exact asks_pure _

theorem asks_rollbackDeletes (ids : List ObjectID) : Asks (Repo.rollbackDeletes k ids) := by
  induction ids with
  | nil => exact asks_pure _
  | cons id ids ih => exact asks_bind (asks_rollbackDelete id) fun _ => asks_bind ih fun _ => asks_pure _

theorem asks_insertOwned {owner setOwner ownerID now} (os : List k.Object)
    (created : List ObjectID) : Asks (Repo.insertOwned owner k setOwner ownerID now os created) := by
  induction os generalizing created with
  | nil => exact asks_pure _
  | cons o os ih =>
    refine asks_bind (asks_fillBase _ _) fun base => asks_attempt (asks_create _) fun r => ?_
    cases r with
    | ok u => exact asks_bind (ih _) fun _ => asks_pure _
    | error err =>
      refine asks_bind (asks_rollbackDeletes _) fun _ => asks_bind (asks_rollbackDelete _) fun _ => ?_
      exact makes_ite (fun _ => makes_throw) fun _ => makes_throw

theorem asks_insertWithOwned {owner setOwner} (o : owner.Object)
    (os : List k.Object) : Asks (Repo.insertWithOwned owner k setOwner o os) :=
  asks_bind asks_now fun _ => asks_bind (asks_ensureID _) fun _ => asks_bind (asks_create _).mapError fun _ =>
    asks_bind (asks_insertOwned _ _) fun _ => asks_pure _

theorem asks_insertFrom (now : Int64) (os : List k.Object) : Asks (Repo.insertFrom k now os) := by
  induction os with
  | nil => exact asks_pure _
  | cons o os ih =>
    exact asks_bind (asks_fillBase _ _) fun _ => asks_bind (asks_create _).mapError fun _ =>
      asks_bind ih fun _ => asks_pure _

theorem asks_insertAll (os : List k.Object) : Asks (Repo.insertAll k os) :=
  makes_ite (fun _ => asks_pure _) fun _ => asks_bind asks_now fun _ => asks_insertFrom _ _

theorem asks_deleteIDs (ids : List ObjectID) : Asks (Repo.deleteIDs k ids) := by
  refine makes_forM fun id _ => asks_attempt (asks_delete id) fun r => ?_
  cases r with
  | ok u => exact asks_pure _
  | error err => exact makes_ite (fun _ => asks_pure _) fun _ => makes_throw

variable {isMatch : k.Object → Bool}

theorem asks_getMatching (ids : List ObjectID) : Asks (Repo.getMatching k isMatch ids) := by
  induction ids with
  | nil => exact asks_pure _
  | cons id ids ih =>
    refine asks_attempt (asks_get id) fun r => ?_
    cases r with
    | ok o => exact asks_bind ih fun _ => asks_pure _
    | error err => exact makes_ite (fun _ => ih) fun _ => makes_throw

theorem asks_query {ids sel} (hplain : ∀ r ∈ sel, Requirement.Plain r) :
    Asks (Repo.query k ids sel isMatch) :=
  makes_ite (fun _ => asks_getMatching ids) fun _ => asks_bind (asks_list hplain) fun _ => asks_pure _

theorem plain_hex (id : ObjectID) : Plain id.hex := by
  intro c hc
  refine hexEncode_notMem ?_ id.bytes
  simp only [mem_cons, not_mem_nil, or_false] at hc
  obtain rfl | rfl | rfl | rfl | rfl := hc <;> decide

theorem plain_itoa (state : IntentState) : Plain state.itoa := by
  intro c hc
  have hdigit : c.isDigit = false ∧ c ≠ '-' := by
    simp only [mem_cons, not_mem_nil, or_false] at hc
    obtain rfl | rfl | rfl | rfl | rfl := hc <;> decide
  exact Delimited.notMem_intRepr hdigit.1 hdigit.2 _

theorem plain_buildLabelSelector {α : Type} {wanted : List α} {text label} (hlabel : Plain label)
    (htext : ∀ a, Plain (text a)) : ∀ r ∈ buildLabelSelector (wanted.map text) label, Requirement.Plain r := by
  intro r hr
  cases wanted with
  | nil => simp [buildLabelSelector] at hr
  | cons a as =>
    obtain rfl : r = (label, (a :: as).map text) := by simpa [buildLabelSelector] using hr
    refine ⟨hlabel, fun v hv => ?_, by simp⟩
    obtain ⟨b, _, rfl⟩ := mem_map.mp hv
    exact htext b

/-- The selectors of the queries for intents. -/
theorem plain_selector {creators owners : List ObjectID} {states : List IntentState} {ownerLabel}
    (howner : Plain ownerLabel) :
    ∀ r ∈ buildLabelSelector (creators.map ObjectID.hex) labelCreatorID ++
      buildLabelSelector (owners.map ObjectID.hex) ownerLabel ++ buildLabelSelector (states.map IntentState.itoa) labelState,
      Requirement.Plain r := by
  intro r hr
  simp only [mem_append] at hr
  obtain (hr | hr) | hr := hr
  · exact plain_buildLabelSelector (by decide) plain_hex r hr
  · exact plain_buildLabelSelector howner plain_hex r hr
  · exact plain_buildLabelSelector (by decide) plain_itoa r hr

theorem asks_queryIntents (opt : QueryIntentOptions) : Asks (Repo.queryIntents opt) :=
  asks_query (plain_selector (by decide))

theorem asks_queryNodeIntents (opt : QueryNodeIntentOptions) : Asks (Repo.queryNodeIntents opt) :=
  asks_query (plain_selector (by decide))

/-! ## Functions that work on the objects -/

/-- The record after a change of state. -/
def ScheduleIntent.withState (newState : IntentState) (time : Int64) (o : ScheduleIntent) : ScheduleIntent :=
  { o with state := newState, updatedTime := time }

def NodeSchedulingIntent.withState (newState : IntentState) (time : Int64) (o : NodeSchedulingIntent) :
    NodeSchedulingIntent :=
  { o with state := newState, updatedTime := time }

/-- Spec and state label are changed together. -/
theorem editState_customResource {kind name text labels spec newState time} :
    ObjectRepo.editState k newState time text (customResource kind name crNamespace labels spec) =
      .ok (customResource kind name crNamespace (setField labelState newState.itoa labels)
        (setField "updatedTime" (.int64 time) (setField "state" (.int64 newState.value.toInt64) spec))) := by
  simp only [ObjectRepo.editState, nestedMap_customResource]
  simp [customResource, setField, Unstructured.setLabels, Unstructured.getLabels, Unstructured.metadata, lookup_cons]

theorem editState_intent (newState : IntentState) (time : Int64) (name : String) (o : ScheduleIntent) :
    ObjectRepo.editState .intent newState time name (Kind.intent.encode crNamespace o) =
      .ok (Kind.intent.encode crNamespace (o.withState newState time)) := by
  refine editState_customResource.trans ?_
  simp [Kind.encode, domainIntentToUnstructured, Kind.labels, ScheduleIntent.spec, setField, labelState, labelCreatorID,
    labelStrategyID, ScheduleIntent.withState]

theorem editState_nodeIntent (newState : IntentState) (time : Int64) (name : String) (o : NodeSchedulingIntent) :
    ObjectRepo.editState .nodeIntent newState time name (Kind.nodeIntent.encode crNamespace o) =
      .ok (Kind.nodeIntent.encode crNamespace (o.withState newState time)) := by
  refine editState_customResource.trans ?_
  simp [Kind.encode, domainNodeIntentToUnstructured, Kind.labels, NodeSchedulingIntent.spec, setField, labelState,
    labelCreatorID, labelNodePolicyID, NodeSchedulingIntent.withState]

theorem refines_update (o : k.Object) :
    Realizes crNamespace go env (perform (ObjectCall.update k (k.encode crNamespace o))) (perform (ApiCall.update k o)) :=
  @refines_call crNamespace go env (.update k o) trivial

theorem refines_delete (k : Kind) (id : ObjectID) :
    Realizes crNamespace go env (perform (ObjectCall.delete k id.hex)) (perform (ApiCall.delete k id)) :=
  @refines_call crNamespace go env (.delete k id) trivial

theorem refines_batchUpdate {newState setState}
    (hedit : ∀ time name o, ObjectRepo.editState k newState time name (k.encode crNamespace o) =
      .ok (k.encode crNamespace (setState time o))) (ids : List ObjectID) :
    Realizes crNamespace go env (ObjectRepo.batchUpdate k newState ids).run (Repo.batchUpdate k setState ids).run := by
  have hnow : Realizes crNamespace go env
      (ExceptT.lift (perform (ObjectCall.other .now)) : ObjectApi Int64).run Api.now.run :=
    (@refines_call crNamespace go env .now trivial).bind fun _ => refines_ret _
  refine hnow.except_bind fun time => refines_forM (fun id => ?_) ids
  refine (relates_get k id).bind fun r r' hr => ?_
  subst hr
  cases r' with
  | error err =>
    show Refines _ _ _ (ExceptT.run (if err.isNotFound then pure () else throw _))
      (ExceptT.run (if err.isNotFound then pure () else throw _))
    split <;> exact refines_ret _
  | ok o =>
    show Refines _ _ _ (ObjectRepo.writeState k id (ObjectRepo.editState k newState time id.hex (k.encode crNamespace o))).run
      (Api.wrapping _ (Api.update k (setState time o))).run
    rw [hedit]
    exact (refines_update _).mapError _

theorem refines_deleteNames (ids : List ObjectID) :
    Realizes crNamespace go env (ObjectRepo.deleteNames k (ids.map ObjectID.hex)).run (Repo.deleteIDs k ids).run := by
  refine refines_forM_map (fun id => (refines_delete k id).attempt.except_bind fun r => ?_) ids
  cases r with
  | ok u => exact refines_ret _
  | error err =>
    show Refines _ _ _ (ExceptT.run (if err.isNotFound then pure () else throw _))
      (ExceptT.run (if err.isNotFound then pure () else throw _))
    split <;> exact refines_ret _

/-- An object is deleted by its name, a record by its ID. -/
theorem refines_deleteByLabel {label} (hlabel : Plain label) (value : ObjectID) :
    Realizes crNamespace go env (ObjectRepo.deleteByLabel k label value).run (Repo.deleteByLabel k label value).run := by
  have htext : selectorText [(label, [value.hex])] = label ++ "=" ++ value.hex := rfl
  have hplain : ∀ r ∈ [(label, [value.hex])], Requirement.Plain r := by
    intro r hr
    obtain rfl := mem_singleton.mp hr
    exact ⟨hlabel, by simpa using plain_hex value, by simp⟩
  have hlist := @relates_list crNamespace go env k _ hplain
  rw [htext] at hlist
  refine hlist.bind fun r r' hr => ?_
  subst hr
  cases r' with
  | error err => exact refines_ret _
  | ok os =>
    show Refines _ _ _ (ObjectRepo.deleteNames k ((os.map (k.encode crNamespace)).map Unstructured.getName)).run
      (Repo.deleteIDs k (os.map k.id)).run
    have hnames : (os.map (k.encode crNamespace)).map Unstructured.getName = (os.map k.id).map ObjectID.hex := by
      simp [Function.comp_def]
    rw [hnames]
    exact refines_deleteNames _

/-! ## Runs -/

/-- The functions that change what is stored. -/
inductive RepoCall where
  | insertStrategyAndIntents (strategy : ScheduleStrategy) (intents : List ScheduleIntent)
  | insertIntents (intents : List ScheduleIntent)
  | batchUpdateIntentsState (ids : List ObjectID) (newState : IntentState)
  | deleteIntents (ids : List ObjectID)
  | deleteIntentsByStrategyID (strategyID : ObjectID)
  | insertNodePolicyAndIntents (policy : NodeSchedulingPolicy) (intents : List NodeSchedulingIntent)
  | insertNodeIntents (intents : List NodeSchedulingIntent)
  | batchUpdateNodeIntentsState (ids : List ObjectID) (newState : IntentState)
  | deleteNodeIntents (ids : List ObjectID)
  | deleteNodeIntentsByPolicyID (policyID : ObjectID)

def RepoCall.program (crNamespace : String) : RepoCall → ObjectApi Unit
  | .insertStrategyAndIntents strategy intents =>
    ObjectRepo.insertStrategyAndIntents crNamespace strategy intents >>= fun _ => pure ()
  | .insertIntents intents => ObjectRepo.insertIntents crNamespace intents >>= fun _ => pure ()
  | .batchUpdateIntentsState ids newState => ObjectRepo.batchUpdateIntentsState ids newState
  | .deleteIntents ids => ObjectRepo.deleteIntents crNamespace ids
  | .deleteIntentsByStrategyID strategyID => ObjectRepo.deleteIntentsByStrategyID strategyID
  | .insertNodePolicyAndIntents policy intents =>
    ObjectRepo.insertNodePolicyAndIntents crNamespace policy intents >>= fun _ => pure ()
  | .insertNodeIntents intents => ObjectRepo.insertNodeIntents crNamespace intents >>= fun _ => pure ()
  | .batchUpdateNodeIntentsState ids newState => ObjectRepo.batchUpdateNodeIntentsState ids newState
  | .deleteNodeIntents ids => ObjectRepo.deleteNodeIntents crNamespace ids
  | .deleteNodeIntentsByPolicyID policyID => ObjectRepo.deleteNodeIntentsByPolicyID policyID

/-- The same over records. -/
def RepoCall.recordProgram : RepoCall → Api Unit
  | .insertStrategyAndIntents strategy intents => Repo.insertStrategyAndIntents strategy intents >>= fun _ => pure ()
  | .insertIntents intents => Repo.insertIntents intents >>= fun _ => pure ()
  | .batchUpdateIntentsState ids newState => Repo.batchUpdateIntentsState ids newState
  | .deleteIntents ids => Repo.deleteIntents ids
  | .deleteIntentsByStrategyID strategyID => Repo.deleteIntentsByStrategyID strategyID
  | .insertNodePolicyAndIntents policy intents => Repo.insertNodePolicyAndIntents policy intents >>= fun _ => pure ()
  | .insertNodeIntents intents => Repo.insertNodeIntents intents >>= fun _ => pure ()
  | .batchUpdateNodeIntentsState ids newState => Repo.batchUpdateNodeIntentsState ids newState
  | .deleteNodeIntents ids => Repo.deleteNodeIntents ids
  | .deleteNodeIntentsByPolicyID policyID => Repo.deleteNodeIntentsByPolicyID policyID

theorem refines_program (call : RepoCall) :
    Realizes crNamespace go env (call.program crNamespace).run call.recordProgram.run := by
  cases call with
  | insertStrategyAndIntents strategy intents =>
    exact (refines_converting (@asks_insertWithOwned .intent .strategy _ strategy intents)).except_bind fun _ => refines_ret _
  | insertIntents intents =>
    exact (refines_converting (@asks_insertAll .intent intents)).except_bind fun _ => refines_ret _
  | batchUpdateIntentsState ids newState =>
    exact @refines_batchUpdate crNamespace .intent go env _ _ (editState_intent newState) ids
  | deleteIntents ids => exact refines_converting (asks_deleteIDs ids)
  | deleteIntentsByStrategyID strategyID => exact refines_deleteByLabel (by decide) strategyID
  | insertNodePolicyAndIntents policy intents =>
    exact (refines_converting (@asks_insertWithOwned .nodeIntent .nodePolicy _ policy intents)).except_bind fun _ =>
      refines_ret _
  | insertNodeIntents intents =>
    exact (refines_converting (@asks_insertAll .nodeIntent intents)).except_bind fun _ => refines_ret _
  | batchUpdateNodeIntentsState ids newState =>
    exact @refines_batchUpdate crNamespace .nodeIntent go env _ _ (editState_nodeIntent newState) ids
  | deleteNodeIntents ids => exact refines_converting (asks_deleteIDs ids)
  | deleteNodeIntentsByPolicyID policyID => exact refines_deleteByLabel (by decide) policyID

/-- What is stored after some calls, failed ones among them. -/
def ObjectWorld.after (crNamespace : String) (go : SliceSort) (env : Nat → Choice) (calls : List RepoCall)
    (s : ObjectWorld) : ObjectWorld :=
  calls.foldl (fun s call => (result (respond go env) (call.program crNamespace).run s).2) s

/-- **A run keeps the objects conversions of records.** -/
theorem ObjectWorld.Of.after (calls : List RepoCall) (h : s.Of crNamespace w) :
    ∃ w', (s.after crNamespace go env calls).Of crNamespace w' := by
  induction calls generalizing s w with
  | nil => exact ⟨w, h⟩
  | cons call calls ih => exact ih (refines_program call s w h).2

/-- Nothing is stored yet. -/
def ObjectWorld.initial (processes : String × Nat → DecisionMaker.Process) (cluster : Cluster) : ObjectWorld where
  objects := fun _ => .empty
  processes := processes
  cluster := cluster

theorem ObjectWorld.initial_of (processes : String × Nat → DecisionMaker.Process) (cluster : Cluster) :
    (initial processes cluster).Of crNamespace ⟨fun k => .empty k, processes, cluster, 0⟩ :=
  ⟨fun _ => rfl, rfl, rfl, rfl⟩

/-! ## Answers -/

/-- The answer a request gets when it gets one: not found is an answer. -/
def Answered : Event ApiCall.Resp → Prop
  | ⟨.get _ _, r⟩ => ∀ err, r = .error err → err.isNotFound = true
  | ⟨.delete _ _, r⟩ => ∀ err, r = .error err → err.isNotFound = true
  | ⟨.list _ _, r⟩ => ∀ err, r ≠ .error err
  | _ => True

/-- The function returns no error if its requests are answered. -/
abbrev Succeeds {α : Type} (x : Api α) : Prop :=
  Along Answered (fun _ _ => ()) (fun _ _ => True) (Ends (fun _ _ => True) fun _ _ => False) () x.run

theorem Succeeds.bind {α β : Type} {x : Api α} {f : α → Api β} (hx : Succeeds x) (hf : ∀ a, Succeeds (f a)) :
    Succeeds (x >>= f) := by
  refine along_except_bind.mpr (Along.imp (fun _ r => ?_) hx)
  cases r with
  | ok a => exact fun _ => hf a
  | error e => exact id

theorem succeeds_list (sel : Selector) : Succeeds (Api.list k sel) := by
  refine ⟨trivial, fun r hr => ?_⟩
  cases r with
  | ok items => exact trivial
  | error err => exact absurd rfl (hr err)

theorem succeeds_getMatching (ids : List ObjectID) : Succeeds (Repo.getMatching k isMatch ids) := by
  induction ids with
  | nil => exact trivial
  | cons id ids ih =>
    refine ⟨trivial, fun r hr => ?_⟩
    cases r with
    | ok o => exact Succeeds.bind ih fun _ => trivial
    | error err =>
      have hnotFound : err.isNotFound = true := hr err rfl
      exact along_ite.mpr ⟨fun _ => ih, fun hn => absurd hnotFound hn⟩

theorem succeeds_query {ids sel} : Succeeds (Repo.query k ids sel isMatch) :=
  along_ite.mpr ⟨fun _ => succeeds_getMatching ids, fun _ => (succeeds_list sel).bind fun _ => trivial⟩

theorem succeeds_deleteIDs (ids : List ObjectID) : Succeeds (Repo.deleteIDs k ids) := by
  induction ids with
  | nil => exact trivial
  | cons id ids ih =>
    rw [Repo.deleteIDs, forM_cons]
    refine Succeeds.bind ⟨trivial, fun r hr => ?_⟩ fun _ => ih
    cases r with
    | ok u => exact trivial
    | error err =>
      have hnotFound : err.isNotFound = true := hr err rfl
      exact along_ite.mpr ⟨fun _ => trivial, fun hn => absurd hnotFound hn⟩

theorem succeeds_deleteByLabel (label : String) (value : ObjectID) : Succeeds (Repo.deleteByLabel k label value) :=
  (succeeds_list _).bind fun _ => succeeds_deleteIDs _

/-- From now on requests are carried out. -/
def Healthy (env : Nat → Choice) (w : World) : Prop := ∀ t, w.tick ≤ t → (env t).outcome = .ok

theorem Resources.get_error {rs : Resources k} {id err} (h : rs.get id = .error err) :
    err.isNotFound = true := by
  rw [Resources.get] at h
  split at h <;> cases h
  rfl

theorem Resources.delete_error {rs : Resources k} {id err} (h : (rs.delete id).1 = .error err) :
    err.isNotFound = true := by
  rw [Resources.delete] at h
  split at h <;> cases h
  rfl

theorem respond_tick (call : ApiCall) (w : World) : (World.respond go env call w).2.tick = w.tick + 1 := by
  cases call <;> rfl

theorem respond_answered (hhealthy : Healthy env w) (call : ApiCall) :
    Answered ⟨call, (World.respond go env call w).1⟩ := by
  have hok := hhealthy w.tick (Nat.le_refl _)
  cases call with
  | get k id =>
    intro err herr
    simp only [World.respond, World.answer, hok] at herr
    exact Resources.get_error herr
  | delete k id =>
    intro err herr
    simp only [World.respond, World.answer, World.writeStore, hok] at herr
    exact Resources.delete_error herr
  | list k sel =>
    intro err
    simp [World.respond, World.answer, hok, Outcome.read]
  | _ => exact trivial

theorem Succeeds.run {α : Type} {x : Api α} (hx : Succeeds x) (hhealthy : Healthy env w) :
    ∃ a, (result (World.respond go env) x.run w).1 = .ok a := by
  have hrun := run_exec (h := World.respond go env) x.run w
  have hend := (Run.along (fun _ => Healthy env)
    (fun _ w call hw _ => ⟨respond_answered hw call, fun t ht => hw t (by rw [respond_tick] at ht; omega)⟩)
    hrun hx hhealthy).1
  cases hr : (exec (World.respond go env) x.run w).2.1 with
  | ok a => exact ⟨a, hr⟩
  | error err =>
    rw [hr] at hend
    exact hend.elim

/-! ## Queries are exact -/

/-- `wanted` restricts only if it names something. -/
def Allowed {α : Type} (wanted : List α) (value : α) : Prop := wanted = [] ∨ value ∈ wanted

instance {α : Type} [DecidableEq α] (wanted : List α) (value : α) : Decidable (Allowed wanted value) :=
  inferInstanceAs (Decidable (_ ∨ _))

/-- All filters but the IDs. -/
def QueryIntentOptions.Satisfied (opt : QueryIntentOptions) (intent : ScheduleIntent) : Prop :=
  Allowed opt.creatorIDs intent.creatorID ∧ Allowed opt.strategyIDs intent.strategyID ∧
    Allowed opt.k8sNamespaces intent.k8sNamespace ∧ Allowed opt.states intent.state ∧ Allowed opt.podIDs intent.podID

def QueryNodeIntentOptions.Satisfied (opt : QueryNodeIntentOptions) (intent : NodeSchedulingIntent) : Prop :=
  Allowed opt.creatorIDs intent.creatorID ∧ Allowed opt.policyIDs intent.policyID ∧
    Allowed opt.nodeIDs intent.nodeID ∧ Allowed opt.states intent.state

instance (opt : QueryIntentOptions) : DecidablePred opt.Satisfied := fun _ => inferInstanceAs (Decidable (_ ∧ _))
instance (opt : QueryNodeIntentOptions) : DecidablePred opt.Satisfied := fun _ => inferInstanceAs (Decidable (_ ∧ _))

theorem admits_iff {α : Type} [DecidableEq α] {wanted : List α} {value : α} :
    Repo.admits wanted value = true ↔ Allowed wanted value := by
  simp [Repo.admits, Allowed]

theorem matchesIntentFilter_iff {opt : QueryIntentOptions} {intent : ScheduleIntent} :
    Repo.matchesIntentFilter opt intent = true ↔ opt.Satisfied intent := by
  simp [Repo.matchesIntentFilter, QueryIntentOptions.Satisfied, admits_iff, and_assoc]

theorem matchesNodeIntentFilter_iff {opt : QueryNodeIntentOptions} {intent : NodeSchedulingIntent} :
    Repo.matchesNodeIntentFilter opt intent = true ↔ opt.Satisfied intent := by
  simp [Repo.matchesNodeIntentFilter, QueryNodeIntentOptions.Satisfied, admits_iff, and_assoc]

/-- The answer to a query: without IDs, what is stored and satisfies it, once each and in
any order; with IDs, for each in turn what is stored under it and satisfies the query. -/
def ExactAnswer (k : Kind) (ids : List ObjectID) (p : k.Object → Prop) [DecidablePred p] (stored os : List k.Object) :
    Prop :=
  (ids = [] → os.Perm (stored.filter p)) ∧
    (ids ≠ [] → os = ids.flatMap fun id => stored.filter fun o => k.id o = id ∧ p o)

namespace ObjectWorld

/-- What is stored of a kind, read back. -/
def Reads (s : ObjectWorld) (k : Kind) (os : List k.Object) : Prop := (s.objects k).objects.map k.decode = os.map .ok

/-- From now on requests are carried out. -/
def Healthy (env : Nat → Choice) (s : ObjectWorld) : Prop := ∀ t, s.tick ≤ t → (env t).outcome = .ok

/-- A query changes nothing, and returns a `good` answer or an error, which it does not
while requests are carried out. -/
structure Answers (go : SliceSort) (env : Nat → Choice) (s : ObjectWorld) {α : Type} (x : ObjectApi α) (good : α → Prop) :
    Prop where
  unchanged : (result (respond go env) x.run s).2.objects = s.objects
  good : ∀ a, (result (respond go env) x.run s).1 = .ok a → good a
  succeeds : Healthy env s → ∃ a, (result (respond go env) x.run s).1 = .ok a

/-- A deletion leaves other kinds alone, and `left` of its own kind unless it returns an
error, which it does not while requests are carried out. -/
structure Leaves (go : SliceSort) (env : Nat → Choice) (s : ObjectWorld) (k : Kind) (x : ObjectApi Unit)
    (left : List k.Object) : Prop where
  others : ∀ k', k' ≠ k → (result (respond go env) x.run s).2.objects k' = s.objects k'
  left : (result (respond go env) x.run s).1 = .ok () → (result (respond go env) x.run s).2.Reads k left
  succeeds : Healthy env s → (result (respond go env) x.run s).1 = .ok ()

/-- Every query, and every deletion by owner, is about just the intents it asks for. -/
def Exact (crNamespace : String) (go : SliceSort) (env : Nat → Choice) (s : ObjectWorld) : Prop :=
  ∃ intents nodeIntents, s.Reads .intent intents ∧ s.Reads .nodeIntent nodeIntents ∧
    (∀ opt : QueryIntentOptions, s.Answers go env (ObjectRepo.queryIntents crNamespace opt)
      (ExactAnswer .intent opt.ids opt.Satisfied intents)) ∧
    (∀ opt : QueryNodeIntentOptions, s.Answers go env (ObjectRepo.queryNodeIntents crNamespace opt)
      (ExactAnswer .nodeIntent opt.ids opt.Satisfied nodeIntents)) ∧
    (∀ strategyID, s.Leaves go env .intent (ObjectRepo.deleteIntentsByStrategyID strategyID)
      (intents.filter fun intent => intent.strategyID ≠ strategyID)) ∧
    ∀ policyID, s.Leaves go env .nodeIntent (ObjectRepo.deleteNodeIntentsByPolicyID policyID)
      (nodeIntents.filter fun intent => intent.policyID ≠ policyID)

end ObjectWorld

theorem ObjectWorld.Of.reads (h : s.Of crNamespace w) (k : Kind) : s.Reads k (w.store k).objects := by
  rw [Reads, h.objects k, map_map]
  exact map_congr_left fun o _ => Kind.decode_encode o

theorem ObjectWorld.Of.healthy (h : s.Of crNamespace w) (hhealthy : s.Healthy env) : Manager.Healthy env w :=
  fun t ht => hhealthy t (h.tick ▸ ht)

theorem Objects.ext {objs objs' : Objects} (h : objs.objects = objs'.objects) : objs = objs' := by
  cases objs
  cases objs'
  simpa using h

theorem ObjectWorld.Of.objects_eq {s' : ObjectWorld} {w'} (h : s.Of crNamespace w) (h' : s'.Of crNamespace w') {k}
    (hstore : w'.store k = w.store k) : s'.objects k = s.objects k := by
  refine Objects.ext ?_
  rw [h'.objects k, h.objects k, hstore]

theorem run_result {α : Type} (x : Api α) (w : World) :
    ApiRuns go env x w (exec (World.respond go env) x.run w).1 (result (World.respond go env) x.run w).1
      (result (World.respond go env) x.run w).2 := run_exec _ _

theorem answers_query {ids sel p} [DecidablePred p] {x}
    (hx : Realizes crNamespace go env x.run (Repo.query k ids sel isMatch).run)
    (hp : ∀ o, isMatch o = true ↔ p o) (hsel : ∀ o, isMatch o = true → sel.selects (k.labels o) = true)
    (h : s.Of crNamespace w) : s.Answers go env x (ExactAnswer k ids p (w.store k).objects) := by
  obtain ⟨heq, hof⟩ := hx s w h
  have hrun := @run_result go env _ (Repo.query k ids sel isMatch) w
  refine ⟨?_, fun os hos => ?_, fun hhealthy => ?_⟩
  · exact funext fun k' => h.objects_eq hof (by rw [(query_unchanged hrun).store])
  · rw [← heq, hos] at hrun
    obtain ⟨hall, hids⟩ := query_eq hsel hrun
    have hfilter : ∀ l : List k.Object, l.filter isMatch = l.filter fun o => p o := fun l =>
      filter_congr fun o _ => by rw [Bool.eq_iff_iff, hp]; simp
    refine ⟨fun hnil => hfilter _ ▸ hall hnil, fun hne => (hids hne).trans ?_⟩
    refine congrArg (List.flatMap · ids) (funext fun id => ?_)
    rw [hfilter, filter_filter]
    exact filter_congr fun o _ => by simp [and_comm]
  · rw [heq]
    exact succeeds_query.run (h.healthy hhealthy)

theorem leaves_deleteByLabel {label value left x}
    (hx : Realizes crNamespace go env x.run (Repo.deleteByLabel k label value).run)
    (hleft : ((w.store k).objects.filter fun o => !(k.labels o).contains (label, value.hex)) = left)
    (h : s.Of crNamespace w) : s.Leaves go env k x left := by
  obtain ⟨heq, hof⟩ := hx s w h
  have hrun := @run_result go env _ (Repo.deleteByLabel k label value) w
  refine ⟨fun k' hk' => ?_, fun hok => ?_, fun hhealthy => ?_⟩
  · obtain ⟨os, hstored, _⟩ := deleteByLabel_inv hrun
    exact h.objects_eq hof (hstored.others k' hk')
  · rw [← heq, hok] at hrun
    have hreads := hof.reads k
    rwa [(deleteByLabel_ok hrun).objects, hleft] at hreads
  · obtain ⟨_, hok⟩ := (succeeds_deleteByLabel label value).run (h.healthy hhealthy)
    rw [heq]
    exact hok

theorem ObjectWorld.Of.exact (h : s.Of crNamespace w) : s.Exact crNamespace go env := by
  refine ⟨w.intents, w.nodeIntents, h.reads .intent, h.reads .nodeIntent, fun opt => ?_, fun opt => ?_,
    fun strategyID => ?_, fun policyID => ?_⟩
  · exact answers_query (refines_converting (asks_queryIntents opt)) (fun _ => matchesIntentFilter_iff) selects_intent h
  · exact answers_query (refines_converting (asks_queryNodeIntents opt)) (fun _ => matchesNodeIntentFilter_iff)
      selects_nodeIntent h
  · exact leaves_deleteByLabel (refines_deleteByLabel (by decide) strategyID) (filter_strategyID _ _) h
  · exact leaves_deleteByLabel (refines_deleteByLabel (by decide) policyID) (filter_policyID _ _) h

end

/-- **Queries are exact, after any calls of the repository, failed ones among them.** -/
theorem queries_exact (crNamespace : String) (go : SliceSort) (env : Nat → Choice)
    (processes : String × Nat → DecisionMaker.Process) (cluster : Cluster) (calls : List RepoCall) :
    ((ObjectWorld.initial processes cluster).after crNamespace go env calls).Exact crNamespace go env := by
  obtain ⟨_, hof⟩ := @ObjectWorld.Of.after crNamespace go env _ _ calls (ObjectWorld.initial_of processes cluster)
  exact hof.exact

end Gthulhu.Manager
