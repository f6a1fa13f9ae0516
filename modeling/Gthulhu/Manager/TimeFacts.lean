/-
The times of stored records, under a clock that never goes back.

A record is created with the time it was made at, and that time is never
changed again; the time of its last update is set in three layers (the base
entity, the service, the repository), each reading the clock for itself. So
the invariant is about all records and the clock together (`World.Dated`):
every record was created in the past, and not after its last update.

Two operations take the time of the update from their caller,
`UpdateNodeSchedulingPolicy` and `UpdatePodSchedulingMetrics`. They keep the
invariant exactly if that time is not before the creation (`Timely`,
`stamped_iff`); the REST handlers pass 0.
-/
import Mathlib
import Gthulhu.Lib.Hoare
import Gthulhu.Manager.NoInsertFacts
import Gthulhu.Manager.NodePolicyFacts
import Gthulhu.Manager.PodSchedulingMetricsFacts

namespace Gthulhu.Manager

open Lib World Prog List Run

/-- The clock never goes back, and it is past its origin. -/
structure Clock (env : Nat → Choice) : Prop where
  pos : ∀ n, 0 < (env n).now
  mono : ∀ {m n}, m ≤ n → (env m).now ≤ (env n).now

/-- Created in the past, and not after the last update. -/
structure BaseEntity.Dated (b : BaseEntity) (now : Int64) : Prop where
  pos : 0 < b.createdTime
  updated : b.createdTime ≤ b.updatedTime
  past : b.createdTime ≤ now

/-- All that is stored is dated by the time of request `n`, which has been reached. -/
structure World.Dated (env : Nat → Choice) (n : Nat) (w : World) : Prop where
  stored : ∀ k, ∀ o ∈ (w.store k).objects, (k.base o).Dated (env n).now
  reached : n ≤ w.tick

section

variable {go : SliceSort} {env : Nat → Choice} {n n' : Nat} {w w' : World} {k : Kind}

theorem BaseEntity.Dated.mono {b : BaseEntity} (hclock : Clock env) (h : b.Dated (env n).now) (hle : n ≤ n') :
    b.Dated (env n').now :=
  ⟨h.pos, h.updated, Int64.le_trans h.past (hclock.mono hle)⟩

/-- A record that is stamped with the time. -/
theorem BaseEntity.dated_now {b : BaseEntity} (hclock : Clock env) (hcreated : b.createdTime = (env n).now)
    (hupdated : b.updatedTime = (env n).now) : b.Dated (env n).now := by
  refine ⟨?_, ?_, ?_⟩
  · rw [hcreated]
    exact hclock.pos n
  · rw [hcreated, hupdated]
    exact Int64.le_refl _
  · rw [hcreated]
    exact Int64.le_refl _

theorem BaseEntity.Dated.ne_zero {b : BaseEntity} {now} (h : b.Dated now) :
    b.createdTime ≠ 0 ∧ b.updatedTime ≠ 0 := by
  have hpos := h.pos
  have hle := h.updated
  constructor
  · intro heq
    rw [heq] at hpos
    exact Int64.lt_irrefl hpos
  · intro heq
    rw [heq] at hle
    exact Int64.lt_irrefl (Int64.lt_of_lt_of_le hpos hle)

theorem World.Dated.mono (hclock : Clock env) (h : w.Dated env n) (hle : n ≤ n') (hreached : n' ≤ w.tick) :
    w.Dated env n' :=
  ⟨fun k o ho => (h.stored k o ho).mono hclock hle, hreached⟩

/-! ## Requests -/

theorem tick_le {α : Type} {p : Prog ApiCall ApiCall.Resp α} {es : List (Event ApiCall.Resp)} {a : α}
    (h : Run (respond go env) p w es a w') : w.tick ≤ w'.tick := by
  induction h with
  | ret => exact Nat.le_refl _
  | @call o k w w' es a _ ih =>
    have htick : (respond go env o w).2.tick = w.tick + 1 := by cases o <;> rfl
    omega

theorem World.Dated.stored_of {os} (h : w.Dated env n) (hs : Stored w w' k os)
    (hos : ∀ o ∈ os, (k.base o).Dated (env n).now) (htick : w.tick ≤ w'.tick) : w'.Dated env n := by
  refine ⟨fun k' o ho => ?_, Nat.le_trans h.reached htick⟩
  by_cases hk : k' = k
  · subst hk
    rw [hs.objects] at ho
    exact hos o ho
  · rw [hs.others k' hk] at ho
    exact h.stored k' o ho

theorem World.Dated.store_eq (h : w.Dated env n) (hs : w'.store = w.store) (htick : w.tick ≤ w'.tick) : w'.Dated env n :=
  ⟨fun k o ho => h.stored k o (hs ▸ ho), Nat.le_trans h.reached htick⟩

/-- A part of the repository that does not read the clock. -/
abbrev DatedApi (go : SliceSort) (env : Nat → Choice) (n : Nat) {α : Type} (x : Api α) (φ : α → Prop) : Prop :=
  Spec (respond go env) (fun _ : Unit => World.Dated env n) () x fun _ => φ

theorem dated_create {o} (ho : (k.base o).Dated (env n).now) :
    DatedApi go env n (Api.create k o) fun _ => True := by
  intro w w' es r hw h
  obtain ⟨os, hs, -, hor⟩ := create_inv h
  refine ⟨(), le_rfl, hw.stored_of hs (fun o' ho' => ?_) (tick_le h), fun _ _ => trivial⟩
  rcases hor with rfl | rfl
  · exact hw.stored k o' ho'
  · rcases mem_append.mp ho' with hold | hnew
    · exact hw.stored k o' hold
    · rwa [mem_singleton.mp hnew]

theorem dated_update {o} (ho : (k.base o).Dated (env n).now) :
    DatedApi go env n (Api.update k o) fun _ => True := by
  intro w w' es r hw h
  obtain ⟨os, hs, -, hor⟩ := update_inv h
  refine ⟨(), le_rfl, hw.stored_of hs (fun o' ho' => ?_) (tick_le h), fun _ _ => trivial⟩
  rcases hor with rfl | rfl
  · exact hw.stored k o' ho'
  · obtain ⟨o'', ho'', rfl⟩ := mem_map.mp ho'
    split
    · exact ho
    · exact hw.stored k o'' ho''

theorem dated_delete {id} : DatedApi go env n (Api.delete k id) fun _ => True := by
  intro w w' es r hw h
  obtain ⟨os, hs, -, hor⟩ := delete_inv h
  refine ⟨(), le_rfl, hw.stored_of hs (fun o ho => ?_) (tick_le h), fun _ _ => trivial⟩
  rcases hor with rfl | rfl
  · exact hw.stored k o ho
  · exact hw.stored k o (mem_of_mem_filter ho)

theorem dated_get {id} : DatedApi go env n (Api.get k id) fun o => (k.base o).Dated (env n).now := by
  intro w w' es r hw h
  obtain ⟨hu, hr⟩ := get_inv h
  refine ⟨(), le_rfl, hw.store_eq hu.store (tick_le h), fun o ho => ?_⟩
  rcases hr with hr | hr
  · exact hw.stored k o (Resources.get_eq_ok.mp (hr.symm.trans ho)).1
  · cases ho.symm.trans hr

theorem dated_newObjectID : DatedApi go env n Api.newObjectID fun _ => True := by
  intro w w' es r hw h
  exact ⟨(), le_rfl, hw.store_eq (newObjectID_inv h).1.store (tick_le h), fun _ _ => trivial⟩

/-- The clock is read. -/
theorem spec_now (hclock : Clock env) :
    Spec (respond go env) (World.Dated env) n Api.now fun n' time => time = (env n').now := by
  intro w w' es r hw h
  obtain ⟨time, rfl, hp⟩ := Run.lift_inv h
  obtain ⟨-, he⟩ := Run.call_inv hp
  cases he
  refine ⟨w.tick, hw.reached, ?_, fun time htime => ?_⟩
  · exact ⟨fun k o ho => (hw.stored k o ho).mono hclock hw.reached, Nat.le_succ _⟩
  · cases htime
    rfl

/-! ## The repository -/

theorem dated_ensureID {id} : DatedApi go env n (Repo.ensureID id) fun _ => True := by
  unfold Repo.ensureID
  split
  · exact dated_newObjectID
  · exact Spec.pure trivial

/-- A record that has its times keeps them. -/
theorem dated_fillBase {now b} (hb : b.Dated (env n).now) :
    DatedApi go env n (Repo.fillBase now b) fun b' => b'.Dated (env n).now := by
  refine dated_ensureID.bind fun _ id _ _ => Spec.pure ?_
  obtain ⟨hcreated, hupdated⟩ := hb.ne_zero
  simp only [hcreated, hupdated, if_false]
  exact ⟨hb.pos, hb.updated, hb.past⟩

theorem dated_rollbackDelete {id} : DatedApi go env n (Repo.rollbackDelete k id) fun _ => True := by
  refine dated_delete.attempt_bind fun _ r _ _ => ?_
  cases r with
  | ok _ => exact Spec.pure trivial
  | error err => exact Spec.pure trivial

variable {ids : List ObjectID}

theorem dated_rollbackDeletes : DatedApi go env n (Repo.rollbackDeletes k ids) fun _ => True := by
  induction ids with
  | nil => exact Spec.pure trivial
  | cons id ids ih => exact dated_rollbackDelete.bind fun _ _ _ _ => ih.bind fun _ _ _ _ => Spec.pure trivial

theorem dated_insertOwned {owner setOwner ownerID now}
    (hset : ∀ o, k.base (setOwner o) = k.base o) : ∀ {os : List k.Object} {created : List ObjectID},
    (∀ o ∈ os, (k.base o).Dated (env n).now) →
      DatedApi go env n (Repo.insertOwned owner k setOwner ownerID now os created) fun _ => True
  | [], _, _ => Spec.pure trivial
  | o :: os, created, hos => by
    unfold Repo.insertOwned
    refine (dated_fillBase (hos o mem_cons_self)).bind fun _ base _ hbase => ?_
    have hdated : (k.base (setOwner (k.setBase o base))).Dated (env n).now := by
      rwa [hset, Kind.base_setBase]
    refine (dated_create hdated).attempt_bind fun _ r _ _ => ?_
    cases r with
    | error err =>
      refine dated_rollbackDeletes.bind fun _ errs _ _ => dated_rollbackDelete.bind fun _ ownerErrs _ _ => ?_
      dsimp only
      split
      · exact Spec.throw
      · exact Spec.throw
    | ok _ =>
      refine Spec.bind (dated_insertOwned hset fun o' ho' => hos o' (mem_cons_of_mem o ho')) fun _ _ _ _ => ?_
      exact Spec.pure trivial

theorem dated_insertFrom {now} : ∀ {os : List k.Object}, (∀ o ∈ os, (k.base o).Dated (env n).now) →
    DatedApi go env n (Repo.insertFrom k now os) fun _ => True
  | [], _ => Spec.pure trivial
  | o :: os, hos => by
    refine (dated_fillBase (hos o mem_cons_self)).bind fun _ base _ hbase => ?_
    have hdated : (k.base (k.setBase o base)).Dated (env n).now := by rwa [Kind.base_setBase]
    refine (dated_create hdated).mapError.bind fun _ _ _ _ => ?_
    exact Spec.bind (dated_insertFrom fun o' ho' => hos o' (mem_cons_of_mem o ho')) fun _ _ _ _ => Spec.pure trivial

theorem dated_updateOwner {o} (ho : (k.base o).Dated (env n).now) :
    DatedApi go env n (Repo.updateOwner k o) fun _ => True :=
  dated_get.mapError.bind fun _ _ _ _ => dated_update ho

theorem spec_insertWithOwned (hclock : Clock env) {owner : Kind} {setOwner}
    (hset : ∀ id o, k.base (setOwner id o) = k.base o) {o os} (ho : (owner.base o).Dated (env n).now)
    (hos : ∀ o ∈ os, (k.base o).Dated (env n).now) :
    Spec (respond go env) (World.Dated env) n (Repo.insertWithOwned owner k setOwner o os) fun _ _ => True := by
  refine (spec_now hclock).bind fun n' time hle htime => Spec.fix ?_
  refine dated_ensureID.bind fun _ id _ _ => ?_
  have ho' := ho.mono hclock hle
  have hdated : (owner.base (owner.setBase o { owner.base o with
      id := id
      createdTime := if (owner.base o).createdTime = 0 then time else (owner.base o).createdTime
      updatedTime := time })).Dated (env n').now := by
    rw [Kind.base_setBase, htime, if_neg ho.ne_zero.1]
    exact ⟨ho'.pos, ho'.past, ho'.past⟩
  refine (dated_create hdated).mapError.bind fun _ _ _ _ => ?_
  refine (dated_insertOwned (hset id) fun o ho => (hos o ho).mono hclock hle).bind fun _ _ _ _ => ?_
  exact Spec.pure trivial

theorem spec_insertAll (hclock : Clock env) {os} (hos : ∀ o ∈ os, (k.base o).Dated (env n).now) :
    Spec (respond go env) (World.Dated env) n (Repo.insertAll k os) fun _ _ => True := by
  unfold Repo.insertAll
  split
  · exact Spec.pure trivial
  · refine (spec_now hclock).bind fun n' time hle _ => Spec.fix ?_
    exact dated_insertFrom fun o ho => (hos o ho).mono hclock hle

/-- A change of state is stamped with a time that no record was created after. -/
theorem spec_batchUpdate (hclock : Clock env) {setState}
    (hset : ∀ time o, (k.base (setState time o)).createdTime = (k.base o).createdTime ∧ (k.base (setState time o)).updatedTime = time) :
    Spec (respond go env) (World.Dated env) n (Repo.batchUpdate k setState ids) fun _ _ => True := by
  refine (spec_now hclock).bind fun n' time _ htime => Spec.fix (Spec.forM fun id _ _ _ => ?_)
  refine dated_get.attempt_bind fun _ r _ hr => ?_
  cases r with
  | error err =>
    dsimp only
    split
    · exact Spec.pure trivial
    · exact Spec.throw
  | ok o =>
    obtain ⟨hcreated, hupdated⟩ := hset time o
    have ho := hr o rfl
    refine (dated_update ⟨?_, ?_, ?_⟩).mapError
    · rw [hcreated]
      exact ho.pos
    · rw [hcreated, hupdated, htime]
      exact ho.past
    · rw [hcreated]
      exact ho.past

end

/-! ## The services -/

section

variable {go : SliceSort} {env : Nat → Choice} {n : Nat}

/-- A part of a service, which reads the clock as it goes. -/
abbrev DatedSvc (go : SliceSort) (env : Nat → Choice) (n : Nat) {α : Type} (x : Svc α) (φ : Nat → α → Prop) : Prop :=
  Spec (serve go env) (World.Dated env) n x φ

theorem dated_call {call φ}
    (h : Spec (respond go env) (World.Dated env) n call.program φ) : DatedSvc go env n (Svc.call call) φ := by
  intro w w' calls r hw hrun
  obtain ⟨-, _, hp⟩ := call_inv hrun
  exact h hw hp

variable {strategy : ScheduleStrategy} {policy : NodeSchedulingPolicy}

theorem dated_queryStrategies {opt} : DatedSvc go env n (Svc.call (.queryStrategies opt))
    fun n' strategies => ∀ strategy ∈ strategies, strategy.toBaseEntity.Dated (env n').now := by
  refine dated_call fun w w' es r hw h => ⟨n, le_rfl, hw.store_eq (query_unchanged h).store (tick_le h), ?_⟩
  rintro strategies rfl strategy hmem
  exact hw.stored .strategy strategy ((queryStrategies_ok h strategy).mp hmem).1

theorem dated_queryNodePolicies {opt} : DatedSvc go env n (Svc.call (.queryNodePolicies opt))
    fun n' policies => ∀ policy ∈ policies, policy.toBaseEntity.Dated (env n').now := by
  refine dated_call fun w w' es r hw h => ⟨n, le_rfl, hw.store_eq (query_unchanged h).store (tick_le h), ?_⟩
  rintro policies rfl policy hmem
  exact hw.stored .nodePolicy policy ((queryNodePolicies_ok h policy).mp hmem).1

theorem dated_updateStrategy (h : strategy.toBaseEntity.Dated (env n).now) :
    DatedSvc go env n (Svc.call (.updateStrategy strategy)) fun _ _ => True :=
  dated_call (Spec.fix (dated_updateOwner (k := .strategy) h))

theorem dated_updateNodePolicy (h : policy.toBaseEntity.Dated (env n).now) :
    DatedSvc go env n (Svc.call (.updateNodePolicy policy)) fun _ _ => True :=
  dated_call (Spec.fix (dated_updateOwner (k := .nodePolicy) h))

variable (hclock : Clock env)
include hclock

/-- Calls that store nothing new. -/
theorem serve_noInsert {call} (hcall : call.NoInsert) {w} (hw : w.Dated env n) :
    ∃ n', n ≤ n' ∧ (serve go env call w).2.Dated env n' := by
  obtain ⟨es, hp⟩ : ∃ es, ApiRuns go env call.program w es (serve go env call w).1 (serve go env call w).2 :=
    serve_runs rfl
  have hstate : Spec (respond go env) (World.Dated env) n call.program (fun _ _ => True) →
      ∃ n', n ≤ n' ∧ (serve go env call w).2.Dated env n' := by
    intro hspec
    obtain ⟨n', hle, hdated, -⟩ := hspec hw hp
    exact ⟨n', hle, hdated⟩
  have hread : call.KeepsStore → ∃ n', n ≤ n' ∧ (serve go env call w).2.Dated env n' := fun hkeeps =>
    ⟨n, Nat.le_refl n, hw.store_eq (serve_store hkeeps rfl) (tick_le hp)⟩
  have hdeleted : ∀ {k os}, Stored w (serve go env call w).2 k os → (∀ o ∈ os, o ∈ (w.store k).objects) →
      ∃ n', n ≤ n' ∧ (serve go env call w).2.Dated env n' := fun hs hsub =>
    ⟨n, Nat.le_refl n, hw.stored_of hs (fun o ho => hw.stored _ o (hsub o ho)) (tick_le hp)⟩
  cases call with
  | batchUpdateIntentsState ids newState | batchUpdateNodeIntentsState ids newState =>
    exact hstate (spec_batchUpdate hclock fun _ _ => ⟨rfl, rfl⟩)
  | deleteStrategy id | deleteNodePolicy id =>
    obtain ⟨os, hs, hsub, -⟩ := deleteOwner_inv hp
    exact hdeleted hs hsub
  | deleteIntents ids | deleteNodeIntents ids =>
    obtain ⟨os, hs, hsub, -⟩ := deleteIDs_inv hp
    exact hdeleted hs hsub
  | deleteIntentsByStrategyID id | deleteNodeIntentsByPolicyID id =>
    obtain ⟨os, hs, hsub, -⟩ := deleteByLabel_inv hp
    exact hdeleted hs hsub
  | _ => first | exact hread trivial | exact hcall.elim

theorem dated_noInsert {α : Type} {x : Svc α} (hx : x.NoInsert) :
    DatedSvc go env n x fun _ _ => True :=
  hx.spec fun _ _ _ hcall hw => serve_noInsert hclock hcall hw

theorem dated_light {α : Type} {x : Svc α} (hx : x.Light) : DatedSvc go env n x fun _ _ => True :=
  dated_noInsert hclock hx.noInsert

theorem dated_now : DatedSvc go env n (Svc.call .now) fun n' time => time = (env n').now :=
  dated_call (spec_now hclock)

theorem dated_stampAll {α β : Type} {make : Int64 → α → β} {base : β → BaseEntity}
    (hmake : ∀ time a, (base (make time a)).createdTime = time ∧ (base (make time a)).updatedTime = time) {l : List α} :
    ∀ {n : Nat}, DatedSvc go env n (stampAll make l) fun n' made => ∀ b ∈ made, (base b).Dated (env n').now := by
  induction l with
  | nil =>
    intro n
    exact Spec.pure fun b h => by cases h
  | cons a l ih =>
    intro n
    refine (dated_now hclock).bind fun n1 time _ htime => ih.bind fun n2 rest hle hrest => Spec.pure fun b h => ?_
    rcases mem_cons.mp h with rfl | hmem
    · exact (BaseEntity.dated_now hclock ((hmake time a).1.trans htime) ((hmake time a).2.trans htime)).mono hclock hle
    · exact hrest b hmem

theorem dated_newScheduleIntents {pods} :
    DatedSvc go env n (newScheduleIntents strategy pods) fun n' intents =>
      ∀ intent ∈ intents, intent.toBaseEntity.Dated (env n').now := by
  rw [newScheduleIntents_eq]
  exact dated_stampAll hclock fun _ _ => ⟨rfl, rfl⟩

theorem dated_newNodeSchedulingIntents {nodes} :
    DatedSvc go env n (newNodeSchedulingIntents policy nodes) fun n' intents =>
      ∀ intent ∈ intents, intent.toBaseEntity.Dated (env n').now := by
  rw [newNodeSchedulingIntents_eq]
  exact dated_stampAll hclock fun _ _ => ⟨rfl, rfl⟩

theorem dated_insertIntents {intents}
    (h : ∀ intent ∈ intents, intent.toBaseEntity.Dated (env n).now) :
    DatedSvc go env n (Svc.call (.insertIntents intents)) fun _ _ => True :=
  dated_call (spec_insertAll (k := .intent) hclock h)

theorem dated_insertNodeIntents {intents}
    (h : ∀ intent ∈ intents, intent.toBaseEntity.Dated (env n).now) :
    DatedSvc go env n (Svc.call (.insertNodeIntents intents)) fun _ _ => True :=
  dated_call (spec_insertAll (k := .nodeIntent) hclock h)

theorem dated_insertStrategyAndIntents {intents} (h : strategy.toBaseEntity.Dated (env n).now)
    (hintents : ∀ intent ∈ intents, intent.toBaseEntity.Dated (env n).now) :
    DatedSvc go env n (Svc.call (.insertStrategyAndIntents strategy intents)) fun _ _ => True :=
  dated_call (@spec_insertWithOwned go env n .intent hclock .strategy (fun id intent => { intent with strategyID := id })
    (fun _ _ => rfl) strategy intents h hintents)

theorem dated_insertNodePolicyAndIntents {intents} (h : policy.toBaseEntity.Dated (env n).now)
    (hintents : ∀ intent ∈ intents, intent.toBaseEntity.Dated (env n).now) :
    DatedSvc go env n (Svc.call (.insertNodePolicyAndIntents policy intents)) fun _ _ => True :=
  dated_call (@spec_insertWithOwned go env n .nodeIntent hclock .nodePolicy (fun id intent => { intent with policyID := id })
    (fun _ _ => rfl) policy intents h hintents)

theorem dated_createScheduleStrategy {operator : Claims} :
    DatedSvc go env n (createScheduleStrategy go operator strategy) fun _ _ => True := by
  unfold createScheduleStrategy
  refine Spec.bind (dated_light hclock light_parse) fun _ operatorID _ _ => ?_
  refine Spec.bind (dated_light hclock (light_call trivial)) fun _ pods _ _ => ?_
  split
  · exact Spec.throw
  refine (dated_now hclock).bind fun n1 time _ htime => ?_
  refine (dated_newScheduleIntents hclock).bind fun n2 intents hle hintents => ?_
  have hdated := (BaseEntity.dated_now (b := newBaseEntity time operatorID operatorID) hclock htime htime).mono hclock hle
  refine Spec.bind (dated_insertStrategyAndIntents hclock hdated hintents).mapError fun _ stored _ _ => ?_
  refine Spec.bind (dated_light hclock (light_call trivial)) fun _ dms _ _ => ?_
  split
  · exact Spec.pure trivial
  · exact Spec.bind (dated_light hclock light_podChannel.deliver) fun _ _ _ _ => Spec.pure trivial

theorem dated_updateScheduleStrategy {operator : Claims} {strategyID : String} :
    DatedSvc go env n (updateScheduleStrategy go operator strategyID strategy) fun _ _ => True := by
  unfold updateScheduleStrategy
  refine Spec.bind (dated_light hclock light_parse) fun _ id _ _ => ?_
  refine Spec.bind (dated_light hclock light_parse) fun n0 operatorID _ _ => ?_
  refine Spec.bind dated_queryStrategies fun n1 existing _ hexisting => ?_
  cases existing with
  | nil => exact Spec.throw
  | cons current rest =>
    have hcurrent := hexisting current mem_cons_self
    refine Spec.bind (dated_light hclock (light_call trivial)) fun n2 pods hle2 _ => ?_
    split
    · exact Spec.throw
    refine Spec.bind (dated_light hclock (Makes.mapError (light_call trivial))) fun n3 oldIntents hle3 _ => ?_
    refine (dated_now hclock).bind fun n4 time hle4 htime => ?_
    have hcurrent' := hcurrent.mono hclock (Nat.le_trans hle2 (Nat.le_trans hle3 hle4))
    refine Spec.bind (Spec.mapError (dated_updateStrategy ?_)) fun _ _ _ _ => ?_
    · exact ⟨hcurrent'.pos, htime ▸ hcurrent'.past, hcurrent'.past⟩
    refine Spec.bind (dated_noInsert hclock (Makes.mapError (noInsert_call trivial))) fun _ _ _ _ => ?_
    refine (dated_newScheduleIntents hclock).bind fun _ intents _ hintents => ?_
    refine Spec.bind (dated_insertIntents hclock hintents).mapError fun _ stored _ _ => ?_
    refine Spec.bind (dated_light hclock (makes_notifyDeleteOf Call.Harmless.light)) fun _ _ _ _ => ?_
    refine Spec.bind (dated_light hclock (light_call trivial)) fun _ dms _ _ => ?_
    split
    · exact Spec.pure trivial
    · exact dated_light hclock light_podChannel.deliver

theorem dated_createNodeSchedulingPolicy {operator : Claims} :
    DatedSvc go env n (createNodeSchedulingPolicy go operator policy) fun _ _ => True := by
  unfold createNodeSchedulingPolicy
  refine Spec.bind (dated_light hclock light_parse) fun _ operatorID _ _ => ?_
  refine Spec.bind (dated_light hclock (makes_resolveNodesForPolicy Call.Harmless.light)) fun _ nodes _ _ => ?_
  split
  · exact Spec.throw
  refine (dated_now hclock).bind fun n1 time _ htime => ?_
  refine (dated_newNodeSchedulingIntents hclock).bind fun n2 intents hle hintents => ?_
  have hdated := (BaseEntity.dated_now (b := newBaseEntity time operatorID operatorID) hclock htime htime).mono hclock hle
  refine Spec.bind (dated_insertNodePolicyAndIntents hclock hdated hintents).mapError fun _ stored _ _ => ?_
  exact Spec.bind (dated_light hclock light_sendNodeIntentsToDMs) fun _ _ _ _ => Spec.pure trivial

theorem dated_addIntents {pods} :
    DatedSvc go env n (addIntents strategy pods) fun _ _ => True := by
  refine Spec.bind (dated_newScheduleIntents hclock) fun _ intents _ hintents => ?_
  split
  · exact Spec.attempt_bind (dated_insertIntents hclock hintents) fun _ _ _ _ => Spec.pure trivial
  · exact Spec.pure trivial

theorem dated_refreshStaleIntents : DatedSvc go env n refreshStaleIntents fun _ _ => True := by
  refine Spec.bind (dated_light hclock (Makes.mapError (light_call trivial))) fun _ strategies _ _ => ?_
  refine Spec.forM fun strategy _ _ _ => ?_
  unfold refreshStrategy
  refine Spec.attempt_bind (dated_light hclock (light_call trivial)) fun _ pods _ _ => ?_
  cases pods with
  | error err => exact Spec.pure trivial
  | ok pods =>
    refine Spec.attempt_bind (dated_light hclock (light_call trivial)) fun _ intents _ _ => ?_
    cases intents with
    | error err => exact Spec.pure trivial
    | ok intents =>
      dsimp only
      split
      · refine Spec.attempt_bind (dated_noInsert hclock (makes_any trivial)) fun _ _ _ _ => ?_
        exact Spec.bind (dated_light hclock (makes_notifyDMsDeleteIntents Call.Harmless.light)) fun _ _ _ _ => dated_addIntents hclock
      · exact dated_addIntents hclock

theorem dated_addNodeIntents {nodes} :
    DatedSvc go env n (addNodeIntents go policy nodes) fun _ _ => True := by
  refine Spec.bind (dated_newNodeSchedulingIntents hclock) fun _ intents _ hintents => ?_
  split
  · refine Spec.attempt_bind (dated_insertNodeIntents hclock hintents) fun _ stored _ _ => ?_
    cases stored with
    | error err => exact Spec.pure trivial
    | ok stored => exact dated_light hclock (makes_logged light_sendNodeIntentsToDMs)
  · exact Spec.pure trivial

theorem dated_refreshStaleNodeIntents :
    DatedSvc go env n (refreshStaleNodeIntents go) fun _ _ => True := by
  refine Spec.bind (dated_light hclock (Makes.mapError (light_call trivial))) fun _ policies _ _ => ?_
  refine Spec.forM fun policy _ _ _ => ?_
  unfold refreshNodePolicy
  refine Spec.attempt_bind (dated_light hclock (makes_resolveNodesForPolicy Call.Harmless.light)) fun _ nodes _ _ => ?_
  cases nodes with
  | error err => exact Spec.pure trivial
  | ok nodes =>
    refine Spec.attempt_bind (dated_light hclock (light_call trivial)) fun _ intents _ _ => ?_
    cases intents with
    | error err => exact Spec.pure trivial
    | ok intents =>
      dsimp only
      split
      · refine Spec.attempt_bind (dated_noInsert hclock (makes_any trivial)) fun _ _ _ _ => ?_
        exact Spec.bind (dated_light hclock (makes_notifyDMsDeleteNodeIntents Call.Harmless.light)) fun _ _ _ _ => dated_addNodeIntents hclock
      · exact dated_addNodeIntents hclock

theorem dated_reconcileIntents : DatedSvc go env n (reconcileIntents go) fun _ _ => True := by
  refine Spec.attempt_bind (dated_refreshStaleIntents hclock) fun _ _ _ _ => ?_
  refine Spec.bind (dated_light hclock light_resyncIntentsToDMs) fun _ _ _ _ => ?_
  refine Spec.attempt_bind (dated_refreshStaleNodeIntents hclock) fun _ _ _ _ => ?_
  exact dated_light hclock (makes_logged light_resyncNodeIntentsToDMs)

omit hclock

theorem World.Dated.run {w w' : World} {α : Type} {x : Svc α} {calls : Calls} {r : Except Error α} {n' : Nat}
    (hw : w.Dated env n') (hle : n ≤ n') (h : Runs go env x w calls r w') (hx : DatedSvc go env n' x fun _ _ => True) :
    ∃ n'', n ≤ n'' ∧ w'.Dated env n'' := by
  obtain ⟨n'', hle', hw', -⟩ := hx hw h
  exact ⟨n'', Nat.le_trans hle hle', hw'⟩

variable {w w' : World} {calls : Calls} {operator : Claims} {policyID : String}

/-- The time the caller gives is not before the creation of the policy. -/
def TimelyPolicy (w : World) (policyID : String) (policy : NodeSchedulingPolicy) : Prop :=
  ∀ current ∈ (w.store .nodePolicy).objects, objectIDFromHex policyID = .ok current.id →
    current.createdTime ≤ policy.updatedTime

include hclock in
theorem updateNodeSchedulingPolicy_dated {r} (hw : w.Dated env n)
    (htimely : TimelyPolicy w policyID policy)
    (h : Runs go env (updateNodeSchedulingPolicy go operator policyID policy) w calls r w') :
    ∃ n', n ≤ n' ∧ w'.Dated env n' := by
  unfold updateNodeSchedulingPolicy at h
  rcases except_bind_inv h with ⟨e, -, h1⟩ | ⟨id, _, _, _, h1, h2, -⟩
  · exact hw.run (Nat.le_refl n) h1 (dated_light hclock light_parse)
  obtain ⟨hid, rfl⟩ := parse_ok h1
  rcases except_bind_inv h2 with ⟨e, -, h3⟩ | ⟨operatorID, _, _, _, h3, h4, -⟩
  · exact hw.run (Nat.le_refl n) h3 (dated_light hclock light_parse)
  obtain ⟨-, rfl⟩ := parse_ok h3
  rcases except_bind_inv h4 with ⟨e, -, h5⟩ | ⟨existing, _, _, _, h5, h6, -⟩
  · exact hw.run (Nat.le_refl n) h5 (dated_light hclock (light_call trivial))
  obtain ⟨n1, hle1, hw1, hexisting⟩ := dated_queryNodePolicies hw h5
  refine hw1.run hle1 h6 ?_
  cases existing with
  | nil => exact Spec.throw
  | cons current rest =>
    have hcurrent := hexisting _ rfl current mem_cons_self
    have htime : current.createdTime ≤ policy.updatedTime := by
      obtain ⟨_, hquery⟩ := call_ok h5
      obtain ⟨hmem, hids, -⟩ := (queryNodePolicies_ok hquery current).mp mem_cons_self
      refine htimely current hmem ?_
      simp only [cons_ne_nil, mem_singleton, false_or] at hids
      rw [hid, hids]
    refine Spec.bind (dated_light hclock (makes_resolveNodesForPolicy Call.Harmless.light)) fun n2 nodes hle2 _ => ?_
    split
    · exact Spec.throw
    refine Spec.bind (dated_light hclock (Makes.mapError (light_call trivial))) fun n3 oldIntents hle3 _ => ?_
    have hcurrent' := hcurrent.mono hclock (Nat.le_trans hle2 hle3)
    refine Spec.bind (Spec.mapError (dated_updateNodePolicy ?_)) fun _ _ _ _ => ?_
    · exact ⟨hcurrent'.pos, htime, hcurrent'.past⟩
    refine Spec.bind (dated_noInsert hclock (Makes.mapError (noInsert_call trivial))) fun _ _ _ _ => ?_
    refine Spec.bind (dated_newNodeSchedulingIntents hclock) fun _ intents _ hintents => ?_
    refine Spec.bind (dated_insertNodeIntents hclock hintents).mapError fun _ stored _ _ => ?_
    refine Spec.bind (dated_light hclock (makes_notifyDMsDeleteNodeIntents Call.Harmless.light)) fun _ _ _ _ => ?_
    exact dated_light hclock light_sendNodeIntentsToDMs

theorem serve_light {call r} (hcall : call.Light) (h : serve go env call w = (r, w')) :
    w'.store .nodePolicy = w.store .nodePolicy := by
  have hread : call.KeepsStore → w'.store .nodePolicy = w.store .nodePolicy := fun hkeeps => by
    rw [serve_store hkeeps h]
  obtain ⟨_, hp⟩ := serve_runs h
  cases call with
  | batchUpdateIntentsState ids newState =>
    obtain ⟨os, hs, -⟩ := batchUpdateIntentsState_inv hp
    exact hs.others .nodePolicy (by decide)
  | batchUpdateNodeIntentsState ids newState =>
    obtain ⟨os, hs, -⟩ := batchUpdateNodeIntentsState_inv hp
    exact hs.others .nodePolicy (by decide)
  | _ => first | exact hread trivial | exact hcall.elim

theorem Svc.Light.policies {α : Type} {x : Svc α} {r} (hx : x.Light) (h : Runs go env x w calls r w') :
    w'.store .nodePolicy = w.store .nodePolicy :=
  (Run.makes (J := fun w' => w'.store .nodePolicy = w.store .nodePolicy)
    (fun _ _ hw hcall => ⟨trivial, (serve_light hcall rfl).trans hw⟩) h hx rfl).1

/-- **What a successful update stores** of the times. -/
theorem updateNodeSchedulingPolicy_stores
    (h : Runs go env (updateNodeSchedulingPolicy go operator policyID policy) w calls (.ok ()) w') :
    ∃ current ∈ (w.store .nodePolicy).objects, objectIDFromHex policyID = .ok current.id ∧
      ∃ stored ∈ (w'.store .nodePolicy).objects, stored.createdTime = current.createdTime ∧
        stored.updatedTime = policy.updatedTime := by
  obtain ⟨current, _, _, _, _, hid, hcurrent, hstored, -, -, hsend⟩ := updateNodeSchedulingPolicy_ok h
  rw [light_sendNodeIntentsToDMs.policies hsend]
  exact ⟨current, hcurrent, hid, hstored⟩

end

end Gthulhu.Manager
