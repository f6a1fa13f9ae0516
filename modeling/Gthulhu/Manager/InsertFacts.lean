/-
Inserting a strategy with its intents, or a node policy with its node intents,
is all or nothing (`InsertStrategyAndIntents`, `InsertNodePolicyAndIntents`).

The names of the intents created so far are kept while the loop runs, and are
what a failed create has deleted again. The name that could not be created is
not among them, so an object of that name that was there before stays. The
invariant of the loop is that what is stored is what was there before followed
by what has been created, under the names kept (`insertOwned_failed`).
-/
import Gthulhu.Manager.StrategyFacts

namespace Gthulhu.Manager

open Lib World Prog List Run OneNode

/-! ## What is assumed of the API server -/

/-- A create that fails leaves the store as it was. -/
def CreatesAtomic (go : SliceSort) (env : Nat → Choice) : Prop :=
  ∀ (k : Kind) (o : k.Object) (w : World) (err : Error), (respond go env (.create k o) w).1 = .error err →
    (respond go env (.create k o) w).2.store = w.store

/-- A delete succeeds, or finds nothing to delete. -/
def settles : Event ApiCall.Resp → Bool
  | ⟨.delete _ _, .error err⟩ => err.isNotFound
  | _ => true

def DeleteSettles (e : Event ApiCall.Resp) : Prop := settles e = true

instance : DecidablePred DeleteSettles := fun e => inferInstanceAs (Decidable (settles e = true))

theorem DeleteSettles.cases {k id r} (h : DeleteSettles ⟨.delete k id, r⟩) :
    r = .ok () ∨ ∃ err, r = .error err ∧ err.isNotFound = true := by
  cases r with
  | ok _ => exact .inl rfl
  | error err => exact .inr ⟨err, rfl, h⟩

theorem createsAtomic_of_notLost {go env} (h : ∀ n, (env n).outcome ≠ .lost) :
    CreatesAtomic go env := by
  intro k o w err herr
  have hstored : ∀ result : Except Error Unit × Resources k, result.1 = .error err → result.2 = w.store k →
      Function.update w.store k result.2 = w.store := fun result _ hsame => by rw [hsame, Function.update_eq_self]
  simp only [respond, answer, writeStore] at herr ⊢
  cases hout : (env w.tick).outcome with
  | ok =>
    simp only [hout, Outcome.write] at herr ⊢
    refine hstored _ herr ?_
    unfold Resources.create at herr ⊢
    split
    · rfl
    · rename_i hnew
      rw [dif_neg hnew] at herr
      cases herr
  | refused => exact Function.update_eq_self _ _
  | lost => exact absurd hout (h _)

/-! ## What is inserted -/

/-- `o'` is `o` with an ID if it had none, and times. -/
structure Kind.Stamped (k : Kind) (o o' : k.Object) : Prop where
  rest : o' = k.setBase o (k.base o')
  id : (k.base o).id ≠ .zero → k.id o' = k.id o
  creatorID : (k.base o').creatorID = (k.base o).creatorID
  updaterID : (k.base o').updaterID = (k.base o).updaterID

section

variable {go : SliceSort} {env : Nat → Choice} {w w' : World} {es : List (Event ApiCall.Resp)} {k : Kind}

theorem Kind.stamped_setBase {o b} (h : (k.base o).Filled b) : k.Stamped o (k.setBase o b) := by
  constructor
  · rw [Kind.base_setBase]
  · intro hne
    rw [Kind.id_setBase, Kind.id, h.id hne]
  · rw [Kind.base_setBase, h.creatorID]
  · rw [Kind.base_setBase, h.updaterID]

theorem create_failed {o err} (hatomic : CreatesAtomic go env)
    (h : ApiRuns go env (Api.create k o) w es (.error err) w') : w'.store = w.store := by
  obtain ⟨-, he⟩ := Run.call_inv h
  have hstore := hatomic k o w err
  rw [he] at hstore
  exact hstore rfl

/-! ## Rolling back -/

theorem rollbackDelete_settled {id r} (hs : ∀ e ∈ es, DeleteSettles e)
    (h : ApiRuns go env (Repo.rollbackDelete k id) w es r w') :
    r = .ok [] ∧ Stored w w' k ((w.store k).objects.filter fun o => k.id o ≠ id) := by
  obtain ⟨a, _, _, _, h1, h2, rfl⟩ := Run.attempt_bind_inv h
  obtain ⟨hcall, -⟩ := Run.call_inv h1
  have hsettles := DeleteSettles.cases (hs ⟨.delete k id, a⟩ (by simp [hcall]))
  obtain ⟨os, hstored, hgone, -⟩ := delete_inv h1
  rw [hgone hsettles] at hstored
  rcases hsettles with rfl | ⟨err, rfl, hnotFound⟩
  · obtain ⟨-, rfl, rfl⟩ := pure_ok_inv h2
    exact ⟨rfl, hstored⟩
  · obtain ⟨-, rfl, rfl⟩ := pure_ok_inv h2
    exact ⟨by rw [if_pos hnotFound], hstored⟩

theorem rollbackDeletes_settled {ids r} (hs : ∀ e ∈ es, DeleteSettles e)
    (h : ApiRuns go env (Repo.rollbackDeletes k ids) w es r w') :
    r = .ok [] ∧ Stored w w' k ((w.store k).objects.filter fun o => k.id o ∉ ids) := by
  induction ids generalizing w w' es r with
  | nil =>
    obtain ⟨-, rfl, rfl⟩ := pure_ok_inv h
    exact ⟨rfl, by simpa using (Unchanged.refl w').stored k⟩
  | cons id ids ih =>
    rw [Repo.rollbackDeletes] at h
    rcases except_bind_inv h with ⟨e, -, h1⟩ | ⟨errs, _, _, es2, h1, h2, rfl⟩
    · cases (rollbackDelete_settled hs h1).1
    obtain ⟨herrs, hstored1⟩ := rollbackDelete_settled (fun e he => hs e (mem_append_left _ he)) h1
    cases herrs
    have hs2 : ∀ e ∈ es2, DeleteSettles e := fun e he => hs e (mem_append_right _ he)
    rcases except_bind_inv h2 with ⟨e, -, h3⟩ | ⟨rest, _, _, _, h3, h4, rfl⟩
    · cases (ih hs2 h3).1
    obtain ⟨hrest, hstored2⟩ := ih (fun e he => hs2 e (mem_append_left _ he)) h3
    cases hrest
    obtain ⟨-, rfl, rfl⟩ := pure_ok_inv h4
    refine ⟨rfl, ?_⟩
    have h := hstored1.trans hstored2
    rw [hstored1.objects, filter_filter] at h
    simpa [Bool.and_comm] using h

/-! ## The loop -/

variable {owner child : Kind} {setOwner : child.Object → child.Object} {ownerID : ObjectID} {now : Int64}
  {os : List child.Object} {created : List ObjectID}

/-- What a failed create leaves once it is rolled back. -/
structure RolledBack (owner : Kind) (ownerID : ObjectID) (w w' : World) (child : Kind) (before : List child.Object) :
    Prop where
  objects : (w'.store child).objects = before
  owners : (w'.store owner).objects = (w.store owner).objects.filter fun o => owner.id o ≠ ownerID
  others : ∀ k, k ≠ owner → k ≠ child → w'.store k = w.store k

/-- Taking away what has been created leaves what was there before. -/
theorem filter_created {rs : Resources child} {before added} (h : rs.objects = before ++ added) :
    (rs.objects.filter fun o => child.id o ∉ added.map child.id) = before := by
  have hnodup := rs.nodup
  rw [h, map_append, nodup_append] at hnodup
  rw [h, filter_append, filter_eq_self.mpr, filter_eq_nil_iff.mpr, append_nil]
  · intro o ho hnot
    exact of_decide_eq_true hnot (mem_map_of_mem ho)
  · intro o ho
    refine decide_eq_true fun hmem => ?_
    exact hnodup.2.2 _ (mem_map_of_mem ho) _ hmem rfl

/-- The roll-back of a create that has failed. -/
theorem rollback_settled {before added : List child.Object} {err : Error} {r : Except Error (List child.Object)}
    (hne : owner ≠ child) (hobjects : (w.store child).objects = before ++ added)
    (hs : ∀ e ∈ es, DeleteSettles e)
    (h : ApiRuns go env (do
      let errs ← Repo.rollbackDeletes child (added.map child.id)
      let ownerErrs ← Repo.rollbackDelete owner ownerID
      let message := "create " ++ child.text ++ " CR"
      if (errs ++ ownerErrs).isEmpty then throw (.wrap message err)
      else throw (.rollback message err (errs ++ ownerErrs))) w es r w') :
    (∃ e, r = .error e) ∧ RolledBack owner ownerID w w' child before := by
  rcases except_bind_inv h with ⟨e, -, h1⟩ | ⟨errs, _, _, es2, h1, h2, rfl⟩
  · cases (rollbackDeletes_settled hs h1).1
  obtain ⟨-, hstored1⟩ := rollbackDeletes_settled (fun e he => hs e (mem_append_left _ he)) h1
  have hs2 : ∀ e ∈ es2, DeleteSettles e := fun e he => hs e (mem_append_right _ he)
  rcases except_bind_inv h2 with ⟨e, -, h3⟩ | ⟨ownerErrs, w2, _, _, h3, h4, rfl⟩
  · cases (rollbackDelete_settled hs2 h3).1
  obtain ⟨-, hstored3⟩ := rollbackDelete_settled (fun e he => hs2 e (mem_append_left _ he)) h3
  have hend : (∃ e, r = .error e) ∧ w' = w2 := by
    dsimp only at h4
    split at h4
    · obtain ⟨-, rfl, rfl⟩ := throw_inv h4
      exact ⟨⟨_, rfl⟩, rfl⟩
    · obtain ⟨-, rfl, rfl⟩ := throw_inv h4
      exact ⟨⟨_, rfl⟩, rfl⟩
  obtain ⟨hr, rfl⟩ := hend
  refine ⟨hr, ?_, ?_, fun k hk hk' => ?_⟩
  · rw [hstored3.others child hne.symm, hstored1.objects, filter_created hobjects]
  · rw [hstored3.objects, hstored1.others owner hne]
  · rw [hstored3.others k hk, hstored1.others k hk']

/-- **The loop, when a create fails**: what was there before the first create is
there again, and the owner is gone. -/
theorem insertOwned_failed {before added err} (hatomic : CreatesAtomic go env) (hne : owner ≠ child)
    (hset : ∀ o, child.base (setOwner o) = child.base o) (hobjects : (w.store child).objects = before ++ added)
    (hcreated : created = added.map child.id) (hs : ∀ e ∈ es, DeleteSettles e)
    (h : ApiRuns go env (Repo.insertOwned owner child setOwner ownerID now os created) w es (.error err) w') :
    RolledBack owner ownerID w w' child before := by
  induction os generalizing w es created added with
  | nil => cases (pure_ok_inv h).2.1
  | cons o os ih =>
    rw [Repo.insertOwned] at h
    rcases except_bind_inv h with ⟨e, -, h1⟩ | ⟨b, _, _, es2, h1, h2, rfl⟩
    · obtain ⟨-, _, he, -⟩ := fillBase_inv h1
      cases he
    have hu := (fillBase_inv h1).1
    have hs2 : ∀ e ∈ es2, DeleteSettles e := fun e he => hs e (mem_append_right _ he)
    dsimp only at h2
    obtain ⟨a, w2, _, es4, hc, h4, rfl⟩ := attempt_bind_inv h2
    have hs4 : ∀ e ∈ es4, DeleteSettles e := fun e he => hs2 e (mem_append_right _ he)
    cases a with
    | error e =>
      have hstore : w2.store = w.store := (create_failed hatomic hc).trans hu.store
      subst hcreated
      obtain ⟨-, hback⟩ := rollback_settled hne (by rw [hstore]; exact hobjects) hs4 h4
      refine ⟨hback.objects, ?_, fun k hk hk' => ?_⟩
      · rw [hback.owners, hstore]
      · rw [hback.others k hk hk', hstore]
    | ok u =>
      obtain ⟨os', hstored, hok, -⟩ := create_inv hc
      obtain rfl := hok rfl
      rw [hu.store, hobjects] at hstored
      have hstored := Stored.after hu hstored
      rcases except_bind_inv h4 with ⟨e, he, h5⟩ | ⟨rest, _, _, _, h5, h6, rfl⟩
      · cases he
        have hnames : created ++ [b.id] = (added ++ [setOwner (child.setBase o b)]).map child.id := by
          rw [hcreated, map_append, map_singleton, Kind.id, hset, Kind.base_setBase]
        have hback := ih (by rw [hstored.objects, append_assoc]) hnames hs4 h5
        refine ⟨hback.objects, ?_, fun k hk hk' => ?_⟩
        · rw [hback.owners, hstored.others owner hne]
        · rw [hback.others k hk hk', hstored.others k hk']
      · cases (pure_ok_inv h6).2.1

end

/-! ## The insertion -/

/-- What the store has gained when an insertion returns no error. -/
structure Gained (owner child : Kind) (setOwner : ObjectID → child.Object → child.Object) (o : owner.Object)
    (os : List child.Object) (w w' : World) (o' : owner.Object) (os' : List child.Object) : Prop where
  owners : (w'.store owner).objects = (w.store owner).objects ++ [o']
  ownerStamped : owner.Stamped o o'
  objects : (w'.store child).objects = (w.store child).objects ++ os'
  /-- Each with the owner's ID, in the order they were given. -/
  stamped : List.Forall₂ (fun o o'' => child.Stamped (setOwner (owner.id o') o) o'') os os'
  others : ∀ k, k ≠ owner → k ≠ child → w'.store k = w.store k

theorem Resources.ext_objects {k} : ∀ {rs rs' : Resources k}, rs.objects = rs'.objects → rs = rs'
  | ⟨_, _⟩, ⟨_, _⟩, rfl => rfl

section

variable {go : SliceSort} {env : Nat → Choice} {w w' : World} {es : List (Event ApiCall.Resp)} {owner child : Kind}
  {setOwner : ObjectID → child.Object → child.Object} {o : owner.Object} {os : List child.Object}

theorem insertWithOwned_failed {err} (hatomic : CreatesAtomic go env) (hne : owner ≠ child)
    (hbase : ∀ id o, child.base (setOwner id o) = child.base o) (hs : ∀ e ∈ es, DeleteSettles e)
    (h : ApiRuns go env (Repo.insertWithOwned owner child setOwner o os) w es (.error err) w') : w'.store = w.store := by
  rw [Repo.insertWithOwned] at h
  rcases except_bind_inv h with ⟨e, -, h1⟩ | ⟨time, _, _, _, h1, h2, rfl⟩
  · exact (now_inv h1).1.store
  rcases except_bind_inv h2 with ⟨e, -, h3⟩ | ⟨id, _, _, es4, h3, h4, rfl⟩
  · exact ((now_inv h1).1.trans (ensureID_inv h3).1).store
  have hu := (now_inv h1).1.trans (ensureID_inv h3).1
  have hs4 : ∀ e ∈ es4, DeleteSettles e := fun e he => hs e (by simp [he])
  dsimp only at h4
  rcases except_bind_inv h4 with ⟨e, -, h5⟩ | ⟨⟨⟩, w3, _, _, h5, h6, rfl⟩
  · -- The owner could not be created.
    rcases mapError_inv h5 with ⟨_, he, -⟩ | ⟨e', -, hc⟩
    · cases he
    · exact (create_failed hatomic hc).trans hu.store
  obtain ⟨os', hstored, hok, -⟩ := create_inv (wrapping_ok h5)
  obtain rfl := hok rfl
  rw [hu.store] at hstored
  have hstored := Stored.after hu hstored
  rcases except_bind_inv h6 with ⟨e, -, h7⟩ | ⟨added, _, _, _, h7, h8, rfl⟩
  · have hnone : (w3.store child).objects = (w3.store child).objects ++ [] := (append_nil _).symm
    have hback := insertOwned_failed hatomic hne (hbase id) hnone rfl (fun e he => hs4 e (mem_append_right _ he)) h7
    funext k
    refine Resources.ext_objects ?_
    by_cases hk : k = owner
    · subst hk
      have hcreated := filter_created hstored.objects
      simp only [map_singleton, mem_singleton, Kind.id_setBase] at hcreated
      rw [hback.owners, hcreated]
    · by_cases hk' : k = child
      · subst hk'
        rw [hback.objects, hstored.others _ hk]
      · rw [hback.others k hk hk', hstored.others k hk]
  · cases (pure_ok_inv h8).2.1

theorem insertWithOwned_gained {o' os'} (hne : owner ≠ child)
    (hset : ∀ id o b, setOwner id (child.setBase o b) = child.setBase (setOwner id o) b)
    (hbase : ∀ id o, child.base (setOwner id o) = child.base o)
    (h : ApiRuns go env (Repo.insertWithOwned owner child setOwner o os) w es (.ok (o', os')) w') :
    Gained owner child setOwner o os w w' o' os' := by
  obtain ⟨w1, hstored, hstored', hinserted, b, rfl, hfilled⟩ := insertWithOwned_ok h
  refine ⟨?_, Kind.stamped_setBase hfilled, ?_, hinserted.imp ?_, fun k hk hk' => ?_⟩
  · rw [hstored'.others owner hne, hstored.objects]
  · rw [hstored'.objects, hstored.others child hne.symm]
  · rintro i _ ⟨b', rfl, hfilled'⟩
    rw [hset]
    refine Kind.stamped_setBase ?_
    rwa [hbase]
  · rw [hstored'.others k hk', hstored.others k hk]

end

/-- From `w`, an insertion that returns an error has changed nothing in the
store, as long as its deletes settle; one that returns none has added the
owner and its records, and each of these has the owner's ID. -/
def AllOrNothing (go : SliceSort) (env : Nat → Choice) (w : World) (owner child : Kind)
    (setOwner : ObjectID → child.Object → child.Object) (ownerID : child.Object → ObjectID)
    (insert : owner.Object → List child.Object → Api (owner.Object × List child.Object)) : Prop :=
  ∀ o os es r w', ApiRuns go env (insert o os) w es r w' →
    (∀ err, r = .error err → (∀ e ∈ es, DeleteSettles e) → w'.store = w.store) ∧
      ∀ o' os', r = .ok (o', os') → Gained owner child setOwner o os w w' o' os' ∧ ∀ i ∈ os', ownerID i = owner.id o'

theorem forall₂_ownerID {child : Kind} {setOwner : child.Object → child.Object} {ownerID : child.Object → ObjectID} {id}
    (hown : ∀ o b, ownerID (child.setBase (setOwner o) b) = id) {os os'}
    (h : List.Forall₂ (fun o o' => child.Stamped (setOwner o) o') os os') : ∀ i ∈ os', ownerID i = id := by
  induction h with
  | nil => simp
  | cons hstamped _ ih =>
    intro i hi
    rcases mem_cons.mp hi with rfl | hi
    · rw [hstamped.rest]
      exact hown _ _
    · exact ih i hi

theorem allOrNothing {go env} (hatomic : CreatesAtomic go env) (w : World) (owner child : Kind)
    (setOwner : ObjectID → child.Object → child.Object) (ownerID : child.Object → ObjectID) (hne : owner ≠ child)
    (hset : ∀ id o b, setOwner id (child.setBase o b) = child.setBase (setOwner id o) b)
    (hbase : ∀ id o, child.base (setOwner id o) = child.base o)
    (hown : ∀ id o b, ownerID (child.setBase (setOwner id o) b) = id) :
    AllOrNothing go env w owner child setOwner ownerID (Repo.insertWithOwned owner child setOwner) := by
  intro o os es r w' h
  refine ⟨fun err hr hs => ?_, fun o' os' hr => ?_⟩
  · subst hr
    exact insertWithOwned_failed hatomic hne hbase hs h
  · subst hr
    have hgained := insertWithOwned_gained hne hset hbase h
    exact ⟨hgained, forall₂_ownerID (hown _) hgained.stamped⟩

/-- **Inserting a strategy with its intents, or a node policy with its node
intents, is all or nothing.** -/
theorem inserts_allOrNothing {go : SliceSort} {env : Nat → Choice} (hatomic : CreatesAtomic go env) (w : World) :
    AllOrNothing go env w .strategy .intent (fun id intent => { intent with strategyID := id })
        (fun intent => intent.strategyID) Repo.insertStrategyAndIntents ∧
      AllOrNothing go env w .nodePolicy .nodeIntent (fun id intent => { intent with policyID := id })
        (fun intent => intent.policyID) Repo.insertNodePolicyAndIntents := by
  constructor
  · exact allOrNothing hatomic w .strategy .intent _ _ (by decide) (fun _ _ _ => rfl) (fun _ _ => rfl) fun _ _ _ => rfl
  · exact allOrNothing hatomic w .nodePolicy .nodeIntent _ _ (by decide) (fun _ _ _ => rfl) (fun _ _ => rfl)
      fun _ _ _ => rfl

namespace OneNode

/-- Two new intents, the second under the name of one that is stored. -/
def colliding : List ScheduleIntent := [intent 2 0 "p", intent 1 0 "q"]

end OneNode

/-- The first of two intents is created and deleted again, since the second has
the name of one that is there; that one stays. -/
theorem inserts_allOrNothing_collision :
    ∃ es err w', ApiRuns .insertion newIDs (Repo.insertStrategyAndIntents (strategy 5) colliding)
        (onePodWorld "p") es (.error err) w' ∧ w'.store = (onePodWorld "p").store := by
  obtain ⟨es, err, w', hrun, hs⟩ : ∃ es err w', ApiRuns .insertion newIDs
      (Repo.insertStrategyAndIntents (strategy 5) colliding) (onePodWorld "p") es (.error err) w' ∧
      ∀ e ∈ es, DeleteSettles e :=
    exists_error (by decide +kernel)
  have hatomic : CreatesAtomic .insertion newIDs := createsAtomic_of_notLost fun _ => by simp [newIDs]
  have hinsert := (inserts_allOrNothing hatomic (onePodWorld "p")).1 _ _ es _ w' hrun
  exact ⟨es, err, w', hrun, hinsert.1 err rfl hs⟩

end Gthulhu.Manager
