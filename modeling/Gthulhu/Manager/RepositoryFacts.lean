/-
What the repository's functions do to the store, as their callers use it.

Each lemma says what has become of the resources of the one kind the function
works on. Functions whose errors the services only log are described for
every outcome; the others when they succeed. `core` stands for whatever part
of a record a function leaves alone.
-/
import Gthulhu.Manager.WorldFacts

namespace Gthulhu.Manager

open Lib World Prog List Run

variable {go : SliceSort} {env : Nat → Choice} {w w' : World} {es : List (Event ApiCall.Resp)} {k : Kind} {γ : Type}

theorem wrapping_ok {α : Type} {message : String} {x : Api α} {a : α}
    (h : ApiRuns go env (Api.wrapping message x) w es (.ok a) w') : ApiRuns go env x w es (.ok a) w' :=
  mapError_ok h

/-! ## Deleting -/

variable {r : Except Error Unit}

/-- The body of the deleting loops, for every outcome. -/
theorem deleteStep_inv {id} {f : Error → Error}
    (h : ApiRuns go env (do match ← attempt (Api.delete k id) with | .ok () => pure () | .error err => if err.isNotFound then pure () else throw (f err)) w es r w') :
    ∃ os, Stored w w' k os ∧ (r = .ok () → os = (w.store k).objects.filter fun o => k.id o ≠ id) ∧
      (∀ o ∈ os, o ∈ (w.store k).objects) ∧ ∀ o ∈ (w.store k).objects, k.id o ≠ id → o ∈ os := by
  obtain ⟨a, _, _, _, hd, h2, rfl⟩ := attempt_bind_inv h
  obtain ⟨os, hs, hok, hor⟩ := delete_inv hd
  have hrest : (∀ o ∈ os, o ∈ (w.store k).objects) ∧ ∀ o ∈ (w.store k).objects, k.id o ≠ id → o ∈ os := by
    rcases hor with rfl | rfl
    · exact ⟨fun _ ho => ho, fun _ ho _ => ho⟩
    · exact ⟨fun o ho => mem_of_mem_filter ho, fun o ho hid => mem_filter.mpr ⟨ho, decide_eq_true hid⟩⟩
  cases a with
  | ok u =>
    obtain ⟨_, rfl, rfl⟩ := pure_ok_inv h2
    exact ⟨os, hs, fun _ => hok (.inl rfl), hrest⟩
  | error err =>
    simp only at h2
    split at h2
    · rename_i hn
      obtain ⟨_, rfl, rfl⟩ := pure_ok_inv h2
      exact ⟨os, hs, fun _ => hok (.inr ⟨err, rfl, hn⟩), hrest⟩
    · obtain ⟨_, rfl, rfl⟩ := throw_inv h2
      exact ⟨os, hs, nofun, hrest⟩

theorem deleteOwner_inv {id} (h : ApiRuns go env (Repo.deleteOwner k id) w es r w') :
    ∃ os, Stored w w' k os ∧ (∀ o ∈ os, o ∈ (w.store k).objects) ∧
      ∀ o ∈ (w.store k).objects, k.id o ≠ id → o ∈ os := by
  obtain ⟨os, hs, -, hrest⟩ := deleteStep_inv (f := fun err => err) h
  exact ⟨os, hs, hrest⟩

variable {ids : List ObjectID}

theorem deleteIDs_ok (h : ApiRuns go env (Repo.deleteIDs k ids) w es (.ok ()) w') :
    Stored w w' k ((w.store k).objects.filter fun o => k.id o ∉ ids) := by
  induction ids generalizing w es with
  | nil =>
    obtain ⟨_, _, rfl⟩ := pure_ok_inv h
    simpa using (Unchanged.refl _).stored k
  | cons id ids ih =>
    rw [Repo.deleteIDs, forM_cons] at h
    obtain ⟨⟨⟩, _, _, _, h1, h2, rfl⟩ := ok_bind_inv h
    obtain ⟨os, hs, hok, _⟩ := deleteStep_inv h1
    have hrest := ih h2
    rw [hs.objects, hok rfl, filter_filter] at hrest
    have hall := hs.trans hrest
    simpa [Bool.and_comm] using hall

/-- Whatever the outcome, nothing but the named resources can be gone. -/
theorem deleteIDs_inv (h : ApiRuns go env (Repo.deleteIDs k ids) w es r w') :
    ∃ os, Stored w w' k os ∧ (∀ o ∈ os, o ∈ (w.store k).objects) ∧
      ∀ o ∈ (w.store k).objects, k.id o ∉ ids → o ∈ os := by
  induction ids generalizing w es with
  | nil =>
    obtain ⟨_, _, rfl⟩ := pure_ok_inv h
    exact ⟨_, (Unchanged.refl _).stored k, fun _ ho => ho, fun _ ho _ => ho⟩
  | cons id ids ih =>
    rw [Repo.deleteIDs, forM_cons] at h
    rcases except_bind_inv h with ⟨e, rfl, h1⟩ | ⟨⟨⟩, _, _, _, h1, h2, rfl⟩
    · obtain ⟨os, hs, -, hsub, hkeep⟩ := deleteStep_inv h1
      exact ⟨os, hs, hsub, fun o ho hid => hkeep o ho (ne_of_not_mem_cons hid)⟩
    · obtain ⟨os, hs, -, hsub1, hkeep1⟩ := deleteStep_inv h1
      obtain ⟨os', hs', hsub, hkeep⟩ := ih h2
      rw [hs.objects] at hsub hkeep
      refine ⟨os', hs.trans hs', fun o ho => hsub1 o (hsub o ho), fun o ho hid => ?_⟩
      exact hkeep o (hkeep1 o ho (ne_of_not_mem_cons hid)) (not_mem_of_not_mem_cons hid)

/-- Whatever the outcome, nothing but resources with the label can be gone. -/
theorem deleteByLabel_inv {label value} (h : ApiRuns go env (Repo.deleteByLabel k label value) w es r w') :
    ∃ os, Stored w w' k os ∧ (∀ o ∈ os, o ∈ (w.store k).objects) ∧
      ∀ o ∈ (w.store k).objects, (label, value.hex) ∉ k.labels o → o ∈ os := by
  rcases except_bind_inv h with ⟨e, rfl, h1⟩ | ⟨items, _, _, _, h1, h2, rfl⟩
  · exact ⟨_, (list_inv h1).1.stored k, fun _ ho => ho, fun _ ho _ => ho⟩
  obtain ⟨hu, hlist⟩ := list_inv h1
  obtain ⟨os, hs, hsub, hkeep⟩ := deleteIDs_inv h2
  rw [hu.store] at hsub hkeep
  refine ⟨os, Stored.after hu hs, hsub, fun o ho hlabel => hkeep o ho fun hlisted => ?_⟩
  -- A resource deleted is one of those listed: its name is its own.
  obtain ⟨o', ho', hid⟩ := mem_map.mp hlisted
  rcases hlist with ⟨order, hitems⟩ | hitems
  · cases hitems
    rw [mem_reorder, Resources.select, mem_filter] at ho'
    have : o' = o := inj_on_of_nodup_map (w.store k).nodup ho'.1 ho hid
    subst this
    exact hlabel (by simpa [Selector.selects] using ho'.2)
  · cases hitems

theorem deleteByLabel_ok {label value} (h : ApiRuns go env (Repo.deleteByLabel k label value) w es (.ok ()) w') :
    Stored w w' k ((w.store k).objects.filter fun o => !(k.labels o).contains (label, value.hex)) := by
  obtain ⟨items, _, _, _, h1, h2, rfl⟩ := ok_bind_inv h
  obtain ⟨hu, hlist⟩ := list_inv h1
  obtain ⟨order, ho⟩ : ∃ order, items = reorder order ((w.store k).select [(label, [value.hex])]) := by
    rcases hlist with ⟨order, ho⟩ | ho
    · exact ⟨order, Except.ok.inj ho⟩
    · cases ho
  have hs := Stored.after hu (deleteIDs_ok h2)
  rw [hu.store] at hs
  have hfilter : ((w.store k).objects.filter fun o => k.id o ∉ items.map k.id) =
      (w.store k).objects.filter fun o => !(k.labels o).contains (label, value.hex) := by
    refine filter_congr fun o hmem => ?_
    -- A stored resource is listed exactly when it has the label: its name is its own.
    have : k.id o ∈ items.map k.id ↔ (k.labels o).contains (label, value.hex) = true := by
      constructor
      · intro hm
        obtain ⟨o', ho', hid⟩ := mem_map.mp hm
        rw [ho, mem_reorder, Resources.select, mem_filter] at ho'
        have : o' = o := inj_on_of_nodup_map (w.store k).nodup ho'.1 hmem hid
        subst this
        simpa [Selector.selects] using ho'.2
      · intro hl
        refine mem_map_of_mem ?_
        rw [ho, mem_reorder, Resources.select, mem_filter]
        exact ⟨hmem, by simpa [Selector.selects] using hl⟩
    rw [Bool.eq_iff_iff, decide_eq_true_iff, this, Bool.not_eq_true, Bool.not_eq_true']
  rwa [hfilter] at hs

/-! ## Reading -/

/-- Within the store, records are told apart by their IDs. -/
theorem Resources.mem_ids {rs : Resources k} {l : List k.Object} (hl : ∀ o ∈ l, o ∈ rs.objects) {o}
    (ho : o ∈ rs.objects) : k.id o ∈ l.map k.id ↔ o ∈ l := by
  refine ⟨fun hmem => ?_, mem_map_of_mem⟩
  obtain ⟨o', ho', hid⟩ := mem_map.mp hmem
  exact inj_on_of_nodup_map rs.nodup (hl o' ho') ho hid ▸ ho'

theorem Resources.get_eq_ok {rs : Resources k} {id o} :
    rs.get id = .ok o ↔ o ∈ rs.objects ∧ k.id o = id := by
  rw [Resources.get]
  constructor
  · intro h
    split at h
    · rename_i o' hf
      cases h
      exact ⟨mem_of_find?_eq_some hf, by simpa using find?_some hf⟩
    · cases h
  · rintro ⟨ho, rfl⟩
    split
    · rename_i o' hf
      have hid : k.id o' = k.id o := by simpa using find?_some hf
      rw [inj_on_of_nodup_map rs.nodup (mem_of_find?_eq_some hf) ho hid]
    · rename_i hf
      have := find?_eq_none.mp hf o ho
      simp at this

variable {isMatch : k.Object → Bool}

theorem getMatching_unchanged {r} (h : ApiRuns go env (Repo.getMatching k isMatch ids) w es r w') : Unchanged w w' := by
  induction ids generalizing w es r with
  | nil =>
    obtain ⟨_, _, rfl⟩ := pure_ok_inv h
    exact Unchanged.refl _
  | cons id ids ih =>
    rw [Repo.getMatching] at h
    obtain ⟨a, _, _, _, hg, h2, rfl⟩ := attempt_bind_inv h
    have hu := (get_inv hg).1
    cases a with
    | error err =>
      simp only at h2
      split at h2
      · exact hu.trans (ih h2)
      · obtain ⟨_, _, rfl⟩ := throw_inv h2
        exact hu
    | ok o =>
      rcases except_bind_inv h2 with ⟨e, rfl, h3⟩ | ⟨rest, _, _, _, h3, h4, rfl⟩
      · exact hu.trans (ih h3)
      · obtain ⟨_, _, rfl⟩ := pure_ok_inv h4
        exact hu.trans (ih h3)

theorem Resources.filter_id (rs : Resources k) (id : ObjectID) :
    (rs.objects.filter fun o => k.id o = id) = (rs.get id).toOption.toList := by
  have hhead : (rs.objects.filter fun o => k.id o = id).head? = (rs.get id).toOption := by
    rw [head?_filter, Resources.get]
    cases rs.objects.find? fun o => k.id o = id <;> rfl
  rw [← hhead]
  cases hfound : rs.objects.filter fun o => k.id o = id with
  | nil => rfl
  | cons o os =>
    -- A second one would have the name of the first.
    have hnodup : ((o :: os).map k.id).Nodup := by
      rw [← hfound]
      exact rs.nodup.sublist (filter_sublist.map k.id)
    have hids : ∀ o' ∈ o :: os, k.id o' = id := by
      intro o' ho'
      rw [← hfound] at ho'
      simpa using (mem_filter.mp ho').2
    cases os with
    | nil => rfl
    | cons o' os => simp [hids o (by simp), hids o' (by simp)] at hnodup

variable {os : List k.Object}

/-- A query by IDs goes through them in order. -/
theorem getMatching_eq (h : ApiRuns go env (Repo.getMatching k isMatch ids) w es (.ok os) w') :
    os = ids.flatMap fun id => ((w.store k).objects.filter fun o => k.id o = id).filter isMatch := by
  induction ids generalizing w es os with
  | nil =>
    obtain ⟨_, ⟨⟩, rfl⟩ := pure_ok_inv h
    rfl
  | cons id ids ih =>
    rw [Repo.getMatching] at h
    obtain ⟨a, _, _, _, hg, h2, rfl⟩ := attempt_bind_inv h
    obtain ⟨hu, hget⟩ := get_inv hg
    rw [flatMap_cons, (w.store k).filter_id, ← hu.store]
    cases a with
    | error err =>
      simp only at h2
      split at h2
      · rename_i hn
        rcases hget with hget | hget
        · rw [hu.store, ← hget, ← hu.store, ← ih h2]
          rfl
        · cases hget
          cases hn
      · exact (throw_ok h2).elim
    | ok o =>
      rcases hget with hget | hget
      · obtain ⟨rest, _, _, _, h3, h4, rfl⟩ := ok_bind_inv h2
        obtain ⟨_, ⟨⟩, rfl⟩ := pure_ok_inv h4
        rw [hu.store, ← hget, ← hu.store, ← ih h3]
        cases hm : isMatch o <;> simp [hm, Except.toOption]
      · cases hget

theorem mem_flatMap_found {o} :
    (o ∈ ids.flatMap fun id => (os.filter fun o => k.id o = id).filter isMatch) ↔
      o ∈ os ∧ k.id o ∈ ids ∧ isMatch o = true := by
  simp only [mem_flatMap, mem_filter, decide_eq_true_eq]
  constructor
  · intro ⟨id, hid, ⟨ho, heq⟩, hm⟩
    exact ⟨ho, heq ▸ hid, hm⟩
  · intro ⟨ho, hid, hm⟩
    exact ⟨k.id o, hid, ⟨ho, rfl⟩, hm⟩

theorem length_flatMap_le {α β : Type} {f : α → List β} (hf : ∀ a, (f a).length ≤ 1) (l : List α) :
    (l.flatMap f).length ≤ l.length ∧ ((l.flatMap f).length = l.length → ∀ a ∈ l, f a ≠ []) := by
  induction l with
  | nil => simp
  | cons a l ih =>
    have ha := hf a
    obtain ⟨hle, hall⟩ := ih
    simp only [flatMap_cons, length_append, length_cons]
    refine ⟨by omega, fun he b hb => ?_⟩
    rcases mem_cons.mp hb with rfl | hb
    · exact ne_nil_of_length_pos (by omega)
    · exact hall (by omega) b hb

/-- A query by IDs finds the resources of these names that match. It finds as
many as it was given only if every name has one. -/
theorem getMatching_ok (h : ApiRuns go env (Repo.getMatching k isMatch ids) w es (.ok os) w') :
    (∀ o, o ∈ os ↔ o ∈ (w.store k).objects ∧ k.id o ∈ ids ∧ isMatch o = true) ∧
      os.length ≤ ids.length ∧ (os.length = ids.length → ∀ id ∈ ids, ∃ o ∈ os, k.id o = id) := by
  have hone : ∀ id, (((w.store k).objects.filter fun o => k.id o = id).filter isMatch).length ≤ 1 := by
    intro id
    rw [(w.store k).filter_id]
    exact (length_filter_le _ _).trans (by cases (w.store k).get id <;> simp [Except.toOption])
  obtain ⟨hle, hall⟩ := length_flatMap_le hone ids
  rw [← getMatching_eq h] at hle hall
  refine ⟨fun o => ?_, hle, fun he id hid => ?_⟩
  · rw [getMatching_eq h, mem_flatMap_found]
  · obtain ⟨o, ho⟩ := exists_mem_of_ne_nil _ (hall he id hid)
    refine ⟨o, ?_, ?_⟩
    · rw [getMatching_eq h]
      exact mem_flatMap.mpr ⟨id, hid, ho⟩
    · simpa using (mem_filter.mp (mem_filter.mp ho).1).2

theorem query_unchanged {sel r} (h : ApiRuns go env (Repo.query k ids sel isMatch) w es r w') : Unchanged w w' := by
  rw [Repo.query] at h
  split at h
  · exact getMatching_unchanged h
  · rcases except_bind_inv h with ⟨e, rfl, h1⟩ | ⟨a, _, _, _, h1, h2, rfl⟩
    · exact (list_inv h1).1
    · obtain ⟨_, _, rfl⟩ := pure_ok_inv h2
      exact (list_inv h1).1

/-- What a query returns, when the labels it selects by are implied by the match. -/
theorem query_eq {sel} (hsel : ∀ o, isMatch o = true → sel.selects (k.labels o) = true)
    (h : ApiRuns go env (Repo.query k ids sel isMatch) w es (.ok os) w') :
    (ids = [] → os.Perm ((w.store k).objects.filter isMatch)) ∧
      (ids ≠ [] → os = ids.flatMap fun id => ((w.store k).objects.filter fun o => k.id o = id).filter isMatch) := by
  rw [Repo.query] at h
  split at h
  · rename_i hids
    have hne : ids ≠ [] := by simpa using hids
    exact ⟨fun hnil => absurd hnil hne, fun _ => getMatching_eq h⟩
  · rename_i hids
    have hnil : ids = [] := by simpa using hids
    refine ⟨fun _ => ?_, fun hne => absurd hnil hne⟩
    obtain ⟨items, _, _, _, h1, h2, rfl⟩ := ok_bind_inv h
    obtain ⟨_, ⟨⟩, rfl⟩ := pure_ok_inv h2
    rcases (list_inv h1).2 with ⟨order, ho⟩ | ho
    · cases ho
      have hselect : ((w.store k).select sel).filter isMatch = (w.store k).objects.filter isMatch := by
        rw [Resources.select, filter_filter]
        refine filter_congr fun o _ => ?_
        cases hm : isMatch o with
        | false => rfl
        | true => simp [hsel o hm]
      exact hselect ▸ (reorder_perm order _).filter isMatch
    · cases ho

theorem query_ok {sel} (hsel : ∀ o, isMatch o = true → sel.selects (k.labels o) = true)
    (h : ApiRuns go env (Repo.query k ids sel isMatch) w es (.ok os) w') (o : k.Object) :
    o ∈ os ↔ o ∈ (w.store k).objects ∧ (ids = [] ∨ k.id o ∈ ids) ∧ isMatch o = true := by
  obtain ⟨hall, hids⟩ := query_eq hsel h
  by_cases hnil : ids = []
  · simp [(hall hnil).mem_iff, hnil]
  · simp only [hids hnil, mem_flatMap_found, hnil, false_or]

/-- A query for all finds all, once each. -/
theorem query_all (hmatch : ∀ o, isMatch o = true) (h : ApiRuns go env (Repo.query k [] [] isMatch) w es (.ok os) w') :
    os.Perm (w.store k).objects := by
  have hperm := (query_eq (fun _ _ => rfl) h).1 rfl
  rwa [filter_eq_self.mpr fun o _ => hmatch o] at hperm

theorem selects_append {sel sel' labels} :
    Selector.selects (sel ++ sel') labels = (sel.selects labels && Selector.selects sel' labels) := by
  simp [Selector.selects, all_append]

theorem selects_buildLabelSelector {α : Type} [DecidableEq α] {wanted : List α} {value : α} {text : α → String}
    {label : String} {labels : List (String × String)} (hlabel : (label, text value) ∈ labels)
    (h : Repo.admits wanted value = true) :
    (buildLabelSelector (wanted.map text) label).selects labels = true := by
  cases wanted with
  | nil => rfl
  | cons a as =>
    have hmem : value ∈ a :: as := by simpa [Repo.admits] using h
    simp only [buildLabelSelector, map_cons, isEmpty_cons, Bool.false_eq_true, if_false, Selector.selects,
      all_cons, all_nil, Bool.and_true, any_eq_true]
    exact ⟨text value, by rw [← map_cons]; exact mem_map_of_mem hmem, by simpa using hlabel⟩

theorem selects_intent {opt} (o : ScheduleIntent) (hm : Repo.matchesIntentFilter opt o = true) :
    Selector.selects (buildLabelSelector (opt.creatorIDs.map ObjectID.hex) labelCreatorID ++
      buildLabelSelector (opt.strategyIDs.map ObjectID.hex) labelStrategyID ++
      buildLabelSelector (opt.states.map IntentState.itoa) labelState) (Kind.intent.labels o) = true := by
  simp only [Repo.matchesIntentFilter, Bool.and_eq_true] at hm
  simp only [selects_append, Bool.and_eq_true]
  exact ⟨⟨selects_buildLabelSelector (by simp [Kind.labels]) hm.1.1.1.1,
    selects_buildLabelSelector (by simp [Kind.labels]) hm.1.1.1.2⟩,
    selects_buildLabelSelector (by simp [Kind.labels]) hm.1.2⟩

theorem queryIntents_ok {opt os} (h : ApiRuns go env (Repo.queryIntents opt) w es (.ok os) w') (o : ScheduleIntent) :
    o ∈ os ↔ o ∈ w.intents ∧ (opt.ids = [] ∨ o.id ∈ opt.ids) ∧ Repo.matchesIntentFilter opt o = true :=
  query_ok selects_intent h o

theorem selects_nodeIntent {opt} (o : NodeSchedulingIntent) (hm : Repo.matchesNodeIntentFilter opt o = true) :
    Selector.selects (buildLabelSelector (opt.creatorIDs.map ObjectID.hex) labelCreatorID ++
      buildLabelSelector (opt.policyIDs.map ObjectID.hex) labelNodePolicyID ++
      buildLabelSelector (opt.states.map IntentState.itoa) labelState) (Kind.nodeIntent.labels o) = true := by
  simp only [Repo.matchesNodeIntentFilter, Bool.and_eq_true] at hm
  simp only [selects_append, Bool.and_eq_true]
  exact ⟨⟨selects_buildLabelSelector (by simp [Kind.labels]) hm.1.1.1,
    selects_buildLabelSelector (by simp [Kind.labels]) hm.1.1.2⟩,
    selects_buildLabelSelector (by simp [Kind.labels]) hm.2⟩

theorem queryNodeIntents_ok {opt os} (h : ApiRuns go env (Repo.queryNodeIntents opt) w es (.ok os) w')
    (o : NodeSchedulingIntent) :
    o ∈ os ↔ o ∈ w.nodeIntents ∧ (opt.ids = [] ∨ o.id ∈ opt.ids) ∧ Repo.matchesNodeIntentFilter opt o = true :=
  query_ok selects_nodeIntent h o

/-! ## Inserting -/

theorem Kind.base_setBase (o : k.Object) (b : BaseEntity) : k.base (k.setBase o b) = b := by
  cases k <;> rfl

theorem Kind.id_setBase (o : k.Object) (b : BaseEntity) : k.id (k.setBase o b) = b.id := by
  rw [Kind.id, Kind.base_setBase]

/-- What an insertion leaves of a record's base. -/
structure BaseEntity.Filled (b b' : BaseEntity) : Prop where
  id : b.id ≠ .zero → b'.id = b.id
  creatorID : b'.creatorID = b.creatorID
  updaterID : b'.updaterID = b.updaterID

theorem ensureID_inv {id r} (h : ApiRuns go env (Repo.ensureID id) w es r w') :
    Unchanged w w' ∧ ∃ id', r = .ok id' ∧ (id ≠ .zero → id' = id) := by
  rw [Repo.ensureID] at h
  split at h
  · rename_i hzero
    obtain ⟨hu, id', hr⟩ := newObjectID_inv h
    exact ⟨hu, id', hr, fun hne => absurd (by simpa [ObjectID.isZero] using hzero) hne⟩
  · obtain ⟨_, rfl, rfl⟩ := pure_ok_inv h
    exact ⟨Unchanged.refl _, _, rfl, fun _ => rfl⟩

theorem fillBase_inv {now b r} (h : ApiRuns go env (Repo.fillBase now b) w es r w') :
    Unchanged w w' ∧ ∃ b', r = .ok b' ∧ b.Filled b' := by
  rcases except_bind_inv h with ⟨e, rfl, h1⟩ | ⟨id, _, _, _, h1, h2, rfl⟩
  · obtain ⟨_, he, -⟩ := (ensureID_inv h1).2
    cases he
  · obtain ⟨_, rfl, rfl⟩ := pure_ok_inv h2
    obtain ⟨hu, _, ⟨⟩, hid⟩ := ensureID_inv h1
    exact ⟨hu, _, rfl, hid, rfl, rfl⟩

/-- `o'` is `o` as it was inserted, with its base filled and then `f` applied. -/
def Kind.Inserted (k : Kind) (f : k.Object → k.Object) (o o' : k.Object) : Prop :=
  ∃ b, o' = f (k.setBase o b) ∧ (k.base o).Filled b

theorem Kind.Inserted.map_eq {f : k.Object → k.Object} {os os' : List k.Object} (core : k.Object → γ)
    (h : Forall₂ (k.Inserted f) os os')
    (hcore : ∀ o b, (k.base o).Filled b → core (f (k.setBase o b)) = core (f o)) :
    os'.map core = os.map fun o => core (f o) := by
  induction h with
  | nil => rfl
  | cons hins _ ih =>
    obtain ⟨b, rfl, hb⟩ := hins
    rw [map_cons, map_cons, ih, hcore _ b hb]

/-- Whatever the outcome, what an insertion has added is of the records given. -/
theorem insertFrom_inv {now : Int64} {r : Except Error (List k.Object)} {core : k.Object → γ}
    (hcore : ∀ o b, (k.base o).Filled b → core (k.setBase o b) = core o)
    (h : ApiRuns go env (Repo.insertFrom k now os) w es r w') :
    ∃ added, Stored w w' k ((w.store k).objects ++ added) ∧ (∀ o ∈ added, core o ∈ os.map core) ∧
      ∀ os', r = .ok os' → os' = added ∧ added.map core = os.map core := by
  induction os generalizing w es r with
  | nil =>
    obtain ⟨_, rfl, rfl⟩ := pure_ok_inv h
    refine ⟨[], by simpa using (Unchanged.refl _).stored k, nofun, fun os' he => ?_⟩
    cases he
    exact ⟨rfl, rfl⟩
  | cons o os ih =>
    rw [Repo.insertFrom] at h
    rcases except_bind_inv h with ⟨e, rfl, h1⟩ | ⟨b, _, _, _, h1, h2, rfl⟩
    · exact ⟨[], by simpa using (fillBase_inv h1).1.stored k, nofun, nofun⟩
    obtain ⟨hu, _, ⟨⟩, hfilled⟩ := fillBase_inv h1
    simp only at h2
    have hhead : core (k.setBase o b) ∈ (o :: os).map core := by simp [hcore o b hfilled]
    rcases except_bind_inv h2 with ⟨e, rfl, h3⟩ | ⟨⟨⟩, _, _, _, h3, h4, rfl⟩
    · rcases mapError_inv h3 with ⟨_, he, _⟩ | ⟨e', _, hc⟩
      · cases he
      obtain ⟨os', hs, _, hor⟩ := create_inv hc
      rw [hu.store] at hor
      rcases hor with rfl | rfl
      · exact ⟨[], by simpa using Stored.after hu hs, nofun, nofun⟩
      · exact ⟨[k.setBase o b], Stored.after hu hs, by simpa using hhead, nofun⟩
    obtain ⟨os', hs, hok, _⟩ := create_inv (wrapping_ok h3)
    obtain rfl := hok rfl
    rw [hu.store] at hs
    have hs := Stored.after hu hs
    rcases except_bind_inv h4 with ⟨e, rfl, h5⟩ | ⟨rest, _, _, _, h5, h6, rfl⟩
    · obtain ⟨added, hs', hmem, _⟩ := ih h5
      rw [hs.objects, append_assoc] at hs'
      refine ⟨_, hs.trans hs', fun o' ho' => ?_, nofun⟩
      rcases mem_cons.mp ho' with rfl | ho'
      · exact hhead
      · exact mem_cons_of_mem _ (hmem o' ho')
    · obtain ⟨_, rfl, rfl⟩ := pure_ok_inv h6
      obtain ⟨added, hs', hmem, hres⟩ := ih h5
      obtain ⟨rfl, hmap⟩ := hres _ rfl
      rw [hs.objects, append_assoc] at hs'
      refine ⟨_, hs.trans hs', fun o' ho' => ?_, fun os' he => ?_⟩
      · rcases mem_cons.mp ho' with rfl | ho'
        · exact hhead
        · exact mem_cons_of_mem _ (hmem o' ho')
      · cases he
        exact ⟨rfl, by simp [hcore o b hfilled, hmap]⟩

theorem insertAll_inv {r} (core : k.Object → γ)
    (hcore : ∀ o b, (k.base o).Filled b → core (k.setBase o b) = core o)
    (h : ApiRuns go env (Repo.insertAll k os) w es r w') :
    ∃ added, Stored w w' k ((w.store k).objects ++ added) ∧ (∀ o ∈ added, core o ∈ os.map core) ∧
      ∀ os', r = .ok os' → os' = added ∧ added.map core = os.map core := by
  rw [Repo.insertAll] at h
  split at h
  · rename_i hnil
    obtain rfl := isEmpty_iff.mp hnil
    exact insertFrom_inv hcore (show ApiRuns go env (Repo.insertFrom k 0 []) w es r w' from h)
  · rcases except_bind_inv h with ⟨e, rfl, h1⟩ | ⟨time, _, _, _, h1, h2, rfl⟩
    · exact ⟨[], by simpa using (now_inv h1).1.stored k, nofun, nofun⟩
    · obtain ⟨added, hs, hrest⟩ := insertFrom_inv hcore h2
      rw [(now_inv h1).1.store] at hs
      exact ⟨added, Stored.after (now_inv h1).1 hs, hrest⟩

theorem insertOwned_ok {owner : Kind} {setOwner : k.Object → k.Object} {ownerID : ObjectID} {now : Int64}
    {os added : List k.Object} {created : List ObjectID}
    (h : ApiRuns go env (Repo.insertOwned owner k setOwner ownerID now os created) w es (.ok added) w') :
    Stored w w' k ((w.store k).objects ++ added) ∧ Forall₂ (k.Inserted setOwner) os added := by
  induction os generalizing w es created added with
  | nil =>
    obtain ⟨_, ⟨⟩, rfl⟩ := pure_ok_inv h
    exact ⟨by simpa using (Unchanged.refl _).stored k, .nil⟩
  | cons o os ih =>
    rw [Repo.insertOwned] at h
    obtain ⟨b, _, _, _, h1, h2, rfl⟩ := ok_bind_inv h
    obtain ⟨hu, _, ⟨⟩, hfilled⟩ := fillBase_inv h1
    simp only at h2
    obtain ⟨a, _, _, _, hc, h4, rfl⟩ := attempt_bind_inv h2
    cases a with
    | error err =>
      -- The clean-up ends in an error whatever it finds.
      simp only at h4
      obtain ⟨errs, _, _, _, _, h5, rfl⟩ := ok_bind_inv h4
      obtain ⟨ownerErrs, _, _, _, _, h6, rfl⟩ := ok_bind_inv h5
      split at h6
      · exact (throw_ok h6).elim
      · exact (throw_ok h6).elim
    | ok u =>
      obtain ⟨os', hs, hok, _⟩ := create_inv hc
      obtain rfl := hok rfl
      rw [hu.store] at hs
      have hs := Stored.after hu hs
      obtain ⟨rest, _, _, _, h5, h6, rfl⟩ := ok_bind_inv h4
      obtain ⟨_, ⟨⟩, rfl⟩ := pure_ok_inv h6
      obtain ⟨hs', hrest⟩ := ih h5
      rw [hs.objects, append_assoc] at hs'
      exact ⟨hs.trans hs', .cons ⟨b, rfl, hfilled⟩ hrest⟩

/-- An insertion with its owner, when it succeeds: the owner is there, and the
records, each with the owner's ID. -/
theorem insertWithOwned_ok {owner setOwner o o' added}
    (h : ApiRuns go env (Repo.insertWithOwned owner k setOwner o os) w es (.ok (o', added)) w') :
    ∃ w1, Stored w w1 owner ((w.store owner).objects ++ [o']) ∧ Stored w1 w' k ((w1.store k).objects ++ added) ∧
      Forall₂ (k.Inserted (setOwner (owner.id o'))) os added ∧ owner.Inserted (fun o => o) o o' := by
  rw [Repo.insertWithOwned] at h
  obtain ⟨time, w1, _, _, h1, h2, rfl⟩ := ok_bind_inv h
  obtain ⟨id, _, _, _, h3, h4, rfl⟩ := ok_bind_inv h2
  obtain ⟨hu3, _, ⟨⟩, hid⟩ := ensureID_inv h3
  have hu := (now_inv h1).1.trans hu3
  simp only at h4
  obtain ⟨⟨⟩, w3, _, _, h5, h6, rfl⟩ := ok_bind_inv h4
  obtain ⟨os', hs, hok, _⟩ := create_inv (wrapping_ok h5)
  obtain rfl := hok rfl
  rw [hu.store] at hs
  obtain ⟨rest, _, _, _, h7, h8, rfl⟩ := ok_bind_inv h6
  obtain ⟨_, ⟨⟩, rfl⟩ := pure_ok_inv h8
  obtain ⟨hs', hinserted⟩ := insertOwned_ok h7
  refine ⟨w3, Stored.after hu hs, hs', ?_, _, rfl, hid, rfl, rfl⟩
  rwa [Kind.id_setBase]

/-! ## Updating -/

/-- Updating states leaves everything else of the resources as it was, and
everything of those not named. -/
theorem batchUpdate_inv {setState} (core : k.Object → γ)
    (h : ApiRuns go env (Repo.batchUpdate k setState ids) w es r w')
    (hcore : ∀ time o, k.id o ∈ ids → core (setState time o) = core o)
    (hid : ∀ time o, k.id (setState time o) = k.id o) :
    ∃ os, Stored w w' k os ∧ os.map core = (w.store k).objects.map core := by
  rw [Repo.batchUpdate] at h
  rcases except_bind_inv h with ⟨e, rfl, h1⟩ | ⟨time, w1, _, es2, h1, h2, rfl⟩
  · exact ⟨_, (now_inv h1).1.stored k, rfl⟩
  have hstart : ∃ os, Stored w w1 k os ∧ os.map core = (w.store k).objects.map core :=
    ⟨_, (now_inv h1).1.stored k, rfl⟩
  refine (forM_calls (fun w' => ∃ os, Stored w w' k os ∧ os.map core = (w.store k).objects.map core)
    (fun _ => True) ?_ h2 hstart).2
  rintro id hmem w2 es r w3 ⟨os, hs, hmap⟩ hr
  refine ⟨fun _ _ => trivial, ?_⟩
  obtain ⟨a, w4, _, es2, hg, h2, rfl⟩ := attempt_bind_inv hr
  obtain ⟨hu, hget⟩ := get_inv hg
  have hs4 := hs.trans (hu.stored k)
  rw [hs.objects] at hs4
  cases a with
  | error err =>
    have : w3 = w4 := by
      simp only at h2
      split at h2
      · exact (pure_ok_inv h2).2.2
      · exact (throw_inv h2).2.2
    exact ⟨os, this ▸ hs4, hmap⟩
  | ok o =>
    have hfound : o ∈ os ∧ k.id o = id := by
      rcases hget with hget | hget
      · rw [← hs.objects]
        exact Resources.get_eq_ok.mp hget.symm
      · cases hget
    have hupd : ∃ r', ApiRuns go env (Api.update k (setState time o)) w4 es2 r' w3 := by
      rcases mapError_inv h2 with ⟨_, _, hr⟩ | ⟨_, _, hr⟩
      · exact ⟨_, hr⟩
      · exact ⟨_, hr⟩
    obtain ⟨_, hupd⟩ := hupd
    obtain ⟨os', hs', -, hor⟩ := update_inv hupd
    rw [hs4.objects] at hor
    refine ⟨os', hs4.trans hs', ?_⟩
    rcases hor with rfl | rfl
    · exact hmap
    · rw [← hmap, map_map]
      refine map_congr_left fun o' ho' => ?_
      simp only [Function.comp_apply]
      split
      · rename_i heq
        rw [hid] at heq
        have hnodup : (os.map k.id).Nodup := hs.objects ▸ (w2.store k).nodup
        rw [hcore time o (hfound.2 ▸ hmem), inj_on_of_nodup_map hnodup ho' hfound.1 heq]
      · rfl

theorem updateOwner_inv {o} (h : ApiRuns go env (Repo.updateOwner k o) w es r w') :
    ∃ os, Stored w w' k os ∧ (r = .ok () → o ∈ os) ∧ (os = (w.store k).objects ∨
      os = (w.store k).objects.map fun o' => if k.id o' = k.id o then o else o') := by
  rcases except_bind_inv h with ⟨e, rfl, h1⟩ | ⟨a, _, _, _, h1, h2, rfl⟩
  · rcases mapError_inv h1 with ⟨_, he, _⟩ | ⟨_, _, hg⟩
    · cases he
    · exact ⟨_, (get_inv hg).1.stored k, nofun, .inl rfl⟩
  · have hu := (get_inv (wrapping_ok h1)).1
    obtain ⟨os, hs, hnew, hor⟩ := update_inv h2
    rw [hu.store] at hor
    exact ⟨os, Stored.after hu hs, hnew, hor⟩

/-! ## The two kinds of intents -/

/-- What delivery does not change of an intent: what a decision maker is told
of it, and its owner. -/
def ScheduleIntent.core (intent : ScheduleIntent) : DecisionMaker.Intent × ObjectID :=
  (intent.toIntent, intent.strategyID)

def NodeSchedulingIntent.core (intent : NodeSchedulingIntent) : DecisionMaker.NodePolicy × ObjectID :=
  (intent.toNodePolicy, intent.policyID)

theorem batchUpdateIntentsState_inv {newState}
    (h : ApiRuns go env (Repo.batchUpdateIntentsState ids newState) w es r w') :
    ∃ os, Stored w w' .intent os ∧ os.map ScheduleIntent.core = w.intents.map ScheduleIntent.core :=
  batchUpdate_inv _ h (fun _ _ _ => rfl) (fun _ _ => rfl)

theorem batchUpdateNodeIntentsState_inv {newState}
    (h : ApiRuns go env (Repo.batchUpdateNodeIntentsState ids newState) w es r w') :
    ∃ os, Stored w w' .nodeIntent os ∧
      os.map NodeSchedulingIntent.core = w.nodeIntents.map NodeSchedulingIntent.core :=
  batchUpdate_inv _ h (fun _ _ _ => rfl) (fun _ _ => rfl)

theorem filter_strategyID (intents : List ScheduleIntent) (id : ObjectID) :
    (intents.filter fun intent => !(Kind.intent.labels intent).contains (labelStrategyID, id.hex)) =
      intents.filter fun intent => intent.strategyID ≠ id := by
  refine filter_congr fun intent _ => ?_
  simp [Kind.labels, labelStrategyID, labelCreatorID, labelState, ObjectID.hex_injective.eq_iff, eq_comm]

theorem filter_policyID (intents : List NodeSchedulingIntent) (id : ObjectID) :
    (intents.filter fun intent => !(Kind.nodeIntent.labels intent).contains (labelNodePolicyID, id.hex)) =
      intents.filter fun intent => intent.policyID ≠ id := by
  refine filter_congr fun intent _ => ?_
  simp [Kind.labels, labelNodePolicyID, labelCreatorID, labelState, ObjectID.hex_injective.eq_iff, eq_comm]

theorem deleteIntentsByStrategyID_ok {id} (h : ApiRuns go env (Repo.deleteIntentsByStrategyID id) w es (.ok ()) w') :
    Stored w w' .intent (w.intents.filter fun intent => intent.strategyID ≠ id) := by
  rw [← filter_strategyID]
  exact deleteByLabel_ok h

theorem deleteNodeIntentsByPolicyID_ok {id}
    (h : ApiRuns go env (Repo.deleteNodeIntentsByPolicyID id) w es (.ok ()) w') :
    Stored w w' .nodeIntent (w.nodeIntents.filter fun intent => intent.policyID ≠ id) := by
  rw [← filter_policyID]
  exact deleteByLabel_ok h

end Gthulhu.Manager
