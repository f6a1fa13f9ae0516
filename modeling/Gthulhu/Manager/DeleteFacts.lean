/-
What deleting does to the intents that stay.

The store forgets intents by ID; the decision makers are told pods. So an
intent that stays in the store is lost to its decision maker exactly when it
is for a pod of a deleted one (`delete_removesOnly_iff`): by another strategy
for the same pod, or another intent of the same strategy.

Stale intents are removed one strategy after the other. The rounds do not
interfere in the store, each touching its own strategy's intents, but each
names its pods to every online decision maker on its stale nodes
(`refreshStaleIntents_refreshed`).
-/
import Gthulhu.Manager.StrategyFacts

namespace Gthulhu.Manager

open Lib World Prog DecisionMaker List Run OneNode

variable {go : SliceSort} {env : Nat → Choice} {w w' : World} {calls : Calls}

/-! ## The property -/

/-- What a run has removed from the store. -/
def deletedIntents (w w' : World) : List ScheduleIntent := w.intents.filter fun i => i ∉ w'.intents

/-- The online decision makers on the nodes of deleted intents hold what is
left of their node in the store, and none of the deleted. -/
def DeletesOnly (w w' : World) : Prop :=
  ∀ dm ∈ w.cluster.decisionMakers, dm.state = .online → (∃ d ∈ deletedIntents w w', d.nodeID = dm.nodeID) →
    (∀ i ∈ w.intents, i ∈ w'.intents → i.nodeID = dm.nodeID → i.toIntent ∈ (w'.process dm).intents) ∧
      ∀ d ∈ deletedIntents w w', d.toIntent ∉ (w'.process dm).intents

instance (w w' : World) : Decidable (DeletesOnly w w') :=
  inferInstanceAs (Decidable (∀ dm ∈ w.cluster.decisionMakers, _ → (∃ d ∈ deletedIntents w w', _) →
    (∀ i ∈ w.intents, _ → _ → _) ∧ ∀ d ∈ deletedIntents w w', _))

/-- An online decision maker on the node of a deleted intent. -/
def World.Affects (w : World) (gone : ScheduleIntent → Prop) (dm : DecisionMakerPod) : Prop :=
  dm.state = .online ∧ ∃ d ∈ w.intents, gone d ∧ d.nodeID = dm.nodeID

/-- No pod dropped at the endpoint of a decision maker that loses an intent has
an intent on its node that stays. -/
def World.DropsNoneLeft (w : World) (gone : ScheduleIntent → Prop) (drop : DecisionMakerPod → String → Prop) : Prop :=
  ∀ dm ∈ w.cluster.decisionMakers, w.Affects gone dm → ∀ i ∈ w.intents, ¬gone i → i.nodeID = dm.nodeID →
    ∀ dm' ∈ w.cluster.decisionMakers, dm'.endpoint = dm.endpoint → ¬drop dm' i.podID

instance (w : World) (gone : ScheduleIntent → Prop) (drop : DecisionMakerPod → String → Prop) [DecidablePred gone]
    [∀ dm podID, Decidable (drop dm podID)] : Decidable (w.DropsNoneLeft gone drop) :=
  inferInstanceAs (Decidable (∀ dm ∈ w.cluster.decisionMakers, (_ ∧ ∃ d ∈ w.intents, gone d ∧ _) →
    ∀ i ∈ w.intents, ¬gone i → _ → ∀ dm' ∈ w.cluster.decisionMakers, _ → ¬drop dm' i.podID))

section

variable {gone : ScheduleIntent → Prop} {drop : DecisionMakerPod → String → Prop}
  (hstore : ∀ i ∈ w.intents, i ∈ w'.intents ↔ ¬gone i)
include hstore

theorem mem_deletedIntents {i} : i ∈ deletedIntents w w' ↔ i ∈ w.intents ∧ gone i := by
  rw [deletedIntents, mem_filter, decide_eq_true_iff]
  exact and_congr_right fun hi => by rw [hstore i hi, not_not]

/-- Deleting removes only the deleted exactly if no pod dropped has an intent
that stays: what is dropped at an endpoint must have reached someone there. -/
theorem deletesOnly_iff (hsync : w.InSync) (hdrops : Drops w w' drop calls)
    (hclean : CleanFor (fun dm => dm.state = .online) calls)
    (hdms : ∀ dm podID, drop dm podID → dm ∈ w.cluster.decisionMakers)
    (hcovers : ∀ dm ∈ w.cluster.decisionMakers, w.Affects gone dm → ∀ d ∈ w.intents, gone d → d.nodeID = dm.nodeID →
      drop dm d.podID)
    (hreached : ∀ dm ∈ w.cluster.decisionMakers, w.Affects gone dm → ∀ dm' podID, dm'.endpoint = dm.endpoint →
      drop dm' podID → ∃ dm'', dm''.endpoint = dm.endpoint ∧ dm''.state = .online ∧ drop dm'' podID) :
    DeletesOnly w w' ↔ w.DropsNoneLeft gone drop := by
  have hgone := fun i => mem_deletedIntents hstore (i := i)
  constructor
  · rintro h dm hdm haff i hi hstays hnode dm' - he hdrop
    obtain ⟨honline, d, hd, hdgone, hdnode⟩ := haff
    obtain ⟨hkept, -⟩ := h dm hdm honline ⟨d, (hgone d).mpr ⟨hd, hdgone⟩, hdnode⟩
    have hmem := hkept i hi ((hstore i hi).mpr hstays) hnode
    obtain ⟨dm'', he'', honline'', hdrop''⟩ :=
      hreached dm hdm ⟨honline, d, hd, hdgone, hdnode⟩ dm' i.podID he hdrop
    rw [World.process, ← he''] at hmem
    exact hdrops.gone _ hclean dm'' honline'' _ hmem hdrop''
  · rintro h dm hdm honline ⟨d, hd, hdnode⟩
    obtain ⟨hd, hdgone⟩ := (hgone d).mp hd
    have haff : w.Affects gone dm := ⟨honline, d, hd, hdgone, hdnode⟩
    refine ⟨fun i hi hi' hnode => ?_, fun d' hd' hmem => ?_⟩
    · exact hdrops.keep _ _ (hsync.held hdm honline hi hnode) fun dm' he hdrop =>
        h dm hdm haff i hi ((hstore i hi).mp hi') hnode dm' (hdms dm' _ hdrop) he hdrop
    · obtain ⟨hd', hgone'⟩ := (hgone d').mp hd'
      -- held before, it is an intent of the decision maker's own node
      obtain ⟨i, -, hnode, hwire⟩ := (hsync dm hdm honline _).mp (hdrops.sub _ _ hmem)
      have hnode' : d'.nodeID = dm.nodeID := (congrArg Intent.nodeID hwire).symm.trans hnode
      exact hdrops.gone _ hclean dm honline _ hmem (hcovers dm hdm haff d' hd' hgone' hnode')

end

/-! ## Deleting on request -/

/-- What is deleted has no pod in common with what stays, on the nodes of the
decision makers that lose an intent. -/
def World.NoSharedPod (w : World) (gone : ScheduleIntent → Prop) : Prop :=
  ∀ dm ∈ w.cluster.decisionMakers, w.Affects gone dm → ∀ i ∈ w.intents, ¬gone i → i.nodeID = dm.nodeID →
    ∀ d ∈ w.intents, gone d → i.podID ≠ d.podID

instance (w : World) (gone : ScheduleIntent → Prop) [DecidablePred gone] : Decidable (w.NoSharedPod gone) :=
  inferInstanceAs (Decidable (∀ dm ∈ w.cluster.decisionMakers, (_ ∧ ∃ d ∈ w.intents, gone d ∧ _) →
    ∀ i ∈ w.intents, ¬gone i → _ → ∀ d ∈ w.intents, gone d → _))

/-- The case of one round, where all that is deleted is told to all on its nodes. -/
theorem deletesOnly_iff_noSharedPod {gone deleted} (hsync : w.InSync)
    (hstore : ∀ i ∈ w.intents, i ∈ w'.intents ↔ ¬gone i) (hdeleted : ∀ i, i ∈ deleted ↔ i ∈ w.intents ∧ gone i)
    (hdrops : Drops w w' (w.Told deleted) calls) (hclean : CleanFor (fun dm => dm.state = .online) calls) :
    DeletesOnly w w' ↔ w.NoSharedPod gone := by
  have htold : ∀ dm ∈ w.cluster.decisionMakers, w.Affects gone dm → ∀ podID, (∃ d ∈ deleted, d.podID = podID) →
      w.Told deleted dm podID := by
    rintro dm hdm ⟨-, d, hd, hdgone, hnode⟩ podID hpod
    exact ⟨⟨hdm, d, (hdeleted d).mpr ⟨hd, hdgone⟩, hnode⟩, hpod⟩
  rw [deletesOnly_iff hstore hsync hdrops hclean (fun dm podID htold => htold.1.1)
    (fun dm hdm haff d hd hdgone _ => htold dm hdm haff _ ⟨d, (hdeleted d).mpr ⟨hd, hdgone⟩, rfl⟩)
    (fun dm hdm haff _ podID _ hdrop => ⟨dm, rfl, haff.1, htold dm hdm haff podID hdrop.2⟩)]
  constructor
  · intro h dm hdm haff i hi hstays hnode d hd hdgone hpod
    exact h dm hdm haff i hi hstays hnode dm hdm rfl
      (htold dm hdm haff _ ⟨d, (hdeleted d).mpr ⟨hd, hdgone⟩, hpod.symm⟩)
  · rintro h dm hdm haff i hi hstays hnode dm' - - ⟨-, d, hd, hpod⟩
    obtain ⟨hd, hdgone⟩ := (hdeleted d).mp hd
    exact h dm hdm haff i hi hstays hnode d hd hdgone hpod.symm

/-- The strategies stored. -/
def World.strategies (w : World) : List ScheduleStrategy := (w.store .strategy).objects

theorem queryStrategies_ok {opt os es} (h : ApiRuns go env (Repo.queryStrategies opt) w es (.ok os) w')
    (o : ScheduleStrategy) :
    o ∈ os ↔ o ∈ w.strategies ∧ (opt.ids = [] ∨ o.id ∈ opt.ids) ∧ Repo.matchesStrategyFilter opt o = true := by
  refine query_ok (fun o hm => ?_) h o
  simp only [Repo.matchesStrategyFilter, Bool.and_eq_true] at hm
  exact selects_buildLabelSelector (by simp [Kind.labels]) hm.1

/-- A strategy deleted: its intents are gone from the store and their pods told. -/
theorem deleteScheduleStrategy_ok {operator strategyID}
    (h : Runs go env (deleteScheduleStrategy operator strategyID) w calls (.ok ()) w') :
    ∃ id, objectIDFromHex strategyID = .ok id ∧ w'.intents = w.intentsOfOthers id ∧
      (∀ s ∈ w.strategies, s.id ≠ id → s ∈ w'.strategies) ∧ Drops w w' (w.Told (w.intentsOf id)) calls := by
  rw [deleteScheduleStrategy] at h
  obtain ⟨id, _, _, _, h1, h2, rfl⟩ := ok_bind_inv h
  obtain ⟨hid, rfl⟩ := parse_ok h1
  obtain ⟨operatorID, _, _, _, h3, h4, rfl⟩ := ok_bind_inv h2
  obtain ⟨_, rfl⟩ := parse_ok h3
  obtain ⟨existing, _, _, _, h5, h6, rfl⟩ := ok_bind_inv h4
  obtain ⟨_, hq1⟩ := call_ok h5
  have hu1 := queryStrategies_unchanged hq1
  split at h6
  · exact (throw_ok h6).elim
  obtain ⟨intents, _, _, _, h7, h8, rfl⟩ := ok_bind_inv h6
  obtain ⟨_, hq2⟩ := wrapped_ok h7
  obtain ⟨hu2, hintents⟩ := queryIntentsOf_ok hq2
  obtain ⟨nodes, _, _, _, h9, h10, rfl⟩ := ok_bind_inv h8
  obtain ⟨hu3, _, ⟨⟩, hnodes⟩ := keySet_inv h9
  obtain ⟨podIDs, _, _, _, h11, h12, rfl⟩ := ok_bind_inv h10
  obtain ⟨hu4, _, ⟨⟩, hpods⟩ := keySet_inv h11
  have hu := ((hu1.trans hu2).trans hu3).trans hu4
  obtain ⟨⟨⟩, _, _, _, h13, h14, rfl⟩ := ok_bind_inv h12
  obtain ⟨_, hdel⟩ := wrapped_ok h13
  have hs1 := deleteIntentsByStrategyID_ok hdel
  obtain ⟨⟨⟩, w8, _, _, h15, h16, rfl⟩ := ok_bind_inv h14
  obtain ⟨_, hdel'⟩ := wrapped_ok h15
  obtain ⟨os, hs2, -, hkeep⟩ := deleteOwner_inv hdel'
  obtain ⟨-, hstore, hdrops⟩ := notifyDelete_inv hnodes hpods h16
  have hcluster : w8.cluster = w.cluster := by rw [hs2.cluster, hs1.cluster, hu.cluster]
  have hproc : w8.processes = w.processes := by rw [hs2.processes, hs1.processes, hu.processes]
  refine ⟨id, hid, ?_, fun s hs hne => ?_, (hdrops.after hproc hcluster).congr (told_congr (fun i => ?_) hcluster)
    fun P hc => fun e he => hc e (by simp [he])⟩
  · rw [World.intents, hstore, hs2.others _ (by decide), hs1.objects, hu.intents]
    rfl
  · rw [hs1.others _ (by decide), hu.store] at hkeep
    rw [World.strategies, hstore, hs2.objects]
    exact hkeep s hs hne
  · rw [hintents, mem_intentsOf, mem_intentsOf, hu1.intents]

theorem parseIDs_ok {message texts ids} (h : Runs go env (parseIDs message texts) w calls (.ok ids) w') :
    texts.mapM objectIDFromHex = .ok ids ∧ ids.length = texts.length ∧ w = w' := by
  induction texts generalizing calls ids w with
  | nil =>
    obtain ⟨_, ⟨⟩, rfl⟩ := pure_ok_inv h
    exact ⟨rfl, rfl, rfl⟩
  | cons text texts ih =>
    rw [parseIDs] at h
    obtain ⟨id, _, _, _, h1, h2, rfl⟩ := ok_bind_inv h
    obtain ⟨hid, rfl⟩ := parse_ok h1
    obtain ⟨rest, _, _, _, h3, h4, rfl⟩ := ok_bind_inv h2
    obtain ⟨_, ⟨⟩, rfl⟩ := pure_ok_inv h4
    obtain ⟨hrest, hlen, rfl⟩ := ih h3
    rw [mapM_cons, hid, hrest, length_cons, length_cons, hlen]
    exact ⟨rfl, rfl, rfl⟩

/-- As many intents found as asked for are all that have these IDs. -/
theorem queryIntents_complete {opt os es} (h : ApiRuns go env (Repo.queryIntents opt) w es (.ok os) w')
    (hne : opt.ids ≠ []) (hcount : os.length = opt.ids.length)
    (i : ScheduleIntent) : i ∈ os ↔ i ∈ w.intents ∧ i.id ∈ opt.ids := by
  have hos := queryIntents_ok h
  rw [Repo.queryIntents, Repo.query, if_pos (by simpa using hne)] at h
  constructor
  · intro hi
    obtain ⟨hi, hid, -⟩ := (hos i).mp hi
    exact ⟨hi, hid.resolve_left hne⟩
  · rintro ⟨hi, hid⟩
    obtain ⟨o, ho, hoid⟩ := (getMatching_ok h).2.2 hcount i.id hid
    have : i = o := inj_on_of_nodup_map (w.store .intent).nodup hi ((hos o).mp ho).1 hoid.symm
    exact this ▸ ho

/-- Intents deleted: they are gone from the store and their pods told. -/
theorem deleteScheduleIntents_ok {operator intentIDs}
    (h : Runs go env (deleteScheduleIntents operator intentIDs) w calls (.ok ()) w') :
    ∃ ids, intentIDs.mapM objectIDFromHex = .ok ids ∧ w'.intents = w.intents.filter (fun i => i.id ∉ ids) ∧
      w'.strategies = w.strategies ∧ Drops w w' (w.Told (w.intents.filter fun i => i.id ∈ ids)) calls := by
  rw [deleteScheduleIntents] at h
  split at h
  · rename_i hnil
    obtain rfl := isEmpty_iff.mp hnil
    obtain ⟨_, ⟨⟩, rfl⟩ := pure_ok_inv h
    refine ⟨[], rfl, by simp, rfl, .of_same rfl rfl fun _ _ dm podID hd => ?_⟩
    simp [World.Told] at hd
  rename_i hnotnil
  obtain ⟨operatorID, _, _, _, h1, h2, rfl⟩ := ok_bind_inv h
  obtain ⟨_, rfl⟩ := parse_ok h1
  obtain ⟨ids, _, _, _, h3, h4, rfl⟩ := ok_bind_inv h2
  obtain ⟨hids, hlen, rfl⟩ := parseIDs_ok h3
  have hne : ids ≠ [] := by
    rintro rfl
    exact hnotnil (by simpa using hlen.symm)
  obtain ⟨intents, w3, _, _, h5, h6, rfl⟩ := ok_bind_inv h4
  obtain ⟨_, hq⟩ := call_ok h5
  have hu1 : Unchanged w w3 := query_unchanged hq
  dsimp only at h6
  split at h6
  · exact (throw_ok h6).elim
  split at h6
  · exact (throw_ok h6).elim
  split at h6
  · exact (throw_ok h6).elim
  rename_i hcount
  have hcount : intents.length = ids.length := by
    rwa [not_not, filter_eq_self.mpr fun i hi => ?_] at hcount
    have hid := ((queryIntents_ok hq i).mp hi).2.1.resolve_left hne
    simpa using hid
  have hintents := queryIntents_complete hq hne hcount
  obtain ⟨nodes, _, _, _, h7, h8, rfl⟩ := ok_bind_inv h6
  obtain ⟨hu2, _, ⟨⟩, hnodes⟩ := keySet_inv h7
  obtain ⟨podIDs, _, _, _, h9, h10, rfl⟩ := ok_bind_inv h8
  obtain ⟨hu3, _, ⟨⟩, hpods⟩ := keySet_inv h9
  have hu := (hu1.trans hu2).trans hu3
  obtain ⟨⟨⟩, w6, _, _, h11, h12, rfl⟩ := ok_bind_inv h10
  obtain ⟨_, hdel⟩ := wrapped_ok h11
  have hs := deleteIDs_ok hdel
  obtain ⟨-, hstore, hdrops⟩ := notifyDelete_inv hnodes hpods h12
  have hcluster : w6.cluster = w.cluster := by rw [hs.cluster, hu.cluster]
  have hproc : w6.processes = w.processes := by rw [hs.processes, hu.processes]
  refine ⟨ids, hids, ?_, ?_, (hdrops.after hproc hcluster).congr (told_congr (fun i => ?_) hcluster)
    fun P hc => fun e he => hc e (by simp [he])⟩
  · rw [World.intents, hstore, hs.objects, hu.store]
    rfl
  · rw [World.strategies, hstore, hs.others _ (by decide), hu.store]
    rfl
  · rw [hintents, mem_filter, decide_eq_true_iff]

/-! ## Stale intents -/

/-- The stored intents of a strategy for pods it no longer selects. -/
def World.staleOf (w : World) (strategy : ScheduleStrategy) : List ScheduleIntent :=
  staleIntents (w.selectedPods strategy) (w.intentsOf strategy.id)

variable {strategy : ScheduleStrategy}

theorem World.mem_staleOf {i} :
    i ∈ w.staleOf strategy ↔
      (i ∈ w.intents ∧ i.strategyID = strategy.id) ∧ ∀ pod ∈ w.selectedPods strategy, pod.podID ≠ i.podID := by
  simp [World.staleOf, staleIntents, mem_intentsOf]

/-- Whom one round tells what. -/
def World.ToldStale (w : World) (strategy : ScheduleStrategy) (dm : DecisionMakerPod) (podID : String) : Prop :=
  dm.state = .online ∧ w.Told (w.staleOf strategy) dm podID

instance (w : World) (strategy : ScheduleStrategy) (dm : DecisionMakerPod) (podID : String) :
    Decidable (w.ToldStale strategy dm podID) :=
  inferInstanceAs (Decidable (dm.state = .online ∧ (dm ∈ w.cluster.decisionMakers ∧ ∃ i ∈ w.staleOf strategy, _) ∧
    ∃ i ∈ w.staleOf strategy, _))

theorem notifyDMsDeleteIntents_inv {intents r} (hne : intents ≠ [])
    (h : Runs go env (notifyDMsDeleteIntents (intents.map fun i => i.nodeID) (intents.map fun i => i.podID)) w calls r w') :
    r = .ok () ∧ w'.store = w.store ∧
      Drops w w' (fun dm podID => dm.state = .online ∧ w.Told intents dm podID) calls := by
  rw [notifyDMsDeleteIntents, if_neg (by simpa using hne)] at h
  rcases except_bind_inv h with ⟨e, _, h1⟩ | ⟨nodes, _, _, _, h1, h2, rfl⟩
  · obtain ⟨_, _, he, _⟩ := keySet_inv h1
    cases he
  obtain ⟨hu, _, ⟨⟩, hnodes⟩ := keySet_inv h1
  obtain ⟨hr, hstore, hdrops⟩ := notifyLoop_inv (fun dm => dm.state = .online) (fun {dm _ _ _ _} h => by
    split at h
    · rename_i hoff
      obtain ⟨_, rfl, rfl⟩ := pure_ok_inv h
      exact ⟨rfl, rfl, .of_same rfl rfl fun _ _ _ _ hd => hoff (hd.1.1 ▸ hd.1.2)⟩
    · rename_i hon
      obtain ⟨hr, hstore, hdrops⟩ := dropPods_inv h
      refine ⟨hr, hstore, hdrops.congr (fun dm' _ => ?_) fun _ => id⟩
      refine and_congr_left fun _ => (and_iff_left_of_imp ?_).symm
      rintro rfl
      exact not_not.mp hon) hnodes (fun _ => .rfl) hne h2
  refine ⟨hr, hstore.trans hu.store, (hdrops.after hu.processes hu.cluster).congr (fun dm podID => ?_)
    fun _ => CleanFor.right⟩
  rw [told_congr (fun _ => .rfl) hu.cluster]

/-- The pods without an intent get theirs. -/
theorem addIntents_ok {pods r} (hclean : CleanFor (fun dm => dm.state = .online) calls)
    (h : Runs go env (addIntents strategy pods) w calls r w') :
    r = .ok () ∧ w'.processes = w.processes ∧ w'.cluster = w.cluster ∧ w'.strategies = w.strategies ∧
      ∃ added, w'.intents = w.intents ++ added ∧
        added.map ScheduleIntent.core = pods.map fun pod => (strategy.intentFor pod, strategy.id) := by
  rcases except_bind_inv h with ⟨e, _, h1⟩ | ⟨intents, _, _, _, h1, h2, rfl⟩
  · obtain ⟨_, _, he, _⟩ := newScheduleIntents_inv h1
    cases he
  obtain ⟨hu, _, ⟨⟩, hcore⟩ := newScheduleIntents_inv h1
  split at h2
  · obtain ⟨a, _, _, _, h3, h4, rfl⟩ := attempt_bind_inv h2
    obtain ⟨_, rfl, rfl⟩ := pure_ok_inv h4
    obtain ⟨inserted, rfl⟩ := hclean.right.left.call_ok h3 nofun
    obtain ⟨_, hins⟩ := call_ok h3
    obtain ⟨added, hs, -, hadded⟩ := insertAll_inv ScheduleIntent.core (fun _ _ _ => rfl) hins
    refine ⟨rfl, hs.processes.trans hu.processes, hs.cluster.trans hu.cluster, ?_, added, ?_, (hadded _ rfl).2.trans hcore⟩
    · rw [World.strategies, hs.others _ (by decide), hu.store]
      rfl
    · rw [World.intents, hs.objects, hu.store]
      rfl
  · rename_i hempty
    obtain ⟨_, rfl, rfl⟩ := pure_ok_inv h2
    have hnil : intents = [] := by simpa using hempty
    rw [hnil] at hcore
    exact ⟨rfl, hu.processes, hu.cluster, by rw [World.strategies, hu.store]; rfl, [],
      by rw [append_nil, hu.intents], hcore⟩

/-- The pods of a strategy without an intent of it. -/
def World.newPods (w : World) (strategy : ScheduleStrategy) : List Pod :=
  (w.selectedPods strategy).filter fun pod => !(w.intentsOf strategy.id).any fun i => i.podID = pod.podID

/-- They are found by the intents the repository has returned, in any order. -/
theorem newPods_of {intents : List ScheduleIntent} (hof : ∀ i, i ∈ intents ↔ i ∈ w.intentsOf strategy.id) :
    ((w.selectedPods strategy).filter fun pod => !intents.any fun intent => intent.podID = pod.podID) =
      w.newPods strategy := by
  refine filter_congr fun pod _ => ?_
  rw [Bool.eq_iff_iff]
  simp [hof]

theorem World.mem_newPods {pod} :
    pod ∈ w.newPods strategy ↔
      pod ∈ w.selectedPods strategy ∧ ∀ i ∈ w.intentsOf strategy.id, i.podID ≠ pod.podID := by
  simp [World.newPods]

/-- What a strategy's round has made of the stored intents. -/
structure Round (w w' : World) (strategy : ScheduleStrategy) (added : List ScheduleIntent) : Prop where
  cluster : w'.cluster = w.cluster
  strategies : w'.strategies = w.strategies
  intents : w'.intents = (w.intents.filter fun i => i ∉ w.staleOf strategy) ++ added
  added : added.map ScheduleIntent.core = (w.newPods strategy).map fun pod => (strategy.intentFor pod, strategy.id)

/-- One round in which nothing fails. -/
theorem refreshStrategy_inv {r : Except Error Unit} (hclean : CleanFor (fun dm => dm.state = .online) calls)
    (h : Runs go env (refreshStrategy strategy) w calls r w') :
    r = .ok () ∧ (∃ added, Round w w' strategy added) ∧ Drops w w' (w.ToldStale strategy) calls := by
  rw [refreshStrategy] at h
  obtain ⟨a, _, _, _, h1, h2, rfl⟩ := attempt_bind_inv h
  obtain ⟨pods, rfl⟩ := hclean.left.call_ok h1 nofun
  obtain ⟨hu1, rfl⟩ := selectedPods_ok h1
  obtain ⟨a, _, _, _, h3, h4, rfl⟩ := attempt_bind_inv h2
  obtain ⟨intents, rfl⟩ := hclean.right.left.call_ok h3 nofun
  obtain ⟨_, hq⟩ := call_ok h3
  obtain ⟨hu2, hintents⟩ := queryIntentsOf_ok hq
  have hu := hu1.trans hu2
  have hof : ∀ i, i ∈ intents ↔ i ∈ w.intentsOf strategy.id := fun i => by
    rw [hintents, mem_intentsOf, mem_intentsOf, hu1.intents]
  have hstale : ∀ i, i ∈ staleIntents (w.selectedPods strategy) intents ↔ i ∈ w.staleOf strategy := fun i => by
    rw [staleOf, staleIntents, staleIntents, mem_filter, mem_filter, hof]
  dsimp only at h4
  rw [newPods_of hof] at h4
  split at h4
  · rename_i hne
    obtain ⟨a, w3, _, _, h5, h6, rfl⟩ := attempt_bind_inv h4
    obtain ⟨⟨⟩, rfl⟩ := hclean.right.right.left.call_ok h5 nofun
    obtain ⟨_, hdel⟩ := call_ok h5
    have hs := deleteIDs_ok hdel
    rcases except_bind_inv h6 with ⟨e, _, h7⟩ | ⟨⟨⟩, w4, _, _, h7, h8, rfl⟩
    · cases (notifyDMsDeleteIntents_inv (by simpa using hne) h7).1
    obtain ⟨-, hstore, hdrops⟩ := notifyDMsDeleteIntents_inv (by simpa using hne) h7
    obtain ⟨hr, hproc, hcluster, hstrategies, added, hadd, hadded⟩ := addIntents_ok hclean.right.right.right.right h8
    have hcluster3 : w3.cluster = w.cluster := hs.cluster.trans hu.cluster
    have hcluster4 : w4.cluster = w.cluster := hdrops.cluster.trans hcluster3
    refine ⟨hr, ⟨added, hcluster.trans hcluster4, ?_, ?_, hadded⟩,
      ((hdrops.after (hs.processes.trans hu.processes) hcluster3).before hproc hcluster).congr (fun dm podID => ?_)
        fun P hc e he => hc e (by simp [he])⟩
    · rw [hstrategies, World.strategies, hstore, hs.others _ (by decide), hu.store]
      rfl
    · rw [hadd, World.intents, hstore, hs.objects, hu.store]
      refine congrArg (· ++ added) (filter_congr fun i hi => ?_)
      rw [decide_eq_decide, not_iff_not, ← hstale]
      exact Resources.mem_ids (fun j hj => (mem_staleOf.mp ((hstale j).mp hj)).1.1) hi
    · rw [ToldStale, told_congr hstale hcluster3]
  · rename_i hempty
    have hnil : staleIntents (w.selectedPods strategy) intents = [] := by simpa using hempty
    have hnone : ∀ i, i ∉ w.staleOf strategy := fun i hi => by
      have := (hstale i).mpr hi
      rw [hnil] at this
      cases this
    obtain ⟨hr, hproc, hcluster, hstrategies, added, hadd, hadded⟩ := addIntents_ok hclean.right.right h4
    refine ⟨hr, ⟨added, hcluster.trans hu.cluster, ?_, ?_, hadded⟩,
      .of_same (hproc.trans hu.processes) (hcluster.trans hu.cluster) ?_⟩
    · rw [hstrategies, World.strategies, hu.store]
      rfl
    · rw [hadd, hu.intents, filter_eq_self.mpr fun i _ => decide_eq_true (hnone i)]
    · rintro P - dm podID ⟨-, ⟨-, i, hi, -⟩, -⟩
      exact hnone i hi

namespace Round

variable {strategy : ScheduleStrategy} {added : List ScheduleIntent}

theorem strategyID_added (h : Round w w' strategy added) {i} (hi : i ∈ added) :
    i.strategyID = strategy.id := by
  obtain ⟨_, _, hcore⟩ := mem_core h.added hi
  exact (Prod.mk.inj hcore).2.symm

theorem own (h : Round w w' strategy added) :
    w'.intentsOf strategy.id = ((w.intentsOf strategy.id).filter fun i => i ∉ w.staleOf strategy) ++ added := by
  rw [intentsOf, intentsOf, h.intents, filter_append, filter_filter, filter_filter]
  refine congr (congrArg HAppend.hAppend (filter_congr fun i _ => Bool.and_comm _ _)) ?_
  exact filter_eq_self.mpr fun i hi => decide_eq_true (h.strategyID_added hi)

theorem others (h : Round w w' strategy added) {id} (hne : id ≠ strategy.id) :
    w'.intentsOf id = w.intentsOf id := by
  have hadded : (added.filter fun i => i.strategyID = id) = [] :=
    filter_eq_nil_iff.mpr fun i hi hid => hne ((of_decide_eq_true hid).symm.trans (h.strategyID_added hi))
  rw [intentsOf, intentsOf, h.intents, filter_append, hadded, append_nil, filter_filter]
  refine filter_congr fun i _ => ?_
  rw [Bool.and_eq_left_iff_imp, decide_eq_true_iff, decide_eq_true_iff]
  exact fun hid hstale => hne (hid.symm.trans (mem_staleOf.mp hstale).1.2)

end Round

theorem World.selectedPods_congr (hcluster : w'.cluster = w.cluster) (strategy : ScheduleStrategy) :
    w'.selectedPods strategy = w.selectedPods strategy := by
  rw [selectedPods, selectedPods, hcluster]

theorem World.staleOf_congr (hcluster : w'.cluster = w.cluster)
    (hintents : w'.intentsOf strategy.id = w.intentsOf strategy.id) : w'.staleOf strategy = w.staleOf strategy := by
  rw [staleOf, staleOf, selectedPods_congr hcluster, hintents]

theorem World.newPods_congr (hcluster : w'.cluster = w.cluster)
    (hintents : w'.intentsOf strategy.id = w.intentsOf strategy.id) : w'.newPods strategy = w.newPods strategy := by
  rw [newPods, newPods, selectedPods_congr hcluster, hintents]

/-- What the rounds of the strategies have made of their intents. -/
structure Refreshed (w w' : World) (done : List ScheduleStrategy) : Prop where
  cluster : w'.cluster = w.cluster
  strategies : w'.strategies = w.strategies
  own : ∀ s ∈ done, ∃ added,
    w'.intentsOf s.id = ((w.intentsOf s.id).filter fun i => i ∉ w.staleOf s) ++ added ∧
      added.map ScheduleIntent.core = (w.newPods s).map fun pod => (s.intentFor pod, s.id)
  others : ∀ id, (∀ s ∈ done, id ≠ s.id) → w'.intentsOf id = w.intentsOf id

/-- All rounds, in which nothing fails. -/
theorem refreshRounds_inv {strategies r} (hnodup : (strategies.map fun s => s.id).Nodup)
    (hclean : CleanFor (fun dm => dm.state = .online) calls)
    (h : Runs go env (forM strategies refreshStrategy) w calls r w') :
    Refreshed w w' strategies ∧ Drops w w' (fun dm podID => ∃ s ∈ strategies, w.ToldStale s dm podID) calls := by
  induction strategies generalizing w calls with
  | nil =>
    obtain ⟨_, rfl, rfl⟩ := pure_ok_inv h
    exact ⟨⟨rfl, rfl, fun _ hs => absurd hs not_mem_nil, fun _ _ => rfl⟩,
      .of_same rfl rfl fun _ _ _ _ hd => by simp at hd⟩
  | cons s strategies ih =>
    rw [map_cons, nodup_cons] at hnodup
    rw [forM_cons] at h
    rcases except_bind_inv h with ⟨e, _, h1⟩ | ⟨⟨⟩, _, _, _, h1, h2, rfl⟩
    · cases (refreshStrategy_inv hclean h1).1
    obtain ⟨-, ⟨added, hround⟩, hdrops⟩ := refreshStrategy_inv hclean.left h1
    obtain ⟨hrest, hdrops'⟩ := ih hnodup.2 hclean.right h2
    -- the other strategies' rounds find what was there in the beginning
    have hne : ∀ s' ∈ strategies, s'.id ≠ s.id := fun s' hs' heq => hnodup.1 (heq ▸ mem_map_of_mem hs')
    have hsame := fun s' hs' => hround.others (hne s' hs')
    refine ⟨⟨hrest.cluster.trans hround.cluster, hrest.strategies.trans hround.strategies, fun s' hs' => ?_,
      fun id hid => ?_⟩, (hdrops.trans hdrops').congr (fun dm podID => ?_) fun _ => id⟩
    · rcases mem_cons.mp hs' with rfl | hs'
      · refine ⟨added, ?_, hround.added⟩
        rw [hrest.others _ fun s'' hs'' => (hne s'' hs'').symm, hround.own]
      · obtain ⟨added', hown, hadded'⟩ := hrest.own s' hs'
        rw [hsame s' hs', World.staleOf_congr hround.cluster (hsame s' hs')] at hown
        rw [World.newPods_congr hround.cluster (hsame s' hs')] at hadded'
        exact ⟨added', hown, hadded'⟩
    · rw [hrest.others id fun s' hs' => hid s' (mem_cons_of_mem _ hs'),
        hround.others (hid s mem_cons_self)]
    · rw [exists_mem_cons_iff]
      refine or_congr_right (exists_congr fun s' => and_congr_right fun hs' => and_congr_right fun _ => ?_)
      rw [World.staleOf_congr hround.cluster (hsame s' hs')]
      exact told_congr (fun _ => .rfl) hround.cluster dm podID

/-- The clean-up in which nothing fails: each strategy's stale pods are told to
those online on its stale nodes. -/
theorem refreshStaleIntents_refreshed (hclean : CleanFor (fun dm => dm.state = .online) calls)
    (h : Runs go env refreshStaleIntents w calls (.ok ()) w') :
    Refreshed w w' w.strategies ∧
      Drops w w' (fun dm podID => ∃ s ∈ w.strategies, w.ToldStale s dm podID) calls := by
  obtain ⟨strategies, _, _, _, h1, h2, rfl⟩ := ok_bind_inv h
  obtain ⟨_, hq⟩ := wrapped_ok h1
  have hu := queryStrategies_unchanged hq
  have hperm : strategies.Perm w.strategies := query_all (fun _ => rfl) hq
  have hnodup : (strategies.map fun s => s.id).Nodup :=
    (hperm.map fun s => s.id).nodup_iff.mpr (w.store .strategy).nodup
  rw [hu.eq] at h2
  obtain ⟨hrefreshed, hdrops⟩ := refreshRounds_inv hnodup hclean.right h2
  refine ⟨⟨hrefreshed.cluster, hrefreshed.strategies, fun s hs => hrefreshed.own s (hperm.mem_iff.mpr hs),
    fun id hid => hrefreshed.others id fun s hs => hid s (hperm.mem_iff.mp hs)⟩,
    (hdrops.after (w := w) rfl rfl).congr (fun dm podID => ?_) fun _ => CleanFor.right⟩
  simp only [hperm.mem_iff]
  rfl

/-- An intent of a stored strategy for a pod it no longer selects. -/
def World.Stale (w : World) (i : ScheduleIntent) : Prop := ∃ s ∈ w.strategies, i ∈ w.staleOf s

instance (w : World) : DecidablePred w.Stale := fun i =>
  inferInstanceAs (Decidable (∃ s ∈ w.strategies, i ∈ w.staleOf s))

/-- What is stale of the strategies is gone, and nothing else that was stored. -/
theorem Refreshed.mem_iff (h : Refreshed w w' w.strategies) {i} (hi : i ∈ w.intents) :
    i ∈ w'.intents ↔ ¬w.Stale i := by
  have hmem : i ∈ w'.intents ↔ i ∈ w'.intentsOf i.strategyID := by rw [mem_intentsOf, and_iff_left rfl]
  by_cases hs : ∃ s ∈ w.strategies, s.id = i.strategyID
  · obtain ⟨s, hs, hid⟩ := hs
    obtain ⟨added, hown, hadded⟩ := h.own s hs
    have hstale : w.Stale i ↔ i ∈ w.staleOf s := by
      refine ⟨fun ⟨s', hs', hstale⟩ => ?_, fun hstale => ⟨s, hs, hstale⟩⟩
      have hsame : s' = s := inj_on_of_nodup_map (w.store .strategy).nodup hs' hs
        ((mem_staleOf.mp hstale).1.2.symm.trans hid.symm)
      exact hsame ▸ hstale
    rw [hmem, ← hid, hown, hstale, mem_append, mem_filter, decide_eq_true_iff, mem_intentsOf,
      and_iff_right ⟨hi, hid.symm⟩, or_iff_left_of_imp]
    intro hnew hold
    obtain ⟨pod, hpod, hcore⟩ := mem_core hadded hnew
    exact (mem_staleOf.mp hold).2 pod (mem_newPods.mp hpod).1 (congrArg (fun c => c.1.podID) hcore)
  · have hnone : ∀ s ∈ w.strategies, i.strategyID ≠ s.id := fun s hs' hid => hs ⟨s, hs', hid.symm⟩
    rw [hmem, h.others _ hnone, mem_intentsOf, and_iff_left rfl]
    exact iff_of_true hi fun ⟨s, hs', hstale⟩ => hnone s hs' (mem_staleOf.mp hstale).1.2

/-! ## Deleting removes only what was deleted -/

/-- **Deleting removes only the deleted exactly if no pod is shared**: on the
nodes of the decision makers that lose an intent, no intent that stays may be
for a pod they are told to drop. -/
theorem delete_removesOnly_iff (hsync : w.InSync) (operator : Claims) :
    (∀ strategyID id calls w', objectIDFromHex strategyID = .ok id →
      Runs go env (deleteScheduleStrategy operator strategyID) w calls (.ok ()) w' →
      CleanFor (fun dm => dm.state = .online) calls →
      (DeletesOnly w w' ↔ w.NoSharedPod fun i => i.strategyID = id)) ∧
    (∀ intentIDs ids calls w', intentIDs.mapM objectIDFromHex = .ok ids →
      Runs go env (deleteScheduleIntents operator intentIDs) w calls (.ok ()) w' →
      CleanFor (fun dm => dm.state = .online) calls →
      (DeletesOnly w w' ↔ w.NoSharedPod fun i => i.id ∈ ids)) ∧
    ∀ calls w', Runs go env refreshStaleIntents w calls (.ok ()) w' →
      CleanFor (fun dm => dm.state = .online) calls →
      (DeletesOnly w w' ↔ w.DropsNoneLeft w.Stale fun dm podID => ∃ s ∈ w.strategies, w.ToldStale s dm podID) := by
  refine ⟨fun strategyID id calls w' hid h hclean => ?_, fun intentIDs ids calls w' hids h hclean => ?_,
    fun calls w' h hclean => ?_⟩
  · obtain ⟨_, hid', hstore, -, hdrops⟩ := deleteScheduleStrategy_ok h
    obtain rfl := Except.ok.inj (hid.symm.trans hid')
    refine deletesOnly_iff_noSharedPod hsync (fun i hi => ?_) (fun i => mem_intentsOf) hdrops hclean
    rw [hstore, mem_intentsOfOthers, and_iff_right hi]
  · obtain ⟨_, hids', hstore, -, hdrops⟩ := deleteScheduleIntents_ok h
    obtain rfl := Except.ok.inj (hids.symm.trans hids')
    refine deletesOnly_iff_noSharedPod hsync (fun i hi => ?_) (fun i => ?_) hdrops hclean
    · rw [hstore, mem_filter, and_iff_right hi, decide_eq_true_iff]
    · rw [mem_filter, decide_eq_true_iff]
  · obtain ⟨hrefreshed, hdrops⟩ := refreshStaleIntents_refreshed hclean h
    refine deletesOnly_iff (fun i => hrefreshed.mem_iff) hsync hdrops hclean (fun dm podID ⟨_, _, _, htold⟩ => htold.1.1) ?_ ?_
    · rintro dm hdm ⟨honline, -⟩ d - ⟨s, hs, hstale⟩ hnode
      exact ⟨s, hs, honline, ⟨hdm, d, hstale, hnode⟩, d, hstale, rfl⟩
    · rintro dm - - dm' podID he ⟨s, hs, honline, htold⟩
      exact ⟨dm', he, honline, s, hs, honline, htold⟩

namespace OneNode

/-- Strategies 6 and 7 each have an intent on the node. -/
def twoStrategiesWorld (pods : List Pod) (podID₆ podID₇ : String) : World :=
  syncedWorld pods ⟨[intent 1 6 podID₆, { intent 2 7 podID₇ with priority := 5, creatorID := objectID 9 }], by
    change [objectID 1, objectID 2].Nodup
    decide⟩

theorem twoStrategiesWorld_inSync (pods : List Pod) (podID6 podID7 : String) :
    (twoStrategiesWorld pods podID6 podID7).InSync :=
  syncedWorld_inSync fun i hi => by
    simp only [mem_cons, not_mem_nil, or_false] at hi
    rcases hi with rfl | rfl <;> rfl

end OneNode

/-- Strategy 6 is deleted, and the intent of strategy 7 for the same pod, still
stored, is gone from the decision maker. -/
theorem deleteScheduleStrategy_sharedPod :
    (twoStrategiesWorld [] "p" "p").InSync ∧
      ∃ calls a w', Runs .insertion newIDs (deleteScheduleStrategy operator (objectID 6).hex)
        (twoStrategiesWorld [] "p" "p") calls (.ok a) w' ∧
        Clean calls ∧ ¬DeletesOnly (twoStrategiesWorld [] "p" "p") w' :=
  ⟨twoStrategiesWorld_inSync _ _ _, exists_ok (by decide +kernel)⟩

/-- With a pod each, deleting strategy 6, its intent, or what is stale of it,
leaves the intent of strategy 7 alone. -/
theorem delete_removesOnly_iff_twoPods :
    (∃ calls w', Runs .insertion newIDs (deleteScheduleStrategy operator (objectID 6).hex)
        (twoStrategiesWorld [pod "q"] "p" "q") calls (.ok ()) w' ∧
        DeletesOnly (twoStrategiesWorld [pod "q"] "p" "q") w') ∧
      (∃ calls w', Runs .insertion newIDs (deleteScheduleIntents operator [(objectID 2).hex])
        (twoStrategiesWorld [pod "q"] "p" "q") calls (.ok ()) w' ∧
        DeletesOnly (twoStrategiesWorld [pod "q"] "p" "q") w') ∧
      ∃ calls w', Runs .insertion newIDs refreshStaleIntents
        (twoStrategiesWorld [pod "q"] "p" "q") calls (.ok ()) w' ∧
        DeletesOnly (twoStrategiesWorld [pod "q"] "p" "q") w' := by
  obtain ⟨hstrategy, hintents, hstale⟩ := @delete_removesOnly_iff .insertion newIDs _
    (twoStrategiesWorld_inSync [pod "q"] "p" "q") operator
  refine ⟨?_, ?_, ?_⟩
  · refine exists_unit_of (fun calls _ => Clean calls) (by decide +kernel) fun calls w' hrun hclean => ?_
    exact (hstrategy _ _ _ _ rfl hrun (hclean.for _)).mpr (by decide)
  · refine exists_unit_of (fun calls _ => Clean calls) (by decide +kernel) fun calls w' hrun hclean => ?_
    exact (hintents _ _ _ _ rfl hrun (hclean.for _)).mpr (by decide)
  · refine exists_unit_of (fun calls _ => Clean calls) (by decide +kernel) fun calls w' hrun hclean => ?_
    exact (hstale _ _ hrun (hclean.for _)).mpr (by decide)

end Gthulhu.Manager
