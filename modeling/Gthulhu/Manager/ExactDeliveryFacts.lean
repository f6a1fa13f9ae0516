/-
Who is sent what by a push, call by call.

The new intents are matched with decision makers by node, and grouped by host;
a group is sent once, to the decision maker of that host listed last. So every
decision maker is sent exactly the new intents of its node, once, and every
intent marked has been accepted on its own node, just when the decision makers
on the intents' nodes have different hosts (**`delivery_exact_iff`**). A host
is the pod's IP, or that of its node, or empty while there is neither.
-/
import Gthulhu.Manager.NodePolicy
import Gthulhu.Manager.StrategyFacts

namespace Gthulhu.Manager

open Lib World Prog List OneNode

variable {α : Type}

/-! ## What a push comes to -/

/-- The steps of a push that count: intents accepted by a decision maker, and
intents marked as sent. -/
inductive Step (α : Type) where
  | sent (dm : DecisionMakerPod) (intents : List α)
  | marked (ids : List ObjectID)

/-- The step a call is, if any. -/
def podStep : Prog.Event Call.Resp → Option (Step ScheduleIntent)
  | ⟨.sendSchedulingIntent dm intents, .ok _⟩ => some (.sent dm intents)
  | ⟨.batchUpdateIntentsState ids .sent, _⟩ => some (.marked ids)
  | _ => none

def nodeStep : Prog.Event Call.Resp → Option (Step NodeSchedulingIntent)
  | ⟨.sendNodeSchedulingPolicies dm intents, .ok _⟩ => some (.sent dm intents)
  | ⟨.batchUpdateNodeIntentsState ids .sent, _⟩ => some (.marked ids)
  | _ => none

/-- The intents accepted, with the decision makers that accepted them. -/
def sends (steps : List (Step α)) : List (DecisionMakerPod × List α) :=
  steps.filterMap fun
    | .sent dm intents => some (dm, intents)
    | .marked _ => none

/-- The intents of a decision maker's node. -/
def Channel.onNode (ch : Channel α) (dm : DecisionMakerPod) (intents : List α) : List α :=
  intents.filter fun i => ch.nodeID i = dm.nodeID

/-- Each decision maker is sent the new intents of its node, once, and none that
has none; an intent is marked when a decision maker on its node has accepted it. -/
structure Exact (ch : Channel α) (dms : List DecisionMakerPod) (intents : List α) (steps : List (Step α)) : Prop where
  once : ∀ dm ∈ dms, ((sends steps).map Prod.fst).count dm = if ch.onNode dm intents = [] then 0 else dms.count dm
  own : ∀ s ∈ sends steps, s.1 ∈ dms ∧ s.2.Perm (ch.onNode s.1 intents)
  accepted : ∀ before ids after, steps = before ++ .marked ids :: after → ∀ id ∈ ids,
    ∃ i ∈ intents, ch.id i = id ∧ ∃ dm l, .sent dm l ∈ before ∧ dm.nodeID = ch.nodeID i ∧ i ∈ l

variable {dms : List DecisionMakerPod} {intents : List α}

theorem Exact.perm {ch dms' steps} (hp : dms.Perm dms')
    (h : Exact ch dms intents steps) : Exact ch dms' intents steps where
  once dm hdm := by
    rw [← hp.count_eq]
    exact h.once dm (hp.mem_iff.mpr hdm)
  own s hs := ⟨hp.mem_iff.mp (h.own s hs).1, (h.own s hs).2⟩
  accepted := h.accepted

/-! ## The groups -/

/-- A decision maker and a new intent of its node. -/
def Channel.pairs (ch : Channel α) (dms : List DecisionMakerPod) (intents : List α) : List (DecisionMakerPod × α) :=
  dms.flatMap fun dm => (ch.onNode dm intents).map fun i => (dm, i)

section

variable (ch : Channel α) (dms : List DecisionMakerPod) (intents : List α)

theorem foldl_add_lists (dm : DecisionMakerPod) (is : List α) (groups : HostGroups α) :
    (is.foldl (fun groups i => groups.add ch dm i) groups).intents =
        ((ch.onNode dm is).map fun i => (dm, i)).foldl (fun m p => appendAt m p.1.host p.2) groups.intents ∧
      (is.foldl (fun groups i => groups.add ch dm i) groups).ids =
        ((ch.onNode dm is).map fun i => (dm, i)).foldl (fun m p => appendAt m p.1.host (ch.id p.2)) groups.ids := by
  induction is generalizing groups with
  | nil => exact ⟨rfl, rfl⟩
  | cons i is ih =>
    obtain ⟨h1, h2⟩ := ih (groups.add ch dm i)
    rw [foldl_cons, h1, h2]
    by_cases hn : ch.nodeID i = dm.nodeID
    · simp [Channel.onNode, HostGroups.add, hn]
    · simp [Channel.onNode, HostGroups.add, hn]

/-- The groups by host are those of the pairs. -/
theorem groupByHost_lists :
    (groupByHost ch dms intents).intents = groupBy (fun p => p.1.host) (fun p => p.2) (ch.pairs dms intents) ∧
      (groupByHost ch dms intents).ids = groupBy (fun p => p.1.host) (fun p => ch.id p.2) (ch.pairs dms intents) := by
  have houter : ∀ (dms : List DecisionMakerPod) (groups : HostGroups α),
      (dms.foldl (fun groups dm => intents.foldl (fun groups i => groups.add ch dm i) groups) groups).intents =
          (ch.pairs dms intents).foldl (fun m p => appendAt m p.1.host p.2) groups.intents ∧
        (dms.foldl (fun groups dm => intents.foldl (fun groups i => groups.add ch dm i) groups) groups).ids =
          (ch.pairs dms intents).foldl (fun m p => appendAt m p.1.host (ch.id p.2)) groups.ids := by
    intro dms
    induction dms with
    | nil => exact fun _ => ⟨rfl, rfl⟩
    | cons dm dms ih =>
      intro groups
      obtain ⟨h1, h2⟩ := ih (intents.foldl (fun groups i => groups.add ch dm i) groups)
      obtain ⟨h3, h4⟩ := foldl_add_lists ch dm intents groups
      rw [foldl_cons, h1, h2, h3, h4]
      simp [Channel.pairs]
  exact houter dms {}

theorem mem_pairs {p} :
    p ∈ ch.pairs dms intents ↔ p.1 ∈ dms ∧ p.2 ∈ intents ∧ ch.nodeID p.2 = p.1.nodeID := by
  obtain ⟨dm, i⟩ := p
  simp only [Channel.pairs, mem_flatMap, mem_map, Channel.onNode, mem_filter, decide_eq_true_eq,
    Prod.mk.injEq]
  constructor
  · rintro ⟨dm', hdm, i', hi, rfl, rfl⟩
    exact ⟨hdm, hi⟩
  · rintro ⟨hdm, hi⟩
    exact ⟨dm, hdm, i, hi, rfl, rfl⟩

/-- The decision makers with a new intent on their node. -/
def Channel.addressed : List DecisionMakerPod := dms.filter fun dm => ch.onNode dm intents ≠ []

theorem mem_addressed {dm} :
    dm ∈ ch.addressed dms intents ↔ dm ∈ dms ∧ ∃ i ∈ intents, ch.nodeID i = dm.nodeID := by
  simp only [Channel.addressed, Channel.onNode, mem_filter, ne_eq, filter_eq_nil_iff, decide_eq_true_eq,
    not_forall, not_not, exists_prop]

/-- The pairs of one host are those of the decision makers addressed there. -/
theorem pairs_ofHost (host : String) :
    (ch.pairs dms intents).filter (fun p => p.1.host = host) =
      ((ch.addressed dms intents).filter fun dm => dm.host = host).flatMap fun dm =>
        (ch.onNode dm intents).map fun i => (dm, i) := by
  induction dms with
  | nil => rfl
  | cons dm dms ih =>
    have hpairs : ch.pairs (dm :: dms) intents =
        ((ch.onNode dm intents).map fun i => (dm, i)) ++ ch.pairs dms intents := rfl
    rw [hpairs, filter_append, ih]
    by_cases hhost : dm.host = host
    · by_cases hnil : ch.onNode dm intents = []
      · simp [Channel.addressed, hnil]
      · simp [Channel.addressed, hnil, hhost, filter_map, Function.comp_def]
    · simp [Channel.addressed, hhost, filter_map, Function.comp_def, filter_cons, apply_ite]

end

/-- The steps of one group. -/
def HostGroups.steps (groups : HostGroups α) (g : (_ : String) × List α) : List (Step α) :=
  match groups.dms.lookup g.1 with
  | none => []
  | some dm => [.sent dm g.2, .marked ((groups.ids.lookup g.1).getD [])]

theorem mem_sends {groups : HostGroups α} {order : List ((_ : String) × List α)} {s} :
    s ∈ sends (order.flatMap groups.steps) ↔ ∃ g ∈ order, groups.dms.lookup g.1 = some s.1 ∧ s.2 = g.2 := by
  simp only [sends, mem_filterMap, mem_flatMap]
  constructor
  · rintro ⟨step, ⟨g, hg, hstep⟩, heq⟩
    refine ⟨g, hg, ?_⟩
    cases hd : groups.dms.lookup g.1 with
    | none =>
      rw [HostGroups.steps, hd] at hstep
      cases hstep
    | some dm =>
      rw [HostGroups.steps, hd] at hstep
      rcases mem_cons.mp hstep with rfl | hstep
      · cases heq
        exact ⟨rfl, rfl⟩
      · cases mem_singleton.mp hstep
        cases heq
  · rintro ⟨g, hg, hd, hl⟩
    refine ⟨.sent s.1 s.2, ⟨g, hg, ?_⟩, rfl⟩
    rw [HostGroups.steps, hd, hl]
    exact mem_cons_self

/-- A group's send comes before its mark. -/
theorem marked_inv {groups : HostGroups α} {before after ids} :
    ∀ {order : List ((_ : String) × List α)}, order.flatMap groups.steps = before ++ .marked ids :: after →
      ∃ g ∈ order, ids = (groups.ids.lookup g.1).getD [] ∧
        ∃ dm, groups.dms.lookup g.1 = some dm ∧ .sent dm g.2 ∈ before
  | [], h => by
    rw [flatMap_nil] at h
    cases (append_eq_nil_iff.mp h.symm).2
  | g :: order, h => by
    rw [flatMap_cons] at h
    cases hd : groups.dms.lookup g.1 with
    | none =>
      have hnil : groups.steps g = [] := by rw [HostGroups.steps, hd]
      rw [hnil, nil_append] at h
      obtain ⟨g', hg', hrest⟩ := marked_inv h
      exact ⟨g', mem_cons_of_mem _ hg', hrest⟩
    | some dm =>
      have htwo : groups.steps g = [.sent dm g.2, .marked ((groups.ids.lookup g.1).getD [])] := by
        rw [HostGroups.steps, hd]
      rw [htwo] at h
      match before, h with
      | [], h => cases h
      | [step], h =>
        cases h
        exact ⟨g, mem_cons_self, rfl, dm, hd, mem_singleton_self _⟩
      | _ :: _ :: before, h =>
        simp only [cons_append, nil_append, List.cons.injEq] at h
        obtain ⟨-, -, hrest⟩ := h
        obtain ⟨g', hg', hids, dm', hd', hmem⟩ := marked_inv hrest
        exact ⟨g', mem_cons_of_mem _ hg', hids, dm', hd', mem_cons_of_mem _ (mem_cons_of_mem _ hmem)⟩

section

variable {ch : Channel α} {dms : List DecisionMakerPod} {intents : List α} {order : List ((_ : String) × List α)}
  (hp : order.Perm (groupByHost ch dms intents).intents.entries)
include hp

/-- What a group of the push is. -/
theorem group_inv {g} (hg : g ∈ order) :
    (∃ dm ∈ ch.addressed dms intents, (groupByHost ch dms intents).dms.lookup g.1 = some dm ∧ dm.host = g.1) ∧
      g.2 = ((ch.pairs dms intents).filter fun p => p.1.host = g.1).map Prod.snd ∧
      ((groupByHost ch dms intents).ids.lookup g.1).getD [] = g.2.map ch.id := by
  have hof := groupByHost_of ch dms intents
  have hlists := groupByHost_lists ch dms intents
  have hlook : (groupByHost ch dms intents).intents.lookup g.1 = some g.2 := AList.mem_lookup_iff.mpr (hp.mem_iff.mp hg)
  have hpayload : g.2 = ((ch.pairs dms intents).filter fun p => p.1.host = g.1).map Prod.snd := by
    rw [← getD_groupBy (fun p : DecisionMakerPod × α => p.1.host) (fun p => p.2), ← hlists.1, hlook]
    rfl
  refine ⟨?_, hpayload, ?_⟩
  · have hmem : g.1 ∈ (groupByHost ch dms intents).dms :=
      (hof.targets g.1).mpr (AList.lookup_isSome.mp (by rw [hlook]; rfl))
    obtain ⟨dm, hdm⟩ := Option.isSome_iff_exists.mp (AList.lookup_isSome.mpr hmem)
    obtain ⟨i, hpair, hhost, hnode⟩ := hof.target g.1 dm hdm
    simp only [mem_flatMap, mem_map, Prod.mk.injEq] at hpair
    obtain ⟨dm', hin, i', hi, rfl, rfl⟩ := hpair
    exact ⟨dm', (mem_addressed ch dms intents).mpr ⟨hin, _, hi, hnode⟩, hdm, hhost⟩
  · rw [hlists.2, getD_groupBy, hpayload, map_map]
    rfl

/-- A group is there for the host of every decision maker addressed. -/
theorem exists_group {dm} (hdm : dm ∈ ch.addressed dms intents) : ∃ g ∈ order, g.1 = dm.host := by
  obtain ⟨hin, i, hi, hnode⟩ := (mem_addressed ch dms intents).mp hdm
  have hmem : dm.host ∈ (groupByHost ch dms intents).intents := by
    rw [(groupByHost_lists ch dms intents).1, mem_groupBy]
    exact ⟨(dm, i), (mem_pairs ch dms intents).mpr ⟨hin, hi, hnode⟩, rfl⟩
  obtain ⟨l, hl⟩ := Option.isSome_iff_exists.mp (AList.lookup_isSome.mpr hmem)
  exact ⟨⟨dm.host, l⟩, hp.mem_iff.mpr (AList.mem_lookup_iff.mp hl), rfl⟩

/-- No host is sent to twice. -/
theorem sends_hosts_nodup :
    ((sends (order.flatMap (groupByHost ch dms intents).steps)).map fun s => s.1.host).Nodup := by
  have hkeys : (order.map Sigma.fst).Nodup :=
    (hp.map Sigma.fst).nodup_iff.mpr (groupByHost ch dms intents).intents.nodupKeys
  have hmap : ∀ gs : List ((_ : String) × List α), (∀ g ∈ gs, g ∈ order) →
      (sends (gs.flatMap (groupByHost ch dms intents).steps)).map (fun s => s.1.host) = gs.map Sigma.fst := by
    intro gs
    induction gs with
    | nil => exact fun _ => rfl
    | cons g gs ih =>
      intro hall
      obtain ⟨⟨dm, -, hd, hhost⟩, -⟩ := group_inv hp (hall g mem_cons_self)
      have hsteps : sends ((groupByHost ch dms intents).steps g) = [(dm, g.2)] := by
        rw [HostGroups.steps, hd]
        rfl
      have hcons : sends ((g :: gs).flatMap (groupByHost ch dms intents).steps) =
          sends ((groupByHost ch dms intents).steps g) ++ sends (gs.flatMap (groupByHost ch dms intents).steps) := by
        rw [flatMap_cons, sends, filterMap_append]
        rfl
      rw [hcons, hsteps, map_append, ih fun g' hg' => hall g' (mem_cons_of_mem _ hg')]
      simp [hhost]
  rw [hmap order fun _ => id]
  exact hkeys

/-- **A push is exact just when no two of the decision makers addressed have one
host.** -/
theorem exact_iff : Exact ch dms intents (order.flatMap (groupByHost ch dms intents).steps) ↔
    ((ch.addressed dms intents).map DecisionMakerPod.host).Nodup := by
  have hnodup := sends_hosts_nodup hp
  have hfst : ((sends (order.flatMap (groupByHost ch dms intents).steps)).map Prod.fst).Nodup := by
    refine List.Nodup.of_map DecisionMakerPod.host ?_
    rwa [map_map]
  constructor
  · intro hexact
    -- As many sends as addressed decision makers, and no two to one host.
    have hsub : (ch.addressed dms intents).Subperm
        ((sends (order.flatMap (groupByHost ch dms intents).steps)).map Prod.fst) := by
      refine subperm_ext_iff.mpr fun dm hdm => ?_
      obtain ⟨hin, hne⟩ := mem_filter.mp hdm
      rw [hexact.once dm hin, if_neg (by simpa using hne)]
      exact filter_sublist.count_le dm
    obtain ⟨l, hl, hsub⟩ := hsub
    refine (hl.map DecisionMakerPod.host).nodup_iff.mp ((hsub.map DecisionMakerPod.host).nodup ?_)
    rwa [map_map]
  · intro hsep
    have hown : ∀ g ∈ order, ∀ dm ∈ ch.addressed dms intents, dm.host = g.1 → g.2 = ch.onNode dm intents := by
      intro g hg dm hdm hhost
      rw [(group_inv hp hg).2.1, ← hhost, pairs_ofHost, filter_eq_singleton hsep hdm, flatMap_singleton,
        map_map]
      exact map_id _
    refine ⟨fun dm hdm => ?_, fun s hs => ?_, fun before ids after hsteps id hid => ?_⟩
    · split
      · rename_i hnil
        refine count_eq_zero.mpr fun hmem => ?_
        obtain ⟨s, hs, rfl⟩ := mem_map.mp hmem
        obtain ⟨g, hg, hd, -⟩ := mem_sends.mp hs
        obtain ⟨⟨dm', hdm', hd', -⟩, -⟩ := group_inv hp hg
        cases hd.symm.trans hd'
        exact of_decide_eq_true (mem_filter.mp hdm').2 hnil
      · rename_i hne
        have haddr : dm ∈ ch.addressed dms intents := mem_filter.mpr ⟨hdm, decide_eq_true hne⟩
        obtain ⟨g, hg, hhost⟩ := exists_group hp haddr
        obtain ⟨⟨dm', hdm', hd', hhost'⟩, -⟩ := group_inv hp hg
        have heq : dm' = dm := inj_on_of_nodup_map hsep hdm' haddr (hhost'.trans hhost)
        subst heq
        have hmem : dm' ∈ (sends (order.flatMap (groupByHost ch dms intents).steps)).map Prod.fst :=
          mem_map.mpr ⟨(dm', g.2), mem_sends.mpr ⟨g, hg, hd', rfl⟩, rfl⟩
        have hcount : (ch.addressed dms intents).count dm' = dms.count dm' :=
          count_filter (decide_eq_true hne)
        rw [count_eq_one_of_mem hfst hmem, ← hcount,
          count_eq_one_of_mem (List.Nodup.of_map DecisionMakerPod.host hsep) haddr]
    · obtain ⟨g, hg, hd, hl⟩ := mem_sends.mp hs
      obtain ⟨⟨dm, hdm, hd', hhost⟩, -⟩ := group_inv hp hg
      cases hd.symm.trans hd'
      rw [hl, hown g hg s.1 hdm hhost]
      exact ⟨(mem_filter.mp hdm).1, .refl _⟩
    · obtain ⟨g, hg, rfl, dm, hd, hbefore⟩ := marked_inv hsteps
      obtain ⟨⟨dm', hdm, hd', hhost⟩, -, hids⟩ := group_inv hp hg
      cases hd.symm.trans hd'
      rw [hids] at hid
      obtain ⟨i, hi, rfl⟩ := mem_map.mp hid
      have hon := hi
      rw [hown g hg dm hdm hhost] at hon
      obtain ⟨hin, hnode⟩ := mem_filter.mp hon
      exact ⟨i, hin, rfl, dm, g.2, hbefore, (of_decide_eq_true hnode).symm, hi⟩

end

/-! ## The calls of a push -/

variable {sendText markText : String}

/-- A push sends and marks nothing but the intents it is given. -/
theorem makes_deliver {A P ch} (horder : P .mapOrder) (hsend : ∀ dm l, Makes A P (fun _ => True) (ch.send dm l))
    (hmark : ∀ ids, (∀ id ∈ ids, ∃ i ∈ intents, ch.id i = id) → Makes A P (fun _ => True) (ch.markSent ids)) :
    Makes A P (fun _ => True) (deliver ch dms intents sendText markText) := by
  refine Makes.bind (makes_any horder) fun order _ => makes_forM fun group _ => ?_
  unfold deliverGroup
  split
  · exact makes_pure trivial
  · refine Makes.bind (hsend _ _).mapError fun _ _ => Makes.mapError (hmark _ fun id hid => ?_)
    rw [(groupByHost_lists ch dms intents).2, getD_groupBy, mem_map] at hid
    obtain ⟨p, hp, rfl⟩ := hid
    exact ⟨p.2, ((mem_pairs ch dms intents).mp (mem_of_mem_filter hp)).2.1, rfl⟩

theorem makes_resyncDMs {A P ch} (hroot : ∀ dm, Makes A P (fun _ => True) (ch.getRoot dm))
    (hclear : ∀ dm, Makes A P (fun _ => True) (ch.clear dm)) (hsend : ∀ dm l, Makes A P (fun _ => True) (ch.send dm l))
    (hmark : ∀ ids, (∀ id ∈ ids, ∃ i ∈ intents, ch.id i = id) → Makes A P (fun _ => True) (ch.markSent ids)) :
    Makes A P (fun _ => True) (resyncDMs ch dms intents) := by
  refine makes_forM fun dm _ => ?_
  unfold resyncDM
  refine makes_ite (fun _ => makes_pure trivial) fun _ => ?_
  refine makes_attempt (hroot dm) (fun _ => makes_pure trivial) fun root _ => ?_
  refine makes_ite (fun _ => makes_pure trivial) fun _ => makes_ite (fun _ => makes_logged (hclear dm)) fun _ => ?_
  refine makes_attempt (hsend dm _) (fun _ => makes_pure trivial) fun _ _ => makes_logged (hmark _ fun id hid => ?_)
  rw [getD_groupBy, mem_map] at hid
  obtain ⟨i, hi, rfl⟩ := hid
  exact ⟨i, mem_of_mem_filter hi, rfl⟩

/-- The calls of a channel are the steps they are taken for. -/
structure Channel.Traced (go : SliceSort) (env : Nat → Choice) (ch : Channel α)
    (step : Prog.Event Call.Resp → Option (Step α)) : Prop where
  send : ∀ {dm l w calls w'}, Runs go env (ch.send dm l) w calls (.ok ()) w' → calls.filterMap step = [.sent dm l]
  mark : ∀ {ids w calls w'}, Runs go env (ch.markSent ids) w calls (.ok ()) w' → calls.filterMap step = [.marked ids]
  order : ∀ r, step ⟨.mapOrder, r⟩ = none
  query : ∀ opt r, step ⟨.queryDecisionMakerPods opt, r⟩ = none

theorem podChannel_traced (go : SliceSort) (env : Nat → Choice) : (podChannel go).Traced go env podStep where
  send h := by
    obtain ⟨rfl, -⟩ := call_inv h
    rfl
  mark h := by
    obtain ⟨rfl, -⟩ := call_inv h
    rfl
  order _ := rfl
  query _ _ := rfl

theorem nodeChannel_traced (go : SliceSort) (env : Nat → Choice) : (nodeChannel go).Traced go env nodeStep where
  send h := by
    obtain ⟨rfl, -⟩ := call_inv h
    rfl
  mark h := by
    obtain ⟨rfl, -⟩ := call_inv h
    rfl
  order _ := rfl
  query _ _ := rfl

/-- The decision makers on the nodes. -/
def World.decisionMakersOn (w : World) (nodes : List String) : List DecisionMakerPod :=
  w.cluster.decisionMakers.filter fun dm => nodes.contains dm.nodeID

/-- Those have different hosts. -/
def World.SeparateHosts (w : World) (nodes : List String) : Prop :=
  ((w.decisionMakersOn nodes).map DecisionMakerPod.host).Nodup

instance (w : World) (nodes : List String) : Decidable (w.SeparateHosts nodes) :=
  inferInstanceAs (Decidable (((w.decisionMakersOn nodes).map DecisionMakerPod.host).Nodup))

section

variable {go : SliceSort} {env : Nat → Choice} {w w' : World} {calls : Calls} {ch : Channel α}
  {step : Prog.Event Call.Resp → Option (Step α)} (ht : ch.Traced go env step)
include ht

theorem deliverGroup_steps {groups g}
    (h : Runs go env (deliverGroup ch groups sendText markText g.1 g.2) w calls (.ok ()) w') :
    calls.filterMap step = groups.steps g := by
  rw [deliverGroup] at h
  rw [HostGroups.steps]
  cases hd : groups.dms.lookup g.1 with
  | none =>
    rw [hd] at h
    obtain ⟨rfl, _, _⟩ := Run.pure_ok_inv h
    rfl
  | some dm =>
    rw [hd] at h
    obtain ⟨⟨⟩, _, _, _, h1, h2, rfl⟩ := Run.ok_bind_inv h
    rw [filterMap_append, ht.send (Run.mapError_ok h1), ht.mark (Run.mapError_ok h2)]
    rfl

theorem deliverGroups_steps {groups : HostGroups α} {gs : List ((_ : String) × List α)}
    (h : Runs go env (forM gs fun g => deliverGroup ch groups sendText markText g.1 g.2) w calls (.ok ()) w') :
    calls.filterMap step = gs.flatMap groups.steps := by
  induction gs generalizing w calls with
  | nil =>
    obtain ⟨rfl, _, _⟩ := Run.pure_ok_inv h
    rfl
  | cons g gs ih =>
    rw [forM_cons] at h
    obtain ⟨⟨⟩, _, _, _, h1, h2, rfl⟩ := Run.ok_bind_inv h
    rw [flatMap_cons, filterMap_append, deliverGroup_steps ht h1, ih h2]

theorem deliver_steps (h : Runs go env (deliver ch dms intents sendText markText) w calls (.ok ()) w') :
    ∃ order : List ((_ : String) × List α), order.Perm (groupByHost ch dms intents).intents.entries ∧
      calls.filterMap step = order.flatMap (groupByHost ch dms intents).steps := by
  obtain ⟨order, _, _, _, h1, h2, rfl⟩ := Run.ok_bind_inv h
  obtain ⟨rfl, -⟩ := call_inv h1
  refine ⟨_, reorder_perm order _, ?_⟩
  rw [filterMap_append, filterMap_cons, ht.order, deliverGroups_steps ht h2]
  rfl

/-- The decision makers on the intents' nodes are asked for, and sent to. -/
theorem push_exact_iff {nodes asked w1 w2 calls1 calls2} (hcluster : w1.cluster = w.cluster)
    (hnodes : ∀ node, node ∈ nodes ↔ ∃ i ∈ intents, ch.nodeID i = node) (hasked : ∀ node, node ∈ asked ↔ node ∈ nodes)
    (hne : nodes ≠ [])
    (hquery : Runs go env (Svc.call (.queryDecisionMakerPods { nodeIDs := asked })) w1 calls1 (.ok dms) w2)
    (hpush : dms = [] ∧ calls2 = [] ∨ Runs go env (deliver ch dms intents sendText markText) w2 calls2 (.ok ()) w') :
    Exact ch (w.decisionMakersOn nodes) intents ((calls1 ++ calls2).filterMap step) ↔ w.SeparateHosts nodes := by
  obtain ⟨rfl, _, hq⟩ := call_inv hquery
  have hperm := (queryDecisionMakerPods_inv hq).2 dms rfl
  have hon : K8SAdapter.onNodes asked w1.cluster.decisionMakers = w.decisionMakersOn nodes := by
    rw [hcluster]
    refine filter_congr fun dm _ => ?_
    have hne' : asked ≠ [] := fun hnil => by
      obtain ⟨node, hnode⟩ := exists_mem_of_ne_nil _ hne
      rw [← hasked, hnil] at hnode
      cases hnode
    rw [Bool.eq_iff_iff]
    simp [hne', hasked]
  rw [hon] at hperm
  have hall : ch.addressed dms intents = dms := by
    refine filter_eq_self.mpr fun dm hdm => decide_eq_true fun hnil => ?_
    have hnode := (mem_filter.mp (hperm.mem_iff.mp hdm)).2
    obtain ⟨i, hi, heq⟩ := (hnodes dm.nodeID).mp (contains_iff_mem.mp hnode)
    exact filter_eq_nil_iff.mp hnil i hi (decide_eq_true heq)
  have hsep : w.SeparateHosts nodes ↔ ((ch.addressed dms intents).map DecisionMakerPod.host).Nodup := by
    rw [hall, World.SeparateHosts, (hperm.map DecisionMakerPod.host).nodup_iff]
  have hsteps : ∃ order : List ((_ : String) × List α), order.Perm (groupByHost ch dms intents).intents.entries ∧
      (([⟨.queryDecisionMakerPods { nodeIDs := asked }, .ok dms⟩] : Calls) ++ calls2).filterMap step =
        order.flatMap (groupByHost ch dms intents).steps := by
    rw [filterMap_append, filterMap_cons, ht.query]
    rcases hpush with ⟨rfl, rfl⟩ | hpush
    · exact ⟨[], .refl _, rfl⟩
    · exact deliver_steps ht hpush
  obtain ⟨order, hp, hsteps⟩ := hsteps
  rw [hsep, ← exact_iff hp, hsteps]
  exact ⟨fun h => h.perm hperm.symm, fun h => h.perm hperm⟩

end

/-! ## The services -/

section

variable {go : SliceSort} {env : Nat → Choice} {w w' : World} {calls : Calls}

theorem podStep_quiet {e} (h : e.1.Quiet) : podStep e = none := by
  obtain ⟨call, r⟩ := e
  cases call <;> first | exact h.elim | rfl

/-- The new intents of a strategy, one for each pod it selects. -/
def NewIntents (w : World) (strategy : ScheduleStrategy) (id : ObjectID) (intents : List ScheduleIntent) : Prop :=
  intents.map ScheduleIntent.core = (w.selectedPods strategy).map fun pod => (strategy.intentFor pod, id)

theorem StrategyPush.exact {strategy id added w1} (h : StrategyPush go env w strategy id added calls w1 w') :
    Exact (podChannel go) (w.decisionMakersOn (w.selectedNodes strategy)) added (calls.filterMap podStep) ↔
      w.SeparateHosts (w.selectedNodes strategy) := by
  obtain ⟨asked, query, push, dms, _, text, hasked, ⟨before, rfl, hbefore⟩, hquery, hpush⟩ := h.run
  rw [filterMap_append, filterMap_eq_nil_iff.mpr fun e he => podStep_quiet (hbefore e he), nil_append]
  exact push_exact_iff (podChannel_traced go env) h.cluster (intentFor_nodes h.core) hasked h.nonempty hquery
    (hpush.imp_left fun hnil => ⟨hnil.1, hnil.2.1⟩)

theorem createScheduleStrategy_exact {operator strategy s}
    (h : Runs go env (createScheduleStrategy go operator strategy) w calls (.ok s) w') :
    ∃ s0 l0 intents, ⟨.insertStrategyAndIntents s0 l0, .ok (s, intents)⟩ ∈ calls ∧ NewIntents w strategy s.id intents ∧
      (Exact (podChannel go) (w.decisionMakersOn (w.selectedNodes strategy)) intents (calls.filterMap podStep) ↔
        w.SeparateHosts (w.selectedNodes strategy)) := by
  obtain ⟨_, added, -, -, ⟨s0, l0, hin⟩, hpush⟩ := createScheduleStrategy_ok h
  exact ⟨s0, l0, added, hin, hpush.core, hpush.exact⟩

theorem updateScheduleStrategy_exact {operator strategyID strategy}
    (h : Runs go env (updateScheduleStrategy go operator strategyID strategy) w calls (.ok ()) w') :
    ∃ id l0 intents, objectIDFromHex strategyID = .ok id ∧ ⟨.insertIntents l0, .ok intents⟩ ∈ calls ∧
      NewIntents w strategy id intents ∧
      (Exact (podChannel go) (w.decisionMakersOn (w.selectedNodes strategy)) intents (calls.filterMap podStep) ↔
        w.SeparateHosts (w.selectedNodes strategy)) := by
  obtain ⟨id, _, added, hid, -, -, ⟨l0, hin⟩, hpush⟩ := updateScheduleStrategy_ok h
  exact ⟨id, l0, added, hid, hin, hpush.core, hpush.exact⟩

theorem sendNodeIntentsToDMs_exact {intents} (h : Runs go env (sendNodeIntentsToDMs go intents) w calls (.ok ()) w') :
    Exact (nodeChannel go) (w.decisionMakersOn (intents.map fun i => i.nodeID)) intents (calls.filterMap nodeStep) ↔
      w.SeparateHosts (intents.map fun i => i.nodeID) := by
  rw [sendNodeIntentsToDMs] at h
  cases intents with
  | nil =>
    obtain ⟨rfl, -⟩ := Run.pure_ok_inv h
    have hnone : w.decisionMakersOn ([] : List String) = [] := filter_eq_nil_iff.mpr fun _ _ => by simp
    have hsep : w.SeparateHosts [] := by
      rw [World.SeparateHosts, hnone]
      exact nodup_nil
    refine ⟨fun _ => hsep, fun _ => ⟨fun dm hdm => ?_, fun s hs => absurd hs not_mem_nil, fun before ids after he => ?_⟩⟩
    · rw [map_nil, hnone] at hdm
      cases hdm
    · cases (append_eq_nil_iff.mp he.symm).2
  | cons i intents =>
    simp only [isEmpty_cons, Bool.false_eq_true, if_false] at h
    obtain ⟨dms, w1, _, calls2, h1, h2, rfl⟩ := Run.ok_bind_inv h
    have hpush : dms = [] ∧ calls2 = [] ∨
        Runs go env (deliver (nodeChannel go) dms (i :: intents) "send node scheduling intents to decision maker "
          "update node intents state") w1 calls2 (.ok ()) w' := by
      split at h2
      · rename_i hempty
        obtain ⟨rfl, -⟩ := Run.pure_ok_inv h2
        exact .inl ⟨isEmpty_iff.mp hempty, rfl⟩
      · exact .inr h2
    exact push_exact_iff (nodeChannel_traced go env) rfl (fun node => mem_map) (fun _ => mem_eraseDups)
      (cons_ne_nil _ _) h1 hpush

end

/-- **Delivery is exact just when the decision makers on the nodes reached have
different hosts.** The new intents are those the repository has returned. -/
theorem delivery_exact_iff (go : SliceSort) (env : Nat → Choice) (w : World) :
    (∀ operator strategy calls s w', Runs go env (createScheduleStrategy go operator strategy) w calls (.ok s) w' →
      ∃ s₀ l₀ intents, ⟨.insertStrategyAndIntents s₀ l₀, .ok (s, intents)⟩ ∈ calls ∧ NewIntents w strategy s.id intents ∧
        (Exact (podChannel go) (w.decisionMakersOn (w.selectedNodes strategy)) intents (calls.filterMap podStep) ↔
          w.SeparateHosts (w.selectedNodes strategy))) ∧
      (∀ operator strategyID strategy calls w',
        Runs go env (updateScheduleStrategy go operator strategyID strategy) w calls (.ok ()) w' →
        ∃ id l₀ intents, objectIDFromHex strategyID = .ok id ∧ ⟨.insertIntents l₀, .ok intents⟩ ∈ calls ∧
          NewIntents w strategy id intents ∧
          (Exact (podChannel go) (w.decisionMakersOn (w.selectedNodes strategy)) intents (calls.filterMap podStep) ↔
            w.SeparateHosts (w.selectedNodes strategy))) ∧
      ∀ intents calls w', Runs go env (sendNodeIntentsToDMs go intents) w calls (.ok ()) w' →
        (Exact (nodeChannel go) (w.decisionMakersOn (intents.map fun i => i.nodeID)) intents (calls.filterMap nodeStep) ↔
          w.SeparateHosts (intents.map fun i => i.nodeID)) :=
  ⟨fun _ _ _ _ _ h => createScheduleStrategy_exact h, fun _ _ _ _ _ h => updateScheduleStrategy_exact h,
    fun _ _ _ h => sendNodeIntentsToDMs_exact h⟩

namespace TwoHosts

/-- Decision makers on nodes `a` and `b`, the second at the host given. -/
def world (host : String) : World where
  store := store (.empty _) (.empty _)
  processes _ := .fresh
  cluster :=
    { queryPods := fun _ => [pod "p", { pod "q" with nodeID := "b" }]
      queryNodes := fun _ => []
      queryNodesByDRA := fun _ => []
      decisionMakers :=
        [{ nodeID := "a", host := "", port := 8080, state := .online },
          { nodeID := "b", host := host, port := 8080, state := .online }] }

end TwoHosts

/-- Neither decision maker has an IP yet: both intents go to the one listed
last, and both are marked. -/
theorem createScheduleStrategy_sameHost :
    ∃ calls s w', Runs .insertion newIDs (createScheduleStrategy .insertion operator (strategy 0))
      (TwoHosts.world "") calls (.ok s) w' ∧ Clean calls ∧
      (sends (calls.filterMap podStep)).map (fun s => (s.1.nodeID, s.2.map fun i => i.nodeID)) = [("b", ["a", "b"])] ∧
      ∃ intents, NewIntents (TwoHosts.world "") (strategy 0) s.id intents ∧
        ¬Exact (podChannel .insertion) ((TwoHosts.world "").decisionMakersOn ["a", "b"]) intents
          (calls.filterMap podStep) := by
  refine Run.exists_ok_of (fun calls _ _ => Clean calls ∧ (sends (calls.filterMap podStep)).map
    (fun s => (s.1.nodeID, s.2.map fun i => i.nodeID)) = [("b", ["a", "b"])]) (by decide +kernel) ?_
  rintro calls s w' hrun ⟨hclean, hsends⟩
  obtain ⟨-, -, intents, -, hnew, hexact⟩ := createScheduleStrategy_exact hrun
  exact ⟨hclean, hsends, intents, hnew, hexact.not.mpr (by decide)⟩

/-- With hosts of their own each is sent its own. -/
theorem delivery_exact_iff_twoHosts :
    ∃ calls s w', Runs .insertion newIDs (createScheduleStrategy .insertion operator (strategy 0))
      (TwoHosts.world "10.0.0.2") calls (.ok s) w' ∧
      ∃ intents, Exact (podChannel .insertion) ((TwoHosts.world "10.0.0.2").decisionMakersOn ["a", "b"]) intents
        (calls.filterMap podStep) := by
  refine Run.exists_ok_of (fun _ _ _ => True) (by decide +kernel) fun calls s w' hrun _ => ?_
  obtain ⟨-, -, intents, -, -, hexact⟩ := (delivery_exact_iff _ _ _).1 _ _ _ _ _ hrun
  exact ⟨intents, hexact.mpr (by decide)⟩

end Gthulhu.Manager
