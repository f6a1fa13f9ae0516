/-
Deleting node intents by ID (`DeleteNodeSchedulingIntents`).

The caller's intents among those named are looked up, and one is enough: all
that were named are then deleted, and the decision makers told about those
that were found. So the call does what it should where the caller's intents
are named alone or not at all (`Unmixed`), and only there
(`deleteNodeSchedulingIntents_own_iff`).
-/
import Gthulhu.Manager.NodePolicyFacts
import Gthulhu.Manager.OwnershipFacts

namespace Gthulhu.Manager

open Lib World Prog List Run OneNode

/-! ## What is asked of the call -/

/-- The text is the ID of a stored node intent of the operator's. -/
def World.HasNodeIntentOf (w : World) (operator : Claims) (text : String) : Prop :=
  ∃ i ∈ w.nodeIntents, objectIDFromHex text = .ok i.id ∧ operator.Is i.creatorID

/-- The intent is one of those named. -/
def Lists (intentIDs : List String) (i : NodeSchedulingIntent) : Prop :=
  ∃ text ∈ intentIDs, objectIDFromHex text = .ok i.id

/-- Nothing of others is deleted; a list with anything else on it than intents
of the operator's is refused; and a call that succeeds removes those named. -/
structure DeletesOwn (operator : Claims) (intentIDs : List String) (w : World) (r : Except Error Unit) (w' : World) :
    Prop where
  others : ∀ i ∈ w.nodeIntents, ¬operator.Is i.creatorID → i ∈ w'.nodeIntents
  refused : (∃ text ∈ intentIDs, ¬w.HasNodeIntentOf operator text) → r ≠ .ok () ∧ w'.nodeIntents = w.nodeIntents
  removed : r = .ok () → ∀ i, i ∈ w'.nodeIntents ↔ i ∈ w.nodeIntents ∧ ¬Lists intentIDs i

/-- The decision maker has been sent the request. -/
def Tells (calls : Calls) (dm : DecisionMakerPod) (req : DeleteNodeIntentsRequest) : Prop :=
  ∃ e ∈ calls, e.1 = .deleteNodeSchedulingIntents dm req

/-- The online decision makers have been told to drop the policies of the
intents named, each those of its node, and nothing else. -/
def Notifies (intentIDs : List String) (w : World) (calls : Calls) : Prop :=
  ∀ dm req, Tells calls dm req ↔ dm ∈ w.cluster.decisionMakers ∧ dm.state = .online ∧
    ∃ i ∈ w.nodeIntents, Lists intentIDs i ∧ i.nodeID = dm.nodeID ∧ req = { policyID := i.policyID.hex }

/-- A list that does not parse, or on which all or none are stored intents of
the operator's. -/
def Unmixed (operator : Claims) (intentIDs : List String) (w : World) : Prop :=
  (∃ text ∈ intentIDs, ∀ id, objectIDFromHex text ≠ .ok id) ∨
    (∀ text ∈ intentIDs, w.HasNodeIntentOf operator text) ∨ ∀ text ∈ intentIDs, ¬w.HasNodeIntentOf operator text

/-! ## What the decision makers are told -/

section

variable {go : SliceSort} {env : Nat → Choice} {w w' : World} {calls calls' : Calls} {dm : DecisionMakerPod}
  {req : DeleteNodeIntentsRequest}

theorem tells_append : Tells (calls ++ calls') dm req ↔ Tells calls dm req ∨ Tells calls' dm req := by
  simp [Tells, or_and_right, exists_or]

/-- A call tells something only if it is that request. -/
theorem tells_call {call r} (h : Runs go env (Svc.call call) w calls r w') :
    Tells calls dm req ↔ call = .deleteNodeSchedulingIntents dm req := by
  obtain ⟨rfl, -⟩ := call_inv h
  simp [Tells]

theorem tells_keySet {keys r} (h : Runs go env (Svc.keySet keys) w calls r w') : ¬Tells calls dm req := by
  rcases except_bind_inv h with ⟨e, _, h1⟩ | ⟨order, _, _, _, h1, h2, rfl⟩
  · rw [tells_call h1]
    simp
  · obtain ⟨rfl, -, -⟩ := pure_ok_inv h2
    rw [append_nil, tells_call h1]
    simp

/-- One decision maker is told its policies, if it is online. -/
theorem notifyNode_inv {policyIDs target r} (h : Runs go env (do
      if target.state ≠ .online then return ()
      let policyIDs ← Svc.keySet policyIDs
      forM policyIDs fun policyID => do
        let _ ← attempt (Svc.call (.deleteNodeSchedulingIntents target { policyID := policyID }))) w calls r w') :
    r = .ok () ∧ ∀ dm req, Tells calls dm req ↔ dm = target ∧ target.state = .online ∧
      ∃ policyID ∈ policyIDs, req = { policyID := policyID } := by
  split at h
  · rename_i hoff
    obtain ⟨rfl, rfl, -⟩ := pure_ok_inv h
    refine ⟨rfl, fun dm req => iff_of_false ?_ fun htold => hoff htold.2.1⟩
    rintro ⟨e, he, -⟩
    cases he
  rename_i hon
  rcases except_bind_inv h with ⟨e, _, hk⟩ | ⟨keys, _, _, _, hk, hloop, rfl⟩
  · obtain ⟨_, _, he, _⟩ := keySet_inv hk
    cases he
  obtain ⟨-, _, ⟨⟩, hkeys⟩ := keySet_inv hk
  -- each turn of the loop is one request, whatever becomes of it
  have hturn : ∀ {policyID : String} {w calls r w'}, Runs go env (do
      let _ ← attempt (Svc.call (.deleteNodeSchedulingIntents target { policyID := policyID }))) w calls r w' →
      r = .ok () ∧ ∀ e, e ∈ calls → e.1 = .deleteNodeSchedulingIntents target { policyID := policyID } := by
    intro policyID w calls r w' hrun
    obtain ⟨a, _, _, _, h1, h2, rfl⟩ := attempt_bind_inv hrun
    obtain ⟨rfl, rfl, -⟩ := pure_ok_inv h2
    obtain ⟨rfl, -⟩ := call_inv h1
    simp
  have hok := (forM_total (fun _ => True) (fun _ _ _ _ _ _ _ hrun => ⟨(hturn hrun).1, trivial⟩) hloop trivial).1
  obtain ⟨hsub, hall⟩ := forM_parts hloop
  refine ⟨hok, fun dm req => ?_⟩
  rw [tells_append, or_iff_right (tells_keySet hk)]
  constructor
  · rintro ⟨e, he, hcall⟩
    obtain ⟨policyID, hid, _, _, r1, _, hrun, he⟩ := hsub e he
    obtain ⟨rfl, rfl⟩ := Call.deleteNodeSchedulingIntents.inj (hcall.symm.trans ((hturn hrun).2 e he))
    exact ⟨rfl, not_not.mp hon, policyID, (hkeys policyID).mp hid, rfl⟩
  · rintro ⟨rfl, -, policyID, hid, rfl⟩
    obtain ⟨_, _, _, hrun, hes⟩ := hall hok policyID ((hkeys policyID).mpr hid)
    obtain ⟨a, _, _, _, h1, h2, rfl⟩ := attempt_bind_inv hrun
    obtain ⟨rfl, -⟩ := call_inv h1
    exact ⟨⟨_, a⟩, hes _ (mem_append_left _ (mem_singleton.mpr rfl)), rfl⟩

theorem notifyDMsDeleteNodeIntents_tells {intents r}
    (h : Runs go env (notifyDMsDeleteNodeIntents intents) w calls r w') :
    r = .ok () ∧ (Clean calls → ∀ dm req, Tells calls dm req ↔ dm ∈ w.cluster.decisionMakers ∧ dm.state = .online ∧
      ∃ i ∈ intents, i.nodeID = dm.nodeID ∧ req = { policyID := i.policyID.hex }) := by
  rw [notifyDMsDeleteNodeIntents] at h
  split at h
  · rename_i hnil
    obtain ⟨rfl, rfl, -⟩ := pure_ok_inv h
    rw [List.isEmpty_iff] at hnil
    exact ⟨rfl, fun _ dm req => by simp [Tells, hnil]⟩
  rename_i hne
  obtain ⟨a, _, calls1, _, h1, h2, rfl⟩ := attempt_bind_inv h
  have hquery : ∀ dm req, ¬Tells calls1 dm req := fun dm req => by
    rw [tells_call h1]
    simp
  cases a with
  | error e =>
    obtain ⟨rfl, rfl, -⟩ := pure_ok_inv h2
    refine ⟨rfl, fun hclean => ?_⟩
    obtain ⟨_, he⟩ := failsByCall_call _ h1 hclean.left
    cases he
  | ok dms =>
    obtain ⟨-, hdms⟩ := queryDecisionMakersOn_ok (fun _ => mem_eraseDups) (by simpa using hne) h1
    have hok := (forM_total (fun _ => True)
      (fun _ _ _ _ _ _ _ hrun => ⟨(notifyNode_inv hrun).1, trivial⟩) h2 trivial).1
    obtain ⟨hsub, hall⟩ := forM_parts h2
    refine ⟨hok, fun _ dm req => ?_⟩
    rw [tells_append, or_iff_right (hquery dm req)]
    have hkeys : ∀ policyID, policyID ∈ ((groupBy (fun i : NodeSchedulingIntent => i.nodeID)
        (fun i => i.policyID.hex) intents).lookup dm.nodeID).getD [] ↔
        ∃ i ∈ intents, i.nodeID = dm.nodeID ∧ i.policyID.hex = policyID := by
      intro policyID
      rw [getD_groupBy, mem_map]
      simp [and_assoc]
    constructor
    · rintro ⟨e, he, hcall⟩
      obtain ⟨target, htarget, _, _, r1, _, hrun, he⟩ := hsub e he
      obtain ⟨rfl, hon, policyID, hid, rfl⟩ := ((notifyNode_inv hrun).2 dm req).mp ⟨e, he, hcall⟩
      obtain ⟨i, hi, hnode, rfl⟩ := (hkeys policyID).mp hid
      exact ⟨((hdms dm).mp htarget).1, hon, i, hi, hnode, rfl⟩
    · rintro ⟨hdm, hon, i, hi, hnode, rfl⟩
      obtain ⟨_, _, _, hrun, hes⟩ := hall hok dm
        ((hdms dm).mpr ⟨hdm, mem_map.mpr ⟨i, hi, hnode⟩⟩)
      obtain ⟨e, he, hcall⟩ := ((notifyNode_inv hrun).2 dm _).mpr
        ⟨rfl, hon, i.policyID.hex, (hkeys _).mpr ⟨i, hi, hnode, rfl⟩, rfl⟩
      exact ⟨e, hes e he, hcall⟩

theorem notifyDMsDeleteNodeIntents_store {intents r}
    (h : Runs go env (notifyDMsDeleteNodeIntents intents) w calls r w') : w'.store = w.store := by
  have hkeeps : ∀ call : Call, call.Harmless → call.KeepsStore := fun call hcall => by
    cases call <;> first | exact hcall.elim | exact trivial
  exact (Run.makes (J := fun w' => w'.store = w.store) (fun _ _ hw hc => ⟨trivial, (serve_store hc rfl).trans hw⟩)
    h (makes_notifyDMsDeleteNodeIntents (A := fun _ => True) hkeeps) rfl).1

/-! ## How the call ends -/

/-- Some intents of the operator's were found among those named, and all that
were named are being deleted. -/
structure DeletesListed (operator : Claims) (intentIDs : List String) (w : World) (calls : Calls) (r : Except Error Unit)
    (w' : World) (found : List NodeSchedulingIntent) : Prop where
  parses : ∀ text ∈ intentIDs, ∃ id, objectIDFromHex text = .ok id
  ne : found ≠ []
  found_iff : ∀ i, i ∈ found ↔ i ∈ w.nodeIntents ∧ Lists intentIDs i ∧ operator.Is i.creatorID
  kept : ∀ i ∈ w.nodeIntents, ¬Lists intentIDs i → i ∈ w'.nodeIntents
  removed : r = .ok () → ∀ i, i ∈ w'.nodeIntents ↔ i ∈ w.nodeIntents ∧ ¬Lists intentIDs i
  clean : Clean calls → r = .ok () ∧ ∀ dm req, Tells calls dm req ↔ dm ∈ w.cluster.decisionMakers ∧
    dm.state = .online ∧ ∃ i ∈ found, i.nodeID = dm.nodeID ∧ req = { policyID := i.policyID.hex }

theorem deleteNodeSchedulingIntents_cases {operator intentIDs r}
    (h : Runs go env (deleteNodeSchedulingIntents operator intentIDs) w calls r w') :
    (intentIDs = [] ∧ calls = [] ∧ w' = w) ∨
      (Unchanged w w' ∧ r ≠ .ok () ∧ (Clean calls → Unmixed operator intentIDs w)) ∨
      ∃ found, DeletesListed operator intentIDs w calls r w' found := by
  rw [deleteNodeSchedulingIntents] at h
  split at h
  · rename_i hnil
    obtain ⟨rfl, -, rfl⟩ := pure_ok_inv h
    exact .inl ⟨isEmpty_iff.mp hnil, rfl, rfl⟩
  rename_i hnotnil
  rcases except_bind_inv h with ⟨e, rfl, h1⟩ | ⟨operatorID, _, _, _, h1, h2, rfl⟩
  · refine .inr (.inl ⟨(parse_inv h1).2 ▸ .refl _, by simp, fun _ => .inr (.inr fun text _ => ?_)⟩)
    rintro ⟨i, -, -, his⟩
    rw [show operator.getBsonObjectUID = _ from his] at h1
    cases (pure_ok_inv h1).2.1
  obtain ⟨rfl, -⟩ := parse_inv h1
  obtain ⟨hoperator, rfl⟩ := parse_ok h1
  rcases except_bind_inv h2 with ⟨e, rfl, h3⟩ | ⟨ids, _, _, _, h3, h4, rfl⟩
  · obtain ⟨-, rfl, hbad⟩ := parseIDs_inv h3
    exact .inr (.inl ⟨.refl _, by simp, fun _ => .inl (hbad e rfl)⟩)
  obtain ⟨rfl, -, -⟩ := parseIDs_inv h3
  obtain ⟨hids, hlength, rfl⟩ := parseIDs_ok h3
  have hne : ids ≠ [] := by
    rintro rfl
    exact hnotnil (by simpa using hlength.symm)
  have hlists : ∀ i : NodeSchedulingIntent, Lists intentIDs i ↔ i.id ∈ ids := fun i => (mem_of_mapM_ok hids i.id).symm
  have his : ∀ id, operator.Is id ↔ id = operatorID := fun id => by
    rw [Claims.Is, hoperator, Except.ok.injEq, eq_comm]
  rcases except_bind_inv h4 with ⟨e, rfl, h5⟩ | ⟨found, w3, calls5, _, h5, h6, rfl⟩
  · obtain ⟨-, _, hq⟩ := call_inv h5
    refine .inr (.inl ⟨query_unchanged hq, by simp, fun hclean => ?_⟩)
    obtain ⟨_, he⟩ := failsByCall_call _ h5 hclean
    cases he
  obtain ⟨_, hq⟩ := call_ok h5
  have hu : Unchanged w w3 := query_unchanged hq
  have hfound : ∀ i, i ∈ found ↔ i ∈ w.nodeIntents ∧ Lists intentIDs i ∧ operator.Is i.creatorID := by
    intro i
    rw [queryNodeIntents_ok hq, hlists, his]
    simp [Repo.matchesNodeIntentFilter, Repo.admits, hne]
  split at h6
  · rename_i hnil
    obtain ⟨-, rfl, rfl⟩ := throw_inv h6
    refine .inr (.inl ⟨hu, by simp, fun _ => .inr (.inr fun text htext => ?_)⟩)
    rintro ⟨i, hi, hid, howns⟩
    have hmem := (hfound i).mpr ⟨hi, ⟨text, htext, hid⟩, howns⟩
    rw [isEmpty_iff.mp hnil] at hmem
    cases hmem
  rename_i hsome
  have hparses := exists_mapM_ok.mp ⟨ids, hids⟩
  have hnonempty : found ≠ [] := by simpa using hsome
  refine .inr (.inr ⟨found, ?_⟩)
  -- What is left is the same whether or not the delete goes through to its end.
  have hkept : ∀ {es' : List (Event ApiCall.Resp)} {r' : Except Error Unit} {w4 : World},
      ApiRuns go env (Repo.deleteNodeIntents ids) w3 es' r' w4 →
      ∀ i ∈ w.nodeIntents, ¬Lists intentIDs i → i ∈ w4.nodeIntents := by
    intro es' r' w4 hdel i hi hnot
    obtain ⟨os, hs, -, hkeep⟩ := deleteIDs_inv hdel
    rw [World.nodeIntents, hs.objects]
    rw [hu.store] at hkeep
    exact hkeep i hi fun hid => hnot ((hlists i).mpr hid)
  rcases except_bind_inv h6 with ⟨e, rfl, h7⟩ | ⟨⟨⟩, w4, calls7, _, h7, h8, rfl⟩
  · rcases svc_wrapping_inv h7 with ⟨_, he, -⟩ | ⟨_, e', -, hcall⟩
    · cases he
    obtain ⟨-, es', hdel⟩ := call_inv hcall
    refine ⟨hparses, hnonempty, hfound, hkept hdel, by simp, fun hclean => ?_⟩
    obtain ⟨_, he⟩ := failsByCall_call _ hcall hclean.right.right.right
    cases he
  · obtain ⟨es', hdel⟩ := wrapped_ok h7
    have hs := deleteIDs_ok hdel
    have hstore := notifyDMsDeleteNodeIntents_store h8
    obtain ⟨hok, htells⟩ := notifyDMsDeleteNodeIntents_tells h8
    have hsame : w'.nodeIntents = w4.nodeIntents := by rw [World.nodeIntents, World.nodeIntents, hstore]
    refine ⟨hparses, hnonempty, hfound, hsame ▸ hkept hdel, fun _ i => ?_, fun hclean => ⟨hok, fun dm req => ?_⟩⟩
    · rw [hsame, World.nodeIntents, hs.objects, hu.store, mem_filter, decide_eq_true_iff, hlists]
      rfl
    · have hcluster : w4.cluster = w.cluster := by rw [hs.cluster, hu.cluster]
      have hquery : ¬Tells calls5 dm req := by
        rw [tells_call h5]
        simp
      have hdelete : ¬Tells calls7 dm req := by
        rcases svc_wrapping_inv h7 with ⟨_, -, hcall⟩ | ⟨_, _, he, -⟩
        · rw [tells_call hcall]
          simp
        · cases he
      rw [nil_append, nil_append, tells_append, tells_append, or_iff_right hquery, or_iff_right hdelete,
        htells hclean.right.right.right.right dm req, hcluster]

/-- **Deleting node intents keeps to the operator's exactly if the list is not
mixed.** The condition suffices in every run, and where no call fails it is
also needed, and the decision makers are told about exactly what was deleted. -/
theorem deleteNodeSchedulingIntents_own_iff (operator : Claims) (intentIDs : List String) {r : Except Error Unit}
    (h : Runs go env (deleteNodeSchedulingIntents operator intentIDs) w calls r w') :
    (Unmixed operator intentIDs w → DeletesOwn operator intentIDs w r w') ∧
      (Clean calls → (DeletesOwn operator intentIDs w r w' ∧ (r = .ok () → Notifies intentIDs w calls) ↔
        Unmixed operator intentIDs w)) := by
  rcases deleteNodeSchedulingIntents_cases h with ⟨rfl, rfl, rfl⟩ | ⟨hu, hr, hunmixed⟩ | ⟨found, hd⟩
  · have hown : DeletesOwn operator [] w' r w' := ⟨fun i hi _ => hi, by simp, fun _ i => by simp [Lists]⟩
    exact ⟨fun _ => hown, fun _ => ⟨fun _ => .inr (.inl (by simp)), fun _ => ⟨hown, fun _ dm req => by
      simp [Tells, Lists]⟩⟩⟩
  · have hown : DeletesOwn operator intentIDs w r w' :=
      ⟨fun i hi _ => hu.nodeIntents ▸ hi, fun _ => ⟨hr, hu.nodeIntents⟩, fun hok => (hr hok).elim⟩
    exact ⟨fun _ => hown, fun hclean => ⟨fun _ => hunmixed hclean, fun _ => ⟨hown, fun hok => (hr hok).elim⟩⟩⟩
  · -- One of those named is the operator's, so not mixed means that all are.
    have hall : Unmixed operator intentIDs w → ∀ text ∈ intentIDs, w.HasNodeIntentOf operator text := by
      rintro (⟨text, htext, hbad⟩ | hall | hnone)
      · obtain ⟨id, hid⟩ := hd.parses text htext
        exact (hbad id hid).elim
      · exact hall
      · obtain ⟨i, hi⟩ := exists_mem_of_ne_nil _ hd.ne
        obtain ⟨hi, ⟨text, htext, hid⟩, howns⟩ := (hd.found_iff i).mp hi
        exact (hnone text htext ⟨i, hi, hid, howns⟩).elim
    -- Then whatever is on the list is the operator's.
    have hlisted : Unmixed operator intentIDs w → ∀ i ∈ w.nodeIntents, Lists intentIDs i → operator.Is i.creatorID := by
      intro hunmixed i hi hlist
      obtain ⟨text, htext, hid⟩ := hlist
      obtain ⟨j, hj, hjid, howns⟩ := hall hunmixed text htext
      have heq : j = i := inj_on_of_nodup_map (w.store .nodeIntent).nodup hj hi
        (Except.ok.inj (hjid.symm.trans hid))
      exact heq ▸ howns
    have hown : Unmixed operator intentIDs w → DeletesOwn operator intentIDs w r w' := by
      intro hunmixed
      refine ⟨fun i hi hnot => hd.kept i hi fun hlist => hnot (hlisted hunmixed i hi hlist), ?_, hd.removed⟩
      rintro ⟨text, htext, hnot⟩
      exact (hnot (hall hunmixed text htext)).elim
    refine ⟨hown, fun hclean => ⟨fun hdel => ?_, fun hunmixed => ⟨hown hunmixed, fun _ dm req => ?_⟩⟩⟩
    · refine .inr (.inl fun text htext => ?_)
      by_contra hnot
      exact (hdel.1.refused ⟨text, htext, hnot⟩).1 (hd.clean hclean).1
    · rw [(hd.clean hclean).2 dm req]
      refine and_congr_right fun _ => and_congr_right fun _ => ?_
      constructor
      · rintro ⟨i, hi, hrest⟩
        obtain ⟨hi, hlist, -⟩ := (hd.found_iff i).mp hi
        exact ⟨i, hi, hlist, hrest⟩
      · rintro ⟨i, hi, hlist, hrest⟩
        exact ⟨i, (hd.found_iff i).mpr ⟨hi, hlist, hlisted hunmixed i hi hlist⟩, hrest⟩

end

namespace OneNode

def ownedNodeIntent (n policy creator : UInt8) : NodeSchedulingIntent :=
  { nodeIntent n policy with creatorID := objectID creator }

/-- One node intent of the operator's, and one of the rival's. -/
def sharedNode : World where
  store := store (.empty _) ⟨[ownedNodeIntent 1 6 9, ownedNodeIntent 2 7 8], by decide⟩
  processes _ := .fresh
  cluster := cluster [] []

end OneNode

/-- The operator names its own intent and the rival's, and both are gone. -/
theorem deleteNodeSchedulingIntents_mixed :
    ∃ calls w', Runs .insertion newIDs (deleteNodeSchedulingIntents operator
        [(objectID 1).hex, (objectID 2).hex]) sharedNode calls (.ok ()) w' ∧
      Clean calls ∧ w'.nodeIntents = [] ∧ ¬DeletesOwn operator
        [(objectID 1).hex, (objectID 2).hex] sharedNode (.ok ()) w' := by
  refine exists_unit_of (fun calls w' => Clean calls ∧ w'.nodeIntents = []) (by decide +kernel) ?_
  rintro calls w' hrun ⟨hclean, hempty⟩
  refine ⟨hclean, hempty, fun hown => ?_⟩
  have hkept := hown.others (ownedNodeIntent 2 7 8) (by decide) fun his => absurd
    ((objectIDFromHex_hex (objectID 9)).symm.trans his) (by decide)
  rw [hempty] at hkept
  cases hkept

/-- With its own intent alone on the list, the rival's stays. -/
theorem deleteNodeSchedulingIntents_own_iff_one :
    ∃ calls w', Runs .insertion newIDs (deleteNodeSchedulingIntents operator
        [(objectID 1).hex]) sharedNode calls (.ok ()) w' ∧
      DeletesOwn operator [(objectID 1).hex] sharedNode (.ok ()) w' ∧
      Notifies [(objectID 1).hex] sharedNode calls := by
  refine exists_unit_of (fun calls _ => Clean calls) (by decide +kernel) fun calls w' hrun hclean => ?_
  have hunmixed : Unmixed operator [(objectID 1).hex] sharedNode := by
    refine .inr (.inl fun text htext => ?_)
    obtain rfl := mem_singleton.mp htext
    exact ⟨ownedNodeIntent 1 6 9, by decide, objectIDFromHex_hex _, objectIDFromHex_hex _⟩
  obtain ⟨hown, hnotifies⟩ := ((deleteNodeSchedulingIntents_own_iff _ _ hrun).2 hclean).mpr hunmixed
  exact ⟨hown, hnotifies rfl⟩

end Gthulhu.Manager
