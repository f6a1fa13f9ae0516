/-
The calls of a request for a runtime configuration (`ApplyRuntimeConfig`), and
what it reports, however they are answered.

There are three ways through the service: no decision maker is found, a
decision maker is found on a node, and a node is asked for that none is found
on. Each stores the configuration for its node, once or twice, as long as the
database answers (`applyRuntimeConfig_traced`).
-/
import Gthulhu.Lib.Pool
import Gthulhu.Manager.RuntimeConfig
import Gthulhu.Manager.WorldFacts

namespace Gthulhu.Manager

open Lib Prog List

/-- Every call has succeeded, except perhaps for those to decision makers. -/
def StoreAnswers : Event RuntimeCall.Resp → Prop
  | ⟨.applyRuntimeConfig _ _, _⟩ => True
  | e => e.2.isOk = true

instance : DecidablePred StoreAnswers := fun e =>
  match e with
  | ⟨.applyRuntimeConfig _ _, _⟩ => .isTrue trivial
  | ⟨.queryDecisionMakerPods _, r⟩ => inferInstanceAs (Decidable (r.isOk = true))
  | ⟨.queryNodeRuntimeConfigs _, r⟩ => inferInstanceAs (Decidable (r.isOk = true))
  | ⟨.upsertNodeRuntimeConfig _, r⟩ => inferInstanceAs (Decidable (r.isOk = true))
  | ⟨.now, r⟩ => inferInstanceAs (Decidable (r.isOk = true))

/-- The document is for this configuration. -/
structure NodeRuntimeConfig.IsFor (doc : NodeRuntimeConfig) (config : RuntimeSchedulerConfig) : Prop where
  version : doc.configVersion = config.configVersion
  config : doc.config = config

/-- The calls of a request for `n`. -/
def RuntimeCall.Requests (n : RuntimeSchedulerConfig) : RuntimeCall → Prop
  | .upsertNodeRuntimeConfig cfg => cfg.config = n
  | .applyRuntimeConfig _ config => config = n
  | .queryNodeRuntimeConfigs _ => False
  | _ => True

/-- A configuration that was sent, and the answer. -/
def sentTo : Event RuntimeCall.Resp → Option (DecisionMakerPod × RuntimeSchedulerConfig × Except Error Unit)
  | ⟨.applyRuntimeConfig dm config, r⟩ => some (dm, config, r)
  | _ => none

/-- The document an upsert is for. -/
def upserted : Event RuntimeCall.Resp → Option NodeRuntimeConfig
  | ⟨.upsertNodeRuntimeConfig cfg, _⟩ => some cfg
  | _ => none

/-- The result of a pod that is not online, and the result of one that is, by
its answer. -/
def podResult (config : RuntimeSchedulerConfig) (dm : DecisionMakerPod) :
    Option (Except Error Unit) → RuntimeConfigApplyResult
  | none =>
    { nodeID := dm.nodeID, host := dm.host, error := some (.text "decision maker is offline")
      desiredConfig := some config }
  | some (.error err) =>
    { nodeID := dm.nodeID, host := dm.host, error := some err, configVersion := config.configVersion
      desiredConfig := some config }
  | some (.ok ()) =>
    { nodeID := dm.nodeID, host := dm.host, success := true, configVersion := config.configVersion
      desiredConfig := some config }

/-- The result of a node without a decision maker. -/
def undiscoveredResult (config : RuntimeSchedulerConfig) (nodeID : String) : RuntimeConfigApplyResult where
  nodeID := nodeID
  error := some (.text "decision maker is not discovered")
  configVersion := config.configVersion
  desiredConfig := some config
  drift := true

theorem mem_upserted {calls : List (Event RuntimeCall.Resp)} {doc} :
    doc ∈ calls.filterMap upserted ↔ ∃ r, ⟨.upsertNodeRuntimeConfig doc, r⟩ ∈ calls := by
  rw [mem_filterMap]
  constructor
  · rintro ⟨⟨call, r⟩, he, hdoc⟩
    cases call <;> cases hdoc
    exact ⟨r, he⟩
  · exact fun ⟨_, he⟩ => ⟨_, he, rfl⟩

/-! ## Pods and nodes -/

/-- A result that says success, and the call it comes from. -/
def ReportedFor (config : RuntimeSchedulerConfig) (dm : DecisionMakerPod) (result : RuntimeConfigApplyResult)
    (calls : List (Event RuntimeCall.Resp)) : Prop :=
  dm.nodeID = result.nodeID ∧ dm.host = result.host ∧
    (result.success = true → ⟨.applyRuntimeConfig dm config, .ok ()⟩ ∈ calls)

/-- The results that say success, and the calls they come from. -/
def Reported (config : RuntimeSchedulerConfig) (dms : List DecisionMakerPod) (results : List RuntimeConfigApplyResult)
    (calls : List (Event RuntimeCall.Resp)) : Prop :=
  ∀ result ∈ results, result.success = true → ∃ dm ∈ dms, dm.nodeID = result.nodeID ∧ dm.host = result.host ∧
    ⟨.applyRuntimeConfig dm config, .ok ()⟩ ∈ calls

/-- The documents upserted are of the configuration, and for these nodes. -/
structure Upserts (config : RuntimeSchedulerConfig) (nodes : List String) (calls : List (Event RuntimeCall.Resp)) : Prop where
  isFor : ∀ doc ∈ calls.filterMap upserted, doc.IsFor config
  nodes : ∀ node, node ∈ (calls.filterMap upserted).map NodeRuntimeConfig.nodeID ↔ node ∈ nodes

/-- The pod's result, and its answer if it was asked. -/
structure PodServed (config : RuntimeSchedulerConfig) (dm : DecisionMakerPod) (answer : Option (Except Error Unit))
    (calls : List (Event RuntimeCall.Resp)) (result : RuntimeConfigApplyResult) : Prop where
  asked : answer.isSome ↔ dm.state = .online
  sent : calls.filterMap sentTo = (answer.map fun r => (dm, config, r)).toList
  result : result = podResult config dm answer

/-- What is called for a pod, and reported of it; all of it if the database answers. -/
structure PodCalls (repo : Bool) (config : RuntimeSchedulerConfig) (dm : DecisionMakerPod)
    (calls : List (Event RuntimeCall.Resp)) (result : RuntimeConfigApplyResult) : Prop where
  reported : ReportedFor config dm result calls
  served : repo = true → (∀ e ∈ calls, StoreAnswers e) → Upserts config [dm.nodeID] calls ∧
    ∃ answer, PodServed config dm answer calls result

theorem podResult_success (config : RuntimeSchedulerConfig) (dm : DecisionMakerPod) (answer : Option (Except Error Unit)) :
    (podResult config dm answer).success = true ↔ answer = some (.ok ()) := by
  rcases answer with _ | (err | u) <;> simp [podResult]

theorem podResult_nodeID (config : RuntimeSchedulerConfig) (dm : DecisionMakerPod) (answer : Option (Except Error Unit)) :
    (podResult config dm answer).nodeID = dm.nodeID ∧ (podResult config dm answer).host = dm.host := by
  rcases answer with _ | (err | u) <;> exact ⟨rfl, rfl⟩

theorem mem_sentTo {calls : List (Event RuntimeCall.Resp)}
    {dm config r} : (dm, config, r) ∈ calls.filterMap sentTo ↔ ⟨.applyRuntimeConfig dm config, r⟩ ∈ calls := by
  rw [mem_filterMap]
  constructor
  · rintro ⟨⟨call, r'⟩, he, hsent⟩
    cases call <;> cases hsent
    exact he
  · exact fun he => ⟨_, he, rfl⟩

variable {repo : Bool} {config : RuntimeSchedulerConfig} {updatedBy : String} {now : Int64} {dm : DecisionMakerPod}

theorem recordResult_traced {desired result φ} (hdesired : desired.config = config)
    (h : ∀ es, es.filterMap sentTo = [] → es.filterMap upserted ⊆ [{ desired with lastApplyResult := some result }] →
      φ es (.ok ())) :
    Traced (RuntimeCall.Requests config) (recordResult repo desired result).run φ := by
  cases repo with
  | false => exact h [] rfl (nil_subset _)
  | true => exact ⟨hdesired, fun r => h [_] rfl (List.Subset.refl _)⟩

/-- The answer of a pod is asked for if it is online. -/
theorem applyToPod_traced {desired φ} (hfor : desired.IsFor config)
    (h : ∀ es answer, (answer.isSome ↔ dm.state = .online) →
      es.filterMap sentTo = (answer.map fun r => (dm, config, r)).toList →
      (∀ doc ∈ es.filterMap upserted, doc.IsFor config ∧ doc.nodeID = desired.nodeID) →
      φ es (.ok (podResult config dm answer))) :
    Traced (RuntimeCall.Requests config) (applyToPod repo config dm desired).run φ := by
  have hdoc : ∀ {docs : List NodeRuntimeConfig} {result : RuntimeConfigApplyResult},
      docs ⊆ [{ desired with lastApplyResult := some result }] →
      ∀ doc ∈ docs, doc.IsFor config ∧ doc.nodeID = desired.nodeID := fun hdocs doc hmem => by
    obtain rfl := mem_singleton.mp (hdocs hmem)
    exact ⟨⟨hfor.version, hfor.config⟩, rfl⟩
  unfold applyToPod
  by_cases honline : dm.state = .online
  · rw [if_neg (by simpa using honline)]
    refine ⟨rfl, fun r => Traced.map (recordResult_traced hfor.config fun es hsent hdocs => ⟨(), rfl, ?_⟩)⟩
    have hcalled := h (⟨.applyRuntimeConfig dm config, r⟩ :: es) (some r) (by simpa using honline) (by simp [sentTo, hsent])
      (hdoc hdocs)
    cases r <;> exact hcalled
  · rw [if_pos honline]
    exact Traced.map (recordResult_traced hfor.config fun es hsent hdocs =>
      ⟨(), rfl, h es none (by simpa using honline) hsent (hdoc hdocs)⟩)

theorem persistAndApply_traced (dm : DecisionMakerPod) :
    Traced (RuntimeCall.Requests config) (persistAndApply repo config updatedBy now dm).run fun es r =>
      ∃ result, r = .ok result ∧ PodCalls repo config dm es result := by
  have hreported : ∀ {es : List (Event RuntimeCall.Resp)} {answer : Option (Except Error Unit)},
      es.filterMap sentTo = (answer.map fun r => (dm, config, r)).toList →
      ReportedFor config dm (podResult config dm answer) es := fun hsent => by
    obtain ⟨hnode, hhost⟩ := podResult_nodeID config dm _
    refine ⟨hnode.symm, hhost.symm, fun hs => mem_sentTo.mp ?_⟩
    rw [hsent, (podResult_success ..).mp hs]
    simp
  unfold persistAndApply
  cases repo with
  | false =>
    refine applyToPod_traced ⟨rfl, rfl⟩ fun es answer _ hsent _ => ⟨_, rfl, hreported hsent, nofun⟩
  | true =>
    refine ⟨rfl, fun r => ?_⟩
    cases r with
    | error err => exact ⟨_, rfl, ⟨rfl, rfl, nofun⟩, fun _ hc => by cases hc _ mem_cons_self⟩
    | ok u =>
      refine applyToPod_traced ⟨rfl, rfl⟩ fun es answer hasked hsent hdocs => ⟨_, rfl, hreported hsent, fun _ _ => ?_⟩
      refine ⟨⟨forall_mem_cons.mpr ⟨⟨rfl, rfl⟩, fun doc hdoc => (hdocs doc hdoc).1⟩, fun node => ?_⟩,
        answer, hasked, hsent, rfl⟩
      change node ∈ dm.nodeID :: (es.filterMap upserted).map NodeRuntimeConfig.nodeID ↔ _
      rw [mem_cons, mem_singleton, or_iff_left_iff_imp]
      intro hnode
      obtain ⟨doc, hdoc, rfl⟩ := mem_map.mp hnode
      exact (hdocs doc hdoc).2

theorem Upserts.append {nodes nodes' es es'} (h : Upserts config nodes es)
    (h' : Upserts config nodes' es') : Upserts config (nodes ++ nodes') (es ++ es') := by
  constructor
  · rw [filterMap_append, forall_mem_append]
    exact ⟨h.isFor, h'.isFor⟩
  · intro node
    rw [filterMap_append, map_append, mem_append, mem_append, h.nodes, h'.nodes]

theorem Upserts.cons {node nodes es doc r} (h : Upserts config nodes es) (hfor : doc.IsFor config)
    (hnode : doc.nodeID = node) :
    Upserts config (node :: nodes) ([⟨.upsertNodeRuntimeConfig doc, r⟩] ++ es) := by
  have hone : Upserts config [node] [⟨.upsertNodeRuntimeConfig doc, r⟩] :=
    ⟨fun _ hdoc => mem_singleton.mp hdoc ▸ hfor, fun _ => by simp [upserted, hnode]⟩
  exact hone.append h

theorem upserts_nil : Upserts config [] [] := ⟨fun _ h => by simp at h, fun _ => Iff.rfl⟩

/-- What is called for the pods found; all of it if the database answers. -/
structure PodsCalls (repo : Bool) (config : RuntimeSchedulerConfig) (dms : List DecisionMakerPod)
    (calls : List (Event RuntimeCall.Resp)) (results : List RuntimeConfigApplyResult) : Prop where
  reported : Reported config dms results calls
  served : repo = true → (∀ e ∈ calls, StoreAnswers e) → Upserts config (dms.map DecisionMakerPod.nodeID) calls ∧
    ∃ answers, answers.length = dms.length ∧ results = List.zipWith (podResult config) dms answers ∧
      (∀ p ∈ dms.zip answers, p.2.isSome ↔ p.1.state = .online) ∧
      calls.filterMap sentTo = (dms.zip answers).filterMap (fun p => p.2.map fun r => (p.1, config, r))

theorem applyToPods_traced (dms : List DecisionMakerPod) :
    Traced (RuntimeCall.Requests config) (applyToPods repo config updatedBy now dms).run fun es r =>
      ∃ results, r = .ok results ∧ PodsCalls repo config dms es results := by
  induction dms with
  | nil => exact ⟨[], rfl, fun _ h => (by cases h), fun _ _ => ⟨upserts_nil, [], rfl, rfl, fun _ h => (by cases h), rfl⟩⟩
  | cons dm dms ih =>
    refine Traced.bind ((persistAndApply_traced dm).imp fun es r ⟨result, hr, hpod⟩ => ⟨result, hr, ?_⟩)
    refine Traced.map (ih.imp fun es' r ⟨results, hr, hpods⟩ => ⟨results, hr, result :: results, rfl, ?_, fun hrepo hc => ?_⟩)
    · refine forall_mem_cons.mpr ⟨fun hs => ?_, fun result' hmem hs => ?_⟩
      · obtain ⟨hnode, hhost, hcall⟩ := hpod.reported
        exact ⟨dm, mem_cons_self, hnode, hhost, mem_append_left _ (hcall hs)⟩
      · obtain ⟨dm', hdm, hnode, hhost, hcall⟩ := hpods.reported result' hmem hs
        exact ⟨dm', mem_cons_of_mem _ hdm, hnode, hhost, mem_append_right _ hcall⟩
    · rw [forall_mem_append] at hc
      obtain ⟨hdocs, answer, hserved⟩ := hpod.served hrepo hc.1
      obtain ⟨hdocs', answers, hlength, hresults, hasked, hsent⟩ := hpods.served hrepo hc.2
      refine ⟨hdocs.append hdocs', answer :: answers, by simp [hlength], by rw [hserved.result, hresults]; rfl, ?_, ?_⟩
      · exact forall_mem_cons.mpr ⟨hserved.asked, hasked⟩
      · rw [filterMap_append, hserved.sent, hsent, zip_cons_cons]
        cases answer <;> simp

/-- The nodes without a decision maker: nothing is sent, and no result says success. -/
theorem persistAll_traced (nodeIDs : List String) :
    Traced (RuntimeCall.Requests config)
      (persistAll config updatedBy now "decision maker is not discovered" nodeIDs).run fun es r =>
      es.filterMap sentTo = [] ∧ Upserts config nodeIDs es ∧ ∃ results, r = .ok results ∧
        (∀ result ∈ results, result.success = false) ∧
        ((∀ e ∈ es, StoreAnswers e) → results = nodeIDs.map (undiscoveredResult config)) := by
  induction nodeIDs with
  | nil => exact ⟨rfl, upserts_nil, [], rfl, fun _ h => (by cases h), fun _ => rfl⟩
  | cons nodeID nodeIDs ih =>
    refine Traced.bind ⟨rfl, fun r => ?_⟩
    cases r with
    | error err =>
      refine ⟨_, rfl, Traced.map (ih.imp fun es r ⟨hsent, hdocs, results, hr, hfail, _⟩ => ⟨results, hr, hsent, ?_, ?_⟩)⟩
      · exact hdocs.cons ⟨rfl, rfl⟩ rfl
      · exact ⟨_, rfl, forall_mem_cons.mpr ⟨rfl, hfail⟩, fun hc => by cases hc _ mem_cons_self⟩
    | ok u =>
      refine ⟨_, rfl, Traced.map (ih.imp fun es r ⟨hsent, hdocs, results, hr, hfail, hall⟩ => ⟨results, hr, hsent, ?_, ?_⟩)⟩
      · exact hdocs.cons ⟨rfl, rfl⟩ rfl
      · refine ⟨_, rfl, forall_mem_cons.mpr ⟨rfl, hfail⟩, fun hc => ?_⟩
        rw [hall fun e he => hc e (mem_cons_of_mem _ he)]
        rfl

/-! ## The request -/

/-- The nodes listed that none of the decision makers is on. -/
def RuntimeConfigApplyOptions.undiscovered (opt : RuntimeConfigApplyOptions) (dms : List DecisionMakerPod) : List String :=
  opt.nodeIDs.filter fun nodeID => !dms.any fun dm => dm.nodeID = nodeID

/-- All that a request is to do with the pods `dms` found, and its result. -/
def Serves (opt : RuntimeConfigApplyOptions) (dms : List DecisionMakerPod) (calls : List (Event RuntimeCall.Resp))
    (r : Except Error (List RuntimeConfigApplyResult)) : Prop :=
  Upserts opt.config.normalize (dms.map DecisionMakerPod.nodeID ++ opt.undiscovered dms) calls ∧
  ∃ answers, answers.length = dms.length ∧ (∀ p ∈ dms.zip answers, p.2.isSome ↔ p.1.state = .online) ∧
    calls.filterMap sentTo = (dms.zip answers).filterMap (fun p => p.2.map fun r => (p.1, opt.config.normalize, r)) ∧
    r = if dms = [] ∧ opt.nodeIDs = [] then .error (.status 404 "no decision maker pods found")
      else .ok (List.zipWith (podResult opt.config.normalize) dms answers ++
        (opt.undiscovered dms).map (undiscoveredResult opt.config.normalize))

/-- What a request has called and returned that has found the pods `dms`. -/
structure RequestCalls (repo : Bool) (opt : RuntimeConfigApplyOptions) (dms : List DecisionMakerPod)
    (calls : List (Event RuntimeCall.Resp)) (r : Except Error (List RuntimeConfigApplyResult)) : Prop where
  found : ⟨.queryDecisionMakerPods { nodeIDs := opt.nodeIDs }, .ok dms⟩ ∈ calls
  reported : ∀ results, r = .ok results → Reported opt.config.normalize dms results calls
  served : repo = true → (∀ e ∈ calls, StoreAnswers e) → Serves opt dms calls r

theorem Reported.append {dms results more es es'} (h : Reported config dms results es)
    (hfail : ∀ result ∈ more, result.success = false) : Reported config dms (results ++ more) (es ++ es') := by
  intro result hmem hs
  rcases mem_append.mp hmem with hmem | hmem
  · obtain ⟨dm, hdm, hnode, hhost, hcall⟩ := h result hmem hs
    exact ⟨dm, hdm, hnode, hhost, mem_append_left _ hcall⟩
  · cases (hfail result hmem).symm.trans hs

/-- **Every trace of a request**: it is refused or the pods cannot be found, or it has called and
reported as it should. -/
theorem applyRuntimeConfig_traced (operator : Option Claims) (opt : RuntimeConfigApplyOptions) :
    Traced (RuntimeCall.Requests opt.config.normalize) (applyRuntimeConfig repo operator opt).run fun es r =>
      ((∃ e, r = .error e) ∧ (opt.config.configVersion ≠ "" → opt.config.normalize.validate = .ok () →
        ¬∀ e ∈ es, StoreAnswers e)) ∨
      (opt.config.normalize.validate = .ok () ∧ ∃ dms, RequestCalls repo opt dms es r) := by
  unfold applyRuntimeConfig
  dsimp only
  split
  · rename_i hversion
    exact .inl ⟨⟨_, rfl⟩, fun h => absurd hversion h⟩
  split
  · rename_i hvalid
    exact .inl ⟨⟨_, rfl⟩, fun _ h => by cases hvalid.symm.trans h⟩
  rename_i hvalid
  refine ⟨trivial, fun t => ?_⟩
  cases t with
  | error e => exact .inl ⟨⟨e, rfl⟩, fun _ _ hc => by cases hc _ mem_cons_self⟩
  | ok t =>
  refine ⟨trivial, fun found => ?_⟩
  cases found with
  | error e => exact .inl ⟨⟨e, rfl⟩, fun _ _ hc => by cases hc _ (mem_cons_of_mem _ mem_cons_self)⟩
  | ok dms =>
  refine Traced.imp (φ := fun es r => (∀ results, r = .ok results → Reported opt.config.normalize dms results es) ∧
    (repo = true → (∀ e ∈ es, StoreAnswers e) → Serves opt dms es r)) ?_ fun es r h => ?_
  rotate_left
  · refine .inr ⟨hvalid, dms, by simp, fun results hr => ?_, fun hrepo hc => ?_⟩
    · exact fun result hmem hs => (h.1 results hr result hmem hs).imp fun dm hdm => by simp [hdm]
    · obtain ⟨hdocs, hserved⟩ := h.2 hrepo fun e he => hc e (by simp [he])
      exact ⟨⟨hdocs.isFor, hdocs.nodes⟩, hserved⟩
  change Traced _ (if dms.isEmpty then _ else _ : RuntimeSvc _).run _
  by_cases hnone : dms = []
  · -- No decision maker at all.
    subst hnone
    rw [if_pos isEmpty_nil]
    have hall : opt.undiscovered [] = opt.nodeIDs := by simp [RuntimeConfigApplyOptions.undiscovered]
    by_cases hnodes : opt.nodeIDs = []
    · rw [if_neg (by simp [hnodes])]
      exact ⟨nofun, fun _ _ => ⟨by rw [hall, hnodes]; exact upserts_nil, [], rfl, by simp, rfl, by simp [hnodes]⟩⟩
    · cases repo with
      | false => exact ⟨nofun, nofun⟩
      | true =>
        rw [if_pos (by simpa using hnodes)]
        refine (persistAll_traced _).imp fun es r ⟨hsent, hdocs, results, hr, hfail, hdone⟩ => ⟨?_, fun _ hc => ?_⟩
        · rintro _ he result hmem hs
          cases hr.symm.trans he
          cases (hfail result hmem).symm.trans hs
        · exact ⟨hall.symm ▸ hdocs, [], rfl, by simp, hsent, by simp [hnodes, hall, hr, hdone hc]⟩
  · rw [if_neg (by simpa using hnone)]
    refine Traced.bind ((applyToPods_traced dms).imp fun es r ⟨results, hr, hpods⟩ => ⟨results, hr, ?_⟩)
    cases repo with
    | false =>
      refine ⟨fun results' he => ?_, nofun⟩
      cases he
      simpa using hpods.reported
    | true =>
      refine Traced.map ((persistAll_traced _).imp fun es' r ⟨hsent, hdocs, more, hr, hfail, hdone⟩ => ⟨more, hr, ?_, fun _ hc => ?_⟩)
      · rintro _ ⟨⟩
        exact hpods.reported.append hfail
      · rw [forall_mem_append] at hc
        obtain ⟨hdocs', answers, hlength, hresults, hasked, hsent'⟩ := hpods.served rfl hc.1
        refine ⟨hdocs'.append hdocs, answers, hlength, hasked, ?_, ?_⟩
        · rw [filterMap_append, hsent, hsent', append_nil]
        · simp [hnone, hresults, hdone hc.2, RuntimeConfigApplyOptions.undiscovered]

/-! ## The answers -/

section

variable {env : Nat → RuntimeChoice} {w w' : RuntimeWorld} {es : List (Event RuntimeCall.Resp)}

theorem answer_decisionMakers (choice : RuntimeChoice) (w : RuntimeWorld) (call : RuntimeCall) :
    (w.answer choice call).2.decisionMakers = w.decisionMakers := by
  cases call with
  | applyRuntimeConfig dm config =>
    simp only [RuntimeWorld.answer, RuntimeWorld.send]
    split
    · rfl
    · split <;> rfl
  | _ => rfl

/-- Only an upsert changes what is stored, if it succeeds. -/
theorem answer_stored (choice : RuntimeChoice) (w : RuntimeWorld) (call : RuntimeCall)
    (hok : StoreAnswers ⟨call, (w.answer choice call).1⟩) :
    (w.answer choice call).2.stored = ((upserted ⟨call, (w.answer choice call).1⟩).map w.stored.upsert).getD w.stored := by
  cases call with
  | upsertNodeRuntimeConfig cfg =>
    simp only [RuntimeWorld.answer] at hok ⊢
    cases hout : choice.outcome with
    | ok => rfl
    | refused | lost =>
      rw [hout] at hok
      cases hok
  | applyRuntimeConfig dm config =>
    simp only [RuntimeWorld.answer, RuntimeWorld.send, upserted]
    split
    · rfl
    · split <;> rfl
  | _ => rfl

/-- The pods found in a run are those of the cluster on the nodes. -/
theorem run_found {α : Type} {p : Prog RuntimeCall RuntimeCall.Resp α} {a : α}
    (h : Run (RuntimeWorld.serve env) p w es a w') {opt : QueryDecisionMakerPodsOptions} {dms : List DecisionMakerPod}
    (hfound : ⟨.queryDecisionMakerPods opt, .ok dms⟩ ∈ es) :
    dms.Perm (K8SAdapter.onNodes opt.nodeIDs w.decisionMakers) := by
  induction h with
  | ret => cases hfound
  | @call o k w w' es a _ ih =>
    rcases mem_cons.mp hfound with he | hfound
    · obtain ⟨rfl, hr⟩ := Sigma.mk.inj he
      rw [Outcome.read_ok (eq_of_heq hr).symm]
      exact reorder_perm _ _
    · have hpods : (RuntimeWorld.serve env o w).2.decisionMakers = w.decisionMakers := answer_decisionMakers (env w.tick) _ o
      exact hpods ▸ ih hfound

end

end Gthulhu.Manager
