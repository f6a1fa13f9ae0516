/-
What a request for a runtime configuration leaves in the database, and what it
reports (`ApplyRuntimeConfig`).

A run stores the documents it upserts (`run_stores`), and those of a request
are for the nodes asked for and for no other (**`applyRuntimeConfig_records`**).
-/
import Gthulhu.Manager.RuntimeResyncFacts

namespace Gthulhu.Manager

open Lib Prog

/-! ## What is stored on the way -/

/-- The configuration has been stored for `nodes`, and nothing for any other. -/
structure Stores (config : RuntimeSchedulerConfig) (nodes : List String) (w w' : RuntimeWorld) : Prop where
  own : ∀ node ∈ nodes, ∃ doc, w'.stored.find node = some doc ∧ doc.IsFor config
  others : ∀ node, node ∉ nodes → w'.stored.find node = w.stored.find node

section

variable {config : RuntimeSchedulerConfig} {nodes nodes' : List String} {w w₁ w' : RuntimeWorld}

theorem Stores.of_eq (h : w'.stored = w.stored) : Stores config [] w w' :=
  ⟨fun _ hn => by simp at hn, fun _ _ => by rw [h]⟩

theorem Stores.upsert {cfg} (hfor : cfg.IsFor config) (h : w'.stored = w.stored.upsert cfg) :
    Stores config [cfg.nodeID] w w' := by
  constructor
  · intro node hn
    rw [List.mem_singleton] at hn
    exact ⟨cfg, by simp [h, NodeConfigs.find_upsert, hn], hfor⟩
  · intro node hn
    rw [List.mem_singleton] at hn
    rw [h, NodeConfigs.find_upsert, if_neg (Ne.symm hn)]

theorem Stores.trans (h : Stores config nodes w w₁) (h' : Stores config nodes' w₁ w') :
    Stores config (nodes ++ nodes') w w' := by
  constructor
  · intro node hn
    by_cases hn' : node ∈ nodes'
    · exact h'.own node hn'
    · rw [h'.others node hn']
      exact h.own node (by simpa [hn'] using hn)
  · intro node hn
    rw [List.mem_append, not_or] at hn
    rw [h'.others node hn.2, h.others node hn.1]

theorem Stores.congr (h : Stores config nodes w w') (hnodes : ∀ node, node ∈ nodes ↔ node ∈ nodes') :
    Stores config nodes' w w' :=
  ⟨fun node hn => h.own node ((hnodes node).mpr hn), fun node hn => h.others node fun hn' => hn ((hnodes node).mp hn')⟩

end

section

variable {env : Nat → RuntimeChoice} {config : RuntimeSchedulerConfig} {w w' : RuntimeWorld}
  {calls : List (Event RuntimeCall.Resp)}

/-- A run in which the database answers has stored the documents it has upserted. -/
theorem run_stores {α : Type} {p : Prog RuntimeCall RuntimeCall.Resp α} {a : α}
    (h : Run (RuntimeWorld.serve env) p w calls a w') (hc : ∀ e ∈ calls, StoreAnswers e)
    (hfor : ∀ doc ∈ calls.filterMap upserted, doc.IsFor config) :
    Stores config ((calls.filterMap upserted).map NodeRuntimeConfig.nodeID) w w' := by
  induction h with
  | ret => exact .of_eq rfl
  | @call o k w w' es a _ ih =>
    rw [List.forall_mem_cons] at hc
    have hstored : (RuntimeWorld.serve env o w).2.stored =
        ((upserted ⟨o, (RuntimeWorld.serve env o w).1⟩).map w.stored.upsert).getD w.stored :=
      answer_stored (env w.tick) { w with tick := w.tick + 1 } o hc.1
    cases hdoc : upserted ⟨o, (RuntimeWorld.serve env o w).1⟩ with
    | none =>
      rw [hdoc] at hstored
      rw [List.filterMap_cons_none hdoc] at hfor ⊢
      exact (Stores.of_eq hstored).trans (ih hc.2 hfor)
    | some cfg =>
      rw [hdoc] at hstored
      rw [List.filterMap_cons_some hdoc] at hfor ⊢
      rw [List.forall_mem_cons] at hfor
      exact (Stores.upsert hfor.1 hstored).trans (ih hc.2 hfor.2)

/-! ## The request -/

/-- The nodes a request is for, with the decision makers there are. -/
def RuntimeConfigApplyOptions.targets (opt : RuntimeConfigApplyOptions) (dms : List DecisionMakerPod) : List String :=
  if opt.nodeIDs = [] then dms.map DecisionMakerPod.nodeID else opt.nodeIDs

/-- The decision makers found and the nodes without one are the nodes asked for. -/
theorem mem_targets {opt : RuntimeConfigApplyOptions} {all dms : List DecisionMakerPod}
    (h : dms.Perm (K8SAdapter.onNodes opt.nodeIDs all)) (node : String) :
    node ∈ dms.map DecisionMakerPod.nodeID ++ opt.undiscovered dms ↔ node ∈ opt.targets all := by
  have hdms : ∀ dm, dm ∈ dms ↔ dm ∈ all ∧ (opt.nodeIDs = [] ∨ dm.nodeID ∈ opt.nodeIDs) := fun dm => by
    rw [h.mem_iff]
    simp [K8SAdapter.onNodes]
  unfold RuntimeConfigApplyOptions.targets RuntimeConfigApplyOptions.undiscovered
  by_cases hnone : opt.nodeIDs = []
  · simp [hnone, hdms]
  · rw [if_neg hnone]
    simp only [hdms, hnone, false_or, List.mem_append, List.mem_map, List.mem_filter, Bool.not_eq_true',
      List.any_eq_false, decide_eq_true_eq]
    constructor
    · rintro (⟨dm, hdm, rfl⟩ | hnode)
      · exact hdm.2
      · exact hnode.1
    · intro hnode
      by_cases hfound : ∃ dm ∈ dms, dm.nodeID = node
      · obtain ⟨dm, hdm, rfl⟩ := hfound
        rw [hdms] at hdm
        exact .inl ⟨dm, ⟨hdm.1, hnode⟩, rfl⟩
      · exact .inr ⟨hnode, fun dm hdm heq => hfound ⟨dm, (hdms dm).mpr ⟨hdm.1, .inr hdm.2⟩, heq⟩⟩

/-- **What a valid request records and reports**, as long as the database and
the cluster answer: its normalised configuration is stored for each of the
nodes it is for and for no other; each decision maker on them that is online
is sent it, once for each time it is listed; and there is one result for each
decision maker and one for each node listed without one, a success just for
those that took the configuration. Only without any of either does the
request fail. -/
theorem applyRuntimeConfig_records {operator : Option Claims} {opt : RuntimeConfigApplyOptions}
    {r : Except Error (List RuntimeConfigApplyResult)} (hversion : opt.config.configVersion ≠ "")
    (hvalid : opt.config.normalize.validate = .ok ()) (hc : ∀ e ∈ calls, StoreAnswers e)
    (h : RuntimeRuns env (applyRuntimeConfig true operator opt) w calls r w') :
    Stores opt.config.normalize (opt.targets w.decisionMakers) w w' ∧
      ∃ dms answers, dms.Perm (K8SAdapter.onNodes opt.nodeIDs w.decisionMakers) ∧ answers.length = dms.length ∧
        (∀ p ∈ dms.zip answers, p.2.isSome ↔ p.1.state = .online) ∧
        calls.filterMap sentTo =
          (dms.zip answers).filterMap (fun p => p.2.map fun r => (p.1, opt.config.normalize, r)) ∧
        (r = if dms = [] ∧ opt.nodeIDs = [] then .error (.status 404 "no decision maker pods found")
          else .ok (List.zipWith (podResult opt.config.normalize) dms answers ++
            (opt.undiscovered dms).map (undiscoveredResult opt.config.normalize))) ∧
        (∀ dm answer, (podResult opt.config.normalize dm answer).nodeID = dm.nodeID ∧
          (podResult opt.config.normalize dm answer).host = dm.host ∧
          ((podResult opt.config.normalize dm answer).success = true ↔ answer = some (.ok ()))) ∧
        ∀ node, (undiscoveredResult opt.config.normalize node).nodeID = node ∧
          (undiscoveredResult opt.config.normalize node).success = false := by
  obtain ⟨⟨-, hrefused⟩ | ⟨-, dms, hcalls⟩, -⟩ := h.traced (applyRuntimeConfig_traced operator opt)
  · exact absurd hc (hrefused hversion hvalid)
  obtain ⟨hdocs, answers, hlength, hasked, hsent, hr⟩ := hcalls.served rfl hc
  have hperm := run_found h hcalls.found
  refine ⟨(run_stores h hc hdocs.isFor).congr fun node => (hdocs.nodes node).trans (mem_targets hperm node), dms, answers,
    hperm, hlength, hasked, hsent, hr, fun dm answer => ?_, fun _ => ⟨rfl, rfl⟩⟩
  exact ⟨(podResult_nodeID _ dm answer).1, (podResult_nodeID _ dm answer).2, podResult_success _ dm answer⟩

end

namespace OneDaemon

/-- A pod on node `b` that is not running. -/
def offline : DecisionMakerPod := { nodeID := "b", host := "10.0.0.2", port := 8080, state := .offline }

/-- The decision maker of node `a`, one of node `b` that is down, and none on `c`. -/
def mixedWorld : RuntimeWorld := { world with decisionMakers := [dm, offline] }

def mixedOptions : RuntimeConfigApplyOptions := { options true with nodeIDs := ["a", "b", "c", "c"] }

end OneDaemon

/-- Nodes `a`, `b` and twice `c` are asked for: one is online, one down, and one
without a decision maker. -/
theorem applyRuntimeConfig_records_mixed :
    ∃ calls results w', RuntimeRuns (fun _ => {}) (applyRuntimeConfig true none OneDaemon.mixedOptions)
        OneDaemon.mixedWorld calls (.ok results) w' ∧
      results.map (fun r => (r.nodeID, r.success)) = [("a", true), ("b", false), ("c", false), ("c", false)] ∧
      ∀ node ∈ ["a", "b", "c"], ∃ doc, w'.stored.find node = some doc ∧
        doc.IsFor OneDaemon.mixedOptions.config.normalize := by
  refine Run.exists_ok_of (fun calls results _ => (∀ e ∈ calls, StoreAnswers e) ∧
    results.map (fun r => (r.nodeID, r.success)) = [("a", true), ("b", false), ("c", false), ("c", false)])
    (by decide +kernel) ?_
  rintro calls results w' hrun ⟨hclean, hresults⟩
  refine ⟨hresults, fun node hnode => ?_⟩
  obtain ⟨hstores, -⟩ := applyRuntimeConfig_records (by decide) (by decide +kernel) hclean hrun
  refine hstores.own node ?_
  have hsub : ["a", "b", "c"] ⊆ OneDaemon.mixedOptions.targets OneDaemon.mixedWorld.decisionMakers := by decide
  exact hsub hnode

end Gthulhu.Manager
