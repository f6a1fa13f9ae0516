/-
A request for a runtime configuration while the reconciler is at work
(`ApplyRuntimeConfig`, `resyncRuntimeConfigsToDMs`).

The reconciler reads the stored documents, and applies and stores each again.
A request that comes in between is undone: by the reconciler's apply at the
decision maker, and by its upsert in the database. The request's configuration
stays if and only if the reconciler has read it, or reads what is the same, or
is done with the node before the request is (**`runtimeConfig_stays_iff`**).
-/
import Gthulhu.Lib.Trace
import Gthulhu.Lib.Pool
import Gthulhu.Manager.RuntimeConfigFacts

namespace Gthulhu.Manager

open Lib Prog List Pool

/-! ## What is stored -/

namespace NodeConfigs

variable {c : NodeConfigs} {doc cfg : NodeRuntimeConfig}

theorem find_of_mem (h : doc ∈ c.docs) : c.find doc.nodeID = some doc := by
  cases hf : c.docs.find? fun doc' => doc'.nodeID = doc.nodeID with
  | none => exact absurd (find?_eq_none.mp hf doc h) (by simp)
  | some doc' =>
    have hid : doc'.nodeID = doc.nodeID := by simpa using find?_some hf
    rw [find, hf, inj_on_of_nodup_map c.nodup (mem_of_find?_eq_some hf) h hid]

theorem find_upsert (nodeID : String) :
    (c.upsert cfg).find nodeID = if cfg.nodeID = nodeID then some cfg else c.find nodeID := by
  unfold upsert find
  split
  · rename_i hmem
    obtain ⟨doc, hdoc, hid⟩ := mem_map.mp hmem
    have hpred : ((fun doc : NodeRuntimeConfig => decide (doc.nodeID = nodeID)) ∘
        fun doc => if doc.nodeID = cfg.nodeID then cfg else doc) = fun doc => decide (doc.nodeID = nodeID) := by
      funext doc'
      by_cases h : doc'.nodeID = cfg.nodeID <;> simp [h]
    simp only [find?_map, hpred]
    by_cases hnode : cfg.nodeID = nodeID
    · subst hnode
      have hfound := find_of_mem hdoc
      rw [hid, find] at hfound
      simp [hfound, hid]
    · rw [if_neg hnode]
      cases hf : c.docs.find? fun doc' => doc'.nodeID = nodeID with
      | none => rfl
      | some doc' =>
        have hne : doc'.nodeID ≠ cfg.nodeID := fun h => hnode (h ▸ by simpa using find?_some hf)
        simp [hne]
  · rename_i hmem
    by_cases hnode : cfg.nodeID = nodeID
    · subst hnode
      have hnone : c.docs.find? (fun doc => doc.nodeID = cfg.nodeID) = none :=
        find?_eq_none.mpr fun doc hdoc h => hmem (mem_map.mpr ⟨doc, hdoc, by simpa using h⟩)
      simp [find?_append, hnone]
    · simp [find?_append, hnode]

end NodeConfigs

theorem dmByNode_nodeID {dms nodeID dm} (h : dmByNode dms nodeID = some dm) : dm.nodeID = nodeID := by
  have hkeyed : ∀ (dms : List DecisionMakerPod) (m : StrMap DecisionMakerPod),
      (∀ node dm, m.lookup node = some dm → dm.nodeID = node) →
      ∀ node dm, (dms.foldl (fun m dm => m.insert dm.nodeID dm) m).lookup node = some dm → dm.nodeID = node := by
    intro dms
    induction dms with
    | nil => exact fun m hm => hm
    | cons dm dms ih =>
      intro m hm
      refine ih _ fun node dm' hlookup => ?_
      by_cases hnode : node = dm.nodeID
      · subst hnode
        rw [AList.lookup_insert] at hlookup
        cases hlookup
        rfl
      · rw [AList.lookup_insert_ne hnode] at hlookup
        exact hm node dm' hlookup
  exact hkeyed dms ∅ (fun node dm h => by simp at h) nodeID dm h

/-! ## Two operations at once -/

inductive ConfigOp where
  | apply (operator : Option Claims) (opt : RuntimeConfigApplyOptions)
  | resync
  deriving DecidableEq

def ConfigOp.program : ConfigOp → RuntimeSvc (List RuntimeConfigApplyResult)
  | .apply operator opt => applyRuntimeConfig true operator opt
  | .resync => do
    resyncRuntimeConfigsToDMs true
    return []

abbrev ConfigPool : Type :=
  Pool RuntimeWorld ConfigOp RuntimeCall RuntimeCall.Resp (Except Error (List RuntimeConfigApplyResult))

def configCalls : Machine ConfigPool (PoolEvent ConfigOp RuntimeChoice) :=
  Pool.machine (fun op => op.program.run) fun choice call w => RuntimeWorld.answer choice w call

/-- A request, operation 0, and the reconciler, operation 1, taking turns. -/
def concurrently (operator : Option Claims) (opt : RuntimeConfigApplyOptions) (turns : List (Nat × RuntimeChoice)) :
    List (PoolEvent ConfigOp RuntimeChoice) :=
  .start (.apply operator opt) :: .start .resync :: turns.map fun t => .turn t.1 t.2

/-! ## What each of them calls -/

/-- A call that has succeeded. -/
def Succeeded (e : Event RuntimeCall.Resp) : Prop := e.2.isOk = true

instance : DecidablePred Succeeded := fun e => inferInstanceAs (Decidable (e.2.isOk = true))

section

variable {g : List (Event RuntimeCall.Resp)}

/-- `n` has been stored for the node of a pod and, if the pod is online, applied to it. -/
def Served (n : RuntimeSchedulerConfig) (dm : DecisionMakerPod) (g : List (Event RuntimeCall.Resp)) : Prop :=
  (∃ cfg, cfg.nodeID = dm.nodeID ∧ ⟨.upsertNodeRuntimeConfig cfg, .ok ()⟩ ∈ g) ∧
    (dm.state = .online → ⟨.applyRuntimeConfig dm n, .ok ()⟩ ∈ g)

/-- A request that returns, all of whose calls succeed, has served every pod it was given. -/
theorem Serves.served {opt dms dm r} (h : Serves opt dms g r) (hok : ∀ e ∈ g, Succeeded e) (hdm : dm ∈ dms) :
    Served opt.config.normalize dm g := by
  obtain ⟨hdocs, answers, hlength, hasked, hsent, -⟩ := h
  constructor
  · obtain ⟨doc, hdoc, hnode⟩ := mem_map.mp ((hdocs.nodes dm.nodeID).mpr (by simpa using .inl ⟨dm, hdm, rfl⟩))
    obtain ⟨r, he⟩ := mem_upserted.mp hdoc
    have hr := hok _ he
    cases r with
    | error e => cases hr
    | ok u => exact ⟨doc, hnode, he⟩
  · intro honline
    rw [← map_fst_zip hlength.ge] at hdm
    obtain ⟨⟨dm, answer⟩, hp, rfl⟩ := mem_map.mp hdm
    obtain ⟨r, rfl⟩ := Option.isSome_iff_exists.mp ((hasked _ hp).mpr honline)
    have he : ⟨.applyRuntimeConfig dm opt.config.normalize, r⟩ ∈ g := mem_sentTo.mp (by
      rw [hsent]
      exact mem_filterMap.mpr ⟨_, hp, rfl⟩)
    have hr := hok _ he
    cases r with
    | error e => cases hr
    | ok u => exact he

theorem Succeeded.storeAnswers {e} (h : Succeeded e) : StoreAnswers e := by
  obtain ⟨call, r⟩ := e
  cases call <;> first | exact trivial | exact h

/-! ### The reconciler -/

/-- The calls of the reconciler, after its calls `g`: one read, and what it has read. -/
def RuntimeCall.Resyncs (g : List (Event RuntimeCall.Resp)) : RuntimeCall → Prop
  | .upsertNodeRuntimeConfig cfg => ∃ docs, ⟨.queryNodeRuntimeConfigs [], .ok docs⟩ ∈ g ∧
      ∃ doc ∈ docs, doc.nodeID = cfg.nodeID ∧ doc.config = cfg.config
  | .applyRuntimeConfig dm config => ∃ docs, ⟨.queryNodeRuntimeConfigs [], .ok docs⟩ ∈ g ∧
      ∃ doc ∈ docs, doc.nodeID = dm.nodeID ∧ doc.config = config
  | .queryNodeRuntimeConfigs nodeIDs => nodeIDs = [] ∧ g = []
  | _ => True

/-- As long as its calls succeed, a program makes the calls of the reconciler after the calls `g`, and ends in `K`. -/
def Resyncs {α : Type} (K : List (Event RuntimeCall.Resp) → Prop) (g : List (Event RuntimeCall.Resp)) (x : RuntimeSvc α) :
    Prop :=
  Along Succeeded (fun g e => g ++ [e]) RuntimeCall.Resyncs (Ends (fun g _ => K g) fun _ _ => True) g x.run

theorem resyncRuntimeConfig_calls {docs} (hread : ⟨.queryNodeRuntimeConfigs [], .ok docs⟩ ∈ g) {desired}
    (hdesired : desired ∈ docs) (dms : List DecisionMakerPod) :
    Resyncs (⟨.queryNodeRuntimeConfigs [], .ok docs⟩ ∈ ·) g (resyncRuntimeConfig dms desired) := by
  unfold resyncRuntimeConfig
  split
  · exact hread
  · rename_i dm hdm
    refine along_ite.mpr ⟨fun _ => hread, fun _ => ?_⟩
    refine ⟨⟨docs, hread, desired, hdesired, (dmByNode_nodeID hdm).symm, rfl⟩, fun r _ => ?_⟩
    have hread := mem_append_left [⟨.applyRuntimeConfig dm desired.config, r⟩] hread
    exact ⟨⟨docs, hread, desired, hdesired, rfl, rfl⟩, fun _ _ => mem_append_left _ hread⟩

theorem resyncRuntimeConfigsToDMs_calls : Resyncs (fun _ => True) [] (resyncRuntimeConfigsToDMs true) := by
  unfold resyncRuntimeConfigsToDMs
  refine along_ite.mpr ⟨nofun, fun _ => along_except_bind.mpr (along_mapError.mpr ⟨⟨rfl, rfl⟩, fun found hfound => ?_⟩)⟩
  cases found with
  | error e => cases hfound
  | ok docs =>
  refine along_ite.mpr ⟨fun _ => trivial, fun _ => along_except_bind.mpr (along_mapError.mpr ⟨trivial, fun pods hpods => ?_⟩)⟩
  cases pods with
  | error e => cases hpods
  | ok dms =>
  have hloop : ∀ (configs : List NodeRuntimeConfig) (g : List (Event RuntimeCall.Resp)), configs ⊆ docs →
      ⟨.queryNodeRuntimeConfigs [], .ok docs⟩ ∈ g → Resyncs (fun _ => True) g (forM configs (resyncRuntimeConfig dms)) := by
    intro configs
    induction configs with
    | nil => exact fun _ _ _ => trivial
    | cons desired configs ih =>
      intro g hsub hread
      rw [forM_cons]
      refine along_except_bind.mpr (Along.imp (fun g' r => ?_) (resyncRuntimeConfig_calls hread (hsub (by simp)) dms))
      cases r with
      | ok _ => exact ih g' fun doc hdoc => hsub (by simp [hdoc])
      | error e => exact id
  exact hloop docs _ (fun _ h => h) (by simp)

end

/-! ## The two together -/

/-- The document that an upsert for the node stores. -/
def upsertOf (node : String) (e : Nat × Event RuntimeCall.Resp) : Option NodeRuntimeConfig :=
  match e.2.1 with
  | .upsertNodeRuntimeConfig cfg => if cfg.nodeID = node then some cfg else none
  | _ => none

/-- The configuration that is applied to a pod. -/
def appliedTo (dm : DecisionMakerPod) (e : Nat × Event RuntimeCall.Resp) : Option RuntimeSchedulerConfig :=
  match e.2.1 with
  | .applyRuntimeConfig dm' config => if dm' = dm then some config else none
  | _ => none

/-- The configuration a call is about, and its node. -/
def configFor : RuntimeCall → Option (String × RuntimeSchedulerConfig)
  | .upsertNodeRuntimeConfig cfg => some (cfg.nodeID, cfg.config)
  | .applyRuntimeConfig dm config => some (dm.nodeID, config)
  | _ => none

theorem upsertOf_configFor {node e cfg}
    (h : upsertOf node e = some cfg) : configFor e.2.1 = some (node, cfg.config) := by
  obtain ⟨i, call, r⟩ := e
  cases call with
  | upsertNodeRuntimeConfig cfg' =>
    simp only [upsertOf] at h
    split at h <;> cases h
    simp_all [configFor]
  | _ => cases h

theorem appliedTo_configFor {dm e config}
    (h : appliedTo dm e = some config) : configFor e.2.1 = some (dm.nodeID, config) := by
  obtain ⟨i, call, r⟩ := e
  cases call with
  | applyRuntimeConfig dm' config' =>
    simp only [appliedTo] at h
    split at h <;> cases h
    simp_all [configFor]
  | _ => cases h

/-- What is stored for the node after the calls of `t`. -/
def storedAfter (w : RuntimeWorld) (t : List (Nat × Event RuntimeCall.Resp)) (node : String) : Option NodeRuntimeConfig :=
  (lastOf (upsertOf node) t).or (w.stored.find node)

/-- What the answers tell, when all calls before have succeeded. -/
def Told (w : RuntimeWorld) (t : List (Nat × Event RuntimeCall.Resp)) (e : Nat × Event RuntimeCall.Resp) : Prop :=
  (∀ opt dms, e.2 = ⟨.queryDecisionMakerPods opt, .ok dms⟩ → ∀ dm, dm ∈ dms ↔ dm ∈ K8SAdapter.onNodes opt.nodeIDs w.decisionMakers) ∧
    ∀ docs, e.2 = ⟨.queryNodeRuntimeConfigs [], .ok docs⟩ → (∀ e' ∈ t, Succeeded e'.2) →
      ∀ doc ∈ docs, storedAfter w t doc.nodeID = some doc

structure ResyncInv (w : RuntimeWorld) (operator : Option Claims) (opt : RuntimeConfigApplyOptions) (s : ConfigPool) :
    Prop where
  paths : s.OnPaths fun op => op.program.run
  threads : s.threads.map Prod.fst = [.apply operator opt, .resync]
  pods : s.shared.decisionMakers = w.decisionMakers
  stored : (∀ e ∈ s.trace, Succeeded e.2) → ∀ node, s.shared.stored.find node = storedAfter w s.trace node
  told : Always (Told w) s.trace

variable {w : RuntimeWorld} {operator : Option Claims} {opt : RuntimeConfigApplyOptions} {s s' : ConfigPool}

theorem answer_find (choice : RuntimeChoice) (w : RuntimeWorld) (call : RuntimeCall) {i}
    (hok : Succeeded ⟨call, (w.answer choice call).1⟩) (node : String) :
    (w.answer choice call).2.stored.find node =
      (upsertOf node (i, ⟨call, (w.answer choice call).1⟩)).or (w.stored.find node) := by
  rw [answer_stored choice w call hok.storeAnswers]
  cases call with
  | upsertNodeRuntimeConfig cfg =>
    simp only [upserted, Option.map_some, Option.getD_some, NodeConfigs.find_upsert, upsertOf]
    split <;> rfl
  | _ => rfl

theorem answer_told {t} {w' : RuntimeWorld} (hpods : w'.decisionMakers = w.decisionMakers)
    (hstored : (∀ e ∈ t, Succeeded e.2) → ∀ node, w'.stored.find node = storedAfter w t node) (choice : RuntimeChoice)
    (call : RuntimeCall) (i : Nat) : Told w t (i, ⟨call, (w'.answer choice call).1⟩) := by
  refine ⟨fun opt dms he dm => ?_, fun docs he hok doc hdoc => ?_⟩
  · obtain ⟨rfl, hr⟩ := Sigma.mk.inj he
    have hread := Outcome.read_ok (eq_of_heq hr)
    rw [hread, mem_reorder, hpods]
  · obtain ⟨rfl, hr⟩ := Sigma.mk.inj he
    have hread := Outcome.read_ok (eq_of_heq hr)
    rw [hread, mem_reorder] at hdoc
    rw [← hstored hok, NodeConfigs.find_of_mem (mem_filter.mp hdoc).1]

theorem ResyncInv.turn {t : Nat × RuntimeChoice} (h : ResyncInv w operator opt s)
    (hs : configCalls.step s (.turn t.1 t.2) = some s') : ResyncInv w operator opt s' := by
  have hpaths := h.paths.step hs
  rcases step_cases hs with ⟨op, he, -⟩ | ⟨i, choice, op, call, rest, r, w', -, hi, hr, rfl⟩
  · cases he
  obtain rfl : r = (s.shared.answer choice call).1 := (congrArg Prod.fst hr).symm
  obtain rfl : w' = (s.shared.answer choice call).2 := (congrArg Prod.snd hr).symm
  refine ⟨hpaths, ?_, ?_, fun hok node => ?_, ?_⟩
  · exact (map_fst_answered hi).trans h.threads
  · exact (answer_decisionMakers choice s.shared call).trans h.pods
  · simp only [Pool.answered, mem_append, mem_singleton] at hok ⊢
    have hbefore := h.stored (fun e he => hok e (.inl he)) node
    rw [answer_find choice s.shared call (hok _ (.inr rfl)) node, hbefore, storedAfter, storedAfter, lastOf_snoc,
      Option.or_assoc]
  · exact h.told.snoc (answer_told h.pods h.stored choice call i)

theorem ResyncInv.run {turns} (hrun : configCalls.exec { shared := w }
    (concurrently operator opt turns) = some s) : ResyncInv w operator opt s := by
  have hturns : ∀ {turns : List (Nat × RuntimeChoice)} {s0}, configCalls.exec s0 (turns.map fun t => .turn t.1 t.2) = some s →
      ResyncInv w operator opt s0 → ResyncInv w operator opt s := by
    intro turns
    induction turns with
    | nil =>
      intro s0 h hinv
      cases h
      exact hinv
    | cons t turns ih =>
      intro s0 h hinv
      obtain ⟨_, hstep, hrest⟩ := Machine.exec_cons h
      exact ih hrest (hinv.turn hstep)
  obtain ⟨_, hstart, hrest⟩ := Machine.exec_cons hrun
  obtain ⟨_, hstart', hrest⟩ := Machine.exec_cons hrest
  have hpaths := ((Pool.OnPaths.nil w).step hstart).step hstart'
  cases hstart
  cases hstart'
  exact hturns hrest ⟨hpaths, rfl, rfl, fun _ _ => rfl, always_nil⟩

/-! ## Who has called what -/

theorem ResyncInv.thread (h : ResyncInv w operator opt s) {i : Nat} {op : ConfigOp}
    (hi : [.apply operator opt, .resync][i]? = some op) : ∃ p, s.threads[i]? = some (op, p) := by
  rw [← h.threads, getElem?_map, Option.map_eq_some_iff] at hi
  obtain ⟨⟨_, p⟩, hp, rfl⟩ := hi
  exact ⟨p, hp⟩

theorem ResyncInv.caller_cases (h : ResyncInv w operator opt s) {e} (he : e ∈ s.trace) :
    e.1 = 0 ∨ e.1 = 1 := by
  have hlt := h.paths.callers e he
  have hlen := congrArg List.length h.threads
  simp only [length_map, length_cons, length_nil] at hlen
  omega

/-- A configuration the reconciler has read for the node. -/
def ReadFor (s : ConfigPool) (node : String) (config : RuntimeSchedulerConfig) : Prop :=
  ∃ t₁ t₂ docs doc, s.trace = t₁ ++ (1, ⟨.queryNodeRuntimeConfigs [], .ok docs⟩) :: t₂ ∧ doc ∈ docs ∧ doc.nodeID = node ∧
    doc.config = config

theorem readFor_of_mem {t1 t2 e} (ht : s.trace = t1 ++ e :: t2) {docs}
    (hread : ⟨.queryNodeRuntimeConfigs [], .ok docs⟩ ∈ Pool.callsOf t1 1) {doc} (hdoc : doc ∈ docs) :
    ReadFor s doc.nodeID doc.config := by
  obtain ⟨t3, t4, rfl⟩ := append_of_mem (mem_callsOf.mp hread)
  exact ⟨t3, t4 ++ e :: t2, docs, doc, by simp [ht], hdoc, rfl, rfl⟩

section

variable (hinv : ResyncInv w operator opt s) (hok : ∀ e ∈ s.trace, Succeeded e.2)

include hinv hok

theorem request_calls {e} (he : (0, e) ∈ s.trace) : e.1.Requests opt.config.normalize := by
  obtain ⟨p, hp⟩ := hinv.thread (i := 0) rfl
  have hprogram := (@applyRuntimeConfig_traced true operator opt).along Succeeded
  have halong := (hinv.paths.path 0 _ p hp).along (fun e he => hok _ (mem_callsOf.mp he)) hprogram
  obtain ⟨es1, es2, hsplit⟩ := append_of_mem (mem_callsOf.mpr he)
  exact halong.2 es1 e es2 hsplit

theorem resync_calls {t1 t2 e} (ht : s.trace = t1 ++ (1, e) :: t2) : e.1.Resyncs (Pool.callsOf t1 1) := by
  obtain ⟨p, hp⟩ := hinv.thread (i := 1) rfl
  have hprogram : Resyncs (fun _ => True) [] ConfigOp.resync.program :=
    along_except_bind.mpr resyncRuntimeConfigsToDMs_calls
  have halong := (hinv.paths.path 1 _ p hp).along (fun e he => hok _ (mem_callsOf.mp he)) hprogram
  have hcall := halong.2 (Pool.callsOf t1 1) e (Pool.callsOf t2 1)
    (by rw [ht, callsOf_append, callsOf_cons])
  rwa [foldl_snoc, nil_append] at hcall

/-- The request has served every online pod of the node. -/
theorem request_served {results} (hreturned : s.Returned 0 (.apply operator opt) (.ok results)) {dm}
    (hdm : dm ∈ w.decisionMakers) (hfor : opt.nodeIDs = [] ∨ dm.nodeID ∈ opt.nodeIDs) :
    Served opt.config.normalize dm (Pool.callsOf s.trace 0) := by
  have hall : ∀ e ∈ Pool.callsOf s.trace 0, Succeeded e := fun e he => hok _ (mem_callsOf.mp he)
  have hprogram := (@applyRuntimeConfig_traced true operator opt).along Succeeded
  have halong := (hinv.paths.path 0 _ _ hreturned).along hall hprogram
  rw [foldl_snoc, nil_append] at halong
  obtain ⟨⟨_, he⟩, -⟩ | ⟨-, dms, hcalls⟩ := halong.1
  · cases he
  obtain ⟨t1, t2, ht⟩ := append_of_mem (mem_callsOf.mp hcalls.found)
  have hfound := (hinv.told t1 _ t2 ht).1 _ dms rfl dm
  have hserves := hcalls.served rfl fun e he => (hall e he).storeAnswers
  refine hserves.served hall (hfound.mpr ?_)
  simpa [K8SAdapter.onNodes, hdm] using hfor

theorem requested {e} (he : e ∈ s.trace) (h0 : e.1 = 0) {node config}
    (hconfig : configFor e.2.1 = some (node, config)) : config = opt.config.normalize := by
  obtain ⟨i, call, r⟩ := e
  subst h0
  have hcalls := request_calls hinv hok he
  cases call <;> cases hconfig <;> exact hcalls

/-- The configuration that the reconciler has read for the node: the request's, if the request has stored
it before, and the one there was at the start otherwise. -/
theorem read_config {t1 t2 e} (ht : s.trace = t1 ++ e :: t2) {docs}
    (he : e = (1, ⟨.queryNodeRuntimeConfigs [], .ok docs⟩)) {doc} (hdoc : doc ∈ docs) :
    ((∃ e' ∈ t1, e'.1 = 0 ∧ (upsertOf doc.nodeID e').isSome = true) ∧ doc.config = opt.config.normalize) ∨
      ((∀ e' ∈ t1, upsertOf doc.nodeID e' = none) ∧ w.stored.find doc.nodeID = some doc) := by
  subst he
  have hmem : ∀ e' ∈ t1, e' ∈ s.trace := fun e' he' => by simp [ht, he']
  -- It has made no call before its read.
  have hzero : ∀ e' ∈ t1, e'.1 = 0 := by
    intro e' he'
    refine (hinv.caller_cases (hmem e' he')).resolve_right fun h1 => ?_
    have hcalls := (resync_calls hinv hok ht).2
    have hin : e'.2 ∈ Pool.callsOf t1 1 := mem_callsOf.mpr (h1 ▸ he')
    rw [hcalls] at hin
    cases hin
  have hstored := (hinv.told t1 _ t2 ht).2 docs rfl (fun e' he' => hok e' (hmem e' he')) doc hdoc
  rw [storedAfter] at hstored
  cases hlast : lastOf (upsertOf doc.nodeID) t1 with
  | none =>
    rw [hlast, Option.none_or] at hstored
    exact .inr ⟨lastOf_eq_none.mp hlast, hstored⟩
  | some cfg =>
    rw [hlast, Option.some_or] at hstored
    cases hstored
    obtain ⟨e', he', hcfg⟩ := exists_of_lastOf hlast
    exact .inl ⟨⟨e', he', hzero e' he', by rw [hcfg]; rfl⟩, requested hinv hok (hmem e' he') (hzero e' he') (upsertOf_configFor hcfg)⟩

theorem reconciled {e} (he : e ∈ s.trace) (h1 : e.1 = 1) {node config}
    (hconfig : configFor e.2.1 = some (node, config)) : ReadFor s node config := by
  obtain ⟨i, call, r⟩ := e
  subst h1
  obtain ⟨t1, t2, ht⟩ := append_of_mem he
  have hcalls := resync_calls hinv hok ht
  have hread : ∃ docs, ⟨.queryNodeRuntimeConfigs [], .ok docs⟩ ∈ Pool.callsOf t1 1 ∧ ∃ doc ∈ docs, doc.nodeID = node ∧
      doc.config = config := by
    cases call <;> cases hconfig <;> exact hcalls
  obtain ⟨docs, hread, doc, hdoc, rfl, rfl⟩ := hread
  exact readFor_of_mem ht hread hdoc

/-- The reconciler reads once. -/
theorem read_once {t1 t2 t3 t4 e e'} (ht : s.trace = t1 ++ e :: t2) (h1 : e.1 = 1)
    (he : e.2.1 = .queryNodeRuntimeConfigs []) (ht' : s.trace = t3 ++ e' :: t4) (h1' : e'.1 = 1)
    (he' : e'.2.1 = .queryNodeRuntimeConfigs []) : t1 = t3 := by
  have hfirst : ∀ {t t' e}, s.trace = t ++ e :: t' → e.1 = 1 → e.2.1 = .queryNodeRuntimeConfigs [] →
      Pool.callsOf t 1 = [] := by
    intro t t' e ht h1 he
    obtain ⟨i, call, r⟩ := e
    subst h1
    subst he
    exact (resync_calls hinv hok ht).2
  have hnone : ∀ {t t' : List (Nat × Event RuntimeCall.Resp)} {e : Nat × Event RuntimeCall.Resp}, e.1 = 1 →
      Pool.callsOf (t ++ e :: t') 1 ≠ [] := by
    intro t t' e h1 h
    obtain ⟨i, ev⟩ := e
    subst h1
    rw [callsOf_append, callsOf_cons] at h
    simp at h
  rcases append_eq_append_iff.mp (ht.symm.trans ht') with ⟨t, rfl, h⟩ | ⟨t, rfl, h⟩
  · cases t with
    | nil => simp
    | cons e1 t =>
      obtain ⟨rfl, -⟩ := cons_eq_cons.mp h
      exact absurd (hfirst ht' h1' he') (hnone h1)
  · cases t with
    | nil => simp
    | cons e1 t =>
      obtain ⟨rfl, -⟩ := cons_eq_cons.mp h
      exact absurd (hfirst ht h1 he) (hnone h1')

end

/-- The request's configuration is what is stored for the node, and what was applied last to its
decision makers. -/
def Stays (w : RuntimeWorld) (node : String) (n : RuntimeSchedulerConfig) (s : ConfigPool) : Prop :=
  (s.shared.stored.find node).map NodeRuntimeConfig.config = some n ∧
    ∀ dm ∈ w.decisionMakers, dm.nodeID = node → dm.state = .online → lastOf (appliedTo dm) s.trace = some n

/-- Before the reconciler reads, the request has stored its configuration. -/
def StoredBeforeRead (node : String) : List (Nat × Event RuntimeCall.Resp) → Prop :=
  Always fun t₁ e => e.1 = 1 → e.2.1 = .queryNodeRuntimeConfigs [] → ∃ e' ∈ t₁, e'.1 = 0 ∧ (upsertOf node e').isSome = true

instance (node : String) : DecidablePred (StoredBeforeRead node) := fun t => inferInstanceAs (Decidable (Always _ t))

/-- The reconciler is done before the request, both with storing for the node and with applying to each of
its decision makers. -/
def DoneBefore (w : RuntimeWorld) (node : String) (t : List (Nat × Event RuntimeCall.Resp)) : Prop :=
  Followed (fun e => e.1 = 1 ∧ (upsertOf node e).isSome = true) (fun e => e.1 = 0 ∧ (upsertOf node e).isSome = true) t ∧
    ∀ dm ∈ w.decisionMakers, dm.nodeID = node → dm.state = .online →
      Followed (fun e => e.1 = 1 ∧ (appliedTo dm e).isSome = true) (fun e => e.1 = 0 ∧ (appliedTo dm e).isSome = true) t

section

variable {node : String} (hinv : ResyncInv w operator opt s) (hok : ∀ e ∈ s.trace, Succeeded e.2)

include hinv hok

theorem readFor_eq {config} (hread : ReadFor s node config)
    (h : (∀ doc, w.stored.find node = some doc → doc.config = opt.config.normalize) ∨ StoredBeforeRead node s.trace) :
    config = opt.config.normalize := by
  obtain ⟨t1, t2, docs, doc, ht, hdoc, rfl, rfl⟩ := hread
  rcases read_config hinv hok ht rfl hdoc with ⟨-, hconfig⟩ | ⟨hnone, hfind⟩
  · exact hconfig
  · rcases h with hsame | hbefore
    · exact hsame doc hfind
    · obtain ⟨e', he', -, hsome⟩ := hbefore t1 _ t2 ht rfl rfl
      rw [hnone e' he'] at hsome
      cases hsome

theorem readFor_ne {config} (hread : ReadFor s node config)
    (h : ¬((∀ doc, w.stored.find node = some doc → doc.config = opt.config.normalize) ∨ StoredBeforeRead node s.trace)) :
    config ≠ opt.config.normalize := by
  obtain ⟨hdiffers, hlate⟩ := not_or.mp h
  obtain ⟨t1, t2, docs, doc, ht, hdoc, rfl, rfl⟩ := hread
  rcases read_config hinv hok ht rfl hdoc with ⟨hbefore, -⟩ | ⟨-, hfind⟩
  · refine absurd (fun t3 e t4 ht' h1 he => ?_) hlate
    rw [← read_once hinv hok ht rfl rfl ht' h1 he]
    exact hbefore
  · intro hconfig
    refine hdiffers fun doc' hfind' => ?_
    cases hfind.symm.trans hfind'
    exact hconfig

end

/-- **The request's configuration stays if and only if** the reconciler has nothing else to apply, or applies it
before the request does. -/
theorem runtimeConfig_stays_iff {node : String} {turns : List (Nat × RuntimeChoice)} {results : List RuntimeConfigApplyResult}
    (hrun : configCalls.exec { shared := w } (concurrently operator opt turns) = some s)
    (hrequest : s.Returned 0 (.apply operator opt) (.ok results)) (hok : ∀ e ∈ s.trace, Succeeded e.2)
    (hnode : ∃ dm ∈ w.decisionMakers, dm.nodeID = node ∧ dm.state = .online)
    (hfor : opt.nodeIDs = [] ∨ node ∈ opt.nodeIDs) :
    Stays w node opt.config.normalize s ↔
      (∀ doc, w.stored.find node = some doc → doc.config = opt.config.normalize) ∨ StoredBeforeRead node s.trace ∨
        DoneBefore w node s.trace := by
  have hinv := ResyncInv.run hrun
  have hcases : ∀ e ∈ s.trace, e.1 = 0 ∨ e.1 = 1 := fun e => hinv.caller_cases
  have hupserted : ∃ e ∈ s.trace, e.1 = 0 ∧ ∃ cfg, upsertOf node e = some cfg := by
    obtain ⟨dm, hdm, rfl, -⟩ := hnode
    obtain ⟨⟨cfg, hid, hcall⟩, -⟩ := request_served hinv hok hrequest hdm hfor
    exact ⟨_, mem_callsOf.mp hcall, rfl, cfg, by simp [upsertOf, hid]⟩
  have happlied : ∀ dm ∈ w.decisionMakers, dm.nodeID = node → dm.state = .online →
      ∃ e ∈ s.trace, e.1 = 0 ∧ ∃ config, appliedTo dm e = some config := by
    intro dm hdm hid honline
    subst hid
    have hcall := (request_served hinv hok hrequest hdm hfor).2 honline
    exact ⟨_, mem_callsOf.mp hcall, rfl, _, by simp [appliedTo]; rfl⟩
  have hstays : Stays w node opt.config.normalize s ↔
      (∃ cfg, lastOf (upsertOf node) s.trace = some cfg ∧ cfg.config = opt.config.normalize) ∧
        ∀ dm ∈ w.decisionMakers, dm.nodeID = node → dm.state = .online →
          ∃ config, lastOf (appliedTo dm) s.trace = some config ∧ config = opt.config.normalize := by
    obtain ⟨cfg, hcfg, -⟩ : ∃ cfg, lastOf (upsertOf node) s.trace = some cfg ∧ True :=
      lastOf_of_all (hupserted.imp fun e he => ⟨he.1, he.2.2⟩) fun _ _ _ _ => trivial
    refine and_congr ?_ (forall₄_congr fun dm hdm hid honline => ?_)
    · rw [hinv.stored hok, storedAfter, hcfg]
      simp
    · simp
  rw [hstays]
  by_cases hsame : (∀ doc, w.stored.find node = some doc → doc.config = opt.config.normalize) ∨ StoredBeforeRead node s.trace
  · refine iff_of_true ⟨?_, fun dm hdm hid honline => ?_⟩ (or_assoc.mp (.inl hsame))
    · refine lastOf_of_all (hupserted.imp fun e he => ⟨he.1, he.2.2⟩) fun e he cfg hcfg => ?_
      rcases hcases e he with h0 | h1
      · exact requested hinv hok he h0 (upsertOf_configFor hcfg)
      · exact readFor_eq hinv hok (reconciled hinv hok he h1 (upsertOf_configFor hcfg)) hsame
    · refine lastOf_of_all ((happlied dm hdm hid honline).imp fun e he => ⟨he.1, he.2.2⟩) fun e he config hconfig => ?_
      rcases hcases e he with h0 | h1
      · exact requested hinv hok he h0 (appliedTo_configFor hconfig)
      · exact readFor_eq hinv hok (hid ▸ reconciled hinv hok he h1 (appliedTo_configFor hconfig)) hsame
  · rw [← or_assoc, or_iff_right hsame, DoneBefore]
    refine and_congr ?_ (forall₄_congr fun dm hdm hid honline => ?_)
    · exact lastOf_iff_followed hcases (fun e he h0 cfg hcfg => requested hinv hok he h0 (upsertOf_configFor hcfg))
        (fun e he h1 cfg hcfg => readFor_ne hinv hok (reconciled hinv hok he h1 (upsertOf_configFor hcfg)) hsame) hupserted
    · exact lastOf_iff_followed hcases (fun e he h0 config hconfig => requested hinv hok he h0 (appliedTo_configFor hconfig))
        (fun e he h1 config hconfig =>
          readFor_ne hinv hok (hid ▸ reconciled hinv hok he h1 (appliedTo_configFor hconfig)) hsame)
        (happlied dm hdm hid honline)

namespace OneDaemon

/-- The configuration to start with. -/
def oldConfig : RuntimeSchedulerConfig := { configVersion := "0", mode := "none" }

/-- It is stored for the node. -/
def storedWorld : RuntimeWorld :=
  { world with stored := ⟨[⟨"a", "0", oldConfig, "", 0, none⟩], nodup_singleton _⟩ }

/-- The reconciler reads, the request is served, and the reconciler goes on. -/
def readFirst : List (Nat × RuntimeChoice) :=
  [(1, {}), (0, {}), (0, {}), (0, {}), (0, {}), (0, {}), (1, {}), (1, {}), (1, {})]

/-- The request has succeeded. -/
def served : List RuntimeConfigApplyResult :=
  [{ nodeID := "a", host := "10.0.0.1", success := true, configVersion := "1"
     desiredConfig := some (options true).config.normalize }]

/-- The old configuration is back, in the database and at the decision maker. -/
theorem runtimeConfig_overridden :
    ∃ s, configCalls.exec { shared := storedWorld } (concurrently none (options true) readFirst) = some s ∧
      s.Returned 0 (.apply none (options true)) (.ok served) ∧ s.Returned 1 .resync (.ok []) ∧
      (∀ e ∈ s.trace, Succeeded e.2) ∧ (s.shared.stored.find "a").map NodeRuntimeConfig.config = some oldConfig ∧
      lastOf (appliedTo dm) s.trace = some oldConfig :=
  Machine.exists_exec (by decide +kernel)

/-- The reconciler reads once the request is served. -/
def readLast : List (Nat × RuntimeChoice) :=
  [(0, {}), (0, {}), (0, {}), (0, {}), (0, {}), (1, {}), (1, {}), (1, {}), (1, {})]

theorem runtimeConfig_stays_iff_readLast :
    ∃ s, configCalls.exec { shared := storedWorld } (concurrently none (options true) readLast) = some s ∧
      Stays storedWorld "a" (options true).config.normalize s := by
  refine Machine.exists_exec_of (fun s => s.Returned 0 (.apply none (options true)) (.ok served) ∧
    (∀ e ∈ s.trace, Succeeded e.2) ∧ StoredBeforeRead "a" s.trace) (by decide +kernel) ?_
  rintro s hrun ⟨hrequest, hok, hbefore⟩
  exact (runtimeConfig_stays_iff hrun hrequest hok ⟨dm, by simp [storedWorld, world], rfl, rfl⟩
    (.inl rfl)).mpr (.inr (.inl hbefore))

end OneDaemon

end Gthulhu.Manager
