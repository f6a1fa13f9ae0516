/-
The resync of node intents. The manager and the decision maker hash a node
intent's fields in different orders, and a decision maker that has received
nothing reports no root, so the roots never agree on a list that is not empty
(`nodeIntentRoots_agree_iff`). The resync still converges, by sending
everything each time, except when nothing is stored
(`resyncNodeIntentsToDMs_converges_iff`).
-/
import Gthulhu.Manager.ResyncFacts

namespace Gthulhu.Manager

open Lib World Prog Util DecisionMaker List Run OneNode

variable {go : SliceSort} {env : Nat → Choice} {w w' : World} {calls : Calls}

/-! ## What the resync compares -/

/-- Every online decision maker holds exactly the stored node intents of its node. -/
def World.NodeInSync (w : World) : Prop :=
  ∀ dm ∈ w.cluster.decisionMakers, dm.state = .online →
    ∀ x, x ∈ (w.process dm).nodePolicies ↔ ∃ i ∈ w.nodeIntents, i.nodeID = dm.nodeID ∧ i.toNodePolicy = x

/-- The stored node intents of a node. -/
def World.nodeIntentsOn (w : World) (nodeID : String) : List NodeSchedulingIntent :=
  w.nodeIntents.filter fun i => i.nodeID = nodeID

/-- The messages hashed for the manager's tree over `intents` in this order. -/
def nodeIntentMessages (intents : List NodeSchedulingIntent) : List (List UInt8) :=
  messages (intents.map fun intent => utf8 (serializeNodeSchedulingIntent intent))

/-- The two sides put different fields first, so no text of one is a text of
the other. -/
theorem serializeNodePolicy_ne (policy : NodePolicy) (intent : NodeSchedulingIntent) :
    utf8 (serializeNodePolicy policy) ≠ utf8 (serializeNodeSchedulingIntent intent) := by
  intro h
  have hhead := congrArg (fun s : String => s.toList.head?) (utf8_injective h)
  simp [serializeNodePolicy, serializeNodeSchedulingIntent, String.intercalate_cons_cons, String.toList_append] at hhead

/-- The fields in the order of the manager's texts. -/
def NodeSchedulingIntent.nodeFirst (intent : NodeSchedulingIntent) : NodePolicy :=
  ⟨intent.nodeID, intent.policyID.hex, intent.commandRegex, intent.priority, intent.executionTime⟩

theorem nodeFirst_unbarred {i : NodeSchedulingIntent} (h : '|' ∉ i.nodeID.toList) : i.nodeFirst.Unbarred :=
  ⟨h, hexEncode_notMem (by decide) i.policyID.bytes⟩

theorem serializeNodeSchedulingIntent_eq_text (i : NodeSchedulingIntent) : serializeNodeSchedulingIntent i =
    i.nodeFirst.text "nodeID=" "policyID=" "commandRegex=" "priority=" "executionTime=" := rfl

theorem nodeIntentSortKey_eq_text (i : NodeSchedulingIntent) : nodeIntentSortKey i = i.nodeFirst.text "" "" "" "" "" := by
  simp [nodeIntentSortKey, NodePolicy.text, NodeSchedulingIntent.nodeFirst]

theorem serializeNodeSchedulingIntent_length (intent : NodeSchedulingIntent) :
    64 < (utf8 (serializeNodeSchedulingIntent intent)).length := by
  have hid := hexEncode_utf8ByteSize intent.policyID.bytes
  have hl := intent.policyID.length_bytes
  have hnames : "nodeID=".utf8ByteSize + "policyID=".utf8ByteSize + "commandRegex=".utf8ByteSize +
      "priority=".utf8ByteSize + "executionTime=".utf8ByteSize = 52 := by decide
  have hlength := intent.nodeFirst.text_length "nodeID=" "policyID=" "commandRegex=" "priority=" "executionTime="
  rw [← serializeNodeSchedulingIntent_eq_text] at hlength
  simp only [NodeSchedulingIntent.nodeFirst, ObjectID.hex] at hlength
  omega

/-- The manager's sort key determines what it hashes. -/
theorem nodeIntentSortKey_inj {a b} (ha : '|' ∉ a.nodeID.toList) (hb : '|' ∉ b.nodeID.toList)
    (h : nodeIntentSortKey a = nodeIntentSortKey b) :
    serializeNodeSchedulingIntent a = serializeNodeSchedulingIntent b := by
  rw [nodeIntentSortKey_eq_text, nodeIntentSortKey_eq_text] at h
  rw [serializeNodeSchedulingIntent_eq_text, serializeNodeSchedulingIntent_eq_text,
    NodePolicy.text_inj (by decide) (nodeFirst_unbarred ha) (nodeFirst_unbarred hb) h]

/-- **The hashed texts determine the records**: pod intents on both sides, and
node policies on either side. -/
theorem hashedTexts_determine :
    ((∀ i, hashIntent i = hashStringSHA256Hex (serializeIntent i)) ∧
      (∀ i : ScheduleIntent, hashScheduleIntent i = hashStringSHA256Hex (serializeIntent i.toIntent)) ∧
      ∀ a b : Intent, a.Plain → b.Plain → serializeIntent a = serializeIntent b → a = b) ∧
    ((∀ p, hashNodePolicy p = hashStringSHA256Hex (serializeNodePolicy p)) ∧
      ∀ a b : NodePolicy, a.Unbarred → b.Unbarred → serializeNodePolicy a = serializeNodePolicy b → a = b) ∧
    (∀ i, hashNodeSchedulingIntent i = hashStringSHA256Hex (serializeNodeSchedulingIntent i)) ∧
      ∀ a b : NodeSchedulingIntent, '|' ∉ a.nodeID.toList → '|' ∉ b.nodeID.toList →
        serializeNodeSchedulingIntent a = serializeNodeSchedulingIntent b →
        a.nodeID = b.nodeID ∧ a.policyID = b.policyID ∧ a.commandRegex = b.commandRegex ∧ a.priority = b.priority ∧
          a.executionTime = b.executionTime := by
  refine ⟨⟨fun _ => rfl, fun _ => rfl, fun _ _ => serializeIntent_inj⟩, ⟨fun _ => rfl, fun _ _ => serializeNodePolicy_inj⟩,
    fun _ => rfl, fun a b ha hb h => ?_⟩
  rw [serializeNodeSchedulingIntent_eq_text, serializeNodeSchedulingIntent_eq_text] at h
  have heq := NodePolicy.text_inj (by decide) (nodeFirst_unbarred ha) (nodeFirst_unbarred hb) h
  simp only [NodeSchedulingIntent.nodeFirst, NodePolicy.mk.injEq] at heq
  exact ⟨heq.1, ObjectID.hex_injective heq.2.1, heq.2.2⟩

/-- A regex that looks like the field after it is not mistaken for one. -/
theorem hashedTexts_determine_regex :
    serializeIntent ⟨"p", "u", "a", "d", "x|priority=1", 2, 3, ∅⟩ ≠ serializeIntent ⟨"p", "u", "a", "d", "x", 1, 3, ∅⟩ ∧
    serializeNodePolicy ⟨"p", "a", "x|priority=1", 2, 3⟩ ≠ serializeNodePolicy ⟨"p", "a", "x", 1, 3⟩ := by
  have hplain : ∀ regex p, Intent.Plain ⟨"p", "u", "a", "d", regex, p, 3, ∅⟩ := fun _ _ =>
    ⟨by simp, by simp, by simp, by simp, fun label hl => absurd hl (Multiset.notMem_zero label)⟩
  refine ⟨fun h => ?_, fun h => ?_⟩
  · have heq := hashedTexts_determine.1.2.2 _ _ (hplain _ _) (hplain _ _) h
    simp at heq
  · have heq := hashedTexts_determine.2.1.2 _ _ ⟨by decide, by decide⟩ ⟨by decide, by decide⟩ h
    simp at heq

variable {intents l : List NodeSchedulingIntent}

/-- The root the manager computes, whatever order the store lists in. -/
theorem buildNodeSchedulingIntentMerkleRoot_eq (hp : l.Perm intents) (hplain : ∀ i ∈ intents, '|' ∉ i.nodeID.toList) :
    buildNodeSchedulingIntentMerkleRoot go intents = (buildMerkleTree
      (((go.sort nodeIntentSortKey l).map fun i => utf8 (serializeNodeSchedulingIntent i)).map hashSHA256Hex)).hash := by
  have hmap : (go.sort nodeIntentSortKey intents).map (fun i => utf8 (serializeNodeSchedulingIntent i)) =
      (go.sort nodeIntentSortKey l).map fun i => utf8 (serializeNodeSchedulingIntent i) :=
    map_eq_of_sorted ((go.perm _ _).trans (hp.symm.trans (go.perm _ _).symm)) (go.sorted _ _) (go.sorted _ _)
      fun a ha b hb he => congrArg utf8
        (nodeIntentSortKey_inj (hplain a (go.mem_sort.mp ha)) (hplain b (go.mem_sort.mp hb)) he)
  rw [← hmap, map_map]
  rfl

/-- The two sides' roots agree on the empty list only. -/
theorem nodeRoot_agrees {l l'} (hl : ∀ p ∈ l, ∃ bytes : List UInt8, bytes.length = 12 ∧ p.policyID = hexEncode bytes)
    (hsha : Set.InjOn sha256 {m | m ∈ nodePolicyMessages l ∨ m ∈ nodeIntentMessages l'})
    (hroot : (buildMerkleTree (l.map hashNodePolicy)).hash = (buildMerkleTree
      ((l'.map fun i => utf8 (serializeNodeSchedulingIntent i)).map hashSHA256Hex)).hash) : l = [] ∧ l' = [] := by
  have hhash : l.map hashNodePolicy = (l.map fun p => utf8 (serializeNodePolicy p)).map hashSHA256Hex := by
    rw [map_map]
    rfl
  rw [hhash] at hroot
  have hsame := sameMessages_of_root_eq (fun m hm => by
    have hlong : 64 < m.length := by
      rcases hm with hm | hm
      · obtain ⟨p, hp, rfl⟩ := mem_map.mp hm
        exact serializeNodePolicy_length (hl p hp)
      · obtain ⟨i, _, rfl⟩ := mem_map.mp hm
        exact serializeNodeSchedulingIntent_length i
    exact ⟨fun h => by simp [h] at hlong, by omega⟩) hsha hroot
  constructor
  · refine eq_nil_iff_forall_not_mem.mpr fun p hp => ?_
    obtain ⟨i, _, he⟩ := mem_map.mp ((hsame _).mp (mem_map_of_mem hp))
    exact serializeNodePolicy_ne p i he.symm
  · refine eq_nil_iff_forall_not_mem.mpr fun i hi => ?_
    obtain ⟨p, _, he⟩ := mem_map.mp ((hsame _).mpr (mem_map_of_mem hi))
    exact serializeNodePolicy_ne p i he

theorem queryAllNodeIntents_ok {es os}
    (h : ApiRuns go env (Repo.queryNodeIntents {}) w es (.ok os) w') : Unchanged w w' ∧ os.Perm w.nodeIntents :=
  ⟨query_unchanged h, query_all (fun _ => rfl) h⟩

/-- A decision maker that reports the root the manager expects holds nothing,
and nothing is stored for its node. -/
theorem nodeRootOf_agrees {cache} (hl : l.Perm intents) (hplain : ∀ i ∈ intents, '|' ∉ i.nodeID.toList)
    (hcached : ∀ p ∈ cache, p.Plain)
    (hsha : Set.InjOn sha256 {m | m ∈ nodePolicyMessages (go.sort nodePolicySortKey cache) ∨ m ∈ nodeIntentMessages (go.sort nodeIntentSortKey l)})
    (hroot : nodeView.RootOf cache (buildNodeSchedulingIntentMerkleRoot go intents)) : cache = [] ∧ intents = [] := by
  rcases hroot with ⟨_, hroot⟩ | ⟨sorted, hperm, hsorted, hroot⟩
  · exact ((nodeChannel_meets go fun _ => {}).root_ne intents hroot).elim
  obtain rfl : sorted = go.sort nodePolicySortKey cache :=
    sorted_unique nodePolicySortKey_inj (hperm.trans (go.perm _ _).symm) (fun p hp => hcached p (hperm.mem_iff.mp hp)) hsorted
      (go.sorted _ _)
  rw [buildNodeSchedulingIntentMerkleRoot_eq hl hplain] at hroot
  obtain ⟨h1, h2⟩ := nodeRoot_agrees (fun p hp => (hcached p (go.mem_sort.mp hp)).policyID) hsha hroot.symm
  rw [h1] at hperm
  have hempty := go.perm nodeIntentSortKey l
  rw [h2] at hempty
  exact ⟨nil_perm.mp hperm, nil_perm.mp (hempty.trans hl)⟩

/-- **Node intents converge unless none is stored.** A store without node
intents ends the run at once, and whatever the decision makers hold stays. -/
theorem resyncNodeIntentsToDMs_converges_iff {result : Except Error Unit}
    (hrun : Runs go env (resyncNodeIntentsToDMs go) w calls result w') (hclean : Clean calls)
    (hdistinct : (w.cluster.decisionMakers.map DecisionMakerPod.endpoint).Nodup)
    (hstored : ∀ i ∈ w.nodeIntents, '|' ∉ i.nodeID.toList)
    (hcached : ∀ dm ∈ w.cluster.decisionMakers, dm.state = .online → ∀ p ∈ (w.process dm).nodePolicies, p.Plain)
    (hsha : ∀ dm ∈ w.cluster.decisionMakers, dm.state = .online →
      Set.InjOn sha256 {m | m ∈ nodePolicyMessages (go.sort nodePolicySortKey (w.process dm).nodePolicies) ∨
        m ∈ nodeIntentMessages (go.sort nodeIntentSortKey (w.nodeIntentsOn dm.nodeID))}) :
    w'.NodeInSync ↔ (w.nodeIntents ≠ [] ∨
      ∀ dm ∈ w.cluster.decisionMakers, dm.state = .online → (w.process dm).nodePolicies = []) := by
  rcases except_bind_inv hrun with ⟨e, rfl, h₁⟩ | ⟨intents, _, _, _, h₁, h₂, rfl⟩
  · obtain ⟨_, he⟩ := failsByCall_call _ h₁ hclean
    cases he
  obtain ⟨-, _, hq⟩ := call_inv h₁
  obtain ⟨hu₁, hintents⟩ := queryAllNodeIntents_ok hq
  split at h₂
  · -- The store is empty: the world is as it was.
    rename_i hnil
    obtain ⟨_, _, rfl⟩ := pure_ok_inv h₂
    rw [isEmpty_iff.mp hnil, nil_perm] at hintents
    simp only [NodeInSync, hu₁.cluster, hu₁.nodeIntents, hintents, process_of_unchanged hu₁, not_mem_nil, false_and,
      exists_false, iff_false, ne_eq, not_true_eq_false, false_or, ← eq_nil_iff_forall_not_mem]
  rename_i hne
  have hne : w.nodeIntents ≠ [] := fun h => by
    rw [h, perm_nil] at hintents
    exact hne (by rw [hintents]; rfl)
  refine ⟨fun _ => .inl hne, fun _ => ?_⟩
  rcases except_bind_inv h₂ with ⟨e, rfl, h₃⟩ | ⟨dms, _, _, _, h₃, h₄, rfl⟩
  · obtain ⟨_, he⟩ := failsByCall_call _ h₃ hclean.right
    cases he
  obtain ⟨-, _, hq'⟩ := call_inv h₃
  obtain ⟨hu₂, hdms⟩ := queryAllDecisionMakerPods_ok hq'
  rw [hu₁.cluster] at hdms
  have hu := hu₁.trans hu₂
  split at h₄
  · rename_i hnil
    obtain ⟨_, _, rfl⟩ := pure_ok_inv h₄
    intro dm hdm
    rw [hu.cluster, ← hdms.mem_iff, isEmpty_iff.mp hnil] at hdm
    cases hdm
  obtain ⟨⟨⟩, rfl⟩ := failsByCall_forM (failsByCall_resyncDM _ _) _ h₄ hclean.right.right
  obtain ⟨hframe, hdone⟩ := resyncDMs_converge (nodeChannel_meets go env)
    ((hdms.map DecisionMakerPod.endpoint).nodup_iff.mpr hdistinct) h₄ hclean.right.right <| by
    intro dm hdm hon hroot x
    have hdm := hdms.mem_iff.mp hdm
    rw [process_of_unchanged hu] at hroot ⊢
    obtain ⟨hcache, hnone⟩ := nodeRootOf_agrees (hintents.filter _).symm
      (fun i hi => hstored i (hintents.mem_iff.mp (mem_of_mem_filter hi))) (hcached dm hdm hon) (hsha dm hdm hon) hroot
    rw [show nodeView.cache (w.process dm) = [] from hcache]
    exact ⟨nofun, fun ⟨i, hi, hn, _⟩ => (filter_eq_nil_iff.mp hnone i hi (decide_eq_true hn)).elim⟩
  intro dm hdm hon x
  rw [hframe.cluster, hu.cluster] at hdm
  refine (hdone dm (hdms.mem_iff.mpr hdm) hon x).trans ?_
  refine Iff.trans ?_ ((nodeChannel_meets go env).stored_iff hframe dm.nodeID x).symm
  simp only [hintents.mem_iff, ← hu.nodeIntents]
  rfl

namespace OneNode

def nodeIntent (n policy : UInt8) : NodeSchedulingIntent where
  id := objectID n
  policyID := objectID policy
  nodeID := "a"
  commandRegex := ".*"
  priority := 1
  executionTime := 20
  state := .initialized

/-- A decision maker sent the node intents `l` when just started. -/
def sentNodeIntents (l : List NodeSchedulingIntent) : Process :=
  (Process.fresh.serve .insertion (.ok ()) (.handleNodePolicies (l.map NodeSchedulingIntent.toNodePolicy))).2

/-- Some node intents stored, others held. -/
def nodeWorld (stored : Resources .nodeIntent) (held : List NodeSchedulingIntent) : World where
  store := store (.empty _) stored
  processes _ := sentNodeIntents held
  cluster := cluster [] []

/-- One node intent stored and delivered. -/
def deliveredWorld : World := nodeWorld ⟨[nodeIntent 1 7], by decide⟩ [nodeIntent 1 7]

end OneNode

theorem resyncNodeIntentsToDMs_converges_iff_oneNode :
    (exec (serve .insertion fun _ => {}) (resyncNodeIntentsToDMs .insertion).run
      (nodeWorld ⟨[nodeIntent 1 7], by decide⟩ [])).2.2.NodeInSync := by
  refine (resyncNodeIntentsToDMs_converges_iff (run_exec _ _) (by decide +kernel) (by decide) (fun i hi => ?_)
    (fun dm _ _ p hp => ?_) (fun dm hdm _ => ?_)).mpr (.inl (cons_ne_nil _ _))
  · obtain rfl := mem_singleton.mp hi
    decide
  · cases hp
  · obtain rfl := mem_singleton.mp hdm
    exact injOn_of_lists (by decide +kernel)

/-- Nothing is stored, and a policy deleted long ago stays in force. -/
theorem resyncNodeIntentsToDMs_emptyStore :
    Clean (exec (serve .insertion fun _ => {}) (resyncNodeIntentsToDMs .insertion).run
        (nodeWorld (.empty _) [nodeIntent 1 7])).1 ∧
      ¬(exec (serve .insertion fun _ => {}) (resyncNodeIntentsToDMs .insertion).run
        (nodeWorld (.empty _) [nodeIntent 1 7])).2.2.NodeInSync := by
  refine ⟨by decide +kernel, fun hsync => ?_⟩
  have hheld := hsync dm (mem_singleton.mpr rfl) rfl (nodeIntent 1 7).toNodePolicy
  obtain ⟨i, hi, _⟩ := hheld.mp (by decide +kernel)
  cases hi

/-! ## Roots that never agree -/

/-- A call that is no request to a decision maker, or only reads a root there. -/
def Call.isRead : Call → Bool
  | .sendSchedulingIntent _ _ => false
  | .deleteSchedulingIntents _ _ => false
  | .sendNodeSchedulingPolicies _ _ => false
  | .deleteNodeSchedulingIntents _ _ => false
  | _ => true

/-- The process has been sent the node intents `l`, whatever it was before. -/
def Delivered (go : SliceSort) (l : List NodeSchedulingIntent) (p : Process) : Prop :=
  ∃ (p₀ : Process) (scan : Except String Unit), p = (p₀.serve go scan (.handleNodePolicies (l.map NodeSchedulingIntent.toNodePolicy))).2

theorem Delivered.root {p} (h : Delivered go l p) :
    getNodePolicyMerkleRootHash p.svc =
      (buildMerkleTree ((go.sort nodePolicySortKey (l.map NodeSchedulingIntent.toNodePolicy)).map hashNodePolicy)).hash := by
  obtain ⟨p0, scan, rfl⟩ := h
  simp [Process.serve, handle, processNodePolicies, getNodePolicyMerkleRootHash, nodePolicyTree, sortNodePoliciesByKey,
    normalizeInputs]

theorem buildNodeSchedulingIntentMerkleRoot_nil :
    buildNodeSchedulingIntentMerkleRoot go [] = (buildMerkleTree []).hash :=
  (nodeChannel_meets go fun _ => {}).root_nil

/-- The roots over one list, delivered in one order and compared in another. -/
theorem Delivered.root_eq_iff {l' p} (h : Delivered go l p) (hp : l.Perm l')
    (hsha : Set.InjOn sha256 {m | m ∈ nodePolicyMessages (go.sort nodePolicySortKey (l.map NodeSchedulingIntent.toNodePolicy)) ∨ m ∈ nodeIntentMessages (go.sort nodeIntentSortKey l')}) :
    getNodePolicyMerkleRootHash p.svc = buildNodeSchedulingIntentMerkleRoot go l' ↔ l = [] := by
  rw [h.root]
  constructor
  · intro hroot
    have hroot' : (buildMerkleTree
        ((go.sort nodePolicySortKey (l.map NodeSchedulingIntent.toNodePolicy)).map hashNodePolicy)).hash =
        (buildMerkleTree (((go.sort nodeIntentSortKey l').map fun i =>
          utf8 (serializeNodeSchedulingIntent i)).map hashSHA256Hex)).hash := by
      rw [hroot, map_map]
      rfl
    obtain ⟨-, hnil⟩ := nodeRoot_agrees (fun p hp => by
      obtain ⟨i, _, rfl⟩ := mem_map.mp (go.mem_sort.mp hp)
      exact ⟨i.policyID.bytes, i.policyID.length_bytes, rfl⟩) hsha hroot'
    have hempty := go.perm nodeIntentSortKey l'
    rw [hnil, nil_perm] at hempty
    exact perm_nil.mp (hempty ▸ hp)
  · rintro rfl
    rw [nil_perm.mp hp, buildNodeSchedulingIntentMerkleRoot_nil, map_nil, go.sort_nil, map_nil]

/-- One online decision maker, in a run without failed calls: left alone when
its root is the expected one, written to when it is not. -/
theorem resyncDM_reads_iff {dm} (hon : dm.state = .online)
    (h : Runs go env (resyncDM (nodeChannel go) intents dm) w calls (.ok ()) w') (hc : Clean calls) :
    ((∀ e ∈ calls, e.1.isRead = true) ↔ getNodePolicyMerkleRootHash (w.process dm).svc =
      buildNodeSchedulingIntentMerkleRoot go (intents.filter fun i => i.nodeID = dm.nodeID)) ∧
      ((∀ e ∈ calls, e.1.isRead = true) → Unchanged w w') := by
  rw [resyncDM, if_neg (not_not.mpr hon)] at h
  obtain ⟨a, w1, _, calls2, h1, h2, rfl⟩ := attempt_bind_inv h
  obtain ⟨rfl, _, hp⟩ := call_inv h1
  obtain ⟨rootHash, rfl⟩ := (nodeChannel_meets go env).getRoot_fails dm h1 hc.left
  obtain ⟨hs, hroot⟩ := getNodePolicyMerkleRoot_inv hp
  obtain rfl := hroot rootHash rfl
  have hu : Unchanged w w1 := ⟨hs.store, hs.process.trans (Function.update_eq_self _ _), hs.cluster⟩
  have hexpected := expectedRoot_eq (nodeChannel_meets go env) intents dm.nodeID
  simp only [hexpected] at h2
  split at h2
  · rename_i heq
    obtain ⟨rfl, _, rfl⟩ := pure_ok_inv h2
    exact ⟨⟨fun _ => heq, fun _ e he => by obtain rfl := mem_singleton.mp he; rfl⟩, fun _ => hu⟩
  · rename_i hne
    -- Either way the next call writes to the decision maker.
    suffices hwrite : ∃ e ∈ calls2, e.1.isRead = false by
      obtain ⟨e, he, hw⟩ := hwrite
      have hnot : ∀ {l : Calls}, ¬∀ e ∈ l ++ calls2, e.1.isRead = true := fun hall => by
        rw [hall e (mem_append_right _ he)] at hw
        cases hw
      exact ⟨⟨fun hall => (hnot hall).elim, fun heq => (hne heq).elim⟩, fun hall => (hnot hall).elim⟩
    split at h2
    · obtain ⟨r, _, _, _, h3, h4, rfl⟩ := attempt_bind_inv h2
      obtain ⟨rfl, _⟩ := call_inv h3
      exact ⟨_, mem_cons_self, rfl⟩
    · obtain ⟨r, _, _, _, h3, h4, rfl⟩ := attempt_bind_inv h2
      obtain ⟨rfl, _⟩ := call_inv h3
      exact ⟨_, mem_cons_self, rfl⟩

/-- The loop leaves all alone exactly when every root is the expected one. -/
theorem resyncDMs_reads_iff {dms} (h : Runs go env (resyncDMs (nodeChannel go) dms intents) w calls (.ok ()) w')
    (hc : Clean calls) :
    (∀ e ∈ calls, e.1.isRead = true) ↔ ∀ dm ∈ dms, dm.state = .online →
      getNodePolicyMerkleRootHash (w.process dm).svc =
        buildNodeSchedulingIntentMerkleRoot go (intents.filter fun i => i.nodeID = dm.nodeID) := by
  induction dms generalizing w calls with
  | nil =>
    obtain ⟨rfl, _⟩ := pure_ok_inv h
    simp
  | cons dm dms ih =>
    rw [resyncDMs, forM_cons] at h
    obtain ⟨⟨⟩, _, _, _, h1, h2, rfl⟩ := ok_bind_inv h
    have hrest := ih h2 hc.right
    simp only [mem_append, or_imp, forall_and, mem_cons, forall_eq]
    by_cases hon : dm.state = .online
    · obtain ⟨hiff, hsame⟩ := resyncDM_reads_iff hon h1 hc.left
      constructor
      · rintro ⟨hall, hall'⟩
        have hu := hsame hall
        refine ⟨fun _ => hiff.mp hall, fun dm' hdm' => ?_⟩
        rw [← process_of_unchanged hu]
        exact hrest.mp hall' dm' hdm'
      · rintro ⟨heq, heq'⟩
        have hall := hiff.mpr (heq hon)
        have hu := hsame hall
        refine ⟨hall, hrest.mpr fun dm' hdm' => ?_⟩
        rw [process_of_unchanged hu]
        exact heq' dm' hdm'
    · rw [resyncDM, if_pos hon] at h1
      obtain ⟨rfl, _, rfl⟩ := pure_ok_inv h1
      simp only [not_mem_nil, false_imp_iff, implies_true, true_and, hrest]
      exact ⟨fun hall => ⟨fun h => (hon h).elim, hall⟩, fun hall => hall.2⟩

/-- **The roots agree on nothing but the empty list, once delivered.** The
decision maker hashes the policy before the node and the manager the node
before the policy; and a decision maker just started reports no root at all.
So a decision maker that holds just what is stored for its node is left alone
only when that is nothing. -/
theorem nodeIntentRoots_agree_iff (go : SliceSort) :
    (∀ (l : List NodeSchedulingIntent) (p : Process), Delivered go l p →
      Set.InjOn sha256 {m |
        m ∈ nodePolicyMessages (go.sort nodePolicySortKey (l.map NodeSchedulingIntent.toNodePolicy)) ∨
          m ∈ nodeIntentMessages (go.sort nodeIntentSortKey l)} →
      (getNodePolicyMerkleRootHash p.svc = buildNodeSchedulingIntentMerkleRoot go l ↔ l = [])) ∧
    getNodePolicyMerkleRootHash Process.fresh.svc ≠ buildNodeSchedulingIntentMerkleRoot go [] ∧
    ∀ (env : Nat → Choice) (w : World) (calls : Calls) (result : Except Error Unit) (w' : World),
      Runs go env (resyncNodeIntentsToDMs go) w calls result w' → Clean calls →
      (∀ dm ∈ w.cluster.decisionMakers, dm.state = .online →
        ∃ l, l.Perm (w.nodeIntentsOn dm.nodeID) ∧ Delivered go l (w.process dm)) →
      (∀ dm ∈ w.cluster.decisionMakers, dm.state = .online → ∀ l l' : List NodeSchedulingIntent,
        l.Perm (w.nodeIntentsOn dm.nodeID) → l'.Perm (w.nodeIntentsOn dm.nodeID) →
        Set.InjOn sha256 {m |
          m ∈ nodePolicyMessages (go.sort nodePolicySortKey (l.map NodeSchedulingIntent.toNodePolicy)) ∨
            m ∈ nodeIntentMessages (go.sort nodeIntentSortKey l')}) →
      ((∀ e ∈ calls, e.1.isRead = true) ↔
        ∀ dm ∈ w.cluster.decisionMakers, dm.state = .online → w.nodeIntentsOn dm.nodeID = []) := by
  refine ⟨fun l p hp hsha => hp.root_eq_iff (.refl _) hsha, ?_, ?_⟩
  · rw [show getNodePolicyMerkleRootHash Process.fresh.svc = "" from rfl]
    exact ((nodeChannel_meets go fun _ => {}).root_ne []).symm
  intro env w calls result w' hrun hclean hdelivered hsha
  rcases except_bind_inv hrun with ⟨e, rfl, h₁⟩ | ⟨intents, _, _, _, h₁, h₂, rfl⟩
  · obtain ⟨_, he⟩ := failsByCall_call _ h₁ hclean
    cases he
  obtain ⟨rfl, _, hq⟩ := call_inv h₁
  obtain ⟨hu₁, hintents⟩ := queryAllNodeIntents_ok hq
  split at h₂
  · rename_i hnil
    obtain ⟨rfl, _⟩ := pure_ok_inv h₂
    rw [isEmpty_iff.mp hnil, nil_perm] at hintents
    refine ⟨fun _ dm _ _ => by rw [nodeIntentsOn, hintents, filter_nil], fun _ e he => ?_⟩
    obtain rfl := mem_singleton.mp he
    rfl
  rcases except_bind_inv h₂ with ⟨e, rfl, h₃⟩ | ⟨dms, _, _, calls₄, h₃, h₄, rfl⟩
  · obtain ⟨_, he⟩ := failsByCall_call _ h₃ hclean.right
    cases he
  obtain ⟨rfl, _, hq'⟩ := call_inv h₃
  obtain ⟨hu₂, hdms⟩ := queryAllDecisionMakerPods_ok hq'
  rw [hu₁.cluster] at hdms
  have hu := hu₁.trans hu₂
  -- The queries are no writes, so the loop's calls decide.
  have hcalls : (∀ e ∈ [⟨Call.queryNodeIntents {}, Except.ok intents⟩] ++
      ([⟨Call.queryDecisionMakerPods {}, Except.ok dms⟩] ++ calls₄), e.1.isRead = true) ↔
        ∀ e ∈ calls₄, e.1.isRead = true := by
    simp [Call.isRead]
  rw [hcalls]
  split at h₄
  · rename_i hnil
    obtain ⟨rfl, _⟩ := pure_ok_inv h₄
    rw [isEmpty_iff.mp hnil, nil_perm] at hdms
    simp [hdms]
  obtain ⟨⟨⟩, rfl⟩ := failsByCall_forM (failsByCall_resyncDM _ _) _ h₄ hclean.right.right
  rw [resyncDMs_reads_iff h₄ hclean.right.right]
  refine forall_congr' fun dm => ?_
  rw [hdms.mem_iff]
  refine forall_congr' fun hdm => forall_congr' fun hon => ?_
  obtain ⟨l, hl, hdel⟩ := hdelivered dm hdm hon
  have hlist : (intents.filter fun i => i.nodeID = dm.nodeID).Perm (w.nodeIntentsOn dm.nodeID) := hintents.filter _
  rw [process_of_unchanged hu, hdel.root_eq_iff (hl.trans hlist.symm) (hsha dm hdm hon _ _ hl hlist)]
  constructor
  · rintro rfl
    exact nil_perm.mp hl
  · intro hnil
    rw [hnil] at hl
    exact perm_nil.mp hl

/-- One node intent delivered: the decision maker's root is not the manager's,
nor is that of a decision maker just started the empty root. -/
theorem nodeIntentRoots_disagree_oneNode :
    getNodePolicyMerkleRootHash (sentNodeIntents [nodeIntent 1 7]).svc ≠
        buildNodeSchedulingIntentMerkleRoot .insertion [nodeIntent 1 7] ∧
      getNodePolicyMerkleRootHash Process.fresh.svc ≠ buildNodeSchedulingIntentMerkleRoot .insertion [] ∧
      ∃ e ∈ (exec (serve .insertion fun _ => {}) (resyncNodeIntentsToDMs .insertion).run
        deliveredWorld).1, e.1.isRead = false := by
  decide +kernel

theorem nodeIntentRoots_agree_iff_oneNode :
    getNodePolicyMerkleRootHash (sentNodeIntents [nodeIntent 1 7]).svc ≠
        buildNodeSchedulingIntentMerkleRoot .insertion [nodeIntent 1 7] ∧
      ¬∀ e ∈ (exec (serve .insertion fun _ => {}) (resyncNodeIntentsToDMs .insertion).run
        deliveredWorld).1, e.1.isRead = true := by
  have hsha : Set.InjOn sha256 {m |
      m ∈ nodePolicyMessages (SliceSort.insertion.sort nodePolicySortKey [(nodeIntent 1 7).toNodePolicy]) ∨
        m ∈ nodeIntentMessages (SliceSort.insertion.sort nodeIntentSortKey [nodeIntent 1 7])} :=
    injOn_of_lists (by decide +kernel)
  have hdelivered : Delivered .insertion [nodeIntent 1 7] (sentNodeIntents [nodeIntent 1 7]) :=
    ⟨_, _, rfl⟩
  obtain ⟨hroot, -, hrun⟩ := nodeIntentRoots_agree_iff .insertion
  constructor
  · intro heq
    cases (hroot _ _ hdelivered hsha).mp heq
  · intro hall
    have hnone := (hrun _ deliveredWorld _ _ _ (run_exec _ _) (by decide +kernel)
      (fun dm hdm _ => ⟨[nodeIntent 1 7], by obtain rfl := mem_singleton.mp hdm; exact .refl _, hdelivered⟩)
      (fun dm hdm _ l l' hl hl' => by
        obtain rfl := mem_singleton.mp hdm
        obtain rfl := perm_singleton.mp hl
        obtain rfl := perm_singleton.mp hl'
        exact hsha)).mp hall dm (mem_singleton.mpr rfl) rfl
    cases hnone

end Gthulhu.Manager
