/-
Which nodes a policy gets.

A policy asks for nodes by label, by name and by the devices they publish, and
a node has to meet all it is given (`Kube.Matches`); one that asks for nothing
is to get none (`NodeSchedulingPolicy.Constrained`). The service only looks at
whether the lists are empty. A list of selectors without a key, or of device
selectors without a class or an attribute, is not, and restricts nothing: such
a policy gets every node, or every node that publishes anything
(`resolve_vacuous`). The other way to get nodes that were not asked for is a
key or a value that is none of a label, as the text of a selector has no
quoting. Otherwise the answer is exact (`resolve_iff`).
-/
import Gthulhu.Lib.LabelSelector
import Gthulhu.Manager.NodeQueries
import Gthulhu.Manager.NodePolicyFacts

namespace Gthulhu.Manager

open Lib Prog List TwoNodes
open DecisionMaker (Labels)

/-! ## What a policy asks for -/

/-- A selector without a key asks for nothing. -/
def KubeNode.Satisfies (node : KubeNode) (sel : LabelSelector) : Prop :=
  sel.key = "" ∨ sel.admits node.labels = true

def DeviceAttribute.text : DeviceAttribute → String
  | .string s => s
  | .int n => toString n.toInt
  | .bool b => toString b
  | .version s => s

/-- The device has an attribute of this name, and with this value if one is given. -/
def Device.Has (device : Device) (attr : LabelSelector) : Prop :=
  ∃ value, device.attributes.lookup attr.key = some value ∧ (attr.value = "" ∨ value.text = attr.value)

structure ResourceSlice.Matches (slice : ResourceSlice) (sel : DRASelector) : Prop where
  driver : sel.deviceClass = "" ∨ slice.driver = sel.deviceClass
  device : sel.attributes = [] ∨ ∃ device ∈ slice.devices, ∀ attr ∈ sel.attributes, device.Has attr

/-- The node publishes a slice that one of the selectors matches. -/
def Kube.Publishes {rules : LabelRules} (kube : Kube rules) (selectors : List DRASelector) (name : String) : Prop :=
  ∃ slice ∈ kube.slices, slice.nodeName = name ∧ ∃ sel ∈ selectors, slice.Matches sel

/-- The node meets every condition on names and devices that is given. -/
structure Kube.Fits {rules : LabelRules} (kube : Kube rules) (policy : NodeSchedulingPolicy) (node : KubeNode) : Prop where
  name : policy.nodeNames = [] ∨ node.name ∈ policy.nodeNames
  devices : policy.draSelectors = [] ∨ kube.Publishes policy.draSelectors node.name

/-- **The conjunction** of all that is given. -/
structure Kube.Matches {rules : LabelRules} (kube : Kube rules) (policy : NodeSchedulingPolicy) (node : KubeNode) : Prop
    extends kube.Fits policy node where
  labels : ∀ sel ∈ policy.nodeSelectors, node.Satisfies sel

namespace NodeSchedulingPolicy

variable (policy : NodeSchedulingPolicy)

/-- The policy asks for something. -/
def Constrained : Prop :=
  policy.nodeNames ≠ [] ∨ (∃ sel ∈ policy.nodeSelectors, sel.key ≠ "") ∨
    ∃ sel ∈ policy.draSelectors, sel.deviceClass ≠ "" ∨ sel.attributes ≠ []

/-- No list is given. -/
def Empty : Prop := policy.nodeSelectors = [] ∧ policy.nodeNames = [] ∧ policy.draSelectors = []

/-- The label selectors that ask for something ask for labels that there can be. -/
def Readable (rules : LabelRules) : Prop :=
  ∀ sel ∈ policy.nodeSelectors, sel.key ≠ "" → rules.isKey sel.key = true ∧ rules.isValue sel.value = true

end NodeSchedulingPolicy

/-- **The right answer**: the nodes that match, each once, and none if nothing is asked for. -/
def Kube.Exact {rules : LabelRules} (kube : Kube rules) (policy : NodeSchedulingPolicy) (r : Except Error (List Node)) : Prop :=
  ∃ nodes, r = .ok nodes ∧ (nodes.map Node.name).Nodup ∧
    ∀ name, name ∈ nodes.map Node.name ↔
      policy.Constrained ∧ ∃ node ∈ kube.nodes, node.name = name ∧ kube.Matches policy node

/-! ## Label selectors -/

section

variable {rules : LabelRules} {sels : List LabelSelector}

theorem buildLabelSelector_eq : K8SAdapter.buildLabelSelector sels =
    ",".intercalate ((sels.filter fun sel => sel.key ≠ "").map LabelSelector.text) := by
  unfold K8SAdapter.buildLabelSelector
  congr 1
  induction sels with
  | nil => rfl
  | cons sel sels ih =>
    by_cases hkey : sel.key = ""
    · simp [hkey, ih]
    · by_cases hvalue : sel.value = ""
      · simp [hkey, hvalue, ih, LabelSelector.text]
      · simp [hkey, hvalue, ih, LabelSelector.text]

/-- What the server makes of the text for labels that there can be. -/
theorem select_buildLabelSelector (h : ∀ sel ∈ sels, sel.key ≠ "" → rules.isKey sel.key = true ∧ rules.isValue sel.value = true) :
    rules.select (K8SAdapter.buildLabelSelector sels) =
      some fun labels => (sels.filter fun sel => sel.key ≠ "").all fun sel => sel.admits labels := by
  rw [buildLabelSelector_eq]
  refine rules.select_text _ fun sel hsel => ?_
  obtain ⟨hmem, hkey⟩ := mem_filter.mp hsel
  exact h sel hmem (by simpa using hkey)

theorem satisfies_iff {node : KubeNode} : (∀ sel ∈ sels, node.Satisfies sel) ↔
    ((sels.filter fun sel => sel.key ≠ "").all fun sel => sel.admits node.labels) = true := by
  simp only [KubeNode.Satisfies, all_eq_true, mem_filter, decide_eq_true_eq, and_imp]
  refine forall₂_congr fun sel _ => ?_
  tauto

/-- No node has a label that there cannot be. -/
theorem Kube.not_satisfies (kube : Kube rules) {node} (hnode : node ∈ kube.nodes) {sel} (hkey : sel.key ≠ "")
    (hsel : ¬(rules.isKey sel.key = true ∧ rules.isValue sel.value = true)) : ¬node.Satisfies sel := by
  rintro (h | h)
  · exact hkey h
  unfold LabelSelector.admits at h
  split at h
  · cases h
  · rename_i value hlookup
    have hlabel := kube.labelled node hnode _ _ hlookup
    simp only [Bool.or_eq_true, decide_eq_true_eq] at h
    rcases h with h | h
    · exact hsel ⟨hlabel.1, h ▸ rules.isValue_empty⟩
    · exact hsel (h ▸ hlabel)

end

/-! ## Devices -/

section

variable {fmt : SprintV} {slice : ResourceSlice}

open K8SAdapter

theorem lookup_map_snd {α β : Type} (f : α → β) (key : String) : ∀ l : List (String × α),
    (l.map fun e => (e.1, f e.2)).lookup key = (l.lookup key).map f
  | [] => rfl
  | (k, v) :: l => by
    by_cases hkey : key = k
    · simp [hkey]
    · have hne : (key == k) = false := by simpa using hkey
      simp [lookup_cons, hne, lookup_map_snd f key l]

theorem attributeValueToString_toValue (attr : DeviceAttribute) : attributeValueToString fmt attr.toValue = attr.text := by
  cases attr with
  | string s => exact fmt.str s
  | int n => exact fmt.int64 n
  | bool b => exact fmt.bool b
  | version s => exact fmt.str s

theorem deviceAttributesMatch_iff {device : Device} {wanted} :
    deviceAttributesMatch fmt (device.attributes.map fun attr => (attr.1, attr.2.toValue)) wanted = true ↔
      ∀ attr ∈ wanted, device.Has attr := by
  unfold deviceAttributesMatch Device.Has
  rw [all_eq_true]
  refine forall₂_congr fun attr _ => ?_
  rw [lookup_map_snd]
  cases device.attributes.lookup attr.key with
  | none => simp
  | some value => simp [attributeValueToString_toValue]

theorem slice_nodeName : getUnstructuredStr slice.toUnstructured.object ["spec", "nodeName"] = slice.nodeName := by
  by_cases hname : slice.nodeName = ""
  · simp [getUnstructuredStr, nestedField, ResourceSlice.toUnstructured, hname, lookup_cons]
  · simp [getUnstructuredStr, nestedField, ResourceSlice.toUnstructured, hname]

theorem slice_driver : getUnstructuredStr slice.toUnstructured.object ["spec", "driver"] = slice.driver := by
  by_cases hname : slice.nodeName = ""
  · simp [getUnstructuredStr, nestedField, ResourceSlice.toUnstructured, hname]
  · simp [getUnstructuredStr, nestedField, ResourceSlice.toUnstructured, hname, lookup_cons]

theorem slice_devices : nestedField (.map slice.toUnstructured.object) ["spec", "devices"] =
    .ok (some (.list (slice.devices.map Device.toValue))) := by
  by_cases hname : slice.nodeName = ""
  · simp [nestedField, ResourceSlice.toUnstructured, hname, lookup_cons]
  · simp [nestedField, ResourceSlice.toUnstructured, hname, lookup_cons]

/-- **The match on the object without a schema** is the one on the slice. -/
theorem resourceSliceMatchesSelector_iff {sel} :
    resourceSliceMatchesSelector fmt slice.toUnstructured sel = true ↔ slice.Matches sel := by
  unfold resourceSliceMatchesSelector
  rw [slice_driver, slice_devices]
  by_cases hdriver : sel.deviceClass = "" ∨ slice.driver = sel.deviceClass
  · rw [if_neg (by simp; tauto)]
    by_cases hattrs : sel.attributes = []
    · simp only [hattrs, isEmpty_nil, if_true, true_iff]
      exact ⟨hdriver, .inl hattrs⟩
    · rw [if_neg (by simpa using hattrs)]
      simp only [any_map, any_eq_true]
      exact (exists_congr fun device => and_congr_right fun _ => deviceAttributesMatch_iff).trans ⟨fun h => ⟨hdriver, .inr h⟩, fun h => h.device.resolve_left hattrs⟩
  · rw [if_pos (by simp; tauto)]
    simp only [Bool.false_eq_true, false_iff]
    exact fun h => hdriver h.driver

end

section

variable {rules : LabelRules} {kube : Kube rules} {fmt : SprintV} {policy : NodeSchedulingPolicy} {name : String}

open K8SAdapter

theorem mem_matchedNodeNames {selectors} :
    name ∈ kube.matchedNodeNames fmt selectors ↔ name ≠ "" ∧ kube.Publishes selectors name := by
  have hany : ∀ slice : ResourceSlice, (selectors.any fun sel => resourceSliceMatchesSelector fmt slice.toUnstructured sel) = true ↔
      ∃ sel ∈ selectors, slice.Matches sel := fun slice => by
    simp [resourceSliceMatchesSelector_iff]
  unfold Kube.matchedNodeNames Kube.Publishes
  rw [mem_filter, mem_filterMap, and_comm]
  simp only [decide_eq_true_eq]
  refine and_congr_right fun _ => exists_congr fun slice => and_congr_right fun _ => ?_
  by_cases hmatch : ∃ sel ∈ selectors, slice.Matches sel
  · rw [if_pos ((hany slice).mpr hmatch), slice_nodeName, Option.some.injEq]
    exact ⟨fun h => ⟨h, hmatch⟩, fun h => h.1⟩
  · rw [if_neg (fun h => hmatch ((hany slice).mp h))]
    exact ⟨fun h => absurd h (by simp), fun h => absurd h.2 hmatch⟩

theorem mem_queryNodesByDRA {selectors} :
    name ∈ (kube.queryNodesByDRA fmt selectors).map Node.name ↔
      ∃ node ∈ kube.nodes, node.name = name ∧ kube.Publishes selectors name := by
  have hmem : (∃ node ∈ kube.nodes, node.name = name ∧ name ∈ kube.matchedNodeNames fmt selectors) ↔
      ∃ node ∈ kube.nodes, node.name = name ∧ kube.Publishes selectors name := by
    refine exists_congr fun node => and_congr_right fun hnode => and_congr_right fun heq => ?_
    rw [mem_matchedNodeNames, and_iff_right (heq ▸ kube.named node hnode)]
  rw [← hmem]
  unfold Kube.queryNodesByDRA
  split
  · rename_i hnone
    simp only [map_nil, not_mem_nil, false_iff]
    intro hsome
    obtain ⟨node, hnode, heq, hname⟩ := hsome
    obtain ⟨-, slice, -, -, sel, hsel, -⟩ := mem_matchedNodeNames.mp hname
    rw [Bool.or_eq_true, List.isEmpty_iff, List.isEmpty_iff] at hnone
    rcases hnone with hnil | hnil
    · rw [hnil] at hsel
      cases hsel
    · rw [hnil] at hname
      cases hname
  · simp only [map_map, mem_map, mem_filter, contains_iff_mem]
    refine exists_congr fun node => ?_
    simp only [Function.comp_apply, nodeToDomain]
    constructor
    · intro h
      exact ⟨h.1.1, h.2, h.2 ▸ h.1.2⟩
    · intro h
      exact ⟨⟨h.1, h.2.1 ▸ h.2.2⟩, h.2.1⟩

/-- The names the label selectors and the list of names leave. -/
theorem mem_queryNodesBySelectors {opt selects nodes}
    (hselect : rules.select (K8SAdapter.buildLabelSelector opt.nodeSelectors) = some selects)
    (h : kube.queryNodesBySelectors opt = .ok nodes) :
    name ∈ nodes.map Node.name ↔ ∃ node ∈ kube.nodes, node.name = name ∧ selects node.labels = true ∧
      (opt.nodeNames = [] ∨ name ∈ opt.nodeNames) := by
  unfold Kube.queryNodesBySelectors at h
  rw [hselect] at h
  cases h
  simp only [List.map_map, List.mem_map, List.mem_filter, Bool.or_eq_true, List.isEmpty_iff, List.contains_iff_mem,
    Function.comp_apply, nodeToDomain]
  refine exists_congr fun node => ?_
  constructor
  · intro h
    exact ⟨h.1.1.1, h.2, h.1.1.2, h.2 ▸ h.1.2⟩
  · intro h
    exact ⟨⟨⟨h.1, h.2.2.1⟩, h.2.1 ▸ h.2.2.2⟩, h.2.1⟩

/-! ## The nodes of a policy -/

theorem Kube.queryNodesBySelectors_ok {selects}
    (hselect : rules.select (K8SAdapter.buildLabelSelector policy.nodeSelectors) = some selects)
    (nodeNames : List String) :
    ∃ found, kube.queryNodesBySelectors ⟨policy.nodeSelectors, nodeNames⟩ = .ok found := by
  unfold Kube.queryNodesBySelectors
  rw [hselect]
  exact ⟨_, rfl⟩

variable {order : List Nat}

/-- The answers of the adapter on this cluster. -/
def Kube.Answered (kube : Kube rules) (fmt : SprintV) (order : List Nat) (e : Event Call.Resp) : Prop :=
  e.2 = (kube.serve fmt order e.1 ()).1

/-- The service finds what the policy selects, or a query is refused. -/
theorem resolve_ends (kube : Kube rules) (fmt : SprintV) (order : List Nat) (policy : NodeSchedulingPolicy) :
    Ends (fun _ nodes => policy.Resolved (kube.Answered fmt order) nodes)
    (fun _ _ => ∃ e, kube.queryNodesBySelectors ⟨policy.nodeSelectors, policy.nodeNames⟩ = .error e) ()
    (kube.resolve fmt order policy) := by
  have halong := along_resolveNodesForPolicy policy (A := kube.Answered fmt order) (P := policy.Queries)
    (E := ∃ e, kube.queryNodesBySelectors ⟨policy.nodeSelectors, policy.nodeNames⟩ = .error e) (fun _ => id)
    fun call e hq he => by
      rcases hq with rfl | rfl | rfl
      · exact ⟨e, he.symm⟩
      · cases he
      · cases he
  exact (Run.along (fun _ _ => True) (fun _ _ _ _ _ => ⟨rfl, trivial⟩) (Prog.run_exec _ ()) halong trivial).1

theorem resolve_ok {found} (hfound : kube.queryNodesBySelectors ⟨policy.nodeSelectors, policy.nodeNames⟩ = .ok found) :
    ∃ nodes, kube.resolve fmt order policy = .ok nodes ∧ (nodes.map Node.name).Nodup ∧ ∀ name, name ∈ nodes.map Node.name ↔
      name ∈ policy.selects (found.map Node.name) ((kube.queryNodesByDRA fmt policy.draSelectors).map Node.name) := by
  have hends := resolve_ends kube fmt order policy
  cases hr : kube.resolve fmt order policy with
  | error e =>
    rw [hr] at hends
    obtain ⟨e, he⟩ := hends
    cases hfound.symm.trans he
  | ok nodes =>
    rw [hr] at hends
    obtain ⟨selected, byDRA, hsel, hdra, hnodup, hmem⟩ := hends
    refine ⟨nodes, rfl, hnodup, fun name => (hmem name).trans ?_⟩
    rw [NodeSchedulingPolicy.selects_congr (fun hlist => congrArg _ (Except.ok.inj ((hsel hlist).trans hfound)))
      fun hne => congrArg _ (Except.ok.inj (hdra hne))]

/-- A selector text that the server refuses. -/
theorem resolve_refused (hlist : policy.nodeSelectors ≠ [])
    (hselect : rules.select (K8SAdapter.buildLabelSelector policy.nodeSelectors) = none) (nodes : List Node) :
    kube.resolve fmt order policy ≠ .ok nodes := by
  intro hr
  have hends := resolve_ends kube fmt order policy
  rw [hr] at hends
  obtain ⟨selected, -, hsel, -⟩ := hends
  have hanswer : .ok selected = kube.queryNodesBySelectors ⟨policy.nodeSelectors, policy.nodeNames⟩ := hsel (by simp [hlist])
  unfold Kube.queryNodesBySelectors at hanswer
  rw [hselect] at hanswer
  cases hanswer

/-- What a policy selects of the cluster, where the selector text is taken. -/
theorem mem_selects {selects found} (hlists : ¬policy.Empty)
    (hselect : rules.select (K8SAdapter.buildLabelSelector policy.nodeSelectors) = some selects)
    (hall : policy.nodeSelectors = [] → ∀ labels, selects labels = true)
    (hfound : kube.queryNodesBySelectors ⟨policy.nodeSelectors, policy.nodeNames⟩ = .ok found) :
    name ∈ policy.selects (found.map Node.name) ((kube.queryNodesByDRA fmt policy.draSelectors).map Node.name) ↔
      ∃ node ∈ kube.nodes, node.name = name ∧ selects node.labels = true ∧ kube.Fits policy node := by
  have hselected : name ∈ found.map Node.name ↔ _ := mem_queryNodesBySelectors hselect hfound
  have hdevices : name ∈ (kube.queryNodesByDRA fmt policy.draSelectors).map Node.name ↔ _ := mem_queryNodesByDRA
  -- a node with this name is there if one publishes something under it
  have hfits : (∃ node ∈ kube.nodes, node.name = name ∧ selects node.labels = true ∧ kube.Fits policy node) ↔
      name ∈ found.map Node.name ∧
        (policy.draSelectors = [] ∨ name ∈ (kube.queryNodesByDRA fmt policy.draSelectors).map Node.name) := by
    rw [hselected, hdevices]
    constructor
    · rintro ⟨node, hnode, rfl, hsel, hfits⟩
      exact ⟨⟨node, hnode, rfl, hsel, hfits.name⟩, hfits.devices.imp_right fun h => ⟨node, hnode, rfl, h⟩⟩
    · rintro ⟨⟨node, hnode, rfl, hsel, hname⟩, hdra⟩
      exact ⟨node, hnode, rfl, hsel, hname, hdra.imp_right fun ⟨_, _, _, h⟩ => h⟩
  rw [hfits, NodeSchedulingPolicy.selects]
  simp only [Bool.and_eq_true, List.isEmpty_iff]
  by_cases hlist : policy.nodeSelectors = [] ∧ policy.nodeNames = []
  · have hdra : policy.draSelectors ≠ [] := fun h => hlists ⟨hlist.1, hlist.2, h⟩
    rw [if_pos hlist, if_neg hdra, or_iff_right hdra, iff_and_self, hdevices, hselected]
    rintro ⟨node, hnode, heq, -⟩
    exact ⟨node, hnode, heq, hall hlist.1 _, .inl hlist.2⟩
  · rw [if_neg hlist]
    by_cases hdra : policy.draSelectors = []
    · simp [hdra]
    · simp [hdra]

/-- **What the service finds**, where the selector text is taken. -/
theorem resolve_selected {selects} (hlists : ¬policy.Empty)
    (hselect : rules.select (K8SAdapter.buildLabelSelector policy.nodeSelectors) = some selects)
    (hall : policy.nodeSelectors = [] → ∀ labels, selects labels = true) :
    ∃ nodes, kube.resolve fmt order policy = .ok nodes ∧ (nodes.map Node.name).Nodup ∧ ∀ name, name ∈ nodes.map Node.name ↔
      ∃ node ∈ kube.nodes, node.name = name ∧ selects node.labels = true ∧ kube.Fits policy node := by
  obtain ⟨found, hfound⟩ := kube.queryNodesBySelectors_ok hselect policy.nodeNames
  obtain ⟨nodes, hr, hnodup, hmem⟩ := resolve_ok hfound
  exact ⟨nodes, hr, hnodup, fun name => (hmem name).trans (mem_selects hlists hselect hall hfound)⟩

end

/-! ## Exactness -/

/-- There is nothing to match for a policy that asks for nothing: no node, or
none that publishes a slice where that is asked for. -/
def Kube.Bare {rules : LabelRules} (kube : Kube rules) (policy : NodeSchedulingPolicy) : Prop :=
  if policy.draSelectors = [] then kube.nodes = []
  else ∀ node ∈ kube.nodes, ∀ slice ∈ kube.slices, slice.nodeName ≠ node.name

/-- When the answer is exact. A policy that can be read has to ask for something,
or give no list, or find nothing. One with a key or a value that is none of a
label has to be taken by the server all the same, as a text that selects none of
the nodes it is otherwise about. -/
def Kube.Resolvable {rules : LabelRules} (kube : Kube rules) (policy : NodeSchedulingPolicy) : Prop :=
  (policy.Readable rules ∧ (policy.Constrained ∨ policy.Empty ∨ kube.Bare policy)) ∨
  (¬policy.Readable rules ∧ ∃ selects, rules.select (K8SAdapter.buildLabelSelector policy.nodeSelectors) = some selects ∧
    ∀ node ∈ kube.nodes, kube.Fits policy node → selects node.labels = false)

section

variable {rules : LabelRules} {kube : Kube rules} {fmt : SprintV} {order : List Nat} {policy : NodeSchedulingPolicy}

theorem NodeSchedulingPolicy.Empty.not_constrained (h : policy.Empty) : ¬policy.Constrained := by
  obtain ⟨hsel, hname, hdra⟩ := h
  simp [NodeSchedulingPolicy.Constrained, hsel, hname, hdra]

/-- What asks for nothing is met by every slice. -/
theorem matches_of_unconstrained (h : ¬policy.Constrained) {node} :
    kube.Matches policy node ↔ policy.draSelectors = [] ∨ ∃ slice ∈ kube.slices, slice.nodeName = node.name := by
  simp only [NodeSchedulingPolicy.Constrained, not_or, not_not, not_exists, not_and] at h
  obtain ⟨hname, hsel, hdra⟩ := h
  constructor
  · intro hmatch
    refine hmatch.devices.imp_right fun hpublishes => ?_
    obtain ⟨slice, hslice, heq, -⟩ := hpublishes
    exact ⟨slice, hslice, heq⟩
  · intro hdevices
    refine ⟨⟨.inl hname, ?_⟩, fun sel hmem => .inl (hsel sel hmem)⟩
    by_cases hnone : policy.draSelectors = []
    · exact .inl hnone
    obtain ⟨slice, hslice, heq⟩ := hdevices.resolve_left hnone
    obtain ⟨sel, hmem⟩ := exists_mem_of_ne_nil _ hnone
    exact .inr ⟨slice, hslice, heq, sel, hmem, .inl (hdra sel hmem).1, .inl (hdra sel hmem).2⟩

theorem bare_iff (h : ¬policy.Constrained) : kube.Bare policy ↔ ∀ node ∈ kube.nodes, ¬kube.Matches policy node := by
  simp only [matches_of_unconstrained h, Kube.Bare]
  by_cases hdra : policy.draSelectors = []
  · simp [hdra, eq_nil_iff_forall_not_mem]
  · simp [hdra]

/-- No node is right for a policy with a key or a value that is none of a label. -/
theorem not_matches_of_unreadable (h : ¬policy.Readable rules) {node} (hnode : node ∈ kube.nodes) :
    ¬kube.Matches policy node := by
  simp only [NodeSchedulingPolicy.Readable, not_forall] at h
  obtain ⟨sel, hmem, hkey, hsel⟩ := h
  exact fun hmatch => kube.not_satisfies hnode hkey hsel (hmatch.labels sel hmem)

theorem exact_iff_of_readable (hread : policy.Readable rules) :
    kube.Exact policy (kube.resolve fmt order policy) ↔ policy.Constrained ∨ policy.Empty ∨ kube.Bare policy := by
  have hselect := select_buildLabelSelector hread
  by_cases hempty : policy.Empty
  · simp only [hempty, true_or, or_true, iff_true]
    obtain ⟨found, hfound⟩ := kube.queryNodesBySelectors_ok hselect policy.nodeNames
    obtain ⟨nodes, hr, hnodup, hmem⟩ := resolve_ok hfound
    refine ⟨nodes, hr, hnodup, fun name => (hmem name).trans ?_⟩
    obtain ⟨hsel, hname, hdra⟩ := id hempty
    simp [NodeSchedulingPolicy.selects, hsel, hname, hdra, hempty.not_constrained]
  have hmatch : ∀ node, kube.Matches policy node ↔
      ((policy.nodeSelectors.filter fun sel => sel.key ≠ "").all fun sel => sel.admits node.labels) = true ∧
        kube.Fits policy node := fun node => by
    rw [← satisfies_iff]
    exact ⟨fun h => ⟨h.labels, h.toFits⟩, fun h => ⟨h.2, h.1⟩⟩
  obtain ⟨nodes, hr, hnodup, hmem⟩ := @resolve_selected rules kube fmt policy order _ hempty hselect
    (by simp_all)
  simp only [← hmatch] at hmem
  have hexact : kube.Exact policy (kube.resolve fmt order policy) ↔
      ∀ name, (∃ node ∈ kube.nodes, node.name = name ∧ kube.Matches policy node) → policy.Constrained := by
    constructor
    · intro h name hname
      obtain ⟨nodes', hr', -, hmem'⟩ := h
      cases hr.symm.trans hr'
      exact ((hmem' name).mp ((hmem name).mpr hname)).1
    · intro h
      exact ⟨nodes, hr, hnodup, fun name => (hmem name).trans ⟨fun hname => ⟨h name hname, hname⟩, fun hname => hname.2⟩⟩
  rw [hexact, or_iff_right hempty]
  by_cases hcon : policy.Constrained
  · simp [hcon]
  · simp only [hcon, imp_false, false_or, bare_iff hcon]
    constructor
    · intro h node hnode hmatch
      exact h node.name ⟨node, hnode, rfl, hmatch⟩
    · intro h name hname
      obtain ⟨node, hnode, -, hmatch⟩ := hname
      exact h node hnode hmatch

theorem exact_iff_of_unreadable (hread : ¬policy.Readable rules) :
    kube.Exact policy (kube.resolve fmt order policy) ↔
      ∃ selects, rules.select (K8SAdapter.buildLabelSelector policy.nodeSelectors) = some selects ∧
        ∀ node ∈ kube.nodes, kube.Fits policy node → selects node.labels = false := by
  have hlist : policy.nodeSelectors ≠ [] := by
    intro hnil
    exact hread (by simp [NodeSchedulingPolicy.Readable, hnil])
  cases hselect : rules.select (K8SAdapter.buildLabelSelector policy.nodeSelectors) with
  | none =>
    constructor
    · intro h
      obtain ⟨nodes, hr, -⟩ := h
      exact absurd hr (resolve_refused hlist hselect nodes)
    · intro h
      obtain ⟨selects, hsome, -⟩ := h
      cases hsome
  | some selects =>
    obtain ⟨nodes, hr, hnodup, hmem⟩ := @resolve_selected rules kube fmt policy order _ (fun h => hlist h.1) hselect
      (fun h => absurd h hlist)
    constructor
    · intro h
      refine ⟨selects, rfl, fun node hnode hfits => Bool.eq_false_iff.mpr fun hsel => ?_⟩
      obtain ⟨nodes', hr', -, hmem'⟩ := h
      cases hr.symm.trans hr'
      obtain ⟨-, node', hnode', -, hmatch⟩ := (hmem' node.name).mp ((hmem node.name).mpr ⟨node, hnode, rfl, hsel, hfits⟩)
      exact not_matches_of_unreadable hread hnode' hmatch
    · intro h
      obtain ⟨selects', hsome, hnone⟩ := h
      cases hsome
      refine ⟨nodes, hr, hnodup, fun name => (hmem name).trans ?_⟩
      constructor
      · intro hname
        obtain ⟨node, hnode, -, hsel, hfits⟩ := hname
        cases (hnone node hnode hfits).symm.trans hsel
      · intro hname
        obtain ⟨-, node, hnode, -, hmatch⟩ := hname
        exact absurd hmatch (not_matches_of_unreadable hread hnode)

end

/-- A world that answers node queries as the adapter does on this cluster; a
refused query is among the requests that are not carried out. -/
structure Kube.Answers {rules : LabelRules} (kube : Kube rules) (fmt : SprintV) (w : World) : Prop where
  selectors : ∀ opt nodes, kube.queryNodesBySelectors opt = .ok nodes → w.cluster.queryNodes opt = nodes
  devices : ∀ sels, w.cluster.queryNodesByDRA sels = kube.queryNodesByDRA fmt sels

/-- **In a run of the manager** a policy that asks for labels that there can be
selects the nodes that match. -/
theorem policyNodes_kube {rules} {kube : Kube rules} {fmt} {policy : NodeSchedulingPolicy} {w} (hw : kube.Answers fmt w)
    (hread : policy.Readable rules) (hcon : policy.Constrained) (name : String) :
    name ∈ w.policyNodes policy ↔ ∃ node ∈ kube.nodes, node.name = name ∧ kube.Matches policy node := by
  have hselect := select_buildLabelSelector hread
  obtain ⟨found, hfound⟩ := kube.queryNodesBySelectors_ok hselect policy.nodeNames
  have hnodes : name ∈ w.policyNodes policy ↔ name ∈ policy.selects (found.map Node.name)
      ((kube.queryNodesByDRA fmt policy.draSelectors).map Node.name) := by
    rw [← hw.selectors _ _ hfound, ← hw.devices]
    exact .rfl
  refine hnodes.trans ((mem_selects (fun h => h.not_constrained hcon) hselect (by simp_all) hfound).trans (exists_congr fun node => and_congr_right fun _ => and_congr_right fun _ => ?_))
  rw [← satisfies_iff]
  exact ⟨fun h => ⟨h.2, h.1⟩, fun h => ⟨h.labels, h.toFits⟩⟩

/-- **The nodes of a policy** are those that match all it asks for, exactly if
the condition holds. -/
theorem resolve_iff (rules : LabelRules) (kube : Kube rules) (fmt : SprintV) (order : List Nat)
    (policy : NodeSchedulingPolicy) :
    kube.Exact policy (kube.resolve fmt order policy) ↔ kube.Resolvable policy := by
  by_cases hread : policy.Readable rules
  · simp only [Kube.Resolvable, hread, true_and, not_true_eq_false, false_and, or_false]
    exact exact_iff_of_readable hread
  · simp only [Kube.Resolvable, hread, false_and, not_false_eq_true, true_and, false_or]
    exact exact_iff_of_unreadable hread

/-! ## A cluster -/

namespace PlainLabels

/-- Labels of letters, digits and the signs a label may have: a text is a list
of keys and of `key=value`, and all others are refused. -/
def isLabelChar (c : Char) : Bool := c.isAlphanum || ['-', '_', '.', '/'].contains c

def isKey (key : String) : Bool := key ≠ "" && key.toList.all isLabelChar

def isValue (value : String) : Bool := value.toList.all isLabelChar

def parse (part : List Char) : Option LabelSelector :=
  match cutChars ['='] part with
  | none => if isKey (String.ofList part) then some ⟨String.ofList part, ""⟩ else none
  | some (key, value) =>
    if isKey (String.ofList key) && isValue (String.ofList value) && value ≠ [] then
      some ⟨String.ofList key, String.ofList value⟩
    else none

def select (text : String) : Option (Labels → Bool) :=
  if text = "" then some fun _ => true
  else ((text.toList.splitOn ',').mapM parse).map fun sels labels => sels.all fun sel => sel.admits labels

theorem notMem_of_isLabelChar {s : String} (h : s.toList.all isLabelChar = true) {c} (hc : isLabelChar c = false) :
    c ∉ s.toList := by
  intro hmem
  cases hc.symm.trans (all_eq_true.mp h c hmem)

theorem parse_text {sel} (hkey : isKey sel.key = true) (hvalue : isValue sel.value = true) :
    parse sel.text.toList = some sel := by
  have hchars : sel.key.toList.all isLabelChar = true := by
    simp only [isKey, Bool.and_eq_true] at hkey
    exact hkey.2
  have hnot : '=' ∉ sel.key.toList := notMem_of_isLabelChar hchars (by decide)
  by_cases hempty : sel.value = ""
  · have htext : sel.text = sel.key := if_pos hempty
    rw [htext, parse, cutChars_notMem hnot]
    simp only [String.ofList_toList, hkey, if_true]
    rw [← hempty]
  · have htext : sel.text.toList = sel.key.toList ++ '=' :: ([] ++ sel.value.toList) := by
      rw [LabelSelector.text, if_neg hempty]
      simp
    have hne : sel.value.toList ≠ [] := by simpa using hempty
    rw [htext, parse, cutChars_append hnot]
    simp [hkey, hvalue, hne]

theorem splitOn_texts {sels} (hne : sels ≠ []) (h : ∀ sel ∈ sels, isKey sel.key = true ∧ isValue sel.value = true) :
    (",".intercalate (sels.map LabelSelector.text)).toList.splitOn ',' = sels.map fun sel => sel.text.toList := by
  have htoList : (",".intercalate (sels.map LabelSelector.text)).toList =
      List.intercalate [','] (sels.map fun sel => sel.text.toList) := by
    simp [String.toList_intercalate, Function.comp_def]
  rw [htoList]
  refine splitOn_intercalate ',' (fun part hpart => ?_) (by simpa using hne)
  obtain ⟨sel, hsel, rfl⟩ := mem_map.mp hpart
  obtain ⟨hkey, hvalue⟩ := h sel hsel
  simp only [isKey, Bool.and_eq_true] at hkey
  have hk : ',' ∉ sel.key.toList := notMem_of_isLabelChar hkey.2 (by decide)
  have hv : ',' ∉ sel.value.toList := notMem_of_isLabelChar hvalue (by decide)
  unfold LabelSelector.text
  split
  · exact hk
  · simp [hk, hv]

theorem mapM_parse : ∀ {sels : List LabelSelector}, (∀ sel ∈ sels, isKey sel.key = true ∧ isValue sel.value = true) →
    (sels.map fun sel => sel.text.toList).mapM parse = some sels
  | [], _ => rfl
  | sel :: sels, h => by
    obtain ⟨hkey, hvalue⟩ := h sel (by simp)
    rw [map_cons, mapM_cons, parse_text hkey hvalue, mapM_parse fun sel' hsel' => h sel' (by simp [hsel'])]
    rfl

theorem select_text (sels : List LabelSelector) (h : ∀ sel ∈ sels, isKey sel.key = true ∧ isValue sel.value = true) :
    select (",".intercalate (sels.map LabelSelector.text)) = some fun labels => sels.all fun sel => sel.admits labels := by
  cases sels with
  | nil => rfl
  | cons sel sels =>
    have hsplit := splitOn_texts (by simp) h
    have hne : ",".intercalate ((sel :: sels).map LabelSelector.text) ≠ "" := by
      intro hempty
      rw [hempty] at hsplit
      have htext : [] = sel.text.toList := (List.cons.inj hsplit).1
      have hparse := parse_text (h sel (by simp)).1 (h sel (by simp)).2
      rw [← htext] at hparse
      cases hparse
    rw [select, if_neg hne, hsplit, mapM_parse h]
    rfl

end PlainLabels

def LabelRules.plain : LabelRules where
  isKey := PlainLabels.isKey
  isValue := PlainLabels.isValue
  isValue_empty := rfl
  select := PlainLabels.select
  select_text := PlainLabels.select_text

/-- `%v` of texts, numbers and booleans. -/
def SprintV.scalars : SprintV where
  text
    | .str s => s
    | .int64 n => toString n.toInt
    | .bool b => toString b
    | _ => ""
  str _ := rfl
  int64 _ := rfl
  bool _ := rfl

/-- Node `a` has two labels and publishes a slice; node `b` has none. -/
def TwoNodes.kube : Kube .plain where
  nodes := [⟨"a", (Finmap.singleton "gpu" "yes").insert "zone" "x"⟩, ⟨"b", ∅⟩]
  slices := [⟨"a", "gpu.example.com", []⟩]
  nodup := by decide
  named := by decide
  labelled := by
    intro node hnode key value hlookup
    simp only [mem_cons, not_mem_nil, or_false] at hnode
    rcases hnode with rfl | rfl
    · by_cases hzone : key = "zone"
      · subst hzone
        rw [Finmap.lookup_insert] at hlookup
        cases hlookup
        decide
      · rw [Finmap.lookup_insert_of_ne _ hzone] at hlookup
        by_cases hgpu : key = "gpu"
        · subst hgpu
          rw [Finmap.lookup_singleton_eq] at hlookup
          cases hlookup
          decide
        · rw [Finmap.lookup_eq_none.mpr (by simpa [Finmap.mem_singleton] using hgpu)] at hlookup
          cases hlookup
    · rw [Finmap.lookup_empty] at hlookup
      cases hlookup

theorem TwoNodes.not_exact {policy nodes} (hr : kube.resolve .scalars [] policy = .ok nodes)
    (ha : "a" ∈ nodes.map Node.name) (hnot : ¬(policy.Constrained ∧ policy.Readable .plain)) :
    ¬kube.Exact policy (kube.resolve .scalars [] policy) := by
  intro h
  obtain ⟨nodes', hr', -, hmem⟩ := h
  cases hr.symm.trans hr'
  obtain ⟨hcon, node, hnode, -, hmatch⟩ := (hmem "a").mp ha
  by_cases hread : policy.Readable .plain
  · exact hnot ⟨hcon, hread⟩
  · exact not_matches_of_unreadable hread hnode hmatch

/-- **A selector without a key** gets every node, a device selector without a
class every node that publishes something, and a key with a comma in it the
nodes that have two labels. -/
theorem resolve_vacuous :
    (kube.resolve .scalars [] { nodeSelectors := [⟨"", ""⟩] } = .ok [⟨"b"⟩, ⟨"a"⟩] ∧
      ¬kube.Exact { nodeSelectors := [⟨"", ""⟩] } (kube.resolve .scalars [] { nodeSelectors := [⟨"", ""⟩] })) ∧
    (kube.resolve .scalars [] { draSelectors := [⟨"", []⟩] } = .ok [⟨"a"⟩] ∧
      ¬kube.Exact { draSelectors := [⟨"", []⟩] } (kube.resolve .scalars [] { draSelectors := [⟨"", []⟩] })) ∧
    kube.resolve .scalars [] { nodeSelectors := [⟨"gpu,zone", ""⟩] } = .ok [⟨"a"⟩] ∧
      ¬kube.Exact { nodeSelectors := [⟨"gpu,zone", ""⟩] }
        (kube.resolve .scalars [] { nodeSelectors := [⟨"gpu,zone", ""⟩] }) := by
  have hlabels : kube.resolve .scalars [] { nodeSelectors := [⟨"", ""⟩] } = .ok [⟨"b"⟩, ⟨"a"⟩] := by decide +kernel
  have hdevices : kube.resolve .scalars [] { draSelectors := [⟨"", []⟩] } = .ok [⟨"a"⟩] := by decide +kernel
  have hcomma : kube.resolve .scalars [] { nodeSelectors := [⟨"gpu,zone", ""⟩] } = .ok [⟨"a"⟩] := by decide +kernel
  refine ⟨⟨hlabels, not_exact hlabels (by simp) ?_⟩, ⟨hdevices, not_exact hdevices (by simp) ?_⟩,
    hcomma, not_exact hcomma (by simp) ?_⟩
  · simp [NodeSchedulingPolicy.Constrained]
  · simp [NodeSchedulingPolicy.Constrained]
  · intro h
    exact absurd (h.2 _ mem_cons_self (by decide)).1 (by decide)

end Gthulhu.Manager
