/-
The hashed texts: what they determine and how long they are.

`serializeIntent_inj`: two pod intents with one text are one intent, when
their names and labels keep to Kubernetes syntax (`Intent.Plain`). The
command regex in the middle may hold anything, separators included: the
fields around it are cut off from both ends.
`serializeIntent_length`: a text never has the 64 bytes of two digests.
-/
import Mathlib
import Gthulhu.DecisionMaker.ServiceFacts
import Gthulhu.Lib.Delimited

namespace Gthulhu.DecisionMaker

open Lib Util List

/-! ## Bytes -/

theorem utf8_length (s : String) : (utf8 s).length = s.utf8ByteSize := rfl

theorem utf8_injective : Function.Injective utf8 := by
  intro s t h
  apply String.toByteArray_inj.mp
  apply ByteArray.ext
  exact Array.toList_inj.mp h

/-! ## Field texts -/

theorem formatInt_injective : Function.Injective formatInt := fun _ _ h => Int64.toInt_inj.mp (Int.repr_inj.mp h)

theorem notMem_formatInt {c} (hc : c.isDigit = false) (hs : c ≠ '-') (n : Int64) : c ∉ (formatInt n).toList :=
  Delimited.notMem_intRepr hc hs n.toInt

/-- A label key or value: none of the separators of the label text. -/
def PlainLabel (s : String) : Prop := '|' ∉ s.toList ∧ ',' ∉ s.toList ∧ '=' ∉ s.toList

/-- Kubernetes syntax, as far as the texts rely on it. The regex is free. -/
structure Intent.Plain (intent : Intent) : Prop where
  podName : '|' ∉ intent.podName.toList
  podID : '|' ∉ intent.podID.toList
  nodeID : '|' ∉ intent.nodeID.toList
  k8sNamespace : '|' ∉ intent.k8sNamespace.toList
  podLabels : ∀ label ∈ intent.podLabels.entries, PlainLabel label.1 ∧ PlainLabel label.2

/-! ## Labels -/

theorem labelText_toList (label : (_ : String) × String) :
    (labelText label).toList = label.1.toList ++ '=' :: label.2.toList := by
  simp [labelText, String.toList_append]

theorem labelText_inj {a b} (ha : PlainLabel a.1) (hb : PlainLabel b.1) (h : labelText a = labelText b) : a = b := by
  have hl := congrArg String.toList h
  rw [labelText_toList, labelText_toList, Delimited.append_sep_inj ha.2.2 hb.2.2] at hl
  exact Sigma.ext (String.toList_inj.mp hl.1) (heq_of_eq (String.toList_inj.mp hl.2))

theorem mem_sortedLabels {podLabels s} :
    s ∈ sortedLabels podLabels ↔ ∃ label ∈ podLabels.entries, labelText label = s := by
  simp [sortedLabels]

theorem sortedLabels_notMem {podLabels c} (hc : c ≠ '=')
    (h : ∀ label ∈ podLabels.entries, c ∉ label.1.toList ∧ c ∉ label.2.toList) :
    ∀ s ∈ sortedLabels podLabels, c ∉ s.toList := by
  intro s hs
  obtain ⟨label, hl, rfl⟩ := mem_sortedLabels.mp hs
  rw [labelText_toList]
  simp [h label hl, hc]

theorem sortedLabels_inj {a b} (ha : ∀ label ∈ a.entries, PlainLabel label.1)
    (hb : ∀ label ∈ b.entries, PlainLabel label.1) (h : sortedLabels a = sortedLabels b) : a = b := by
  have hm : a.entries.map labelText = b.entries.map labelText := by
    have := congrArg (fun l : List String => (l : Multiset String)) h
    simpa [sortedLabels] using this
  apply Finmap.ext
  -- The texts of both maps' labels are read back by one function.
  have hinj : Set.InjOn labelText {label | PlainLabel label.1} := fun x hx y hy => labelText_inj hx hy
  have back : ∀ s : Multiset ((_ : String) × String), (∀ label ∈ s, PlainLabel label.1) →
      (s.map labelText).map (Function.invFunOn labelText {label | PlainLabel label.1}) = s := by
    intro s hs
    rw [Multiset.map_map]
    exact (Multiset.map_congr rfl fun x hx => hinj.leftInvOn_invFunOn (hs x hx)).trans (Multiset.map_id' s)
  rw [← back a.entries ha, ← back b.entries hb, hm]

/-! ## Intents -/

theorem labels_notMem {podLabels} (h : ∀ label ∈ podLabels.entries, PlainLabel label.1 ∧ PlainLabel label.2) :
    '|' ∉ (",".intercalate (sortedLabels podLabels)).toList := by
  rw [String.toList_intercalate]
  intro hm
  rcases Delimited.mem_intercalate hm with h' | ⟨p, hp, hc⟩
  · exact absurd h' (by decide)
  · obtain ⟨s, hs, rfl⟩ := mem_map.mp hp
    exact sortedLabels_notMem (by decide) (fun label hl => ⟨(h label hl).1.1, (h label hl).2.1⟩) s hs hc

theorem labelsText_inj {a b} (ha : ∀ label ∈ a.entries, PlainLabel label.1 ∧ PlainLabel label.2)
    (hb : ∀ label ∈ b.entries, PlainLabel label.1 ∧ PlainLabel label.2)
    (h : ",".intercalate (sortedLabels a) = ",".intercalate (sortedLabels b)) : a = b := by
  refine sortedLabels_inj (fun l hl => (ha l hl).1) (fun l hl => (hb l hl).1) ?_
  have hl := congrArg String.toList h
  rw [String.toList_intercalate, String.toList_intercalate] at hl
  have pieces : ∀ {m : Labels}, (∀ label ∈ m.entries, PlainLabel label.1 ∧ PlainLabel label.2) →
      ∀ p ∈ (sortedLabels m).map String.toList, ',' ∉ p ∧ p ≠ [] := by
    intro m hm p hp
    obtain ⟨s, hs, rfl⟩ := mem_map.mp hp
    refine ⟨sortedLabels_notMem (by decide) (fun label hl => ⟨(hm label hl).1.2.1, (hm label hl).2.2.1⟩) s hs, ?_⟩
    obtain ⟨label, _, rfl⟩ := mem_sortedLabels.mp hs
    rw [labelText_toList]
    simp
  have := Delimited.intercalate_inj (pieces ha) (pieces hb) hl
  exact map_injective_iff.mpr (fun _ _ => String.toList_inj.mp) this

/-- The names put before the fields: those of the hashed text, or none in the sort key. -/
structure FieldNames where
  podName : String
  podID : String
  nodeID : String
  k8sNamespace : String
  commandRegex : String
  priority : String
  executionTime : String
  podLabels : String

def FieldNames.all (n : FieldNames) : List String :=
  [n.podName, n.podID, n.nodeID, n.k8sNamespace, n.commandRegex, n.priority, n.executionTime, n.podLabels]

def FieldNames.hashed : FieldNames :=
  ⟨"podName=", "podID=", "nodeID=", "k8sNamespace=", "commandRegex=", "priority=", "executionTime=", "podLabels="⟩

def FieldNames.none : FieldNames := ⟨"", "", "", "", "", "", "", ""⟩

/-- The fields before the regex. -/
def Intent.front (n : FieldNames) (intent : Intent) : List String :=
  [n.podName ++ intent.podName, n.podID ++ intent.podID, n.nodeID ++ intent.nodeID,
    n.k8sNamespace ++ intent.k8sNamespace]

/-- The fields after the regex. -/
def Intent.back (n : FieldNames) (intent : Intent) : List String :=
  [n.priority ++ formatInt intent.priority, n.executionTime ++ formatInt intent.executionTime,
    n.podLabels ++ ",".intercalate (sortedLabels intent.podLabels)]

/-- The fields joined, with their names. -/
def Intent.text (n : FieldNames) (intent : Intent) : String :=
  "|".intercalate (intent.front n ++ (n.commandRegex ++ intent.commandRegex) :: intent.back n)

theorem serializeIntent_eq_text (intent : Intent) : serializeIntent intent = intent.text .hashed := rfl

theorem intentSortKey_eq_text (intent : Intent) : intentSortKey intent = intent.text .none := by
  simp [intentSortKey, Intent.text, Intent.front, Intent.back, FieldNames.none]

theorem notMem_append {c} {name value : String} (hn : c ∉ name.toList) (hv : c ∉ value.toList) :
    c ∉ (name ++ value).toList := by
  rw [String.toList_append, mem_append]
  exact fun h => h.elim hn hv

/-- Joined fields around one that may hold anything: all are determined. -/
theorem joined_inj {front front' back back' mid mid'} (hfront : front.length = front'.length)
    (hback : back.length = back'.length) (hplain : ∀ f, f ∈ front ∨ f ∈ front' ∨ f ∈ back ∨ f ∈ back' → '|' ∉ f.toList)
    (h : "|".intercalate (front ++ mid :: back) = "|".intercalate (front' ++ mid' :: back')) :
    front = front' ∧ mid = mid' ∧ back = back' := by
  have hl := congrArg String.toList h
  have hsep : "|".toList = ['|'] := by simp
  rw [String.toList_intercalate, String.toList_intercalate, hsep, map_append, map_append, map_cons,
    map_cons] at hl
  have hinj : ∀ {l l' : List String}, l.map String.toList = l'.map String.toList → l = l' := fun he =>
    map_injective_iff.mpr (fun _ _ => String.toList_inj.mp) he
  obtain ⟨hf, hm, hb⟩ := Delimited.intercalate_field_inj (by simpa using hfront) (by simpa using hback)
    (fun p hp => by
      simp only [mem_map] at hp
      rcases hp with ⟨f, hf, rfl⟩ | ⟨f, hf, rfl⟩ | ⟨f, hf, rfl⟩ | ⟨f, hf, rfl⟩
      · exact hplain f (.inl hf)
      · exact hplain f (.inr (.inl hf))
      · exact hplain f (.inr (.inr (.inl hf)))
      · exact hplain f (.inr (.inr (.inr hf)))) hl
  exact ⟨hinj hf, String.toList_inj.mp hm, hinj hb⟩

theorem Intent.Plain.fields {intent : Intent} (h : intent.Plain) {n : FieldNames}
    (hn : ∀ name ∈ n.all, '|' ∉ name.toList) : ∀ f ∈ intent.front n ++ intent.back n, '|' ∉ f.toList := by
  simp only [FieldNames.all, mem_cons, not_mem_nil, or_false, forall_eq_or_imp, forall_eq] at hn
  have hnum : ∀ k : Int64, '|' ∉ (formatInt k).toList := notMem_formatInt (by decide) (by decide)
  simp only [Intent.front, Intent.back, cons_append, nil_append, mem_cons, not_mem_nil,
    or_false, forall_eq_or_imp, forall_eq]
  obtain ⟨h1, h2, h3, h4, -, h6, h7, h8⟩ := hn
  exact ⟨notMem_append h1 h.podName, notMem_append h2 h.podID, notMem_append h3 h.nodeID,
    notMem_append h4 h.k8sNamespace, notMem_append h6 (hnum _), notMem_append h7 (hnum _),
    notMem_append h8 (labels_notMem h.podLabels)⟩

/-- The joined fields determine the intent. -/
theorem Intent.text_inj {n : FieldNames} (hn : ∀ name ∈ n.all, '|' ∉ name.toList) {a b : Intent} (ha : a.Plain)
    (hb : b.Plain) (h : a.text n = b.text n) : a = b := by
  obtain ⟨hf, hr, hk⟩ := joined_inj (by simp [Intent.front]) (by simp [Intent.back])
    (fun f hf => by
      rcases hf with hf | hf | hf | hf
      · exact ha.fields hn f (mem_append_left _ hf)
      · exact hb.fields hn f (mem_append_left _ hf)
      · exact ha.fields hn f (mem_append_right _ hf)
      · exact hb.fields hn f (mem_append_right _ hf)) h
  simp only [Intent.front, Intent.back, List.cons.injEq, String.append_right_inj, and_true] at hf hr hk
  obtain ⟨h1, h2, h3, h4⟩ := hf
  obtain ⟨h6, h7, h8⟩ := hk
  cases a
  cases b
  simp only [Intent.mk.injEq]
  exact ⟨h1, h2, h3, h4, hr, formatInt_injective h6, formatInt_injective h7,
    labelsText_inj ha.podLabels hb.podLabels h8⟩

/-- **The text determines the intent.** -/
theorem serializeIntent_inj {a b} (ha : a.Plain) (hb : b.Plain)
    (h : serializeIntent a = serializeIntent b) : a = b := by
  rw [serializeIntent_eq_text, serializeIntent_eq_text] at h
  exact Intent.text_inj (by decide) ha hb h

/-- So does the sort key: intents that sort as equal are equal. -/
theorem intentSortKey_inj {a b} (ha : a.Plain) (hb : b.Plain) (h : intentSortKey a = intentSortKey b) : a = b := by
  rw [intentSortKey_eq_text, intentSortKey_eq_text] at h
  exact Intent.text_inj (by decide) ha hb h

/-- Sorting leaves one order only, where the key determines the record. -/
theorem sorted_unique {α : Type} {key : α → String} {P : α → Prop} (hkey : ∀ {a b}, P a → P b → key a = key b → a = b)
    {l l' : List α} (hp : l.Perm l') (hplain : ∀ a ∈ l, P a) (hs : l.Pairwise fun a b => key a ≤ key b)
    (hs' : l'.Pairwise fun a b => key a ≤ key b) : l = l' :=
  List.Perm.eq_of_pairwise
    (fun a b ha hb hab hba => hkey (hplain a ha) (hplain b (hp.mem_iff.mpr hb)) (le_antisymm hab hba)) hs hs' hp

/-! ## Lengths -/

/-- The constant parts alone make a text longer than two digests. -/
theorem serializeIntent_length (intent : Intent) : 64 < (utf8 (serializeIntent intent)).length := by
  have h1 : "podName=".utf8ByteSize = 8 := by decide
  have h2 : "podID=".utf8ByteSize = 6 := by decide
  have h3 : "nodeID=".utf8ByteSize = 7 := by decide
  have h4 : "k8sNamespace=".utf8ByteSize = 13 := by decide
  have h5 : "commandRegex=".utf8ByteSize = 13 := by decide
  have h6 : "priority=".utf8ByteSize = 9 := by decide
  have h7 : "executionTime=".utf8ByteSize = 14 := by decide
  rw [utf8_length, serializeIntent]
  simp only [String.intercalate_cons_cons, String.utf8ByteSize_append]
  omega

/-! ## Roots -/

/-- The messages hashed for the tree over `intents` in this order. -/
def intentMessages (intents : List Intent) : List (List UInt8) :=
  messages (intents.map fun intent => utf8 (serializeIntent intent))

/-- Equal roots, equal records: for records that their hashed text determines. -/
theorem sameRecords_of_root_eq {α : Type} {serialize : α → String} {P : α → Prop}
    (hser : ∀ {a b}, P a → P b → serialize a = serialize b → a = b)
    (hlong : ∀ {a}, P a → 64 < (utf8 (serialize a)).length) {l1 l2 : List α} (hp1 : ∀ a ∈ l1, P a) (hp2 : ∀ a ∈ l2, P a)
    (hinj : Set.InjOn sha256 {m | m ∈ messages (l1.map fun a => utf8 (serialize a)) ∨
      m ∈ messages (l2.map fun a => utf8 (serialize a))})
    (hr : (buildMerkleTree (l1.map fun a => hashStringSHA256Hex (serialize a))).hash =
      (buildMerkleTree (l2.map fun a => hashStringSHA256Hex (serialize a))).hash) :
    ∀ a, a ∈ l1 ↔ a ∈ l2 := by
  have hhash : ∀ l : List α, l.map (fun a => hashStringSHA256Hex (serialize a)) =
      (l.map fun a => utf8 (serialize a)).map hashSHA256Hex := fun l => by rw [map_map]; rfl
  rw [hhash, hhash] at hr
  have hlen : ∀ m, m ∈ (l1.map fun a => utf8 (serialize a)) ∨ m ∈ (l2.map fun a => utf8 (serialize a)) →
      m ≠ [] ∧ m.length ≠ 64 := by
    intro m hm
    obtain ⟨a, ha, rfl⟩ : ∃ a, P a ∧ utf8 (serialize a) = m := by
      rcases hm with hm | hm
      · obtain ⟨a, ha, rfl⟩ := mem_map.mp hm
        exact ⟨a, hp1 a ha, rfl⟩
      · obtain ⟨a, ha, rfl⟩ := mem_map.mp hm
        exact ⟨a, hp2 a ha, rfl⟩
    have := hlong ha
    exact ⟨fun h => by simp [h] at this, by omega⟩
  have hsame := sameMessages_of_root_eq hlen hinj hr
  -- A record is found again under its message.
  have back : ∀ {l l' : List α}, (∀ a ∈ l, P a) → (∀ a ∈ l', P a) →
      (∀ m, m ∈ (l.map fun a => utf8 (serialize a)) → m ∈ (l'.map fun a => utf8 (serialize a))) →
      ∀ a ∈ l, a ∈ l' := by
    intro l l' hl hl' hsub a ha
    obtain ⟨b, hb, he⟩ := mem_map.mp (hsub _ (mem_map_of_mem ha))
    exact hser (hl' b hb) (hl a ha) (utf8_injective he) ▸ hb
  exact fun a => ⟨back hp1 hp2 (fun m => (hsame m).mp) a, back hp2 hp1 (fun m => (hsame m).mpr) a⟩

/-- **Equal roots, equal intents.** -/
theorem sameIntents_of_root_eq {l1 l2} (hp1 : ∀ i ∈ l1, i.Plain) (hp2 : ∀ i ∈ l2, i.Plain)
    (hinj : Set.InjOn sha256 {m | m ∈ intentMessages l1 ∨ m ∈ intentMessages l2})
    (hr : (buildMerkleTree (l1.map hashIntent)).hash = (buildMerkleTree (l2.map hashIntent)).hash) :
    ∀ i, i ∈ l1 ↔ i ∈ l2 :=
  sameRecords_of_root_eq serializeIntent_inj (fun _ => serializeIntent_length _) hp1 hp2 hinj hr

/-! ## Node policies -/

/-- A policy as the manager sends them: its ID is an object ID in hex, and its
node's name has no separator. -/
structure NodePolicy.Plain (policy : NodePolicy) : Prop where
  policyID : ∃ bytes : List UInt8, bytes.length = 12 ∧ policy.policyID = hexEncode bytes
  nodeID : '|' ∉ policy.nodeID.toList

/-- Neither ID has a separator. -/
def NodePolicy.Unbarred (policy : NodePolicy) : Prop :=
  '|' ∉ policy.policyID.toList ∧ '|' ∉ policy.nodeID.toList

theorem NodePolicy.Plain.unbarred {policy : NodePolicy} (h : policy.Plain) : policy.Unbarred := by
  obtain ⟨⟨bytes, _, he⟩, hnode⟩ := h
  exact ⟨he ▸ hexEncode_notMem (by decide) bytes, hnode⟩

/-- The fields joined, each after its name: those of the hashed text, or none
in the sort key. -/
def NodePolicy.text (n₁ n₂ n₃ n₄ n₅ : String) (policy : NodePolicy) : String :=
  "|".intercalate ([n₁ ++ policy.policyID, n₂ ++ policy.nodeID] ++ (n₃ ++ policy.commandRegex) ::
    [n₄ ++ formatInt policy.priority, n₅ ++ formatInt policy.executionTime])

theorem nodePolicySortKey_eq_text (policy : NodePolicy) : nodePolicySortKey policy = policy.text "" "" "" "" "" := by
  simp [nodePolicySortKey, NodePolicy.text]

theorem serializeNodePolicy_eq_text (policy : NodePolicy) :
    serializeNodePolicy policy =
      policy.text "policyID=" "nodeID=" "commandRegex=" "priority=" "executionTime=" := rfl

theorem NodePolicy.text_inj {n1 n2 n3 n4 n5} (hn : ∀ n ∈ [n1, n2, n4, n5], '|' ∉ n.toList) {a b : NodePolicy}
    (ha : a.Unbarred) (hb : b.Unbarred) (h : a.text n1 n2 n3 n4 n5 = b.text n1 n2 n3 n4 n5) : a = b := by
  simp only [mem_cons, not_mem_nil, or_false, forall_eq_or_imp, forall_eq] at hn
  obtain ⟨h1, h2, h4, h5⟩ := hn
  have hnum : ∀ k : Int64, '|' ∉ (formatInt k).toList := notMem_formatInt (by decide) (by decide)
  obtain ⟨hf, hr, hk⟩ := joined_inj (by simp) (by simp) (by
      simp only [mem_cons, not_mem_nil, or_false]
      rintro f ((rfl | rfl) | (rfl | rfl) | (rfl | rfl) | (rfl | rfl))
      · exact notMem_append h1 ha.1
      · exact notMem_append h2 ha.2
      · exact notMem_append h1 hb.1
      · exact notMem_append h2 hb.2
      · exact notMem_append h4 (hnum _)
      · exact notMem_append h5 (hnum _)
      · exact notMem_append h4 (hnum _)
      · exact notMem_append h5 (hnum _)) h
  simp only [List.cons.injEq, String.append_right_inj, and_true] at hf hr hk
  cases a
  cases b
  simp only [NodePolicy.mk.injEq]
  exact ⟨hf.1, hf.2, hr, formatInt_injective hk.1, formatInt_injective hk.2⟩

theorem nodePolicySortKey_inj {a b} (ha : a.Plain) (hb : b.Plain)
    (h : nodePolicySortKey a = nodePolicySortKey b) : a = b := by
  rw [nodePolicySortKey_eq_text, nodePolicySortKey_eq_text] at h
  exact NodePolicy.text_inj (by decide) ha.unbarred hb.unbarred h

theorem serializeNodePolicy_inj {a b} (ha : a.Unbarred) (hb : b.Unbarred)
    (h : serializeNodePolicy a = serializeNodePolicy b) : a = b := by
  rw [serializeNodePolicy_eq_text, serializeNodePolicy_eq_text] at h
  exact NodePolicy.text_inj (by decide) ha hb h

theorem NodePolicy.text_length (policy : NodePolicy) (n₁ n₂ n₃ n₄ n₅ : String) :
    n₁.utf8ByteSize + n₂.utf8ByteSize + n₃.utf8ByteSize + n₄.utf8ByteSize + n₅.utf8ByteSize +
      policy.policyID.utf8ByteSize + policy.nodeID.utf8ByteSize + 4 ≤ (utf8 (policy.text n₁ n₂ n₃ n₄ n₅)).length := by
  have hsep : "|".utf8ByteSize = 1 := by decide
  rw [utf8_length, NodePolicy.text]
  simp only [cons_append, nil_append, String.intercalate_cons_cons, String.intercalate_singleton,
    String.utf8ByteSize_append]
  omega

/-- With an ID of 24 digits, this text too is longer than two digests. -/
theorem serializeNodePolicy_length {policy}
    (h : ∃ bytes : List UInt8, bytes.length = 12 ∧ policy.policyID = hexEncode bytes) :
    64 < (utf8 (serializeNodePolicy policy)).length := by
  obtain ⟨bytes, hl, he⟩ := h
  have hid := hexEncode_utf8ByteSize bytes
  have hnames : "policyID=".utf8ByteSize + "nodeID=".utf8ByteSize + "commandRegex=".utf8ByteSize +
      "priority=".utf8ByteSize + "executionTime=".utf8ByteSize = 52 := by decide
  have hlength := policy.text_length "policyID=" "nodeID=" "commandRegex=" "priority=" "executionTime="
  rw [← serializeNodePolicy_eq_text, he] at hlength
  omega

/-- The messages hashed for the tree over `policies` in this order. -/
def nodePolicyMessages (policies : List NodePolicy) : List (List UInt8) :=
  messages (policies.map fun policy => utf8 (serializeNodePolicy policy))

/-- **Equal roots, equal policies.** -/
theorem samePolicies_of_root_eq {l1 l2} (hp1 : ∀ p ∈ l1, p.Plain) (hp2 : ∀ p ∈ l2, p.Plain)
    (hinj : Set.InjOn sha256 {m | m ∈ nodePolicyMessages l1 ∨ m ∈ nodePolicyMessages l2})
    (hr : (buildMerkleTree (l1.map hashNodePolicy)).hash = (buildMerkleTree (l2.map hashNodePolicy)).hash) :
    ∀ p, p ∈ l1 ↔ p ∈ l2 :=
  sameRecords_of_root_eq (fun ha hb => serializeNodePolicy_inj ha.unbarred hb.unbarred)
    (fun h => serializeNodePolicy_length h.policyID) hp1 hp2 hinj hr

end Gthulhu.DecisionMaker
