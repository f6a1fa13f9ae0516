/-
Pod-intent roots on the two sides.

The manager and a decision maker hash the same texts, but each sorts its own
list by a key that is another text, with a sort that may leave equal keys in
any order. Equal keys belong to equal intents (`sorted_unique`), so
the order in which intents are sent does not show in the root, and a resync of
decision makers that hold what is stored for their nodes only reads
(**`podRoots_agree`**). Nothing is assumed of the hash.
-/
import Gthulhu.Manager.ResyncFacts

namespace Gthulhu.Manager

open Lib World Prog Util DecisionMaker OneNode

variable {go go' : SliceSort} {env : Nat → Choice} {w w' : World} {calls : Calls} {α β : Type}

/-! ## One decision maker -/

/-- What a decision maker answers a root read with, as it is now. -/
def Reports (go : SliceSort) (p : Process) (root : String) : Prop :=
  ∀ scan, (p.serve go scan .getIntentMerkleRoot).1 = .merkleRoot root

theorem reports_of_perm {p intents} (hp : p.intents.Perm (intents.map ScheduleIntent.toIntent))
    (hplain : ∀ i ∈ intents, i.toIntent.Plain) :
    Reports go p (buildScheduleIntentMerkleRoot go' intents) := by
  intro scan
  rcases hserve : p.serve go scan .getIntentMerkleRoot with ⟨resp, p'⟩
  obtain ⟨⟨l, hl, hs, rfl⟩, _⟩ := Process.serve_getIntentMerkleRoot hserve
  have hroot : buildScheduleIntentMerkleRoot go' intents = (buildMerkleTree (l.map hashIntent)).hash := by
    refine buildScheduleIntentMerkleRoot_eq (hl.trans hp) hs fun i hi => ?_
    obtain ⟨j, hj, rfl⟩ := List.mem_map.mp ((hl.trans hp).mem_iff.mp hi)
    exact hplain j hj
  rw [hroot]

theorem sent_reports {dm intents sent} (h : Runs go env (Svc.call (.sendSchedulingIntent dm sent)) w calls (.ok ()) w')
    (hp : sent.Perm intents) (hplain : ∀ i ∈ intents, i.toIntent.Plain) :
    Reports go (w'.process dm) (buildScheduleIntentMerkleRoot go' intents) := by
  obtain ⟨-, _, hrun⟩ := call_inv h
  obtain ⟨p, hs, ⟨hi, -⟩ | ⟨-, -, hne⟩⟩ := sendSchedulingIntent_inv hrun
  · refine reports_of_perm ?_ hplain
    rw [World.process, hs.self, hi]
    exact hp.map _
  · exact absurd rfl hne

theorem cleared_intents {dm}
    (h : Runs go env (Svc.call (.deleteSchedulingIntents dm { all := true })) w calls (.ok ()) w') :
    (w'.process dm).intents = [] := by
  obtain ⟨-, _, hrun⟩ := call_inv h
  obtain ⟨p, hs, ⟨hi, -⟩ | ⟨-, -, hne⟩⟩ := deleteAllSchedulingIntents_inv hrun
  · rw [World.process, hs.self, hi]
  · exact absurd rfl hne

/-! ## The root expected -/

/-- The root `resyncIntentsToDMs` compares the one of a node's decision maker with. -/
def expectedIntentRoot (go : SliceSort) (intents : List ScheduleIntent) (nodeID : String) : String :=
  let expected := ((expectedRootsByNode (podChannel go) intents).lookup nodeID).getD ""
  if expected = "" then (buildMerkleTree []).hash else expected

theorem expectedIntentRoot_eq (intents : List ScheduleIntent) (nodeID : String) :
    expectedIntentRoot go intents nodeID =
      buildScheduleIntentMerkleRoot go (intents.filter fun i => i.nodeID = nodeID) :=
  expectedRoot_eq (podChannel_meets go go fun _ => {}) intents nodeID

theorem empty_reports {p} (h : p.intents = []) {intents nodeID}
    (hnone : ∀ i ∈ intents, i.nodeID ≠ nodeID) : Reports go p (expectedIntentRoot go' intents nodeID) := by
  have hnil : intents.filter (fun i => i.nodeID = nodeID) = [] := by
    rw [List.filter_eq_nil_iff]
    intro i hi
    simpa using hnone i hi
  rw [expectedIntentRoot_eq, hnil]
  exact reports_of_perm (by simp [h]) (by simp)

/-! ## A resync that finds nothing to do -/

/-- The calls that only look. -/
def Call.Reads : Call → Prop
  | .queryDecisionMakerPods _ => True
  | .queryIntents _ => True
  | .getIntentMerkleRoot _ => True
  | _ => False

theorem reads_call {call r} (h : Runs go env (Svc.call call) w calls r w')
    (hcall : call.Reads) : ∀ e ∈ calls, e.1.Reads := by
  obtain ⟨rfl, -⟩ := call_inv h
  intro e he
  cases List.mem_singleton.mp he
  exact hcall

/-- A decision maker whose root can only be the expected one is left alone. -/
theorem resyncDM_reads {ch : Channel α} {v : View α β} (hm : ch.Meets go env v) {intents : List α}
    {dm : DecisionMakerPod} {r} (hroot : dm.state = .online → ∀ root, v.RootOf (v.cache (w.process dm)) root →
      root = ch.root (intents.filter fun i => ch.nodeID i = dm.nodeID))
    (hreads : ∀ {w calls r w'}, Runs go env (ch.getRoot dm) w calls r w' → ∀ e ∈ calls, e.1.Reads)
    (h : Runs go env (resyncDM ch intents dm) w calls r w') :
    (∀ e ∈ calls, e.1.Reads) ∧ ∀ e, v.cache (w'.processes e) = v.cache (w.processes e) := by
  rw [resyncDM] at h
  split at h
  · obtain ⟨rfl, _, rfl⟩ := Run.pure_ok_inv h
    exact ⟨by simp, fun _ => rfl⟩
  rename_i hon
  obtain ⟨a, w1, _, calls2, h1, h2, rfl⟩ := Run.attempt_bind_inv h
  obtain ⟨p, hs, hcache, hrootOf⟩ := hm.getRoot h1
  have hsame : ∀ e, v.cache (w1.processes e) = v.cache (w.processes e) := by
    intro e
    by_cases he : e = dm.endpoint
    · rw [he, hs.self, hcache]
      rfl
    · rw [hs.other he]
  have hend : calls2 = [] ∧ w' = w1 := by
    cases a with
    | error e =>
      obtain ⟨rfl, _, rfl⟩ := Run.pure_ok_inv h2
      exact ⟨rfl, rfl⟩
    | ok rootHash =>
      simp only [expectedRoot_eq hm] at h2
      rw [if_pos (hroot (not_not.mp hon) rootHash (hrootOf rootHash rfl))] at h2
      obtain ⟨rfl, _, rfl⟩ := Run.pure_ok_inv h2
      exact ⟨rfl, rfl⟩
  obtain ⟨rfl, rfl⟩ := hend
  rw [List.append_nil]
  exact ⟨hreads h1, hsame⟩

theorem resyncIntentsToDMs_reads {result} (hrun : Runs go env (resyncIntentsToDMs go') w calls result w')
    (hstored : ∀ i ∈ w.intents, i.toIntent.Plain) (hheld : ∀ dm ∈ w.cluster.decisionMakers, dm.state = .online →
      (w.process dm).intents.Perm (w.intentsOn dm.nodeID)) :
    ∀ e ∈ calls, e.1.Reads := by
  rcases Run.except_bind_inv hrun with ⟨e, rfl, h1⟩ | ⟨dms, _, _, _, h1, h2, rfl⟩
  · exact reads_call h1 trivial
  have hreads1 := reads_call h1 trivial
  obtain ⟨-, es, hq⟩ := call_inv h1
  obtain ⟨hu1, hdms⟩ := queryAllDecisionMakerPods_ok hq
  refine fun e he => (List.mem_append.mp he).elim (hreads1 e) fun he => ?_
  split at h2
  · obtain ⟨rfl, _, _⟩ := Run.pure_ok_inv h2
    cases he
  rcases Run.except_bind_inv h2 with ⟨e, rfl, h3⟩ | ⟨intents, _, _, _, h3, h4, rfl⟩
  · exact reads_call h3 trivial _ he
  have hreads3 := reads_call h3 trivial
  obtain ⟨-, _, hq'⟩ := call_inv h3
  obtain ⟨hu2, hintents⟩ := queryAllIntents_ok hq'
  rw [hu1.intents] at hintents
  have hu := hu1.trans hu2
  refine (List.mem_append.mp he).elim (hreads3 e) fun he => ?_
  -- The loop keeps every cache, so each decision maker is met as it was at the start.
  refine (Run.forM_calls (fun s : World => ∀ e, (s.processes e).intents = (w.processes e).intents)
    (fun e => e.1.Reads) (fun dm hdm s es r s1 hsame hr => ?_) h4 fun e => ?_).1 e he
  · have hroot : dm.state = .online → ∀ root, podView.RootOf (podView.cache (s.process dm)) root →
        root = buildScheduleIntentMerkleRoot go' (intents.filter fun i => i.nodeID = dm.nodeID) := by
      rintro hon root ⟨l, hl, hs, rfl⟩
      have hcache : podView.cache (s.process dm) = (w.process dm).intents := hsame dm.endpoint
      rw [hcache] at hl
      have hperm := (hl.trans (hheld dm (hdms.mem_iff.mp hdm) hon)).trans ((hintents.filter _).map _).symm
      refine (buildScheduleIntentMerkleRoot_eq hperm hs fun i hi => ?_).symm
      obtain ⟨j, hj, rfl⟩ := List.mem_map.mp (hperm.mem_iff.mp hi)
      exact hstored j (hintents.mem_iff.mp (List.mem_of_mem_filter hj))
    obtain ⟨hr1, hkeep⟩ := resyncDM_reads (podChannel_meets go go' env) hroot (fun h => reads_call h trivial) hr
    exact ⟨hr1, fun e => (hkeep e).trans (hsame e)⟩
  · rw [hu.processes]

/-- **Pod-intent roots agree.** After a send in any order the decision maker
reports the manager's root of those intents; one that holds nothing reports the
root expected for a node without intents; and a resync that finds the online
decision makers with the intents of their nodes calls nothing but reads. The
decision makers sort by `go` and the manager by `go'`. -/
theorem podRoots_agree (go go' : SliceSort) (env : Nat → Choice) :
    (∀ w w' calls dm (intents sent : List ScheduleIntent), (∀ i ∈ intents, i.toIntent.Plain) → sent.Perm intents →
      Runs go env (Svc.call (.sendSchedulingIntent dm sent)) w calls (.ok ()) w' →
      Reports go (w'.process dm) (buildScheduleIntentMerkleRoot go' intents)) ∧
    (∀ w (dm : DecisionMakerPod) (intents : List ScheduleIntent), (∀ i ∈ intents, i.nodeID ≠ dm.nodeID) →
      (w.process dm = .fresh ∨
        ∃ w₀ calls, Runs go env (Svc.call (.deleteSchedulingIntents dm { all := true })) w₀ calls (.ok ()) w) →
      Reports go (w.process dm) (expectedIntentRoot go' intents dm.nodeID)) ∧
    ∀ w calls result w', (∀ i ∈ w.intents, i.toIntent.Plain) →
      (∀ dm ∈ w.cluster.decisionMakers, dm.state = .online →
        (w.process dm).intents.Perm (w.intentsOn dm.nodeID)) →
      Runs go env (resyncIntentsToDMs go') w calls result w' → ∀ e ∈ calls, e.1.Reads := by
  refine ⟨fun w w' calls dm intents sent hplain hp h => sent_reports h hp hplain, fun w dm intents hnone h => ?_,
    fun w calls result w' hstored hheld h => resyncIntentsToDMs_reads h hstored hheld⟩
  have hempty : (w.process dm).intents = [] := by
    rcases h with h | ⟨w₀, calls, h⟩
    · rw [h]
      rfl
    · exact cleared_intents h
  exact empty_reports hempty hnone

namespace OneNode

def twoPods : Resources .intent := ⟨[intent 1 7 "p", intent 2 7 "q"], by decide⟩

/-- Two intents stored, and a decision maker that was sent them the other way round. -/
def heldWorld : World where
  store := store twoPods (.empty _)
  processes _ := (Process.fresh.serve .insertion (.ok ())
    (.handleIntents [(intent 2 7 "q").toIntent, (intent 1 7 "p").toIntent])).2
  cluster := cluster [] []

theorem twoPods_plain : ∀ i ∈ [intent 1 7 "p", intent 2 7 "q"], i.toIntent.Plain := by
  simp only [List.mem_cons, List.not_mem_nil, or_false, forall_eq_or_imp, forall_eq]
  exact ⟨intent_plain (by decide), intent_plain (by decide)⟩

end OneNode

theorem podRoots_agree_oneNode :
    (∃ calls w', Runs .insertion (fun _ => {})
        (Svc.call (.sendSchedulingIntent dm [intent 2 7 "q", intent 1 7 "p"])) world
        calls (.ok ()) w' ∧
      Reports .insertion (w'.process dm)
        (buildScheduleIntentMerkleRoot .insertion [intent 1 7 "p", intent 2 7 "q"])) ∧
    Reports .insertion (world.process dm) (expectedIntentRoot .insertion [] "a") ∧
    ∀ e ∈ (exec (serve .insertion fun _ => {}) (resyncIntentsToDMs .insertion).run heldWorld).1,
      e.1.Reads := by
  obtain ⟨hsent, hempty, hquiet⟩ := podRoots_agree .insertion .insertion fun _ => {}
  have hheld : ∀ dm ∈ heldWorld.cluster.decisionMakers, dm.state = .online →
      (heldWorld.process dm).intents.Perm (heldWorld.intentsOn dm.nodeID) := by
    intro dm hdm _
    obtain rfl := List.mem_singleton.mp hdm
    exact .swap _ _ _
  refine ⟨?_, hempty world dm [] (by simp) (.inl rfl), hquiet heldWorld _ _ _ twoPods_plain hheld (run_exec _ _)⟩
  refine Run.exists_unit_of (fun _ _ => True) (by decide +kernel) fun calls w' hsend _ => ?_
  exact hsent _ _ _ _ _ _ twoPods_plain (.swap _ _ _) hsend

end Gthulhu.Manager
