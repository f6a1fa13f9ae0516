/-
What the calls to the cluster and to decision makers do. A request to a
decision maker changes its one process, and of that the cache it is about:
`Sent` with the process there is afterwards. Every lemma covers the calls that
fail, since most callers log such errors and go on.
-/
import Gthulhu.Manager.RepositoryFacts

namespace Gthulhu.Manager

open Lib World Prog Run
open DecisionMaker Util

variable {go : SliceSort} {env : Nat → Choice} {w w' : World} {es : List (Event ApiCall.Resp)}
  {dm : DecisionMakerPod}

/-! ## The cluster -/

theorem queryPods_inv {opt r} (h : ApiRuns go env (K8SAdapter.queryPods opt) w es r w') :
    Unchanged w w' ∧ ∀ pods, r = .ok pods → pods = w.cluster.queryPods opt := by
  obtain ⟨-, he⟩ := Run.call_inv h
  simp only [respond, answer, Prod.mk.injEq] at he
  obtain ⟨rfl, rfl⟩ := he
  exact ⟨unchanged_tick w _, fun _ => Outcome.read_ok⟩

theorem queryNodesBySelectors_inv {opt r} (h : ApiRuns go env (K8SAdapter.queryNodesBySelectors opt) w es r w') :
    Unchanged w w' ∧ ∀ nodes, r = .ok nodes → nodes = w.cluster.queryNodes opt := by
  obtain ⟨-, he⟩ := Run.call_inv h
  simp only [respond, answer, Prod.mk.injEq] at he
  obtain ⟨rfl, rfl⟩ := he
  exact ⟨unchanged_tick w _, fun _ => Outcome.read_ok⟩

theorem queryNodesByDRA_inv {selectors r} (h : ApiRuns go env (K8SAdapter.queryNodesByDRA selectors) w es r w') :
    Unchanged w w' ∧ ∀ nodes, r = .ok nodes → nodes = w.cluster.queryNodesByDRA selectors := by
  obtain ⟨-, he⟩ := Run.call_inv h
  simp only [respond, answer, Prod.mk.injEq] at he
  obtain ⟨rfl, rfl⟩ := he
  exact ⟨unchanged_tick w _, fun _ => Outcome.read_ok⟩

theorem mem_onNodes {nodeIDs dms} :
    dm ∈ K8SAdapter.onNodes nodeIDs dms ↔ dm ∈ dms ∧ (nodeIDs = [] ∨ dm.nodeID ∈ nodeIDs) := by
  simp [K8SAdapter.onNodes]

/-- The pods found are those of the cluster on the nodes, in some order. -/
theorem queryDecisionMakerPods_inv {opt r} (h : ApiRuns go env (K8SAdapter.queryDecisionMakerPods opt) w es r w') :
    Unchanged w w' ∧ ∀ dms, r = .ok dms → dms.Perm (K8SAdapter.onNodes opt.nodeIDs w.cluster.decisionMakers) := by
  have listed : ∀ {r' w1 es1}, Run (respond go env) (perform ApiCall.listDecisionMakerPods) w es1 r' w1 →
      Unchanged w w1 ∧ ∀ dms, r' = .ok dms → dms.Perm w.cluster.decisionMakers := by
    intro r' w1 es1 h1
    obtain ⟨-, he⟩ := Run.call_inv h1
    simp only [respond, answer, Prod.mk.injEq] at he
    obtain ⟨rfl, rfl⟩ := he
    refine ⟨unchanged_tick w _, fun dms hr => ?_⟩
    rcases Outcome.read_cases (env w.tick).outcome
      (.ok (reorder (env w.tick).order w.cluster.decisionMakers)) with ho | ho
    · rw [ho] at hr
      cases hr
      exact reorder_perm _ _
    · rw [ho] at hr
      cases hr
  rcases except_bind_inv h with ⟨e, rfl, h1⟩ | ⟨dms, w1, es1, _, h1, h2, rfl⟩
  · exact ⟨(listed h1).1, fun _ hr => by cases hr⟩
  · obtain ⟨_, rfl, rfl⟩ := pure_ok_inv h2
    refine ⟨(listed h1).1, fun dms' hr => ?_⟩
    cases hr
    exact ((listed h1).2 dms rfl).filter _

/-! ## Requests to decision makers -/

variable {r : Except Error Unit}

theorem requestOK_inv {req failure} (h : ApiRuns go env (Client.requestOK dm req failure) w es r w') :
    (∃ scan resp p, (w.process dm).serve go scan req = (resp, p) ∧ Sent w w' dm.endpoint p ∧
      (r = .ok () → ∀ code message, resp ≠ .failure code message)) ∨ (Unchanged w w' ∧ r ≠ .ok ()) := by
  rcases except_bind_inv h with ⟨e, rfl, h1⟩ | ⟨resp, w1, _, _, h1, h2, rfl⟩
  · rcases http_inv h1 with ⟨scan, hs, _⟩ | ⟨hu, _⟩
    · exact .inl ⟨scan, _, _, rfl, hs, nofun⟩
    · exact .inr ⟨hu, nofun⟩
  · have hend : w' = w1 ∧ (r = .ok () → ∀ code message, resp ≠ .failure code message) := by
      cases resp with
      | failure code message =>
        obtain ⟨_, rfl, rfl⟩ := throw_inv h2
        exact ⟨rfl, nofun⟩
      | success | merkleRoot rootHash => exact ⟨(pure_ok_inv h2).2.2, nofun⟩
    obtain ⟨rfl, hr⟩ := hend
    rcases http_inv h1 with ⟨scan, hs, ho | ho⟩ | ⟨_, ho⟩
    · cases ho
      exact .inl ⟨scan, _, _, rfl, hs, hr⟩
    · cases ho
    · cases ho

theorem requestRoot_inv {req r} (h : ApiRuns go env (Client.requestRoot dm req) w es r w') :
    (∃ scan resp p, (w.process dm).serve go scan req = (resp, p) ∧ Sent w w' dm.endpoint p ∧
      (∀ rootHash, r = .ok rootHash → resp = .merkleRoot rootHash)) ∨ (Unchanged w w' ∧ ∃ e, r = .error e) := by
  rcases except_bind_inv h with ⟨e, rfl, h1⟩ | ⟨resp, w1, _, _, h1, h2, rfl⟩
  · rcases http_inv h1 with ⟨scan, hs, _⟩ | ⟨hu, _⟩
    · exact .inl ⟨scan, _, _, rfl, hs, nofun⟩
    · exact .inr ⟨hu, e, rfl⟩
  · have hend : w' = w1 ∧ ∀ rootHash, r = .ok rootHash → resp = .merkleRoot rootHash := by
      cases resp with
      | failure code message | success =>
        obtain ⟨_, rfl, rfl⟩ := throw_inv h2
        exact ⟨rfl, nofun⟩
      | merkleRoot rootHash =>
        obtain ⟨_, rfl, rfl⟩ := pure_ok_inv h2
        exact ⟨rfl, fun rootHash' he => by rw [Except.ok.inj he]⟩
    obtain ⟨rfl, hr⟩ := hend
    rcases http_inv h1 with ⟨scan, hs, ho | ho⟩ | ⟨_, ho⟩
    · cases ho
      exact .inl ⟨scan, _, _, rfl, hs, hr⟩
    · cases ho
    · cases ho

/-- A client function that waits for its token first. -/
theorem token_bind_inv {α : Type} {x : Api α} {r : Except Error α}
    (h : ApiRuns go env (Client.getToken dm >>= fun _ => x) w es r w') :
    (Unchanged w w' ∧ ∃ e, r = .error e) ∨ ∃ w1 es1, Unchanged w w1 ∧ ApiRuns go env x w1 es1 r w' := by
  rcases except_bind_inv h with ⟨e, rfl, h1⟩ | ⟨⟨⟩, w1, es1, es2, h1, h2, rfl⟩
  · exact .inl ⟨token_inv h1, e, rfl⟩
  · exact .inr ⟨w1, es2, token_inv h1, h2⟩

/-- What became of a process: a request that succeeds has had its effect, one
that fails has had it or not. -/
def Effect (r : Except Error Unit) (p p' : Process) (effect : Prop) : Prop :=
  effect ∨ (p'.intents = p.intents ∧ p'.nodePolicies = p.nodePolicies ∧ r ≠ .ok ())

theorem process_of_unchanged (h : Unchanged w w') (dm : DecisionMakerPod) : w'.process dm = w.process dm := by
  rw [World.process, World.process, h.processes]

/-- The client functions that make one request, from what that request does to
a process. -/
theorem request_effect {req failure} (effect : Process → Process → Prop)
    (hserve : ∀ {p scan resp p'}, p.serve go scan req = (resp, p') → effect p p' ∨ ((∃ code message, resp = .failure code message) ∧ p' = p))
    (h : ApiRuns go env (Client.getToken dm >>= fun _ => Client.requestOK dm req failure) w es r w') :
    ∃ p, Sent w w' dm.endpoint p ∧ Effect r (w.process dm) p (effect (w.process dm) p) := by
  rcases token_bind_inv h with ⟨hu, e, rfl⟩ | ⟨_, _, hu, h1⟩
  · exact ⟨_, hu.sent _, .inr ⟨rfl, rfl, nofun⟩⟩
  · rw [← process_of_unchanged hu]
    rcases requestOK_inv h1 with ⟨scan, resp, p, hp, hs, hok⟩ | ⟨hu', hr⟩
    · refine ⟨p, Sent.after hu hs, ?_⟩
      rcases hserve hp with heff | ⟨⟨code, message, hf⟩, rfl⟩
      · exact .inl heff
      · exact .inr ⟨rfl, rfl, fun hr => hok hr code message hf⟩
    · exact ⟨_, Sent.after hu (hu'.sent _), .inr ⟨rfl, rfl, hr⟩⟩

/-! ## Pod intents -/

theorem sendSchedulingIntent_inv {intents} (h : ApiRuns go env (Client.sendSchedulingIntent dm intents) w es r w') :
    ∃ p, Sent w w' dm.endpoint p ∧ Effect r (w.process dm) p
      (p.intents = intents.map ScheduleIntent.toIntent ∧ p.nodePolicies = (w.process dm).nodePolicies) := by
  refine request_effect (fun p p' => p'.intents = intents.map ScheduleIntent.toIntent ∧
    p'.nodePolicies = p.nodePolicies) (fun hp => ?_) h
  rcases Process.serve_handleIntents hp with ⟨_, hi, hn⟩ | hf
  · exact .inl ⟨hi, hn⟩
  · exact .inr hf

theorem deleteAllSchedulingIntents_inv
    (h : ApiRuns go env (Client.deleteSchedulingIntents dm { all := true }) w es r w') :
    ∃ p, Sent w w' dm.endpoint p ∧ Effect r (w.process dm) p
      (p.intents = [] ∧ p.nodePolicies = (w.process dm).nodePolicies) :=
  request_effect (fun p p' => p'.intents = [] ∧ p'.nodePolicies = p.nodePolicies)
    (fun hp => .inl (Process.serve_deleteAllIntents hp).2) h

/-- Deleting by pods keeps the intents of all other pods, and on success no
others. -/
theorem deleteSchedulingIntents_inv {podIDs}
    (h : ApiRuns go env (Client.deleteSchedulingIntents dm { podIDs := podIDs }) w es r w') :
    ∃ p, Sent w w' dm.endpoint p ∧ p.nodePolicies = (w.process dm).nodePolicies ∧
      (∀ x ∈ p.intents, x ∈ (w.process dm).intents) ∧
      (∀ x ∈ (w.process dm).intents, x.podID ∉ podIDs → x ∈ p.intents) ∧
      (r = .ok () → ∀ x ∈ p.intents, x.podID ∉ podIDs) := by
  rcases token_bind_inv h with ⟨hu, e, rfl⟩ | ⟨w1, es1, hu, h1⟩
  · exact ⟨_, hu.sent _, rfl, fun _ hx => hx, fun _ hx _ => hx, nofun⟩
  simp only [Bool.false_eq_true, if_false] at h1
  rw [← process_of_unchanged hu]
  suffices ∃ p, Sent w1 w' dm.endpoint p ∧ p.nodePolicies = (w1.process dm).nodePolicies ∧
      (∀ x ∈ p.intents, x ∈ (w1.process dm).intents) ∧
      (∀ x ∈ (w1.process dm).intents, x.podID ∉ podIDs → x ∈ p.intents) ∧
      (r = .ok () → ∀ x ∈ p.intents, x.podID ∉ podIDs) by
    obtain ⟨p, hs, hp⟩ := this
    exact ⟨p, Sent.after hu hs, hp⟩
  clear hu h
  induction podIDs generalizing w1 es1 with
  | nil =>
    obtain ⟨_, _, rfl⟩ := pure_ok_inv h1
    exact ⟨_, (Unchanged.refl _).sent _, rfl, fun _ hx => hx, fun _ hx _ => hx, fun _ _ _ => by simp⟩
  | cons podID podIDs ih =>
    -- One pod: its intents are gone, or the request has failed.
    have one : ∀ {r' w2 es2}, ApiRuns go env (Client.requestOK dm (.deleteIntent podID none false)
        (" returned non-OK status for podID " ++ podID ++ ": ")) w1 es2 r' w2 →
        ∃ p, Sent w1 w2 dm.endpoint p ∧ p.nodePolicies = (w1.process dm).nodePolicies ∧
          (p.intents = (w1.process dm).intents.filter (fun x => x.podID ≠ podID) ∨
            p.intents = (w1.process dm).intents ∧ r' ≠ .ok ()) := by
      intro r' w2 es2 h2
      rcases requestOK_inv h2 with ⟨scan, resp, p, hp, hs, hok⟩ | ⟨hu, hr⟩
      · rcases Process.serve_deleteIntent hp with ⟨_, hi, hn⟩ | ⟨⟨code, message, hf⟩, rfl⟩
        · exact ⟨p, hs, hn, .inl hi⟩
        · exact ⟨_, hs, rfl, .inr ⟨rfl, fun hr => hok hr code message hf⟩⟩
      · exact ⟨_, hu.sent _, rfl, .inr ⟨rfl, hr⟩⟩
    rw [List.forM_cons] at h1
    rcases except_bind_inv h1 with ⟨e, rfl, h2⟩ | ⟨⟨⟩, w2, es2, es3, h2, h3, rfl⟩
    · obtain ⟨p, hs, hn, hi | ⟨hi, _⟩⟩ := one h2
      · refine ⟨p, hs, hn, fun x hx => ?_, fun x hx hid => ?_, nofun⟩
        · rw [hi] at hx
          exact List.mem_of_mem_filter hx
        · rw [hi, List.mem_filter]
          exact ⟨hx, by simpa using fun he => hid (by simp [he])⟩
      · exact ⟨p, hs, hn, fun x hx => hi ▸ hx, fun x hx _ => hi ▸ hx, nofun⟩
    · obtain ⟨p, hs, hn, hi | ⟨_, hne⟩⟩ := one h2
      · obtain ⟨p', hs', hn', hsub, hkeep, hgone⟩ := ih w2 es3 h3
        have hp : w2.process dm = p := hs.self
        rw [hp] at hn' hsub hkeep
        refine ⟨p', hs.trans hs', hn'.trans hn, fun x hx => ?_, fun x hx hid => ?_, fun hr x hx => ?_⟩
        · have hx := hsub x hx
          rw [hi] at hx
          exact List.mem_of_mem_filter hx
        · rw [List.mem_cons, not_or] at hid
          refine hkeep x ?_ hid.2
          rw [hi, List.mem_filter]
          exact ⟨hx, by simpa using hid.1⟩
        · rw [List.mem_cons, not_or]
          refine ⟨?_, hgone hr x hx⟩
          have hx := hsub x hx
          rw [hi, List.mem_filter] at hx
          simpa using hx.2
      · exact (hne rfl).elim

/-- A root read changes no cache; the root it finds is that of the cache. -/
theorem getIntentMerkleRoot_inv {r} (h : ApiRuns go env (Client.getIntentMerkleRoot dm) w es r w') :
    ∃ p, Sent w w' dm.endpoint p ∧ p.intents = (w.process dm).intents ∧
      p.nodePolicies = (w.process dm).nodePolicies ∧
      ∀ rootHash, r = .ok rootHash → ∃ l : List Intent, l.Perm (w.process dm).intents ∧
        (l.Pairwise fun a b => intentSortKey a ≤ intentSortKey b) ∧
        rootHash = (buildMerkleTree (l.map hashIntent)).hash := by
  rcases token_bind_inv h with ⟨hu, e, rfl⟩ | ⟨_, _, hu, h1⟩
  · exact ⟨_, hu.sent _, rfl, rfl, nofun⟩
  rw [← process_of_unchanged hu]
  rcases requestRoot_inv h1 with ⟨scan, resp, p, hp, hs, hok⟩ | ⟨hu', e, rfl⟩
  · obtain ⟨⟨l, hperm, hsorted, rfl⟩, hi, hn⟩ := Process.serve_getIntentMerkleRoot hp
    refine ⟨p, Sent.after hu hs, hi, hn, fun rootHash hr => ⟨l, hperm, hsorted, ?_⟩⟩
    have := hok rootHash hr
    simpa using this.symm
  · exact ⟨_, Sent.after hu (hu'.sent _), rfl, rfl, nofun⟩

/-! ## Node policies -/

theorem sendNodeSchedulingPolicies_inv {intents}
    (h : ApiRuns go env (Client.sendNodeSchedulingPolicies dm intents) w es r w') :
    ∃ p, Sent w w' dm.endpoint p ∧ Effect r (w.process dm) p
      (p.nodePolicies = intents.map NodeSchedulingIntent.toNodePolicy ∧ p.intents = (w.process dm).intents) :=
  request_effect (fun p p' => p'.nodePolicies = intents.map NodeSchedulingIntent.toNodePolicy ∧
    p'.intents = p.intents) (fun hp => .inl (Process.serve_handleNodePolicies hp).2) h

theorem deleteAllNodeSchedulingIntents_inv
    (h : ApiRuns go env (Client.deleteNodeSchedulingIntents dm { all := true }) w es r w') :
    ∃ p, Sent w w' dm.endpoint p ∧ Effect r (w.process dm) p
      (p.nodePolicies = [] ∧ p.intents = (w.process dm).intents) :=
  request_effect (fun p p' => p'.nodePolicies = [] ∧ p'.intents = p.intents)
    (fun hp => .inl (Process.serve_deleteAllNodePolicies hp).2) h

theorem deleteNodeSchedulingIntents_inv {policyID}
    (h : ApiRuns go env (Client.deleteNodeSchedulingIntents dm { policyID := policyID }) w es r w') :
    ∃ p, Sent w w' dm.endpoint p ∧ Effect r (w.process dm) p
      (p.nodePolicies = (w.process dm).nodePolicies.filter (fun policy => policy.policyID ≠ policyID) ∧
        p.intents = (w.process dm).intents) := by
  refine request_effect (fun p p' => p'.nodePolicies = p.nodePolicies.filter (fun policy => policy.policyID ≠ policyID) ∧
    p'.intents = p.intents) (fun hp => ?_) h
  rcases Process.serve_deleteNodePolicy hp with ⟨_, hn, hi⟩ | hf
  · exact .inl ⟨hn, hi⟩
  · exact .inr hf

theorem getNodePolicyMerkleRoot_inv {r} (h : ApiRuns go env (Client.getNodePolicyMerkleRoot dm) w es r w') :
    Sent w w' dm.endpoint (w.process dm) ∧
      ∀ rootHash, r = .ok rootHash → rootHash = getNodePolicyMerkleRootHash (w.process dm).svc := by
  rcases token_bind_inv h with ⟨hu, e, rfl⟩ | ⟨_, _, hu, h1⟩
  · exact ⟨hu.sent _, nofun⟩
  rw [← process_of_unchanged hu]
  rcases requestRoot_inv h1 with ⟨scan, resp, p, hp, hs, hok⟩ | ⟨hu', e, rfl⟩
  · obtain ⟨rfl, rfl⟩ := Process.serve_getNodePolicyMerkleRoot hp
    refine ⟨Sent.after hu hs, fun rootHash hr => ?_⟩
    have hresp := hok rootHash hr
    simpa using hresp.symm
  · exact ⟨Sent.after hu (hu'.sent _), nofun⟩

end Gthulhu.Manager
