/-
What the two loops of delivery achieve, over any channel that does what its
calls are for (`Channel.Meets`).

`deliver_inv`: a push leaves each decision maker's cache as it was, or
replaces it by its host's group; when it succeeds, the target of every group
holds that group and nothing else. `resyncDMs_converge`: a resync without
failed calls leaves every online decision maker with the intents of its node,
where equal roots mean equal records.
-/
import Gthulhu.Manager.Delivery
import Gthulhu.Manager.ClientFacts

namespace Gthulhu.Manager

open Lib World Prog Util List Run AList
open DecisionMaker (Process)

/-! ## Channels as they are meant -/

/-- What travels on a channel: what is stored of it, what a decision maker is
told, whose it is, and where it is held. `RootOf cache root` is what a decision
maker with that cache may report. -/
structure View (α β : Type) where
  stored : World → List α
  wire : α → β
  owner : α → ObjectID
  cache : Process → List β
  RootOf : List β → String → Prop

variable {α β : Type}

/-- What delivery leaves alone of a stored intent. -/
def View.core (v : View α β) (i : α) : β × ObjectID := (v.wire i, v.owner i)

/-- Outside the endpoints `touched`, nothing that the view shows has changed. -/
structure View.Frame (v : View α β) (w w' : World) (touched : String × Nat → Prop) : Prop where
  cluster : w'.cluster = w.cluster
  core : (v.stored w').map v.core = (v.stored w).map v.core
  others : ∀ e, ¬touched e → v.cache (w'.processes e) = v.cache (w.processes e)

theorem View.Frame.trans {v : View α β} {w w1 w' P Q} (h : v.Frame w w1 P)
    (h' : v.Frame w1 w' Q) : v.Frame w w' fun e => P e ∨ Q e :=
  ⟨h'.cluster.trans h.cluster, h'.core.trans h.core, fun e he => by
    rw [not_or] at he
    exact (h'.others e he.2).trans (h.others e he.1)⟩

theorem View.Frame.mono {v : View α β} {w w' P Q} (h : v.Frame w w' P) (hpq : ∀ e, P e → Q e) : v.Frame w w' Q :=
  ⟨h.cluster, h.core, fun e he => h.others e fun hp => he (hpq e hp)⟩

/-- An operation that fails only when one of its calls does. -/
def FailsByCall (go : SliceSort) (env : Nat → Choice) {γ : Type} (x : Svc γ) : Prop :=
  ∀ ⦃w calls r w'⦄, Runs go env x w calls r w' → Clean calls → ∃ a, r = .ok a

theorem mapOrder_inv {go env w w' calls r} (h : Runs go env (Svc.call .mapOrder) w calls r w') :
    Unchanged w w' ∧ ∃ order, r = .ok order := by
  obtain ⟨-, _, hp⟩ := call_inv h
  obtain ⟨order, rfl, hcall⟩ := Run.lift_inv hp
  obtain ⟨-, he⟩ := Run.call_inv hcall
  simp only [respond, answer, Prod.mk.injEq] at he
  exact ⟨he.2 ▸ unchanged_tick w _, order, rfl⟩

theorem failsByCall_call {go env} (call : Call) : FailsByCall go env (Svc.call call) := by
  intro w calls r w' h hc
  obtain ⟨rfl, _⟩ := call_inv h
  have hok : Except.isOk r = true := hc ⟨call, r⟩ (by simp)
  cases r with
  | ok a => exact ⟨a, rfl⟩
  | error e => cases hok

/-- The calls of a channel do to the view what they are for. -/
structure Channel.Meets (go : SliceSort) (env : Nat → Choice) (ch : Channel α) (v : View α β) : Prop where
  wire_node : ∀ {i j}, v.wire i = v.wire j → ch.nodeID i = ch.nodeID j
  root_nil : ch.root [] = (buildMerkleTree []).hash
  root_ne : ∀ l, ch.root l ≠ ""
  stored : ∀ {w w' : World}, w'.store = w.store → v.stored w' = v.stored w
  getRoot : ∀ {dm w calls r w'}, Runs go env (ch.getRoot dm) w calls r w' → ∃ p, Sent w w' dm.endpoint p ∧
    v.cache p = v.cache (w.process dm) ∧ ∀ root, r = .ok root → v.RootOf (v.cache (w.process dm)) root
  clear : ∀ {dm w calls r w'}, Runs go env (ch.clear dm) w calls r w' → ∃ p, Sent w w' dm.endpoint p ∧
    (v.cache p = [] ∨ v.cache p = v.cache (w.process dm) ∧ r ≠ .ok ())
  send : ∀ {dm l w calls r w'}, Runs go env (ch.send dm l) w calls r w' → ∃ p, Sent w w' dm.endpoint p ∧
    (v.cache p = l.map v.wire ∨ v.cache p = v.cache (w.process dm) ∧ r ≠ .ok ())
  markSent : ∀ {ids w calls r w'}, Runs go env (ch.markSent ids) w calls r w' → v.Frame w w' fun _ => False
  getRoot_fails : ∀ dm, FailsByCall go env (ch.getRoot dm)
  clear_fails : ∀ dm, FailsByCall go env (ch.clear dm)
  send_fails : ∀ dm l, FailsByCall go env (ch.send dm l)

variable {go : SliceSort} {env : Nat → Choice} {ch : Channel α} {v : View α β} {w w' : World} {calls : Calls}

theorem Clean.left {calls1 calls2} (h : Clean (calls1 ++ calls2)) : Clean calls1 :=
  fun e he => h e (mem_append_left _ he)

theorem Clean.right {calls1 calls2} (h : Clean (calls1 ++ calls2)) : Clean calls2 :=
  fun e he => h e (mem_append_right _ he)

theorem Channel.Meets.frame_sent (hm : ch.Meets go env v) {e p} (h : Sent w w' e p) :
    v.Frame w w' (· = e) :=
  ⟨h.cluster, by rw [hm.stored h.store], fun e' he => by rw [h.other he]⟩

/-- What is stored for a node is the same on both sides of a frame, as far as
decision makers are told. -/
theorem Channel.Meets.stored_iff (hm : ch.Meets go env v) {P} (h : v.Frame w w' P) (node : String)
    (x : β) : (∃ i ∈ v.stored w', ch.nodeID i = node ∧ v.wire i = x) ↔
      ∃ i ∈ v.stored w, ch.nodeID i = node ∧ v.wire i = x := by
  have found : ∀ {l l' : List α}, l.map v.core = l'.map v.core →
      (∃ i ∈ l, ch.nodeID i = node ∧ v.wire i = x) → ∃ i ∈ l', ch.nodeID i = node ∧ v.wire i = x := by
    rintro l l' hl ⟨i, hi, hn, rfl⟩
    have hmem := mem_map_of_mem (f := v.core) hi
    rw [hl] at hmem
    obtain ⟨j, hj, hcore⟩ := mem_map.mp hmem
    have hwire : v.wire j = v.wire i := congrArg Prod.fst hcore
    exact ⟨j, hj, (hm.wire_node hwire).trans hn, hwire⟩
  exact ⟨found h.core, found h.core.symm⟩

/-! ## Resync -/

variable {intents : List α} {dms : List DecisionMakerPod}

section

variable (hm : ch.Meets go env v)
include hm

/-- The root expected for a node is the one over its intents, the empty list
included. -/
theorem expectedRoot_eq (intents : List α) (node : String) :
    (if ((expectedRootsByNode ch intents).lookup node).getD "" = "" then (buildMerkleTree []).hash
      else ((expectedRootsByNode ch intents).lookup node).getD "") =
      ch.root (intents.filter fun i => ch.nodeID i = node) := by
  rw [expectedRootsByNode, lookup_foldl_insert]
  by_cases hn : node ∈ groupBy ch.nodeID id intents
  · obtain ⟨l, hl⟩ := Option.isSome_iff_exists.mp (lookup_isSome.mpr hn)
    have hg := getD_groupBy ch.nodeID id intents node
    rw [hl, Option.getD_some, map_id] at hg
    rw [hl, Option.map_some, Option.getD_some, if_neg (hm.root_ne l), hg]
  · have hnone : (groupBy ch.nodeID id intents).lookup node = none := lookup_eq_none.mpr hn
    have hg := getD_groupBy ch.nodeID id intents node
    rw [hnone, Option.getD_none, map_id] at hg
    rw [hnone, Option.map_none, Option.getD_none, if_pos rfl, ← hg, hm.root_nil]

/-- One decision maker, in a run without failed calls. -/
theorem resyncDM_ok {dm} (h : Runs go env (resyncDM ch intents dm) w calls (.ok ()) w') (hc : Clean calls)
    (hroot : dm.state = .online → v.RootOf (v.cache (w.process dm)) (ch.root (intents.filter fun i => ch.nodeID i = dm.nodeID)) → ∀ x, x ∈ v.cache (w.process dm) ↔ ∃ i ∈ intents, ch.nodeID i = dm.nodeID ∧ v.wire i = x) :
    v.Frame w w' (· = dm.endpoint) ∧ (dm.state = .online →
      ∀ x, x ∈ v.cache (w'.process dm) ↔ ∃ i ∈ intents, ch.nodeID i = dm.nodeID ∧ v.wire i = x) := by
  rw [resyncDM] at h
  split at h
  · rename_i hoff
    obtain ⟨_, _, rfl⟩ := pure_ok_inv h
    exact ⟨⟨rfl, rfl, fun _ _ => rfl⟩, fun hon => absurd hon hoff⟩
  rename_i hon
  rw [not_not] at hon
  obtain ⟨a, w1, _, _, h1, h2, rfl⟩ := attempt_bind_inv h
  obtain ⟨p, hs, hcache, hrootOf⟩ := hm.getRoot h1
  obtain ⟨rootHash, rfl⟩ := hm.getRoot_fails dm h1 hc.left
  have hf := hm.frame_sent hs
  have hp : v.cache (w1.process dm) = v.cache (w.process dm) := by rw [World.process, hs.self, hcache]
  simp only [expectedRoot_eq hm, getD_groupBy, map_id] at h2
  split at h2
  · -- The root read is the one expected.
    rename_i heq
    obtain ⟨_, _, rfl⟩ := pure_ok_inv h2
    refine ⟨hf, fun _ => ?_⟩
    rw [hp]
    exact hroot hon (heq ▸ hrootOf rootHash rfl)
  split at h2
  · rename_i hnil
    obtain ⟨r, _, _, _, h3, h4, rfl⟩ := attempt_bind_inv h2
    obtain ⟨_, _, rfl⟩ := pure_ok_inv h4
    obtain ⟨⟨⟩, rfl⟩ := hm.clear_fails dm h3 hc.right.left
    obtain ⟨p', hs', hempty | ⟨_, hne⟩⟩ := hm.clear h3
    · refine ⟨(hf.trans (hm.frame_sent hs')).mono fun e he => he.elim id id, fun _ x => ?_⟩
      rw [World.process, hs'.self, hempty]
      constructor
      · intro hx
        cases hx
      · rintro ⟨i, hi, hn, _⟩
        have hmem : i ∈ intents.filter fun i => ch.nodeID i = dm.nodeID := mem_filter.mpr ⟨hi, by simpa using hn⟩
        rw [isEmpty_iff.mp hnil] at hmem
        cases hmem
    · exact (hne rfl).elim
  · obtain ⟨r, _, _, _, h3, h4, rfl⟩ := attempt_bind_inv h2
    obtain ⟨⟨⟩, rfl⟩ := hm.send_fails dm _ h3 hc.right.left
    obtain ⟨p', hs', hsent | ⟨_, hne⟩⟩ := hm.send h3
    · obtain ⟨r', _, _, _, h5, h6, rfl⟩ := attempt_bind_inv h4
      obtain ⟨_, _, rfl⟩ := pure_ok_inv h6
      have hmark := hm.markSent h5
      refine ⟨((hf.trans (hm.frame_sent hs')).trans hmark).mono fun e he => by simpa using he, fun _ x => ?_⟩
      rw [World.process, hmark.others _ id, hs'.self, hsent]
      simp [and_assoc]
    · exact (hne rfl).elim

/-- **Resync converges.** Every online decision maker of the list ends with
the records of its node, the skipped ones included. -/
theorem resyncDMs_converge (hdistinct : (dms.map DecisionMakerPod.endpoint).Nodup)
    (h : Runs go env (resyncDMs ch dms intents) w calls (.ok ()) w') (hc : Clean calls)
    (hroot : ∀ dm ∈ dms, dm.state = .online → v.RootOf (v.cache (w.process dm)) (ch.root (intents.filter fun i => ch.nodeID i = dm.nodeID)) → ∀ x, x ∈ v.cache (w.process dm) ↔ ∃ i ∈ intents, ch.nodeID i = dm.nodeID ∧ v.wire i = x) :
    v.Frame w w' (· ∈ dms.map DecisionMakerPod.endpoint) ∧ ∀ dm ∈ dms, dm.state = .online →
      ∀ x, x ∈ v.cache (w'.process dm) ↔ ∃ i ∈ intents, ch.nodeID i = dm.nodeID ∧ v.wire i = x := by
  induction dms generalizing w calls with
  | nil =>
    obtain ⟨_, _, rfl⟩ := pure_ok_inv h
    exact ⟨⟨rfl, rfl, fun _ _ => rfl⟩, nofun⟩
  | cons dm dms ih =>
    rw [map_cons, nodup_cons] at hdistinct
    rw [resyncDMs, forM_cons] at h
    obtain ⟨⟨⟩, w1, _, _, h1, h2, rfl⟩ := ok_bind_inv h
    obtain ⟨hf, hdone⟩ := resyncDM_ok hm h1 hc.left (hroot dm (by simp))
    -- The others are as they were when their turn comes, and this one stays as it is now.
    have hsame : ∀ dm' ∈ dms, v.cache (w1.process dm') = v.cache (w.process dm') := fun dm' hdm' =>
      hf.others _ fun he => hdistinct.1 (he ▸ mem_map_of_mem hdm')
    obtain ⟨hf', hrest⟩ := ih hdistinct.2 h2 hc.right fun dm' hdm' hon => by
      rw [hsame dm' hdm']
      exact hroot dm' (mem_cons_of_mem _ hdm') hon
    refine ⟨(hf.trans hf').mono fun e he => ?_, fun dm' hdm' hon => ?_⟩
    · rw [map_cons, mem_cons]
      exact he
    · rcases mem_cons.mp hdm' with rfl | hdm'
      · rw [World.process, hf'.others _ hdistinct.1]
        exact hdone hon
      · exact hrest dm' hdm' hon

end

/-! ## Delivery -/

/-- What the groups hold once the pairs have been gone through. -/
structure HostGroups.Of (ch : Channel α) (pairs : List (DecisionMakerPod × α)) (groups : HostGroups α) : Prop where
  payload : ∀ host i, i ∈ (groups.intents.lookup host).getD [] ↔
    ∃ dm, (dm, i) ∈ pairs ∧ dm.host = host ∧ ch.nodeID i = dm.nodeID
  hosts : ∀ host, host ∈ groups.intents ↔ ∃ dm i, (dm, i) ∈ pairs ∧ dm.host = host ∧ ch.nodeID i = dm.nodeID
  targets : ∀ host, host ∈ groups.dms ↔ host ∈ groups.intents
  target : ∀ host dm, groups.dms.lookup host = some dm →
    ∃ i, (dm, i) ∈ pairs ∧ dm.host = host ∧ ch.nodeID i = dm.nodeID

variable {groups : HostGroups α}

theorem HostGroups.Of.add {pairs} (h : groups.Of ch pairs) (dm : DecisionMakerPod)
    (i : α) : (groups.add ch dm i).Of ch (pairs ++ [(dm, i)]) := by
  rw [HostGroups.add]
  split
  · rename_i hn
    refine ⟨fun host j => ?_, fun host => ?_, fun host => ?_, fun host dm' hl => ?_⟩
    · simp only [getD_appendAt, mem_append, h.payload]
      constructor
      · rintro (⟨dm', hp, hr⟩ | hj)
        · exact ⟨dm', .inl hp, hr⟩
        · split at hj
          · rename_i hh
            obtain rfl := mem_singleton.mp hj
            exact ⟨dm, .inr (by simp), hh.symm, hn⟩
          · cases hj
      · rintro ⟨dm', hp | hp, hr⟩
        · exact .inl ⟨dm', hp, hr⟩
        · cases mem_singleton.mp hp
          exact .inr (by simp [hr.1])
    · simp only [appendAt, mem_insert, h.hosts, mem_append]
      constructor
      · rintro (rfl | ⟨dm', j, hp, hr⟩)
        · exact ⟨dm, i, .inr (by simp), rfl, hn⟩
        · exact ⟨dm', j, .inl hp, hr⟩
      · rintro ⟨dm', j, hp | hp, hr⟩
        · exact .inr ⟨dm', j, hp, hr⟩
        · cases mem_singleton.mp hp
          exact .inl hr.1.symm
    · simp [appendAt, h.targets]
    · by_cases hh : host = dm.host
      · subst hh
        rw [lookup_insert] at hl
        cases hl
        exact ⟨i, by simp, rfl, hn⟩
      · rw [lookup_insert_ne hh] at hl
        obtain ⟨j, hp, hr⟩ := h.target host dm' hl
        exact ⟨j, mem_append_left _ hp, hr⟩
  · -- The intent is on another node: no clause is about the new pair.
    rename_i hn
    have hpair : ∀ {host : String} {dm' : DecisionMakerPod} {j : α},
        ((dm', j) ∈ pairs ++ [(dm, i)] ∧ dm'.host = host ∧ ch.nodeID j = dm'.nodeID) ↔
          ((dm', j) ∈ pairs ∧ dm'.host = host ∧ ch.nodeID j = dm'.nodeID) := by
      intro host dm' j
      constructor
      · rintro ⟨hp, hh, hr⟩
        rcases mem_append.mp hp with hp | hp
        · exact ⟨hp, hh, hr⟩
        · cases mem_singleton.mp hp
          exact (hn hr).elim
      · rintro ⟨hp, hr⟩
        exact ⟨mem_append_left _ hp, hr⟩
    refine ⟨fun host j => ?_, fun host => ?_, h.targets, fun host dm' hl => ?_⟩
    · simp only [hpair]
      exact h.payload host j
    · simp only [hpair]
      exact h.hosts host
    · simp only [hpair]
      exact h.target host dm' hl

theorem groupByHost_of (ch : Channel α) (dms : List DecisionMakerPod) (intents : List α) :
    (groupByHost ch dms intents).Of ch (dms.flatMap fun dm => intents.map fun i => (dm, i)) := by
  have inner : ∀ (dm : DecisionMakerPod) (is : List α) (pairs : List (DecisionMakerPod × α)) (groups : HostGroups α),
      groups.Of ch pairs → (is.foldl (fun groups i => groups.add ch dm i) groups).Of ch
        (pairs ++ is.map fun i => (dm, i)) := by
    intro dm is
    induction is with
    | nil =>
      intro pairs groups h
      simpa using h
    | cons i is ih =>
      intro pairs groups h
      simpa using ih _ _ (h.add dm i)
  have outer : ∀ (dms : List DecisionMakerPod) (pairs : List (DecisionMakerPod × α)) (groups : HostGroups α),
      groups.Of ch pairs → (dms.foldl (fun groups dm => intents.foldl (fun groups i => groups.add ch dm i) groups)
        groups).Of ch (pairs ++ dms.flatMap fun dm => intents.map fun i => (dm, i)) := by
    intro dms
    induction dms with
    | nil =>
      intro pairs groups h
      simpa using h
    | cons dm dms ih =>
      intro pairs groups h
      simpa using ih _ _ (inner dm intents _ _ h)
  exact outer dms [] {} ⟨by simp, by simp, by simp, by simp⟩

theorem svc_wrapping_inv {γ : Type} {message : String} {x : Svc γ} {r : Except Error γ}
    (h : Runs go env (Svc.wrapping message x) w calls r w') :
    (∃ a, r = .ok a ∧ Runs go env x w calls (.ok a) w') ∨ ∃ e e', r = .error e ∧ Runs go env x w calls (.error e') w' := by
  rcases mapError_inv h with h' | ⟨e, he, h'⟩
  · exact .inl h'
  · exact .inr ⟨_, e, he, h'⟩

/-- The endpoint a host's group is sent to. -/
def HostGroups.Target (groups : HostGroups α) (e : String × Nat) : Prop :=
  ∃ dm, groups.dms.lookup e.1 = some dm ∧ dm.endpoint = e

/-- What is sent there. -/
def HostGroups.sent (groups : HostGroups α) (v : View α β) (e : String × Nat) : List β :=
  ((groups.intents.lookup e.1).getD []).map v.wire

/-- The caches after some groups have been sent, or tried to be. -/
structure HostGroups.Progress (groups : HostGroups α) (v : View α β) (w w' : World) : Prop where
  frame : v.Frame w w' fun _ => True
  caches : ∀ e, v.cache (w'.processes e) = v.cache (w.processes e) ∨
    (groups.Target e ∧ v.cache (w'.processes e) = groups.sent v e)

theorem HostGroups.Progress.refl (groups : HostGroups α) (v : View α β) (w : World) : groups.Progress v w w :=
  ⟨⟨rfl, rfl, fun _ _ => rfl⟩, fun _ => .inl rfl⟩

theorem HostGroups.Progress.trans {w1} (h : groups.Progress v w w1) (h' : groups.Progress v w1 w') :
    groups.Progress v w w' := by
  refine ⟨(h.frame.trans h'.frame).mono fun _ _ => trivial, fun e => ?_⟩
  rcases h'.caches e with he | he
  · rw [he]
    exact h.caches e
  · exact .inr he

variable {r : Except Error Unit} {sendText markText : String}

section

variable (hm : ch.Meets go env v)
include hm

theorem deliverGroup_inv (hg : ∀ host dm, groups.dms.lookup host = some dm → dm.host = host) {host}
    (hl : groups.intents.lookup host = some intents)
    (h : Runs go env (deliverGroup ch groups sendText markText host intents) w calls r w') :
    groups.Progress v w w' ∧ (r = .ok () → ∀ dm, groups.dms.lookup host = some dm →
      v.cache (w'.process dm) = groups.sent v dm.endpoint) := by
  rw [deliverGroup] at h
  cases hd : groups.dms.lookup host with
  | none =>
    rw [hd] at h
    obtain ⟨_, _, rfl⟩ := pure_ok_inv h
    exact ⟨.refl _ _ _, fun _ dm hdm => by cases hdm⟩
  | some dm =>
    rw [hd] at h
    simp only at h
    have hhost := hg host dm hd
    have htarget : groups.Target dm.endpoint := ⟨dm, by rw [← hd, ← hhost]; rfl, rfl⟩
    have hsent : groups.sent v dm.endpoint = intents.map v.wire := by
      rw [HostGroups.sent, show dm.endpoint.1 = host from hhost, hl, Option.getD_some]
    -- The send itself, whatever its answer.
    have hsend : ∀ {r' w1 calls1}, Runs go env (ch.send dm intents) w calls1 r' w1 → groups.Progress v w w1 ∧
        (r' = .ok () → v.cache (w1.process dm) = groups.sent v dm.endpoint) := by
      intro r' w1 calls1 h1
      obtain ⟨p, hs, hp⟩ := hm.send h1
      refine ⟨⟨(hm.frame_sent hs).mono fun _ _ => trivial, fun e => ?_⟩, fun hr => ?_⟩
      · by_cases he : e = dm.endpoint
        · subst he
          rw [hs.self, hsent]
          rcases hp with hp | ⟨hp, _⟩
          · exact .inr ⟨htarget, hp⟩
          · exact .inl hp
        · exact .inl (by rw [hs.other he])
      · rw [World.process, hs.self, hsent]
        rcases hp with hp | ⟨_, hne⟩
        · exact hp
        · exact (hne hr).elim
    rcases except_bind_inv h with ⟨e, rfl, h1⟩ | ⟨⟨⟩, w1, calls1, _, h1, h2, rfl⟩
    · rcases svc_wrapping_inv h1 with ⟨_, he, _⟩ | ⟨_, _, _, h1⟩
      · cases he
      · exact ⟨(hsend h1).1, fun hr => by cases hr⟩
    · obtain ⟨hprog, hok⟩ := hsend (mapError_ok h1)
      have hmark : v.Frame w1 w' fun _ => False := by
        rcases svc_wrapping_inv h2 with ⟨_, _, h2⟩ | ⟨_, _, _, h2⟩
        · exact hm.markSent h2
        · exact hm.markSent h2
      refine ⟨hprog.trans ⟨hmark.mono fun _ hf => hf.elim, fun e => .inl (hmark.others e id)⟩, fun _ dm' hdm' => ?_⟩
      cases hdm'
      rw [World.process, hmark.others _ id]
      exact hok rfl

theorem deliverGroups_inv (hg : ∀ host dm, groups.dms.lookup host = some dm → dm.host = host)
    {l : List ((_ : String) × List α)} (hl : ∀ group ∈ l, groups.intents.lookup group.1 = some group.2)
    (h : Runs go env (forM l fun group => deliverGroup ch groups sendText markText group.1 group.2) w calls r w') :
    groups.Progress v w w' ∧ (r = .ok () → ∀ group ∈ l, ∀ dm, groups.dms.lookup group.1 = some dm →
      v.cache (w'.process dm) = groups.sent v dm.endpoint) := by
  induction l generalizing w calls with
  | nil =>
    obtain ⟨_, _, rfl⟩ := pure_ok_inv h
    exact ⟨.refl _ _ _, nofun⟩
  | cons group l ih =>
    rw [forM_cons] at h
    rcases except_bind_inv h with ⟨e, rfl, h1⟩ | ⟨⟨⟩, _, _, _, h1, h2, rfl⟩
    · exact ⟨(deliverGroup_inv hm hg (hl group (by simp)) h1).1, nofun⟩
    · obtain ⟨hprog, hok⟩ := deliverGroup_inv hm hg (hl group (by simp)) h1
      obtain ⟨hprog', hok'⟩ := ih (fun g hgl => hl g (mem_cons_of_mem _ hgl)) h2
      refine ⟨hprog.trans hprog', fun hr g hgl dm hd => ?_⟩
      rcases mem_cons.mp hgl with rfl | hgl
      · -- Later groups send this host's group again or leave it alone.
        rcases hprog'.caches dm.endpoint with he | ⟨_, he⟩
        · rw [World.process, he]
          exact hok rfl dm hd
        · exact he
      · exact hok' hr g hgl dm hd

theorem deliver_progress (h : Runs go env (deliver ch dms intents sendText markText) w calls r w') :
    (groupByHost ch dms intents).Progress v w w' ∧ (r = .ok () → ∀ host dm,
      (groupByHost ch dms intents).dms.lookup host = some dm →
      v.cache (w'.process dm) = (groupByHost ch dms intents).sent v dm.endpoint) := by
  have hof := groupByHost_of ch dms intents
  obtain ⟨order, w1, hu, calls', h'⟩ : ∃ order w1, Unchanged w w1 ∧ ∃ calls', Runs go env
      (forM (reorder order (groupByHost ch dms intents).intents.entries) fun group =>
        deliverGroup ch (groupByHost ch dms intents) sendText markText group.1 group.2) w1 calls' r w' := by
    rcases except_bind_inv h with ⟨e, _, h1⟩ | ⟨order, w1, _, calls2, h1, h2, _⟩
    · obtain ⟨_, he⟩ := (mapOrder_inv h1).2
      cases he
    · exact ⟨order, w1, (mapOrder_inv h1).1, calls2, h2⟩
  obtain ⟨hprog, hok⟩ := deliverGroups_inv hm (fun host dm hl => (hof.target host dm hl).choose_spec.2.1)
    (fun group hgroup => mem_lookup_iff.mpr (mem_reorder.mp hgroup)) h'
  refine ⟨.trans ⟨⟨hu.cluster, by rw [hm.stored hu.store], fun _ _ => by rw [hu.processes]⟩,
    fun e => .inl (by rw [hu.processes])⟩ hprog, fun hr host dm hl => ?_⟩
  obtain ⟨l, hl'⟩ := Option.isSome_iff_exists.mp (lookup_isSome.mpr
    ((hof.targets host).mp (lookup_isSome.mp (hl ▸ rfl))))
  exact hok hr ⟨host, l⟩ (mem_reorder.mpr (mem_lookup_iff.mp hl')) dm hl

/-- **What a push does.** A cache is left alone, or is replaced by the pushed
intents on the nodes of its host. -/
theorem deliver_inv (h : Runs go env (deliver ch dms intents sendText markText) w calls r w') :
    v.Frame w w' (fun _ => True) ∧ ∀ e, v.cache (w'.processes e) = v.cache (w.processes e) ∨
      ((∃ dm ∈ dms, dm.endpoint = e ∧ ∃ i ∈ intents, ch.nodeID i = dm.nodeID) ∧
        ∀ x, x ∈ v.cache (w'.processes e) ↔
          ∃ i ∈ intents, v.wire i = x ∧ ∃ dm ∈ dms, dm.host = e.1 ∧ ch.nodeID i = dm.nodeID) := by
  have hof := groupByHost_of ch dms intents
  obtain ⟨hprog, -⟩ := deliver_progress hm h
  refine ⟨hprog.frame, fun e => (hprog.caches e).imp_right fun ⟨htarget, hsent⟩ => ?_⟩
  obtain ⟨dm, hl, rfl⟩ := htarget
  obtain ⟨i, hpair, _, hn⟩ := hof.target _ dm hl
  simp only [mem_flatMap, mem_map, Prod.mk.injEq] at hpair
  obtain ⟨dm', hdm', i', hi', rfl, rfl⟩ := hpair
  refine ⟨⟨dm', hdm', rfl, i', hi', hn⟩, fun x => ?_⟩
  rw [hsent, HostGroups.sent, mem_map]
  simp only [hof.payload, mem_flatMap, mem_map, Prod.mk.injEq]
  constructor
  · rintro ⟨j, ⟨dm, ⟨dm1, hdm1, j1, hj1, rfl, rfl⟩, hhost, hnode⟩, rfl⟩
    exact ⟨j1, hj1, rfl, dm1, hdm1, hhost, hnode⟩
  · rintro ⟨j, hj, rfl, dm, hdm, hhost, hnode⟩
    exact ⟨j, ⟨dm, ⟨dm, hdm, j, hj, rfl, rfl⟩, hhost, hnode⟩, rfl⟩

/-- The only process of its host is sent the host's group. -/
theorem deliver_ok (h : Runs go env (deliver ch dms intents sendText markText) w calls (.ok ()) w') {e}
    (honly : ∀ dm ∈ dms, dm.host = e.1 → dm.endpoint = e)
    (hi : ∃ dm ∈ dms, dm.host = e.1 ∧ ∃ i ∈ intents, ch.nodeID i = dm.nodeID) (x : β) :
    x ∈ v.cache (w'.processes e) ↔
      ∃ i ∈ intents, v.wire i = x ∧ ∃ dm ∈ dms, dm.host = e.1 ∧ ch.nodeID i = dm.nodeID := by
  have hof := groupByHost_of ch dms intents
  obtain ⟨-, hok⟩ := deliver_progress hm h
  have hpair : ∀ {dm j}, (dm, j) ∈ (dms.flatMap fun dm => intents.map fun i => (dm, i)) ↔ dm ∈ dms ∧ j ∈ intents := by
    simp
  -- The host has a group, and its target can only be at this endpoint.
  obtain ⟨dm, hdm, hhost, i, hi, hn⟩ := hi
  obtain ⟨dm', hl⟩ := Option.isSome_iff_exists.mp (lookup_isSome.mpr
    ((hof.targets e.1).mpr ((hof.hosts e.1).mpr ⟨dm, i, hpair.mpr ⟨hdm, hi⟩, hhost, hn⟩)))
  obtain ⟨_, hp, hhost', _⟩ := hof.target _ dm' hl
  have he := honly dm' (hpair.mp hp).1 hhost'
  have hsent := hok rfl _ _ hl
  rw [World.process, he] at hsent
  rw [hsent, HostGroups.sent, mem_map]
  simp only [hof.payload, hpair]
  constructor
  · rintro ⟨j, ⟨dm, ⟨hdm, hj⟩, hh, hnode⟩, rfl⟩
    exact ⟨j, hj, rfl, dm, hdm, hh, hnode⟩
  · rintro ⟨j, hj, rfl, dm, hdm, hh, hnode⟩
    exact ⟨j, ⟨dm, ⟨hdm, hj⟩, hh, hnode⟩, rfl⟩

end

/-! ## Pushes, seen from one decision maker -/

/-- The decision makers on the nodes include one at the endpoint. -/
def World.Reaches (w : World) (nodes : List String) (e : String × Nat) : Prop :=
  ∃ dm ∈ w.cluster.decisionMakers, dm.nodeID ∈ nodes ∧ dm.endpoint = e

/-- And none at another port of that host. -/
def World.SoleOnHost (w : World) (nodes : List String) (e : String × Nat) : Prop :=
  ∀ dm ∈ w.cluster.decisionMakers, dm.nodeID ∈ nodes → dm.host = e.1 → dm.endpoint = e

theorem World.Reaches.mono {nodes nodes' e} (h : w.Reaches nodes e)
    (hsub : ∀ node ∈ nodes, node ∈ nodes') : w.Reaches nodes' e := by
  obtain ⟨dm, hdm, hnode, he⟩ := h
  exact ⟨dm, hdm, hsub _ hnode, he⟩

instance (w : World) (nodes : List String) (e : String × Nat) : Decidable (w.Reaches nodes e) :=
  inferInstanceAs (Decidable (∃ dm ∈ w.cluster.decisionMakers, dm.nodeID ∈ nodes ∧ dm.endpoint = e))

instance (w : World) (nodes : List String) (e : String × Nat) : Decidable (w.SoleOnHost nodes e) :=
  inferInstanceAs (Decidable (∀ dm ∈ w.cluster.decisionMakers, dm.nodeID ∈ nodes → dm.host = e.1 → dm.endpoint = e))

/-- What a push of `intents` to the decision makers on their nodes has done. -/
structure View.Pushed (v : View α β) (ch : Channel α) (nodes : List String) (intents : List α) (w w' : World) : Prop where
  frame : v.Frame w w' fun _ => True
  /-- A decision maker not reached is left alone. -/
  others : ∀ dm, ¬w.Reaches nodes dm.endpoint → v.cache (w'.process dm) = v.cache (w.process dm)
  /-- One reached is left alone, or has the intents of its node. -/
  kept : ∀ dm ∈ w.cluster.decisionMakers, v.cache (w'.process dm) = v.cache (w.process dm) ∨
    ∀ i ∈ intents, ch.nodeID i = dm.nodeID → v.wire i ∈ v.cache (w'.process dm)

section

variable (hm : ch.Meets go env v) {nodes : List String} {intents : List α} {dms : List DecisionMakerPod}
  (hnodes : ∀ node, node ∈ nodes ↔ ∃ i ∈ intents, ch.nodeID i = node)
  (hdms : ∀ dm, dm ∈ dms ↔ dm ∈ w.cluster.decisionMakers ∧ dm.nodeID ∈ nodes)
include hm hnodes hdms

theorem pushed_of_deliver (h : Runs go env (deliver ch dms intents sendText markText) w calls r w') :
    v.Pushed ch nodes intents w w' := by
  obtain ⟨hframe, hcaches⟩ := deliver_inv hm h
  refine ⟨hframe, fun dm hnot => ?_, fun dm hdm => (hcaches dm.endpoint).imp_right fun ⟨_, hsent⟩ => ?_⟩
  · rcases hcaches dm.endpoint with hsame | ⟨⟨dm', hdm', he, _⟩, _⟩
    · exact hsame
    · obtain ⟨hcluster, hnode⟩ := (hdms dm').mp hdm'
      exact (hnot ⟨dm', hcluster, hnode, he⟩).elim
  · intro i hi hn
    exact (hsent _).mpr ⟨i, hi, rfl, dm, (hdms dm).mpr ⟨hdm, (hnodes _).mpr ⟨i, hi, hn⟩⟩, rfl, hn⟩

/-- A successful push replaces what the only process of its host held. -/
theorem replaced_of_deliver (h : Runs go env (deliver ch dms intents sendText markText) w calls (.ok ()) w') {dm}
    (hdm : dm ∈ w.cluster.decisionMakers) (hto : w.Reaches nodes dm.endpoint) (hsole : w.SoleOnHost nodes dm.endpoint) :
    (∀ x ∈ v.cache (w'.process dm), ∃ i ∈ intents, v.wire i = x) ∧
      ∀ i ∈ intents, ch.nodeID i = dm.nodeID → v.wire i ∈ v.cache (w'.process dm) := by
  obtain ⟨dm', hdm', hnode, he⟩ := hto
  have hhost : dm'.host = dm.host := congrArg Prod.fst he
  obtain ⟨i, hi, hn⟩ := (hnodes _).mp hnode
  have hsent := deliver_ok hm h (e := dm.endpoint) (fun dm1 hdm1 hh => by
      obtain ⟨hcluster, hnode1⟩ := (hdms dm1).mp hdm1
      exact hsole dm1 hcluster hnode1 hh)
    ⟨dm', (hdms dm').mpr ⟨hdm', hnode⟩, hhost, i, hi, hn⟩
  constructor
  · intro x hx
    obtain ⟨j, hj, hw, _⟩ := (hsent x).mp hx
    exact ⟨j, hj, hw⟩
  · intro j hj hnj
    exact (hsent _).mpr ⟨j, hj, rfl, dm, (hdms dm).mpr ⟨hdm, (hnodes _).mpr ⟨j, hj, hnj⟩⟩, rfl, hnj⟩

end

/-- A push that has succeeded: where it could go to one process only, that
process holds what was pushed and nothing else. -/
structure View.PushDone (v : View α β) (ch : Channel α) (nodes : List String) (intents : List α) (w w' : World) : Prop
    extends v.Pushed ch nodes intents w w' where
  replaced : ∀ dm ∈ w.cluster.decisionMakers, w.Reaches nodes dm.endpoint → w.SoleOnHost nodes dm.endpoint →
    (∀ x ∈ v.cache (w'.process dm), ∃ i ∈ intents, v.wire i = x) ∧
      ∀ i ∈ intents, ch.nodeID i = dm.nodeID → v.wire i ∈ v.cache (w'.process dm)

theorem View.Pushed.of_unchanged (hm : ch.Meets go env v) (nodes : List String) (intents : List α) (h : Unchanged w w') :
    v.Pushed ch nodes intents w w' := by
  have hsame : ∀ dm, v.cache (w'.process dm) = v.cache (w.process dm) := fun dm => by rw [process_of_unchanged h]
  exact ⟨⟨h.cluster, by rw [hm.stored h.store], fun e _ => by rw [h.processes]⟩, fun dm _ => hsame dm,
    fun dm _ => .inl (hsame dm)⟩

theorem View.Pushed.after (hm : ch.Meets go env v) {nodes intents w1} (hu : Unchanged w w1)
    (h : v.Pushed ch nodes intents w1 w') : v.Pushed ch nodes intents w w' where
  frame := ⟨h.frame.cluster.trans hu.cluster, by rw [h.frame.core, hm.stored hu.store], fun e he => (he trivial).elim⟩
  others dm hnot := by
    rw [← process_of_unchanged hu]
    refine h.others dm ?_
    rwa [Reaches, hu.cluster]
  kept dm hdm := by
    rw [← process_of_unchanged hu]
    exact h.kept dm (hu.cluster ▸ hdm)

/-- The decision makers on the nodes are asked for and, if there are any, the
intents delivered. -/
theorem pushDone (hm : ch.Meets go env v) {nodes w1} (hnodes : ∀ node, node ∈ nodes ↔ ∃ i ∈ intents, ch.nodeID i = node)
    (hu : Unchanged w w1) (hdms : ∀ dm, dm ∈ dms ↔ dm ∈ w.cluster.decisionMakers ∧ dm.nodeID ∈ nodes)
    (h : (dms = [] ∧ w' = w1) ∨ ∃ calls sendText markText, Runs go env (deliver ch dms intents sendText markText) w1 calls (.ok ()) w') :
    v.PushDone ch nodes intents w w' := by
  rcases h with ⟨rfl, rfl⟩ | ⟨calls, sendText, markText, h⟩
  · refine ⟨.of_unchanged hm nodes intents hu, fun dm _ hto => ?_⟩
    obtain ⟨dm', hdm', hnode, _⟩ := hto
    cases (hdms dm').mpr ⟨hdm', hnode⟩
  · have hdms1 : ∀ dm, dm ∈ dms ↔ dm ∈ w1.cluster.decisionMakers ∧ dm.nodeID ∈ nodes := by
      rw [hu.cluster]
      exact hdms
    refine ⟨(pushed_of_deliver hm hnodes hdms1 h).after hm hu, fun dm hdm hto hsole => ?_⟩
    refine replaced_of_deliver hm hnodes hdms1 h (hu.cluster ▸ hdm) ?_ ?_
    · rwa [Reaches, hu.cluster]
    · rwa [SoleOnHost, hu.cluster]

/-! ## Other owners' intents -/

/-- The intents of every owner but `id` are held where they apply. -/
def View.OthersInForce (v : View α β) (node : α → String) (w : World) (id : ObjectID) : Prop :=
  ∀ i ∈ v.stored w, v.owner i ≠ id → ∀ dm ∈ w.cluster.decisionMakers, dm.state = .online → dm.nodeID = node i →
    v.wire i ∈ v.cache (w.process dm)

/-- Whether they are can be told from the intents stored before, if those of
other owners are still the same. -/
theorem View.othersInForce_iff {node} (hnode : ∀ {i j}, v.wire i = v.wire j → node i = node j) (w w1 : World)
    (id : ObjectID) (hcore : (v.stored w').map v.core = (v.stored w1).map v.core)
    (hothers : ∀ i, v.owner i ≠ id → (i ∈ v.stored w1 ↔ i ∈ v.stored w)) (hcluster : w'.cluster = w.cluster) :
    v.OthersInForce node w' id ↔ ∀ i ∈ v.stored w, v.owner i ≠ id → ∀ dm ∈ w.cluster.decisionMakers,
      dm.state = .online → dm.nodeID = node i → v.wire i ∈ v.cache (w'.process dm) := by
  have hfind : ∀ {l l' : List α}, l.map v.core = l'.map v.core → ∀ i ∈ l, ∃ j ∈ l', v.core j = v.core i :=
    fun h i hi => mem_map.mp (h ▸ mem_map_of_mem hi)
  rw [View.OthersInForce, hcluster]
  constructor
  · intro h i hi hid
    obtain ⟨j, hj, hji⟩ := hfind hcore.symm i ((hothers i hid).mpr hi)
    obtain ⟨hwire, howner⟩ := Prod.mk.inj hji
    rw [← hwire, ← hnode hwire]
    exact h j hj (howner ▸ hid)
  · intro h i hi hid
    obtain ⟨j, hj, hji⟩ := hfind hcore i hi
    obtain ⟨hwire, howner⟩ := Prod.mk.inj hji
    have hid' : v.owner j ≠ id := howner ▸ hid
    rw [← hwire, ← hnode hwire]
    exact h j ((hothers j hid').mp hj) hid'

/-! ## The two channels -/

open DecisionMaker

/-- Pod intents, held in the intent cache. -/
def podView : View ScheduleIntent Intent where
  stored := World.intents
  wire := ScheduleIntent.toIntent
  owner intent := intent.strategyID
  cache := Process.intents
  RootOf cache root := ∃ l : List Intent, l.Perm cache ∧
    (l.Pairwise fun a b => intentSortKey a ≤ intentSortKey b) ∧ root = (buildMerkleTree (l.map hashIntent)).hash

/-- Node intents, held in the node policy cache. -/
def nodeView : View NodeSchedulingIntent NodePolicy where
  stored := World.nodeIntents
  wire := NodeSchedulingIntent.toNodePolicy
  owner intent := intent.policyID
  cache := Process.nodePolicies
  RootOf cache root := (cache = [] ∧ root = "") ∨ ∃ l : List NodePolicy, l.Perm cache ∧
    (l.Pairwise fun a b => nodePolicySortKey a ≤ nodePolicySortKey b) ∧
    root = (buildMerkleTree (l.map hashNodePolicy)).hash

/-- The manager and the decision makers may sort differently. -/
theorem podChannel_meets (go go' : SliceSort) (env : Nat → Choice) :
    (podChannel go').Meets go env podView where
  wire_node h := congrArg Intent.nodeID h
  root_nil := by
    simp [podChannel, buildScheduleIntentMerkleRoot, sortScheduleIntentsByKey, go'.sort_nil]
  root_ne l := IsDigest.ne_empty (buildMerkleTree_isDigest fun x hx => by
    obtain ⟨i, _, rfl⟩ := mem_map.mp hx
    exact ⟨_, rfl⟩)
  stored h := by simp only [podView, World.intents, h]
  getRoot h := by
    obtain ⟨-, _, hp⟩ := call_inv h
    obtain ⟨p, hs, hi, -, hr⟩ := getIntentMerkleRoot_inv hp
    exact ⟨p, hs, hi, hr⟩
  clear h := by
    obtain ⟨-, _, hp⟩ := call_inv h
    obtain ⟨p, hs, ⟨hi, -⟩ | ⟨hi, -, hr⟩⟩ := deleteAllSchedulingIntents_inv hp
    · exact ⟨p, hs, .inl hi⟩
    · exact ⟨p, hs, .inr ⟨hi, hr⟩⟩
  send h := by
    obtain ⟨-, _, hp⟩ := call_inv h
    obtain ⟨p, hs, ⟨hi, -⟩ | ⟨hi, -, hr⟩⟩ := sendSchedulingIntent_inv hp
    · exact ⟨p, hs, .inl hi⟩
    · exact ⟨p, hs, .inr ⟨hi, hr⟩⟩
  markSent h := by
    obtain ⟨-, _, hp⟩ := call_inv h
    obtain ⟨os, hs, hcore⟩ := batchUpdateIntentsState_inv hp
    exact ⟨hs.cluster, by rw [← hs.objects] at hcore; exact hcore, fun e _ => by rw [hs.processes]⟩
  getRoot_fails dm := failsByCall_call _
  clear_fails dm := failsByCall_call _
  send_fails dm l := failsByCall_call _

theorem nodeChannel_meets (go : SliceSort) (env : Nat → Choice) : (nodeChannel go).Meets go env nodeView where
  wire_node h := congrArg NodePolicy.nodeID h
  root_nil := by
    simp [nodeChannel, buildNodeSchedulingIntentMerkleRoot, sortNodeIntentsByKey, go.sort_nil]
  root_ne l := IsDigest.ne_empty (buildMerkleTree_isDigest fun x hx => by
    obtain ⟨i, _, rfl⟩ := mem_map.mp hx
    exact ⟨_, rfl⟩)
  stored h := by simp only [nodeView, World.nodeIntents, h]
  getRoot h := by
    obtain ⟨-, _, hp⟩ := call_inv h
    obtain ⟨hs, hr⟩ := getNodePolicyMerkleRoot_inv hp
    refine ⟨_, hs, rfl, fun root he => ?_⟩
    rw [hr root he]
    exact Process.getNodePolicyMerkleRootHash_cases _
  clear h := by
    obtain ⟨-, _, hp⟩ := call_inv h
    obtain ⟨p, hs, ⟨hi, -⟩ | ⟨-, hi, hr⟩⟩ := deleteAllNodeSchedulingIntents_inv hp
    · exact ⟨p, hs, .inl hi⟩
    · exact ⟨p, hs, .inr ⟨hi, hr⟩⟩
  send h := by
    obtain ⟨-, _, hp⟩ := call_inv h
    obtain ⟨p, hs, ⟨hi, -⟩ | ⟨-, hi, hr⟩⟩ := sendNodeSchedulingPolicies_inv hp
    · exact ⟨p, hs, .inl hi⟩
    · exact ⟨p, hs, .inr ⟨hi, hr⟩⟩
  markSent h := by
    obtain ⟨-, _, hp⟩ := call_inv h
    obtain ⟨os, hs, hcore⟩ := batchUpdateNodeIntentsState_inv hp
    exact ⟨hs.cluster, by rw [← hs.objects] at hcore; exact hcore, fun e _ => by rw [hs.processes]⟩
  getRoot_fails dm := failsByCall_call _
  clear_fails dm := failsByCall_call _
  send_fails dm l := failsByCall_call _

end Gthulhu.Manager
