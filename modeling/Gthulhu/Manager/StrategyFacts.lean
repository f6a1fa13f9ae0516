/-
What creating or updating a strategy does to the others.

A decision maker's cache is replaced by whatever it is sent, and thinned out
by pod. A strategy created or updated has its own intents sent and nothing
else, and the pods of its old ones named to the decision makers. So the
intents of other strategies stay in force exactly where the push happens to
contain them and no dropped pod is theirs (`strategyChange_keepsOthers_iff`).
-/
import Gthulhu.Manager.ResyncFacts
import Gthulhu.Manager.ServiceCalls

namespace Gthulhu.Manager

open Lib World Prog DecisionMaker List Run OneNode

variable {go : SliceSort} {env : Nat → Choice} {w w' : World} {calls : Calls}

/-! ## Steps of a service -/

theorem call_ok {call a} (h : Runs go env (Svc.call call) w calls (.ok a) w') :
    ∃ es, ApiRuns go env call.program w es (.ok a) w' :=
  (call_inv h).2

theorem wrapped_ok {call message a} (h : Runs go env (Svc.wrapping message (Svc.call call)) w calls (.ok a) w') :
    ∃ es, ApiRuns go env call.program w es (.ok a) w' :=
  call_ok (Run.mapError_ok h)

theorem parse_ok {α : Type} {message : String} {parsed : Except Error α} {a : α}
    (h : Runs go env (Svc.parse message parsed) w calls (.ok a) w') : parsed = .ok a ∧ w = w' := by
  cases parsed with
  | ok b =>
    obtain ⟨_, ⟨⟩, rfl⟩ := pure_ok_inv h
    exact ⟨rfl, rfl⟩
  | error err => exact (throw_ok h).elim

theorem keySet_inv {keys r}
    (h : Runs go env (Svc.keySet keys) w calls r w') : Unchanged w w' ∧ ∃ l, r = .ok l ∧ ∀ k, k ∈ l ↔ k ∈ keys := by
  rcases except_bind_inv h with ⟨e, _, h1⟩ | ⟨order, _, _, _, h1, h2, rfl⟩
  · obtain ⟨_, he⟩ := (mapOrder_inv h1).2
    cases he
  · obtain ⟨_, rfl, rfl⟩ := pure_ok_inv h2
    exact ⟨(mapOrder_inv h1).1, _, rfl, fun k => by rw [mem_reorder, mem_eraseDups]⟩

theorem nowCall_inv {r} (h : Runs go env (Svc.call .now) w calls r w') :
    Unchanged w w' ∧ ∃ time, r = .ok time := by
  obtain ⟨-, _, hp⟩ := call_inv h
  exact now_inv hp

/-! ## The intents of a strategy -/

/-- What a decision maker is told of a pod under a strategy. -/
def ScheduleStrategy.intentFor (strategy : ScheduleStrategy) (pod : Pod) : Intent :=
  (newScheduleIntent 0 strategy pod).toIntent

/-- The pods a strategy selects now. -/
def World.selectedPods (w : World) (strategy : ScheduleStrategy) : List Pod :=
  w.cluster.queryPods ⟨strategy.k8sNamespace, strategy.labelSelectors⟩

/-- Their nodes. -/
def World.selectedNodes (w : World) (strategy : ScheduleStrategy) : List String :=
  (w.selectedPods strategy).map Pod.nodeID

theorem stampAll_inv {α β γ : Type} {make : Int64 → α → β} {core : β → γ} {core' : α → γ}
    {l : List α} {r : Except Error (List β)} (h : Runs go env (stampAll make l) w calls r w')
    (hcore : ∀ time a, core (make time a) = core' a) :
    Unchanged w w' ∧ ∃ made, r = .ok made ∧ made.map core = l.map core' := by
  induction l generalizing w calls r with
  | nil =>
    obtain ⟨_, rfl, rfl⟩ := pure_ok_inv h
    exact ⟨Unchanged.refl _, [], rfl, rfl⟩
  | cons a l ih =>
    rcases except_bind_inv h with ⟨e, _, h1⟩ | ⟨time, _, _, _, h1, h2, rfl⟩
    · obtain ⟨_, he⟩ := (nowCall_inv h1).2
      cases he
    rcases except_bind_inv h2 with ⟨e, _, h3⟩ | ⟨rest, _, _, _, h3, h4, rfl⟩
    · obtain ⟨_, _, he, _⟩ := ih h3
      cases he
    obtain ⟨_, rfl, rfl⟩ := pure_ok_inv h4
    obtain ⟨hu, made, ⟨⟩, hmap⟩ := ih h3
    refine ⟨(nowCall_inv h1).1.trans hu, _, rfl, ?_⟩
    rw [map_cons, map_cons, hmap, hcore]

theorem newScheduleIntents_inv {strategy pods r} (h : Runs go env (newScheduleIntents strategy pods) w calls r w') :
    Unchanged w w' ∧ ∃ intents, r = .ok intents ∧
      intents.map ScheduleIntent.core = pods.map fun pod => (strategy.intentFor pod, strategy.id) := by
  rw [newScheduleIntents_eq] at h
  exact stampAll_inv h fun _ _ => rfl

/-- Records with the pods' own nodes: what is pushed and where to. -/
theorem intentFor_nodes {strategy : ScheduleStrategy} {id} {pods : List Pod} {intents : List ScheduleIntent}
    (h : intents.map ScheduleIntent.core = pods.map fun pod => (strategy.intentFor pod, id)) (node : String) :
    node ∈ pods.map Pod.nodeID ↔ ∃ i ∈ intents, i.nodeID = node := by
  have hmap := congrArg (List.map fun c : Intent × ObjectID => c.1.nodeID) h
  rw [map_map, map_map] at hmap
  have hnodes : pods.map Pod.nodeID = intents.map fun i => i.nodeID := hmap.symm
  rw [hnodes, mem_map]

theorem mem_core {γ : Type} {l : List ScheduleIntent} {l' : List γ} {f} (h : l.map ScheduleIntent.core = l'.map f) {i}
    (hi : i ∈ l) : ∃ a ∈ l', f a = i.core := by
  have hmem := mem_map_of_mem (f := ScheduleIntent.core) hi
  rwa [h, mem_map] at hmem

/-- The decision makers asked for by nodes. -/
theorem queryDecisionMakersOn_ok {nodes asked dms} (hasked : ∀ node, node ∈ asked ↔ node ∈ nodes) (hne : nodes ≠ [])
    (h : Runs go env (Svc.call (.queryDecisionMakerPods { nodeIDs := asked })) w calls (.ok dms) w') :
    Unchanged w w' ∧ ∀ dm, dm ∈ dms ↔ dm ∈ w.cluster.decisionMakers ∧ dm.nodeID ∈ nodes := by
  obtain ⟨_, hq⟩ := call_ok h
  obtain ⟨hu, hp⟩ := queryDecisionMakerPods_inv hq
  have hne' : asked ≠ [] := fun hnil => by
    obtain ⟨node, hnode⟩ := exists_mem_of_ne_nil _ hne
    have := (hasked node).mpr hnode
    rw [hnil] at this
    cases this
  refine ⟨hu, fun dm => ?_⟩
  rw [(hp dms rfl).mem_iff, mem_onNodes, hasked]
  simp [hne']

/-! ## Dropping pods -/

/-- No call has failed, requests to drop pods apart that went to decision makers
outside `P`. -/
def CleanFor (P : DecisionMakerPod → Prop) (calls : Calls) : Prop :=
  ∀ e ∈ calls, e.2.isOk = true ∨ ∃ dm req, e.1 = .deleteSchedulingIntents dm req ∧ ¬P dm

theorem Clean.for (h : Clean calls) (P : DecisionMakerPod → Prop) : CleanFor P calls := fun e he => .inl (h e he)

theorem CleanFor.left {P calls'} (h : CleanFor P (calls ++ calls')) :
    CleanFor P calls :=
  fun e he => h e (mem_append_left _ he)

theorem CleanFor.right {P calls'} (h : CleanFor P (calls ++ calls')) :
    CleanFor P calls' :=
  fun e he => h e (mem_append_right _ he)

theorem CleanFor.call_ok {P call r} (hc : CleanFor P calls) (h : Runs go env (Svc.call call) w calls r w')
    (hcall : ∀ dm req, call = .deleteSchedulingIntents dm req → P dm) :
    ∃ a, r = .ok a := by
  refine failsByCall_call call h fun e he => (hc e he).resolve_right ?_
  rintro ⟨dm, req, heq, hnot⟩
  obtain ⟨rfl, -⟩ := call_inv h
  obtain rfl := mem_singleton.mp he
  exact hnot (hcall dm req heq)

/-- Decision makers have been told to drop pods, as `drop` says. What they hold
has shrunk by no more than that, and by all of it where the requests succeeded. -/
structure Drops (w w' : World) (drop : DecisionMakerPod → String → Prop) (calls : Calls) : Prop where
  cluster : w'.cluster = w.cluster
  sub : ∀ e, ∀ x ∈ (w'.processes e).intents, x ∈ (w.processes e).intents
  keep : ∀ e, ∀ x ∈ (w.processes e).intents, (∀ dm, dm.endpoint = e → ¬drop dm x.podID) → x ∈ (w'.processes e).intents
  gone : ∀ P, CleanFor P calls → ∀ dm, P dm → ∀ x ∈ (w'.process dm).intents, ¬drop dm x.podID

namespace Drops

variable {drop drop' : DecisionMakerPod → String → Prop} {calls' : Calls}

theorem of_same (hproc : w'.processes = w.processes) (hcluster : w'.cluster = w.cluster)
    (hdrop : ∀ P, CleanFor P calls → ∀ dm podID, ¬drop dm podID) : Drops w w' drop calls :=
  ⟨hcluster, fun _ _ hx => hproc ▸ hx, fun _ _ hx _ => hproc.symm ▸ hx, fun P hc dm _ _ _ => hdrop P hc dm _⟩

theorem trans {w1} (h : Drops w w1 drop calls) (h' : Drops w1 w' drop' calls') :
    Drops w w' (fun dm podID => drop dm podID ∨ drop' dm podID) (calls ++ calls') where
  cluster := h'.cluster.trans h.cluster
  sub e x hx := h.sub e x (h'.sub e x hx)
  keep e x hx hnot := h'.keep e x (h.keep e x hx fun dm he hd => hnot dm he (.inl hd))
    fun dm he hd => hnot dm he (.inr hd)
  gone P hc dm hdm x hx := fun
    | .inl hd => h.gone P hc.left dm hdm x (h'.sub _ x hx) hd
    | .inr hd => h'.gone P hc.right dm hdm x hx hd

theorem congr (h : Drops w w' drop calls) (hdrop : ∀ dm podID, drop dm podID ↔ drop' dm podID)
    (hc : ∀ P, CleanFor P calls' → CleanFor P calls) : Drops w w' drop' calls' where
  cluster := h.cluster
  sub := h.sub
  keep e x hx hnot := h.keep e x hx fun dm he => (hdrop dm _).not.mpr (hnot dm he)
  gone P hclean dm hdm x hx := (hdrop dm _).not.mp (h.gone P (hc P hclean) dm hdm x hx)

/-- A step before that leaves processes and cluster alone. -/
theorem after {w1} (h : Drops w1 w' drop calls) (hproc : w1.processes = w.processes)
    (hcluster : w1.cluster = w.cluster) : Drops w w' drop calls :=
  ⟨h.cluster.trans hcluster, hproc ▸ h.sub, hproc ▸ h.keep, h.gone⟩

/-- A step after that leaves processes and cluster alone. -/
theorem before {w1} (h : Drops w w1 drop calls) (hproc : w'.processes = w1.processes)
    (hcluster : w'.cluster = w1.cluster) : Drops w w' drop calls :=
  ⟨hcluster.trans h.cluster, hproc ▸ h.sub, hproc ▸ h.keep, fun P hc dm => by
    rw [World.process, hproc]
    exact h.gone P hc dm⟩

end Drops

/-- The decision makers on the intents' nodes are told the intents' pods. -/
def World.Told (w : World) (intents : List ScheduleIntent) (dm : DecisionMakerPod) (podID : String) : Prop :=
  (dm ∈ w.cluster.decisionMakers ∧ ∃ i ∈ intents, i.nodeID = dm.nodeID) ∧ ∃ i ∈ intents, i.podID = podID

theorem World.told_congr {l l'} (hl : ∀ i, i ∈ l' ↔ i ∈ l) (hcluster : w'.cluster = w.cluster) (dm : DecisionMakerPod)
    (podID : String) : w'.Told l' dm podID ↔ w.Told l dm podID := by
  simp only [Told, hl, hcluster]

theorem dropPods_inv {dm podIDs r}
    (h : Runs go env (do let _ ← attempt (Svc.call (.deleteSchedulingIntents dm { podIDs := podIDs }))) w calls r w') :
    r = .ok () ∧ w'.store = w.store ∧ Drops w w' (fun dm' podID => dm' = dm ∧ podID ∈ podIDs) calls := by
  obtain ⟨a, _, _, _, h1, h2, rfl⟩ := Run.attempt_bind_inv h
  obtain ⟨_, rfl, rfl⟩ := pure_ok_inv h2
  obtain ⟨-, _, hp⟩ := call_inv h1
  obtain ⟨p, hs, -, hsub, hkeep, hgone⟩ := deleteSchedulingIntents_inv hp
  refine ⟨rfl, hs.store, hs.cluster, fun e x hx => ?_, fun e x hx hnot => ?_, fun P hc dm' hdm' x hx hdrop => ?_⟩
  · by_cases he : e = dm.endpoint
    · subst he
      rw [hs.self] at hx
      exact hsub x hx
    · rwa [hs.other he] at hx
  · by_cases he : e = dm.endpoint
    · subst he
      rw [hs.self]
      exact hkeep x hx fun hid => hnot dm rfl ⟨rfl, hid⟩
    · rwa [hs.other he]
  · obtain ⟨rfl, hid⟩ := hdrop
    obtain ⟨⟨⟩, rfl⟩ := hc.left.call_ok h1 fun _ _ heq => by
      cases heq
      exact hdm'
    rw [World.process, hs.self] at hx
    exact hgone rfl x hx hid

/-- The loop over decision makers, where those `told` drop the pods. -/
theorem dropLoop_inv {f : DecisionMakerPod → Svc Unit} {podIDs : List String} (told : DecisionMakerPod → Prop)
    (hf : ∀ {dm w calls r w'}, Runs go env (f dm) w calls r w' → r = .ok () ∧ w'.store = w.store ∧
      Drops w w' (fun dm' podID => (dm' = dm ∧ told dm') ∧ podID ∈ podIDs) calls)
    {dms : List DecisionMakerPod} {r : Except Error Unit} (h : Runs go env (forM dms f) w calls r w') :
    r = .ok () ∧ w'.store = w.store ∧
      Drops w w' (fun dm podID => (dm ∈ dms ∧ told dm) ∧ podID ∈ podIDs) calls := by
  induction dms generalizing w calls with
  | nil =>
    obtain ⟨_, rfl, rfl⟩ := pure_ok_inv h
    exact ⟨rfl, rfl, .of_same rfl rfl fun _ _ _ _ hd => by simp at hd⟩
  | cons dm dms ih =>
    rw [forM_cons] at h
    rcases except_bind_inv h with ⟨e, _, h1⟩ | ⟨⟨⟩, _, _, _, h1, h2, rfl⟩
    · cases (hf h1).1
    obtain ⟨-, hstore, hdrops⟩ := hf h1
    obtain ⟨hr, hstore', hdrops'⟩ := ih h2
    refine ⟨hr, hstore'.trans hstore, (hdrops.trans hdrops').congr (fun dm' podID => ?_) fun _ => id⟩
    rw [mem_cons, or_and_right, or_and_right]

/-- The decision makers on the nodes are asked for and the loop run. -/
theorem notifyLoop_inv {f : DecisionMakerPod → Svc Unit} {intents : List ScheduleIntent} {nodes podIDs : List String}
    {r : Except Error Unit} (told : DecisionMakerPod → Prop)
    (hf : ∀ {dm w calls r w'}, Runs go env (f dm) w calls r w' → r = .ok () ∧ w'.store = w.store ∧
      Drops w w' (fun dm' podID => (dm' = dm ∧ told dm') ∧ podID ∈ podIDs) calls)
    (hnodes : ∀ node, node ∈ nodes ↔ node ∈ intents.map fun i => i.nodeID)
    (hpods : ∀ podID, podID ∈ podIDs ↔ podID ∈ intents.map fun i => i.podID) (hne : intents ≠ [])
    (h : Runs go env (do
      match ← attempt (Svc.call (.queryDecisionMakerPods { nodeIDs := nodes })) with
      | .error _ => pure ()
      | .ok dmPods => forM dmPods f) w calls r w') :
    r = .ok () ∧ w'.store = w.store ∧ Drops w w' (fun dm podID => told dm ∧ w.Told intents dm podID) calls := by
  obtain ⟨a, _, _, _, h1, h2, rfl⟩ := Run.attempt_bind_inv h
  obtain ⟨-, _, hq⟩ := call_inv h1
  have hu := (queryDecisionMakerPods_inv hq).1
  cases a with
  | error e =>
    obtain ⟨_, rfl, rfl⟩ := pure_ok_inv h2
    refine ⟨rfl, hu.store, .of_same hu.processes hu.cluster fun P hc => ?_⟩
    obtain ⟨_, he⟩ := hc.left.call_ok h1 nofun
    cases he
  | ok dms =>
    obtain ⟨-, hdms⟩ := queryDecisionMakersOn_ok hnodes (by simpa using hne) h1
    obtain ⟨hr, hstore, hdrops⟩ := dropLoop_inv told hf h2
    refine ⟨hr, hstore.trans hu.store, (hdrops.after hu.processes hu.cluster).congr (fun dm podID => ?_)
      fun _ => CleanFor.right⟩
    rw [hdms, hpods, World.Told, ← mem_map, ← mem_map, and_comm (b := told dm), and_assoc]

theorem notifyDelete_inv {intents nodes podIDs r} (hnodes : ∀ node, node ∈ nodes ↔ node ∈ intents.map fun i => i.nodeID)
    (hpods : ∀ podID, podID ∈ podIDs ↔ podID ∈ intents.map fun i => i.podID)
    (h : Runs go env (notifyDelete nodes podIDs) w calls r w') :
    r = .ok () ∧ w'.store = w.store ∧ Drops w w' (w.Told intents) calls := by
  rw [notifyDelete] at h
  cases intents with
  | nil =>
    have hnil : nodes = [] := eq_nil_iff_forall_not_mem.mpr fun node hnode => by simpa using (hnodes node).mp hnode
    rw [if_pos (by simp [hnil])] at h
    obtain ⟨_, rfl, rfl⟩ := pure_ok_inv h
    exact ⟨rfl, rfl, .of_same rfl rfl fun _ _ dm podID hd => by simp [World.Told] at hd⟩
  | cons i intents =>
    have hnode := ne_nil_of_mem ((hnodes i.nodeID).mpr (by simp))
    have hpod := ne_nil_of_mem ((hpods i.podID).mpr (by simp))
    rw [if_neg (by simp [hnode, hpod])] at h
    obtain ⟨hr, hstore, hdrops⟩ := notifyLoop_inv (fun _ => True) (fun h => by
      obtain ⟨hr, hstore, hdrops⟩ := dropPods_inv h
      exact ⟨hr, hstore, hdrops.congr (fun _ _ => by rw [and_true]) fun _ => id⟩) hnodes hpods (by simp) h
    exact ⟨hr, hstore, hdrops.congr (fun _ _ => by rw [true_and]) fun _ => id⟩

theorem notifyDeleteOf_inv {intents r} (h : Runs go env (notifyDeleteOf intents) w calls r w') :
    r = .ok () ∧ w'.store = w.store ∧ Drops w w' (w.Told intents) calls := by
  rcases except_bind_inv h with ⟨e, _, h1⟩ | ⟨nodes, _, _, _, h1, h2, rfl⟩
  · obtain ⟨_, _, he, _⟩ := keySet_inv h1
    cases he
  rcases except_bind_inv h2 with ⟨e, _, h3⟩ | ⟨podIDs, _, _, _, h3, h4, rfl⟩
  · obtain ⟨_, _, he, _⟩ := keySet_inv h3
    cases he
  obtain ⟨hu1, _, ⟨⟩, hnodes⟩ := keySet_inv h1
  obtain ⟨hu2, _, ⟨⟩, hpods⟩ := keySet_inv h3
  have hu := hu1.trans hu2
  obtain ⟨hr, hstore, hdrops⟩ := notifyDelete_inv hnodes hpods h4
  exact ⟨hr, hstore.trans hu.store, (hdrops.after hu.processes hu.cluster).congr (told_congr (fun _ => .rfl) hu.cluster)
    fun _ hc => hc.right.right⟩

/-! ## Pushing a strategy -/

/-- The intents of every strategy but `id` are held where they apply. -/
def World.OthersInForce (w : World) (id : ObjectID) : Prop :=
  ∀ i ∈ w.intents, i.strategyID ≠ id → ∀ dm ∈ w.cluster.decisionMakers, dm.state = .online → dm.nodeID = i.nodeID →
    i.toIntent ∈ (w.process dm).intents

instance (w : World) (id : ObjectID) : Decidable (w.OthersInForce id) :=
  inferInstanceAs (Decidable (∀ i ∈ w.intents, i.strategyID ≠ id → ∀ dm ∈ w.cluster.decisionMakers, _ → _ → _))

theorem selectedPods_ok {strategy pods}
    (h : Runs go env (Svc.call (.queryPods ⟨strategy.k8sNamespace, strategy.labelSelectors⟩)) w calls (.ok pods) w') :
    Unchanged w w' ∧ pods = w.selectedPods strategy := by
  obtain ⟨_, hp⟩ := call_ok h
  exact ⟨(queryPods_inv hp).1, (queryPods_inv hp).2 pods rfl⟩

/-- The last part of creating or updating a strategy, from `w₁` on: the decision
makers on the nodes of the pods selected are asked for and sent the new intents. -/
structure StrategyPush (go : SliceSort) (env : Nat → Choice) (w : World) (strategy : ScheduleStrategy) (id : ObjectID)
    (added : List ScheduleIntent) (calls : Calls) (w₁ w' : World) : Prop where
  core : added.map ScheduleIntent.core = (w.selectedPods strategy).map fun pod => (strategy.intentFor pod, id)
  nonempty : w.selectedNodes strategy ≠ []
  cluster : w₁.cluster = w.cluster
  run : ∃ asked query push dms w₂ text, (∀ node, node ∈ asked ↔ node ∈ w.selectedNodes strategy) ∧
    After Call.Quiet calls (query ++ push) ∧
    Runs go env (Svc.call (.queryDecisionMakerPods { nodeIDs := asked })) w₁ query (.ok dms) w₂ ∧
    (dms = [] ∧ push = [] ∧ w' = w₂ ∨
      Runs go env (deliver (podChannel go) dms added "send scheduling intents to decision maker " text) w₂ push (.ok ()) w')

theorem StrategyPush.done {strategy id added w1} (h : StrategyPush go env w strategy id added calls w1 w') :
    podView.PushDone (podChannel go) (w.selectedNodes strategy) added w1 w' := by
  obtain ⟨asked, query, push, dms, _, text, hasked, -, hquery, hpush⟩ := h.run
  obtain ⟨hu, hdms⟩ := queryDecisionMakersOn_ok hasked h.nonempty hquery
  refine pushDone (podChannel_meets go go env) (intentFor_nodes h.core) hu hdms ?_
  rcases hpush with ⟨hnil, -, rfl⟩ | hpush
  · exact .inl ⟨hnil, rfl⟩
  · exact .inr ⟨_, _, _, hpush⟩

/-- A call whose error is wrapped, and its answer. -/
theorem wrapped_mem {call message a} (h : Runs go env (Svc.wrapping message (Svc.call call)) w calls (.ok a) w') :
    (⟨call, .ok a⟩ : Event Call.Resp) ∈ calls := by
  obtain ⟨rfl, -⟩ := call_inv (mapError_ok h)
  exact mem_singleton_self _

/-- A strategy created: its intents are stored behind the others, and pushed. -/
theorem createScheduleStrategy_ok {operator strategy s}
    (h : Runs go env (createScheduleStrategy go operator strategy) w calls (.ok s) w') :
    ∃ w1 added, w1.intents = w.intents ++ added ∧ w1.processes = w.processes ∧
      (∃ s0 l0, ⟨.insertStrategyAndIntents s0 l0, .ok (s, added)⟩ ∈ calls) ∧
      StrategyPush go env w strategy s.id added calls w1 w' := by
  rw [createScheduleStrategy] at h
  obtain ⟨operatorID, w1, _, _, h1, h2, -, ht⟩ :=
    ok_bind_after (.refl Call.Quiet _) h (makes_parse fun _ _ => trivial)
  obtain ⟨_, rfl⟩ := parse_ok h1
  obtain ⟨pods, _, _, _, h3, h4, -, ht⟩ := ok_bind_after ht h2 (makes_any trivial)
  obtain ⟨hu1, rfl⟩ := selectedPods_ok h3
  split at h4
  · exact (throw_ok h4).elim
  rename_i hne
  obtain ⟨time, _, _, _, h5, h6, -, ht⟩ := ok_bind_after ht h4 (makes_any trivial)
  obtain ⟨intents, _, _, _, h7, h8, -, ht⟩ := ok_bind_after ht h6 (makes_newScheduleIntents Call.Harmless.quiet)
  obtain ⟨hu2, _, ⟨⟩, hcore⟩ := newScheduleIntents_inv h7
  have hu := (hu1.trans (nowCall_inv h5).1).trans hu2
  obtain ⟨⟨s', added⟩, w5, _, _, h9, h10, hin, ht⟩ := Run.ok_bind_after ht h8 (Makes.mapError (makes_any trivial))
  obtain ⟨_, hins⟩ := wrapped_ok h9
  obtain ⟨_, hs, hs', hinserted, -⟩ := insertWithOwned_ok hins
  have hadded := Kind.Inserted.map_eq ScheduleIntent.core hinserted fun _ _ _ => rfl
  have hcore' : added.map ScheduleIntent.core =
      (w.selectedPods strategy).map fun pod => (strategy.intentFor pod, s'.id) := by
    have hfst := congrArg (List.map fun c : Intent × ObjectID => (c.1, s'.id)) hcore
    rw [map_map, map_map] at hfst
    exact hadded.trans hfst
  have hintents : w5.intents = w.intents ++ added := by
    rw [World.intents, hs'.objects, hs.others _ (by decide), hu.store]
    rfl
  obtain ⟨dms, w7, query, push, h11, h12, rfl⟩ := ok_bind_inv h10
  have hpush : s' = s ∧ (dms = [] ∧ push = [] ∧ w' = w7 ∨ Runs go env (deliver (podChannel go) dms added
      "send scheduling intents to decision maker " "insert strategy and intents into repository") w7 push (.ok ()) w') := by
    split at h12
    · rename_i hempty
      obtain ⟨rfl, ⟨⟩, rfl⟩ := pure_ok_inv h12
      exact ⟨rfl, .inl ⟨isEmpty_iff.mp hempty, rfl, rfl⟩⟩
    · obtain ⟨⟨⟩, _, _, _, h13, h14, rfl⟩ := ok_bind_inv h12
      obtain ⟨rfl, ⟨⟩, rfl⟩ := pure_ok_inv h14
      exact ⟨rfl, .inr (by rwa [append_nil])⟩
  obtain ⟨rfl, hpush⟩ := hpush
  exact ⟨w5, added, hintents, by rw [hs'.processes, hs.processes, hu.processes], ⟨_, _, hin _ (wrapped_mem h9)⟩,
    hcore', by simpa [World.selectedNodes] using hne, by rw [hs'.cluster, hs.cluster, hu.cluster],
    _, query, push, dms, w7, _, fun _ => mem_eraseDups, ht, h11, hpush⟩

/-- The stored intents of a strategy. -/
def World.intentsOf (w : World) (id : ObjectID) : List ScheduleIntent := w.intents.filter fun i => i.strategyID = id

theorem World.mem_intentsOf {w : World} {id i} :
    i ∈ w.intentsOf id ↔ i ∈ w.intents ∧ i.strategyID = id := by
  simp [World.intentsOf]

/-- The stored intents of the other strategies. -/
def World.intentsOfOthers (w : World) (id : ObjectID) : List ScheduleIntent :=
  w.intents.filter fun i => i.strategyID ≠ id

theorem World.mem_intentsOfOthers {w : World} {id i} :
    i ∈ w.intentsOfOthers id ↔ i ∈ w.intents ∧ i.strategyID ≠ id := by
  simp [World.intentsOfOthers]

theorem queryIntentsOf_ok {id : ObjectID} {os : List ScheduleIntent} {es : List (Event ApiCall.Resp)}
    (h : ApiRuns go env (Repo.queryIntents { strategyIDs := [id] }) w es (.ok os) w') :
    Unchanged w w' ∧ ∀ i, i ∈ os ↔ i ∈ w.intentsOf id := by
  refine ⟨query_unchanged h, fun i => ?_⟩
  rw [queryIntents_ok h, mem_intentsOf]
  simp [Repo.matchesIntentFilter, Repo.admits]

theorem queryStrategies_unchanged {opt r es}
    (h : ApiRuns go env (Repo.queryStrategies opt) w es r w') : Unchanged w w' :=
  query_unchanged h

/-- A strategy updated: its old intents are replaced in the store, their pods
dropped by the decision makers, and the new ones pushed. -/
theorem updateScheduleStrategy_ok {operator strategyID strategy}
    (h : Runs go env (updateScheduleStrategy go operator strategyID strategy) w calls (.ok ()) w') :
    ∃ id w1 added, objectIDFromHex strategyID = .ok id ∧ w1.intents = w.intentsOfOthers id ++ added ∧
      Drops w w1 (w.Told (w.intentsOf id)) calls ∧ (∃ l0, ⟨.insertIntents l0, .ok added⟩ ∈ calls) ∧
      StrategyPush go env w strategy id added calls w1 w' := by
  rw [updateScheduleStrategy] at h
  obtain ⟨id, w1, _, _, h1, h2, -, ht⟩ :=
    ok_bind_after (.refl Call.Quiet _) h (makes_parse fun _ _ => trivial)
  obtain ⟨hid, rfl⟩ := parse_ok h1
  obtain ⟨operatorID, _, _, _, h3, h4, -, ht⟩ := ok_bind_after ht h2 (makes_parse fun _ _ => trivial)
  obtain ⟨_, rfl⟩ := parse_ok h3
  obtain ⟨existing, _, _, _, h5, h6, -, ht⟩ := Run.ok_bind_after ht h4 (makes_any trivial)
  obtain ⟨_, hq1⟩ := call_ok h5
  have hu1 := queryStrategies_unchanged hq1
  cases existing with
  | nil => exact (throw_ok h6).elim
  | cons currentStrategy _ =>
    simp only at h6
    obtain ⟨pods, _, _, _, h7, h8, -, ht⟩ := ok_bind_after ht h6 (makes_any trivial)
    obtain ⟨hu2, hpods⟩ := selectedPods_ok h7
    rw [World.selectedPods, hu1.cluster] at hpods
    subst hpods
    split at h8
    · exact (throw_ok h8).elim
    rename_i hne
    obtain ⟨oldIntents, _, _, _, h9, h10, -, ht⟩ := ok_bind_after ht h8 (Makes.mapError (makes_any trivial))
    obtain ⟨_, hq2⟩ := wrapped_ok h9
    obtain ⟨hu3, hold⟩ := queryIntentsOf_ok hq2
    obtain ⟨time, _, _, _, h11, h12, -, ht⟩ := ok_bind_after ht h10 (makes_any trivial)
    have hu := ((hu1.trans hu2).trans hu3).trans (nowCall_inv h11).1
    obtain ⟨⟨⟩, _, _, _, h13, h14, -, ht⟩ :=
      ok_bind_after ht h12 (Makes.mapError (@makes_any _ _ (.updateStrategy _) trivial))
    obtain ⟨_, hupd⟩ := wrapped_ok h13
    obtain ⟨os, hs1, -⟩ := updateOwner_inv hupd
    obtain ⟨⟨⟩, _, _, _, h15, h16, -, ht⟩ :=
      ok_bind_after ht h14 (Makes.mapError (@makes_any _ _ (.deleteIntentsByStrategyID _) trivial))
    obtain ⟨_, hdel⟩ := wrapped_ok h15
    have hs2 := deleteIntentsByStrategyID_ok hdel
    obtain ⟨intents, _, _, _, h17, h18, -, ht⟩ :=
      ok_bind_after ht h16 (makes_newScheduleIntents Call.Harmless.quiet)
    obtain ⟨hu4, _, ⟨⟩, hcore⟩ := newScheduleIntents_inv h17
    obtain ⟨added, w10, _, _, h19, h20, hin, ht⟩ := ok_bind_after ht h18 (Makes.mapError (makes_any trivial))
    obtain ⟨_, hins⟩ := wrapped_ok h19
    obtain ⟨_, hs3, -, hadded⟩ := insertAll_inv ScheduleIntent.core (fun _ _ _ => rfl) hins
    obtain ⟨rfl, hadded⟩ := hadded _ rfl
    obtain ⟨hstore, hproc, hcluster⟩ : w10.intents = w.intentsOfOthers id ++ added ∧
        w10.processes = w.processes ∧ w10.cluster = w.cluster := by
      refine ⟨?_, ?_, ?_⟩
      · rw [World.intents, hs3.objects, hu4.store, hs2.objects, World.intents, hs1.others _ (by decide), hu.store]
        rfl
      · rw [hs3.processes, hu4.processes, hs2.processes, hs1.processes, hu.processes]
      · rw [hs3.cluster, hu4.cluster, hs2.cluster, hs1.cluster, hu.cluster]
    obtain ⟨⟨⟩, w11, _, _, h21, h22, hin', ht⟩ :=
      ok_bind_after ht h20 (makes_notifyDeleteOf Call.Harmless.quiet)
    have hold' : ∀ i, i ∈ oldIntents ↔ i ∈ w.intentsOf id := fun i => by
      rw [hold, mem_intentsOf, mem_intentsOf, hu2.intents, hu1.intents]
    obtain ⟨-, hstore', hdrops⟩ := notifyDeleteOf_inv h21
    obtain ⟨dms, w12, query, push, h23, h24, rfl⟩ := ok_bind_inv h22
    refine ⟨id, w11, added, hid, by rw [← hstore, World.intents, hstore']; rfl,
      (hdrops.after hproc hcluster).congr (told_congr hold' hcluster) fun P hc e he => hc e (hin' e he),
      ⟨_, hin _ (wrapped_mem h19)⟩, hadded.trans hcore, by simpa [World.selectedNodes, World.selectedPods] using hne,
      hdrops.cluster.trans hcluster, _, query, push, dms, w12, "update intents state", fun _ => mem_eraseDups, ht, h23, ?_⟩
    split at h24
    · rename_i hempty
      obtain ⟨rfl, -, rfl⟩ := pure_ok_inv h24
      exact .inl ⟨isEmpty_iff.mp hempty, rfl, rfl⟩
    · exact .inr h24

/-! ## What is left of the other strategies -/

/-- Every online decision maker the strategy's intents go to finds the intents
`others` of its node among them. -/
def World.PushContains (w : World) (strategy : ScheduleStrategy) (others : List ScheduleIntent) : Prop :=
  ∀ dm ∈ w.cluster.decisionMakers, dm.state = .online → w.Reaches (w.selectedNodes strategy) dm.endpoint →
    ∀ i ∈ others, i.nodeID = dm.nodeID → ∃ pod ∈ w.selectedPods strategy, strategy.intentFor pod = i.toIntent

/-- Every online decision maker on a node of the strategy's old intents is sent
the new ones too, or has no intent of another strategy for an old intent's pod. -/
def World.DropSpares (w : World) (strategy : ScheduleStrategy) (id : ObjectID) : Prop :=
  ∀ dm ∈ w.cluster.decisionMakers, dm.state = .online →
    w.Reaches ((w.intentsOf id).map fun i => i.nodeID) dm.endpoint →
    ¬(w.Reaches (w.selectedNodes strategy) dm.endpoint ∧ w.SoleOnHost (w.selectedNodes strategy) dm.endpoint) →
    ∀ i ∈ w.intentsOfOthers id, i.nodeID = dm.nodeID → ∀ j ∈ w.intentsOf id, i.podID ≠ j.podID

/-- No host has two decision makers at different ports. -/
def World.OneProcessPerHost (w : World) : Prop :=
  ∀ dm ∈ w.cluster.decisionMakers, ∀ dm' ∈ w.cluster.decisionMakers, dm.host = dm'.host → dm.endpoint = dm'.endpoint

instance (w : World) (strategy : ScheduleStrategy) (others : List ScheduleIntent) :
    Decidable (w.PushContains strategy others) :=
  inferInstanceAs (Decidable (∀ dm ∈ w.cluster.decisionMakers, _ → _ → ∀ i ∈ others, _ → ∃ pod ∈ w.selectedPods strategy, _))

instance (w : World) (strategy : ScheduleStrategy) (id : ObjectID) : Decidable (w.DropSpares strategy id) :=
  inferInstanceAs (Decidable (∀ dm ∈ w.cluster.decisionMakers, _ → _ → _ → ∀ i ∈ w.intentsOfOthers id, _ →
    ∀ j ∈ w.intentsOf id, _))

theorem World.OneProcessPerHost.sole {dm} (h : w.OneProcessPerHost) (hdm : dm ∈ w.cluster.decisionMakers)
    (nodes : List String) : w.SoleOnHost nodes dm.endpoint :=
  fun dm' hdm' _ hhost => h dm' hdm' dm hdm hhost

theorem othersInForce_iff (w w1 : World) (id : ObjectID)
    (hcore : w'.intents.map ScheduleIntent.core = w1.intents.map ScheduleIntent.core)
    (hothers : ∀ i, i.strategyID ≠ id → (i ∈ w1.intents ↔ i ∈ w.intents)) (hcluster : w'.cluster = w.cluster) :
    w'.OthersInForce id ↔ ∀ i ∈ w.intentsOfOthers id, ∀ dm ∈ w.cluster.decisionMakers, dm.state = .online →
      dm.nodeID = i.nodeID → i.toIntent ∈ (w'.process dm).intents := by
  have hiff := View.othersInForce_iff (v := podView) (fun h => congrArg Intent.nodeID h) w w1 id hcore hothers hcluster
  simp only [mem_intentsOfOthers, and_imp]
  exact hiff

section

variable {strategy : ScheduleStrategy} {id : ObjectID} {added : List ScheduleIntent} {w₂ : World}
  (hpush : podView.PushDone (podChannel go) (w.selectedNodes strategy) added w₂ w') (hcluster : w₂.cluster = w.cluster)
  (hadded : added.map ScheduleIntent.core = (w.selectedPods strategy).map fun pod => (strategy.intentFor pod, id))
  {dm : DecisionMakerPod} (hdm : dm ∈ w.cluster.decisionMakers) {i : ScheduleIntent}
include hpush hcluster hadded hdm

/-- What a push leaves of an intent: it is among the pushed ones, or the
decision maker held it and is not pushed to. -/
theorem mem_of_push (hnode : i.nodeID = dm.nodeID)
    (hcontains : w.Reaches (w.selectedNodes strategy) dm.endpoint →
      ∃ pod ∈ w.selectedPods strategy, strategy.intentFor pod = i.toIntent)
    (hheld : i.toIntent ∈ (w₂.process dm).intents ∨
      (w.Reaches (w.selectedNodes strategy) dm.endpoint ∧ w.SoleOnHost (w.selectedNodes strategy) dm.endpoint)) :
    i.toIntent ∈ (w'.process dm).intents := by
  have hdm2 : dm ∈ w₂.cluster.decisionMakers := hcluster ▸ hdm
  have hof : w.Reaches (w.selectedNodes strategy) dm.endpoint →
      (∀ a ∈ added, a.nodeID = dm.nodeID → a.toIntent ∈ (w'.process dm).intents) →
      i.toIntent ∈ (w'.process dm).intents := fun hreach hall => by
    obtain ⟨pod, hpod, heq⟩ := hcontains hreach
    have hmem := mem_map_of_mem (f := fun pod => (strategy.intentFor pod, id)) hpod
    rw [← hadded, mem_map] at hmem
    obtain ⟨a, ha, hcore⟩ := hmem
    have hwire : a.toIntent = i.toIntent := (Prod.mk.inj hcore).1.trans heq
    exact hwire ▸ hall a ha ((congrArg Intent.nodeID hwire).trans hnode)
  by_cases hreach : w.Reaches (w.selectedNodes strategy) dm.endpoint
  · have hreach2 : w₂.Reaches (w.selectedNodes strategy) dm.endpoint := by rwa [Reaches, hcluster]
    rcases hheld with hheld | ⟨_, hsole⟩
    · rcases hpush.kept dm hdm2 with hsame | hall
      · exact (congrArg (i.toIntent ∈ ·) hsame).mpr hheld
      · exact hof hreach hall
    · exact hof hreach (hpush.replaced dm hdm2 hreach2 (by rwa [SoleOnHost, hcluster])).2
  · have hsame := hpush.others dm (by rwa [Reaches, hcluster])
    exact (congrArg (i.toIntent ∈ ·) hsame).mpr (hheld.resolve_right fun h => hreach h.1)

theorem pushed_of_mem (hone : w.OneProcessPerHost) (hreach : w.Reaches (w.selectedNodes strategy) dm.endpoint)
    (h : i.toIntent ∈ (w'.process dm).intents) :
    ∃ pod ∈ w.selectedPods strategy, strategy.intentFor pod = i.toIntent := by
  have hsole := hone.sole hdm (w.selectedNodes strategy)
  obtain ⟨a, ha, hwire⟩ := (hpush.replaced dm (hcluster ▸ hdm) (by rwa [Reaches, hcluster])
    (by rwa [SoleOnHost, hcluster])).1 _ h
  obtain ⟨pod, hpod, hcore⟩ := mem_core hadded ha
  exact ⟨pod, hpod, (Prod.mk.inj hcore).1.trans hwire⟩

end

/-- A decision maker in sync holds the intents of its node. -/
theorem World.InSync.held {dm i} (h : w.InSync) (hdm : dm ∈ w.cluster.decisionMakers) (honline : dm.state = .online)
    (hi : i ∈ w.intents) (hnode : i.nodeID = dm.nodeID) : i.toIntent ∈ (w.process dm).intents :=
  (h dm hdm honline _).mpr ⟨i, hi, hnode, rfl⟩

theorem create_keepsOthers {operator strategy s} (hsync : w.InSync)
    (h : Runs go env (createScheduleStrategy go operator strategy) w calls (.ok s) w') :
    (w.PushContains strategy w.intents → w'.OthersInForce s.id) ∧
      (w.OneProcessPerHost → (∀ i ∈ w.intents, i.strategyID ≠ s.id) →
        (w'.OthersInForce s.id ↔ w.PushContains strategy w.intents)) := by
  obtain ⟨w1, added, hstore, hproc, -, hstage⟩ := createScheduleStrategy_ok h
  obtain ⟨hpush, hcluster, hadded⟩ := And.intro hstage.done (And.intro hstage.cluster hstage.core)
  have hiff := othersInForce_iff w w1 s.id hpush.frame.core (fun i hid => ?_)
    (hpush.frame.cluster.trans hcluster)
  · have hsuff : w.PushContains strategy w.intents → w'.OthersInForce s.id := fun hcontains => by
      refine hiff.mpr fun i hi dm hdm honline hnode => ?_
      have hi := (mem_intentsOfOthers.mp hi).1
      refine mem_of_push hpush hcluster hadded hdm hnode.symm
        (fun hreach => hcontains dm hdm honline hreach i hi hnode.symm) (.inl ?_)
      rw [World.process, hproc]
      exact hsync.held hdm honline hi hnode.symm
    refine ⟨hsuff, fun hone hfresh => ⟨fun hforce dm hdm honline hreach i hi hnode => ?_, hsuff⟩⟩
    exact pushed_of_mem hpush hcluster hadded hdm hone hreach
      (hiff.mp hforce i (mem_intentsOfOthers.mpr ⟨hi, hfresh i hi⟩) dm hdm honline hnode.symm)
  · rw [hstore, mem_append, or_iff_left]
    intro hi
    obtain ⟨_, _, hcore⟩ := mem_core hadded hi
    exact hid (Prod.mk.inj hcore).2.symm

theorem update_keepsOthers {operator strategyID strategy id} (hsync : w.InSync)
    (hid : objectIDFromHex strategyID = .ok id)
    (h : Runs go env (updateScheduleStrategy go operator strategyID strategy) w calls (.ok ()) w') :
    (w.PushContains strategy (w.intentsOfOthers id) ∧ w.DropSpares strategy id → w'.OthersInForce id) ∧
      (w.OneProcessPerHost → Clean calls →
        (w'.OthersInForce id ↔ w.PushContains strategy (w.intentsOfOthers id) ∧ w.DropSpares strategy id)) := by
  obtain ⟨_, w₂, added, hid', hstore, hdrops, -, hstage⟩ := updateScheduleStrategy_ok h
  obtain ⟨hpush, hadded⟩ := And.intro hstage.done hstage.core
  obtain rfl := Except.ok.inj (hid.symm.trans hid')
  have hcluster := hdrops.cluster
  have hiff := othersInForce_iff w w₂ id hpush.frame.core (fun i hid => ?_) (hpush.frame.cluster.trans hcluster)
  · have hsuff : w.PushContains strategy (w.intentsOfOthers id) ∧ w.DropSpares strategy id → w'.OthersInForce id :=
      fun ⟨hcontains, hspares⟩ => by
        refine hiff.mpr fun i hi dm hdm honline hnode => ?_
        refine mem_of_push hpush hcluster hadded hdm hnode.symm
          (fun hreach => hcontains dm hdm honline hreach i hi hnode.symm) ?_
        by_cases hnew : w.Reaches (w.selectedNodes strategy) dm.endpoint ∧
          w.SoleOnHost (w.selectedNodes strategy) dm.endpoint
        · exact .inr hnew
        · refine .inl (hdrops.keep _ _ (hsync.held hdm honline (mem_intentsOfOthers.mp hi).1 hnode.symm) ?_)
          rintro dm' he ⟨⟨hdm', hold⟩, j, hj, hpod⟩
          exact hspares dm hdm honline ⟨dm', hdm', mem_map.mpr hold, he⟩ hnew i hi hnode.symm j hj hpod.symm
    refine ⟨hsuff, fun hone hclean => ⟨fun hforce => ⟨fun dm hdm honline hreach i hi hnode => ?_,
      fun dm hdm honline hold hnew i hi hnode j hj hpod => ?_⟩, hsuff⟩⟩
    · exact pushed_of_mem hpush hcluster hadded hdm hone hreach (hiff.mp hforce i hi dm hdm honline hnode.symm)
    · have hnot : ¬w₂.Reaches (w.selectedNodes strategy) dm.endpoint := fun hreach => by
        rw [Reaches, hcluster] at hreach
        exact hnew ⟨hreach, hone.sole hdm _⟩
      have hmem := hiff.mp hforce i hi dm hdm honline hnode.symm
      rw [show (w'.process dm).intents = (w₂.process dm).intents from hpush.others dm hnot] at hmem
      obtain ⟨dm', hdm', hold, he⟩ := hold
      rw [World.process, ← he] at hmem
      exact hdrops.gone (fun _ => True) (hclean.for _) dm' trivial _ hmem ⟨⟨hdm', mem_map.mp hold⟩, j, hj, hpod.symm⟩
  · rw [hstore, mem_append, mem_intentsOfOthers, or_iff_left, and_iff_left hid]
    intro hi
    obtain ⟨_, _, hcore⟩ := mem_core hadded hi
    exact hid (Prod.mk.inj hcore).2.symm

/-- **Other strategies stay in force exactly where the push contains them**: a
decision maker that receives the intents of a strategy holds nothing else
afterwards, and one told to drop a pod drops it for every strategy. -/
theorem strategyChange_keepsOthers_iff (hsync : w.InSync) (operator : Claims) (strategy : ScheduleStrategy) :
    (∀ calls s w', Runs go env (createScheduleStrategy go operator strategy) w calls (.ok s) w' →
      (w.PushContains strategy w.intents → w'.OthersInForce s.id) ∧
        (w.OneProcessPerHost → (∀ i ∈ w.intents, i.strategyID ≠ s.id) →
          (w'.OthersInForce s.id ↔ w.PushContains strategy w.intents))) ∧
      ∀ strategyID id calls w', objectIDFromHex strategyID = .ok id →
        Runs go env (updateScheduleStrategy go operator strategyID strategy) w calls (.ok ()) w' →
        (w.PushContains strategy (w.intentsOfOthers id) ∧ w.DropSpares strategy id → w'.OthersInForce id) ∧
          (w.OneProcessPerHost → Clean calls →
            (w'.OthersInForce id ↔ w.PushContains strategy (w.intentsOfOthers id) ∧ w.DropSpares strategy id)) :=
  ⟨fun _ _ _ h => create_keepsOthers hsync h, fun _ _ _ _ hid h => update_keepsOthers hsync hid h⟩

namespace OneNode

def operator : Claims := ⟨(objectID 9).hex⟩

def pod (podID : String) : Pod :=
  { name := podID, k8sNamespace := "default", labels := ∅, podID := podID, nodeID := "a" }

def strategy (n : UInt8) : ScheduleStrategy :=
  { id := objectID n, creatorID := objectID 9, commandRegex := ".*", priority := 1, executionTime := 20 }

/-- New IDs that differ from call to call. -/
def newIDs (n : Nat) : Choice := { newID := objectID (UInt8.ofNat (100 + n)) }

/-- A decision maker sent the intents. -/
def sentIntents (intents : List ScheduleIntent) : Process :=
  (Process.fresh.serve .insertion (.ok ()) (.handleIntents (intents.map ScheduleIntent.toIntent))).2

/-- Strategies 6 and 7 with the intents stored, all of them held by the decision
maker; `pods` are what a strategy selects. -/
def syncedWorld (pods : List Pod) (intents : Resources .intent) : World where
  store := Function.update (store intents (.empty _)) .strategy ⟨[strategy 6, strategy 7], by decide⟩
  processes _ := sentIntents intents.objects
  cluster := cluster pods []

theorem syncedWorld_inSync {pods intents}
    (hnode : ∀ i ∈ intents.objects, i.nodeID = "a") : (syncedWorld pods intents).InSync := by
  intro dm hdm _ x
  obtain rfl := mem_singleton.mp hdm
  have hcache : (sentIntents intents.objects).intents = intents.objects.map ScheduleIntent.toIntent := by
    simp [sentIntents, Process.serve, handle, processIntents, normalizeInputs, Process.intents]
  rw [show ((syncedWorld pods intents).process dm).intents = _ from hcache, mem_map]
  exact exists_congr fun i => and_congr_right fun hi => (and_iff_right (hnode i hi)).symm

/-- Strategy 7 has an intent for pod `p`, and what is created selects `pod`. -/
def onePodWorld (podID : String) : World := syncedWorld [pod podID] onePod

theorem onePodWorld_inSync (podID : String) : (onePodWorld podID).InSync :=
  syncedWorld_inSync fun i hi => by
    obtain rfl := mem_singleton.mp hi
    rfl

end OneNode

/-- A strategy for pod `q` is created, and the intent for pod `p` on that node
is gone from the decision maker. -/
theorem createScheduleStrategy_displaces :
    (onePodWorld "q").InSync ∧
      ∃ calls s w', Runs .insertion newIDs (createScheduleStrategy .insertion operator (strategy 0))
        (onePodWorld "q") calls (.ok s) w' ∧ Clean calls ∧ ¬w'.OthersInForce s.id :=
  ⟨onePodWorld_inSync "q", exists_ok (by decide +kernel)⟩

/-- A strategy for pod `p`, created or updated to say the same, leaves the other
one's intent in force. -/
theorem strategyChange_keepsOthers_iff_oneNode :
    (∃ calls s w', Runs .insertion newIDs
        (createScheduleStrategy .insertion operator (strategy 0)) (onePodWorld "p") calls (.ok s) w' ∧
        w'.OthersInForce s.id) ∧
      ∃ calls w', Runs .insertion newIDs
        (updateScheduleStrategy .insertion operator (objectID 6).hex (strategy 6))
        (onePodWorld "p") calls (.ok ()) w' ∧ w'.OthersInForce (objectID 6) := by
  have hsync := onePodWorld_inSync "p"
  constructor
  · refine exists_ok_of (fun _ _ _ => True) (by decide +kernel) fun calls s w' hrun _ => ?_
    exact ((strategyChange_keepsOthers_iff hsync _ _).1 _ _ _ hrun).1 (by decide)
  · refine exists_unit_of (fun _ _ => True) (by decide +kernel) fun calls w' hrun _ => ?_
    exact ((strategyChange_keepsOthers_iff hsync _ _).2 _ _ _ _ rfl hrun).1 (by decide)

end Gthulhu.Manager
