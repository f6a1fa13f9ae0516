/-
Whose strategies and intents an operator can touch.

Two things follow from what the services write. Strategies and intents of
other operators stay as they are, as long as no intent of theirs belongs to a
strategy of the caller's (`othersKept_of_permits`). And every intent keeps
belonging to a strategy of its own creator (`owned_of_permits`), which is how
it is in every store that successful operations lead to (`Reached.owned`).
-/
import Gthulhu.Manager.ScopeFacts

namespace Gthulhu.Manager

open Lib World Prog Run OneNode

/-! ## Others' strategies and intents -/

/-- The strategies and intents whose creator is not in `own` are as they were. -/
structure World.OthersKept (own : ObjectID → Prop) (w w' : World) : Prop where
  strategies : ∀ s, ¬own s.creatorID → (s ∈ w'.strategies ↔ s ∈ w.strategies)
  intents : ∀ i, ¬own i.creatorID → (i ∈ w'.intents ↔ i ∈ w.intents)

/-- The intents of others belong to strategies of others. -/
def World.Separate (own : ObjectID → Prop) (w : World) : Prop :=
  ∀ i ∈ w.intents, ¬own i.creatorID → ∃ s ∈ w.strategies, ¬own s.creatorID ∧ s.id = i.strategyID

/-- What of `own` can be found shares no ID with what others have in `w`, and
no ID of theirs is given out. -/
def World.scopeOf (w : World) (own : ObjectID → Prop) : Scope where
  strategy s := ∀ s' ∈ w.strategies, ¬own s'.creatorID → s'.id = s.id → ¬own s.creatorID
  intent i := ∀ i' ∈ w.intents, ¬own i'.creatorID → i'.id = i.id → ¬own i.creatorID
  inserted id := ∀ i ∈ w.intents, ¬own i.creatorID → i.id ≠ id
  deleting := True

section

variable {own : ObjectID → Prop} {go : SliceSort} {env : Nat → Choice} {w w₁ w' : World} {calls : Calls}

theorem World.strategy_eq {s s'} (hs : s ∈ w.strategies) (hs' : s' ∈ w.strategies) (hid : s.id = s'.id) : s = s' :=
  List.inj_on_of_nodup_map (w.store .strategy).nodup hs hs' hid

theorem World.intent_eq {i i'} (hi : i ∈ w.intents) (hi' : i' ∈ w.intents) (hid : i.id = i'.id) :
    i = i' :=
  List.inj_on_of_nodup_map (w.store .intent).nodup hi hi' hid

theorem World.OthersKept.refl (own : ObjectID → Prop) (w : World) : OthersKept own w w :=
  ⟨fun _ _ => .rfl, fun _ _ => .rfl⟩

theorem World.OthersKept.trans (h : OthersKept own w w₁) (h' : OthersKept own w₁ w') : OthersKept own w w' :=
  ⟨fun s hs => (h'.strategies s hs).trans (h.strategies s hs), fun i hi => (h'.intents i hi).trans (h.intents i hi)⟩

theorem World.OthersKept.separate (h : OthersKept own w w') (hsep : w.Separate own) : w'.Separate own := by
  intro i hi hown
  obtain ⟨s, hs, howns, hid⟩ := hsep i ((h.intents i hown).mp hi) hown
  exact ⟨s, (h.strategies s howns).mpr hs, howns, hid⟩

/-- A change within the scope is none to what others have. -/
theorem World.OthersKept.change (hsep : w.Separate own) (h : OthersKept own w w₁) (hc : Change (w.scopeOf own) own w₁ w') :
    OthersKept own w w' := by
  have hstrategy : ∀ s ∈ w.strategies, ¬own s.creatorID → ¬(w.scopeOf own).OwnStrategy own s.id := by
    rintro s hs howns ⟨s0, hscope, hown0, hid⟩
    exact hscope s hs howns hid.symm hown0
  have hintent : ∀ i ∈ w.intents, ¬own i.creatorID → ¬(w.scopeOf own).Touches own i.id := by
    rintro i hi howni (hinserted | ⟨i0, hscope, hown0, hid⟩)
    · exact hinserted i hi howni rfl
    · exact hscope i hi howni hid.symm hown0
  have hstrategyOf : ∀ i ∈ w.intents, ¬own i.creatorID → ¬(w.scopeOf own).OwnStrategy own i.strategyID := by
    intro i hi howni hstr
    obtain ⟨s, hs, howns, hid⟩ := hsep i hi howni
    exact hstrategy s hs howns (hid ▸ hstr)
  have howner : ∀ {id creatorID}, (w.scopeOf own).Owner own id creatorID → own creatorID := by
    rintro id creatorID ⟨s, -, howns, -, rfl⟩
    exact howns
  refine ⟨fun s howns => ⟨fun hs => ?_, fun hs => ?_⟩, fun i howni => ⟨fun hi => ?_, fun hi => ?_⟩⟩
  · rcases hc.strategy_from s hs with hs | hs
    · exact (h.strategies s howns).mp hs
    · exact (howns (howner hs)).elim
  · rcases hc.strategy_kept s ((h.strategies s howns).mpr hs) with hs' | hs'
    · exact hs'
    · exact (hstrategy s hs howns hs').elim
  · rcases hc.intent_from i hi with hi | hi | ⟨htouch, j, hj, hid, hstr, hcreator⟩
    · exact (h.intents i howni).mp hi
    · exact (howni (howner hi)).elim
    · have hownj : ¬own j.creatorID := hcreator ▸ howni
      exact (hintent j ((h.intents j hownj).mp hj) hownj (hid ▸ htouch)).elim
  · rcases hc.intent_kept i ((h.intents i howni).mpr hi) with hi' | hi' | hi'
    · exact hi'
    · exact (hstrategyOf i hi howni hi').elim
    · exact (hintent i hi howni hi').elim

/-- What is stored is in scope as long as others' things are as they were. -/
theorem World.OthersKept.answers (h : OthersKept own w w₁) {call r} (hs : serve go env call w₁ = (r, w')) :
    (w.scopeOf own).Answers ⟨call, r⟩ := by
  refine serve_answers (fun s hs s' hs' hown' hid => ?_) (fun i hi i' hi' hown' hid => ?_) (fun id hfree i hi howni => ?_) hs
  · rwa [World.strategy_eq hs ((h.strategies s' hown').mpr hs') hid.symm]
  · rwa [World.intent_eq hi ((h.intents i' hown').mpr hi') hid.symm]
  · exact hfree i ((h.intents i howni).mpr hi)

/-- **A service that stays in scope leaves others alone**, however it ends. -/
theorem othersKept_of_permits {α : Type} {K : α → Prop} {x : Svc α} {r : Except Error α} (hsep : w.Separate own)
    (hx : (w.scopeOf own).Permits own K x) (h : Runs go env x w calls r w') : OthersKept own w w' :=
  (Run.makes (J := OthersKept own w) (fun _ _ hj ha => ⟨hj.answers rfl, hj.change hsep (serve_change ha rfl)⟩) h hx
    (.refl own w)).1

end

/-! ## Whose strategy an intent belongs to -/

def World.HasStrategy (w : World) (id creatorID : ObjectID) : Prop :=
  ∃ s ∈ w.strategies, s.id = id ∧ s.creatorID = creatorID

/-- Every intent belongs to a stored strategy, and to that strategy's creator. -/
def World.Owned (w : World) : Prop := ∀ i ∈ w.intents, w.HasStrategy i.strategyID i.creatorID

/-- Everything is in scope, and no strategy is to be deleted. -/
def World.strategyScope (w : World) : Scope where
  strategy s := w.HasStrategy s.id s.creatorID
  intent _ := True
  inserted _ := True
  deleting := False

section

variable {go : SliceSort} {env : Nat → Choice} {w w₁ w' : World} {calls : Calls}

theorem World.Owned.separate (h : w.Owned) (own : ObjectID → Prop) : w.Separate own := by
  intro i hi hown
  obtain ⟨s, hs, hid, hcreator⟩ := h i hi
  exact ⟨s, hs, hcreator ▸ hown, hid⟩

theorem World.Owned.of_store (h : w.Owned) (hs : w'.store .strategy = w.store .strategy)
    (hi : w'.store .intent = w.store .intent) : w'.Owned := by
  unfold Owned HasStrategy World.strategies World.intents
  rw [hs, hi]
  exact h

/-- A call within the scope keeps the strategies' IDs and creators, and what the
intents belong to. -/
theorem Change.owned {own} (hw : w₁.Owned) (hsame : ∀ id creatorID, w₁.HasStrategy id creatorID ↔
    w.HasStrategy id creatorID) (hc : Change w.strategyScope own w₁ w') :
    w'.Owned ∧ ∀ id creatorID, w'.HasStrategy id creatorID ↔ w.HasStrategy id creatorID := by
  have howner : ∀ {id creatorID}, w.strategyScope.Owner own id creatorID → w.HasStrategy id creatorID := by
    rintro id creatorID ⟨s, hs, -, rfl, rfl⟩
    exact hs
  have hsame' : ∀ id creatorID, w'.HasStrategy id creatorID ↔ w.HasStrategy id creatorID := by
    intro id creatorID
    constructor
    · rintro ⟨s, hs, rfl, rfl⟩
      rcases hc.strategy_from s hs with hs | hs
      · exact (hsame _ _).mp ⟨s, hs, rfl, rfl⟩
      · exact howner hs
    · intro h
      obtain ⟨s, hs, rfl, rfl⟩ := (hsame _ _).mpr h
      rcases hc.replaced id s hs with hs' | ⟨s', hs', hid, hown'⟩
      · exact ⟨s, hs', rfl, rfl⟩
      · -- The one that has taken its place is of the same creator.
        obtain ⟨_, hs1, hid1, hcreator1⟩ := (hsame _ _).mpr (howner hown')
        rw [World.strategy_eq hs1 hs (hid1.trans hid)] at hcreator1
        exact ⟨s', hs', hid, hcreator1.symm⟩
  refine ⟨fun i hi => (hsame' _ _).mpr ?_, hsame'⟩
  rcases hc.intent_from i hi with hi | hi | ⟨-, j, hj, -, hstrategy, hcreator⟩
  · exact (hsame _ _).mp (hw i hi)
  · exact howner hi
  · exact hstrategy ▸ hcreator ▸ (hsame _ _).mp (hw j hj)

theorem owned_of_permits {α : Type} {K : α → Prop} {x : Svc α} {r : Except Error α} (hw : w.Owned)
    (hx : w.strategyScope.Permits (fun _ => True) K x) (h : Runs go env x w calls r w') :
    w'.Owned ∧ ∀ a, r = .ok a → K a := by
  obtain ⟨⟨hown, -⟩, hk⟩ := Run.makes
    (J := fun w₁ => w₁.Owned ∧ ∀ id creatorID, w₁.HasStrategy id creatorID ↔ w.HasStrategy id creatorID)
    (fun w₁ call hj ha => ⟨serve_answers (fun s hs => (hj.2 _ _).mp ⟨s, hs, rfl, rfl⟩) (fun _ _ => trivial)
      (fun _ _ => trivial) rfl, (serve_change ha rfl).owned hj.1 hj.2⟩) h hx ⟨hw, fun _ _ => .rfl⟩
  exact ⟨hown, hk⟩

theorem createScheduleStrategy_owned {operator strategy s} (hw : w.Owned)
    (h : Runs go env (createScheduleStrategy go operator strategy) w calls (.ok s) w') : w'.Owned := by
  rw [createScheduleStrategy] at h
  obtain ⟨operatorID, _, _, _, h1, h2, rfl⟩ := ok_bind_inv h
  obtain ⟨_, rfl⟩ := parse_ok h1
  obtain ⟨pods, _, _, _, h3, h4, rfl⟩ := ok_bind_inv h2
  have hu1 := (selectedPods_ok h3).1
  split at h4
  · exact (throw_ok h4).elim
  obtain ⟨time, w3, _, _, h5, h6, rfl⟩ := ok_bind_inv h4
  have hu2 := hu1.trans (nowCall_inv h5).1
  obtain ⟨intents, w4, _, _, h7, h8, rfl⟩ := ok_bind_inv h6
  have hw3 : w3.Owned := hw.of_store (by rw [hu2.store]) (by rw [hu2.store])
  obtain ⟨hw4, hintents⟩ := owned_of_permits hw3 (makes_newScheduleIntents Call.Harmless.allowed) h7
  obtain ⟨⟨s', added⟩, w5, _, _, h9, h10, rfl⟩ := ok_bind_inv h8
  obtain ⟨_, hins⟩ := wrapped_ok h9
  obtain ⟨_, hs, hs', hinserted, b, hbase, hb⟩ := insertWithOwned_ok hins
  have hadded := Kind.Inserted.map_eq ScheduleIntent.belongs hinserted fun _ _ hb => congrArg (Prod.mk s'.id) hb.creatorID
  have hcreator : s'.creatorID = operatorID := hbase ▸ hb.creatorID
  have hstrategies : w5.strategies = w4.strategies ++ [s'] := by
    rw [World.strategies, hs'.others _ (by decide), hs.objects]
    rfl
  have hstored : w5.intents = w4.intents ++ added := by
    rw [World.intents, hs'.objects, hs.others _ (by decide)]
    rfl
  have hw5 : w5.Owned := by
    intro i hi
    rw [hstored, List.mem_append] at hi
    rcases hi with hi | hi
    · obtain ⟨s0, hs0, hrest⟩ := hw4 i hi
      exact ⟨s0, hstrategies ▸ List.mem_append_left _ hs0, hrest⟩
    · -- What is inserted belongs to the new strategy and to its creator.
      have hmem := List.mem_map_of_mem (f := ScheduleIntent.belongs) hi
      rw [hadded, List.mem_map] at hmem
      obtain ⟨i0, hi0, hbelongs⟩ := hmem
      obtain ⟨hid, hcreator0⟩ := Prod.mk.inj hbelongs
      refine ⟨s', hstrategies ▸ List.mem_append_right _ (by simp), hid, ?_⟩
      exact hcreator.trans ((hintents intents rfl i0 hi0).2.1.symm.trans hcreator0)
  refine (owned_of_permits (K := fun _ => True) hw5 ?_ h10).1
  refine Makes.bind (makes_any trivial) fun dms _ => makes_ite (fun _ => makes_pure trivial) fun _ => ?_
  refine Makes.bind (makes_deliver trivial (fun _ _ => makes_any trivial) fun _ _ => makes_any fun _ _ => .inl trivial)
    fun _ _ => makes_pure trivial

theorem deleteScheduleStrategy_owned {operator strategyID} (hw : w.Owned)
    (h : Runs go env (deleteScheduleStrategy operator strategyID) w calls (.ok ()) w') : w'.Owned := by
  obtain ⟨id, -, hintents, hkept, -⟩ := deleteScheduleStrategy_ok h
  intro i hi
  rw [hintents, mem_intentsOfOthers] at hi
  obtain ⟨s, hs, hid, hcreator⟩ := hw i hi.1
  exact ⟨s, hkept s hs (hid ▸ hi.2), hid, hcreator⟩

end

/-! ## Stores that operations lead to -/

/-- The worlds whose store successful operations have led to, starting without
strategies and intents. Whatever else happens leaves both alone: pods come and
go, decision makers restart, node policies change. -/
inductive Reached (go : SliceSort) : World → Prop
  | start {w : World} : w.strategies = [] → w.intents = [] → Reached go w
  | elsewhere {w w' : World} : Reached go w → w'.store .strategy = w.store .strategy →
    w'.store .intent = w.store .intent → Reached go w'
  | create {w w' : World} {env operator strategy calls s} : Reached go w →
    Runs go env (createScheduleStrategy go operator strategy) w calls (.ok s) w' → Reached go w'
  | update {w w' : World} {env operator strategyID strategy calls} : Reached go w →
    Runs go env (updateScheduleStrategy go operator strategyID strategy) w calls (.ok ()) w' → Reached go w'
  | delete {w w' : World} {env operator strategyID calls} : Reached go w →
    Runs go env (deleteScheduleStrategy operator strategyID) w calls (.ok ()) w' → Reached go w'
  | deleteIntents {w w' : World} {env operator intentIDs calls} : Reached go w →
    Runs go env (deleteScheduleIntents operator intentIDs) w calls (.ok ()) w' → Reached go w'
  | refresh {w w' : World} {env calls} : Reached go w → Runs go env refreshStaleIntents w calls (.ok ()) w' →
    Reached go w'
  | resync {w w' : World} {env calls} : Reached go w → Runs go env (resyncIntentsToDMs go) w calls (.ok ()) w' →
    Reached go w'

theorem Reached.owned {go w} (h : Reached go w) : w.Owned := by
  induction h with
  | start hs hi =>
    intro i hmem
    rw [hi] at hmem
    cases hmem
  | elsewhere _ hs hi ih => exact ih.of_store hs hi
  | create _ hrun ih => exact createScheduleStrategy_owned ih hrun
  | update _ hrun ih => exact (owned_of_permits ih (permits_updateScheduleStrategy fun _ _ => trivial) hrun).1
  | delete _ hrun ih => exact deleteScheduleStrategy_owned ih hrun
  | deleteIntents _ hrun ih => exact (owned_of_permits ih (permits_deleteScheduleIntents fun _ _ => trivial) hrun).1
  | refresh _ hrun ih => exact (owned_of_permits ih (permits_refreshStaleIntents fun _ => trivial) hrun).1
  | resync _ hrun ih => exact (owned_of_permits ih (permits_resyncIntentsToDMs fun _ => trivial) hrun).1

/-! ## One operator's calls -/

/-- Calls of the operator, one after the other, each however it ends. -/
inductive OperatorCalls (go : SliceSort) (operator : Claims) : World → World → Prop
  | none {w : World} : OperatorCalls go operator w w
  | update {w w₁ w' : World} {env strategyID strategy calls r} : OperatorCalls go operator w w₁ →
    Runs go env (updateScheduleStrategy go operator strategyID strategy) w₁ calls r w' → OperatorCalls go operator w w'
  | delete {w w₁ w' : World} {env strategyID calls r} : OperatorCalls go operator w w₁ →
    Runs go env (deleteScheduleStrategy operator strategyID) w₁ calls r w' → OperatorCalls go operator w w'
  | deleteIntents {w w₁ w' : World} {env intentIDs calls r} : OperatorCalls go operator w w₁ →
    Runs go env (deleteScheduleIntents operator intentIDs) w₁ calls r w' → OperatorCalls go operator w w'

/-- The operator is the creator. -/
def Claims.Is (operator : Claims) (creatorID : ObjectID) : Prop := operator.getBsonObjectUID = .ok creatorID

theorem OperatorCalls.othersKept {go operator w w'} (hsep : w.Separate operator.Is)
    (h : OperatorCalls go operator w w') : OthersKept operator.Is w w' := by
  induction h with
  | none => exact .refl _ _
  | update _ hrun ih =>
    exact ih.trans (othersKept_of_permits (ih.separate hsep) (permits_updateScheduleStrategy fun _ => id) hrun)
  | delete _ hrun ih =>
    exact ih.trans (othersKept_of_permits (ih.separate hsep) (permits_deleteScheduleStrategy trivial fun _ => id) hrun)
  | deleteIntents _ hrun ih =>
    exact ih.trans (othersKept_of_permits (ih.separate hsep) (permits_deleteScheduleIntents fun _ => id) hrun)

/-- The text is the ID of a stored intent of the operator's. -/
def World.HasIntentOf (w : World) (operator : Claims) (text : String) : Prop :=
  ∃ i ∈ w.intents, objectIDFromHex text = .ok i.id ∧ operator.Is i.creatorID

section

variable {go : SliceSort} {env : Nat → Choice} {w w₁ w' : World} {calls : Calls}

theorem parse_inv {α : Type} {message : String} {parsed : Except Error α} {r : Except Error α}
    (h : Runs go env (Svc.parse message parsed) w calls r w') : calls = [] ∧ w' = w := by
  cases parsed with
  | ok a =>
    obtain ⟨hcalls, -, hw⟩ := pure_ok_inv h
    exact ⟨hcalls, hw⟩
  | error err =>
    obtain ⟨hcalls, -, hw⟩ := throw_inv h
    exact ⟨hcalls, hw⟩

/-- Parsing calls nothing, and fails at a text that is not an ID. -/
theorem parseIDs_inv {message texts r} (h : Runs go env (parseIDs message texts) w calls r w') :
    calls = [] ∧ w' = w ∧ (∀ e, r = .error e → ∃ text ∈ texts, ∀ id, objectIDFromHex text ≠ .ok id) := by
  induction texts generalizing calls r w w' with
  | nil =>
    obtain ⟨hcalls, rfl, hw⟩ := pure_ok_inv h
    exact ⟨hcalls, hw, by simp⟩
  | cons text texts ih =>
    rw [parseIDs] at h
    rcases except_bind_inv h with ⟨e, rfl, h1⟩ | ⟨id, _, _, _, h1, h2, rfl⟩
    · refine ⟨(parse_inv h1).1, (parse_inv h1).2, fun _ _ => ⟨text, by simp, fun id hid => ?_⟩⟩
      rw [hid] at h1
      cases (pure_ok_inv h1).2.1
    obtain ⟨rfl, rfl⟩ := parse_inv h1
    rcases except_bind_inv h2 with ⟨e, rfl, h3⟩ | ⟨rest, _, _, _, h3, h4, rfl⟩
    · obtain ⟨rfl, rfl, hbad⟩ := ih h3
      obtain ⟨text', htext', hbad'⟩ := hbad e rfl
      exact ⟨rfl, rfl, fun _ _ => ⟨text', List.mem_cons_of_mem _ htext', hbad'⟩⟩
    · obtain ⟨rfl, rfl, -⟩ := ih h3
      obtain ⟨rfl, rfl, rfl⟩ := pure_ok_inv h4
      exact ⟨rfl, rfl, by simp⟩

/-- One ID that is not of the operator's is enough to refuse the call. -/
theorem deleteScheduleIntents_refused {operator intentIDs r} (hnot : ∃ text ∈ intentIDs, ¬w.HasIntentOf operator text)
    (h : Runs go env (deleteScheduleIntents operator intentIDs) w calls r w') : Unchanged w w' ∧ r ≠ .ok () := by
  obtain ⟨text, htext, hnot⟩ := hnot
  rw [deleteScheduleIntents, if_neg (by simpa using List.ne_nil_of_mem htext)] at h
  rcases except_bind_inv h with ⟨e, rfl, h1⟩ | ⟨operatorID, _, _, _, h1, h2, rfl⟩
  · exact ⟨(parse_inv h1).2 ▸ .refl _, by simp⟩
  obtain ⟨hoperator, rfl⟩ := parse_ok h1
  rcases except_bind_inv h2 with ⟨e, rfl, h3⟩ | ⟨ids, _, _, _, h3, h4, rfl⟩
  · exact ⟨(parseIDs_inv h3).2.1 ▸ .refl _, by simp⟩
  obtain ⟨hids, -, rfl⟩ := parseIDs_ok h3
  obtain ⟨id, htextid⟩ := exists_mapM_ok.mp ⟨ids, hids⟩ text htext
  have hid : id ∈ ids := (mem_of_mapM_ok hids id).mpr ⟨text, htext, htextid⟩
  have hne : ids ≠ [] := List.ne_nil_of_mem hid
  rcases except_bind_inv h4 with ⟨e, rfl, h5⟩ | ⟨intents, w3, _, _, h5, h6, rfl⟩
  · obtain ⟨-, _, hq⟩ := call_inv h5
    exact ⟨query_unchanged hq, by simp⟩
  obtain ⟨_, hq⟩ := call_ok h5
  have hu : Unchanged w w3 := query_unchanged hq
  dsimp only at h6
  split at h6
  · obtain ⟨-, rfl, rfl⟩ := throw_inv h6
    exact ⟨hu, by simp⟩
  split at h6
  · obtain ⟨-, rfl, rfl⟩ := throw_inv h6
    exact ⟨hu, by simp⟩
  split at h6
  · obtain ⟨-, rfl, rfl⟩ := throw_inv h6
    exact ⟨hu, by simp⟩
  -- As many have been found as asked for, so the one of that text too.
  rename_i hcount
  have hanswers := serve_answers (c := ⟨fun _ => True, (· ∈ w.intents), fun _ => True, True⟩) (fun _ _ => trivial)
    (fun _ hi => hi) (fun _ _ => trivial) (Run.call_inv h5).2
  obtain ⟨hfound, hall⟩ := hanswers intents rfl
  have hlength : intents.length = ids.length := by
    rwa [not_not, List.filter_eq_self.mpr fun i hi => ?_] at hcount
    simpa using (hfound i hi).2.1.resolve_left hne
  obtain ⟨i, hi, rfl⟩ := hall hne hlength id hid
  obtain ⟨hstored, -, hmatch⟩ := hfound i hi
  simp [Repo.matchesIntentFilter, Repo.admits] at hmatch
  exact (hnot ⟨i, hstored, htextid, hmatch ▸ hoperator⟩).elim

/-- **An operator touches nothing of others'.** From every store that
successful operations lead to, and whatever an operator then calls, with
whatever IDs and outcome: the strategies and intents of others are as they
were, a delete of intents that are not all the operator's changes nothing, and
one that succeeds removes those named and nothing else. -/
theorem operator_touchesOwn (hreached : Reached go w) (operator : Claims) (hcalls : OperatorCalls go operator w w₁) :
    OthersKept operator.Is w w₁ ∧
      ∀ env intentIDs calls r w', Runs go env (deleteScheduleIntents operator intentIDs) w₁ calls r w' →
        ((∃ text ∈ intentIDs, ¬w₁.HasIntentOf operator text) → Unchanged w₁ w' ∧ r ≠ .ok ()) ∧
          (r = .ok () → w'.strategies = w₁.strategies ∧ ∃ ids, intentIDs.mapM objectIDFromHex = .ok ids ∧
            w'.intents = w₁.intents.filter fun i => i.id ∉ ids) := by
  refine ⟨hcalls.othersKept (hreached.owned.separate _), fun env intentIDs calls r w' h => ⟨fun hnot => ?_, fun hr => ?_⟩⟩
  · exact deleteScheduleIntents_refused hnot h
  · subst hr
    obtain ⟨ids, hids, hintents, hstrategies, -⟩ := deleteScheduleIntents_ok h
    exact ⟨hstrategies, ids, hids, hintents⟩

end

namespace OneNode

/-- Nothing stored yet, and a pod to select. -/
def newWorld : World where
  store := store (.empty _) (.empty _)
  processes _ := .fresh
  cluster := cluster [pod "p"] []

def rival : Claims := ⟨(objectID 8).hex⟩

end OneNode

/-- A strategy has been created, and another operator asks for its intent to be
deleted. -/
theorem operator_touchesOwn_rival :
    ∃ w w' i calls r, Reached .insertion w ∧ w.intents = [i] ∧
      Runs .insertion newIDs (deleteScheduleIntents rival [i.id.hex]) w calls r w' ∧
      r ≠ .ok () ∧ w'.intents = [i] ∧ OthersKept rival.Is w w' := by
  obtain ⟨calls, s, w, hcreate, hlen, hcreator⟩ : ∃ calls s w, Runs .insertion newIDs
      (createScheduleStrategy .insertion operator (strategy 0)) newWorld calls (.ok s) w ∧
      w.intents.length = 1 ∧ ∀ i ∈ w.intents, i.creatorID = objectID 9 := exists_ok (by decide +kernel)
  obtain ⟨i, hi⟩ := List.length_eq_one_iff.mp hlen
  have hreached : Reached .insertion w := .create (.start rfl rfl) hcreate
  have hrun := Prog.run_exec (h := serve .insertion newIDs)
    (deleteScheduleIntents rival [i.id.hex]).run w
  have hnot : ¬w.HasIntentOf rival i.id.hex := by
    rintro ⟨j, hj, -, his⟩
    rw [Claims.Is, hcreator j hj] at his
    exact absurd ((objectIDFromHex_hex (objectID 8)).symm.trans his) (by decide)
  obtain ⟨-, hdelete⟩ := operator_touchesOwn hreached rival .none
  obtain ⟨hu, hr⟩ := (hdelete _ _ _ _ _ hrun).1 ⟨_, List.mem_singleton.mpr rfl, hnot⟩
  exact ⟨w, _, i, _, _, hreached, hi, hrun, hr, hu.intents.trans hi,
    (operator_touchesOwn hreached rival (.deleteIntents .none hrun)).1⟩

end Gthulhu.Manager
