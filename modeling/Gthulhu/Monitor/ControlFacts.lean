/-
Whether every PID in `monitored_pids` is one the watcher tracks, so that a
later pass can still remove it.

It is, along every run from an empty map, if and only if no removal fails of a
PID in the map that the pass finds no process of (**`controlled_iff`**): such a
PID is forgotten all the same (**`vanished_forgotten`**).
-/
import Gthulhu.Monitor.ReconcileFacts
import Gthulhu.Monitor.WatchLoop

namespace Gthulhu.Monitor

open Lib

namespace Watcher

/-- Every PID in the map is tracked. -/
def Controlled (w : Watcher) : Prop := ∀ pid ∈ w.filter.entries, pid ∈ w.monitoredPIDs

/-- A PID in the map can be removed if the scan of the pass maps no process to
it. -/
def Clears (w : Watcher) (pass : Pass) : Prop :=
  ∀ pid ∈ w.filter.entries, pid ∉ (w.podMapper.scanAllPIDs pass.reads).pidCache → pass.fault pid = none

section

variable {reads : ProcReads} {fault : UInt32 → Option Nat} {desired : List String} {w w' : Watcher}
  {warnings warnings' : List Warning} {pid : UInt32}

/-- The loop over the mapped PIDs moves a PID in the map and in the tracked set
together, whichever operations fail. -/
theorem syncPID_controlled (h : syncPID reads fault desired (w, warnings) pid = (w', warnings')) :
    (w.Controlled → w'.Controlled) ∧ ∀ q, q ≠ pid → (q ∈ w'.filter.entries ↔ q ∈ w.filter.entries) := by
  obtain ⟨-, ⟨-, hadd, htracked, -⟩ | ⟨-, -, hremove, htracked, -⟩ | ⟨hfilter, htracked, -⟩⟩ := syncPID_cases h
  · simp only [Controlled, htracked, AList.mem_insert, mem_addMonitoredPID hadd]
    exact ⟨fun hw q hq => hq.imp_right (hw q), fun q hq => or_iff_right hq⟩
  · simp only [Controlled, htracked, AList.mem_erase, mem_removeMonitoredPID hremove]
    exact ⟨fun hw q hq => ⟨hq.1, hw q hq.2⟩, fun q hq => and_iff_right hq⟩
  · simp only [Controlled, htracked, hfilter]
    exact ⟨id, fun _ _ => trivial⟩

theorem foldl_syncPID_controlled (mapped : List UInt32) (state : Watcher × List Warning) :
    (state.1.Controlled → (mapped.foldl (syncPID reads fault desired) state).1.Controlled) ∧
      ∀ q ∉ mapped, q ∈ (mapped.foldl (syncPID reads fault desired) state).1.filter.entries ↔
        q ∈ state.1.filter.entries := by
  induction mapped generalizing state with
  | nil => exact ⟨id, fun _ _ => Iff.rfl⟩
  | cons pid mapped ih =>
    obtain ⟨hcontrolled, hother⟩ := @syncPID_controlled reads fault desired state.1 _ state.2 _ pid (Prod.eta _).symm
    obtain ⟨hrest, hothers⟩ := ih (syncPID reads fault desired state pid)
    refine ⟨hrest ∘ hcontrolled, fun q hq => ?_⟩
    rw [List.mem_cons, not_or] at hq
    exact (hothers q hq.2).trans (hother q hq.1)

/-- **What a pass keeps.** -/
theorem reconcile_controlled_iff (pass : Pass) (hw : w.Controlled) : (w.reconcile pass).Controlled ↔ w.Clears pass := by
  have hmapped : ∀ pid, pid ∈ (w.podMapper.scanAllPIDs pass.reads).pidCache ↔
      pid ∈ (w.scanned pass.reads).podMapper.listMappedPIDs pass.order := fun pid => mem_reorder.symm
  obtain ⟨hsynced, hother⟩ : (w.Controlled → (w.synced pass.reads pass.fault pass.order).1.Controlled) ∧
      ∀ q ∉ (w.scanned pass.reads).podMapper.listMappedPIDs pass.order,
        q ∈ (w.synced pass.reads pass.fault pass.order).1.filter.entries ↔ q ∈ w.filter.entries :=
    foldl_syncPID_controlled _ (w.scanned pass.reads, [])
  simp only [Clears, hmapped]
  rw [reconcile, reconcilePIDs_eq]
  -- both loops have the same list of mapped PIDs
  generalize w.synced pass.reads pass.fault pass.order = synced at *
  generalize (w.scanned pass.reads).podMapper.listMappedPIDs pass.order = mapped at *
  obtain ⟨-, -, htracked, hfilter, -⟩ := foldl_dropVanished (Prod.eta
    ((reorder pass.order' synced.1.monitoredPIDs.keys).foldl (dropVanished pass.fault mapped) synced)).symm
  have hkeys : ∀ pid, pid ∈ reorder pass.order' synced.1.monitoredPIDs.keys ↔ pid ∈ synced.1.monitoredPIDs :=
    fun pid => mem_reorder
  simp only [Controlled, htracked, hfilter, hkeys]
  refine forall_congr' fun pid => ?_
  by_cases hin : pid ∈ mapped
  · simpa [hin] using hsynced hw pid
  · have hpid := hother pid hin
    by_cases hmem : pid ∈ w.filter.entries
    · simp [hin, hmem, hpid.mpr hmem, hsynced hw pid (hpid.mpr hmem)]
    · simp [hmem, mt hpid.mp hmem]

end

end Watcher

/-! ## Runs -/

/-- What happens to a watcher, and to the pod mapper it shares. -/
inductive ControlStep where
  | event (pass : Pass) (event : WatchEvent)
  /-- The reconcile ticker. -/
  | tick (pass : Pass)
  | setPodIndex (pods : StrMap PodRef)
  /-- The pod mapper's own scan. -/
  | scan (reads : ProcReads)

section

variable (unmarshal : Fields → Option PodSchedulingMetrics)

def controlMachine : Machine Watcher ControlStep where
  step w
    | .event pass event => some (w.handleEvent unmarshal pass event)
    | .tick pass => some (w.reconcile pass)
    | .setPodIndex pods => some { w with podMapper := .setPodIndex pods }
    | .scan reads => some { w with podMapper := w.podMapper.scanAllPIDs reads }

/-- An event that `reconcilePIDs` is called for. -/
def WatchEvent.reconciles (event : WatchEvent) : Bool :=
  match event.type with
  | .added | .modified => (event.object.bind (parsePSM unmarshal)).isSome
  | .deleted => event.object.isSome
  | .bookmark | .error => false

def ControlStep.Clears (w : Watcher) : ControlStep → Prop
  | .event pass seen => seen.reconciles unmarshal = true → w.Clears pass
  | .tick pass => w.Clears pass
  | _ => True

theorem controlled_step {w w' e} (h : (controlMachine unmarshal).step w e = some w')
    (hw : w.Controlled) : w'.Controlled ↔ e.Clears unmarshal w := by
  have hspecs : ∀ specs pass, ({ w with specs := specs }.reconcile pass).Controlled ↔ w.Clears pass := fun specs pass =>
    Watcher.reconcile_controlled_iff (w := { w with specs := specs }) pass hw
  cases e with
  | event pass event =>
    obtain ⟨type, object⟩ := event
    cases h
    cases object with
    | none => cases type <;> simp [ControlStep.Clears, WatchEvent.reconciles, Watcher.handleEvent, hw]
    | some obj =>
      cases type <;> cases hparse : parsePSM unmarshal obj <;>
        simp [ControlStep.Clears, WatchEvent.reconciles, Watcher.handleEvent, hparse, hw, hspecs]
  | tick pass =>
    cases h
    exact Watcher.reconcile_controlled_iff pass hw
  | setPodIndex pods =>
    cases h
    exact iff_of_true hw trivial
  | scan reads =>
    cases h
    exact iff_of_true hw trivial

/-- **When every PID in the map stays tracked**: along a run from an empty map,
in every state on the way, just if each pass clears what it finds gone. -/
theorem controlled_iff (w : Watcher) (hempty : ∀ pid, pid ∉ w.filter.entries) (es : List ControlStep) :
    (∀ es₁ es₂ w₁, es = es₁ ++ es₂ → (controlMachine unmarshal).exec w es₁ = some w₁ → w₁.Controlled) ↔
      (controlMachine unmarshal).Guarded (fun w e => e.Clears unmarshal w) w es := by
  have hstart : w.Controlled := fun pid hpid => absurd hpid (hempty pid)
  constructor
  · intro hall
    refine Machine.guarded_of_splits fun es₁ e es₂ w₁ hes hexec => ?_
    obtain ⟨w₂, hstep⟩ : ∃ w₂, (controlMachine unmarshal).step w₁ e = some w₂ := by cases e <;> exact ⟨_, rfl⟩
    have hone : (controlMachine unmarshal).exec w₁ [e] = some w₂ := Option.bind_eq_some_iff.mpr ⟨w₂, hstep, rfl⟩
    exact (controlled_step unmarshal hstep (hall es₁ _ w₁ hes hexec)).mp
      (hall (es₁ ++ [e]) es₂ w₂ (by simp [hes]) (Machine.exec_trans hexec hone))
  · intro hguard es₁ es₂ w₁ hes hexec
    subst hes
    exact Machine.invariantWhere (fun hw hclears hstep => (controlled_step unmarshal hstep hw).mpr hclears) hexec
      (Machine.guarded_append hguard hexec).1 hstart

end

/-- Process 7 is pushed, and then gone when its removal fails. -/
def vanishing : List ControlStep :=
  [.tick ⟨webProc, fun _ => none, [], []⟩, .tick ⟨⟨some [], fun _ => none⟩, fun _ => some 1, [], []⟩]

/-- It stays in the map, and no later pass without processes removes it. -/
theorem vanished_forgotten :
    ∃ w, (controlMachine fun _ => none).exec webWatcher vanishing = some w ∧ w.filter.entries.keys = [7] ∧
      w.monitoredPIDs.keys = [] ∧
      (w.reconcile ⟨⟨some [], fun _ => none⟩, fun _ => none, [], []⟩).filter.entries.keys = [7] :=
  ⟨_, rfl, by decide +kernel, by decide +kernel, by decide +kernel⟩

theorem controlled_iff_web :
    ∃ w, (controlMachine fun _ => none).exec webWatcher [.tick ⟨webProc, fun _ => none, [], []⟩] = some w ∧ w.Controlled := by
  refine ⟨_, rfl, ?_⟩
  have hclears : (controlMachine fun _ => none).Guarded (fun w e => e.Clears (fun _ => none) w) webWatcher
      [.tick ⟨webProc, fun _ => none, [], []⟩] := ⟨fun _ _ _ => rfl, fun _ _ => trivial⟩
  have hempty : ∀ pid, pid ∉ webWatcher.filter.entries := fun _ => AList.notMem_empty _
  exact (controlled_iff (fun _ => none) webWatcher hempty _).mpr hclears _ [] _ (List.append_nil _).symm rfl

end Gthulhu.Monitor
