/-
The pods the classifier knows (`Ingest` and `Cleanup` in
`api/manager/rest/classifier_engine.go`). What it holds of a pod besides the
time of its last sample, and what a sample does to that, are parameters.

**`cleanup_keepsLatest`**: of the states that have not expired, the latest are
kept. **`held_lastSamples`**: a state that is held is that of the pod's last
sample.
-/
import Gthulhu.Lib.GoRuntime

namespace Gthulhu.Manager

open Lib List

structure PodState (σ : Type) where
  lastTimestamp : Int64 := 0
  profile : σ

abbrev PodEntry (σ : Type) : Type := (_ : String) × PodState σ

def PodEntry.timestamp {σ : Type} (e : PodEntry σ) : Int := e.2.lastTimestamp.toInt

structure ClassificationInput (γ : Type) where
  timestamp : Int64
  k8sNamespace : String
  pod : String
  node : String
  metrics : γ

namespace ClassificationInput

variable {γ : Type} (input : ClassificationInput γ)

def key : String := input.k8sNamespace ++ "/" ++ input.pod

/-- The time of the sample: the clock's where it has none. -/
def ts (now : Int64) : Int64 := if input.timestamp ≤ 0 then now else input.timestamp

end ClassificationInput

structure AdaptiveClassifier (σ μ : Type) where
  pods : StrMap (PodState σ) := ∅
  model : μ
  podTTL : Int64
  maxPods : Int

/-- A call, with what the clock says and what the sort does with equal timestamps. -/
inductive ClassifierCall (γ : Type) where
  | ingest (input : ClassificationInput γ) (sampled cleaned : Int64) (go : SortBy Int)
  | cleanup (now : Int64) (go : SortBy Int)

namespace AdaptiveClassifier

variable {σ μ γ : Type}

/-- `delete` for each of the entries. -/
def deleteEntries (pods : StrMap (PodState σ)) (entries : List (PodEntry σ)) : StrMap (PodState σ) :=
  entries.foldl (fun pods e => pods.erase e.1) pods

def cleanupLocked (go : SortBy Int) (c : AdaptiveClassifier σ μ) (nowUnix : Int64) : AdaptiveClassifier σ μ :=
  let pods :=
    if 0 < c.podTTL then
      let expireBefore := nowUnix - c.podTTL
      deleteEntries c.pods (c.pods.entries.filter fun e =>
        ¬e.2.lastTimestamp ≤ 0 ∧ e.2.lastTimestamp < expireBefore)
    else c.pods
  let pods :=
    if c.maxPods ≤ 0 ∨ pods.entries.length ≤ c.maxPods then pods
    else
      let entries := go.sort PodEntry.timestamp pods.entries
      let toDelete := entries.length - c.maxPods.toNat
      deleteEntries pods (entries.take toDelete)
  { c with pods }

variable (newPodState : String → String → σ) (update : Int64 → String → γ → σ → μ → σ × μ)

def ingest (go : SortBy Int) (c : AdaptiveClassifier σ μ) (input : ClassificationInput γ) (sampled cleaned : Int64) :
    AdaptiveClassifier σ μ :=
  let ts := input.ts sampled
  let c := c.cleanupLocked go cleaned
  let st := (c.pods.lookup input.key).getD { profile := newPodState input.k8sNamespace input.pod }
  let (profile, model) := update ts input.node input.metrics st.profile c.model
  { c with pods := c.pods.insert input.key ⟨ts, profile⟩, model }

def serve (c : AdaptiveClassifier σ μ) : ClassifierCall γ → AdaptiveClassifier σ μ
  | .ingest input sampled cleaned go => c.ingest newPodState update go input sampled cleaned
  | .cleanup now go => c.cleanupLocked go now

def run (c : AdaptiveClassifier σ μ) (calls : List (ClassifierCall γ)) : AdaptiveClassifier σ μ :=
  calls.foldl (serve newPodState update) c

/-! ## Cleaning up -/

/-- The entries that have not expired. -/
def fresh (podTTL expireBefore : Int64) (entries : List (PodEntry σ)) : List (PodEntry σ) :=
  entries.filter fun e => ¬(0 < podTTL ∧ 0 < e.2.lastTimestamp ∧ e.2.lastTimestamp < expireBefore)

/-- The last of the entries in the order of their timestamps, as many as the maximum allows. -/
def Latest (maxPods : Int) (entries kept : List (PodEntry σ)) : Prop :=
  ∃ sorted, sorted ~ entries ∧ sorted.Pairwise (fun a b => a.timestamp ≤ b.timestamp) ∧
    kept ~ sorted.drop (if maxPods ≤ 0 then 0 else entries.length - maxPods.toNat)

theorem deleteEntries_perm {es kept} : ∀ {pods : StrMap (PodState σ)}, es ++ kept ~ pods.entries →
    (deleteEntries pods es).entries ~ kept := by
  induction es with
  | nil => exact fun h => h.symm
  | cons e es ih =>
    intro pods h
    have hmem : e ∈ pods.entries := h.subset mem_cons_self
    obtain ⟨b, l, l', -, hl, hkerase⟩ := exists_of_kerase (mem_keys_of_mem hmem)
    obtain rfl : b = e.2 := pods.nodupKeys.eq_of_mk_mem (hl ▸ by simp) hmem
    refine ih ((perm_cons e).mp (h.trans ?_))
    change pods.entries ~ e :: kerase e.1 pods.entries
    rw [hkerase, hl]
    exact perm_middle

theorem cleanupLocked_latest (c : AdaptiveClassifier σ μ) (go : SortBy Int) (now : Int64) :
    Latest c.maxPods (fresh c.podTTL (now - c.podTTL) c.pods.entries) (c.cleanupLocked go now).pods.entries := by
  simp only [cleanupLocked]
  generalize hpods : (if 0 < c.podTTL then _ else c.pods) = pods
  have hfresh : pods.entries ~ fresh c.podTTL (now - c.podTTL) c.pods.entries := by
    subst hpods
    split
    · rename_i hpos
      refine deleteEntries_perm ?_
      convert filter_append_perm _ c.pods.entries using 2
      simp [fresh, hpos, -not_lt, -Int64.not_lt]
    · rename_i hpos
      simp [fresh, hpos]
  have hperm := go.perm PodEntry.timestamp pods.entries
  refine ⟨_, hperm.trans hfresh, go.sorted _ _, ?_⟩
  rw [← hfresh.length_eq]
  split
  · rw [show (if c.maxPods ≤ 0 then 0 else pods.entries.length - c.maxPods.toNat) = 0 by split <;> omega]
    exact hperm.symm
  · rw [if_neg (by omega), ← hperm.length_eq]
    exact deleteEntries_perm (by rwa [take_append_drop])

theorem cleanupLocked_sub {c : AdaptiveClassifier σ μ} {go : SortBy Int} {now : Int64} {e}
    (h : e ∈ (c.cleanupLocked go now).pods.entries) : e ∈ c.pods.entries := by
  obtain ⟨sorted, hperm, -, hkept⟩ := c.cleanupLocked_latest go now
  exact mem_of_mem_filter (hperm.subset (mem_of_mem_drop (hkept.subset h)))

theorem cleanupLocked_length (c : AdaptiveClassifier σ μ) (go : SortBy Int) (now : Int64) (hpos : 0 < c.maxPods) :
    (c.cleanupLocked go now).pods.entries.length ≤ c.maxPods := by
  obtain ⟨sorted, hperm, -, hkept⟩ := c.cleanupLocked_latest go now
  have := hperm.length_eq
  rw [hkept.length_eq, if_neg (by omega), length_drop]
  omega

/-! ## Runs -/

/-- The time of the last sample of a pod, if there is one. -/
def lastSample (calls : List (ClassifierCall γ)) (key : String) : Option Int64 :=
  calls.foldl (fun last call =>
    match call with
    | .ingest input sampled _ _ => if input.key = key then some (input.ts sampled) else last
    | .cleanup _ _ => last) none

theorem lastSample_ingest {calls : List (ClassifierCall γ)} {input sampled cleaned go key} :
    lastSample (calls ++ [.ingest input sampled cleaned go]) key =
      if input.key = key then some (input.ts sampled) else lastSample calls key := by
  simp [lastSample]

theorem lastSample_cleanup {calls : List (ClassifierCall γ)} {now go key} :
    lastSample (calls ++ [.cleanup now go]) key = lastSample calls key := by
  simp [lastSample]

/-- What holds after the calls. -/
structure Reached (podTTL : Int64) (maxPods : Int) (calls : List (ClassifierCall γ)) (c : AdaptiveClassifier σ μ) :
    Prop where
  ttl : c.podTTL = podTTL
  max : c.maxPods = maxPods
  length : 0 < maxPods → c.pods.entries.length ≤ maxPods + 1
  last : ∀ e ∈ c.pods.entries, lastSample calls e.1 = some e.2.lastTimestamp

theorem Reached.serve {podTTL maxPods calls} {c : AdaptiveClassifier σ μ} (h : Reached podTTL maxPods calls c)
    (call : ClassifierCall γ) : Reached podTTL maxPods (calls ++ [call]) (c.serve newPodState update call) := by
  obtain ⟨rfl, rfl, -, hlast⟩ := h
  cases call with
  | ingest input sampled cleaned go =>
    refine ⟨rfl, rfl, fun hpos => ?_, fun e he => ?_⟩
    · have hkept := c.cleanupLocked_length go cleaned hpos
      have herase := (kerase_sublist input.key (c.cleanupLocked go cleaned).pods.entries).length_le
      simp only [AdaptiveClassifier.serve, ingest, AList.insert, kinsert, length_cons]
      omega
    · rcases mem_cons.mp he with rfl | hold
      · simp [lastSample_ingest]
      · have hne : input.key ≠ e.1 := fun hkey => notMem_keys_kerase _ (c.cleanupLocked go cleaned).pods.nodupKeys
          (hkey ▸ mem_keys_of_mem hold)
        rw [lastSample_ingest, if_neg hne]
        exact hlast e (cleanupLocked_sub ((kerase_sublist _ _).subset hold))
  | cleanup now go =>
    refine ⟨rfl, rfl, fun hpos => ?_, fun e he => ?_⟩
    · exact (c.cleanupLocked_length go now hpos).trans (by omega)
    · rw [lastSample_cleanup]
      exact hlast e (cleanupLocked_sub he)

variable (model : μ) (podTTL : Int64) (maxPods : Int) (calls : List (ClassifierCall γ))

theorem reached_run : Reached podTTL maxPods calls (run newPodState update { model, podTTL, maxPods } calls) := by
  induction calls using List.reverseRecOn with
  | nil => exact ⟨rfl, rfl, fun hpos => by simp [run]; omega, nofun⟩
  | append_singleton calls call ih =>
    rw [run, foldl_append]
    exact ih.serve newPodState update call

/-- **A clean-up keeps the latest** of the states that have not expired, and
there are never more than the maximum and one. -/
theorem cleanup_keepsLatest (go : SortBy Int) (now : Int64) :
    let c := run newPodState update { model, podTTL, maxPods } calls
    (0 < maxPods → c.pods.entries.length ≤ maxPods + 1) ∧
      Latest maxPods (fresh podTTL (now - podTTL) c.pods.entries) (c.cleanupLocked go now).pods.entries := by
  intro c
  have hreached : Reached podTTL maxPods calls c := reached_run newPodState update model podTTL maxPods calls
  have hlatest := c.cleanupLocked_latest go now
  rw [hreached.ttl, hreached.max] at hlatest
  exact ⟨hreached.length, hlatest⟩

/-- **No state is stale**: it is that of the pod's last sample, and a sample just taken is held. -/
theorem held_lastSamples :
    (∀ e ∈ (run newPodState update { model, podTTL, maxPods } calls).pods.entries,
      lastSample calls e.1 = some e.2.lastTimestamp) ∧
    ∀ input sampled cleaned go,
      ((run newPodState update { model, podTTL, maxPods } (calls ++ [.ingest input sampled cleaned go])).pods.lookup
        input.key).map PodState.lastTimestamp = some (input.ts sampled) := by
  refine ⟨(reached_run newPodState update model podTTL maxPods calls).last, fun input sampled cleaned go => ?_⟩
  simp [run, serve, ingest]

end AdaptiveClassifier

end Gthulhu.Manager
