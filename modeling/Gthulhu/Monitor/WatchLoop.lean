/-
The watcher's view of the `PodSchedulingMetrics` objects
(`crdwatcher/watcher.go`, `watchLoop`, `handleEvent`, `parsePSM`).

`SpecWatch` is the watcher with the cluster and the watch between them: what
the open watch has still to deliver, or nothing while it is interrupted. A
watch starts with an ADDED event for every object there is, in any order, and
then delivers every change.

A key is a namespace and a name with a slash between. The API server admits no
slash in either, so a key is of one object.
-/
import Gthulhu.Lib.Machine
import Gthulhu.Lib.Unstructured
import Gthulhu.Monitor.Watcher

namespace Gthulhu.Monitor

open Lib

def objectKey (obj : Unstructured) : String := obj.getNamespace ++ "/" ++ obj.getName

inductive EventType where
  | added
  | modified
  | deleted
  | bookmark
  | error
  deriving DecidableEq

structure WatchEvent where
  type : EventType
  /-- The object, where it is an `*unstructured.Unstructured`. -/
  object : Option Unstructured

/-- What a pass of `reconcilePIDs` meets. -/
structure Pass where
  reads : ProcReads
  fault : UInt32 → Option Nat
  order : List Nat
  order' : List Nat

section

variable (unmarshal : Fields → Option PodSchedulingMetrics)

/-- `parsePSM`, with `unmarshal` for the spec to JSON and back. -/
def parsePSM (obj : Unstructured) : Option PodSchedulingMetrics :=
  match nestedMap obj.object "spec" with
  | .ok (some spec) => unmarshal spec
  | _ => none

def Watcher.reconcile (pass : Pass) (w : Watcher) : Watcher :=
  (w.reconcilePIDs pass.reads pass.fault pass.order pass.order').1

def Watcher.handleEvent (pass : Pass) (w : Watcher) (event : WatchEvent) : Watcher :=
  match event.object with
  | none => w
  | some obj =>
    match event.type with
    | .added | .modified =>
      match parsePSM unmarshal obj with
      | none => w
      | some psm => { w with specs := w.specs.insert (objectKey obj) psm }.reconcile pass
    | .deleted => { w with specs := w.specs.erase (objectKey obj) }.reconcile pass
    | .bookmark | .error => w

end

/-! ## The cluster and the watch -/

/-- The objects there are, each under its key. -/
structure PsmObjects where
  objects : StrMap Unstructured
  keyed : ∀ {key obj}, objects.lookup key = some obj → objectKey obj = key

namespace PsmObjects

variable (objs : PsmObjects)

def empty : PsmObjects := ⟨∅, fun h => by cases h⟩

def put (obj : Unstructured) : PsmObjects where
  objects := objs.objects.insert (objectKey obj) obj
  keyed {key obj'} h := by
    by_cases hk : key = objectKey obj
    · subst hk
      rw [AList.lookup_insert] at h
      cases h
      rfl
    · rw [AList.lookup_insert_ne hk] at h
      exact objs.keyed h

def remove (key : String) : PsmObjects where
  objects := objs.objects.erase key
  keyed {key' obj'} h := by
    by_cases hk : key' = key
    · subst hk
      rw [AList.lookup_erase] at h
      cases h
    · rw [AList.lookup_erase_ne hk] at h
      exact objs.keyed h

/-- All of them. -/
def all : List Unstructured := objs.objects.entries.map Sigma.snd

end PsmObjects

structure SpecWatch where
  watcher : Watcher
  cluster : PsmObjects
  /-- What the open watch has still to deliver. -/
  pending : Option (List WatchEvent)

inductive WatchStep where
  | create (obj : Unstructured)
  | update (obj : Unstructured)
  | delete (key : String)
  | connect (order : List Nat)
  | disconnect
  /-- An event that is about no change. -/
  | notice (event : WatchEvent)
  | handle (pass : Pass)
  /-- The reconcile ticker. -/
  | tick (pass : Pass)

/-- A change, with the event that an open watch delivers for it. -/
def SpecWatch.change (s : SpecWatch) (cluster : PsmObjects) (event : WatchEvent) : SpecWatch :=
  { s with cluster, pending := s.pending.map (· ++ [event]) }

def watchMachine (unmarshal : Fields → Option PodSchedulingMetrics) : Machine SpecWatch WatchStep where
  step s
    | .create obj =>
      if objectKey obj ∈ s.cluster.objects then none else some (s.change (s.cluster.put obj) ⟨.added, some obj⟩)
    | .update obj =>
      if objectKey obj ∈ s.cluster.objects then some (s.change (s.cluster.put obj) ⟨.modified, some obj⟩) else none
    | .delete key => (s.cluster.objects.lookup key).map fun obj => s.change (s.cluster.remove key) ⟨.deleted, some obj⟩
    | .connect order =>
      match s.pending with
      | none => some { s with pending := some ((reorder order s.cluster.all).map fun obj => ⟨.added, some obj⟩) }
      | some _ => none
    | .disconnect => s.pending.map fun _ => { s with pending := none }
    | .notice event =>
      if event.type = .bookmark ∨ event.type = .error then some (s.change s.cluster event) else none
    | .handle pass =>
      match s.pending with
      | some (event :: rest) =>
        some { s with watcher := s.watcher.handleEvent unmarshal pass event, pending := some rest }
      | _ => none
    | .tick pass => s.pending.map fun _ => { s with watcher := s.watcher.reconcile pass }

/-- No watch yet, and nothing known. -/
def SpecWatch.initial (podMapper : PodMapper) (filter : PidFilter) (cluster : PsmObjects) : SpecWatch where
  watcher := ⟨podMapper, filter, ∅, ∅⟩
  cluster := cluster
  pending := none

end Gthulhu.Monitor
