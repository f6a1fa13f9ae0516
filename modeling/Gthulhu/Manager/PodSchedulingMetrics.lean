/-
PodSchedulingMetrics objects of the manager (`api/manager/service/psm_svc.go`
over `api/manager/repository/cr_psm_repo.go`): created, listed, updated and
deleted as custom resources, with the conversions of `CustomResource`.

The name of an object is the hexadecimal form of its ID. An update is asked
for by a name, which is both parsed as an ID and used to find the object.
-/
import Gthulhu.Manager.ResourceRepository

namespace Gthulhu.Manager

open Lib Prog

/-! ## Objects -/

/-- What the API server asks of a name, as far as it matters here: no capital letters. -/
def validName (name : String) : Bool := name.toList.all fun c => !c.isUpper

/-- The objects of the resource. -/
structure PSMObjects extends Objects where
  valid : ∀ obj ∈ objects, validName obj.getName = true

namespace PSMObjects

variable (objs : PSMObjects)

def empty : PSMObjects := ⟨.empty, fun _ h => by cases h⟩

theorem valid_create {obj} (h : validName obj.getName = true) :
    ∀ obj' ∈ (objs.toObjects.create obj).2.objects, validName obj'.getName = true := by
  intro obj' hobj'
  unfold Objects.create at hobj'
  split at hobj'
  · exact objs.valid obj' hobj'
  · rcases List.mem_append.mp hobj' with hold | hnew
    · exact objs.valid obj' hold
    · rwa [List.mem_singleton.mp hnew]

def create (obj : Unstructured) : Except Error Unit × PSMObjects :=
  if h : validName obj.getName = true then
    ((objs.toObjects.create obj).1, ⟨(objs.toObjects.create obj).2, valid_create objs h⟩)
  else (.error (.text ("invalid name " ++ obj.getName)), objs)

theorem valid_update (obj : Unstructured) :
    ∀ obj' ∈ (objs.toObjects.update obj).2.objects, validName obj'.getName = true := by
  have hnames : (objs.toObjects.update obj).2.objects.map Unstructured.getName =
      objs.objects.map Unstructured.getName := by
    unfold Objects.update
    split
    · exact Objects.map_name_update obj objs.objects
    · rfl
  intro obj' hobj'
  have hname : obj'.getName ∈ objs.objects.map Unstructured.getName := hnames ▸ List.mem_map_of_mem hobj'
  obtain ⟨old, hold, heq⟩ := List.mem_map.mp hname
  rw [← heq]
  exact objs.valid old hold

def update (obj : Unstructured) : Except Error Unit × PSMObjects :=
  ((objs.toObjects.update obj).1, ⟨(objs.toObjects.update obj).2, valid_update objs obj⟩)

theorem valid_delete (name : String) :
    ∀ obj' ∈ (objs.toObjects.delete name).2.objects, validName obj'.getName = true := by
  intro obj' hobj'
  unfold Objects.delete at hobj'
  split at hobj'
  · exact objs.valid obj' (List.mem_of_mem_filter hobj')
  · exact objs.valid obj' hobj'

def delete (name : String) : Except Error Unit × PSMObjects :=
  ((objs.toObjects.delete name).1, ⟨(objs.toObjects.delete name).2, valid_delete objs name⟩)

end PSMObjects

/-! ## Requests -/

inductive PSMCall where
  | create (obj : Unstructured)
  | get (name : String)
  | list
  | update (obj : Unstructured)
  | delete (name : String)
  | newObjectID
  | now

@[reducible] def PSMCall.Resp : PSMCall → Type
  | .create _ => Except Error Unit
  | .get _ => Except Error Unstructured
  | .list => Except Error (List Unstructured)
  | .update _ => Except Error Unit
  | .delete _ => Except Error Unit
  | .newObjectID => ObjectID
  | .now => Int64

/-- One request, with the environment's choice for it. -/
def PSMObjects.answer (choice : Choice) : (call : PSMCall) → PSMObjects → call.Resp × PSMObjects
  | .create obj, objs => choice.outcome.write objs (objs.create obj)
  | .get name, objs => (choice.outcome.read (objs.get name), objs)
  | .list, objs => (choice.outcome.read (.ok (reorder choice.order objs.objects)), objs)
  | .update obj, objs => choice.outcome.write objs (objs.update obj)
  | .delete name, objs => choice.outcome.write objs (objs.delete name)
  | .newObjectID, objs => (choice.newID, objs)
  | .now, objs => (choice.now, objs)

/-- Programs over these requests. -/
abbrev PSM : Type → Type := ExceptT Error (Prog PSMCall PSMCall.Resp)

namespace PSM

def create (obj : Unstructured) : PSM Unit := ExceptT.mk (perform (PSMCall.create obj))
def get (name : String) : PSM Unstructured := ExceptT.mk (perform (PSMCall.get name))
def list : PSM (List Unstructured) := ExceptT.mk (perform PSMCall.list)
def update (obj : Unstructured) : PSM Unit := ExceptT.mk (perform (PSMCall.update obj))
def delete (name : String) : PSM Unit := ExceptT.mk (perform (PSMCall.delete name))
def newObjectID : PSM ObjectID := ExceptT.lift (perform PSMCall.newObjectID)
def now : PSM Int64 := ExceptT.lift (perform PSMCall.now)

/-- `fmt.Errorf("message: %w", err)` on the error of `x`. -/
def wrapping {α : Type} (message : String) (x : PSM α) : PSM α := mapError (.wrap message) x

/-- A value that is computed and may be an error. -/
def parse {α : Type} (x : Except Error α) : PSM α := ExceptT.mk (pure x)

/-! ## Repository -/

section

variable (crNamespace : String)

def createPSM (psm : PodSchedulingMetrics) : PSM Unit := do
  let now ← now
  let psm := { psm with
    createdTime := if psm.createdTime = 0 then now else psm.createdTime
    updatedTime := now }
  wrapping "create PodSchedulingMetrics CR" (create (domainPSMToUnstructured psm crNamespace))

/-- The objects with the given names, those not found skipped. -/
def getPSMs : List String → PSM (List PodSchedulingMetrics)
  | [] => pure []
  | name :: names => do
    match ← attempt (get name) with
    | .error err => if err.isNotFound then getPSMs names else throw err
    | .ok obj =>
      let psm ← parse (unstructuredToDomainPSM obj)
      let rest ← getPSMs names
      pure (psm :: rest)

def queryPSMs (ids : List String) : PSM (List PodSchedulingMetrics) := do
  if !ids.isEmpty then getPSMs ids
  else
    let items ← list
    parse (items.mapM unstructuredToDomainPSM)

/-- The time of the update is the one the caller has put into the record. -/
def updatePSM (psm : PodSchedulingMetrics) : PSM Unit := do
  let _ ← wrapping "get PodSchedulingMetrics CR for update" (get psm.id.hex)
  update (domainPSMToUnstructured psm crNamespace)

def deletePSM (name : String) : PSM Unit := do
  match ← attempt (delete name) with
  | .ok () => pure ()
  | .error err => if err.isNotFound then pure () else throw err

/-! ## Service -/

def operatorID (operator : Claims) : PSM ObjectID :=
  wrapping ("invalid operator ID " ++ operator.uid) (parse operator.getBsonObjectUID)

def createPodSchedulingMetrics (operator : Claims) (psm : PodSchedulingMetrics) : PSM Unit := do
  let operatorID ← operatorID operator
  -- the base entity has no ID, so there is always a new one
  let base := newBaseEntity (← now) operatorID operatorID
  let id ← if base.id.isZero then newObjectID else pure base.id
  let interval := if psm.collectionIntervalSeconds = 0 then 10 else psm.collectionIntervalSeconds
  createPSM crNamespace { psm with
    toBaseEntity := { base with id := id }
    collectionIntervalSeconds := interval }

def listPodSchedulingMetrics (ids : List String) : PSM (List PodSchedulingMetrics) := queryPSMs ids

def updatePodSchedulingMetrics (operator : Claims) (name : String) (psm : PodSchedulingMetrics) : PSM Unit := do
  let psmID ← wrapping ("invalid PSM ID " ++ name) (parse (objectIDFromHex name))
  let operatorID ← operatorID operator
  match ← queryPSMs [name] with
  | [] => throw (.status 404 "PodSchedulingMetrics not found")
  | existing :: _ =>
    updatePSM crNamespace { psm with
      id := psmID, createdTime := existing.createdTime, creatorID := existing.creatorID, updaterID := operatorID }

def deletePodSchedulingMetrics (name : String) : PSM Unit := do
  match ← queryPSMs [name] with
  | [] => throw (.status 404 "PodSchedulingMetrics not found")
  | _ :: _ => deletePSM name

end

end PSM

/-! ## Operations -/

inductive PSMOp where
  | create (operator : Claims) (psm : PodSchedulingMetrics)
  | list (ids : List String)
  | update (operator : Claims) (name : String) (psm : PodSchedulingMetrics)
  | delete (operator : Claims) (name : String)

def PSMOp.program (crNamespace : String) : PSMOp → PSM Unit
  | .create operator psm => PSM.createPodSchedulingMetrics crNamespace operator psm
  | .list ids => do let _ ← PSM.listPodSchedulingMetrics ids
  | .update operator name psm => PSM.updatePodSchedulingMetrics crNamespace operator name psm
  | .delete _ name => PSM.deletePodSchedulingMetrics name

end Gthulhu.Manager
