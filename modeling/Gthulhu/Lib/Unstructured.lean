/-
Objects without a schema, as a dynamic Kubernetes client passes them: maps
from field names to values, which are maps, lists, texts, numbers or booleans
again.

A map is the list of its fields. The order is the one they were written in and
an assignment replaces in place (`setField`), so equal lists are equal maps;
readers go by `List.lookup`, which does not see the order.
-/
import Mathlib.Data.UInt
import Mathlib.Data.List.Basic

namespace Lib

inductive Value where
  | null
  | bool (b : Bool)
  | int64 (n : Int64)
  /-- A `float64`, by what its conversion to `int64` gives. -/
  | float64 (n : Int64)
  | str (s : String)
  | list (items : List Value)
  | map (fields : List (String × Value))

/-- `map[string]interface{}`. -/
abbrev Fields : Type := List (String × Value)

/-- `m[key] = v`. -/
def setField {α : Type} (key : String) (v : α) : List (String × α) → List (String × α)
  | [] => [(key, v)]
  | (k, w) :: rest => if k = key then (k, v) :: rest else (k, w) :: setField key v rest

/-- `unstructured.NestedMap` at one field: missing, or there, or of another type. -/
def nestedMap (m : Fields) (key : String) : Except String (Option Fields) :=
  match m.lookup key with
  | none => .ok none
  | some (.map fields) => .ok (some fields)
  | some _ => .error (key ++ " accessor error")

/-- `unstructured.NestedFieldNoCopy`: missing, or there, or under a value that is no map. -/
def nestedField : Value → List String → Except String (Option Value)
  | v, [] => .ok (some v)
  | .null, _ :: _ => .ok none
  | .map fields, key :: keys =>
    match fields.lookup key with
    | none => .ok none
    | some v => nestedField v keys
  | _, key :: _ => .error (key ++ " accessor error")

structure Unstructured where
  object : Fields

namespace Unstructured

/-- A field of the metadata. -/
def metadata (obj : Unstructured) (key : String) : Option Value :=
  match obj.object.lookup "metadata" with
  | some (.map fields) => fields.lookup key
  | _ => none

def getName (obj : Unstructured) : String :=
  match obj.metadata "name" with
  | some (.str name) => name
  | _ => ""

def getNamespace (obj : Unstructured) : String :=
  match obj.metadata "namespace" with
  | some (.str name) => name
  | _ => ""

/-- The texts of a map all of whose values are texts. -/
def stringMap : Fields → Option (List (String × String))
  | [] => some []
  | (key, .str s) :: rest => (stringMap rest).map ((key, s) :: ·)
  | _ :: _ => none

/-- `GetLabels`; no labels where the source returns a nil map. -/
def getLabels (obj : Unstructured) : List (String × String) :=
  match obj.metadata "labels" with
  | some (.map fields) => (stringMap fields).getD []
  | _ => []

def labelValues (labels : List (String × String)) : Fields := labels.map fun label => (label.1, .str label.2)

/-- `SetLabels`; metadata that is no map is left alone. -/
def setLabels (labels : List (String × String)) (obj : Unstructured) : Unstructured :=
  match (obj.object.lookup "metadata").getD (.map []) with
  | .map fields => ⟨setField "metadata" (.map (setField "labels" (.map (labelValues labels)) fields)) obj.object⟩
  | _ => obj

@[simp] theorem stringMap_labelValues (labels : List (String × String)) :
    stringMap (labelValues labels) = some labels := by
  induction labels with
  | nil => rfl
  | cons label labels ih =>
    have hcons : labelValues (label :: labels) = (label.1, .str label.2) :: labelValues labels := rfl
    rw [hcons, stringMap, ih]
    rfl

end Unstructured

end Lib
