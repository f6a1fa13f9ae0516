/-
Users and roles as documents, and what creates and changes them
(`CreateNewUser` of `api/manager/service/auth_svc.go`,
`api/manager/service/role_svc.go`, `api/manager/repository/repo_rbac.go`).

`Accounts` is the two collections with all their fields. What a session sees of
it is a `Directory`, and the calls of `Auth` are answered there
(`Accounts.directory`); the calls added here insert users, and insert and
replace roles, under the validators and unique indexes of
`api/manager/migration/001_init_collections.up.json`.
-/
import Gthulhu.Manager.Auth

namespace Gthulhu.Manager

open Lib

/-! ## Records -/

/-- A role with the fields no session reads. -/
structure RoleDocument extends Role where
  description : String := ""
  createdTime : Int64 := 0
  updatedTime : Int64 := 0
  creatorID : ObjectID := .zero
  updaterID : ObjectID := .zero
  deriving DecidableEq

structure UpdateRoleOptions where
  name : Option String := none
  description : Option String := none
  policies : Option (List RolePolicy) := none
  deriving DecidableEq

/-! ## Calls -/

inductive AccountCall where
  | auth (call : AuthCall)
  | insertUser (user : User)
  | findRoles (opt : QueryRoleOptions)
  | insertRole (role : RoleDocument)
  /-- `ReplaceOne` of the document with the role's `_id`. -/
  | replaceRole (role : RoleDocument)
  | newObjectID

@[reducible] def AccountCall.Resp : AccountCall → Type
  | .auth call => call.Resp
  | .insertUser _ => Except Error Unit
  | .findRoles _ => Except Error (List RoleDocument)
  | .insertRole _ => Except Error Unit
  -- Whether a document was there.
  | .replaceRole _ => Except Error Bool
  | .newObjectID => ObjectID

abbrev Account : Type → Type := ExceptT Error (Prog AccountCall AccountCall.Resp)

namespace Account

/-- An operation on sessions. -/
def auth {α : Type} (x : Auth α) : Account α := ExceptT.mk (Prog.embed AccountCall.auth x.run)

def now : Account Time := auth Auth.now
def insertUser (user : User) : Account Unit := ExceptT.mk (Prog.perform (AccountCall.insertUser user))
def findRoles (opt : QueryRoleOptions) : Account (List RoleDocument) :=
  ExceptT.mk (Prog.perform (AccountCall.findRoles opt))
def insertRole (role : RoleDocument) : Account Unit := ExceptT.mk (Prog.perform (AccountCall.insertRole role))
def replaceRole (role : RoleDocument) : Account Bool := ExceptT.mk (Prog.perform (AccountCall.replaceRole role))
def newObjectID : Account ObjectID := ExceptT.lift (Prog.perform AccountCall.newObjectID)

def withMessage {α : Type} (message : String) (x : Account α) : Account α := Prog.mapError (.wrap message) x

/-! ## Repository -/

def ensureID (id : ObjectID) : Account ObjectID := if id.isZero then newObjectID else pure id

def createUser (user : User) : Account Unit := do
  let now := (← now).unixMilli
  let id ← ensureID user.id
  let createdTime := if user.createdTime = 0 then now else user.createdTime
  withMessage "create user, err" (insertUser { user with id := id, createdTime := createdTime, updatedTime := now })

def createRoleDocument (role : RoleDocument) : Account Unit := do
  let now := (← now).unixMilli
  let id ← ensureID role.id
  let createdTime := if role.createdTime = 0 then now else role.createdTime
  withMessage "create role, err" (insertRole { role with id := id, createdTime := createdTime, updatedTime := now })

def updateRoleDocument (role : RoleDocument) : Account Unit := do
  if role.id.isZero then throw (.text "role id is required")
  let role := { role with updatedTime := (← now).unixMilli }
  if ← withMessage "update role, err" (replaceRole role) then pure ()
  else throw (.notFound role.id.hex)

/-! ## Service -/

def createNewUser (operator : Claims) (username password : String) : Account Unit := do
  let operatorID ← auth (AuthService.uidOf "invalid operator ID " operator)
  let base := newBaseEntity (← now).unixMilli operatorID operatorID
  let user : User := { base with userName := username, password := password, status := .waitChangePassword }
  withMessage ("db: create user " ++ username ++ " failed") (createUser user)

/-- The caller of a role operation. -/
def operatorOf (operator : Claims) : Account ObjectID :=
  match operator.getBsonObjectUID with
  | .error _ => throw (.status 401 "unauthorized")
  | .ok id => pure id

def createRole (operator : Claims) (role : RoleDocument) : Account Unit := do
  let operatorID ← operatorOf operator
  let now := (← now).unixMilli
  createRoleDocument { role with
    id := .zero, createdTime := now, updatedTime := now, creatorID := operatorID, updaterID := operatorID }

/-- `getRolesByIDs` of one ID. -/
def getRolesByID (roleID : String) : Account (List RoleDocument) :=
  match objectIDFromHex roleID with
  | .error err => throw (.wrap ("invalid role ID " ++ roleID) err)
  | .ok id => withMessage "find roles, err" (findRoles { ids := [id] })

def updateRole (operator : Claims) (roleID : String) (opt : UpdateRoleOptions) : Account Unit := do
  let operatorID ← operatorOf operator
  match ← getRolesByID roleID with
  | [] => throw (.status 422 "role not found")
  | role :: _ =>
    updateRoleDocument { role with
      name := opt.name.getD role.name, description := opt.description.getD role.description
      policies := opt.policies.getD role.policies, updaterID := operatorID }

end Account

/-! ## The collections -/

/-- No two users have one `_id`. -/
structure Accounts where
  users : List User
  roles : List RoleDocument
  nodup : (users.map fun user => user.id).Nodup

/-- What the environment decides for a call, with the next new ID. -/
structure AccountChoice extends AuthChoice where
  newID : ObjectID := .zero

/-- The fields the collection's validator requires. -/
def RoleDocument.hasRequired (role : RoleDocument) : Bool :=
  role.name ≠ "" && role.policies.all fun policy => policy.permissionKey ≠ ""

namespace Accounts

/-- What a session sees. -/
def directory (a : Accounts) : Directory := ⟨a.users, a.roles.map RoleDocument.toRole, a.nodup⟩

/-- Only users are changed through a directory. -/
def withUsers (a : Accounts) (d : Directory) : Accounts := { a with users := d.users, nodup := d.nodup }

/-- The unique indexes are on `_id` and `username`. -/
def insertUser (a : Accounts) (passwords : Passwords) (salt : List UInt8) (user : User) : Except Error Unit × Accounts :=
  if !user.hasRequired then (.error (.text "Document failed validation"), a)
  else if h : user.id ∈ a.users.map fun user => user.id then (.error (.alreadyExists user.id.hex), a)
  else if user.userName ∈ a.users.map User.userName then (.error (.alreadyExists user.userName), a)
  else
    let document := { user with password := passwords.marshal salt user.password }
    (.ok (), { a with
      users := a.users ++ [document]
      nodup := by
        rw [List.map_append, List.map_singleton, List.nodup_append_comm]
        exact List.nodup_cons.mpr ⟨h, a.nodup⟩ })

/-- The unique indexes are on `_id` and `name`. -/
def insertRole (a : Accounts) (role : RoleDocument) : Except Error Unit × Accounts :=
  if !role.hasRequired then (.error (.text "Document failed validation"), a)
  else if a.roles.any fun other => other.id = role.id || other.name = role.name then
    (.error (.alreadyExists role.name), a)
  else (.ok (), { a with roles := a.roles ++ [role] })

def replaceRole (a : Accounts) (role : RoleDocument) : Except Error Bool × Accounts :=
  if !a.roles.any fun other => other.id = role.id then (.ok false, a)
  else if !role.hasRequired then (.error (.text "Document failed validation"), a)
  else if a.roles.any fun other => other.id ≠ role.id && other.name = role.name then
    (.error (.alreadyExists role.name), a)
  else (.ok true, { a with roles := a.roles.map fun other => if other.id = role.id then role else other })

def answer (svc : AuthService) (choice : AccountChoice) : (call : AccountCall) → Accounts → call.Resp × Accounts
  | .auth call, a =>
    let r := Directory.answer svc choice.toAuthChoice call a.directory
    (r.1, a.withUsers r.2)
  | .insertUser user, a => choice.outcome.write a (a.insertUser svc.passwords choice.salt user)
  | .findRoles opt, a =>
    (choice.outcome.read (.ok (reorder choice.order (a.roles.filter fun role => opt.selects role.toRole))), a)
  | .insertRole role, a => choice.outcome.write a (a.insertRole role)
  | .replaceRole role, a => choice.outcome.write a (a.replaceRole role)
  | .newObjectID, a => (choice.newID, a)

end Accounts

end Gthulhu.Manager
