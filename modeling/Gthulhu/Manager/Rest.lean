/-
The manager's handlers for users and roles (`api/manager/rest/hander.go`,
`auth_hdl.go`, `role_hdl.go`).

A handler reads its request from the body (`jsonBind`), looks at what the
middleware has put in the context, calls the service, and writes a response. A
handler here is a program over the service's calls that collects the responses
it writes; nothing keeps it from writing several. `UpdateUserPermissions` does
not return when its body is rejected, and has its own text for that.
-/
import Gthulhu.Manager.Accounts

namespace Gthulhu.Manager

open Lib

/-! ## Requests -/

/-- A request body as `json.Decoder`, with unknown fields disallowed, reads it:
the error of the first `Decode` and what it has left in its target, which it
fills as far as it comes, and whether a second `Decode` finds the end. -/
structure Body (Req : Type) where
  decoded : Req
  err : Option String := none
  atEOF : Bool := true

def jsonBind {Req : Type} (body : Body Req) : Except Error Unit :=
  match body.err with
  | some err => .error (.text err)
  | none => if body.atEOF then .ok () else .error (.text "request body must contain a single JSON object")

structure ChangePasswordRequest where
  oldPassword : String := ""
  newPassword : String := ""

structure ResetPasswordRequest where
  userID : String := ""
  newPassword : String := ""

structure UpdateUserPermissionsRequest where
  userID : String := ""
  roles : Option (List String) := none
  status : Option UserStatus := none

structure CreateRoleRequest where
  name : String := ""
  description : String := ""
  rolePolicies : List RolePolicy := []

structure UpdateRoleRequest where
  id : String := ""
  name : Option String := none
  description : Option String := none
  rolePolicy : Option (List RolePolicy) := none

/-- What the middleware has put in the request's context. -/
structure RequestContext where
  claims : Option Claims := none
  rolePolicy : Option RolePolicy := none

/-! ## Responses -/

/-- A status and the message of an `ErrorResponse`, or none for a
`SuccessResponse`. -/
structure Response where
  status : Nat
  error : Option String := none
  deriving DecidableEq

/-- Programs that write responses. -/
abbrev Rest : Type → Type := StateT (List Response) (Prog AccountCall AccountCall.Resp)

/-- `errs.IsHTTPStatusError`. -/
def Error.httpStatus : Error → Option (Nat × String)
  | .status code message => some (code, message)
  | .wrap _ err => err.httpStatus
  | _ => none

namespace Rest

def jsonResponse (response : Response) : Rest Unit := modify (· ++ [response])

def errorResponse (status : Nat) (errMsg : String) : Rest Unit := jsonResponse ⟨status, some errMsg⟩

def handleError (err : Error) : Rest Unit :=
  match err.httpStatus with
  | some (status, message) => errorResponse status message
  | none => errorResponse 500 "Internal Server Error"

/-- A call of the service. -/
def service {α : Type} (x : Account α) : Rest (Except Error α) := StateT.lift x.run

/-- The end of a handler: the service's error, or success. -/
def finish (x : Account Unit) : Rest Unit := do
  match ← service x with
  | .error err => handleError err
  | .ok () => jsonResponse { status := 200 }

/-- The beginning of a handler that returns when its body is rejected. -/
def bound {Req : Type} (body : Body Req) (next : Req → Rest Unit) : Rest Unit :=
  match jsonBind body with
  | .error _ => errorResponse 400 "Invalid request body"
  | .ok () => next body.decoded

/-- `GetClaimsFromContext`, with the response of a handler that finds none. -/
def withClaims (ctx : RequestContext) (next : Claims → Rest Unit) : Rest Unit :=
  match ctx.claims with
  | none => errorResponse 401 "Unauthorized"
  | some claims => next claims

/-- `VerifyResourcePolicy`, with the response of a handler whose check fails. -/
def withPolicy (ctx : RequestContext) (resourceOwnerID : String) (next : Rest Unit) : Rest Unit :=
  match AuthService.verifyResourcePolicy ctx.claims ctx.rolePolicy resourceOwnerID with
  | .error err => handleError err
  | .ok () => next

/-! ## Handlers -/

variable (svc : AuthService) (ctx : RequestContext)

def changePassword (body : Body ChangePasswordRequest) : Rest Unit :=
  bound body fun req => withClaims ctx fun claims =>
    if claims.uid = "" then errorResponse 401 "Unauthorized"
    else finish (.auth (svc.changePassword claims req.oldPassword req.newPassword))

def resetPassword (body : Body ResetPasswordRequest) : Rest Unit :=
  bound body fun req => withClaims ctx fun claims => withPolicy ctx req.userID <|
    finish (.auth (AuthService.resetPassword claims req.userID req.newPassword))

/-- What `UpdateUserPermissions` does after its body is read. -/
def permissionsUpdate (req : UpdateUserPermissionsRequest) : Rest Unit :=
  withClaims ctx fun claims => withPolicy ctx req.userID <|
    finish (.auth (AuthService.updateUserPermissions claims req.userID { roles := req.roles, status := req.status }))

def updateUserPermissions (body : Body UpdateUserPermissionsRequest) : Rest Unit := do
  match jsonBind body with
  -- There is no return here.
  | .error _ => errorResponse 400 "Invalid request body"
  | .ok () => pure ()
  permissionsUpdate ctx body.decoded

def createRole (body : Body CreateRoleRequest) : Rest Unit :=
  bound body fun req => withClaims ctx fun claims =>
    finish (.createRole claims
      { id := .zero, name := req.name, description := req.description, policies := req.rolePolicies })

def updateRole (body : Body UpdateRoleRequest) : Rest Unit :=
  bound body fun req => withClaims ctx fun claims =>
    finish (.updateRole claims req.id
      { name := req.name, description := req.description, policies := req.rolePolicy })

end Rest

/-- A request, with its body. -/
inductive RestRequest where
  | updateUserPermissions (body : Body UpdateUserPermissionsRequest)
  | resetPassword (body : Body ResetPasswordRequest)
  | changePassword (body : Body ChangePasswordRequest)
  | createRole (body : Body CreateRoleRequest)
  | updateRole (body : Body UpdateRoleRequest)

namespace RestRequest

def handler (svc : AuthService) (ctx : RequestContext) : RestRequest → Rest Unit
  | .updateUserPermissions body => Rest.updateUserPermissions ctx body
  | .resetPassword body => Rest.resetPassword ctx body
  | .changePassword body => Rest.changePassword svc ctx body
  | .createRole body => Rest.createRole ctx body
  | .updateRole body => Rest.updateRole ctx body

/-- What reading the body says. -/
def bind : RestRequest → Except Error Unit
  | .updateUserPermissions body => jsonBind body
  | .resetPassword body => jsonBind body
  | .changePassword body => jsonBind body
  | .createRole body => jsonBind body
  | .updateRole body => jsonBind body

/-- The request served: the responses written and the collections left. -/
def serve (svc : AuthService) (env : Nat → AccountChoice) (ctx : RequestContext) (req : RestRequest) (a : Accounts) :
    List Response × Accounts :=
  let r := Prog.result (Serial.handler (Accounts.answer svc) env) ((req.handler svc ctx).run []) (a, 0)
  (r.1.2, r.2.1)

end RestRequest

end Gthulhu.Manager
