/-
What a handler writes and changes when its request body is rejected.

After the body is read, a handler writes exactly one response on each of its
paths (`WritesOne`). The handlers that return on a rejected body have written one
by then and call nothing; `UpdateUserPermissions` goes on with what has been
decoded, so it always writes two, and may carry the update out.
-/
import Gthulhu.Manager.Rest
import Gthulhu.Manager.AuthPoolFacts

namespace Gthulhu.Manager

open Lib Rest

section

variable {svc : AuthService} {env : Nat → AccountChoice} {ctx : RequestContext}

/-! ## One response -/

/-- One response is written, whatever the service's calls answer. -/
def WritesOne (svc : AuthService) (env : Nat → AccountChoice) (x : Rest Unit) : Prop :=
  ∀ (rs : List Response) (s : Accounts × Nat),
    ∃ response, (Prog.result (Serial.handler (Accounts.answer svc) env) (x.run rs) s).1.2 = rs ++ [response]

theorem writesOne_errorResponse (status : Nat) (errMsg : String) : WritesOne svc env (errorResponse status errMsg) :=
  fun _ _ => ⟨_, rfl⟩

theorem writesOne_handleError (err : Error) : WritesOne svc env (handleError err) := by
  intro rs s
  unfold handleError
  cases err.httpStatus with
  | none => exact ⟨_, rfl⟩
  | some _ => exact ⟨_, rfl⟩

/-- What `finish` does with the service's result. -/
def finishWith : Except Error Unit → Rest Unit
  | .error err => handleError err
  | .ok () => jsonResponse { status := 200 }

theorem writesOne_finish (x : Account Unit) : WritesOne svc env (finish x) := by
  intro rs s
  have hbind : (finish x).run rs = (service x).run rs >>= fun r => (finishWith r.1).run r.2 := rfl
  rw [hbind, Prog.result_bind]
  have hservice : (Prog.result (Serial.handler (Accounts.answer svc) env) ((service x).run rs) s).1.2 = rs := by
    have hlift : (service x).run rs = x.run >>= fun r => pure (r, rs) := rfl
    rw [hlift, Prog.result_bind]
    rfl
  rw [hservice]
  cases (Prog.result (Serial.handler (Accounts.answer svc) env) ((service x).run rs) s).1.1 with
  | error err => exact writesOne_handleError err _ _
  | ok _ => exact ⟨_, rfl⟩

theorem writesOne_withClaims {next} (h : ∀ claims, WritesOne svc env (next claims)) :
    WritesOne svc env (withClaims ctx next) := by
  unfold withClaims
  cases ctx.claims with
  | none => exact writesOne_errorResponse _ _
  | some claims => exact h claims

theorem writesOne_withPolicy {resourceOwnerID next} (h : WritesOne svc env next) :
    WritesOne svc env (withPolicy ctx resourceOwnerID next) := by
  unfold withPolicy
  cases AuthService.verifyResourcePolicy ctx.claims ctx.rolePolicy resourceOwnerID with
  | error err => exact writesOne_handleError err
  | ok _ => exact h

theorem writesOne_permissionsUpdate (req : UpdateUserPermissionsRequest) : WritesOne svc env (permissionsUpdate ctx req) :=
  writesOne_withClaims fun _ => writesOne_withPolicy (writesOne_finish _)

/-! ## Rejected bodies -/

/-- The handlers that return write the one response, and call nothing. -/
theorem bound_rejected {Req : Type} {body : Body Req} {next : Req → Rest Unit} {err : Error}
    (h : jsonBind body = .error err) : bound body next = errorResponse 400 "Invalid request body" := by
  unfold bound
  rw [h]

/-- The one that does not goes on as with a body that is accepted. -/
theorem updateUserPermissions_rejected {body err} (h : jsonBind body = .error err) :
    Rest.updateUserPermissions ctx body =
      (errorResponse 400 "Invalid request body" >>= fun _ => permissionsUpdate ctx body.decoded) := by
  unfold Rest.updateUserPermissions
  rw [h]

theorem handler_rejected {req : RestRequest} {err} (h : req.bind = .error err)
    (hreturns : ∀ body, req ≠ .updateUserPermissions body) :
    req.handler svc ctx = errorResponse 400 "Invalid request body" := by
  cases req with
  | updateUserPermissions body => exact absurd rfl (hreturns body)
  | resetPassword body => simp [RestRequest.handler, Rest.resetPassword, bound_rejected h]
  | changePassword body => simp [RestRequest.handler, Rest.changePassword, bound_rejected h]
  | createRole body => simp [RestRequest.handler, Rest.createRole, bound_rejected h]
  | updateRole body => simp [RestRequest.handler, Rest.updateRole, bound_rejected h]

theorem serve_updateUserPermissions_rejected {body err} (h : jsonBind body = .error err) (a : Accounts) :
    ∃ response, (RestRequest.serve svc env ctx (.updateUserPermissions body) a).1 =
      [⟨400, some "Invalid request body"⟩, response] := by
  simp only [RestRequest.serve, RestRequest.handler, updateUserPermissions_rejected h]
  exact writesOne_permissionsUpdate body.decoded [⟨400, some "Invalid request body"⟩] (a, 0)

/-- **A rejected body changes nothing and is answered once with 400**, exactly
for the handlers that return. -/
theorem rejectedBody_iff {req : RestRequest} {err : Error} (h : req.bind = .error err) (a : Accounts) :
    ((∃ response, (req.serve svc env ctx a).1 = [response] ∧ response.status = 400) ∧ (req.serve svc env ctx a).2 = a) ↔
      ∀ body, req ≠ .updateUserPermissions body := by
  constructor
  · intro ⟨⟨response, hone, _⟩, _⟩ body hreq
    subst hreq
    obtain ⟨response', htwo⟩ := serve_updateUserPermissions_rejected h a
    rw [htwo] at hone
    simp at hone
  · intro hreturns
    simp only [RestRequest.serve, handler_rejected h hreturns]
    exact ⟨⟨_, rfl, rfl⟩, rfl⟩

end

namespace oneUser

def accounts : Accounts := { users := [oneUser], roles := [], nodup := oneUser.nodup }

/-- The user themselves, with a role that lets them change permissions. -/
def context : RequestContext where
  claims := some ⟨oneUser.id.hex⟩
  rolePolicy := some { permissionKey := "user.permission.change" }

/-- `{"userID": .., "status": 2} {}`. -/
def deactivation : Body UpdateUserPermissionsRequest where
  decoded := { userID := oneUser.id.hex, status := some .inactive }
  atEOF := false

/-- `{"userID": .., "newPassword": "new"} {}`. -/
def reset : Body ResetPasswordRequest where
  decoded := { userID := oneUser.id.hex, newPassword := "new" }
  atEOF := false

end oneUser

theorem rejectedBody_iff_reset :
    (RestRequest.resetPassword oneUser.reset).bind ≠ .ok () ∧
      (RestRequest.serve oneUser.service (fun _ => {}) oneUser.context (.resetPassword oneUser.reset) oneUser.accounts).2 =
        oneUser.accounts := by
  have hrejected : (RestRequest.resetPassword oneUser.reset).bind =
      .error (.text "request body must contain a single JSON object") := rfl
  refine ⟨by rw [hrejected]; simp, ?_⟩
  exact ((rejectedBody_iff hrejected oneUser.accounts).mpr fun _ => by simp).2

/-- A body with more after the first value is answered with 400, and then with
200: the user is inactive. -/
theorem updateUserPermissions_rejected_applied :
    (RestRequest.updateUserPermissions oneUser.deactivation).bind ≠ .ok () ∧
      (RestRequest.serve oneUser.service (fun _ => {}) oneUser.context (.updateUserPermissions oneUser.deactivation)
        oneUser.accounts).1 = [⟨400, some "Invalid request body"⟩, ⟨200, none⟩] ∧
      (RestRequest.serve oneUser.service (fun _ => {}) oneUser.context (.updateUserPermissions oneUser.deactivation)
        oneUser.accounts).2.users.map User.status = [.inactive] := by
  refine ⟨by simp [RestRequest.bind, jsonBind, oneUser.deactivation], ?_, ?_⟩
  · decide +kernel
  · decide +kernel

end Gthulhu.Manager
