/-
What each operation on users does, told from its own calls: which documents it
writes, by what it has read before, and what it returns. The answers are
arbitrary up to `Lawful`, so this holds however the operations interleave
(`program_along`); later modules never look at the programs again.
-/
import Gthulhu.Manager.Auth
import Gthulhu.Manager.WorldFacts

namespace Gthulhu.Manager

open Lib Auth AuthService

/-! ## Views -/

/-- A look at the document, or a write of it. -/
def AuthCall.touches : AuthCall → Bool
  | .findUsers _ | .replaceUser _ => true
  | _ => false

/-- What can be told from the calls an operation has made. -/
structure AuthView where
  /-- The documents it has read and replaced, the latest first. -/
  docs : List User := []
  /-- How often it has replaced its document. -/
  writes : Nat := 0
  /-- A new JTI, before its session is written. -/
  jti : Option String := none
  /-- The JTIs it has made. -/
  made : List String := []
  clock : List Time := []
  /-- A query that found no user. -/
  missed : Option QueryUserOptions := none
  /-- A call has failed. -/
  failed : Bool := false

namespace AuthView

def fail (v : AuthView) : AuthView := { v with failed := true }
def tick (v : AuthView) (now : Time) : AuthView := { v with clock := v.clock ++ [now] }
def wrote (v : AuthView) (user : User) : AuthView :=
  { v with docs := user :: v.docs, writes := v.writes + 1, jti := none }
/-- No document is known to be the stored one. -/
def lost (v : AuthView) : AuthView := { v with docs := [], jti := none, failed := true }

def next (v : AuthView) : Prog.Event AuthCall.Resp → AuthView
  | ⟨.findUsers _, .ok (user :: _)⟩ => { v with docs := user :: v.docs }
  | ⟨.findUsers opt, .ok []⟩ => { v with docs := [], missed := some opt }
  | ⟨.findUsers _, .error _⟩ => v.lost
  | ⟨.replaceUser user, .ok true⟩ => v.wrote user
  | ⟨.replaceUser _, _⟩ => v.lost
  | ⟨.findRoles _, .ok _⟩ => v
  | ⟨.findRoles _, .error _⟩ => v.fail
  | ⟨.now, now⟩ => v.tick now
  | ⟨.newXid, jti⟩ => { v with jti := some jti, made := v.made ++ [jti] }
  | ⟨.signedString _, .ok _⟩ => v
  | ⟨.signedString _, .error _⟩ => v.fail

/-- What a call does to a view. -/
inductive Move (v v' : AuthView) (e : Prog.Event AuthCall.Resp) : Prop
  | read (opt : QueryUserOptions) (user : User) (rest : List User) (he : e = ⟨.findUsers opt, .ok (user :: rest)⟩)
    (hv : v' = { v with docs := user :: v.docs })
  | wrote (user : User) (he : e = ⟨.replaceUser user, .ok true⟩) (hv : v' = v.wrote user)
  | newJti (jti : String) (he : e = ⟨.newXid, jti⟩) 
    (hv : v' = { v with jti := some jti, made := v.made ++ [jti] })
  | forgot (hdocs : v'.docs = []) (hwrites : v'.writes = v.writes) (hjti : ∀ x, v'.jti = some x → v.jti = some x)
  | other (htouches : e.1.touches = false) (hdocs : v'.docs = v.docs) (hwrites : v'.writes = v.writes)
    (hjti : v'.jti = v.jti)

theorem move (v : AuthView) (e : Prog.Event AuthCall.Resp) : v.Move (v.next e) e := by
  obtain ⟨call, r⟩ := e
  cases call with
  | findUsers opt =>
    match r with
    | .ok (user :: rest) => exact .read opt user rest rfl rfl
    | .ok [] => exact .forgot rfl rfl fun _ h => h
    | .error _ => exact .forgot rfl rfl fun _ h => by cases h
  | replaceUser user =>
    match r with
    | .ok true => exact .wrote user rfl rfl
    | .ok false => exact .forgot rfl rfl fun _ h => by cases h
    | .error _ => exact .forgot rfl rfl fun _ h => by cases h
  | findRoles opt => cases r <;> exact .other rfl rfl rfl rfl
  | now => exact .other rfl rfl rfl rfl
  | newXid => exact .newJti r rfl rfl
  | signedString claims => cases r <;> exact .other rfl rfl rfl rfl

end AuthView

/-- What every answer meets. -/
def Lawful (svc : AuthService) : Prog.Event AuthCall.Resp → Prop
  | ⟨.findUsers opt, .ok users⟩ => ∀ user ∈ users, opt.selects user = true
  | ⟨.newXid, jti⟩ => jti ≠ ""
  | ⟨.signedString claims, .ok token⟩ => token = svc.jwt.sign claims
  | _ => True

theorem answer_lawful (svc : AuthService) (choice : AuthChoice) (call : AuthCall) (d : Directory) :
    Lawful svc ⟨call, (d.answer svc choice call).1⟩ := by
  cases call with
  | findUsers opt =>
    simp only [Directory.answer]
    cases h : choice.outcome.read (.ok (reorder choice.order (d.users.filter opt.selects))) with
    | error err => trivial
    | ok users =>
      cases Outcome.read_ok h
      intro user huser
      exact (List.mem_filter.mp (mem_reorder.mp huser)).2
  | replaceUser user => trivial
  | findRoles opt => trivial
  | now => trivial
  | newXid => exact choice.xid.ne_empty
  | signedString claims =>
    simp only [Directory.answer]
    cases h : choice.outcome.read (.ok (svc.jwt.sign claims)) with
    | error err => trivial
    | ok token =>
      cases Outcome.read_ok h
      rfl

/-! ## What an operation writes and returns -/

def sessionOf (svc : AuthService) (claims : TokenClaims) : RefreshSession :=
  ⟨claims.id, svc.hashToken (svc.jwt.sign claims), claims.expiresAt, false⟩

/-- `after` is `before` with the session of a new refresh token. -/
structure Issues (svc : AuthService) (clock : List Time) (claims : TokenClaims) (before after : User) : Prop where
  claims_eq : ∃ expiresAt issuedAt notBefore, notBefore ∈ clock ∧
    claims = userClaims before .refresh (24 * 60 * 60 * second) expiresAt issuedAt notBefore claims.id
  jti : claims.id ≠ ""
  id : after.id = before.id
  tokenVersion : after.tokenVersion = before.tokenVersion
  refreshTokens : ∃ now ∈ clock,
    after.refreshTokens = pruneRefreshSessions before.refreshTokens now ++ [sessionOf svc claims]

/-- The tokens of a new pair. -/
structure IssuesPair (svc : AuthService) (clock : List Time) (pair : TokenPair) (claims : TokenClaims)
    (before after : User) : Prop where
  issues : Issues svc clock claims before after
  refresh : pair.refreshToken = svc.jwt.sign claims
  access : ∃ expiresAt issuedAt notBefore,
    pair.accessToken = svc.jwt.sign (userClaims before .access (60 * second) expiresAt issuedAt notBefore "")

/-- A refresh token of the user whose document this is. -/
structure TokenOf (svc : AuthService) (token : String) (claims : TokenClaims) (user : User) : Prop where
  claims_eq : svc.jwt.claims token = some claims
  tokenType : claims.tokenType = .refresh
  jti : claims.id ≠ ""
  uid : claims.getBsonObjectUID = .ok user.id

/-- `after` is `before` with the token's session exchanged. -/
structure Exchanges (svc : AuthService) (clock : List Time) (token : String) (claims : TokenClaims)
    (before after : User) : Prop where
  tokenOf : TokenOf svc token claims before
  version : before.tokenVersion = claims.tokenVersion
  id : after.id = before.id
  status : after.status = before.status
  tokenVersion : after.tokenVersion = before.tokenVersion
  refreshTokens : ∃ parsed checked rest, clock = parsed :: checked :: rest ∧ validAt claims parsed = true ∧
    exchange claims.id (svc.hashToken token) checked before.refreshTokens = .ok after.refreshTokens

/-- `after` is `before` with the token's session revoked. -/
structure Revokes (svc : AuthService) (token : String) (claims : TokenClaims) (before after : User) : Prop where
  tokenOf : TokenOf svc token claims before
  id : after.id = before.id
  tokenVersion : after.tokenVersion = before.tokenVersion
  refreshTokens : revoke claims.id (svc.hashToken token) before.refreshTokens = .ok after.refreshTokens

structure Clears (userClaims : Claims) (before after : User) : Prop where
  uid : userClaims.getBsonObjectUID = .ok before.id
  id : after.id = before.id
  tokenVersion : after.tokenVersion = before.tokenVersion + 1
  refreshTokens : after.refreshTokens = []

/-- Tokens and sessions stay as they are. -/
structure Keeps (before after : User) : Prop where
  id : after.id = before.id
  tokenVersion : after.tokenVersion = before.tokenVersion
  refreshTokens : after.refreshTokens = before.refreshTokens

namespace AuthOp

variable (svc : AuthService)

/-- How often a successful call replaces the document. -/
def writes : AuthOp → Nat
  | .refreshToken _ => 2
  | .verifyJWTToken _ _ => 0
  | _ => 1

/-- What it may write, having seen `v` and the document `before` last. -/
def Writes (v : AuthView) (before after : User) : AuthOp → Prop
  | .login _ _ => ∃ claims, v.jti = some claims.id ∧ Issues svc v.clock claims before after
  | .refreshToken token =>
    (v.writes = 0 ∧ ∃ claims, Exchanges svc v.clock token claims before after) ∨
      (v.writes = 1 ∧ (∃ claims, TokenOf svc token claims before ∧ before.tokenVersion = claims.tokenVersion) ∧
        ∃ claims, v.jti = some claims.id ∧ Issues svc v.clock claims before after)
  | .logout token => ∃ claims, Revokes svc token claims before after
  | .logoutAll userClaims => Clears userClaims before after
  | .verifyJWTToken _ _ => False
  | _ => Keeps before after

/-- The password it writes: a new one, or that of a document of the user that it has seen. -/
def Password (v : AuthView) (after : User) : AuthOp → Prop
  | .changePassword userClaims _ newPassword => userClaims.getBsonObjectUID = .ok after.id ∧ after.password = newPassword
  | .resetPassword _ id newPassword => objectIDFromHex id = .ok after.id ∧ after.password = newPassword
  | _ => ∃ before ∈ v.docs, before.id = after.id ∧ before.password = after.password

/-- What holds at each call of an operation. -/
def Calls (op : AuthOp) (v : AuthView) : AuthCall → Prop
  | .replaceUser user => v.writes < op.writes ∧ op.Password v user ∧
    ∃ before, v.docs.head? = some before ∧ op.Writes svc v before user
  | .findUsers _ => v.writes = 0
  | _ => v.writes < op.writes ∨ op.writes = 0

/-- What a successful call has done. -/
def Returns (v : AuthView) : AuthOp → AuthResult → Prop
  | .login _ _, .pair pair => ∃ before after claims, v.docs = [after, before] ∧ v.made = [claims.id] ∧
    before.status ≠ .inactive ∧ IssuesPair svc v.clock pair claims before after ∧ after.id.isZero = false
  | .refreshToken token, .pair pair => ∃ before between after old claims, v.docs = [after, between, before] ∧
    v.made = [claims.id] ∧ Exchanges svc v.clock token old before between ∧
    IssuesPair svc v.clock pair claims between after ∧ after.id.isZero = false
  | .logout token, .done => ∃ before after claims, v.docs = [after, before] ∧ Revokes svc token claims before after
  | .logoutAll userClaims, .done => ∃ before after, v.docs = [after, before] ∧ Clears userClaims before after
  | .verifyJWTToken token permissionKey, .verified claims _ => ∃ user, v.docs = [user] ∧
    svc.jwt.claims token = some claims ∧ claims.tokenType = .access ∧
    (permissionKey = changeOwnPassword ∨ claims.needChangePassword = false) ∧
    claims.getBsonObjectUID = .ok user.id ∧ user.tokenVersion = claims.tokenVersion
  | .changePassword _ _ _, .done | .resetPassword _ _ _, .done | .updateUserPermissions _ _ _, .done =>
    ∃ before after, v.docs = [after, before] ∧ Keeps before after
  | _, _ => False

/-- Why `RefreshToken` refuses a token that is valid when it is parsed. -/
def Refuses (v : AuthView) : AuthOp → Prop
  | .refreshToken token => ∀ claims id, svc.jwt.claims token = some claims → claims.tokenType = .refresh →
    claims.id ≠ "" → claims.getBsonObjectUID = .ok id → ∃ parsed, v.clock.head? = some parsed ∧
    (validAt claims parsed = true → v.missed = some { ids := [id] } ∨ ∃ user, v.docs = [user] ∧ user.id = id ∧
      (user.tokenVersion ≠ claims.tokenVersion ∨ id.isZero = true ∨ ∃ checked rest err,
        v.clock = parsed :: checked :: rest ∧
        exchange claims.id (svc.hashToken token) checked user.refreshTokens = .error err))
  | _ => True

/-- What holds where an operation returns a result. -/
def Done (op : AuthOp) (v : AuthView) (result : AuthResult) : Prop :=
  v.writes = op.writes ∧ v.failed = false ∧ op.Returns svc v result

/-- What holds where an operation returns an error. -/
def Fails (op : AuthOp) (v : AuthView) : Prop :=
  (v.writes < op.writes ∨ op.writes = 0) ∧ (v.failed = false → v.writes = 0 ∧ op.Refuses svc v)

end AuthOp

/-- A token of a pair carries its user, the version it was issued at and whether
the password has to be changed. -/
theorem IssuesPair.token_claims {svc clock pair claims before after} (h : IssuesPair svc clock pair claims before after)
    {token} (htoken : token = pair.accessToken ∨ token = pair.refreshToken) :
    ∃ claims, svc.jwt.claims token = some claims ∧ claims.getBsonObjectUID = .ok before.id ∧
      claims.tokenVersion = before.tokenVersion ∧
      claims.needChangePassword = decide (before.status = .waitChangePassword) := by
  rcases htoken with rfl | rfl
  · obtain ⟨expiresAt, issuedAt, notBefore, haccess⟩ := h.access
    rw [haccess]
    exact ⟨_, svc.jwt.claims_sign _, objectIDFromHex_hex before.id, rfl, rfl⟩
  · obtain ⟨expiresAt, issuedAt, notBefore, _, hclaims⟩ := h.issues.claims_eq
    rw [h.refresh]
    refine ⟨_, svc.jwt.claims_sign _, ?_, ?_, ?_⟩
    · rw [hclaims]
      exact objectIDFromHex_hex before.id
    · rw [hclaims]
      rfl
    · rw [hclaims]
      rfl

/-! ## Rules for the parts of an operation -/

section

variable {svc : AuthService} {P : AuthView → AuthCall → Prop} {α β : Type} {K : AuthView → α → Prop} {E : AuthView → Prop} {v : AuthView}

/-- `K` holds where the program returns and `E` where it fails. -/
abbrev Meets (svc : AuthService) (P : AuthView → AuthCall → Prop) (K : AuthView → α → Prop) (E : AuthView → Prop) (v : AuthView)
    (x : Auth α) : Prop :=
  Prog.Along (Lawful svc) AuthView.next P (Prog.Ends K fun v _ => E v) v x.run

theorem meets_bind {K : AuthView → β → Prop} {x : Auth α} {f : α → Auth β}
    (h : Meets svc P (fun v a => Meets svc P K E v (f a)) E v x) : Meets svc P K E v (x >>= f) :=
  Prog.along_except_bind.mpr h

theorem meets_withMessage {message x} (h : Meets svc P K E v x) :
    Meets svc P K E v (withMessage message x) :=
  Prog.along_mapError.mpr h

/-- `if c then throw err`, and what follows. -/
theorem meets_unless {c : Prop} [Decidable c] {err x} (hthrow : c → E v)
    (h : ¬c → Meets svc P K E v x) : Meets svc P K E v (if c then throw err else x) :=
  Prog.along_ite.mpr ⟨hthrow, h⟩

theorem meets_now {K} (hcall : P v .now) (h : ∀ t, K (v.tick t) t) : Meets svc P K E v now :=
  ⟨hcall, fun t _ => h t⟩

theorem meets_newXid {K} (hcall : P v .newXid)
    (h : ∀ jti, jti ≠ "" → K { v with jti := some jti, made := v.made ++ [jti] } jti) : Meets svc P K E v newXid :=
  ⟨hcall, h⟩

theorem meets_signedString {K claims} (hcall : P v (.signedString claims)) (hok : K v (svc.jwt.sign claims))
    (hfail : E v.fail) : Meets svc P K E v (signedString claims) := by
  refine ⟨hcall, fun r hr => ?_⟩
  cases r with
  | error err => exact hfail
  | ok token =>
    cases hr
    exact hok

theorem meets_getUser {K opt} (hcall : P v (.findUsers opt))
    (hok : ∀ user, opt.selects user = true → K { v with docs := user :: v.docs } user)
    (hnone : E { v with docs := [], missed := some opt }) (hfail : E v.lost) : Meets svc P K E v (getUser opt) := by
  refine meets_bind (meets_withMessage ⟨hcall, fun r hr => ?_⟩)
  cases r with
  | error err => exact hfail
  | ok users =>
    cases users with
    | nil => exact hnone
    | cons user rest => exact hok user (hr user (List.mem_cons_self ..))

theorem selects_id {id user} (h : QueryUserOptions.selects { ids := [id] } user = true) :
    user.id = id := by
  simpa [QueryUserOptions.selects] using h

theorem meets_getUserByID {K id} (hcall : P v (.findUsers { ids := [id] }))
    (hok : ∀ user, user.id = id → K { v with docs := user :: v.docs } user)
    (hnone : E { v with docs := [], missed := some { ids := [id] } }) (hfail : E v.lost) :
    Meets svc P K E v (getUserByID id) :=
  meets_getUser hcall (fun user h => hok user (selects_id h)) hnone hfail

theorem meets_uidOf {K message claims} (hok : ∀ id, claims.getBsonObjectUID = .ok id → K v id)
    (hfail : ∀ err, claims.getBsonObjectUID = .error err → E v) : Meets svc P K E v (uidOf message claims) := by
  unfold uidOf
  split
  · rename_i err h
    exact hfail err h
  · rename_i id h
    exact hok id h

theorem meets_parseAndValidateToken {K token} (hcall : P v .now)
    (hok : ∀ claims t, svc.jwt.claims token = some claims → validAt claims t = true → K (v.tick t) claims)
    (hnone : svc.jwt.claims token = none → E v)
    (hbad : ∀ claims t, svc.jwt.claims token = some claims → ¬validAt claims t = true → E (v.tick t)) :
    Meets svc P K E v (svc.parseAndValidateToken token) := by
  unfold parseAndValidateToken
  split
  · rename_i h
    exact hnone h
  · rename_i claims h
    refine meets_bind (meets_now hcall fun t => Prog.along_ite.mpr ⟨hok claims t h, hbad claims t h⟩)

theorem meets_updateUser {K user} (hcall : P v .now) (hwrite : ∀ t, user.id.isZero = false →
      P (v.tick t) (.replaceUser { user with updatedTime := Time.unixMilli t }))
    (hok : ∀ t, user.id.isZero = false → K ((v.tick t).wrote { user with updatedTime := Time.unixMilli t })
      { user with updatedTime := Time.unixMilli t }) (hzero : user.id.isZero = true → E v)
    (hfail : ∀ t, E (v.tick t).lost) :
    Meets svc P K E v (updateUser user) := by
  refine meets_unless hzero fun hid => meets_bind (meets_now hcall fun t => ?_)
  have hid : user.id.isZero = false := by simpa using hid
  refine meets_bind (meets_withMessage ⟨hwrite t hid, fun r _ => ?_⟩)
  cases r with
  | error err => exact hfail t
  | ok matched =>
    cases matched with
    | false => exact hfail t
    | true => exact hok t hid

end

section

variable {svc : AuthService} {op : AuthOp} {α : Type} {E : AuthView → Prop} {v : AuthView}

theorem meets_genAccessToken {K user} (hlt : v.writes < op.writes)
    (hok : ∀ clock expiresAt issuedAt notBefore, v.clock <+: clock → K { v with clock := clock }
      (svc.jwt.sign (userClaims user .access (60 * second) expiresAt issuedAt notBefore "")))
    (hfail : ∀ v', v'.writes = v.writes → v'.failed = true → E v') :
    Meets svc (op.Calls svc) K E v (genAccessToken user) := by
  refine meets_bind <| meets_now (.inl hlt) fun expiresAt => meets_bind <| meets_now (.inl hlt) fun issuedAt =>
    meets_bind <| meets_now (.inl hlt) fun notBefore => meets_signedString (.inl hlt) ?_ (hfail _ rfl rfl)
  exact hok (v.clock ++ [expiresAt] ++ [issuedAt] ++ [notBefore]) expiresAt issuedAt notBefore (by simp)

theorem meets_genRefreshToken {K user} (hlt : v.writes < op.writes)
    (hok : ∀ clock expiresAt issuedAt notBefore claims, v.clock <+: clock → notBefore ∈ clock → claims.id ≠ "" →
      claims = userClaims user .refresh (24 * 60 * 60 * second) expiresAt issuedAt notBefore claims.id →
      K { v with clock := clock, jti := some claims.id, made := v.made ++ [claims.id] } (svc.jwt.sign claims, claims))
    (hfail : ∀ v', v'.writes = v.writes → v'.failed = true → E v') :
    Meets svc (op.Calls svc) K E v (genRefreshToken user) := by
  refine meets_bind <| meets_now (.inl hlt) fun expiresAt => meets_bind <| meets_now (.inl hlt) fun issuedAt =>
    meets_bind <| meets_now (.inl hlt) fun notBefore => meets_bind <| meets_newXid (.inl hlt) fun jti hjti =>
      meets_bind <| meets_signedString (.inl hlt) ?_ (hfail _ rfl rfl)
  exact hok (v.clock ++ [expiresAt] ++ [issuedAt] ++ [notBefore]) expiresAt issuedAt notBefore
    (userClaims user .refresh (24 * 60 * 60 * second) expiresAt issuedAt notBefore jti) (by simp) (by simp) hjti rfl

theorem meets_issueTokenPair {K user} (hdocs : v.docs.head? = some user) (hlt : v.writes < op.writes)
    (hpassword : ∀ v' after, (∃ before ∈ v'.docs, before.id = after.id ∧ before.password = after.password) →
      op.Password v' after) (hwrite : ∀ clock claims after, v.clock <+: clock → Issues svc clock claims user after →
      op.Writes svc { v with clock := clock, jti := some claims.id, made := v.made ++ [claims.id] } user after)
    (hok : ∀ clock pair claims after, v.clock <+: clock → IssuesPair svc clock pair claims user after →
      after.id.isZero = false → K ({ v with clock := clock, made := v.made ++ [claims.id] }.wrote after) pair)
    (hzero : user.id.isZero = true → ∀ clock jti made, E { v with clock := clock, jti := jti, made := made })
    (hfail : ∀ v', v'.writes = v.writes → v'.failed = true → E v') :
    Meets svc (op.Calls svc) K E v (svc.issueTokenPair user) := by
  refine meets_bind <| meets_withMessage <| meets_genAccessToken hlt (fun clock1 ea ia na hclock1 => ?_) hfail
  refine meets_bind <| meets_withMessage <| meets_genRefreshToken hlt
    (fun clock2 er ir nr claims hclock2 hnr hjti hclaims => ?_) hfail
  refine meets_bind <| meets_now (.inl hlt) fun now => ?_
  have hclock : ∀ t, v.clock <+: clock2 ++ [now] ++ [t] := fun t =>
    (hclock1.trans hclock2).trans ((List.prefix_append _ _).trans (List.prefix_append _ _))
  -- The update reads the clock once more, at `t`.
  have hissues : ∀ t after, after.id = user.id → after.tokenVersion = user.tokenVersion →
      after.refreshTokens = pruneRefreshSessions user.refreshTokens now ++ [sessionOf svc claims] →
      Issues svc (clock2 ++ [now] ++ [t]) claims user after := by
    intro t after hid hversion hsessions
    exact ⟨⟨er, ir, nr, by simp [hnr], hclaims⟩, hjti, hid, hversion, now, by simp, hsessions⟩
  refine meets_bind <| meets_withMessage <| meets_updateUser (.inl hlt) (fun t hid => ?_) (fun t hid => ?_) (fun hid => ?_)
    (fun t => hfail _ rfl rfl)
  · refine ⟨hlt, hpassword _ _ ⟨user, List.mem_of_mem_head? hdocs, rfl, rfl⟩, user, hdocs, ?_⟩
    exact hwrite _ _ _ (hclock t) (hissues t _ rfl rfl rfl)
  · exact hok _ _ claims _ (hclock t) ⟨hissues t _ rfl rfl rfl, rfl, ea, ia, na, rfl⟩ hid
  · exact hzero hid _ _ _

end

/-! ## The operations -/

section

variable {svc : AuthService} {op : AuthOp} {v : AuthView}

theorem fails_failed (hlt : v.writes < op.writes) (h : v.failed = true) : op.Fails svc v :=
  ⟨.inl hlt, fun hfalse => by rw [h] at hfalse; cases hfalse⟩

theorem fails_refused (hlt : v.writes < op.writes) (h : v.writes = 0) (hrefuses : op.Refuses svc v) : op.Fails svc v :=
  ⟨.inl hlt, fun _ => ⟨h, hrefuses⟩⟩

/-- A program does what the operation should, with the result `f` makes of its
own. -/
abbrev AuthOp.MeetsBy (op : AuthOp) (svc : AuthService) {α : Type} (f : α → AuthResult) (v : AuthView) (x : Auth α) :
    Prop :=
  Meets svc (op.Calls svc) (fun v a => op.Done svc v (f a)) (op.Fails svc) v x

/-- The end of the operations that write once. -/
theorem meets_writeOnce (svc : AuthService) (op : AuthOp) (hop : op.writes = 1) (hrefuses : ∀ v, op.Refuses svc v)
    {before : User} {after : Time → User} (hdocs : v.docs = [before]) (hwrites : v.writes = 0)
    (hfailed : v.failed = false)
    (hwrite : ∀ v t t', v.docs = [before] → op.Password v { after t with updatedTime := Time.unixMilli t' } ∧
      op.Writes svc v before { after t with updatedTime := Time.unixMilli t' })
    (hdone : ∀ v t t', v.docs = [{ after t with updatedTime := Time.unixMilli t' }, before] →
      op.Returns svc v .done) :
    op.MeetsBy svc (fun _ => .done) v (do let _ ← updateUser (after (← now))) := by
  have hlt : v.writes < op.writes := by omega
  refine meets_bind <| meets_now (.inl hlt) fun t => meets_bind <| meets_updateUser (.inl hlt) (fun t' hid => ?_)
    (fun t' hid => ?_) (fun hid => ?_) (fun t' => ?_)
  · obtain ⟨hpassword, hwrites⟩ := hwrite ((v.tick t).tick t') t t' hdocs
    exact ⟨hlt, hpassword, before, by simp [AuthView.tick, hdocs], hwrites⟩
  · refine ⟨?_, hfailed, hdone _ t t' ?_⟩
    · simp [AuthView.wrote, AuthView.tick, hwrites, hop]
    · simp [AuthView.wrote, AuthView.tick, hdocs]
  · exact fails_refused hlt hwrites (hrefuses _)
  · exact fails_failed hlt rfl

theorem login_meets (username password : String) :
    (AuthOp.login username password).MeetsBy svc .pair {} (svc.login username password) := by
  have hlt : (0 : Nat) < 1 := by decide
  refine meets_bind <| meets_getUser rfl (fun user _ => ?_) (fails_refused hlt rfl trivial) (fails_failed hlt rfl)
  refine meets_unless (fun _ => fails_refused hlt rfl trivial) fun hstatus => ?_
  split
  · exact fails_refused hlt rfl trivial
  · exact fails_refused hlt rfl trivial
  · refine meets_issueTokenPair rfl hlt (fun _ _ => id) ?_ ?_ ?_ ?_
    · exact fun clock claims after _ hissues => ⟨claims, rfl, hissues⟩
    · exact fun clock pair claims after _ hissues hid => ⟨rfl, rfl, user, after, claims, rfl, rfl, hstatus, hissues, hid⟩
    · exact fun _ _ _ _ => fails_refused hlt rfl trivial
    · exact fun v' hw hf => fails_failed (hw ▸ hlt) hf

theorem logout_meets (token : String) :
    (AuthOp.logout token).MeetsBy svc (fun _ => .done) {} (svc.logout token) := by
  have hlt : (0 : Nat) < 1 := by decide
  refine meets_bind <| meets_parseAndValidateToken (.inl hlt) (fun claims t hclaims _ => ?_)
    (fun _ => fails_refused hlt rfl trivial) (fun _ _ _ _ => fails_refused hlt rfl trivial)
  refine meets_unless (fun _ => fails_refused hlt rfl trivial) fun htype => ?_
  rw [not_or, not_not] at htype
  refine meets_bind <| meets_uidOf (fun id hid => ?_) (fun _ _ => fails_refused hlt rfl trivial)
  refine meets_bind <| meets_getUserByID rfl (fun user huser => ?_) (fails_refused hlt rfl trivial)
    (fails_failed hlt rfl)
  subst huser
  have htoken : TokenOf svc token claims user := ⟨hclaims, htype.1, htype.2, hid⟩
  split
  · exact fails_refused hlt rfl trivial
  · rename_i sessions hrevoke
    refine meets_writeOnce svc (.logout token) rfl (fun _ => trivial) rfl rfl rfl ?_ ?_
    · exact fun v t t' hdocs => ⟨⟨user, by simp [hdocs], rfl, rfl⟩, claims, htoken, rfl, rfl, hrevoke⟩
    · exact fun v t t' hdocs => ⟨user, _, claims, hdocs, htoken, rfl, rfl, hrevoke⟩

theorem logoutAll_meets (userClaims : Claims) :
    (AuthOp.logoutAll userClaims).MeetsBy svc (fun _ => .done) {} (AuthService.logoutAll userClaims) := by
  have hlt : (0 : Nat) < 1 := by decide
  refine meets_bind <| meets_uidOf (fun id hid => ?_) (fun _ _ => fails_refused hlt rfl trivial)
  refine meets_bind <| meets_getUserByID rfl (fun user huser => ?_) (fails_refused hlt rfl trivial)
    (fails_failed hlt rfl)
  subst huser
  refine meets_writeOnce svc (.logoutAll userClaims) rfl (fun _ => trivial) rfl rfl rfl ?_ ?_
  · exact fun v t t' hdocs => ⟨⟨user, by simp [hdocs], rfl, rfl⟩, hid, rfl, rfl, rfl⟩
  · exact fun v t t' hdocs => ⟨user, _, hdocs, hid, rfl, rfl, rfl⟩

theorem changePassword_meets (userClaims : Claims) (oldPassword newPassword : String) :
    (AuthOp.changePassword userClaims oldPassword newPassword).MeetsBy svc (fun _ => .done) {}
      (svc.changePassword userClaims oldPassword newPassword) := by
  have hlt : (0 : Nat) < 1 := by decide
  refine meets_bind <| meets_uidOf (fun id hid => ?_) (fun _ _ => fails_refused hlt rfl trivial)
  refine meets_bind <| meets_getUserByID rfl (fun user huser => ?_) (fails_refused hlt rfl trivial)
    (fails_failed hlt rfl)
  subst huser
  split
  · exact fails_refused hlt rfl trivial
  · exact fails_refused hlt rfl trivial
  · refine meets_writeOnce svc (.changePassword userClaims oldPassword newPassword) rfl (fun _ => trivial) rfl rfl rfl ?_ ?_
    · exact fun v t t' _ => ⟨⟨hid, rfl⟩, rfl, rfl, rfl⟩
    · exact fun v t t' hdocs => ⟨user, _, hdocs, rfl, rfl, rfl⟩

theorem meets_requestedID {P K E id} (hok : ∀ uid, objectIDFromHex id = .ok uid → K v uid)
    (hfail : E v) : Meets svc P K E v (requestedID id) := by
  unfold requestedID
  split
  · exact hfail
  · rename_i uid h
    exact hok uid h

theorem resetPassword_meets (operator : Claims) (id newPassword : String) :
    (AuthOp.resetPassword operator id newPassword).MeetsBy svc (fun _ => .done) {}
      (AuthService.resetPassword operator id newPassword) := by
  have hlt : (0 : Nat) < 1 := by decide
  refine meets_bind <| meets_uidOf (fun operatorID _ => ?_) (fun _ _ => fails_refused hlt rfl trivial)
  refine meets_bind <| meets_requestedID (fun uid huid => ?_) (fails_refused hlt rfl trivial)
  refine meets_bind <| meets_getUserByID rfl (fun user huser => ?_) (fails_refused hlt rfl trivial)
    (fails_failed hlt rfl)
  subst huser
  refine meets_writeOnce svc (.resetPassword operator id newPassword) rfl (fun _ => trivial) rfl rfl rfl ?_ ?_
  · exact fun v t t' _ => ⟨⟨huid, rfl⟩, rfl, rfl, rfl⟩
  · exact fun v t t' hdocs => ⟨user, _, hdocs, rfl, rfl, rfl⟩

theorem meets_queryRoles {P K E opt} (hcall : P v (.findRoles opt)) (hok : ∀ roles, K v roles) (hfail : E v.fail) :
    Meets svc P K E v (queryRoles opt) := by
  refine meets_withMessage ⟨hcall, fun r _ => ?_⟩
  cases r with
  | error err => exact hfail
  | ok roles => exact hok roles

theorem meets_getRolesByNames {P K E roleNames} (hcall : ∀ opt, P v (.findRoles opt)) (hok : ∀ roles, K v roles)
    (hfail : E v.fail) :
    Meets svc P K E v (getRolesByNames roleNames) :=
  Prog.along_ite.mpr ⟨fun _ => hok [], fun _ => meets_queryRoles (hcall _) hok hfail⟩

theorem updateUserPermissions_meets (operator : Claims) (id : String) (opt : UpdateUserPermissionsOptions) :
    (AuthOp.updateUserPermissions operator id opt).MeetsBy svc (fun _ => .done) {}
      (AuthService.updateUserPermissions operator id opt) := by
  have hlt : (0 : Nat) < 1 := by decide
  refine meets_bind <| meets_uidOf (fun operatorID _ => ?_) (fun _ _ => fails_refused hlt rfl trivial)
  refine meets_bind <| meets_requestedID (fun uid _ => ?_) (fails_refused hlt rfl trivial)
  refine meets_bind <| meets_getUserByID rfl (fun user huser => ?_) (fails_refused hlt rfl trivial)
    (fails_failed hlt rfl)
  refine meets_bind ?_
  have hend : ∀ roles, (AuthOp.updateUserPermissions operator id opt).MeetsBy svc (fun _ => .done) { docs := [user] } (do
        let _ ← updateUser { user with
          roles := roles, status := opt.status.getD user.status, updatedTime := (← now).unixMilli,
          updaterID := operatorID }) := by
    intro roles
    refine meets_writeOnce svc (.updateUserPermissions operator id opt) rfl (fun _ => trivial) rfl rfl rfl ?_ ?_
    · exact fun v t t' hdocs => ⟨⟨user, by simp [hdocs], rfl, rfl⟩, rfl, rfl, rfl⟩
    · exact fun v t t' hdocs => ⟨user, _, hdocs, rfl, rfl, rfl⟩
  cases hroles : opt.roles with
  | none => exact hend _
  | some names =>
    refine meets_bind <| meets_queryRoles (.inl hlt) (fun found => ?_) (fails_failed hlt rfl)
    exact meets_unless (fun _ => fails_refused hlt rfl trivial) fun _ => hend names

theorem verifyJWTToken_meets (token permissionKey : String) :
    (AuthOp.verifyJWTToken token permissionKey).MeetsBy svc (fun accepted => .verified accepted.1 accepted.2) {}
      (svc.verifyJWTToken token permissionKey) := by
  have hfails : ∀ v : AuthView, v.writes = 0 → (AuthOp.verifyJWTToken token permissionKey).Fails svc v :=
    fun v hv => ⟨.inr rfl, fun _ => ⟨hv, trivial⟩⟩
  refine meets_bind <| meets_parseAndValidateToken (.inr rfl) (fun claims t hclaims _ => ?_)
    (fun _ => hfails _ rfl) (fun _ _ _ _ => hfails _ rfl)
  refine meets_unless (fun _ => hfails _ rfl) fun htype => meets_unless (fun _ => hfails _ rfl) fun hneed => ?_
  have hneed : permissionKey = changeOwnPassword ∨ claims.needChangePassword = false := by
    by_cases hkey : permissionKey = changeOwnPassword
    · exact .inl hkey
    · exact .inr (by simpa [hkey] using hneed)
  refine meets_bind <| meets_uidOf (fun id hid => ?_) (fun _ _ => hfails _ rfl)
  refine meets_bind <| meets_withMessage <| meets_getUserByID rfl (fun user huser => ?_) (hfails _ rfl)
    (hfails _ rfl)
  subst huser
  refine meets_unless (fun _ => hfails _ rfl) fun hversion => ?_
  have hdone : ∀ v : AuthView, v.docs = [user] → v.writes = 0 → v.failed = false → ∀ policy,
      (AuthOp.verifyJWTToken token permissionKey).Done svc v (.verified claims policy) :=
    fun v hdocs hv hfailed policy => ⟨hv, hfailed, user, hdocs, hclaims, not_not.mp htype, hneed, hid, not_not.mp hversion⟩
  refine Prog.along_ite.mpr ⟨fun _ => hdone _ rfl rfl rfl _, fun _ => meets_bind <| meets_withMessage ?_⟩
  refine meets_getRolesByNames (fun _ => .inr rfl) (fun roles => ?_) (hfails _ rfl)
  split
  · exact hfails _ rfl
  · exact hdone _ rfl rfl rfl _

/-- A valid token is refused on account of what is stored. -/
theorem fails_stored {token claims id parsed} (hlt : v.writes < 2) (hzero : v.writes = 0)
    (hclaims : svc.jwt.claims token = some claims) (hid : claims.getBsonObjectUID = .ok id)
    (hparsed : v.clock.head? = some parsed) (hwhy : v.missed = some { ids := [id] } ∨
      ∃ user, v.docs = [user] ∧ user.id = id ∧ (user.tokenVersion ≠ claims.tokenVersion ∨ id.isZero = true ∨
        ∃ checked rest err, v.clock = parsed :: checked :: rest ∧
          exchange claims.id (svc.hashToken token) checked user.refreshTokens = .error err)) :
    (AuthOp.refreshToken token).Fails svc v := by
  refine fails_refused hlt hzero fun claims' id' hclaims' _ _ hid' => ⟨parsed, hparsed, fun _ => ?_⟩
  cases hclaims.symm.trans hclaims'
  cases hid.symm.trans hid'
  exact hwhy

theorem refreshToken_meets (token : String) :
    (AuthOp.refreshToken token).MeetsBy svc .pair {} (svc.refreshToken token) := by
  have hlt : (0 : Nat) < 2 := by decide
  refine meets_bind <| meets_parseAndValidateToken (.inl hlt) (fun claims parsed hclaims hparsed => ?_)
    (fun hnone => ?_) (fun claims parsed hclaims hbad => ?_)
  · refine meets_unless (fun htype => ?_) fun htype => meets_unless (fun hjti => ?_) fun hjti => ?_
    · refine fails_refused hlt rfl fun claims' _ hclaims' htype' => ?_
      cases hclaims.symm.trans hclaims'
      exact absurd htype' htype
    · refine fails_refused hlt rfl fun claims' _ hclaims' _ hjti' => ?_
      cases hclaims.symm.trans hclaims'
      exact absurd hjti hjti'
    refine meets_bind <| meets_uidOf (fun id hid => ?_) (fun err herr => ?_)
    swap
    · refine fails_refused hlt rfl fun claims' id' hclaims' _ _ hid' => ?_
      cases hclaims.symm.trans hclaims'
      cases herr.symm.trans hid'
    refine meets_bind <| meets_getUserByID rfl (fun user huser => ?_)
      (fails_stored hlt rfl hclaims hid rfl (.inl rfl)) (fails_failed hlt rfl)
    subst huser
    have htoken : TokenOf svc token claims user := ⟨hclaims, not_not.mp htype, hjti, hid⟩
    refine meets_unless (fun hversion => ?_) fun hversion => meets_bind <| meets_now (.inl hlt) fun checked => ?_
    · exact fails_stored hlt rfl hclaims hid rfl (.inr ⟨user, rfl, rfl, .inl hversion⟩)
    split
    · rename_i err hexchange
      exact fails_stored hlt rfl hclaims hid rfl
        (.inr ⟨user, rfl, rfl, .inr (.inr ⟨checked, [], err, rfl, hexchange⟩)⟩)
    · rename_i sessions hexchange
      refine meets_bind <| meets_now (.inl hlt) fun t => meets_bind <| meets_withMessage <|
        meets_updateUser (.inl hlt) (fun t' hzero => ?_) (fun t' hzero => ?_) (fun hzero => ?_) (fun t' => ?_)
      · refine ⟨hlt, ⟨user, by simp [AuthView.tick], rfl, rfl⟩, user, rfl, .inl ⟨rfl, claims, htoken, not_not.mp hversion, rfl, rfl, rfl, ?_⟩⟩
        exact ⟨parsed, checked, [t, t'], rfl, hparsed, hexchange⟩
      · have hlt' : (1 : Nat) < 2 := by decide
        refine meets_issueTokenPair rfl hlt' (fun _ _ => id) ?_ ?_ ?_ ?_
        · intro clock new after hclock hissues
          exact .inr ⟨rfl, ⟨claims, ⟨hclaims, htoken.tokenType, htoken.jti, hid⟩, not_not.mp hversion⟩, new, rfl, hissues⟩
        · intro clock pair new after hclock hissues hid'
          refine ⟨rfl, rfl, user, _, after, claims, new, rfl, rfl, ⟨htoken, not_not.mp hversion, rfl, rfl, rfl, ?_⟩, hissues, hid'⟩
          obtain ⟨rest, hrest⟩ := hclock
          exact ⟨parsed, checked, [t, t'] ++ rest, hrest.symm, hparsed, hexchange⟩
        · intro hid'
          rw [hzero] at hid'
          cases hid'
        · exact fun v' hw hf => fails_failed (hw ▸ hlt') hf
      · exact fails_stored hlt rfl hclaims hid rfl (.inr ⟨user, rfl, rfl, .inr (.inl hzero)⟩)
      · exact fails_failed hlt rfl
  · refine fails_refused hlt rfl fun claims' _ hclaims' => ?_
    cases hnone.symm.trans hclaims'
  · refine fails_refused hlt rfl fun claims' _ hclaims' _ _ _ => ⟨parsed, rfl, fun hvalid => ?_⟩
    cases hclaims.symm.trans hclaims'
    exact absurd hvalid hbad

/-- **What every operation does.** -/
theorem program_along (svc : AuthService) (op : AuthOp) :
    (op.program svc).Along (Lawful svc) AuthView.next (op.Calls svc)
      (Prog.Ends (op.Done svc) fun v _ => op.Fails svc v) {} := by
  cases op with
  | login username password => exact meets_bind (login_meets username password)
  | refreshToken token => exact meets_bind (refreshToken_meets token)
  | logout token => exact meets_bind (logout_meets token)
  | logoutAll userClaims => exact meets_bind (logoutAll_meets userClaims)
  | changePassword userClaims oldPassword newPassword =>
    exact meets_bind (changePassword_meets userClaims oldPassword newPassword)
  | resetPassword operator id newPassword => exact meets_bind (resetPassword_meets operator id newPassword)
  | updateUserPermissions operator id opt => exact meets_bind (updateUserPermissions_meets operator id opt)
  | verifyJWTToken token permissionKey => exact meets_bind (verifyJWTToken_meets token permissionKey)

end

end Gthulhu.Manager
