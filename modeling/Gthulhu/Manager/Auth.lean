/-
Users and their tokens (`api/manager/service/auth_svc.go`, the users and roles
of `api/manager/repository/repo_rbac.go`).

A user document holds the token version and the refresh sessions. Every
operation reads the whole document, changes its own copy, and replaces the
stored one with it; the read and the `ReplaceOne` are two calls to the
database. `AuthCall` is what the operations call: the two collections, the
clock, new JTIs and the signing of a token. `Directory.answer` gives the calls
their meaning, with the environment's choices.

Time is in nanoseconds since the epoch; a date in a token is in seconds. The
libraries that sign and hash are parameters, `AuthService`.
-/
import Gthulhu.Manager.World
import Gthulhu.Lib.Pool

namespace Gthulhu.Manager

open Lib

/-! ## Records -/

/-- `UserStatus`, an `int8`; a request can set any. -/
structure UserStatus where
  value : Int8
  deriving DecidableEq

def UserStatus.active : UserStatus := ⟨1⟩
def UserStatus.inactive : UserStatus := ⟨2⟩
def UserStatus.waitChangePassword : UserStatus := ⟨3⟩

/-- Nanoseconds since the epoch. -/
abbrev Time : Type := Nat

/-- `now.Unix()`. -/
def Time.unix (now : Time) : Nat := now / 1000000000

/-- `now.UnixMilli()`. -/
def Time.unixMilli (now : Time) : Int64 := Int64.ofNat (now / 1000000)

def second : Time := 1000000000

structure RefreshSession where
  jti : String
  tokenHash : String
  expiresAt : Nat
  revoked : Bool
  deriving DecidableEq

def RefreshSession.isExpired (session : RefreshSession) (now : Time) : Bool :=
  session.expiresAt > 0 && now.unix ≥ session.expiresAt

structure User extends BaseEntity where
  userName : String
  password : String
  status : UserStatus
  roles : List String := []
  tokenVersion : Int64 := 0
  refreshTokens : List RefreshSession := []
  deriving DecidableEq

structure RolePolicy where
  permissionKey : String := ""
  self : Bool := false
  k8sNamespace : String := ""
  policyNamespace : String := ""
  deriving DecidableEq

structure Role where
  id : ObjectID
  name : String
  policies : List RolePolicy := []
  deriving DecidableEq

def changeOwnPassword : String := "user.password.change"

inductive TokenType where
  | access
  | refresh
  deriving DecidableEq

/-- All of `Claims`, with the registered ones; dates in seconds. -/
structure TokenClaims extends Claims where
  needChangePassword : Bool
  tokenVersion : Int64
  tokenType : TokenType
  expiresAt : Nat
  issuedAt : Nat
  notBefore : Nat
  issuer : String
  subject : String
  id : String
  deriving DecidableEq

structure TokenPair where
  accessToken : String
  refreshToken : String
  deriving DecidableEq

structure QueryUserOptions where
  ids : List ObjectID := []
  userNames : List String := []
  deriving DecidableEq

structure QueryRoleOptions where
  ids : List ObjectID := []
  names : List String := []
  deriving DecidableEq

structure UpdateUserPermissionsOptions where
  roles : Option (List String) := none
  status : Option UserStatus := none
  deriving DecidableEq

/-! ## Libraries -/

/-- Tokens signed with the service's RSA key: `claims` reads a token whose
signature is right. -/
structure Jwt where
  sign : TokenClaims → String
  claims : String → Option TokenClaims
  claims_sign : ∀ c, claims (sign c) = some c

/-- The functions of `pkg/util/encrypt.go`. -/
structure Passwords where
  isArgon2Hash : String → Bool
  createArgon2Hash : (salt : List UInt8) → (password : String) → String
  comparePasswordAndHash : (password encodedHash : String) → Except Error Bool

structure AuthService where
  jwt : Jwt
  passwords : Passwords
  /-- `crypto/sha256`. -/
  sum256 : List UInt8 → List UInt8 := sha256

def AuthService.hashToken (svc : AuthService) (token : String) : String := hexEncode (svc.sum256 (Util.utf8 token))

/-- `EncryptedPassword.MarshalBSONValue`: hashed where it is stored, unless it
is a hash already. -/
def Passwords.marshal (passwords : Passwords) (salt : List UInt8) (value : String) : String :=
  if passwords.isArgon2Hash value then value else passwords.createArgon2Hash salt value

/-! ## Calls -/

inductive AuthCall where
  | findUsers (opt : QueryUserOptions)
  /-- `ReplaceOne` of the document with the user's `_id`. -/
  | replaceUser (user : User)
  | findRoles (opt : QueryRoleOptions)
  | now
  | newXid
  | signedString (claims : TokenClaims)

@[reducible] def AuthCall.Resp : AuthCall → Type
  | .findUsers _ => Except Error (List User)
  -- Whether a document was there.
  | .replaceUser _ => Except Error Bool
  | .findRoles _ => Except Error (List Role)
  | .now => Time
  | .newXid => String
  | .signedString _ => Except Error String

abbrev Auth : Type → Type := ExceptT Error (Prog AuthCall AuthCall.Resp)

namespace Auth

def findUsers (opt : QueryUserOptions) : Auth (List User) := ExceptT.mk (Prog.perform (AuthCall.findUsers opt))
def replaceUser (user : User) : Auth Bool := ExceptT.mk (Prog.perform (AuthCall.replaceUser user))
def findRoles (opt : QueryRoleOptions) : Auth (List Role) := ExceptT.mk (Prog.perform (AuthCall.findRoles opt))
def now : Auth Time := ExceptT.lift (Prog.perform AuthCall.now)
def newXid : Auth String := ExceptT.lift (Prog.perform AuthCall.newXid)
def signedString (claims : TokenClaims) : Auth String := ExceptT.mk (Prog.perform (AuthCall.signedString claims))

/-- `errors.WithMessage`. -/
def withMessage {α : Type} (message : String) (x : Auth α) : Auth α := Prog.mapError (.wrap message) x

/-! ## Repository -/

def queryUsers (opt : QueryUserOptions) : Auth (List User) := withMessage "find users, err" (findUsers opt)

def queryRoles (opt : QueryRoleOptions) : Auth (List Role) := withMessage "find roles, err" (findRoles opt)

/-- `UpdateUser`. It sets the update time of the caller's copy. -/
def updateUser (user : User) : Auth User := do
  if user.id.isZero then throw (.text "user id is required")
  let user := { user with updatedTime := (← now).unixMilli }
  if ← withMessage "update user, err" (replaceUser user) then pure user
  else throw (.notFound user.id.hex)

end Auth

/-! ## Service -/

namespace AuthService

open Auth

/-- The first user found. -/
def getUser (opt : QueryUserOptions) : Auth User := do
  match ← queryUsers opt with
  | [] => throw (.status 401 "user not found")
  | user :: _ => pure user

def getUserByUserName (username : String) : Auth User := getUser { userNames := [username] }

def getUserByID (id : ObjectID) : Auth User := getUser { ids := [id] }

/-- `GetBsonObjectUID`, with the message its callers give an error. -/
def uidOf (message : String) (claims : Claims) : Auth ObjectID :=
  match claims.getBsonObjectUID with
  | .error err => throw (.wrap (message ++ claims.uid) err)
  | .ok id => pure id

/-- The times a token may be used at, as the library checks them. -/
def validAt (claims : TokenClaims) (now : Time) : Bool :=
  now < claims.expiresAt * second && claims.notBefore * second ≤ now

def pruneRefreshSessions (sessions : List RefreshSession) (now : Time) : List RefreshSession :=
  sessions.filter fun session => !(session.revoked || session.isExpired now)

/-- The loop of `RefreshToken` over the sessions. -/
def exchange (jti tokenHash : String) (now : Time) : List RefreshSession → Except Error (List RefreshSession)
  | [] => .error (.status 401 "refresh token not found")
  | session :: rest =>
    if session.jti ≠ jti then (exchange jti tokenHash now rest).map (session :: ·)
    else if session.revoked || session.isExpired now then .error (.status 401 "refresh token revoked")
    else if session.tokenHash ≠ tokenHash then .error (.status 401 "refresh token revoked")
    else .ok ({ session with revoked := true } :: rest)

/-- The loop of `Logout` over the sessions. -/
def revoke (jti tokenHash : String) : List RefreshSession → Except Error (List RefreshSession)
  | [] => .error (.status 401 "refresh token not found")
  | session :: rest =>
    if session.jti = jti ∧ session.tokenHash = tokenHash then .ok ({ session with revoked := true } :: rest)
    else (revoke jti tokenHash rest).map (session :: ·)

/-- The claims of both kinds of token, by the three readings of the clock. -/
def userClaims (user : User) (tokenType : TokenType) (ttl expiresAt issuedAt notBefore : Time) (id : String) :
    TokenClaims where
  uid := user.id.hex
  needChangePassword := user.status = .waitChangePassword
  tokenVersion := user.tokenVersion
  tokenType := tokenType
  expiresAt := (expiresAt + ttl).unix
  issuedAt := issuedAt.unix
  notBefore := notBefore.unix
  issuer := "bss-api-server"
  subject := user.id.hex
  id := id

def genAccessToken (user : User) : Auth String := do
  let expiresAt ← now
  let issuedAt ← now
  let notBefore ← now
  signedString (userClaims user .access (60 * second) expiresAt issuedAt notBefore "")

def genRefreshToken (user : User) : Auth (String × TokenClaims) := do
  let expiresAt ← now
  let issuedAt ← now
  let notBefore ← now
  let claims := userClaims user .refresh (24 * 60 * 60 * second) expiresAt issuedAt notBefore (← newXid)
  let token ← signedString claims
  pure (token, claims)

variable (svc : AuthService)

def issueTokenPair (user : User) : Auth TokenPair := do
  let accessToken ← withMessage "generate access token failed" (genAccessToken user)
  let (refreshToken, claims) ← withMessage "generate refresh token failed" (genRefreshToken user)
  let now ← now
  let session : RefreshSession := ⟨claims.id, svc.hashToken refreshToken, claims.expiresAt, false⟩
  let user := { user with
    refreshTokens := pruneRefreshSessions user.refreshTokens now ++ [session], updatedTime := now.unixMilli }
  let _ ← withMessage "persist refresh session failed" (updateUser user)
  pure ⟨accessToken, refreshToken⟩

def parseAndValidateToken (token : String) : Auth TokenClaims := do
  match svc.jwt.claims token with
  | none => throw (.status 401 "invalid or expired token")
  | some claims =>
    if validAt claims (← now) then pure claims else throw (.status 401 "invalid or expired token")

def login (username password : String) : Auth TokenPair := do
  let user ← getUserByUserName username
  if user.status = .inactive then throw (.status 401 "user is inactive")
  match svc.passwords.comparePasswordAndHash password user.password with
  | .error err => throw (.wrap ("compare password for username " ++ username ++ " failed") err)
  | .ok false => throw (.status 401 "invalid password")
  | .ok true => issueTokenPair svc user

def refreshToken (token : String) : Auth TokenPair := do
  let claims ← parseAndValidateToken svc token
  if claims.tokenType ≠ .refresh then throw (.status 401 "invalid refresh token")
  if claims.id = "" then throw (.status 401 "invalid refresh token")
  let uid ← uidOf "invalid user ID " claims.toClaims
  let user ← getUserByID uid
  if user.tokenVersion ≠ claims.tokenVersion then throw (.status 401 "refresh token revoked")
  let checked ← now
  match exchange claims.id (svc.hashToken token) checked user.refreshTokens with
  | .error err => throw err
  | .ok sessions =>
    let user := { user with refreshTokens := sessions, updatedTime := (← now).unixMilli }
    let user ← withMessage "revoke old refresh session failed" (updateUser user)
    issueTokenPair svc user

def logout (token : String) : Auth Unit := do
  let claims ← parseAndValidateToken svc token
  if claims.tokenType ≠ .refresh ∨ claims.id = "" then throw (.status 401 "invalid refresh token")
  let uid ← uidOf "invalid user ID " claims.toClaims
  let user ← getUserByID uid
  match revoke claims.id (svc.hashToken token) user.refreshTokens with
  | .error err => throw err
  | .ok sessions =>
    let _ ← updateUser { user with refreshTokens := sessions, updatedTime := (← now).unixMilli }

def logoutAll (userClaims : Claims) : Auth Unit := do
  let uid ← uidOf "invalid user ID " userClaims
  let user ← getUserByID uid
  let _ ← updateUser { user with
    tokenVersion := user.tokenVersion + 1, refreshTokens := [], updatedTime := (← now).unixMilli }

def changePassword (userClaims : Claims) (oldPassword newPassword : String) : Auth Unit := do
  let uid ← uidOf "invalid user ID " userClaims
  let user ← getUserByID uid
  match svc.passwords.comparePasswordAndHash oldPassword user.password with
  | .error err => throw (.wrap ("compare password for uid " ++ uid.hex ++ " failed") err)
  | .ok false => throw (.status 401 "invalid password")
  | .ok true =>
    let _ ← updateUser { user with
      status := .active, password := newPassword, updatedTime := (← now).unixMilli, updaterID := uid }

/-- The user ID of a request. -/
def requestedID (id : String) : Auth ObjectID :=
  match objectIDFromHex id with
  | .error _ => throw (.status 422 "invalid user ID")
  | .ok uid => pure uid

/-- The roles a request sets, all of which must exist. -/
def checkedRoles (user : User) : Option (List String) → Auth (List String)
  | none => pure user.roles
  | some names => do
    let found ← queryRoles { names := names }
    if names.length ≠ found.length then throw (.status 400 "Some roles not found")
    pure names

def updateUserPermissions (operator : Claims) (id : String) (opt : UpdateUserPermissionsOptions) : Auth Unit := do
  let operatorID ← uidOf "invalid operator ID " operator
  let uid ← requestedID id
  let user ← getUserByID uid
  let roles ← checkedRoles user opt.roles
  let _ ← updateUser { user with
    roles := roles, status := opt.status.getD user.status, updatedTime := (← now).unixMilli, updaterID := operatorID }

def resetPassword (operator : Claims) (id newPassword : String) : Auth Unit := do
  let operatorID ← uidOf "invalid operator ID " operator
  let uid ← requestedID id
  let user ← getUserByID uid
  let _ ← updateUser { user with
    password := newPassword, status := .waitChangePassword, updatedTime := (← now).unixMilli, updaterID := operatorID }

def getRolesByNames (roleNames : List String) : Auth (List Role) :=
  if roleNames.isEmpty then pure [] else queryRoles { names := roleNames }

def verifyJWTToken (token permissionKey : String) : Auth (TokenClaims × RolePolicy) := do
  let claims ← parseAndValidateToken svc token
  if claims.tokenType ≠ .access then throw (.status 401 "invalid token type")
  if permissionKey ≠ changeOwnPassword ∧ claims.needChangePassword then throw (.status 403 "password change required")
  let uid ← uidOf "invalid user ID " claims.toClaims
  let user ← withMessage ("get user by ID " ++ uid.hex ++ " failed") (getUserByID uid)
  if user.tokenVersion ≠ claims.tokenVersion then throw (.status 401 "token revoked")
  if permissionKey = "" ∨ permissionKey = changeOwnPassword then return (claims, {})
  let roles ← withMessage "get roles by IDs failed" (getRolesByNames user.roles)
  match (roles.flatMap Role.policies).find? fun policy => policy.permissionKey = permissionKey with
  | none => throw (.status 403 "permission denied")
  | some policy => pure (claims, policy)

/-- `VerifyResourcePolicy` (`api/manager/rest/hander.go`), with what the middleware
has put in the context. -/
def verifyResourcePolicy (claims : Option Claims) (rolePolicy : Option RolePolicy) (resourceOwnerID : String) :
    Except Error Unit :=
  match claims, rolePolicy with
  | none, _ => .error (.status 401 "unauthorized")
  | some _, none => .error (.status 401 "unauthorized")
  | some claims, some rolePolicy =>
    if rolePolicy.self ∧ claims.uid ≠ resourceOwnerID then .error (.status 403 "forbidden") else .ok ()

/-- A request about a resource: the middleware (`api/manager/rest/middleware.go`),
then the check of its handler. -/
def authorize (token permissionKey resourceOwnerID : String) : Auth Unit := do
  let (claims, rolePolicy) ← verifyJWTToken svc token permissionKey
  match verifyResourcePolicy (some claims.toClaims) (some rolePolicy) resourceOwnerID with
  | .error err => throw err
  | .ok () => pure ()

end AuthService

/-! ## The database and the rest of the environment -/

/-- The two collections. No two users have one `_id`. -/
structure Directory where
  users : List User
  roles : List Role := []
  nodup : (users.map fun user => user.id).Nodup

/-- `xid.New().String()`. -/
structure Xid where
  text : String
  ne_empty : text ≠ ""

/-- The JTI where none is asked for. -/
def Xid.unused : Xid := ⟨"xid", by decide⟩

/-- What the environment decides for a call: how it ends, the order of what is
found, the clock, the next JTI and the salt of a password that is stored. -/
structure AuthChoice where
  outcome : Outcome := .ok
  order : List Nat := []
  now : Time := 0
  xid : Xid := .unused
  salt : List UInt8 := []

def QueryUserOptions.selects (opt : QueryUserOptions) (user : User) : Bool :=
  (opt.ids.isEmpty || opt.ids.contains user.id) && (opt.userNames.isEmpty || opt.userNames.contains user.userName)

def QueryRoleOptions.selects (opt : QueryRoleOptions) (role : Role) : Bool :=
  (opt.ids.isEmpty || opt.ids.contains role.id) && (opt.names.isEmpty || opt.names.contains role.name)

/-- The fields the collection's validator requires. Empty ones are left out of
a document. -/
def User.hasRequired (user : User) : Bool := user.userName ≠ "" && user.password ≠ "" && user.status.value ≠ 0

namespace Directory

theorem map_id_replace (user : User) (users : List User) :
    (users.map fun other => if other.id = user.id then user else other).map (fun user => user.id) =
      users.map fun user => user.id := by
  rw [List.map_map]
  refine List.map_congr_left fun other _ => ?_
  simp only [Function.comp_apply]
  split
  · rename_i h
    exact h.symm
  · rfl

def replace (d : Directory) (passwords : Passwords) (salt : List UInt8) (user : User) :
    Except Error Bool × Directory :=
  if !user.hasRequired then (.error (.text "Document failed validation"), d)
  else if user.id ∈ d.users.map fun user => user.id then
    let document := { user with password := passwords.marshal salt user.password }
    (.ok true, { d with
      users := d.users.map fun other => if other.id = document.id then document else other
      nodup := by rw [map_id_replace]; exact d.nodup })
  else (.ok false, d)

def answer (svc : AuthService) (choice : AuthChoice) : (call : AuthCall) → Directory → call.Resp × Directory
  | .findUsers opt, d => (choice.outcome.read (.ok (reorder choice.order (d.users.filter opt.selects))), d)
  | .replaceUser user, d => choice.outcome.write d (d.replace svc.passwords choice.salt user)
  | .findRoles opt, d => (choice.outcome.read (.ok (reorder choice.order (d.roles.filter opt.selects))), d)
  | .now, d => (choice.now, d)
  | .newXid, d => (choice.xid.text, d)
  | .signedString claims, d => (choice.outcome.read (.ok (svc.jwt.sign claims)), d)

end Directory

/-! ## Operations -/

inductive AuthOp where
  | login (username password : String)
  | refreshToken (token : String)
  | logout (token : String)
  | logoutAll (userClaims : Claims)
  | changePassword (userClaims : Claims) (oldPassword newPassword : String)
  | resetPassword (operator : Claims) (id newPassword : String)
  | updateUserPermissions (operator : Claims) (id : String) (opt : UpdateUserPermissionsOptions)
  | verifyJWTToken (token permissionKey : String)
  deriving DecidableEq

inductive AuthResult where
  | pair (pair : TokenPair)
  | done
  | verified (claims : TokenClaims) (policy : RolePolicy)
  deriving DecidableEq

namespace AuthOp

variable (svc : AuthService)

def service : AuthOp → Auth AuthResult
  | .login username password => do
    let pair ← svc.login username password
    pure (.pair pair)
  | .refreshToken token => do
    let pair ← svc.refreshToken token
    pure (.pair pair)
  | .logout token => do
    svc.logout token
    pure .done
  | .logoutAll userClaims => do
    AuthService.logoutAll userClaims
    pure .done
  | .changePassword userClaims oldPassword newPassword => do
    svc.changePassword userClaims oldPassword newPassword
    pure .done
  | .resetPassword operator id newPassword => do
    AuthService.resetPassword operator id newPassword
    pure .done
  | .updateUserPermissions operator id opt => do
    AuthService.updateUserPermissions operator id opt
    pure .done
  | .verifyJWTToken token permissionKey => do
    let (claims, policy) ← svc.verifyJWTToken token permissionKey
    pure (.verified claims policy)

def program (op : AuthOp) : Prog AuthCall AuthCall.Resp (Except Error AuthResult) := (op.service svc).run

end AuthOp

/-- Operations in progress. -/
abbrev AuthPool : Type := Pool Directory AuthOp AuthCall AuthCall.Resp (Except Error AuthResult)

abbrev AuthEvent : Type := PoolEvent AuthOp AuthChoice

/-- Any number of operations, their calls in any order. -/
def authCalls (svc : AuthService) : Machine AuthPool AuthEvent :=
  Pool.machine (AuthOp.program svc) (Directory.answer svc)

end Gthulhu.Manager
