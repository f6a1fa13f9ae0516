/-
The status of an account when its tokens are used. `Login` looks at the stored
status; `RefreshToken` and `VerifyJWTToken` do not, they go by what the token
says. So the status is enforced as long as it is the one the token was issued
at, or active (**`status_enforced`**), and no longer
(**`status_notEnforced`**).
-/
import Gthulhu.Manager.AuthSerialFacts
import Gthulhu.Manager.SessionFacts

namespace Gthulhu.Manager

open Lib AuthService

namespace Directory

def status (d : Directory) (u : ObjectID) : Option UserStatus :=
  (d.users.find? fun user => user.id = u).map fun user => user.status

theorem status_of_mem {d : Directory} {user} (h : user ∈ d.users) : d.status user.id = some user.status := by
  rw [status, find_of_mem h]
  rfl

end Directory

/-- What is asked of a call that accepts a token of user `u`, by the status that
is stored at the time. -/
structure StatusEnforced (svc : AuthService) (entry : AuthEntry) : Prop where
  verified : ∀ token permissionKey claims policy u, entry.op = .verifyJWTToken token permissionKey →
    entry.result = .ok (.verified claims policy) → svc.tokenUser token = some u →
    entry.before.status u ≠ some .inactive ∧
      (entry.before.status u = some .waitChangePassword → permissionKey = changeOwnPassword)
  refreshed : ∀ token pair u, entry.op = .refreshToken token → entry.result = .ok (.pair pair) →
    svc.tokenUser token = some u → entry.before.status u ≠ some .inactive

/-- The call returned the token. -/
def gave (token : String) (entry : AuthEntry) : Bool :=
  match entry.result with
  | .ok (.pair pair) => token = pair.accessToken ∨ token = pair.refreshToken
  | _ => false

/-- A token that is used was issued in this run, and the stored status of its user
is still the one it was issued at, or is active. -/
def statusKept (svc : AuthService) (s : AuthSerial) (e : AuthOp × (Nat → AuthChoice)) : Bool :=
  match e.1 with
  | .verifyJWTToken token _ | .refreshToken token =>
    match svc.tokenUser token with
    | some u => s.log.any fun entry =>
      gave token entry && (s.shared.status u = entry.before.status u || s.shared.status u = some .active)
    | none => true
  | _ => true

section

variable {svc : AuthService} {s s' : AuthSerial} {token : String} {u : ObjectID}

theorem gave_iff {entry} : gave token entry = true ↔
    ∃ pair, entry.result = .ok (.pair pair) ∧ (token = pair.accessToken ∨ token = pair.refreshToken) := by
  unfold gave
  split
  · rename_i pair hresult
    simp [hresult]
  · rename_i hne
    constructor
    · intro h
      cases h
    · intro ⟨pair, hresult, _⟩
      exact absurd hresult (hne pair)

theorem statusKept_token {op env}
    (hop : op = .refreshToken token ∨ ∃ permissionKey, op = .verifyJWTToken token permissionKey)
    (h : statusKept svc s (op, env) = true) (hu : svc.tokenUser token = some u) :
    ∃ entry ∈ s.log, gave token entry = true ∧
      (s.shared.status u = entry.before.status u ∨ s.shared.status u = some .active) := by
  rcases hop with rfl | ⟨permissionKey, rfl⟩ <;> simpa [statusKept, hu] using h

/-- Tokens are issued to active users and to those who have to change their
password, and say which. -/
structure StatusInv (svc : AuthService) (s : AuthSerial) : Prop where
  enforced : ∀ entry ∈ s.log, StatusEnforced svc entry
  issued : ∀ entry ∈ s.log, ∀ token u claims, gave token entry = true → svc.tokenUser token = some u →
    svc.jwt.claims token = some claims → entry.before.status u ≠ some .inactive ∧
      (entry.before.status u = some .waitChangePassword → claims.needChangePassword = true)

/-- What the issue of a pair says of its tokens. -/
theorem IssuesPair.status {clock pair claims claims'} {d : Directory} {read before after}
    (h : IssuesPair svc clock pair claims before after) (hmem : read ∈ d.users) (hid : before.id = read.id)
    (hstatus : before.status = read.status) (hactive : read.status ≠ .inactive)
    (htoken : token = pair.accessToken ∨ token = pair.refreshToken) (hu : svc.tokenUser token = some u)
    (hclaims : svc.jwt.claims token = some claims') :
    d.status u ≠ some .inactive ∧ (d.status u = some .waitChangePassword → claims'.needChangePassword = true) := by
  obtain ⟨claims1, hclaims1, huid, _, hneed⟩ := h.token_claims htoken
  cases hclaims.symm.trans hclaims1
  have hread : read.id = u := hid ▸ Option.some.inj ((tokenUser_eq hclaims huid).symm.trans hu)
  subst hread
  rw [Directory.status_of_mem hmem, hneed, hstatus]
  exact ⟨fun h => hactive (Option.some.inj h), fun h => by simpa using h⟩

/-- The stored status of the user a used token is of. -/
theorem StatusInv.used {op env} (h : StatusInv svc s)
    (hop : op = .refreshToken token ∨ ∃ permissionKey, op = .verifyJWTToken token permissionKey)
    (hkept : statusKept svc s (op, env) = true) (hu : svc.tokenUser token = some u) {claims}
    (hclaims : svc.jwt.claims token = some claims) :
    s.shared.status u ≠ some .inactive ∧
      (s.shared.status u = some .waitChangePassword → claims.needChangePassword = true) := by
  obtain ⟨entry, hentry, hgave, hsame | hactive⟩ := statusKept_token hop hkept hu
  · rw [hsame]
    exact h.issued entry hentry token u claims hgave hu hclaims
  · rw [hactive]
    refine ⟨by decide, fun hwait => ?_⟩
    cases hwait

/-- A call that returns no pair and accepts no token. -/
theorem StatusEnforced.of_ne {x} (hpair : ∀ pair, x.result ≠ .ok (.pair pair))
    (hverified : ∀ claims policy, x.result ≠ .ok (.verified claims policy)) : StatusEnforced svc x :=
  ⟨fun _ _ claims policy _ _ hresult _ => absurd hresult (hverified claims policy),
    fun _ pair _ _ hresult _ => absurd hresult (hpair pair)⟩

/-- What a call adds to the log. -/
theorem StatusInv.call {op env x} (h : StatusInv svc s) (hkept : statusKept svc s (op, env) = true)
    (hbefore : x.before = s.shared) (hop : x.op = op) {result} (hresult : x.result = .ok result)
    (hfirst : ∀ doc, (view x).docs.getLast? = some doc → doc ∈ s.shared.users)
    (hreturns : op.Returns svc (view x) result) : StatusEnforced svc x ∧
      ∀ token u claims, gave token x = true → svc.tokenUser token = some u → svc.jwt.claims token = some claims →
        x.before.status u ≠ some .inactive ∧
          (x.before.status u = some .waitChangePassword → claims.needChangePassword = true) := by
  rw [hbefore]
  cases result with
  | done =>
    exact ⟨.of_ne (by simp [hresult]) (by simp [hresult]), fun _ _ _ hgave => by simp [gave, hresult] at hgave⟩
  | pair pair =>
    cases op with
    | login username password =>
      obtain ⟨before, after, claims, hdocs, _, hactive, hpair, _⟩ := hreturns
      refine ⟨⟨fun _ _ _ _ _ hop' => ?_, fun _ _ _ hop' => ?_⟩, fun token u claims' hgave hu hclaims => ?_⟩
      · cases hop.symm.trans hop'
      · cases hop.symm.trans hop'
      · obtain ⟨pair', hresult', htoken⟩ := gave_iff.mp hgave
        cases hresult.symm.trans hresult'
        exact hpair.status (hfirst before (by simp [hdocs])) rfl rfl hactive htoken hu hclaims
    | refreshToken old =>
      obtain ⟨before, between, after, oldClaims, claims, hdocs, _, hexchanges, hpair, _⟩ := hreturns
      have hmem := hfirst before (by simp [hdocs])
      have hold := hexchanges.tokenOf
      have hactive := (h.used (.inl rfl) hkept (tokenUser_eq hold.claims_eq hold.uid) hold.claims_eq).1
      refine ⟨⟨fun _ _ _ _ _ hop' => ?_, fun token pair' u hop' _ hu => ?_⟩, fun token u claims' hgave hu hclaims => ?_⟩
      · cases hop.symm.trans hop'
      · cases hop.symm.trans hop'
        cases (tokenUser_eq hold.claims_eq hold.uid).symm.trans hu
        rw [hbefore]
        exact hactive
      · obtain ⟨pair', hresult', htoken⟩ := gave_iff.mp hgave
        cases hresult.symm.trans hresult'
        rw [Directory.status_of_mem hmem] at hactive
        exact hpair.status hmem hexchanges.id hexchanges.status (fun he => hactive (congrArg some he)) htoken hu hclaims
    | _ => exact hreturns.elim
  | verified claims policy =>
    cases op with
    | verifyJWTToken token permissionKey =>
      obtain ⟨user, hdocs, hclaims, _, hkey, huid, _⟩ := hreturns
      have hused := h.used (.inr ⟨permissionKey, rfl⟩) hkept (tokenUser_eq hclaims huid) hclaims
      refine ⟨⟨fun token' key' claims' policy' u hop' _ hu => ?_, fun _ _ _ hop' => ?_⟩, fun _ _ _ hgave => ?_⟩
      · cases hop.symm.trans hop'
        cases (tokenUser_eq hclaims huid).symm.trans hu
        rw [hbefore]
        -- The token says that the password has to be changed.
        refine ⟨hused.1, fun hwait => hkey.resolve_right fun hneed => ?_⟩
        rw [hused.2 hwait] at hneed
        cases hneed
      · cases hop.symm.trans hop'
      · simp [gave, hresult] at hgave
    | _ => exact hreturns.elim

theorem StatusInv.step {e} (h : StatusInv svc s) (hkept : statusKept svc s e = true)
    (hs : (authSerial svc).step s e = some s') : StatusInv svc s' := by
  obtain ⟨op, env⟩ := e
  obtain ⟨x, hlog, hbefore, hop, hcases⟩ := call_cases hs
  have hnew : StatusEnforced svc x ∧ ∀ token u claims, gave token x = true → svc.tokenUser token = some u →
      svc.jwt.claims token = some claims → x.before.status u ≠ some .inactive ∧
        (x.before.status u = some .waitChangePassword → claims.needChangePassword = true) := by
    rcases hcases with ⟨err, hresult, _⟩ | ⟨result, hresult, hheld, _, hreturns⟩
    · exact ⟨.of_ne (by simp [hresult]) (by simp [hresult]), fun _ _ _ hgave => by simp [gave, hresult] at hgave⟩
    · exact h.call hkept hbefore hop hresult hheld.first hreturns
  refine ⟨fun entry hentry => ?_, fun entry hentry => ?_⟩ <;>
    rw [hlog, List.mem_append, List.mem_singleton] at hentry
  · rcases hentry with hentry | rfl
    · exact h.enforced entry hentry
    · exact hnew.1
  · rcases hentry with hentry | rfl
    · exact h.issued entry hentry
    · exact hnew.2

end

/-- **The status is enforced** in every run in which the status of a user is, at each
use of a token, the one the token was issued at, or active. -/
theorem status_enforced (svc : AuthService) (d : Directory) (es : List (AuthOp × (Nat → AuthChoice))) (s : AuthSerial)
    (he : (authSerial svc).exec { shared := d } es = some s)
    (hkept : (authSerial svc).Guarded (fun s e => statusKept svc s e = true) { shared := d } es) :
    ∀ entry ∈ s.log, StatusEnforced svc entry := by
  have hinv : StatusInv svc s := by
    refine Machine.invariantWhere (fun h hg hs => h.step hg hs) he hkept ⟨fun entry hentry => ?_, fun entry hentry => ?_⟩
    · cases hentry
    · cases hentry
  exact hinv.enforced

/-- `Login`, and then calls with the tokens it returned. -/
def useTokens : List (AuthOp × (Nat → AuthChoice)) :=
  [(.login "user" "secret", fun _ => { xid := .a }), (.verifyJWTToken "#" "", fun _ => {}),
    (.refreshToken "##", fun _ => { xid := .b })]

theorem status_enforced_useTokens :
    ∃ s, (authSerial oneUser.service).exec { shared := oneUser.directory } useTokens = some s ∧
      s.log.map Entry.result = [.ok (.pair ⟨"#", "##"⟩),
        .ok (.verified (userClaims oneUser .access (60 * second) 0 0 0 "") {}), .ok (.pair ⟨"#", "###"⟩)] ∧
      ∀ entry ∈ s.log, StatusEnforced oneUser.service entry := by
  refine Machine.exists_exec_of (fun s => s.log.map Entry.result = [.ok (.pair ⟨"#", "##"⟩),
    .ok (.verified (userClaims oneUser .access (60 * second) 0 0 0 "") {}), .ok (.pair ⟨"#", "###"⟩)])
    (by decide +kernel) fun s he hresults => ?_
  exact ⟨hresults, status_enforced oneUser.service oneUser.directory useTokens s he (by decide +kernel)⟩

/-- `UpdateUserPermissions` with a status. -/
def setStatus (status : UserStatus) : AuthOp × (Nat → AuthChoice) :=
  (.updateUserPermissions ⟨oneUser.id.hex⟩ oneUser.id.hex { status := some status }, fun _ => {})

/-- The status changes between the `Login` and the use of its tokens. -/
def useTokensAfter (status : UserStatus) : List (AuthOp × (Nat → AuthChoice)) :=
  useTokens.take 1 ++ [setStatus status] ++ useTokens.drop 1

/-- **Not enforced**: tokens of an inactive user are accepted by both calls, and an
access token for more than the change of the password when that is due. -/
theorem status_notEnforced :
    (∃ s, (authSerial oneUser.service).exec { shared := oneUser.directory } (useTokensAfter .inactive) = some s ∧
      s.log.map (fun entry => (entry.before.status oneUser.id, entry.result)) =
        [(some .active, .ok (.pair ⟨"#", "##"⟩)), (some .active, .ok .done),
          (some .inactive, .ok (.verified (userClaims oneUser .access (60 * second) 0 0 0 "") {})),
          (some .inactive, .ok (.pair ⟨"#", "###"⟩))]) ∧
    ∃ s, (authSerial oneUser.service).exec { shared := oneUser.directory }
        ((useTokensAfter .waitChangePassword).take 3) = some s ∧
      s.log.map (fun entry => (entry.before.status oneUser.id, entry.result)) =
        [(some .active, .ok (.pair ⟨"#", "##"⟩)), (some .active, .ok .done),
          (some .waitChangePassword, .ok (.verified (userClaims oneUser .access (60 * second) 0 0 0 "") {}))] :=
  ⟨Machine.exists_exec (by decide +kernel), Machine.exists_exec (by decide +kernel)⟩

end Gthulhu.Manager
