/-
Who may do what. `VerifyJWTToken` hands on the first policy with the key that it
comes upon, and `VerifyResourcePolicy` looks at that one alone. So the order of
the roles and of their policies does not matter exactly where the policies with
the key agree on `Self`, or the caller owns the resource
(**`authorize_exact_iff`**); otherwise one more role can take a permission away
(**`authorize_byOrder`**).
-/
import Gthulhu.Manager.AuthPoolFacts

namespace Gthulhu.Manager

open Lib Auth AuthService List Prog

/-! ## What is asked of a decision -/

/-- The roles a user has. -/
def rolesOf (d : Directory) (user : User) : List Role := d.roles.filter fun role => role.name ∈ user.roles

/-- Some policy of some role has the key, and is not restricted to the caller's own
resources or this is one. -/
def Grants (roles : List Role) (permissionKey uid resourceOwnerID : String) : Prop :=
  ∃ role ∈ roles, ∃ policy ∈ role.policies, policy.permissionKey = permissionKey ∧
    (policy.self = false ∨ uid = resourceOwnerID)

/-- The policies with the key are all restricted to the caller's own resources, or
none is. -/
def Agree (roles : List Role) (permissionKey : String) : Prop :=
  ∀ role ∈ roles, ∀ role' ∈ roles, ∀ policy ∈ role.policies, ∀ policy' ∈ role'.policies,
    policy.permissionKey = permissionKey → policy'.permissionKey = permissionKey → policy.self = policy'.self

/-- A caller with a token of their own, up to its time. -/
structure Authenticated (svc : AuthService) (d : Directory) (token permissionKey : String) (claims : TokenClaims)
    (user : User) : Prop where
  claims_eq : svc.jwt.claims token = some claims
  tokenType : claims.tokenType = .access
  password : permissionKey = changeOwnPassword ∨ claims.needChangePassword = false
  uid : claims.getBsonObjectUID = .ok user.id
  mem : user ∈ d.users
  version : user.tokenVersion = claims.tokenVersion

/-- The database answers, and the token is used in its time. -/
structure Answers (claims : TokenClaims) (env : Nat → AuthChoice) : Prop where
  outcome : ∀ n, (env n).outcome = .ok
  validAt : validAt claims (env 0).now = true

/-- The decision on a request, with the environment's choices for its calls. -/
def allowed (svc : AuthService) (d : Directory) (env : Nat → AuthChoice) (token permissionKey resourceOwnerID : String) :
    Bool :=
  (result (Serial.handler (Directory.answer svc) env)
    (svc.authorize token permissionKey resourceOwnerID).run (d, 0)).1.isOk

/-! ## The decision -/

section

variable {svc : AuthService} {d : Directory} {env : Nat → AuthChoice} {token permissionKey : String}
  {claims : TokenClaims} {user : User}

theorem result_getUserByID (svc : AuthService) {n} (henv : (env n).outcome = .ok) (hmem : user ∈ d.users) :
    result (Serial.handler (Directory.answer svc) env) (getUserByID user.id).run (d, n) = (.ok user, d, n + 1) := by
  have hfilter : d.users.filter (QueryUserOptions.selects { ids := [user.id] }) = [user] := by
    rw [← filter_eq_singleton d.nodup hmem]
    refine filter_congr fun other _ => ?_
    simp [QueryUserOptions.selects]
  have hreorder : reorder (env n).order [user] = [user] := perm_singleton.mp (reorder_perm _ _)
  have hfind : result (Serial.handler (Directory.answer svc) env) (queryUsers { ids := [user.id] }).run (d, n) =
      (.ok [user], d, n + 1) := by
    refine result_mapError ?_
    show ((env n).outcome.read (.ok (reorder (env n).order (d.users.filter
      (QueryUserOptions.selects { ids := [user.id] })))), d, n + 1) = _
    rw [henv, hfilter, hreorder]
    rfl
  exact result_ok_bind hfind

theorem result_getRolesByNames (svc : AuthService) (d : Directory) (user : User) (henv : (env 2).outcome = .ok) :
    ∃ n, result (Serial.handler (Directory.answer svc) env) (getRolesByNames user.roles).run (d, 2) =
      (.ok (reorder (env 2).order (rolesOf d user)), d, n) := by
  unfold getRolesByNames
  cases hroles : user.roles with
  | nil =>
    have hnone : rolesOf d user = [] := by simp [rolesOf, hroles]
    rw [hnone]
    exact ⟨2, by cases (env 2).order <;> rfl⟩
  | cons name names =>
    refine ⟨3, result_mapError ?_⟩
    show ((env 2).outcome.read (.ok (reorder (env 2).order (d.roles.filter
      (QueryRoleOptions.selects { names := name :: names })))), d, 3) = _
    have hfilter : d.roles.filter (QueryRoleOptions.selects { names := name :: names }) = rolesOf d user := by
      rw [rolesOf, hroles]
      refine filter_congr fun role _ => ?_
      simp [QueryRoleOptions.selects]
    rw [henv, hfilter]
    rfl

/-- The policy that is handed on. -/
def firstPolicy (roles : List Role) (permissionKey : String) : Option RolePolicy :=
  (roles.flatMap Role.policies).find? fun policy => policy.permissionKey = permissionKey

/-- The keys that no role is looked up for. -/
def Unchecked (permissionKey : String) : Prop := permissionKey = "" ∨ permissionKey = changeOwnPassword

instance decidableUnchecked (permissionKey : String) : Decidable (Unchecked permissionKey) :=
  inferInstanceAs (Decidable (_ ∨ _))

/-- What the middleware is told of a caller with a token of their own. -/
def verdict (claims : TokenClaims) (roles : List Role) (permissionKey : String) :
    Except Error (TokenClaims × RolePolicy) :=
  if Unchecked permissionKey then .ok (claims, {})
  else match firstPolicy roles permissionKey with
    | none => .error (.status 403 "permission denied")
    | some policy => .ok (claims, policy)

theorem verifyResourcePolicy_isOk {caller policy owner} :
    (verifyResourcePolicy (some caller) (some policy) owner).isOk = true ↔ policy.self = false ∨ caller.uid = owner := by
  simp only [verifyResourcePolicy]
  split
  · rename_i h
    simp [Except.isOk, Except.toBool, h.1, h.2]
  · rename_i h
    cases hself : policy.self with
    | false => simp [Except.isOk, Except.toBool]
    | true => simpa [Except.isOk, Except.toBool, hself] using h

theorem result_verifyJWTToken (h : Authenticated svc d token permissionKey claims user) (henv : Answers claims env) :
    ∃ n, result (Serial.handler (Directory.answer svc) env) (svc.verifyJWTToken token permissionKey).run (d, 0) =
      (verdict claims (reorder (env 2).order (rolesOf d user)) permissionKey, d, n) := by
  have hparse : result (Serial.handler (Directory.answer svc) env) (svc.parseAndValidateToken token).run (d, 0) =
      (.ok claims, d, 1) := by
    unfold parseAndValidateToken
    rw [h.claims_eq]
    refine (result_ok_bind rfl).trans ?_
    show result _ (if validAt claims (env 0).now = true then pure claims else _ : Auth TokenClaims).run _ = _
    rw [if_pos henv.validAt]
    rfl
  have hpassword : ¬(permissionKey ≠ changeOwnPassword ∧ claims.needChangePassword = true) := by
    intro hneed
    rcases h.password with hkey | hfalse
    · exact hneed.1 hkey
    · rw [hfalse] at hneed
      cases hneed.2
  have huid : uidOf "invalid user ID " claims.toClaims = pure user.id := by
    unfold uidOf
    rw [h.uid]
  have huser : result (Serial.handler (Directory.answer svc) env)
      (withMessage ("get user by ID " ++ user.id.hex ++ " failed") (getUserByID user.id)).run (d, 1) = (.ok user, d, 2) :=
    result_mapError (result_getUserByID svc (henv.outcome 1) h.mem)
  obtain ⟨n, hroles⟩ : ∃ n, result (Serial.handler (Directory.answer svc) env)
      (withMessage "get roles by IDs failed" (getRolesByNames user.roles)).run (d, 2) =
        (.ok (reorder (env 2).order (rolesOf d user)), d, n) := by
    obtain ⟨n, hroles⟩ := result_getRolesByNames svc d user (henv.outcome 2)
    exact ⟨n, result_mapError hroles⟩
  unfold verifyJWTToken
  rw [result_ok_bind hparse, if_neg (not_not.mpr h.tokenType), if_neg hpassword, huid, result_ok_bind rfl,
    result_ok_bind huser, if_neg (not_not.mpr h.version)]
  unfold verdict
  by_cases hkey : permissionKey = "" ∨ permissionKey = changeOwnPassword
  · rw [if_pos hkey]
    exact ⟨2, by rw [if_pos (show Unchecked permissionKey from hkey)]; rfl⟩
  · refine ⟨n, ?_⟩
    rw [if_neg hkey, if_neg (show ¬Unchecked permissionKey from hkey), result_ok_bind hroles]
    unfold firstPolicy
    cases (List.flatMap Role.policies (reorder (env 2).order (rolesOf d user))).find?
      fun policy => decide (policy.permissionKey = permissionKey) <;> rfl

/-- **The decision** on a caller with a token of their own: the first policy with the
key is the one that counts. -/
theorem allowed_iff (h : Authenticated svc d token permissionKey claims user) (henv : Answers claims env)
    (owner : String) : allowed svc d env token permissionKey owner = true ↔
      Unchecked permissionKey ∨ ∃ policy, firstPolicy (reorder (env 2).order (rolesOf d user)) permissionKey = some policy ∧
        (policy.self = false ∨ claims.uid = owner) := by
  obtain ⟨n, hverify⟩ := result_verifyJWTToken h henv
  have hok : ∀ policy, verdict claims (reorder (env 2).order (rolesOf d user)) permissionKey = .ok (claims, policy) →
      (allowed svc d env token permissionKey owner = true ↔ policy.self = false ∨ claims.uid = owner) := by
    intro policy hverdict
    rw [hverdict] at hverify
    unfold allowed authorize
    rw [result_ok_bind hverify, ← verifyResourcePolicy_isOk]
    simp only []
    cases verifyResourcePolicy (some claims.toClaims) (some policy) owner <;> rfl
  by_cases hkey : Unchecked permissionKey
  · rw [hok {} (if_pos hkey)]
    simp [hkey]
  · cases hfirst : firstPolicy (reorder (env 2).order (rolesOf d user)) permissionKey with
    | none =>
      have herror : verdict claims (reorder (env 2).order (rolesOf d user)) permissionKey =
          .error (.status 403 "permission denied") := by
        rw [verdict, if_neg hkey, hfirst]
      rw [herror] at hverify
      unfold allowed authorize
      rw [result_error_bind hverify]
      simp [hkey, Except.isOk, Except.toBool]
    | some policy =>
      rw [hok policy (by rw [verdict, if_neg hkey, hfirst])]
      simp [hkey]

end

/-! ## Order -/

/-- The same database, but for the order of the policies inside a role. -/
structure Rearranged (d d' : Directory) : Prop where
  users : d'.users = d.users
  roles : List.Forall₂ (fun role role' => role'.id = role.id ∧ role'.name = role.name ∧
    role.policies.Perm role'.policies) d.roles d'.roles

section

variable {svc : AuthService} {d d' : Directory} {env : Nat → AuthChoice} {token permissionKey owner : String}
  {claims : TokenClaims} {user : User} {policy : RolePolicy}

/-- A policy the user has by some role. -/
def Has (roles : List Role) (policy : RolePolicy) : Prop := ∃ role ∈ roles, policy ∈ role.policies

theorem Rearranged.has_iff (h : Rearranged d d') : Has (rolesOf d' user) policy ↔ Has (rolesOf d user) policy := by
  have hroles : ∀ {roles roles' : List Role}, List.Forall₂ (fun role role' => role'.id = role.id ∧
      role'.name = role.name ∧ role.policies.Perm role'.policies) roles roles' →
      (Has (roles'.filter fun role => role.name ∈ user.roles) policy ↔
        Has (roles.filter fun role => role.name ∈ user.roles) policy) := by
    intro roles roles' hroles
    induction hroles with
    | nil => exact Iff.rfl
    | @cons role role' roles roles' hrole _ ih =>
      obtain ⟨_, hname, hperm⟩ := hrole
      simp only [Has, filter_cons, hname] at ih ⊢
      split
      · simp only [exists_mem_cons_iff, ih, hperm.mem_iff]
      · exact ih
  exact hroles h.roles

theorem Rearranged.authenticated (h : Authenticated svc d token permissionKey claims user) (hd : Rearranged d d') :
    Authenticated svc d' token permissionKey claims user :=
  ⟨h.claims_eq, h.tokenType, h.password, h.uid, hd.users ▸ h.mem, h.version⟩

theorem mem_reorder_policies {order roles} :
    policy ∈ (reorder order roles).flatMap Role.policies ↔ Has roles policy := by
  simp [Has]

theorem grants_iff {roles} : Grants roles permissionKey claims.uid owner ↔
    ∃ policy, Has roles policy ∧ policy.permissionKey = permissionKey ∧ (policy.self = false ∨ claims.uid = owner) := by
  constructor
  · intro ⟨role, hrole, policy, hpolicy, hgrants⟩
    exact ⟨policy, ⟨role, hrole, hpolicy⟩, hgrants⟩
  · intro ⟨policy, ⟨role, hrole, hpolicy⟩, hgrants⟩
    exact ⟨role, hrole, policy, hpolicy, hgrants⟩

/-- Where the condition holds, the first policy with the key decides as any other. -/
theorem firstPolicy_grants (order : List Nat) {roles}
    (hagree : claims.uid = owner ∨ ∀ policy policy', Has roles policy → Has roles policy' →
      policy.permissionKey = permissionKey → policy'.permissionKey = permissionKey → policy.self = policy'.self) :
    (∃ policy, firstPolicy (reorder order roles) permissionKey = some policy ∧
      (policy.self = false ∨ claims.uid = owner)) ↔ Grants roles permissionKey claims.uid owner := by
  rw [grants_iff]
  constructor
  · intro ⟨policy, hfirst, hself⟩
    have hkey : policy.permissionKey = permissionKey := by simpa using find?_some hfirst
    exact ⟨policy, mem_reorder_policies.mp (mem_of_find?_eq_some hfirst), hkey, hself⟩
  · intro ⟨policy, hhas, hkey, hself⟩
    cases hfirst : firstPolicy (reorder order roles) permissionKey with
    | none =>
      have hnone := find?_eq_none.mp hfirst policy (mem_reorder_policies.mpr hhas)
      simp [hkey] at hnone
    | some first =>
      refine ⟨first, rfl, ?_⟩
      rcases hagree with howner | hagree
      · exact .inr howner
      · have hkey' : first.permissionKey = permissionKey := by simpa using find?_some hfirst
        have hhas' : Has roles first := mem_reorder_policies.mp (mem_of_find?_eq_some hfirst)
        rw [hagree first policy hhas' hhas hkey' hkey]
        exact hself

theorem agree_iff {roles} : Agree roles permissionKey ↔ ∀ policy policy', Has roles policy →
    Has roles policy' → policy.permissionKey = permissionKey → policy'.permissionKey = permissionKey →
    policy.self = policy'.self := by
  constructor
  · intro h policy policy' ⟨role, hrole, hpolicy⟩ ⟨role', hrole', hpolicy'⟩
    exact h role hrole role' hrole' policy hpolicy policy' hpolicy'
  · intro h role hrole role' hrole' policy hpolicy policy' hpolicy'
    exact h policy policy' ⟨role, hrole, hpolicy⟩ ⟨role', hrole', hpolicy'⟩

/-- Some order puts the policy first. -/
theorem exists_first (hhas : Has (rolesOf d user) policy) (hkey : policy.permissionKey = permissionKey) :
    ∃ d' order, Rearranged d d' ∧ firstPolicy (reorder order (rolesOf d' user)) permissionKey = some policy := by
  obtain ⟨role, hrole, hpolicy⟩ := hhas
  obtain ⟨hmem, hname⟩ := mem_filter.mp hrole
  obtain ⟨front, back, hroles⟩ := append_of_mem hmem
  obtain ⟨policies, hperm⟩ : ∃ policies, role.policies.Perm (policy :: policies) :=
    ⟨_, perm_cons_erase hpolicy⟩
  let role' : Role := { role with policies := policy :: policies }
  let d' : Directory := { d with roles := front ++ role' :: back }
  have hd : Rearranged d d' := by
    refine ⟨rfl, ?_⟩
    rw [hroles]
    have hrefl : ∀ roles : List Role, List.Forall₂ (fun role role' => role'.id = role.id ∧ role'.name = role.name ∧
        role.policies.Perm role'.policies) roles roles := fun roles =>
      forall₂_same.mpr fun role _ => ⟨rfl, rfl, List.Perm.refl _⟩
    exact rel_append (hrefl front) (.cons ⟨rfl, rfl, hperm⟩ (hrefl back))
  have hmem' : role' ∈ rolesOf d' user := mem_filter.mpr ⟨by simp [d'], hname⟩
  obtain ⟨order, horder⟩ := exists_reorder (perm_cons_erase hmem').symm
  refine ⟨d', order, hd, ?_⟩
  rw [horder]
  simp [firstPolicy, role', hkey]

theorem Rearranged.refl (d : Directory) : Rearranged d d :=
  ⟨rfl, forall₂_same.mpr fun _ _ => ⟨rfl, rfl, List.Perm.refl _⟩⟩

/-- The condition is enough. -/
theorem allowed_of_agree (h : Authenticated svc d token permissionKey claims user) (hd : Rearranged d d')
    (henv : Answers claims env) (hkey : ¬Unchecked permissionKey)
    (hagree : claims.uid = owner ∨ Agree (rolesOf d user) permissionKey) :
    allowed svc d' env token permissionKey owner = true ↔ Grants (rolesOf d user) permissionKey claims.uid owner := by
  have hagree' : claims.uid = owner ∨ ∀ policy policy', Has (rolesOf d' user) policy →
      Has (rolesOf d' user) policy' → policy.permissionKey = permissionKey →
      policy'.permissionKey = permissionKey → policy.self = policy'.self := by
    simp only [hd.has_iff]
    exact hagree.imp_right agree_iff.mp
  have hgrants : Grants (rolesOf d' user) permissionKey claims.uid owner ↔
      Grants (rolesOf d user) permissionKey claims.uid owner := by
    simp only [grants_iff, hd.has_iff]
  rw [allowed_iff (hd.authenticated h) henv owner, ← hgrants, ← firstPolicy_grants (env 2).order hagree']
  simp [hkey]

/-- The condition is needed: else some order puts a restricted policy first, where
another grants the request. -/
theorem agree_of_allowed (h : Authenticated svc d token permissionKey claims user) {now}
    (hnow : validAt claims now = true) (hkey : ¬Unchecked permissionKey)
    (hexact : ∀ d' env, Rearranged d d' → Answers claims env →
      (allowed svc d' env token permissionKey owner = true ↔ Grants (rolesOf d user) permissionKey claims.uid owner)) :
    claims.uid = owner ∨ Agree (rolesOf d user) permissionKey := by
  by_contra hnot
  rw [not_or, agree_iff] at hnot
  obtain ⟨howner, hdisagree⟩ := hnot
  simp only [not_forall] at hdisagree
  obtain ⟨policy, policy', hhas, hhas', hkeys, hkeys', hne⟩ := hdisagree
  obtain ⟨restricted, free, hrestricted, hfree, hrkey, hfkey, hrself, hfself⟩ : ∃ restricted free,
      Has (rolesOf d user) restricted ∧ Has (rolesOf d user) free ∧ restricted.permissionKey = permissionKey ∧
      free.permissionKey = permissionKey ∧ restricted.self = true ∧ free.self = false := by
    cases hself : policy.self with
    | true =>
      refine ⟨policy, policy', hhas, hhas', hkeys, hkeys', hself, ?_⟩
      rw [hself] at hne
      simpa using (Ne.symm hne)
    | false =>
      refine ⟨policy', policy, hhas', hhas, hkeys', hkeys, ?_, hself⟩
      rw [hself] at hne
      simpa using (Ne.symm hne)
  obtain ⟨d', order, hd, hfirst⟩ := exists_first hrestricted hrkey
  have henv : Answers claims fun _ => { now := now, order := order } := ⟨fun _ => rfl, hnow⟩
  have hallowed := (hexact d' _ hd henv).mpr (grants_iff.mpr ⟨free, hfree, hfkey, .inl hfself⟩)
  rcases (allowed_iff (hd.authenticated h) henv owner).mp hallowed with hkey' | ⟨first, hfirst', hself⟩
  · exact hkey hkey'
  · cases hfirst.symm.trans hfirst'
    rw [hrself] at hself
    exact hself.elim (fun h => by cases h) howner

/-- More roles grant more. -/
theorem Grants.mono {user2 d2} (hroles : d2.roles = d.roles) (hsub : user.roles ⊆ user2.roles)
    (h : Grants (rolesOf d user) permissionKey claims.uid owner) :
    Grants (rolesOf d2 user2) permissionKey claims.uid owner := by
  obtain ⟨role, hrole, hpolicy⟩ := h
  obtain ⟨hmem, hname⟩ := mem_filter.mp hrole
  exact ⟨role, mem_filter.mpr ⟨hroles ▸ hmem, by simpa using hsub (by simpa using hname)⟩, hpolicy⟩

theorem allowed_mono {user2 d2 env2} (h : Authenticated svc d token permissionKey claims user)
    (h2 : Authenticated svc d2 token permissionKey claims user2) (hroles : d2.roles = d.roles)
    (hsub : user.roles ⊆ user2.roles) (hagree : claims.uid = owner ∨ Agree (rolesOf d2 user2) permissionKey)
    (henv : Answers claims env) (henv2 : Answers claims env2)
    (hallowed : allowed svc d env token permissionKey owner = true) :
    allowed svc d2 env2 token permissionKey owner = true := by
  rcases (allowed_iff h henv owner).mp hallowed with hkey | ⟨policy, hfirst, hself⟩
  · exact (allowed_iff h2 henv2 owner).mpr (.inl hkey)
  · by_cases hkey : Unchecked permissionKey
    · exact (allowed_iff h2 henv2 owner).mpr (.inl hkey)
    · refine (allowed_of_agree h2 (.refl d2) henv2 hkey hagree).mpr (Grants.mono hroles hsub (grants_iff.mpr ?_))
      have hpolicy : policy.permissionKey = permissionKey := by simpa using find?_some hfirst
      exact ⟨policy, mem_reorder_policies.mp (mem_of_find?_eq_some hfirst), hpolicy, hself⟩

end

/-- **Roles and policies in any order.** The decisions on a caller's request are the
one that the roles grant, whatever the order, exactly where the condition
holds; and there, more roles never take a permission away. -/
theorem authorize_exact_iff (svc : AuthService) (d : Directory) (token permissionKey resourceOwnerID : String)
    (claims : TokenClaims) (user : User) (h : Authenticated svc d token permissionKey claims user) (now : Time)
    (hnow : validAt claims now = true) :
    ((∀ d' env, Rearranged d d' → Answers claims env →
        (allowed svc d' env token permissionKey resourceOwnerID = true ↔
          Grants (rolesOf d user) permissionKey claims.uid resourceOwnerID)) ↔
      (Unchecked permissionKey → Grants (rolesOf d user) permissionKey claims.uid resourceOwnerID) ∧
      (¬Unchecked permissionKey → claims.uid = resourceOwnerID ∨ Agree (rolesOf d user) permissionKey)) ∧
    ∀ d₂ user₂, Authenticated svc d₂ token permissionKey claims user₂ → d₂.roles = d.roles → user.roles ⊆ user₂.roles →
      (claims.uid = resourceOwnerID ∨ Agree (rolesOf d₂ user₂) permissionKey) → ∀ env env₂, Answers claims env →
      Answers claims env₂ → allowed svc d env token permissionKey resourceOwnerID = true →
      allowed svc d₂ env₂ token permissionKey resourceOwnerID = true := by
  refine ⟨⟨fun hexact => ⟨fun hkey => ?_, fun hkey => agree_of_allowed h hnow hkey hexact⟩,
    fun ⟨hunchecked, hagree⟩ d' env hd henv => ?_⟩, ?_⟩
  · have henv : Answers claims fun _ => { now := now } := ⟨fun _ => rfl, hnow⟩
    exact (hexact d _ (.refl d) henv).mp ((allowed_iff h henv resourceOwnerID).mpr (.inl hkey))
  · by_cases hkey : Unchecked permissionKey
    · rw [allowed_iff (hd.authenticated h) henv resourceOwnerID]
      exact ⟨fun _ => hunchecked hkey, fun _ => .inl hkey⟩
    · exact allowed_of_agree h hd henv hkey (hagree hkey)
  · intro d₂ user₂ h₂ hroles hsub hagree env env₂ henv henv₂
    exact allowed_mono h h₂ hroles hsub hagree henv henv₂

/-- Two roles with the key: `any` for all resources, `own` for the caller's own. -/
def anyAndOwn : List Role :=
  [{ id := .zero, name := "any", policies := [{ permissionKey := "read" }] },
    { id := .zero, name := "own", policies := [{ permissionKey := "read", self := true }] }]

/-- The user with the roles of these names. -/
def withRoles (names : List String) : Directory where
  users := [{ oneUser with roles := names }]
  roles := anyAndOwn
  nodup := nodup_singleton _

theorem authorize_exact_iff_any :
    allowed oneUser.service (withRoles ["any"]) (fun _ => {}) "#" "read" "other" = true ↔
      Grants (rolesOf (withRoles ["any"]) { oneUser with roles := ["any"] }) "read" oneUser.id.hex "other" := by
  have hauthenticated : Authenticated oneUser.service (withRoles ["any"]) "#" "read"
      (userClaims oneUser .access (60 * second) 0 0 0 "") { oneUser with roles := ["any"] } :=
    ⟨by decide +kernel, rfl, .inr rfl, objectIDFromHex_hex oneUser.id, mem_singleton_self _, rfl⟩
  have hroles : rolesOf (withRoles ["any"]) { oneUser with roles := ["any"] } = anyAndOwn.take 1 := by decide
  refine (authorize_exact_iff oneUser.service (withRoles ["any"]) "#" "read" "other" _ _ hauthenticated 0
    (by decide)).1.mpr ⟨fun hkey => absurd hkey (by decide), fun _ => .inr ?_⟩ _ _ (.refl _) ⟨fun _ => rfl, by decide⟩
  rw [hroles]
  unfold Agree
  decide

/-- **By order**: the same request of the same user is allowed or denied by the order
in which the roles are found, and the role `own` takes away what `any` gives. -/
theorem authorize_byOrder :
    allowed oneUser.service (withRoles ["any", "own"]) (fun _ => { order := [0] }) "#" "read" "other" = true ∧
    allowed oneUser.service (withRoles ["any", "own"]) (fun _ => { order := [1] }) "#" "read" "other" = false ∧
    allowed oneUser.service (withRoles ["any"]) (fun _ => { order := [1] }) "#" "read" "other" = true := by
  decide +kernel

end Gthulhu.Manager
