/-
A `LogoutAll` is final, as long as no operation writes a stale copy of the
user's document (**`logoutAll_final`**): the stored token version never goes
back, and a token carries the version it was issued at.

A `ChangePassword` that has read the document before the `LogoutAll` puts the
old version and the old sessions back, and the old tokens are accepted again
(**`logoutAll_undone`**).
-/
import Gthulhu.Manager.SessionFacts

namespace Gthulhu.Manager

open Lib AuthService Machine

/-! ## The stored version -/

/-- The user is stored, with this token version or a later one. -/
def AtLeast (u : ObjectID) (version : Int) (s : AuthPool) : Prop :=
  ∃ sessions, s.shared.sessions u = some sessions ∧ version ≤ sessions.tokenVersion.toInt

/-- The stored version can still be counted up. -/
def versionFits (u : ObjectID) (s : AuthPool) : Bool :=
  match s.shared.sessions u with
  | some sessions => sessions.tokenVersion ≠ Int64.maxValue
  | none => true

theorem toInt_succ {version} (h : version ≠ Int64.maxValue) : (version + 1).toInt = version.toInt + 1 := by
  have hlt := version.toInt_lt
  have hle := version.le_toInt
  have hne : version.toInt ≠ 2 ^ 63 - 1 := fun he => h (Int64.toInt_inj.mp he)
  rw [Int64.toInt_add]
  have : (1 : Int64).toInt = 1 := rfl
  rw [this, Int.bmod_eq_of_le] <;> omega

/-- What a write does to the version. -/
theorem writes_version {svc} {op : AuthOp} {v before after} (h : op.Writes svc v before after)
    (hfits : before.tokenVersion ≠ Int64.maxValue) :
    before.tokenVersion.toInt ≤ after.tokenVersion.toInt := by
  rcases h.cases with ⟨_, _, h⟩ | ⟨_, _, h | h⟩ | ⟨_, h⟩ | h
  · rw [h.tokenVersion]
  · rw [h.tokenVersion]
  · rw [h.tokenVersion]
  · rw [h.tokenVersion, toInt_succ hfits]
    omega
  · rw [h.tokenVersion]

section

variable {svc : AuthService} {s s' : AuthPool} {e : AuthEvent} {u : ObjectID} {version : Int}

theorem versionFits_stored {sessions} (h : versionFits u s = true) (hu : s.shared.sessions u = some sessions) :
    sessions.tokenVersion ≠ Int64.maxValue := by
  simpa [versionFits, hu] using h

/-- **The version never goes back.** -/
theorem AtLeast.step (hinv : AuthInv svc s) (h : AtLeast u version s) (hstale : notStale u s e = true)
    (hfits : versionFits u s = true) (hs : (authCalls svc).step s e = some s') : AtLeast u version s' := by
  obtain ⟨sessions, hu, hle⟩ := h
  rcases Pool.step_cases hs with ⟨op, rfl, rfl⟩ | ⟨i, choice, op, call, rest, r, d, rfl, hi, hr, rfl⟩
  · exact ⟨sessions, hu, hle⟩
  rcases Directory.answer_sessions hr u with hd | ⟨user, rfl, hid, hd⟩
  · exact ⟨sessions, hd.trans hu, hle⟩
  · subst hid
    obtain ⟨before, hwrites, _, hstored⟩ := hinv.write hi (notStale_current hstale hi rfl)
    cases hu.symm.trans hstored
    exact ⟨_, hd, Int.le_trans hle (writes_version hwrites (versionFits_stored hfits hstored))⟩

/-- Every copy an operation has is of the stored version or an earlier one. -/
structure CopiesInv (svc : AuthService) (u : ObjectID) (s : AuthPool) : Prop extends AuthInv svc s where
  copies : ∀ i doc, doc ∈ (seen s i).docs → doc.id = u → AtLeast u doc.tokenVersion.toInt s

theorem CopiesInv.start (d : Directory) : CopiesInv svc u { shared := d } := by
  refine ⟨AuthInv.start d, fun i doc hdoc => ?_⟩
  cases hdoc

theorem CopiesInv.step (h : CopiesInv svc u s) (hstale : notStale u s e = true) (hfits : versionFits u s = true)
    (hs : (authCalls svc).step s e = some s') : CopiesInv svc u s' := by
  refine ⟨h.toAuthInv.step hs, fun i doc hdoc hid => ?_⟩
  rcases docs_step hs hdoc with hold | hstored
  · exact (h.copies i doc hold hid).step h.toAuthInv hstale hfits hs
  · subst hid
    exact ⟨_, hstored, Int.le_refl _⟩

/-! ## A `LogoutAll` -/

/-- The `LogoutAll` calls for the user from number `first` on have counted the
version up. -/
structure CountsUp (svc : AuthService) (u : ObjectID) (first : Nat) (version : Int) (s : AuthPool) : Prop extends
    AuthInv svc s where
  atLeast : AtLeast u version s
  counted : ∀ i userClaims, first ≤ i → userClaims.getBsonObjectUID = .ok u → s.Runs i (.logoutAll userClaims) →
    0 < (seen s i).writes → AtLeast u (version + 1) s

theorem CountsUp.step {first} (h : CountsUp svc u first version s) (hstale : notStale u s e = true)
    (hfits : versionFits u s = true) (hs : (authCalls svc).step s e = some s') : CountsUp svc u first version s' := by
  have hinv := h.toAuthInv
  refine ⟨hinv.step hs, h.atLeast.step hinv hstale hfits hs, fun i userClaims hfirst huid hi hw => ?_⟩
  have hruns := hinv.runs_step hs hi hw
  rcases writes_step hs i with hsame | ⟨op, user, hwrite⟩
  · exact (h.counted i userClaims hfirst huid hruns (hsame ▸ hw)).step hinv hstale hfits hs
  obtain ⟨rest, hthread⟩ := hwrite.thread
  cases AuthInv.runs_unique hruns hthread
  obtain ⟨before, hclears, hid, hcopy⟩ := hwrite.written hinv
  cases hid.trans (Except.ok.inj ((Clears.uid hclears).symm.trans huid))
  have hstored := (hcopy hstale).2
  obtain ⟨sessions, hu, hle⟩ := h.atLeast
  cases hu.symm.trans hstored
  refine ⟨user.sessions, hwrite.stored, ?_⟩
  have hversion : user.tokenVersion = before.tokenVersion + 1 := Clears.tokenVersion hclears
  have hsucc := toInt_succ (versionFits_stored hfits hstored)
  show version + 1 ≤ user.tokenVersion.toInt
  rw [hversion]
  exact hsucc ▸ Int.add_le_add_right hle 1

/-! ## Old tokens -/

variable {token : String} {claims : TokenClaims}

/-- What becomes of calls with a token of an earlier version: those from number
`first` on read only later documents, and no exchange is finished but for the
threads that had returned. -/
structure Outdated (svc : AuthService) (u : ObjectID) (token : String) (claims : TokenClaims) (s₁ s : AuthPool) : Prop
    extends AuthInv svc s where
  atLeast : AtLeast u (claims.tokenVersion.toInt + 1) s
  later : ∀ i doc, s₁.threads.length ≤ i → doc ∈ (seen s i).docs → doc.id = u →
    claims.tokenVersion.toInt < doc.tokenVersion.toInt
  exchanged : ∀ i, s.Runs i (.refreshToken token) → 1 < (seen s i).writes → ∃ a, s₁.Returned i (.refreshToken token) a

/-- A call that has written all it writes has returned. -/
theorem AuthInv.returned_of_writes (h : AuthInv svc s) {i op} (hi : s.Runs i op) (hw : op.writes ≤ (seen s i).writes)
    (hpos : 0 < op.writes) : ∃ a, s.Returned i op a := by
  obtain ⟨p, hp⟩ := hi
  cases p with
  | ret a => exact ⟨a, hp⟩
  | call call rest =>
    have hcall : op.Calls svc (seen s i) call := h.follows.call hp
    cases call with
    | findUsers opt =>
      have hzero : (seen s i).writes = 0 := hcall
      omega
    | replaceUser user =>
      have hlt := hcall.1
      omega
    | _ =>
      rcases hcall with hlt | hzero
      · omega
      · omega

theorem Outdated.start (hinv : AuthInv svc s) (h : AtLeast u (claims.tokenVersion.toInt + 1) s) :
    Outdated svc u token claims s s := by
  refine ⟨hinv, h, fun i doc hlen hdoc => ?_, fun i hi hw => hinv.returned_of_writes hi hw Nat.zero_lt_two⟩
  have hnew : seen s i = {} := hinv.follows.view_new hlen
  rw [hnew] at hdoc
  cases hdoc

theorem Outdated.step {s1} (h : Outdated svc u token claims s1 s) (hclaims : svc.jwt.claims token = some claims)
    (huid : claims.getBsonObjectUID = .ok u) (hstale : notStale u s e = true) (hfits : versionFits u s = true)
    (hs : (authCalls svc).step s e = some s') : Outdated svc u token claims s1 s' := by
  have hinv := h.toAuthInv
  have hatLeast := h.atLeast.step hinv hstale hfits hs
  refine ⟨hinv.step hs, hatLeast, fun i doc hlen hdoc hid => ?_, fun i hi hw => ?_⟩
  · rcases docs_step hs hdoc with hold | hstored
    · exact h.later i doc hlen hold hid
    · subst hid
      obtain ⟨sessions, hu, hle⟩ := hatLeast
      cases hu.symm.trans hstored
      exact hle
  · have hruns := hinv.runs_step hs hi (by omega)
    rcases writes_step hs i with hsame | ⟨op, user, hwrite⟩
    · exact h.exchanged i hruns (hsame ▸ hw)
    obtain ⟨rest, hthread⟩ := hwrite.thread
    cases AuthInv.runs_unique hruns hthread
    obtain ⟨before, hwrites, hid, hcopy⟩ := hwrite.written hinv
    cases hid.trans (refreshToken_writes_user hclaims huid hwrites)
    have hone := hwrite.writes
    obtain ⟨sessions, hu, hle⟩ := h.atLeast
    cases hu.symm.trans (hcopy hstale).2
    rcases hwrites with ⟨hzero, _⟩ | ⟨_, ⟨claims', htoken, hversion⟩, _⟩
    · omega
    · -- The new session would be of the token's own version.
      cases hclaims.symm.trans htoken.claims_eq
      have hle : claims.tokenVersion.toInt + 1 ≤ before.tokenVersion.toInt := hle
      rw [hversion] at hle
      omega

end

/-! ## Tokens of a pair -/

/-- What a call that returned a pair leaves: its tokens are of a version that is
not later than the stored one. -/
theorem CopiesInv.issued {svc u s} (h : CopiesInv svc u s) {i op pair} (hi : s.Returned i op (.ok (.pair pair))) {token}
    (htoken : token = pair.accessToken ∨ token = pair.refreshToken) (hu : svc.tokenUser token = some u) :
    ∃ claims, svc.jwt.claims token = some claims ∧ claims.getBsonObjectUID = .ok u ∧
      AtLeast u claims.tokenVersion.toInt s := by
  have hissued : ∀ {claims before after}, before ∈ (seen s i).docs →
      IssuesPair svc (seen s i).clock pair claims before after → ∃ claims, svc.jwt.claims token = some claims ∧
        claims.getBsonObjectUID = .ok u ∧ AtLeast u claims.tokenVersion.toInt s := by
    intro claims before after hmem hpair
    obtain ⟨claims', hclaims, huid, hversion, _⟩ := hpair.token_claims htoken
    have hid : before.id = u := Option.some.inj ((tokenUser_eq hclaims huid).symm.trans hu)
    rw [hid] at huid
    exact ⟨claims', hclaims, huid, hversion ▸ h.copies i before hmem hid⟩
  have hreturns : op.Returns svc (seen s i) (.pair pair) := (h.follows.returned hi).2.2
  cases op with
  | login username password =>
    obtain ⟨before, after, claims, hdocs, _, _, hpair, _⟩ := hreturns
    exact hissued (by simp [hdocs]) hpair
  | refreshToken old =>
    obtain ⟨before, between, after, oldClaims, claims, hdocs, _, _, hpair, _⟩ := hreturns
    exact hissued (by simp [hdocs]) hpair
  | _ => exact hreturns.elim

/-! ## Runs -/

/-- **`LogoutAll` is final**, in every run in which the user is written by callers
with a current copy only: no token that was issued before it started is
accepted by a `VerifyJWTToken` called after it, and no exchange of one is
finished after it. -/
theorem logoutAll_final (svc : AuthService) (d : Directory) (u : ObjectID) (es₀ es₁ es₂ : List AuthEvent)
    (s₀ s₁ s₂ : AuthPool) (h₀ : (authCalls svc).exec { shared := d } es₀ = some s₀)
    (h₁ : (authCalls svc).exec s₀ es₁ = some s₁) (h₂ : (authCalls svc).exec s₁ es₂ = some s₂)
    (hguard : (authCalls svc).Guarded (fun s e => notStale u s e = true ∧ versionFits u s = true) { shared := d }
      (es₀ ++ (es₁ ++ es₂)))
    (m : Nat) (op : AuthOp) (pair : TokenPair) (hissued : s₀.Returned m op (.ok (.pair pair))) (token : String)
    (htoken : token = pair.accessToken ∨ token = pair.refreshToken) (hu : svc.tokenUser token = some u)
    (l : Nat) (userClaims : Claims) (hstarted : s₀.threads.length ≤ l) (huid : userClaims.getBsonObjectUID = .ok u)
    (hdone : s₁.Returned l (.logoutAll userClaims) (.ok .done)) :
    (∀ i permissionKey claims policy, s₁.threads.length ≤ i →
      ¬s₂.Returned i (.verifyJWTToken token permissionKey) (.ok (.verified claims policy))) ∧
    ∀ i pair', s₂.Returned i (.refreshToken token) (.ok (.pair pair')) →
      s₁.Returned i (.refreshToken token) (.ok (.pair pair')) := by
  obtain ⟨hguard₀, hguard⟩ := guarded_append hguard h₀
  obtain ⟨hguard₁, hguard₂⟩ := guarded_append hguard h₁
  have hcopies : CopiesInv svc u s₀ :=
    Machine.invariantWhere (fun h hg hs => h.step hg.1 hg.2 hs) h₀ hguard₀ (CopiesInv.start d)
  obtain ⟨claims, hclaims, hclaimsUid, hversion⟩ := hcopies.issued hissued htoken hu
  have hcounts : CountsUp svc u s₀.threads.length claims.tokenVersion.toInt s₁ := by
    refine Machine.invariantWhere (fun h hg hs => h.step hg.1 hg.2 hs) h₁ hguard₁
      ⟨hcopies.toAuthInv, hversion, fun i _ hlen _ hi => ?_⟩
    obtain ⟨p, hp⟩ := hi
    rw [List.getElem?_eq_none hlen] at hp
    cases hp
  have hwrites : (seen s₁ l).writes = 1 := (hcounts.follows.returned hdone).1
  have hlater := hcounts.counted l userClaims hstarted huid ⟨_, hdone⟩ (by omega)
  have houtdated : Outdated svc u token claims s₁ s₂ :=
    Machine.invariantWhere (fun h hg hs => h.step hclaims hclaimsUid hg.1 hg.2 hs) h₂ hguard₂
      (Outdated.start hcounts.toAuthInv hlater)
  refine ⟨fun i permissionKey claims' policy hlen hi => ?_, fun i pair' hi => ?_⟩
  · obtain ⟨_, _, user, hdocs, hclaims', _, _, huser, heq⟩ := houtdated.follows.returned hi
    cases hclaims.symm.trans hclaims'
    have hid : user.id = u := Except.ok.inj (huser.symm.trans hclaimsUid)
    have hlt := houtdated.later i user hlen (hdocs ▸ List.mem_singleton_self user) hid
    rw [heq] at hlt
    omega
  · have hwrites : (seen s₂ i).writes = 2 := (houtdated.follows.returned hi).1
    obtain ⟨a, ha⟩ := houtdated.exchanged i ⟨_, hi⟩ (by omega)
    cases (Pool.returned_exec h₂ ha).symm.trans hi
    exact ha

/-- `Login` by itself, from its first call to the pair it returns. -/
def firstLogin : List AuthEvent := .start (.login "user" "secret") :: turns 0 13 { xid := .a }

/-- `LogoutAll`, all of it. -/
def logoutAllAs (i : Nat) : List AuthEvent := .start (.logoutAll ⟨oneUser.id.hex⟩) :: turns i 4 {}

theorem logoutAll_final_login :
    ∃ s, (authCalls oneUser.service).exec { shared := oneUser.directory }
        (firstLogin ++ (logoutAllAs 1 ++ .start (.verifyJWTToken "#" "") :: turns 2 2 {})) = some s ∧
      ∀ claims policy, ¬s.Returned 2 (.verifyJWTToken "#" "") (.ok (.verified claims policy)) := by
  obtain ⟨s₀, h₀, hissued, hlength₀⟩ : ∃ s, (authCalls oneUser.service).exec { shared := oneUser.directory }
      firstLogin = some s ∧ s.Returned 0 (.login "user" "secret") (.ok (.pair ⟨"#", "##"⟩)) ∧ s.threads.length = 1 :=
    exists_exec (by decide +kernel)
  obtain ⟨s₁', h₁', hdone, hlength₁⟩ : ∃ s, (authCalls oneUser.service).exec { shared := oneUser.directory }
      (firstLogin ++ logoutAllAs 1) = some s ∧ s.Returned 1 (.logoutAll ⟨oneUser.id.hex⟩) (.ok .done) ∧
        s.threads.length = 2 :=
    exists_exec (by decide +kernel)
  obtain ⟨s₂, h₂', _⟩ : ∃ s, (authCalls oneUser.service).exec { shared := oneUser.directory }
      (firstLogin ++ (logoutAllAs 1 ++ .start (.verifyJWTToken "#" "") :: turns 2 2 {})) = some s ∧ True :=
    exists_exec (by decide +kernel)
  obtain ⟨_, h₀', hrest⟩ := exec_append h₂'
  cases h₀.symm.trans h₀'
  obtain ⟨_, h₁, h₂⟩ := exec_append hrest
  cases h₁'.symm.trans (exec_trans h₀ h₁)
  have hfinal := logoutAll_final oneUser.service oneUser.directory oneUser.id firstLogin (logoutAllAs 1)
    (.start (.verifyJWTToken "#" "") :: turns 2 2 {}) s₀ s₁' s₂ h₀ h₁ h₂ (by decide +kernel) 0 _ ⟨"#", "##"⟩ hissued
    "#" (.inl rfl) (by decide +kernel) 1 _ (by omega) (objectIDFromHex_hex oneUser.id) hdone
  exact ⟨s₂, h₂', fun claims policy => hfinal.1 2 "" claims policy (by omega)⟩

/-- A `ChangePassword` that has read the document, and then a `LogoutAll`. -/
def logoutAllAcrossChange : List AuthEvent :=
  [.start (.changePassword ⟨oneUser.id.hex⟩ "secret" "new"), .turn 1 {}] ++ logoutAllAs 2

/-- The rest of the `ChangePassword`, and calls with the tokens of `firstLogin`. -/
def oldTokens : List AuthEvent :=
  turns 1 3 {} ++ .start (.verifyJWTToken "#" "") :: turns 3 2 {} ++ .start (.refreshToken "##") ::
    turns 4 18 { xid := .b }

/-- **Undone**: both tokens that were issued before the `LogoutAll` started are
accepted after it has returned. -/
theorem logoutAll_undone :
    (∃ s, (authCalls oneUser.service).exec { shared := oneUser.directory } firstLogin = some s ∧
      s.Returned 0 (.login "user" "secret") (.ok (.pair ⟨"#", "##"⟩))) ∧
    (∃ s, (authCalls oneUser.service).exec { shared := oneUser.directory } (firstLogin ++ logoutAllAcrossChange) = some s ∧
      s.Returned 2 (.logoutAll ⟨oneUser.id.hex⟩) (.ok .done) ∧ s.threads.length = 3) ∧
    ∃ s, (authCalls oneUser.service).exec { shared := oneUser.directory }
        (firstLogin ++ logoutAllAcrossChange ++ oldTokens) = some s ∧
      s.Returned 3 (.verifyJWTToken "#" "") (.ok (.verified (userClaims oneUser .access (60 * second) 0 0 0 "") {})) ∧
      s.Returned 4 (.refreshToken "##") (.ok (.pair ⟨"#", "###"⟩)) :=
  ⟨exists_exec (by decide +kernel), exists_exec (by decide +kernel),
    exists_exec (by decide +kernel)⟩

end Gthulhu.Manager
