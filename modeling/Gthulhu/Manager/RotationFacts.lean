/-
Refresh tokens when calls do not overlap: **`refreshToken_rotation`**. A token
can be exchanged exactly as long as the log of the calls says that it is live.

A `Book` is a list of sessions that stands for a set of live tokens. What the
operations do to the list (`prune`, `issue`, `revoke`, `clear`) they do to the
set, so no session is lost on account of another one.
-/
import Gthulhu.Manager.AuthSerialFacts
import Gthulhu.Manager.SessionFacts

namespace Gthulhu.Manager

open Lib AuthService List

/-! ## Books -/

/-- What a live refresh token of user `u` says. -/
structure LiveClaims (u : ObjectID) (version : Int64) (clock : List Time) (claims : TokenClaims) : Prop where
  tokenType : claims.tokenType = .refresh
  jti : claims.id ≠ ""
  uid : claims.getBsonObjectUID = .ok u
  version : claims.tokenVersion = version
  notBefore : ∃ t ∈ clock, claims.notBefore = Time.unix t

/-- The sessions stored for user `u` stand for the tokens in `live`: those that
are not revoked are live, and a live one is there until it expires. -/
structure Book (svc : AuthService) (u : ObjectID) (version : Int64) (made : List String) (clock : List Time)
    (live : String → Prop) (sessions : List RefreshSession) : Prop where
  nodup : (jtis sessions).Nodup
  known : ∀ x ∈ sessions, x.jti ∈ made
  unrevoked : ∀ x ∈ sessions, x.revoked = false → ∃ claims, x = sessionOf svc claims ∧ live (svc.jwt.sign claims)
  kept : ∀ token, live token → ∃ claims, token = svc.jwt.sign claims ∧ LiveClaims u version clock claims ∧
    (sessionOf svc claims ∈ sessions ∨ ∃ t ∈ clock, (sessionOf svc claims).isExpired t = true)

variable {claims : TokenClaims}

namespace Book

variable {svc : AuthService} {u : ObjectID} {version : Int64} {made : List String} {clock : List Time}
  {live : String → Prop} {sessions : List RefreshSession}

theorem clear : Book svc u version made clock (fun _ => False) [] :=
  ⟨nodup_nil, fun _ hx => (by cases hx), fun _ hx => (by cases hx), fun _ h => h.elim⟩

/-- More JTIs and a later clock, for the same tokens. -/
theorem mono {made' clock' live'} (h : Book svc u version made clock live sessions) (hmade : made ⊆ made')
    (hclock : clock ⊆ clock')
    (hlive : ∀ token, live token ↔ live' token) : Book svc u version made' clock' live' sessions := by
  refine ⟨h.nodup, fun x hx => hmade (h.known x hx), fun x hx hrevoked => ?_, fun token htoken => ?_⟩
  · obtain ⟨claims, hsession, hclaims⟩ := h.unrevoked x hx hrevoked
    exact ⟨claims, hsession, (hlive _).mp hclaims⟩
  · obtain ⟨claims, hsign, hclaims, hkept⟩ := h.kept token ((hlive token).mpr htoken)
    obtain ⟨t, ht, hnotBefore⟩ := hclaims.notBefore
    refine ⟨claims, hsign, ⟨hclaims.tokenType, hclaims.jti, hclaims.uid, hclaims.version, t, hclock ht, hnotBefore⟩, ?_⟩
    exact hkept.imp_right fun ⟨t', ht', hexpired⟩ => ⟨t', hclock ht', hexpired⟩

/-- Pruning drops only what has ended. -/
theorem prune {now} (h : Book svc u version made clock live sessions) (hnow : now ∈ clock) :
    Book svc u version made clock live (pruneRefreshSessions sessions now) := by
  have hsub : (jtis (pruneRefreshSessions sessions now)).Sublist (jtis sessions) := filter_sublist.map _
  refine ⟨h.nodup.sublist hsub, fun x hx => h.known x (mem_prune.mp hx).1,
    fun x hx => h.unrevoked x (mem_prune.mp hx).1, fun token htoken => ?_⟩
  obtain ⟨claims, hsign, hclaims, hkept⟩ := h.kept token htoken
  refine ⟨claims, hsign, hclaims, ?_⟩
  by_cases hexpired : (sessionOf svc claims).isExpired now = true
  · exact .inr ⟨now, hnow, hexpired⟩
  · exact hkept.imp_left fun hmem => mem_prune.mpr ⟨hmem, rfl, by simpa using hexpired⟩

theorem issue (h : Book svc u version made clock live sessions) (hclaims : LiveClaims u version clock claims)
    (hfresh : claims.id ∉ made) :
    Book svc u version (made ++ [claims.id]) clock (fun token => live token ∨ token = svc.jwt.sign claims)
      (sessions ++ [sessionOf svc claims]) := by
  have hjtis : jtis (sessions ++ [sessionOf svc claims]) = jtis sessions ++ [claims.id] := by
    simp [jtis, sessionOf]
  refine ⟨?_, fun x hx => ?_, fun x hx hrevoked => ?_, fun token htoken => ?_⟩
  · rw [hjtis, nodup_append]
    refine ⟨h.nodup, nodup_singleton _, fun x hx y hy hxy => ?_⟩
    obtain ⟨session, hmem, rfl⟩ := mem_map.mp hx
    rw [mem_singleton] at hy
    exact hfresh (hy ▸ hxy ▸ h.known session hmem)
  · rw [mem_append, mem_singleton] at hx ⊢
    rcases hx with hx | rfl
    · exact .inl (h.known x hx)
    · exact .inr rfl
  · rw [mem_append, mem_singleton] at hx
    rcases hx with hx | rfl
    · obtain ⟨claims', hsession, hlive⟩ := h.unrevoked x hx hrevoked
      exact ⟨claims', hsession, .inl hlive⟩
    · exact ⟨claims, rfl, .inr rfl⟩
  · rcases htoken with htoken | rfl
    · obtain ⟨claims', hsign, hclaims', hkept⟩ := h.kept token htoken
      exact ⟨claims', hsign, hclaims', hkept.imp_left fun hmem => mem_append_left _ hmem⟩
    · exact ⟨claims, rfl, hclaims, .inl (by simp)⟩

/-- Revoking a token's session takes that token away, and no other. -/
theorem revoke {token found sessions'} (h : Book svc u version made clock live sessions)
    (hclaims : svc.jwt.claims token = some claims) (hrevokes : RevokesOne claims.id sessions sessions')
    (hmem : found ∈ sessions) (hjti : found.jti = claims.id) (hhash : found.tokenHash = svc.hashToken token)
    (hunique : ∀ other, live other → svc.hashToken other = svc.hashToken token → other = token) :
    Book svc u version made clock (fun other => live other ∧ other ≠ token) sessions' := by
  refine ⟨hrevokes.jtis_eq ▸ h.nodup, fun x hx => ?_, fun x hx hrevoked => ?_, fun other hother => ?_⟩
  · rcases hrevokes.mem hx with hx | ⟨old, hold, rfl⟩
    · exact h.known x hx
    · exact h.known old hold
  · have hne : x.jti ≠ claims.id := by
      intro hx'
      rw [hrevokes.revoked h.nodup x hx hx'] at hrevoked
      cases hrevoked
    rcases hrevokes.mem hx with hx | ⟨old, hold, rfl⟩
    · obtain ⟨claims', rfl, hlive⟩ := h.unrevoked x hx hrevoked
      refine ⟨claims', rfl, hlive, ?_⟩
      rintro rfl
      cases hclaims.symm.trans (svc.jwt.claims_sign claims')
      exact hne rfl
    · cases hrevoked
  · obtain ⟨claims', rfl, hclaims', hkept⟩ := h.kept other hother.1
    refine ⟨claims', rfl, hclaims', hkept.imp_left fun hsession => hrevokes.mem_of_ne hsession fun hid => hother.2 ?_⟩
    -- One JTI, one session: it would have the hash of the other token.
    have hsame : sessionOf svc claims' = found :=
      inj_on_of_nodup_map h.nodup hsession hmem (hid.trans hjti.symm)
    exact hunique _ hother.1 ((congrArg RefreshSession.tokenHash hsame).trans hhash)

end Book

/-! ## The log -/

/-- The call returned this refresh token. -/
def Issued (token : String) (entry : AuthEntry) : Prop :=
  ∃ pair, entry.result = .ok (.pair pair) ∧ pair.refreshToken = token

def Exchanged (token : String) (entry : AuthEntry) : Prop :=
  entry.op = .refreshToken token ∧ ∃ pair, entry.result = .ok (.pair pair)

def LoggedOut (token : String) (entry : AuthEntry) : Prop := entry.op = .logout token ∧ entry.result = .ok .done

def LoggedOutAll (u : ObjectID) (entry : AuthEntry) : Prop :=
  ∃ userClaims, entry.op = .logoutAll userClaims ∧ userClaims.getBsonObjectUID = .ok u ∧ entry.result = .ok .done

/-- The token was issued to the user, not exchanged, not given to `Logout`, and
there was no `LogoutAll` of the user since. -/
structure Live (svc : AuthService) (u : ObjectID) (token : String) (log : List AuthEntry) : Prop where
  user : svc.tokenUser token = some u
  issued : ∃ front entry back, log = front ++ entry :: back ∧ Issued token entry ∧ ∀ x ∈ back, ¬LoggedOutAll u x
  unspent : ∀ x ∈ log, ¬Exchanged token x ∧ ¬LoggedOut token x

theorem live_snoc {svc u token log x} :
    Live svc u token (log ++ [x]) ↔
      (Live svc u token log ∧ ¬Exchanged token x ∧ ¬LoggedOut token x ∧ ¬LoggedOutAll u x) ∨
      (svc.tokenUser token = some u ∧ Issued token x ∧ ∀ y ∈ log ++ [x], ¬Exchanged token y ∧ ¬LoggedOut token y) := by
  constructor
  · rintro ⟨huser, ⟨front, entry, back, hlog, hissued, hback⟩, hunspent⟩
    have hx := hunspent x (by simp)
    rcases eq_nil_or_concat back with rfl | ⟨back', last, rfl⟩
    · obtain ⟨_, hlast⟩ := append_inj' hlog rfl
      cases hlast
      exact .inr ⟨huser, hissued, hunspent⟩
    · rw [concat_eq_append, ← cons_append, ← append_assoc] at hlog
      obtain ⟨rfl, hlast⟩ := append_inj' hlog rfl
      cases hlast
      refine .inl ⟨⟨huser, ⟨front, entry, back', rfl, hissued, fun y hy => hback y (by simp [hy])⟩,
        fun y hy => hunspent y (mem_append_left _ hy)⟩, hx.1, hx.2, hback x (by simp)⟩
  · rintro (⟨⟨huser, ⟨front, entry, back, rfl, hissued, hback⟩, hunspent⟩, hx⟩ | ⟨huser, hissued, hunspent⟩)
    · refine ⟨huser, ⟨front, entry, back ++ [x], by simp, hissued, fun y hy => ?_⟩, fun y hy => ?_⟩
      · rw [mem_append, mem_singleton] at hy
        rcases hy with hy | rfl
        · exact hback y hy
        · exact hx.2.2
      · rw [mem_append, mem_singleton] at hy
        rcases hy with hy | rfl
        · exact hunspent y hy
        · exact ⟨hx.1, hx.2.1⟩
    · exact ⟨huser, ⟨log, x, [], rfl, hissued, fun y hy => by cases hy⟩, hunspent⟩

/-- The JTIs made so far. -/
def madeJtis (log : List AuthEntry) : List String := log.flatMap fun entry => (view entry).made

/-- All readings of the clock, in their order. -/
def readings (log : List AuthEntry) : List Time := log.flatMap fun entry => (view entry).clock

/-- The refresh tokens that were presented or returned. -/
def tokensOf (entry : AuthEntry) : List String :=
  (match entry.op with
    | .refreshToken token | .logout token => [token]
    | _ => []) ++
  match entry.result with
  | .ok (.pair pair) => [pair.refreshToken]
  | _ => []

/-- Database calls succeed, the clock does not go back, and JTIs and token hashes
are unique. -/
structure Regular (svc : AuthService) (log : List AuthEntry) : Prop where
  succeeds : ∀ entry ∈ log, (view entry).failed = false
  clock : (readings log).Pairwise (· ≤ ·)
  jtis : (madeJtis log).Nodup
  hashes : ∀ x ∈ log, ∀ y ∈ log, ∀ token ∈ tokensOf x, ∀ token' ∈ tokensOf y,
    svc.hashToken token = svc.hashToken token' → token = token'

instance decidableRegular (svc : AuthService) (log : List AuthEntry) : Decidable (Regular svc log) :=
  decidable_of_iff ((∀ entry ∈ log, (view entry).failed = false) ∧ (readings log).Pairwise (· ≤ ·) ∧
      (madeJtis log).Nodup ∧ ∀ x ∈ log, ∀ y ∈ log, ∀ token ∈ tokensOf x, ∀ token' ∈ tokensOf y,
        svc.hashToken token = svc.hashToken token' → token = token')
    ⟨fun ⟨h₁, h₂, h₃, h₄⟩ => ⟨h₁, h₂, h₃, h₄⟩, fun h => ⟨h.succeeds, h.clock, h.jtis, h.hashes⟩⟩

section

variable {svc : AuthService} {u : ObjectID} {token : String} {log : List AuthEntry} {x : AuthEntry}

theorem Regular.init (h : Regular svc (log ++ [x])) : Regular svc log := by
  have hmem : ∀ {y}, y ∈ log → y ∈ log ++ [x] := mem_append_left _
  refine ⟨fun y hy => h.succeeds y (hmem hy), ?_, ?_, fun y hy z hz => h.hashes y (hmem hy) z (hmem hz)⟩
  · have := h.clock
    rw [readings, flatMap_append] at this
    exact (pairwise_append.mp this).1
  · have := h.jtis
    rw [madeJtis, flatMap_append] at this
    exact (nodup_append.mp this).1

theorem Regular.fresh (h : Regular svc (log ++ [x])) {jti} (hmade : (view x).made = [jti]) :
    jti ∉ madeJtis log := by
  have := h.jtis
  rw [madeJtis, flatMap_append, nodup_append] at this
  exact fun hmem => this.2.2 jti hmem jti (by simp [hmade]) rfl

theorem mem_tokensOf_of_issued (h : Issued token x) : token ∈ tokensOf x := by
  obtain ⟨pair, hresult, rfl⟩ := h
  simp [tokensOf, hresult]

theorem Live.mem_tokensOf (h : Live svc u token log) : ∃ y ∈ log, token ∈ tokensOf y := by
  obtain ⟨front, entry, back, rfl, hissued, _⟩ := h.issued
  exact ⟨entry, by simp, mem_tokensOf_of_issued hissued⟩

end

/-! ## Calls -/

/-- The sessions stored for each user are the book of their live tokens. -/
structure RotationInv (svc : AuthService) (s : AuthSerial) : Prop where
  books : ∀ u sessions, s.shared.sessions u = some sessions → Book svc u sessions.tokenVersion (madeJtis s.log)
    (readings s.log) (fun token => Live svc u token s.log) sessions.refreshTokens
  users : ∀ u token, Live svc u token s.log → u.isZero = false ∧ ∃ sessions, s.shared.sessions u = some sessions
  spent : ∀ x ∈ s.log, ∀ token, Exchanged token x ∨ LoggedOut token x →
    ∃ claims, svc.jwt.claims token = some claims ∧ claims.id ∈ madeJtis s.log

theorem RotationInv.start {svc d} (h : ∀ user ∈ d.users, user.refreshTokens = []) :
    RotationInv svc { shared := d } := by
  have hnone : ∀ u token, ¬Live svc u token [] := by
    rintro u token ⟨_, ⟨front, entry, back, hlog, _⟩, _⟩
    cases front <;> cases hlog
  refine ⟨fun u sessions hu => ?_, fun u token hlive => absurd hlive (hnone u token), fun x hx => by cases hx⟩
  obtain ⟨user, hmem, _, rfl⟩ := Directory.mem_of_sessions hu
  have hnil : user.sessions.refreshTokens = [] := h user hmem
  rw [hnil]
  exact Book.clear.mono (fun _ h => h) (fun _ h => h) fun token => ⟨False.elim, hnone u token⟩

section

variable {svc : AuthService} {s s' : AuthSerial} {x : AuthEntry} {before after : User}

/-- A JTI that is new is none of a token that was spent. -/
theorem RotationInv.unspent (h : RotationInv svc s) (hfresh : claims.id ∉ madeJtis s.log) :
    ∀ y ∈ s.log, ¬Exchanged (svc.jwt.sign claims) y ∧ ¬LoggedOut (svc.jwt.sign claims) y := by
  intro y hy
  have hspent : ¬(Exchanged (svc.jwt.sign claims) y ∨ LoggedOut (svc.jwt.sign claims) y) := by
    intro hspent
    obtain ⟨claims', hclaims, hmade⟩ := h.spent y hy _ hspent
    cases hclaims.symm.trans (svc.jwt.claims_sign claims)
    exact hfresh hmade
  exact not_or.mp hspent

theorem made_subset (hlog : s'.log = s.log ++ [x]) : madeJtis s.log ⊆ madeJtis s'.log := by
  rw [hlog, madeJtis, madeJtis, flatMap_append]
  exact subset_append_left _ _

theorem readings_subset (hlog : s'.log = s.log ++ [x]) : readings s.log ⊆ readings s'.log := by
  rw [hlog, readings, readings, flatMap_append]
  exact subset_append_left _ _

theorem mem_readings (hlog : s'.log = s.log ++ [x]) {t} (ht : t ∈ (view x).clock) : t ∈ readings s'.log := by
  rw [hlog, readings, flatMap_append, mem_append]
  exact .inr (by simpa using ht)

theorem made_eq (hlog : s'.log = s.log ++ [x]) {jti} (hmade : (view x).made = [jti]) :
    madeJtis s'.log = madeJtis s.log ++ [jti] := by
  rw [hlog, madeJtis, madeJtis, flatMap_append]
  simp [hmade]

theorem Issues.liveClaims {clock} (h : Issues svc clock claims before after) {clock'}
    (hclock : clock ⊆ clock') : LiveClaims before.id before.tokenVersion clock' claims := by
  obtain ⟨expiresAt, issuedAt, notBefore, hmem, hclaims⟩ := h.claims_eq
  refine ⟨?_, h.jti, ?_, ?_, notBefore, hclock hmem, ?_⟩
  · rw [hclaims]
    rfl
  · rw [hclaims]
    exact objectIDFromHex_hex before.id
  · rw [hclaims]
    rfl
  · rw [hclaims]
    rfl

variable (h : RotationInv svc s) (hlog : s'.log = s.log ++ [x])
include h hlog

/-- A call that spends, issues and ends no token, and leaves the sessions. -/
theorem RotationInv.quiet (hsessions : ∀ u, s'.shared.sessions u = s.shared.sessions u)
    (hissued : ∀ token, ¬Issued token x) (hspent : ∀ token, ¬(Exchanged token x ∨ LoggedOut token x))
    (hall : ∀ u, ¬LoggedOutAll u x) : RotationInv svc s' := by
  have hlive : ∀ u token, Live svc u token s.log ↔ Live svc u token s'.log := by
    intro u token
    have hx := not_or.mp (hspent token)
    rw [hlog, live_snoc]
    exact ⟨fun hold => .inl ⟨hold, hx.1, hx.2, hall u⟩, fun hnew =>
      hnew.elim (fun hold => hold.1) fun hnew => absurd hnew.2.1 (hissued token)⟩
  refine ⟨fun u sessions hu => ?_, fun u token hu => ?_, fun y hy token hspends => ?_⟩
  · exact (h.books u sessions (hsessions u ▸ hu)).mono (made_subset hlog) (readings_subset hlog) (hlive u)
  · obtain ⟨hzero, sessions, hstored⟩ := h.users u token ((hlive u token).mpr hu)
    exact ⟨hzero, sessions, (hsessions u).trans hstored⟩
  · rw [hlog, mem_append, mem_singleton] at hy
    rcases hy with hy | rfl
    · obtain ⟨claims, hclaims, hmade⟩ := h.spent y hy token hspends
      exact ⟨claims, hclaims, made_subset hlog hmade⟩
    · exact absurd hspends (hspent token)

/-- A call that is about one user, whose document it replaces. -/
theorem RotationInv.replaced (hreplaces : Replaces s.shared s'.shared before after)
    (huser : ∀ token, Issued token x ∨ Exchanged token x ∨ LoggedOut token x → svc.tokenUser token = some before.id)
    (hall : ∀ u, LoggedOutAll u x → u = before.id)
    (hbook : Book svc before.id after.tokenVersion (madeJtis s'.log) (readings s'.log)
      (fun token => Live svc before.id token s'.log) after.refreshTokens)
    (hzero : ∀ token, Live svc before.id token s'.log → before.id.isZero = false)
    (hspent : ∀ token, Exchanged token x ∨ LoggedOut token x →
      ∃ claims, svc.jwt.claims token = some claims ∧ claims.id ∈ madeJtis s'.log) : RotationInv svc s' := by
  -- The tokens of another user are as they were.
  have hother : ∀ u token, u ≠ before.id → (Live svc u token s.log ↔ Live svc u token s'.log) := by
    intro u token hne
    rw [hlog, live_snoc]
    refine ⟨fun hlive => .inl ⟨hlive, fun hx => ?_, fun hx => ?_, fun hx => hne (hall u hx)⟩, fun hnew => ?_⟩
    · exact hne (Option.some.inj (hlive.user.symm.trans (huser token (.inr (.inl hx)))))
    · exact hne (Option.some.inj (hlive.user.symm.trans (huser token (.inr (.inr hx)))))
    · rcases hnew with ⟨hlive, _⟩ | ⟨hu, hissued, _⟩
      · exact hlive
      · exact absurd (Option.some.inj (hu.symm.trans (huser token (.inl hissued)))) hne
  refine ⟨fun u sessions hu => ?_, fun u token hu => ?_, fun y hy token hspends => ?_⟩
  · rw [hreplaces.sessions] at hu
    split at hu
    · rename_i hid
      subst hid
      cases hu
      exact hbook
    · rename_i hne
      exact (h.books u sessions hu).mono (made_subset hlog) (readings_subset hlog) fun token => hother u token hne
  · rw [hreplaces.sessions]
    split
    · rename_i hid
      subst hid
      exact ⟨hzero token hu, _, rfl⟩
    · rename_i hne
      exact h.users u token ((hother u token hne).mpr hu)
  · rw [hlog, mem_append, mem_singleton] at hy
    rcases hy with hy | rfl
    · obtain ⟨claims, hclaims, hmade⟩ := h.spent y hy token hspends
      exact ⟨claims, hclaims, made_subset hlog hmade⟩
    · exact hspent token hspends

/-- The book of the user before the call, with the clock read on. -/
theorem RotationInv.book (hmem : before ∈ s.shared.users) :
    Book svc before.id before.tokenVersion (madeJtis s.log) (readings s'.log)
      (fun token => Live svc before.id token s.log) before.refreshTokens :=
  (h.books before.id before.sessions (Directory.sessions_of_mem hmem)).mono (fun _ h => h) (readings_subset hlog)
    fun _ => Iff.rfl

/-- The end of `Login` and `RefreshToken`: from the book of what the call has not
spent, the book with the new token. -/
theorem RotationInv.issues (hregular : Regular svc s'.log) {between pair} (hresult : x.result = .ok (.pair pair))
    (hmade : (view x).made = [claims.id]) (hpair : IssuesPair svc (view x).clock pair claims between after)
    (hid : between.id = before.id) (hzero : after.id.isZero = false)
    (hreplaces : Replaces s.shared s'.shared before after)
    (hbook : Book svc between.id between.tokenVersion (madeJtis s.log) (readings s'.log)
      (fun token => Live svc before.id token s.log ∧ ¬(Exchanged token x ∨ LoggedOut token x)) between.refreshTokens)
    (hspent : ∀ token, Exchanged token x ∨ LoggedOut token x → svc.tokenUser token = some before.id ∧
      ∃ claims, svc.jwt.claims token = some claims ∧ claims.id ∈ madeJtis s.log) :
    RotationInv svc s' := by
  have hissues := hpair.issues
  have hclock : (view x).clock ⊆ readings s'.log := fun t ht => mem_readings hlog ht
  have hclaims := hissues.liveClaims hclock
  have hfresh := (hlog ▸ hregular).fresh hmade
  have huser : svc.tokenUser (svc.jwt.sign claims) = some before.id :=
    hid ▸ tokenUser_eq (svc.jwt.claims_sign claims) hclaims.uid
  have hissued : ∀ token, Issued token x ↔ token = svc.jwt.sign claims := by
    intro token
    refine ⟨fun ⟨pair', hresult', hrefresh⟩ => ?_, fun htoken => ⟨pair, hresult, hpair.refresh.trans htoken.symm⟩⟩
    cases hresult.symm.trans hresult'
    exact hrefresh.symm.trans hpair.refresh
  have hall : ∀ u, ¬LoggedOutAll u x := by
    rintro u ⟨_, _, _, hdone⟩
    cases hresult.symm.trans hdone
  have hlive : ∀ token, ((Live svc before.id token s.log ∧ ¬(Exchanged token x ∨ LoggedOut token x)) ∨
      token = svc.jwt.sign claims) ↔ Live svc before.id token s'.log := by
    intro token
    rw [hlog, live_snoc, hissued]
    refine ⟨fun hold => ?_, fun hnew => ?_⟩
    · rcases hold with ⟨hold, hkept⟩ | rfl
      · exact .inl ⟨hold, (not_or.mp hkept).1, (not_or.mp hkept).2, hall _⟩
      · refine .inr ⟨huser, rfl, fun y hy => ?_⟩
        rw [mem_append, mem_singleton] at hy
        rcases hy with hy | rfl
        · exact h.unspent hfresh y hy
        · refine not_or.mp fun hspends => ?_
          obtain ⟨_, claims', hclaims', hmem⟩ := hspent _ hspends
          cases hclaims'.symm.trans (svc.jwt.claims_sign claims)
          exact hfresh hmem
    · rcases hnew with ⟨hold, hexchanged, hloggedOut, _⟩ | ⟨_, rfl, _⟩
      · exact .inl ⟨hold, not_or.mpr ⟨hexchanged, hloggedOut⟩⟩
      · exact .inr rfl
  obtain ⟨now, hnow, hafter⟩ := hissues.refreshTokens
  refine h.replaced hlog hreplaces (fun token htoken => ?_) (fun u hu => absurd hu (hall u)) ?_
    (fun _ _ => by rw [← hid, ← hissues.id, hzero]) (fun token hspends => ?_)
  · rcases htoken with htoken | hspends
    · rw [(hissued token).mp htoken]
      exact huser
    · exact (hspent token hspends).1
  · rw [hafter, hissues.tokenVersion, made_eq hlog hmade, ← hid]
    exact ((hbook.prune (hclock hnow)).issue hclaims hfresh).mono (fun _ h => h) (fun _ h => h)
      fun token => by rw [hid]; exact hlive token
  · obtain ⟨_, claims', hclaims', hmem⟩ := hspent token hspends
    exact ⟨claims', hclaims', made_subset hlog hmem⟩

/-- The token of a session that is found and revoked. -/
theorem RotationInv.revokes (hregular : Regular svc s'.log) (hmem : before ∈ s.shared.users) {token sessions' found}
    (htoken : TokenOf svc token claims before) (hrevokes : RevokesOne claims.id before.refreshTokens sessions')
    (hfound : found ∈ before.refreshTokens) (hjti : found.jti = claims.id)
    (hhash : found.tokenHash = svc.hashToken token) (hpresented : token ∈ tokensOf x) :
    Book svc before.id before.tokenVersion (madeJtis s.log) (readings s'.log)
        (fun other => Live svc before.id other s.log ∧ other ≠ token) sessions' ∧
      svc.tokenUser token = some before.id ∧ claims.id ∈ madeJtis s.log := by
  have hbook := h.book hlog hmem
  refine ⟨hbook.revoke htoken.claims_eq hrevokes hfound hjti hhash fun other hlive hsame => ?_,
    tokenUser_eq htoken.claims_eq htoken.uid, hjti ▸ hbook.known found hfound⟩
  obtain ⟨y, hy, hother⟩ := hlive.mem_tokensOf
  rw [hlog] at hregular
  exact hregular.hashes y (mem_append_left _ hy) x (by simp) other hother token hpresented hsame

theorem RotationInv.login (hregular : Regular svc s'.log) {username password} (hop : x.op = .login username password)
    {pair} (hresult : x.result = .ok (.pair pair)) (hmade : (view x).made = [claims.id])
    (hpair : IssuesPair svc (view x).clock pair claims before after) (hzero : after.id.isZero = false)
    (hreplaces : Replaces s.shared s'.shared before after) : RotationInv svc s' := by
  have hnone : ∀ token, ¬(Exchanged token x ∨ LoggedOut token x) := by
    intro token
    simp [Exchanged, LoggedOut, hop]
  refine h.issues hlog hregular hresult hmade hpair rfl hzero hreplaces ?_ fun token hspends => absurd hspends (hnone token)
  exact (h.book hlog hreplaces.mem).mono (fun _ h => h) (fun _ h => h) fun token => by simp [hnone token]

theorem RotationInv.refreshToken (hregular : Regular svc s'.log) {token} (hop : x.op = .refreshToken token) {pair}
    (hresult : x.result = .ok (.pair pair)) {between old} (hmade : (view x).made = [claims.id])
    (hexchanges : Exchanges svc (view x).clock token old before between)
    (hpair : IssuesPair svc (view x).clock pair claims between after) (hzero : after.id.isZero = false)
    (hreplaces : Replaces s.shared s'.shared before after) : RotationInv svc s' := by
  have hspent : ∀ other, (Exchanged other x ∨ LoggedOut other x) ↔ other = token := by
    intro other
    simp [Exchanged, LoggedOut, hop, hresult, eq_comm]
  obtain ⟨_, _, _, _, _, hexchange⟩ := hexchanges.refreshTokens
  obtain ⟨hrevokes, found, hfound, hjti, _, _, hhash⟩ := exchange_ok hexchange
  obtain ⟨hbook, huser, hknown⟩ := h.revokes hlog hregular hreplaces.mem hexchanges.tokenOf hrevokes hfound hjti hhash
    (by simp [tokensOf, hop])
  refine h.issues hlog hregular hresult hmade hpair hexchanges.id hzero hreplaces ?_ fun other hspends => ?_
  · rw [hexchanges.id, hexchanges.tokenVersion]
    exact hbook.mono (fun _ h => h) (fun _ h => h) fun other => by rw [hspent]
  · rw [(hspent other).mp hspends]
    exact ⟨huser, old, hexchanges.tokenOf.claims_eq, hknown⟩

theorem RotationInv.logout (hregular : Regular svc s'.log) {token} (hop : x.op = .logout token)
    (hresult : x.result = .ok .done) (hrevokes : Revokes svc token claims before after)
    (hreplaces : Replaces s.shared s'.shared before after) :
    RotationInv svc s' := by
  have hspent : ∀ other, (Exchanged other x ∨ LoggedOut other x) ↔ other = token := by
    intro other
    simp [Exchanged, LoggedOut, hop, hresult, eq_comm]
  have hissued : ∀ other, ¬Issued other x := by
    intro other
    simp [Issued, hresult]
  have hall : ∀ u, ¬LoggedOutAll u x := by
    intro u
    simp [LoggedOutAll, hop]
  have hlive : ∀ other, (Live svc before.id other s.log ∧ other ≠ token) ↔ Live svc before.id other s'.log := by
    intro other
    rw [hlog, live_snoc, ne_eq, ← hspent other, not_or]
    simp [hissued other, hall]
  obtain ⟨hone, found, hfound, hjti, hhash⟩ := revoke_ok hrevokes.refreshTokens
  obtain ⟨hbook, huser, hknown⟩ := h.revokes hlog hregular hreplaces.mem hrevokes.tokenOf hone hfound hjti hhash
    (by simp [tokensOf, hop])
  refine h.replaced hlog hreplaces (fun other hother => ?_) (fun u hu => absurd hu (hall u)) ?_
    (fun other hother => (h.users _ other ((hlive other).mpr hother).1).1) (fun other hspends => ?_)
  · rcases hother with hother | hspends
    · exact absurd hother (hissued other)
    · rw [(hspent other).mp hspends]
      exact huser
  · rw [hrevokes.tokenVersion]
    exact hbook.mono (made_subset hlog) (fun _ h => h) hlive
  · rw [(hspent other).mp hspends]
    exact ⟨claims, hrevokes.tokenOf.claims_eq, made_subset hlog hknown⟩

theorem RotationInv.logoutAll {userClaims} (hop : x.op = .logoutAll userClaims) (hresult : x.result = .ok .done)
    (hclears : Clears userClaims before after)
    (hreplaces : Replaces s.shared s'.shared before after) : RotationInv svc s' := by
  have hnone : ∀ token, ¬(Issued token x ∨ Exchanged token x ∨ LoggedOut token x) := by
    intro token
    simp [Issued, Exchanged, LoggedOut, hop, hresult]
  have hall : ∀ u, LoggedOutAll u x ↔ u = before.id := by
    intro u
    simp [LoggedOutAll, hop, hresult, hclears.uid, eq_comm]
  have hdead : ∀ token, ¬Live svc before.id token s'.log := by
    intro token
    have hissued := (not_or.mp (hnone token)).1
    rw [hlog, live_snoc]
    simp [hissued, hall]
  refine h.replaced hlog hreplaces (fun token htoken => absurd htoken (hnone token)) (fun u hu => (hall u).mp hu) ?_
    (fun token hlive => absurd hlive (hdead token)) (fun token hspends => absurd (.inr hspends) (hnone token))
  rw [hclears.refreshTokens]
  exact Book.clear.mono (fun _ h => h) (fun _ h => h) fun token => ⟨False.elim, hdead token⟩

/-- The operations that only keep. -/
theorem RotationInv.keeps (hresult : x.result = .ok .done)
    (hlogout : ∀ token, x.op ≠ .logout token) (hlogoutAll : ∀ userClaims, x.op ≠ .logoutAll userClaims)
    (hkeeps : Keeps before after) (hreplaces : Replaces s.shared s'.shared before after) : RotationInv svc s' := by
  have hsessions : ∀ u, s'.shared.sessions u = s.shared.sessions u := by
    intro u
    rw [hreplaces.sessions]
    split
    · rename_i hid
      rw [hid, Directory.sessions_of_mem hreplaces.mem, User.sessions, User.sessions, hkeeps.tokenVersion,
        hkeeps.refreshTokens]
    · rfl
  refine h.quiet hlog hsessions (fun token => ?_) (fun token => ?_) (fun u => ?_)
  · simp [Issued, hresult]
  · simp [Exchanged, LoggedOut, hresult, hlogout]
  · simp [LoggedOutAll, hlogoutAll]

omit hlog in
/-- **Every call without failures keeps the books.** -/
theorem RotationInv.step {op env} (hs : (authSerial svc).step s (op, env) = some s')
    (hregular : Regular svc s'.log) : RotationInv svc s' := by
  obtain ⟨x, hlog, _, hop, hcases⟩ := call_cases hs
  subst hop
  rcases hcases with ⟨err, hresult, hrefused⟩ | ⟨result, hresult, hheld, hwrites, hreturns⟩
  · obtain ⟨_, hsame, _⟩ := hrefused (hregular.succeeds x (by simp [hlog]))
    refine h.quiet hlog (fun u => by rw [hsame]) (fun token => ?_) (fun token => ?_) (fun u => ?_)
    · simp [Issued, hresult]
    · simp [Exchanged, LoggedOut, hresult]
    · simp [LoggedOutAll, hresult]
  generalize hop : x.op = op at hreturns hwrites
  cases op with
  | login username password =>
    match result, hreturns with
    | .pair pair, ⟨before, after, claims, hdocs, hmade, _, hpair, hzero⟩ =>
      exact h.login hlog hregular hop hresult hmade hpair hzero
        (hheld.replaces hpair.issues.id (by simp [hdocs]) (by simp [hdocs]))
  | refreshToken token =>
    match result, hreturns with
    | .pair pair, ⟨before, between, after, old, claims, hdocs, hmade, hexchanges, hpair, hzero⟩ =>
      exact h.refreshToken hlog hregular hop hresult hmade hexchanges hpair hzero
        (hheld.replaces (hpair.issues.id.trans hexchanges.id) (by simp [hdocs]) (by simp [hdocs]))
  | logout token =>
    match result, hreturns with
    | .done, ⟨before, after, claims, hdocs, hrevokes⟩ =>
      exact h.logout hlog hregular hop hresult hrevokes
        (hheld.replaces hrevokes.id (by simp [hdocs]) (by simp [hdocs]))
  | logoutAll userClaims =>
    match result, hreturns with
    | .done, ⟨before, after, hdocs, hclears⟩ =>
      exact h.logoutAll hlog hop hresult hclears (hheld.replaces hclears.id (by simp [hdocs]) (by simp [hdocs]))
  | verifyJWTToken token permissionKey =>
    match result, hreturns with
    | .verified claims policy, _ =>
      refine h.quiet hlog (fun u => by rw [hheld.unwritten hwrites]) (fun _ => ?_) (fun _ => ?_) (fun _ => ?_)
      · simp [Issued, hresult]
      · simp [Exchanged, LoggedOut, hresult]
      · simp [LoggedOutAll, hresult]
  | _ =>
    match result, hreturns with
    | .done, ⟨before, after, hdocs, hkeep⟩ =>
      exact h.keeps hlog hresult (by simp [hop]) (by simp [hop]) hkeep
        (hheld.replaces hkeep.id (by simp [hdocs]) (by simp [hdocs]))

end

/-! ## Runs -/

theorem RotationInv.exec {svc d} (hd : ∀ user ∈ d.users, user.refreshTokens = []) {es s}
    (he : (authSerial svc).exec { shared := d } es = some s) (hregular : Regular svc s.log) : RotationInv svc s := by
  refine Machine.history (m := authSerial svc) (I := fun _ s => Regular svc s.log → RotationInv svc s)
    (fun _ => RotationInv.start hd) (fun {es s e s'} _ ih hs hregular => ?_) he hregular
  obtain ⟨x, hlog, _⟩ := call_cases hs
  rw [hlog] at hregular
  exact (ih hregular.init).step hs (hlog ▸ hregular)

section

variable {jti tokenHash : String} {now : Time} {sessions : List RefreshSession}

/-- A session that is there is found. -/
theorem exchange_found {session} (hnodup : (jtis sessions).Nodup) (hmem : session ∈ sessions)
    (hlive : session.revoked = false) (hexpired : session.isExpired now = false) :
    ∃ sessions', exchange session.jti session.tokenHash now sessions = .ok sessions' := by
  induction sessions with
  | nil => cases hmem
  | cons first rest ih =>
    rw [jtis, map_cons, nodup_cons] at hnodup
    unfold exchange
    rcases mem_cons.mp hmem with rfl | hmem
    · simp [hlive, hexpired]
    · have hne : first.jti ≠ session.jti := fun he => hnodup.1 (he ▸ mem_map_of_mem hmem)
      obtain ⟨sessions', hrest⟩ := ih hnodup.2 hmem
      rw [if_pos hne, hrest]
      exact ⟨_, rfl⟩

theorem isExpired_iff {session : RefreshSession} (hpos : 0 < session.expiresAt) :
    session.isExpired now = true ↔ session.expiresAt * second ≤ now := by
  have hunix : session.expiresAt ≤ Time.unix now ↔ session.expiresAt * second ≤ now :=
    Nat.le_div_iff_mul_le (by decide)
  simp [RefreshSession.isExpired, hpos, hunix]

end

section

variable {svc : AuthService} {s s' : AuthSerial} {x : AuthEntry} {token : String}

/-- A token that is exchanged was live, and not expired. -/
theorem RotationInv.live_of_exchanges (h : RotationInv svc s) (hlog : s'.log = s.log ++ [x])
    (hregular : Regular svc s'.log) (hop : x.op = .refreshToken token) {before between} (hmem : before ∈ s.shared.users)
    (hexchanges : Exchanges svc (view x).clock token claims before between) :
    Live svc before.id token s.log ∧ ∀ t ∈ (view x).clock.take 2, t < claims.expiresAt * second := by
  obtain ⟨parsed, checked, rest, hclock, hvalid, hexchange⟩ := hexchanges.refreshTokens
  obtain ⟨_, found, hfound, _, hrevoked, hexpired, hhash⟩ := exchange_ok hexchange
  obtain ⟨claims', rfl, hlive⟩ := (h.book hlog hmem).unrevoked found hfound hrevoked
  have htoken : svc.jwt.sign claims' = token := by
    obtain ⟨y, hy, hissued⟩ := hlive.mem_tokensOf
    rw [hlog] at hregular
    exact hregular.hashes y (mem_append_left _ hy) x (by simp) _ hissued token (by simp [tokensOf, hop]) hhash
  have hsame : claims' = claims :=
    Option.some.inj ((svc.jwt.claims_sign claims').symm.trans (htoken ▸ hexchanges.tokenOf.claims_eq))
  subst hsame
  refine ⟨htoken ▸ hlive, fun t ht => ?_⟩
  simp only [validAt, Bool.and_eq_true, decide_eq_true_eq] at hvalid
  have hpos : 0 < (sessionOf svc claims').expiresAt := by
    have hlt := hvalid.1
    show 0 < claims'.expiresAt
    by_contra hzero
    simp [Nat.eq_zero_of_not_pos hzero] at hlt
  have hchecked : checked < claims'.expiresAt * second := by
    by_contra hle
    rw [(isExpired_iff hpos).mpr (Nat.le_of_not_lt hle)] at hexpired
    cases hexpired
  rw [hclock] at ht
  simp only [take_succ_cons, take_zero, mem_cons, not_mem_nil, or_false] at ht
  rcases ht with rfl | rfl
  · exact hvalid.1
  · exact hchecked

/-- No earlier reading is later than one of this call. -/
theorem Regular.le (h : Regular svc (s.log ++ [x])) {t t'} (ht : t ∈ readings s.log) (ht' : t' ∈ (view x).clock) :
    t ≤ t' := by
  have hclock := h.clock
  rw [readings, flatMap_append, pairwise_append] at hclock
  exact hclock.2.2 t ht t' (by simpa using ht')

/-- A live token that has not expired is not refused. -/
theorem RotationInv.not_refuses (h : RotationInv svc s) (hregular : Regular svc (s.log ++ [x])) {u}
    (hlive : Live svc u token s.log) {d} (hheld : Held s.shared (view x) d)
    (hexpiry : ∀ claims, svc.jwt.claims token = some claims →
      ∀ t ∈ (view x).clock.take 2, t < claims.expiresAt * second) :
    ¬(AuthOp.refreshToken token).Refuses svc (view x) := by
  intro hrefuses
  obtain ⟨hzero, sessions, hstored⟩ := h.users u token hlive
  have hbook := h.books u sessions hstored
  obtain ⟨claims, rfl, hclaims, hkept⟩ := hbook.kept token hlive
  have hclaims_eq := svc.jwt.claims_sign claims
  have hexpiry := hexpiry claims hclaims_eq
  obtain ⟨parsed, hparsed, hwhy⟩ := hrefuses claims u hclaims_eq hclaims.tokenType hclaims.jti hclaims.uid
  obtain ⟨rest, hclock⟩ : ∃ rest, (view x).clock = parsed :: rest := head?_eq_some_iff.mp hparsed
  have hvalid : validAt claims parsed = true := by
    have hafter := hexpiry parsed (by simp [hclock])
    obtain ⟨t, ht, hnotBefore⟩ := hclaims.notBefore
    have hle : t ≤ parsed := hregular.le ht (by simp [hclock])
    have hunix : Time.unix t * second ≤ t := Nat.div_mul_le_self t second
    simp only [validAt, hnotBefore, Bool.and_eq_true, decide_eq_true_eq]
    exact ⟨hafter, Nat.le_trans hunix hle⟩
  rcases hwhy hvalid with hmissed | ⟨user, hdocs, hid, hwhy⟩
  · -- The user is there.
    obtain ⟨user, hmem, hid, _⟩ := Directory.mem_of_sessions hstored
    have := hheld.missed _ hmissed user hmem
    simp [QueryUserOptions.selects, hid] at this
  have hmem : user ∈ s.shared.users := hheld.first user (by simp [hdocs])
  have hsessions : sessions = user.sessions :=
    Option.some.inj (hstored.symm.trans (hid ▸ Directory.sessions_of_mem hmem))
  subst hsessions
  rcases hwhy with hversion | hid' | ⟨checked, rest', err, hclock', hexchange⟩
  · exact hversion hclaims.version.symm
  · rw [hzero] at hid'
    cases hid'
  · have hchecked := hexpiry checked (by simp [hclock'])
    have hpos : 0 < (sessionOf svc claims).expiresAt := by
      show 0 < claims.expiresAt
      by_contra hnot
      simp [Nat.eq_zero_of_not_pos hnot] at hchecked
    have hunexpired : ∀ t, t ≤ checked → (sessionOf svc claims).isExpired t = false := by
      intro t ht
      rw [Bool.eq_false_iff, ne_eq, isExpired_iff hpos]
      exact Nat.not_le.mpr (Nat.lt_of_le_of_lt ht hchecked)
    rcases hkept with hsession | ⟨t, ht, hexpired⟩
    · obtain ⟨sessions', hok⟩ := exchange_found hbook.nodup hsession rfl (hunexpired checked (Nat.le_refl _))
      cases hexchange.symm.trans hok
    · rw [hunexpired t (hregular.le ht (by simp [hclock']))] at hexpired
      cases hexpired

end

/-- **`RefreshToken` succeeds exactly for live tokens that have not expired**, when
calls do not overlap. The call looks at the expiry twice, at its first two
readings of the clock. -/
theorem refreshToken_rotation (svc : AuthService) (d : Directory) (hd : ∀ user ∈ d.users, user.refreshTokens = [])
    (es : List (AuthOp × (Nat → AuthChoice))) (s₁ s₂ : AuthSerial)
    (h₁ : (authSerial svc).exec { shared := d } es = some s₁) (token : String) (u : ObjectID)
    (hu : svc.tokenUser token = some u) (env : Nat → AuthChoice)
    (h₂ : (authSerial svc).step s₁ (.refreshToken token, env) = some s₂) (entry : AuthEntry)
    (hlog : s₂.log = s₁.log ++ [entry]) (hregular : Regular svc s₂.log) :
    (∃ pair, entry.result = .ok (.pair pair)) ↔ Live svc u token s₁.log ∧
      ∀ claims, svc.jwt.claims token = some claims →
        ∀ t ∈ (view entry).clock.take 2, t < claims.expiresAt * second := by
  have hinit : Regular svc s₁.log := (hlog ▸ hregular).init
  have hinv := RotationInv.exec hd h₁ hinit
  obtain ⟨x, hlog', _, hop, hcases⟩ := call_cases h₂
  obtain ⟨_, hx⟩ := append_inj' (hlog.symm.trans hlog') rfl
  cases hx
  constructor
  · rintro ⟨pair, hresult⟩
    rcases hcases with ⟨err, herror, _⟩ | ⟨result, hresult', hheld, _, hreturns⟩
    · cases hresult.symm.trans herror
    cases hresult.symm.trans hresult'
    obtain ⟨before, between, after, claims, _, hdocs, _, hexchanges, _⟩ := hreturns
    obtain ⟨hlive, hexpiry⟩ := hinv.live_of_exchanges hlog hregular hop (hheld.first before (by simp [hdocs])) hexchanges
    have hclaims := hexchanges.tokenOf.claims_eq
    have hid : before.id = u := Option.some.inj ((tokenUser_eq hclaims hexchanges.tokenOf.uid).symm.trans hu)
    refine ⟨hid ▸ hlive, fun claims' hclaims' => ?_⟩
    cases hclaims.symm.trans hclaims'
    exact hexpiry
  · rintro ⟨hlive, hexpiry⟩
    rcases hcases with ⟨err, _, hrefused⟩ | ⟨result, hresult, _, _, hreturns⟩
    · obtain ⟨hheld, _, hrefuses⟩ := hrefused (hregular.succeeds entry (by simp [hlog]))
      exact absurd hrefuses (hinv.not_refuses (hlog ▸ hregular) hlive hheld hexpiry)
    · match result, hreturns with
      | .pair pair, _ => exact ⟨pair, hresult⟩

/-- What the environment decides for a call that makes this JTI. -/
def makes (xid : Xid) : Nat → AuthChoice := fun _ => { xid := xid }

def loginCall : AuthOp × (Nat → AuthChoice) := (.login "user" "secret", makes .a)

def refreshCall : AuthOp × (Nat → AuthChoice) := (.refreshToken "##", makes .b)

theorem refreshToken_rotation_login :
    ∃ s, (authSerial oneUser.service).exec { shared := oneUser.directory } [loginCall] = some s ∧
      Live oneUser.service oneUser.id "##" s.log := by
  obtain ⟨s₂, h₂, hregular, hlast⟩ : ∃ s, (authSerial oneUser.service).exec { shared := oneUser.directory }
      ([loginCall] ++ [refreshCall]) = some s ∧ Regular oneUser.service s.log ∧
      s.log.getLast?.map Entry.result = some (.ok (.pair ⟨"#", "###"⟩)) := Machine.exists_exec (by decide +kernel)
  obtain ⟨s₁, h₁, hrest⟩ := Machine.exec_append h₂
  obtain ⟨_, hs, hnil⟩ := Machine.exec_cons hrest
  cases hnil
  obtain ⟨entry, hlog, _⟩ := call_cases hs
  have hresult : entry.result = .ok (.pair ⟨"#", "###"⟩) := by simpa [hlog] using hlast
  have hiff := refreshToken_rotation oneUser.service oneUser.directory (by decide) [loginCall] s₁ s₂ h₁ "##" oneUser.id
    (by decide +kernel) (makes .b) hs entry hlog hregular
  exact ⟨s₁, h₁, (hiff.mp ⟨_, hresult⟩).1⟩

end Gthulhu.Manager
