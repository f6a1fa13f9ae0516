/-
Operations on users side by side. An operation works on its own copy of the
document; the copy is the stored document as long as no other operation has
replaced that since, `current`. A `ReplaceOne` made then is one step from the
document stored before to the one after, by `AuthOp.Writes`
(`AuthInv.write`); one made later undoes what came between.
-/
import Gthulhu.Manager.AuthFacts
import Gthulhu.Lib.Delimited

namespace Gthulhu.Manager

open Lib AuthService List

/-! ## What is stored -/

/-- What of a user document the tokens rest on. -/
structure Sessions where
  tokenVersion : Int64
  refreshTokens : List RefreshSession
  deriving DecidableEq

def User.sessions (user : User) : Sessions := ⟨user.tokenVersion, user.refreshTokens⟩

namespace Directory

def sessions (d : Directory) (u : ObjectID) : Option Sessions :=
  (d.users.find? fun user => user.id = u).map User.sessions

theorem find_of_mem {d : Directory} {user} (h : user ∈ d.users) :
    d.users.find? (fun other => other.id = user.id) = some user := by
  cases hf : d.users.find? (fun other => other.id = user.id) with
  | none => exact absurd (find?_eq_none.mp hf user h) (by simp)
  | some other =>
    have hid : other.id = user.id := by simpa using find?_some hf
    rw [inj_on_of_nodup_map d.nodup (mem_of_find?_eq_some hf) h hid]

theorem sessions_of_mem {d : Directory} {user} (h : user ∈ d.users) :
    d.sessions user.id = some user.sessions := by
  rw [sessions, find_of_mem h]
  rfl

theorem mem_of_sessions {d : Directory} {u S} (h : d.sessions u = some S) :
    ∃ user ∈ d.users, user.id = u ∧ user.sessions = S := by
  obtain ⟨user, hf, rfl⟩ := Option.map_eq_some_iff.mp h
  exact ⟨user, mem_of_find?_eq_some hf, by simpa using find?_some hf, rfl⟩

variable {svc : AuthService} {choice : AuthChoice} {d d' : Directory}

theorem replace_sessions (passwords : Passwords) (salt : List UInt8) (user : User) :
    ((d.replace passwords salt user).1 ≠ .ok true ∧ (d.replace passwords salt user).2 = d) ∨
      ∀ u, (d.replace passwords salt user).2.sessions u = if u = user.id then some user.sessions else d.sessions u := by
  unfold replace
  split
  · exact .inl ⟨by simp, rfl⟩
  split
  · rename_i hmem
    refine .inr fun u => ?_
    simp only [sessions, find?_map]
    -- Ids stay where they are, so the same place is found.
    have hpred : ((fun other : User => decide (other.id = u)) ∘ fun other : User => if other.id = user.id then
        { user with password := passwords.marshal salt user.password } else other) =
        fun other => decide (other.id = u) := by
      funext other
      simp only [Function.comp_apply]
      split
      · rename_i h
        rw [h]
      · rfl
    rw [hpred]
    cases hf : d.users.find? (fun other => decide (other.id = u)) with
    | none =>
      rw [if_neg]
      · rfl
      · rintro rfl
        obtain ⟨other, hother, hid⟩ := mem_map.mp hmem
        exact absurd (find?_eq_none.mp hf other hother) (by simp [hid])
    | some other =>
      have hid : other.id = u := by simpa using find?_some hf
      simp only [Option.map_some, hid]
      split <;> rfl
  · exact .inl ⟨by simp, rfl⟩

/-- A `ReplaceOne` does nothing and says so, or stores the document. -/
theorem answer_replaceUser {user r} (h : d.answer svc choice (.replaceUser user) = (r, d')) :
    (r ≠ .ok true ∧ d' = d) ∨ ∀ u, d'.sessions u = if u = user.id then some user.sessions else d.sessions u := by
  have hreplace := replace_sessions (d := d) svc.passwords choice.salt user
  unfold answer at h
  cases hout : choice.outcome with
  | ok =>
    simp only [hout, Outcome.write] at h
    rwa [h] at hreplace
  | refused =>
    simp only [hout, Outcome.write, Prod.mk.injEq] at h
    exact .inl ⟨by rw [← h.1]; simp, h.2.symm⟩
  | lost =>
    simp only [hout, Outcome.write, Prod.mk.injEq] at h
    rw [h.2] at hreplace
    exact hreplace.imp_left fun hd => ⟨by rw [← h.1]; simp, hd.2⟩

theorem answer_replaced {user} (h : d.answer svc choice (.replaceUser user) = (.ok true, d')) :
    d'.sessions user.id = some user.sessions := by
  rcases answer_replaceUser h with ⟨hne, _⟩ | hd
  · exact absurd rfl hne
  · rw [hd, if_pos rfl]

theorem answer_other {call r} (h : d.answer svc choice call = (r, d'))
    (hcall : ∀ user, call ≠ .replaceUser user) : d' = d := by
  cases call with
  | replaceUser user => exact absurd rfl (hcall user)
  | _ => exact (Prod.mk.inj h).2.symm

theorem answer_found {opt user rest} (h : d.answer svc choice (.findUsers opt) = (.ok (user :: rest), d')) :
    d' = d ∧ d.sessions user.id = some user.sessions := by
  obtain ⟨h1, h2⟩ := Prod.mk.inj h
  have hmem : user ∈ reorder choice.order (d.users.filter opt.selects) := by simp [← Outcome.read_ok h1]
  exact ⟨h2.symm, sessions_of_mem (mem_filter.mp (mem_reorder.mp hmem)).1⟩

/-- Only a `ReplaceOne` for the user changes what is stored of them. -/
theorem answer_sessions {call r} (h : d.answer svc choice call = (r, d')) (u : ObjectID) :
    d'.sessions u = d.sessions u ∨
      ∃ user, call = .replaceUser user ∧ user.id = u ∧ d'.sessions u = some user.sessions := by
  cases call with
  | replaceUser user =>
    rcases answer_replaceUser h with ⟨_, rfl⟩ | hd
    · exact .inl rfl
    · rw [hd]
      split
      · rename_i hid
        exact .inr ⟨user, rfl, hid.symm, rfl⟩
      · exact .inl rfl
  | _ => exact .inl (by rw [answer_other h (fun _ hcall => by cases hcall)])

end Directory

/-! ## Copies and the stored document -/

def AuthCall.replaces (u : ObjectID) : AuthCall → Bool
  | .replaceUser user => user.id = u
  | _ => false

/-- Since operation `i` last read or replaced a document, no other has called
`ReplaceOne` for user `u`. -/
def current (u : ObjectID) (i : Nat) (trace : List (Nat × Prog.Event AuthCall.Resp)) : Bool :=
  trace.foldl (fun b e => if e.1 = i then b || e.2.1.touches else b && !e.2.1.replaces u) true

theorem current_append {u i k trace e} : current u i (trace ++ [(k, e)]) =
      if k = i then current u i trace || e.1.touches else current u i trace && !e.1.replaces u := by
  simp [current, foldl_append]

/-- What can be told from the calls of operation `i`. -/
def seen (s : AuthPool) (i : Nat) : AuthView := s.view AuthView.next {} i

variable {svc : AuthService} {s s' : AuthPool} {e : AuthEvent}

/-- What holds in every pool. -/
structure AuthInv (svc : AuthService) (s : AuthPool) : Prop where
  follows : s.Follows (Lawful svc) AuthView.next {} (AuthOp.Calls svc)
    fun op => Prog.Ends (op.Done svc) fun v _ => op.Fails svc v
  stored : ∀ i doc, (seen s i).docs.head? = some doc → current doc.id i s.trace = true →
    s.shared.sessions doc.id = some doc.sessions

theorem AuthInv.start (d : Directory) : AuthInv svc { shared := d } := by
  refine ⟨Pool.Follows.nil d, fun i doc hdoc => ?_⟩
  cases hdoc

theorem AuthInv.step (h : AuthInv svc s) (hs : (authCalls svc).step s e = some s') : AuthInv svc s' := by
  refine ⟨h.follows.step (answer_lawful svc) (program_along svc) hs, fun k doc hdoc hcurrent => ?_⟩
  rcases Pool.step_cases hs with ⟨op, rfl, rfl⟩ | ⟨i, choice, op, call, rest, r, d, rfl, hi, hr, rfl⟩
  · exact h.stored k doc hdoc hcurrent
  simp only [seen, Pool.view_answered] at hdoc
  simp only [Pool.answered, current_append] at hcurrent ⊢
  by_cases hik : i = k
  · subst hik
    rw [if_pos rfl] at hdoc hcurrent
    cases AuthView.move (s.view AuthView.next {} i) ⟨call, r⟩ with
    | read opt user found hev hnext =>
      cases hev
      rw [hnext] at hdoc
      cases hdoc
      obtain ⟨rfl, hsessions⟩ := Directory.answer_found hr
      exact hsessions
    | wrote user hev hnext =>
      cases hev
      rw [hnext] at hdoc
      cases hdoc
      exact Directory.answer_replaced hr
    | newJti jti hev hnext =>
      cases hev
      rw [hnext] at hdoc
      rw [Directory.answer_other hr (fun _ hcall => by cases hcall)]
      exact h.stored i doc hdoc (by simpa [AuthCall.touches] using hcurrent)
    | forgot hdocs =>
      rw [hdocs] at hdoc
      cases hdoc
    | other htouches hdocs =>
      rw [hdocs] at hdoc
      rw [Directory.answer_other hr (fun _ hcall => by subst hcall; cases htouches)]
      exact h.stored i doc hdoc (by simpa [htouches] using hcurrent)
  · rw [if_neg hik] at hdoc hcurrent
    rw [Bool.and_eq_true] at hcurrent
    rcases Directory.answer_sessions hr doc.id with hd | ⟨user, rfl, hid, _⟩
    · rw [hd]
      exact h.stored k doc hdoc hcurrent.1
    · simp [AuthCall.replaces, hid] at hcurrent

/-- What a write can be, whichever operation makes it. -/
theorem AuthOp.Writes.cases {op : AuthOp} {v before after} (h : op.Writes svc v before after) :
    (∃ claims, v.jti = some claims.id ∧ Issues svc v.clock claims before after) ∨
      (∃ token claims, Exchanges svc v.clock token claims before after ∨ Revokes svc token claims before after) ∨
      (∃ userClaims, Clears userClaims before after) ∨ Keeps before after := by
  cases op with
  | login username password => exact .inl h
  | refreshToken token =>
    rcases h with ⟨_, claims, hexchanges⟩ | ⟨_, _, hissues⟩
    · exact .inr (.inl ⟨token, claims, .inl hexchanges⟩)
    · exact .inl hissues
  | logout token =>
    obtain ⟨claims, hrevokes⟩ := h
    exact .inr (.inl ⟨token, claims, .inr hrevokes⟩)
  | logoutAll userClaims => exact .inr (.inr (.inl ⟨userClaims, h⟩))
  | verifyJWTToken token permissionKey => exact h.elim
  | _ => exact .inr (.inr (.inr h))

theorem writes_id {op : AuthOp} {v before after} (h : op.Writes svc v before after) :
    after.id = before.id := by
  rcases h.cases with ⟨_, _, h⟩ | ⟨_, _, h | h⟩ | ⟨_, h⟩ | h <;> exact h.id

/-- **A write by an operation whose copy is current** is one step from the
stored document. -/
theorem AuthInv.write (h : AuthInv svc s) {i : Nat} {op : AuthOp} {after : User}
    {rest : Except Error Bool → Prog AuthCall AuthCall.Resp (Except Error AuthResult)}
    (hi : s.threads[i]? = some (op, .call (.replaceUser after) rest)) (hcurrent : current after.id i s.trace = true) :
    ∃ before, op.Writes svc (seen s i) before after ∧ before.id = after.id ∧
      s.shared.sessions after.id = some before.sessions := by
  obtain ⟨_, _, before, hdoc, hwrites⟩ := h.follows.call hi
  have hid := writes_id hwrites
  refine ⟨before, hwrites, hid.symm, ?_⟩
  rw [hid] at hcurrent ⊢
  exact h.stored i before hdoc hcurrent

/-- A call for the user's document is made while the caller's copy is current. -/
def notStale (u : ObjectID) (s : AuthPool) : AuthEvent → Bool
  | .start _ => true
  | .turn i _ =>
    match s.next? i with
    | some (.replaceUser user) => user.id ≠ u || current u i s.trace
    | _ => true

theorem notStale_current {u i choice op user rest} (h : notStale u s (.turn i choice) = true)
    (hi : s.threads[i]? = some (op, .call (.replaceUser user) rest))
    (hu : user.id = u) : current u i s.trace = true := by
  simpa [notStale, Pool.next?, hi, hu] using h

/-! ## A service to run -/

namespace TokenClaims

def fields (claims : TokenClaims) : List (List Char) :=
  [claims.uid.toList, if claims.needChangePassword then ['1'] else [],
    Nat.toDigits 10 claims.tokenVersion.toUInt64.toNat, if claims.tokenType = .access then ['1'] else [],
    Nat.toDigits 10 claims.expiresAt, Nat.toDigits 10 claims.issuedAt, Nat.toDigits 10 claims.notBefore,
    claims.issuer.toList, claims.subject.toList, claims.id.toList]

def ofFields : List (List Char) → Option TokenClaims
  | [uid, need, version, type, expiresAt, issuedAt, notBefore, issuer, subject, id] => some {
      uid := String.ofList uid
      needChangePassword := need = ['1']
      tokenVersion := (UInt64.ofNat (Nat.ofDigitChars 10 version 0)).toInt64
      tokenType := if type = ['1'] then .access else .refresh
      expiresAt := Nat.ofDigitChars 10 expiresAt 0
      issuedAt := Nat.ofDigitChars 10 issuedAt 0
      notBefore := Nat.ofDigitChars 10 notBefore 0
      issuer := String.ofList issuer
      subject := String.ofList subject
      id := String.ofList id }
  | _ => none

theorem ofFields_fields (claims : TokenClaims) : ofFields claims.fields = some claims := by
  obtain ⟨⟨uid⟩, need, version, type, expiresAt, issuedAt, notBefore, issuer, subject, id⟩ := claims
  cases need <;> cases type <;> simp [fields, ofFields, Nat.ofDigitChars_toDigits]

end TokenClaims

/-- Short tokens for the claims of a list, by their place in it; any others are
written out. -/
def Jwt.reference (short : List TokenClaims) : Jwt where
  sign claims :=
    if claims ∈ short then String.ofList (List.replicate (short.idxOf claims + 1) '#')
    else String.ofList (Delimited.writeFields claims.fields)
  claims token :=
    match token.toList with
    | '#' :: rest => short[rest.length]?
    | text => (Delimited.readFields text).bind TokenClaims.ofFields
  claims_sign claims := by
    by_cases hmem : claims ∈ short
    · simp only [if_pos hmem, String.toList_ofList, replicate_succ, length_replicate]
      exact getElem?_idxOf hmem
    · rw [if_neg hmem, String.toList_ofList]
      split
      · rename_i rest htext
        -- Written fields start with a point or a backslash.
        cases huid : claims.uid.toList <;>
          simp [Delimited.writeFields, TokenClaims.fields, huid] at htext
      · rw [Delimited.readFields_writeFields]
        exact claims.ofFields_fields

/-- Passwords kept as they are, and tokens that are their own hash. -/
def AuthService.reference (short : List TokenClaims) : AuthService where
  jwt := Jwt.reference short
  passwords :=
    { isArgon2Hash := fun _ => true
      createArgon2Hash := fun _ password => password
      comparePasswordAndHash := fun password hash => .ok (password = hash) }
  sum256 := id

/-- One user, without sessions. -/
def oneUser : User where
  id := ⟨List.replicate 12 1, rfl⟩
  userName := "user"
  password := "secret"
  status := .active

def Xid.a : Xid := ⟨"a", by decide⟩

def Xid.b : Xid := ⟨"b", by decide⟩

def Xid.c : Xid := ⟨"c", by decide⟩

theorem oneUser.nodup : ([oneUser].map fun user => user.id).Nodup := nodup_singleton _

def oneUser.directory : Directory := { users := [oneUser], nodup := oneUser.nodup }

/-- Its tokens when all clocks show 0: `#` for access, `##` and on to refresh. -/
def oneUser.service : AuthService :=
  .reference (userClaims oneUser .access (60 * second) 0 0 0 "" ::
    ["a", "b", "c"].map (userClaims oneUser .refresh (24 * 60 * 60 * second) 0 0 0))

/-- The next turns of operation `i`. -/
def turns (i n : Nat) (choice : AuthChoice) : List AuthEvent := List.replicate n (.turn i choice)

end Gthulhu.Manager
