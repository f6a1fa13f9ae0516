/-
A refresh token is exchanged at most once, as long as no operation writes a
stale copy of the user's document (**`refreshToken_exchangedOnce`**). JTIs are
new, so a session that is revoked or gone comes back only by a copy that is
older than that.

Two `RefreshToken` calls that both read the document before either replaces it
both find the session live, and both return a pair
(**`refreshToken_exchangedTwice`**).
-/
import Gthulhu.Manager.AuthPoolFacts

namespace Gthulhu.Manager

open Lib AuthService List Directory Pool

/-! ## Lists of sessions -/

def jtis (sessions : List RefreshSession) : List String := sessions.map RefreshSession.jti

/-- `after` is `before` with one session of the JTI revoked. -/
def RevokesOne (jti : String) (before after : List RefreshSession) : Prop :=
  ∃ front session back, before = front ++ session :: back ∧
    after = front ++ { session with revoked := true } :: back ∧ session.jti = jti

section

variable {jti tokenHash : String} {now : Time} {before after : List RefreshSession}

theorem RevokesOne.cons {session} (h : RevokesOne jti before after) :
    RevokesOne jti (session :: before) (session :: after) := by
  obtain ⟨front, found, back, rfl, rfl, hjti⟩ := h
  exact ⟨session :: front, found, back, rfl, rfl, hjti⟩

theorem exchange_ok (h : exchange jti tokenHash now before = .ok after) :
    RevokesOne jti before after ∧ ∃ session ∈ before, session.jti = jti ∧ session.revoked = false ∧
      session.isExpired now = false ∧ session.tokenHash = tokenHash := by
  induction before generalizing after with
  | nil => cases h
  | cons session rest ih =>
    unfold exchange at h
    split at h
    · cases hrest : exchange jti tokenHash now rest with
      | error err =>
        rw [hrest] at h
        cases h
      | ok rest' =>
        rw [hrest] at h
        cases h
        obtain ⟨hone, found, hmem, hfound⟩ := ih hrest
        exact ⟨hone.cons, found, mem_cons_of_mem _ hmem, hfound⟩
    · rename_i hjti
      split at h
      · cases h
      · rename_i hlive
        split at h
        · cases h
        · rename_i hhash
          cases h
          have hjti := not_not.mp hjti
          simp only [Bool.or_eq_true, not_or, Bool.not_eq_true] at hlive
          exact ⟨⟨[], session, rest, rfl, rfl, hjti⟩, session, mem_cons_self .., hjti, hlive.1, hlive.2,
            not_not.mp hhash⟩

theorem revoke_ok (h : revoke jti tokenHash before = .ok after) :
    RevokesOne jti before after ∧ ∃ session ∈ before, session.jti = jti ∧ session.tokenHash = tokenHash := by
  induction before generalizing after with
  | nil => cases h
  | cons session rest ih =>
    unfold revoke at h
    split at h
    · rename_i hfound
      cases h
      exact ⟨⟨[], session, rest, rfl, rfl, hfound.1⟩, session, mem_cons_self .., hfound⟩
    · cases hrest : revoke jti tokenHash rest with
      | error err =>
        rw [hrest] at h
        cases h
      | ok rest' =>
        rw [hrest] at h
        cases h
        obtain ⟨hone, found, hmem, hfound⟩ := ih hrest
        exact ⟨hone.cons, found, mem_cons_of_mem _ hmem, hfound⟩

theorem RevokesOne.jtis_eq (h : RevokesOne jti before after) : jtis after = jtis before := by
  obtain ⟨front, session, back, rfl, rfl, _⟩ := h
  simp [jtis]

theorem RevokesOne.mem {session} (h : RevokesOne jti before after) (hmem : session ∈ after) :
    session ∈ before ∨ ∃ old ∈ before, session = { old with revoked := true } := by
  obtain ⟨front, found, back, rfl, rfl, _⟩ := h
  simp only [mem_append, mem_cons] at hmem
  rcases hmem with hmem | rfl | hmem
  · exact .inl (by simp [hmem])
  · exact .inr ⟨found, by simp, rfl⟩
  · exact .inl (by simp [hmem])

theorem RevokesOne.mem_of_ne {session} (h : RevokesOne jti before after) (hmem : session ∈ before)
    (hne : session.jti ≠ jti) : session ∈ after := by
  obtain ⟨front, found, back, rfl, rfl, hjti⟩ := h
  simp only [mem_append, mem_cons] at hmem ⊢
  rcases hmem with hmem | rfl | hmem
  · exact .inl hmem
  · exact absurd hjti hne
  · exact .inr (.inr hmem)

/-- With distinct JTIs, no session of the JTI is left. -/
theorem RevokesOne.revoked (h : RevokesOne jti before after) (hnodup : (jtis before).Nodup) :
    ∀ session ∈ after, session.jti = jti → session.revoked = true := by
  obtain ⟨front, found, back, rfl, rfl, hjti⟩ := h
  intro session hmem hsession
  simp only [jtis, map_append, map_cons, nodup_append, nodup_cons] at hnodup
  simp only [mem_append, mem_cons] at hmem
  have hfound : session.jti = found.jti := hsession.trans hjti.symm
  rcases hmem with hmem | rfl | hmem
  · exact absurd hfound (hnodup.2.2 _ (mem_map_of_mem hmem) _ (mem_cons_self ..))
  · rfl
  · exact absurd (mem_map_of_mem (f := RefreshSession.jti) hmem) (hfound ▸ hnodup.2.1.1)

theorem mem_prune {session} :
    session ∈ pruneRefreshSessions before now ↔
      session ∈ before ∧ session.revoked = false ∧ session.isExpired now = false := by
  simp [pruneRefreshSessions]

end

theorem revokesOne_of {svc clock token claims before after}
    (h : Exchanges svc clock token claims before after ∨ Revokes svc token claims before after) :
    RevokesOne claims.id before.refreshTokens after.refreshTokens := by
  rcases h with h | h
  · obtain ⟨_, _, _, _, _, hexchange⟩ := h.refreshTokens
    exact (exchange_ok hexchange).1
  · exact (revoke_ok h.refreshTokens).1

/-! ## JTIs -/

/-- A new JTI, if the call made one. -/
def madeJti : Prog.Event AuthCall.Resp → Option String
  | ⟨.newXid, jti⟩ => some jti
  | _ => none

/-- The JTIs there are: those stored at the start and those made since. -/
def knownJtis (known : List String) (s : AuthPool) : List String := known ++ s.trace.filterMap fun e => madeJti e.2

/-- A JTI that is made is none of those there are. -/
def jtiIsNew (known : List String) (s : AuthPool) : AuthEvent → Bool
  | .start _ => true
  | .turn i choice =>
    match s.next? i with
    | some .newXid => choice.xid.text ∉ knownJtis known s
    | _ => true

def Directory.jtis (d : Directory) : List String := d.users.flatMap fun user => Manager.jtis user.refreshTokens

/-- The JTIs of a list of sessions are distinct, and none is still to be given. -/
structure Unique (known : List String) (s : AuthPool) (sessions : List RefreshSession) : Prop where
  nodup : (jtis sessions).Nodup
  known : ∀ x ∈ jtis sessions, x ∈ knownJtis known s
  given : ∀ x ∈ jtis sessions, ∀ i, (seen s i).jti ≠ some x

structure JtiInv (svc : AuthService) (known : List String) (s : AuthPool) : Prop extends AuthInv svc s where
  pending_known : ∀ i x, (seen s i).jti = some x → x ∈ knownJtis known s
  pending_one : ∀ i k x, (seen s i).jti = some x → (seen s k).jti = some x → i = k
  stored_unique : ∀ u sessions, s.shared.sessions u = some sessions → Unique known s sessions.refreshTokens
  copies_unique : ∀ i doc, doc ∈ (seen s i).docs → Unique known s doc.refreshTokens

variable {svc : AuthService} {known : List String} {s s' : AuthPool} {e : AuthEvent}

theorem JtiInv.start {d} (h : d.jtis.Nodup) : JtiInv svc d.jtis { shared := d } := by
  refine ⟨AuthInv.start d, fun i x hx => ?_, fun i k x hx => ?_, fun u sessions hu => ?_, fun i doc hdoc => ?_⟩
  · cases hx
  · cases hx
  · obtain ⟨user, hmem, -, rfl⟩ := mem_of_sessions hu
    refine ⟨?_, fun x hx => ?_, fun x _ i hi => ?_⟩
    · exact (nodup_flatMap.mp h).1 user hmem
    · exact mem_append_left _ (mem_flatMap.mpr ⟨user, hmem, hx⟩)
    · cases hi
  · cases hdoc

section

variable {u : ObjectID} (hnew : jtiIsNew known s e = true) (hstale : notStale u s e = true)
  (hs : (authCalls svc).step s e = some s')
include hs

theorem known_step {x} (hx : x ∈ knownJtis known s) : x ∈ knownJtis known s' := by
  rcases step_cases hs with ⟨op, rfl, rfl⟩ | ⟨k, choice, op, call, rest, r, d, rfl, hk, hr, rfl⟩
  · exact hx
  · simp only [knownJtis, Pool.answered, filterMap_append, ← append_assoc]
    exact mem_append_left _ hx

/-- The copies of an operation after a step: those it had, or the document that
is stored then. -/
theorem docs_step {i doc} (hdoc : doc ∈ (seen s' i).docs) :
    doc ∈ (seen s i).docs ∨ s'.shared.sessions doc.id = some doc.sessions := by
  rcases step_cases hs with ⟨op, rfl, rfl⟩ | ⟨k, choice, op, call, rest, r, d, rfl, hk, hr, rfl⟩
  · exact .inl hdoc
  simp only [seen, view_answered] at hdoc
  split at hdoc
  · rename_i hki
    subst hki
    cases AuthView.move (s.view AuthView.next {} k) ⟨call, r⟩ with
    | read opt user found he hv =>
      cases he
      rw [hv] at hdoc
      rcases mem_cons.mp hdoc with rfl | hdoc
      · obtain ⟨rfl, hsessions⟩ := answer_found hr
        exact .inr hsessions
      · exact .inl hdoc
    | wrote user he hv =>
      cases he
      rw [hv] at hdoc
      rcases mem_cons.mp hdoc with rfl | hdoc
      · exact .inr (answer_replaced hr)
      · exact .inl hdoc
    | newJti jti he hv =>
      rw [hv] at hdoc
      exact .inl hdoc
    | forgot hdocs =>
      rw [hdocs] at hdoc
      cases hdoc
    | other htouches hdocs =>
      rw [hdocs] at hdoc
      exact .inl hdoc
  · exact .inl hdoc

include hnew

/-- How a step changes what is pending: an operation has given its JTI away, or
has a new one. -/
theorem pending_step {i x} (hx : (seen s' i).jti = some x) :
    (seen s i).jti = some x ∨ (x ∉ knownJtis known s ∧ x ∈ knownJtis known s' ∧ ∃ choice, e = .turn i choice) := by
  rcases step_cases hs with ⟨op, rfl, rfl⟩ | ⟨k, choice, op, call, rest, r, d, rfl, hk, hr, rfl⟩
  · exact .inl hx
  simp only [seen, view_answered] at hx
  split at hx
  · rename_i hki
    subst hki
    cases AuthView.move (s.view AuthView.next {} k) ⟨call, r⟩ with
    | read opt user found he hv =>
      rw [hv] at hx
      exact .inl hx
    | wrote user he hv =>
      rw [hv] at hx
      cases hx
    | newJti jti he hv =>
      cases he
      rw [hv] at hx
      cases hx
      cases (Prod.mk.inj hr).1
      refine .inr ⟨by simpa [jtiIsNew, Pool.next?, hk] using hnew, ?_, choice, rfl⟩
      simp [knownJtis, Pool.answered, madeJti]
    | forgot hdocs hwrites hjti => exact .inl (hjti x hx)
    | other htouches hdocs hwrites hjti => exact .inl (hjti ▸ hx)
  · exact .inl hx

theorem Unique.step {sessions} (h : Unique known s sessions) : Unique known s' sessions := by
  refine ⟨h.nodup, fun x hx => known_step hs (h.known x hx), fun x hx i hi => ?_⟩
  rcases pending_step hnew hs hi with hi | ⟨hfresh, _⟩
  · exact h.given x hx i hi
  · exact hfresh (h.known x hx)

/-- A write leaves distinct JTIs, all of them given. -/
theorem Unique.write (h : JtiInv svc known s) {i} {op : AuthOp} {before after}
    (hwrites : op.Writes svc (seen s i) before after) (hunique : Unique known s before.refreshTokens)
    (hgiven : ∀ k x, (seen s' k).jti = some x → k ≠ i) : Unique known s' after.refreshTokens := by
  have hstep := hunique.step hnew hs
  have hissues : ∀ claims, (seen s i).jti = some claims.id → Issues svc (seen s i).clock claims before after →
      Unique known s' after.refreshTokens := by
    intro claims hpending hissues
    obtain ⟨now, _, hafter⟩ := hissues.refreshTokens
    have hsub : (jtis (pruneRefreshSessions before.refreshTokens now)).Sublist (jtis before.refreshTokens) :=
      filter_sublist.map _
    have happend : jtis after.refreshTokens =
        jtis (pruneRefreshSessions before.refreshTokens now) ++ [claims.id] := by
      rw [hafter, jtis, map_append]
      rfl
    refine ⟨?_, fun x hx => ?_, fun x hx k hk => ?_⟩
    · rw [happend, nodup_append]
      refine ⟨hunique.nodup.sublist hsub, nodup_singleton _, fun x hx y hy hxy => ?_⟩
      rw [mem_singleton] at hy
      exact hunique.given x (hsub.subset hx) i (by rw [hpending, hxy, hy])
    · rw [happend, mem_append, mem_singleton] at hx
      rcases hx with hx | rfl
      · exact hstep.known x (hsub.subset hx)
      · exact known_step hs (h.pending_known i _ hpending)
    · rw [happend, mem_append, mem_singleton] at hx
      rcases hx with hx | rfl
      · exact hstep.given x (hsub.subset hx) k hk
      · rcases pending_step hnew hs hk with hk' | ⟨hfresh, _⟩
        · exact hgiven k _ hk (h.pending_one k i _ hk' hpending)
        · exact hfresh (h.pending_known i _ hpending)
  have hsame : jtis after.refreshTokens = jtis before.refreshTokens → Unique known s' after.refreshTokens := by
    intro heq
    exact ⟨heq ▸ hstep.nodup, heq ▸ hstep.known, heq ▸ hstep.given⟩
  rcases hwrites.cases with ⟨claims, hpending, h⟩ | ⟨_, _, h⟩ | ⟨_, h⟩ | h
  · exact hissues claims hpending h
  · exact hsame (revokesOne_of h).jtis_eq
  · rw [h.refreshTokens]
    exact ⟨nodup_nil, fun x hx => (by cases hx), fun x hx => (by cases hx)⟩
  · exact hsame (by rw [h.refreshTokens])

/-- Documents keep their distinct JTIs, stored or copied. -/
theorem JtiInv.unique_step (h : JtiInv svc known s) :
    (∀ u sessions, s'.shared.sessions u = some sessions → Unique known s' sessions.refreshTokens) ∧
      ∀ i doc, doc ∈ (seen s' i).docs → Unique known s' doc.refreshTokens := by
  have hstored : ∀ u sessions, s'.shared.sessions u = some sessions → Unique known s' sessions.refreshTokens := by
    intro u sessions hu
    rcases step_cases hs with ⟨op, rfl, rfl⟩ | ⟨i, choice, op, call, rest, r, d, rfl, hi, hr, rfl⟩
    · exact (h.stored_unique u sessions hu).step hnew hs
    rcases answer_sessions hr u with hd | ⟨user, rfl, _, hd⟩
    · exact (h.stored_unique u sessions (hd ▸ hu)).step hnew hs
    cases hd.symm.trans hu
    obtain ⟨_, _, before, hdoc, hwrites⟩ := h.follows.call hi
    refine Unique.write hnew hs h hwrites (h.copies_unique i before (mem_of_mem_head? hdoc)) fun k x hk hki => ?_
    subst hki
    simp only [seen, view_answered_self] at hk
    rcases r with err | _ | _
    · cases hk
    · cases hk
    · cases hk
  refine ⟨hstored, fun i doc hdoc => ?_⟩
  rcases docs_step hs hdoc with hdoc | hdoc
  · exact (h.copies_unique i doc hdoc).step hnew hs
  · exact hstored _ _ hdoc

theorem JtiInv.step (h : JtiInv svc known s) : JtiInv svc known s' := by
  obtain ⟨hstored, hcopies⟩ := h.unique_step hnew hs
  refine ⟨h.toAuthInv.step hs, fun i x hx => ?_, fun i k x hi hk => ?_, hstored, hcopies⟩
  · rcases pending_step hnew hs hx with hx | ⟨_, hx, _⟩
    · exact known_step hs (h.pending_known i x hx)
    · exact hx
  · rcases pending_step hnew hs hi with hi | ⟨hfresh, _, choice, rfl⟩
    · rcases pending_step hnew hs hk with hk | ⟨hfresh, _⟩
      · exact h.pending_one i k x hi hk
      · exact absurd (h.pending_known i x hi) hfresh
    · rcases pending_step hnew hs hk with hk | ⟨_, _, choice', he⟩
      · exact absurd (h.pending_known k x hk) hfresh
      · cases he
        rfl

omit hnew hs

/-! ## The end of a session -/

/-- The JTI is given away, and what is stored under it meets `p`. -/
structure Ended (known : List String) (u : ObjectID) (jti : String) (p : RefreshSession → Prop) (s : AuthPool) :
    Prop where
  known : jti ∈ knownJtis known s
  given : ∀ i, (seen s i).jti ≠ some jti
  stored : ∀ sessions, s.shared.sessions u = some sessions → ∀ x ∈ sessions.refreshTokens, x.jti = jti → p x

/-- Revoked, or pruned after that. -/
def Spent (known : List String) (u : ObjectID) (jti : String) : AuthPool → Prop :=
  Ended known u jti fun session => session.revoked = true

def Gone (known : List String) (u : ObjectID) (jti : String) : AuthPool → Prop := Ended known u jti fun _ => False

variable {jti : String} {p : RefreshSession → Prop}

theorem writes_ended {op : AuthOp} {v : AuthView} {before after : User}
    (hp : ∀ session, p session → p { session with revoked := true }) (hpending : v.jti ≠ some jti)
    (h : ∀ x ∈ before.refreshTokens, x.jti = jti → p x) (hwrites : op.Writes svc v before after) :
    ∀ x ∈ after.refreshTokens, x.jti = jti → p x := by
  have hissues : ∀ claims, v.jti = some claims.id → Issues svc v.clock claims before after →
      ∀ x ∈ after.refreshTokens, x.jti = jti → p x := by
    intro claims hjti hissues x hx hxj
    obtain ⟨now, _, hafter⟩ := hissues.refreshTokens
    rw [hafter, mem_append, mem_singleton] at hx
    rcases hx with hx | rfl
    · exact h x (mem_prune.mp hx).1 hxj
    · exact absurd (hjti.trans (congrArg some hxj)) hpending
  have hrevokes : ∀ other, RevokesOne other before.refreshTokens after.refreshTokens →
      ∀ x ∈ after.refreshTokens, x.jti = jti → p x := by
    intro other hone x hx hxj
    rcases hone.mem hx with hx | ⟨old, hold, rfl⟩
    · exact h x hx hxj
    · exact hp old (h old hold hxj)
  rcases hwrites.cases with ⟨claims, hjti, h⟩ | ⟨_, _, h⟩ | ⟨_, h⟩ | hkeeps
  · exact hissues claims hjti h
  · exact hrevokes _ (revokesOne_of h)
  · rw [h.refreshTokens]
    intro x hx
    cases hx
  · rw [hkeeps.refreshTokens]
    exact h

theorem Gone.spent (h : Gone known u jti s) : Spent known u jti s :=
  ⟨h.known, h.given, fun sessions hu x hx hxj => (h.stored sessions hu x hx hxj).elim⟩

include hnew hstale hs

/-- **What has ended stays so**, where no stale copy is written. -/
theorem Ended.step (hp : ∀ session, p session → p { session with revoked := true }) (hinv : JtiInv svc known s)
    (h : Ended known u jti p s) : Ended known u jti p s' := by
  refine ⟨known_step hs h.known, fun i hi => ?_, fun sessions hu => ?_⟩
  · rcases pending_step hnew hs hi with hi | ⟨hfresh, _⟩
    · exact h.given i hi
    · exact hfresh h.known
  rcases step_cases hs with ⟨op, rfl, rfl⟩ | ⟨i, choice, op, call, rest, r, d, rfl, hi, hr, rfl⟩
  · exact h.stored sessions hu
  rcases answer_sessions hr u with hd | ⟨user, rfl, hid, hd⟩
  · exact h.stored sessions (hd ▸ hu)
  · cases hd.symm.trans hu
    subst hid
    obtain ⟨before, hwrites, _, hstored⟩ := hinv.write hi (notStale_current hstale hi rfl)
    exact writes_ended hp (h.given i) (h.stored _ hstored) hwrites

theorem Spent.step (hinv : JtiInv svc known s) (h : Spent known u jti s) : Spent known u jti s' :=
  Ended.step hnew hstale hs (fun _ _ => rfl) hinv h

theorem Gone.step (hinv : JtiInv svc known s) (h : Gone known u jti s) : Gone known u jti s' :=
  Ended.step hnew hstale hs (fun _ h => h) hinv h

omit hnew hstale hs

/-! ## Exchanges -/

/-- The step is a write of operation `i`. -/
structure WriteStep (s s' : AuthPool) (e : AuthEvent) (i : Nat) (op : AuthOp) (user : User) : Prop where
  turn : ∃ choice, e = .turn i choice
  thread : ∃ rest, s.threads[i]? = some (op, .call (.replaceUser user) rest)
  stored : s'.shared.sessions user.id = some user.sessions
  trace : s'.trace = s.trace ++ [(i, ⟨.replaceUser user, .ok true⟩)]
  writes : (seen s' i).writes = (seen s i).writes + 1

include hs

/-- A step leaves the writes of an operation as they are, or is a write of it. -/
theorem writes_step (i : Nat) :
    (seen s' i).writes = (seen s i).writes ∨ ∃ op user, WriteStep s s' e i op user := by
  rcases step_cases hs with ⟨op, rfl, rfl⟩ | ⟨k, choice, op, call, rest, r, d, rfl, hk, hr, rfl⟩
  · exact .inl rfl
  by_cases hki : k = i
  · subst hki
    have hview : seen (s.answered k op call r (rest r) d) k = AuthView.next (seen s k) ⟨call, r⟩ :=
      view_answered_self
    cases AuthView.move (seen s k) ⟨call, r⟩ with
    | read opt user found he hv => exact .inl (by rw [hview, hv])
    | wrote user he hv =>
      cases he
      exact .inr ⟨op, user, ⟨choice, rfl⟩, ⟨rest, hk⟩, answer_replaced hr, rfl, by
        rw [hview, hv]
        rfl⟩
    | newJti jti he hv => exact .inl (by rw [hview, hv])
    | forgot hdocs hwrites => exact .inl (hview ▸ hwrites)
    | other htouches hdocs hwrites => exact .inl (hview ▸ hwrites)
  · exact .inl (by simp only [seen, view_answered_ne hki])

omit hs in
/-- What is written comes of a document with the same ID: of the stored one, if
the writer's copy is current. -/
theorem WriteStep.written {i op user} (h : WriteStep s s' e i op user) (hinv : AuthInv svc s) :
    ∃ before, op.Writes svc (seen s i) before user ∧ user.id = before.id ∧ (notStale user.id s e = true →
      current user.id i s.trace = true ∧ s.shared.sessions user.id = some before.sessions) := by
  obtain ⟨choice, rfl⟩ := h.turn
  obtain ⟨rest, hi⟩ := h.thread
  obtain ⟨_, _, before, hdoc, hwrites⟩ := hinv.follows.call hi
  have hid := writes_id hwrites
  refine ⟨before, hwrites, hid, fun hstale => ?_⟩
  have hcurrent := notStale_current hstale hi rfl
  refine ⟨hcurrent, ?_⟩
  rw [hid] at hcurrent ⊢
  exact hinv.stored i before hdoc hcurrent

/-- An operation that has written was there before. -/
theorem AuthInv.runs_step (h : AuthInv svc s) {i op} (hr : s'.Runs i op)
    (hw : 0 < (seen s' i).writes) : s.Runs i op := by
  rcases Pool.runs_step hs hr with hr | hlen
  · exact hr
  · have hnew : seen s i = {} := h.follows.view_new hlen
    rcases writes_step hs i with hsame | ⟨_, _, hwrite⟩
    · rw [hsame, hnew] at hw
      cases hw
    · obtain ⟨rest, hi⟩ := hwrite.thread
      rw [getElem?_eq_none hlen] at hi
      cases hi

omit hs

theorem AuthInv.runs_unique {i op op' p} (hr : s.Runs i op) (hi : s.threads[i]? = some (op', p)) : op = op' := by
  obtain ⟨q, hq⟩ := hr
  cases hq.symm.trans hi
  rfl

variable {token : String} {claims : TokenClaims} {user : User}

include hnew hs in
/-- The write of a call that has the token, seen from what is stored. -/
theorem Spent.of_revokesOne (hinv : JtiInv svc known s) {before : User}
    (hstored : s.shared.sessions u = some before.sessions)
    (hone : RevokesOne jti before.refreshTokens user.refreshTokens) (hstored' : s'.shared.sessions u = some user.sessions) :
    Spent known u jti s' := by
  have hunique := hinv.stored_unique u _ hstored
  have hmem : jti ∈ jtis before.refreshTokens := by
    obtain ⟨front, session, back, hbefore, _, rfl⟩ := hone
    simp [jtis, hbefore]
  have hunique' := hunique.step hnew hs
  refine ⟨hunique'.known _ hmem, hunique'.given _ hmem, fun sessions hsessions => ?_⟩
  cases hstored'.symm.trans hsessions
  exact hone.revoked hunique.nodup

variable (hclaims : svc.jwt.claims token = some claims) (huid : claims.getBsonObjectUID = .ok u)
include hclaims huid

theorem TokenOf.user_eq {claims'} (h : TokenOf svc token claims' user) : claims' = claims ∧ user.id = u := by
  cases hclaims.symm.trans h.claims_eq
  exact ⟨rfl, Except.ok.inj (h.uid.symm.trans huid)⟩

theorem refreshToken_writes_user {v before}
    (h : (AuthOp.refreshToken token).Writes svc v before user) : before.id = u := by
  rcases h with ⟨_, claims', h⟩ | ⟨_, ⟨claims', h, _⟩, _⟩
  · exact (h.tokenOf.user_eq hclaims huid).2
  · exact (h.user_eq hclaims huid).2

include hnew hstale hs

/-- What a step does to a `RefreshToken` call that has written. -/
theorem refreshToken_step (hinv : JtiInv svc known s) {i}
    (hi : s'.Runs i (.refreshToken token)) (hw : 0 < (seen s' i).writes) : s.Runs i (.refreshToken token) ∧
      ((seen s' i).writes = (seen s i).writes ∨
      (∃ choice, e = .turn i choice) ∧ current u i s.trace = true ∧
        (((seen s i).writes = 0 ∧ (seen s' i).writes = 1 ∧ ¬Spent known u claims.id s ∧ Spent known u claims.id s') ∨
        ((seen s i).writes = 1 ∧ (Spent known u claims.id s → Gone known u claims.id s')))) := by
  have hruns := hinv.runs_step hs hi hw
  refine ⟨hruns, ?_⟩
  rcases writes_step hs i with hsame | ⟨op, user, hwrite⟩
  · exact .inl hsame
  obtain ⟨rest, hthread⟩ := hwrite.thread
  cases AuthInv.runs_unique hruns hthread
  obtain ⟨before, hwrites, hid, hcopy⟩ := hwrite.written hinv.toAuthInv
  cases hid.trans (refreshToken_writes_user hclaims huid hwrites)
  obtain ⟨hcurrent, hstored⟩ := hcopy hstale
  refine .inr ⟨hwrite.turn, hcurrent, ?_⟩
  rcases hwrites with ⟨hzero, claims', h⟩ | ⟨hone, _, claims', hpending, hissues⟩
  · obtain ⟨rfl, -⟩ := h.tokenOf.user_eq hclaims huid
    obtain ⟨_, checked, _, _, _, hexchange⟩ := h.refreshTokens
    obtain ⟨hrevokes, session, hmem, hjti, hlive, _⟩ := exchange_ok hexchange
    refine .inl ⟨hzero, by rw [hwrite.writes, hzero], fun hspent => ?_,
      Spent.of_revokesOne hnew hs hinv hstored hrevokes hwrite.stored⟩
    have := hspent.stored _ hstored session hmem hjti
    rw [hlive] at this
    cases this
  · refine .inr ⟨hone, fun hspent => ?_⟩
    have hstep := Spent.step hnew hstale hs hinv hspent
    refine ⟨hstep.known, hstep.given, fun sessions hsessions x hx hxj => ?_⟩
    cases hwrite.stored.symm.trans hsessions
    obtain ⟨now, _, hafter⟩ := hissues.refreshTokens
    have hx : x ∈ pruneRefreshSessions before.refreshTokens now ++ [sessionOf svc claims'] := hafter ▸ hx
    rcases mem_append.mp hx with hx | hx
    · -- A session that is kept is not revoked, and one of this JTI is.
      obtain ⟨hmem, hlive, _⟩ := mem_prune.mp hx
      have := hspent.stored _ hstored x hmem hxj
      rw [hlive] at this
      cases this
    · rw [mem_singleton] at hx
      subst hx
      exact hspent.given i (hpending.trans (congrArg some hxj))

/-- What a step does to a `Logout` call that has written. -/
theorem logoutCall_step (hinv : JtiInv svc known s) {i} (hi : s'.Runs i (.logout token))
    (hw : 0 < (seen s' i).writes) : s.Runs i (.logout token) ∧
      ((seen s' i).writes = (seen s i).writes ∨
      (∃ choice, e = .turn i choice) ∧ ¬Gone known u claims.id s ∧ Spent known u claims.id s' ∧
        ∀ k, k ≠ i → current u k s'.trace = false) := by
  have hruns := hinv.runs_step hs hi hw
  refine ⟨hruns, ?_⟩
  rcases writes_step hs i with hsame | ⟨op, user, hwrite⟩
  · exact .inl hsame
  obtain ⟨rest, hthread⟩ := hwrite.thread
  cases AuthInv.runs_unique hruns hthread
  obtain ⟨before, ⟨claims', h⟩, hid, hcopy⟩ := hwrite.written hinv.toAuthInv
  obtain ⟨rfl, hbefore⟩ := h.tokenOf.user_eq hclaims huid
  cases hid.trans hbefore
  have hstored := (hcopy hstale).2
  obtain ⟨hrevokes, session, hmem, hjti, _⟩ := revoke_ok h.refreshTokens
  refine .inr ⟨hwrite.turn, fun hgone => hgone.stored _ hstored session hmem hjti,
    Spent.of_revokesOne hnew hs hinv hstored hrevokes hwrite.stored, fun k hk => ?_⟩
  simp only [hwrite.trace, current_append, AuthCall.replaces]
  simp [hk.symm]

omit hnew in
/-- A copy that is out of date stays so: the call makes no more queries, and
does not write it. -/
theorem overtaken_step (hinv : JtiInv svc known s) {k} (hk : s.Runs k (.refreshToken token)) (hw : 0 < (seen s k).writes)
    (hcurrent : current u k s.trace = false) : current u k s'.trace = false := by
  rcases step_cases hs with ⟨op, rfl, rfl⟩ | ⟨i, choice, op, call, rest, r, d, rfl, hi, hr, rfl⟩
  · exact hcurrent
  simp only [Pool.answered, current_append, hcurrent]
  split
  · rename_i hik
    subst hik
    cases AuthInv.runs_unique hk hi
    cases call with
    | findUsers opt =>
      have hzero : (seen s i).writes = 0 := hinv.follows.call hi
      rw [hzero] at hw
      cases hw
    | replaceUser user =>
      obtain ⟨_, _, before, _, hwrites⟩ := hinv.follows.call hi
      have hid := (writes_id hwrites).trans (refreshToken_writes_user hclaims huid hwrites)
      rw [notStale_current hstale hi hid] at hcurrent
      cases hcurrent
    | _ => rfl
  · rfl

omit hnew hstale hs hclaims huid

/-- What the calls with one token have done. -/
structure ExchangeInv (svc : AuthService) (known : List String) (u : ObjectID) (token : String) (claims : TokenClaims)
    (s : AuthPool) : Prop extends JtiInv svc known s where
  exchanged : ∀ i, s.Runs i (.refreshToken token) → 0 < (seen s i).writes → Spent known u claims.id s
  rotated : ∀ i, s.Runs i (.refreshToken token) → 1 < (seen s i).writes → Gone known u claims.id s
  loggedOut : ∀ i, s.Runs i (.logout token) → 0 < (seen s i).writes → Spent known u claims.id s
  once : ∀ i k, s.Runs i (.refreshToken token) → 0 < (seen s i).writes → s.Runs k (.refreshToken token) →
    0 < (seen s k).writes → i = k
  /-- An exchange that a `Logout` has come into is never finished. -/
  overtaken : ∀ i k, s.Runs i (.logout token) → 0 < (seen s i).writes → s.Runs k (.refreshToken token) →
    0 < (seen s k).writes → (seen s k).writes = 1 ∧ current u k s.trace = false

theorem ExchangeInv.start {d} (h : d.jtis.Nodup) :
    ExchangeInv svc d.jtis u token claims { shared := d } := by
  have hnone : ∀ i op, ¬({ shared := d } : AuthPool).Runs i op := by
    rintro i op ⟨p, hp⟩
    cases hp
  exact ⟨JtiInv.start h, fun i hi => absurd hi (hnone i _), fun i hi => absurd hi (hnone i _),
    fun i hi => absurd hi (hnone i _), fun i _ hi => absurd hi (hnone i _), fun i _ hi => absurd hi (hnone i _)⟩

include hnew hstale hs hclaims huid

theorem ExchangeInv.step (h : ExchangeInv svc known u token claims s) : ExchangeInv svc known u token claims s' := by
  have hjti := h.toJtiInv
  have hrefresh := fun {i} => @refreshToken_step _ _ _ _ _ _ hnew hstale hs _ _ hclaims huid hjti i
  have hlogout := fun {i} => @logoutCall_step _ _ _ _ _ _ hnew hstale hs _ _ hclaims huid hjti i
  refine ⟨hjti.step hnew hs, fun i hi hw => ?_, fun i hi hw => ?_, fun i hi hw => ?_, fun i k hi hwi hk hwk => ?_,
    fun i k hi hwi hk hwk => ?_⟩
  · obtain ⟨hruns, hsame | ⟨_, _, ⟨_, _, _, hspent⟩ | ⟨hone, hrotates⟩⟩⟩ := hrefresh hi hw
    · exact Spent.step hnew hstale hs hjti (h.exchanged i hruns (hsame ▸ hw))
    · exact hspent
    · exact (hrotates (h.exchanged i hruns (by omega))).spent
  · obtain ⟨hruns, hsame | ⟨_, _, ⟨_, hwrites, _⟩ | ⟨hone, hrotates⟩⟩⟩ := hrefresh hi (by omega)
    · exact Gone.step hnew hstale hs hjti (h.rotated i hruns (hsame ▸ hw))
    · omega
    · exact hrotates (h.exchanged i hruns (by omega))
  · obtain ⟨hruns, hsame | ⟨_, _, hspent, _⟩⟩ := hlogout hi hw
    · exact Spent.step hnew hstale hs hjti (h.loggedOut i hruns (hsame ▸ hw))
    · exact hspent
  · -- A call that exchanges the session finds it live, so no other has.
    have hfirst : ∀ {i k}, s'.Runs i (.refreshToken token) → 0 < (seen s' i).writes →
        s'.Runs k (.refreshToken token) → 0 < (seen s' k).writes → (seen s i).writes = 0 → i = k := by
      intro i k hi hwi hk hwk hzero
      obtain ⟨_, hsame | ⟨⟨choice, rfl⟩, _, ⟨_, _, hlive, _⟩ | ⟨hone, _⟩⟩⟩ := hrefresh hi hwi
      · omega
      · obtain ⟨hkruns, hksame | ⟨⟨_, he⟩, _⟩⟩ := hrefresh hk hwk
        · exact absurd (h.exchanged k hkruns (hksame ▸ hwk)) hlive
        · cases he
          rfl
      · omega
    by_cases hzero : (seen s i).writes = 0
    · exact hfirst hi hwi hk hwk hzero
    by_cases hkzero : (seen s k).writes = 0
    · exact (hfirst hk hwk hi hwi hkzero).symm
    exact h.once i k (hrefresh hi hwi).1 (by omega) (hrefresh hk hwk).1 (by omega)
  · obtain ⟨hiruns, hisame | ⟨⟨choice, rfl⟩, hlive, _, hcurrent⟩⟩ := hlogout hi hwi
    · have hwritten : 0 < (seen s i).writes := hisame ▸ hwi
      obtain ⟨hkruns, hksame | ⟨_, hcurrent, ⟨_, _, hfound, _⟩ | ⟨hone, _⟩⟩⟩ := hrefresh hk hwk
      · obtain ⟨hone, hcurrent⟩ := h.overtaken i k hiruns hwritten hkruns (hksame ▸ hwk)
        exact ⟨hksame.trans hone, overtaken_step hstale hs hclaims huid hjti hkruns (hksame ▸ hwk) hcurrent⟩
      · exact absurd (h.loggedOut i hiruns hwritten) hfound
      · rw [(h.overtaken i k hiruns hwritten hkruns (by omega)).2] at hcurrent
        cases hcurrent
    · have hki : k ≠ i := by
        rintro rfl
        obtain ⟨p, hp⟩ := hi
        cases AuthInv.runs_unique hk hp
      obtain ⟨hkruns, hksame | ⟨⟨_, he⟩, _⟩⟩ := hrefresh hk hwk
      · refine ⟨?_, hcurrent k hki⟩
        by_contra hne
        exact hlive (h.rotated k hkruns (by omega))
      · cases he
        exact absurd rfl hki

end

/-! ## Runs -/

/-- The user a token is of. -/
def AuthService.tokenUser (svc : AuthService) (token : String) : Option ObjectID :=
  (svc.jwt.claims token).bind fun claims => claims.getBsonObjectUID.toOption

theorem tokenUser_eq {u token claims} (hclaims : svc.jwt.claims token = some claims)
    (huid : claims.getBsonObjectUID = .ok u) : svc.tokenUser token = some u := by
  simp [AuthService.tokenUser, hclaims, huid, Except.toOption]

/-- No call returns a pair for the token of no user. -/
theorem AuthInv.pair (h : AuthInv svc s) {i token pair} (hi : s.Returned i (.refreshToken token) (.ok (.pair pair))) :
    (seen s i).writes = 2 ∧ ∃ claims u, svc.jwt.claims token = some claims ∧ claims.getBsonObjectUID = .ok u := by
  obtain ⟨hwrites, _, before, _, _, claims, _, _, _, hexchanges, _⟩ := h.follows.returned hi
  exact ⟨hwrites, claims, before.id, hexchanges.tokenOf.claims_eq, hexchanges.tokenOf.uid⟩

/-- In a run without stale writes the token's calls keep to `ExchangeInv`. -/
theorem ExchangeInv.exec {u d token claims} (hd : d.jtis.Nodup) (hclaims : svc.jwt.claims token = some claims)
    (huid : claims.getBsonObjectUID = .ok u) {es} (he : (authCalls svc).exec { shared := d } es = some s)
    (hnew : (authCalls svc).Guarded (fun s e => jtiIsNew d.jtis s e = true) { shared := d } es)
    (hstale : (authCalls svc).Guarded (fun s e => notStale u s e = true) { shared := d } es) :
    ExchangeInv svc d.jtis u token claims s :=
  Machine.invariantWhere (fun h hg hs => h.step hg.1 hg.2 hs hclaims huid) he (hnew.and hstale) (ExchangeInv.start hd)

/-- **A refresh token is exchanged at most once**, and not after a `Logout` with
it, in every run in which the token's user is written by callers with a current
copy only. -/
theorem refreshToken_exchangedOnce (svc : AuthService) (d : Directory) (token : String) (es₁ es₂ : List AuthEvent)
    (s₁ s₂ : AuthPool) (hd : d.jtis.Nodup) (h₁ : (authCalls svc).exec { shared := d } es₁ = some s₁)
    (h₂ : (authCalls svc).exec s₁ es₂ = some s₂)
    (hnew : (authCalls svc).Guarded (fun s e => jtiIsNew d.jtis s e = true) { shared := d } (es₁ ++ es₂))
    (hstale : ∀ u, svc.tokenUser token = some u →
      (authCalls svc).Guarded (fun s e => notStale u s e = true) { shared := d } (es₁ ++ es₂)) :
    (∀ i k pair pair', s₂.Returned i (.refreshToken token) (.ok (.pair pair)) →
      s₂.Returned k (.refreshToken token) (.ok (.pair pair')) → i = k) ∧
    ∀ l, s₁.Returned l (.logout token) (.ok .done) →
      ∀ i pair, ¬s₂.Returned i (.refreshToken token) (.ok (.pair pair)) := by
  have he := Machine.exec_trans h₁ h₂
  have hauth : AuthInv svc s₂ := Machine.invariant (fun h hs => h.step hs) he (AuthInv.start d)
  -- A pair that is returned gives the user the token is of.
  have hexchange : ∀ {i pair}, s₂.Returned i (.refreshToken token) (.ok (.pair pair)) →
      (seen s₂ i).writes = 2 ∧ ∃ claims u, ExchangeInv svc d.jtis u token claims s₂ := by
    intro i pair hi
    obtain ⟨hwrites, claims, u, hclaims, huid⟩ := hauth.pair hi
    exact ⟨hwrites, claims, u, ExchangeInv.exec hd hclaims huid he hnew (hstale u (tokenUser_eq hclaims huid))⟩
  refine ⟨fun i k pair pair' hi hk => ?_, fun l hl i pair hi => ?_⟩
  · obtain ⟨hwi, claims, u, hinv⟩ := hexchange hi
    have hwk := (hexchange hk).1
    exact hinv.once i k ⟨_, hi⟩ (by omega) ⟨_, hk⟩ (by omega)
  · obtain ⟨hwi, claims, u, hinv⟩ := hexchange hi
    have hl₂ := returned_exec h₂ hl
    have hwl : (seen s₂ l).writes = 1 := (hauth.follows.returned hl₂).1
    have hone := (hinv.overtaken l i ⟨_, hl₂⟩ (by omega) ⟨_, hi⟩ (by omega)).1
    omega

/-- `Login`, then `RefreshToken` with the token it returned. -/
def loginThenRefresh : List AuthEvent :=
  [.start (.login "user" "secret")] ++ turns 0 13 { xid := .a } ++
    [.start (.refreshToken "##")] ++ turns 1 18 { xid := .b }

theorem refreshToken_exchangedOnce_loginThenRefresh :
    ∃ s, (authCalls oneUser.service).exec { shared := oneUser.directory } loginThenRefresh = some s ∧
      s.Returned 1 (.refreshToken "##") (.ok (.pair ⟨"#", "###"⟩)) ∧
      ∀ k pair, s.Returned k (.refreshToken "##") (.ok (.pair pair)) → 1 = k := by
  refine Machine.exists_exec_of (fun s => s.Returned 1 (.refreshToken "##") (.ok (.pair ⟨"#", "###"⟩)))
    (by decide +kernel) fun s he hi => ?_
  have hstale : ∀ u, oneUser.service.tokenUser "##" = some u → (authCalls oneUser.service).Guarded
      (fun s e => notStale u s e = true) { shared := oneUser.directory } (loginThenRefresh ++ []) := by
    intro u hu
    have huser : oneUser.service.tokenUser "##" = some oneUser.id := by decide +kernel
    cases huser.symm.trans hu
    decide +kernel
  have honce := refreshToken_exchangedOnce oneUser.service oneUser.directory "##" loginThenRefresh [] s s
    (by decide) he rfl (by decide +kernel) hstale
  exact ⟨hi, fun k pair hk => honce.1 1 k _ pair hi hk⟩

/-- Two `RefreshToken` calls that read the user's document before either
replaces it. -/
def refreshTogether : List AuthEvent :=
  [.start (.login "user" "secret")] ++ turns 0 13 { xid := .a } ++
    [.start (.refreshToken "##"), .start (.refreshToken "##")] ++ turns 1 2 {} ++ turns 2 2 {} ++
    turns 1 16 { xid := .b } ++ turns 2 16 { xid := .c }

/-- **Twice**: both return a pair, each of its own session. -/
theorem refreshToken_exchangedTwice :
    (authCalls oneUser.service).Guarded (fun s e => jtiIsNew oneUser.directory.jtis s e = true)
        { shared := oneUser.directory } refreshTogether ∧
      ∃ s, (authCalls oneUser.service).exec { shared := oneUser.directory } refreshTogether = some s ∧
        s.Returned 1 (.refreshToken "##") (.ok (.pair ⟨"#", "###"⟩)) ∧
        s.Returned 2 (.refreshToken "##") (.ok (.pair ⟨"#", "####"⟩)) :=
  ⟨by decide +kernel, Machine.exists_exec (by decide +kernel)⟩

end Gthulhu.Manager
