/-
Operations on users one after the other. A call that succeeds replaces the
document it has read with the last one it wrote; one that refuses, without a
failure of its own calls, changes nothing (`call_cases`).
-/
import Gthulhu.Manager.AuthPoolFacts

namespace Gthulhu.Manager

open Lib AuthService Directory

abbrev AuthEntry : Type := Entry Directory AuthOp AuthCall AuthCall.Resp (Except Error AuthResult)

abbrev AuthSerial : Type := Serial Directory AuthOp AuthCall AuthCall.Resp (Except Error AuthResult)

/-- Calls that do not overlap. What the environment decides for a call is given
for each of its own calls, by their number. -/
def authSerial (svc : AuthService) : Machine AuthSerial (AuthOp × (Nat → AuthChoice)) :=
  Serial.machine (AuthOp.program svc) (Directory.answer svc)

/-- What can be told from the calls of an entry. -/
def view (entry : AuthEntry) : AuthView := entry.calls.foldl AuthView.next {}

/-! ## On the way -/

/-- What holds inside a call that was made in state `d₀`, while no call of its own
has failed. -/
structure Held (d₀ : Directory) (v : AuthView) (d : Directory) : Prop where
  unwritten : v.writes = 0 → d = d₀
  first : ∀ doc, v.docs.getLast? = some doc → doc ∈ d₀.users
  last : ∀ doc, v.docs.head? = some doc →
    ∀ u, d.sessions u = if u = doc.id then some doc.sessions else d₀.sessions u
  missed : ∀ opt, v.missed = some opt → ∀ user ∈ d₀.users, opt.selects user = false

theorem Held.start (d : Directory) : Held d {} d := by
  refine ⟨fun _ => rfl, fun doc hdoc => ?_, fun doc hdoc => ?_, fun opt hopt => ?_⟩
  · cases hdoc
  · cases hdoc
  · cases hopt

theorem filter_empty_of_read {svc choice} {d d' : Directory} {opt}
    (h : d.answer svc choice (.findUsers opt) = (.ok [], d')) : d' = d ∧ ∀ user ∈ d.users, opt.selects user = false := by
  obtain ⟨h1, h2⟩ := Prod.mk.inj h
  refine ⟨h2.symm, fun user huser => ?_⟩
  by_contra hselects
  have hmem : user ∈ reorder choice.order (d.users.filter opt.selects) :=
    mem_reorder.mpr (List.mem_filter.mpr ⟨huser, by simpa using hselects⟩)
  rw [← Outcome.read_ok h1] at hmem
  cases hmem

theorem mem_of_read {svc choice} {d d' : Directory} {opt user rest}
    (h : d.answer svc choice (.findUsers opt) = (.ok (user :: rest), d')) :
    d' = d ∧ user ∈ d.users := by
  obtain ⟨h1, h2⟩ := Prod.mk.inj h
  have hmem : user ∈ reorder choice.order (d.users.filter opt.selects) := by simp [← Outcome.read_ok h1]
  exact ⟨h2.symm, (List.mem_filter.mp (mem_reorder.mp hmem)).1⟩

section

variable {svc : AuthService} {d₀ d d' : Directory} {v : AuthView} {op : AuthOp} {choice : AuthChoice}

/-- The first document stays the first one. -/
theorem first_cons {user} (hheld : Held d₀ v d) (hmem : v.docs = [] → user ∈ d₀.users) :
    ∀ doc, (user :: v.docs).getLast? = some doc → doc ∈ d₀.users := by
  intro doc hdoc
  cases hdocs : v.docs with
  | nil =>
    rw [hdocs] at hdoc
    cases hdoc
    exact hmem hdocs
  | cons other rest =>
    rw [hdocs, List.getLast?_cons_cons] at hdoc
    exact hheld.first doc (hdocs ▸ hdoc)

theorem held_findUsers {opt r} (hheld : Held d₀ v d) (hcall : op.Calls svc v (.findUsers opt))
    (h : d.answer svc choice (.findUsers opt) = (r, d'))
    (hok : (v.next ⟨.findUsers opt, r⟩).failed = false) : Held d₀ (v.next ⟨.findUsers opt, r⟩) d' := by
  have hd : d = d₀ := hheld.unwritten hcall
  match r with
  | .ok [] =>
    obtain ⟨rfl, hmissed⟩ := filter_empty_of_read h
    refine ⟨hheld.unwritten, fun doc hdoc => ?_, fun doc hdoc => ?_, fun opt' hopt => ?_⟩
    · cases hdoc
    · cases hdoc
    · cases hopt
      exact hd ▸ hmissed
  | .ok (user :: rest) =>
    obtain ⟨rfl, hmem⟩ := mem_of_read h
    subst hd
    refine ⟨fun _ => rfl, first_cons hheld fun _ => hmem, fun doc hdoc u => ?_, hheld.missed⟩
    cases hdoc
    split
    · rename_i hu
      rw [hu]
      exact sessions_of_mem hmem
    · rfl
  | .error err => cases hok

theorem held_replaceUser {user r} (hheld : Held d₀ v d) (hcall : op.Calls svc v (.replaceUser user))
    (h : d.answer svc choice (.replaceUser user) = (r, d'))
    (hok : (v.next ⟨.replaceUser user, r⟩).failed = false) : Held d₀ (v.next ⟨.replaceUser user, r⟩) d' := by
  match r with
  | .ok false => cases hok
  | .error err => cases hok
  | .ok true =>
    obtain ⟨_, _, before, hbefore, hwrites⟩ := hcall
    have hid : user.id = before.id := writes_id hwrites
    have hstored : ∀ u, d'.sessions u = if u = user.id then some user.sessions else d.sessions u := by
      rcases answer_replaceUser h with ⟨hne, _⟩ | hd
      · exact absurd rfl hne
      · exact hd
    refine ⟨fun hzero => ?_, first_cons hheld fun hnil => ?_, fun doc hdoc u => ?_, hheld.missed⟩
    · cases hzero
    · rw [hnil] at hbefore
      cases hbefore
    · cases hdoc
      rw [hstored, hheld.last before hbefore, ← hid]
      split <;> rfl

/-- A failed call is not forgotten. -/
theorem AuthView.failed_of_next {v : AuthView} {e} (h : (v.next e).failed = false) : v.failed = false := by
  unfold AuthView.next at h
  split at h <;> first | exact h | cases h

theorem Held.next {call r} (hheld : v.failed = false → Held d₀ v d) (hcall : op.Calls svc v call)
    (h : d.answer svc choice call = (r, d'))
    (hok : (v.next ⟨call, r⟩).failed = false) : Held d₀ (v.next ⟨call, r⟩) d' := by
  have hheld := hheld (AuthView.failed_of_next hok)
  cases call with
  | findUsers opt => exact held_findUsers hheld hcall h hok
  | replaceUser user => exact held_replaceUser hheld hcall h hok
  | findRoles opt =>
    cases answer_other h (fun _ hcall => by cases hcall)
    cases r with
    | error err => cases hok
    | ok roles => exact hheld
  | now | newXid =>
    cases answer_other h (fun _ hcall => by cases hcall)
    exact ⟨hheld.unwritten, hheld.first, hheld.last, hheld.missed⟩
  | signedString claims =>
    cases answer_other h (fun _ hcall => by cases hcall)
    cases r with
    | error err => cases hok
    | ok token => exact hheld

end

/-! ## Whole calls -/

variable {svc : AuthService} {s s' : AuthSerial} {op : AuthOp} {env : Nat → AuthChoice}

/-- A document of `d` is replaced in `d'`; nothing else changes. -/
structure Replaces (d d' : Directory) (before after : User) : Prop where
  mem : before ∈ d.users
  sessions : ∀ u, d'.sessions u = if u = before.id then some after.sessions else d.sessions u

/-- **What a call does**: it returns a result and no call of its own has failed, or
an error; and if no call has failed then either, it has done nothing. -/
theorem call_cases (hs : (authSerial svc).step s (op, env) = some s') :
    ∃ entry, s'.log = s.log ++ [entry] ∧ entry.before = s.shared ∧ entry.op = op ∧
      ((∃ err, entry.result = .error err ∧ ((view entry).failed = false →
          Held s.shared (view entry) s'.shared ∧ s'.shared = s.shared ∧ op.Refuses svc (view entry))) ∨
        ∃ result, entry.result = .ok result ∧ Held s.shared (view entry) s'.shared ∧
          (view entry).writes = op.writes ∧ op.Returns svc (view entry) result) := by
  obtain ⟨entry, hlog, hbefore, hop, hends, hheld⟩ := Serial.along (s := s) (program_along svc) (answer_lawful svc)
    (fun v d => v.failed = false → Held s.shared v d) (fun v d choice call r d' hheld hcall hr hok =>
      Held.next hheld hcall hr hok) (fun _ => Held.start s.shared) hs
  refine ⟨entry, hlog, hbefore, hop, ?_⟩
  cases hresult : entry.result with
  | error err =>
    rw [hresult] at hends
    refine .inl ⟨err, rfl, fun hok => ?_⟩
    obtain ⟨hzero, hrefuses⟩ := hends.2 hok
    exact ⟨hheld hok, (hheld hok).unwritten hzero, hrefuses⟩
  | ok result =>
    rw [hresult] at hends
    obtain ⟨hwrites, hok, hreturns⟩ := hends
    exact .inr ⟨result, rfl, hheld hok, hwrites, hreturns⟩

/-- Two documents: the one read, and the one written in its place. -/
theorem Held.replaces {d d' v before after} (h : Held d v d') (hid : after.id = before.id)
    (hlast : v.docs.getLast? = some before) (hhead : v.docs.head? = some after) : Replaces d d' before after :=
  ⟨h.first before hlast, fun u => by rw [h.last after hhead, hid]⟩

end Gthulhu.Manager
