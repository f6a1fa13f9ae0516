/-
Requests served at once, and the same requests served one after the other.

No lock is held between the load of the configuration file and the update of
the control state, so two requests can load the same file, and the rename of
the second undoes the first (`concurrentRequests_loseField`).
**`concurrentRequests_serial`** says what is missing for the requests to
behave as if served one after the other: a request loads the file only while
no other is between its load and its update, and the check of the version
that it has passed still holds then.

The order is the one in which the versions are settled: by the update, or by
the check when it finds the version applied already. `Linearized` relates a
state of the run to the requests served so far in that order.
-/
import Mathlib.Data.List.Permutation
import Gthulhu.Daemon.SupervisorFacts

namespace Gthulhu.Daemon

open Lib List

/-! ## One after the other -/

/-- The requests served one after the other: the responses, and what is left. -/
def handleAll (host : Host) : Shared → List RuntimeConfigRequest → List Response × Shared
  | d, [] => ([], d)
  | d, req :: reqs =>
    let (r, d) := handleRuntimeConfig host {} d (.ok req)
    let (rs, d) := handleAll host d reqs
    (r :: rs, d)

section

variable {host : Host} {d d' : Shared} {req : RuntimeConfigRequest} {reqs reqs' : List RuntimeConfigRequest}

theorem handleAll_append : handleAll host d (reqs ++ reqs') =
    ((handleAll host d reqs).1 ++ (handleAll host (handleAll host d reqs).2 reqs').1,
      (handleAll host (handleAll host d reqs).2 reqs').2) := by
  induction reqs generalizing d with
  | nil => rfl
  | cons req reqs ih => simp only [cons_append, handleAll, ih]

/-- Served with success, every one of them. -/
def Served (host : Host) (d : Shared) (reqs : List RuntimeConfigRequest) (d' : Shared) : Prop :=
  (∀ r ∈ (handleAll host d reqs).1, r.isSuccess = true) ∧ (handleAll host d reqs).2 = d'

theorem Served.snoc (h : Served host d reqs d')
    (hok : (handleRuntimeConfig host {} d' (.ok req)).1.isSuccess = true) :
    Served host d (reqs ++ [req]) (handleRuntimeConfig host {} d' (.ok req)).2 := by
  obtain ⟨hall, rfl⟩ := h
  refine ⟨fun r hr => ?_, by rw [handleAll_append]; rfl⟩
  rw [handleAll_append] at hr
  rcases mem_append.mp hr with hr | hr
  · exact hall r hr
  · cases mem_singleton.mp hr
    exact hok

theorem Served.of_append (h : Served host d (reqs ++ reqs') d') :
    Served host d reqs (handleAll host d reqs).2 ∧ Served host (handleAll host d reqs).2 reqs' d' := by
  obtain ⟨hall, hd⟩ := h
  rw [handleAll_append] at hall hd
  exact ⟨⟨fun r hr => hall r (mem_append_left _ hr), rfl⟩, fun r hr => hall r (mem_append_right _ hr), hd⟩

theorem Served.of_cons (h : Served host d (req :: reqs) d') :
    (handleRuntimeConfig host {} d (.ok req)).1.isSuccess = true ∧
      Served host (handleRuntimeConfig host {} d (.ok req)).2 reqs d' :=
  ⟨h.1 _ mem_cons_self, fun r hr => h.1 r (mem_cons_of_mem _ hr), h.2⟩

end

/-! ## One request alone -/

section

variable {host : Host} {d : Shared} {req : RuntimeConfigRequest}

theorem handle_noop (hv : req.configVersion ≠ "") (hs : d.state.sameVersion req = true) :
    handleRuntimeConfig host {} d (.ok req) = (.success true, d) := by
  simp [handleRuntimeConfig, hv, hs]

theorem handle_keep (hv : req.configVersion ≠ "") (hs : d.state.sameVersion req = false)
    (hplan : planRuntimeConfig host req d.disk.file = .ok .keep) :
    handleRuntimeConfig host {} d (.ok req) =
      (.success true, { d with state := d.state.set 0 req.configVersion true }) := by
  simp [handleRuntimeConfig, applyRuntimeConfigToFile, hv, hs, hplan]

theorem handle_write {c} (hv : req.configVersion ≠ "") (hs : d.state.sameVersion req = false)
    (hplan : planRuntimeConfig host req d.disk.file = .ok (.write c)) (hp : host.runtimeConfigPath ≠ "") :
    handleRuntimeConfig host {} d (.ok req) =
      (.success false,
        { disk := { file := .doc c.encode, mtime := d.disk.clock, clock := 0 }
          state := d.state.set 0 req.configVersion true
          restartReqCh := true }) := by
  simp [handleRuntimeConfig, applyRuntimeConfigToFile, hv, hs, hplan, Disk.write, writeConfigFile, hp]

/-- All that can come of a request that succeeds. -/
theorem handle_success (hok : (handleRuntimeConfig host {} d (.ok req)).1.isSuccess = true) :
    req.configVersion ≠ "" ∧
      (d.state.sameVersion req = true ∨
        d.state.sameVersion req = false ∧
          (planRuntimeConfig host req d.disk.file = .ok .keep ∨
            host.runtimeConfigPath ≠ "" ∧ ∃ c, planRuntimeConfig host req d.disk.file = .ok (.write c))) := by
  by_cases hv : req.configVersion = ""
  · simp [handleRuntimeConfig, hv, Response.isSuccess] at hok
  refine ⟨hv, ?_⟩
  cases hs : d.state.sameVersion req with
  | true => exact .inl rfl
  | false =>
    refine .inr ⟨rfl, ?_⟩
    cases hplan : planRuntimeConfig host req d.disk.file with
    | error err =>
      simp [handleRuntimeConfig, applyRuntimeConfigToFile, hv, hs, hplan, Response.isSuccess] at hok
    | ok plan =>
      cases plan with
      | keep => exact .inl rfl
      | write c =>
        by_cases hp : host.runtimeConfigPath = ""
        · simp [handleRuntimeConfig, applyRuntimeConfigToFile, hv, hs, hplan, Disk.write, writeConfigFile, hp,
            Response.isSuccess] at hok
        · exact .inr ⟨hp, c, rfl⟩

/-- The version a successful request leaves is its own. -/
theorem handle_version (hok : (handleRuntimeConfig host {} d (.ok req)).1.isSuccess = true) :
    (handleRuntimeConfig host {} d (.ok req)).2.state.configVersion = req.configVersion := by
  obtain ⟨hv, hs | ⟨hs, hplan | ⟨hp, c, hplan⟩⟩⟩ := handle_success hok
  · rw [handle_noop hv hs]
    simp only [ControlState.sameVersion, Bool.and_eq_true, decide_eq_true_eq] at hs
    exact hs.2
  · rw [handle_keep hv hs hplan]
    rfl
  · rw [handle_write hv hs hplan hp]
    rfl

end

/-! ## The order -/

/-- Loaded, and the control state not updated yet. -/
def Handler.active : Handler → Bool
  | .writing _ _ | .updating _ _ => true
  | _ => false

/-- The control state has been updated, or need not be. -/
def Handler.settled : Handler → Bool
  | .sending _ | .responded (.success _) => true
  | _ => false

def Handler.failed : Handler → Bool
  | .failing _ | .responded (.badRequest _) | .responded (.failed _) => true
  | _ => false

/-- The handler is at work on the request. -/
def Handler.Serves (req : RuntimeConfigRequest) : Handler → Prop
  | .received body => body = .ok req
  | .loading r | .writing r _ | .updating r _ => r = req ∧ req.configVersion ≠ ""
  | _ => True

/-- What a request on its way has made of the file that the settled ones have
left. -/
def Handler.Over (host : Host) (d : Shared) (file : File) : Handler → Prop
  | .writing req c =>
    d.state.sameVersion req = false ∧ planRuntimeConfig host req d.disk.file = .ok (.write c) ∧ file = d.disk.file
  | .updating req _ =>
    d.state.sameVersion req = false ∧
      (planRuntimeConfig host req d.disk.file = .ok .keep ∧ file = d.disk.file ∨
        host.runtimeConfigPath ≠ "" ∧
          ∃ c, planRuntimeConfig host req d.disk.file = .ok (.write c) ∧ file = .doc c.encode)
  | _ => True

/-- The requests have arrived, and none has taken a step. -/
def Requests.arrived (d : Shared) (reqs : List RuntimeConfigRequest) : Requests where
  shared := d
  handlers := reqs.map fun req => .received (.ok req)

/-- A load finds no other request between its load and its update, and the
version still a new one. -/
def Requests.Exclusive (s : Requests) (i : Nat) : Prop :=
  ∀ req, s.handlers[i]? = some (.loading req) →
    s.shared.state.sameVersion req = false ∧ ∀ h ∈ s.handlers, h.active = false

/-- The settled requests, in the order they were settled in, served one after
the other leave `d`. -/
structure Linearized (host : Host) (d₀ : Shared) (reqs : List RuntimeConfigRequest) (s : Requests) (order : List Nat)
    (d : Shared) : Prop where
  served : Served host d₀ (order.filterMap fun i => reqs[i]?) d
  nodup : order.Nodup
  settled : ∀ i, i ∈ order ↔ ∃ h : Handler, s.handlers[i]? = some h ∧ h.settled = true
  serves : ∀ (i : Nat) (h : Handler), s.handlers[i]? = some h → ∃ req, reqs[i]? = some req ∧ h.Serves req
  version : s.shared.state.configVersion = d.state.configVersion ∧ s.shared.state.applied = d.state.applied
  busy : ∀ (i : Nat) (h : Handler), s.handlers[i]? = some h → h.active = true →
    h.Over host d s.shared.disk.file ∧ ∀ (j : Nat) (h' : Handler), s.handlers[j]? = some h' → h'.active = true → j = i
  idle : (∀ h ∈ s.handlers, h.active = false) → s.shared.disk.file = d.disk.file

theorem getElem?_set_cases {α : Type} {l : List α} {i j a x} (h : (l.set i a)[j]? = some x) :
    (j = i ∧ x = a) ∨ (j ≠ i ∧ l[j]? = some x) := by
  by_cases hij : j = i
  · subst hij
    rw [getElem?_set] at h
    simp only [if_true] at h
    split at h
    · cases h
      exact .inl ⟨rfl, rfl⟩
    · cases h
  · rw [getElem?_set_ne (Ne.symm hij)] at h
    exact .inr ⟨hij, h⟩

theorem sameVersion_congr {s s' : ControlState} {req}
    (h : s.configVersion = s'.configVersion ∧ s.applied = s'.applied) : s.sameVersion req = s'.sameVersion req := by
  rw [ControlState.sameVersion, ControlState.sameVersion, h.1, h.2]

namespace Linearized

variable {host : Host} {d₀ d : Shared} {reqs : List RuntimeConfigRequest} {s : Requests} {order : List Nat}
  {i : Nat} {h₀ : Handler}

theorem initial : Linearized host d₀ reqs (.arrived d₀ reqs) [] d₀ where
  served := ⟨fun _ hr => absurd hr not_mem_nil, rfl⟩
  nodup := .nil
  settled i := by
    refine ⟨fun h => absurd h not_mem_nil, fun ⟨h, hget, hdone⟩ => ?_⟩
    rw [Requests.arrived, getElem?_map] at hget
    obtain ⟨req, -, rfl⟩ := Option.map_eq_some_iff.mp hget
    cases hdone
  serves i h hget := by
    rw [Requests.arrived, getElem?_map] at hget
    obtain ⟨req, hreq, rfl⟩ := Option.map_eq_some_iff.mp hget
    exact ⟨req, hreq, rfl⟩
  version := ⟨rfl, rfl⟩
  busy i h hget hact := by
    rw [Requests.arrived, getElem?_map] at hget
    obtain ⟨req, -, rfl⟩ := Option.map_eq_some_iff.mp hget
    cases hact
  idle _ := rfl

variable (hl : Linearized host d₀ reqs s order d) (hget : s.handlers[i]? = some h₀)
include hl hget

/-- The handlers that serve requests still do after handler `i` has moved. -/
theorem serves_set {h1} (hserves : ∀ req, h₀.Serves req → h1.Serves req) (j : Nat) (h : Handler)
    (hj : (s.handlers.set i h1)[j]? = some h) : ∃ req, reqs[j]? = some req ∧ h.Serves req := by
  rcases getElem?_set_cases hj with ⟨rfl, rfl⟩ | ⟨-, hj⟩
  · obtain ⟨req, hreq, hs⟩ := hl.serves j h₀ hget
    exact ⟨req, hreq, hserves req hs⟩
  · exact hl.serves j h hj

/-- A step that settles nothing. -/
theorem settled_set {h1} (hsame : h1.settled = h₀.settled) (j : Nat) :
    j ∈ order ↔ ∃ h, (s.handlers.set i h1)[j]? = some h ∧ h.settled = true := by
  rw [hl.settled]
  have hlt : i < s.handlers.length := (List.getElem?_eq_some_iff.mp hget).1
  by_cases hij : j = i
  · subst hij
    rw [getElem?_set_self hlt, hget]
    simp [hsame]
  · rw [getElem?_set_ne (Ne.symm hij)]

/-- A step of a request that is not on its way before or after. -/
theorem moved (h1 : Handler) (hsame : h1.settled = h₀.settled) (hserves : ∀ req, h₀.Serves req → h1.Serves req) (hact0 : h₀.active = false)
    (hact1 : h1.active = false) {shared} (hstate : shared.state = s.shared.state)
    (hdisk : shared.disk = s.shared.disk) :
    Linearized host d₀ reqs { shared := shared, handlers := s.handlers.set i h1 } order d where
  served := hl.served
  nodup := hl.nodup
  settled := hl.settled_set hget hsame
  serves := hl.serves_set hget hserves
  version := hstate ▸ hl.version
  busy j h hj hact := by
    rcases getElem?_set_cases hj with ⟨rfl, rfl⟩ | ⟨hne, hj⟩
    · rw [hact1] at hact
      cases hact
    · obtain ⟨hover, honly⟩ := hl.busy j h hj hact
      refine ⟨hdisk ▸ hover, fun k h' hk hact' => ?_⟩
      rcases getElem?_set_cases hk with ⟨rfl, rfl⟩ | ⟨-, hk⟩
      · rw [hact1] at hact'
        cases hact'
      · exact honly k h' hk hact'
  idle hnone := by
    rw [show shared.disk = s.shared.disk from hdisk]
    refine hl.idle fun h hmem => ?_
    obtain ⟨j, hj⟩ := mem_iff_getElem?.mp hmem
    by_cases hij : j = i
    · subst hij
      cases hget.symm.trans hj
      exact hact0
    · exact hnone h (mem_of_getElem? ((getElem?_set_ne (Ne.symm hij)).trans hj))

/-- A step of the one request on its way, or by which it sets out. -/
theorem onTheWay (h1 : Handler) (hserves : ∀ req, h₀.Serves req → h1.Serves req) (hset0 : h₀.settled = false) (hset1 : h1.settled = false)
    (hact1 : h1.active = true) (hothers : ∀ (j : Nat) (h : Handler), s.handlers[j]? = some h → h.active = true → j = i)
    {shared} (hstate : shared.state = s.shared.state) (hover : h1.Over host d shared.disk.file) :
    Linearized host d₀ reqs { shared := shared, handlers := s.handlers.set i h1 } order d where
  served := hl.served
  nodup := hl.nodup
  settled := hl.settled_set hget (hset1.trans hset0.symm)
  serves := hl.serves_set hget hserves
  version := hstate ▸ hl.version
  busy j h hj hact := by
    rcases getElem?_set_cases hj with ⟨rfl, rfl⟩ | ⟨hne, hj⟩
    · refine ⟨hover, fun k h' hk hact' => ?_⟩
      rcases getElem?_set_cases hk with ⟨rfl, -⟩ | ⟨-, hk⟩
      · rfl
      · exact hothers k h' hk hact'
    · exact absurd (hothers j h hj hact) hne
  idle hnone := by
    have hlt : i < s.handlers.length := (List.getElem?_eq_some_iff.mp hget).1
    rw [hnone h1 (List.mem_of_getElem? (List.getElem?_set_self hlt))] at hact1
    cases hact1

/-- The step that settles request `i`: it is the next one in the order. -/
theorem settle (h1 : Handler) {req} (hreq : reqs[i]? = some req) (hset0 : h₀.settled = false) (hset1 : h1.settled = true) (hact1 : h1.active = false)
    (hserves : ∀ req, h₀.Serves req → h1.Serves req) {shared}
    (hok : (handleRuntimeConfig host {} d (.ok req)).1.isSuccess = true)
    (hversion : shared.state.configVersion = (handleRuntimeConfig host {} d (.ok req)).2.state.configVersion ∧
      shared.state.applied = (handleRuntimeConfig host {} d (.ok req)).2.state.applied)
    (hover : ∀ (j : Nat) (h : Handler), j ≠ i → s.handlers[j]? = some h → h.active = true →
      h.Over host (handleRuntimeConfig host {} d (.ok req)).2 shared.disk.file)
    (hidle : (∀ (j : Nat) (h : Handler), j ≠ i → s.handlers[j]? = some h → h.active = false) →
      shared.disk.file = (handleRuntimeConfig host {} d (.ok req)).2.disk.file) :
    Linearized host d₀ reqs { shared := shared, handlers := s.handlers.set i h1 } (order ++ [i])
      (handleRuntimeConfig host {} d (.ok req)).2 where
  served := by
    rw [filterMap_append]
    simp only [filterMap_cons, hreq, filterMap_nil]
    exact hl.served.snoc hok
  nodup := by
    have hnot : i ∉ order := by
      rw [hl.settled, hget]
      rintro ⟨h, hh, hset⟩
      cases hh
      rw [hset0] at hset
      cases hset
    exact nodup_append.mpr
      ⟨hl.nodup, nodup_singleton i, fun a ha b hb hab => hnot (mem_singleton.mp hb ▸ hab ▸ ha)⟩
  settled j := by
    have hlt : i < s.handlers.length := (List.getElem?_eq_some_iff.mp hget).1
    rw [List.mem_append, List.mem_singleton, hl.settled]
    by_cases hij : j = i
    · subst hij
      simp only [getElem?_set_self hlt, or_true, true_iff]
      exact ⟨h1, rfl, hset1⟩
    · simp [getElem?_set_ne (Ne.symm hij), hij]
  serves := hl.serves_set hget hserves
  version := hversion
  busy j h hj hact := by
    rcases getElem?_set_cases hj with ⟨rfl, rfl⟩ | ⟨hne, hj⟩
    · rw [hact1] at hact
      cases hact
    · refine ⟨hover j h hne hj hact, fun k h' hk hact' => ?_⟩
      rcases getElem?_set_cases hk with ⟨rfl, rfl⟩ | ⟨-, hk⟩
      · rw [hact1] at hact'
        cases hact'
      · exact (hl.busy j h hj hact).2 k h' hk hact'
  idle hnone := hidle fun j h hne hj =>
    hnone h (mem_of_getElem? ((getElem?_set_ne (Ne.symm hne)).trans hj))

omit hget in
/-- The update of the one request on its way settles it. -/
theorem updated {req changed} (hget : s.handlers[i]? = some (.updating req changed)) (now : Int64) (h1 : Handler) (hset1 : h1.settled = true)
    (hact1 : h1.active = false) (hserves : ∀ req', (Handler.updating req changed).Serves req' → h1.Serves req') :
    ∃ order' d', Linearized host d₀ reqs
      { shared := { s.shared with state := s.shared.state.set now req.configVersion true }
        handlers := s.handlers.set i h1 } order' d' := by
  obtain ⟨req', hreq, rfl, hv⟩ := hl.serves i _ hget
  obtain ⟨⟨hnew, hplan⟩, honly⟩ := hl.busy i _ hget rfl
  have hothers : ∀ (j : Nat) (h : Handler), j ≠ i → s.handlers[j]? = some h → h.active = true → False :=
    fun j h hne hj hact => hne (honly j h hj hact)
  rcases hplan with ⟨hplan, hfile⟩ | ⟨hp, c, hplan, hfile⟩
  · refine ⟨_, _, hl.settle hget h1 hreq rfl hset1 hact1 hserves ?_ ?_ (fun j h hne hj hact => (hothers j h hne hj hact).elim)
      fun _ => ?_⟩
    · rw [handle_keep hv hnew hplan]
      rfl
    · rw [handle_keep hv hnew hplan]
      exact ⟨rfl, rfl⟩
    · rw [handle_keep hv hnew hplan]
      exact hfile
  · refine ⟨_, _, hl.settle hget h1 hreq rfl hset1 hact1 hserves ?_ ?_ (fun j h hne hj hact => (hothers j h hne hj hact).elim)
      fun _ => ?_⟩
    · rw [handle_write hv hnew hplan hp]
      rfl
    · rw [handle_write hv hnew hplan hp]
      exact ⟨rfl, rfl⟩
    · rw [handle_write hv hnew hplan hp]
      exact hfile

omit hget in
/-- **One step** by which no request fails. -/
theorem step (hexcl : s.Exclusive i) {choice s'} (hstep : s.step host i choice = some s') (hnone : ∀ h ∈ s'.handlers, h.failed = false) :
    ∃ order' d', Linearized host d₀ reqs s' order' d' := by
  obtain ⟨h₀, hget, rfl⟩ := Option.map_eq_some_iff.mp hstep
  have hlt : i < s.handlers.length := (List.getElem?_eq_some_iff.mp hget).1
  have hself := hnone _ (List.mem_of_getElem? (List.getElem?_set_self hlt))
  obtain ⟨req', hreq, hserves⟩ := hl.serves i h₀ hget
  cases h₀ with
  | received body =>
    cases hserves
    simp only [Handler.step] at hself ⊢
    by_cases hv : req'.configVersion = ""
    · rw [if_pos hv] at hself
      cases hself
    · simp only [if_neg hv]
      cases hs : s.shared.state.sameVersion req' with
      | true =>
        -- The version is applied already: settled by the check.
        have hnoop : handleRuntimeConfig host {} d (.ok req') = (.success true, d) :=
          handle_noop hv ((sameVersion_congr hl.version).symm.trans hs)
        simp only [if_true]
        refine ⟨_, _, hl.settle hget (.responded (.success true)) hreq rfl rfl rfl (fun _ _ => trivial) ?_ ?_ ?_ ?_⟩
        · rw [hnoop]
          rfl
        · rw [hnoop]
          exact hl.version
        · intro j h _ hj hact
          rw [hnoop]
          exact (hl.busy j h hj hact).1
        · intro hidle
          rw [hnoop]
          refine hl.idle fun h hmem => ?_
          obtain ⟨j, hj⟩ := mem_iff_getElem?.mp hmem
          by_cases hij : j = i
          · subst hij
            cases hget.symm.trans hj
            rfl
          · exact hidle j h hij hj
      | false =>
        refine ⟨order, d, hl.moved hget (.loading req') rfl ?_ rfl rfl rfl rfl⟩
        intro req hreq'
        cases hreq'
        exact ⟨rfl, hv⟩
  | loading req =>
    obtain ⟨hnew, hidle⟩ := hexcl req hget
    have hfile := hl.idle hidle
    have hnew' : d.state.sameVersion req = false := (sameVersion_congr hl.version).symm.trans hnew
    have hothers : ∀ (j : Nat) (h : Handler), s.handlers[j]? = some h → h.active = true → j = i := by
      intro j h hj hact
      rw [hidle h (mem_of_getElem? hj)] at hact
      cases hact
    simp only [Handler.step] at hself ⊢
    cases hplan : planRuntimeConfig host req s.shared.disk.file with
    | error err =>
      rw [hplan] at hself
      cases hself
    | ok plan =>
      cases plan with
      | keep =>
        exact ⟨order, d, hl.onTheWay hget (.updating req false) (fun _ h => h) rfl rfl rfl hothers rfl ⟨hnew', .inl ⟨hfile ▸ hplan, hfile⟩⟩⟩
      | write c =>
        exact ⟨order, d, hl.onTheWay hget (.writing req c) (fun _ h => h) rfl rfl rfl hothers rfl ⟨hnew', hfile ▸ hplan, hfile⟩⟩
  | writing req c =>
    obtain ⟨⟨hnew, hplan, -⟩, honly⟩ := hl.busy i _ hget rfl
    simp only [Handler.step] at hself ⊢
    obtain ⟨result, disk, hw⟩ : ∃ result disk, s.shared.disk.write host choice c = (result, disk) := ⟨_, _, rfl⟩
    rw [hw] at hself ⊢
    cases result with
    | error err => cases hself
    | ok u =>
      obtain ⟨hp, rfl⟩ := write_ok hw
      exact ⟨order, d, hl.onTheWay hget (.updating req true) (fun _ h => h) rfl rfl rfl honly rfl ⟨hnew, .inr ⟨hp, c, hplan, rfl⟩⟩⟩
  | updating req changed =>
    cases changed with
    | true => exact hl.updated hget choice.now (.sending req) rfl rfl fun _ _ => trivial
    | false => exact hl.updated hget choice.now (.responded (.success true)) rfl rfl fun _ _ => trivial
  | sending req => exact ⟨order, d, hl.moved hget (.responded (.success false)) rfl (fun _ _ => trivial) rfl rfl rfl rfl⟩
  | failing err => cases hself
  | responded r => exact ⟨order, d, hl.moved hget (.responded r) rfl (fun _ _ => trivial) rfl rfl rfl rfl⟩

end Linearized

/-- A failed request stays so. -/
theorem Handler.failed_step {host choice d} {h : Handler} (hf : h.failed = true) :
    (h.step host choice d).1.failed = true := by
  cases h with
  | failing err => rfl
  | responded r => exact hf
  | received body => cases hf
  | loading req => cases hf
  | writing req c => cases hf
  | updating req changed => cases hf
  | sending req => cases hf

theorem Requests.step_noneFailed {host} {s s' : Requests} {i choice} (hstep : s.step host i choice = some s')
    (hnone : ∀ h ∈ s'.handlers, h.failed = false) :
    ∀ h ∈ s.handlers, h.failed = false := by
  obtain ⟨h₀, hget, -, hself, hothers, -⟩ := Requests.step_inv hstep
  intro h hmem
  obtain ⟨j, hj⟩ := mem_iff_getElem?.mp hmem
  by_cases hij : j = i
  · subst hij
    obtain rfl := Option.some.inj (hget.symm.trans hj)
    cases hf : h₀.failed with
    | false => rfl
    | true =>
      have hfailed := hnone _ (mem_of_getElem? hself)
      rw [Handler.failed_step hf] at hfailed
      cases hfailed
  · exact hnone h (mem_of_getElem? ((hothers j hij).trans hj))

/-- **A whole run.** -/
theorem controlAPI_linearized {host d₀ reqs s0 s events} (h : (controlAPI host).exec s0 events = some s)
    (hexcl : (controlAPI host).Guarded (fun s e => s.Exclusive e.1) s0 events)
    (hinit : ∃ order d, Linearized host d₀ reqs s0 order d) (hnone : ∀ h ∈ s.handlers, h.failed = false) :
    ∃ order d, Linearized host d₀ reqs s order d := by
  refine Machine.invariantWhere (m := controlAPI host) (G := fun s e => s.Exclusive e.1)
    (I := fun s => (∀ h ∈ s.handlers, h.failed = false) → ∃ order d, Linearized host d₀ reqs s order d)
    (fun hi hg hs hnone' => ?_) h hexcl (fun _ => hinit) hnone
  obtain ⟨order, d, hl⟩ := hi (Requests.step_noneFailed hs hnone')
  exact hl.step hg hs hnone'

theorem filterMap_getElem?_range {α : Type} (l : List α) :
    (List.range l.length).filterMap (fun i => l[i]?) = l := by
  induction l with
  | nil => rfl
  | cons a l ih =>
    rw [length_cons, range_succ_eq_map, filterMap_cons]
    simp only [getElem?_cons_zero, filterMap_map]
    exact congrArg (a :: ·) ih

/-- When every request has been settled, all of them are in the order. -/
theorem Linearized.perm {host d₀ d reqs s order} (hl : Linearized host d₀ reqs s order d)
    (hlen : s.handlers.length = reqs.length)
    (hall : ∀ h ∈ s.handlers, h.settled = true) : (order.filterMap fun i => reqs[i]?).Perm reqs := by
  have hperm : order.Perm (List.range reqs.length) := by
    refine (perm_ext_iff_of_nodup hl.nodup nodup_range).mpr fun i => ?_
    rw [hl.settled, List.mem_range, ← hlen]
    refine ⟨fun ⟨h, hget, _⟩ => (List.getElem?_eq_some_iff.mp hget).1, fun hlt => ?_⟩
    exact ⟨_, List.getElem?_eq_getElem hlt, hall _ (List.getElem_mem hlt)⟩
  calc (order.filterMap fun i => reqs[i]?).Perm ((List.range reqs.length).filterMap fun i => reqs[i]?) := hperm.filterMap _
    _ = reqs := filterMap_getElem?_range reqs

/-! ## What a request sets -/

inductive Field where
  | mode | schedulerName | sliceNsDefault | sliceNsMin | kernelMode | maxTimeWatchdog | earlyProcessing | builtinIdle
  | monitoringEnabled
  deriving DecidableEq

inductive Value where
  | text (s : String)
  | number (n : UInt64)
  | flag (b : Bool)
  deriving DecidableEq

def Settings.get (s : Settings) : Field → Value
  | .mode => .text s.mode
  | .schedulerName => .text s.schedulerName
  | .sliceNsDefault => .number s.sliceNsDefault
  | .sliceNsMin => .number s.sliceNsMin
  | .kernelMode => .flag s.kernelMode
  | .maxTimeWatchdog => .flag s.maxTimeWatchdog
  | .earlyProcessing => .flag s.earlyProcessing
  | .builtinIdle => .flag s.builtinIdle
  | .monitoringEnabled => .flag s.monitoringEnabled

/-- The value the request gives to the field, if it sets it. -/
def RuntimeConfigRequest.sets (req : RuntimeConfigRequest) : Field → Option Value
  | .mode => if req.mode ≠ "" then some (.text req.mode) else none
  | .schedulerName => if req.schedulerName ≠ "" then some (.text req.schedulerName) else none
  | .sliceNsDefault => if req.sliceNsDefault ≠ 0 then some (.number req.sliceNsDefault) else none
  | .sliceNsMin => if req.sliceNsMin ≠ 0 then some (.number req.sliceNsMin) else none
  | .kernelMode => req.kernelMode.map .flag
  | .maxTimeWatchdog => req.maxTimeWatchdog.map .flag
  | .earlyProcessing => req.earlyProcessing.map .flag
  | .builtinIdle => req.builtinIdle.map .flag
  | .monitoringEnabled => req.monitoringEnabled.map .flag

/-- The value stays in the file until another is set: a mode that is not
empty, and a watchdog that is on. -/
def Field.Lasting : Field → Value → Prop
  | .mode, v => v ≠ .text ""
  | .maxTimeWatchdog, v => v = .flag true
  | _, _ => True

section

variable {req : RuntimeConfigRequest} {f : Field} {v : Value} {s : Settings}

theorem RuntimeConfigRequest.sets_lasting (hw : req.maxTimeWatchdog ≠ some false) (h : req.sets f = some v) :
    f.Lasting v := by
  cases f with
  | mode =>
    simp only [sets] at h
    split at h
    · rename_i hm
      cases h
      exact fun hv => hm (Value.text.inj hv)
    · cases h
  | maxTimeWatchdog =>
    obtain ⟨b, hb, rfl⟩ := Option.map_eq_some_iff.mp h
    cases b with
    | true => rfl
    | false => exact absurd hb hw
  | _ => trivial

theorem RuntimeConfigRequest.over_get_of_sets (h : req.sets f = some v) : (req.over s).get f = v := by
  cases f with
  | mode =>
    simp only [sets] at h
    split at h
    · rename_i hm
      cases h
      simp only [Settings.get, RuntimeConfigRequest.over, modeOver, hm, if_true, ne_eq, not_false_eq_true]
      cases req.schedulerEnabled <;> simp
    · cases h
  | schedulerName | sliceNsDefault | sliceNsMin =>
    simp only [sets] at h
    split at h <;> cases h
    simp_all [Settings.get, RuntimeConfigRequest.over]
  | _ =>
    obtain ⟨b, hb, rfl⟩ := Option.map_eq_some_iff.mp h
    simp [Settings.get, RuntimeConfigRequest.over, hb]

theorem RuntimeConfigRequest.over_get_of_not_sets (h : req.sets f = none) (hl : f.Lasting (s.get f)) :
    (req.over s).get f = s.get f := by
  cases f with
  | mode =>
    have hm : req.mode = "" := by
      by_contra hm
      simp [sets, hm] at h
    have hs : s.mode ≠ "" := fun hs => hl (congrArg Value.text hs)
    simp only [Settings.get, RuntimeConfigRequest.over, modeOver, hm, ne_eq, not_true_eq_false, if_false]
    cases req.schedulerEnabled <;> simp [hs]
  | schedulerName | sliceNsDefault | sliceNsMin =>
    simp only [sets] at h
    split at h <;> simp_all [Settings.get, RuntimeConfigRequest.over]
  | _ => simp only [Settings.get, RuntimeConfigRequest.over, Option.map_eq_none_iff.mp h, Option.getD_none]

theorem Settings.get_watchdogOn (hl : f.Lasting (s.get f)) : { s with maxTimeWatchdog := true }.get f = s.get f := by
  cases f with
  | maxTimeWatchdog => exact hl.symm
  | _ => rfl

end

/-- The file has the value in the field. -/
def Holds (host : Host) (file : File) (f : Field) (v : Value) : Prop :=
  ∃ c, loadConfig host.runtimeConfigPath file = .ok c ∧ c.settings.get f = v

section

variable {host : Host} {d d' : Shared} {req : RuntimeConfigRequest} {f : Field} {v : Value}

variable (hok : (handleRuntimeConfig host {} d (.ok req)).1.isSuccess = true)
include hok

/-- What a request applied with success makes of the settings. -/
theorem handle_settings (hnew : d.state.sameVersion req = false) :
    ∃ c c', loadConfig host.runtimeConfigPath d.disk.file = .ok c ∧
      loadConfig host.runtimeConfigPath (handleRuntimeConfig host {} d (.ok req)).2.disk.file = .ok c' ∧
      (c'.settings = req.over c.settings ∨ c'.settings = { req.over c.settings with maxTimeWatchdog := true }) := by
  obtain ⟨hv, hs | ⟨-, hplan | ⟨hp, c', hplan⟩⟩⟩ := handle_success hok
  · rw [hnew] at hs
    cases hs
  · obtain ⟨c, hload, -, hkeep⟩ := planRuntimeConfig_eq_ok.mp hplan
    rw [handle_keep hv hnew hplan]
    refine ⟨c, c, hload, hload, .inl ?_⟩
    unfold Config.planFor at hkeep
    split at hkeep
    · rename_i heq
      exact heq.symm
    · cases hkeep
  · obtain ⟨c, hload, -, hwrite⟩ := planRuntimeConfig_eq_ok.mp hplan
    rw [handle_write hv hnew hplan hp]
    refine ⟨c, _, hload, loadConfig_encode hp c', .inr ?_⟩
    unfold Config.planFor at hwrite
    split at hwrite
    · cases hwrite
    · cases hwrite
      rfl

theorem holds_of_sets (hnew : d.state.sameVersion req = false) (hset : req.sets f = some v) (hl : f.Lasting v) :
    Holds host (handleRuntimeConfig host {} d (.ok req)).2.disk.file f v := by
  obtain ⟨c, c', -, hload, hc⟩ := handle_settings hok hnew
  have hover : (req.over c.settings).get f = v := req.over_get_of_sets hset
  refine ⟨c', hload, ?_⟩
  rcases hc with hc | hc
  · rw [hc, hover]
  · rw [hc, Settings.get_watchdogOn (hover ▸ hl), hover]

theorem holds_of_not_sets (hset : req.sets f = none) (hl : f.Lasting v) (hv : Holds host d.disk.file f v) :
    Holds host (handleRuntimeConfig host {} d (.ok req)).2.disk.file f v := by
  cases hs : d.state.sameVersion req with
  | true => rwa [handle_noop (handle_success hok).1 hs]
  | false =>
    obtain ⟨c, c', hload, hload', hc⟩ := handle_settings hok hs
    obtain ⟨c0, hload0, hv⟩ := hv
    cases hload.symm.trans hload0
    subst hv
    have hover := req.over_get_of_not_sets hset hl
    refine ⟨c', hload', ?_⟩
    rcases hc with hc | hc
    · rw [hc, hover]
    · rw [hc, Settings.get_watchdogOn (hover ▸ hl), hover]

omit hok

/-- What holds stays, through requests that do not set the field. -/
theorem Served.holds {reqs} (h : Served host d reqs d') (hset : ∀ req ∈ reqs, req.sets f = none) (hl : f.Lasting v)
    (hv : Holds host d.disk.file f v) :
    Holds host d'.disk.file f v := by
  induction reqs generalizing d with
  | nil =>
    obtain ⟨-, rfl⟩ := h
    exact hv
  | cons req reqs ih =>
    obtain ⟨hok, hrest⟩ := h.of_cons
    exact ih hrest (fun r hr => hset r (mem_cons_of_mem _ hr))
      (holds_of_not_sets hok (hset req mem_cons_self) hl hv)

theorem Served.version {reqs} (h : Served host d reqs d') (hlast : req ∈ reqs.getLast?) :
    d'.state.configVersion = req.configVersion := by
  obtain ⟨init, rfl⟩ := getLast?_eq_some_iff.mp hlast
  obtain ⟨hok, hd⟩ := h.of_append.2.of_cons
  cases hd.2
  exact handle_version hok

end

/-! ## The theorem -/

/-- **Concurrent requests are serial, where a load finds no other request on
its way and its version still new.** The file and the version are what the
requests leave when served one after the other in some order, all with
success; the version is that of the last; and, where no request turns the
watchdog off, a field that a request sets keeps its value unless a later one
sets it. -/
theorem concurrentRequests_serial {host : Host} {d₀ : Shared} {reqs : List RuntimeConfigRequest} {s : Requests}
    {events : List (Nat × Choice)}
    (h : (controlAPI host).exec (.arrived d₀ reqs) events = some s)
    (hok : ∀ h ∈ s.handlers, ∃ noop, h = .responded (.success noop))
    (hexcl : (controlAPI host).Guarded (fun s e => s.Exclusive e.1) (.arrived d₀ reqs) events) :
    ∃ order, order.Perm reqs ∧ (∀ r ∈ (handleAll host d₀ order).1, r.isSuccess = true) ∧
      s.shared.disk.file = (handleAll host d₀ order).2.disk.file ∧
      s.shared.state.configVersion = (handleAll host d₀ order).2.state.configVersion ∧
      (∀ req ∈ order.getLast?, s.shared.state.configVersion = req.configVersion) ∧
      ((∀ req ∈ reqs, req.maxTimeWatchdog ≠ some false) →
        ∀ before req after, order = before ++ req :: after →
          (handleAll host d₀ before).2.state.sameVersion req = false →
          ∀ f v, req.sets f = some v → (∀ r ∈ after, r.sets f = none) → Holds host s.shared.disk.file f v) := by
  have hsettled : ∀ h ∈ s.handlers, h.settled = true ∧ h.failed = false ∧ h.active = false := by
    intro h hmem
    obtain ⟨noop, rfl⟩ := hok h hmem
    exact ⟨rfl, rfl, rfl⟩
  have hlen : s.handlers.length = reqs.length := by
    refine Machine.invariant (m := controlAPI host) (I := fun s => s.handlers.length = reqs.length)
      (fun hi hs => ?_) h (length_map _)
    obtain ⟨-, -, -, -, -, hlen⟩ := Requests.step_inv hs
    exact hlen.trans hi
  obtain ⟨indices, d, hl⟩ := controlAPI_linearized h hexcl ⟨[], d₀, .initial⟩ fun h hmem => (hsettled h hmem).2.1
  have hserved := hl.served
  have hfile := hl.idle fun h hmem => (hsettled h hmem).2.2
  have hperm := hl.perm hlen fun h hmem => (hsettled h hmem).1
  refine ⟨_, hperm, hserved.1, ?_, ?_, ?_, ?_⟩
  · rw [hserved.2, hfile]
  · rw [hserved.2, hl.version.1]
  · exact fun req hlast => hl.version.1.trans (hserved.version hlast)
  · intro hw before req after horder hnew f v hset hafter
    rw [horder] at hserved hperm
    obtain ⟨hreq, hrest⟩ := hserved.of_append.2.of_cons
    have hlasting := req.sets_lasting (hw req (hperm.subset (mem_append_right _ mem_cons_self))) hset
    rw [hfile]
    exact hrest.holds hafter hlasting (holds_of_sets hreq hnew hset hlasting)

namespace Sample

/-- A daemon just started. -/
def daemon : Shared := { disk := disk, state := .bootstrap }

def sliceNs : RuntimeConfigRequest := { configVersion := "1", sliceNsDefault := 5 }

def sliceNsMin : RuntimeConfigRequest := { configVersion := "2", sliceNsMin := 7 }

def requests : Requests := .arrived daemon [sliceNs, sliceNsMin]

/-- The requests take their steps in the order given. -/
def turns (order : List Nat) : List (Nat × Choice) := order.map fun i => (i, {})

end Sample

/-- Both requests load the file before either renames its own, and the default
slice is lost, whichever is taken to be the first. -/
theorem concurrentRequests_loseField :
    ∃ s, (controlAPI Sample.host).exec Sample.requests (Sample.turns [0, 1, 0, 1, 0, 1, 0, 1, 0, 1]) = some s ∧
      (∀ h ∈ s.handlers, ∃ noop, h = .responded (.success noop)) ∧
      ∀ order, order.Perm [Sample.sliceNs, Sample.sliceNsMin] →
        s.shared.disk.file ≠ (handleAll Sample.host Sample.daemon order).2.disk.file := by
  refine Machine.exists_exec_of (fun s => s.handlers = [.responded (.success false), .responded (.success false)] ∧
    s.shared.disk.file ≠ (handleAll Sample.host Sample.daemon [Sample.sliceNs, Sample.sliceNsMin]).2.disk.file ∧
    s.shared.disk.file ≠ (handleAll Sample.host Sample.daemon [Sample.sliceNsMin, Sample.sliceNs]).2.disk.file)
    (by decide +kernel) ?_
  rintro s - ⟨hdone, h₁, h₂⟩
  refine ⟨fun h hmem => ?_, fun order hperm => ?_⟩
  · rw [hdone] at hmem
    simp only [mem_cons, not_mem_nil, or_false, or_self] at hmem
    exact ⟨false, hmem⟩
  · rcases perm_pair.mp hperm with rfl | rfl
    · exact h₁
    · exact h₂

instance (s : Requests) (i : Nat) : Decidable (s.Exclusive i) :=
  match hget : s.handlers[i]? with
  | some (.loading req) =>
    decidable_of_iff (s.shared.state.sameVersion req = false ∧ ∀ h ∈ s.handlers, h.active = false)
      ⟨fun h req' hreq => by cases hget.symm.trans hreq; exact h, fun h => h req hget⟩
  | some (.received _) | some (.writing _ _) | some (.updating _ _) | some (.sending _) | some (.failing _)
  | some (.responded _) | none => .isTrue fun req hreq => by rw [hget] at hreq; cases hreq

/-- The second request is checked before the first has loaded, and loads after
the update of the first: the order is theirs. -/
theorem concurrentRequests_serial_turns :
    ∃ s, (controlAPI Sample.host).exec Sample.requests (Sample.turns [0, 1, 0, 0, 0, 1, 1, 0, 1, 1]) = some s ∧
      ∃ order, order.Perm [Sample.sliceNs, Sample.sliceNsMin] ∧
        s.shared.disk.file = (handleAll Sample.host Sample.daemon order).2.disk.file := by
  refine Machine.exists_exec_of (fun s => s.handlers = [.responded (.success false), .responded (.success false)])
    (by decide +kernel) fun s hrun hdone => ?_
  obtain ⟨order, hperm, -, hfile, -⟩ := concurrentRequests_serial hrun
    (fun h hmem => by
      rw [hdone] at hmem
      simp only [mem_cons, not_mem_nil, or_false, or_self] at hmem
      exact ⟨false, hmem⟩)
    (by decide +kernel)
  exact ⟨order, hperm, hfile⟩

end Gthulhu.Daemon
