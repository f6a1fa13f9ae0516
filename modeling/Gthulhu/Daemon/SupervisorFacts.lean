/-
No change of the configuration file is lost by the supervisor.

The send on the restart channel gives up when there is a token already, so a
rewrite need not have a token of its own. What holds at every moment of every
run is `System.Covered`: as long as the supervisor has not resolved the latest
contents of the file, there is a token, or a request that has renamed the file
and is still to send one, or the supervisor has taken a token after the rename
and is on its way to resolve (**`supervisor_losesNoChange`**). So it never
waits on an old configuration with nothing to wake it.
-/
import Gthulhu.Daemon.RuntimeConfigFacts
import Gthulhu.Daemon.Supervisor

namespace Gthulhu.Daemon

open Lib

/-! ## What a request does to the channel -/

/-- Between the rename and the send. -/
def Handler.inFlight : Handler → Bool
  | .updating _ changed => changed
  | .sending _ => true
  | _ => false

section

variable {host : Host} {choice : Choice} {d : Shared} {h : Handler}

theorem Handler.inFlight_of_rewrites (hr : h.rewrites host choice d = true) :
    (h.step host choice d).1.inFlight = true := by
  cases h with
  | writing req c =>
    simp only [Handler.rewrites] at hr
    obtain ⟨result, disk, hw⟩ : ∃ result disk, d.disk.write host choice c = (result, disk) := ⟨_, _, rfl⟩
    rw [hw] at hr
    cases result with
    | error err => cases hr
    | ok u => simp [Handler.step, hw, Handler.inFlight]
  | received body => cases hr
  | loading req => cases hr
  | updating req changed => cases hr
  | sending req => cases hr
  | failing err => cases hr
  | responded r => cases hr

/-- A request in flight stays so, or leaves a token. -/
theorem Handler.step_inFlight (hf : h.inFlight = true) :
    (h.step host choice d).1.inFlight = true ∨ (h.step host choice d).2.restartReqCh = true := by
  cases h with
  | updating req changed =>
    simp only [Handler.inFlight] at hf
    exact .inl (by simp [Handler.step, hf, Handler.inFlight])
  | sending req => exact .inr rfl
  | received body => cases hf
  | loading req => cases hf
  | writing req c => cases hf
  | failing err => cases hf
  | responded r => cases hf

/-- No request takes a token. -/
theorem Handler.step_token (ht : d.restartReqCh = true) : (h.step host choice d).2.restartReqCh = true := by
  cases h with
  | received body =>
    cases body with
    | error err => exact ht
    | ok req =>
      simp only [Handler.step]
      split
      · exact ht
      · split <;> exact ht
  | loading req | writing req c =>
    simp only [Handler.step]
    split <;> exact ht
  | updating req changed => exact ht
  | sending req => rfl
  | failing err => exact ht
  | responded r => exact ht

end

/-! ## The invariant -/

/-- The supervisor will come to know of the latest rewrite. -/
def System.Covered (s : System) : Prop :=
  s.shared.restartReqCh = true ∨ (∃ h ∈ s.handlers, h.inFlight = true) ∨
    (s.received = s.rewrites ∧ (s.phase = .stopping ∨ s.phase = .resolving))

/-- The file has been rewritten since the supervisor last resolved it. -/
def System.Outdated (s : System) : Prop := s.resolved < s.rewrites

/-- What one step of a request leaves: the others are where they were. -/
theorem Requests.step_inv {host} {s s' : Requests} {i choice} (h : s.step host i choice = some s') :
    ∃ h0, s.handlers[i]? = some h0 ∧ s'.shared = (h0.step host choice s.shared).2 ∧
      s'.handlers[i]? = some (h0.step host choice s.shared).1 ∧
      (∀ j, j ≠ i → s'.handlers[j]? = s.handlers[j]?) ∧ s'.handlers.length = s.handlers.length := by
  obtain ⟨h0, hget, rfl⟩ := Option.map_eq_some_iff.mp h
  have hlt : i < s.handlers.length := (List.getElem?_eq_some_iff.mp hget).1
  refine ⟨h0, hget, rfl, ?_, fun j hj => ?_, List.length_set⟩
  · exact List.getElem?_set_self hlt
  · exact List.getElem?_set_ne (Ne.symm hj)

theorem System.covered_of_handle {host} {s s' : System} {i choice} (hi : s.Outdated → s.Covered)
    (h : s.step host (.handle i choice) = some s') : s'.Outdated → s'.Covered := by
  intro hout
  simp only [System.step, Option.bind_eq_bind, Option.bind_eq_some_iff, Option.some.injEq] at h
  obtain ⟨h0, hget, requests, hstep, rfl⟩ := h
  obtain ⟨h1, hget', hshared, hself, hothers, -⟩ := Requests.step_inv hstep
  cases hget.symm.trans hget'
  by_cases hr : h0.rewrites host choice s.shared = true
  · exact .inr (.inl ⟨_, List.mem_of_getElem? hself, Handler.inFlight_of_rewrites hr⟩)
  · have hsame : (s.rewrites + if h0.rewrites host choice s.shared = true then 1 else 0) = s.rewrites := by
      rw [if_neg hr, Nat.add_zero]
    have hout' : s.Outdated := by
      unfold System.Outdated at hout ⊢
      simp only [hsame] at hout
      exact hout
    rcases hi hout' with ht | ⟨h2, hmem, hf⟩ | ⟨hrec, hphase⟩
    · exact .inl (hshared ▸ Handler.step_token ht)
    · obtain ⟨j, hj⟩ := List.mem_iff_getElem?.mp hmem
      by_cases hij : j = i
      · subst hij
        cases hget.symm.trans hj
        rcases Handler.step_inFlight hf with hf' | ht
        · exact .inr (.inl ⟨_, List.mem_of_getElem? hself, hf'⟩)
        · exact .inl (hshared ▸ ht)
      · exact .inr (.inl ⟨h2, List.mem_of_getElem? ((hothers j hij).trans hj), hf⟩)
    · exact .inr (.inr ⟨by simp only [hsame]; exact hrec, hphase⟩)

/-- A step of the supervisor that is not on its way to resolve. -/
theorem System.Covered.of_phase {s s' : System} (hc : s.Covered) (hstop : s.phase ≠ .stopping)
    (hres : s.phase ≠ .resolving) (ht : s'.shared.restartReqCh = s.shared.restartReqCh)
    (hh : s'.handlers = s.handlers) : s'.Covered := by
  rcases hc with hc | hc | ⟨-, hp⟩
  · exact .inl (ht.trans hc)
  · exact .inr (.inl (hh ▸ hc))
  · rcases hp with hp | hp
    · exact absurd hp hstop
    · exact absurd hp hres

/-- **One step.** -/
theorem System.covered_of_step {host} {s s' : System} {e} (hi : s.Outdated → s.Covered)
    (h : s.step host e = some s') : s'.Outdated → s'.Covered := by
  cases e with
  | arrive body =>
    cases h
    intro hout
    rcases hi hout with ht | ⟨h0, hmem, hf⟩ | hp
    · exact .inl ht
    · exact .inr (.inl ⟨h0, List.mem_append_left _ hmem, hf⟩)
    · exact .inr (.inr hp)
  | handle i choice => exact System.covered_of_handle hi h
  | resolve support =>
    simp only [System.step] at h
    split at h
    · cases h
      exact fun hout => absurd hout (lt_irrefl _)
    · cases h
  | start result | childExit unsupported =>
    simp only [System.step] at h
    split at h
    · rename_i hphase
      cases h
      exact fun hout => (hi hout).of_phase (by rw [hphase]; nofun) (by rw [hphase]; nofun) rfl rfl
    · cases h
  | signal =>
    simp only [System.step] at h
    split at h
    · rename_i hwaits
      cases h
      exact fun hout => (hi hout).of_phase (fun hp => by rw [hp] at hwaits; cases hwaits)
        (fun hp => by rw [hp] at hwaits; cases hwaits) rfl rfl
    · cases h
  | receive =>
    simp only [System.step] at h
    split at h
    · cases h
      refine fun _ => .inr (.inr ⟨rfl, ?_⟩)
      by_cases hrunning : s.phase = .running
      · exact .inl (if_pos hrunning)
      · exact .inr (if_neg hrunning)
    · cases h
  | resume =>
    simp only [System.step] at h
    split at h
    · cases h
      intro hout
      rcases hi hout with ht | hf | ⟨hrec, -⟩
      · exact .inl ht
      · exact .inr (.inl hf)
      · exact .inr (.inr ⟨hrec, .inr rfl⟩)
    · cases h

/-- **No change is lost.** In every state a daemon can reach, an outdated
supervisor is covered; so one that waits with no request in flight has a token
to wake it. -/
theorem supervisor_losesNoChange (host : Host) (disk : Disk) {events : List Event} {s : System}
    (h : (daemon host).exec (.initial disk) events = some s) :
    (s.Outdated → s.Covered) ∧
      (s.phase.waits = true → s.Outdated → (∀ h ∈ s.handlers, h.inFlight = false) → s.shared.restartReqCh = true) := by
  have hcovered : s.Outdated → s.Covered :=
    Machine.invariant (m := daemon host) (I := fun s => s.Outdated → s.Covered) (fun hi hs => System.covered_of_step hi hs) h
      fun hout => absurd hout (lt_irrefl _)
  refine ⟨hcovered, fun hwaits hout hnone => ?_⟩
  rcases hcovered hout with ht | ⟨h₀, hmem, hf⟩ | ⟨-, hp⟩
  · exact ht
  · rw [hnone h₀ hmem] at hf
    cases hf
  · rcases hp with hp | hp <;> rw [hp] at hwaits <;> cases hwaits

/-- The child runs, and a request has rewritten the file and is about to update
the control state. -/
theorem supervisor_losesNoChange_inFlight :
    ∃ s, (daemon Sample.host).exec (.initial Sample.disk)
        [.resolve (.ok ()), .start (.ok ()), .arrive (.ok (Sample.watchdog false)), .handle 0 {}, .handle 0 {},
          .handle 0 {}] = some s ∧ s.phase = .running ∧ s.Outdated ∧ s.Covered := by
  refine Machine.exists_exec_of (fun s => s.phase = .running ∧ s.resolved < s.rewrites) (by decide +kernel) ?_
  rintro s hrun ⟨hphase, hout⟩
  exact ⟨hphase, hout, (supervisor_losesNoChange Sample.host Sample.disk hrun).1 hout⟩

end Gthulhu.Daemon
