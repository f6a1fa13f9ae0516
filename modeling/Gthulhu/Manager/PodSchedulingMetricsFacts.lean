/-
Who changes a PodSchedulingMetrics object, and what a change keeps.

`UpdatePodSchedulingMetrics` loads the object to validate ownership, as its
comment says, and then takes the creator and the creation time from it without
comparing the creator with the operator. So the identity of an object survives
every update (`identity_run`), and anyone can make one: an update of another's
object is refused only where it fails before it gets there
(`update_byCreator_iff`).
-/
import Gthulhu.Manager.PodSchedulingMetrics

namespace Gthulhu.Manager

open Lib Prog List Objects Run

/-! ## Names -/

/-- A name that the server takes is the hexadecimal form of the ID it is read as. -/
theorem hex_of_validName {name id} (h : objectIDFromHex name = .ok id)
    (hvalid : validName name = true) : id.hex = name := by
  have hlower : ∀ c ∈ name.toList, c.isUpper = false := by simpa [validName] using hvalid
  unfold objectIDFromHex at h
  split at h
  · cases h
  · rename_i bytes hdecode
    split at h
    · cases h
      exact hexEncode_of_hexDecode hdecode hlower
    · cases h

section

variable {objs : Objects} {name : String} {obj old : Unstructured}

theorem Objects.get_eq_ok : objs.get name = .ok obj ↔ obj ∈ objs.objects ∧ obj.getName = name := by
  unfold Objects.get
  constructor
  · intro h
    split at h
    · rename_i found hfind
      cases h
      exact ⟨mem_of_find?_eq_some hfind, by simpa using find?_some hfind⟩
    · cases h
  · intro h
    split
    · rename_i found hfind
      have hfound : found.getName = obj.getName := by simpa [h.2] using find?_some hfind
      rw [inj_on_of_nodup_map objs.nodup (mem_of_find?_eq_some hfind) h.1 hfound]
    · rename_i hfind
      have hnone := find?_eq_none.mp hfind obj h.1
      simp [h.2] at hnone

theorem Objects.get_update (hget : objs.get name = .ok old) (hname : obj.getName = name) :
    (objs.update obj).1 = .ok () ∧ (objs.update obj).2.get name = .ok obj := by
  obtain ⟨hmem, hold⟩ := get_eq_ok.mp hget
  have hin : obj.getName ∈ objs.objects.map Unstructured.getName := mem_map.mpr ⟨old, hmem, hold.trans hname.symm⟩
  unfold Objects.update
  rw [if_pos hin]
  refine ⟨rfl, get_eq_ok.mpr ⟨mem_map.mpr ⟨old, hmem, ?_⟩, hname⟩⟩
  exact if_pos (hold.trans hname.symm)

theorem Objects.get_update_of_ne (hget : objs.get name = .ok old) (hname : obj.getName ≠ name) :
    (objs.update obj).2.get name = .ok old := by
  obtain ⟨hmem, hold⟩ := get_eq_ok.mp hget
  unfold Objects.update
  split
  · refine get_eq_ok.mpr ⟨mem_map.mpr ⟨old, hmem, ?_⟩, hold⟩
    exact if_neg fun heq => hname (heq.symm.trans hold)
  · exact hget

theorem Objects.get_create (hget : objs.get name = .ok old) : (objs.create obj).2.get name = .ok old := by
  obtain ⟨hmem, hold⟩ := get_eq_ok.mp hget
  unfold Objects.create
  split
  · exact hget
  · exact get_eq_ok.mpr ⟨mem_append_left _ hmem, hold⟩

end

/-! ## What an operation does -/

/-- The object of this name reads as `psm`. -/
def PSMObjects.Holds (objs : PSMObjects) (name : String) (psm : PodSchedulingMetrics) : Prop :=
  ∃ obj, objs.get name = .ok obj ∧ unstructuredToDomainPSM obj = .ok psm

/-- What an update stores. -/
def PodSchedulingMetrics.updated (psm old : PodSchedulingMetrics) (id operatorID : ObjectID) : PodSchedulingMetrics :=
  { psm with id := id, createdTime := old.createdTime, creatorID := old.creatorID, updaterID := operatorID }

/-- What a creation stores, with the times of the service and of the repository. -/
def PodSchedulingMetrics.created (psm : PodSchedulingMetrics) (id operatorID : ObjectID) (time now : Int64) :
    PodSchedulingMetrics :=
  { psm with
    id := id
    createdTime := if time = 0 then now else time
    updatedTime := now
    creatorID := operatorID
    updaterID := operatorID
    collectionIntervalSeconds := if psm.collectionIntervalSeconds = 0 then 10 else psm.collectionIntervalSeconds }

section

variable {crNamespace : String} {env : Nat → Choice} {s s' : PSMObjects × Nat} {es : List (Event PSMCall.Resp)}

open PSM

/-- An operation on these objects, run. -/
abbrev PSMRuns (env : Nat → Choice) {α : Type} (x : PSM α) (s : PSMObjects × Nat) (es : List (Event PSMCall.Resp))
    (r : Except Error α) (s' : PSMObjects × Nat) : Prop :=
  Run (Serial.handler PSMObjects.answer env) x.run s es r s'

/-- A request that writes: carried out or not, whatever the answer. -/
theorem write_inv {α σ : Type} {outcome : Outcome} {before after : σ} {result : Except Error α × σ} {r : Except Error α}
    (h : outcome.write before result = (r, after)) :
    (after = before ∧ ∃ err, r = .error err) ∨ (after = result.2 ∧ ∀ a, r = .ok a → result.1 = .ok a) := by
  cases outcome with
  | ok =>
    refine .inr ⟨(congrArg Prod.snd h).symm, fun a ha => ?_⟩
    exact (congrArg Prod.fst h).trans ha
  | refused => exact .inl ⟨(congrArg Prod.snd h).symm, _, (congrArg Prod.fst h).symm⟩
  | lost =>
    refine .inr ⟨(congrArg Prod.snd h).symm, fun a ha => ?_⟩
    cases (congrArg Prod.fst h).trans ha

theorem Outcome.answer_of_read {α : Type} {outcome : Outcome} {answer : Except Error α} {a : α}
    (h : outcome.read answer = .ok a) : answer = .ok a := by
  cases outcome with
  | ok => exact h
  | refused => cases h
  | lost => cases h

theorem get_run {name r} (h : PSMRuns env (get name) s es r s') :
    s'.1 = s.1 ∧ ∀ obj, r = .ok obj → s.1.get name = .ok obj := by
  obtain ⟨-, hget⟩ := call_inv h
  simp only [Serial.handler, PSMObjects.answer, Prod.mk.injEq] at hget
  obtain ⟨hr, hs⟩ := hget
  refine ⟨by rw [← hs], fun obj hobj => ?_⟩
  rw [hobj] at hr
  exact Outcome.answer_of_read hr

theorem now_run {r} (h : PSMRuns env PSM.now s es r s') :
    r = .ok (env s.2).now ∧ s' = (s.1, s.2 + 1) := by
  obtain ⟨t, rfl, hrun⟩ := lift_inv h
  obtain ⟨-, hcall⟩ := call_inv hrun
  cases hcall
  exact ⟨rfl, rfl⟩

theorem newObjectID_run {r} (h : PSMRuns env newObjectID s es r s') :
    r = .ok (env s.2).newID ∧ s' = (s.1, s.2 + 1) := by
  obtain ⟨id, rfl, hrun⟩ := lift_inv h
  obtain ⟨-, hcall⟩ := call_inv hrun
  cases hcall
  exact ⟨rfl, rfl⟩

/-- What is read is what is stored. -/
theorem getPSMs_run {names} : ∀ {s s' : PSMObjects × Nat} {es : List (Event PSMCall.Resp)}
    {r : Except Error (List PodSchedulingMetrics)},
    PSMRuns env (getPSMs names) s es r s' →
      s'.1 = s.1 ∧ ∀ psms, r = .ok psms → ∀ psm ∈ psms, ∃ name ∈ names, s.1.Holds name psm := by
  induction names with
  | nil =>
    intro s s' es r h
    obtain ⟨-, rfl, rfl⟩ := pure_ok_inv h
    refine ⟨rfl, fun psms hpsms psm hpsm => ?_⟩
    cases hpsms
    cases hpsm
  | cons name names ih =>
    intro s s' es r h
    obtain ⟨a, s1, _, _, h1, h2, rfl⟩ := attempt_bind_inv h
    obtain ⟨hs1, hobj⟩ := get_run h1
    -- what is found for the rest
    have hrest : ∀ {es' r' s2}, PSMRuns env (getPSMs names) s1 es' r' s2 →
        s2.1 = s.1 ∧ ∀ psms, r' = .ok psms → ∀ psm ∈ psms, ∃ name' ∈ name :: names, s.1.Holds name' psm := by
      intro es' r' s2 hrun
      obtain ⟨hs2, hread⟩ := ih hrun
      refine ⟨hs2.trans hs1, fun psms hpsms psm hpsm => ?_⟩
      obtain ⟨name', hname', hholds⟩ := hread psms hpsms psm hpsm
      exact ⟨name', mem_cons_of_mem _ hname', hs1 ▸ hholds⟩
    cases a with
    | error err =>
      dsimp only at h2
      split at h2
      · exact hrest h2
      · obtain ⟨-, rfl, rfl⟩ := throw_inv h2
        exact ⟨hs1, fun psms hpsms => by cases hpsms⟩
    | ok obj =>
      rcases except_bind_inv h2 with ⟨err, rfl, h3⟩ | ⟨psm, s2, _, _, h3, h4, rfl⟩
      · obtain ⟨-, -, rfl⟩ := ret_inv h3
        exact ⟨hs1, fun psms hpsms => by cases hpsms⟩
      obtain ⟨-, hdecode, rfl⟩ := ret_inv h3
      rcases except_bind_inv h4 with ⟨err, rfl, h5⟩ | ⟨rest, _, _, _, h5, h6, rfl⟩
      · exact ⟨(hrest h5).1, fun psms hpsms => by cases hpsms⟩
      · obtain ⟨-, rfl, rfl⟩ := pure_ok_inv h6
        refine ⟨(hrest h5).1, fun psms hpsms psm' hpsm' => ?_⟩
        cases hpsms
        rcases mem_cons.mp hpsm' with rfl | hmem
        · exact ⟨name, mem_cons_self, obj, hobj obj rfl, hdecode.symm⟩
        · exact (hrest h5).2 rest rfl psm' hmem

theorem queryPSMs_run {ids r}
    (h : PSMRuns env (queryPSMs ids) s es r s') : s'.1 = s.1 := by
  unfold queryPSMs at h
  split at h
  · exact (getPSMs_run h).1
  · rcases except_bind_inv h with ⟨err, rfl, h1⟩ | ⟨items, _, _, _, h1, h2, rfl⟩
    · obtain ⟨-, hlist⟩ := call_inv h1
      exact (congrArg (fun result => result.2.1) hlist).symm
    · obtain ⟨-, -, rfl⟩ := ret_inv h2
      obtain ⟨-, hlist⟩ := call_inv h1
      exact (congrArg (fun result => result.2.1) hlist).symm

/-- **A creation** stores a record with the two times the clock showed, or nothing. -/
theorem create_run {operator psm r}
    (h : PSMRuns env (createPodSchedulingMetrics crNamespace operator psm) s es r s') :
    s'.1 = s.1 ∨ ∃ id uid, s'.1 = (s.1.create (domainPSMToUnstructured
      (psm.created id uid (env s.2).now (env (s.2 + 2)).now) crNamespace)).2 ∧ s'.2 = s.2 + 4 := by
  rcases except_bind_inv h with ⟨err, rfl, h1⟩ | ⟨uid, _, _, _, h1, h2, rfl⟩
  · rcases mapError_inv h1 with ⟨a, ha, -⟩ | ⟨e, -, hrun⟩
    · cases ha
    · obtain ⟨-, -, rfl⟩ := ret_inv hrun
      exact .inl rfl
  obtain ⟨-, -, rfl⟩ := ret_inv (mapError_ok h1)
  rcases except_bind_inv h2 with ⟨err, -, h3⟩ | ⟨t, _, _, _, h3, h4, rfl⟩
  · cases (now_run h3).1
  obtain ⟨ht, rfl⟩ := now_run h3
  cases ht
  rcases except_bind_inv h4 with ⟨err, -, h5⟩ | ⟨id, _, _, _, h5, h6, rfl⟩
  · cases (newObjectID_run h5).1
  obtain ⟨hid, rfl⟩ := newObjectID_run h5
  cases hid
  rcases except_bind_inv h6 with ⟨err, -, h7⟩ | ⟨t', _, _, es8, h7, h8, rfl⟩
  · cases (now_run h7).1
  obtain ⟨ht', rfl⟩ := now_run h7
  cases ht'
  obtain ⟨r', hcreate⟩ : ∃ r', PSMRuns env (PSM.create _) _ es8 r' s' := by
    rcases mapError_inv h8 with ⟨a, -, hrun⟩ | ⟨e, -, hrun⟩
    · exact ⟨_, hrun⟩
    · exact ⟨_, hrun⟩
  obtain ⟨-, hwrite⟩ := call_inv hcreate
  simp only [Serial.handler, Prod.mk.injEq] at hwrite
  rcases write_inv (Prod.ext hwrite.1 (congrArg Prod.fst hwrite.2)) with ⟨hsame, -⟩ | ⟨hwritten, -⟩
  · exact .inl hsame
  · exact .inr ⟨_, uid, hwritten, (congrArg Prod.snd hwrite.2).symm⟩

/-- **An update** fails and changes nothing, or writes over the object it has
read. The answer to the write may be lost. -/
theorem update_run {operator name psm r}
    (h : PSMRuns env (updatePodSchedulingMetrics crNamespace operator name psm) s es r s') :
    (s'.1 = s.1 ∧ ∃ err, r = .error err) ∨
      ∃ id uid old, objectIDFromHex name = .ok id ∧ operator.getBsonObjectUID = .ok uid ∧ s.1.Holds name old ∧
        s'.1 = (s.1.update (domainPSMToUnstructured (psm.updated old id uid) crNamespace)).2 := by
  rcases except_bind_inv h with ⟨err, rfl, h1⟩ | ⟨id, _, _, _, h1, h2, rfl⟩
  · rcases mapError_inv h1 with ⟨a, ha, -⟩ | ⟨e, -, hrun⟩
    · cases ha
    · obtain ⟨-, -, rfl⟩ := ret_inv hrun
      exact .inl ⟨rfl, err, rfl⟩
  obtain ⟨-, hid, rfl⟩ := ret_inv (mapError_ok h1)
  rcases except_bind_inv h2 with ⟨err, rfl, h3⟩ | ⟨uid, _, _, _, h3, h4, rfl⟩
  · rcases mapError_inv h3 with ⟨a, ha, -⟩ | ⟨e, -, hrun⟩
    · cases ha
    · obtain ⟨-, -, rfl⟩ := ret_inv hrun
      exact .inl ⟨rfl, err, rfl⟩
  obtain ⟨-, huid, rfl⟩ := ret_inv (mapError_ok h3)
  rcases except_bind_inv h4 with ⟨err, rfl, h5⟩ | ⟨found, _, _, _, h5, h6, rfl⟩
  · exact .inl ⟨(getPSMs_run h5).1, err, rfl⟩
  obtain ⟨hs3, hfound⟩ := getPSMs_run h5
  cases found with
  | nil =>
    obtain ⟨-, rfl, rfl⟩ := throw_inv h6
    exact .inl ⟨hs3, _, rfl⟩
  | cons old rest =>
    obtain ⟨name', hname', hholds⟩ := hfound _ rfl old mem_cons_self
    rw [mem_singleton.mp hname'] at hholds
    rcases except_bind_inv h6 with ⟨err, rfl, h7⟩ | ⟨obj, _, _, _, h7, h8, rfl⟩
    · rcases mapError_inv h7 with ⟨a, ha, -⟩ | ⟨e, -, hrun⟩
      · cases ha
      · exact .inl ⟨(get_run hrun).1.trans hs3, err, rfl⟩
    have hs4 := (get_run (mapError_ok h7)).1.trans hs3
    obtain ⟨-, hwrite⟩ := call_inv h8
    simp only [Serial.handler, Prod.mk.injEq] at hwrite
    rcases write_inv (Prod.ext hwrite.1 (congrArg Prod.fst hwrite.2)) with ⟨hsame, herr⟩ | ⟨hwritten, -⟩
    · exact .inl ⟨hsame.trans hs4, herr⟩
    · exact .inr ⟨id, uid, old, hid.symm, huid.symm, hholds, hwritten.trans (congrArg (fun objs => (PSMObjects.update objs _).2) hs4)⟩

/-- **A deletion** deletes the object of this name, or changes nothing. -/
theorem delete_run {name r}
    (h : PSMRuns env (deletePodSchedulingMetrics name) s es r s') :
    s'.1 = s.1 ∨ s'.1 = (s.1.delete name).2 := by
  rcases except_bind_inv h with ⟨err, -, h1⟩ | ⟨found, _, _, _, h1, h2, rfl⟩
  · exact .inl (queryPSMs_run h1)
  have hs1 := queryPSMs_run h1
  cases found with
  | nil =>
    obtain ⟨-, -, rfl⟩ := throw_inv h2
    exact .inl hs1
  | cons psm rest =>
    obtain ⟨a, s2, _, _, h3, h4, rfl⟩ := attempt_bind_inv h2
    obtain ⟨-, hwrite⟩ := call_inv h3
    simp only [Serial.handler, Prod.mk.injEq] at hwrite
    have hs' : s' = s2 := by
      cases a with
      | ok u =>
        obtain ⟨-, -, hs'⟩ := pure_ok_inv h4
        exact hs'
      | error err =>
        dsimp only at h4
        split at h4
        · obtain ⟨-, -, hs'⟩ := pure_ok_inv h4
          exact hs'
        · obtain ⟨-, -, hs'⟩ := throw_inv h4
          exact hs'
    rw [hs']
    rcases write_inv (Prod.ext hwrite.1 (congrArg Prod.fst hwrite.2)) with ⟨hsame, -⟩ | ⟨hwritten, -⟩
    · exact .inl (hsame.trans hs1)
    · exact .inr (hwritten.trans (congrArg (fun objs => (PSMObjects.delete objs name).2) hs1))

/-- **An update that nothing stops**, when every request is carried out. -/
theorem update_result {operator name psm old id uid} (henv : ∀ n, (env n).outcome = .ok)
    (hid : objectIDFromHex name = .ok id) (huid : operator.getBsonObjectUID = .ok uid) (hold : s.1.Holds name old) :
    (result (Serial.handler PSMObjects.answer env)
      (updatePodSchedulingMetrics crNamespace operator name psm).run s).1 = .ok () := by
  obtain ⟨obj, hget, hdecode⟩ := hold
  have hname : id.hex = name := by
    obtain ⟨hmem, hname⟩ := get_eq_ok.mp hget
    exact hex_of_validName hid (hname ▸ s.1.valid obj hmem)
  have hread : ∀ n, result (Serial.handler PSMObjects.answer env) (get name).run (s.1, n) = (.ok obj, (s.1, n + 1)) := by
    intro n
    have hanswer : Serial.handler PSMObjects.answer env (.get name) (s.1, n) =
        ((env n).outcome.read (s.1.get name), (s.1, n + 1)) := rfl
    rw [henv n, hget] at hanswer
    exact result_perform.trans hanswer
  have hfound : result (Serial.handler PSMObjects.answer env) (queryPSMs [name]).run s = (.ok [old], (s.1, s.2 + 1)) := by
    have hparse : result (Serial.handler PSMObjects.answer env) (parse (unstructuredToDomainPSM obj)).run (s.1, s.2 + 1) =
        (.ok old, (s.1, s.2 + 1)) := congrArg (·, (s.1, s.2 + 1)) hdecode
    exact (result_attempt_bind (hread s.2)).trans ((result_ok_bind hparse).trans rfl)
  have hwrite : (s.1.toObjects.update (domainPSMToUnstructured (psm.updated old id uid) crNamespace)).1 = .ok () :=
    (get_update hget (getName_customResource.trans hname)).1
  have hid' : result (Serial.handler PSMObjects.answer env)
      (wrapping ("invalid PSM ID " ++ name) (parse (objectIDFromHex name))).run s = (.ok id, s) :=
    result_mapError (congrArg (·, s) hid)
  have huid' : result (Serial.handler PSMObjects.answer env) (PSM.operatorID operator).run s = (.ok uid, s) :=
    result_mapError (congrArg (·, s) huid)
  have hcheck : result (Serial.handler PSMObjects.answer env)
      (wrapping "get PodSchedulingMetrics CR for update" (get id.hex)).run (s.1, s.2 + 1) = (.ok obj, (s.1, s.2 + 2)) :=
    result_mapError (hname ▸ hread (s.2 + 1))
  have hupdate : (result (Serial.handler PSMObjects.answer env)
      (updatePSM crNamespace (psm.updated old id uid)).run (s.1, s.2 + 1)).1 = .ok () := by
    rw [show result (Serial.handler PSMObjects.answer env) (updatePSM crNamespace (psm.updated old id uid)).run
        (s.1, s.2 + 1) = _ from result_ok_bind hcheck]
    have hanswer : (result (Serial.handler PSMObjects.answer env)
        (PSM.update (domainPSMToUnstructured (psm.updated old id uid) crNamespace)).run (s.1, s.2 + 2)).1 =
        ((env (s.2 + 2)).outcome.write s.1 (s.1.update (domainPSMToUnstructured (psm.updated old id uid) crNamespace))).1 := rfl
    rw [henv] at hanswer
    exact hanswer.trans hwrite
  rw [show result (Serial.handler PSMObjects.answer env) (updatePodSchedulingMetrics crNamespace operator name psm).run s = _ from
    (result_ok_bind hid').trans ((result_ok_bind huid').trans (result_ok_bind hfound))]
  exact hupdate

end

/-! ## Operations one after the other -/

abbrev PSMSerial : Type := Serial PSMObjects PSMOp PSMCall PSMCall.Resp (Except Error Unit)

def psmSerial (crNamespace : String) : Machine PSMSerial (PSMOp × (Nat → Choice)) :=
  Serial.machine (fun op => (op.program crNamespace).run) PSMObjects.answer

/-- What never changes of an object. -/
def PodSchedulingMetrics.SameIdentity (old new : PodSchedulingMetrics) : Prop :=
  new.id = old.id ∧ new.creatorID = old.creatorID ∧ new.createdTime = old.createdTime

/-- The update is refused, and changes nothing, if the object has another creator. -/
def Refuses (before after : PSMObjects) (operator : Claims) (name : String) (result : Except Error Unit) : Prop :=
  ∀ obj old, before.get name = .ok obj → unstructuredToDomainPSM obj = .ok old →
    operator.getBsonObjectUID ≠ .ok old.creatorID → (∃ err, result = .error err) ∧ after.get name = .ok obj

/-- The object of this name, if it can be updated at all, was created by the operator. -/
def ByCreator (objs : PSMObjects) (operator : Claims) (name : String) : Prop :=
  ∀ id uid old, objectIDFromHex name = .ok id → operator.getBsonObjectUID = .ok uid → objs.Holds name old →
    uid = old.creatorID

section

variable {crNamespace : String} {objs objs' : PSMObjects} {name : String} {psm old : PodSchedulingMetrics}

theorem PSMObjects.Holds.hex {id} (h : objs.Holds name old) (hid : objectIDFromHex name = .ok id) :
    id.hex = name := by
  obtain ⟨obj, hget, -⟩ := h
  obtain ⟨hmem, hname⟩ := get_eq_ok.mp hget
  exact hex_of_validName hid (hname ▸ objs.valid obj hmem)

/-- What an object reads as has the ID its name is the text of. -/
theorem PSMObjects.Holds.id {id} (h : objs.Holds name old) (hid : objectIDFromHex name = .ok id) : old.id = id := by
  have hhex := h.hex hid
  obtain ⟨obj, hget, hdecode⟩ := h
  have hname := (get_eq_ok.mp hget).2
  unfold unstructuredToDomainPSM at hdecode
  cases hspec : readSpec "PodSchedulingMetrics" obj with
  | error err =>
    rw [hspec] at hdecode
    cases hdecode
  | ok spec =>
    rw [hspec] at hdecode
    cases hdecode
    subst hhex
    simp [readOptionalID, parseObjectIDField, hname, hid]

theorem PSMObjects.Holds.unique {new} (h : objs.Holds name old) (h' : objs.Holds name new) :
    new = old := by
  obtain ⟨obj, hget, hdecode⟩ := h
  obtain ⟨obj', hget', hdecode'⟩ := h'
  cases hget.symm.trans hget'
  exact Except.ok.inj (hdecode'.symm.trans hdecode)

/-- The object that was updated. -/
theorem holds_updated {id uid} (hid : objectIDFromHex name = .ok id) (h : objs.Holds name old) :
    (objs.update (domainPSMToUnstructured (psm.updated old id uid) crNamespace)).2.Holds name (psm.updated old id uid) := by
  have hhex := h.hex hid
  obtain ⟨obj, hget, -⟩ := h
  exact ⟨_, (get_update hget (getName_customResource.trans hhex)).2, psm_roundTrip _ _⟩

theorem sameIdentity_updated {id uid} (hid : objectIDFromHex name = .ok id) (h : objs.Holds name old) :
    old.SameIdentity (psm.updated old id uid) :=
  ⟨(h.id hid).symm, rfl, rfl⟩

theorem PSMObjects.get_create {obj old} (hget : objs.get name = .ok old) :
    (objs.create obj).2.get name = .ok old := by
  unfold PSMObjects.create
  split
  · exact Objects.get_create hget
  · exact hget

/-- Another object is not changed. -/
theorem holds_updated_of_ne {name' other id uid} (hid : objectIDFromHex name = .ok id) (h : objs.Holds name old)
    (hne : name ≠ name') (hother : objs.Holds name' other) :
    (objs.update (domainPSMToUnstructured (psm.updated old id uid) crNamespace)).2.Holds name' other := by
  have hhex := h.hex hid
  obtain ⟨obj, hget, hdecode⟩ := hother
  refine ⟨obj, get_update_of_ne hget ?_, hdecode⟩
  rw [show (domainPSMToUnstructured (psm.updated old id uid) crNamespace).getName = name from getName_customResource.trans hhex]
  exact hne

end

section

variable {crNamespace : String} {env : Nat → Choice} {s s' : PSMObjects × Nat} {es : List (Event PSMCall.Resp)}
  {r : Except Error Unit}

open PSM

theorem list_run {ids}
    (h : PSMRuns env (PSMOp.program crNamespace (.list ids)) s es r s') : s'.1 = s.1 := by
  rcases except_bind_inv h with ⟨err, rfl, h1⟩ | ⟨found, _, _, _, h1, h2, rfl⟩
  · exact queryPSMs_run h1
  · obtain ⟨-, -, rfl⟩ := pure_ok_inv h2
    exact queryPSMs_run h1

/-- **The step**: what every operation but a deletion keeps of an object. -/
theorem identity_step {op : PSMOp} (hop : ∀ operator name, op ≠ .delete operator name)
    (h : PSMRuns env (op.program crNamespace) s es r s') {name : String}
    {old : PodSchedulingMetrics} (hold : s.1.Holds name old) : ∃ new, s'.1.Holds name new ∧ old.SameIdentity new := by
  have hsame : s'.1 = s.1 → ∃ new, s'.1.Holds name new ∧ old.SameIdentity new :=
    fun heq => ⟨old, heq ▸ hold, rfl, rfl, rfl⟩
  cases op with
  | create operator psm =>
    rcases create_run h with heq | ⟨id, uid, heq, -⟩
    · exact hsame heq
    · obtain ⟨obj, hget, hdecode⟩ := hold
      rw [heq]
      exact ⟨old, ⟨obj, PSMObjects.get_create hget, hdecode⟩, rfl, rfl, rfl⟩
  | list ids => exact hsame (list_run h)
  | update operator name' psm =>
    rcases update_run h with ⟨heq, -⟩ | ⟨id, uid, old', hid, -, hold', heq⟩
    · exact hsame heq
    by_cases hname : name' = name
    · subst hname
      cases hold.unique hold'
      rw [heq]
      exact ⟨_, holds_updated hid hold, sameIdentity_updated hid hold⟩
    · rw [heq]
      exact ⟨old, holds_updated_of_ne hid hold' hname hold, rfl, rfl, rfl⟩
  | delete operator name' => exact absurd rfl (hop operator name')

/-- **The run**: the identity of an object outlives every sequence of creations and updates. -/
theorem identity_run {m m' events} (h : (psmSerial crNamespace).exec m events = some m')
    (hops : ∀ e ∈ events, ∀ operator name, e.1 ≠ .delete operator name) {name old}
    (hold : m.shared.Holds name old) : ∃ new, m'.shared.Holds name new ∧ old.SameIdentity new := by
  refine Machine.invariantWhere (G := fun _ e => ∀ operator name, e.1 ≠ .delete operator name)
    (I := fun m => ∃ new, m.shared.Holds name new ∧ old.SameIdentity new) ?_ h (Machine.guarded_of_forall hops)
    ⟨old, hold, rfl, rfl, rfl⟩
  intro m1 e m2 hsome hop hstep
  obtain ⟨new, hnew, hid, hcreator, htime⟩ := hsome
  obtain ⟨_, r, n, hcalls, -⟩ := Serial.step_run hstep
  obtain ⟨newer, hnewer, hid', hcreator', htime'⟩ := identity_step hop hcalls hnew
  exact ⟨newer, hnewer, hid'.trans hid, hcreator'.trans hcreator, htime'.trans htime⟩

end

/-- **Anyone can update**: an update of an object with another creator is refused
only where it fails before it writes. What an update keeps, it keeps. -/
theorem update_byCreator_iff (crNamespace : String) (operator : Claims) (name : String) (psm : PodSchedulingMetrics)
    (env : Nat → Choice) (m m₁ m₂ : PSMSerial) (events : List (PSMOp × (Nat → Choice)))
    (hrun : (psmSerial crNamespace).exec m events = some m₁)
    (hops : ∀ e ∈ events, ∀ operator name, e.1 ≠ .delete operator name)
    (hstep : (psmSerial crNamespace).step m₁ (.update operator name psm, env) = some m₂) :
    (∀ name old, m.shared.Holds name old → ∃ new, m₁.shared.Holds name new ∧ old.SameIdentity new) ∧
    ∃ entry, m₂.log = m₁.log ++ [entry] ∧
      (entry.result = .ok () → ∃ old new, m₁.shared.Holds name old ∧ m₂.shared.Holds name new ∧ old.SameIdentity new) ∧
      (ByCreator m₁.shared operator name → Refuses m₁.shared m₂.shared operator name entry.result) ∧
      ((∀ n, (env n).outcome = .ok) →
        (Refuses m₁.shared m₂.shared operator name entry.result ↔ ByCreator m₁.shared operator name)) := by
  refine ⟨fun name old hold => identity_run hrun hops hold, ?_⟩
  obtain ⟨_, r, n, hcalls, hlog⟩ := Serial.step_run hstep
  refine ⟨_, hlog, fun hok => ?_, ?_⟩
  · rcases update_run hcalls with ⟨-, err, herr⟩ | ⟨id, uid, old, hid, -, hold, heq⟩
    · cases herr.symm.trans hok
    · refine ⟨old, _, hold, heq ▸ holds_updated hid hold, sameIdentity_updated hid hold⟩
  have hsuffices : ByCreator m₁.shared operator name → Refuses m₁.shared m₂.shared operator name r := by
    intro hby obj old hget hdecode hne
    rcases update_run hcalls with ⟨heq, herr⟩ | ⟨id, uid, old', hid, huid, hold, -⟩
    · have heq : m₂.shared = m₁.shared := heq
      exact ⟨herr, heq ▸ hget⟩
    · rw [hby id uid old hid huid ⟨obj, hget, hdecode⟩] at huid
      exact absurd huid hne
  refine ⟨hsuffices, fun henv => ⟨fun hrefuses id uid old hid huid hold => ?_, hsuffices⟩⟩
  by_contra hne
  have hold' := hold
  obtain ⟨obj, hget, hdecode⟩ := hold
  have hother : operator.getBsonObjectUID ≠ .ok old.creatorID := by
    rw [huid]
    exact fun heq => hne (Except.ok.inj heq)
  obtain ⟨⟨err, herr⟩, -⟩ := hrefuses obj old hget hdecode hother
  have hok : (result (Serial.handler PSMObjects.answer env)
      (PSM.updatePodSchedulingMetrics crNamespace operator name psm).run (m₁.shared, 0)).1 = .ok () :=
    update_result henv hid huid hold'
  have hr : (result (Serial.handler PSMObjects.answer env)
      (PSM.updatePodSchedulingMetrics crNamespace operator name psm).run (m₁.shared, 0)).1 = r :=
    congrArg (fun run => run.2.1) hcalls.eq_exec
  cases (hok.symm.trans hr).trans herr

/-- Two operators and an object, for the runs below. -/
def TwoOperators.id (byte : UInt8) : ObjectID := ⟨List.replicate 12 byte, ObjectID.length_replicate byte⟩

def TwoOperators.psm (commandRegex : String) : PodSchedulingMetrics where
  labelSelectors := []
  k8sNamespaces := []
  commandRegex := commandRegex
  collectionIntervalSeconds := 10
  enabled := true
  metrics := none
  scaling := none

/-- The object is created by operator 1. -/
def TwoOperators.create : PSMOp × (Nat → Choice) :=
  (.create ⟨(TwoOperators.id 1).hex⟩ (TwoOperators.psm "a"), fun _ => { newID := TwoOperators.id 3, now := 1 })

def TwoOperators.update (byte : UInt8) : PSMOp × (Nat → Choice) :=
  (.update ⟨(TwoOperators.id byte).hex⟩ (TwoOperators.id 3).hex (TwoOperators.psm "b"), fun _ => { now := 2 })

theorem update_byCreator_iff_own :
    ∃ m₁ m₂ entry, (psmSerial "gthulhu").exec { shared := .empty } [TwoOperators.create] = some m₁ ∧
      (psmSerial "gthulhu").step m₁ (TwoOperators.update 1) = some m₂ ∧ m₂.log = m₁.log ++ [entry] ∧
      (Refuses m₁.shared m₂.shared ⟨(TwoOperators.id 1).hex⟩ (TwoOperators.id 3).hex entry.result ↔
        ByCreator m₁.shared ⟨(TwoOperators.id 1).hex⟩ (TwoOperators.id 3).hex) := by
  obtain ⟨m₁, hrun, -⟩ : ∃ m₁, (psmSerial "gthulhu").exec { shared := .empty } [TwoOperators.create] = some m₁ ∧ True :=
    ⟨_, rfl, trivial⟩
  obtain ⟨m₂, hstep⟩ : ∃ m₂, (psmSerial "gthulhu").step m₁ (TwoOperators.update 1) = some m₂ := ⟨_, rfl⟩
  have hops : ∀ e ∈ [TwoOperators.create], ∀ operator name, e.1 ≠ .delete operator name := by
    intro e he operator name
    rw [mem_singleton.mp he]
    simp [TwoOperators.create]
  obtain ⟨-, entry, hlog, -, -, hiff⟩ := update_byCreator_iff "gthulhu" _ _ _ _ _ m₁ m₂ _ hrun hops hstep
  exact ⟨m₁, m₂, entry, hrun, hstep, hlog, hiff fun _ => rfl⟩

/-- What is read of the objects: who created them, who updated them last, and the text. -/
def PSMObjects.summary (objs : PSMObjects) : List (ObjectID × ObjectID × String) :=
  objs.objects.filterMap fun obj =>
    (unstructuredToDomainPSM obj).toOption.map fun psm => (psm.creatorID, psm.updaterID, psm.commandRegex)

/-- **By another operator**: the object of operator 1 is changed by operator 2. -/
theorem update_byOther :
    ∃ m, (psmSerial "gthulhu").exec { shared := .empty } [TwoOperators.create, TwoOperators.update 2] = some m ∧
      m.log.map (fun entry => (entry.result, entry.before.summary)) =
        [(.ok (), []), (.ok (), [(TwoOperators.id 1, TwoOperators.id 1, "a")])] ∧
      m.shared.summary = [(TwoOperators.id 1, TwoOperators.id 2, "b")] :=
  Machine.exists_exec (by decide +kernel)

end Gthulhu.Manager
