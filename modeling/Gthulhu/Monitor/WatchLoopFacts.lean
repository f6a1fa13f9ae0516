/-
Whether the watcher's specs are those of the cluster, whenever it has handled
what the watch has delivered.

Every object that is there and parses has its latest spec. An entry stays,
though, when the DELETED event of its object is not delivered, because no
watch was open or the open one broke first, and when an object comes not to
parse; a new watch says nothing of objects that are gone. The specs are
the cluster's if and only if that never happens (**`specs_follow_iff`**).
-/
import Gthulhu.Monitor.ReconcileFacts
import Gthulhu.Monitor.WatchLoop

namespace Gthulhu.Monitor

open Lib AList Function Option Machine

/-! ## One event -/

@[simp] theorem Watcher.reconcile_specs (pass : Pass) (w : Watcher) : (w.reconcile pass).specs = w.specs := by
  have hsynced : ∀ (pids : List UInt32) (state : Watcher × List Warning) (desired : List String),
      (pids.foldl (syncPID pass.reads pass.fault desired) state).1.specs = state.1.specs := by
    intro pids
    induction pids with
    | nil => exact fun _ _ => rfl
    | cons pid pids ih => exact fun state desired => (ih _ desired).trans (syncPID_cases (Prod.eta _).symm).1.specs
  rw [reconcile, reconcilePIDs_eq]
  exact (foldl_dropVanished (Prod.eta _).symm).2.1.trans (hsynced _ _ _)

section

variable {parse : Unstructured → Option PodSchedulingMetrics} {specs : String → Option PodSchedulingMetrics}

/-- What is known of each key after an event. -/
def observe (parse : Unstructured → Option PodSchedulingMetrics) (specs : String → Option PodSchedulingMetrics)
    (event : WatchEvent) : String → Option PodSchedulingMetrics :=
  match event.object with
  | none => specs
  | some obj =>
    match event.type with
    | .added | .modified =>
      match parse obj with
      | none => specs
      | some psm => Function.update specs (objectKey obj) (some psm)
    | .deleted => Function.update specs (objectKey obj) none
    | .bookmark | .error => specs

theorem lookup_insert_eq (m : StrMap PodSchedulingMetrics) (key : String) (psm : PodSchedulingMetrics) :
    (fun key' => (m.insert key psm).lookup key') = Function.update m.lookup key (some psm) := by
  funext key'
  by_cases h : key' = key
  · subst h
    rw [lookup_insert, update_self]
  · rw [lookup_insert_ne h, update_of_ne h]

theorem lookup_erase_eq (m : StrMap PodSchedulingMetrics) (key : String) :
    (fun key' => (m.erase key).lookup key') = Function.update m.lookup key none := by
  funext key'
  by_cases h : key' = key
  · subst h
    rw [lookup_erase, update_self]
  · rw [lookup_erase_ne h, update_of_ne h]

theorem Watcher.handleEvent_lookup (unmarshal : Fields → Option PodSchedulingMetrics) (pass : Pass) (w : Watcher)
    (event : WatchEvent) :
    (fun key => (w.handleEvent unmarshal pass event).specs.lookup key) =
      observe (parsePSM unmarshal) (fun key => w.specs.lookup key) event := by
  obtain ⟨type, object⟩ := event
  cases object with
  | none => rfl
  | some obj =>
    cases type with
    | added | modified =>
      simp only [handleEvent, observe]
      cases parsePSM unmarshal obj with
      | none => rfl
      | some psm => simpa using lookup_insert_eq w.specs (objectKey obj) psm
    | deleted => simpa [handleEvent, observe] using lookup_erase_eq w.specs (objectKey obj)
    | bookmark | error => rfl

/-- An object that does not parse leaves what is known. -/
theorem observe_added (obj : Unstructured) :
    observe parse specs ⟨.added, some obj⟩ =
      Function.update specs (objectKey obj) ((parse obj).or (specs (objectKey obj))) := by
  simp only [observe]
  cases parse obj with
  | none => rw [none_or, update_eq_self]
  | some psm => rw [some_or]

theorem observe_modified (obj : Unstructured) :
    observe parse specs ⟨.modified, some obj⟩ =
      Function.update specs (objectKey obj) ((parse obj).or (specs (objectKey obj))) := observe_added obj

theorem observe_deleted (obj : Unstructured) :
    observe parse specs ⟨.deleted, some obj⟩ = Function.update specs (objectKey obj) none := rfl

theorem observe_notice {event} (h : event.type = .bookmark ∨ event.type = .error) :
    observe parse specs event = specs := by
  unfold observe
  cases event.object with
  | none => rfl
  | some obj => obtain h | h := h <;> rw [h]

/-- The events that a watch starts with, at one key: `found` is what the objects under it
parse to. -/
theorem observe_all {key : String} {found : Option PodSchedulingMetrics} {l : List Unstructured}
    (h : ∀ obj ∈ l, objectKey obj = key → parse obj = found)
    (hmem : found.or (specs key) = specs key ∨ ∃ obj ∈ l, objectKey obj = key) :
    (l.map fun obj => (⟨.added, some obj⟩ : WatchEvent)).foldl (observe parse) specs key = found.or (specs key) := by
  induction l generalizing specs with
  | nil => simpa [eq_comm] using hmem
  | cons obj l ih =>
    have hrest : ∀ obj' ∈ l, objectKey obj' = key → parse obj' = found := fun obj' hmem => h obj' (by simp [hmem])
    rw [List.map_cons, List.foldl_cons, observe_added]
    by_cases hkey : objectKey obj = key
    · subst hkey
      have hfound := h obj (by simp) rfl
      have hself : found.or ((parse obj).or (specs (objectKey obj))) = found.or (specs (objectKey obj)) := by
        rw [hfound]
        cases found <;> rfl
      rw [ih hrest (.inl (by rw [update_self, hself, hfound])), update_self, hself]
    · have hkeep := update_of_ne (Ne.symm hkey) ((parse obj).or (specs (objectKey obj))) specs
      rw [ih hrest (by rw [hkeep]; simpa [hkey] using hmem), hkeep]

end

/-! ## One step -/

theorem PsmObjects.mem_all {objs : PsmObjects} {obj} :
    obj ∈ objs.all ↔ objs.objects.lookup (objectKey obj) = some obj := by
  simp only [PsmObjects.all, List.mem_map]
  constructor
  · intro ⟨⟨key, obj'⟩, hmem, heq⟩
    have hlookup : objs.objects.lookup key = some obj := heq ▸ mem_lookup_iff.mpr hmem
    rw [objs.keyed hlookup]
    exact hlookup
  · intro h
    exact ⟨⟨objectKey obj, obj⟩, mem_lookup_iff.mp h, rfl⟩

namespace SpecWatch

variable (unmarshal : Fields → Option PodSchedulingMetrics)

/-- The spec of the object under a key, if there is one that parses. -/
def parsed (s : SpecWatch) (key : String) : Option PodSchedulingMetrics :=
  (s.cluster.objects.lookup key).bind (parsePSM unmarshal)

/-- What is known of each key once the pending events have been handled. -/
def view (s : SpecWatch) : Option (String → Option PodSchedulingMetrics) :=
  s.pending.map (List.foldl (observe (parsePSM unmarshal)) fun key => s.watcher.specs.lookup key)

/-- **The specs are those of the objects there are.** -/
def Follows (s : SpecWatch) : Prop := ∀ key, s.watcher.specs.lookup key = s.parsed unmarshal key

/-- No known spec becomes stale: a watch is opened when every spec is of an object that is
there and parses, and no object that parses is updated to one that does not while a watch
is open. -/
def Clean (s : SpecWatch) : WatchStep → Prop
  | .connect _ => ∀ key ∈ s.watcher.specs.keys, (s.parsed unmarshal key).isSome = true
  | .update obj => s.pending.isSome = true → (s.parsed unmarshal (objectKey obj)).isSome = true →
      (parsePSM unmarshal obj).isSome = true
  | _ => True

instance (s : SpecWatch) : DecidablePred (s.Clean unmarshal)
  | .connect _ => inferInstanceAs (Decidable (∀ key ∈ _, _))
  | .update _ => inferInstanceAs (Decidable (_ → _))
  | .create _ | .delete _ | .disconnect | .notice _ | .handle _ | .tick _ => .isTrue trivial

variable {unmarshal} {s s' : SpecWatch}

theorem parsed_put (obj : Unstructured) (event : WatchEvent) :
    (s.change (s.cluster.put obj) event).parsed unmarshal =
      Function.update (s.parsed unmarshal) (objectKey obj) (parsePSM unmarshal obj) := by
  funext key
  by_cases h : key = objectKey obj
  · subst h
    simp [parsed, change, PsmObjects.put, lookup_insert]
  · simp [parsed, change, PsmObjects.put, lookup_insert_ne h, update_of_ne h]

theorem parsed_remove (key : String) (event : WatchEvent) :
    (s.change (s.cluster.remove key) event).parsed unmarshal = Function.update (s.parsed unmarshal) key none := by
  funext key'
  by_cases h : key' = key
  · subst h
    simp [parsed, change, PsmObjects.remove, lookup_erase]
  · simp [parsed, change, PsmObjects.remove, lookup_erase_ne h, update_of_ne h]

theorem view_change (cluster : PsmObjects) (event : WatchEvent) :
    (s.change cluster event).view unmarshal =
      (s.view unmarshal).map fun specs => observe (parsePSM unmarshal) specs event := by
  cases hp : s.pending <;> simp [view, change, hp]

theorem view_handle {pass event rest} (hp : s.pending = some (event :: rest)) :
    ({ s with watcher := s.watcher.handleEvent unmarshal pass event, pending := some rest } : SpecWatch).view unmarshal =
      s.view unmarshal := by
  simp [view, hp, Watcher.handleEvent_lookup]

/-- What a new watch shows of a key. -/
theorem view_connect (order : List Nat) (key : String) :
    ((reorder order s.cluster.all).map fun obj => (⟨.added, some obj⟩ : WatchEvent)).foldl
      (observe (parsePSM unmarshal)) (fun key => s.watcher.specs.lookup key) key =
      (s.parsed unmarshal key).or (s.watcher.specs.lookup key) := by
  refine observe_all (fun obj hmem hkey => ?_) ?_
  · have hlookup := PsmObjects.mem_all.mp (mem_reorder.mp hmem)
    rw [hkey] at hlookup
    simp [parsed, hlookup]
  · cases hlookup : s.cluster.objects.lookup key with
    | none => simp [parsed, hlookup]
    | some obj =>
      have hkey := s.cluster.keyed hlookup
      refine .inr ⟨obj, mem_reorder.mpr (PsmObjects.mem_all.mpr ?_), hkey⟩
      rw [hkey]
      exact hlookup

/-- Every step, by what it does to the view and to the objects. -/
theorem step_cases {e} (h : (watchMachine unmarshal).step s e = some s') :
    (∃ obj, ((e = .create obj ∧ s.parsed unmarshal (objectKey obj) = none) ∨ e = .update obj) ∧
        s'.parsed unmarshal = Function.update (s.parsed unmarshal) (objectKey obj) (parsePSM unmarshal obj) ∧
        s'.view unmarshal = (s.view unmarshal).map fun specs =>
          Function.update specs (objectKey obj) ((parsePSM unmarshal obj).or (specs (objectKey obj)))) ∨
      (∃ key, e = .delete key ∧ s'.parsed unmarshal = Function.update (s.parsed unmarshal) key none ∧
        s'.view unmarshal = (s.view unmarshal).map fun specs => Function.update specs key none) ∨
      (∃ order, e = .connect order ∧ s'.parsed unmarshal = s.parsed unmarshal ∧
        s'.view unmarshal = some fun key => (s.parsed unmarshal key).or (s.watcher.specs.lookup key)) ∨
      (s.Clean unmarshal e ∧ s'.parsed unmarshal = s.parsed unmarshal ∧
        (s'.view unmarshal = none ∨ s'.view unmarshal = s.view unmarshal)) := by
  cases e with
  | create obj =>
    simp only [watchMachine] at h
    split at h
    · cases h
    · rename_i hnew
      cases h
      refine .inl ⟨obj, .inl ⟨rfl, ?_⟩, parsed_put .., ?_⟩
      · simp [parsed, lookup_eq_none.mpr hnew]
      · simp only [view_change, observe_added]
  | update obj =>
    simp only [watchMachine] at h
    split at h
    · cases h
      refine .inl ⟨obj, .inr rfl, parsed_put .., ?_⟩
      simp only [view_change, observe_modified]
    · cases h
  | delete key =>
    obtain ⟨obj, hlookup, rfl⟩ := map_eq_some_iff.mp h
    refine .inr (.inl ⟨key, rfl, parsed_remove .., ?_⟩)
    simp only [view_change, observe_deleted, s.cluster.keyed hlookup]
  | connect order =>
    simp only [watchMachine] at h
    split at h
    · cases h
      refine .inr (.inr (.inl ⟨order, rfl, rfl, ?_⟩))
      exact congrArg some (funext fun key => view_connect order key)
    · cases h
  | disconnect =>
    obtain ⟨_, _, rfl⟩ := map_eq_some_iff.mp h
    exact .inr (.inr (.inr ⟨trivial, rfl, .inl rfl⟩))
  | notice event =>
    simp only [watchMachine] at h
    split at h
    · rename_i hnotice
      cases h
      refine .inr (.inr (.inr ⟨trivial, rfl, .inr ?_⟩))
      simp only [view_change, observe_notice hnotice, map_id']
    · cases h
  | handle pass =>
    simp only [watchMachine] at h
    split at h
    · rename_i hp
      cases h
      exact .inr (.inr (.inr ⟨trivial, rfl, .inr (view_handle hp)⟩))
    · cases h
  | tick pass =>
    obtain ⟨_, _, rfl⟩ := map_eq_some_iff.mp h
    refine .inr (.inr (.inr ⟨trivial, rfl, .inr ?_⟩))
    simp [view]

/-! ## Runs -/

variable (unmarshal) in
/-- An object that is there and parses is known by its latest spec. -/
def Latest (s : SpecWatch) : Prop :=
  ∀ specs, s.view unmarshal = some specs → ∀ key psm, s.parsed unmarshal key = some psm → specs key = some psm

variable (unmarshal) in
/-- All that is known is of objects that are there and parse. -/
def Current (s : SpecWatch) : Prop := ∀ specs, s.view unmarshal = some specs → specs = s.parsed unmarshal

theorem latest_step {e} (hs : s.Latest unmarshal) (h : (watchMachine unmarshal).step s e = some s') :
    s'.Latest unmarshal := by
  intro specs' hview key psm hpsm
  obtain ⟨obj, -, hparsed, hv⟩ | ⟨key', -, hparsed, hv⟩ | ⟨_, -, hparsed, hv⟩ | ⟨-, hparsed, hv | hv⟩ := step_cases h
  · rw [hv] at hview
    obtain ⟨specs, hspecs, rfl⟩ := map_eq_some_iff.mp hview
    rw [hparsed] at hpsm
    by_cases hk : key = objectKey obj
    · subst hk
      rw [update_self] at hpsm ⊢
      rw [hpsm, some_or]
    · rw [update_of_ne hk] at hpsm ⊢
      exact hs specs hspecs key psm hpsm
  · rw [hv] at hview
    obtain ⟨specs, hspecs, rfl⟩ := map_eq_some_iff.mp hview
    rw [hparsed] at hpsm
    by_cases hk : key = key'
    · subst hk
      rw [update_self] at hpsm
      cases hpsm
    · rw [update_of_ne hk] at hpsm ⊢
      exact hs specs hspecs key psm hpsm
  · cases hv.symm.trans hview
    rw [hparsed] at hpsm
    simp [hpsm]
  · rw [hv] at hview
    cases hview
  · exact hs specs' (hv ▸ hview) key psm (hparsed ▸ hpsm)

theorem current_step {e} (hs : s.Current unmarshal) (hclean : s.Clean unmarshal e)
    (h : (watchMachine unmarshal).step s e = some s') : s'.Current unmarshal := by
  intro specs' hview
  obtain ⟨obj, he, hparsed, hv⟩ | ⟨key', -, hparsed, hv⟩ | ⟨_, rfl, hparsed, hv⟩ | ⟨-, hparsed, hv | hv⟩ := step_cases h
  · rw [hv] at hview
    obtain ⟨specs, hspecs, rfl⟩ := map_eq_some_iff.mp hview
    rw [hparsed, hs specs hspecs]
    congr 1
    cases hparse : parsePSM unmarshal obj with
    | some psm => rfl
    | none =>
      rw [none_or]
      obtain ⟨-, hnew⟩ | rfl := he
      · exact hnew
      · have hopen : s.pending.isSome = true := by
          have hisSome := congrArg Option.isSome hspecs
          simpa [view] using hisSome
        have hnone := mt (hclean hopen) (by simp [hparse])
        simpa using hnone
  · rw [hv] at hview
    obtain ⟨specs, hspecs, rfl⟩ := map_eq_some_iff.mp hview
    rw [hparsed, hs specs hspecs]
  · cases hv.symm.trans hview
    rw [hparsed]
    funext key
    cases hknown : s.watcher.specs.lookup key with
    | none => exact or_none
    | some psm =>
      have hmem : key ∈ s.watcher.specs.keys := mem_keys.mp (lookup_isSome.mp (by simp [hknown]))
      obtain ⟨psm', hpsm'⟩ := isSome_iff_exists.mp (hclean key hmem)
      rw [hpsm', some_or]
  · rw [hv] at hview
    cases hview
  · rw [hparsed]
    exact hs specs' (hv ▸ hview)

instance : Inhabited Pass := ⟨⟨⟨none, fun _ => none⟩, fun _ => none, [], []⟩⟩

/-- When nothing is pending, the view is what the watcher has. -/
theorem view_quiet (h : s.pending = some []) : s.view unmarshal = some fun key => s.watcher.specs.lookup key := by
  rw [view, h]
  rfl

/-- Handling what is pending leaves the view to the watcher. -/
theorem exists_quiet {pending} (hp : s.pending = some pending) (pass : Pass) :
    ∃ s', (watchMachine unmarshal).exec s (List.replicate pending.length (.handle pass)) = some s' ∧
      s'.pending = some [] ∧ s'.parsed unmarshal = s.parsed unmarshal ∧ s'.view unmarshal = s.view unmarshal := by
  induction pending generalizing s with
  | nil => exact ⟨s, rfl, hp, rfl, rfl⟩
  | cons event rest ih =>
    have hstep : (watchMachine unmarshal).step s (.handle pass) =
        some { s with watcher := s.watcher.handleEvent unmarshal pass event, pending := some rest } := by
      simp only [watchMachine, hp]
    obtain ⟨s', hexec, hquiet, hparsed, hview⟩ :=
      ih (s := { s with watcher := s.watcher.handleEvent unmarshal pass event, pending := some rest }) rfl
    refine ⟨s', ?_, hquiet, hparsed, hview.trans (view_handle hp)⟩
    rw [List.length_cons, List.replicate_succ]
    exact bind_eq_some_iff.mpr ⟨_, hstep, hexec⟩

theorem clean_handles (passes : List Pass) : (watchMachine unmarshal).Guarded (Clean unmarshal) s (passes.map .handle) := by
  induction passes generalizing s with
  | nil => exact trivial
  | cons pass passes ih => exact ⟨trivial, fun _ _ => ih⟩

/-- A step that is not clean shows, once the events are handled. -/
theorem clean_of_current {e} (hs : s.Latest unmarshal) (h : (watchMachine unmarshal).step s e = some s')
    (hs' : s'.Current unmarshal) : s.Clean unmarshal e := by
  obtain ⟨obj, he, hparsed, hv⟩ | ⟨key', rfl, -, -⟩ | ⟨_, rfl, hparsed, hv⟩ | ⟨hclean, -, -⟩ := step_cases h
  · obtain ⟨rfl, -⟩ | rfl := he
    · exact trivial
    · intro hopen hold
      obtain ⟨pending, hp⟩ := isSome_iff_exists.mp hopen
      obtain ⟨specs, hspecs⟩ : ∃ specs, s.view unmarshal = some specs := ⟨_, by rw [view, hp]; rfl⟩
      obtain ⟨psm, hpsm⟩ := isSome_iff_exists.mp hold
      rw [hspecs, map_some] at hv
      have hkey := congrFun (hs' _ hv) (objectKey obj)
      rw [hparsed, update_self, update_self, hs specs hspecs _ psm hpsm] at hkey
      rw [← hkey]
      cases parsePSM unmarshal obj <;> rfl
  · exact trivial
  · intro key hmem
    have hkey := congrFun (hs' _ hv) key
    rw [hparsed] at hkey
    obtain ⟨psm, hpsm⟩ := isSome_iff_exists.mp (lookup_isSome.mpr (mem_keys.mpr hmem))
    rw [← hkey]
    simp only [hpsm]
    cases s.parsed unmarshal key <;> rfl
  · exact hclean

end SpecWatch

open SpecWatch

/-- Every object that is there and parses has its latest spec, whenever nothing is pending.
The specs are the cluster's, at every point of the run and once what is pending there is
handled, if and only if its steps are clean. -/
theorem specs_follow_iff (unmarshal : Fields → Option PodSchedulingMetrics) (podMapper : PodMapper) (filter : PidFilter)
    (cluster : PsmObjects) {es : List WatchStep} {s' : SpecWatch}
    (hrun : (watchMachine unmarshal).exec (initial podMapper filter cluster) es = some s') :
    (s'.pending = some [] → ∀ key obj psm, s'.cluster.objects.lookup key = some obj →
      parsePSM unmarshal obj = some psm → s'.watcher.specs.lookup key = some psm) ∧
    ((∀ es₁ es₂ (passes : List Pass) s, es = es₁ ++ es₂ →
      (watchMachine unmarshal).exec (initial podMapper filter cluster) (es₁ ++ passes.map .handle) = some s →
      s.pending = some [] → s.Follows unmarshal) ↔
      (watchMachine unmarshal).Guarded (Clean unmarshal) (initial podMapper filter cluster) es) := by
  have hlatest : ∀ {es s}, (watchMachine unmarshal).exec (initial podMapper filter cluster) es = some s →
      s.Latest unmarshal := fun h => Machine.invariant latest_step h fun specs hview => by cases hview
  refine ⟨fun hquiet key obj psm hobj hpsm => ?_, fun hfollows => ?_, fun hclean es₁ es₂ passes s hes hexec hquiet => ?_⟩
  · exact hlatest hrun _ (view_quiet hquiet) key psm (by simp [parsed, hobj, hpsm])
  · refine guarded_of_splits fun es₁ e es₂ s₁ hes hexec => ?_
    subst hes
    obtain ⟨_, hexec', hrest⟩ := exec_append hrun
    obtain rfl := Option.some.inj (hexec.symm.trans hexec')
    obtain ⟨s₂, hstep, -⟩ := exec_cons hrest
    refine clean_of_current (hlatest hexec) hstep fun specs hview => ?_
    obtain ⟨pending, hp, -⟩ := map_eq_some_iff.mp hview
    obtain ⟨s₃, hhandled, hquiet, hparsed, hview'⟩ := @exists_quiet unmarshal s₂ pending hp default
    have hone : (watchMachine unmarshal).exec s₁ [e] = some s₂ := bind_eq_some_iff.mpr ⟨s₂, hstep, rfl⟩
    have hexec₃ := exec_trans (exec_trans hexec hone) hhandled
    have hknown := hfollows (es₁ ++ [e]) es₂ (List.replicate pending.length default) s₃ (by simp)
      (by rw [List.map_replicate]; exact hexec₃) hquiet
    rw [view_quiet hquiet, hview] at hview'
    rw [← Option.some.inj hview', ← hparsed]
    exact funext hknown
  · subst hes
    obtain ⟨s₁, h₁, h₂⟩ := exec_append hexec
    have hinit : (initial podMapper filter cluster).Current unmarshal := fun specs hview => by cases hview
    have hcurrent₁ := Machine.invariantWhere current_step h₁ (guarded_append hclean h₁).1 hinit
    have hcurrent := Machine.invariantWhere current_step h₂ (clean_handles passes) hcurrent₁
    exact congrFun (hcurrent _ (view_quiet hquiet))

namespace OneObject

/-- Any spec parses. -/
def anySpec : Fields → Option PodSchedulingMetrics := fun _ => some ⟨[], [], "", true⟩

def web : Unstructured :=
  ⟨[("metadata", .map [("name", .str "web"), ("namespace", .str "default")]), ("spec", .map [])]⟩

def start : SpecWatch := SpecWatch.initial ⟨∅, ∅⟩ .empty .empty

/-- The watch breaks, the object is deleted, and a new watch is opened. -/
def missedDeletion : List WatchStep :=
  [.connect [], .create web, .handle default, .disconnect, .delete "default/web", .connect []]

/-- Its spec stays. -/
theorem deletion_missed :
    ∃ s, (watchMachine anySpec).exec start missedDeletion = some s ∧ s.pending = some [] ∧
      s.cluster.objects.lookup "default/web" = none ∧
      s.watcher.specs.lookup "default/web" = some ⟨[], [], "", true⟩ := by
  refine ⟨_, rfl, rfl, ?_, ?_⟩ <;> decide

/-- The deletion is handled before the watch breaks. -/
def handledDeletion : List WatchStep :=
  [.connect [], .create web, .handle default, .delete "default/web", .handle default, .disconnect, .connect []]

theorem specs_follow_iff_handled :
    ∃ s, (watchMachine anySpec).exec start handledDeletion = some s ∧ s.pending = some [] ∧ s.Follows anySpec := by
  obtain ⟨s, hrun, hquiet⟩ : ∃ s, (watchMachine anySpec).exec start handledDeletion = some s ∧ s.pending = some [] :=
    ⟨_, rfl, rfl⟩
  have hclean : (watchMachine anySpec).Guarded (Clean anySpec) start handledDeletion := by decide
  exact ⟨s, hrun, hquiet,
    (specs_follow_iff anySpec _ _ _ hrun).2.mpr hclean handledDeletion [] [] s (List.append_nil _).symm hrun hquiet⟩

end OneObject

end Gthulhu.Monitor
