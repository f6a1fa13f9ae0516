/-
What a Go program leaves to its run time, and the one map idiom the code here
is built on.

`SliceSort` is all that is documented of `sort.Slice` with a key: the slice
comes back sorted and permuted, equal keys in any order. `reorder` is the
order in which a range over a map, or a listing by a server, happens to come:
every code of numbers gives a permutation and every permutation has a code
(`reorder_perm`, `exists_reorder`).

`groupBy` is the loop `m[key] = append(m[key], value)`, over Mathlib's `AList`:
what it holds under a key is the matching part of the list, in its order
(`getD_groupBy`).
-/
import Mathlib.Data.List.AList
import Mathlib.Data.List.Induction
import Mathlib.Data.List.Sort
import Mathlib.Data.String.Basic
import Mathlib.Data.List.InsertIdx
import Mathlib.Data.List.Perm.Basic

namespace Lib

open List

/-! ## Sorting -/

/-- `sort.Slice` by a text key: some sorted permutation. -/
structure SliceSort where
  sort : {α : Type} → (α → String) → List α → List α
  perm : ∀ {α : Type} (key : α → String) (l : List α), (sort key l).Perm l
  sorted : ∀ {α : Type} (key : α → String) (l : List α), (sort key l).Pairwise fun a b => key a ≤ key b

namespace SliceSort

theorem mem_sort (go : SliceSort) {α : Type} {key : α → String} {l : List α} {a : α} :
    a ∈ go.sort key l ↔ a ∈ l :=
  (go.perm key l).mem_iff

/-- Insertion sort is such a sort (it is what Go runs on short slices). -/
def insertion : SliceSort where
  sort key l := l.insertionSort fun a b => key a ≤ key b
  perm key l := perm_insertionSort _ l
  sorted key l := by
    have : Std.Total fun a b => key a ≤ key b := ⟨fun a b => le_total (key a) (key b)⟩
    have : IsTrans _ fun a b => key a ≤ key b := ⟨fun a b c => le_trans⟩
    exact pairwise_insertionSort _ l

theorem sort_nil (go : SliceSort) {α : Type} (key : α → String) : go.sort key [] = [] :=
  perm_nil.mp (go.perm key [])

end SliceSort

/-- `sort.Slice` by a key of any ordered type. -/
structure SortBy (κ : Type) [LE κ] where
  sort : {α : Type} → (α → κ) → List α → List α
  perm : ∀ {α : Type} (key : α → κ) (l : List α), (sort key l).Perm l
  sorted : ∀ {α : Type} (key : α → κ) (l : List α), (sort key l).Pairwise fun a b => key a ≤ key b

def SortBy.insertion (κ : Type) [LinearOrder κ] : SortBy κ where
  sort key l := l.insertionSort fun a b => key a ≤ key b
  perm key l := perm_insertionSort _ l
  sorted key l := by
    have : Std.Total fun a b => key a ≤ key b := ⟨fun a b => le_total (key a) (key b)⟩
    have : IsTrans _ fun a b => key a ≤ key b := ⟨fun a b c => le_trans⟩
    exact pairwise_insertionSort _ l

/-- Two sorted arrangements of one list read the same, where equal keys do. -/
theorem map_eq_of_sorted {α β : Type} {key : α → String} {f : α → β} {l l' : List α} (hp : l.Perm l')
    (hs : l.Pairwise fun a b => key a ≤ key b) (hs' : l'.Pairwise fun a b => key a ≤ key b)
    (hf : ∀ a ∈ l, ∀ b ∈ l, key a = key b → f a = f b) : l.map f = l'.map f := by
  have hpairs : l.map (fun a => (key a, f a)) = l'.map fun a => (key a, f a) := by
    refine @List.Perm.eq_of_pairwise _ (fun p q => p.1 ≤ q.1) _ _ ?_ (pairwise_map.mpr hs)
      (pairwise_map.mpr hs') (hp.map _)
    intro p q hp' hq hpq hqp
    obtain ⟨a, ha, rfl⟩ := mem_map.mp hp'
    obtain ⟨b, hb, rfl⟩ := mem_map.mp hq
    have hkey := le_antisymm hpq hqp
    exact Prod.ext hkey (hf a ha b (hp.mem_iff.mpr hb) hkey)
  have hsnd := congrArg (List.map Prod.snd) hpairs
  rwa [map_map, map_map] at hsnd

/-- The last of a sorted list has the greatest key. -/
theorem le_getLast_of_sorted {α κ : Type} [Preorder κ] {key : α → κ} {l : List α} {a b}
    (hs : l.Pairwise fun a b => key a ≤ key b) (ha : l.getLast? = some a) (hb : b ∈ l) : key b ≤ key a := by
  obtain ⟨front, rfl⟩ := getLast?_eq_some_iff.mp ha
  rcases mem_append.mp hb with hb | hb
  · exact (pairwise_append.mp hs).2.2 b hb a (by simp)
  · rw [mem_singleton.mp hb]

/-- Two sorted lists of the same items end with the same one, where keys
belong to one item each; how often an item occurs does not matter. -/
theorem getLast?_eq_of_sorted {α κ : Type} [PartialOrder κ] {key : α → κ} {l l' : List α}
    (hs : l.Pairwise fun a b => key a ≤ key b) (hs' : l'.Pairwise fun a b => key a ≤ key b) (hmem : ∀ a, a ∈ l ↔ a ∈ l')
    (hinj : ∀ a ∈ l, ∀ b ∈ l, key a = key b → a = b) : l.getLast? = l'.getLast? := by
  cases ha : l.getLast? with
  | none =>
    rw [getLast?_eq_none_iff] at ha
    subst ha
    have hnil : l' = [] := eq_nil_iff_forall_not_mem.mpr fun a h => by simpa using (hmem a).mpr h
    rw [hnil]
    rfl
  | some a =>
    have hal := mem_of_getLast? ha
    cases hb : l'.getLast? with
    | none =>
      rw [getLast?_eq_none_iff] at hb
      subst hb
      cases (hmem a).mp hal
    | some b =>
      have hbl := (hmem b).mpr (mem_of_getLast? hb)
      have hkey := le_antisymm (le_getLast_of_sorted hs' hb ((hmem a).mp hal)) (le_getLast_of_sorted hs ha hbl)
      rw [hinj a hal b hbl hkey]

/-- The last item that a list of blocks ends with: that of the last block with any. -/
theorem getLast?_flatMap_eq {α β : Type} {f : α → List β} (l : List α) :
    (l.flatMap f).getLast? = ((l.filter fun a => (f a).getLast?.isSome).getLast?).bind fun a => (f a).getLast? := by
  induction l using List.reverseRecOn with
  | nil => rfl
  | append_singleton l a ih =>
    rw [flatMap_append, flatMap_singleton, getLast?_append, ih, filter_append]
    cases h : (f a).getLast? with
    | none => simp [h]
    | some b => simp [h]

/-! ## Orders left open -/

/-- The list in the order the code picks: each number the place, among the
items left, of the next one. -/
def reorder {α : Type} : List Nat → List α → List α
  | _, [] => []
  | [], l => l
  | k :: ks, a :: l =>
    have : k % (l.length + 1) < (a :: l).length := Nat.mod_lt _ (Nat.succ_pos _)
    (a :: l)[k % (l.length + 1)] :: reorder ks ((a :: l).eraseIdx (k % (l.length + 1)))

theorem reorder_perm {α : Type} : ∀ (ks : List Nat) (l : List α), (reorder ks l).Perm l
  | [], [] => .refl _
  | _ :: _, [] => .refl _
  | [], _ :: _ => .refl _
  | k :: ks, a :: l => by
    rw [reorder]
    exact ((reorder_perm ks _).cons _).trans (getElem_cons_eraseIdx_perm _)

@[simp] theorem mem_reorder {α : Type} {ks : List Nat} {l : List α} {a : α} : a ∈ reorder ks l ↔ a ∈ l :=
  (reorder_perm ks l).mem_iff

theorem reorder_map {α β : Type} (f : α → β) : ∀ (ks : List Nat) (l : List α),
    reorder ks (l.map f) = (reorder ks l).map f
  | [], [] => rfl
  | _ :: _, [] => rfl
  | [], _ :: _ => rfl
  | k :: ks, a :: l => by
    have hrest := reorder_map f ks ((a :: l).eraseIdx (k % (l.length + 1)))
    simp only [map_cons, reorder, length_map]
    refine cons_eq_cons.mpr ⟨?_, ?_⟩
    · simp [← map_cons]
    · rw [← hrest, ← eraseIdx_map, map_cons]

/-- No order is left out. -/
theorem exists_reorder {α : Type} : ∀ {l' l : List α}, l'.Perm l → ∃ ks, reorder ks l = l'
  | [], _, h => ⟨[], by rw [← h.nil_eq]; rfl⟩
  | b :: l', l, h => by
    obtain ⟨i, hi, he⟩ := getElem_of_mem (h.mem_iff.mp mem_cons_self)
    have hrest : l'.Perm (l.eraseIdx i) :=
      (perm_cons b).mp (h.trans (he ▸ getElem_cons_eraseIdx_perm hi).symm)
    obtain ⟨ks, hks⟩ := exists_reorder hrest
    match l, hi with
    | a :: l, hi =>
      have hmod : i % (l.length + 1) = i := Nat.mod_eq_of_lt (by simpa using hi)
      refine ⟨i :: ks, ?_⟩
      simp only [reorder, hmod, hks, he]

/-! ## Keys that are distinct -/

theorem filter_eq_singleton {α β : Type} [DecidableEq β] {f : α → β} {l : List α} {a} (hnodup : (l.map f).Nodup)
    (ha : a ∈ l) : l.filter (fun b => f b = f a) = [a] := by
  classical
  have hsame : ∀ b ∈ l, decide (f b = f a) = decide (b = a) := fun b hb =>
    decide_eq_decide.mpr ⟨inj_on_of_nodup_map hnodup hb ha, congrArg f⟩
  rw [filter_congr hsame, filter_eq, count_eq_one_of_mem (Nodup.of_map f hnodup) ha, replicate_one]

/-! ## Loops that stop at an error -/

/-- A loop that collects one result an item, and returns the first error. -/
theorem mapM_ok_iff {ε α β : Type} {f : α → Except ε β} {l : List α} {r} :
    l.mapM f = .ok r ↔ List.Forall₂ (fun a b => f a = .ok b) l r := by
  induction l generalizing r with
  | nil =>
    rw [mapM_nil, forall₂_nil_left_iff]
    exact ⟨fun h => (Except.ok.inj h).symm, fun h => by rw [h]; rfl⟩
  | cons a l ih =>
    rw [mapM_cons, forall₂_cons_left_iff]
    cases ha : f a with
    | error e =>
      refine ⟨fun h => ?_, fun ⟨b, _, hb, _⟩ => ?_⟩
      · cases h
      · cases hb
    | ok b =>
      cases hl : l.mapM f with
      | error e =>
        refine ⟨fun h => ?_, fun ⟨_, bs, _, hbs, _⟩ => ?_⟩
        · cases h
        · rw [ih.mpr hbs] at hl
          cases hl
      | ok bs =>
        refine ⟨fun h => ⟨b, bs, rfl, ih.mp hl, (Except.ok.inj h).symm⟩, fun ⟨b', bs', hb, hbs, hr⟩ => ?_⟩
        cases hb
        have := hl.symm.trans (ih.mpr hbs)
        cases this
        rw [hr]
        rfl

theorem mem_of_mapM_ok {ε α β : Type} {f : α → Except ε β} {l : List α} {r} (h : l.mapM f = .ok r) (b : β) :
    b ∈ r ↔ ∃ a ∈ l, f a = .ok b := by
  induction l generalizing r with
  | nil =>
    obtain rfl := forall₂_nil_left_iff.mp (mapM_ok_iff.mp h)
    simp
  | cons a l ih =>
    obtain ⟨b', bs, hb, hbs, rfl⟩ := forall₂_cons_left_iff.mp (mapM_ok_iff.mp h)
    simp [ih (mapM_ok_iff.mpr hbs), or_and_right, exists_or, hb, eq_comm (a := b)]

theorem mapM_eq_ok {ε α β : Type} {f : α → Except ε β} {g : α → β} {l : List α} (h : ∀ a ∈ l, f a = .ok (g a)) :
    l.mapM f = .ok (l.map g) :=
  mapM_ok_iff.mpr (forall₂_map_right_iff.mpr (forall₂_same.mpr h))

theorem exists_mapM_ok {ε α β : Type} {f : α → Except ε β} {l : List α} :
    (∃ r, l.mapM f = .ok r) ↔ ∀ a ∈ l, ∃ b, f a = .ok b := by
  simp only [mapM_ok_iff]
  induction l with
  | nil => simp
  | cons a l ih =>
    simp only [forall₂_cons_left_iff, forall_mem_cons, ← ih]
    refine ⟨fun ⟨_, b, bs, hb, hbs, _⟩ => ⟨⟨b, hb⟩, bs, hbs⟩, fun ⟨⟨b, hb⟩, bs, hbs⟩ => ⟨_, b, bs, hb, hbs, rfl⟩⟩

theorem mapM_error {ε α β : Type} {f : α → Except ε β} {l : List α} {a} (ha : a ∈ l) (h : ∃ e, f a = .error e) :
    ∃ e, l.mapM f = .error e := by
  cases hm : l.mapM f with
  | error e => exact ⟨e, rfl⟩
  | ok r =>
    obtain ⟨b, hb⟩ := exists_mapM_ok.mp ⟨r, hm⟩ a ha
    obtain ⟨e, he⟩ := h
    cases hb.symm.trans he

/-! ## Grouping -/

/-- A Go map with text keys. -/
abbrev StrMap (β : Type) : Type := AList fun _ : String => β

variable {α β : Type}

/-- `m[k] = append(m[k], v)`. -/
def appendAt (m : StrMap (List β)) (k : String) (v : β) : StrMap (List β) :=
  m.insert k ((m.lookup k).getD [] ++ [v])

/-- The loop that appends each item's value under its key. -/
def groupBy (key : α → String) (value : α → β) (l : List α) : StrMap (List β) :=
  l.foldl (fun m a => appendAt m (key a) (value a)) ∅

theorem getD_appendAt (m : StrMap (List β)) (k k' : String) (v : β) :
    ((appendAt m k v).lookup k').getD [] = (m.lookup k').getD [] ++ if k' = k then [v] else [] := by
  by_cases hk : k' = k
  · subst hk; simp [appendAt]
  · simp [appendAt, hk, AList.lookup_insert_ne hk]

theorem getD_groupBy_from (key : α → String) (value : α → β) (k : String) : ∀ (l : List α) (m : StrMap (List β)),
    ((l.foldl (fun m a => appendAt m (key a) (value a)) m).lookup k).getD [] =
      (m.lookup k).getD [] ++ (l.filter (key · = k)).map value
  | [], m => by simp
  | a :: l, m => by
    rw [foldl_cons, getD_groupBy_from key value k l, getD_appendAt]
    by_cases hk : key a = k
    · simp [hk]
    · have : ¬k = key a := fun h => hk h.symm
      simp [hk, this]

theorem getD_groupBy (key : α → String) (value : α → β) (l : List α) (k : String) :
    ((groupBy key value l).lookup k).getD [] = (l.filter (key · = k)).map value := by
  rw [groupBy, getD_groupBy_from]
  simp

theorem mem_groupBy_from (key : α → String) (value : α → β) (k : String) : ∀ (l : List α) (m : StrMap (List β)),
    k ∈ l.foldl (fun m a => appendAt m (key a) (value a)) m ↔ k ∈ m ∨ ∃ a ∈ l, key a = k
  | [], m => by simp
  | a :: l, m => by
    rw [foldl_cons, mem_groupBy_from key value k l]
    simp only [appendAt, AList.mem_insert, mem_cons, exists_eq_or_imp, eq_comm (a := k)]
    tauto

theorem mem_groupBy {key : α → String} {value : α → β} {l : List α} {k : String} :
    k ∈ groupBy key value l ↔ ∃ a ∈ l, key a = k := by
  rw [groupBy, mem_groupBy_from]
  simp

theorem lookup_foldl_insert_from (f : α → β) (k : String) : ∀ (l : List ((_ : String) × α)) (m : StrMap β),
    l.NodupKeys → (l.foldl (fun m e => m.insert e.1 (f e.2)) m).lookup k = ((l.dlookup k).map f).or (m.lookup k)
  | [], m, _ => by simp
  | e :: l, m, h => by
    obtain ⟨hk, hl⟩ := nodupKeys_cons.mp h
    rw [foldl_cons, lookup_foldl_insert_from f k l _ hl]
    by_cases he : k = e.1
    · subst he
      rw [dlookup_eq_none.mpr hk, dlookup_cons_eq]
      simp
    · rw [dlookup_cons_ne _ _ he, AList.lookup_insert_ne he]

/-- The loop that fills a map from another, value by value. -/
theorem lookup_foldl_insert (f : α → β) (m : StrMap α) (k : String) :
    (m.entries.foldl (fun m' e => m'.insert e.1 (f e.2)) (∅ : StrMap β)).lookup k = (m.lookup k).map f := by
  rw [lookup_foldl_insert_from f k m.entries ∅ m.nodupKeys]
  simp [AList.lookup]

/-- A map with one entry. -/
theorem eq_of_lookup_single {k k' v v'} (h : (AList.insert k v (∅ : StrMap β)).lookup k' = some v') :
    k' = k ∧ v' = v := by
  by_cases hk : k' = k
  · subst hk
    rw [AList.lookup_insert] at h
    exact ⟨rfl, (Option.some.inj h).symm⟩
  · rw [AList.lookup_insert_ne hk] at h
    cases h

/-- The loop that writes one value after the other: the last under a key stays. -/
theorem lookup_foldl_insert_last {κ : Type} [DecidableEq κ] (k : κ) :
    ∀ (l : List (κ × β)) (m : AList fun _ : κ => β), (l.foldl (fun m e => m.insert e.1 e.2) m).lookup k =
      (((l.filter fun e => e.1 = k).getLast?).map Prod.snd).or (m.lookup k)
  | [], m => by simp
  | e :: l, m => by
    rw [foldl_cons, lookup_foldl_insert_last k l]
    by_cases he : e.1 = k
    · subst he
      rw [AList.lookup_insert, filter_cons_of_pos (by simp), getLast?_cons]
      cases (l.filter fun e' => e'.1 = e.1).getLast? <;> simp
    · rw [AList.lookup_insert_ne (Ne.symm he), filter_cons_of_neg (by simpa using he)]

end Lib
