/-
Texts put together with a separator and taken apart again.

A field that does not hold the separator can be cut off at either end of a
joined text: `append_sep_inj` at the front, `sep_append_inj` at the back. So
one field of a record may hold anything (`intercalate_field_inj`).
`intercalate_inj`: a list of non-empty pieces without the separator is
determined by its join. `writeFields` escapes, so that every field may hold
anything (`readFields_writeFields`).
-/
import Mathlib.Data.List.Basic
import Mathlib.Data.Int.Basic

namespace Lib.Delimited

open List

variable {α : Type}

/-- Cutting at the first separator. -/
theorem append_sep_inj {sep} : ∀ {a a' x x' : List α}, sep ∉ a → sep ∉ a' →
    (a ++ sep :: x = a' ++ sep :: x' ↔ a = a' ∧ x = x')
  | [], [], _, _, _, _ => by simp
  | [], b :: _, _, _, _, h' => by
    have : sep ≠ b := fun he => h' (by simp [he])
    simp [this]
  | b :: _, [], _, _, h, _ => by
    have : b ≠ sep := fun he => h (by simp [he])
    simp [this]
  | b :: a, b' :: a', x, x', h, h' => by
    have ih : a ++ sep :: x = a' ++ sep :: x' ↔ a = a' ∧ x = x' :=
      append_sep_inj (fun hm => h (mem_cons_of_mem _ hm)) (fun hm => h' (mem_cons_of_mem _ hm))
    simp [ih, and_assoc]

/-- Cutting at the last separator. -/
theorem sep_append_inj {sep : α} {b b' x x' : List α} (h : sep ∉ b) (h' : sep ∉ b') :
    x ++ sep :: b = x' ++ sep :: b' ↔ x = x' ∧ b = b' := by
  rw [← reverse_inj, reverse_append, reverse_append, reverse_cons, reverse_cons,
    append_assoc, append_assoc, singleton_append, singleton_append,
    append_sep_inj (by simpa using h) (by simpa using h'), reverse_inj, reverse_inj, and_comm]

theorem intercalate_eq_nil {sep} : ∀ {l : List (List α)}, (∀ p ∈ l, p ≠ []) →
    List.intercalate [sep] l = [] → l = []
  | [], _, _ => rfl
  | [p], hp, h => absurd (by simpa using h) (hp p (by simp))
  | p :: q :: l, _, h => by simp [List.intercalate, List.intersperse] at h

/-- Non-empty pieces without the separator are read back from their join. -/
theorem intercalate_inj [DecidableEq α] {sep : α} {l l' : List (List α)} (h : ∀ p ∈ l, sep ∉ p ∧ p ≠ [])
    (h' : ∀ p ∈ l', sep ∉ p ∧ p ≠ []) (he : List.intercalate [sep] l = List.intercalate [sep] l') : l = l' := by
  by_cases hl : l = []
  · subst hl
    exact (intercalate_eq_nil (fun p hp => (h' p hp).2) (by simpa using he.symm)).symm
  · by_cases hl' : l' = []
    · subst hl'
      exact intercalate_eq_nil (fun p hp => (h p hp).2) (by simpa using he)
    · rw [← splitOn_intercalate sep (fun p hp => (h p hp).1) hl,
        ← splitOn_intercalate sep (fun p hp => (h' p hp).1) hl', he]

theorem mem_intercalate {sep c} : ∀ {l : List (List α)}, c ∈ List.intercalate [sep] l → c = sep ∨ ∃ p ∈ l, c ∈ p
  | [], h => by simp at h
  | [p], h => .inr ⟨p, by simp, by simpa using h⟩
  | p :: q :: l, h => by
    rw [intercalate_cons_cons, mem_append, mem_append, mem_singleton] at h
    rcases h with (h | h) | h
    · exact .inr ⟨p, by simp, h⟩
    · exact .inl h
    · exact (mem_intercalate h).imp_right fun ⟨r, hr, hc⟩ => ⟨r, mem_cons_of_mem _ hr, hc⟩

/-! ## Records with one free field -/

theorem intercalate_cons {sep} (a : List α) {l} (h : l ≠ []) :
    List.intercalate [sep] (a :: l) = a ++ sep :: List.intercalate [sep] l := by
  simp [intercalate_cons_of_ne_nil h]

theorem intercalate_concat {sep} (b : List α) : ∀ {l : List (List α)}, l ≠ [] →
    List.intercalate [sep] (l ++ [b]) = List.intercalate [sep] l ++ sep :: b
  | [], h => absurd rfl h
  | [a], _ => by rw [singleton_append, intercalate_cons a (by simp)]; simp
  | a :: c :: l, _ => by
    rw [cons_append, intercalate_cons a (by simp), intercalate_concat b (by simp),
      intercalate_cons a (by simp), append_assoc]
    rfl

/-- The fields before the free one. -/
theorem intercalate_front_inj {sep} : ∀ {pre pre' rest rest' : List (List α)}, pre.length = pre'.length →
    rest ≠ [] → rest' ≠ [] → (∀ p ∈ pre, sep ∉ p) → (∀ p ∈ pre', sep ∉ p) →
    List.intercalate [sep] (pre ++ rest) = List.intercalate [sep] (pre' ++ rest') →
    pre = pre' ∧ List.intercalate [sep] rest = List.intercalate [sep] rest'
  | [], [], _, _, _, _, _, _, _, he => ⟨rfl, he⟩
  | [], _ :: _, _, _, hl, _, _, _, _, _ => by simp at hl
  | _ :: _, [], _, _, hl, _, _, _, _, _ => by simp at hl
  | a :: pre, a' :: pre', rest, rest', hl, hr, hr', h, h', he => by
    rw [cons_append, cons_append, intercalate_cons a (by simp [hr]), intercalate_cons a' (by simp [hr']),
      append_sep_inj (h a (by simp)) (h' a' (by simp))] at he
    obtain ⟨rfl, hrest⟩ := intercalate_front_inj (by simpa using hl) hr hr'
      (fun p hp => h p (by simp [hp])) (fun p hp => h' p (by simp [hp])) he.2
    exact ⟨by rw [he.1], hrest⟩

/-- The free field and those after it, cut off from the back. -/
theorem intercalate_back_inj {sep mid mid'} : ∀ {n : Nat} {post post' : List (List α)},
    post.length = n → post'.length = n → (∀ p ∈ post, sep ∉ p) → (∀ p ∈ post', sep ∉ p) →
    List.intercalate [sep] (mid :: post) = List.intercalate [sep] (mid' :: post') → mid = mid' ∧ post = post'
  | 0, post, post', hl, hl', _, _, he => by
    obtain rfl := length_eq_zero_iff.mp hl
    obtain rfl := length_eq_zero_iff.mp hl'
    exact ⟨by simpa using he, rfl⟩
  | n + 1, post, post', hl, hl', h, h', he => by
    obtain rfl | ⟨l, b, rfl⟩ := eq_nil_or_concat post
    · simp at hl
    obtain rfl | ⟨l', b', rfl⟩ := eq_nil_or_concat post'
    · simp at hl'
    simp only [concat_eq_append] at hl hl' h h' he ⊢
    rw [← cons_append, ← cons_append, intercalate_concat b (by simp), intercalate_concat b' (by simp),
      sep_append_inj (h b (by simp)) (h' b' (by simp))] at he
    obtain ⟨hm, rfl⟩ := intercalate_back_inj (by simpa using hl) (by simpa using hl')
      (fun p hp => h p (by simp [hp])) (fun p hp => h' p (by simp [hp])) he.1
    exact ⟨hm, by rw [he.2]⟩

/-- **Records with one free field.** The fields of a joined record are read
back from it when all but one are known not to hold the separator. -/
theorem intercalate_field_inj {sep} {pre pre' post post' : List (List α)} {mid mid'} (hpre : pre.length = pre'.length)
    (hpost : post.length = post'.length) (h : ∀ p, p ∈ pre ∨ p ∈ pre' ∨ p ∈ post ∨ p ∈ post' → sep ∉ p)
    (he : List.intercalate [sep] (pre ++ mid :: post) = List.intercalate [sep] (pre' ++ mid' :: post')) :
    pre = pre' ∧ mid = mid' ∧ post = post' := by
  obtain ⟨h1, he'⟩ := intercalate_front_inj hpre (by simp) (by simp) (fun p hp => h p (.inl hp))
    (fun p hp => h p (.inr (.inl hp))) he
  exact ⟨h1, intercalate_back_inj hpost rfl (fun p hp => h p (.inr (.inr (.inl hp))))
    (fun p hp => h p (.inr (.inr (.inr hp)))) he'⟩

/-! ## Numbers -/

theorem notMem_natRepr {c} (hc : c.isDigit = false) (n : Nat) : c ∉ (toString n).toList := by
  intro hm
  have hd : c ∈ Nat.toDigits 10 n := by simpa [Nat.toList_repr] using hm
  have := Nat.isDigit_of_mem_toDigits (b := 10) (by decide) (by decide) hd
  rw [hc] at this
  exact Bool.noConfusion this

/-- A number's decimal text holds digits and a sign only. -/
theorem notMem_intRepr {c} (hc : c.isDigit = false) (hs : c ≠ '-') (i : Int) : c ∉ (toString i).toList := by
  cases i with
  | ofNat n => exact notMem_natRepr hc n
  | negSucc n =>
    show c ∉ ("-" ++ toString (n + 1)).toList
    rw [String.toList_append, mem_append]
    rintro (hm | hm)
    · exact hs (by simpa using hm)
    · exact notMem_natRepr hc _ hm

/-! ## Records with escapes -/

/-- Each character behind a backslash, a point after each field. -/
def writeFields (fields : List (List Char)) : List Char :=
  fields.flatMap fun field => (field.flatMap fun c => ['\\', c]) ++ ['.']

def readFields : List Char → Option (List (List Char))
  | [] => some []
  | '.' :: rest => (readFields rest).map ([] :: ·)
  | '\\' :: c :: rest =>
    match readFields rest with
    | some (field :: fields) => some ((c :: field) :: fields)
    | _ => none
  | _ => none

theorem readFields_field (field rest : List Char) :
    readFields ((field.flatMap fun c => ['\\', c]) ++ '.' :: rest) = (readFields rest).map (field :: ·) := by
  induction field with
  | nil => rfl
  | cons c field ih =>
    show readFields ('\\' :: c :: ((field.flatMap fun c => ['\\', c]) ++ '.' :: rest)) = _
    rw [readFields, ih]
    cases readFields rest <;> rfl

theorem readFields_writeFields (fields : List (List Char)) : readFields (writeFields fields) = some fields := by
  induction fields with
  | nil => rfl
  | cons field fields ih =>
    show readFields (((field.flatMap fun c => ['\\', c]) ++ ['.']) ++ writeFields fields) = _
    rw [append_assoc, singleton_append, readFields_field, ih]
    rfl

end Lib.Delimited
