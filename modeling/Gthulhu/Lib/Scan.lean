/-
Reading a text by a format, as Go's `fmt.Sscanf` does: literal characters, and
decimal numbers of a given width (`%d`). A number may have space before it, but
no line break; what is left when the format ends is not looked at.

`scanUint_append` and `scanLiteral_append` read back what `Sprintf` wrote, with
whatever follows. The words of a text are what `strings.Fields` gives.
-/
import Gthulhu.Lib.GoText
import Gthulhu.Lib.Delimited

namespace Lib

open List

/-- The literal part of a format. -/
def scanLiteral (text input : List Char) : Option (List Char) :=
  if text.isPrefixOf input then some (input.drop text.length) else none

/-- Space before a number. A line break is an error. -/
def skipSpace : List Char → Option (List Char)
  | [] => some []
  | c :: input => if c = '\n' then none else if isSpace c then skipSpace input else some (c :: input)

/-- The digits of a number, at least one. -/
def scanDigits (input : List Char) : Option (Nat × List Char) :=
  let (digits, rest) := input.span Char.isDigit
  if digits = [] then none else some (Nat.ofDigitChars 10 digits 0, rest)

/-- `%d` into an unsigned integer of so many bits. -/
def scanUint (bits : Nat) (input : List Char) : Option (Nat × List Char) := do
  let (n, rest) ← scanDigits (← skipSpace input)
  if n < 2 ^ bits then some (n, rest) else none

/-- A sign before the digits; whether it is a minus. -/
def scanSign : List Char → Bool × List Char
  | '-' :: input => (true, input)
  | '+' :: input => (false, input)
  | input => (false, input)

/-- `%d` into an `int`, of 64 bits. -/
def scanInt (input : List Char) : Option (Int × List Char) := do
  let (negative, input) := scanSign (← skipSpace input)
  let (n, rest) ← scanDigits input
  if n < 2 ^ 63 then some (bif negative then -n else n, rest)
  else if negative ∧ n = 2 ^ 63 then some (-n, rest)
  else none

theorem scanLiteral_append (text rest : List Char) : scanLiteral text (text ++ rest) = some rest := by
  simp [scanLiteral, isPrefixOf_iff_prefix]

theorem isDigit_range {c : Char} (h : c.isDigit = true) : 48 ≤ c.val.toNat ∧ c.val.toNat ≤ 57 := by
  simpa [Char.isDigit, UInt32.le_iff_toNat_le] using h

theorem isSpace_of_range {c} (h : 33 ≤ c.val.toNat ∧ c.val.toNat ≤ 126) : isSpace c = false := by
  simp only [isSpace, mem_cons, not_mem_nil, or_false, Bool.or_eq_false_iff, decide_eq_false_iff_not,
    Bool.and_eq_false_imp, decide_eq_true_eq, not_or]
  omega

theorem isSpace_digit {c} (h : c.isDigit = true) : isSpace c = false := by
  have := isDigit_range h
  exact isSpace_of_range (by omega)

theorem skipSpace_digit {c} (h : c.isDigit = true)
    (input : List Char) : skipSpace (c :: input) = some (c :: input) := by
  have hbreak : c ≠ '\n' := by
    intro hc
    subst hc
    simp at h
  rw [skipSpace, if_neg hbreak, if_neg (by simp [isSpace_digit h])]

/-! ## Numbers as they are written -/

theorem natRepr_digits (n : Nat) : ∀ c ∈ (toString n).toList, c.isDigit = true := by
  intro c hc
  by_contra hnot
  exact Delimited.notMem_natRepr (by simpa using hnot) n hc

theorem natRepr_ne_nil (n : Nat) : (toString n).toList ≠ [] := by
  simp [Nat.toDigits_ne_nil]

/-- A number before something that is no digit. -/
theorem scanDigits_append (n : Nat) {rest} (h : ∀ c ∈ rest.head?, c.isDigit = false) :
    scanDigits ((toString n).toList ++ rest) = some (n, rest) := by
  have hrest : rest.takeWhile Char.isDigit = [] ∧ rest.dropWhile Char.isDigit = rest := by
    cases rest with
    | nil => simp
    | cons c rest => simp [h c rfl]
  have hspan : ((toString n).toList ++ rest).span Char.isDigit = ((toString n).toList, rest) := by
    rw [span_eq_takeWhile_dropWhile, takeWhile_append_of_pos (natRepr_digits n),
      dropWhile_append_of_pos (natRepr_digits n), hrest.1, hrest.2, append_nil]
  have hvalue : Nat.ofDigitChars 10 (toString n).toList 0 = n := by
    simp [Nat.toList_repr, Nat.ofDigitChars_toDigits]
  simp only [scanDigits, hspan]
  rw [if_neg (natRepr_ne_nil n), hvalue]

theorem skipSpace_natRepr (n : Nat) (rest : List Char) :
    skipSpace ((toString n).toList ++ rest) = some ((toString n).toList ++ rest) := by
  have hdigits := natRepr_digits n
  cases hchars : (toString n).toList with
  | nil => exact absurd hchars (natRepr_ne_nil n)
  | cons c cs =>
    rw [hchars] at hdigits
    exact skipSpace_digit (hdigits c (by simp)) _

theorem scanUint_append {bits n rest} (hn : n < 2 ^ bits) (h : ∀ c ∈ rest.head?, c.isDigit = false) :
    scanUint bits ((toString n).toList ++ rest) = some (n, rest) := by
  simp only [scanUint, skipSpace_natRepr, scanDigits_append n h, Option.bind_eq_bind, Option.bind_some, if_pos hn]

/-- A natural number is written without a sign. -/
theorem scanSign_natRepr (n : Nat) (rest : List Char) :
    scanSign ((toString n).toList ++ rest) = (false, (toString n).toList ++ rest) := by
  have hdigits := natRepr_digits n
  cases hchars : (toString n).toList with
  | nil => exact absurd hchars (natRepr_ne_nil n)
  | cons c cs =>
    rw [hchars, forall_mem_cons] at hdigits
    unfold scanSign
    split
    · rename_i heq
      rw [(List.cons.inj heq).1] at hdigits
      exact absurd hdigits.1 (by decide)
    · rename_i heq
      rw [(List.cons.inj heq).1] at hdigits
      exact absurd hdigits.1 (by decide)
    · rfl

theorem scanInt_append {n : Nat} {rest : List Char} (hn : n < 2 ^ 63) (h : ∀ c ∈ rest.head?, c.isDigit = false) :
    scanInt ((toString n).toList ++ rest) = some ((n : Int), rest) := by
  simp only [scanInt, skipSpace_natRepr, scanSign_natRepr, scanDigits_append n h, Option.bind_eq_bind, Option.bind_some,
    cond_false, if_pos hn]

/-! ## Words and whole numbers -/

/-- The words of a text. -/
def words (text : List Char) : List (List Char) := (text.splitOnP isSpace).filter (· ≠ [])

theorem fields_eq (s : String) : fields s = (words s.toList).map String.ofList := rfl

theorem words_append (before after : List Char) {c} (hc : isSpace c = true) :
    words (before ++ c :: after) = words before ++ words after := by
  rw [words, splitOnP_append_cons _ _ hc, filter_append]
  rfl

theorem words_single {word} (hne : word ≠ []) (h : ∀ c ∈ word, isSpace c = false) : words word = [word] := by
  simp [words, splitOnP_eq_singleton h, hne]

/-- A text with a character that is no white space has a word. -/
theorem words_ne_nil {text c} (hmem : c ∈ text) (hc : isSpace c = false) : words text ≠ [] := by
  induction text with
  | nil => cases hmem
  | cons d text ih =>
    rw [words, splitOnP_cons_eq_if_modifyHead]
    cases hd : isSpace d with
    | true =>
      have htext : c ∈ text := (mem_cons.mp hmem).resolve_left fun h => by simp [h, hd] at hc
      simpa [words] using ih htext
    | false =>
      cases hsplit : text.splitOnP isSpace with
      | nil => exact absurd hsplit (by simp)
      | cons head tail => simp

/-- A text between two characters that are no white space is one word just if
it has none in it. -/
theorem words_enclosed {first last} (hfirst : isSpace first = false) (hlast : isSpace last = false) (text : List Char) :
    (words (first :: (text ++ [last]))).length = 1 ↔ ∀ c ∈ text, isSpace c = false := by
  constructor
  · intro hone c hc
    by_contra hspace
    rw [Bool.not_eq_false] at hspace
    obtain ⟨before, after, rfl⟩ := append_of_mem hc
    have hsplit : words (first :: (before ++ c :: after ++ [last])) = words (first :: before) ++ words (after ++ [last]) := by
      simpa using words_append (first :: before) (after ++ [last]) hspace
    have hleft : 0 < (words (first :: before)).length :=
      length_pos_iff.mpr (words_ne_nil mem_cons_self hfirst)
    have hright : 0 < (words (after ++ [last])).length := length_pos_iff.mpr (words_ne_nil (by simp) hlast)
    rw [hsplit, length_append] at hone
    omega
  · intro h
    have hword : ∀ c ∈ first :: (text ++ [last]), isSpace c = false := by
      intro c hc
      simp only [mem_cons, mem_append, not_mem_nil, or_false] at hc
      obtain rfl | hc | rfl := hc
      · exact hfirst
      · exact h c hc
      · exact hlast
    rw [words_single (by simp) hword]
    rfl

theorem foldl_readDigits (digits : List Char) (h : ∀ c ∈ digits, c.isDigit = true) (n : Nat) :
    digits.foldl (fun n c => 10 * n + (c.toNat - '0'.toNat : Int)) (n : Int) = (Nat.ofDigitChars 10 digits n : Int) := by
  induction digits generalizing n with
  | nil => rfl
  | cons c digits ih =>
    rw [forall_mem_cons] at h
    have hzero : '0'.toNat ≤ c.toNat := (isDigit_range h.1).1
    rw [foldl_cons, Nat.ofDigitChars_cons, ← ih h.2, Nat.cast_add, Nat.cast_sub hzero, Nat.cast_mul]
    rfl

/-- A number that an `int` can hold is read back. -/
theorem atoi_natRepr {n : Nat} (hn : n < 2 ^ 63) : atoi (toString n) = some (n : Int) := by
  have hdigits := natRepr_digits n
  have hall : (toString n).toList.all Char.isDigit = true := all_eq_true.mpr hdigits
  have hsign : ∀ c : Char, c.isDigit = false → (toString n).toList.head? ≠ some c := by
    intro c hc h
    have hdigit := hdigits c (mem_of_mem_head? h)
    rw [hc] at hdigit
    cases hdigit
  have hvalue : readDigits (toString n).toList = (n : Int) := by
    have hread := foldl_readDigits _ hdigits 0
    simpa [readDigits, Nat.toList_repr, Nat.ofDigitChars_toDigits] using hread
  unfold atoi
  simp only [hsign '-' (by decide), hsign '+' (by decide), or_self, if_false, hvalue]
  rw [if_neg (fun h => h.elim (natRepr_ne_nil n) fun hnot => hnot hall), if_pos (by omega)]

end Lib
