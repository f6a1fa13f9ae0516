/-
Patterns as a regular expression in a program is put together: literal text, a
character out of a class, one or more of them. They are Mathlib's regular
expressions, so a match is decided by `rmatch`; a pattern here is matched as a
whole, as between `^` and `$`.

`matches_text`, `matches_oneOf` and `matches_oneOrMore` say what each part matches.
-/
import Mathlib.Computability.RegularExpressions

namespace Lib

abbrev Pattern : Type := RegularExpression Char

namespace Pattern

open RegularExpression

/-- Literal characters. -/
def text : List Char → Pattern
  | [] => 1
  | c :: cs => char c * text cs

/-- A character of the class. -/
def oneOf : List Char → Pattern
  | [] => 0
  | c :: cs => char c + oneOf cs

/-- One or more. -/
def oneOrMore (P : Pattern) : Pattern := P * P.star

/-- The whole text matches. -/
def Matches (P : Pattern) (cs : List Char) : Prop := cs ∈ P.matches'

theorem rmatch_iff {P cs} : P.rmatch cs = true ↔ Matches P cs := rmatch_iff_matches' P cs

theorem Matches.mul {P Q cs cs'} (h : Matches P cs) (h' : Matches Q cs') :
    Matches (P * Q) (cs ++ cs') :=
  Language.mem_mul.mpr ⟨cs, h, cs', h', rfl⟩

theorem Matches.inl {P Q cs} (h : Matches P cs) : Matches (P + Q) cs :=
  (Language.mem_add _ _ _).mpr (.inl h)

theorem matches_text (cs : List Char) : Matches (text cs) cs := by
  induction cs with
  | nil => exact Language.nil_mem_one
  | cons c cs ih =>
    have hc : Matches (char c) [c] := Set.mem_singleton _
    exact hc.mul ih

theorem matches_oneOf {c cs} (h : c ∈ cs) : Matches (oneOf cs) [c] := by
  induction cs with
  | nil => cases h
  | cons d cs ih =>
    rcases List.mem_cons.mp h with rfl | h
    · exact (Language.mem_add _ _ _).mpr (.inl rfl)
    · exact (Language.mem_add _ _ _).mpr (.inr (ih h))

theorem matches_oneOrMore {cls cs} (hne : cs ≠ []) (h : ∀ c ∈ cs, c ∈ cls) : Matches (oneOrMore (oneOf cls)) cs := by
  cases cs with
  | nil => exact absurd rfl hne
  | cons c cs =>
    rw [List.forall_mem_cons] at h
    have hstar : Matches (oneOf cls).star cs := by
      refine Language.mem_kstar.mpr ⟨cs.map fun d => [d], (List.flatMap_singleton' cs).symm, fun y hy => ?_⟩
      obtain ⟨d, hd, rfl⟩ := List.mem_map.mp hy
      exact matches_oneOf (h.2 d hd)
    exact (matches_oneOf h.1).mul hstar

end Pattern

end Lib
