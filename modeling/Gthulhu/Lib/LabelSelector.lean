/-
Label selectors, as text: `key=value` or `key in (v1,v2)`, with commas
between. `parseSelector` reads what `selectorText` writes, for keys and values
without the characters that separate (`parseSelector_selectorText`).
-/
import Gthulhu.Lib.GoText
import Gthulhu.Lib.Delimited

namespace Lib

open List

/-- A label's key, and the values of which it has to have one. -/
abbrev Requirement : Type := String × List String

def requirementText (r : Requirement) : String :=
  match r.2 with
  | [value] => r.1 ++ "=" ++ value
  | values => r.1 ++ " in (" ++ ",".intercalate values ++ ")"

def selectorText (sel : List Requirement) : String := ",".intercalate (sel.map requirementText)

/-! ## Reading -/

/-- A character put before the first part. -/
def extend (c : Char) : List (List Char) → List (List Char)
  | [] => [[c]]
  | part :: parts => (c :: part) :: parts

/-- The parts between the commas that are outside parentheses. -/
def splitTop : Bool → List Char → List (List Char)
  | _, [] => [[]]
  | inside, c :: cs =>
    if c = ',' ∧ inside = false then [] :: splitTop inside cs
    else extend c (splitTop (if c = '(' then true else if c = ')' then false else inside) cs)

def parseRequirement (part : List Char) : Option Requirement :=
  match cutChars " in (".toList part with
  | some (key, values) => some (String.ofList key, (values.dropLast.splitOn ',').map String.ofList)
  | none => (cutChars "=".toList part).map fun (key, value) => (String.ofList key, [String.ofList value])

def parseSelector (s : String) : Option (List Requirement) :=
  if s = "" then some [] else (splitTop false s.toList).mapM parseRequirement

/-! ## What is written is read -/

/-- No character separates. -/
def Plain (s : String) : Prop := ∀ c ∈ [',', '(', ')', ' ', '='], c ∉ s.toList

instance (s : String) : Decidable (Plain s) := List.decidableBAll (· ∉ s.toList) _

structure Requirement.Plain (r : Requirement) : Prop where
  key : Lib.Plain r.1
  values : ∀ v ∈ r.2, Lib.Plain v
  someValue : r.2 ≠ []

/-- The characters put before the first part. -/
def attach (cs : List Char) (parts : List (List Char)) : List (List Char) := cs.foldr extend parts

theorem splitTop_outside {cs} (h : ∀ c ∈ cs, c ≠ ',' ∧ c ≠ '(' ∧ c ≠ ')') (rest : List Char) :
    splitTop false (cs ++ rest) = attach cs (splitTop false rest) := by
  induction cs with
  | nil => rfl
  | cons c cs ih =>
    obtain ⟨hcomma, hopen, hclose⟩ := h c (by simp)
    rw [cons_append, splitTop, ih fun c hc => h c (by simp [hc])]
    simp [hcomma, hopen, hclose, attach, ih fun c hc => h c (by simp [hc])]

theorem splitTop_inside {cs} (h : ∀ c ∈ cs, c ≠ '(' ∧ c ≠ ')') (rest : List Char) :
    splitTop true (cs ++ rest) = attach cs (splitTop true rest) := by
  induction cs with
  | nil => rfl
  | cons c cs ih =>
    obtain ⟨hopen, hclose⟩ := h c (by simp)
    rw [cons_append, splitTop]
    simp [hopen, hclose, attach, ih fun c hc => h c (by simp [hc])]

theorem attach_append (cs ds : List Char) (parts : List (List Char)) :
    attach (cs ++ ds) parts = attach cs (attach ds parts) := foldr_append ..

theorem attach_cons (cs part : List Char) (parts : List (List Char)) :
    attach cs (part :: parts) = (cs ++ part) :: parts := by
  induction cs with
  | nil => rfl
  | cons c cs ih =>
    rw [attach, foldr_cons]
    rw [attach] at ih
    rw [ih]
    rfl

/-- The text is passed over as one part. -/
def Whole (cs : List Char) : Prop := ∀ rest, splitTop false (cs ++ rest) = attach cs (splitTop false rest)

theorem splitTop_intercalate : ∀ {parts : List (List Char)}, parts ≠ [] → (∀ part ∈ parts, Whole part) →
    splitTop false (List.intercalate [','] parts) = parts
  | [], h, _ => absurd rfl h
  | [part], _, hwhole => by
    have h := hwhole part (by simp) []
    rw [append_nil] at h
    rw [intercalate_singleton, h, splitTop, attach_cons, append_nil]
  | part :: part' :: parts, _, hwhole => by
    have hrest : splitTop false (List.intercalate [','] (part' :: parts)) = part' :: parts :=
      splitTop_intercalate (by simp) fun p hp => hwhole p (by simp [hp])
    have hcomma : ∀ rest, splitTop false (',' :: rest) = [] :: splitTop false rest := by simp [splitTop]
    rw [Delimited.intercalate_cons part (by simp), hwhole part (by simp), hcomma, hrest, attach_cons, append_nil]

theorem cutChars_cons {c d} (h : c ≠ d) (sep cs : List Char) :
    cutChars (c :: sep) (d :: cs) = (cutChars (c :: sep) cs).map fun (before, after) => (d :: before, after) := by
  simp [cutChars, List.isPrefixOf, h]

theorem cutChars_append {c sep} : ∀ {cs : List Char}, c ∉ cs → ∀ rest,
    cutChars (c :: sep) (cs ++ c :: (sep ++ rest)) = some (cs, rest)
  | [], _, rest => by simp [cutChars]
  | d :: cs, h, rest => by
    obtain ⟨hne, hrest⟩ := ne_and_not_mem_of_not_mem_cons h
    rw [cons_append, cutChars_cons hne, cutChars_append hrest rest]
    rfl

theorem cutChars_notMem {c sep} : ∀ {cs : List Char}, c ∉ cs → cutChars (c :: sep) cs = none
  | [], _ => by simp [cutChars]
  | d :: cs, h => by
    obtain ⟨hne, hrest⟩ := ne_and_not_mem_of_not_mem_cons h
    rw [cutChars_cons hne, cutChars_notMem hrest]
    rfl

theorem Requirement.toList_one (key value : String) :
    (requirementText (key, [value])).toList = key.toList ++ '=' :: value.toList := by
  simp [requirementText]

theorem Requirement.toList_several (key v v' : String) (vs : List String) :
    (requirementText (key, v :: v' :: vs)).toList =
      key.toList ++ " in (".toList ++ List.intercalate [','] ((v :: v' :: vs).map String.toList) ++ [')'] := by
  simp [requirementText, String.toList_intercalate]

theorem notMem_values {values : List String} (h : ∀ v ∈ values, Plain v) {c : Char} (hc : c ∈ ['(', ')', ' ', '=']) :
    c ∉ List.intercalate [','] (values.map String.toList) := by
  intro hmem
  obtain rfl | ⟨cs, hcs, hmem⟩ := Delimited.mem_intercalate hmem
  · simp at hc
  · obtain ⟨v, hv, rfl⟩ := mem_map.mp hcs
    exact h v hv c (by simp at hc ⊢; tauto) hmem

theorem Requirement.Plain.whole {r} (h : r.Plain) : Whole (requirementText r).toList := by
  intro rest
  obtain ⟨key, values⟩ := r
  obtain _ | ⟨v, _ | ⟨v', vs⟩⟩ := values
  · exact absurd rfl h.someValue
  · rw [Requirement.toList_one]
    refine splitTop_outside (fun c hc => ?_) rest
    have hkey := h.key
    have hvalue := h.values v (by simp)
    simp only [Lib.Plain, mem_cons, not_mem_nil, or_false, forall_eq_or_imp, forall_eq] at hkey hvalue
    simp only [mem_append, mem_cons] at hc
    grind
  · have hkey : ∀ c ∈ key.toList ++ [' ', 'i', 'n', ' '], c ≠ ',' ∧ c ≠ '(' ∧ c ≠ ')' := by
      have hkey := h.key
      simp only [Lib.Plain, mem_cons, not_mem_nil, or_false, forall_eq_or_imp, forall_eq] at hkey
      simp only [mem_append, mem_cons, not_mem_nil, or_false]
      grind
    have hinner : ∀ c ∈ List.intercalate [','] ((v :: v' :: vs).map String.toList), c ≠ '(' ∧ c ≠ ')' := by
      intro c hc
      refine ⟨fun he => ?_, fun he => ?_⟩ <;>
      · subst he
        exact notMem_values h.values (by simp) hc
    have hopen : ∀ cs, splitTop false ('(' :: cs) = attach ['('] (splitTop true cs) := by simp [splitTop, attach]
    have hclose : ∀ cs, splitTop true (')' :: cs) = attach [')'] (splitTop false cs) := by simp [splitTop, attach]
    have htext : (requirementText (key, v :: v' :: vs)).toList = (key.toList ++ [' ', 'i', 'n', ' ']) ++ ['('] ++
        List.intercalate [','] ((v :: v' :: vs).map String.toList) ++ [')'] := by
      rw [Requirement.toList_several]
      simp
    calc splitTop false ((requirementText (key, v :: v' :: vs)).toList ++ rest)
        = splitTop false ((key.toList ++ [' ', 'i', 'n', ' ']) ++ '(' ::
            (List.intercalate [','] ((v :: v' :: vs).map String.toList) ++ ')' :: rest)) := by
          rw [htext]
          simp
      _ = attach (requirementText (key, v :: v' :: vs)).toList (splitTop false rest) := by
          rw [splitTop_outside hkey, hopen, splitTop_inside hinner, hclose, htext]
          simp only [attach_append]

theorem Requirement.Plain.parse {r} (h : r.Plain) :
    parseRequirement (requirementText r).toList = some r := by
  obtain ⟨key, values⟩ := r
  have hspace : ' ' ∉ key.toList := h.key ' ' (by simp)
  obtain _ | ⟨v, _ | ⟨v', vs⟩⟩ := values
  · exact absurd rfl h.someValue
  · have hnone : cutChars " in (".toList (requirementText (key, [v])).toList = none := by
      have hvalue : ' ' ∉ v.toList := h.values v (by simp) ' ' (by simp)
      have hnot : ' ' ∉ (requirementText (key, [v])).toList := by simp [Requirement.toList_one, hspace, hvalue]
      exact cutChars_notMem hnot
    have hsome : cutChars "=".toList (requirementText (key, [v])).toList = some (key.toList, v.toList) := by
      rw [Requirement.toList_one]
      exact cutChars_append (h.key '=' (by simp)) v.toList
    rw [parseRequirement, hnone, hsome]
    simp
  · have hsome : cutChars " in (".toList (requirementText (key, v :: v' :: vs)).toList =
        some (key.toList, List.intercalate [','] ((v :: v' :: vs).map String.toList) ++ [')']) := by
      rw [Requirement.toList_several, append_assoc, append_assoc]
      exact cutChars_append hspace _
    have hcomma : ∀ cs ∈ (v :: v' :: vs).map String.toList, ',' ∉ cs := by
      intro cs hcs
      obtain ⟨u, hu, rfl⟩ := mem_map.mp hcs
      exact h.values u hu ',' (by simp)
    rw [parseRequirement, hsome]
    simp only [dropLast_concat]
    rw [splitOn_intercalate ',' hcomma (by simp)]
    simp [Function.comp_def]

/-- **A selector that is written is read.** -/
theorem parseSelector_selectorText {sel} (h : ∀ r ∈ sel, r.Plain) :
    parseSelector (selectorText sel) = some sel := by
  have hchars : (selectorText sel).toList = List.intercalate [','] (sel.map fun r => (requirementText r).toList) := by
    simp [selectorText, String.toList_intercalate, Function.comp_def]
  have hparse : ∀ l : List Requirement, (∀ r ∈ l, r.Plain) →
      (l.map fun r => (requirementText r).toList).mapM parseRequirement = some l := by
    intro l hl
    induction l with
    | nil => rfl
    | cons r l ih =>
      rw [map_cons, mapM_cons, (hl r (by simp)).parse, ih fun r hr => hl r (by simp [hr])]
      rfl
  cases sel with
  | nil => rfl
  | cons r sel =>
    have hsplit : splitTop false (selectorText (r :: sel)).toList = (r :: sel).map fun r => (requirementText r).toList := by
      rw [hchars]
      refine splitTop_intercalate (by simp) fun part hpart => ?_
      obtain ⟨r', hr', rfl⟩ := mem_map.mp hpart
      exact (h r' hr').whole
    have hne : selectorText (r :: sel) ≠ "" := by
      intro he
      rw [he] at hsplit
      have hempty : [] = (requirementText r).toList := (List.cons.inj hsplit).1
      have hread := (h r (by simp)).parse
      rw [← hempty] at hread
      cases hread
    rw [parseSelector, if_neg hne, hsplit]
    exact hparse _ h

end Lib
