/-
The text functions of Go's standard library the code here uses on file names
and settings, and what an encoder's `omitempty` tag does to a field.

`encodeField` leaves a tagged field out when its value is empty and
`decodeField` keeps the default of a field that is absent. A value comes back
exactly when it is not the empty one, or the default is empty too
(`decodeField_encodeField`).
-/
import Mathlib.Data.List.DropRight
import Mathlib.Data.UInt

namespace Lib

/-! ## Text -/

/-- `unicode.IsSpace`. -/
def isSpace (c : Char) : Bool :=
  c.val.toNat ∈ [0x09, 0x0a, 0x0b, 0x0c, 0x0d, 0x20, 0x85, 0xa0, 0x1680, 0x2028, 0x2029, 0x202f, 0x205f, 0x3000] ||
    (0x2000 ≤ c.val.toNat && c.val.toNat ≤ 0x200a)

/-- `strings.TrimSpace`. -/
def trimSpace (s : String) : String := String.ofList ((s.toList.dropWhile isSpace).rdropWhile isSpace)

theorem dropWhile_rdropWhile_dropWhile {α : Type} (p : α → Bool) (l : List α) :
    ((l.dropWhile p).rdropWhile p).dropWhile p = (l.dropWhile p).rdropWhile p := by
  rw [List.dropWhile_eq_self_iff]
  intro hl hp
  have hne : l.dropWhile p ≠ [] := fun h => by simp [h] at hl
  have hpre := List.rdropWhile_prefix p (l.dropWhile p)
  have hpos : 0 < (l.dropWhile p).length := List.length_pos_iff.mpr hne
  have hhead : ((l.dropWhile p).rdropWhile p)[0] = (l.dropWhile p)[0] := hpre.getElem hl
  rw [hhead] at hp
  exact List.dropWhile_get_zero_not p l hpos hp

@[simp] theorem trimSpace_idem (s : String) : trimSpace (trimSpace s) = trimSpace s := by
  simp only [trimSpace, String.toList_ofList]
  rw [dropWhile_rdropWhile_dropWhile, List.rdropWhile_idempotent]

/-- `strings.HasPrefix`. -/
def startsWith (s start : String) : Bool := start.toList.isPrefixOf s.toList

/-- `strings.HasSuffix`. -/
def endsWith (s ending : String) : Bool := ending.toList.isSuffixOf s.toList

/-- `strings.Contains`. -/
def contains (s part : String) : Bool := s.toList.tails.any fun rest => part.toList.isPrefixOf rest

/-- `strings.Split` at one character. -/
def split (s : String) (sep : Char) : List String := (s.toList.splitOn sep).map String.ofList

/-- `strings.Fields`. -/
def fields (s : String) : List String := ((s.toList.splitOnP isSpace).filter (· ≠ [])).map String.ofList

/-- The digits of a decimal number, read from the left. -/
def readDigits (digits : List Char) : Int := digits.foldl (fun n c => 10 * n + (c.toNat - '0'.toNat : Int)) 0

/-- `strconv.Atoi`: a sign, digits, and the range of a 64-bit `int`. -/
def atoi (s : String) : Option Int :=
  let negative := s.toList.head? = some '-'
  let digits := if negative ∨ s.toList.head? = some '+' then s.toList.tail else s.toList
  if digits = [] ∨ ¬digits.all Char.isDigit then none
  else
    let n := if negative then -readDigits digits else readDigits digits
    if -2 ^ 63 ≤ n ∧ n < 2 ^ 63 then some n else none

example : atoi "4711" = some 4711 ∧ atoi "-7" = some (-7) ∧ atoi "+" = none ∧ atoi "7a" = none ∧
    atoi "9223372036854775808" = none := by decide +kernel

/-- `strconv.ParseUint` with base 10 and 32 bits. -/
def parseUint32 (s : String) : Option UInt32 :=
  if s = "" ∨ ¬s.toList.all Char.isDigit then none
  else if readDigits s.toList < 2 ^ 32 then some (UInt32.ofNat (readDigits s.toList).toNat)
  else none

/-- The rest of a number of 64 bits, over what is read so far. -/
def readUint64 (n : Nat) : List Char → UInt64
  | [] => UInt64.ofNat n
  | c :: cs =>
    if ¬c.isDigit then 0
    else
      let n := 10 * n + (c.toNat - '0'.toNat)
      if 2 ^ 64 ≤ n then UInt64.ofNat (2 ^ 64 - 1) else readUint64 n cs

/-- What `strconv.ParseUint` with base 10 and 64 bits returns beside its error:
0 for what is no number, the largest number for what is too large. -/
def parseUint64 (s : String) : UInt64 := readUint64 0 s.toList

/-- What is before and after the first occurrence of `sep`. -/
def cutChars (sep : List Char) : List Char → Option (List Char × List Char)
  | [] => if sep = [] then some ([], []) else none
  | c :: cs =>
    if sep.isPrefixOf (c :: cs) then some ([], (c :: cs).drop sep.length)
    else (cutChars sep cs).map fun (before, after) => (c :: before, after)

/-- `strings.Cut`, or `strings.Index` and the two slices at it. -/
def cut (s sep : String) : Option (String × String) :=
  (cutChars sep.toList s.toList).map fun (before, after) => (String.ofList before, String.ofList after)

/-- `strings.ReplaceAll` of one character. -/
def replaceChar (s : String) (old new : Char) : String := String.ofList (s.toList.map fun c => if c = old then new else c)

example : parseUint32 "4711" = some 4711 ∧ parseUint64 "4711" = 4711 ∧ parseUint64 "47x" = 0 ∧ parseUint32 "" = none ∧ parseUint32 "4294967296" = none ∧
    cut "a/pod7/c" "/pod" = some ("a", "7/c") ∧ cut "a" "/" = none := by
  decide +kernel

/-- `filepath.Base`. -/
def base (path : String) : String :=
  if path = "" then "."
  else
    let last := (path.toList.rdropWhile (· = '/')).rtakeWhile (· ≠ '/')
    if last = [] then "/" else String.ofList last

/-- The next element of a path being cleaned, over those kept so far. -/
def cleanElement (rooted : Bool) (kept : List String) (element : String) : List String :=
  if element = "" ∨ element = "." then kept
  else if element = ".." then
    match kept with
    | top :: rest => if top = ".." then ".." :: kept else rest
    | [] => if rooted then [] else [".."]
  else element :: kept

/-- `filepath.Clean`. -/
def clean (path : String) : String :=
  let rooted := startsWith path "/"
  let kept := (((path.toList.splitOn '/').map String.ofList).foldl (cleanElement rooted) []).reverse
  let text := "/".intercalate kept
  if rooted then "/" ++ text else if text = "" then "." else text

/-- `filepath.Dir`. -/
def dir (path : String) : String := clean (String.ofList (path.toList.rdropWhile (· ≠ '/')))

/-- `filepath.Join` of two elements, the first not empty. -/
def joinPath (directory element : String) : String :=
  if element = "" then clean directory else clean (directory ++ "/" ++ element)

example : clean "/usr/./bin//../lib" = "/usr/lib" ∧ dir "/usr/bin/gthulhu" = "/usr/bin" ∧ base "a/b/" = "b" := by
  decide +kernel

/-! ## Tagged fields -/

section

variable {α : Type} [DecidableEq α]

/-- A field in an encoded record: left out when it is empty and tagged
`omitempty`. -/
def encodeField (omitempty : Bool) (empty value : α) : Option α :=
  if omitempty = true ∧ value = empty then none else some value

/-- A field read over its default. -/
def decodeField (default : α) (field : Option α) : α := field.getD default

@[simp] theorem decodeField_plain (empty default value : α) :
    decodeField default (encodeField false empty value) = value := by
  simp [encodeField, decodeField]

@[simp] theorem decodeField_encodeField (empty default value : α) :
    decodeField default (encodeField true empty value) = if value = empty then default else value := by
  unfold encodeField decodeField
  split <;> simp_all

@[simp high] theorem decodeField_empty (empty value : α) :
    decodeField empty (encodeField true empty value) = value := by
  rw [decodeField_encodeField]
  split
  · rename_i h
    exact h.symm
  · rfl

end

end Lib
