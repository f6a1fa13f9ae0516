/-
Hexadecimal text: `hexEncode` writes two lower-case digits a byte and
`hexDecode` reads them back, refusing an odd digit or any other character.

`hexDecode_hexEncode` is the round trip; from it `hexEncode_injective`. The other
way round it holds of text without capitals: `hexEncode_of_hexDecode`. The
digits are never a separator a format is likely to use: `hexEncode_notMem`.
-/
import Mathlib.Data.List.Basic

namespace Lib

def hexDigit (n : Nat) : Char := "0123456789abcdef".toList.getD n '0'

def hexDigits : List UInt8 → List Char
  | [] => []
  | b :: bs => hexDigit (b.toNat / 16) :: hexDigit (b.toNat % 16) :: hexDigits bs

def hexEncode (bs : List UInt8) : String := String.ofList (hexDigits bs)

/-- A digit's value, of either case. -/
def hexValue (c : Char) : Option Nat :=
  if '0' ≤ c ∧ c ≤ '9' then some (c.toNat - 48)
  else if 'a' ≤ c ∧ c ≤ 'f' then some (c.toNat - 87)
  else if 'A' ≤ c ∧ c ≤ 'F' then some (c.toNat - 55)
  else none

def hexBytes : List Char → Option (List UInt8)
  | [] => some []
  | [_] => none
  | c :: d :: rest => do
    let hi ← hexValue c
    let lo ← hexValue d
    let bs ← hexBytes rest
    return UInt8.ofNat (16 * hi + lo) :: bs

def hexDecode (s : String) : Option (List UInt8) := hexBytes s.toList

theorem hexValue_hexDigit {n} (h : n < 16) : hexValue (hexDigit n) = some n := by
  have all : ∀ k : Fin 16, hexValue (hexDigit k) = some k.val := by decide
  exact all ⟨n, h⟩

theorem hexBytes_hexDigits (bs : List UInt8) : hexBytes (hexDigits bs) = some bs := by
  induction bs with
  | nil => rfl
  | cons b bs ih =>
    have hlt := b.toNat_lt
    have hb : 16 * (b.toNat / 16) + b.toNat % 16 = b.toNat := Nat.div_add_mod _ _
    simp only [hexDigits, hexBytes, ih, hexValue_hexDigit (show b.toNat / 16 < 16 by omega),
      hexValue_hexDigit (show b.toNat % 16 < 16 by omega), hb, Option.bind_eq_bind, Option.bind_some]
    simp

@[simp] theorem hexDecode_hexEncode (bs : List UInt8) : hexDecode (hexEncode bs) = some bs := by
  simp [hexDecode, hexEncode, hexBytes_hexDigits]

theorem hexEncode_injective : Function.Injective hexEncode := fun a b h => by
  have := congrArg hexDecode h
  simpa using this

theorem hexDigits_length (bs : List UInt8) : (hexDigits bs).length = 2 * bs.length := by
  induction bs with
  | nil => rfl
  | cons b bs ih => simp [hexDigits, ih]; omega

theorem hexDigit_hexValue {c n} (h : hexValue c = some n) (hlower : c.isUpper = false) :
    n < 16 ∧ hexDigit n = c := by
  have digit : ∀ m < 10, hexDigit m = Char.ofNat (m + 48) := by decide
  have letter : ∀ m < 6, hexDigit (m + 10) = Char.ofNat (m + 97) := by decide
  have hc := Char.ofNat_toNat c
  unfold hexValue at h
  split at h
  · rename_i hrange
    have hlow : 48 ≤ c.toNat := hrange.1
    have hhigh : c.toNat ≤ 57 := hrange.2
    cases h
    rw [digit _ (by omega), Nat.sub_add_cancel hlow]
    exact ⟨by omega, hc⟩
  split at h
  · rename_i hrange
    have hlow : 97 ≤ c.toNat := hrange.1
    have hhigh : c.toNat ≤ 102 := hrange.2
    cases h
    have hletter := letter (c.toNat - 97) (by omega)
    rw [Nat.sub_add_cancel hlow, hc, show c.toNat - 97 + 10 = c.toNat - 87 by omega] at hletter
    exact ⟨by omega, hletter⟩
  split at h
  · rename_i hrange
    have hlow : 65 ≤ c.toNat := hrange.1
    have hhigh : c.toNat ≤ 70 := hrange.2
    have hupper : c.isUpper = true := decide_eq_true ⟨hrange.1, Nat.le_trans hhigh (by decide)⟩
    rw [hlower] at hupper
    cases hupper
  · cases h

theorem hexDigits_hexBytes : ∀ {cs : List Char} {bs : List UInt8}, hexBytes cs = some bs →
    (∀ c ∈ cs, c.isUpper = false) → hexDigits bs = cs
  | [], bs, h, _ => by
    cases h
    rfl
  | [_], _, h, _ => by cases h
  | c :: d :: rest, bs, h, hlower => by
    simp only [hexBytes, Option.bind_eq_bind, Option.bind_eq_some_iff] at h
    obtain ⟨hi, hhi, lo, hlo, bs', hbs, hcons⟩ := h
    cases hcons
    obtain ⟨hi16, hc⟩ := hexDigit_hexValue hhi (hlower c (by simp))
    obtain ⟨lo16, hd⟩ := hexDigit_hexValue hlo (hlower d (by simp))
    have hrest := hexDigits_hexBytes hbs fun e he => hlower e (by simp [he])
    have hbyte : (UInt8.ofNat (16 * hi + lo)).toNat = 16 * hi + lo := 
      UInt8.toNat_ofNat_of_lt (show 16 * hi + lo < 256 by omega)
    simp only [hexDigits, hbyte, hrest]
    rw [show (16 * hi + lo) / 16 = hi by omega, show (16 * hi + lo) % 16 = lo by omega, hc, hd]

/-- **Reading and writing back**, for text without capital digits. -/
theorem hexEncode_of_hexDecode {s bs} (h : hexDecode s = some bs)
    (hlower : ∀ c ∈ s.toList, c.isUpper = false) : hexEncode bs = s := by
  rw [hexEncode, hexDigits_hexBytes h hlower, String.ofList_toList]
theorem hexEncode_eq_empty {bs} : hexEncode bs = "" ↔ bs = [] := by
  constructor
  · intro h
    have h' := hexDecode_hexEncode bs
    rw [h] at h'
    exact (Option.some.inj h').symm
  · rintro rfl; rfl

theorem hexDigits_isHex (bs : List UInt8) : ∀ c ∈ hexDigits bs, (hexValue c).isSome := by
  induction bs with
  | nil => simp [hexDigits]
  | cons b bs ih =>
    have hlt := b.toNat_lt
    intro c hc
    simp only [hexDigits, List.mem_cons] at hc
    rcases hc with rfl | rfl | hc
    · rw [hexValue_hexDigit (by omega)]; rfl
    · rw [hexValue_hexDigit (by omega)]; rfl
    · exact ih c hc

/-- A character that is no digit does not occur in encoded text. -/
theorem hexEncode_notMem {c} (hc : hexValue c = none) (bs : List UInt8) :
    c ∉ (hexEncode bs).toList := by
  intro h
  have := hexDigits_isHex bs c (by simpa [hexEncode] using h)
  simp [hc] at this

theorem length_le_utf8ByteSize : ∀ cs : List Char, cs.length ≤ (String.ofList cs).utf8ByteSize
  | [] => by simp
  | c :: cs => by
    have ih := length_le_utf8ByteSize cs
    have hc := c.utf8Size_pos
    rw [String.ofList_cons, String.utf8ByteSize_append, String.utf8ByteSize_singleton, List.length_cons]
    omega

theorem hexEncode_utf8ByteSize (bs : List UInt8) : 2 * bs.length ≤ (hexEncode bs).utf8ByteSize := by
  rw [← hexDigits_length]
  exact length_le_utf8ByteSize _

end Lib
