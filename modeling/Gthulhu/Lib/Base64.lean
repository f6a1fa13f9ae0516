/-
Base64 text in the standard alphabet without padding, as Go's
`base64.RawStdEncoding` writes and reads it. Bytes are cut into sextets, three
bytes to four; an incomplete group has two or three. The decoder skips line
breaks, and does not look at the unused bits of the last sextet.

`base64Decode_base64Encode` is the round trip; `mem_base64Encode` says which
characters are written, and `base64Encode_eq_empty` when none is.
-/
import Mathlib.Data.List.Basic

namespace Lib

/-! ## Sextets -/

def sextets : List UInt8 → List Nat
  | [] => []
  | [a] => [a.toNat / 4, a.toNat % 4 * 16]
  | [a, b] => [a.toNat / 4, a.toNat % 4 * 16 + b.toNat / 16, b.toNat % 16 * 4]
  | a :: b :: c :: rest =>
    a.toNat / 4 :: (a.toNat % 4 * 16 + b.toNat / 16) :: (b.toNat % 16 * 4 + c.toNat / 64) :: c.toNat % 64 :: sextets rest

def ofSextets : List Nat → Option (List UInt8)
  | [] => some []
  | [_] => none
  | [v, w] => some [UInt8.ofNat (v * 4 + w / 16)]
  | [v, w, x] => some [UInt8.ofNat (v * 4 + w / 16), UInt8.ofNat (w % 16 * 16 + x / 4)]
  | v :: w :: x :: y :: rest => do
    let bs ← ofSextets rest
    return UInt8.ofNat (v * 4 + w / 16) :: UInt8.ofNat (w % 16 * 16 + x / 4) :: UInt8.ofNat (x % 4 * 64 + y) :: bs

theorem sextets_lt (bs : List UInt8) : ∀ v ∈ sextets bs, v < 64 := by
  fun_induction sextets bs with
  | case1 => simp
  | case2 a =>
    have ha := a.toNat_lt
    simp only [List.mem_cons, List.not_mem_nil, or_false, forall_eq_or_imp, forall_eq]
    omega
  | case3 a b =>
    have ha := a.toNat_lt
    have hb := b.toNat_lt
    simp only [List.mem_cons, List.not_mem_nil, or_false, forall_eq_or_imp, forall_eq]
    omega
  | case4 a b c rest ih =>
    have ha := a.toNat_lt
    have hb := b.toNat_lt
    have hc := c.toNat_lt
    simp only [List.mem_cons, forall_eq_or_imp]
    exact ⟨by omega, by omega, by omega, by omega, ih⟩

theorem ofSextets_sextets (bs : List UInt8) : ofSextets (sextets bs) = some bs := by
  fun_induction sextets bs with
  | case1 => rfl
  | case2 a =>
    have ha := a.toNat_lt
    have h1 : a.toNat / 4 * 4 + a.toNat % 4 * 16 / 16 = a.toNat := by omega
    simp only [ofSextets, h1, UInt8.ofNat_toNat]
  | case3 a b =>
    have ha := a.toNat_lt
    have hb := b.toNat_lt
    have h1 : a.toNat / 4 * 4 + (a.toNat % 4 * 16 + b.toNat / 16) / 16 = a.toNat := by omega
    have h2 : (a.toNat % 4 * 16 + b.toNat / 16) % 16 * 16 + b.toNat % 16 * 4 / 4 = b.toNat := by omega
    simp only [ofSextets, h1, h2, UInt8.ofNat_toNat]
  | case4 a b c rest ih =>
    have ha := a.toNat_lt
    have hb := b.toNat_lt
    have hc := c.toNat_lt
    have h1 : a.toNat / 4 * 4 + (a.toNat % 4 * 16 + b.toNat / 16) / 16 = a.toNat := by omega
    have h2 : (a.toNat % 4 * 16 + b.toNat / 16) % 16 * 16 + (b.toNat % 16 * 4 + c.toNat / 64) / 4 = b.toNat := by omega
    have h3 : (b.toNat % 16 * 4 + c.toNat / 64) % 4 * 64 + c.toNat % 64 = c.toNat := by omega
    simp only [ofSextets, ih, h1, h2, h3, UInt8.ofNat_toNat, Option.bind_eq_bind, Option.bind_some, Option.pure_def]

/-! ## Characters -/

def base64Alphabet : List Char := "ABCDEFGHIJKLMNOPQRSTUVWXYZabcdefghijklmnopqrstuvwxyz0123456789+/".toList

def base64Char (v : Nat) : Char := base64Alphabet.getD v 'A'

/-- A character's sextet. -/
def base64Value (c : Char) : Option Nat := base64Alphabet.idxOf? c

theorem base64Value_base64Char {v} (h : v < 64) : base64Value (base64Char v) = some v := by
  have all : ∀ k : Fin 64, base64Value (base64Char k) = some k.val := by decide +kernel
  exact all ⟨v, h⟩

theorem base64Char_mem {v} (h : v < 64) : base64Char v ∈ base64Alphabet := by
  have all : ∀ k : Fin 64, base64Char k ∈ base64Alphabet := by decide +kernel
  exact all ⟨v, h⟩

/-! ## Text -/

def base64Encode (bs : List UInt8) : String := String.ofList ((sextets bs).map base64Char)

def base64Decode (s : String) : Option (List UInt8) := do
  let vs ← (s.toList.filter fun c => c ≠ '\n' ∧ c ≠ '\r').mapM base64Value
  ofSextets vs

theorem mem_base64Encode {bs c} (h : c ∈ (base64Encode bs).toList) : c ∈ base64Alphabet := by
  simp only [base64Encode, String.toList_ofList, List.mem_map] at h
  obtain ⟨v, hv, rfl⟩ := h
  exact base64Char_mem (sextets_lt bs v hv)

theorem mapM_base64Value {vs : List Nat} (h : ∀ v ∈ vs, v < 64) : (vs.map base64Char).mapM base64Value = some vs := by
  induction vs with
  | nil => rfl
  | cons v vs ih =>
    rw [List.forall_mem_cons] at h
    simp [List.mapM_cons, base64Value_base64Char h.1, ih h.2]

@[simp] theorem base64Decode_base64Encode (bs : List UInt8) : base64Decode (base64Encode bs) = some bs := by
  have hkeep : ((base64Encode bs).toList.filter fun c => c ≠ '\n' ∧ c ≠ '\r') = (sextets bs).map base64Char := by
    have hbreaks : base64Alphabet.all (fun c => c ≠ '\n' ∧ c ≠ '\r') = true := by decide
    rw [List.filter_eq_self.mpr fun c hc => List.all_eq_true.mp hbreaks c (mem_base64Encode hc)]
    simp [base64Encode]
  rw [base64Decode, hkeep, mapM_base64Value (sextets_lt bs)]
  exact ofSextets_sextets bs

theorem base64Encode_eq_empty {bs} : base64Encode bs = "" ↔ bs = [] := by
  constructor
  · intro h
    have hdecode := base64Decode_base64Encode bs
    rw [h] at hdecode
    exact (Option.some.inj hdecode).symm
  · intro h
    subst h
    rfl

example : base64Encode [0x6c, 0x69, 0x67, 0x68, 0x74] = "bGlnaHQ" ∧ base64Decode "bGlnaHQ=" = none := by
  decide +kernel

end Lib
