import Mathlib.Algebra.Group.Nat.Defs
import Mathlib.Data.Nat.Basic

/-! Unsigned words as bytes, the highest first. What does not fit the width is lost. -/
namespace StreamRelay.BigEndian

def bytes32 (n : Nat) : List UInt8 :=
  [UInt8.ofNat (n >>> 24), UInt8.ofNat (n >>> 16), UInt8.ofNat (n >>> 8), UInt8.ofNat n]

def bytes16 (n : Nat) : List UInt8 := [UInt8.ofNat (n >>> 8), UInt8.ofNat n]

def word32 (a b c d : UInt8) : UInt32 :=
  (a.toUInt32 <<< 24) ||| (b.toUInt32 <<< 16) ||| (c.toUInt32 <<< 8) ||| d.toUInt32

def word16 (a b : UInt8) : UInt16 := (a.toUInt16 <<< 8) ||| b.toUInt16

theorem byte_toNat (n : Nat) : (UInt8.ofNat n).toNat = n % 256 := UInt8.toNat_ofNat'

theorem join_bytes {high low : Nat} (width : Nat) (small : low < 2 ^ width) :
    high * 2 ^ width ||| low = high * 2 ^ width + low := by
  rw [← Nat.shiftLeft_eq]
  exact (Nat.shiftLeft_add_eq_or_of_lt small high).symm

theorem word16_toNat (a b : UInt8) : (word16 a b).toNat = a.toNat * 2 ^ 8 + b.toNat := by
  have high := a.toNat_lt
  have low := b.toNat_lt
  have shifted : a.toNat <<< 8 % 2 ^ 16 = a.toNat * 2 ^ 8 := by
    rw [Nat.shiftLeft_eq]
    exact Nat.mod_eq_of_lt (by omega)
  simp only [word16, UInt16.toNat_or, UInt16.toNat_shiftLeft, UInt8.toNat_toUInt16]
  rw [show (8 : UInt16).toNat % 16 = 8 from rfl, shifted, join_bytes 8 (by omega)]

theorem word32_toNat (a b c d : UInt8) :
    (word32 a b c d).toNat = a.toNat * 2 ^ 24 + b.toNat * 2 ^ 16 + c.toNat * 2 ^ 8 + d.toNat := by
  have first := a.toNat_lt
  have second := b.toNat_lt
  have third := c.toNat_lt
  have fourth := d.toNat_lt
  have shifted (e : UInt8) {width : Nat} (fits : width ≤ 24) :
      e.toNat <<< width % 2 ^ 32 = e.toNat * 2 ^ width := by
    rw [Nat.shiftLeft_eq]
    apply Nat.mod_eq_of_lt
    calc e.toNat * 2 ^ width ≤ e.toNat * 2 ^ 24 :=
          Nat.mul_le_mul_left _ (Nat.pow_le_pow_right (by decide) fits)
      _ < 2 ^ 32 := by have := e.toNat_lt; omega
  simp only [word32, UInt32.toNat_or, UInt32.toNat_shiftLeft, UInt8.toNat_toUInt32]
  rw [show (24 : UInt32).toNat % 32 = 24 from rfl, show (16 : UInt32).toNat % 32 = 16 from rfl,
    show (8 : UInt32).toNat % 32 = 8 from rfl, shifted a (by decide), shifted b (by decide),
    shifted c (by decide), Nat.or_assoc, Nat.or_assoc, join_bytes 8 (by omega),
    join_bytes 16 (by omega), join_bytes 24 (by omega)]
  omega

theorem word16_bytes (n : Nat) :
    word16 (UInt8.ofNat (n >>> 8)) (UInt8.ofNat n) = UInt16.ofNat n := by
  apply UInt16.toNat_inj.mp
  rw [word16_toNat, byte_toNat, byte_toNat, UInt16.toNat_ofNat', Nat.shiftRight_eq_div_pow]
  omega

theorem word32_bytes (n : Nat) :
    word32 (UInt8.ofNat (n >>> 24)) (UInt8.ofNat (n >>> 16)) (UInt8.ofNat (n >>> 8))
      (UInt8.ofNat n) = UInt32.ofNat n := by
  apply UInt32.toNat_inj.mp
  rw [word32_toNat, byte_toNat, byte_toNat, byte_toNat, byte_toNat, UInt32.toNat_ofNat',
    Nat.shiftRight_eq_div_pow, Nat.shiftRight_eq_div_pow, Nat.shiftRight_eq_div_pow]
  omega

theorem word32_toNat_bytes (w : UInt32) :
    word32 (UInt8.ofNat (w.toNat >>> 24)) (UInt8.ofNat (w.toNat >>> 16))
      (UInt8.ofNat (w.toNat >>> 8)) (UInt8.ofNat w.toNat) = w := by
  rw [word32_bytes, UInt32.ofNat_toNat]

/-- Words one behind the other. -/
def words (ws : List UInt32) : List UInt8 := ws.flatMap fun w => bytes32 w.toNat

/-- The word at an offset of a text that reaches beyond it. -/
def wordAt (text : List UInt8) (offset : Nat) : UInt32 :=
  word32 (text.getD offset 0) (text.getD (offset + 1) 0) (text.getD (offset + 2) 0)
    (text.getD (offset + 3) 0)

@[simp] theorem words_length (ws : List UInt32) : (words ws).length = 4 * ws.length := by
  induction ws with
  | nil => rfl
  | cons w ws ih =>
    simp only [words, List.flatMap_cons, List.length_append, List.length_cons] at ih ⊢
    rw [ih]
    simp only [bytes32, List.length_cons, List.length_nil]
    omega

theorem wordAt_words (ws : List UInt32) (rest : List UInt8) (i : Nat) (inside : i < ws.length) :
    wordAt (words ws ++ rest) (4 * i) = ws.get ⟨i, inside⟩ := by
  induction ws generalizing i with
  | nil => exact absurd inside (Nat.not_lt_zero i)
  | cons w ws ih =>
    cases i with
    | zero => exact word32_toNat_bytes w
    | succ i => exact ih i (Nat.lt_of_succ_lt_succ inside)

/-- What is cut off behind a word does not change it. -/
theorem wordAt_take (text : List UInt8) {offset n : Nat} (inside : offset + 4 ≤ n) :
    wordAt (text.take n) offset = wordAt text offset := by
  have kept (i : Nat) (lt : i < n) : (text.take n).getD i 0 = text.getD i 0 := by
    rw [List.getD_eq_getElem?_getD, List.getD_eq_getElem?_getD, List.getElem?_take_of_lt lt]
  simp only [wordAt, kept _ (show offset < n by omega), kept _ (show offset + 1 < n by omega),
    kept _ (show offset + 2 < n by omega), kept _ (show offset + 3 < n by omega)]

end StreamRelay.BigEndian
