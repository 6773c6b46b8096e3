import Mathlib.Data.Nat.Basic
import Mathlib.Tactic.Ring

/-!
# Big-endian numbers

A number in a fixed number of bytes, most significant first. Writing and
reading are inverse to each other on the numbers that fit.
-/

namespace Lib

def toBigEndian : Nat → Nat → List UInt8
  | 0, _ => []
  | n + 1, v => UInt8.ofNat (v / 256 ^ n) :: toBigEndian n v

def ofBigEndianFrom (value : Nat) : List UInt8 → Nat
  | [] => value
  | b :: rest => ofBigEndianFrom (value * 256 + b.toNat) rest

def ofBigEndian (bytes : List UInt8) : Nat := ofBigEndianFrom 0 bytes

@[simp] theorem length_toBigEndian (n v : Nat) : (toBigEndian n v).length = n := by
  induction n with
  | zero => rfl
  | succ n ih => simp [toBigEndian, ih]

theorem ofBigEndianFrom_eq (value : Nat) (bytes : List UInt8) :
    ofBigEndianFrom value bytes = value * 256 ^ bytes.length + ofBigEndian bytes := by
  induction bytes generalizing value with
  | nil => simp [ofBigEndianFrom, ofBigEndian]
  | cons b rest ih =>
    rw [ofBigEndian, ofBigEndianFrom, ofBigEndianFrom, ih, ih (0 * 256 + b.toNat), List.length_cons]
    ring

theorem ofBigEndian_cons (b : UInt8) (rest : List UInt8) :
    ofBigEndian (b :: rest) = b.toNat * 256 ^ rest.length + ofBigEndian rest := by
  rw [ofBigEndian, ofBigEndianFrom, ofBigEndianFrom_eq]
  simp

theorem ofBigEndian_lt (bytes : List UInt8) : ofBigEndian bytes < 256 ^ bytes.length := by
  induction bytes with
  | nil => simp [ofBigEndian, ofBigEndianFrom]
  | cons b rest ih =>
    have hb : b.toNat + 1 ≤ 256 := UInt8.toNat_lt b
    calc ofBigEndian (b :: rest)
        = b.toNat * 256 ^ rest.length + ofBigEndian rest := ofBigEndian_cons b rest
      _ < (b.toNat + 1) * 256 ^ rest.length := by
        rw [Nat.add_mul, Nat.one_mul]
        omega
      _ ≤ 256 * 256 ^ rest.length := Nat.mul_le_mul_right _ hb
      _ = 256 ^ (b :: rest).length := by rw [List.length_cons, Nat.pow_succ, Nat.mul_comm]

theorem toBigEndian_mod (n v : Nat) : toBigEndian n (v % 256 ^ n) = toBigEndian n v := by
  have key : ∀ k ≤ n, toBigEndian k (v % 256 ^ n) = toBigEndian k v := by
    intro k hk
    induction k with
    | zero => rfl
    | succ k ih =>
      simp only [toBigEndian]
      congr 1
      · have hsplit : 256 ^ n = 256 ^ k * 256 ^ (n - k) := by
          rw [← Nat.pow_add]
          congr 1
          omega
        have hdvd : 256 ∣ 256 ^ (n - k) := Dvd.intro_left (256 ^ (n - k - 1)) (by
          rw [← Nat.pow_succ]
          congr 1
          omega)
        apply UInt8.toNat_inj.mp
        rw [hsplit, Nat.mod_mul_right_div_self, UInt8.toNat_ofNat', UInt8.toNat_ofNat']
        exact Nat.mod_mod_of_dvd _ hdvd
      · exact ih (by omega)
  exact key n (Nat.le_refl n)

theorem ofBigEndian_toBigEndian (h : v < 256 ^ n) : ofBigEndian (toBigEndian n v) = v := by
  induction n generalizing v with
  | zero =>
    have : v = 0 := by simpa using h
    simp [this, toBigEndian, ofBigEndian, ofBigEndianFrom]
  | succ n ih =>
    have hdiv : v / 256 ^ n < 256 := by
      rw [Nat.div_lt_iff_lt_mul (Nat.pow_pos (by decide)), Nat.mul_comm, ← Nat.pow_succ]
      exact h
    have hlow := ih (Nat.mod_lt v (Nat.pow_pos (n := n) (show 0 < 256 by decide)))
    rw [toBigEndian_mod] at hlow
    rw [toBigEndian, ofBigEndian_cons, length_toBigEndian, hlow, UInt8.toNat_ofNat',
      Nat.mod_eq_of_lt hdiv, Nat.mul_comm]
    exact Nat.div_add_mod v (256 ^ n)

theorem toBigEndian_ofBigEndian (bytes : List UInt8) :
    toBigEndian bytes.length (ofBigEndian bytes) = bytes := by
  induction bytes with
  | nil => rfl
  | cons b rest ih =>
    have hlt := ofBigEndian_lt rest
    rw [List.length_cons, toBigEndian, ofBigEndian_cons]
    congr 1
    · rw [Nat.mul_comm, Nat.mul_add_div (Nat.pow_pos (by decide)), Nat.div_eq_of_lt hlt]
      simp
    · rw [← toBigEndian_mod, Nat.mul_comm, Nat.mul_add_mod, Nat.mod_eq_of_lt hlt]
      exact ih

end Lib
