import Mathlib.Logic.Function.Basic
import Mathlib.Tactic.Ring

/-!
# Cyclic redundancy checks

A reflected CRC over registers of `w` bits. One step moves the register down a
place and adds the polynomial when a one falls out. The step is linear in
exclusive or and, when the polynomial has its top bit, injective; so a change
of the data that fits the register cannot be undone by what follows it.
-/

namespace Lib

section
variable {w : Nat} (poly : BitVec w)

def crcStep (c : BitVec w) : BitVec w := (c >>> 1) ^^^ (if c.getLsbD 0 then poly else 0#w)

def crcSteps : Nat → BitVec w → BitVec w
  | 0, c => c
  | n + 1, c => crcSteps n (crcStep poly c)

def crcFold (k : Nat) (c : BitVec w) : List (BitVec w) → BitVec w
  | [] => c
  | b :: data => crcFold k (crcSteps poly k (c ^^^ b)) data

theorem crcStep_xor (a b : BitVec w) :
    crcStep poly (a ^^^ b) = crcStep poly a ^^^ crcStep poly b := by
  have hswap : ∀ x y p : BitVec w, (x ^^^ p) ^^^ (y ^^^ p) = x ^^^ y := by
    intro x y p
    rw [BitVec.xor_assoc, ← BitVec.xor_assoc p y p, BitVec.xor_comm p y, BitVec.xor_assoc y,
      BitVec.xor_self, BitVec.xor_zero]
  simp only [crcStep, BitVec.ushiftRight_xor_distrib, BitVec.getLsbD_xor]
  cases a.getLsbD 0 <;> cases b.getLsbD 0
  · simp
  · simp [BitVec.xor_assoc]
  · simp only [Bool.xor_false, if_true, Bool.false_eq_true, if_false, BitVec.xor_zero]
    rw [BitVec.xor_assoc, BitVec.xor_comm (b >>> 1), ← BitVec.xor_assoc]
  · simp [hswap]

theorem crcSteps_xor (n : Nat) (a b : BitVec w) :
    crcSteps poly n (a ^^^ b) = crcSteps poly n a ^^^ crcSteps poly n b := by
  induction n generalizing a b with
  | zero => rfl
  | succ n ih => simp only [crcSteps, crcStep_xor, ih]

variable {poly}

theorem crcStep_eq_zero (hpoly : poly.msb = true) (h : crcStep poly c = 0#w) : c = 0#w := by
  have hw : 0 < w := by
    cases w with
    | zero => simp [BitVec.msb, BitVec.getMsbD] at hpoly
    | succ w => omega
  have htop : (c >>> 1).msb = false := by
    rw [BitVec.msb_eq_getLsbD_last, BitVec.getLsbD_ushiftRight]
    exact BitVec.getLsbD_of_ge _ _ (by omega)
  have hlow : c.getLsbD 0 = false := by
    cases hbit : c.getLsbD 0 with
    | false => rfl
    | true =>
      have hmsb := congrArg BitVec.msb h
      simp [crcStep, hbit, BitVec.msb_xor, htop, hpoly] at hmsb
  have hrest : c >>> 1 = 0#w := by simpa [crcStep, hlow] using h
  refine BitVec.eq_of_getLsbD_eq fun i hi => ?_
  cases i with
  | zero => simp [hlow]
  | succ i =>
    have hi' := congrArg (·.getLsbD i) hrest
    simpa [Nat.add_comm] using hi'

theorem crcStep_injective (hpoly : poly.msb = true) : Function.Injective (crcStep poly) := by
  intro a b h
  have hzero : crcStep poly (a ^^^ b) = 0#w := by rw [crcStep_xor, h, BitVec.xor_self]
  exact BitVec.xor_eq_zero_iff.mp (crcStep_eq_zero hpoly hzero)

theorem crcSteps_injective (hpoly : poly.msb = true) (n : Nat) :
    Function.Injective (crcSteps poly n) := by
  induction n with
  | zero => exact Function.injective_id
  | succ n ih => exact ih.comp (crcStep_injective hpoly)

theorem crcFold_append (k : Nat) (c : BitVec w) (a b : List (BitVec w)) :
    crcFold poly k c (a ++ b) = crcFold poly k (crcFold poly k c a) b := by
  induction a generalizing c with
  | nil => rfl
  | cons x a ih => exact ih _

theorem crcFold_injective (hpoly : poly.msb = true) (k : Nat) (data : List (BitVec w)) :
    Function.Injective (crcFold poly k · data) := by
  induction data with
  | nil => exact Function.injective_id
  | cons x data ih =>
    intro a b h
    have hxor := crcSteps_injective hpoly k (ih h)
    exact (BitVec.xor_left_inj x).mp hxor

theorem crcSteps_shiftLeft (poly : BitVec w) (n : Nat) (y : BitVec w) (hn : n ≤ w)
    (hy : y.toNat < 2 ^ (w - n)) :
    crcSteps poly n (y <<< n) = y := by
  induction n with
  | zero => simp [crcSteps]
  | succ n ih =>
    have hpow : 2 ^ (w - n) = 2 * 2 ^ (w - (n + 1)) := by
      rw [← Nat.pow_succ', Nat.succ_eq_add_one]
      congr 1
      omega
    have hstep : crcStep poly (y <<< (n + 1)) = y <<< n := by
      have hlow : (y <<< (n + 1)).getLsbD 0 = false := by simp
      simp only [crcStep, hlow, Bool.false_eq_true, if_false, BitVec.xor_zero]
      refine BitVec.eq_of_getLsbD_eq fun i hi => ?_
      simp only [BitVec.getLsbD_ushiftRight, BitVec.getLsbD_shiftLeft]
      by_cases hlast : 1 + i < w
      · simp only [hlast, hi, decide_true, Bool.true_and]
        have hsub : 1 + i - (n + 1) = i - n := by omega
        have hlt : (1 + i < n + 1) = (i < n) := by
          apply propext
          omega
        simp only [hsub, hlt]
      · have hbit : y.getLsbD (i - n) = false := by
          refine Nat.testBit_lt_two_pow ?_
          rwa [show i - n = w - (n + 1) by omega]
        simp [hlast, hbit]
    rw [crcSteps, hstep]
    exact ih (by omega) (by omega)

def crcWord (k : Nat) : List (BitVec w) → BitVec w
  | [] => 0#w
  | b :: data => b ^^^ (crcWord k data <<< k)

theorem crcWord_lt (data : List (BitVec w)) (hdata : ∀ b ∈ data, b.toNat < 2 ^ k)
    (hlen : k * data.length ≤ w) : (crcWord k data).toNat < 2 ^ (k * data.length) := by
  induction data with
  | nil => simp [crcWord]
  | cons b data ih =>
    rw [List.length_cons, Nat.mul_succ] at hlen ⊢
    have hrest := ih (fun c hc => hdata c (by simp [hc])) (by omega)
    have hfirst := hdata b (by simp)
    rw [crcWord, BitVec.toNat_xor]
    refine Nat.xor_lt_two_pow ?_ ?_
    · exact Nat.lt_of_lt_of_le hfirst (Nat.pow_le_pow_right (by decide) (by omega))
    · rw [BitVec.toNat_shiftLeft, Nat.shiftLeft_eq, Nat.pow_add]
      refine Nat.lt_of_le_of_lt (Nat.mod_le _ _) ?_
      exact Nat.mul_lt_mul_of_pos_right hrest (Nat.two_pow_pos k)

theorem crcFold_eq (hpoly : poly.msb = true) (k : Nat) (u v : List (BitVec w))
    (hlen : u.length = v.length) (hfits : k * u.length ≤ w) (hu : ∀ b ∈ u, b.toNat < 2 ^ k)
    (hv : ∀ b ∈ v, b.toNat < 2 ^ k) (h : crcFold poly k a u = crcFold poly k b v) :
    a ^^^ b = crcWord k u ^^^ crcWord k v := by
  induction u generalizing a b v with
  | nil =>
    obtain rfl : v = [] := List.length_eq_zero_iff.mp hlen.symm
    have hab : a = b := h
    simp [crcWord, hab]
  | cons x u ih =>
    cases v with
    | nil => simp at hlen
    | cons y v =>
      simp only [List.length_cons, Nat.add_right_cancel_iff, Nat.mul_succ] at hlen hfits
      have hrest := ih v hlen (by omega) (fun c hc => hu c (by simp [hc]))
        (fun c hc => hv c (by simp [hc])) h
      have hword : (crcWord k u ^^^ crcWord k v).toNat < 2 ^ (w - k) := by
        refine Nat.lt_of_lt_of_le ?_ (Nat.pow_le_pow_right (by decide) (by omega : k * u.length ≤ _))
        rw [BitVec.toNat_xor]
        refine Nat.xor_lt_two_pow (crcWord_lt u (fun c hc => hu c (by simp [hc])) (by omega)) ?_
        rw [hlen]
        exact crcWord_lt v (fun c hc => hv c (by simp [hc])) (by rw [← hlen]; omega)
      -- the only register that becomes the difference is its left shift
      have hshift := crcSteps_shiftLeft poly k _ (by omega) hword
      rw [← crcSteps_xor, ← hshift] at hrest
      have hstate := crcSteps_injective hpoly k hrest
      rw [BitVec.shiftLeft_xor_distrib] at hstate
      simp only [crcWord]
      refine BitVec.eq_of_getLsbD_eq fun i _ => ?_
      have hbit := congrArg (·.getLsbD i) hstate
      simp only [BitVec.getLsbD_xor] at hbit ⊢
      grind

theorem getLsbD_above {x : BitVec w} (hx : x.toNat < 2 ^ k) (hi : k ≤ i) : x.getLsbD i = false :=
  Nat.testBit_lt_two_pow (Nat.lt_of_lt_of_le hx (Nat.pow_le_pow_right (by decide) hi))

theorem crcWord_injective (u v : List (BitVec w)) (hlen : u.length = v.length)
    (hfits : k * u.length ≤ w) (hu : ∀ b ∈ u, b.toNat < 2 ^ k) (hv : ∀ b ∈ v, b.toNat < 2 ^ k)
    (h : crcWord k u = crcWord k v) : u = v := by
  induction u generalizing v with
  | nil => exact (List.length_eq_zero_iff.mp hlen.symm).symm
  | cons x u ih =>
    cases v with
    | nil => simp at hlen
    | cons y v =>
      simp only [List.length_cons, Nat.add_right_cancel_iff, Nat.mul_succ] at hlen hfits
      have hx := hu x (by simp)
      have hy := hv y (by simp)
      have hulen := crcWord_lt u (fun c hc => hu c (by simp [hc])) (by omega)
      have hvlen := crcWord_lt v (fun c hc => hv c (by simp [hc])) (by rw [← hlen]; omega)
      have hbits : ∀ i, (x ^^^ crcWord k u <<< k).getLsbD i = (y ^^^ crcWord k v <<< k).getLsbD i := by
        intro i
        simp only [crcWord] at h
        rw [h]
      have hxy : x = y := by
        refine BitVec.eq_of_getLsbD_eq fun i hi => ?_
        by_cases hik : i < k
        · simpa [hik] using hbits i
        · rw [getLsbD_above hx (by omega), getLsbD_above hy (by omega)]
      have hwords : crcWord k u = crcWord k v := by
        refine BitVec.eq_of_getLsbD_eq fun i hi => ?_
        by_cases hik : i < k * u.length
        · have hbit := hbits (i + k)
          rw [BitVec.getLsbD_eq_getElem hi, BitVec.getLsbD_eq_getElem hi]
          simpa [hxy, show i + k < w by omega, show ¬i + k < k by omega] using hbit
        · rw [getLsbD_above hulen (by omega), getLsbD_above hvlen (by rw [← hlen]; omega)]
      rw [hxy, ih v hlen (by omega) (fun c hc => hu c (by simp [hc]))
        (fun c hc => hv c (by simp [hc])) hwords]

/-- A change within one register's length of the data is never hidden by what
follows. -/
theorem crcFold_burst (hpoly : poly.msb = true) (k : Nat) (a u v b : List (BitVec w))
    (hlen : u.length = v.length) (hfits : k * u.length ≤ w) (hu : ∀ b ∈ u, b.toNat < 2 ^ k)
    (hv : ∀ b ∈ v, b.toNat < 2 ^ k)
    (h : crcFold poly k c (a ++ u ++ b) = crcFold poly k c (a ++ v ++ b)) : u = v := by
  rw [crcFold_append, crcFold_append, crcFold_append, crcFold_append] at h
  have hmeet := crcFold_injective hpoly k b h
  have hwords := crcFold_eq hpoly k u v hlen hfits hu hv hmeet
  rw [BitVec.xor_self] at hwords
  exact crcWord_injective u v hlen hfits hu hv (BitVec.xor_eq_zero_iff.mp hwords.symm)

end

end Lib
