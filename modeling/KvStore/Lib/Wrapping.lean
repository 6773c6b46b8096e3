import Mathlib.Tactic.Ring

/-!
# Arithmetic that remembers its wraps

Unsigned arithmetic of a fixed width. A computation carries its value and
whether any step so far left the range and was reduced; a step that stays in the
range is the exact one.
-/

namespace Lib

structure Wrapping (α : Type) where
  value : α
  wrapped : Bool

instance : Monad Wrapping where
  pure a := ⟨a, false⟩
  bind x f := ⟨(f x.value).value, x.wrapped || (f x.value).wrapped⟩

theorem Wrapping.pure_def (a : α) : (pure a : Wrapping α) = ⟨a, false⟩ := rfl

@[simp] theorem Wrapping.pure_bind (a : α) (f : α → Wrapping β) : pure a >>= f = f a := rfl

namespace Wrapping
variable {w a b : Nat}

def add (w a b : Nat) : Wrapping Nat := ⟨(a + b) % 2 ^ w, decide (2 ^ w ≤ a + b)⟩

def sub (w a b : Nat) : Wrapping Nat := ⟨(a + 2 ^ w - b) % 2 ^ w, decide (a < b)⟩

def mul (w a b : Nat) : Wrapping Nat := ⟨a * b % 2 ^ w, decide (2 ^ w ≤ a * b)⟩

theorem add_exact (h : a + b < 2 ^ w) : add w a b = pure (a + b) := by
  rw [add, Nat.mod_eq_of_lt h, decide_eq_false (by omega), pure_def]

theorem sub_exact (ha : a < 2 ^ w) (hb : b ≤ a) : sub w a b = pure (a - b) := by
  have hmod : (a + 2 ^ w - b) % 2 ^ w = a - b := by
    rw [Nat.sub_add_comm hb, Nat.add_mod_right, Nat.mod_eq_of_lt (by omega)]
  rw [sub, hmod, decide_eq_false (by omega), pure_def]

end Wrapping

end Lib
