import Mathlib.Data.List.Nodup

/-!
# Singly linked lists

`Linked next p l`: following `next` from `p` one meets the nodes of `l` in
order and then the end. An edit of the links is described by what `next`
becomes at the one or two nodes concerned.
-/

namespace Lib

section
variable {π : Type} {next next' : π → Option π} {p q z : π} {l a b : List π}

def Linked (next : π → Option π) : π → List π → Prop
  | p, [] => next p = none
  | p, q :: l => next p = some q ∧ Linked next q l

def endOf : π → List π → π
  | p, [] => p
  | _, q :: l => endOf q l

theorem endOf_append : endOf p (a ++ q :: b) = endOf q b := by
  induction a generalizing p with
  | nil => rfl
  | cons x a ih => exact ih

theorem endOf_mem (p : π) (l : List π) : endOf p l = p ∧ l = [] ∨ endOf p l ∈ l := by
  induction l generalizing p with
  | nil => exact .inl ⟨rfl, rfl⟩
  | cons q l ih =>
    right
    obtain ⟨h, -⟩ | h := ih q
    · rw [endOf, h]
      exact List.mem_cons_self
    · exact List.mem_cons_of_mem _ h

theorem Linked.congr (h : Linked next p l) (hsame : ∀ q ∈ p :: l, next' q = next q) :
    Linked next' p l := by
  induction l generalizing p with
  | nil => exact (hsame p (by simp)).trans h
  | cons q l ih =>
    refine ⟨(hsame p (by simp)).trans h.1, ih h.2 fun x hx => hsame x ?_⟩
    exact List.mem_cons_of_mem _ hx

theorem Linked.drop (h : Linked next p (a ++ q :: b)) : Linked next q b := by
  induction a generalizing p with
  | nil => exact h.2
  | cons x a ih => exact ih h.2

theorem Linked.next_endOf (h : Linked next p (a ++ b)) : next (endOf p a) = b.head? := by
  induction a generalizing p with
  | nil =>
    cases b with
    | nil => exact h
    | cons x b => exact h.1
  | cons x a ih => exact ih h.2

theorem Linked.insert (h : Linked next p (a ++ b)) (hnodup : (p :: (a ++ b)).Nodup)
    (hz : z ∉ p :: (a ++ b)) (hend : next' (endOf p a) = some z)
    (hnew : next' z = next (endOf p a)) (hsame : ∀ q, q ≠ endOf p a → q ≠ z → next' q = next q) :
    Linked next' p (a ++ z :: b) := by
  induction a generalizing p with
  | nil =>
    refine ⟨hend, ?_⟩
    cases b with
    | nil => exact hnew.trans h
    | cons x b =>
      refine ⟨hnew.trans h.1, h.2.congr fun q hq => hsame q ?_ ?_⟩
      · rintro rfl
        exact (List.nodup_cons.mp hnodup).1 hq
      · rintro rfl
        exact hz (List.mem_cons_of_mem _ hq)
  | cons x a ih =>
    have hpend : p ≠ endOf x a := by
      intro heq
      refine (List.nodup_cons.mp hnodup).1 ?_
      obtain ⟨hx, -⟩ | hx := endOf_mem x a
      · rw [heq, hx]
        exact List.mem_cons_self
      · rw [heq]
        simp [hx]
    have hpz : p ≠ z := fun heq => hz (heq ▸ List.mem_cons_self)
    refine ⟨(hsame p hpend hpz).trans h.1, ?_⟩
    exact ih h.2 (List.nodup_cons.mp hnodup).2 (fun hmem => hz (List.mem_cons_of_mem _ hmem)) hend
      hnew hsame

theorem Linked.remove (h : Linked next p (a ++ z :: b)) (hnodup : (p :: (a ++ z :: b)).Nodup)
    (hend : next' (endOf p a) = next z) (hsame : ∀ q, q ≠ endOf p a → q ≠ z → next' q = next q) :
    Linked next' p (a ++ b) := by
  induction a generalizing p with
  | nil =>
    obtain ⟨-, hz⟩ := h
    simp only [List.nil_append, List.nodup_cons, List.mem_cons, not_or] at hnodup
    cases b with
    | nil => exact hend.trans hz
    | cons x b =>
      refine ⟨hend.trans hz.1, hz.2.congr fun q hq => hsame q ?_ ?_⟩
      · rintro rfl
        exact hnodup.1.2 hq
      · rintro rfl
        exact hnodup.2.1 hq
  | cons x a ih =>
    have hp := (List.nodup_cons.mp hnodup).1
    have hpend : p ≠ endOf x a := by
      intro heq
      refine hp ?_
      obtain ⟨hx, -⟩ | hx := endOf_mem x a
      · rw [heq, hx]
        exact List.mem_cons_self
      · rw [heq]
        simp [hx]
    have hpz : p ≠ z := by
      rintro rfl
      exact hp (by simp)
    exact ⟨(hsame p hpend hpz).trans h.1, ih h.2 (List.nodup_cons.mp hnodup).2 hend hsame⟩

end

end Lib
