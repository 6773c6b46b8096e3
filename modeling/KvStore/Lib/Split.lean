/-!
# Splitting a stream at a separator

The parts in front of each separator, and what follows the last one. A stream
may be split as it arrives: what is left over is put in front of the rest.
-/

namespace Lib

variable [DecidableEq α] {sep : α} {part line a b rest : List α}

def splitFrom (sep : α) (part : List α) : List α → List (List α) × List α
  | [] => ([], part)
  | x :: rest =>
    if x = sep then (part :: (splitFrom sep [] rest).1, (splitFrom sep [] rest).2)
    else splitFrom sep (part ++ [x]) rest

@[simp] theorem splitFrom_nil : splitFrom sep part [] = ([], part) := rfl

@[simp] theorem splitFrom_sep :
    splitFrom sep part (sep :: rest) =
      (part :: (splitFrom sep [] rest).1, (splitFrom sep [] rest).2) := by
  rw [splitFrom, if_pos rfl]

/-- What arrives later is split behind what is left over. -/
theorem splitFrom_append (part a b : List α) :
    splitFrom sep part (a ++ b) =
      ((splitFrom sep part a).1 ++ (splitFrom sep (splitFrom sep part a).2 b).1,
        (splitFrom sep (splitFrom sep part a).2 b).2) := by
  induction a generalizing part with
  | nil => rfl
  | cons x a ih =>
    simp only [List.cons_append, splitFrom]
    split
    · simp only [ih, List.cons_append]
    · rw [ih]

theorem splitFrom_clean (part : List α) (h : sep ∉ a) : splitFrom sep part a = ([], part ++ a) := by
  induction a generalizing part with
  | nil => simp
  | cons x a ih =>
    obtain ⟨hx, ha⟩ := not_or.mp (fun hmem => h (List.mem_cons.mpr hmem))
    rw [splitFrom, if_neg (Ne.symm hx), ih _ ha]
    simp

theorem splitFrom_line (h : sep ∉ line) :
    splitFrom sep part (line ++ sep :: rest) =
      ((part ++ line) :: (splitFrom sep [] rest).1, (splitFrom sep [] rest).2) := by
  rw [splitFrom_append, splitFrom_clean _ h, splitFrom_sep]
  rfl

theorem sep_notMem_splitFrom (part a : List α) (h : sep ∉ part) :
    sep ∉ (splitFrom sep part a).2 ∧ ∀ line ∈ (splitFrom sep part a).1, sep ∉ line := by
  induction a generalizing part with
  | nil => exact ⟨h, nofun⟩
  | cons x a ih =>
    rw [splitFrom]
    split
    · obtain ⟨hleft, hlines⟩ := ih [] List.not_mem_nil
      refine ⟨hleft, fun line hline => ?_⟩
      obtain rfl | hline := List.mem_cons.mp hline
      · exact h
      · exact hlines line hline
    · rename_i hx
      refine ih (part ++ [x]) ?_
      rw [List.mem_append, List.mem_singleton]
      rintro (hmem | rfl)
      · exact h hmem
      · exact hx rfl

theorem splitFrom_join (part a : List α) :
    ((splitFrom sep part a).1.map (· ++ [sep])).flatten ++ (splitFrom sep part a).2 = part ++ a := by
  induction a generalizing part with
  | nil => simp
  | cons x a ih =>
    rw [splitFrom]
    split
    · subst sep
      have hrest := ih []
      simp only [List.nil_append] at hrest
      simp [hrest]
    · rw [ih]
      simp

theorem sep_cases (sep : α) (a : List α) :
    sep ∉ a ∨ ∃ line rest, a = line ++ sep :: rest ∧ sep ∉ line := by
  by_cases h : sep ∈ a
  · obtain ⟨line, rest, rfl, hline⟩ := List.eq_append_cons_of_mem h
    exact .inr ⟨line, rest, rfl, hline⟩
  · exact .inl h

end Lib
