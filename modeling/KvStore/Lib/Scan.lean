/-!
# Scanners of a growing input

A scanner reads a prefix of a list. It rejects the input, asks for more of it,
or returns a value and the rest. `Online` says that a verdict never changes
when input arrives later; `Exact` says which prefixes are accepted and with
which value. Both are kept by `Scan.bind`, the sequencing of scanners.
-/

namespace Lib

inductive Scan (τ α : Type) where
  | error
  | more
  | done (value : α) (rest : List τ)
  deriving DecidableEq, Repr

namespace Scan

variable {τ α β : Type}

def bind (s : Scan τ α) (f : α → List τ → Scan τ β) : Scan τ β :=
  match s with
  | .error => .error
  | .more => .more
  | .done a rest => f a rest

@[simp] theorem bind_error (f : α → List τ → Scan τ β) : (Scan.error : Scan τ α).bind f = .error := rfl
@[simp] theorem bind_more (f : α → List τ → Scan τ β) : (Scan.more : Scan τ α).bind f = .more := rfl
@[simp] theorem bind_done (f : α → List τ → Scan τ β) : (Scan.done a r).bind f = f a r := rfl

theorem bind_eq_done {s : Scan τ α} {f : α → List τ → Scan τ β} :
    s.bind f = .done b rest ↔ ∃ a r, s = .done a r ∧ f a r = .done b rest := by
  cases s with
  | error => simp
  | more => simp
  | done a r => simp only [bind_done, done.injEq]; grind

def expect [DecidableEq τ] (c : τ) (p : List τ → Scan τ α) : List τ → Scan τ α
  | [] => .more
  | b :: rest => if b ≠ c then .error else p rest

/-- What a verdict becomes when `y` is appended to the input. -/
def extend (s : Scan τ α) (y : List τ) : Scan τ α :=
  match s with
  | .error => .error
  | .more => .more
  | .done a rest => .done a (rest ++ y)

end Scan

section
variable {τ α β : Type}

/-- A verdict once given is kept however the input grows. -/
def Online (p : List τ → Scan τ α) : Prop :=
  ∀ x y, p x ≠ .more → p (x ++ y) = (p x).extend y

/-- The scanner finishes exactly after the prefixes `G` relates to its value. -/
def Exact (p : List τ → Scan τ α) (G : List τ → α → Prop) : Prop :=
  ∀ x a rest, p x = .done a rest ↔ ∃ w, x = w ++ rest ∧ G w a

theorem Online.done {p : List τ → Scan τ α} (hp : Online p) (h : p x = .done a rest)
    (y : List τ) : p (x ++ y) = .done a (rest ++ y) := by
  rw [hp x y (by simp [h]), h]
  rfl

theorem Online.error {p : List τ → Scan τ α} (hp : Online p) (h : p x = .error)
    (y : List τ) : p (x ++ y) = .error := by
  rw [hp x y (by simp [h]), h]
  rfl

/-- Every proper prefix of an input read to its end is an unfinished input. -/
theorem Online.part_more {p : List τ → Scan τ α} (hp : Online p)
    (h : p (x ++ y) = .done a []) (hy : y ≠ []) : p x = .more := by
  cases hx : p x with
  | more => rfl
  | error => simp [hp.error hx y] at h
  | done b rest =>
    rw [hp.done hx y] at h
    simp [hy] at h

theorem Online.bind {p : List τ → Scan τ α} {q : α → List τ → Scan τ β} (hp : Online p)
    (hq : ∀ a, Online (q a)) : Online fun x => (p x).bind q := by
  intro x y hx
  simp only at hx ⊢
  cases hpx : p x with
  | more => simp [hpx] at hx
  | error => simp [hp.error hpx y, Scan.extend]
  | done a rest =>
    simp only [hpx, Scan.bind_done] at hx
    simp only [hp.done hpx y, Scan.bind_done]
    exact hq a rest y hx

theorem online_done (a : α) : Online (Scan.done a : List τ → Scan τ α) := fun _ _ _ => rfl

theorem Online.expect [DecidableEq τ] {p : List τ → Scan τ α} (hp : Online p) (c : τ) :
    Online (Scan.expect c p) := by
  intro x y hx
  cases x with
  | nil => simp [Scan.expect] at hx
  | cons b rest =>
    simp only [Scan.expect, List.cons_append] at hx ⊢
    split
    · rfl
    · rename_i hb
      rw [if_neg hb] at hx
      exact hp rest y hx

theorem exact_done (a : α) : Exact (Scan.done a : List τ → Scan τ α) fun w b => w = [] ∧ b = a := by
  intro x b rest
  simp only [Scan.done.injEq]
  constructor
  · rintro ⟨rfl, rfl⟩
    exact ⟨[], rfl, rfl, rfl⟩
  · rintro ⟨_, rfl, rfl, rfl⟩
    exact ⟨rfl, rfl⟩

theorem Exact.expect [DecidableEq τ] {p : List τ → Scan τ α} {G : List τ → α → Prop}
    (hp : Exact p G) (c : τ) :
    Exact (Scan.expect c p) fun w a => ∃ v, w = c :: v ∧ G v a := by
  intro x a rest
  cases x with
  | nil => simp [Scan.expect]
  | cons b tail =>
    simp only [Scan.expect]
    split
    · rename_i hb
      refine ⟨fun h => by simp at h, ?_⟩
      rintro ⟨_, h, v, rfl, -⟩
      simp only [List.cons_append, List.cons.injEq] at h
      exact absurd h.1 hb
    · rename_i hb
      rw [hp tail a rest]
      constructor
      · rintro ⟨v, rfl, hv⟩
        exact ⟨c :: v, by simp [Decidable.not_not.mp hb], v, rfl, hv⟩
      · rintro ⟨_, h, v, rfl, hv⟩
        simp only [List.cons_append, List.cons.injEq] at h
        exact ⟨v, h.2, hv⟩

theorem Exact.bind {p : List τ → Scan τ α} {q : α → List τ → Scan τ β}
    {G : List τ → α → Prop} {H : α → List τ → β → Prop} (hp : Exact p G)
    (hq : ∀ a, Exact (q a) (H a)) :
    Exact (fun x => (p x).bind q) fun w b => ∃ u v a, w = u ++ v ∧ G u a ∧ H a v b := by
  intro x b rest
  simp only [Scan.bind_eq_done]
  constructor
  · rintro ⟨a, r, hpx, hqr⟩
    obtain ⟨u, rfl, hu⟩ := (hp _ _ _).mp hpx
    obtain ⟨v, rfl, hv⟩ := (hq a _ _ _).mp hqr
    exact ⟨u ++ v, by simp, u, v, a, rfl, hu, hv⟩
  · rintro ⟨_, rfl, u, v, a, rfl, hu, hv⟩
    exact ⟨a, v ++ rest, (hp _ _ _).mpr ⟨u, by simp, hu⟩, (hq a _ _ _).mpr ⟨v, rfl, hv⟩⟩

theorem Exact.congr {p : List τ → Scan τ α} {G H : List τ → α → Prop} (hp : Exact p G)
    (h : ∀ w a, G w a ↔ H w a) : Exact p H := by
  intro x a rest
  simp only [hp x a rest, h]

end

end Lib
