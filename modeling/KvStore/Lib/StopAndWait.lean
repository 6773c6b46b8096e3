import Mathlib.Logic.Relation
import Mathlib.Tactic.Common

/-!
# Stop and wait

A source sends a stream in pieces, and a sink answers: once at the start and
once for each piece. The source sends one piece for each answer, so no more than
one message is under way in both directions together. An answer stands for all
that has arrived so far.
-/

namespace Lib

/-- The pieces sent and how many of them arrived, the number of answers sent and
how many of them were heard. -/
@[ext] structure Exchange (α : Type) where
  pieces : List (List α)
  delivered : Nat
  answers : Nat
  heard : Nat

namespace Exchange

variable {α : Type}

def start : Exchange α := ⟨[], 0, 0, 0⟩

inductive Step (data : List α) (x : Exchange α) : Exchange α → Prop
  | answer (h : x.answers ≤ x.delivered) : x.Step data { x with answers := x.answers + 1 }
  | hear (h : x.heard < x.answers) : x.Step data { x with heard := x.heard + 1 }
  | send (h : x.pieces.length < x.heard) (hne : piece ≠ []) (hdata : x.pieces.flatten ++ piece <+: data) :
    x.Step data { x with pieces := x.pieces ++ [piece] }
  | deliver (h : x.delivered < x.pieces.length) : x.Step data { x with delivered := x.delivered + 1 }

abbrev Steps (data : List α) : Exchange α → Exchange α → Prop := Relation.ReflTransGen (Step data)

def upTo (x : Exchange α) (n : Nat) : Nat := (x.pieces.take n).flatten.length

def sent (x : Exchange α) : Nat := x.pieces.flatten.length

def arrived (x : Exchange α) : Nat := x.upTo x.delivered

def answered (x : Exchange α) : Nat := x.upTo (x.answers - 1)

def confirmed (x : Exchange α) : Nat := x.upTo (x.heard - 1)

/-- What is left of the exchange: a piece is to be sent and delivered, and an answer
to be sent and heard. -/
def work (x : Exchange α) (data : List α) : Nat :=
  8 * (data.length - x.sent) + 6 * (x.pieces.length - x.delivered) + 4 * (x.delivered + 1 - x.answers) +
    2 * (x.answers - x.heard)

/-- The two sides take turns. -/
structure Valid (data : List α) (x : Exchange α) : Prop where
  delivered_le : x.delivered ≤ x.pieces.length
  pieces_le : x.pieces.length ≤ x.heard
  heard_le : x.heard ≤ x.answers
  answers_le : x.answers ≤ x.delivered + 1
  front : x.pieces.flatten <+: data
  nonempty : ∀ piece ∈ x.pieces, piece ≠ []

variable {data : List α} {x y : Exchange α} {n m : Nat}

theorem valid_start : Valid data (start : Exchange α) :=
  ⟨Nat.le_refl _, Nat.le_refl _, Nat.le_refl _, Nat.zero_le _, List.nil_prefix, nofun⟩

theorem Valid.step (h : x.Valid data) (hstep : x.Step data y) : y.Valid data := by
  obtain ⟨hdelivered, hpieces, hheard, hanswers, hfront, hnonempty⟩ := h
  cases hstep with
  | answer hturn => exact ⟨hdelivered, hpieces, Nat.le_succ_of_le hheard, Nat.succ_le_succ hturn, hfront,
    hnonempty⟩
  | hear hturn => exact ⟨hdelivered, Nat.le_succ_of_le hpieces, hturn, hanswers, hfront, hnonempty⟩
  | @send piece hturn hne hdata =>
    refine ⟨?_, ?_, hheard, hanswers, ?_, ?_⟩
    · rw [List.length_append]
      exact Nat.le_succ_of_le hdelivered
    · rw [List.length_append]
      exact hturn
    · rw [List.flatten_append, List.flatten_singleton]
      exact hdata
    · intro p hp
      obtain hp | hp := List.mem_append.mp hp
      · exact hnonempty p hp
      · rw [List.mem_singleton.mp hp]
        exact hne
  | deliver hturn => exact ⟨hturn, hpieces, hheard, Nat.le_succ_of_le hanswers, hfront, hnonempty⟩

theorem Valid.steps (h : x.Valid data) (hsteps : Steps data x y) : y.Valid data := by
  induction hsteps with
  | refl => exact h
  | tail _ hstep ih => exact ih.step hstep

/-- At most one message is under way. -/
theorem Valid.underway (h : x.Valid data) :
    (x.pieces.length - x.delivered) + (x.answers - x.heard) ≤ 1 := by
  have hdelivered := h.delivered_le
  have hpieces := h.pieces_le
  have hheard := h.heard_le
  have hanswers := h.answers_le
  omega

-- ---------------------------------------------------------------------------
-- Positions
-- ---------------------------------------------------------------------------

theorem upTo_length (x : Exchange α) : x.upTo x.pieces.length = x.sent := by
  unfold upTo sent
  rw [List.take_length]

theorem upTo_succ (hn : n < x.pieces.length) : x.upTo (n + 1) = x.upTo n + x.pieces[n].length := by
  unfold upTo
  rw [List.take_add_one, List.getElem?_eq_getElem hn, Option.toList_some, List.flatten_append,
    List.flatten_singleton, List.length_append]

theorem upTo_mono (h : n ≤ m) : x.upTo n ≤ x.upTo m := by
  induction h with
  | refl => exact Nat.le_refl _
  | @step m _ ih =>
    apply Nat.le_trans ih
    by_cases hm : m < x.pieces.length
    · rw [upTo_succ hm]
      exact Nat.le_add_right ..
    · have hm := Nat.not_lt.mp hm
      apply Nat.le_of_eq
      unfold upTo
      rw [List.take_of_length_le hm, List.take_of_length_le (Nat.le_succ_of_le hm)]

theorem upTo_le_sent (x : Exchange α) (n : Nat) : x.upTo n ≤ x.sent := by
  rw [← x.upTo_length]
  obtain hle | hle := Nat.le_total n x.pieces.length
  · exact upTo_mono hle
  · apply Nat.le_of_eq
    unfold upTo
    rw [List.take_of_length_le hle, List.take_length]

theorem Valid.upTo_lt (h : x.Valid data) (hlt : n < m) (hm : m ≤ x.pieces.length) : x.upTo n < x.upTo m := by
  have hn : n < x.pieces.length := Nat.lt_of_lt_of_le hlt hm
  apply Nat.lt_of_lt_of_le _ (upTo_mono hlt)
  rw [upTo_succ hn]
  have hpos := List.length_pos_iff.mpr (h.nonempty _ (List.getElem_mem hn))
  exact Nat.lt_add_of_pos_right hpos

theorem upTo_of_prefix (h : x.pieces <+: y.pieces) (hn : n ≤ x.pieces.length) : y.upTo n = x.upTo n := by
  obtain ⟨later, hlater⟩ := h
  unfold upTo
  rw [← hlater, List.take_append_of_le_length hn]

theorem Steps.pieces_prefix (h : Steps data x y) : x.pieces <+: y.pieces := by
  induction h with
  | refl => exact List.prefix_rfl
  | tail _ hstep ih =>
    cases hstep with
    | answer | hear | deliver => exact ih
    | send => exact ih.trans (List.prefix_append ..)

theorem sent_append (x : Exchange α) (piece : List α) :
    sent { x with pieces := x.pieces ++ [piece] } = x.sent + piece.length := by
  simp [sent]

theorem Valid.ordered (h : x.Valid data) :
    x.confirmed ≤ x.answered ∧ x.answered ≤ x.arrived ∧ x.arrived ≤ x.sent ∧ x.sent ≤ data.length := by
  have hheard := h.heard_le
  have hanswers := h.answers_le
  refine ⟨upTo_mono ?_, upTo_mono ?_, upTo_le_sent x _, h.front.length_le⟩
  · exact Nat.sub_le_sub_right hheard 1
  · exact Nat.sub_le_of_le_add hanswers

theorem Valid.take_upTo (h : x.Valid data) (n : Nat) : (x.pieces.take n).flatten = data.take (x.upTo n) := by
  have hfront : (x.pieces.take n).flatten <+: data := by
    apply List.IsPrefix.trans _ h.front
    conv_rhs => rw [← List.take_append_drop n x.pieces, List.flatten_append]
    exact List.prefix_append ..
  exact List.prefix_iff_eq_take.mp hfront

theorem Valid.take_succ (h : x.Valid data) (hn : n < x.pieces.length) :
    data.take (x.upTo (n + 1)) = data.take (x.upTo n) ++ x.pieces[n] := by
  rw [← h.take_upTo, ← h.take_upTo, List.take_add_one, List.getElem?_eq_getElem hn, Option.toList_some,
    List.flatten_append, List.flatten_singleton]

theorem Valid.sent_take (h : x.Valid data) : x.pieces.flatten = data.take x.sent :=
  List.prefix_iff_eq_take.mp h.front

-- ---------------------------------------------------------------------------
-- Turns
-- ---------------------------------------------------------------------------

theorem Valid.turn_hear (h : x.Valid data) (hturn : x.heard < x.answers) :
    x.pieces.length = x.heard ∧ x.delivered = x.heard := by
  have hdelivered := h.delivered_le
  have hpieces := h.pieces_le
  have hanswers := h.answers_le
  omega

theorem Valid.turn_deliver (h : x.Valid data) (hturn : x.delivered < x.pieces.length) :
    x.pieces.length = x.delivered + 1 ∧ x.answers = x.delivered + 1 ∧ x.heard = x.delivered + 1 := by
  have hpieces := h.pieces_le
  have hheard := h.heard_le
  have hanswers := h.answers_le
  omega

theorem Valid.sent_pos (h : x.Valid data) (hne : x.pieces ≠ []) : 0 < x.sent := by
  rw [← x.upTo_length]
  exact Nat.lt_of_le_of_lt (Nat.zero_le _) (h.upTo_lt (List.length_pos_iff.mpr hne) (Nat.le_refl _))

theorem Valid.turn_send (h : x.Valid data) (hpos : 0 < x.sent) (hconfirmed : x.confirmed = x.sent) :
    x.pieces.length < x.heard := by
  have hpieces := h.pieces_le
  have hne : x.pieces ≠ [] := by
    intro hnil
    simp [sent, hnil] at hpos
  have hlength := List.length_pos_iff.mpr hne
  by_contra hturn
  have hlt := h.upTo_lt (n := x.heard - 1) (m := x.pieces.length) (by omega) (Nat.le_refl _)
  rw [upTo_length] at hlt
  unfold confirmed at hconfirmed
  omega

theorem Valid.turn_wait (h : x.Valid data) (hturn : x.heard < x.answers) (hpos : 0 < x.sent) :
    x.confirmed < x.sent := by
  obtain ⟨hpieces, -⟩ := h.turn_hear hturn
  have hordered := h.ordered
  by_contra hnot
  have hnext := h.turn_send hpos (by omega)
  omega

theorem turn_answer (hlt : x.answered < x.arrived) : x.answers ≤ x.delivered := by
  by_contra hturn
  apply Nat.lt_irrefl x.arrived
  apply Nat.lt_of_le_of_lt _ hlt
  apply upTo_mono
  omega

/-- Whose turn it is: the sink takes a piece or answers, or the source hears an
answer, or everything that was sent is confirmed. -/
theorem Valid.turns (h : x.Valid data) : x.delivered < x.pieces.length ∨
    x.delivered = x.pieces.length ∧ x.answers ≤ x.delivered ∨ x.heard < x.answers ∨
      x.heard = x.pieces.length + 1 ∧ x.confirmed = x.sent := by
  have hdelivered := h.delivered_le
  have hpieces := h.pieces_le
  have hheard := h.heard_le
  have hanswers := h.answers_le
  by_cases hdeliver : x.delivered < x.pieces.length
  · exact .inl hdeliver
  by_cases hanswer : x.answers ≤ x.delivered
  · exact .inr (.inl ⟨by omega, hanswer⟩)
  by_cases hhear : x.heard < x.answers
  · exact .inr (.inr (.inl hhear))
  · have hlast : x.heard = x.pieces.length + 1 := by omega
    refine .inr (.inr (.inr ⟨hlast, ?_⟩))
    unfold confirmed
    rw [hlast, Nat.add_sub_cancel, upTo_length]

-- ---------------------------------------------------------------------------
-- Progress
-- ---------------------------------------------------------------------------

/-- Every step leaves less, with room for a step more. -/
theorem Valid.work_step (h : x.Valid data) (hstep : x.Step data y) : y.work data + 2 ≤ x.work data := by
  have hdelivered := h.delivered_le
  have hanswers := h.answers_le
  cases hstep with
  | answer hturn =>
    change 8 * (data.length - x.sent) + 6 * (x.pieces.length - x.delivered) +
      4 * (x.delivered + 1 - (x.answers + 1)) + 2 * (x.answers + 1 - x.heard) + 2 ≤ x.work data
    unfold work
    omega
  | hear hturn =>
    change 8 * (data.length - x.sent) + 6 * (x.pieces.length - x.delivered) +
      4 * (x.delivered + 1 - x.answers) + 2 * (x.answers - (x.heard + 1)) + 2 ≤ x.work data
    unfold work
    omega
  | @send piece hturn hne hdata =>
    have hlength := hdata.length_le
    have hpos := List.length_pos_iff.mpr hne
    have hsent := x.sent_append piece
    rw [List.length_append] at hlength
    unfold work
    rw [hsent]
    simp only [List.length_append, List.length_singleton]
    unfold sent
    omega
  | deliver hturn =>
    change 8 * (data.length - x.sent) + 6 * (x.pieces.length - (x.delivered + 1)) +
      4 * (x.delivered + 1 + 1 - x.answers) + 2 * (x.answers - x.heard) + 2 ≤ x.work data
    unfold work
    omega

theorem Valid.work_steps (h : x.Valid data) (hsteps : Steps data x y) :
    y = x ∨ y.work data + 2 ≤ x.work data := by
  induction hsteps with
  | refl => exact .inl rfl
  | tail hsteps hstep ih =>
    have hlater := (h.steps hsteps).work_step hstep
    right
    obtain rfl | hle := ih
    · exact hlater
    · omega

end Exchange

end Lib
