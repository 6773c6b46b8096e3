import Mathlib.Tactic.Ring

/-!
# Formatted input

The directives of `sscanf` for white space, characters, sets of characters,
numbers and the number of characters read. A scan stops at the first directive
that does not match and keeps what was assigned before. Numbers are read as
`strtoll` and `strtoul` read them.
-/

namespace Lib.Scanf

abbrev Text := List UInt8

/-- `isspace` in the C locale. -/
def isSpace (b : UInt8) : Bool := b == 32 || (9 ≤ b && b ≤ 13)

def isDigit (b : UInt8) : Bool := 48 ≤ b && b ≤ 57

def digitsValue (digits : Text) : Nat := digits.foldl (fun v b => v * 10 + (b.toNat - 48)) 0

inductive Directive where
  | space
  | char (c : UInt8)
  /-- `%<width>[...]`. -/
  | set (width : Nat) (chars : UInt8 → Bool)
  /-- `%lld`. -/
  | signed
  /-- `%<width>u`. -/
  | unsigned (width : Nat)
  /-- `%n`. -/
  | count

inductive Value where
  | text (t : Text)
  | int (n : Int)
  | nat (n : Nat)
  | count (n : Nat)
  deriving DecidableEq, Repr

structure Numeral where
  negative : Bool
  digits : Text
  /-- With the sign. -/
  length : Nat

def numeral (x : Text) : Option Numeral :=
  match x with
  | [] => none
  | b :: rest =>
    let hasSign := b == 43 || b == 45
    let digits := (if hasSign then rest else x).takeWhile isDigit
    if digits = [] then none
    else some ⟨b == 45, digits, if hasSign then digits.length + 1 else digits.length⟩

def Numeral.toSigned (r : Numeral) : Int :=
  if r.negative then max (-(digitsValue r.digits : Int)) (-2 ^ 63)
  else min (digitsValue r.digits : Int) (2 ^ 63 - 1)

def Numeral.toUnsigned (r : Numeral) : Nat :=
  (if digitsValue r.digits ≥ 2 ^ 64 then 2 ^ 64 - 1
    else if r.negative then (2 ^ 64 - digitsValue r.digits) % 2 ^ 64
    else digitsValue r.digits) % 2 ^ 32

def scan : List Directive → Nat → Text → List Value
  | [], _, _ => []
  | .space :: ds, n, x =>
    scan ds (n + (x.takeWhile isSpace).length) (x.dropWhile isSpace)
  | .char c :: ds, n, x =>
    match x with
    | [] => []
    | b :: rest => if b = c then scan ds (n + 1) rest else []
  | .set width chars :: ds, n, x =>
    let t := (x.take width).takeWhile chars
    if t = [] then [] else .text t :: scan ds (n + t.length) (x.drop t.length)
  | .signed :: ds, n, x =>
    match numeral (x.dropWhile isSpace) with
    | none => []
    | some r =>
      .int r.toSigned :: scan ds (n + (x.takeWhile isSpace).length + r.length)
        ((x.dropWhile isSpace).drop r.length)
  | .unsigned width :: ds, n, x =>
    match numeral ((x.dropWhile isSpace).take width) with
    | none => []
    | some r =>
      .nat r.toUnsigned :: scan ds (n + (x.takeWhile isSpace).length + r.length)
        ((x.dropWhile isSpace).drop r.length)
  | .count :: ds, n, x => .count n :: scan ds n x

def sscanf (memory : Text) (format : List Directive) : List Value :=
  scan format 0 (memory.takeWhile (· ≠ 0))

variable {ds : List Directive} {n : Nat} {x t digits : Text} {vs : List Value}

-- ---------------------------------------------------------------------------
-- Reading what was printed
-- ---------------------------------------------------------------------------

theorem scan_chars (t x : Text) (n : Nat) :
    scan (t.map .char ++ ds) n (t ++ x) = scan ds (n + t.length) x := by
  induction t generalizing n with
  | nil => rfl
  | cons b t ih =>
    simp only [List.map_cons, List.cons_append, scan, if_true, ih, List.length_cons]
    congr 1
    omega

theorem scan_blank (h : ∀ b ∈ x.head?, isSpace b = false) :
    scan (.space :: ds) n (32 :: x) = scan ds (n + 1) x := by
  have htake : x.takeWhile isSpace = [] := by
    cases x with
    | nil => rfl
    | cons b x => simp [h b rfl]
  have hdrop : x.dropWhile isSpace = x := by
    cases x with
    | nil => rfl
    | cons b x => simp [h b rfl]
  have hblank : isSpace 32 = true := rfl
  simp [scan, hblank, htake, hdrop]

theorem takeWhile_all {p : UInt8 → Bool} (ht : ∀ b ∈ t, p b = true)
    (hx : ∀ b ∈ x.head?, p b = false) : (t ++ x).takeWhile p = t := by
  rw [List.takeWhile_append_of_pos ht]
  cases x with
  | nil => simp
  | cons b x => simp [hx b rfl]

theorem scan_set {width : Nat} {chars : UInt8 → Bool} (hwidth : t.length = width)
    (ht : ∀ b ∈ t, chars b = true) (hne : t ≠ []) :
    scan (.set width chars :: ds) n (t ++ x) = .text t :: scan ds (n + t.length) x := by
  subst width
  have htake : ((t ++ x).take t.length).takeWhile chars = t := by
    rw [List.take_left]
    have h := takeWhile_all (x := []) ht nofun
    rwa [List.append_nil] at h
  simp only [scan, htake, hne, if_false, List.drop_left]

theorem isDigit_not_sign (h : isDigit b = true) :
    b ≠ 43 ∧ b ≠ 45 ∧ isSpace b = false := by
  simp only [isDigit, Bool.and_eq_true, decide_eq_true_eq, UInt8.le_iff_toNat_le] at h
  have h48 : (48 : UInt8).toNat = 48 := rfl
  have h57 : (57 : UInt8).toNat = 57 := rfl
  have hne : ∀ c : UInt8, c.toNat < 48 → b ≠ c := by
    rintro c hc rfl
    omega
  refine ⟨hne 43 (by decide), hne 45 (by decide), ?_⟩
  have h13 : (13 : UInt8).toNat = 13 := rfl
  simp only [isSpace, Bool.or_eq_false_iff, beq_eq_false_iff_ne, ne_eq, Bool.and_eq_false_iff,
    decide_eq_false_iff_not, UInt8.le_iff_toNat_le]
  exact ⟨hne 32 (by decide), .inr (by omega)⟩

theorem numeral_digits (hdigits : ∀ b ∈ digits, isDigit b = true) (hne : digits ≠ [])
    (hx : ∀ b ∈ x.head?, isDigit b = false) :
    numeral (digits ++ x) = some ⟨false, digits, digits.length⟩ := by
  cases digits with
  | nil => exact absurd rfl hne
  | cons b rest =>
    obtain ⟨hplus, hminus, -⟩ := isDigit_not_sign (hdigits b List.mem_cons_self)
    have htake := takeWhile_all hdigits hx
    simp only [List.cons_append] at htake ⊢
    simp [numeral, hplus, hminus, htake]

theorem dropWhile_digits (hdigits : ∀ b ∈ digits, isDigit b = true) (hne : digits ≠ []) :
    (digits ++ x).takeWhile isSpace = [] ∧ (digits ++ x).dropWhile isSpace = digits ++ x := by
  cases digits with
  | nil => exact absurd rfl hne
  | cons b rest =>
    have hspace := (isDigit_not_sign (hdigits b List.mem_cons_self)).2.2
    simp [hspace]

theorem scan_signed (hdigits : ∀ b ∈ digits, isDigit b = true) (hne : digits ≠ [])
    (hx : ∀ b ∈ x.head?, isDigit b = false) (hvalue : digitsValue digits ≤ 2 ^ 63 - 1) :
    scan (.signed :: ds) n (digits ++ x) =
      .int (digitsValue digits) :: scan ds (n + digits.length) x := by
  obtain ⟨htake, hdrop⟩ := dropWhile_digits (x := x) hdigits hne
  simp only [scan, htake, hdrop, numeral_digits hdigits hne hx, List.drop_left, List.length_nil,
    Nat.add_zero, Numeral.toSigned, Bool.false_eq_true, if_false]
  congr 2
  omega

theorem scan_unsigned {width : Nat} (hdigits : ∀ b ∈ digits, isDigit b = true) (hne : digits ≠ [])
    (hx : ∀ b ∈ x.head?, isDigit b = false) (hwidth : digits.length ≤ width)
    (hvalue : digitsValue digits < 2 ^ 32) :
    scan (.unsigned width :: ds) n (digits ++ x) =
      .nat (digitsValue digits) :: scan ds (n + digits.length) x := by
  obtain ⟨htake, hdrop⟩ := dropWhile_digits (x := x) hdigits hne
  have hview : (digits ++ x).take width = digits ++ x.take (width - digits.length) := by
    rw [List.take_append, List.take_of_length_le hwidth]
  have hnext : ∀ b ∈ (x.take (width - digits.length)).head?, isDigit b = false := by
    intro b hb
    cases x with
    | nil => simp at hb
    | cons c x =>
      cases hw : width - digits.length with
      | zero => simp [hw] at hb
      | succ w =>
        rw [hw] at hb
        exact hx b hb
  simp only [scan, htake, hdrop, hview, numeral_digits hdigits hne hnext, List.drop_left,
    List.length_nil, Nat.add_zero, Numeral.toUnsigned, Bool.false_eq_true, if_false]
  rw [if_neg (by omega), Nat.mod_eq_of_lt hvalue]

-- ---------------------------------------------------------------------------
-- What was read
-- ---------------------------------------------------------------------------

theorem of_scan_chars (h : scan (t.map .char ++ ds) n x = vs) (hvs : vs ≠ []) :
    ∃ rest, x = t ++ rest ∧ scan ds (n + t.length) rest = vs := by
  induction t generalizing n x with
  | nil => exact ⟨x, rfl, h⟩
  | cons c t ih =>
    cases x with
    | nil => exact absurd h.symm hvs
    | cons b x =>
      simp only [List.map_cons, List.cons_append, scan] at h
      split at h
      · subst b
        obtain ⟨rest, rfl, hscan⟩ := ih h
        refine ⟨rest, rfl, ?_⟩
        rw [← hscan, List.length_cons]
        congr 1
        omega
      · exact absurd h.symm hvs

theorem of_scan_space (h : scan (.space :: ds) n x = vs) :
    ∃ blanks rest, x = blanks ++ rest ∧ (∀ b ∈ blanks, isSpace b = true) ∧
      scan ds (n + blanks.length) rest = vs :=
  ⟨x.takeWhile isSpace, x.dropWhile isSpace, List.takeWhile_append_dropWhile.symm,
    List.all_eq_true.mp List.all_takeWhile, h⟩

theorem of_scan_set {width : Nat} {chars : UInt8 → Bool}
    (h : scan (.set width chars :: ds) n x = .text t :: vs) :
    ∃ rest, x = t ++ rest ∧ (∀ b ∈ t, chars b = true) ∧ scan ds (n + t.length) rest = vs := by
  simp only [scan] at h
  split at h
  · cases h
  · obtain ⟨htext, hscan⟩ := List.cons.inj h
    obtain rfl := Value.text.inj htext
    refine ⟨x.drop _, ?_, List.all_eq_true.mp List.all_takeWhile, hscan⟩
    have hfront : (x.take width).takeWhile chars <+: x :=
      (List.takeWhile_prefix chars).trans (List.take_prefix width x)
    obtain ⟨rest, hrest⟩ := hfront
    conv => lhs; rw [← hrest]
    conv => rhs; rhs; rhs; rw [← hrest]
    rw [List.drop_left]

theorem numeral_length (h : numeral x = some r) : r.length ≤ x.length := by
  cases x with
  | nil => cases h
  | cons b rest =>
    have htake := (List.takeWhile_prefix isDigit (l := rest)).length_le
    have hall := (List.takeWhile_prefix isDigit (l := b :: rest)).length_le
    simp only [List.length_cons] at hall ⊢
    simp only [numeral] at h
    grind

theorem of_scan_signed {v : Int} (h : scan (.signed :: ds) n x = .int v :: vs) :
    ∃ read rest, x = read ++ rest ∧ -2 ^ 63 ≤ v ∧ v ≤ 2 ^ 63 - 1 ∧
      scan ds (n + read.length) rest = vs := by
  simp only [scan] at h
  split at h
  · cases h
  · rename_i r hr
    obtain ⟨hvalue, hscan⟩ := List.cons.inj h
    obtain rfl := Value.int.inj hvalue
    have hlength := numeral_length hr
    refine ⟨x.takeWhile isSpace ++ (x.dropWhile isSpace).take r.length,
      (x.dropWhile isSpace).drop r.length, ?_, ?_, ?_, ?_⟩
    · rw [List.append_assoc, List.take_append_drop, List.takeWhile_append_dropWhile]
    · unfold Numeral.toSigned
      split <;> omega
    · unfold Numeral.toSigned
      split <;> omega
    · rw [← hscan, List.length_append, List.length_take, Nat.min_eq_left hlength, Nat.add_assoc]

theorem of_scan_unsigned {width v : Nat} (h : scan (.unsigned width :: ds) n x = .nat v :: vs) :
    ∃ read rest, x = read ++ rest ∧ scan ds (n + read.length) rest = vs := by
  simp only [scan] at h
  split at h
  · cases h
  · rename_i r hr
    obtain ⟨-, hscan⟩ := List.cons.inj h
    have hlength := numeral_length hr
    have htake : ((x.dropWhile isSpace).take width).length ≤ (x.dropWhile isSpace).length :=
      List.length_take_le' width _
    refine ⟨x.takeWhile isSpace ++ (x.dropWhile isSpace).take r.length,
      (x.dropWhile isSpace).drop r.length, ?_, ?_⟩
    · rw [List.append_assoc, List.take_append_drop, List.takeWhile_append_dropWhile]
    · rw [← hscan, List.length_append, List.length_take, Nat.min_eq_left (Nat.le_trans hlength htake),
        Nat.add_assoc]

end Lib.Scanf
