import KvStore.Protocol.Codec

/-!
# The wire grammar and the parser

`CommandWire w fields` says, with no reference to the parser, that the bytes
`w` are one command with these fields. The parser is exact for it and its
verdicts are final: each of its parts is `Online`, and `Exact` for a part of
the grammar.
-/

namespace KvStore

open Lib

-- ---------------------------------------------------------------------------
-- The grammar
-- ---------------------------------------------------------------------------

/-- The value of a digit string read after `value`. -/
def digitValue (value : Nat) (ds : Bytes) : Nat :=
  ds.foldl (fun v b => v * 10 + digitOf b) value

/-- `number\r\n`: a non-empty digit string whose value fits a `size_t`. -/
def NumberLine (w : Bytes) (n : Nat) : Prop :=
  ∃ ds, w = ds ++ [cr, lf] ∧ ds ≠ [] ∧ (∀ b ∈ ds, isDigit b = true) ∧
    digitValue 0 ds = n ∧ n < 2 ^ 64

def FieldWire (w f : Bytes) : Prop :=
  ∃ l, w = dollar :: (l ++ (f ++ [cr, lf])) ∧ NumberLine l f.length

def FieldsWire : Bytes → List Bytes → Prop
  | w, [] => w = []
  | w, f :: fields => ∃ u v, w = u ++ v ∧ FieldWire u f ∧ FieldsWire v fields

def CommandWire (w : Bytes) (fields : List Bytes) : Prop :=
  ∃ l v, w = asterisk :: (l ++ v) ∧ NumberLine l fields.length ∧ FieldsWire v fields

-- ---------------------------------------------------------------------------
-- Numbers
-- ---------------------------------------------------------------------------

theorem digitOf_lt (h : isDigit b = true) : digitOf b < 10 := by
  simp only [isDigit, Bool.and_eq_true, decide_eq_true_eq, UInt8.le_iff_toNat_le] at h
  have : (57 : UInt8).toNat = 57 := rfl
  simp only [digitOf]
  omega

theorem le_digitValue (value : Nat) (ds : Bytes) : value ≤ digitValue value ds := by
  induction ds generalizing value with
  | nil => exact Nat.le_refl _
  | cons b ds ih =>
    have := ih (value * 10 + digitOf b)
    simp only [digitValue, List.foldl_cons] at this ⊢
    omega

theorem next_fits (h : digitOf b < 10) :
    (sizeMax - digitOf b) / 10 < value ↔ sizeMax < value * 10 + digitOf b := by
  have : sizeMax = 18446744073709551615 := rfl
  omega

theorem digitLoop_digits (pos : Nat) (rest : Bytes) (h : ∀ b ∈ ds, isDigit b = true)
    (hv : digitValue value ds ≤ sizeMax) :
    digitLoop pos value (ds ++ rest) =
      digitLoop (pos + ds.length) (digitValue value ds) rest := by
  induction ds generalizing pos value with
  | nil => rfl
  | cons b ds ih =>
    have hb := h b (by simp)
    have hle := le_digitValue (value * 10 + digitOf b) ds
    simp only [digitValue, List.foldl_cons] at hv hle
    have hfit : ¬(sizeMax - digitOf b) / 10 < value := by
      rw [next_fits (digitOf_lt hb)]
      omega
    simp only [List.cons_append, digitLoop, hb, if_true, if_neg hfit]
    rw [ih _ (fun c hc => h c (by simp [hc])) hv, List.length_cons, Nat.add_right_comm, Nat.add_assoc]
    rfl

theorem digitLoop_some (h : digitLoop pos value x = some (p, v, rest)) :
    ∃ ds, x = ds ++ rest ∧ (∀ b ∈ ds, isDigit b = true) ∧ p = pos + ds.length ∧
      v = digitValue value ds ∧ (ds ≠ [] → v ≤ sizeMax) := by
  induction x generalizing pos value with
  | nil =>
    simp only [digitLoop, Option.some.injEq, Prod.mk.injEq] at h
    obtain ⟨rfl, rfl, rfl⟩ := h
    exact ⟨[], rfl, by simp, rfl, rfl, by simp⟩
  | cons b x ih =>
    simp only [digitLoop] at h
    split at h
    · rename_i hb
      split at h
      · cases h
      · rename_i hfit
        obtain ⟨ds, rfl, hds, hp, hv, hle⟩ := ih h
        refine ⟨b :: ds, rfl, by simpa [hb] using hds, ?_, hv, ?_⟩
        · simp only [hp, List.length_cons]
          omega
        · intro _
          cases ds with
          | nil =>
            rw [next_fits (digitOf_lt hb)] at hfit
            simp only [hv, digitValue, List.foldl_nil]
            omega
          | cons c ds => exact hle (by simp)
    · simp only [Option.some.injEq, Prod.mk.injEq] at h
      obtain ⟨rfl, rfl, rfl⟩ := h
      exact ⟨[], rfl, by simp, rfl, rfl, by simp⟩

theorem digitLoop_append (pos value : Nat) (x y : Bytes) :
    (digitLoop pos value x = none → digitLoop pos value (x ++ y) = none) ∧
    (∀ p v rest, digitLoop pos value x = some (p, v, rest) → rest ≠ [] →
      digitLoop pos value (x ++ y) = some (p, v, rest ++ y)) := by
  induction x generalizing pos value with
  | nil => simp only [digitLoop]; grind
  | cons b x ih =>
    simp only [List.cons_append, digitLoop]
    split
    · split
      · simp
      · exact ih _ _
    · simp

theorem lineEnd_online (pos value : Nat) : Online (lineEnd pos value) :=
  ((online_done _).expect lf).expect cr

theorem lineEnd_exact (pos value : Nat) :
    Exact (lineEnd pos value) fun w r => w = [cr, lf] ∧ r = (pos + 2, value) := by
  refine (((exact_done (pos + 2, value)).expect lf).expect cr).congr fun w r => ?_
  constructor
  · rintro ⟨_, rfl, _, rfl, rfl, rfl⟩
    exact ⟨rfl, rfl⟩
  · rintro ⟨rfl, rfl⟩
    exact ⟨_, rfl, _, rfl, rfl, rfl⟩

theorem parseNumber_online (offset : Nat) : Online (parseNumber offset) := by
  intro x y hx
  cases x with
  | nil => simp [parseNumber] at hx
  | cons b x =>
    simp only [parseNumber, List.cons_append] at hx ⊢
    split
    · rfl
    · rename_i hb
      rw [if_neg hb] at hx
      have happ := digitLoop_append offset 0 (b :: x) y
      rw [List.cons_append] at happ
      cases hloop : digitLoop offset 0 (b :: x) with
      | none => simp only [happ.1 hloop, Scan.extend]
      | some r =>
        obtain ⟨p, v, rest⟩ := r
        simp only [hloop] at hx
        cases rest with
        | nil => simp [lineEnd, Scan.expect] at hx
        | cons c rest =>
          rw [happ.2 p v _ hloop (by simp)]
          exact lineEnd_online p v (c :: rest) y hx

theorem parseNumber_exact (offset : Nat) :
    Exact (parseNumber offset) fun w r => NumberLine w r.2 ∧ r.1 = offset + w.length := by
  rintro x ⟨p, n⟩ rest
  constructor
  · intro h
    cases x with
    | nil => simp [parseNumber] at h
    | cons b x =>
      simp only [parseNumber] at h
      split at h
      · cases h
      · rename_i hb
        cases hloop : digitLoop offset 0 (b :: x) with
        | none => simp [hloop] at h
        | some r =>
          obtain ⟨q, v, tail⟩ := r
          simp only [hloop] at h
          obtain ⟨_, rfl, rfl, hr⟩ := (lineEnd_exact q v _ _ _).mp h
          obtain ⟨ds, hx, hds, hq, hv, hle⟩ := digitLoop_some hloop
          have hne : ds ≠ [] := by
            rintro rfl
            simp only [List.nil_append, List.cons_append, List.cons.injEq] at hx
            rw [hx.1] at hb
            exact hb (by decide)
          have hle := hle hne
          have hmax : sizeMax = 18446744073709551615 := rfl
          simp only [Prod.mk.injEq] at hr
          refine ⟨ds ++ [cr, lf], by simp [hx], ⟨ds, rfl, hne, hds, ?_, ?_⟩, ?_⟩
          · rw [hr.2, hv]
          · simp only [hr.2]
            omega
          · simp only [hr.1, hq, List.length_append, List.length_cons, List.length_nil]
            omega
  · rintro ⟨_, rfl, ⟨ds, rfl, hne, hds, hv, hle⟩, hp⟩
    obtain ⟨b, ds, rfl⟩ := List.exists_cons_of_ne_nil hne
    have hb := hds b (by simp)
    have hmax : sizeMax = 18446744073709551615 := rfl
    have hbound : digitValue 0 (b :: ds) ≤ sizeMax := by
      simp only at hv hle
      omega
    have hloop := digitLoop_digits offset ([cr, lf] ++ rest) hds hbound
    simp only [parseNumber, List.append_assoc, List.cons_append, hb, not_true_eq_false, if_false]
    simp only [List.cons_append, List.nil_append] at hloop
    rw [List.nil_append, hloop, hv]
    simp only at hp
    simp [digitLoop, isDigit, cr, lf, lineEnd, Scan.expect, hp]
    omega

-- ---------------------------------------------------------------------------
-- Fields
-- ---------------------------------------------------------------------------

theorem fieldContent_online (m : Nat) (head : Nat × Nat) : Online (fieldContent m head) := by
  obtain ⟨pos, length⟩ := head
  intro x y hx
  simp only [fieldContent] at hx ⊢
  split
  · rfl
  · rename_i hlimit
    rw [if_neg hlimit] at hx
    have hlen : length + 2 ≤ x.length := by
      by_cases h : length > x.length ∨ x.length - length < 2
      · rw [if_pos h] at hx
        exact absurd rfl hx
      · omega
    have hshort : ¬(length > x.length ∨ x.length - length < 2) := by omega
    have hlong : ¬(length > (x ++ y).length ∨ (x ++ y).length - length < 2) := by
      simp only [List.length_append]
      omega
    rw [if_neg hshort, if_neg hlong, List.getElem?_append_left (by omega),
      List.getElem?_append_left (by omega)]
    split
    · rfl
    · simp only [Scan.extend, List.take_append_of_le_length (show length ≤ x.length by omega),
        List.drop_append_of_le_length hlen]

theorem fieldContent_exact (m : Nat) (head : Nat × Nat) :
    Exact (fieldContent m head) fun w r =>
      w = r.2 ++ [cr, lf] ∧ r.2.length = head.2 ∧ r.1 = head.1 + w.length ∧ r.1 ≤ m := by
  obtain ⟨pos, length⟩ := head
  rintro x ⟨p, f⟩ rest
  simp only [fieldContent]
  constructor
  · intro h
    split at h
    · cases h
    split at h
    · cases h
    split at h
    · cases h
    rename_i hlimit hlen hend
    simp only [Scan.done.injEq, Prod.mk.injEq] at h
    obtain ⟨⟨hp, hf⟩, hrest⟩ := h
    simp only [not_or, Decidable.not_not] at hend
    have hx : x = f ++ [cr, lf] ++ rest := by
      have htail : x.drop length = [cr, lf] ++ rest := by
        have h0 : length < x.length := by omega
        have h1 : length + 1 < x.length := by omega
        rw [List.getElem?_eq_getElem h0, List.getElem?_eq_getElem h1] at hend
        rw [List.drop_eq_getElem_cons h0, List.drop_eq_getElem_cons h1, hrest,
          Option.some.inj hend.1, Option.some.inj hend.2]
        rfl
      rw [← List.take_append_drop length x, hf, htail, List.append_assoc]
    have hflen : f.length = length := by
      rw [← hf, List.length_take]
      omega
    refine ⟨f ++ [cr, lf], hx, rfl, hflen, ?_, ?_⟩
    · simp only [List.length_append, List.length_cons, List.length_nil, hflen]
      omega
    · omega
  · rintro ⟨_, rfl, rfl, hflen, hp, hm⟩
    simp only [List.length_append, List.length_cons, List.length_nil] at hp hflen hm ⊢
    subst hflen
    rw [if_neg (by omega), if_neg (by omega), if_neg]
    · simp only [Scan.done.injEq, Prod.mk.injEq]
      refine ⟨⟨by omega, by simp⟩, by simp⟩
    · simp

theorem parseField_online (m offset : Nat) : Online (parseField m offset) :=
  ((parseNumber_online (offset + 1)).bind (fieldContent_online m)).expect dollar

theorem parseField_exact (m offset : Nat) :
    Exact (parseField m offset) fun w r =>
      FieldWire w r.2 ∧ r.1 = offset + w.length ∧ r.1 ≤ m := by
  refine (((parseNumber_exact (offset + 1)).bind (fieldContent_exact m)).expect dollar).congr ?_
  rintro w ⟨p, f⟩
  constructor
  · rintro ⟨_, rfl, l, _, ⟨q, n⟩, rfl, ⟨hl, hq⟩, rfl, hn, hp, hm⟩
    simp only [List.length_append, List.length_cons, List.length_nil] at hn hq hp hm
    refine ⟨⟨l, rfl, by rw [hn]; exact hl⟩, ?_, hm⟩
    simp only [List.length_append, List.length_cons, List.length_nil]
    omega
  · rintro ⟨⟨l, rfl, hl⟩, hp, hm⟩
    simp only [List.length_append, List.length_cons, List.length_nil] at hp hm
    refine ⟨_, rfl, l, _, (offset + 1 + l.length, f.length), rfl, ⟨hl, rfl⟩, rfl, rfl, ?_, hm⟩
    simp only [List.length_append, List.length_cons, List.length_nil]
    omega

theorem parseFields_online (m count offset : Nat) : Online (parseFields m count offset) := by
  induction count generalizing offset with
  | zero => exact online_done _
  | succ count ih =>
    exact (parseField_online m offset).bind fun r => (ih r.1).bind fun rs => online_done _

theorem parseFields_exact (m count offset : Nat) :
    Exact (parseFields m count offset) fun w r =>
      FieldsWire w r.2 ∧ r.2.length = count ∧ r.1 = offset + w.length ∧ (0 < count → r.1 ≤ m) := by
  induction count generalizing offset with
  | zero =>
    refine (exact_done (offset, [])).congr ?_
    rintro w ⟨p, fields⟩
    constructor
    · rintro ⟨rfl, h⟩
      cases h
      simp [FieldsWire]
    · rintro ⟨hw, hlen, hp, -⟩
      simp only [List.length_eq_zero_iff] at hlen
      subst hlen
      simp only [FieldsWire] at hw
      subst hw
      exact ⟨rfl, by simpa using hp⟩
  | succ count ih =>
    refine ((parseField_exact m offset).bind fun r =>
      (ih r.1).bind fun rs => exact_done (rs.1, r.2 :: rs.2)).congr ?_
    rintro w ⟨p, fields⟩
    constructor
    · rintro ⟨u, _, ⟨q, f⟩, rfl, ⟨hu, hq, hqm⟩, v, _, ⟨p', fs⟩, rfl, ⟨hv, hlen, hp, hpm⟩, rfl, h⟩
      cases h
      simp only at hu hq hqm hv hlen hp hpm
      refine ⟨⟨u, v, by simp, hu, hv⟩, by simp [hlen], by simp [hp, hq, Nat.add_assoc], fun _ => ?_⟩
      cases count with
      | zero =>
        simp only [List.length_eq_zero_iff] at hlen
        subst hlen
        simp only [FieldsWire] at hv
        simp only [hp, hv, List.length_nil, Nat.add_zero, hqm]
      | succ count => exact hpm (by omega)
    · rintro ⟨hw, hlen, hp, hm⟩
      cases fields with
      | nil => simp at hlen
      | cons f fs =>
        obtain ⟨u, v, rfl, hu, hv⟩ := hw
        simp only [List.length_append, List.length_cons, Nat.add_right_cancel_iff] at hlen hp hm
        have hpm := hm (by omega)
        refine ⟨u, v, (offset + u.length, f), rfl, ⟨hu, rfl, by simp only; omega⟩, v, [],
          (p, fs), by simp, ⟨hv, hlen, ?_, fun _ => hpm⟩, rfl, rfl⟩
        simp only [hp, Nat.add_assoc]

-- ---------------------------------------------------------------------------
-- Commands
-- ---------------------------------------------------------------------------

theorem commandBody_online (k m : Nat) (head : Nat × Nat) : Online (commandBody k m head) := by
  obtain ⟨offset, count⟩ := head
  unfold commandBody
  by_cases hoff : offset > m
  · simp only [if_pos hoff]
    exact fun _ _ _ => rfl
  by_cases hcount : count = 0 ∨ count > k
  · simp only [if_neg hoff, if_pos hcount]
    exact fun _ _ _ => rfl
  simp only [if_neg hoff, if_neg hcount]
  exact (parseFields_online m count offset).bind fun r => online_done _

theorem commandBody_exact (k m : Nat) (head : Nat × Nat) :
    Exact (commandBody k m head) fun w r =>
      FieldsWire w r.1 ∧ r.1.length = head.2 ∧ r.2 = head.1 + w.length ∧
        0 < r.1.length ∧ r.1.length ≤ k ∧ r.2 ≤ m := by
  obtain ⟨offset, count⟩ := head
  rintro x ⟨fields, n⟩ rest
  have hbody := ((parseFields_exact m count offset).bind
    fun r => exact_done (r.2, r.1)) x (fields, n) rest
  simp only [commandBody]
  constructor
  · intro h
    split at h
    · cases h
    split at h
    · cases h
    rename_i hoff hcount
    obtain ⟨_, rfl, u, _, ⟨p, fs⟩, rfl, ⟨hu, hlen, hp, hpm⟩, rfl, hr⟩ := hbody.mp h
    cases hr
    have hpos : 0 < count := by omega
    refine ⟨u, by simp, hu, hlen, hp, ?_, ?_, hpm hpos⟩
    · simp only at hlen ⊢
      omega
    · simp only at hlen ⊢
      omega
  · rintro ⟨w, rfl, hw, hlen, hn, hpos, hk, hm⟩
    rw [if_neg (by omega), if_neg (by omega)]
    exact hbody.mpr ⟨w, rfl, w, [], (n, fields), by simp, ⟨hw, hlen, hn, fun _ => hm⟩, rfl, rfl⟩

theorem kvsParseCommandLimited_online (k m : Nat) : Online (kvsParseCommandLimited k m) := by
  unfold kvsParseCommandLimited
  by_cases h : k = 0 ∨ m = 0
  · simp only [if_pos h]
    exact fun _ _ _ => rfl
  · simp only [if_neg h]
    exact ((parseNumber_online 1).bind (commandBody_online k m)).expect asterisk

theorem kvsParseCommandLimited_exact (k m : Nat) :
    Exact (kvsParseCommandLimited k m) fun w r =>
      CommandWire w r.1 ∧ r.2 = w.length ∧ 1 ≤ r.1.length ∧ r.1.length ≤ k ∧ w.length ≤ m := by
  rintro x ⟨fields, n⟩ rest
  have hbody := (((parseNumber_exact 1).bind (commandBody_exact k m)).expect asterisk)
    x (fields, n) rest
  simp only [kvsParseCommandLimited]
  constructor
  · intro h
    split at h
    · cases h
    obtain ⟨_, rfl, _, rfl, l, v, ⟨p, c⟩, rfl, ⟨hl, hp⟩, hv, hlen, hn, hpos, hk, hm⟩ := hbody.mp h
    simp only at hl hp hv hlen hn hpos hk hm
    have hw : n = (asterisk :: (l ++ v)).length := by
      simp only [List.length_cons, List.length_append]
      omega
    exact ⟨_, rfl, ⟨l, v, rfl, by rw [hlen]; exact hl, hv⟩, hw, hpos, hk, by omega⟩
  · rintro ⟨_, rfl, ⟨l, v, rfl, hl, hv⟩, hn, hpos, hk, hm⟩
    simp only [List.length_cons, List.length_append] at hl hv hn hpos hk hm
    rw [if_neg (by omega)]
    refine hbody.mpr ⟨_, rfl, l ++ v, rfl, l, v, (1 + l.length, fields.length), rfl, ⟨hl, rfl⟩,
      hv, rfl, ?_, hpos, hk, ?_⟩
    · simp only
      omega
    · simp only
      omega

/-- The parser in full: acceptance is the grammar within the two limits, the
verdicts are final, a rejected input has no accepted extension, an accepted
command has no finished or rejected proper prefix, and the limit only cuts
off the longer commands. -/
theorem kvsParseCommandLimited_spec (k m : Nat) (hmax : m ≤ sizeMax) :
    (∀ x fields n, (∃ rest, kvsParseCommandLimited k m x = .done (fields, n) rest) ↔
      n ≤ x.length ∧ CommandWire (x.take n) fields ∧
        1 ≤ fields.length ∧ fields.length ≤ k ∧ n ≤ m) ∧
    (∀ x y r rest, kvsParseCommandLimited k m x = .done r rest →
      kvsParseCommandLimited k m (x ++ y) = .done r (rest ++ y)) ∧
    (∀ x, kvsParseCommandLimited k m x = .error →
      ∀ y, kvsParseCommandLimited k m (x ++ y) = .error) ∧
    (∀ x fields n rest, kvsParseCommandLimited k m x = .done (fields, n) rest →
      ∀ i < n, kvsParseCommandLimited k m (x.take i) = .more) ∧
    (∀ x fields n rest, kvsParseCommandLimited k m x = .done (fields, n) rest ↔
      kvsParseCommand k x = .done (fields, n) rest ∧ n ≤ m) := by
  have hexact := kvsParseCommandLimited_exact k m
  have honline := kvsParseCommandLimited_online k m
  refine ⟨?_, ?_, ?_, ?_, ?_⟩
  · intro x fields n
    constructor
    · rintro ⟨rest, h⟩
      obtain ⟨w, rfl, hw, hn, hpos, hk, hm⟩ := (hexact _ _ _).mp h
      simp only at hw hn hpos hk
      subst hn
      refine ⟨by simp, ?_, hpos, hk, hm⟩
      rw [List.take_left]
      exact hw
    · rintro ⟨hle, hw, hpos, hk, hm⟩
      have hlen : n = (x.take n).length := by simp [hle]
      refine ⟨x.drop n, (hexact _ _ _).mpr ⟨x.take n, ?_, hw, hlen, hpos, hk, by omega⟩⟩
      exact (List.take_append_drop n x).symm
  · intro x y r rest h
    exact honline.done h y
  · intro x h y
    exact honline.error h y
  · intro x fields n rest h i hi
    obtain ⟨w, rfl, hw, hn, hlimits⟩ := (hexact _ _ _).mp h
    simp only at hn
    subst hn
    -- the command alone is accepted to its end, so its prefixes are unfinished
    have hwhole : kvsParseCommandLimited k m (w.take i ++ w.drop i) = .done (fields, w.length) [] :=
      (hexact _ _ _).mpr ⟨w, by simp, hw, rfl, hlimits⟩
    rw [List.take_append_of_le_length (by omega)]
    refine honline.part_more hwhole ?_
    simp only [ne_eq, List.drop_eq_nil_iff]
    omega
  · intro x fields n rest
    rw [kvsParseCommand, hexact, kvsParseCommandLimited_exact k sizeMax]
    constructor
    · rintro ⟨w, hx, hw, hn, hpos, hk, hm⟩
      simp only at hn
      exact ⟨⟨w, hx, hw, hn, hpos, hk, by omega⟩, by omega⟩
    · rintro ⟨⟨w, hx, hw, hn, hpos, hk, -⟩, hm⟩
      simp only at hn
      exact ⟨w, hx, hw, hn, hpos, hk, by omega⟩

/-- A one-field command of eleven bytes at a limit of eleven. -/
theorem kvsParseCommandLimited_spec_eleven :
    11 ≤ sizeMax ∧
    kvsParseCommandLimited 1 11 [42, 49, 13, 10, 36, 49, 13, 10, 65, 13, 10] =
      .done ([[65]], 11) [] ∧
    kvsParseCommand 1 [42, 49, 13, 10, 36, 49, 13, 10, 65, 13, 10] = .done ([[65]], 11) [] := by
  have h : kvsParseCommandLimited 1 11 [42, 49, 13, 10, 36, 49, 13, 10, 65, 13, 10] =
      .done ([[65]], 11) [] := by decide
  have hmax : 11 ≤ sizeMax := by decide
  exact ⟨hmax, h, (((kvsParseCommandLimited_spec 1 11 hmax).2.2.2.2 _ _ _ _).mp h).1⟩

end KvStore
