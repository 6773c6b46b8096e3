import KvStore.Protocol.Wire

/-!
# Encoding commands and reading them back

The encoder writes a word of the wire grammar, of exactly the length the size
calculator announces, so the parser's exactness gives the round trip. The
append-only file and the replication offsets count these bytes.
-/

namespace KvStore

open Lib

-- ---------------------------------------------------------------------------
-- Decimal numbers
-- ---------------------------------------------------------------------------

theorem decimalDigitsLoop_bound (digits : Nat) (h : value ≤ fuel) :
    ∃ e, decimalDigitsLoop fuel value digits = digits + e ∧ value < 10 ^ (e + 1) := by
  induction fuel generalizing value digits with
  | zero => exact ⟨0, rfl, by omega⟩
  | succ fuel ih =>
    simp only [decimalDigitsLoop]
    split
    · have hdiv : value / 10 ≤ fuel := by omega
      obtain ⟨e, he, hlt⟩ := ih (digits + 1) hdiv
      refine ⟨e + 1, by rw [he]; omega, ?_⟩
      rw [Nat.pow_succ]
      omega
    · exact ⟨0, rfl, by omega⟩

theorem lt_pow_decimalDigits (value : Nat) : value < 10 ^ decimalDigits value := by
  obtain ⟨e, he, hlt⟩ := decimalDigitsLoop_bound 1 (Nat.le_refl value)
  rw [decimalDigits, he, Nat.add_comm]
  exact hlt

theorem decimalDigits_pos (value : Nat) : 0 < decimalDigits value := by
  obtain ⟨e, he, -⟩ := decimalDigitsLoop_bound 1 (Nat.le_refl value)
  rw [decimalDigits, he]
  omega

theorem writeDecimalLoop_append (i value : Nat) (output : Bytes) :
    writeDecimalLoop i value output = writeDecimalLoop i value [] ++ output := by
  induction i generalizing value output with
  | zero => rfl
  | succ i ih =>
    simp only [writeDecimalLoop]
    rw [ih, ih _ [_]]
    simp

theorem digitByte (h : d < 10) :
    isDigit (UInt8.ofNat (48 + d)) = true ∧ digitOf (UInt8.ofNat (48 + d)) = d := by
  have hto : (UInt8.ofNat (48 + d)).toNat = 48 + d := by
    rw [UInt8.toNat_ofNat']
    omega
  have h48 : (48 : UInt8).toNat = 48 := rfl
  have h57 : (57 : UInt8).toNat = 57 := rfl
  simp only [isDigit, digitOf, hto, Bool.and_eq_true, decide_eq_true_eq, UInt8.le_iff_toNat_le]
  omega

theorem writeDecimalLoop_spec (i value : Nat) :
    (writeDecimalLoop i value []).length = i ∧
    (∀ b ∈ writeDecimalLoop i value [], isDigit b = true) ∧
    (value < 10 ^ i → digitValue 0 (writeDecimalLoop i value []) = value) := by
  induction i generalizing value with
  | zero =>
    refine ⟨rfl, by simp [writeDecimalLoop], fun h => ?_⟩
    simp only [Nat.pow_zero, Nat.lt_one_iff] at h
    rw [h]
    rfl
  | succ i ih =>
    obtain ⟨hlen, hdigits, hvalue⟩ := ih (value / 10)
    have hlast := digitByte (Nat.mod_lt value (by omega : 10 > 0))
    rw [writeDecimalLoop, writeDecimalLoop_append]
    refine ⟨by simp [hlen], ?_, ?_⟩
    · intro b hb
      simp only [List.mem_append, List.mem_singleton] at hb
      obtain hb | rfl := hb
      · exact hdigits b hb
      · exact hlast.1
    · intro hlt
      have hdiv : value / 10 < 10 ^ i := by
        rw [Nat.pow_succ] at hlt
        omega
      have hread := hvalue hdiv
      simp only [digitValue, List.foldl_append, List.foldl_cons, List.foldl_nil] at hread ⊢
      rw [hread, hlast.2]
      omega

theorem length_writeDecimal (value : Nat) : (writeDecimal value).length = decimalDigits value :=
  (writeDecimalLoop_spec _ _).1

theorem numberLine_writeDecimal (h : value < 2 ^ 64) :
    NumberLine (writeDecimal value ++ [cr, lf]) value := by
  obtain ⟨hlen, hdigits, hvalue⟩ := writeDecimalLoop_spec (decimalDigits value) value
  refine ⟨writeDecimal value, rfl, ?_, hdigits, hvalue (lt_pow_decimalDigits value), h⟩
  have := decimalDigits_pos value
  intro hnil
  rw [writeDecimal, ← List.length_eq_zero_iff] at hnil
  omega

-- ---------------------------------------------------------------------------
-- Sizes
-- ---------------------------------------------------------------------------

theorem length_encodeField (f : Bytes) :
    (encodeField f).length = 1 + decimalDigits f.length + 4 + f.length := by
  simp only [encodeField, List.length_append, List.length_cons, List.length_nil,
    length_writeDecimal]
  omega

theorem length_encodeFields (fields : List Bytes) :
    (encodeFields fields).length =
      1 + decimalDigits fields.length + 2 + (fields.flatMap encodeField).length := by
  simp only [encodeFields, List.length_append, List.length_cons, List.length_nil,
    length_writeDecimal]
  omega

theorem length_encodeFields_pos (fields : List Bytes) : 0 < (encodeFields fields).length := by
  rw [length_encodeFields]
  omega

theorem decimalDigitsLoop_le (digits : Nat) (hv : value < 10 ^ (e + 1)) :
    decimalDigitsLoop fuel value digits ≤ digits + e := by
  induction fuel generalizing value digits e with
  | zero => simp [decimalDigitsLoop]
  | succ fuel ih =>
    simp only [decimalDigitsLoop]
    split
    · cases e with
      | zero => omega
      | succ e =>
        rw [Nat.pow_succ] at hv
        have := ih (digits + 1) (show value / 10 < 10 ^ (e + 1) by omega)
        omega
    · omega

theorem decimalDigits_le_twenty (h : value ≤ sizeMax) : decimalDigits value ≤ 20 := by
  have hlt : value < 10 ^ (19 + 1) := Nat.lt_of_le_of_lt h (by decide)
  exact decimalDigitsLoop_le 1 hlt

theorem encodedFieldSize_eq (f : Bytes) :
    encodedFieldSize f.length =
      if (encodeField f).length ≤ sizeMax then some (encodeField f).length else none := by
  have hmax : sizeMax = 18446744073709551615 := rfl
  rw [length_encodeField]
  simp only [encodedFieldSize]
  by_cases h : f.length ≤ sizeMax
  · have := decimalDigits_le_twenty h
    split <;> split <;> first | rfl | omega
  · rw [if_pos (by omega), if_neg (by omega)]

theorem encodedFieldsSize_eq (total : Nat) (fields : List Bytes) (hne : fields ≠ []) :
    encodedFieldsSize total fields =
      if total + (fields.flatMap encodeField).length ≤ sizeMax then
        some (total + (fields.flatMap encodeField).length)
      else none := by
  induction fields generalizing total with
  | nil => exact absurd rfl hne
  | cons f fields ih =>
    have hsplit : ((f :: fields).flatMap encodeField).length =
        (encodeField f).length + (fields.flatMap encodeField).length := by simp
    rw [hsplit]
    simp only [encodedFieldsSize, encodedFieldSize_eq]
    by_cases hf : (encodeField f).length ≤ sizeMax
    · simp only [if_pos hf]
      by_cases ht : total > sizeMax - (encodeField f).length
      · rw [if_pos ht, if_neg (by omega)]
      · rw [if_neg ht]
        cases fields with
        | nil =>
          simp only [encodedFieldsSize, List.flatMap_nil, List.length_nil, Nat.add_zero]
          rw [if_pos (by omega)]
        | cons g fields => rw [ih _ (by simp), Nat.add_assoc]
    · simp only [if_neg hf]
      rw [if_neg (by omega)]

theorem kvsEncodedCommandSize_eq (fields : List Bytes) (hne : fields ≠ []) :
    kvsEncodedCommandSize fields =
      if (encodeFields fields).length ≤ sizeMax then some (encodeFields fields).length
      else none := by
  have hlen : fields.length ≠ 0 := by simpa using hne
  rw [kvsEncodedCommandSize, if_neg hlen, encodedFieldsSize_eq _ _ hne, length_encodeFields]

theorem kvsEncodeCommand_eq_some :
    kvsEncodeCommand fields capacity = some e ↔
      fields ≠ [] ∧ e = encodeFields fields ∧ e.length ≤ sizeMax ∧ e.length ≤ capacity := by
  by_cases hne : fields = []
  · simp [hne, kvsEncodeCommand, kvsEncodedCommandSize]
  · rw [kvsEncodeCommand, kvsEncodedCommandSize_eq fields hne]
    by_cases hmax : (encodeFields fields).length ≤ sizeMax
    · simp only [if_pos hmax]
      by_cases hcap : capacity < (encodeFields fields).length
      · rw [if_pos hcap]
        refine ⟨fun h => (by cases h), ?_⟩
        rintro ⟨-, rfl, -, h⟩
        omega
      · rw [if_neg hcap]
        constructor
        · intro h
          cases h
          exact ⟨hne, rfl, hmax, by omega⟩
        · rintro ⟨-, rfl, -, -⟩
          rfl
    · simp only [if_neg hmax]
      refine ⟨fun h => (by cases h), ?_⟩
      rintro ⟨-, rfl, h, -⟩
      exact absurd h hmax

-- ---------------------------------------------------------------------------
-- The encoder writes the grammar
-- ---------------------------------------------------------------------------

theorem fieldWire_encodeField (h : f.length < 2 ^ 64) : FieldWire (encodeField f) f :=
  ⟨writeDecimal f.length ++ [cr, lf], by simp [encodeField], numberLine_writeDecimal h⟩

theorem fieldsWire_encode (h : ∀ f ∈ fields, f.length < 2 ^ 64) :
    FieldsWire (fields.flatMap encodeField) fields := by
  induction fields with
  | nil => rfl
  | cons f fields ih =>
    refine ⟨encodeField f, fields.flatMap encodeField, by simp, ?_, ?_⟩
    · exact fieldWire_encodeField (h f (by simp))
    · exact ih fun g hg => h g (by simp [hg])

theorem length_le_encode {fields : List Bytes} (h : f ∈ fields) :
    f.length ≤ (fields.flatMap encodeField).length := by
  induction fields with
  | nil => cases h
  | cons g fields ih =>
    simp only [List.flatMap_cons, List.length_append]
    cases h with
    | head =>
      rw [length_encodeField]
      omega
    | tail _ h =>
      have := ih h
      omega

theorem count_le_encode (fields : List Bytes) :
    fields.length ≤ (fields.flatMap encodeField).length := by
  induction fields with
  | nil => simp
  | cons f fields ih =>
    simp only [List.flatMap_cons, List.length_append, List.length_cons, length_encodeField]
    omega

theorem commandWire_encodeFields (h : (encodeFields fields).length ≤ sizeMax) :
    CommandWire (encodeFields fields) fields := by
  have hmax : sizeMax = 18446744073709551615 := rfl
  have hlen := length_encodeFields fields
  have hcount := count_le_encode fields
  refine ⟨writeDecimal fields.length ++ [cr, lf], fields.flatMap encodeField, ?_, ?_, ?_⟩
  · simp [encodeFields]
  · exact numberLine_writeDecimal (by omega)
  · refine fieldsWire_encode fun f hf => ?_
    have := length_le_encode hf
    omega

theorem digitValue_lt (value : Nat) (h : ∀ b ∈ ds, isDigit b = true) :
    digitValue value ds < (value + 1) * 10 ^ ds.length := by
  induction ds generalizing value with
  | nil => simp [digitValue]
  | cons b ds ih =>
    have hb := digitOf_lt (h b (by simp))
    have hrest := ih (value * 10 + digitOf b) fun c hc => h c (by simp [hc])
    rw [show digitValue value (b :: ds) = digitValue (value * 10 + digitOf b) ds from rfl]
    refine Nat.lt_of_lt_of_le hrest ?_
    rw [List.length_cons, Nat.pow_succ, Nat.mul_comm (10 ^ ds.length) 10, ← Nat.mul_assoc]
    exact Nat.mul_le_mul_right _ (by omega)

theorem length_numberLine (h : NumberLine w n) : decimalDigits n + 2 ≤ w.length := by
  obtain ⟨ds, rfl, hne, hdigits, hvalue, -⟩ := h
  obtain ⟨e, he⟩ : ∃ e, ds.length = e + 1 :=
    Nat.exists_eq_add_of_lt (List.length_pos_iff.mpr hne) |>.imp fun e he => by omega
  have hlt := digitValue_lt 0 hdigits
  rw [hvalue, he, Nat.zero_add, Nat.one_mul] at hlt
  have hle : decimalDigits n ≤ 1 + e := decimalDigitsLoop_le 1 hlt
  simp only [List.length_append, List.length_cons, List.length_nil]
  omega

theorem length_fieldWire (h : FieldWire w f) : (encodeField f).length ≤ w.length := by
  obtain ⟨l, rfl, hl⟩ := h
  have hle := length_numberLine hl
  rw [length_encodeField]
  simp only [List.length_cons, List.length_append, List.length_nil]
  omega

theorem length_fieldsWire (h : FieldsWire w fields) :
    (fields.flatMap encodeField).length ≤ w.length := by
  induction fields generalizing w with
  | nil => simp
  | cons f fields ih =>
    obtain ⟨u, v, rfl, hu, hv⟩ := h
    have hfirst := length_fieldWire hu
    have hrest := ih hv
    simp only [List.flatMap_cons, List.length_append]
    omega

/-- The encoder writes a command in the fewest bytes. -/
theorem length_encodeFields_le (h : CommandWire w fields) :
    (encodeFields fields).length ≤ w.length := by
  obtain ⟨l, v, rfl, hl, hv⟩ := h
  have hline := length_numberLine hl
  have hfields := length_fieldsWire hv
  rw [length_encodeFields]
  simp only [List.length_cons, List.length_append]
  omega

/-- Parsing an encoded command with anything behind it. -/
theorem kvsParseCommandLimited_encodeFields (hne : fields ≠ []) (hk : fields.length ≤ k)
    (hm : (encodeFields fields).length ≤ m) (hmax : m ≤ sizeMax) (t : Bytes) :
    kvsParseCommandLimited k m (encodeFields fields ++ t) =
      .done (fields, (encodeFields fields).length) t := by
  refine (kvsParseCommandLimited_exact k m _ _ _).mpr ⟨encodeFields fields, rfl, ?_, rfl, ?_, hk, hm⟩
  · exact commandWire_encodeFields (by omega)
  · exact List.length_pos_iff.mpr hne

/-- The codec round trip, the canonical form and the exact range of the size
calculator. -/
theorem kvsEncodeCommand_roundTrip (fields : List Bytes) (k m : Nat) (hne : 1 ≤ fields.length)
    (hk : fields.length ≤ k) (hm : (encodeFields fields).length ≤ m) (hmax : m ≤ sizeMax) :
    (∃ e, kvsEncodedCommandSize fields = some e.length ∧
      (∀ capacity, e.length ≤ capacity → kvsEncodeCommand fields capacity = some e) ∧
      ∀ t, kvsParseCommandLimited k m (e ++ t) = .done (fields, e.length) t) ∧
    (∀ gs capacity e j l t hs n rest, kvsEncodeCommand gs capacity = some e →
      kvsParseCommandLimited j l (e ++ t) = .done (hs, n) rest →
      ∀ c, e.length ≤ c → kvsEncodeCommand hs c = some e) ∧
    (∀ gs : List Bytes, 1 ≤ gs.length →
      (kvsEncodedCommandSize gs = none ↔ sizeMax < (encodeFields gs).length)) := by
  have hne' : fields ≠ [] := List.length_pos_iff.mp hne
  refine ⟨⟨encodeFields fields, ?_, ?_, ?_⟩, ?_, ?_⟩
  · rw [kvsEncodedCommandSize_eq fields hne', if_pos (by omega)]
  · intro capacity hcap
    exact kvsEncodeCommand_eq_some.mpr ⟨hne', rfl, by omega, hcap⟩
  · exact kvsParseCommandLimited_encodeFields hne' hk hm hmax
  · intro gs capacity e j l t hs n rest henc hparse c hc
    obtain ⟨hgs, rfl, hsize, -⟩ := kvsEncodeCommand_eq_some.mp henc
    -- limits wide enough for both readings make them one
    have hsame : hs = gs := by
      obtain ⟨w, hx, hw, hn, hpos, hj, hl⟩ := (kvsParseCommandLimited_exact j l _ _ _).mp hparse
      have hread := (kvsParseCommandLimited_exact (max j gs.length) (max l sizeMax) _ _ _).mpr
        ⟨w, hx, hw, hn, hpos, by simp only at hj ⊢; omega, by omega⟩
      have hwritten := (kvsParseCommandLimited_exact (max j gs.length) (max l sizeMax) _
        (gs, (encodeFields gs).length) t).mpr ⟨encodeFields gs, rfl, commandWire_encodeFields hsize,
          rfl, List.length_pos_iff.mpr hgs, Nat.le_max_right _ _, by omega⟩
      rw [hread] at hwritten
      cases hwritten
      rfl
    subst hsame
    exact kvsEncodeCommand_eq_some.mpr ⟨hgs, rfl, hsize, hc⟩
  · intro gs hgs
    rw [kvsEncodedCommandSize_eq gs (List.length_pos_iff.mp hgs)]
    split
    · simp only [reduceCtorEq, false_iff]
      omega
    · simp only [true_iff]
      omega

/-- `SET k v` at its own size, and the same command read back. -/
theorem kvsEncodeCommand_roundTrip_set :
    kvsEncodedCommandSize [[83, 69, 84], [107], [118]] = some 27 ∧
    kvsEncodeCommand [[83, 69, 84], [107], [118]] 27 =
      some (encodeFields [[83, 69, 84], [107], [118]]) ∧
    kvsParseCommandLimited 3 27 (encodeFields [[83, 69, 84], [107], [118]] ++ [0]) =
      .done ([[83, 69, 84], [107], [118]], 27) [0] := by
  obtain ⟨⟨e, hsize, henc, hparse⟩, -, -⟩ :=
    kvsEncodeCommand_roundTrip [[83, 69, 84], [107], [118]] 3 27 (by decide) (by decide)
      (by decide) (by decide)
  have hlen : e.length = 27 := by
    have : kvsEncodedCommandSize [[83, 69, 84], [107], [118]] = some 27 := by decide
    rw [this] at hsize
    exact (Option.some.inj hsize).symm
  obtain ⟨-, rfl, -, -⟩ := kvsEncodeCommand_eq_some.mp (henc 27 (by omega))
  exact ⟨by rw [hsize, hlen], henc 27 (by omega), by rw [hparse, hlen]⟩

end KvStore
