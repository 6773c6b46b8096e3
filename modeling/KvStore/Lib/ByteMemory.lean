import Mathlib.Data.List.Nodup
import Mathlib.Tactic.Ring

/-!
# Byte-addressed memory

A memory gives every address its byte. Numbers are kept in it least significant
byte first, a bitmap has eight flags to a byte, and a linked list is a chain of
addresses that `0` ends. An operation is known by the addresses it changes, so
every notion here comes with the addresses it reads.
-/

namespace Lib

abbrev Memory := Nat → UInt8

def SameOn (m m' : Memory) (a n : Nat) : Prop := ∀ b, a ≤ b → b < a + n → m' b = m b

/-- Nothing outside the `n` bytes from `a` changes. -/
def Confined (m m' : Memory) (a n : Nat) : Prop := ∀ b, b < a ∨ a + n ≤ b → m' b = m b

section
variable {m m' m'' : Memory} {a b n k v : Nat}

theorem SameOn.sub (h : SameOn m m' a n) (ha : a ≤ b) (hn : b + k ≤ a + n) :
    SameOn m m' b k := by
  intro c hb hc
  exact h c (by omega) (by omega)

theorem SameOn.trans (h : SameOn m m' a n) (h' : SameOn m' m'' a n) :
    SameOn m m'' a n := by
  intro b hb hn
  exact (h' b hb hn).trans (h b hb hn)

theorem Confined.sameOn (h : Confined m m' a n) (hb : b + k ≤ a ∨ a + n ≤ b) :
    SameOn m m' b k := by
  intro c hc hk
  exact h c (by omega)

theorem Confined.trans (h : Confined m m' a n) (h' : Confined m' m'' a n) :
    Confined m m'' a n := by
  intro b hb
  exact (h' b hb).trans (h b hb)

theorem Confined.mono (h : Confined m m' b k) (ha : a ≤ b) (hn : b + k ≤ a + n) :
    Confined m m' a n := by
  intro c hc
  exact h c (by omega)

/-! ## Numbers -/

def load : Nat → Memory → Nat → Nat
  | 0, _, _ => 0
  | n + 1, m, a => (m a).toNat + 256 * load n m (a + 1)

def store (n : Nat) (m : Memory) (a v : Nat) : Memory := fun b =>
  if a ≤ b ∧ b < a + n then UInt8.ofNat (v / 256 ^ (b - a)) else m b

def fill (m : Memory) (a n : Nat) (byte : UInt8) : Memory := fun b =>
  if a ≤ b ∧ b < a + n then byte else m b

theorem SameOn.load (h : SameOn m m' a n) : load n m' a = load n m a := by
  induction n generalizing a with
  | zero => rfl
  | succ n ih =>
    have hfirst : m' a = m a := h a (by omega) (by omega)
    rw [Lib.load, Lib.load, hfirst, ih (h.sub (by omega) (by omega))]

theorem load_lt (n : Nat) (m : Memory) (a : Nat) : load n m a < 256 ^ n := by
  induction n generalizing a with
  | zero => simp [load]
  | succ n ih =>
    have hbyte : (m a).toNat < 256 := UInt8.toNat_lt _
    have hrest := ih (a + 1)
    rw [load, Nat.pow_succ]
    omega

theorem store_confined : Confined m (store n m a v) a n := by
  intro b hb
  exact if_neg (by omega)

theorem fill_confined {byte : UInt8} : Confined m (fill m a n byte) a n := by
  intro b hb
  exact if_neg (by omega)

theorem store_inside (ha : a ≤ b) (hn : b < a + n) :
    store n m a v b = UInt8.ofNat (v / 256 ^ (b - a)) := if_pos ⟨ha, hn⟩

theorem load_store_from (k : Nat) (hkn : b + k = n) :
    load k (store n m a v) (a + b) = v / 256 ^ b % 256 ^ k := by
  induction k generalizing b with
  | zero => simp [load, Nat.mod_one]
  | succ k ih =>
    have hdigit : (UInt8.ofNat (v / 256 ^ (a + b - a))).toNat = v / 256 ^ b % 256 := by
      rw [Nat.add_sub_cancel_left, UInt8.toNat_ofNat']
    rw [load, store_inside (by omega) (by omega), hdigit, Nat.add_assoc, ih (by omega),
      Nat.pow_succ 256 b, ← Nat.div_div_eq_div_mul, Nat.pow_succ, Nat.mul_comm (256 ^ k),
      Nat.mod_mul]

theorem load_store (h : v < 256 ^ n) : load n (store n m a v) a = v := by
  have hread := load_store_from (m := m) (a := a) (b := 0) (v := v) n (Nat.zero_add n)
  rwa [Nat.add_zero, Nat.pow_zero, Nat.div_one, Nat.mod_eq_of_lt h] at hread

theorem load_store_apart (h : b + k ≤ a ∨ a + n ≤ b) : load k (store n m a v) b = load k m b :=
  (store_confined.sameOn h).load

/-! ## Bitmaps -/

def flag (k : Nat) : UInt8 := UInt8.ofNat (2 ^ (k % 8))

def bitAt (m : Memory) (a k : Nat) : Bool := m (a + k / 8) &&& flag k != 0

def setBit (m : Memory) (a k : Nat) : Memory :=
  Function.update m (a + k / 8) (m (a + k / 8) ||| flag k)

def clearBit (m : Memory) (a k : Nat) : Memory :=
  Function.update m (a + k / 8) (m (a + k / 8) &&& ~~~flag k)

theorem SameOn.bitAt (h : SameOn m m' a n) (hk : k / 8 < n) : bitAt m' a k = bitAt m a k := by
  unfold Lib.bitAt
  rw [h _ (by omega) (by omega)]

theorem setBit_confined : Confined m (setBit m a k) (a + k / 8) 1 := by
  intro b hb
  exact Function.update_of_ne (by omega) _ _

theorem clearBit_confined : Confined m (clearBit m a k) (a + k / 8) 1 := by
  intro b hb
  exact Function.update_of_ne (by omega) _ _

end

theorem flag_toBitVec (k : Nat) : (flag k).toBitVec = BitVec.twoPow 8 (k % 8) := by
  rw [flag, UInt8.toBitVec_ofNat', BitVec.twoPow_eq]
  apply BitVec.eq_of_toNat_eq
  simp [Nat.shiftLeft_eq]

theorem and_flag (b : UInt8) (k : Nat) : (b &&& flag k != 0) = b.toBitVec.getLsbD (k % 8) := by
  have hk : k % 8 < 8 := Nat.mod_lt _ (by decide)
  have hpos : BitVec.twoPow 8 (k % 8) ≠ 0#8 := by
    intro h
    have hbit := congrArg (BitVec.getLsbD · (k % 8)) h
    simp [hk] at hbit
  rw [Bool.eq_iff_iff, bne_iff_ne, ne_eq, ← UInt8.toBitVec_inj, UInt8.toBitVec_and, flag_toBitVec,
    BitVec.and_twoPow]
  cases hb : b.toBitVec.getLsbD (k % 8) with
  | false => simp
  | true => simpa using hpos

theorem bitAt_setBit (m : Memory) (a j k : Nat) :
    bitAt (setBit m a j) a k = (decide (k = j) || bitAt m a k) := by
  unfold bitAt setBit
  by_cases hbyte : k / 8 = j / 8
  · have hpos : j % 8 = k % 8 ↔ k = j := by omega
    have hj : j % 8 < 8 := Nat.mod_lt _ (by decide)
    rw [hbyte, Function.update_self, and_flag, and_flag, UInt8.toBitVec_or, BitVec.getLsbD_or,
      flag_toBitVec, BitVec.getLsbD_twoPow, Bool.or_comm]
    simp only [hj, hpos, decide_true, Bool.true_and]
  · have hne : k ≠ j := by
      rintro rfl
      exact hbyte rfl
    rw [Function.update_of_ne (by omega), decide_eq_false hne, Bool.false_or]

theorem bitAt_clearBit (m : Memory) (a j k : Nat) :
    bitAt (clearBit m a j) a k = (!decide (k = j) && bitAt m a k) := by
  unfold bitAt clearBit
  by_cases hbyte : k / 8 = j / 8
  · have hpos : j % 8 = k % 8 ↔ k = j := by omega
    have hk : k % 8 < 8 := Nat.mod_lt _ (by decide)
    have hj : j % 8 < 8 := Nat.mod_lt _ (by decide)
    rw [hbyte, Function.update_self, and_flag, and_flag, UInt8.toBitVec_and, BitVec.getLsbD_and,
      UInt8.toBitVec_not, BitVec.getLsbD_not, flag_toBitVec, BitVec.getLsbD_twoPow, Bool.and_comm]
    simp only [hk, hj, hpos, decide_true, Bool.true_and]
  · have hne : k ≠ j := by
      rintro rfl
      exact hbyte rfl
    rw [Function.update_of_ne (by omega), decide_eq_false hne, Bool.not_false, Bool.true_and]

/-! ## Linked lists -/

/-- From `head`, following `next`, one meets the addresses of `l` and then `0`. -/
def Chain (next : Nat → Nat) : Nat → List Nat → Prop
  | head, [] => head = 0
  | head, a :: l => head = a ∧ a ≠ 0 ∧ Chain next (next a) l

/-- A chain with links back; its first address points back to `before`. -/
def DoubleChain (next prev : Nat → Nat) : (before head : Nat) → List Nat → Prop
  | _, head, [] => head = 0
  | before, head, a :: l =>
    head = a ∧ a ≠ 0 ∧ prev a = before ∧ DoubleChain next prev a (next a) l

section
variable {next next' prev prev' : Nat → Nat} {before head a : Nat} {l l' x y : List Nat}

theorem Chain.congr (h : Chain next head l) (hnext : ∀ a ∈ l, next' a = next a) :
    Chain next' head l := by
  induction l generalizing head with
  | nil => exact h
  | cons a l ih =>
    refine ⟨h.1, h.2.1, ?_⟩
    rw [hnext a List.mem_cons_self]
    exact ih h.2.2 fun b hb => hnext b (List.mem_cons_of_mem _ hb)

theorem Chain.ne_zero (h : Chain next head l) (ha : a ∈ l) : a ≠ 0 := by
  induction l generalizing head with
  | nil => cases ha
  | cons b l ih =>
    obtain rfl | ha := List.mem_cons.mp ha
    · exact h.2.1
    · exact ih h.2.2 ha

theorem Chain.eq_nil_iff (h : Chain next head l) : head = 0 ↔ l = [] := by
  cases l with
  | nil => exact ⟨fun _ => rfl, fun _ => h⟩
  | cons a l => exact ⟨fun hzero => absurd (h.1.symm.trans hzero) h.2.1, fun hl => by cases hl⟩

theorem Chain.head_mem (h : Chain next head l) (hne : head ≠ 0) : head ∈ l := by
  cases l with
  | nil => exact absurd h hne
  | cons b l =>
    rw [h.1]
    exact List.mem_cons_self

theorem Chain.next_mem (h : Chain next head l) (ha : a ∈ l) (hne : next a ≠ 0) : next a ∈ l := by
  induction l generalizing head with
  | nil => cases ha
  | cons b l ih =>
    obtain rfl | ha := List.mem_cons.mp ha
    · exact List.mem_cons_of_mem _ (h.2.2.head_mem hne)
    · exact List.mem_cons_of_mem _ (ih h.2.2 ha)

theorem Chain.unique (h : Chain next head l) (h' : Chain next head l') : l = l' := by
  induction l generalizing head l' with
  | nil => exact (h'.eq_nil_iff.mp h).symm
  | cons a l ih =>
    cases l' with
    | nil => exact absurd (h.1.symm.trans h') h.2.1
    | cons b l' =>
      obtain rfl : a = b := h.1.symm.trans h'.1
      rw [ih h.2.2 h'.2.2]

theorem Chain.drop (h : Chain next head (x ++ a :: y)) :
    Chain next a (a :: y) := by
  induction x generalizing head with
  | nil => exact ⟨rfl, h.2⟩
  | cons b x ih => exact ih h.2.2

/-- A chain that ends passes no address twice. -/
theorem Chain.nodup (h : Chain next head l) : l.Nodup := by
  induction l generalizing head with
  | nil => exact List.nodup_nil
  | cons a l ih =>
    refine List.nodup_cons.mpr ⟨fun ha => ?_, ih h.2.2⟩
    obtain ⟨x, y, rfl⟩ := List.append_of_mem ha
    have hsame : x ++ a :: y = y := Chain.unique h.2.2 h.2.2.drop.2.2
    have hlength := congrArg List.length hsame
    simp at hlength
    omega

theorem DoubleChain.congr (h : DoubleChain next prev before head l)
    (hnext : ∀ a ∈ l, next' a = next a) (hprev : ∀ a ∈ l, prev' a = prev a) :
    DoubleChain next' prev' before head l := by
  induction l generalizing before head with
  | nil => exact h
  | cons a l ih =>
    refine ⟨h.1, h.2.1, (hprev a List.mem_cons_self).trans h.2.2.1, ?_⟩
    rw [hnext a List.mem_cons_self]
    exact ih h.2.2.2 (fun b hb => hnext b (List.mem_cons_of_mem _ hb))
      fun b hb => hprev b (List.mem_cons_of_mem _ hb)

theorem DoubleChain.chain (h : DoubleChain next prev before head l) : Chain next head l := by
  induction l generalizing before head with
  | nil => exact h
  | cons a l ih => exact ⟨h.1, h.2.1, ih h.2.2.2⟩

theorem DoubleChain.prev_eq (h : DoubleChain next prev before head (x ++ a :: y)) :
    x = [] ∧ prev a = before ∨ prev a ∈ x := by
  induction x generalizing before head with
  | nil => exact .inl ⟨rfl, h.2.2.1⟩
  | cons b x ih =>
    right
    obtain ⟨rfl, hb⟩ | hx := ih h.2.2.2
    · rw [hb]
      exact List.mem_cons_self
    · exact List.mem_cons_of_mem _ hx

theorem DoubleChain.next_eq (h : DoubleChain next prev before head (x ++ a :: y)) :
    y = [] ∧ next a = 0 ∨ ∃ z, y = next a :: z := by
  induction x generalizing before head with
  | nil =>
    cases y with
    | nil => exact .inl ⟨rfl, h.2.2.2⟩
    | cons b z => exact .inr ⟨z, by rw [h.2.2.2.1]⟩
  | cons b x ih => exact ih h.2.2.2

theorem DoubleChain.push (h : DoubleChain next prev 0 head l) (ha : a ≠ 0)
    (hnexta : next' a = head) (hpreva : prev' a = 0) (hnext : ∀ b ∈ l, next' b = next b)
    (hprev : ∀ b ∈ l, prev' b = if b = head then a else prev b) :
    DoubleChain next' prev' 0 a (a :: l) := by
  refine ⟨rfl, ha, hpreva, ?_⟩
  rw [hnexta]
  cases l with
  | nil => exact h
  | cons b l =>
    obtain ⟨rfl, hb, hpb, hrest⟩ := h
    have hwhole : DoubleChain next prev 0 head (head :: l) := ⟨rfl, hb, hpb, hrest⟩
    have hnodup := (List.nodup_cons.mp hwhole.chain.nodup).1
    refine ⟨rfl, hb, (hprev head List.mem_cons_self).trans (if_pos rfl), ?_⟩
    rw [hnext head List.mem_cons_self]
    refine hrest.congr (fun c hc => hnext c (List.mem_cons_of_mem _ hc)) fun c hc => ?_
    rw [hprev c (List.mem_cons_of_mem _ hc), if_neg]
    rintro rfl
    exact hnodup hc

theorem DoubleChain.remove (h : DoubleChain next prev before head (x ++ a :: y))
    (hnodup : (x ++ a :: y).Nodup) (hbefore : before ∉ x ++ a :: y)
    (hnext : ∀ b ∈ x ++ y, next' b = if b = prev a then next a else next b)
    (hprev : ∀ b ∈ x ++ y, prev' b = if b = next a then prev a else prev b) :
    DoubleChain next' prev' before (if x = [] then next a else head) (x ++ y) := by
  induction x generalizing before head with
  | nil =>
    have hy : ∀ b ∈ y, next' b = next b := by
      intro b hb
      rw [hnext b hb, if_neg]
      rintro rfl
      exact hbefore (h.2.2.1 ▸ List.mem_cons_of_mem _ hb)
    cases y with
    | nil => exact h.2.2.2
    | cons c y =>
      obtain ⟨hc, hne, hpc, hrest⟩ := h.2.2.2
      have hnodup' := (List.nodup_cons.mp (List.nodup_cons.mp hnodup).2).1
      refine ⟨hc, hne, ?_, ?_⟩
      · rw [hprev c List.mem_cons_self, if_pos hc.symm, h.2.2.1]
      · rw [hy c List.mem_cons_self]
        refine hrest.congr (fun b hb => hy b (List.mem_cons_of_mem _ hb)) fun b hb => ?_
        rw [List.nil_append] at hprev
        rw [hprev b (List.mem_cons_of_mem _ hb), if_neg]
        rintro rfl
        exact hnodup' (hc ▸ hb)
  | cons c x ih =>
    obtain ⟨hc, hne, hpc, hrest⟩ := h
    obtain ⟨hcx, hnodup'⟩ := List.nodup_cons.mp hnodup
    refine ⟨by simpa using hc, hne, ?_, ?_⟩
    · rw [hprev c List.mem_cons_self, if_neg, hpc]
      rintro rfl
      obtain ⟨-, hzero⟩ | ⟨z, rfl⟩ := hrest.next_eq
      · exact hne hzero
      · exact hcx (List.mem_append_right _ (List.mem_cons_of_mem _ List.mem_cons_self))
    · have hinner := ih hrest hnodup' hcx (fun b hb => hnext b (List.mem_cons_of_mem _ hb))
        fun b hb => hprev b (List.mem_cons_of_mem _ hb)
      have hlink : next' c = if x = [] then next a else next c := by
        rw [hnext c List.mem_cons_self]
        obtain ⟨rfl, hprevc⟩ | hmem := hrest.prev_eq
        · rw [if_pos hprevc.symm, if_pos rfl]
        · have hcne : c ≠ prev a := by
            rintro rfl
            exact hcx (List.mem_append_left _ hmem)
          rw [if_neg hcne, if_neg (List.ne_nil_of_mem hmem)]
      rw [hlink]
      exact hinner

end

end Lib
