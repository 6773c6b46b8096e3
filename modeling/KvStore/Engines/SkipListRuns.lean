import KvStore.Engines.LinkedOwnership

/-!
# Runs of the skip list

After every run the levels are what they should be, and the header and the
nodes of level 0 own all the blocks there are. What a call answers depends on
the contents and on which requests for memory fail, never on the levels drawn:
two runs that differ in `rand()` only make the same requests and give the same
answers.
-/

namespace KvStore

open Lib

/-- The invariant of the list. `next i p` is `p->forward[i]`, and `L` are the
nodes: the live blocks are theirs and the header's. -/
structure KvsSkiplist.Sound (T : KvsSkiplist) (rt : Runtime) (L : List Ptr) : Prop where
  live : rt.live.Perm ((T.header :: L).flatMap T.blocks)
  nodup : (T.header :: L).Nodup
  chain : Linked (T.next 0) T.header L
  ascending : L.Pairwise fun p q => strcmp (T.key p).bytes (T.key q).bytes < 0
  levels : ∀ i ≤ kvsSkiplistMaxLevel,
    Linked (T.next i) T.header (L.filter fun p => i < (T.forward p).length)
  header : (T.forward T.header).length = kvsSkiplistMaxLevel + 1
  forward : ∀ p ∈ L, 1 ≤ (T.forward p).length ∧ (T.forward p).length ≤ kvsSkiplistMaxLevel + 1
  level : T.level ≤ kvsSkiplistMaxLevel
  top : T.level = 0 ∨ T.next T.level T.header ≠ none
  above : ∀ i, T.level < i → i ≤ kvsSkiplistMaxLevel → T.next i T.header = none

theorem SkStores.sound {inst : KvsSkiplist} (h : SkStores inst n L)
    (hl : rt.Ledger ((inst.header :: L).flatMap inst.blocks)) : inst.Sound rt L := by
  have hfirst : ∀ i ≤ kvsSkiplistMaxLevel, inst.next i inst.header = (inst.onLevel i L).head? :=
    fun i hi => (h.linked i hi).next_endOf (a := [])
  have hlevel : inst.level ≤ kvsSkiplistMaxLevel := h.level
  refine ⟨hl.live, h.nodup, h.linked_all, ?_, h.linked, h.headerHeight, ?_, hlevel, ?_, ?_⟩
  · have hsorted := h.sorted
    rw [SortedKeys, List.pairwise_map] at hsorted
    exact hsorted
  · intro p hp
    obtain ⟨h1, h2⟩ := h.height p hp
    exact ⟨h1, Nat.le_trans h2 (by omega)⟩
  · refine h.top.imp_right ?_
    rintro ⟨p, hp, hheight⟩
    rw [hfirst _ hlevel, Ne, List.head?_eq_none_iff]
    exact List.ne_nil_of_mem (mem_onLevel.mpr ⟨hp, hheight⟩)
  · intro i hi hmax
    rw [hfirst i hmax, List.head?_eq_none_iff, KvsSkiplist.onLevel, List.filter_eq_nil_iff]
    intro p hp
    have := (h.height p hp).2
    simp
    omega

-- ---------------------------------------------------------------------------
-- Requests for memory
-- ---------------------------------------------------------------------------

/-- Requests for `count` blocks, stopping at the first that fails: whether all
were granted, and the number of requests ever made. -/
def requests (fails : Nat → Bool) : (count made : Nat) → Bool × Nat
  | 0, made => (true, made)
  | count + 1, made => if fails made then (false, made + 1) else requests fails count (made + 1)

/-- The program requested `count` blocks and nothing else, and its result `r`
tells whether it got all of them. -/
def Requested (count : Nat) (tells : α → Bool → Prop) (rt : Runtime) (r : α) (rt' : Runtime) : Prop :=
  rt'.mallocFails = rt.mallocFails ∧ tells r (requests rt.mallocFails count rt.mallocs).1 ∧
    rt'.mallocs = (requests rt.mallocFails count rt.mallocs).2

section
variable {rt rt' : Runtime}

/-- What `kvs_malloc` and the copy of a string have in common. -/
def OneRequest (m : Run (Option β)) : Prop :=
  ∀ rt, Triple m rt (fun r rt' => rt'.mallocFails = rt.mallocFails ∧ rt'.mallocs = rt.mallocs + 1 ∧
    r.isSome = !rt.mallocFails rt.mallocs) Never

theorem kvsMalloc_oneRequest : OneRequest kvsMalloc := by
  intro rt
  by_cases h : rt.mallocFails rt.mallocs = true
  · exact Triple.of_run (if_pos h) ⟨rfl, rfl, by simp [h]⟩
  · exact Triple.of_run (if_neg h) ⟨rfl, rfl, by simp [h]⟩

theorem copyString_oneRequest (s : Bytes) : OneRequest (copyString s) := by
  intro rt
  refine (kvsMalloc_oneRequest rt).bind fun r rt' h => ?_
  cases r with
  | none => exact Triple.pure h
  | some p => exact Triple.pure h

theorem OneRequest.bind {m : Run (Option β)} (hm : OneRequest m) {f : Option β → Run α}
    {tells : α → Bool → Prop}
    (hnone : ∀ rt, Triple (f none) rt (fun r rt' => tells r false ∧
      rt'.mallocFails = rt.mallocFails ∧ rt'.mallocs = rt.mallocs) Never)
    (hsome : ∀ b rt, Triple (f (some b)) rt (Requested count tells rt) Never) (rt : Runtime) :
    Triple (m >>= f) rt (Requested (count + 1) tells rt) Never := by
  refine (hm rt).bind fun r rt1 h1 => ?_
  obtain ⟨hfails, hmallocs, hsomeness⟩ := h1
  cases r with
  | none =>
    have hfailed : rt.mallocFails rt.mallocs = true := by simpa using hsomeness
    refine (hnone rt1).weaken fun a rt2 h2 => ⟨h2.2.1.trans hfails, ?_⟩
    rw [requests, if_pos hfailed, h2.2.2, hmallocs]
    exact ⟨h2.1, rfl⟩
  | some b =>
    have hgranted : ¬rt.mallocFails rt.mallocs = true := by simpa using hsomeness
    refine (hsome b rt1).weaken fun a rt2 h2 => ⟨h2.1.trans hfails, ?_⟩
    obtain ⟨-, htells, hcount⟩ := h2
    rw [hfails, hmallocs] at htells hcount
    rw [requests, if_neg hgranted]
    exact ⟨htells, hcount⟩

theorem Requested.none {tells : α → Bool → Prop} (hfails : rt'.mallocFails = rt.mallocFails)
    (hmallocs : rt'.mallocs = rt.mallocs) (hr : tells r true) : Requested 0 tells rt r rt' :=
  ⟨hfails, hr, hmallocs⟩

theorem kvsFree_bind {f : Unit → Run α} {P : α → Runtime → Prop} {fails : Nat → Bool} {n : Nat}
    (hf : ∀ rt', rt'.mallocFails = fails → rt'.mallocs = n → Triple (f ()) rt' P Never)
    (hfails : rt.mallocFails = fails) (hn : rt.mallocs = n) : Triple (kvsFree p >>= f) rt P Never := by
  refine (kvsFree_spec p rt).bind fun _ rt' h => ?_
  exact hf rt' (h.1.mallocFails.trans hfails) (h.2.trans hn)

theorem skiplistCreateNode_requested (inst : KvsSkiplist) (hlevel : level ≤ kvsSkiplistMaxLevel)
    (k v : Bytes) (rt : Runtime) :
    Triple (skiplistCreateNode inst level k v) rt (Requested 4 (fun r ok => r.isSome = ok) rt)
      Never := by
  simp only [skiplistCreateNode, show ¬level > kvsSkiplistMaxLevel by omega, if_false]
  refine kvsMalloc_oneRequest.bind (fun rt => ?_) (fun node rt => ?_) rt
  · exact Triple.pure ⟨rfl, rfl, rfl⟩
  refine (copyString_oneRequest k).bind (fun rt => ?_) (fun kcopy rt => ?_) rt
  · exact kvsFree_bind (fun rt' hf hn => Triple.pure ⟨rfl, hf, hn⟩) rfl rfl
  refine (copyString_oneRequest v).bind (fun rt => ?_) (fun vcopy rt => ?_) rt
  · refine kvsFree_bind (fun rt1 hf hn => ?_) rfl rfl
    exact kvsFree_bind (fun rt2 hf hn => Triple.pure ⟨rfl, hf, hn⟩) hf hn
  refine kvsMalloc_oneRequest.bind (fun rt => ?_) (fun fp rt => ?_) rt
  · refine kvsFree_bind (fun rt1 hf hn => ?_) rfl rfl
    refine kvsFree_bind (fun rt2 hf hn => ?_) hf hn
    exact kvsFree_bind (fun rt3 hf hn => Triple.pure ⟨rfl, hf, hn⟩) hf hn
  · exact Triple.pure (Requested.none rfl rfl rfl)

def codeTells (r : Int × KvsSkiplist) (ok : Bool) : Prop := r.1 = if ok then 0 else -2

variable {inst : KvsSkiplist} {L : List Ptr} {k : Bytes}

theorem newValue_requested (q : Ptr) (v : Bytes) (rt : Runtime) :
    Triple (do
      match ← copyString v with
      | none => return (-2, inst)
      | some w =>
        kvsFree (inst.value q).ptr
        return (0, inst.setValue q w)) rt (Requested 1 codeTells rt) Never := by
  refine (copyString_oneRequest v).bind (fun rt => ?_) (fun w rt => ?_) rt
  · exact Triple.pure ⟨rfl, rfl, rfl⟩
  · exact kvsFree_bind (fun rt' hf hn => Triple.pure (Requested.none hf hn rfl)) rfl rfl

/-- A set makes one request for a key that is there and four for a new one. -/
theorem kvsSkiplistSet_requested (h : SkStores inst rt.mallocs L) (k v : Bytes) :
    Triple (kvsSkiplistSet inst k v) rt
      (Requested (if k ∈ mapOf (L.map inst.pairAt) then 1 else 4) codeTells rt) Never := by
  simp only [kvsSkiplistSet, h.header_ne, if_false]
  refine loopFuel_bind ?_
  obtain ⟨A, current, hfind, ⟨q, B, hL, hk, hcur⟩ | ⟨B, rfl, hA, hB, hcur⟩⟩ :=
    h.found k (show rt.mallocs < rt.mallocs + 2 by omega)
  · rw [if_pos (mem_of_key hL hk)]
    simp only [hfind, ofExcept_ok, pure_bind, hcur]
    exact newValue_requested q v rt
  · rw [if_neg (notMem_of_gap rfl hA hB)]
    simp only [hfind, ofExcept_ok, pure_bind, hcur]
    refine (randomLevelLoop_spec _ _ rt).bind fun level rt1 hlevel => ?_
    rw [Nat.zero_add] at hlevel
    obtain ⟨hext1, hmallocs, hle⟩ := hlevel
    refine ((skiplistCreateNode_requested inst hle k v rt1).and
      (skiplistCreateNode_spec inst hle k v rt1)).bind fun r rt2 hr => ?_
    obtain ⟨⟨hfails, htells, hcount⟩, hext2, hmade⟩ := hr
    rw [hmallocs, hext1.mallocFails] at htells hcount
    obtain ⟨rfl, -⟩ | ⟨z, ks, vs, fp, rfl, rfl, rfl, hz, hz'⟩ := hmade
    · refine Triple.pure ⟨hfails.trans hext1.mallocFails, ?_, hcount⟩
      rw [← htells]
      rfl
    rw [hmallocs] at hz
    obtain ⟨T, hlink, -, -⟩ :=
      skStores_insert vs fp h hA hB hz hz' (hext1.trans hext2).mallocs hle _ rfl
    simp only [update_eq h, hlink, ofExcept_ok, pure_bind]
    refine Triple.pure ⟨hfails.trans hext1.mallocFails, ?_, hcount⟩
    rw [← htells]
    rfl

theorem kvsSkiplistMod_requested (h : SkStores inst rt.mallocs L)
    (hk : k ∈ mapOf (L.map inst.pairAt)) (v : Bytes) :
    Triple (kvsSkiplistMod inst k v) rt (Requested 1 codeTells rt) Never := by
  simp only [kvsSkiplistMod, h.header_ne, if_false]
  refine loopFuel_bind ?_
  obtain ⟨A, q, B, -, -, hsearch, -⟩ | ⟨-, hnot⟩ :=
    h.search k (show rt.mallocs < rt.mallocs + 2 by omega)
  · simp only [hsearch, ofExcept_ok, pure_bind]
    exact newValue_requested q v rt
  · exact absurd hk hnot

theorem kvsSkiplistDel_requested (h : SkStores inst rt.mallocs L)
    (hk : k ∈ mapOf (L.map inst.pairAt)) :
    Triple (kvsSkiplistDel inst k) rt (Requested 0 codeTells rt) Never := by
  simp only [kvsSkiplistDel, h.header_ne, if_false]
  refine loopFuel_bind ?_
  obtain ⟨A, current, hfind, ⟨q, B, rfl, rfl, hcur⟩ | ⟨B, hL, hA, hB, -⟩⟩ :=
    h.found k (show rt.mallocs < rt.mallocs + 2 by omega)
  · obtain ⟨T, l, hunlink, hlower, -, -⟩ := skStores_remove h
    simp only [hfind, ofExcept_ok, pure_bind, hcur, hunlink, hlower]
    refine kvsFree_bind (fun rt1 hf hn => ?_) rfl rfl
    refine kvsFree_bind (fun rt2 hf hn => ?_) hf hn
    refine kvsFree_bind (fun rt3 hf hn => ?_) hf hn
    exact kvsFree_bind (fun rt4 hf hn => Triple.pure (Requested.none hf hn rfl)) hf hn
  · exact absurd hk (notMem_of_gap hL hA hB)

end

-- ---------------------------------------------------------------------------
-- Two runs with different levels
-- ---------------------------------------------------------------------------

/-- Two lists with the same contents, whose environments may differ in the
coins only. -/
structure Alike (inst : KvsSkiplist) (rt : Runtime) (inst' : KvsSkiplist) (rt' : Runtime) :
    Prop where
  fails : rt'.mallocFails = rt.mallocFails
  mallocs : rt'.mallocs = rt.mallocs
  holds : ∃ m, SkHolds inst rt.mallocs m ∧ SkHolds inst' rt'.mallocs m

section
variable {inst inst' : KvsSkiplist} {rt rt' t t' : Runtime} {m m' : Contents}

theorem Alike.unchanged (h : Alike inst rt inst' rt') (hm : SkHolds inst rt.mallocs m)
    (hm' : SkHolds inst' rt'.mallocs m) (hfails : t.mallocFails = rt.mallocFails)
    (hfails' : t'.mallocFails = rt'.mallocFails) (hmallocs : t'.mallocs = t.mallocs)
    (hle : rt.mallocs ≤ t.mallocs) : Alike inst t inst' t' := by
  refine ⟨by rw [hfails, hfails', h.fails], hmallocs, m, skiplist_lawful.later hm hle, ?_⟩
  refine skiplist_lawful.later hm' ?_
  rw [h.mallocs, hmallocs]
  exact hle

/-- Two writes that make the same requests have the same outcome. -/
theorem Alike.wrote (h : Alike inst rt inst' rt') (hm : SkHolds inst rt.mallocs m)
    (hm' : SkHolds inst' rt'.mallocs m) (hr : Requested count codeTells rt r t)
    (hr' : Requested count codeTells rt' r' t')
    (hw : Wrote SkHolds rt inst m₁ refused r t) (hw' : Wrote SkHolds rt' inst' m₁ refused' r' t') :
    r.1 = r'.1 ∧ Alike r.2 t r'.2 t' := by
  obtain ⟨hfails, htells, hcount⟩ := hr
  obtain ⟨hfails', htells', hcount'⟩ := hr'
  rw [h.fails, h.mallocs] at htells' hcount'
  have hcode : r.1 = r'.1 := htells.trans htells'.symm
  have hmallocs : t'.mallocs = t.mallocs := hcount'.trans hcount.symm
  refine ⟨hcode, ?_⟩
  obtain ⟨hext, ⟨hzero, hholds⟩ | ⟨hne, hinst, -⟩⟩ := hw
  · obtain ⟨-, ⟨-, hholds'⟩ | ⟨hne', -, -⟩⟩ := hw'
    · exact ⟨by rw [hfails, hfails', h.fails], hmallocs, _, hholds, hholds'⟩
    · exact absurd (hcode.symm.trans hzero) hne'
  · obtain ⟨-, ⟨hzero', -⟩ | ⟨-, hinst', -⟩⟩ := hw'
    · exact absurd (hcode.trans hzero') hne
    · rw [hinst, hinst']
      exact h.unchanged hm hm' hfails hfails' hmallocs hext.mallocs

theorem skiplistWrite_alike (h : Alike inst rt inst' rt') (w : EngineWrite) :
    Agree (skiplistOps.write inst w) rt (skiplistOps.write inst' w) rt'
      (fun r t r' t' => r.1 = r'.1 ∧ Alike r.2 t r'.2 t') := by
  obtain ⟨m, hm, hm'⟩ := h.holds
  obtain ⟨L, hs, hL⟩ := hm
  obtain ⟨L', hs', hL'⟩ := hm'
  cases w with
  | set k v =>
    have hr := kvsSkiplistSet_requested hs k v
    have hr' := kvsSkiplistSet_requested hs' k v
    have hw := kvsSkiplistSet_spec hs k v
    have hw' := kvsSkiplistSet_spec hs' k v
    rw [hL] at hr hw
    rw [hL'] at hr' hw'
    refine Agree.of_triples (hr.and hw) (hr'.and hw') ?_
    rintro r t r' t' ⟨h1, h2⟩ ⟨h1', h2'⟩
    exact h.wrote ⟨L, hs, hL⟩ ⟨L', hs', hL'⟩ h1 h1' h2 h2'
  | mod k v =>
    by_cases hk : k ∈ m
    · have hr := kvsSkiplistMod_requested hs (hL ▸ hk) v
      have hr' := kvsSkiplistMod_requested hs' (hL' ▸ hk) v
      have hw := kvsSkiplistMod_found hs (hL ▸ hk) v
      have hw' := kvsSkiplistMod_found hs' (hL' ▸ hk) v
      rw [hL] at hw
      rw [hL'] at hw'
      refine Agree.of_triples (hr.and hw) (hr'.and hw') ?_
      rintro r t r' t' ⟨h1, h2⟩ ⟨h1', h2'⟩
      exact h.wrote ⟨L, hs, hL⟩ ⟨L', hs', hL'⟩ h1 h1' h2 h2'
    · refine Agree.of_triples (kvsSkiplistMod_missing hs (hL ▸ hk) v)
        (kvsSkiplistMod_missing hs' (hL' ▸ hk) v) ?_
      rintro _ _ _ _ ⟨rfl, rfl⟩ ⟨rfl, rfl⟩
      exact ⟨rfl, h⟩
  | del k =>
    by_cases hk : k ∈ m
    · have hr := kvsSkiplistDel_requested hs (hL ▸ hk)
      have hr' := kvsSkiplistDel_requested hs' (hL' ▸ hk)
      have hw := kvsSkiplistDel_found hs (hL ▸ hk)
      have hw' := kvsSkiplistDel_found hs' (hL' ▸ hk)
      rw [hL] at hw
      rw [hL'] at hw'
      refine Agree.of_triples (hr.and hw) (hr'.and hw') ?_
      rintro r t r' t' ⟨h1, h2⟩ ⟨h1', h2'⟩
      exact h.wrote ⟨L, hs, hL⟩ ⟨L', hs', hL'⟩ h1 h1' h2 h2'
    · refine Agree.of_triples (kvsSkiplistDel_missing hs (hL ▸ hk))
        (kvsSkiplistDel_missing hs' (hL' ▸ hk)) ?_
      rintro _ _ _ _ ⟨rfl, rfl⟩ ⟨rfl, rfl⟩
      exact ⟨rfl, h⟩

theorem skiplistCall_alike (h : Alike inst rt inst' rt') (c : EngineCall) :
    Agree (skiplistOps.call inst c) rt (skiplistOps.call inst' c) rt'
      (fun r t r' t' => r.1 = r'.1 ∧ Alike r.2 t r'.2 t') := by
  obtain ⟨m, hm, hm'⟩ := h.holds
  cases c with
  | write w =>
    refine (skiplistWrite_alike h w).bind fun r t r' t' hr => Agree.pure ⟨?_, hr.2⟩
    exact congrArg EngineAnswer.code hr.1
  | get k =>
    have hread : Agree (skiplistOps.get inst k) rt (skiplistOps.get inst' k) rt'
        (fun r t r' t' => r = r' ∧ t = rt ∧ t' = rt') := by
      refine Agree.of_triples (skiplist_lawful.get hm trivial) (skiplist_lawful.get hm' trivial) ?_
      rintro _ _ _ _ ⟨rfl, rfl⟩ ⟨rfl, rfl⟩
      exact ⟨rfl, rfl, rfl⟩
    refine hread.bind ?_
    rintro _ _ _ _ ⟨rfl, rfl, rfl⟩
    exact Agree.pure ⟨rfl, h⟩
  | exist k =>
    have hread : Agree (skiplistOps.exist inst k) rt (skiplistOps.exist inst' k) rt'
        (fun r t r' t' => r = r' ∧ t = rt ∧ t' = rt') := by
      refine Agree.of_triples (skiplist_lawful.exist hm trivial)
        (skiplist_lawful.exist hm' trivial) ?_
      rintro r _ r' _ ⟨rfl, h0, h1⟩ ⟨rfl, h0', h1'⟩
      refine ⟨?_, rfl, rfl⟩
      by_cases hk : k ∈ m
      · exact (h0.mpr hk).trans (h0'.mpr hk).symm
      · exact (h1.mpr hk).trans (h1'.mpr hk).symm
    refine hread.bind ?_
    rintro _ _ _ _ ⟨rfl, rfl, rfl⟩
    exact Agree.pure ⟨rfl, h⟩
  | foreach =>
    obtain ⟨L, hs, hL⟩ := hm
    obtain ⟨L', hs', hL'⟩ := hm'
    have hpairs : L.map inst.pairAt = L'.map inst'.pairAt :=
      SortedKeys.unique keyLt_irrefl strcmp_trans hs.sorted hs'.sorted (hL.trans hL'.symm)
    have hread : Agree (skiplistOps.foreach inst) rt (skiplistOps.foreach inst') rt'
        (fun r t r' t' => r = r' ∧ t = rt ∧ t' = rt') := by
      refine Agree.of_triples (kvsSkiplistForeach_spec hs) (kvsSkiplistForeach_spec hs') ?_
      rintro _ _ _ _ ⟨rfl, rfl⟩ ⟨rfl, rfl⟩
      exact ⟨hpairs, rfl, rfl⟩
    refine hread.bind ?_
    rintro _ _ _ _ ⟨rfl, rfl, rfl⟩
    exact Agree.pure ⟨rfl, h⟩

theorem skiplistCalls_alike (h : Alike inst rt inst' rt') (calls : List EngineCall) :
    Agree (skiplistOps.runCalls inst calls) rt (skiplistOps.runCalls inst' calls) rt'
      (fun r _ r' _ => r.1 = r'.1) := by
  induction calls generalizing inst rt inst' rt' with
  | nil => exact Agree.pure rfl
  | cons c calls ih =>
    refine (skiplistCall_alike h c).bind fun r t r' t' hr => ?_
    refine (ih hr.2).bind fun rs u rs' u' hrs => Agree.pure ?_
    rw [hr.1, hrs]

theorem kvsSkiplistCreate_requested (rt : Runtime) :
    Triple kvsSkiplistCreate rt
      (Requested 4 (fun r ok => r.1 = if ok then 0 else -1) rt) Never := by
  refine (skiplistCreateNode_requested _ (Nat.le_refl _) [] [] rt).bind fun r rt1 hr => ?_
  obtain ⟨hfails, htells, hcount⟩ := hr
  cases r with
  | none =>
    refine Triple.pure ⟨hfails, ?_, hcount⟩
    rw [← htells]
    rfl
  | some node =>
    refine Triple.pure ⟨hfails, ?_, hcount⟩
    rw [← htells]
    rfl

theorem skiplistCreated_alike (hfails : rt'.mallocFails = rt.mallocFails)
    (hmallocs : rt'.mallocs = rt.mallocs) (calls : List EngineCall) :
    Agree (skiplistOps.callCreated calls) rt (skiplistOps.callCreated calls) rt'
      (fun r _ r' _ => r.map Prod.fst = r'.map Prod.fst) := by
  have hcreate : Agree skiplistOps.create rt skiplistOps.create rt' (fun r t r' t' =>
      r.1 = r'.1 ∧ (r.1 = 0 → Alike r.2 t r'.2 t')) := by
    refine Agree.of_triples ((kvsSkiplistCreate_requested rt).and (skiplist_lawful.create rt))
      ((kvsSkiplistCreate_requested rt').and (skiplist_lawful.create rt')) ?_
    rintro r t r' t' ⟨⟨hf, ht, hc⟩, -, hr⟩ ⟨⟨hf', ht', hc'⟩, -, hr'⟩
    rw [hfails, hmallocs] at ht' hc'
    have hcode : r.1 = r'.1 := ht.trans ht'.symm
    refine ⟨hcode, fun hzero => ⟨by rw [hf, hf', hfails], hc'.trans hc.symm, ∅, ?_, ?_⟩⟩
    · rcases hr with ⟨-, hholds⟩ | ⟨hne, -⟩
      · exact hholds
      · exact absurd hzero hne
    · rcases hr' with ⟨-, hholds⟩ | ⟨hne, -⟩
      · exact hholds
      · exact absurd (hcode.symm.trans hzero) hne
  refine hcreate.bind fun r t r' t' hr => ?_
  by_cases hc : r.1 = 0
  · have hc' : r'.1 = 0 := hr.1.symm.trans hc
    simp only [hc, hc', ne_eq, not_true_eq_false, if_false]
    refine (skiplistCalls_alike (hr.2 hc) calls).bind fun rs u rs' u' hrs => Agree.pure ?_
    simpa using hrs
  · have hc' : ¬r'.1 = 0 := fun h0 => hc (hr.1.trans h0)
    simp only [ne_eq, hc, hc', not_false_eq_true, if_true]
    exact Agree.pure rfl

end

theorem skiplistCall_owns {inst : KvsSkiplist} {rt : Runtime}
    (h : ∃ m blocks, SkOwns inst rt.mallocs m blocks ∧ rt.Ledger blocks) (c : EngineCall) :
    Triple (skiplistOps.call inst c) rt
      (fun r rt' => ∃ m blocks, SkOwns r.2 rt'.mallocs m blocks ∧ rt'.Ledger blocks) Never := by
  obtain ⟨m, blocks, ho, hl⟩ := h
  obtain ⟨L, hs, hm, hb⟩ := ho
  have hholds : SkHolds inst rt.mallocs m := ⟨L, hs, hm⟩
  have hown : SkOwns inst rt.mallocs m blocks := ⟨L, hs, hm, hb⟩
  cases c with
  | write w =>
    have hl0 : rt.Ledger (blocks ++ []) := by simpa using hl
    refine (skiplist_owning.write hown hl0 w trivial).bind ?_
    rintro r rt' ⟨hext, ⟨-, m', blocks', -, ho', hl'⟩ | ⟨-, hinst, hl'⟩⟩
    · rw [List.append_nil] at hl'
      exact Triple.pure ⟨m', blocks', ho', hl'⟩
    · rw [List.append_nil] at hl'
      refine Triple.pure ⟨m, blocks, ?_, hl'⟩
      rw [hinst]
      exact skiplist_owning.later hown hext.mallocs
  | get k =>
    refine (skiplist_lawful.get hholds trivial).bind ?_
    rintro _ _ ⟨rfl, -⟩
    exact Triple.pure ⟨m, blocks, hown, hl⟩
  | exist k =>
    refine (skiplist_lawful.exist hholds trivial).bind ?_
    rintro _ _ ⟨rfl, -⟩
    exact Triple.pure ⟨m, blocks, hown, hl⟩
  | foreach =>
    refine (skiplist_lawful.foreach hholds).bind ?_
    rintro _ _ ⟨rfl, -⟩
    exact Triple.pure ⟨m, blocks, hown, hl⟩

/-- From the creation on, whatever memory fails and whatever levels are drawn:
no access is outside a forward array, the list is sound, and another choice of
levels gives the same answers. -/
theorem kvsSkiplist_sound (mallocFails coin coin' : Nat → Bool) (calls : List EngineCall) :
    Triple (skiplistOps.callCreated calls) (Runtime.start mallocFails coin)
      (fun r rt => ∀ run, r = some run → ∃ L, run.2.Sound rt L) Never ∧
    Agree (skiplistOps.callCreated calls) (Runtime.start mallocFails coin)
      (skiplistOps.callCreated calls) (Runtime.start mallocFails coin')
      (fun r _ r' _ => r.map Prod.fst = r'.map Prod.fst) := by
  have hfails : (Runtime.start mallocFails coin').mallocFails =
      (Runtime.start mallocFails coin).mallocFails := rfl
  have hmallocs : (Runtime.start mallocFails coin').mallocs =
      (Runtime.start mallocFails coin).mallocs := rfl
  refine ⟨?_, skiplistCreated_alike hfails hmallocs calls⟩
  have hrun : Triple (skiplistOps.callCreated calls) (Runtime.start mallocFails coin)
      (fun r rt => ∀ run, r = some run → ∃ m blocks, SkOwns run.2 rt.mallocs m blocks ∧
        rt.Ledger blocks) Never := by
    refine EngineOps.callCreated_keeps
      (I := fun inst rt => ∃ m blocks, SkOwns inst rt.mallocs m blocks ∧ rt.Ledger blocks) ?_ ?_
    · refine (skiplist_owning.create (ledger_start mallocFails coin)).weaken ?_
      rintro r rt ⟨-, ⟨-, blocks, ho, hl⟩ | ⟨hne, -⟩⟩ hzero
      · rw [List.append_nil] at hl
        exact ⟨∅, blocks, ho, hl⟩
      · exact absurd hzero hne
    · exact fun inst rt h c _ => skiplistCall_owns h c
  refine hrun.weaken fun r rt h run hr => ?_
  obtain ⟨m, _, ⟨L, hs, -, rfl⟩, hl⟩ := h run hr
  exact ⟨L, hs.sound hl⟩

end KvStore
