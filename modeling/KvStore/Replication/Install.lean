import KvStore.Replication.Replica
import KvStore.Server.Restart

/-!
# The snapshot of a primary in its place

Destroying the engines ends from whatever they hold, and afterwards they are
empty. `kvs_install_replication_snapshot` succeeds exactly on a file with the
checkpoint it is told, and what it cannot install leaves empty engines.
-/

namespace KvStore

open Lib

-- ---------------------------------------------------------------------------
-- The engines destroyed
-- ---------------------------------------------------------------------------

section
variable {rt : Runtime} {n fuel rounds left i : Nat} {p : Ptr} {L : List Ptr} {E : Engines} {M : Maps}

theorem OnlyMemory.freeString (s : Option CString) : OnlyMemory (KvStore.freeString s) rt :=
  fun rt₁ _ => (freeString_spec s rt₁).weaken fun _ _ h => h.1

theorem arrayClear_onlyMemory {inst : KvsArray} : OnlyMemory (arrayClear left i inst) rt := by
  induction left generalizing i inst with
  | zero => exact .pure inst
  | succ left ih => exact (OnlyMemory.freeString _).bind fun _ => (OnlyMemory.freeString _).bind fun _ => ih

theorem kvsArrayDestory_onlyMemory (inst : KvsArray) : OnlyMemory (kvsArrayDestory inst) rt := by
  unfold kvsArrayDestory
  cases inst.table with
  | none => exact .pure inst
  | some table => exact arrayClear_onlyMemory.bind fun _ => (OnlyMemory.free table).bind fun _ => .pure _

theorem chainFree_onlyMemory (nodes : List HashNode) : OnlyMemory (chainFree nodes) rt := by
  induction nodes with
  | nil => exact .pure ()
  | cons node nodes ih =>
    exact OnlyMemory.bind ((OnlyMemory.free _).bind fun _ => (OnlyMemory.free _).bind fun _ => .free _)
      fun _ => ih

theorem hashClear_onlyMemory {hash : KvsHash} : OnlyMemory (hashClear left i hash) rt := by
  induction left generalizing i hash with
  | zero => exact .pure hash
  | succ left ih => exact (chainFree_onlyMemory _).bind fun _ => ih

theorem kvsHashDestory_onlyMemory (hash : KvsHash) : OnlyMemory (kvsHashDestory hash) rt := by
  unfold kvsHashDestory
  refine hashClear_onlyMemory.bind fun hash' => ?_
  cases hash'.nodes with
  | none => exact .pure _
  | some nodes => exact (OnlyMemory.free nodes).bind fun _ => .pure _

theorem rbtreeClear_onlyMemory {inst : KvsRbtree} {t : Shape Ptr Color} (h : RbStores inst n t)
    (hfuel : n < fuel) (hrounds : t.nodes.length < rounds) :
    OnlyMemory (rbtreeClear fuel rounds inst) rt := by
  induction rounds generalizing inst t with
  | zero => exact absurd hrounds (Nat.not_lt_zero _)
  | succ rounds ih =>
    by_cases hleaf : t = .leaf
    · subst hleaf
      have hroot : inst.links.root = inst.links.nil := h.focus.nil_iff.mpr rfl
      simp only [rbtreeClear, hroot, ne_eq, not_true_eq_false, if_false]
      exact .pure inst
    · have hroot : inst.links.root ≠ inst.links.nil := fun heq => hleaf (h.focus.nil_iff.mp heq)
      obtain ⟨path, y, c, r, hmini, hf, hplug, -⟩ :=
        rbtreeMini_spec h.focus hleaf (Nat.lt_of_le_of_lt h.length_le hfuel)
      simp only [Path.plug] at hplug
      subst hplug
      obtain ⟨inst', cur, t', hdel, hgone⟩ := rbtreeDelete_spec h hf hfuel
      have hshorter : t'.nodes.length < rounds := by
        have hlength := hgone.nodes.length_eq
        rw [List.length_cons] at hlength
        omega
      simp only [rbtreeClear, ne_eq, hroot, not_false_eq_true, if_true, hmini, ofExcept_ok,
        pure_bind, hdel]
      exact (OnlyMemory.freeString _).bind fun _ => (OnlyMemory.freeString _).bind fun _ =>
        (OnlyMemory.free _).bind fun _ => ih hgone.stores hshorter

theorem kvsRbtreeDestory_onlyMemory {inst : KvsRbtree} {m : Contents} (h : RbHolds inst rt.mallocs m) :
    OnlyMemory (kvsRbtreeDestory inst) rt := by
  obtain ⟨t, h, -⟩ := h
  unfold kvsRbtreeDestory
  refine .ite (.pure inst) fun rt₁ hext => loopFuel_bind ?_
  have hlength := h.length_le
  have hmallocs := hext.mallocs
  have hclear : OnlyMemory (rbtreeClear (rt₁.mallocs + 2) (rt₁.mallocs + 2) inst) rt₁ :=
    rbtreeClear_onlyMemory h (by omega) (by omega)
  exact (hclear.bind fun inst' => (OnlyMemory.free _).bind fun _ => .pure _) rt₁ (.refl rt₁)

theorem skiplistFreeNodes_onlyMemory {inst : KvsSkiplist} (hlinked : Linked (inst.next 0) p L)
    (hheight : ∀ q ∈ L, 0 < inst.height q) (hfuel : L.length < fuel) :
    OnlyMemory (skiplistFreeNodes inst fuel (inst.next 0 p)) rt := by
  induction fuel generalizing p L with
  | zero => exact absurd hfuel (Nat.not_lt_zero _)
  | succ fuel ih =>
    cases L with
    | nil =>
      have hnext : inst.next 0 p = none := hlinked
      rw [hnext]
      exact .pure ()
    | cons q L =>
      have hnext : inst.next 0 p = some q := hlinked.1
      rw [hnext]
      simp only [skiplistFreeNodes, KvsSkiplist.forwardAt_eq (hheight q List.mem_cons_self), ofExcept_ok,
        pure_bind]
      exact (OnlyMemory.free _).bind fun _ => (OnlyMemory.free _).bind fun _ => (OnlyMemory.free _).bind
        fun _ => (OnlyMemory.free _).bind fun _ => ih hlinked.2
          (fun x hx => hheight x (List.mem_cons_of_mem q hx)) (Nat.lt_of_succ_lt_succ hfuel)

theorem kvsSkiplistDestory_onlyMemory {inst : KvsSkiplist} {m : Contents} (h : SkHolds inst rt.mallocs m) :
    OnlyMemory (kvsSkiplistDestory inst) rt := by
  obtain ⟨L, h, -⟩ := h
  unfold kvsSkiplistDestory
  refine .ite (.pure inst) fun rt₁ hext => loopFuel_bind ?_
  have hlength := h.length_le
  have hmallocs := hext.mallocs
  rw [KvsSkiplist.forwardAt_eq h.header_pos, ofExcept_ok, pure_bind]
  have hnodes : OnlyMemory (skiplistFreeNodes inst (rt₁.mallocs + 2) (inst.next 0 inst.header)) rt₁ :=
    skiplistFreeNodes_onlyMemory h.linked_all (fun q hq => (h.height q hq).1) (by omega)
  exact (hnodes.bind fun _ => (OnlyMemory.free _).bind fun _ => (OnlyMemory.free _).bind fun _ =>
    (OnlyMemory.free _).bind fun _ => (OnlyMemory.free _).bind fun _ => .pure _) rt₁ (.refl rt₁)

theorem destKvengine_onlyMemory (h : E.Hold rt.mallocs M) : OnlyMemory (destKvengine E) rt := by
  unfold destKvengine
  exact (kvsArrayDestory_onlyMemory _).bind fun _ => (kvsRbtreeDestory_onlyMemory (h .rbtree)).bind
    fun _ => (kvsHashDestory_onlyMemory _).bind fun _ => (kvsSkiplistDestory_onlyMemory (h .skiplist)).bind
      fun _ => .pure _

end

-- ---------------------------------------------------------------------------
-- Installing
-- ---------------------------------------------------------------------------

/-- What loading and installing a file leaves behind, but for the log. -/
def Server.Replaced (s : Server) (M : Maps) (s' : Server) : Prop :=
  ∃ rt' E', s' = { s with rt := rt', engines := E' } ∧ s.rt.Extends rt' ∧ E'.Hold rt'.mallocs M

/-- The server with its log cut or filled up to `offset`. -/
def Server.resetLog (s : Server) (writer : AofWriter) (offset : Nat) : Server :=
  { s with
    disk := s.disk.write writer.path (ftruncate (s.aofFile writer.path) offset)
    io := (s.io.ask (.truncate writer.path offset)).ask (.sync writer.path)
    aofWriter := some { writer with offset } }

section
variable {s s' : Server} {M M' : Maps} {path : Path} {offset : Nat} {writer : AofWriter} {f : Option Bytes}

theorem Server.Replaced.trans {s'' : Server} (h : s.Replaced M s') (h' : s'.Replaced M' s'') :
    s.Replaced M' s'' := by
  obtain ⟨rt', E', rfl, hext, -⟩ := h
  obtain ⟨rt'', E'', rfl, hext', hE'⟩ := h'
  exact ⟨rt'', E'', rfl, hext.trans hext', hE'⟩

theorem Server.Replaced.holds (h : s.Replaced M s') : s'.engines.Hold s'.rt.mallocs M := by
  obtain ⟨rt', E', rfl, -, hE'⟩ := h
  exact hE'

theorem Server.Replaced.canFail (h : s.Replaced M s') (hcan : s'.rt.CanFail) : s.rt.CanFail := by
  obtain ⟨rt', E', rfl, hext, -⟩ := h
  exact hext.canFail hcan

theorem SnapshotHolds.offset_le (h : SnapshotHolds f M (some ⟨true, offset⟩)) : offset ≤ offMax := by
  generalize hcheckpoint : some (⟨true, offset⟩ : SnapshotCheckpoint) = checkpoint at h
  cases h with
  | missing => cases hcheckpoint
  | file hfile _ _ =>
    obtain ⟨-, -, head, hwire, -⟩ := hfile
    cases hwire with
    | v1 => cases hcheckpoint
    | v2 hasOffset count o hcount ho hzero =>
      simp only [Option.some.injEq, SnapshotCheckpoint.mk.injEq, Int.natCast_inj] at hcheckpoint
      rw [hcheckpoint.2]
      exact ho

theorem recreateEngines_effect (h : s.engines.Hold s.rt.mallocs M) :
    Triple recreateEngines s (fun _ s' => s.Replaced Maps.empty s')
      (fun e => e = .exit ∧ s.rt.CanFail) := by
  unfold recreateEngines
  refine Triple.get_bind ?_
  refine onRuntime_bind (destKvengine_onlyMemory h s.rt (.refl _)) fun destroyed rt₁ hext₁ => ?_
  refine Triple.modify_bind (onRuntime_bind (initKvengine_effect rt₁) ?_)
  rintro created rt₂ ⟨hext₂, ⟨E', rfl, hE'⟩ | ⟨rfl, hcan⟩⟩
  · exact ⟨rt₂, E', rfl, hext₁.trans hext₂, hE'⟩
  · exact Triple.throw ⟨rfl, hext₁.canFail hcan⟩

/-- The log ends at the offset, or a request for its file failed. -/
theorem kvsAofResetToOffset_effect (hwriter : s.aofWriter = some writer) (hring : writer.ring = true)
    (hoffset : offset ≤ offMax) :
    Triple (kvsAofResetToOffset offset) s (fun r s' => r = 0 ∧ s' = s.resetLog writer offset ∨
      r < 0 ∧ s.io.CanFail ∧ s'.rt = s.rt ∧ s'.engines = s.engines) Never := by
  have hgood : ¬(writer.ring = false ∨ (offset : Int) < 0 ∨ (offset : Int) > offMax) := by
    rintro (hclosed | hout)
    · rw [hring] at hclosed
      cases hclosed
    · omega
  have hfails : ∀ {n failure}, s.io.fails n = some failure → s.io.CanFail :=
    fun hbad => ⟨_, fun hnone => nomatch hnone.symm.trans hbad⟩
  unfold kvsAofResetToOffset
  refine Triple.get_bind ?_
  rw [hwriter]
  dsimp only
  rw [if_neg hgood]
  refine fileRequest_bind (fun _ => ?_) fun failure hbad => ?_
  · refine Triple.modify_bind ((syncLog_spec _ _).bind fun synced s₂ h₂ => ?_)
    obtain ⟨rfl, -, rfl⟩ | ⟨rfl, failure, hbad, rfl⟩ := h₂
    · exact Triple.pure (.inl ⟨rfl, rfl⟩)
    · exact Triple.pure (.inr ⟨Int.negSucc_lt_zero 0, hfails hbad, rfl, rfl⟩)
  · exact Triple.pure (.inr ⟨Int.negSucc_lt_zero 0, hfails hbad, rfl, rfl⟩)

/-- A replica's maps are replaced by those of a file with the checkpoint it is
told, and its log ends there; any other file, and any failure, leaves nothing in
the engines. -/
theorem kvsInstallReplicationSnapshot_effect (h : s.engines.Hold s.rt.mallocs M)
    (hwriter : s.aofWriter = some writer) (hring : writer.ring = true) (path : Path) (offset : Nat) :
    Triple (kvsInstallReplicationSnapshot path offset) s (fun r s' =>
        r = true ∧ (∃ s₁ M', s' = s₁.resetLog writer offset ∧
            SnapshotHolds (s.disk path) M' (some ⟨true, offset⟩) ∧ s.Replaced M' s₁) ∨
          r = false ∧ s'.engines.Hold s'.rt.mallocs Maps.empty ∧
            (s.CanFail ∨ ∀ M', ¬SnapshotHolds (s.disk path) M' (some ⟨true, offset⟩)))
      (fun e => e = .exit ∧ s.CanFail ∨
        e = .undefined ∧ ∀ M' cp, ¬SnapshotHolds (s.disk path) M' cp) := by
  unfold kvsInstallReplicationSnapshot
  refine ((recreateEngines_effect h).mono (fun _ _ h => h) fun e he => .inl ⟨he.1, .inl he.2⟩).bind
    fun _ s₁ h₁ => ?_
  obtain ⟨hdisk, hio, hsame⟩ : s₁.disk = s.disk ∧ s₁.io = s.io ∧ s₁.aofWriter = s.aofWriter := by
    obtain ⟨_, _, rfl, -⟩ := h₁
    exact ⟨rfl, rfl, rfl⟩
  refine ((loadSnapshot_effect h₁.holds path).mono (fun _ _ h => h) fun e he => ?_).bind ?_
  · rw [hdisk] at he
    exact .inr he
  rintro ⟨result, checkpoint⟩ s₂ ⟨rt₂, E₂, M₂, rfl, hext₂, hE₂, hloaded⟩
  rw [hdisk] at hloaded
  have h₂ : s.Replaced M₂ { s₁ with rt := rt₂, engines := E₂ } := h₁.trans ⟨rt₂, E₂, rfl, hext₂, hE₂⟩
  refine Triple.ite (fun hbad => ?_) fun hgood => ?_
  · -- what is loaded is not what was announced
    refine ((recreateEngines_effect hE₂).mono (fun _ _ h => h) fun e he => ?_).bind fun _ s₃ h₃ => ?_
    · exact .inl ⟨he.1, .inl (h₂.canFail he.2)⟩
    refine Triple.pure (.inr ⟨rfl, h₃.holds, ?_⟩)
    obtain ⟨-, hholds⟩ | ⟨hresult, hholds⟩ | ⟨-, hwhy⟩ := hloaded
    · exact .inr fun M' hother => nomatch (hholds.unique hother).2
    · refine .inr fun M' hother => ?_
      obtain ⟨-, hcp⟩ := hholds.unique hother
      obtain rfl := Option.some.inj hcp
      obtain hresult' | hoffset | hoffset := hbad
      · exact hresult' hresult
      · cases hoffset
      · exact hoffset rfl
    · exact hwhy.imp (fun hcan => .inl (h₁.canFail hcan)) fun hno M' => hno M' _
  · obtain ⟨hresult, hhas, hoffset⟩ : result = 0 ∧ checkpoint.hasOffset = true ∧
        checkpoint.offset = offset := by
      simpa using hgood
    have hcheckpoint : checkpoint = ⟨true, offset⟩ := by
      cases checkpoint
      simp only at hhas hoffset
      rw [hhas, hoffset]
    have hholds : SnapshotHolds (s.disk path) M₂ (some ⟨true, offset⟩) := by
      obtain ⟨hone, -⟩ | ⟨-, hholds⟩ | ⟨hminus, -⟩ := hloaded
      · rw [hresult] at hone
        cases hone
      · rw [← hcheckpoint]
        exact hholds
      · rw [hresult] at hminus
        cases hminus
    refine ((kvsAofResetToOffset_effect (s := { s₁ with rt := rt₂, engines := E₂ })
      (hsame.trans hwriter) hring hholds.offset_le).mono (fun _ _ h => h) fun _ h => h.elim).bind ?_
    rintro r s₃ (⟨rfl, rfl⟩ | ⟨hfailed, hcan, hrt, hengines⟩)
    · exact Triple.pure (.inl ⟨rfl, _, M₂, rfl, hholds, h₂⟩)
    · -- the log could not be cut or made durable
      rw [if_pos hfailed]
      have hholds₃ : s₃.engines.Hold s₃.rt.mallocs M₂ := by
        rw [hrt, hengines]
        exact hE₂
      have hcan : s.CanFail := .inr (hio ▸ hcan)
      refine ((recreateEngines_effect hholds₃).mono (fun _ _ h => h) fun e he => .inl ⟨he.1, hcan⟩).bind
        fun _ s₄ h₄ => ?_
      exact Triple.pure (.inr ⟨rfl, h₄.holds, .inl hcan⟩)

end

end KvStore
