import KvStore.Server.Recovery

/-!
# Replay reads exactly the commands of a log

`kvs_aof_replay` for every handler. What it does is stated as a program that
calls the handler on the commands the log splits into, one after the other; the
two are equal, whatever the handler does and returns. A log that was written by
`kvs_aof_append` and cut anywhere splits into the records before the cut.
-/

namespace KvStore.Replaying

open Lib

section
variable {σ : Type}

/-- The greedy split: the commands at the start of `input`, one behind the
other, and the bytes at which none starts. -/
inductive Splits : Bytes → List (List Bytes) → Bytes → Prop
  | stop (h : ∀ r rest, kvsParseCommand 3 input ≠ .done r rest) : Splits input [] input
  | next (h : kvsParseCommand 3 input = .done (fields, n) rest) (hrest : Splits rest commands r) :
      Splits input (fields :: commands) r

def callAll (handler : List Bytes → Program σ Stop Int) : List (List Bytes) → Program σ Stop Bool
  | [] => return true
  | fields :: rest => do
    let result ← handler fields
    if 1 ≤ result ∧ result ≤ 1024 then callAll handler rest else return false

theorem splits_exists (input : Bytes) : ∃ commands rest, Splits input commands rest := by
  induction hlen : input.length using Nat.strongRecOn generalizing input with
  | ind length ih =>
    cases hparse : kvsParseCommand 3 input with
    | more => exact ⟨[], input, .stop fun r rest h => by rw [hparse] at h; cases h⟩
    | error => exact ⟨[], input, .stop fun r rest h => by rw [hparse] at h; cases h⟩
    | done r rest =>
      obtain ⟨fields, n⟩ := r
      obtain ⟨hpos, hle, hrest⟩ := kvsParseCommand_rest hparse
      obtain ⟨commands, r, hsplit⟩ := ih rest.length (by rw [hrest, List.length_drop]; omega) rest rfl
      exact ⟨fields :: commands, r, .next hparse hsplit⟩

theorem Splits.unique (h : Splits input commands r) (h' : Splits input commands' r') :
    commands = commands' ∧ r = r' := by
  induction h generalizing commands' with
  | stop hnone =>
    cases h' with
    | stop _ => exact ⟨rfl, rfl⟩
    | next hparse _ => exact absurd hparse (hnone _ _)
  | next hparse _ ih =>
    cases h' with
    | stop hnone => exact absurd hparse (hnone _ _)
    | next hparse' hrest' =>
      rw [hparse] at hparse'
      cases hparse'
      obtain ⟨rfl, rfl⟩ := ih hrest'
      exact ⟨rfl, rfl⟩

/-- The loop is the calls on the commands; it ends well when they all do and
nothing is left over. -/
theorem replayLoop_eq (handler : List Bytes → Program σ Stop Int) (h : Splits input commands r)
    (hrounds : input.length ≤ rounds) :
    replayLoop handler rounds input = (do
      let ok ← callAll handler commands
      return if ok ∧ r = [] then 0 else -1) := by
  induction h generalizing rounds with
  | @stop input hnone =>
    cases input with
    | nil => cases rounds <;> rfl
    | cons b input =>
      obtain ⟨rounds, rfl⟩ : ∃ n, rounds = n + 1 :=
        ⟨rounds - 1, by simp only [List.length_cons] at hrounds; omega⟩
      unfold replayLoop
      split
      · rename_i fields n rest hparse
        exact absurd hparse (hnone _ _)
      · simp [callAll]
  | @next input fields n rest commands r hparse hrest ih =>
    obtain ⟨hpos, hle, hdrop⟩ := kvsParseCommand_rest hparse
    cases input with
    | nil => simp only [List.length_nil] at hle; omega
    | cons b input =>
      obtain ⟨rounds, rfl⟩ : ∃ n, rounds = n + 1 :=
        ⟨rounds - 1, by simp only [List.length_cons] at hrounds; omega⟩
      unfold replayLoop
      simp only [hparse, callAll, bind_assoc]
      rw [if_neg (by omega)]
      refine bind_congr fun result => ?_
      by_cases hgood : 1 ≤ result ∧ result ≤ 1024
      · rw [if_neg (by omega), if_pos hgood, ← hdrop]
        refine ih ?_
        rw [hdrop, List.length_drop]
        simp only [List.length_cons] at hrounds hle ⊢
        omega
      · rw [if_pos (by omega), if_neg hgood, pure_bind]
        rfl

end

-- ---------------------------------------------------------------------------
-- Logs
-- ---------------------------------------------------------------------------

/-- Calls of `kvs_aof_append`, with their results. -/
def appendAll : List (List Bytes) → Serve (List Int)
  | [] => return []
  | tokens :: rest => do
    let code ← kvsAofAppend tokens
    let codes ← appendAll rest
    return code :: codes

structure Record (tokens : List Bytes) : Prop where
  count : tokens.length = 2 ∨ tokens.length = 3
  size : (encodeFields tokens).length ≤ sizeMax

def logOf (records : List (List Bytes)) : Bytes := records.flatMap encodeFields

def accepted (commands : List (List Bytes)) (codes : List Int) : List (List Bytes) :=
  ((commands.zip codes).filter (·.2 = 0)).map Prod.fst

def AtEnd (s : Server) (path : Path) (file : Bytes) : Prop :=
  s.aofWriter = some ⟨path, file.length, true⟩ ∧ s.aofFile path = file

/-- The file starts with `log`, and the writer stands behind it. What a failed
request has left may follow. -/
structure Ends (s : Server) (path : Path) (log : Bytes) : Prop where
  writer : ∃ ring, s.aofWriter = some ⟨path, log.length, ring⟩
  starts : (s.aofFile path).take log.length = log
  whole : ¬s.io.CanFail → s.aofFile path = log

theorem AtEnd.ends {s : Server} (h : AtEnd s path file) : Ends s path file :=
  ⟨⟨true, h.1⟩, by rw [h.2, List.take_length], fun _ => h.2⟩

theorem take_pwrite {file log : Bytes} (h : file.take log.length = log) (data : Bytes) :
    (pwrite file log.length data).take log.length = log ∧
      (pwrite file log.length data).take (log ++ data).length = log ++ data := by
  have hlength : log.length - file.length = 0 := by
    have htake := congrArg List.length h
    rw [List.length_take] at htake
    omega
  have hpwrite : pwrite file log.length data = (log ++ data) ++ file.drop (log.length + data.length) := by
    rw [pwrite, h, hlength, List.replicate_zero, List.append_nil]
  rw [hpwrite]
  exact ⟨by rw [List.append_assoc, List.take_left], List.take_left⟩

theorem kvsAofAppend_ends (tokens : List Bytes) {s : Server} (h : Ends s path log) :
    Triple (kvsAofAppend tokens) s (fun code s' => s'.io.fails = s.io.fails ∧
      (code = 0 ∧ Record tokens ∧ Ends s' path (log ++ encodeFields tokens) ∨
        code ≠ 0 ∧ Ends s' path log)) Never := by
  obtain ⟨⟨ring, hw⟩, hstarts, hwhole⟩ := h
  have htake := take_pwrite hstarts (encodeFields tokens)
  have hbreaks : ∀ {n failure}, s.io.fails n = some failure → s.io.CanFail := fun hfail =>
    ⟨_, fun hnone => Option.some_ne_none _ (hfail.symm.trans hnone)⟩
  refine (kvsAofAppend_cases tokens s).weaken fun code s' happend => ?_
  cases happend with
  | done hw' hcount hsize _ _ =>
    obtain rfl := Option.some.inj (hw.symm.trans hw')
    refine ⟨append_fails .., .inl ⟨rfl, ⟨hcount, hsize⟩, ⟨ring, ?_⟩, ?_, fun hio => ?_⟩⟩
    · simp [Server.append, hw]
    · simp only [Server.append, hw, Server.aofFile, Disk.write_self, Option.getD_some]
      exact htake.2
    · have hfile : (s.disk path).getD [] = log := by
        refine hwhole fun hcan => hio ?_
        rw [FileIo.CanFail, append_fails]
        exact hcan
      simp only [Server.append, hw, Server.aofFile, Disk.write_self, Option.getD_some]
      rw [hfile, pwrite_end]
  | nothing _ _ => exact ⟨rfl, .inr ⟨by decide, ⟨ring, hw⟩, hstarts, hwhole⟩⟩
  | written hw' hfail =>
    obtain rfl := Option.some.inj (hw.symm.trans hw')
    refine ⟨rfl, .inr ⟨by decide, ⟨_, rfl⟩, ?_, fun hio => absurd (hbreaks hfail) hio⟩⟩
    simp only [Server.aofFile, Server.wrote, Disk.write_self, Option.getD_some]
    exact (take_pwrite hstarts _).1
  | unsynced hw' hfail =>
    obtain rfl := Option.some.inj (hw.symm.trans hw')
    refine ⟨rfl, .inr ⟨by decide, ⟨_, rfl⟩, ?_, fun hio => absurd (hbreaks hfail) hio⟩⟩
    simp only [Server.aofFile, Server.wrote, Disk.write_self, Option.getD_some, List.take_length]
    exact htake.1

theorem AtEnd.append {s : Server} (h : AtEnd s path log) (tokens : List Bytes) :
    AtEnd (s.append tokens) path (log ++ encodeFields tokens) := by
  obtain ⟨hw, hfile⟩ := h
  unfold Server.append
  simp only [hw, AtEnd, Server.aofFile, Disk.write_self, Option.getD_some, List.length_append, true_and]
  have hlog : (s.disk path).getD [] = log := hfile
  rw [hlog, pwrite_end]

theorem kvsAofAppend_atEnd (tokens : List Bytes) {s : Server} (h : AtEnd s path log) :
    Triple (kvsAofAppend tokens) s (fun code s' => code = 0 →
      Record tokens ∧ AtEnd s' path (log ++ encodeFields tokens)) Never := by
  refine (kvsAofAppend_cases tokens s).weaken fun code s' happend hzero => ?_
  cases happend with
  | done _ hcount hsize _ _ => exact ⟨⟨hcount, hsize⟩, h.append tokens⟩
  | nothing | written | unsynced => cases hzero

theorem kvsAofAppend_accepts (h : AtEnd s path log) (hmemory : ¬s.rt.CanFail) (hio : ¬s.io.CanFail)
    (hcount : tokens.length = 2 ∨ tokens.length = 3)
    (hroom : (log ++ encodeFields tokens).length ≤ offMax) :
    Triple (kvsAofAppend tokens) s (fun code s' => code = 0 ∧ ¬s'.rt.CanFail ∧ ¬s'.io.CanFail ∧
      AtEnd s' path (log ++ encodeFields tokens)) Never := by
  have hw := h.1
  have htakes : s.LogTakes tokens := by
    refine ⟨?_, ?_, .of_not_canFail hio 2⟩
    · rintro ⟨writer, hwriter, hfull⟩
      rw [hw, Option.mem_def, Option.some.injEq] at hwriter
      subst hwriter
      rw [List.length_append] at hroom
      exact absurd hroom (Nat.not_le.mpr hfull)
    · rintro writer hwriter
      rw [hw, Option.mem_def, Option.some.injEq] at hwriter
      rw [← hwriter]
  refine (kvsAofAppend_spec hw hcount).weaken fun code s' hcode => ?_
  obtain ⟨rfl, -, rt', hext, rfl⟩ | ⟨-, hcan | hno⟩ := hcode
  · refine ⟨rfl, fun hcan => hmemory (hext.canFail hcan), ?_, ?_⟩
    · rw [FileIo.CanFail, append_fails]
      exact hio
    · exact h.append tokens
  · exact absurd hcan hmemory
  · exact absurd htakes hno

theorem appendAll_log (commands : List (List Bytes)) {s : Server} (h : Ends s path log) :
    Triple (appendAll commands) s (fun codes s' => codes.length = commands.length ∧
      s'.io.fails = s.io.fails ∧ Ends s' path (log ++ logOf (accepted commands codes)) ∧
      ∀ r ∈ accepted commands codes, Record r) Never := by
  induction commands generalizing s log with
  | nil => exact Triple.pure ⟨rfl, rfl, by simpa [accepted, logOf] using h, by simp [accepted]⟩
  | cons tokens rest ih =>
    refine (kvsAofAppend_ends tokens h).bind fun code s₁ h₁ => ?_
    obtain ⟨hfails, ⟨rfl, hrecord, hend⟩ | ⟨hne, hend⟩⟩ := h₁
    · refine (ih hend).bind fun codes s₂ h₂ => ?_
      obtain ⟨hlen, hfails₂, hend₂, hall⟩ := h₂
      have haccepted : accepted (tokens :: rest) (0 :: codes) = tokens :: accepted rest codes := by
        simp [accepted]
      refine Triple.pure ⟨by simp [hlen], hfails₂.trans hfails, ?_, ?_⟩
      · rw [haccepted, logOf, List.flatMap_cons, ← List.append_assoc]
        exact hend₂
      · rw [haccepted]
        exact List.forall_mem_cons.mpr ⟨hrecord, hall⟩
    · refine (ih hend).bind fun codes s₂ h₂ => ?_
      obtain ⟨hlen, hfails₂, hend₂, hall⟩ := h₂
      have haccepted : accepted (tokens :: rest) (code :: codes) = accepted rest codes := by
        simp [accepted, hne]
      rw [← haccepted] at hend₂ hall
      exact Triple.pure ⟨by simp [hlen], hfails₂.trans hfails, hend₂, hall⟩

theorem kvsParseCommand_record (h : Record tokens) (t : Bytes) :
    kvsParseCommand 3 (encodeFields tokens ++ t) = .done (tokens, (encodeFields tokens).length) t := by
  have hcount := h.count
  have hne : tokens ≠ [] := by
    rintro rfl
    simp at hcount
  exact kvsParseCommandLimited_encodeFields hne (by omega) h.size (Nat.le_refl _) t

def boundary (records : List (List Bytes)) (k : Nat) : Nat := (logOf (records.take k)).length

theorem boundary_succ (tokens : List Bytes) (records : List (List Bytes)) (k : Nat) :
    boundary (tokens :: records) (k + 1) = (encodeFields tokens).length + boundary records k := by
  simp [boundary, logOf]

/-- A cut log splits into the records before the cut; what is left over is empty
when the cut is at the end of a record. -/
theorem splits_cut (records : List (List Bytes)) (hall : ∀ r ∈ records, Record r) (n : Nat)
    (hn : n ≤ (logOf records).length) :
    ∃ k rest, k ≤ records.length ∧ Splits ((logOf records).take n) (records.take k) rest ∧
      (∀ j < records.length, j < k ↔ boundary records (j + 1) ≤ n) ∧
      (rest = [] ↔ n = boundary records k) ∧ boundary records k ≤ n := by
  induction records generalizing n with
  | nil =>
    refine ⟨0, [], Nat.le_refl _, ?_, by simp, ?_, Nat.zero_le _⟩
    · rw [logOf, List.flatMap_nil, List.take_nil]
      refine .stop fun r rest h => ?_
      rw [kvsParseCommand_nil 3 (by decide)] at h
      cases h
    · simp only [true_iff]
      exact Nat.le_zero.mp hn
  | cons tokens records ih =>
    obtain ⟨hrecord, hrest⟩ := List.forall_mem_cons.mp hall
    have hlog : logOf (tokens :: records) = encodeFields tokens ++ logOf records := List.flatMap_cons ..
    rw [hlog] at hn ⊢
    by_cases hwhole : (encodeFields tokens).length ≤ n
    · obtain ⟨k, rest, hk, hsplit, hbefore, hempty, hle⟩ := ih hrest (n - (encodeFields tokens).length)
        (by rw [List.length_append] at hn; omega)
      have htake : (encodeFields tokens ++ logOf records).take n =
          encodeFields tokens ++ (logOf records).take (n - (encodeFields tokens).length) := by
        rw [List.take_append, List.take_of_length_le hwhole]
      refine ⟨k + 1, rest, by simpa using hk, ?_, ?_, ?_, ?_⟩
      · rw [htake, List.take_succ_cons]
        exact .next (kvsParseCommand_record hrecord _) hsplit
      · intro j hj
        cases j with
        | zero =>
          rw [boundary_succ]
          simp [boundary, logOf, hwhole]
        | succ j =>
          have := hbefore j (by simpa using hj)
          rw [boundary_succ]
          omega
      · rw [hempty, boundary_succ]
        omega
      · rw [boundary_succ]
        omega
    · -- a record that is cut never reads as a complete one
      refine ⟨0, encodeFields tokens |>.take n, Nat.zero_le _, ?_, ?_, ?_, Nat.zero_le _⟩
      · have htake : (encodeFields tokens ++ logOf records).take n = (encodeFields tokens).take n := by
          rw [List.take_append_of_le_length (by omega)]
        rw [htake]
        refine .stop fun r rest h => ?_
        have hread := kvsParseCommand_record hrecord []
        rw [List.append_nil, ← List.take_append_drop n (encodeFields tokens)] at hread
        have hmore := (kvsParseCommand_online 3).part_more hread (by
          rw [ne_eq, ← List.length_eq_zero_iff, List.length_drop]
          omega)
        rw [hmore] at h
        cases h
      · intro j hj
        rw [boundary_succ]
        omega
      · rw [← List.length_eq_zero_iff, List.length_take]
        simp only [boundary, List.take_zero, logOf, List.flatMap_nil, List.length_nil]
        omega

def tailFrom (file : Bytes) (offset : Nat) : Bytes := file.drop offset

theorem kvsAofReplay_eq {σ : Type} (handler : List Bytes → Program σ Stop Int) (file : Bytes)
    (offset : Nat) (h : Splits (tailFrom file offset) commands r) :
    kvsAofReplay (some file) offset handler = (do
      let ok ← callAll handler commands
      return if ok ∧ r = [] then 0 else -1) := by
  have htail : file.drop (if (offset : Int) < file.length then (offset : Int).toNat else file.length) =
      tailFrom file offset := by
    unfold tailFrom
    split
    · rfl
    · rw [List.drop_length, List.drop_eq_nil_of_le (by omega)]
  rw [kvsAofReplay, if_neg (by omega)]
  simp only [htail]
  refine replayLoop_eq handler h ?_
  rw [tailFrom, List.length_drop]
  omega

/-- Replay is exact. The tail of a file splits into commands and a remainder in
one way; for every handler, replay is the calls on these commands in order, up
to the first whose result is not in `1..1024`, and returns zero exactly when
all succeeded and nothing remains. For a log written by `kvs_aof_append` and
cut at any byte the commands are the records wholly before the cut, and nothing
remains exactly when the cut is at the end of a record. -/
theorem kvsAofReplay_exact {σ : Type} :
    (∀ (file : Bytes) (offset : Nat), ∃ commands r, Splits (tailFrom file offset) commands r ∧
      (∀ commands' r', Splits (tailFrom file offset) commands' r' → commands' = commands ∧ r' = r) ∧
      ∀ handler : List Bytes → Program σ Stop Int,
        kvsAofReplay (some file) offset handler = (do
          let ok ← callAll handler commands
          return if ok ∧ r = [] then 0 else -1)) ∧
    (∀ (path : Path) (s : Server) (commands : List (List Bytes)), AtEnd s path [] →
      Triple (appendAll commands) s (fun codes s' => ∃ records, records = accepted commands codes ∧
        (s'.aofFile path).take (logOf records).length = logOf records ∧
        (¬s.io.CanFail → s'.aofFile path = logOf records) ∧
        ∀ n ≤ (logOf records).length, ∃ k ≤ records.length,
          (∀ j < records.length, j < k ↔ boundary records (j + 1) ≤ n) ∧
          ∀ handler : List Bytes → Program σ Stop Int,
            kvsAofReplay (some ((s'.aofFile path).take n)) 0 handler = (do
              let ok ← callAll handler (records.take k)
              return if ok ∧ n = boundary records k then 0 else -1)) Never) := by
  constructor
  · intro file offset
    obtain ⟨commands, r, hsplit⟩ := splits_exists (tailFrom file offset)
    refine ⟨commands, r, hsplit, fun commands' r' h => ?_, fun handler =>
      kvsAofReplay_eq handler file offset hsplit⟩
    exact h.unique hsplit
  · intro path s commands hend
    refine (appendAll_log commands hend.ends).weaken fun codes s' h => ?_
    obtain ⟨-, hfails, hends, hall⟩ := h
    rw [List.nil_append] at hends
    refine ⟨_, rfl, hends.starts, fun hio => hends.whole ?_, fun n hn => ?_⟩
    · rw [FileIo.CanFail, hfails]
      exact hio
    obtain ⟨k, rest, hk, hsplit, hbefore, hempty, -⟩ := splits_cut _ hall n hn
    refine ⟨k, hk, hbefore, fun handler => ?_⟩
    have hcut : (s'.aofFile path).take n = (logOf (accepted commands codes)).take n := by
      rw [← hends.starts, List.take_take, Nat.min_eq_left (hends.starts.symm ▸ hn)]
    rw [hcut]
    have heq := kvsAofReplay_eq handler ((logOf (accepted commands codes)).take n) 0 hsplit
    simp only [hempty] at heq
    exact heq

/-- A log of two writes, cut inside the second: the handler sees the first, and
replay fails. -/
theorem kvsAofReplay_exact_cut : ∃ (s s' : Server), AtEnd s .commandsAof [] ∧
    appendAll [[ascii "SET", [107], [118]], [ascii "DEL", [107]]] s = .ok ([0, 0], s') ∧
    ∀ handler : List Bytes → Program Unit Stop Int,
      kvsAofReplay (some ((s'.aofFile .commandsAof).take 40)) 0 handler = (do
        let _ ← callAll handler [[ascii "SET", [107], [118]]]
        return -1) := by
  obtain ⟨s, hend, hmemory, hio⟩ : ∃ s : Server, AtEnd s .commandsAof [] ∧ ¬s.rt.CanFail ∧ ¬s.io.CanFail := by
    have hmemory := Runtime.not_canFail_start fun _ => false
    obtain ⟨_, rt, -, hext, E, -, -⟩ := (initKvengine_spec hmemory).run
    exact ⟨⟨rt, E, fun _ => none, .start fun _ => none, some ⟨.commandsAof, 0, true⟩, .primary, .aof, .start⟩,
      ⟨rfl, rfl⟩, fun hcan => hmemory (hext.canFail hcan), FileIo.not_canFail_start⟩
  have htriple : Triple (appendAll [[ascii "SET", [107], [118]], [ascii "DEL", [107]]]) s
      (fun codes _ => codes = [0, 0]) Never := by
    refine (kvsAofAppend_accepts hend hmemory hio (.inr rfl) (by decide)).bind fun code₁ s₁ h₁ => ?_
    obtain ⟨rfl, hmemory₁, hio₁, hend₁⟩ := h₁
    refine Triple.bind (P := fun codes _ => codes = [0]) ?_ fun codes _ h => Triple.pure (congrArg (0 :: ·) h)
    refine (kvsAofAppend_accepts hend₁ hmemory₁ hio₁ (.inl rfl) (by decide)).bind fun code₂ s₂ h₂ => ?_
    obtain ⟨rfl, -⟩ := h₂
    exact Triple.pure rfl
  obtain ⟨_, s', hrun, rfl⟩ := htriple.run
  refine ⟨s, s', hend, hrun, fun handler => ?_⟩
  obtain ⟨_, rfl, -, -, hcut⟩ := ((kvsAofReplay_exact (σ := Unit)).2 .commandsAof s _ hend).post hrun
  obtain ⟨k, hk, hbefore, hreplay⟩ := hcut 40 (by decide)
  -- the records end at 27 and at 47
  have hfirst : 0 < k := (hbefore 0 (by decide)).mpr (by decide)
  have hsecond : ¬1 < k := fun h => absurd ((hbefore 1 (by decide)).mp h) (by decide)
  obtain rfl : k = 1 := by omega
  rw [hreplay handler]
  refine bind_congr fun ok => ?_
  rw [if_neg fun h => absurd h.2 (by decide)]

end KvStore.Replaying
