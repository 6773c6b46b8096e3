import KvStore.Server.CommandLaws

/-!
# A client's commands on a server that is no replica

One command of a client changes the maps and is answered as the specification
says; by induction so does every sequence of commands.
-/

namespace KvStore

open Lib

variable {s : Server} {M : Maps} {e : EngineId} {k v : Bytes} {cmd : CommandId}
  {fields : List Bytes} {source : CommandSource} {output : OutputBuffer}

-- ---------------------------------------------------------------------------
-- One command of the table
-- ---------------------------------------------------------------------------

theorem redo_of_not_found (h : findCommand (fields.headD []) = none) : M.redo fields = none := by
  unfold Maps.redo logged
  simp only [h, ite_self]

theorem redo_of_arity (h : findCommand (fields.headD []) = some cmd)
    (harity : fields.length ≠ cmd.op.arity) : M.redo fields = none := by
  unfold Maps.redo logged
  simp only [h, harity, and_false, if_false, ite_self]

theorem redo_of_nul (h : ∃ field ∈ fields, 0 ∈ field) : M.redo fields = none := by
  unfold Maps.redo logged
  simp only [h, if_true]

theorem took_kept (h : s.engines.Hold s.rt.mallocs M) (hredo : M.redo fields = none)
    (hext : s.rt.Extends rt') : s.Took M source fields { s with rt := rt' } := by
  refine ⟨s, rt', s.engines, .kept fun _ => hredo, rfl, hext, ?_⟩
  rw [hredo]
  exact h.later hext.mallocs

theorem clientReply_perform (hop : cmd.op ≠ .get) :
    clientReply cmd.op (M.perform cmd k v).2 = M.dataReply cmd k := by
  obtain ⟨e, op⟩ := cmd
  cases op with
  | get => exact absurd rfl hop
  | set | mod | exist =>
    simp only [Maps.perform, Maps.dataReply]
    split <;> rfl
  | del =>
    simp only [Maps.perform, Maps.dataReply]
    split
    · rfl
    · split <;> rfl

theorem clientReply_short (op : Op) (status : ExecStatus) :
    (clientReply op status).length ≤ bufferLength := by
  cases op <;> cases status <;> decide

theorem runCommand_spec (h : s.engines.Hold s.rt.mallocs M)
    (hcmd : Dispatched fields cmd) (hadmits : cmd.engine.Admits (fields.getD 1 []))
    (hop : cmd.op ≠ .get) (hallowed : ¬(s.role = .replica ∧ source = .client ∧ cmd.op.isWrite))
    (hlog : s.Logs source → s.aofWriter.isSome) (hroom : 10 < output.available) :
    Triple (runCommand fields (some cmd) output source) s (fun ex s' =>
      (s.Took M source fields s' ∧
        ex.status = (M.perform cmd (fields.getD 1 []) (fields.getD 2 [])).2 ∨
        s.OutOfMemory s' ∧ ex.status = .failed) ∧ ex.output = output ∧
      if source = .client then ex.reply = replyIfFits output.available (clientReply cmd.op ex.status)
      else ∃ text, ex.reply = some text ∧ 0 < text.length ∧ text.length ≤ 10)
      (s.LogFails M source fields) := by
  unfold runCommand
  split
  · rename_i hget
    simp only [Option.some.injEq] at hget
    exact absurd (by rw [hget]) hop
  · unfold kvsExecuteTokens
    simp only [bind_assoc, pure_bind]
    refine (kvsFilterProtocol_spec h hcmd hadmits hop hallowed hlog).bind fun r s' hr => ?_
    obtain ⟨hcases, hpos, hlen⟩ := hr
    simp only [show ¬r.1.length ≥ output.available by omega, if_false, Option.isSome_some, if_true]
    cases source with
    | client => exact Triple.pure ⟨hcases, rfl, by simp only [if_true]⟩
    | recovery | replication =>
      refine Triple.pure ⟨hcases, rfl, ?_⟩
      simp only [reduceCtorEq, if_false]
      exact ⟨r.1, rfl, hpos, hlen⟩

theorem runCommand_get (h : s.engines.Hold s.rt.mallocs M) (hfail : ¬s.rt.CanFail)
    (hcmd : Dispatched fields cmd) (hadmits : cmd.engine.Admits (fields.getD 1 []))
    (hop : cmd.op = .get) (hready : output.Ready) (hsized : M.Sized) :
    Triple (runCommand fields (some cmd) output source) s (fun ex s' =>
      s.Took M source fields s' ∧ ex.Replies output (M.dataReply cmd (fields.getD 1 []))) Never := by
  obtain ⟨e, op⟩ := cmd
  obtain rfl : op = .get := hop
  obtain ⟨name, key, rfl⟩ : ∃ name key, fields = [name, key] := List.length_eq_two.mp hcmd.arity
  have hredo : M.redo [name, key] = none := by
    rw [hcmd.redo M hadmits]
    rfl
  change Triple _ s (fun (ex : Executed) s' => s.Took M source [name, key] s' ∧
    ex.Replies output (M.dataReply ⟨e, .get⟩ key)) Never
  unfold runCommand getReply kvsGetValue
  simp only [bind_assoc]
  refine Triple.get_bind (onRuntime_bind (e.lawful.get (h e) hadmits) fun r rt' hr => ?_)
  obtain ⟨rfl, rfl⟩ := hr
  cases hv : (M e).lookup key with
  | none =>
    have hreply : M.dataReply ⟨e, .get⟩ key = ascii "$-1\r\n" := by
      simp [Maps.dataReply, hv]
    refine Triple.pure ⟨took_kept h hredo (.refl _), ?_⟩
    rw [hreply]
    exact replies_short hready _ (by decide) _
  | some value =>
    have hreply : M.dataReply ⟨e, .get⟩ key = encodeField value := by
      simp [Maps.dataReply, hv]
    have hvalue := (hsized e key value hv).2.2.2
    refine onRuntime_bind (kvsEncodeValueToOutput_spec hfail hready value hvalue .failed)
      fun r rt' hr => ?_
    obtain ⟨hext, hreplies⟩ := hr
    refine Triple.pure ⟨took_kept h hredo hext, ?_⟩
    rw [hreply]
    exact hreplies

-- ---------------------------------------------------------------------------
-- Snapshots
-- ---------------------------------------------------------------------------

theorem kvsSaveCurrentSnapshot_spec (h : s.engines.Hold s.rt.mallocs M) (hfail : ¬s.rt.CanFail)
    (hstorable : M.Storable) (hlog : s.Logs .client → s.aofWriter.isSome)
    (hname : findCommand (fields.headD []) = none) :
    Triple kvsSaveCurrentSnapshot s (fun saved s' => s.Took M .client fields s' ∧
      (saved = false ↔ s.persistenceMode = .aof ∨ offMax < M.snapshotSize)) Never := by
  have hredo : M.redo fields = none := redo_of_not_found hname
  have hsaved : ∀ rt' path offset records, s.rt.Extends rt' →
      s.snapshotTarget = some (path, offset) → Lists M records → M.snapshotSize ≤ offMax →
      s.Took M .client fields
        { s with rt := rt', disk := s.disk.write path (savedFile offset records) } := by
    intro rt' path offset records hext htarget hlists hsize
    refine ⟨_, rt', s.engines, .saved hname htarget hlists hsize, rfl, hext, ?_⟩
    rw [hredo]
    exact h.later hext.mallocs
  have hsave := kvsSnapshotStoreSaveWithCheckpoint_spec h hfail hstorable.lengths
  unfold kvsSaveCurrentSnapshot
  refine Triple.get_bind ?_
  cases hmode : s.persistenceMode with
  | aof => exact Triple.pure ⟨took_kept h hredo (.refl _), by simp⟩
  | snapshot =>
    refine onRuntime_bind (hsave none) fun r rt' hr => ?_
    obtain ⟨hext, records, hlists, rfl⟩ := hr
    by_cases hsize : M.snapshotSize ≤ offMax
    · simp only [hsize, if_true]
      have htarget : s.snapshotTarget = some (.snapshotBin, none) := by
        simp [Server.snapshotTarget, hmode]
      exact ⟨hsaved rt' _ _ records hext htarget hlists hsize, by simp; omega⟩
    · simp only [hsize, if_false]
      exact Triple.pure ⟨took_kept h hredo hext, by simp; omega⟩
  | legacyHybrid =>
    obtain ⟨writer, hw⟩ := Option.isSome_iff_exists.mp (hlog ⟨by decide, by simp [hmode]⟩)
    simp only [Server.aofOffset, hw, Option.map_some]
    refine onRuntime_bind (hsave (some writer.offset)) fun r rt' hr => ?_
    obtain ⟨hext, records, hlists, rfl⟩ := hr
    by_cases hsize : M.snapshotSize ≤ offMax
    · simp only [hsize, if_true]
      have htarget : s.snapshotTarget = some (.snapshotDb, some writer.offset) := by
        simp [Server.snapshotTarget, hmode, hw]
      exact ⟨hsaved rt' _ _ records hext htarget hlists hsize, by simp; omega⟩
    · simp only [hsize, if_false]
      exact Triple.pure ⟨took_kept h hredo hext, by simp; omega⟩

theorem saveReply_spec (h : s.engines.Hold s.rt.mallocs M) (hfail : ¬s.rt.CanFail)
    (hstorable : M.Storable) (hlog : s.Logs .client → s.aofWriter.isSome)
    (hname : findCommand (fields.headD []) = none) (fieldCount : Nat) :
    Triple (saveReply fieldCount) s (fun reply s' => s.Took M .client fields s' ∧
      reply = if fieldCount = 1 then M.saveAnswer s.persistenceMode
        else ascii "-ERR wrong number of arguments for SAVE\r\n") Never := by
  unfold saveReply
  refine Triple.ite ?_ ?_
  · intro hcount
    exact Triple.pure ⟨took_kept h (redo_of_not_found hname) (.refl _), by rw [if_neg hcount]⟩
  · intro hcount
    rw [if_pos (not_not.mp hcount)]
    refine (kvsSaveCurrentSnapshot_spec h hfail hstorable hlog hname).bind fun saved s' hr => ?_
    obtain ⟨htook, hfailed⟩ := hr
    cases saved with
    | false => exact Triple.pure ⟨htook, by rw [Maps.saveAnswer, if_pos (hfailed.mp rfl)]⟩
    | true =>
      refine Triple.pure ⟨htook, ?_⟩
      rw [Maps.saveAnswer, if_neg fun hno => Bool.noConfusion (hfailed.mpr hno)]

-- ---------------------------------------------------------------------------
-- Every command
-- ---------------------------------------------------------------------------

/-- A server that takes commands of clients: the engines hold `M`, memory is
there, and the log is open if there is one. -/
structure Server.Serving (s : Server) (M : Maps) : Prop where
  holds : s.engines.Hold s.rt.mallocs M
  memory : ¬s.rt.CanFail
  sized : M.Sized
  role : s.role ≠ .replica
  log : s.Logs .client → s.aofWriter.isSome

theorem findCommand_length (h : findCommand name = some cmd) : name.length ≤ 6 := by
  simp only [findCommand, Option.map_eq_some_iff] at h
  obtain ⟨entry, hfind, -⟩ := h
  have hname := List.find?_some hfind
  simp only [strcmp_eq_zero, decide_eq_true_eq] at hname
  have hmem := List.mem_of_find?_eq_some hfind
  have hall : ∀ entry ∈ command, entry.1.length ≤ 6 := by decide
  rw [hname]
  exact hall entry hmem

theorem hashKeyInRange_iff :
    HashKeyInRange fields ↔ ∀ cmd, Dispatched fields cmd → cmd.engine.Admits (fields.getD 1 []) := by
  constructor
  · rintro h ⟨e, op⟩ hcmd
    cases e with
    | hash =>
      exact h op _ hcmd.found hcmd.key hcmd.arity fun field hmem hnul => hcmd.plain ⟨field, hmem, hnul⟩
    | array | rbtree | skiplist => trivial
  · intro h op k hfound hk harity hplain
    have hadmits := h ⟨.hash, op⟩ ⟨fun ⟨field, hmem, hnul⟩ => hplain field hmem hnul, hfound, harity⟩
    rw [List.getD_eq_getElem?_getD, hk] at hadmits
    exact hadmits

theorem HashKeyInRange.admits (h : HashKeyInRange fields) (hcmd : Dispatched fields cmd) :
    cmd.engine.Admits (fields.getD 1 []) := hashKeyInRange_iff.mp h cmd hcmd

theorem answer_maps (mode : PersistenceMode) (hkey : HashKeyInRange fields) :
    (M.answer mode fields).1 = (M.redo fields).getD M := by
  unfold Maps.answer
  by_cases hnul : ∃ field ∈ fields, 0 ∈ field
  · simp only [hnul, if_true, redo_of_nul hnul, Option.getD_none]
  · simp only [hnul, if_false]
    split
    · rename_i hname
      rw [redo_of_not_found (by rw [hname]; decide)]
      rfl
    · split
      · rename_i hname
        rw [redo_of_not_found (by rw [hname]; decide)]
        rfl
      · cases hfound : findCommand (fields.headD []) with
        | none => rw [redo_of_not_found hfound]; rfl
        | some cmd =>
          by_cases harity : fields.length = cmd.op.arity
          · have hcmd : Dispatched fields cmd := ⟨hnul, hfound, harity⟩
            simp only [harity, ne_eq, not_true_eq_false, if_false]
            exact (hcmd.getD_redo M (hkey.admits hcmd)).symm
          · simp only [harity, ne_eq, not_false_eq_true, if_true, redo_of_arity hfound harity]
            rfl

theorem executeTokens_client (hs : s.Serving M) (hplain : ¬∃ field ∈ fields, 0 ∈ field)
    (hkey : HashKeyInRange fields) (hready : output.Ready) :
    Triple (executeTokens fields output .client) s (fun ex s' => s.Took M .client fields s' ∧
      ex.Replies output (M.answer s.persistenceMode fields).2) (s.Exits M fields) := by
  unfold executeTokens
  refine Triple.get_bind ?_
  simp only [strcmp_eq_zero, true_and, hs.role, false_and, if_false, Maps.answer, hplain]
  refine Triple.ite ?_ ?_
  · intro hname
    have hredo : M.redo fields = none := redo_of_not_found (by rw [hname]; decide)
    refine Triple.pure ⟨took_kept hs.holds hredo (.refl _), ?_⟩
    simp only [hname, if_true]
    refine replies_short hready _ ?_ _
    unfold pingReply
    split <;> decide
  · intro hping
    simp only [hping, if_false]
    refine Triple.ite ?_ ?_
    · intro hname
      have hfound : findCommand (fields.headD []) = none := by
        rw [hname]
        decide
      have hsave := saveReply_spec hs.holds hs.memory hs.sized.storable hs.log hfound fields.length
      refine (hsave.mono (fun _ _ h => h) fun _ h => h.elim).bind fun reply s' hr => ?_
      obtain ⟨htook, rfl⟩ := hr
      refine Triple.pure ⟨htook, ?_⟩
      simp only [hname, if_true]
      refine replies_short hready _ ?_ _
      unfold Maps.saveAnswer
      split <;> (try split) <;> decide
    · intro hsave
      simp only [hsave, if_false]
      cases hfound : findCommand (fields.headD []) with
      | none =>
        refine Triple.pure ⟨took_kept hs.holds (redo_of_not_found hfound) (.refl _), ?_⟩
        exact replies_short hready _ (by decide) _
      | some cmd =>
        refine Triple.ite ?_ ?_
        · intro harity
          refine Triple.pure ⟨took_kept hs.holds (redo_of_arity hfound harity) (.refl _), ?_⟩
          have hroom := hready.room
          have hname := findCommand_length hfound
          have hlen : (ascii "-ERR wrong number of arguments for " ++ fields.headD [] ++
              ascii "\r\n").length < bufferLength := by
            simp only [List.length_append, show (ascii "-ERR wrong number of arguments for ").length = 35
              by decide, show (ascii "\r\n").length = 2 by decide, bufferLength]
            omega
          simp only
          rw [if_pos harity]
          refine ⟨if_pos ?_, rfl, rfl, by simp only; omega, hready.capacity⟩
          simp only [OutputBuffer.available]
          omega
        · intro harity
          have hcmd : Dispatched fields cmd := ⟨hplain, hfound, not_not.mp harity⟩
          have hadmits := hkey.admits hcmd
          simp only [harity, if_false]
          by_cases hop : cmd.op = .get
          · exact (runCommand_get hs.holds hs.memory hcmd hadmits hop hready hs.sized).mono
              (fun _ _ h => h) fun _ h => h.elim
          · have hroom : 10 < output.available := by
              have := hready.room
              simp only [OutputBuffer.available, bufferLength] at *
              omega
            refine (runCommand_spec hs.holds hcmd hadmits hop (fun h => hs.role h.1) hs.log
              hroom).mono (fun ex s' hr => ?_) fun _ h => h.exits hs.memory
            obtain ⟨⟨htook, hstatus⟩ | ⟨⟨hcan, -⟩, -⟩, houtput, hreply⟩ := hr
            · simp only [if_true] at hreply
              rw [hstatus, clientReply_perform hop] at hreply
              refine ⟨htook, ?_⟩
              obtain ⟨reply, out, status⟩ := ex
              simp only at houtput hreply
              subst houtput hreply
              refine replies_short hready _ ?_ _
              rw [← clientReply_perform (v := fields.getD 2 []) hop]
              exact clientReply_short _ _
            · exact absurd hcan hs.memory

/-- One command of a client, as `kvs_network_protocol` hands it over. -/
structure ClientCommand (fields : List Bytes) : Prop where
  nonempty : 1 ≤ fields.length
  count : fields.length ≤ kvsMaxTokens
  size : (encodeFields fields).length ≤ kvsMaxClientCommandBytes
  hashKey : HashKeyInRange fields

theorem kvsExecuteFields_client (hs : s.Serving M) (hcmd : ClientCommand fields)
    (hready : output.Ready) :
    Triple (kvsExecuteFields fields output .client) s (fun ex s' => s.Took M .client fields s' ∧
      ex.Replies output (M.answer s.persistenceMode fields).2) (s.Exits M fields) := by
  have hroom := hready.room
  have hbuffer : 0 < bufferLength := by decide
  have hne := hcmd.nonempty
  by_cases hplain : ∃ field ∈ fields, 0 ∈ field
  · unfold kvsExecuteFields
    have hcount := hcmd.count
    rw [if_neg (by omega), if_pos hplain]
    refine Triple.pure ⟨took_kept hs.holds (redo_of_nul hplain) (.refl _), ?_⟩
    simp only [if_true, Maps.answer, hplain]
    exact replies_short hready _ (by decide) _
  · refine kvsExecuteFields_spec hs.memory (by omega) hcmd.count hplain (by omega) (by omega) ?_
    intro rt₁ hext
    have hs₁ : Server.Serving { s with rt := rt₁ } M :=
      ⟨hs.holds.later hext.mallocs, fun hcan => hs.memory (hext.canFail hcan), hs.sized, hs.role,
        hs.log⟩
    exact executeTokens_client hs₁ hplain hcmd.hashKey hready

-- ---------------------------------------------------------------------------
-- Sequences of commands
-- ---------------------------------------------------------------------------

theorem perform_lookup (h : ((M.perform cmd k v).1 e').lookup k' = some v') :
    (M e').lookup k' = some v' ∨ k' = k ∧ v' = v ∧ cmd.op.arity = 3 := by
  obtain ⟨e, op⟩ := cmd
  cases op with
  | get | exist => exact .inl h
  | set | mod =>
    simp only [Maps.perform] at h
    split at h
    · obtain ⟨-, hk, hv⟩ | ⟨-, hold⟩ := (Maps.lookup_put M e e' k v k' v').mp h
      · exact .inr ⟨hk, hv, rfl⟩
      · exact .inl hold
    · exact .inl h
  | del =>
    simp only [Maps.perform] at h
    split at h
    · by_cases he : e' = e
      · subst he
        simp only [Maps.put_self] at h
        by_cases hk : k' = k
        · rw [hk, Finmap.lookup_erase] at h
          cases h
        · rw [Finmap.lookup_erase_ne hk] at h
          exact .inl h
      · simp only [Maps.put_other _ _ he] at h
        exact .inl h
    · exact .inl h

theorem logged_eq_some (h : logged fields = some (cmd, k, v)) :
    Dispatched fields cmd ∧ k = fields.getD 1 [] ∧ v = fields.getD 2 [] := by
  unfold logged at h
  split at h
  · cases h
  · rename_i hplain
    split at h
    · cases h
    · rename_i hfound
      split at h
      · rename_i hform
        simp only [Option.some.injEq, Prod.mk.injEq] at h
        obtain ⟨rfl, rfl, rfl⟩ := h
        exact ⟨⟨hplain, hfound, hform.2⟩, rfl, rfl⟩
      · cases h

theorem redo_eq_some (h : M.redo fields = some M') :
    ∃ cmd, Dispatched fields cmd ∧ cmd.engine.Admits (fields.getD 1 []) ∧
      (M.perform cmd (fields.getD 1 []) (fields.getD 2 [])).2 = .ok ∧
      M' = (M.perform cmd (fields.getD 1 []) (fields.getD 2 [])).1 := by
  unfold Maps.redo at h
  split at h
  · cases h
  · rename_i cmd k v hlogged
    obtain ⟨hcmd, rfl, rfl⟩ := logged_eq_some hlogged
    split at h
    · rename_i hok
      rw [Option.some.injEq] at h
      exact ⟨cmd, hcmd, hok.1, hok.2, h.symm⟩
    · cases h

theorem Maps.Sized.redo (h : Maps.Sized M)
    (hsize : (encodeFields fields).length ≤ kvsMaxClientCommandBytes)
    (hredo : M.redo fields = some M') : Maps.Sized M' := by
  obtain ⟨cmd, hcmd, -, -, rfl⟩ := redo_eq_some hredo
  have hfield : ∀ field ∈ fields, 0 ∉ field ∧ field.length ≤ kvsMaxClientCommandBytes := by
    intro field hmem
    refine ⟨fun hnul => hcmd.plain ⟨field, hmem, hnul⟩, ?_⟩
    have hlen := length_le_encode hmem
    rw [length_encodeFields] at hsize
    omega
  intro e k v hv
  obtain hold | ⟨rfl, rfl, harity⟩ := perform_lookup hv
  · exact h e k v hold
  · have hkey := hfield _ (List.mem_of_getElem? hcmd.key)
    have hvalue := hfield _ (List.mem_of_getElem? (hcmd.value harity))
    exact ⟨hkey.1, hvalue.1, hkey.2, hvalue.2⟩

structure Server.SameConfig (s s' : Server) : Prop where
  role : s'.role = s.role
  mode : s'.persistenceMode = s.persistenceMode
  replication : s'.replication = s.replication

theorem Server.Leaves.sameConfig (h : s.Leaves M source fields s') : s.SameConfig s' := by
  cases h with
  | kept => exact ⟨rfl, rfl, rfl⟩
  | logged => exact ⟨by simp, by simp, by simp⟩
  | saved => exact ⟨rfl, rfl, rfl⟩

theorem Server.Took.sameConfig (h : s.Took M source fields s') : s.SameConfig s' := by
  obtain ⟨s₀, rt', E', hleaves, rfl, -, -⟩ := h
  obtain ⟨hrole, hmode, hrepl⟩ := hleaves.sameConfig
  exact ⟨hrole, hmode, hrepl⟩

theorem Server.Took.aofWriter (h : s.Took M source fields s') :
    s'.aofWriter = s.aofWriter ∨
      s'.aofWriter = s.aofWriter.map fun writer =>
        { writer with offset := writer.offset + (encodeFields fields).length } := by
  obtain ⟨s₀, rt', E', hleaves, rfl, -, -⟩ := h
  cases hleaves with
  | kept => exact .inl rfl
  | logged => exact .inr (by simp)
  | saved => exact .inl rfl

theorem Server.Leaves.fails (h : s.Leaves M source fields s') : s'.io.fails = s.io.fails := by
  cases h with
  | kept => rfl
  | logged => exact append_fails s fields
  | saved => rfl

theorem Server.Took.fails (h : s.Took M source fields s') : s'.io.fails = s.io.fails := by
  obtain ⟨s₀, rt', E', hleaves, rfl, -, -⟩ := h
  exact hleaves.fails

theorem Server.Took.logBreaks (h : s.Took M source fields s') (hs' : s'.LogBreaks) : s.LogBreaks := by
  obtain hcan | ⟨writer', hw', hring⟩ := hs'
  · rw [FileIo.CanFail, h.fails] at hcan
    exact .inl hcan
  · obtain hw | hw := h.aofWriter
    · exact .inr ⟨writer', hw ▸ hw', hring⟩
    · rw [hw, Option.mem_def, Option.map_eq_some_iff] at hw'
      obtain ⟨writer, hwriter, rfl⟩ := hw'
      exact .inr ⟨writer, hwriter, hring⟩

/-- A command of a client leaves the server ready for the next. -/
theorem Server.Took.serving (h : s.Took M .client fields s') (hs : s.Serving M)
    (hcmd : ClientCommand fields) : s'.Serving (M.answer s.persistenceMode fields).1 := by
  have hconfig := h.sameConfig
  have hwriter : s'.aofWriter.isSome = s.aofWriter.isSome := by
    obtain hw | hw := h.aofWriter <;> simp [hw]
  obtain ⟨s₀, rt', E', -, rfl, hext, hE'⟩ := h
  rw [answer_maps _ hcmd.hashKey]
  refine ⟨hE', fun hcan => hs.memory (hext.canFail hcan), ?_, ?_, ?_⟩
  · cases hredo : M.redo fields with
    | none => exact hs.sized
    | some M' => exact hs.sized.redo hcmd.size hredo
  · rw [hconfig.role]
    exact hs.role
  · intro hlogs
    rw [hwriter]
    exact hs.log ⟨hlogs.1, by rw [← hconfig.mode]; exact hlogs.2⟩

def serveCommands : List (List Bytes × OutputBuffer) → Serve (List (Option Bytes))
  | [] => return []
  | (fields, output) :: rest => do
    let executed ← kvsExecuteFields fields output .client
    let replies ← serveCommands rest
    return executed.reply :: replies

def logBytes (commands : List (List Bytes)) : Nat :=
  (commands.map fun fields => (encodeFields fields).length).sum

def Server.LogTooShort (s : Server) (commands : List (List Bytes)) : Prop :=
  ∃ writer ∈ s.aofWriter, offMax < writer.offset + logBytes commands

theorem Server.Took.logTooShort (h : s.Took M source fields s') (hs' : s'.LogTooShort rest) :
    s.LogTooShort (fields :: rest) := by
  obtain ⟨writer', hw', hlong⟩ := hs'
  simp only [Server.LogTooShort, logBytes, List.map_cons, List.sum_cons] at hlong ⊢
  obtain hw | hw := h.aofWriter
  · exact ⟨writer', hw ▸ hw', by omega⟩
  · rw [hw, Option.mem_def, Option.map_eq_some_iff] at hw'
    obtain ⟨writer, hwriter, rfl⟩ := hw'
    exact ⟨writer, hwriter, by simp only at hlong; omega⟩

theorem serveCommands_spec (hs : s.Serving M) (commands : List (List Bytes × OutputBuffer))
    (hcommands : ∀ c ∈ commands, ClientCommand c.1 ∧ c.2.Ready) :
    Triple (serveCommands commands) s (fun replies s' =>
      replies = ((M.answers s.persistenceMode (commands.map (·.1))).2).map some ∧
      s'.Serving (M.answers s.persistenceMode (commands.map (·.1))).1)
      (fun e => e = .exit ∧ (s.LogTooShort (commands.map (·.1)) ∨ s.LogBreaks)) := by
  induction commands generalizing s M with
  | nil => exact Triple.pure ⟨rfl, hs⟩
  | cons c rest ih =>
    obtain ⟨fields, output⟩ := c
    obtain ⟨hcmd, hready⟩ := hcommands (fields, output) (by simp)
    have hone := kvsExecuteFields_client hs hcmd hready
    refine (hone.mono (fun _ _ h => h) ?_).bind fun ex s₁ h₁ => ?_
    · rintro e ⟨rfl, -, hno⟩
      refine ⟨rfl, (Server.full_or_breaks hno).imp_left ?_⟩
      rintro ⟨writer, hw, hfull⟩
      refine ⟨writer, hw, ?_⟩
      simp only [logBytes, List.map_cons, List.sum_cons] at hfull ⊢
      omega
    obtain ⟨htook, hreplies⟩ := h₁
    have hrest := ih (htook.serving hs hcmd) fun c hc => hcommands c (by simp [hc])
    rw [htook.sameConfig.mode] at hrest
    refine (hrest.mono (fun _ _ h => h) ?_).bind fun replies s₂ h₂ => ?_
    · rintro e ⟨rfl, hwhy⟩
      exact ⟨rfl, hwhy.imp htook.logTooShort htook.logBreaks⟩
    obtain ⟨rfl, hs₂⟩ := h₂
    exact Triple.pure ⟨by simp [Maps.answers, hreplies.reply], hs₂⟩

theorem answer_other (mode : PersistenceMode) (hfound : findCommand (fields.headD []) = some cmd)
    (he : e ≠ cmd.engine) : (M.answer mode fields).1 e = M e := by
  unfold Maps.answer
  simp only [hfound]
  split
  · rfl
  split
  · rfl
  split
  · rfl
  split
  · rfl
  obtain ⟨engine, op⟩ := cmd
  cases op <;> simp only [Maps.perform] <;> (try split) <;> simp [he]

/-- From empty engines the replies to every sequence of commands are those of
four finite maps, and the engines hold these maps at its end. The process ends
early only where the log would pass the last position of a file or a request for
it fails. -/
theorem kvsExecuteFields_refines (s : Server) (commands : List (List Bytes × OutputBuffer))
    (hempty : s.engines.Hold s.rt.mallocs Maps.empty) (hrole : s.role ≠ .replica)
    (hmemory : ¬s.rt.CanFail) (hlog : s.persistenceMode ≠ .snapshot → s.aofWriter.isSome)
    (hcommands : ∀ c ∈ commands, ClientCommand c.1 ∧ c.2.Ready) :
    Triple (serveCommands commands) s (fun replies s' =>
      replies = ((Maps.empty.answers s.persistenceMode (commands.map (·.1))).2).map some ∧
      s'.engines.Contains s'.rt (Maps.empty.answers s.persistenceMode (commands.map (·.1))).1)
      (fun e => e = .exit ∧ (s.LogTooShort (commands.map (·.1)) ∨ s.LogBreaks)) ∧
    ∀ (M : Maps) (fields : List Bytes) (cmd : CommandId) (e : EngineId),
      findCommand (fields.headD []) = some cmd → e ≠ cmd.engine →
        (M.answer s.persistenceMode fields).1 e = M e := by
  have hs : s.Serving Maps.empty :=
    ⟨hempty, hmemory, fun e k v hv => by simp [Maps.empty] at hv, hrole, fun h => hlog h.2⟩
  refine ⟨(serveCommands_spec hs commands hcommands).weaken fun replies s' h => ?_, ?_⟩
  · exact ⟨h.1, h.2.holds.contains⟩
  · exact fun M fields cmd e hfound he => answer_other _ hfound he

theorem aofServer_exists : ∃ s : Server, s.Serving Maps.empty ∧ s.persistenceMode = .aof ∧
    ¬s.LogBreaks ∧ ∀ commands, logBytes commands ≤ offMax → ¬s.LogTooShort commands := by
  have hmemory := Runtime.not_canFail_start fun _ => false
  obtain ⟨_, rt, -, hext, E, -, hE⟩ := (initKvengine_spec hmemory).run
  refine ⟨⟨rt, E, fun _ => none, .start fun _ => none, some ⟨.commandsAof, 0, true⟩, .standalone, .aof,
    .start⟩, ?_, rfl, Server.not_logBreaks FileIo.not_canFail_start rfl, ?_⟩
  · exact ⟨hE, fun hcan => hmemory (hext.canFail hcan), fun e k v hv => by simp [Maps.empty] at hv,
      Role.noConfusion, fun _ => rfl⟩
  · rintro commands hfits ⟨writer, hw, hlong⟩
    simp only [Option.mem_def, Option.some.injEq] at hw
    subst hw
    simp only at hlong
    omega

/-- A key set, read, deleted and read again through the hash engine. -/
theorem kvsExecuteFields_refines_hash :
    ∃ (s s' : Server) (output : OutputBuffer),
      serveCommands [([ascii "HSET", [107], [118]], output), ([ascii "HGET", [107]], output),
        ([ascii "HDEL", [107]], output), ([ascii "HGET", [107]], output)] s =
        .ok ([some (ascii "+OK\r\n"), some (ascii "$1\r\nv\r\n"), some (ascii ":1\r\n"),
          some (ascii "$-1\r\n")], s') := by
  obtain ⟨s, hs, hmode, hlog, hroom⟩ := aofServer_exists
  let output : OutputBuffer := ⟨⟨some 1, 2048⟩, [], 0⟩
  have hready : output.Ready := ⟨by decide, by decide, by decide, by decide⟩
  have hcommand : ∀ fields : List Bytes, 1 ≤ fields.length → fields.length ≤ kvsMaxTokens →
      (encodeFields fields).length ≤ kvsMaxClientCommandBytes → fields[1]? = some [107] →
      ClientCommand fields := by
    intro fields hone hmax hsize hkey
    exact ⟨hone, hmax, hsize, .of_key hkey (by decide)⟩
  have hrun := (kvsExecuteFields_refines s [([ascii "HSET", [107], [118]], output),
    ([ascii "HGET", [107]], output), ([ascii "HDEL", [107]], output),
    ([ascii "HGET", [107]], output)] hs.holds hs.role hs.memory
    (fun h => hs.log ⟨CommandSource.noConfusion, h⟩) ?_).1
  · obtain ⟨replies, s', hs', hreplies, -⟩ :=
      (hrun.mono (fun _ _ h => h) fun e he => he.2.elim (hroom _ (by decide)) hlog).run
    refine ⟨s, s', output, ?_⟩
    rw [hs', hreplies, hmode]
    have hanswers : (Maps.empty.answers .aof [[ascii "HSET", [107], [118]], [ascii "HGET", [107]],
        [ascii "HDEL", [107]], [ascii "HGET", [107]]]).2 = [ascii "+OK\r\n", ascii "$1\r\nv\r\n",
          ascii ":1\r\n", ascii "$-1\r\n"] := by decide
    simp only [List.map_cons, List.map_nil, hanswers]
  · simp only [List.mem_cons, List.not_mem_nil, or_false]
    rintro c (rfl | rfl | rfl | rfl) <;>
      exact ⟨hcommand _ (by decide) (by decide) (by decide) rfl, hready⟩

-- ---------------------------------------------------------------------------
-- A write that always succeeds
-- ---------------------------------------------------------------------------

def probe (b : Bool) : List Bytes := [ascii "RSET", [107], [if b then 118 else 119]]

theorem probe_dispatched (b : Bool) : Dispatched (probe b) ⟨.rbtree, .set⟩ := by
  cases b <;> exact ⟨by decide, by decide, rfl⟩

theorem redo_probe (M : Maps) (b : Bool) :
    M.redo (probe b) =
      some (M.put .rbtree ((M .rbtree).insert [107] [if b then 118 else 119])) := by
  rw [(probe_dispatched b).redo M trivial]
  simp [Maps.perform, EngineId.Room, probe]

theorem probe_held (bs : List Bool) : ∃ (rt : Runtime) (E : Engines) (M : Maps), ¬rt.CanFail ∧
    Maps.empty.after (bs.map probe) = some M ∧ M.Sized ∧ E.Hold rt.mallocs M := by
  induction bs using List.reverseRecOn with
  | nil =>
    have hmemory := Runtime.not_canFail_start fun _ => false
    obtain ⟨_, rt, -, hext, E, -, hE⟩ := (initKvengine_spec hmemory).run
    exact ⟨rt, E, Maps.empty, fun hcan => hmemory (hext.canFail hcan), rfl,
      fun e k v hv => by simp [Maps.empty] at hv, hE⟩
  | append_singleton bs b ih =>
    obtain ⟨rt, E, M, hmemory, hafter, hsized, hE⟩ := ih
    have hredo := redo_probe M b
    obtain ⟨E', rt', hmemory', hE'⟩ := hE.insert hmemory .rbtree [if b then 118 else 119] trivial trivial
    refine ⟨rt', E', _, hmemory', ?_, hsized.redo ?_ hredo, hE'⟩
    · rw [List.map_append, Maps.after, List.foldlM_append]
      change (Maps.empty.after (bs.map probe)).bind _ = _
      rw [hafter]
      simp [hredo]
    · cases b <;> decide

theorem length_probe (b : Bool) : (encodeFields (probe b)).length = 28 := by
  cases b <;> decide

end KvStore
