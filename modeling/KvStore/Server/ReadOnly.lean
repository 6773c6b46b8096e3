import KvStore.Server.Effects

/-!
# Clients of a replica

A command of a client never changes the engines, the log or the replication
manager of a replica. Until the replica is online every command but `PING` is
refused as loading; from then on a read is answered from the maps the engines
hold, and a write as one that failed.
-/

namespace KvStore

open Lib

def Maps.replicaAnswer (online : Bool) (mode : PersistenceMode) (M : Maps) (fields : List Bytes) :
    Bytes :=
  if ∃ field ∈ fields, 0 ∈ field then ascii "-ERR NUL bytes are not supported\r\n"
  else if fields.headD [] = ascii "PING" then pingReply fields.length
  else if ¬online then ascii "-LOADING replica synchronization in progress\r\n"
  else
    match findCommand (fields.headD []) with
    | none => (M.answer mode fields).2
    | some cmd =>
      if cmd.op.isWrite ∧ fields.length = cmd.op.arity then clientReply cmd.op .failed
      else (M.answer mode fields).2

-- ---------------------------------------------------------------------------
-- What stays
-- ---------------------------------------------------------------------------

/-- Memory may have been taken, and a snapshot saved if the server is online. -/
inductive Server.Spared (s : Server) : Server → Prop
  | memory (rt' : Runtime) : s.Spared { s with rt := rt' }
  | saved (rt' : Runtime) (file : Bytes) : s.isOnline = true →
    s.snapshotTarget = some (path, offset) →
    s.Spared { s with rt := rt', disk := s.disk.write path file }

theorem Disk.write_write (disk : Disk) (path : Path) (file file' : Bytes) :
    (disk.write path file).write path file' = disk.write path file' := by
  funext other
  by_cases h : other = path
  · subst h
    simp
  · simp [h]

section
variable {s s' s'' : Server}

theorem Server.Spared.refl (s : Server) : s.Spared s := .memory s.rt

theorem Server.Spared.keeps (h : s.Spared s') : s'.engines = s.engines ∧
    s'.aofWriter = s.aofWriter ∧ s'.role = s.role ∧ s'.persistenceMode = s.persistenceMode ∧
    s'.replication = s.replication ∧ s'.io = s.io := by
  cases h with
  | memory => exact ⟨rfl, rfl, rfl, rfl, rfl, rfl⟩
  | saved => exact ⟨rfl, rfl, rfl, rfl, rfl, rfl⟩

theorem Server.Spared.trans (h : s.Spared s') (h' : s'.Spared s'') : s.Spared s'' := by
  cases h with
  | memory rt' =>
    cases h' with
    | memory rt'' => exact .memory rt''
    | saved rt'' file honline htarget => exact .saved rt'' file honline htarget
  | @saved path offset rt' file honline htarget =>
    cases h' with
    | memory rt'' => exact .saved rt'' file honline htarget
    | saved rt'' file' _ htarget' =>
      have hsame := htarget.symm.trans htarget'
      simp only [Option.some.injEq, Prod.mk.injEq] at hsame
      obtain ⟨rfl, rfl⟩ := hsame
      simp only [Disk.write_write]
      exact .saved rt'' file' honline htarget

end

def Spares (p : Serve α) : Prop :=
  ∀ s : Server, s.role = .replica →
    Triple p s (fun _ s' => ∃ rt', s' = { s with rt := rt' }) fun _ => True

section
variable {p q : Serve α} {s s' : Server}

theorem Spares.pure (a : α) : Spares (Pure.pure a : Serve α) := fun s _ => ⟨s.rt, rfl⟩

theorem Spares.bind {f : α → Serve β} (hp : Spares p) (hf : ∀ a, Spares (f a)) :
    Spares (p >>= f) := by
  intro s hrole
  apply (hp s hrole).bind
  rintro a _ ⟨rt', rfl⟩
  exact hf a { s with rt := rt' } hrole

theorem Spares.ite {c : Prop} [Decidable c] (hp : Spares p) (hq : Spares q) :
    Spares (if c then p else q) :=
  fun s hrole => Triple.ite (fun _ => hp s hrole) fun _ => hq s hrole

theorem Spares.get_bind {f : Server → Serve α} (hf : ∀ s, Spares (f s)) :
    Spares (MonadState.get >>= f) := fun s hrole => Triple.get_bind (hf s s hrole)

theorem onRuntime_memory (m : Run α) (s : Server) :
    Triple (onRuntime m) s (fun _ s' => ∃ rt', s' = { s with rt := rt' }) fun _ => True := by
  apply onRuntime_triple
  cases hm : m s.rt with
  | ok r => exact Triple.of_run hm ⟨r.2, rfl⟩
  | error e => exact Triple.of_stop hm trivial

theorem Spares.onRuntime (m : Run α) : Spares (KvStore.onRuntime m) :=
  fun s _ => onRuntime_memory m s

theorem kvsGetValue_spares (engine : EngineId) (key : Bytes) : Spares (kvsGetValue engine key) :=
  .get_bind fun _ => .onRuntime _

theorem runEngine_spares {cmd : CommandId} (hread : cmd.op.isWrite = false)
    (key value : Option Bytes) : Spares (runEngine cmd key value) := by
  obtain ⟨engine, op⟩ := cmd
  unfold runEngine
  refine .get_bind fun s => ?_
  cases op with
  | set | mod | del => cases hread
  | get => exact .pure 0
  | exist =>
    cases key with
    | none => exact .pure (-1)
    | some key => exact .onRuntime _

theorem kvsFilterProtocol_spares (tokens : List Bytes) (status : ExecStatus) :
    Spares (kvsFilterProtocol tokens .client status) := by
  intro s hrole
  unfold kvsFilterProtocol
  refine Triple.get_bind ?_
  cases findCommand (tokens.headD []) with
  | none => exact Spares.pure _ s hrole
  | some cmd =>
    apply Triple.ite
    · intro _
      exact Spares.pure _ s hrole
    · intro hread
      have hread : cmd.op.isWrite = false := by simpa [hrole] using hread
      apply Triple.ite
      · intro _
        cases tokens[1]? with
        | none => exact Spares.pure _ s hrole
        | some key =>
          refine Spares.bind (kvsGetValue_spares _ _) (fun value => ?_) s hrole
          cases value with
          | none => exact .pure _
          | some value => exact .pure _
      · intro _
        refine Spares.bind (runEngine_spares hread _ _) (fun ret => ?_) s hrole
        intro s' hrole'
        apply Triple.ite
        · rintro ⟨-, hwrite, -⟩
          rw [hread] at hwrite
          cases hwrite
        · intro _
          exact Spares.pure _ s' hrole'

theorem getReply_spares (engine : EngineId) (key : Bytes) (output : OutputBuffer) (capacity : Nat) :
    Spares (getReply engine key output capacity) := by
  refine (kvsGetValue_spares engine key).bind fun value => ?_
  cases value with
  | none => exact .pure _
  | some value => exact .onRuntime _

theorem runCommand_spares (tokens : List Bytes) (cmd : Option CommandId) (output : OutputBuffer) :
    Spares (runCommand tokens cmd output .client) := by
  unfold runCommand
  split
  · exact (getReply_spares _ _ _ _).bind fun _ => .pure _
  · refine Spares.bind ((kvsFilterProtocol_spares _ _).bind fun _ => .pure _) fun r => ?_
    dsimp only
    split
    · exact .pure _
    · exact .pure _

theorem kvsSaveCurrentSnapshot_spared (honline : s.isOnline = true) :
    Triple kvsSaveCurrentSnapshot s (fun _ s' => s.Spared s') fun _ => True := by
  unfold kvsSaveCurrentSnapshot
  refine Triple.get_bind ?_
  cases hmode : s.persistenceMode with
  | aof => exact Triple.pure (.refl s)
  | snapshot =>
    apply (onRuntime_memory _ s).bind
    rintro file _ ⟨rt', rfl⟩
    cases file with
    | none => exact Triple.pure (.memory rt')
    | some file =>
      have htarget : s.snapshotTarget = some (.snapshotBin, none) := by
        simp [Server.snapshotTarget, hmode]
      exact Triple.modify_bind (Triple.pure (.saved rt' file honline htarget))
  | legacyHybrid =>
    cases hw : s.aofWriter with
    | none =>
      simp only [Server.aofOffset, hw, Option.map_none]
      exact Triple.pure (.refl s)
    | some writer =>
      simp only [Server.aofOffset, hw, Option.map_some]
      apply (onRuntime_memory _ s).bind
      rintro file _ ⟨rt', rfl⟩
      cases file with
      | none => exact Triple.pure (.memory rt')
      | some file =>
        have htarget : s.snapshotTarget = some (.snapshotDb, some writer.offset) := by
          simp [Server.snapshotTarget, hmode, hw]
        exact Triple.modify_bind (Triple.pure (.saved rt' file honline htarget))

theorem saveReply_spared (honline : s.isOnline = true) (fieldCount : Nat) :
    Triple (saveReply fieldCount) s (fun _ s' => s.Spared s') fun _ => True := by
  apply Triple.ite
  · intro _
    exact Triple.pure (.refl s)
  · intro _
    apply (kvsSaveCurrentSnapshot_spared honline).bind
    intro saved s' h
    apply Triple.ite
    · intro _
      exact Triple.pure h
    · intro _
      exact Triple.pure h

theorem executeTokens_spared (hrole : s.role = .replica) (tokens : List Bytes)
    (output : OutputBuffer) :
    Triple (executeTokens tokens output .client) s (fun _ s' => s.Spared s') fun _ => True := by
  unfold executeTokens
  refine Triple.get_bind ?_
  dsimp only
  refine Triple.ite (fun _ => .refl s) fun _ => Triple.ite (fun _ => .refl s) fun hloading => ?_
  have honline : s.isOnline = true := by simpa [hrole] using hloading
  apply Triple.ite
  · intro _
    exact (saveReply_spared honline _).bind fun _ _ h => Triple.pure h
  · intro _
    have htakes : ∀ {p : Serve Executed}, Spares p → Triple p s (fun _ s' => s.Spared s') fun _ => True := by
      intro p hp
      apply (hp s hrole).weaken
      rintro _ _ ⟨rt', rfl⟩
      exact .memory rt'
    cases findCommand (tokens.headD []) with
    | none => exact htakes (.ite (.pure _) (runCommand_spares _ _ _))
    | some cmd => exact htakes (.ite (.pure _) (runCommand_spares _ _ _))

/-- A client's command on a replica. -/
theorem kvsExecuteFields_spared (hrole : s.role = .replica) (fields : List Bytes)
    (output : OutputBuffer) :
    Triple (kvsExecuteFields fields output .client) s (fun _ s' => s.Spared s') fun _ => True := by
  unfold kvsExecuteFields
  apply Triple.ite
  · intro _
    exact Triple.pure (.refl s)
  · intro _
    apply Triple.ite
    · intro _
      exact Triple.pure (.refl s)
    · intro _
      apply (onRuntime_memory _ s).bind
      rintro tokens _ ⟨rt', rfl⟩
      cases tokens with
      | none => exact Triple.pure (.memory rt')
      | some tokens =>
        apply (executeTokens_spared (s := { s with rt := rt' }) hrole _ _).bind
        intro ex s₁ h
        apply (onRuntime_memory _ s₁).bind
        rintro _ _ ⟨rt'', rfl⟩
        exact Triple.pure ((Server.Spared.memory rt').trans (h.trans (.memory rt'')))

end

section
variable {s : Server} {M : Maps} {fields : List Bytes} {output : OutputBuffer}

def Server.SavedOnly (s : Server) (M : Maps) (s' : Server) : Prop :=
  s'.disk = s.disk ∨ ∃ path offset file, s.snapshotTarget = some (path, offset) ∧
    Saves M offset file ∧ s'.disk = s.disk.write path file

theorem kvsExecuteFields_savedOnly (h : s.engines.Hold s.rt.mallocs M) (hrole : s.role = .replica)
    (hlog : s.aofWriter.isSome) (hready : output.Ready) :
    Triple (kvsExecuteFields fields output .client) s (fun _ s' => s.SavedOnly M s')
      fun _ => True := by
  have hroom := hready.room
  unfold bufferLength at hroom
  refine ((kvsExecuteFields_effect h (fun _ => hlog) (by omega) (by omega)).mono (fun _ _ h => h)
    fun _ _ => trivial).and (kvsExecuteFields_spared hrole fields output) |>.weaken ?_
  rintro ex s' ⟨⟨done, houtcome, -⟩, hspared⟩
  cases houtcome with
  | idle => exact .inl rfl
  | saved _ _ htarget _ hsaves => exact .inr ⟨_, _, _, htarget, hsaves, rfl⟩
  | done htook hsome =>
    obtain ⟨s₀, rt', E', hleaves, rfl, -, -⟩ := htook
    cases hleaves with
    | kept => exact .inl rfl
    | saved hname =>
      rw [redo_of_not_found hname] at hsome
      cases hsome
    | logged =>
      -- the log of a replica does not move
      obtain ⟨writer, hwriter⟩ := Option.isSome_iff_exists.mp hlog
      have hsame : (s.append fields).aofWriter = s.aofWriter := hspared.keeps.2.1
      rw [append_aofWriter, hwriter, Option.map_some, Option.some.injEq] at hsame
      have hoffset := congrArg AofWriter.offset hsame
      have hpos := length_encodeFields_pos fields
      simp only at hoffset
      omega

end

-- ---------------------------------------------------------------------------
-- What is answered
-- ---------------------------------------------------------------------------

/-- A replica as its clients find it. -/
structure Server.Shows (s : Server) (M : Maps) : Prop where
  holds : s.engines.Hold s.rt.mallocs M
  memory : ¬s.rt.CanFail
  sized : M.Sized
  role : s.role = .replica
  log : s.aofWriter.isSome

def Server.Answered (s : Server) (M : Maps) (output : OutputBuffer) (reply : Bytes) (ex : Executed)
    (s' : Server) : Prop :=
  s.rt.Extends s'.rt ∧ s'.engines.Hold s'.rt.mallocs M ∧ ex.Replies output reply

section
variable {s s' : Server} {M : Maps} {fields : List Bytes} {cmd : CommandId} {output : OutputBuffer}

theorem Server.Answered.of_took {ex : Executed} {reply : Bytes}
    (h : s.Took M .client fields s') (hredo : M.redo fields = none) (hreply : ex.Replies output reply) :
    s.Answered M output reply ex s' := by
  obtain ⟨s₀, rt', E', -, rfl, hext, hE⟩ := h
  rw [hredo] at hE
  exact ⟨hext, hE, hreply⟩

theorem Server.Shows.short (hs : s.Shows M) (hready : output.Ready) (reply : Bytes)
    (hshort : reply.length ≤ bufferLength) (status : ExecStatus) :
    s.Answered M output reply ⟨replyIfFits output.available reply, output, status⟩ s :=
  ⟨.refl _, hs.holds, replies_short hready reply hshort status⟩

theorem OutputBuffer.Ready.available (hready : output.Ready) : bufferLength ≤ output.available := by
  have hroom := hready.room
  unfold OutputBuffer.available
  omega

theorem length_wrongCount (h : findCommand name = some cmd) :
    (ascii "-ERR wrong number of arguments for " ++ name ++ ascii "\r\n").length < bufferLength := by
  have hname := findCommand_length h
  simp only [List.length_append, show (ascii "-ERR wrong number of arguments for ").length = 35
    by decide, show (ascii "\r\n").length = 2 by decide, bufferLength]
  omega

theorem runCommand_refused (hs : s.Shows M) (hready : output.Ready) (hcmd : Dispatched fields cmd)
    (hwrite : cmd.op.isWrite = true) :
    Triple (runCommand fields (some cmd) output .client) s
      (s.Answered M output (clientReply cmd.op .failed)) Never := by
  have hop : cmd.op ≠ .get := by
    intro hget
    rw [hget] at hwrite
    cases hwrite
  have hfilter : kvsFilterProtocol fields .client .failed s =
      .ok ((ascii "READONLY replica does not accept client writes\r\n", .failed), s) := by
    have hrun : Triple (kvsFilterProtocol fields .client .failed) s (fun r s' =>
        r = (ascii "READONLY replica does not accept client writes\r\n", .failed) ∧ s' = s)
        Never := by
      unfold kvsFilterProtocol
      refine Triple.get_bind ?_
      simp only [hcmd.found, hs.role, hwrite, and_self, if_true]
      exact Triple.pure ⟨rfl, rfl⟩
    obtain ⟨_, _, hrun, rfl, rfl⟩ := hrun.run
    exact hrun
  unfold runCommand
  split
  · rename_i hget
    simp only [Option.some.injEq] at hget
    exact absurd (by rw [hget]) hop
  · unfold kvsExecuteTokens
    simp only [bind_assoc, pure_bind]
    have hfits : ¬(ascii "READONLY replica does not accept client writes\r\n").length ≥
        output.available := by
      have hlength : (ascii "READONLY replica does not accept client writes\r\n").length <
          bufferLength := by decide
      have havailable := hready.available
      omega
    apply Triple.named_bind
    · intro r s' hrun
      rw [hfilter] at hrun
      cases hrun
      simp only [hfits, if_false, Option.isSome_some, if_true]
      exact Triple.pure (hs.short hready _ (clientReply_short _ _) _)
    · intro e hstop
      rw [hfilter] at hstop
      cases hstop

theorem runCommand_reads (hs : s.Shows M) (hready : output.Ready) (hcmd : Dispatched fields cmd)
    (hadmits : cmd.engine.Admits (fields.getD 1 [])) (hread : cmd.op.isWrite = false) :
    Triple (runCommand fields (some cmd) output .client) s
      (s.Answered M output (M.dataReply cmd (fields.getD 1 []))) Never := by
  have hredo : M.redo fields = none := redo_of_read hcmd.found hread
  by_cases hop : cmd.op = .get
  · refine (runCommand_get hs.holds hs.memory hcmd hadmits hop hready hs.sized).weaken ?_
    rintro ex s' ⟨htook, hreply⟩
    exact .of_took htook hredo hreply
  · have hallowed : ¬(s.role = .replica ∧ CommandSource.client = .client ∧ cmd.op.isWrite = true) := by
      rintro ⟨-, -, hwrite⟩
      rw [hread] at hwrite
      cases hwrite
    have hroom : 10 < output.available := Nat.lt_of_lt_of_le (by decide) hready.available
    refine (runCommand_spec hs.holds hcmd hadmits hop hallowed (fun _ => hs.log) hroom).mono ?_ ?_
    · rintro ex s' ⟨⟨htook, hstatus⟩ | ⟨⟨hcan, -⟩, -⟩, houtput, hreply⟩
      · simp only [if_true] at hreply
        rw [hstatus, clientReply_perform hop] at hreply
        refine .of_took htook hredo ?_
        obtain ⟨reply, out, status⟩ := ex
        simp only at houtput hreply
        subst houtput hreply
        refine replies_short hready _ ?_ _
        rw [← clientReply_perform (v := fields.getD 2 []) hop]
        exact clientReply_short _ _
      · exact absurd hcan hs.memory
    · rintro e ⟨-, -, hsome, -⟩
      rw [hredo] at hsome
      cases hsome

theorem executeTokens_replica (hs : s.Shows M) (hplain : ¬∃ field ∈ fields, 0 ∈ field)
    (hkey : HashKeyInRange fields) (hready : output.Ready) :
    Triple (executeTokens fields output .client) s
      (s.Answered M output (M.replicaAnswer s.isOnline s.persistenceMode fields)) Never := by
  unfold executeTokens
  refine Triple.get_bind ?_
  simp only [strcmp_eq_zero, true_and, hs.role, Maps.replicaAnswer, hplain, if_false]
  apply Triple.ite
  · intro hping
    rw [if_pos hping]
    refine Triple.pure (hs.short hready _ ?_ _)
    unfold pingReply
    split <;> decide
  · intro hping
    rw [if_neg hping]
    apply Triple.ite
    · intro hloading
      rw [if_pos hloading]
      exact Triple.pure (hs.short hready _ (by decide) _)
    · intro honline
      rw [if_neg honline]
      apply Triple.ite
      · intro hname
        have hfound : findCommand (fields.headD []) = none := by
          rw [hname]
          decide
        have hanswer : (M.answer s.persistenceMode fields).2 =
            if fields.length = 1 then M.saveAnswer s.persistenceMode
            else ascii "-ERR wrong number of arguments for SAVE\r\n" := by
          simp only [Maps.answer, hplain, if_false, if_neg hping, if_pos hname]
        simp only [hfound, hanswer]
        have hsave := saveReply_spec hs.holds hs.memory hs.sized.storable (fun _ => hs.log) hfound
          fields.length
        apply hsave.bind
        rintro reply s' ⟨htook, rfl⟩
        refine Triple.pure (.of_took htook (redo_of_not_found hfound) ?_)
        refine replies_short hready _ ?_ _
        unfold Maps.saveAnswer
        split <;> (try split) <;> decide
      · intro hsave
        cases hfound : findCommand (fields.headD []) with
        | none =>
          have hanswer : (M.answer s.persistenceMode fields).2 = ascii "-ERR unknown command\r\n" := by
            simp only [Maps.answer, hplain, hping, hsave, hfound, if_false]
          simp only [hanswer, if_true]
          exact Triple.pure (hs.short hready _ (by decide) _)
        | some cmd =>
          apply Triple.ite
          · intro harity
            have hanswer : (M.answer s.persistenceMode fields).2 =
                ascii "-ERR wrong number of arguments for " ++ fields.headD [] ++ ascii "\r\n" := by
              simp only [Maps.answer, hplain, hping, hsave, hfound, if_false, if_pos harity]
            have hlength := length_wrongCount hfound
            have hroom := hready.room
            have havailable := hready.available
            simp only [hanswer, if_neg (show ¬(cmd.op.isWrite = true ∧ fields.length = cmd.op.arity) from
              fun h => harity h.2)]
            refine Triple.pure ⟨.refl _, hs.holds, if_pos (by omega), rfl, rfl, ?_, hready.capacity⟩
            simp only
            omega
          · intro harity
            have hcmd : Dispatched fields cmd := ⟨hplain, hfound, not_not.mp harity⟩
            simp only [hcmd.arity, and_true]
            cases hwrite : cmd.op.isWrite with
            | true => exact runCommand_refused hs hready hcmd hwrite
            | false =>
              have hanswer : (M.answer s.persistenceMode fields).2 =
                  M.dataReply cmd (fields.getD 1 []) := by
                simp only [Maps.answer, hplain, hping, hsave, hfound, if_false, if_neg harity]
              rw [if_neg Bool.false_ne_true, hanswer]
              exact runCommand_reads hs hready hcmd (hkey.admits hcmd) hwrite

/-- A client's command on a replica: its state is spared, and the reply is that
of the specification. -/
theorem kvsExecuteFields_replica (hs : s.Shows M) (hcmd : ClientCommand fields)
    (hready : output.Ready) :
    Triple (kvsExecuteFields fields output .client) s (fun ex s' => s.Spared s' ∧ s'.Shows M ∧
      ex.Replies output (M.replicaAnswer s.isOnline s.persistenceMode fields)) Never := by
  have hanswered : Triple (kvsExecuteFields fields output .client) s
      (s.Answered M output (M.replicaAnswer s.isOnline s.persistenceMode fields)) Never := by
    have hroom := hready.room
    have hbuffer : 0 < bufferLength := by decide
    have hne := hcmd.nonempty
    have hcount := hcmd.count
    unfold kvsExecuteFields
    rw [if_neg (by omega)]
    apply Triple.ite
    · intro hnul
      rw [Maps.replicaAnswer, if_pos hnul]
      simp only [if_true]
      exact Triple.pure (hs.short hready _ (by decide) _)
    · intro hplain
      refine onRuntime_bind (kvsFieldsToTokens_spec hs.memory (by omega) hcount hplain) ?_
      rintro _ rt₁ ⟨hext, tokens, rfl, htokens⟩
      simp only [htokens]
      have hs₁ : Server.Shows { s with rt := rt₁ } M :=
        ⟨hs.holds.later hext.mallocs, fun hcan => hs.memory (hext.canFail hcan), hs.sized, hs.role,
          hs.log⟩
      apply (executeTokens_replica hs₁ hplain hcmd.hashKey hready).bind
      rintro ex s' ⟨hext', hE, hreply⟩
      refine onRuntime_bind (freeTokens_spec tokens s'.rt) fun _ rt₂ hext₂ => ?_
      exact Triple.pure ⟨(hext.trans hext').trans hext₂, hE.later hext₂.mallocs, hreply⟩
  obtain ⟨ex, s', hrun, hext, hE, hreply⟩ := hanswered.run
  have hspared := (kvsExecuteFields_spared hs.role fields output).post hrun
  obtain ⟨-, hwriter, hrole, -, -⟩ := hspared.keeps
  exact Triple.of_run hrun ⟨hspared, ⟨hE, fun hcan => hs.memory (hext.canFail hcan), hs.sized,
    hrole.trans hs.role, hwriter ▸ hs.log⟩, hreply⟩

theorem serveCommands_spared (hrole : s.role = .replica) (commands : List (List Bytes × OutputBuffer)) :
    Triple (serveCommands commands) s (fun _ s' => s.Spared s') fun _ => True := by
  induction commands generalizing s with
  | nil => exact Triple.pure (.refl s)
  | cons c rest ih =>
    apply (kvsExecuteFields_spared hrole c.1 c.2).bind
    intro ex s₁ hspared
    obtain ⟨-, -, hrole₁, -⟩ := hspared.keeps
    apply (ih (hrole₁.trans hrole)).bind
    intro replies s₂ hspared'
    exact Triple.pure (hspared.trans hspared')

theorem serveCommands_shows (hs : s.Shows M) (commands : List (List Bytes × OutputBuffer))
    (hcommands : ∀ c ∈ commands, ClientCommand c.1 ∧ c.2.Ready) :
    Triple (serveCommands commands) s (fun replies s' => s'.Shows M ∧
      replies = commands.map fun c => some (M.replicaAnswer s.isOnline s.persistenceMode c.1))
      Never := by
  induction commands generalizing s with
  | nil => exact Triple.pure ⟨hs, rfl⟩
  | cons c rest ih =>
    obtain ⟨hcmd, hready⟩ := hcommands c List.mem_cons_self
    apply (kvsExecuteFields_replica hs hcmd hready).bind
    rintro ex s₁ ⟨hspared, hs₁, hreply⟩
    obtain ⟨-, -, -, hmode, hmanager, -⟩ := hspared.keeps
    have honline : s₁.isOnline = s.isOnline := by rw [Server.isOnline, hmanager]; rfl
    have hrest := ih hs₁ fun c hc => hcommands c (List.mem_cons_of_mem _ hc)
    rw [honline, hmode] at hrest
    apply hrest.bind
    rintro replies s₂ ⟨hs₂, rfl⟩
    exact Triple.pure ⟨hs₂, by rw [hreply.reply]; rfl⟩

/-- Any sequence of commands of clients on a replica. Whatever they are and
whatever fails, they spare its state; with memory, and buckets for the keys of the
hash engine, each is answered for itself, and from the same maps. -/
theorem serveCommands_replica (s : Server) (hrole : s.role = .replica)
    (commands : List (List Bytes × OutputBuffer)) :
    Triple (serveCommands commands) s (fun _ s' => s.Spared s') (fun _ => True) ∧
      ∀ M, s.Shows M → (∀ c ∈ commands, ClientCommand c.1 ∧ c.2.Ready) →
        Triple (serveCommands commands) s (fun replies s' => s'.Shows M ∧
          replies = commands.map fun c => some (M.replicaAnswer s.isOnline s.persistenceMode c.1)) Never :=
  ⟨serveCommands_spared hrole commands, fun _ hs hcommands => serveCommands_shows hs commands hcommands⟩

/-- An online replica that holds a key: it is read and cannot be set, and the
replica saves its own snapshot. -/
theorem serveCommands_replica_online : ∃ (s s' : Server) (M : Maps) (output : OutputBuffer),
    (M .rbtree).lookup [107] = some [118] ∧ s.Shows M ∧ s.isOnline = true ∧
    serveCommands [([ascii "RGET", [107]], output), ([ascii "RSET", [107], [119]], output),
      ([ascii "SAVE"], output), ([ascii "PING"], output), ([ascii "RGET", [107]], output)] s =
      .ok ([some (ascii "$1\r\nv\r\n"), some (ascii "-ERR SET failed\r\n"), some (ascii "+OK\r\n"),
        some (ascii "+PONG\r\n"), some (ascii "$1\r\nv\r\n")], s') ∧ s.Spared s' ∧ s'.Shows M := by
  obtain ⟨rt, E, M, hmemory, hafter, hsized, hE⟩ := probe_held [true]
  let s : Server := ⟨rt, E, fun _ => some [], .start fun _ => none, some ⟨.appendonlyAof, 0, true⟩, .replica,
    .legacyHybrid, { ReplicationManager.start with
      initialized := true, role := .replica, primaryConnectionFd := some 8, state := .online }⟩
  let output : OutputBuffer := ⟨⟨some 1, 2048⟩, [], 0⟩
  let commands := [([ascii "RGET", [107]], output), ([ascii "RSET", [107], [119]], output),
    ([ascii "SAVE"], output), ([ascii "PING"], output), ([ascii "RGET", [107]], output)]
  have hready : output.Ready := ⟨by decide, by decide, by decide, by decide⟩
  have hs : s.Shows M := ⟨hE, hmemory, hsized, rfl, rfl⟩
  have hM : M = Maps.empty.put .rbtree ((Maps.empty .rbtree).insert [107] [118]) := by
    simpa [Maps.after, redo_probe] using hafter.symm
  have hcommand : ∀ fields : List Bytes, 1 ≤ fields.length → fields.length ≤ kvsMaxTokens →
      (encodeFields fields).length ≤ kvsMaxClientCommandBytes →
      (findCommand (fields.headD [])).map (·.engine) ≠ some .hash → ClientCommand fields :=
    fun fields hone hmax hsize hname =>
      ⟨hone, hmax, hsize, .of_name fun op hop => absurd (by rw [hop]; rfl) hname⟩
  have hcommands : ∀ c ∈ commands, ClientCommand c.1 ∧ c.2.Ready := by
    simp only [commands, List.mem_cons, List.not_mem_nil, or_false]
    rintro c (rfl | rfl | rfl | rfl | rfl)
    all_goals exact ⟨hcommand _ (by decide) (by decide) (by decide) (by decide), hready⟩
  obtain ⟨hspared, hshows⟩ := serveCommands_replica s rfl commands
  obtain ⟨replies, s', hrun, hs', hreplies⟩ := (hshows M hs hcommands).run
  refine ⟨s, s', M, output, ?_, hs, rfl, ?_, hspared.post hrun, hs'⟩
  · rw [hM, Maps.put_self, Finmap.lookup_insert]
  · have hanswers : [[ascii "RGET", [107]], [ascii "RSET", [107], [119]], [ascii "SAVE"], [ascii "PING"],
        [ascii "RGET", [107]]].map (M.replicaAnswer true .legacyHybrid) =
        [ascii "$1\r\nv\r\n", ascii "-ERR SET failed\r\n", ascii "+OK\r\n", ascii "+PONG\r\n",
          ascii "$1\r\nv\r\n"] := by
      rw [hM]
      decide
    rw [hrun, hreplies]
    exact congrArg (fun r => Except.ok (List.map some r, s')) hanswers

end

end KvStore
