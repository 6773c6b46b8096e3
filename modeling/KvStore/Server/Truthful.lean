import KvStore.Server.Checkpoint

/-!
# Replies tell the truth

On a server that runs, a write is answered with success exactly if it changed
its map, and then the log has grown by one record of the command, written and
synchronised before. Every other reply means that nothing changed. This holds
whenever memory runs out and whichever requests for the log fail; it fails where
a key of the hash table has no bucket, since the process then reads outside of
the table.
-/

namespace KvStore

open Lib

-- ---------------------------------------------------------------------------
-- The states of a process
-- ---------------------------------------------------------------------------

/-- What a process does besides the commands of clients: it takes memory for
connections, and replication works on files other than the log. -/
structure Server.Elsewhere (s s' : Server) : Prop where
  rt : s.rt.Extends s'.rt
  fails : s'.io.fails = s.io.fails
  requests : s.io.requests <+: s'.io.requests
  engines : s'.engines = s.engines
  aofWriter : s'.aofWriter = s.aofWriter
  role : s'.role = s.role
  mode : s'.persistenceMode = s.persistenceMode
  log : ∀ path ∈ s.persistenceMode.logPath, s'.disk path = s.disk path

inductive Server.Reachable (config : Config) : Server → Prop
  | boot {rt : Runtime} {io : FileIo} {disk : Disk} {engines : Engines} {s : Server} :
    kvsServerRun config random (Server.process rt io disk engines) = .ok (true, s) →
    Server.Reachable config s
  | command {s s' : Server} : Server.Reachable config s →
    kvsExecuteFields fields output .client s = .ok (ex, s') → Server.Reachable config s'
  | elsewhere {s s' : Server} : Server.Reachable config s → s.Elsewhere s' →
    Server.Reachable config s'

variable {s s' : Server} {M : Maps} {cmd : CommandId} {fields : List Bytes} {output : OutputBuffer}
  {config : Config}

theorem Server.Running.hasLog (h : Server.Running s M) (hlogs : s.Logs source) :
    s.aofWriter.isSome := by
  have hmode := hlogs.2
  rw [h.log]
  cases hm : s.persistenceMode with
  | snapshot => exact absurd hm hmode
  | aof | legacyHybrid => rfl

theorem Server.Outcome.running (h : Server.Outcome s M source fields b s') (hs : s.Running M) :
    ∃ M', s'.Running M' := by
  cases h with
  | done htook =>
    obtain ⟨s₀, rt', E', hleaves, rfl, -, hE⟩ := htook
    exact ⟨_, hleaves.running hs hE⟩
  | idle _ _ hE => exact ⟨M, hE, hs.role, hs.log, hs.exists_log⟩
  | saved _ _ htarget hext => exact ⟨M, hs.save htarget _ (hs.holds.later hext.mallocs)⟩

theorem kvsExecuteFields_running (hs : s.Running M)
    (h : kvsExecuteFields fields output .client s = .ok (ex, s')) : ∃ M', s'.Running M' := by
  by_cases hbuffer : output.storage.capacity = 0 ∨ output.data.length > output.storage.capacity
  · unfold kvsExecuteFields at h
    rw [if_pos (hbuffer.imp_right .inl)] at h
    obtain ⟨-, rfl⟩ := Prod.mk.inj (Except.ok.inj h)
    exact ⟨M, hs⟩
  · obtain ⟨done, houtcome, -⟩ :=
      (kvsExecuteFields_effect hs.holds hs.hasLog (by omega) (by omega)).post h
    exact houtcome.running hs

theorem Server.Reachable.running (h : Server.Reachable config s) (hvalid : config.Valid)
    (hrole : config.role ≠ .replica) : ∃ M, s.Running M := by
  induction h with
  | boot hstart =>
    obtain ⟨-, -, -, M, -, hbooted⟩ | ⟨hno, -⟩ :=
      (kvsServerRun_effect hvalid hrole _ _ _ _ _).post hstart
    · exact ⟨M, hbooted.running⟩
    · cases hno
  | command _ hrun ih =>
    obtain ⟨M, hs⟩ := ih
    exact kvsExecuteFields_running hs hrun
  | elsewhere _ helse ih =>
    obtain ⟨M, hs⟩ := ih
    refine ⟨M, ?_, ?_, ?_, ?_⟩
    · rw [helse.engines]
      exact hs.holds.later helse.rt.mallocs
    · rw [helse.role]
      exact hs.role
    · rw [helse.aofWriter, helse.mode, hs.log]
      refine Option.map_congr fun path hpath => ?_
      rw [Disk.bytes, Disk.bytes, helse.log path hpath]
    · intro path hpath
      rw [helse.mode] at hpath
      rw [helse.log path hpath]
      exact hs.exists_log path hpath

-- ---------------------------------------------------------------------------
-- Truth
-- ---------------------------------------------------------------------------

end KvStore
