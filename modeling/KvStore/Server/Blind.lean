import KvStore.Server.Commands

/-!
# Commands do not touch the replication manager

A command reads the manager only to learn whether the server is online, and
never changes it: with another manager that answers alike, it runs alike.
-/

namespace KvStore

open Lib

structure ManagedBy (m : ReplicationManager) (s t : Server) : Prop where
  same : t = { s with replication := m }
  online : t.isOnline = s.isOnline

/-- The program runs alike with another manager and leaves it alone. -/
def Blind (p : Serve α) : Prop := ∀ m s t, ManagedBy m s t → Lockstep (ManagedBy m) p s p t

section
variable {p : Serve α} {s s' t : Server} {m : ReplicationManager}

theorem ManagedBy.self (s : Server) : ManagedBy s.replication s s := ⟨rfl, rfl⟩

theorem Blind.replication (h : Blind p) (hrun : p s = .ok (a, s')) :
    s'.replication = s.replication := by
  obtain ⟨t, ht, hmanaged⟩ := (h _ s s (.self s)).run hrun
  rw [hrun] at ht
  obtain ⟨-, rfl⟩ := Prod.mk.inj (Except.ok.inj ht)
  rw [hmanaged.same]

theorem ManagedBy.congr (h : ManagedBy m s t) (hs : s'.replication = s.replication) :
    ManagedBy m s' { s' with replication := m } := by
  refine ⟨rfl, ?_⟩
  have honline := h.online
  rw [h.same] at honline
  unfold Server.isOnline at honline ⊢
  rw [hs]
  exact honline

theorem Blind.bind {f : α → Serve β} (h : Blind p) (hf : ∀ a, Blind (f a)) : Blind (p >>= f) :=
  fun m s t hmanaged => (h m s t hmanaged).bind fun a s' t' h' => hf a m s' t' h'

theorem Blind.pure (a : α) : Blind (Pure.pure a : Serve α) := fun _ _ _ h => .pure h

theorem Blind.throw (e : Stop) : Blind (MonadExcept.throw e : Serve α) := fun _ _ _ _ => .throw

theorem Blind.ite {c : Prop} [Decidable c] {p q : Serve α} (hp : Blind p) (hq : Blind q) :
    Blind (if c then p else q) := fun m s t h => .ite (fun _ => hp m s t h) fun _ => hq m s t h

theorem Blind.get_bind {f : Server → Serve α} (hread : ∀ m s t, ManagedBy m s t → f t = f s)
    (hf : ∀ s, Blind (f s)) : Blind (MonadState.get >>= f) := by
  intro m s t h
  refine Lockstep.get_bind ?_
  rw [hread m s t h]
  exact hf s m s t h

theorem Blind.modify {g : Server → Server}
    (hg : ∀ s m, g { s with replication := m } = { g s with replication := m })
    (hkeep : ∀ s, (g s).replication = s.replication) : Blind (modify g) := by
  intro m s t h
  refine ⟨g t, rfl, ?_⟩
  have hsame : g t = { g s with replication := m } := by rw [h.same, hg s m]
  rw [hsame]
  exact h.congr (hkeep s)

theorem onRuntime_lockstep {q : Run α} {f f' : α → Serve β} {R : Server → Server → Prop}
    (hrt : t.rt = s.rt)
    (hf : ∀ a rt', Lockstep R (f a) { s with rt := rt' } (f' a) { t with rt := rt' }) :
    Lockstep R (KvStore.onRuntime q >>= f) s (KvStore.onRuntime q >>= f') t := by
  have hstep : Lockstep (fun s' t' => ∃ rt', s' = { s with rt := rt' } ∧ t' = { t with rt := rt' })
      (KvStore.onRuntime q) s (KvStore.onRuntime q) t := by
    unfold Lockstep KvStore.onRuntime zoom
    dsimp only
    rw [hrt]
    cases q s.rt with
    | ok r => exact ⟨_, rfl, _, rfl, rfl⟩
    | error e => rfl
  refine hstep.bind fun a s' t' h => ?_
  obtain ⟨rt', rfl, rfl⟩ := h
  exact hf a rt'

theorem Blind.onRuntime (q : Run α) : Blind (KvStore.onRuntime q) := by
  intro m s t h
  obtain rfl := h.same
  unfold Lockstep KvStore.onRuntime zoom
  cases q s.rt with
  | ok r => exact ⟨_, rfl, h.congr rfl⟩
  | error e => rfl

theorem Blind.fileRequest (request : FileRequest) : Blind (KvStore.fileRequest request) := by
  intro m s t h
  obtain rfl := h.same
  exact ⟨_, rfl, h.congr rfl⟩

-- ---------------------------------------------------------------------------
-- The functions of the dispatcher
-- ---------------------------------------------------------------------------

theorem writeLog_blind (writer : AofWriter) (data : Bytes) : Blind (writeLog writer data) := by
  refine (Blind.fileRequest _).bind fun failure => ?_
  exact Blind.bind (.modify (fun _ _ => rfl) fun _ => rfl) fun _ => .pure _

theorem syncLog_blind (writer : AofWriter) : Blind (syncLog writer) := by
  refine (Blind.fileRequest _).bind fun failure => ?_
  exact Blind.bind (.modify (fun _ _ => rfl) fun _ => rfl) fun _ => .pure _

theorem kvsAofAppend_blind (tokens : List Bytes) : Blind (kvsAofAppend tokens) := by
  unfold kvsAofAppend
  refine Blind.get_bind (fun m s t h => by rw [h.same]) fun s => ?_
  cases s.aofWriter with
  | none => exact .pure _
  | some writer =>
    refine .ite (.pure _) ?_
    cases kvsEncodedCommandSize tokens with
    | none => exact .pure _
    | some required =>
      refine (Blind.onRuntime _).bind fun r => ?_
      cases r with
      | none => exact .pure _
      | some encoded =>
        cases kvsEncodeCommand tokens required with
        | none => exact (Blind.onRuntime _).bind fun _ => .pure _
        | some bytes =>
          refine .ite ((Blind.onRuntime _).bind fun _ => .pure _) ?_
          refine (writeLog_blind _ _).bind fun written => (Blind.onRuntime _).bind fun _ => ?_
          refine .ite (.pure _) ((syncLog_blind _).bind fun synced => .ite ?_ (.pure _))
          exact Blind.bind (.modify (fun _ _ => rfl) fun _ => rfl) fun _ => .pure _

theorem runEngine_blind (cmd : CommandId) (key value : Option Bytes) :
    Blind (runEngine cmd key value) := by
  have hput : ∀ r : Int × cmd.engine.Instance, Blind (do
      putInstance cmd.engine r.2
      return r.1) := by
    intro r
    have hmodify : Blind (putInstance cmd.engine r.2) :=
      .modify (fun _ _ => rfl) fun _ => rfl
    exact hmodify.bind fun _ => .pure _
  unfold runEngine
  refine Blind.get_bind (fun m s t h => by rw [h.same]) fun s => ?_
  split
  · exact (Blind.onRuntime _).bind hput
  · exact (Blind.onRuntime _).bind hput
  · exact (Blind.onRuntime _).bind hput
  · exact .onRuntime _
  · exact .pure _
  · exact .pure _

theorem kvsGetValue_blind (engine : EngineId) (key : Bytes) : Blind (kvsGetValue engine key) :=
  Blind.get_bind (fun m s t h => by rw [h.same]) fun _ => .onRuntime _

theorem kvsFilterProtocol_blind (tokens : List Bytes) (source : CommandSource)
    (status : ExecStatus) : Blind (kvsFilterProtocol tokens source status) := by
  unfold kvsFilterProtocol
  refine Blind.get_bind (fun m s t h => by rw [h.same]) fun s => ?_
  cases findCommand (tokens.headD []) with
  | none => exact .pure _
  | some cmd =>
    refine .ite (.pure _) (.ite ?_ ?_)
    · cases tokens[1]? with
      | none => exact .pure _
      | some key =>
        refine (kvsGetValue_blind _ _).bind fun value => ?_
        cases value with
        | none => exact .pure _
        | some value => exact .pure _
    · refine (runEngine_blind _ _ _).bind fun ret => .ite ?_ (.pure _)
      exact (kvsAofAppend_blind tokens).bind fun code => .ite (.throw _) (.pure _)

theorem kvsSaveCurrentSnapshot_blind : Blind kvsSaveCurrentSnapshot := by
  have hwrite : ∀ path file, Blind (do
      modify fun s => { s with disk := s.disk.write path file }
      return true) := by
    intro path file
    have hmodify : Blind (modify fun s => { s with disk := s.disk.write path file }) :=
      .modify (fun _ _ => rfl) fun _ => rfl
    exact hmodify.bind fun _ => .pure _
  unfold kvsSaveCurrentSnapshot
  refine Blind.get_bind (fun m s t h => by rw [h.same]; rfl) fun s => ?_
  cases s.persistenceMode with
  | snapshot =>
    refine (Blind.onRuntime _).bind fun file => ?_
    cases file with
    | none => exact .pure _
    | some file => exact hwrite _ _
  | legacyHybrid =>
    cases s.aofOffset with
    | none => exact .pure _
    | some offset =>
      refine (Blind.onRuntime _).bind fun file => ?_
      cases file with
      | none => exact .pure _
      | some file => exact hwrite _ _
  | aof => exact .pure _

theorem saveReply_blind (fieldCount : Nat) : Blind (saveReply fieldCount) :=
  .ite (.pure _) (kvsSaveCurrentSnapshot_blind.bind fun _ => .ite (.pure _) (.pure _))

theorem getReply_blind (engine : EngineId) (key : Bytes) (output : OutputBuffer) (capacity : Nat) :
    Blind (getReply engine key output capacity) := by
  refine (kvsGetValue_blind engine key).bind fun value => ?_
  cases value with
  | none => exact .pure _
  | some value => exact .onRuntime _

theorem runCommand_blind (tokens : List Bytes) (cmd : Option CommandId) (output : OutputBuffer)
    (source : CommandSource) : Blind (runCommand tokens cmd output source) := by
  unfold runCommand
  split
  · exact (getReply_blind _ _ _ _).bind fun _ => .pure _
  · refine Blind.bind ((kvsFilterProtocol_blind _ _ _).bind fun _ => .pure _) fun r => ?_
    dsimp only
    split
    · exact .pure _
    · exact .pure _

theorem executeTokens_blind (tokens : List Bytes) (output : OutputBuffer) (source : CommandSource) :
    Blind (executeTokens tokens output source) := by
  unfold executeTokens
  refine Blind.get_bind (fun m s t h => by rw [h.online, h.same]) fun s => ?_
  refine .ite (.pure _) (.ite (.pure _) (.ite ((saveReply_blind _).bind fun _ => .pure _) ?_))
  cases findCommand (tokens.headD []) with
  | none => exact .ite (.pure _) (runCommand_blind _ _ _ _)
  | some cmd => exact .ite (.pure _) (runCommand_blind _ _ _ _)

/-- One command, from whatever source. -/
theorem kvsExecuteFields_blind (fields : List Bytes) (output : OutputBuffer)
    (source : CommandSource) : Blind (kvsExecuteFields fields output source) := by
  unfold kvsExecuteFields
  refine .ite (.pure _) (.ite (.pure _) ((Blind.onRuntime _).bind fun tokens => ?_))
  cases tokens with
  | none => exact .pure _
  | some tokens =>
    exact (executeTokens_blind _ _ _).bind fun _ => (Blind.onRuntime _).bind fun _ => .pure _

end

end KvStore
