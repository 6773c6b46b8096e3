import KvStore.Lib.Scanf
import KvStore.Lib.Split
import KvStore.Server.Boot

/-!
# The configuration file

`src/config/config.c`. A file is read line by line; each line sets one field at
most once, and what relates several fields is checked at the end. The caller's
configuration is written only when everything was accepted. What `inet_pton`
says of a string is given from outside, and so is a failure of the file itself.
-/

namespace KvStore.Configuration

open Lib

inductive LogLevel
  | error
  | info
  | debug
  deriving DecidableEq, Repr

inductive AllocatorBackend
  | system
  | pool
  deriving DecidableEq, Repr

structure KvsConfig where
  role : Role
  bindIp : Bytes
  servicePort : Nat
  rdmaPort : Nat
  replicationPort : Nat
  primaryHost : Bytes
  primaryPort : Nat
  logLevel : LogLevel
  persistenceMode : PersistenceMode
  allocatorBackend : AllocatorBackend
  deriving DecidableEq, Repr

def KvsConfig.defaults : KvsConfig where
  role := .standalone
  bindIp := ascii "0.0.0.0"
  servicePort := 0
  rdmaPort := 0
  replicationPort := 0
  primaryHost := []
  primaryPort := 0
  logLevel := .info
  persistenceMode := .legacyHybrid
  allocatorBackend := .pool

def KvsConfig.toConfig (c : KvsConfig) : Config :=
  ⟨c.role, c.persistenceMode, c.primaryHost, c.primaryPort⟩

inductive ConfigField
  | role
  | bindIp
  | servicePort
  | rdmaPort
  | logLevel
  | persistenceMode
  | replicationPort
  | primaryHost
  | primaryPort
  | allocator
  deriving DecidableEq, Repr

/-- `field_names`. -/
def ConfigField.name : ConfigField → Bytes
  | .role => ascii "role"
  | .bindIp => ascii "bind_ip"
  | .servicePort => ascii "service_port"
  | .rdmaPort => ascii "rdma_port"
  | .logLevel => ascii "log_level"
  | .persistenceMode => ascii "persistence_mode"
  | .replicationPort => ascii "replication_port"
  | .primaryHost => ascii "primary_host"
  | .primaryPort => ascii "primary_port"
  | .allocator => ascii "allocator"

def ConfigField.all : List ConfigField :=
  [.role, .bindIp, .servicePort, .rdmaPort, .logLevel, .persistenceMode, .replicationPort,
    .primaryHost, .primaryPort, .allocator]

def findField (name : Bytes) : Option ConfigField := ConfigField.all.find? (·.name = name)

def trim (text : Bytes) : Bytes :=
  ((text.dropWhile Scanf.isSpace).reverse.dropWhile Scanf.isSpace).reverse

def parsePort (text : Bytes) : Option Nat :=
  if text = [] then none
  else if ¬text.all Scanf.isDigit then none
  else
    let number := Scanf.digitsValue text
    if number > offMax ∨ number < 1 ∨ number > 65535 then none else some number

/-- The text of `config_error`: the place and the detail, each cut to its buffer. -/
def configError (path : Bytes) (lineNumber : Nat) (detail : Bytes) (errorCapacity : Nat) : Bytes :=
  let detail := detail.take 255
  let text := if lineNumber = 0 then path ++ ascii ": " ++ detail
    else path ++ ascii ":" ++ writeDecimal lineNumber ++ ascii ": " ++ detail
  text.take (errorCapacity - 1)

def quoted (before value after : Bytes) : Bytes := before ++ ascii "'" ++ value ++ ascii "'" ++ after

-- ---------------------------------------------------------------------------
-- One field
-- ---------------------------------------------------------------------------

def parseWord (words : List (Bytes × α)) (value : Bytes) : Option α :=
  (words.find? (·.1 = value)).map (·.2)

def wordField (words : List (Bytes × α)) (detail : Bytes → Bytes) (store : α → KvsConfig)
    (value : Bytes) : Except Bytes KvsConfig :=
  match parseWord words value with
  | none => .error (detail value)
  | some word => .ok (store word)

def portField (name : Bytes) (store : Nat → KvsConfig) (value : Bytes) : Except Bytes KvsConfig :=
  match parsePort value with
  | none => .error (quoted (ascii "invalid " ++ name ++ ascii " ") value (ascii "; expected 1-65535"))
  | some port => .ok (store port)

def roleWords : List (Bytes × Role) :=
  [(ascii "standalone", .standalone), (ascii "primary", .primary), (ascii "replica", .replica)]

def logLevelWords : List (Bytes × LogLevel) :=
  [(ascii "error", .error), (ascii "info", .info), (ascii "debug", .debug)]

def persistenceWords : List (Bytes × PersistenceMode) :=
  [(ascii "legacy_hybrid", .legacyHybrid), (ascii "snapshot", .snapshot), (ascii "aof", .aof)]

def allocatorWords : List (Bytes × AllocatorBackend) :=
  [(ascii "system", .system), (ascii "pool", .pool)]

def ipv4Capacity : Nat := 16
def primaryHostCapacity : Nat := 256

/-- `parse_field`: the detail of an error, or the configuration with the value.
`validIpv4` is what `inet_pton` says. -/
def parseField (validIpv4 : Bytes → Bool) (field : ConfigField) (value : Bytes) (parsed : KvsConfig) :
    Except Bytes KvsConfig :=
  match field with
  | .role =>
    wordField roleWords
      (quoted (ascii "invalid role ") · (ascii "; expected standalone, primary or replica"))
      (fun role => { parsed with role }) value
  | .bindIp =>
    if ¬validIpv4 value then
      .error (quoted (ascii "invalid bind_ip ") value (ascii "; expected an IPv4 address"))
    else .ok { parsed with bindIp := value.take (ipv4Capacity - 1) }
  | .servicePort => portField (ascii "service_port") (fun port => { parsed with servicePort := port }) value
  | .rdmaPort => portField (ascii "rdma_port") (fun port => { parsed with rdmaPort := port }) value
  | .logLevel =>
    wordField logLevelWords
      (quoted (ascii "invalid log_level ") · (ascii "; expected error, info or debug"))
      (fun logLevel => { parsed with logLevel }) value
  | .persistenceMode =>
    wordField persistenceWords
      (quoted (ascii "unsupported persistence_mode ") ·
        (ascii "; expected legacy_hybrid, snapshot or aof"))
      (fun persistenceMode => { parsed with persistenceMode }) value
  | .replicationPort =>
    portField (ascii "replication_port") (fun port => { parsed with replicationPort := port }) value
  | .primaryHost =>
    if ¬validIpv4 value ∨ value = ascii "0.0.0.0" then
      .error (quoted (ascii "invalid primary_host ") value
        (ascii "; expected a connectable IPv4 address"))
    else .ok { parsed with primaryHost := value.take (primaryHostCapacity - 1) }
  | .primaryPort =>
    portField (ascii "primary_port") (fun port => { parsed with primaryPort := port }) value
  | .allocator =>
    wordField allocatorWords (quoted (ascii "invalid allocator ") · (ascii "; expected system or pool"))
      (fun allocatorBackend => { parsed with allocatorBackend }) value

-- ---------------------------------------------------------------------------
-- The lines
-- ---------------------------------------------------------------------------

def hash : UInt8 := 35
def equalSign : UInt8 := 61

structure Parsed where
  config : KvsConfig
  fieldLine : ConfigField → Option Nat

def Parsed.start : Parsed := ⟨.defaults, fun _ => none⟩

/-- The lines `getline` returns, without their ends. -/
def getlines (file : Bytes) : List Bytes :=
  let (lines, rest) := splitFrom lf [] file
  if rest = [] then lines else lines ++ [rest]

inductive Entry
  | nothing
  | noEqual
  | noPair
  | pair (key value : Bytes)
  deriving DecidableEq, Repr

def readEntry (line : Bytes) : Entry :=
  let entry := trim (line.takeWhile (· ≠ 0))
  if entry = [] ∨ entry.head? = some hash then .nothing
  else
    match entry.findIdx? (· == equalSign) with
    | none => .noEqual
    | some equal =>
      let key := trim (entry.take equal)
      let value := trim (entry.drop (equal + 1))
      if key = [] ∨ value = [] ∨ equalSign ∈ value then .noPair else .pair key value

/-- One round of the loop of `kvs_config_load`, or the detail of its error. -/
def readLine (validIpv4 : Bytes → Bool) (lineNumber : Nat) (line : Bytes) (p : Parsed) :
    Except Bytes Parsed :=
  match readEntry line with
  | .nothing => .ok p
  | .noEqual => .error (ascii "expected 'key = value'")
  | .noPair => .error (ascii "expected one non-empty 'key = value' pair")
  | .pair key value =>
    match findField key with
    | none => .error (quoted (ascii "unknown field ") key [])
    | some field =>
      match p.fieldLine field with
      | some first =>
        .error (quoted (ascii "duplicate field ") key
          (ascii "; first defined on line " ++ writeDecimal first))
      | none =>
        match parseField validIpv4 field value p.config with
        | .error detail => .error detail
        | .ok config =>
          .ok ⟨config, fun f => if f = field then some lineNumber else p.fieldLine f⟩

def readLines (validIpv4 : Bytes → Bool) : Nat → List Bytes → Parsed → Except (Nat × Bytes) Parsed
  | _, [], p => .ok p
  | lineNumber, line :: lines, p =>
    match readLine validIpv4 (lineNumber + 1) line p with
    | .error detail => .error (lineNumber + 1, detail)
    | .ok p => readLines validIpv4 (lineNumber + 1) lines p

-- ---------------------------------------------------------------------------
-- The whole file
-- ---------------------------------------------------------------------------

def onlyFor (fields : List (ConfigField × Bytes)) (p : Parsed) : Option (Nat × Bytes) :=
  match fields with
  | [] => none
  | (field, detail) :: fields =>
    match p.fieldLine field with
    | some line => some (line, detail)
    | none => onlyFor fields p

def required (fields : List (ConfigField × Bytes)) (p : Parsed) : Option (Nat × Bytes) :=
  match fields with
  | [] => none
  | (field, detail) :: fields =>
    match p.fieldLine field with
    | some _ => required fields p
    | none => some (0, detail)

/-- The switch of `validate_config` over the roles. -/
def validateRole (p : Parsed) : Option (Nat × Bytes) :=
  match p.config.role with
  | .standalone =>
    (onlyFor [(.replicationPort, ascii "replication_port is only valid for role=primary"),
        (.primaryHost, ascii "primary_host is only valid for role=replica"),
        (.primaryPort, ascii "primary_port is only valid for role=replica")] p).or
      (if p.config.persistenceMode ≠ .snapshot ∧ p.config.persistenceMode ≠ .aof then
        some ((p.fieldLine .persistenceMode).getD 0,
          ascii "standalone supports only persistence_mode=snapshot or aof")
      else none)
  | .primary =>
    onlyFor [(.replicationPort, ascii "replication_port has been removed; use service_port"),
      (.primaryHost, ascii "primary_host is only valid for role=replica"),
      (.primaryPort, ascii "primary_port is only valid for role=replica")] p
  | .replica =>
    (required [(.primaryHost, ascii "role=replica requires primary_host"),
        (.primaryPort, ascii "role=replica requires primary_port")] p).or
      (onlyFor [(.replicationPort, ascii "replication_port is only valid for role=primary; " ++
        ascii "use primary_port for role=replica")] p)

/-- The part of `validate_config` about `rdma_port`, once it is there. -/
def validateRdma (p : Parsed) : Option (Nat × Bytes) :=
  match p.fieldLine .rdmaPort with
  | none => none
  | some line =>
    if p.config.role ≠ .primary then some (line, ascii "rdma_port is only valid for role=primary")
    else if p.config.rdmaPort = p.config.servicePort then
      some (line, ascii "rdma_port must differ from service_port")
    else none

/-- `validate_config`: the line and the detail of its error. -/
def validateConfig (p : Parsed) : Option (Nat × Bytes) :=
  (required [(.role, ascii "missing required field 'role'"),
      (.servicePort, ascii "missing required field 'service_port'"),
      (.persistenceMode, ascii "missing required field 'persistence_mode'")] p).or <|
  (validateRdma p).or <|
  (validateRole p).or <|
  (if (p.config.role = .primary ∨ p.config.role = .replica) ∧
      p.config.persistenceMode ≠ .legacyHybrid then
    some ((p.fieldLine .persistenceMode).getD 0,
      ascii "primary/replica currently support only persistence_mode=legacy_hybrid")
  else none).or <|
  if p.config.role = .primary then
    required [(.rdmaPort, ascii "role=primary requires rdma_port")] p
  else none

/-- A file, with what `strerror` says if it cannot be read to the end or closed. -/
structure ConfigFile where
  contents : Bytes
  readFailure : Option Bytes
  closeFailure : Option Bytes

/-- What the lines and `validate_config` make of a file. -/
def loadFile (validIpv4 : Bytes → Bool) (file : ConfigFile) : Except (Nat × Bytes) KvsConfig :=
  match readLines validIpv4 0 (getlines file.contents) .start with
  | .error e => .error e
  | .ok p =>
    match file.readFailure with
    | some reason => .error ((getlines file.contents).length, ascii "failed while reading file: " ++ reason)
    | none =>
      match validateConfig p with
      | some e => .error e
      | none =>
        match file.closeFailure with
        | some reason => .error (0, ascii "failed to close file: " ++ reason)
        | none => .ok p.config

/-- `kvs_config_load` into `config`, from a file or from one that cannot be
opened: the result, the object after it and the error text. -/
def kvsConfigLoad (validIpv4 : Bytes → Bool) (path : Bytes) (file : Except Bytes ConfigFile)
    (errorCapacity : Nat) (config : KvsConfig) : Int × KvsConfig × Bytes :=
  if errorCapacity = 0 then (-1, config, [])
  else if path = [] then
    (-1, config, configError (ascii "config") 0 (ascii "path and output config must not be empty")
      errorCapacity)
  else
    match file with
    | .error reason =>
      (-1, config, configError path 0 (ascii "cannot open file: " ++ reason) errorCapacity)
    | .ok file =>
      match loadFile validIpv4 file with
      | .error (line, detail) => (-1, config, configError path line detail errorCapacity)
      | .ok parsed => (0, parsed, [])

end KvStore.Configuration
