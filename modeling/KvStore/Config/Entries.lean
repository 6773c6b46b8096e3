import KvStore.Config.Load

/-!
# A configuration is a function of its entries

The lines of a file may be permuted, blank lines and comments added or removed
and the blanks around keys and values changed: whether the file is accepted, and
as which configuration, stays the same. Setting a field commutes with setting
another one, so only the entries count and not their order.
-/

namespace KvStore.Configuration

open Lib

-- ---------------------------------------------------------------------------
-- Settings
-- ---------------------------------------------------------------------------

inductive Setting
  | role (role : Role)
  | bindIp (ip : Bytes)
  | servicePort (port : Nat)
  | rdmaPort (port : Nat)
  | logLevel (level : LogLevel)
  | persistenceMode (mode : PersistenceMode)
  | replicationPort (port : Nat)
  | primaryHost (host : Bytes)
  | primaryPort (port : Nat)
  | allocator (backend : AllocatorBackend)

def Setting.field : Setting → ConfigField
  | .role _ => .role
  | .bindIp _ => .bindIp
  | .servicePort _ => .servicePort
  | .rdmaPort _ => .rdmaPort
  | .logLevel _ => .logLevel
  | .persistenceMode _ => .persistenceMode
  | .replicationPort _ => .replicationPort
  | .primaryHost _ => .primaryHost
  | .primaryPort _ => .primaryPort
  | .allocator _ => .allocator

def put (c : KvsConfig) : Setting → KvsConfig
  | .role role => { c with role }
  | .bindIp bindIp => { c with bindIp }
  | .servicePort servicePort => { c with servicePort }
  | .rdmaPort rdmaPort => { c with rdmaPort }
  | .logLevel logLevel => { c with logLevel }
  | .persistenceMode persistenceMode => { c with persistenceMode }
  | .replicationPort replicationPort => { c with replicationPort }
  | .primaryHost primaryHost => { c with primaryHost }
  | .primaryPort primaryPort => { c with primaryPort }
  | .allocator allocatorBackend => { c with allocatorBackend }

theorem put_comm (c : KvsConfig) {x y : Setting} (h : x.field ≠ y.field) :
    put (put c x) y = put (put c y) x := by
  cases x <;> cases y <;> first | rfl | exact absurd rfl h

def settingOf (validIpv4 : Bytes → Bool) (value : Bytes) : ConfigField → Option Setting
  | .role => (parseWord roleWords value).map .role
  | .bindIp => if validIpv4 value then some (.bindIp (value.take (ipv4Capacity - 1))) else none
  | .servicePort => (parsePort value).map .servicePort
  | .rdmaPort => (parsePort value).map .rdmaPort
  | .logLevel => (parseWord logLevelWords value).map .logLevel
  | .persistenceMode => (parseWord persistenceWords value).map .persistenceMode
  | .replicationPort => (parsePort value).map .replicationPort
  | .primaryHost =>
    if ¬validIpv4 value ∨ value = ascii "0.0.0.0" then none
    else some (.primaryHost (value.take (primaryHostCapacity - 1)))
  | .primaryPort => (parsePort value).map .primaryPort
  | .allocator => (parseWord allocatorWords value).map .allocator

variable {validIpv4 : Bytes → Bool} {field : ConfigField} {value : Bytes}

theorem settingOf_field (h : settingOf validIpv4 value field = some x) : x.field = field := by
  cases field <;> simp only [settingOf, Option.map_eq_some_iff] at h
  all_goals
    first
      | (obtain ⟨_, -, rfl⟩ := h; rfl)
      | (split at h <;> cases h; rfl)

theorem parseField_setting (c : KvsConfig) :
    (parseField validIpv4 field value c).toOption = (settingOf validIpv4 value field).map (put c) := by
  have hword : ∀ {α : Type} (words : List (Bytes × α)) detail (store : α → KvsConfig),
      (wordField words detail store value).toOption = (parseWord words value).map store := by
    intro α words detail store
    unfold wordField
    cases parseWord words value <;> rfl
  have hport : ∀ name (store : Nat → KvsConfig),
      (portField name store value).toOption = (parsePort value).map store := by
    intro name store
    unfold portField
    cases parsePort value <;> rfl
  cases field with
  | bindIp =>
    simp only [parseField, settingOf]
    by_cases h : validIpv4 value = true <;> simp [h, Except.toOption, put]
  | primaryHost =>
    simp only [parseField, settingOf]
    split <;> rfl
  | role | logLevel | persistenceMode | allocator =>
    simp only [parseField, settingOf, hword, Option.map_map]
    rfl
  | servicePort | rdmaPort | replicationPort | primaryPort =>
    simp only [parseField, settingOf, hport, Option.map_map]
    rfl

-- ---------------------------------------------------------------------------
-- Blanks
-- ---------------------------------------------------------------------------

def Blank (w : Bytes) : Prop := ∀ b ∈ w, Scanf.isSpace b = true

def trimLeft (x : Bytes) : Bytes := x.dropWhile Scanf.isSpace

def trimRight (x : Bytes) : Bytes := (x.reverse.dropWhile Scanf.isSpace).reverse

theorem trim_eq (x : Bytes) : trim x = trimRight (trimLeft x) := rfl

theorem Blank.reverse (h : Blank w) : Blank w.reverse := fun b hb => h b (List.mem_reverse.mp hb)

theorem trimLeft_blank (h : Blank w) (x : Bytes) : trimLeft (w ++ x) = trimLeft x :=
  List.dropWhile_append_of_pos h

theorem trimRight_blank (x : Bytes) (h : Blank w) : trimRight (x ++ w) = trimRight x := by
  unfold trimRight
  rw [List.reverse_append, List.dropWhile_append_of_pos h.reverse]

theorem trimLeft_stop (x : Bytes) {c : UInt8} (hc : Scanf.isSpace c = false) (y : Bytes) :
    trimLeft (x ++ c :: y) = trimLeft x ++ c :: y := by
  unfold trimLeft
  rw [List.dropWhile_append]
  split
  · rename_i hnil
    rw [List.isEmpty_iff] at hnil
    simp [hnil, hc]
  · rfl

theorem trimRight_stop (x : Bytes) {c : UInt8} (hc : Scanf.isSpace c = false) (y : Bytes) :
    trimRight (x ++ c :: y) = x ++ c :: trimRight y := by
  have hrev : (x ++ c :: y).reverse = y.reverse ++ c :: x.reverse := by simp
  unfold trimRight
  rw [hrev]
  have hleft := trimLeft_stop y.reverse hc x.reverse
  unfold trimLeft at hleft
  rw [hleft]
  simp

theorem blank_or_stop (x : Bytes) :
    Blank x ∨ ∃ w c y, x = w ++ c :: y ∧ Scanf.isSpace c = false ∧ trimLeft x = c :: y := by
  induction x with
  | nil => exact .inl nofun
  | cons b x ih =>
    by_cases hb : Scanf.isSpace b = true
    · obtain hblank | ⟨w, c, y, rfl, hc, htrim⟩ := ih
      · left
        intro b' hb'
        obtain rfl | hb' := List.mem_cons.mp hb'
        · exact hb
        · exact hblank b' hb'
      · exact .inr ⟨b :: w, c, y, rfl, hc, by simpa [trimLeft, hb] using htrim⟩
    · right
      exact ⟨[], b, x, rfl, by simpa using hb, by simp [trimLeft, hb]⟩

theorem trim_of_blank (h : Blank w) : trim w = [] := by
  have hnil := trimLeft_blank h []
  rw [List.append_nil] at hnil
  rw [trim_eq, hnil]
  rfl

theorem trim_blank_left (h : Blank w) (x : Bytes) : trim (w ++ x) = trim x := by
  rw [trim_eq, trimLeft_blank h, ← trim_eq]

theorem trim_blank_right (x : Bytes) (h : Blank w) : trim (x ++ w) = trim x := by
  obtain hblank | ⟨v, c, y, rfl, hc, htrim⟩ := blank_or_stop x
  · rw [trim_blank_left hblank, trim_of_blank h, trim_of_blank hblank]
  · rw [List.append_assoc, List.cons_append, trim_eq, trim_eq, trimLeft_stop v hc, trimLeft_stop v hc,
      trimRight_stop _ hc, trimRight_stop _ hc, trimRight_blank y h]

theorem trim_trimLeft (x : Bytes) : trim (trimLeft x) = trim x := by
  have hsplit : x = x.takeWhile Scanf.isSpace ++ trimLeft x := List.takeWhile_append_dropWhile.symm
  have hblank : Blank (x.takeWhile Scanf.isSpace) := List.all_eq_true.mp List.all_takeWhile
  conv => rhs; rw [hsplit]
  rw [trim_blank_left hblank]

theorem trim_trimRight (x : Bytes) : trim (trimRight x) = trim x := by
  have hblank : Blank (x.reverse.takeWhile Scanf.isSpace) := List.all_eq_true.mp List.all_takeWhile
  have hsplit : x = trimRight x ++ (x.reverse.takeWhile Scanf.isSpace).reverse := by
    unfold trimRight
    rw [← List.reverse_append, List.takeWhile_append_dropWhile, List.reverse_reverse]
  conv => rhs; rw [hsplit]
  rw [trim_blank_right _ hblank.reverse]

theorem head?_trim (x : Bytes) : (trim x).head? = (trimLeft x).head? := by
  obtain hblank | ⟨w, c, y, rfl, hc, htrim⟩ := blank_or_stop x
  · have hnil := trimLeft_blank hblank []
    rw [List.append_nil] at hnil
    rw [trim_of_blank hblank, hnil]
    rfl
  · rw [trim_eq, htrim]
    have hstop := trimRight_stop [] hc y
    rw [List.nil_append] at hstop
    rw [hstop]
    rfl

-- ---------------------------------------------------------------------------
-- Entries
-- ---------------------------------------------------------------------------

theorem takeWhile_string {x : Bytes} (h : 0 ∉ x) : x.takeWhile (fun b => decide (b ≠ 0)) = x := by
  have hall : ∀ b ∈ x, decide (b ≠ 0) = true := by
    intro b hb
    simpa using fun hzero : b = 0 => h (hzero ▸ hb)
  have hwhole := Scanf.takeWhile_all (x := []) hall nofun
  rwa [List.append_nil] at hwhole

theorem readEntry_blank (h : Blank line) : readEntry line = .nothing := by
  have hzero : 0 ∉ line := fun hmem => absurd (h 0 hmem) (by decide)
  simp only [readEntry, takeWhile_string hzero, trim_of_blank h, true_or, if_true]

theorem readEntry_comment (h : Blank w) (text : Bytes) : readEntry (w ++ hash :: text) = .nothing := by
  have hzero : 0 ∉ w := fun hmem => absurd (h 0 hmem) (by decide)
  have hstring : (w ++ hash :: text).takeWhile (fun b : UInt8 => decide (b ≠ 0)) =
      w ++ hash :: text.takeWhile (fun b : UInt8 => decide (b ≠ 0)) := by
    rw [List.takeWhile_append_of_pos]
    · simp [hash]
    · intro b hb
      simpa using fun h0 : b = 0 => hzero (h0 ▸ hb)
  have hspace : Scanf.isSpace hash = false := by decide
  have hhead := head?_trim (hash :: text.takeWhile (fun b : UInt8 => decide (b ≠ 0)))
  simp only [readEntry, hstring, trim_blank_left h]
  rw [hhead]
  simp [trimLeft, hspace]

def pairEntry (key value : Bytes) : Entry :=
  if key.head? = some hash then .nothing
  else if key = [] ∨ value = [] ∨ equalSign ∈ value then .noPair
  else .pair key value

theorem readEntry_equal {left right : Bytes} (hleft : equalSign ∉ left) (hleft0 : 0 ∉ left)
    (hright0 : 0 ∉ right) :
    readEntry (left ++ equalSign :: right) = pairEntry (trim left) (trim right) := by
  have hspace : Scanf.isSpace equalSign = false := by decide
  have hne : (0 : UInt8) ≠ equalSign := by decide
  have hzero : 0 ∉ left ++ equalSign :: right := by simp [hleft0, hright0, hne]
  have hentry : trim (left ++ equalSign :: right) = trimLeft left ++ equalSign :: trimRight right := by
    rw [trim_eq, trimLeft_stop _ hspace, trimRight_stop _ hspace]
  have hfind : (trimLeft left ++ equalSign :: trimRight right).findIdx? (· == equalSign) =
      some (trimLeft left).length := by
    have hnone : (trimLeft left).findIdx? (· == equalSign) = none := by
      rw [List.findIdx?_eq_none_iff]
      intro b hb
      have hmem : b ∈ left := (List.dropWhile_sublist Scanf.isSpace).subset hb
      simpa using fun h : b = equalSign => hleft (h ▸ hmem)
    simp [List.findIdx?_append, hnone, List.findIdx?_cons]
  have htake : (trimLeft left ++ equalSign :: trimRight right).take (trimLeft left).length =
      trimLeft left := List.take_left
  have hdrop : (trimLeft left ++ equalSign :: trimRight right).drop ((trimLeft left).length + 1) =
      trimRight right := by simp
  have hhead : ((trimLeft left ++ equalSign :: trimRight right).head? = some hash) ↔
      (trim left).head? = some hash := by
    rw [head?_trim, List.head?_append]
    cases h : (trimLeft left).head? with
    | none => simp [equalSign, hash]
    | some b => simp
  simp only [readEntry, takeWhile_string hzero, hentry, hfind, htake, hdrop, trim_trimLeft,
    trim_trimRight, hhead, pairEntry]
  simp

theorem readEntry_pair (hkey : equalSign ∉ key) (hkey0 : 0 ∉ key) (hvalue0 : 0 ∉ value) (h₁ : Blank w₁)
    (h₂ : Blank w₂) (h₃ : Blank w₃) (h₄ : Blank w₄) :
    readEntry (w₁ ++ key ++ w₂ ++ equalSign :: (w₃ ++ value ++ w₄)) = pairEntry (trim key) (trim value) := by
  have hblank : ∀ w, Blank w → 0 ∉ w ∧ equalSign ∉ w := fun w hw =>
    ⟨fun hmem => absurd (hw 0 hmem) (by decide), fun hmem => absurd (hw equalSign hmem) (by decide)⟩
  rw [readEntry_equal, trim_blank_right _ h₂, trim_blank_left h₁, trim_blank_right _ h₄,
    trim_blank_left h₃]
  · simp [hblank w₁ h₁, hblank w₂ h₂, hkey]
  · simp [hblank w₁ h₁, hblank w₂ h₂, hkey0]
  · simp [hblank w₃ h₃, hblank w₄ h₄, hvalue0]

-- ---------------------------------------------------------------------------
-- Entries in any order
-- ---------------------------------------------------------------------------

/-- What the entries so far amount to: the configuration and the fields set. -/
structure View where
  config : KvsConfig
  seen : ConfigField → Bool

def Parsed.view (p : Parsed) : View := ⟨p.config, fun f => (p.fieldLine f).isSome⟩

def View.start : View := ⟨.defaults, fun _ => false⟩

def assign (validIpv4 : Bytes → Bool) (v : View) (field : ConfigField) (value : Bytes) : Option View :=
  if v.seen field then none
  else (settingOf validIpv4 value field).map fun x =>
    ⟨put v.config x, fun f => decide (f = field) || v.seen f⟩

def enter (validIpv4 : Bytes → Bool) (v : Option View) (entry : Entry) : Option View :=
  v.bind fun v =>
    match entry with
    | .nothing => some v
    | .noEqual | .noPair => none
    | .pair key value => (findField key).bind fun field => assign validIpv4 v field value

theorem assign_comm (v : View) (f g : ConfigField) (a b : Bytes) :
    ((assign validIpv4 v f a).bind fun v => assign validIpv4 v g b) =
      (assign validIpv4 v g b).bind fun v => assign validIpv4 v f a := by
  unfold assign
  by_cases hf : v.seen f = true
  · by_cases hg : v.seen g = true
    · simp [hf, hg]
    · cases settingOf validIpv4 b g <;> simp [hf, hg]
  by_cases hg : v.seen g = true
  · cases settingOf validIpv4 a f <;> simp [hf, hg]
  simp only [hf, hg, Bool.false_eq_true, if_false]
  cases hx : settingOf validIpv4 a f with
  | none =>
    cases settingOf validIpv4 b g with
    | none => rfl
    | some y => simp
  | some x =>
    cases hy : settingOf validIpv4 b g with
    | none => simp
    | some y =>
      by_cases hfg : f = g
      · subst hfg
        simp
      · have hne : x.field ≠ y.field := by
          rw [settingOf_field hx, settingOf_field hy]
          exact hfg
        simp only [Option.map_some, Option.bind_some, Ne.symm hfg, hfg, decide_false, Bool.false_or, hf, hg,
          Bool.false_eq_true, if_false, put_comm _ hne]
        congr 2
        funext h
        cases decide (h = f) <;> cases decide (h = g) <;> rfl

@[simp] theorem enter_nothing (v : Option View) : enter validIpv4 v .nothing = v := by
  cases v <;> rfl

@[simp] theorem enter_noEqual (v : Option View) : enter validIpv4 v .noEqual = none := by
  cases v <;> rfl

@[simp] theorem enter_noPair (v : Option View) : enter validIpv4 v .noPair = none := by
  cases v <;> rfl

theorem enter_none (entry : Entry) : enter validIpv4 none entry = none := rfl

theorem foldl_enter_none (entries : List Entry) : entries.foldl (enter validIpv4) none = none := by
  induction entries with
  | nil => rfl
  | cons entry entries ih => simpa [enter_none] using ih

theorem enter_comm (v : Option View) (a b : Entry) :
    enter validIpv4 (enter validIpv4 v a) b = enter validIpv4 (enter validIpv4 v b) a := by
  cases a with
  | nothing => simp
  | noEqual => simp [enter_none]
  | noPair => simp [enter_none]
  | pair key value =>
    cases b with
    | nothing => simp
    | noEqual => simp [enter_none]
    | noPair => simp [enter_none]
    | pair key' value' =>
      cases v with
      | none => rfl
      | some v =>
        simp only [enter, Option.bind_some]
        cases findField key with
        | none => cases findField key' <;> simp
        | some f =>
          cases findField key' with
          | none => simp
          | some g =>
            simp only [Option.bind_some]
            exact assign_comm v f g value value'

theorem readLine_view (n : Nat) (line : Bytes) (p : Parsed) :
    (readLine validIpv4 n line p).toOption.map (·.view) =
      enter validIpv4 (some p.view) (readEntry line) := by
  unfold readLine enter
  simp only [Option.bind_some]
  cases readEntry line with
  | nothing => rfl
  | noEqual => rfl
  | noPair => rfl
  | pair key value =>
    simp only
    cases findField key with
    | none => rfl
    | some field =>
      simp only [Option.bind_some, assign]
      cases hline : p.fieldLine field with
      | some first => simp [Parsed.view, hline, Except.toOption]
      | none =>
        have hset := @parseField_setting validIpv4 field value p.config
        cases hparse : parseField validIpv4 field value p.config with
        | error detail =>
          rw [hparse] at hset
          cases hx : settingOf validIpv4 value field with
          | none => simp [Parsed.view, hline, Except.toOption]
          | some x => simp [hx, Except.toOption] at hset
        | ok config =>
          rw [hparse] at hset
          cases hx : settingOf validIpv4 value field with
          | none => simp [hx, Except.toOption] at hset
          | some x =>
            obtain rfl : config = put p.config x := by simpa [hx, Except.toOption] using hset
            simp only [Except.toOption, Option.map_some, Parsed.view, hline, Option.isSome_none,
              Bool.false_eq_true, if_false]
            congr 2
            funext f
            by_cases hf : f = field <;> simp [hf]

/-- The lines of a file are entered one after another. -/
theorem readLines_view (n : Nat) (lines : List Bytes) (p : Parsed) :
    (readLines validIpv4 n lines p).toOption.map (·.view) =
      (lines.map readEntry).foldl (enter validIpv4) (some p.view) := by
  induction lines generalizing n p with
  | nil => rfl
  | cons line lines ih =>
    have hline := @readLine_view validIpv4 (n + 1) line p
    simp only [readLines, List.map_cons, List.foldl_cons, ← hline]
    cases hread : readLine validIpv4 (n + 1) line p with
    | error detail => simp [Except.toOption, foldl_enter_none]
    | ok p' => simpa [Except.toOption] using ih (n + 1) p'

def entriesOf (lines : List Bytes) : List Entry := (lines.map readEntry).filter (· ≠ .nothing)

theorem foldl_enter_filter (entries : List Entry) (v : Option View) :
    (entries.filter (· ≠ .nothing)).foldl (enter validIpv4) v = entries.foldl (enter validIpv4) v := by
  induction entries generalizing v with
  | nil => rfl
  | cons entry entries ih =>
    by_cases hentry : entry = .nothing
    · subst hentry
      simp only [ne_eq, not_true_eq_false, decide_false, Bool.false_eq_true, not_false_eq_true,
        List.filter_cons_of_neg, List.foldl_cons, enter_nothing]
      simpa using ih v
    · simp only [ne_eq, hentry, not_false_eq_true, decide_true, List.filter_cons_of_pos, List.foldl_cons]
      simpa using ih (enter validIpv4 v entry)

/-- What the lines come to depends on their entries only. -/
def outcome (validIpv4 : Bytes → Bool) (entries : List Entry) : Option View :=
  entries.foldl (enter validIpv4) (some .start)

theorem readLines_outcome (lines : List Bytes) :
    (readLines validIpv4 0 lines .start).toOption.map (·.view) = outcome validIpv4 (entriesOf lines) := by
  rw [readLines_view, outcome, entriesOf, foldl_enter_filter]
  rfl

theorem outcome_perm (h : entries.Perm entries') :
    outcome validIpv4 entries = outcome validIpv4 entries' :=
  h.foldl_eq' (fun a _ b _ v => enter_comm v a b) _

-- ---------------------------------------------------------------------------
-- Files with the same entries
-- ---------------------------------------------------------------------------

/-- Lines that are permuted, blank lines and comments more or less, and other
blanks around keys and values. -/
inductive Rearranged : List Bytes → List Bytes → Prop
  | permuted : lines.Perm lines' → Rearranged lines lines'
  | blank : Blank line → Rearranged (before ++ after) (before ++ line :: after)
  | comment : Blank w → Rearranged (before ++ after) (before ++ (w ++ hash :: text) :: after)
  | spaced : equalSign ∉ key → 0 ∉ key → 0 ∉ content →
    Blank w₁ → Blank w₂ → Blank w₃ → Blank w₄ → Blank v₁ → Blank v₂ → Blank v₃ → Blank v₄ →
    Rearranged (before ++ (w₁ ++ key ++ w₂ ++ equalSign :: (w₃ ++ content ++ w₄)) :: after)
      (before ++ (v₁ ++ key ++ v₂ ++ equalSign :: (v₃ ++ content ++ v₄)) :: after)
  | symm : Rearranged lines lines' → Rearranged lines' lines
  | trans : Rearranged lines lines₁ → Rearranged lines₁ lines' → Rearranged lines lines'

theorem entriesOf_nothing (h : readEntry line = .nothing) (before after : List Bytes) :
    entriesOf (before ++ line :: after) = entriesOf (before ++ after) := by
  simp [entriesOf, h]

theorem Rearranged.entries (h : Rearranged lines lines') : (entriesOf lines).Perm (entriesOf lines') := by
  induction h with
  | permuted hperm => exact (hperm.map _).filter _
  | blank hline => rw [entriesOf_nothing (readEntry_blank hline)]
  | comment hw => rw [entriesOf_nothing (readEntry_comment hw _)]
  | spaced hkey hkey0 hvalue0 hw₁ hw₂ hw₃ hw₄ hv₁ hv₂ hv₃ hv₄ =>
    simp only [entriesOf, List.map_append, List.map_cons,
      readEntry_pair hkey hkey0 hvalue0 hw₁ hw₂ hw₃ hw₄,
      readEntry_pair hkey hkey0 hvalue0 hv₁ hv₂ hv₃ hv₄]
    exact .refl _
  | symm _ ih => exact ih.symm
  | trans _ _ ih ih' => exact ih.trans ih'

-- ---------------------------------------------------------------------------
-- What is checked at the end
-- ---------------------------------------------------------------------------

/-- What `validate_config` accepts. -/
structure View.Consistent (v : View) : Prop where
  role : v.seen .role = true
  servicePort : v.seen .servicePort = true
  persistenceMode : v.seen .persistenceMode = true
  rdmaPort : v.seen .rdmaPort = true ↔ v.config.role = .primary
  rdmaDiffers : v.config.role = .primary → v.config.rdmaPort ≠ v.config.servicePort
  replicationPort : v.seen .replicationPort = false
  primaryHost : v.seen .primaryHost = true ↔ v.config.role = .replica
  primaryPort : v.seen .primaryPort = true ↔ v.config.role = .replica
  mode : v.config.persistenceMode = .legacyHybrid ↔ v.config.role ≠ .standalone

theorem onlyFor_none (fields : List (ConfigField × Bytes)) (p : Parsed) :
    onlyFor fields p = none ↔ ∀ f ∈ fields, p.view.seen f.1 = false := by
  induction fields with
  | nil => simp [onlyFor]
  | cons f fields ih =>
    simp only [onlyFor, List.mem_cons, forall_eq_or_imp]
    cases hline : p.fieldLine f.1 <;> simp [Parsed.view, hline, ih]

theorem required_none (fields : List (ConfigField × Bytes)) (p : Parsed) :
    required fields p = none ↔ ∀ f ∈ fields, p.view.seen f.1 = true := by
  induction fields with
  | nil => simp [required]
  | cons f fields ih =>
    simp only [required, List.mem_cons, forall_eq_or_imp]
    cases hline : p.fieldLine f.1 <;> simp [Parsed.view, hline, ih]

theorem validateRdma_none (p : Parsed) :
    validateRdma p = none ↔ (p.view.seen .rdmaPort = true →
      p.config.role = .primary ∧ p.config.rdmaPort ≠ p.config.servicePort) := by
  unfold validateRdma
  cases hline : p.fieldLine .rdmaPort with
  | none => simp [Parsed.view, hline]
  | some line =>
    simp only [Parsed.view, hline, Option.isSome_some, forall_const]
    split
    · simp_all
    · split <;> simp_all

theorem validateRole_none (p : Parsed) :
    validateRole p = none ↔ p.view.seen .replicationPort = false ∧
      (p.view.seen .primaryHost = true ↔ p.config.role = .replica) ∧
      (p.view.seen .primaryPort = true ↔ p.config.role = .replica) ∧
      (p.config.role = .standalone → p.config.persistenceMode ≠ .legacyHybrid) := by
  unfold validateRole
  cases hrole : p.config.role with
  | standalone =>
    simp only [Option.or_eq_none_iff, onlyFor_none, List.mem_cons, List.not_mem_nil, or_false,
      forall_eq_or_imp, forall_eq]
    cases p.config.persistenceMode <;> simp
  | primary => simp [onlyFor_none]
  | replica =>
    simp only [Option.or_eq_none_iff, onlyFor_none, required_none, List.mem_cons, List.not_mem_nil,
      or_false, forall_eq_or_imp, forall_eq]
    simp
    tauto

theorem validateConfig_none (p : Parsed) : validateConfig p = none ↔ p.view.Consistent := by
  have hmode : (if (p.config.role = .primary ∨ p.config.role = .replica) ∧
      p.config.persistenceMode ≠ .legacyHybrid then
        some ((p.fieldLine .persistenceMode).getD 0,
          ascii "primary/replica currently support only persistence_mode=legacy_hybrid")
      else none) = none ↔
      (p.config.role = .primary ∨ p.config.role = .replica → p.config.persistenceMode = .legacyHybrid) := by
    split <;> simp_all
  have hrdma : (if p.config.role = .primary then
      required [(.rdmaPort, ascii "role=primary requires rdma_port")] p else none) = none ↔
      (p.config.role = .primary → p.view.seen .rdmaPort = true) := by
    split <;> simp_all [required_none]
  unfold validateConfig
  simp only [Option.or_eq_none_iff, required_none, List.mem_cons, List.not_mem_nil, or_false,
    forall_eq_or_imp, forall_eq, validateRdma_none, validateRole_none]
  rw [hmode, hrdma]
  have hconfig : p.view.config = p.config := rfl
  constructor
  · rintro ⟨⟨hrole, hservice, hpersist⟩, hport, ⟨hrepl, hhost, hprimary, hstand⟩, hhybrid, hneeds⟩
    refine ⟨hrole, hservice, hpersist, ⟨fun h => (hport h).1, hneeds⟩, fun h => (hport (hneeds h)).2, hrepl,
      hhost, hprimary, ?_⟩
    rw [hconfig]
    cases hr : p.config.role <;> simp_all
  · intro h
    have hm := h.mode
    rw [hconfig] at hm
    refine ⟨⟨h.role, h.servicePort, h.persistenceMode⟩, fun hp => ?_,
      ⟨h.replicationPort, h.primaryHost, h.primaryPort, ?_⟩, ?_, h.rdmaPort.mpr⟩
    · exact ⟨h.rdmaPort.mp hp, h.rdmaDiffers (h.rdmaPort.mp hp)⟩
    · intro hr hmode
      exact absurd hr (hm.mp hmode)
    · rintro (hr | hr)
      · exact hm.mpr (by simp [hr])
      · exact hm.mpr (by simp [hr])

-- ---------------------------------------------------------------------------
-- What was given
-- ---------------------------------------------------------------------------

theorem findField_name (h : findField key = some field) : key = field.name := by
  have hname := List.find?_some h
  simpa using (of_decide_eq_true hname).symm

def givenEntry (g : ConfigField × Bytes) : Entry := .pair g.1.name g.2

structure View.InRange (v : View) : Prop where
  servicePort : v.seen .servicePort = true → 1 ≤ v.config.servicePort ∧ v.config.servicePort ≤ 65535
  rdmaPort : v.seen .rdmaPort = true → 1 ≤ v.config.rdmaPort ∧ v.config.rdmaPort ≤ 65535
  primaryPort : v.seen .primaryPort = true → 1 ≤ v.config.primaryPort ∧ v.config.primaryPort ≤ 65535

theorem parsePort_range (h : parsePort value = some port) : 1 ≤ port ∧ port ≤ 65535 := by
  unfold parsePort at h
  split at h
  · cases h
  split at h
  · cases h
  simp only at h
  split at h
  · cases h
  · cases h
    omega

theorem assign_inRange (hv : View.InRange v) (h : assign validIpv4 v field value = some v') :
    v'.InRange := by
  unfold assign at h
  split at h
  · cases h
  obtain ⟨x, hx, rfl⟩ := Option.map_eq_some_iff.mp h
  cases field
  all_goals
    simp only [settingOf, Option.map_eq_some_iff] at hx
    try obtain ⟨a, ha, rfl⟩ := hx
    try (split at hx <;> cases hx)
  case servicePort => exact ⟨fun _ => parsePort_range ha, hv.rdmaPort, hv.primaryPort⟩
  case rdmaPort => exact ⟨hv.servicePort, fun _ => parsePort_range ha, hv.primaryPort⟩
  case primaryPort => exact ⟨hv.servicePort, hv.rdmaPort, fun _ => parsePort_range ha⟩
  all_goals exact ⟨hv.servicePort, hv.rdmaPort, hv.primaryPort⟩

theorem foldl_enter_given (entries : List Entry) (hentries : .nothing ∉ entries) (v : View)
    (h : entries.foldl (enter validIpv4) (some v) = some v') (hv : v.InRange) :
    ∃ given : List (ConfigField × Bytes), entries = given.map givenEntry ∧
      (given.map (·.1)).Nodup ∧ (∀ f ∈ given.map (·.1), v.seen f = false) ∧
      (∀ f, v'.seen f = true ↔ v.seen f = true ∨ f ∈ given.map (·.1)) ∧ v'.InRange := by
  induction entries generalizing v with
  | nil =>
    cases h
    exact ⟨[], rfl, .nil, nofun, by simp, hv⟩
  | cons entry entries ih =>
    rw [List.foldl_cons] at h
    cases hentry : enter validIpv4 (some v) entry with
    | none =>
      rw [hentry, foldl_enter_none] at h
      cases h
    | some v₁ =>
      rw [hentry] at h
      cases entry with
      | nothing => simp at hentries
      | noEqual => simp at hentry
      | noPair => simp at hentry
      | pair key value =>
        simp only [enter, Option.bind_some] at hentry
        obtain ⟨field, hfield, hassign⟩ := Option.bind_eq_some_iff.mp hentry
        obtain rfl := findField_name hfield
        have hrange := assign_inRange hv hassign
        unfold assign at hassign
        split at hassign
        · cases hassign
        rename_i hnew
        obtain ⟨x, hx, rfl⟩ := Option.map_eq_some_iff.mp hassign
        obtain ⟨given, rfl, hnodup, hunseen, hseen, hrange'⟩ :=
          ih (fun hmem => hentries (List.mem_cons_of_mem _ hmem)) _ h hrange
        refine ⟨(field, value) :: given, rfl, ?_, ?_, ?_, hrange'⟩
        · rw [List.map_cons, List.nodup_cons]
          refine ⟨fun hmem => ?_, hnodup⟩
          simpa using hunseen field hmem
        · intro f hf
          obtain rfl | hf := List.mem_cons.mp hf
          · simpa using hnew
          · have hfalse := hunseen f hf
            simp only [Bool.or_eq_false_iff] at hfalse
            exact hfalse.2
        · intro f
          rw [hseen f, List.map_cons, List.mem_cons]
          simp only [Bool.or_eq_true, decide_eq_true_eq]
          tauto

-- ---------------------------------------------------------------------------
-- The whole file
-- ---------------------------------------------------------------------------

theorem outcome_start : View.start.InRange := ⟨nofun, nofun, nofun⟩

theorem loadFile_ok (file : ConfigFile) :
    loadFile validIpv4 file = .ok c ↔
      file.readFailure = none ∧ file.closeFailure = none ∧
      ∃ v, outcome validIpv4 (entriesOf (getlines file.contents)) = some v ∧ v.Consistent ∧ v.config = c := by
  have hlines := @readLines_outcome validIpv4 (getlines file.contents)
  unfold loadFile
  cases hread : readLines validIpv4 0 (getlines file.contents) .start with
  | error e =>
    rw [hread] at hlines
    simp [← hlines, Except.toOption]
  | ok p =>
    rw [hread] at hlines
    have hvalid := validateConfig_none p
    have hconfig : p.view.config = p.config := rfl
    simp only [← hlines, Except.toOption, Option.map_some, Option.some.injEq, exists_eq_left',
      ← hvalid, hconfig]
    cases file.readFailure <;> cases validateConfig p <;> cases file.closeFailure <;> simp

/-- Whether a load succeeds, and with which configuration. -/
theorem kvsConfigLoad_cases (path : Bytes) (file : Except Bytes ConfigFile) (errorCapacity : Nat)
    (config : KvsConfig) :
    (∃ f c, file = .ok f ∧ loadFile validIpv4 f = .ok c ∧ 0 < errorCapacity ∧ path ≠ [] ∧
        (kvsConfigLoad validIpv4 path file errorCapacity config).1 = 0 ∧
        (kvsConfigLoad validIpv4 path file errorCapacity config).2.1 = c) ∨
      ((kvsConfigLoad validIpv4 path file errorCapacity config).1 = -1 ∧
        (kvsConfigLoad validIpv4 path file errorCapacity config).2.1 = config ∧
        (0 < errorCapacity → path ≠ [] → ∀ f, file = .ok f → ∀ c, loadFile validIpv4 f ≠ .ok c)) := by
  unfold kvsConfigLoad
  split
  · exact .inr ⟨rfl, rfl, fun h => by omega⟩
  split
  · rename_i hpath
    exact .inr ⟨rfl, rfl, fun _ h => absurd hpath h⟩
  cases file with
  | error reason => exact .inr ⟨rfl, rfl, nofun⟩
  | ok f =>
    simp only
    cases hload : loadFile validIpv4 f with
    | error e =>
      refine .inr ⟨rfl, rfl, ?_⟩
      rintro - - f' ⟨⟩ c
      rw [hload]
      nofun
    | ok c => exact .inl ⟨f, c, rfl, hload, by omega, ‹_›, rfl, rfl⟩

/-- A file only counts by its entries: rearranged, it is accepted or not as before
and as the same configuration. A load that fails leaves the caller's object as it
was, and one that succeeds was given what its role needs and nothing else. -/
theorem kvsConfigLoad_entries (validIpv4 : Bytes → Bool) (path : Bytes) (errorCapacity : Nat)
    (config : KvsConfig) :
    (∀ file file' : ConfigFile, file.readFailure = file'.readFailure →
      file.closeFailure = file'.closeFailure →
      Rearranged (getlines file.contents) (getlines file'.contents) →
      (kvsConfigLoad validIpv4 path (.ok file) errorCapacity config).1 =
          (kvsConfigLoad validIpv4 path (.ok file') errorCapacity config).1 ∧
        (kvsConfigLoad validIpv4 path (.ok file) errorCapacity config).2.1 =
          (kvsConfigLoad validIpv4 path (.ok file') errorCapacity config).2.1) ∧
    (∀ file, (kvsConfigLoad validIpv4 path file errorCapacity config).1 ≠ 0 →
      (kvsConfigLoad validIpv4 path file errorCapacity config).2.1 = config) ∧
    (∀ file, (kvsConfigLoad validIpv4 path file errorCapacity config).1 = 0 →
      ∃ (contents : ConfigFile) (given : List (ConfigField × Bytes)) (c : KvsConfig),
        file = .ok contents ∧
        (kvsConfigLoad validIpv4 path file errorCapacity config).2.1 = c ∧
        entriesOf (getlines contents.contents) = given.map givenEntry ∧
        (given.map (·.1)).Nodup ∧
        .role ∈ given.map (·.1) ∧ .servicePort ∈ given.map (·.1) ∧ .persistenceMode ∈ given.map (·.1) ∧
        (1 ≤ c.servicePort ∧ c.servicePort ≤ 65535) ∧
        (.rdmaPort ∈ given.map (·.1) ↔ c.role = .primary) ∧
        (c.role = .primary →
          1 ≤ c.rdmaPort ∧ c.rdmaPort ≤ 65535 ∧ c.rdmaPort ≠ c.servicePort) ∧
        (.primaryHost ∈ given.map (·.1) ↔ c.role = .replica) ∧
        (.primaryPort ∈ given.map (·.1) ↔ c.role = .replica) ∧
        (c.role = .replica → 1 ≤ c.primaryPort ∧ c.primaryPort ≤ 65535) ∧
        .replicationPort ∉ given.map (·.1) ∧
        (c.persistenceMode = .legacyHybrid ↔ c.role ≠ .standalone)) := by
  refine ⟨?_, ?_, ?_⟩
  · intro file file' hread hclose hlines
    have hload : ∀ c, loadFile validIpv4 file = .ok c ↔ loadFile validIpv4 file' = .ok c := by
      intro c
      rw [loadFile_ok, loadFile_ok, hread, hclose, outcome_perm hlines.entries]
    obtain ⟨_, c, ⟨⟩, hok, hcap, hpath, hresult, hconfig⟩ | ⟨hresult, hconfig, hno⟩ :=
      @kvsConfigLoad_cases validIpv4 path (.ok file) errorCapacity config
    · obtain ⟨_, c', ⟨⟩, hok', -, -, hresult', hconfig'⟩ | ⟨-, -, hno'⟩ :=
        @kvsConfigLoad_cases validIpv4 path (.ok file') errorCapacity config
      · obtain rfl : c = c' := Except.ok.inj (((hload c).mp hok).symm.trans hok')
        exact ⟨hresult.trans hresult'.symm, hconfig.trans hconfig'.symm⟩
      · exact absurd ((hload c).mp hok) (hno' hcap hpath file' rfl c)
    · obtain ⟨_, c', ⟨⟩, hok', hcap, hpath, -, -⟩ | ⟨hresult', hconfig', -⟩ :=
        @kvsConfigLoad_cases validIpv4 path (.ok file') errorCapacity config
      · exact absurd ((hload c').mpr hok') (hno hcap hpath file rfl c')
      · exact ⟨hresult.trans hresult'.symm, hconfig.trans hconfig'.symm⟩
  · intro file hfail
    obtain ⟨f, c, -, -, -, -, hresult, -⟩ | ⟨-, hconfig, -⟩ :=
      @kvsConfigLoad_cases validIpv4 path file errorCapacity config
    · exact absurd hresult hfail
    · exact hconfig
  · intro file hsuccess
    obtain ⟨f, c, rfl, hok, -, -, -, hconfig⟩ | ⟨hresult, -, -⟩ :=
      @kvsConfigLoad_cases validIpv4 path file errorCapacity config
    · obtain ⟨-, -, v, hv, hconsistent, rfl⟩ := (loadFile_ok f).mp hok
      have hentries : Entry.nothing ∉ entriesOf (getlines f.contents) := by
        simp [entriesOf]
      obtain ⟨given, hgiven, hnodup, -, hseen, hrange⟩ :=
        foldl_enter_given _ hentries View.start hv outcome_start
      have hmem : ∀ field, field ∈ given.map (·.1) ↔ v.seen field = true := by
        intro field
        rw [hseen field]
        simp [View.start]
      refine ⟨f, given, v.config, rfl, hconfig, hgiven, hnodup, ?_⟩
      simp only [hmem]
      exact ⟨hconsistent.role, hconsistent.servicePort, hconsistent.persistenceMode,
        hrange.servicePort hconsistent.servicePort, hconsistent.rdmaPort,
        fun h => ⟨(hrange.rdmaPort (hconsistent.rdmaPort.mpr h)).1,
          (hrange.rdmaPort (hconsistent.rdmaPort.mpr h)).2, hconsistent.rdmaDiffers h⟩,
        hconsistent.primaryHost, hconsistent.primaryPort,
        fun h => hrange.primaryPort (hconsistent.primaryPort.mpr h),
        by simp [hconsistent.replicationPort], hconsistent.mode⟩
    · rw [hresult] at hsuccess
      exact absurd hsuccess (by decide)

/-- A file and the same with its first line last. -/
theorem kvsConfigLoad_entries_permuted :
    (kvsConfigLoad (fun _ => true) (ascii "kv.conf")
        (.ok ⟨ascii "role=standalone\nservice_port=80\npersistence_mode=aof\n", none, none⟩) 256 .defaults).1 =
      (kvsConfigLoad (fun _ => true) (ascii "kv.conf")
        (.ok ⟨ascii "service_port=80\npersistence_mode=aof\nrole=standalone", none, none⟩) 256 .defaults).1 :=
  ((kvsConfigLoad_entries (fun _ => true) (ascii "kv.conf") 256 .defaults).1
    ⟨ascii "role=standalone\nservice_port=80\npersistence_mode=aof\n", none, none⟩
    ⟨ascii "service_port=80\npersistence_mode=aof\nrole=standalone", none, none⟩ rfl rfl
    (.permuted (by decide))).1

theorem kvsConfigLoad_valid (path : Bytes) (file : Except Bytes ConfigFile) (errorCapacity : Nat)
    (config : KvsConfig) (h : (kvsConfigLoad validIpv4 path file errorCapacity config).1 = 0) :
    (kvsConfigLoad validIpv4 path file errorCapacity config).2.1.toConfig.Valid := by
  obtain ⟨f, c, rfl, hok, -, -, -, hconfig⟩ | ⟨hresult, -, -⟩ :=
    @kvsConfigLoad_cases validIpv4 path file errorCapacity config
  · obtain ⟨-, -, v, hv, hconsistent, rfl⟩ := (loadFile_ok f).mp hok
    have hentries : Entry.nothing ∉ entriesOf (getlines f.contents) := by
      simp [entriesOf]
    obtain ⟨given, -, -, -, -, hrange⟩ := foldl_enter_given _ hentries View.start hv outcome_start
    have hmode := hconsistent.mode
    rw [hconfig]
    cases hrole : v.config.role with
    | standalone =>
      simp only [Config.Valid, KvsConfig.toConfig, hrole]
      cases hm : v.config.persistenceMode with
      | legacyHybrid => exact absurd hrole (hmode.mp hm)
      | snapshot => exact .inl rfl
      | aof => exact .inr rfl
    | primary =>
      simp only [Config.Valid, KvsConfig.toConfig, hrole]
      exact hmode.mpr (by simp [hrole])
    | replica =>
      simp only [Config.Valid, KvsConfig.toConfig, hrole]
      have hport := hrange.primaryPort (hconsistent.primaryPort.mpr hrole)
      exact ⟨hmode.mpr (by simp [hrole]), by omega⟩
  · rw [hresult] at h
    exact absurd h (by decide)

end KvStore.Configuration
