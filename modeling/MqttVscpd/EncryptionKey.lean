/-
The encryption key: the built-in one, the one `-k` gives and the one in the key
file, all decoded into the same 32 bytes; and what of it reaches the log.
-/
import MqttVscpd.ReadJsonFrame

namespace MqttVscpd

open Trying

/-- `__vscp_key` as it is built in. -/
def defaultKey : Vector UInt8 32 :=
  #v[0x2d, 0xbb, 0x07, 0x9a, 0x38, 0x98, 0x5a, 0xf0, 0x0e, 0xbe, 0xef, 0xe2, 0x2f, 0x9f, 0xfa, 0x0e, 0x7f, 0x72, 0xdf,
    0x06, 0xeb, 0xe4, 0x45, 0x63, 0xed, 0xf4, 0xa1, 0x07, 0x3c, 0xab, 0xc7, 0xd4]

/-- `__vscp_key` after `main`'s option parsing, with the argument of `-k`, if it is given. -/
def optionKey (env : Environment) : Option String → Vector UInt8 32
  | some optarg => writeKey defaultKey (env.hexStr2ByteArray optarg)
  | none => defaultKey

/-- `__vscp_key` after `readJSON`, however that ends. -/
def keyAfter (env : Environment) (k : Option String) (j : Json) : Vector UInt8 32 :=
  (exec (readJSON env j) { vscpKey := optionKey env k }).2.vscpKey

/-! ## Reading the key file -/

/-- The path under `vscpkey`, or the empty path. -/
def keyPath (j : Json) : String := ((j.find? "vscpkey").bind fun v => v.getString.toOption).getD ""

/-- What a key becomes when the file at the path is read. -/
def fileKey (env : Environment) (path : String) (key : Vector UInt8 32) : Vector UInt8 32 :=
  match env.readFile path with
  | some hexstr => writeKey key (env.hexStr2ByteArray hexstr)
  | none => key

/-- What `readEncryptionKey` returns. -/
def keyComplete (env : Environment) (path : String) : Bool :=
  match env.readFile path with
  | some hexstr => (env.hexStr2ByteArray hexstr).length = 32
  | none => false

/-- What `readEncryptionKey` logs. -/
def encryptionKeyRecords (env : Environment) (path : String) : List LogRecord :=
  ⟨.debug, s!"Reading encryption key {path}"⟩ ::
    match env.readFile path with
    | some hexstr => [⟨.debug, s!"key={hexstr}"⟩]
    | none => [⟨.err, s!"[vscpl2drv-tcpipsrv] Failed to read encryption key file {path}"⟩]

/-- What `readJSON` logs when it reads the key. -/
def keyRecords (env : Environment) (j : Json) : List LogRecord :=
  (if j.contains "vscpkey" then [] else [⟨.err, "ReadConfig: 'Failed to read in encryption key "⟩]) ++
    [⟨.debug, s!"ReadConfig: 'path to vscp key' set to {keyPath j}"⟩] ++ encryptionKeyRecords env (keyPath j) ++
    if keyComplete env (keyPath j) then []
    else [⟨.err, s!"ReadConfig: 'Failed to read in encryption key {keyPath j} " ++
      "(default key will be used). Not secure. MUST be fixed!"⟩]

variable {env : Environment} {j : Json} {c : ControlObject} {path : String}

theorem exec_readEncryptionKey (env : Environment) (path : String) (c : ControlObject) :
    exec (readEncryptionKey env path) c = (.ok (keyComplete env path),
      { c with vscpKey := fileKey env path c.vscpKey, log := c.log ++ encryptionKeyRecords env path }) := by
  unfold readEncryptionKey keyComplete fileKey encryptionKeyRecords
  rw [exec_bind_of_ok (exec_log ..)]
  cases env.readFile path with
  | some hexstr =>
    simp only [exec_bind_of_ok (exec_log ..), exec_bind_of_ok (exec_modify ..), exec_pure, List.append_assoc,
      List.cons_append, List.nil_append]
  | none =>
    simp only [exec_bind_of_ok (exec_log ..), exec_pure, List.append_assoc, List.cons_append, List.nil_append]

/-- The records after the path is known. -/
theorem exec_readKeyFile (env : Environment) (path : String) (c : ControlObject) :
    exec (readKeyFile env path) c = (.ok true, { c with
      vscpKey := fileKey env path c.vscpKey
      log := c.log ++ ([⟨.debug, s!"ReadConfig: 'path to vscp key' set to {path}"⟩] ++ encryptionKeyRecords env path ++
        if keyComplete env path then []
        else [⟨.err, s!"ReadConfig: 'Failed to read in encryption key {path} " ++
          "(default key will be used). Not secure. MUST be fixed!"⟩]) }) := by
  unfold readKeyFile
  rw [exec_bind_of_ok (exec_log ..), exec_bind_of_ok (exec_readEncryptionKey ..)]
  cases keyComplete env path with
  | true => simp only [Bool.not_true, Bool.false_eq_true, if_false, exec_pure, if_true, List.append_assoc, List.append_nil]
  | false =>
    simp only [Bool.not_false, if_true, exec_bind_of_ok (exec_log ..), exec_pure, Bool.false_eq_true, if_false,
      List.append_assoc]

theorem exec_readVscpKey (h : OptionalString j "vscpkey") (c : ControlObject) :
    exec (readVscpKey env j) c = (.ok true, { c with
      vscpKey := fileKey env (keyPath j) c.vscpKey
      log := c.log ++ keyRecords env j }) := by
  unfold readVscpKey keyRecords keyPath
  refine exec_catching_ok ?_
  cases hf : j.find? "vscpkey" with
  | none =>
    rw [if_neg (contains_of_absent hf), exec_bind_of_ok (exec_log ..), exec_readKeyFile, if_neg (contains_of_absent hf)]
    simp only [Option.bind_none, Option.getD_none, List.append_assoc]
  | some v =>
    obtain ⟨path, hpath⟩ := Json.getString_of_isString (h v hf)
    rw [if_pos (contains_of_find hf), exec_lift_bind (Json.index_of_find hf), exec_lift_bind hpath, exec_readKeyFile,
      if_pos (contains_of_find hf)]
    simp only [Option.bind_some, hpath, Except.toOption, Option.getD_some, List.nil_append]

theorem settles_readGeneral :
    Settles (readGeneral env j) True (¬ ∀ key ∈ requiredKeys, StringUnder j key) := by
  refine (settles_readRequired.andM <| settles_readRequired.andM <| settles_readRequired.andM <|
    settles_readRequired.andM settles_readRequired).congr ?_ ?_
  · simp
  · simp only [requiredKeys, List.forall_mem_cons, List.not_mem_nil, false_implies, implies_true, and_true,
      not_and_or]

/-- The change that holds the key at that of `c`. -/
def holdKey (c : ControlObject) : Change where
  key _ := c.vscpKey

theorem key_of_commutes {α : Type} {m : Ctl α} (h : Commutes ((holdKey c).applyWith {}) m) :
    (exec m c).2.vscpKey = c.vscpKey := by
  rw [← h.fixed rfl]
  rfl

/-- The control object after the required general settings. -/
def afterGeneral (env : Environment) (j : Json) (c : ControlObject) : ControlObject := (exec (readGeneral env j) c).2

theorem key_afterGeneral (c : ControlObject) : (afterGeneral env j c).vscpKey = c.vscpKey :=
  key_of_commutes (commutes_readGeneral _ env j)

/-- `readJSON` up to the key, and from there on. -/
theorem exec_readJSON_of_general (h : GeneralRead j) (c : ControlObject) :
    exec (readJSON env j) c = exec (readRest env j) { afterGeneral env j c with
      vscpKey := fileKey env (keyPath j) c.vscpKey
      log := (afterGeneral env j c).log ++ keyRecords env j } := by
  have hok : exec (readGeneral env j) c = (.ok true, afterGeneral env j c) :=
    (settles_readGeneral.goes trivial (not_not.mpr h.1)).exec_eq c
  rw [readJSON_eq, exec_andM_of_true hok, exec_andM_of_true (exec_readVscpKey h.2 _), key_afterGeneral]

theorem exec_readVscpKey_refused (h : ¬ OptionalString j "vscpkey") (c : ControlObject) :
    exec (readVscpKey env j) c = exec (failRequired "vscpkey") c := by
  obtain ⟨v, hf, hv⟩ : ∃ v, j.find? "vscpkey" = some v ∧ v.isString = false := by
    simpa [OptionalString] using h
  obtain ⟨ex, hex⟩ := Json.getString_of_not hv
  apply exec_catching_thrown
  rw [if_pos (contains_of_find hf), exec_lift_bind (Json.index_of_find hf), exec_bind, hex]
  rfl

/-- Without a required setting, or with a `vscpkey` of another type, `readJSON` ends before the key file. -/
theorem exec_readJSON_of_not_general (h : ¬ GeneralRead j) (c : ControlObject) :
    exec (readJSON env j) c = exec (readGeneral env j <&&> failRequired "vscpkey") c := by
  rw [readJSON_eq]
  by_cases hreq : ∀ key ∈ requiredKeys, StringUnder j key
  · have hok : exec (readGeneral env j) c = (.ok true, _) :=
      (settles_readGeneral.goes trivial (not_not.mpr hreq)).exec_eq c
    rw [exec_andM_of_true hok, exec_andM_of_true hok, exec_andM, exec_readVscpKey_refused fun hopt => h ⟨hreq, hopt⟩]
    rfl
  · have hno : exec (readGeneral env j) c = (.ok false, _) :=
      (settles_readGeneral.refuses trivial hreq).exec_eq c
    rw [exec_andM_of_false hno, exec_andM_of_false hno]

theorem key_of_general (h : GeneralRead j) (c : ControlObject) :
    (exec (readJSON env j) c).2.vscpKey = fileKey env (keyPath j) c.vscpKey := by
  rw [exec_readJSON_of_general h, key_of_commutes (commutes_readRest rfl fun _ => ⟨rfl, rfl⟩)]

theorem key_of_not_general (h : ¬ GeneralRead j) (c : ControlObject) :
    (exec (readJSON env j) c).2.vscpKey = c.vscpKey := by
  rw [exec_readJSON_of_not_general h]
  exact key_of_commutes ((commutes_readGeneral _ env j).andM (commutes_failRequired _))

theorem keyAfter_of_general (h : GeneralRead j) (k : Option String) :
    keyAfter env k j = fileKey env (keyPath j) (optionKey env k) := key_of_general h _

theorem keyAfter_of_not_general (h : ¬ GeneralRead j) (k : Option String) : keyAfter env k j = optionKey env k :=
  key_of_not_general h _

/-! ## What is decoded into the key -/

theorem toList_writeKey {key : Vector UInt8 32} {bytes : List UInt8} (h : bytes.length ≤ 32) :
    (writeKey key bytes).toList = bytes ++ key.toList.drop bytes.length := by
  have hkey : key.toList.length = 32 := Vector.length_toList
  refine List.ext_getElem (by simp; omega) fun i hi _ => ?_
  have hi32 : i < 32 := by simpa using hi
  simp only [writeKey, Vector.getElem_toList, Vector.getElem_ofFn]
  by_cases hlt : i < bytes.length
  · rw [List.getElem?_eq_getElem hlt, Option.getD_some, List.getElem_append_left hlt]
  · rw [List.getElem?_eq_none (Nat.le_of_not_lt hlt), Option.getD_none, List.getElem_append_right (Nat.le_of_not_lt hlt),
      List.getElem_drop]
    simp only [Vector.getElem_toList, Nat.add_sub_cancel' (Nat.le_of_not_lt hlt)]
    rfl

/-- 32 bytes replace the key. -/
theorem toList_writeKey_full {key : Vector UInt8 32} {bytes : List UInt8} (h : bytes.length = 32) :
    (writeKey key bytes).toList = bytes := by
  rw [toList_writeKey h.le, h, List.drop_of_length_le (by simp), List.append_nil]

/-- Fewer bytes go over the start of the key; it stays what it was only if it starts with them. -/
theorem writeKey_eq_iff {key : Vector UInt8 32} {bytes : List UInt8} (h : bytes.length ≤ 32) :
    writeKey key bytes = key ↔ bytes <+: key.toList := by
  rw [← Vector.toList_inj, toList_writeKey h, List.prefix_iff_eq_append]

/-- The key before a file is read, as it is meant: a complete `-k` key, or the built-in one. -/
def documentedKey (env : Environment) : Option String → List UInt8
  | some optarg =>
    if (env.hexStr2ByteArray optarg).length = 32 then env.hexStr2ByteArray optarg else defaultKey.toList
  | none => defaultKey.toList

/-- A `-k` key is complete, or is the start of the built-in key. -/
def OptionWhole (env : Environment) (k : Option String) : Prop :=
  ∀ optarg, k = some optarg →
    (env.hexStr2ByteArray optarg).length = 32 ∨ env.hexStr2ByteArray optarg <+: defaultKey.toList

theorem optionKey_documented_iff (hlen : ∀ s, (env.hexStr2ByteArray s).length ≤ 32) (k : Option String) :
    (optionKey env k).toList = documentedKey env k ↔ OptionWhole env k := by
  cases k with
  | none => simp [optionKey, documentedKey, OptionWhole]
  | some optarg =>
    simp only [optionKey, documentedKey, OptionWhole, Option.some.injEq, forall_eq']
    by_cases hfull : (env.hexStr2ByteArray optarg).length = 32
    · simp only [hfull, if_true, true_or, iff_true]
      exact toList_writeKey_full hfull
    · rw [if_neg hfull, Vector.toList_inj, writeKey_eq_iff (hlen optarg), or_iff_right hfull]

/-- `readJSON` reads this text as the key file's. -/
def ReadsKeyFile (env : Environment) (j : Json) (hexstr : String) : Prop :=
  GeneralRead j ∧ env.readFile (keyPath j) = some hexstr

/-- The key file that `readJSON` reads decodes to a whole key. -/
def FileWhole (env : Environment) (j : Json) : Prop :=
  ∃ hexstr, ReadsKeyFile env j hexstr ∧ (env.hexStr2ByteArray hexstr).length = 32

/-- The key is one of the three: the file's, a complete `-k` key, the built-in one. -/
structure KeyRight (env : Environment) (k : Option String) (j : Json) : Prop where
  file : ∀ hexstr, ReadsKeyFile env j hexstr → (env.hexStr2ByteArray hexstr).length = 32 →
    (keyAfter env k j).toList = env.hexStr2ByteArray hexstr
  unchanged : ¬ FileWhole env j → keyAfter env k j = optionKey env k
  option : ¬ FileWhole env j → (optionKey env k).toList = documentedKey env k
  failed : GeneralRead j → ∀ c, c.vscpKey = optionKey env k →
    (exec (readEncryptionKey env (keyPath j)) c).1 = .ok false →
      (exec (readEncryptionKey env (keyPath j)) c).2.vscpKey = c.vscpKey

theorem keyAfter_file {hexstr : String} (h : ReadsKeyFile env j hexstr) (k : Option String) :
    keyAfter env k j = writeKey (optionKey env k) (env.hexStr2ByteArray hexstr) := by
  rw [keyAfter_of_general h.1, fileKey, h.2]

/-- Without a key file that is read, the key stays that of the options. -/
theorem keyAfter_unread (h : ∀ hexstr, ¬ ReadsKeyFile env j hexstr) (k : Option String) :
    keyAfter env k j = optionKey env k := by
  by_cases hg : GeneralRead j
  · rw [keyAfter_of_general hg, fileKey]
    cases hf : env.readFile (keyPath j) with
    | none => rfl
    | some hexstr => exact absurd ⟨hg, hf⟩ (h hexstr)
  · exact keyAfter_of_not_general hg k

/-- `readEncryptionKey` fails on exactly the files that are not whole. -/
theorem failed_iff (h : GeneralRead j) (c : ControlObject) :
    (exec (readEncryptionKey env (keyPath j)) c).1 = .ok false ↔ ¬ FileWhole env j := by
  rw [exec_readEncryptionKey, keyComplete]
  cases hf : env.readFile (keyPath j) with
  | none => simp [FileWhole, ReadsKeyFile, hf]
  | some hexstr => simp [FileWhole, ReadsKeyFile, hf, h]

/-- **When the key is no mixture**: after the options and `readJSON`, the key is that
of a whole key file, or else that of a complete `-k`, or else the built-in one,
exactly when the file is whole, or what was decoded of each source over the key
before it is the start of that key. -/
theorem key_unmixed_iff (hlen : ∀ s, (env.hexStr2ByteArray s).length ≤ 32) (k : Option String) (j : Json) :
    KeyRight env k j ↔ FileWhole env j ∨
      OptionWhole env k ∧ ∀ hexstr, ReadsKeyFile env j hexstr →
        env.hexStr2ByteArray hexstr <+: documentedKey env k := by
  by_cases hwhole : FileWhole env j
  · refine iff_of_true ⟨fun hexstr hr hfull => ?_, fun hn => absurd hwhole hn, fun hn => absurd hwhole hn,
      fun hg c _ hfail => absurd hwhole ((failed_iff hg c).mp hfail)⟩ (.inl hwhole)
    rw [keyAfter_file hr, toList_writeKey_full hfull]
  · rw [or_iff_right hwhole, ← optionKey_documented_iff hlen k]
    constructor
    · intro h
      refine ⟨h.option hwhole, fun hexstr hr => ?_⟩
      rw [← h.option hwhole, ← writeKey_eq_iff (hlen hexstr), ← keyAfter_file hr]
      exact h.unchanged hwhole
    · intro h
      obtain ⟨hoption, hprefix⟩ := h
      have hunchanged : keyAfter env k j = optionKey env k := by
        by_cases hr : ∃ hexstr, ReadsKeyFile env j hexstr
        · obtain ⟨hexstr, hr⟩ := hr
          rw [keyAfter_file hr, writeKey_eq_iff (hlen hexstr), hoption]
          exact hprefix hexstr hr
        · exact keyAfter_unread (not_exists.mp hr) k
      refine ⟨fun hexstr hr hfull => absurd ⟨hexstr, hr, hfull⟩ hwhole, fun _ => hunchanged, fun _ => hoption,
        fun hg c hc _ => ?_⟩
      rw [exec_readEncryptionKey, hc, ← keyAfter_of_general hg k, hunchanged]

/-- The value of a hex digit. -/
def hexDigit? (d : Char) : Option UInt8 :=
  if '0' ≤ d ∧ d ≤ '9' then some (d.toNat - '0'.toNat).toUInt8
  else if 'a' ≤ d ∧ d ≤ 'f' then some (d.toNat - 'a'.toNat + 10).toUInt8
  else if 'A' ≤ d ∧ d ≤ 'F' then some (d.toNat - 'A'.toNat + 10).toUInt8
  else none

/-- The bytes of the leading pairs of hex digits. -/
def hexPairs : List Char → List UInt8
  | hi :: lo :: rest =>
    match hexDigit? hi, hexDigit? lo with
    | some hi, some lo => (16 * hi + lo) :: hexPairs rest
    | _, _ => []
  | _ => []

/-- The files that can be opened and read, by their paths. A path that begins with a
NUL, or is empty, names none. -/
structure KeyFiles where
  opens : String → Bool
  empty : ∀ path, c_str path = "" → opens path = false

/-- The environment with this text in the key file: a stream that is not open gives no text. -/
def Environment.withKeyFile (env : Environment) (files : KeyFiles) (hexstr : String) : Environment :=
  { env with readFile := fun path => some (if files.opens path then hexstr else "") }

/-- A file at every path that can name one. -/
def everyFile : KeyFiles := ⟨fun path => c_str path ≠ "", fun _ h => decide_eq_false (not_not.mpr h)⟩

/-- Every file holds this text, and hex digits are decoded up to 32 bytes. -/
def keyEnvironment (hexstr : String) : Environment :=
  { bareEnvironment with hexStr2ByteArray := fun s => (hexPairs s.toList).take 32 }.withKeyFile everyFile hexstr

/-- The required settings and a key file. -/
def keyConfig : Json :=
  .obj [("runasuser", .str "vscp"), ("guid", .str "00:00:00:00:00:00:00:00:00:00:00:00:00:00:00:00"),
    ("servername", .str "local"), ("classtypedb", .str "vscp_events.sqlite3"), ("maindb", .str "vscpd.sqlite3"),
    ("vscpkey", .str "/etc/vscp/vscp.key")]

theorem generalRead_keyConfig : GeneralRead keyConfig := by
  constructor
  · intro key hkey
    simp only [requiredKeys, List.mem_cons, List.not_mem_nil, or_false] at hkey
    obtain rfl | rfl | rfl | rfl | rfl := hkey <;> exact ⟨_, rfl, rfl⟩
  · intro v hv
    cases hv
    rfl

/-- A key file of one byte: the built-in key with its first byte replaced. -/
theorem not_keyRight_shortFile : ¬ KeyRight (keyEnvironment "ff") none keyConfig := by
  intro h
  have hpart : ¬ FileWhole (keyEnvironment "ff") keyConfig := by
    intro hwhole
    obtain ⟨hexstr, ⟨-, hread⟩, hfull⟩ := hwhole
    cases hread
    revert hfull
    decide
  have hsame := h.unchanged hpart
  rw [keyAfter_of_general generalRead_keyConfig] at hsame
  revert hsame
  decide

/-- A key file of 64 digits. -/
theorem key_unmixed_wholeFile :
    KeyRight (keyEnvironment "000102030405060708090a0b0c0d0e0f101112131415161718191A1B1C1D1E1F") (some "ff")
      keyConfig :=
  (key_unmixed_iff (fun _ => List.length_take_le _ _) _ _).mpr
    (.inl ⟨_, ⟨generalRead_keyConfig, rfl⟩, by decide⟩)

/-! ## What of the key file is logged -/

/-- The records of `readJSON`, after those of the state it starts from. -/
def logAfter (env : Environment) (j : Json) (c : ControlObject) : List LogRecord := (exec (readJSON env j) c).2.log

/-- What comes after the key logs the same whatever the key, and after whatever records. -/
theorem log_readRest (c : ControlObject) (key : Vector UInt8 32) (records : List LogRecord) :
    (exec (readRest env j) { c with vscpKey := key, log := records }).2.log =
      records ++ (exec (readRest env j) { c with log := [] }).2.log := by
  let d : Change := { key := fun _ => key, before := records }
  have happly : d.apply { c with log := [] } = { c with vscpKey := key, log := records } := by
    simp only [d, Change.apply, List.append_nil, id]
  have hrest : Commutes (d.applyWith {}) (readRest env j) := commutes_readRest rfl fun _ => ⟨rfl, rfl⟩
  rw [← happly, ← d.applyWith_none, hrest]
  rfl

theorem logAfter_of_general (h : GeneralRead j) (c : ControlObject) :
    logAfter env j c = (afterGeneral env j c).log ++ keyRecords env j ++
      (exec (readRest env j) { afterGeneral env j c with log := [] }).2.log := by
  rw [logAfter, exec_readJSON_of_general h, log_readRest]

theorem logAfter_of_not_general (h : ¬ GeneralRead j) (c : ControlObject) :
    logAfter env j c = (exec (readGeneral env j <&&> failRequired "vscpkey") c).2.log := by
  rw [logAfter, exec_readJSON_of_not_general h]

/-- The text of a key file can be read back from the records about it, where there is one. -/
theorem encryptionKeyRecords_inj {files : KeyFiles} {s t : String} :
    encryptionKeyRecords (env.withKeyFile files s) path = encryptionKeyRecords (env.withKeyFile files t) path ↔
      files.opens path = false ∨ s = t := by
  simp only [encryptionKeyRecords, Environment.withKeyFile, List.cons.injEq, LogRecord.mk.injEq, true_and, and_true]
  cases files.opens path with
  | false => exact iff_of_true rfl (.inl rfl)
  | true =>
    simp only [if_true, reduceCtorEq, false_or]
    exact String.append_right_inj _

theorem keyRecords_inj {files : KeyFiles} {s t : String}
    (h : keyComplete (env.withKeyFile files s) (keyPath j) = keyComplete (env.withKeyFile files t) (keyPath j)) :
    keyRecords (env.withKeyFile files s) j = keyRecords (env.withKeyFile files t) j ↔
      files.opens (keyPath j) = false ∨ s = t := by
  rw [keyRecords, keyRecords, h, List.append_left_inj, List.append_right_inj, encryptionKeyRecords_inj]

/-- **When the log keeps the key file's text to itself**: two contents on which
`readEncryptionKey` returns the same leave the same records exactly when `readJSON`
ends before the key file, or no file can be read at the path, or the contents are the
same. -/
theorem log_silent_iff (env : Environment) (j : Json) (c : ControlObject) (files : KeyFiles) (s t : String)
    (h : (exec (readEncryptionKey (env.withKeyFile files s) (keyPath j)) c).1 =
      (exec (readEncryptionKey (env.withKeyFile files t) (keyPath j)) c).1) :
    logAfter (env.withKeyFile files s) j c = logAfter (env.withKeyFile files t) j c ↔
      ¬ GeneralRead j ∨ files.opens (keyPath j) = false ∨ s = t := by
  rw [exec_readEncryptionKey, exec_readEncryptionKey, Except.ok.injEq] at h
  by_cases hg : GeneralRead j
  · have hrest : ∀ hexstr, logAfter (env.withKeyFile files hexstr) j c = (afterGeneral env j c).log ++
        keyRecords (env.withKeyFile files hexstr) j ++
          (exec (readRest env j) { afterGeneral env j c with log := [] }).2.log :=
      fun hexstr => logAfter_of_general hg c
    rw [hrest, hrest, List.append_left_inj, List.append_right_inj, keyRecords_inj h, or_iff_right (not_not.mpr hg)]
  · refine iff_of_true ?_ (.inl hg)
    rw [logAfter_of_not_general hg, logAfter_of_not_general hg]
    rfl

/-- Without a `vscpkey` no file is read. -/
theorem opens_keyPath_of_absent {files : KeyFiles} (h : j.find? "vscpkey" = none) : files.opens (keyPath j) = false := by
  refine files.empty _ ?_
  rw [keyPath, h]
  exact c_str_eq_self_iff.mpr (by simp)

theorem keyComplete_withKeyFile {files : KeyFiles} (hopens : files.opens path = true) (s : String) :
    keyComplete (env.withKeyFile files s) path = decide ((env.hexStr2ByteArray s).length = 32) := by
  simp only [keyComplete, Environment.withKeyFile, hopens, if_true]
  rfl

/-- Two key files of one byte, neither a whole key: the debug record has their text. -/
theorem log_leaks_shortFiles :
    (exec (readEncryptionKey ((keyEnvironment "").withKeyFile everyFile "aa") (keyPath keyConfig))
          { vscpKey := defaultKey }).1 =
        (exec (readEncryptionKey ((keyEnvironment "").withKeyFile everyFile "bb") (keyPath keyConfig))
          { vscpKey := defaultKey }).1 ∧
      logAfter ((keyEnvironment "").withKeyFile everyFile "aa") keyConfig { vscpKey := defaultKey } ≠
        logAfter ((keyEnvironment "").withKeyFile everyFile "bb") keyConfig { vscpKey := defaultKey } := by
  have hpart : ((keyEnvironment "").hexStr2ByteArray "aa").length = ((keyEnvironment "").hexStr2ByteArray "bb").length := by
    decide
  refine ⟨?_, by decide⟩
  have hopens : everyFile.opens (keyPath keyConfig) = true := by decide
  rw [exec_readEncryptionKey, exec_readEncryptionKey, keyComplete_withKeyFile hopens, keyComplete_withKeyFile hopens,
    hpart]

/-- The required settings, and no `vscpkey`. -/
def keylessConfig : Json :=
  .obj [("runasuser", .str "vscp"), ("guid", .str "00:00:00:00:00:00:00:00:00:00:00:00:00:00:00:00"),
    ("servername", .str "local"), ("classtypedb", .str "vscp_events.sqlite3"), ("maindb", .str "vscpd.sqlite3")]

/-- `readJSON` goes on without a key file, and no text is there to log. -/
theorem log_silent_keyless :
    logAfter ((keyEnvironment "").withKeyFile everyFile "aa") keylessConfig { vscpKey := defaultKey } =
      logAfter ((keyEnvironment "").withKeyFile everyFile "bb") keylessConfig { vscpKey := defaultKey } :=
  (log_silent_iff (keyEnvironment "") keylessConfig { vscpKey := defaultKey } everyFile "aa" "bb" (by decide)).mpr
    (.inr (.inl (opens_keyPath_of_absent rfl)))

end MqttVscpd
