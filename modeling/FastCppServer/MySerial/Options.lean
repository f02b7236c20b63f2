import FastCppServer.Lib.Bytes
import FastCppServer.MySerial.GetUint32Value

/-!
# The options of a serial port

`MySerial::ParseOptions` and what it calls. A field is looked up under its keys, a number by
`GetUint32Value`, one of the four line settings as a token: `Parse*` finds the token among the names
of an enumeration, and `ToString` writes the enumeration back under one name. The options are
therefore in a normal form: written as a configuration under their own keys they are read as they
are, and the case of the letters in a token is of no account (`parseOptions_normal`).
-/

namespace MySerial

open Bytes

/-! ## The line settings -/

/-- The sizes of a byte on the line. -/
inductive Bytesize where
  | fivebits | sixbits | sevenbits | eightbits
  deriving DecidableEq

/-- The parities. -/
inductive Parity where
  | none | odd | even | mark | space
  deriving DecidableEq

/-- The stop bits. -/
inductive Stopbits where
  | one | onePointFive | two
  deriving DecidableEq

/-- The ways of flow control. -/
inductive Flowcontrol where
  | none | software | hardware
  deriving DecidableEq

/-- What `ParseOptions` throws. -/
inductive OptionsError where
  /-- `invalid_argument` with this text. -/
  | invalidArgument (what : Text)
  /-- An exception of `std::stoull`. -/
  | stoull
  /-- `nlohmann::json::type_error`. -/
  | typeError
  deriving DecidableEq

/-- What a number throws is thrown by `ParseOptions`. -/
def Error.toOptionsError : Error → OptionsError
  | .invalidArgument what => .invalidArgument (ofText what)
  | .stoull => .stoull

/-- `std::tolower` in the "C" locale. -/
def tolower (c : UInt8) : UInt8 := if 65 ≤ c ∧ c ≤ 90 then c + 32 else c

/-- `NormalizeToken`. -/
def normalizeToken (value : Text) : Text := value.map tolower

/-- `Parse*`: each value of the enumeration with the names it goes by. -/
def parseNamed {α : Type} (names : List (String × α)) (unsupported : String) (value : Text) :
    Except OptionsError α :=
  match names.find? fun name => ofText name.1 = normalizeToken value with
  | some (_, a) => .ok a
  | none => .error (.invalidArgument (ofText unsupported ++ value))

/-- `ParseBytesize`. -/
def parseBytesize : Text → Except OptionsError Bytesize :=
  parseNamed [("fivebits", .fivebits), ("5", .fivebits), ("sixbits", .sixbits), ("6", .sixbits),
    ("sevenbits", .sevenbits), ("7", .sevenbits), ("eightbits", .eightbits), ("8", .eightbits)]
    "unsupported bytesize: "

/-- `ParseParity`. -/
def parseParity : Text → Except OptionsError Parity :=
  parseNamed [("none", .none), ("parity_none", .none), ("odd", .odd), ("parity_odd", .odd),
    ("even", .even), ("parity_even", .even), ("mark", .mark), ("parity_mark", .mark),
    ("space", .space), ("parity_space", .space)]
    "unsupported parity: "

/-- `ParseStopbits`. -/
def parseStopbits : Text → Except OptionsError Stopbits :=
  parseNamed [("one", .one), ("1", .one), ("one_point_five", .onePointFive),
    ("1.5", .onePointFive), ("two", .two), ("2", .two)]
    "unsupported stopbits: "

/-- `ParseFlowcontrol`. -/
def parseFlowcontrol : Text → Except OptionsError Flowcontrol :=
  parseNamed [("none", .none), ("flowcontrol_none", .none), ("software", .software),
    ("flowcontrol_software", .software), ("hardware", .hardware),
    ("flowcontrol_hardware", .hardware)]
    "unsupported flowcontrol: "

/-! The overloads of `ToString`. -/

/-- `ToString`, of a byte size. -/
def Bytesize.toText : Bytesize → Text
  | fivebits => ofText "fivebits"
  | sixbits => ofText "sixbits"
  | sevenbits => ofText "sevenbits"
  | eightbits => ofText "eightbits"

/-- `ToString`, of a parity. -/
def Parity.toText : Parity → Text
  | none => ofText "none"
  | odd => ofText "odd"
  | even => ofText "even"
  | mark => ofText "mark"
  | space => ofText "space"

/-- `ToString`, of the stop bits. -/
def Stopbits.toText : Stopbits → Text
  | one => ofText "one"
  | onePointFive => ofText "one_point_five"
  | two => ofText "two"

/-- `ToString`, of a flow control. -/
def Flowcontrol.toText : Flowcontrol → Text
  | none => ofText "none"
  | software => ofText "software"
  | hardware => ofText "hardware"

/-! ## `ParseOptions` -/

/-- `SerialInitOptions`. -/
structure SerialInitOptions where
  port : Text := []
  baudrate : UInt32 := 9600
  timeoutMs : UInt32 := 1000
  interByteTimeoutMs : UInt32 := 0
  readTimeoutConstantMs : UInt32 := 1000
  readTimeoutMultiplierMs : UInt32 := 0
  writeTimeoutConstantMs : UInt32 := 1000
  writeTimeoutMultiplierMs : UInt32 := 0
  bytesize : Text := ofText "eightbits"
  parity : Text := ofText "none"
  stopbits : Text := ofText "one"
  flowcontrol : Text := ofText "none"
  autoOpen : Bool := true
  deriving DecidableEq

section
-- `dump()` of a floating-point number
variable (dumpFloat : UInt64 → Text)

/-- `JsonValueToToken`. -/
def jsonValueToToken (fieldName : String) : Json → Except OptionsError Text
  | .string value => .ok (normalizeToken value)
  | .unsigned value => .ok (ofText (toString value.toNat))
  | .integer value => .ok (ofText (toString value.toInt))
  | .float bits => .ok (normalizeToken (dumpFloat bits))
  | _ => .error (.invalidArgument
      (ofText ("serial config field '" ++ fieldName ++ "' must be a string or number")))

/-- `GetRequiredPortValue`, from the key on at which its loop stands. -/
def requiredPort (cfg : Json) : List String → Except OptionsError Text
  | [] => .error (.invalidArgument
      (ofText "serial config missing non-empty field: port/device"))
  | key :: keys =>
    match cfg.find key with
    | none | some .null => requiredPort cfg keys
    | some (.string port) => if port = [] then requiredPort cfg keys else .ok port
    | some _ => .error (.invalidArgument
        (ofText ("serial config field '" ++ key ++ "' must be a string")))

/-- `GetRequiredPortValue`, with its two keys. -/
def getRequiredPortValue (cfg : Json) : Except OptionsError Text :=
  requiredPort cfg ["port", "device"]

/-- `GetTokenValue`: the first key that has a value which is not null. -/
def getTokenValue (cfg : Json) (keys : List String) (defaultValue : Text) :
    Except OptionsError Text :=
  match keys with
  | [] => .ok (normalizeToken defaultValue)
  | key :: keys =>
    match cfg.find key with
    | none => getTokenValue cfg keys defaultValue
    | some value =>
      if value.isNull then getTokenValue cfg keys defaultValue
      else jsonValueToToken dumpFloat key value

/-- `cfg.value("auto_open", ..)`. -/
def getAutoOpen (cfg : Json) (defaultValue : Bool) : Except OptionsError Bool :=
  match cfg.find "auto_open" with
  | none => .ok defaultValue
  | some (.boolean value) => .ok value
  | some _ => .error .typeError

/-- `GetUint32Value`, with the errors of `ParseOptions`. -/
def getUint32 (cfg : Json) (keys : List String) (defaultValue : UInt32) :
    Except OptionsError UInt32 :=
  (getUint32Value cfg keys defaultValue).mapError Error.toOptionsError

/-- `ParseOptions` behind its check that the configuration is an object. -/
def parseFields (cfg : Json) : Except OptionsError SerialInitOptions := do
  let options : SerialInitOptions := {}
  let port ← getRequiredPortValue cfg
  let baudrate ← getUint32 cfg ["baudrate", "baud_rate"] options.baudrate
  let timeoutMs ← getUint32 cfg ["timeout_ms"] options.timeoutMs
  let interByteTimeoutMs ← getUint32 cfg ["inter_byte_timeout_ms"] options.interByteTimeoutMs
  let readTimeoutConstantMs ← getUint32 cfg ["read_timeout_constant_ms"] timeoutMs
  let readTimeoutMultiplierMs ←
    getUint32 cfg ["read_timeout_multiplier_ms"] options.readTimeoutMultiplierMs
  let writeTimeoutConstantMs ← getUint32 cfg ["write_timeout_constant_ms"] timeoutMs
  let writeTimeoutMultiplierMs ←
    getUint32 cfg ["write_timeout_multiplier_ms"] options.writeTimeoutMultiplierMs
  let bytesize ← parseBytesize (← getTokenValue dumpFloat cfg ["bytesize", "data_bits"]
    options.bytesize)
  let parity ← parseParity (← getTokenValue dumpFloat cfg ["parity"] options.parity)
  let stopbits ← parseStopbits (← getTokenValue dumpFloat cfg ["stopbits", "stop_bits"]
    options.stopbits)
  let flowcontrol ← parseFlowcontrol (← getTokenValue dumpFloat cfg
    ["flowcontrol", "flow_control"] options.flowcontrol)
  let autoOpen ← getAutoOpen cfg options.autoOpen
  pure
    { port, baudrate, timeoutMs, interByteTimeoutMs, readTimeoutConstantMs
      readTimeoutMultiplierMs, writeTimeoutConstantMs, writeTimeoutMultiplierMs
      bytesize := bytesize.toText, parity := parity.toText, stopbits := stopbits.toText
      flowcontrol := flowcontrol.toText, autoOpen }

/-- `ParseOptions`. -/
def parseOptions (cfg : Json) : Except OptionsError SerialInitOptions :=
  match cfg with
  | .object fields => parseFields dumpFloat (.object fields)
  | _ => .error (.invalidArgument (ofText "serial config must be a json object"))

/-! ## The normal form -/

/-- The options as a configuration, each under its own key. -/
def SerialInitOptions.toJson (options : SerialInitOptions) : Json :=
  .object
    [("port", .string options.port),
      ("baudrate", .unsigned options.baudrate.toUInt64),
      ("timeout_ms", .unsigned options.timeoutMs.toUInt64),
      ("inter_byte_timeout_ms", .unsigned options.interByteTimeoutMs.toUInt64),
      ("read_timeout_constant_ms", .unsigned options.readTimeoutConstantMs.toUInt64),
      ("read_timeout_multiplier_ms", .unsigned options.readTimeoutMultiplierMs.toUInt64),
      ("write_timeout_constant_ms", .unsigned options.writeTimeoutConstantMs.toUInt64),
      ("write_timeout_multiplier_ms", .unsigned options.writeTimeoutMultiplierMs.toUInt64),
      ("bytesize", .string options.bytesize),
      ("parity", .string options.parity),
      ("stopbits", .string options.stopbits),
      ("flowcontrol", .string options.flowcontrol),
      ("auto_open", .boolean options.autoOpen)]

/-- The keys whose values are tokens. -/
def tokenKeys : List String :=
  ["bytesize", "data_bits", "parity", "stopbits", "stop_bits", "flowcontrol", "flow_control"]

/-- A string in lower case. -/
def Json.lower : Json → Json
  | .string value => .string (normalizeToken value)
  | value => value

/-- The configuration with its tokens in lower case. -/
def Json.lowerTokens : Json → Json
  | .object fields => .object (fields.map fun field =>
      (field.1, if field.1 ∈ tokenKeys then field.2.lower else field.2))
  | cfg => cfg

/-- A letter is put into lower case once. -/
theorem tolower_tolower (c : UInt8) : tolower (tolower c) = tolower c := by
  simp only [tolower]
  split
  · next h =>
    rw [if_neg]
    intro h'
    obtain ⟨h1, h2⟩ := h
    obtain ⟨-, h4⟩ := h'
    have hsum : (c + 32).toNat = c.toNat + 32 := by
      have hc : c.toNat ≤ 90 := h2
      rw [UInt8.toNat_add]
      exact Nat.mod_eq_of_lt (by show c.toNat + 32 < 256; omega)
    have h90 : (c + 32).toNat ≤ 90 := h4
    have h65 : 65 ≤ c.toNat := h1
    omega
  · rfl

/-- A token is normalised once. -/
@[simp] theorem normalizeToken_normalizeToken (value : Text) :
    normalizeToken (normalizeToken value) = normalizeToken value := by
  rw [normalizeToken, normalizeToken, List.map_map]
  exact List.map_congr_left fun c _ => tolower_tolower c

/-- `Parse*` and `ToString` agree on what the enumeration is written as. -/
theorem parseBytesize_toText (b : Bytesize) : parseBytesize (normalizeToken b.toText) = .ok b := by
  cases b <;> rfl

/-- A parity is read as what it is written as. -/
theorem parseParity_toText (p : Parity) : parseParity (normalizeToken p.toText) = .ok p := by
  cases p <;> rfl

/-- Stop bits are read as what they are written as. -/
theorem parseStopbits_toText (s : Stopbits) : parseStopbits (normalizeToken s.toText) = .ok s := by
  cases s <;> rfl

/-- A flow control is read as what it is written as. -/
theorem parseFlowcontrol_toText (f : Flowcontrol) :
    parseFlowcontrol (normalizeToken f.toText) = .ok f := by
  cases f <;> rfl

/-- Options that `ParseOptions` can return. -/
structure SerialInitOptions.Normal (options : SerialInitOptions) : Prop where
  port : options.port ≠ []
  bytesize : ∃ b : Bytesize, options.bytesize = b.toText
  parity : ∃ p : Parity, options.parity = p.toText
  stopbits : ∃ s : Stopbits, options.stopbits = s.toText
  flowcontrol : ∃ f : Flowcontrol, options.flowcontrol = f.toText

/-- What both of two steps have come to, when the second one succeeds. -/
theorem bind_ok {ε α β : Type} {x : Except ε α} {f : α → Except ε β} {b : β}
    (h : x >>= f = .ok b) : ∃ a, x = .ok a ∧ f a = .ok b := by
  cases x with
  | error e => cases h
  | ok a => exact ⟨a, rfl, h⟩

/-- Two steps that succeed, one after the other. -/
theorem bind_of_ok {ε α β : Type} {x : Except ε α} {a : α} (hx : x = .ok a)
    {f : α → Except ε β} {b : β} (hf : f a = .ok b) : x >>= f = .ok b := by
  rw [hx]
  exact hf

/-- A port that is read is not empty. -/
theorem requiredPort_ne_nil {cfg : Json} {keys : List String} {port : Text}
    (h : requiredPort cfg keys = .ok port) : port ≠ [] := by
  induction keys with
  | nil => cases h
  | cons key keys ih =>
    rw [requiredPort] at h
    split at h
    · exact ih h
    · exact ih h
    · split at h
      · exact ih h
      · next hne =>
        cases h
        exact hne
    · cases h

/-- **What `ParseOptions` returns is normal.** -/
theorem parseFields_normal {cfg : Json} {options : SerialInitOptions}
    (h : parseFields dumpFloat cfg = .ok options) : options.Normal := by
  obtain ⟨port, hport, h⟩ := bind_ok h
  obtain ⟨baudrate, -, h⟩ := bind_ok h
  obtain ⟨timeoutMs, -, h⟩ := bind_ok h
  obtain ⟨interByteTimeoutMs, -, h⟩ := bind_ok h
  obtain ⟨readTimeoutConstantMs, -, h⟩ := bind_ok h
  obtain ⟨readTimeoutMultiplierMs, -, h⟩ := bind_ok h
  obtain ⟨writeTimeoutConstantMs, -, h⟩ := bind_ok h
  obtain ⟨writeTimeoutMultiplierMs, -, h⟩ := bind_ok h
  obtain ⟨_, -, h⟩ := bind_ok h
  obtain ⟨bytesize, -, h⟩ := bind_ok h
  obtain ⟨_, -, h⟩ := bind_ok h
  obtain ⟨parity, -, h⟩ := bind_ok h
  obtain ⟨_, -, h⟩ := bind_ok h
  obtain ⟨stopbits, -, h⟩ := bind_ok h
  obtain ⟨_, -, h⟩ := bind_ok h
  obtain ⟨flowcontrol, -, h⟩ := bind_ok h
  obtain ⟨autoOpen, -, h⟩ := bind_ok h
  cases h
  exact ⟨requiredPort_ne_nil hport, ⟨bytesize, rfl⟩, ⟨parity, rfl⟩, ⟨stopbits, rfl⟩,
    ⟨flowcontrol, rfl⟩⟩

/-! ## What is written is read -/

/-- A number of 32 bits is read as it is. -/
theorem readUint32_toUInt64 (key : String) (n : UInt32) :
    readUint32 key (.unsigned n.toUInt64) = .ok n := by
  have hn : n.toNat < 2 ^ 32 := n.toNat_lt
  rw [readUint32, UInt32.toNat_toUInt64, if_neg (by omega), UInt32.ofNat_toNat]

/-- A number under the first of its keys. -/
theorem getUint32_of_find {cfg : Json} {key : String} {n : UInt32}
    (h : cfg.find key = some (.unsigned n.toUInt64)) (keys : List String) (defaultValue : UInt32) :
    getUint32 cfg (key :: keys) defaultValue = .ok n := by
  rw [getUint32, getUint32Value, h]
  show (if Json.isNull (.unsigned _) = true then _ else _ : Except Error UInt32).mapError _ = _
  rw [if_neg (by simp [Json.isNull]), readUint32_toUInt64]
  rfl

/-- A token under the first of its keys. -/
theorem getTokenValue_of_find {cfg : Json} {key : String} {t : Text}
    (h : cfg.find key = some (.string t)) (keys : List String) (defaultValue : Text) :
    getTokenValue dumpFloat cfg (key :: keys) defaultValue = .ok (normalizeToken t) := by
  rw [getTokenValue, h]
  rfl

/-- A port that is not empty is read. -/
theorem getRequiredPortValue_of_find {cfg : Json} {port : Text}
    (h : cfg.find "port" = some (.string port)) (hport : port ≠ []) :
    getRequiredPortValue cfg = .ok port := by
  rw [getRequiredPortValue, requiredPort, h]
  exact if_neg hport

/-- **Options written as a configuration are read as they are.** -/
theorem parseOptions_toJson {options : SerialInitOptions} (h : options.Normal) :
    parseOptions dumpFloat options.toJson = .ok options := by
  obtain ⟨b, hb⟩ := h.bytesize
  obtain ⟨p, hp⟩ := h.parity
  obtain ⟨s, hs⟩ := h.stopbits
  obtain ⟨f, hf⟩ := h.flowcontrol
  refine bind_of_ok (getRequiredPortValue_of_find rfl h.port) ?_
  refine bind_of_ok (getUint32_of_find (n := options.baudrate) rfl _ _) ?_
  refine bind_of_ok (getUint32_of_find (n := options.timeoutMs) rfl _ _) ?_
  refine bind_of_ok (getUint32_of_find (n := options.interByteTimeoutMs) rfl _ _) ?_
  refine bind_of_ok (getUint32_of_find (n := options.readTimeoutConstantMs) rfl _ _) ?_
  refine bind_of_ok (getUint32_of_find (n := options.readTimeoutMultiplierMs) rfl _ _) ?_
  refine bind_of_ok (getUint32_of_find (n := options.writeTimeoutConstantMs) rfl _ _) ?_
  refine bind_of_ok (getUint32_of_find (n := options.writeTimeoutMultiplierMs) rfl _ _) ?_
  refine bind_of_ok (getTokenValue_of_find dumpFloat (t := options.bytesize) rfl _ _) ?_
  refine bind_of_ok (a := b) (by rw [hb]; exact parseBytesize_toText b) ?_
  refine bind_of_ok (getTokenValue_of_find dumpFloat (t := options.parity) rfl _ _) ?_
  refine bind_of_ok (a := p) (by rw [hp]; exact parseParity_toText p) ?_
  refine bind_of_ok (getTokenValue_of_find dumpFloat (t := options.stopbits) rfl _ _) ?_
  refine bind_of_ok (a := s) (by rw [hs]; exact parseStopbits_toText s) ?_
  refine bind_of_ok (getTokenValue_of_find dumpFloat (t := options.flowcontrol) rfl _ _) ?_
  refine bind_of_ok (a := f) (by rw [hf]; exact parseFlowcontrol_toText f) ?_
  refine bind_of_ok (a := options.autoOpen) rfl ?_
  rw [← hb, ← hp, ← hs, ← hf]
  rfl

/-! ## The case of the letters -/

/-- What is looked up after each value has been replaced. -/
theorem lookup_map_snd {α β : Type} (fields : List (String × α)) (f : String → α → β)
    (key : String) : (fields.map fun field => (field.1, f field.1 field.2)).lookup key =
      (fields.lookup key).map (f key) := by
  induction fields with
  | nil => rfl
  | cons field fields ih =>
    rw [List.map_cons, List.lookup_cons, List.lookup_cons]
    cases hk : key == field.1 with
    | true =>
      rw [beq_iff_eq.1 hk]
      rfl
    | false => exact ih

/-- What is found once the tokens are in lower case. -/
theorem find_lowerTokens (cfg : Json) (key : String) :
    cfg.lowerTokens.find key =
      (cfg.find key).map fun value => if key ∈ tokenKeys then value.lower else value := by
  cases cfg with
  | object fields =>
    exact lookup_map_snd fields
      (fun key value => if key ∈ tokenKeys then value.lower else value) key
  | _ => rfl

/-- A key whose value is no token is as it was. -/
theorem find_lowerTokens_of_notMem (cfg : Json) {key : String} (h : key ∉ tokenKeys) :
    cfg.lowerTokens.find key = cfg.find key := by
  rw [find_lowerTokens]
  simp [h]

/-- Lower case makes nothing null. -/
theorem isNull_lower (value : Json) : value.lower.isNull = value.isNull := by
  cases value <;> rfl

/-- Lower case makes no difference to a token. -/
theorem jsonValueToToken_lower (key : String) (value : Json) :
    jsonValueToToken dumpFloat key value.lower = jsonValueToToken dumpFloat key value := by
  cases value with
  | string value => rw [Json.lower, jsonValueToToken, jsonValueToToken,
      normalizeToken_normalizeToken]
  | _ => rfl

/-- Lower case makes no difference to what is read of tokens. -/
theorem getTokenValue_lowerTokens (cfg : Json) {keys : List String}
    (h : ∀ key ∈ keys, key ∈ tokenKeys) (defaultValue : Text) :
    getTokenValue dumpFloat cfg.lowerTokens keys defaultValue =
      getTokenValue dumpFloat cfg keys defaultValue := by
  induction keys with
  | nil => rfl
  | cons key keys ih =>
    obtain ⟨hkey, hkeys⟩ := List.forall_mem_cons.1 h
    rw [getTokenValue, getTokenValue, find_lowerTokens, ih hkeys]
    cases cfg.find key with
    | none => rfl
    | some value =>
      rw [Option.map_some, if_pos hkey]
      show (if value.lower.isNull = true then _ else _) = _
      rw [isNull_lower, jsonValueToToken_lower]

/-- Lower case leaves the numbers alone. -/
theorem getUint32_lowerTokens (cfg : Json) {keys : List String}
    (h : ∀ key ∈ keys, key ∉ tokenKeys) (defaultValue : UInt32) :
    getUint32 cfg.lowerTokens keys defaultValue = getUint32 cfg keys defaultValue := by
  rw [getUint32, getUint32]
  congr 1
  induction keys with
  | nil => rfl
  | cons key keys ih =>
    obtain ⟨hkey, hkeys⟩ := List.forall_mem_cons.1 h
    rw [getUint32Value, getUint32Value, find_lowerTokens_of_notMem cfg hkey, ih hkeys]

/-- Lower case leaves the port alone. -/
theorem getRequiredPortValue_lowerTokens (cfg : Json) :
    getRequiredPortValue cfg.lowerTokens = getRequiredPortValue cfg := by
  have hkeys : ∀ keys : List String, (∀ key ∈ keys, key ∉ tokenKeys) →
      requiredPort cfg.lowerTokens keys = requiredPort cfg keys := by
    intro keys h
    induction keys with
    | nil => rfl
    | cons key keys ih =>
      obtain ⟨hkey, hkeys⟩ := List.forall_mem_cons.1 h
      rw [requiredPort, requiredPort, find_lowerTokens_of_notMem cfg hkey, ih hkeys]
  exact hkeys ["port", "device"] (by decide)

/-- **The case of the tokens makes no difference.** -/
theorem parseFields_lowerTokens (cfg : Json) :
    parseFields dumpFloat cfg.lowerTokens = parseFields dumpFloat cfg := by
  have hnumber : ∀ keys : List String, (∀ key ∈ keys, key ∉ tokenKeys) →
      getUint32 cfg.lowerTokens keys = getUint32 cfg keys :=
    fun keys h => funext (getUint32_lowerTokens cfg h)
  have htoken : ∀ keys : List String, (∀ key ∈ keys, key ∈ tokenKeys) →
      getTokenValue dumpFloat cfg.lowerTokens keys = getTokenValue dumpFloat cfg keys :=
    fun keys h => funext (getTokenValue_lowerTokens dumpFloat cfg h)
  have hauto : getAutoOpen cfg.lowerTokens = getAutoOpen cfg := by
    funext defaultValue
    rw [getAutoOpen, getAutoOpen, find_lowerTokens_of_notMem cfg (by decide)]
  unfold parseFields
  rw [getRequiredPortValue_lowerTokens, hauto, hnumber _ (by decide), hnumber _ (by decide),
    hnumber _ (by decide), hnumber _ (by decide), hnumber _ (by decide), hnumber _ (by decide),
    hnumber _ (by decide), htoken _ (by decide), htoken _ (by decide), htoken _ (by decide),
    htoken _ (by decide)]

/-- **The normal form of a configuration.** The case of the letters in a token changes neither the
options nor the error, and the options are read again from the configuration they are written as. -/
theorem parseOptions_normal (cfg : Json) :
    parseOptions dumpFloat cfg.lowerTokens = parseOptions dumpFloat cfg ∧
    ∀ options, parseOptions dumpFloat cfg = .ok options →
      parseOptions dumpFloat options.toJson = .ok options := by
  constructor
  · cases cfg with
    | object fields => exact parseFields_lowerTokens dumpFloat (.object fields)
    | _ => rfl
  · intro options h
    cases cfg with
    | object fields => exact parseOptions_toJson dumpFloat (parseFields_normal dumpFloat h)
    | _ => cases h

end

/-- A configuration of the older kind. -/
def deviceConfig : Json :=
  .object [("device", .string (ofText "/dev/ttyS1")), ("baud_rate", .string (ofText "115200")),
    ("data_bits", .unsigned 8), ("parity", .string (ofText "Even")), ("timeout_ms", .unsigned 100)]

/-- A configuration of the older kind is read, and its options are read back. -/
theorem parseOptions_normal_device (dumpFloat : UInt64 → Text) :
    ∃ options, parseOptions dumpFloat deviceConfig = .ok options ∧
      options.parity = ofText "even" ∧ options.readTimeoutConstantMs = 100 ∧
      parseOptions dumpFloat options.toJson = .ok options := by
  obtain ⟨options, hok, hparity, hconstant⟩ : ∃ options,
      parseOptions dumpFloat deviceConfig = .ok options ∧ options.parity = ofText "even" ∧
        options.readTimeoutConstantMs = 100 :=
    ⟨{ port := ofText "/dev/ttyS1", baudrate := 115200, timeoutMs := 100
       readTimeoutConstantMs := 100, writeTimeoutConstantMs := 100, parity := ofText "even" },
      by with_unfolding_all rfl, rfl, rfl⟩
  exact ⟨options, hok, hparity, hconstant,
    (parseOptions_normal dumpFloat deviceConfig).2 options hok⟩

end MySerial
