import Voxtral.Server.UnsignedOption
import Mathlib.Data.LawfulXor.Basic
import Mathlib.Data.List.DropRight
import Mathlib.Data.List.GetD

/-!
# The server configuration

`server-config.cpp` and `auth.cpp`: the configuration comes from the environment and, overriding it,
from the command line; a key file is read when the configuration is validated.  A request is
authorized by comparing its bearer token with the configured key.

The file system is a parameter: the contents of the file at a path and whether reading it went bad,
or nothing when it cannot be opened.  A thrown `ConfigError` is its message.

## Main statements

* `constantTimeEqual_iff`: the comparison is equality.
* `authorizeBearer_iff`: the header a key authorizes, if it authorizes any.
-/

namespace Voxtral

/-! ## Authorization -/

/-- `constant_time_equal`. -/
def constantTimeEqual (left right : Bytes) : Bool :=
  let length := max left.length right.length
  let difference := (List.range length).foldl
    (fun difference i => difference ||| (left.getD i 0 ^^^ right.getD i 0).toNat)
    (left.length ^^^ right.length)
  difference == 0

/-- `authorize_bearer`. -/
def authorizeBearer (authorizationHeader configuredKey : Bytes) (authenticationEnabled : Bool) :
    Bool :=
  if authenticationEnabled = false then true
  else
    let bearer := literal "Bearer "
    if authorizationHeader.length ≤ bearer.length ∨
        authorizationHeader.take bearer.length ≠ bearer then false
    else
      let token := authorizationHeader.drop bearer.length
      if token = [] ∨ token.head? = some 0x20 ∨ token.getLast? = some 0x20 ∨
          token.head? = some 0x09 ∨ token.getLast? = some 0x09 then false
      else constantTimeEqual token configuredKey

/-- A text with a space or a tab at one of its ends. -/
def BlankEdge (key : Bytes) : Prop :=
  key.head? = some 0x20 ∨ key.getLast? = some 0x20 ∨ key.head? = some 0x09 ∨
    key.getLast? = some 0x09

/-- An accumulated difference is zero when every part of it is. -/
lemma foldl_or_eq_zero_iff {ι : Type*} (f : ι → ℕ) (l : List ι) (start : ℕ) :
    l.foldl (fun difference i => difference ||| f i) start = 0 ↔ start = 0 ∧ ∀ i ∈ l, f i = 0 := by
  induction l generalizing start with
  | nil => simp
  | cons i l ih =>
    rw [List.foldl_cons, ih, Nat.or_eq_zero_iff, List.forall_mem_cons, and_assoc]

/-- The comparison over the longer length finds any difference. -/
lemma constantTimeEqual_iff (left right : Bytes) :
    constantTimeEqual left right = true ↔ left = right := by
  unfold constantTimeEqual
  dsimp only
  rw [beq_iff_eq, foldl_or_eq_zero_iff, xor_eq_zero_iff]
  constructor
  · rintro ⟨hlen, hbytes⟩
    refine List.ext_getElem hlen fun i hleft hright => ?_
    have hi := hbytes i (List.mem_range.mpr (Nat.lt_of_lt_of_le hleft (Nat.le_max_left _ _)))
    rw [List.getD_eq_getElem _ _ hleft, List.getD_eq_getElem _ _ hright] at hi
    have hxor : left[i] ^^^ right[i] = 0 := UInt8.toNat_inj.mp hi
    exact UInt8.xor_eq_zero_iff.mp hxor
  · rintro rfl
    refine ⟨rfl, fun i _ => ?_⟩
    rw [UInt8.xor_self]
    rfl

/-- A key is authorized by the bearer header with the key, unless the key is empty or has a blank at an
end. -/
lemma authorizeBearer_iff (header key : Bytes) :
    authorizeBearer header key true = true ↔
      header = literal "Bearer " ++ key ∧ key ≠ [] ∧ ¬ BlankEdge key := by
  unfold authorizeBearer
  rw [if_neg (by decide)]
  dsimp only
  generalize literal "Bearer " = bearer
  constructor
  · intro h
    split_ifs at h with hprefix htoken
    obtain ⟨hlong, htake⟩ := not_or.mp hprefix
    obtain ⟨hne, hedge⟩ := not_or.mp htoken
    have hkey : header.drop bearer.length = key := (constantTimeEqual_iff _ _).mp h
    rw [hkey] at hne hedge
    refine ⟨?_, hne, hedge⟩
    rw [← hkey, ← not_not.mp htake, List.length_take, min_eq_left (by omega),
      List.take_append_drop]
  · rintro ⟨rfl, hne, hedge⟩
    have hpos : 0 < key.length := List.length_pos_iff.mpr hne
    have hdrop : (bearer ++ key).drop bearer.length = key := List.drop_left
    have htoken : ¬ (key = [] ∨ BlankEdge key) := not_or.mpr ⟨hne, hedge⟩
    unfold BlankEdge at htoken
    rw [hdrop, if_neg, if_neg htoken]
    · exact (constantTimeEqual_iff _ _).mpr rfl
    · rw [List.length_append, List.take_left]
      rintro (hshort | hprefix)
      · omega
      · exact hprefix rfl

/-! ## Configuration -/

/-- `kMebibyte`. -/
def mebibyte : ℕ := 1024 * 1024

/-- `kMaxApiKeyBytes`. -/
def maxApiKeyBytes : ℕ := 4096

/-- `ServerConfig`. -/
structure ServerConfig where
  modelPath : Bytes := []
  listenAddress : Bytes := literal "127.0.0.1"
  port : ℕ := 8080
  apiKey : Bytes := []
  apiKeyFile : Bytes := []
  noAuth : Bool := false
  allowInsecureNoAuth : Bool := false
  maxUploadBytes : ℕ := 512 * mebibyte
  realtimeSoftLagMs : ℕ := 1000
  realtimeHardLagMs : ℕ := 5000
  realtimeBufferMs : ℕ := 1000
  idleTimeoutSec : ℕ := 60
  deriving DecidableEq

/-- `ConfigAction`. -/
inductive ConfigAction
  | run
  | help
  | version
  deriving DecidableEq

/-- `ParsedConfig`. -/
structure ParsedConfig where
  config : ServerConfig := {}
  action : ConfigAction := .run
  deriving DecidableEq

/-- The environment variables that are set. -/
abbrev Environment := String → Option Bytes

/-- The content of the file at a path and whether reading went bad; nothing when it cannot be opened. -/
abbrev KeyFiles := Bytes → Option (Bytes × Bool)

/-- `is_loopback_address`. -/
def isLoopbackAddress (address : Bytes) : Bool :=
  address == literal "localhost" || address == literal "::1" ||
    address.take (literal "127.").length == literal "127."

/-- Take the newlines and carriage returns off the end. -/
def trimLineEnds (key : Bytes) : Bytes := key.rdropWhile fun c => c == 0x0A || c == 0x0D

/-- `read_api_key_file`. -/
def readApiKeyFile (files : KeyFiles) (path : Bytes) : Except Bytes Bytes :=
  match files path with
  | none => .error (literal "cannot open API key file")
  | some (content, bad) =>
    if bad = true ∨ maxApiKeyBytes < content.length then
      .error (literal "API key file is invalid or too large")
    else
      let key := trimLineEnds content
      if key = [] ∨ 0 ∈ key then
        .error (literal "API key file must contain a non-empty text token")
      else .ok key

/-- Set a field to the text of an environment variable, if it is set. -/
def setFromEnv (environment : Environment) (name : String)
    (set : ServerConfig → Bytes → ServerConfig) (config : ServerConfig) : ServerConfig :=
  match environment name with
  | some value => set config value
  | none => config

/-- Set a field to the number in an environment variable, if it is set. -/
def setUnsignedFromEnv (environment : Environment) (name : String) (minimum maximum : ℕ)
    (set : ServerConfig → ℕ → ServerConfig) (config : ServerConfig) : Except Bytes ServerConfig :=
  match environment name with
  | some value => (parseUnsigned value (literal name) minimum maximum).map (set config)
  | none => .ok config

/-- The API key or the key file of the environment. -/
def setApiKeyFromEnv (environment : Environment) (config : ServerConfig) : ServerConfig :=
  match environment "VOXTRAL_SERVER_API_KEY" with
  | some value => { config with apiKey := value, apiKeyFile := [] }
  | none =>
    match environment "VOXTRAL_SERVER_API_KEY_FILE" with
    | some value => { config with apiKeyFile := value }
    | none => config

/-- The largest `--max-upload-mib`. -/
def maxUploadMib : ℕ := (2 ^ 64 - 1) / mebibyte

/-- `apply_environment`. -/
def applyEnvironment (environment : Environment) (config : ServerConfig) :
    Except Bytes ServerConfig := do
  let config := setFromEnv environment "VOXTRAL_SERVER_MODEL"
    (fun config value => { config with modelPath := value }) config
  let config := setFromEnv environment "VOXTRAL_SERVER_LISTEN"
    (fun config value => { config with listenAddress := value }) config
  let config ← setUnsignedFromEnv environment "VOXTRAL_SERVER_PORT" 1 65535
    (fun config value => { config with port := value }) config
  let config := setApiKeyFromEnv environment config
  let config ← setUnsignedFromEnv environment "VOXTRAL_SERVER_MAX_UPLOAD_MIB" 1 maxUploadMib
    (fun config mib => { config with maxUploadBytes := mib * mebibyte }) config
  let config ← setUnsignedFromEnv environment "VOXTRAL_SERVER_REALTIME_SOFT_LAG_MS" 1 (2 ^ 32 - 1)
    (fun config value => { config with realtimeSoftLagMs := value }) config
  let config ← setUnsignedFromEnv environment "VOXTRAL_SERVER_REALTIME_HARD_LAG_MS" 1 (2 ^ 32 - 1)
    (fun config value => { config with realtimeHardLagMs := value }) config
  let config ← setUnsignedFromEnv environment "VOXTRAL_SERVER_REALTIME_BUFFER_MS" 1 (2 ^ 32 - 1)
    (fun config value => { config with realtimeBufferMs := value }) config
  setUnsignedFromEnv environment "VOXTRAL_SERVER_IDLE_TIMEOUT_SEC" 1 (2 ^ 32 - 1)
    (fun config value => { config with idleTimeoutSec := value }) config

/-- What an option does to the configuration: a flag at once, another option with its value. -/
inductive OptionEffect
  | flag (set : ServerConfig → ServerConfig)
  | value (set : ServerConfig → Bytes → Except Bytes ServerConfig)

/-- An option with a number. -/
def unsignedOption (name : String) (minimum maximum : ℕ) (set : ServerConfig → ℕ → ServerConfig) :
    Bytes × OptionEffect :=
  (literal name, .value fun config value =>
    (parseUnsigned value (literal name) minimum maximum).map (set config))

/-- The options of `parse_config` other than `--help` and `--version`, in the order they are tried. -/
def options : List (Bytes × OptionEffect) :=
  [(literal "--model", .value fun config value => .ok { config with modelPath := value }),
    (literal "--listen", .value fun config value => .ok { config with listenAddress := value }),
    unsignedOption "--port" 1 65535 fun config value => { config with port := value },
    (literal "--api-key-file", .value fun config value =>
      .ok { config with apiKeyFile := value, apiKey := [], noAuth := false }),
    (literal "--no-auth", .flag fun config => { config with noAuth := true }),
    (literal "--allow-insecure-no-auth",
      .flag fun config => { config with allowInsecureNoAuth := true }),
    unsignedOption "--max-upload-mib" 1 maxUploadMib
      fun config mib => { config with maxUploadBytes := mib * mebibyte },
    unsignedOption "--realtime-soft-lag-ms" 1 (2 ^ 32 - 1)
      fun config value => { config with realtimeSoftLagMs := value },
    unsignedOption "--realtime-hard-lag-ms" 1 (2 ^ 32 - 1)
      fun config value => { config with realtimeHardLagMs := value },
    unsignedOption "--realtime-buffer-ms" 1 (2 ^ 32 - 1)
      fun config value => { config with realtimeBufferMs := value },
    unsignedOption "--idle-timeout-sec" 1 (2 ^ 32 - 1)
      fun config value => { config with idleTimeoutSec := value }]

/-- What an argument does, if it is one of the options. -/
def optionEffect (argument : Bytes) : Option OptionEffect := options.lookup argument

/-- The loop of `parse_config` over the arguments behind the first; the value of an option is taken by
`option_value`. -/
def parseArguments : ServerConfig → List Bytes → Except Bytes ParsedConfig
  | config, [] => .ok { config := config }
  | config, argument :: rest =>
    if argument = literal "--help" then .ok { config := config, action := .help }
    else if argument = literal "--version" then .ok { config := config, action := .version }
    else
      match optionEffect argument with
      | none => .error (literal "unknown option: " ++ argument)
      | some (.flag set) => parseArguments (set config) rest
      | some (.value set) =>
        match rest with
        | [] => .error (argument ++ literal " requires a value")
        | value :: rest =>
          if value = [] then .error (argument ++ literal " requires a non-empty value")
          else (set config value).bind fun config => parseArguments config rest

/-- `validate_config`. -/
def validateConfig (files : KeyFiles) (config : ServerConfig) : Except Bytes ServerConfig :=
  if config.modelPath = [] then
    .error (literal "model path is required (--model or VOXTRAL_SERVER_MODEL)")
  else if config.listenAddress = [] then
    .error (literal "listen address must not be empty")
  else if config.realtimeHardLagMs < config.realtimeSoftLagMs then
    .error (literal "realtime soft lag must not exceed hard lag")
  else if config.noAuth = true then
    if isLoopbackAddress config.listenAddress = false ∧ config.allowInsecureNoAuth = false then
      .error (literal ("--no-auth is only allowed on a loopback bind; " ++
        "use --allow-insecure-no-auth to override"))
    else .ok { config with apiKey := [], apiKeyFile := [] }
  else
    (if config.apiKeyFile = [] then .ok config.apiKey
      else readApiKeyFile files config.apiKeyFile).bind fun key =>
    if key = [] then
      .error (literal "authentication is required; configure an API key or use --no-auth")
    else if maxApiKeyBytes < key.length ∨ 0 ∈ key then
      .error (literal "API key is invalid or too large")
    else .ok { config with apiKey := key }

/-- `parse_config`. -/
def parseConfig (files : KeyFiles) (arguments : List Bytes) (environment : Environment) :
    Except Bytes ParsedConfig := do
  let config ← applyEnvironment environment {}
  let parsed ← parseArguments config (arguments.drop 1)
  if parsed.action = .run then
    let config ← validateConfig files parsed.config
    .ok { parsed with config := config }
  else .ok parsed

/-- `HttpSession::authorized`. -/
def ServerConfig.authorized (config : ServerConfig) (header : Bytes) : Bool :=
  authorizeBearer header config.apiKey (!config.noAuth)

end Voxtral
