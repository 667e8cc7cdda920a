import Voxtral.Server.Config

/-!
# The configured key

Which key a server demands is decided by the environment, the last authentication option of the
command line and the content of a key file; `keySource` says so without the loop of `parse_config`.
The configuration `parse_config` accepts holds that key.  Neither reading nor validating it looks for
blanks, while `authorize_bearer` refuses every token with a blank at an end: such a key locks
out every client.

## Main statements

* `parseArguments_heldBy`: the loop follows the source.
* `parseConfig_authenticates_iff`: an accepted configuration lets its own key in, and nothing else,
  exactly when the key has no blank at an end.
-/

namespace Voxtral

/-- Where the key of a configuration comes from. -/
inductive KeySource
  | disabled
  | file (path : Bytes)
  | text (key : Bytes)

/-- The source the environment names. -/
def KeySource.ofEnvironment (environment : Environment) : KeySource :=
  match environment "VOXTRAL_SERVER_API_KEY" with
  | some key => .text key
  | none =>
    match environment "VOXTRAL_SERVER_API_KEY_FILE" with
    | some path => .file path
    | none => .text []

/-- Whether an option takes a value. -/
def takesValue (argument : Bytes) : Bool :=
  match optionEffect argument with
  | some (.value _) => true
  | _ => false

/-- The source behind a list of arguments: the last of `--api-key-file` and `--no-auth` decides. -/
def KeySource.after : KeySource → List Bytes → KeySource
  | source, [] => source
  | source, argument :: rest =>
    if takesValue argument = true then
      match rest with
      | [] => source
      | value :: rest =>
        KeySource.after (if argument = literal "--api-key-file" then .file value else source) rest
    else KeySource.after (if argument = literal "--no-auth" then .disabled else source) rest

/-- The key the command line and the environment configure. -/
def keySource (arguments : List Bytes) (environment : Environment) : KeySource :=
  (KeySource.ofEnvironment environment).after (arguments.drop 1)

/-- The key of a source: the text, or the content of the file without the line ends behind it. -/
def KeySource.key (files : KeyFiles) : KeySource → Option Bytes
  | .disabled => none
  | .file path => (files path).map fun content => trimLineEnds content.1
  | .text key => some key

/-- The configuration holds what the source says. -/
def KeySource.HeldBy (config : ServerConfig) : KeySource → Prop
  | .disabled => config.noAuth = true
  | .file path => config.noAuth = false ∧ config.apiKeyFile = path ∧ config.apiKey = []
  | .text key => config.noAuth = false ∧ config.apiKeyFile = [] ∧ config.apiKey = key

/-- The two configurations agree on authentication. -/
structure SameAuth (config config' : ServerConfig) : Prop where
  apiKey : config'.apiKey = config.apiKey
  apiKeyFile : config'.apiKeyFile = config.apiKeyFile
  noAuth : config'.noAuth = config.noAuth
  insecure : config'.allowInsecureNoAuth = config.allowInsecureNoAuth

section Source

variable {config config' : ServerConfig} {source : KeySource}

/-- The source of the key is seen in the authentication fields. -/
lemma SameAuth.heldBy (h : SameAuth config config') (hsource : source.HeldBy config) :
    source.HeldBy config' := by
  cases source with
  | disabled => exact h.noAuth.trans hsource
  | file path =>
    obtain ⟨hauth, hfile, hkey⟩ := hsource
    exact ⟨h.noAuth.trans hauth, h.apiKeyFile.trans hfile, h.apiKey.trans hkey⟩
  | text key =>
    obtain ⟨hauth, hfile, hkey⟩ := hsource
    exact ⟨h.noAuth.trans hauth, h.apiKeyFile.trans hfile, h.apiKey.trans hkey⟩

/-- Two changes that leave the authentication alone. -/
lemma SameAuth.trans {config'' : ServerConfig} (h : SameAuth config config')
    (h' : SameAuth config' config'') : SameAuth config config'' where
  apiKey := h'.apiKey.trans h.apiKey
  apiKeyFile := h'.apiKeyFile.trans h.apiKeyFile
  noAuth := h'.noAuth.trans h.noAuth
  insecure := h'.insecure.trans h.insecure

/-- An `Except` computation succeeds when its parts do. -/
lemma exceptBind_eq_ok_iff {ε σ τ : Type*} {x : Except ε σ} {f : σ → Except ε τ} {b : τ} :
    x.bind f = .ok b ↔ ∃ a, x = .ok a ∧ f a = .ok b := by
  cases x with
  | error e => exact ⟨nofun, fun ⟨a, ha, _⟩ => nomatch ha⟩
  | ok a => exact ⟨fun h => ⟨a, rfl, h⟩, fun ⟨a', ha, h⟩ => Except.ok.inj ha ▸ h⟩

/-- A mapped computation succeeds as the computation does. -/
lemma exceptMap_eq_ok_iff {ε σ τ : Type*} {x : Except ε σ} {f : σ → τ} {b : τ} :
    x.map f = .ok b ↔ ∃ a, x = .ok a ∧ f a = b := by
  cases x with
  | error e => exact ⟨nofun, fun ⟨a, ha, _⟩ => nomatch ha⟩
  | ok a => exact ⟨fun h => ⟨a, rfl, Except.ok.inj h⟩,
      fun ⟨a', ha, h⟩ => by rw [Except.ok.inj ha, ← h]; rfl⟩

/-- A number from the environment changes nothing about authentication. -/
lemma setUnsignedFromEnv_sameAuth {environment : Environment} {name : String} {minimum maximum : ℕ}
    {set : ServerConfig → ℕ → ServerConfig}
    (h : setUnsignedFromEnv environment name minimum maximum set config = .ok config')
    (hset : ∀ config n, SameAuth config (set config n)) :
    SameAuth config config' := by
  unfold setUnsignedFromEnv at h
  cases hvalue : environment name with
  | none =>
    rw [hvalue] at h
    rw [← Except.ok.inj h]
    exact ⟨rfl, rfl, rfl, rfl⟩
  | some value =>
    rw [hvalue] at h
    obtain ⟨n, -, rfl⟩ := exceptMap_eq_ok_iff.mp h
    exact hset config n

/-- A variable whose setter leaves the authentication alone leaves it alone. -/
lemma setFromEnv_sameAuth {environment : Environment} {name : String}
    {set : ServerConfig → Bytes → ServerConfig}
    (hset : ∀ config value, SameAuth config (set config value)) :
    SameAuth config (setFromEnv environment name set config) := by
  unfold setFromEnv
  cases environment name with
  | none => exact ⟨rfl, rfl, rfl, rfl⟩
  | some value => exact hset config value

/-- The environment's key is the only thing it says about authentication. -/
lemma applyEnvironment_heldBy {environment : Environment}
    (h : applyEnvironment environment {} = .ok config) :
    (KeySource.ofEnvironment environment).HeldBy config ∧ config.allowInsecureNoAuth = false := by
  unfold applyEnvironment at h
  dsimp only at h
  obtain ⟨config₁, hport, h⟩ := exceptBind_eq_ok_iff.mp h
  obtain ⟨config₂, hupload, h⟩ := exceptBind_eq_ok_iff.mp h
  obtain ⟨config₃, hsoft, h⟩ := exceptBind_eq_ok_iff.mp h
  obtain ⟨config₄, hhard, h⟩ := exceptBind_eq_ok_iff.mp h
  obtain ⟨config₅, hbuffer, hidle⟩ := exceptBind_eq_ok_iff.mp h
  have hbefore : SameAuth {} config₁ := by
    refine SameAuth.trans ?_ (setUnsignedFromEnv_sameAuth hport fun _ _ => ⟨rfl, rfl, rfl, rfl⟩)
    refine SameAuth.trans ?_ (setFromEnv_sameAuth fun _ _ => ⟨rfl, rfl, rfl, rfl⟩)
    exact setFromEnv_sameAuth fun _ _ => ⟨rfl, rfl, rfl, rfl⟩
  have hafter : SameAuth (setApiKeyFromEnv environment config₁) config := by
    refine SameAuth.trans ?_ (setUnsignedFromEnv_sameAuth hidle fun _ _ => ⟨rfl, rfl, rfl, rfl⟩)
    refine SameAuth.trans ?_ (setUnsignedFromEnv_sameAuth hbuffer fun _ _ => ⟨rfl, rfl, rfl, rfl⟩)
    refine SameAuth.trans ?_ (setUnsignedFromEnv_sameAuth hhard fun _ _ => ⟨rfl, rfl, rfl, rfl⟩)
    refine SameAuth.trans ?_ (setUnsignedFromEnv_sameAuth hsoft fun _ _ => ⟨rfl, rfl, rfl, rfl⟩)
    exact setUnsignedFromEnv_sameAuth hupload fun _ _ => ⟨rfl, rfl, rfl, rfl⟩
  have hkey : (KeySource.ofEnvironment environment).HeldBy (setApiKeyFromEnv environment config₁) ∧
      (setApiKeyFromEnv environment config₁).allowInsecureNoAuth = false := by
    unfold KeySource.ofEnvironment setApiKeyFromEnv
    cases environment "VOXTRAL_SERVER_API_KEY" with
    | some key => exact ⟨⟨hbefore.noAuth, rfl, rfl⟩, hbefore.insecure⟩
    | none =>
      cases environment "VOXTRAL_SERVER_API_KEY_FILE" with
      | some path => exact ⟨⟨hbefore.noAuth, rfl, hbefore.apiKey⟩, hbefore.insecure⟩
      | none => exact ⟨⟨hbefore.noAuth, hbefore.apiKeyFile, hbefore.apiKey⟩, hbefore.insecure⟩
  exact ⟨hafter.heldBy hkey.1, hafter.insecure.trans hkey.2⟩

/-! ## Options -/

/-- What an option may do to authentication. -/
def AuthEffect (name : Bytes) : OptionEffect → Prop
  | .flag set => ∀ config : ServerConfig,
    set config = { config with noAuth := true } ∧ name = literal "--no-auth" ∨
      set config = { config with allowInsecureNoAuth := true } ∧
        name = literal "--allow-insecure-no-auth"
  | .value set => ∀ config value config', set config value = .ok config' →
    if name = literal "--api-key-file" then
      config' = { config with apiKeyFile := value, apiKey := [], noAuth := false }
    else SameAuth config config'

/-- An option with a number is not about authentication. -/
lemma unsignedOption_authEffect {name : String} {minimum maximum : ℕ}
    {set : ServerConfig → ℕ → ServerConfig} (hname : literal name ≠ literal "--api-key-file")
    (hset : ∀ config n, SameAuth config (set config n)) :
    AuthEffect (unsignedOption name minimum maximum set).1
      (unsignedOption name minimum maximum set).2 := by
  intro config value config' h
  obtain ⟨n, -, rfl⟩ := exceptMap_eq_ok_iff.mp h
  rw [unsignedOption, if_neg hname]
  exact hset config n

/-- Two flags and the key file are about authentication; the other options are not. -/
lemma options_authEffect : ∀ option ∈ options, AuthEffect option.1 option.2 := by
  unfold options
  simp only [List.forall_mem_cons, List.not_mem_nil, false_imp_iff, implies_true, and_true]
  refine ⟨?_, ?_, ?_, ?_, ?_, ?_, ?_, ?_, ?_, ?_, ?_⟩
  · intro config value config' h
    rw [if_neg (by decide), ← Except.ok.inj h]
    exact ⟨rfl, rfl, rfl, rfl⟩
  · intro config value config' h
    rw [if_neg (by decide), ← Except.ok.inj h]
    exact ⟨rfl, rfl, rfl, rfl⟩
  · exact unsignedOption_authEffect (by decide) fun _ _ => ⟨rfl, rfl, rfl, rfl⟩
  · intro config value config' h
    rw [if_pos rfl]
    exact (Except.ok.inj h).symm
  · intro config
    exact Or.inl ⟨rfl, rfl⟩
  · intro config
    exact Or.inr ⟨rfl, rfl⟩
  · exact unsignedOption_authEffect (by decide) fun _ _ => ⟨rfl, rfl, rfl, rfl⟩
  · exact unsignedOption_authEffect (by decide) fun _ _ => ⟨rfl, rfl, rfl, rfl⟩
  · exact unsignedOption_authEffect (by decide) fun _ _ => ⟨rfl, rfl, rfl, rfl⟩
  · exact unsignedOption_authEffect (by decide) fun _ _ => ⟨rfl, rfl, rfl, rfl⟩
  · exact unsignedOption_authEffect (by decide) fun _ _ => ⟨rfl, rfl, rfl, rfl⟩

/-- What an option does to the authentication. -/
lemma optionEffect_authEffect {argument : Bytes} {effect : OptionEffect}
    (h : optionEffect argument = some effect) : AuthEffect argument effect := by
  obtain ⟨before, behind, hsplit, -⟩ := List.lookup_eq_some_iff.mp h
  have hmem : (argument, effect) ∈ options := by
    rw [hsplit]
    exact List.mem_append_right before List.mem_cons_self
  exact options_authEffect _ hmem

/-! ## The loop -/

/-- Among the options without a value, only `--no-auth` changes the source of the key. -/
lemma KeySource.after_flag {argument : Bytes} {set : ServerConfig → ServerConfig}
    (h : optionEffect argument = some (.flag set)) (source : KeySource) (rest : List Bytes) :
    source.after (argument :: rest) =
      KeySource.after (if argument = literal "--no-auth" then .disabled else source) rest := by
  have hflag : takesValue argument = false := by rw [takesValue, h]
  conv_lhs => unfold KeySource.after
  rw [hflag]
  exact if_neg Bool.false_ne_true

/-- Among the options with a value, only `--api-key-file` does. -/
lemma KeySource.after_value {argument : Bytes}
    {set : ServerConfig → Bytes → Except Bytes ServerConfig}
    (h : optionEffect argument = some (.value set)) (source : KeySource) (value : Bytes)
    (rest : List Bytes) :
    source.after (argument :: value :: rest) =
      KeySource.after (if argument = literal "--api-key-file" then .file value else source)
        rest := by
  rw [KeySource.after, takesValue, h]
  exact if_pos rfl

/-- **The loop follows the source**: behind the arguments the configuration holds what the source behind
them says, and permits an unauthenticated bind only if it was told to. -/
lemma parseArguments_heldBy {arguments : List Bytes} {parsed : ParsedConfig}
    (h : parseArguments config arguments = .ok parsed) (hrun : parsed.action = .run)
    (hsource : source.HeldBy config) :
    (source.after arguments).HeldBy parsed.config ∧
      (parsed.config.allowInsecureNoAuth = true →
        config.allowInsecureNoAuth = true ∨ literal "--allow-insecure-no-auth" ∈ arguments) := by
  fun_induction parseArguments config arguments generalizing source with
  | case1 config =>
    rw [← Except.ok.inj h]
    exact ⟨hsource, Or.inl⟩
  | case2 | case3 =>
    rw [← Except.ok.inj h] at hrun
    exact nomatch hrun
  | case4 | case6 | case7 => exact nomatch h
  | case5 config argument rest _ _ set heffect ih =>
    rw [KeySource.after_flag heffect]
    rcases optionEffect_authEffect heffect config with ⟨hset, rfl⟩ | ⟨hset, rfl⟩
    · rw [if_pos rfl]
      rw [hset] at h ih
      have hoff : KeySource.disabled.HeldBy { config with noAuth := true } := rfl
      obtain ⟨hheld, hinsecure⟩ := ih h hoff
      exact ⟨hheld, fun hallow => (hinsecure hallow).imp id (List.mem_cons_of_mem _)⟩
    · rw [if_neg (by decide)]
      rw [hset] at h ih
      have hkept : source.HeldBy { config with allowInsecureNoAuth := true } := by
        cases source <;> exact hsource
      exact ⟨(ih h hkept).1, fun _ => Or.inr List.mem_cons_self⟩
  | case8 config argument _ _ set heffect value rest _ ih =>
    rw [KeySource.after_value heffect]
    obtain ⟨config₁, hset, hrest⟩ := exceptBind_eq_ok_iff.mp h
    have hauth := optionEffect_authEffect heffect config value config₁ hset
    split_ifs at hauth ⊢ with hfile
    · rw [hauth] at hrest
      have hnamed : (KeySource.file value).HeldBy
          { config with apiKeyFile := value, apiKey := [], noAuth := false } := ⟨rfl, rfl, rfl⟩
      obtain ⟨hheld, hinsecure⟩ := ih _ hrest hnamed
      refine ⟨hheld, fun hallow => (hinsecure hallow).imp id fun hmem => ?_⟩
      exact List.mem_cons_of_mem _ (List.mem_cons_of_mem _ hmem)
    · obtain ⟨hheld, hinsecure⟩ := ih _ hrest (hauth.heldBy hsource)
      rw [hauth.insecure] at hinsecure
      refine ⟨hheld, fun hallow => (hinsecure hallow).imp id fun hmem => ?_⟩
      exact List.mem_cons_of_mem _ (List.mem_cons_of_mem _ hmem)

/-! ## Validation -/

/-- A key file gives its content without the line ends behind it, which is never empty. -/
lemma readApiKeyFile_eq_ok {files : KeyFiles} {path key : Bytes}
    (h : readApiKeyFile files path = .ok key) :
    (KeySource.file path).key files = some key ∧ key ≠ [] := by
  unfold readApiKeyFile at h
  cases hfile : files path with
  | none =>
    rw [hfile] at h
    exact nomatch h
  | some content =>
    obtain ⟨content, bad⟩ := content
    rw [hfile] at h
    dsimp only at h
    split_ifs at h with hbad hempty
    obtain rfl := Except.ok.inj h
    refine ⟨?_, (not_or.mp hempty).1⟩
    rw [KeySource.key, hfile]
    rfl

/-- An accepted configuration without authentication is bound to a loopback address, or permits the
bind; one with authentication has the key of its source. -/
lemma validateConfig_eq_ok {files : KeyFiles} (h : validateConfig files config = .ok config')
    (hsource : source.HeldBy config) :
    config'.noAuth = config.noAuth ∧
      config'.allowInsecureNoAuth = config.allowInsecureNoAuth ∧
      (config.noAuth = true → source.key files = none ∧
        (isLoopbackAddress config'.listenAddress = true ∨ config.allowInsecureNoAuth = true)) ∧
      (config.noAuth = false → source.key files = some config'.apiKey ∧ config'.apiKey ≠ []) := by
  unfold validateConfig at h
  split_ifs at h with hmodel hlisten hlag hauth hbind hfile
  · -- no authentication
    rw [← Except.ok.inj h]
    refine ⟨rfl, rfl, fun _ => ⟨?_, ?_⟩, fun hon => absurd (hauth.symm.trans hon) (by decide)⟩
    · cases source with
      | disabled => rfl
      | file path => exact absurd (hauth.symm.trans hsource.1) (by decide)
      | text key => exact absurd (hauth.symm.trans hsource.1) (by decide)
    · by_contra hneither
      obtain ⟨hloop, hallow⟩ := not_or.mp hneither
      exact hbind ⟨Bool.eq_false_iff.mpr hloop, Bool.eq_false_iff.mpr hallow⟩
  · -- the key is there already
    obtain ⟨key, hkey, h⟩ := exceptBind_eq_ok_iff.mp h
    obtain rfl := Except.ok.inj hkey
    split_ifs at h with hempty hbad
    rw [← Except.ok.inj h]
    refine ⟨rfl, rfl, fun hoff => absurd hoff hauth, fun _ => ⟨?_, hempty⟩⟩
    cases source with
    | disabled => exact absurd hsource hauth
    | file path => exact absurd hsource.2.2 hempty
    | text key => exact congrArg some hsource.2.2.symm
  · -- the key comes from the file
    obtain ⟨key, hkey, h⟩ := exceptBind_eq_ok_iff.mp h
    obtain ⟨hread, hne⟩ := readApiKeyFile_eq_ok hkey
    split_ifs at h with hempty hbad
    rw [← Except.ok.inj h]
    refine ⟨rfl, rfl, fun hoff => absurd hoff hauth, fun _ => ⟨?_, hne⟩⟩
    cases source with
    | disabled => exact absurd hsource hauth
    | file path =>
      rw [← hsource.2.1]
      exact hread
    | text key => exact absurd hsource.2.1 hfile

end Source

/-! ## Accepted configurations -/

/-- What a server with the configuration needs: with authentication the configured key is let in and
nothing else; without it the bind is a loopback bind or explicitly permitted. -/
structure Authenticates (arguments : List Bytes) (config : ServerConfig) : Prop where
  enabled : config.noAuth = false → ∀ header,
    config.authorized header = true ↔ header = literal "Bearer " ++ config.apiKey
  disabled : config.noAuth = true →
    isLoopbackAddress config.listenAddress = true ∨
      config.allowInsecureNoAuth = true ∧ literal "--allow-insecure-no-auth" ∈ arguments

/-- The parts of an accepted configuration. -/
lemma parseConfig_eq_ok {files : KeyFiles} {arguments : List Bytes} {environment : Environment}
    {parsed : ParsedConfig} (h : parseConfig files arguments environment = .ok parsed)
    (hrun : parsed.action = .run) :
    (parsed.config.noAuth = true → (keySource arguments environment).key files = none ∧
      (isLoopbackAddress parsed.config.listenAddress = true ∨
        parsed.config.allowInsecureNoAuth = true ∧
          literal "--allow-insecure-no-auth" ∈ arguments)) ∧
      (parsed.config.noAuth = false →
        (keySource arguments environment).key files = some parsed.config.apiKey ∧
          parsed.config.apiKey ≠ []) := by
  obtain ⟨config₀, henv, h⟩ := exceptBind_eq_ok_iff.mp h
  obtain ⟨parsed₀, hargs, h⟩ := exceptBind_eq_ok_iff.mp h
  obtain ⟨hsource₀, hinsecure₀⟩ := applyEnvironment_heldBy henv
  split_ifs at h with hrun₀
  · obtain ⟨config, hvalid, h⟩ := exceptBind_eq_ok_iff.mp h
    obtain rfl := Except.ok.inj h
    obtain ⟨hsource, hinsecure⟩ := parseArguments_heldBy hargs hrun₀ hsource₀
    obtain ⟨hauth, hallow, hoff, hon⟩ := validateConfig_eq_ok hvalid hsource
    constructor
    · intro hdisabled
      obtain ⟨hkey, hbind⟩ := hoff (hauth.symm.trans hdisabled)
      refine ⟨hkey, hbind.imp id fun hpermit => ⟨hallow.trans hpermit, ?_⟩⟩
      rcases hinsecure hpermit with hbefore | hmem
      · exact absurd (hinsecure₀.symm.trans hbefore) (by decide)
      · exact List.mem_of_mem_drop hmem
    · intro henabled
      exact hon (hauth.symm.trans henabled)
  · obtain rfl := Except.ok.inj h
    exact absurd hrun hrun₀

/-- **Accepted configurations authenticate** exactly when the key their inputs configure has no blank at an
end. -/
theorem parseConfig_authenticates_iff (files : KeyFiles) (arguments : List Bytes)
    (environment : Environment) {parsed : ParsedConfig}
    (h : parseConfig files arguments environment = .ok parsed) (hrun : parsed.action = .run) :
    Authenticates arguments parsed.config ↔
      ∀ key, (keySource arguments environment).key files = some key → ¬ BlankEdge key := by
  obtain ⟨hoff, hon⟩ := parseConfig_eq_ok h hrun
  cases hauth : parsed.config.noAuth with
  | true =>
    obtain ⟨hkey, hbind⟩ := hoff hauth
    constructor
    · intro _ key hsome
      exact nomatch hkey.symm.trans hsome
    · intro _
      exact ⟨fun henabled => absurd (hauth.symm.trans henabled) (by decide), fun _ => hbind⟩
  | false =>
    obtain ⟨hkey, hne⟩ := hon hauth
    have hauthorized : ∀ header, parsed.config.authorized header = true ↔
        header = literal "Bearer " ++ parsed.config.apiKey ∧ parsed.config.apiKey ≠ [] ∧
          ¬ BlankEdge parsed.config.apiKey := by
      intro header
      rw [ServerConfig.authorized, hauth]
      exact authorizeBearer_iff header parsed.config.apiKey
    constructor
    · intro hall key hsome
      obtain rfl := Option.some.inj (hkey.symm.trans hsome)
      exact ((hauthorized _).mp ((hall.enabled hauth _).mpr rfl)).2.2
    · intro hedge
      refine ⟨fun _ header => ?_, fun hdisabled => absurd (hauth.symm.trans hdisabled) (by decide)⟩
      rw [hauthorized header]
      exact ⟨fun h => h.1, fun h => ⟨h, hne, hedge _ hkey⟩⟩

/-- A key from a file with a carriage return and a newline behind it, as the documentation writes it. -/
theorem parseConfig_authenticates_file :
    ∃ parsed, parseConfig (fun _ => some (literal "file-secret\r\n", false))
        [literal "voxtral-server", literal "--api-key-file", literal "/run/key"]
        (fun name => if name = "VOXTRAL_SERVER_MODEL" then some (literal "model.gguf") else none) =
          .ok parsed ∧
      Authenticates [literal "voxtral-server", literal "--api-key-file", literal "/run/key"]
        parsed.config := by
  refine ⟨{ config :=
    { modelPath := literal "model.gguf"
      apiKeyFile := literal "/run/key"
      apiKey := literal "file-secret" } }, by decide, ?_⟩
  refine (parseConfig_authenticates_iff (fun _ => some (literal "file-secret\r\n", false)) _
    (fun name => if name = "VOXTRAL_SERVER_MODEL" then some (literal "model.gguf") else none)
    (by decide) rfl).mpr ?_
  intro key hkey
  obtain rfl : literal "file-secret" = key := by
    refine Option.some.inj (Eq.trans ?_ hkey)
    decide
  unfold BlankEdge
  decide

/-- A key with a space behind it is accepted, and locks every client out. -/
theorem parseConfig_lockout :
    ¬ ∀ (files : KeyFiles) (arguments : List Bytes) (environment : Environment)
        (parsed : ParsedConfig), parseConfig files arguments environment = .ok parsed →
      parsed.action = .run → Authenticates arguments parsed.config := by
  intro hall
  have hbad := hall (fun _ => none) [literal "voxtral-server"]
    (fun name => if name = "VOXTRAL_SERVER_MODEL" then some (literal "model.gguf")
      else if name = "VOXTRAL_SERVER_API_KEY" then some (literal "secret ") else none)
    { config := { modelPath := literal "model.gguf", apiKey := literal "secret " } } (by decide) rfl
  have hlet := (hbad.enabled rfl (literal "Bearer secret ")).mpr (by decide)
  exact absurd hlet (by decide)

end Voxtral
