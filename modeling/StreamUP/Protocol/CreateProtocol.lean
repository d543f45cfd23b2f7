import StreamUP.Protocol.Protocol

/-! `Protocol::createProtocol` and the constructor behind it: what is checked, and who owns what. -/

namespace StreamUP

open Fallible

/-- `enum class CreateProtocolError`. -/
inductive CreateProtocolError where
  | failedToCreateSslCtx
  | missingPrivateKey
  | missingPublicKey
  | missingCipherSuites
  | missingEphemeralGroups
  deriving DecidableEq, Repr

/-- `Protocol::Config`. A key is known by its address, null being none. -/
structure Config where
  cipherSuites : List Security.CipherSuite
  supportedEphemeralGroups : List Security.EphemeralKeyGroup
  privateKey : Option Nat
  publicKey : Option Nat
  allowInsecureConnections : Bool

/-- The assertions of the constructor, in their order. -/
inductive ConstructorAssertion where
  | ctxNotNull
  | cipherSuitesNotEmpty
  | ephemeralGroupsNotEmpty
  | privateKeyGiven
  | publicKeyGiven
  deriving DecidableEq, Repr

/-- How a creation ends without an object: an error is returned, or the program is aborted. -/
inductive CreateProtocolFailure where
  | unexpected (error : CreateProtocolError)
  | assertionFailed (assertion : ConstructorAssertion)
  deriving DecidableEq, Repr

/-- An object that has been created, and the contexts that were freed on the way. -/
structure Creation where
  protocol : Protocol
  freed : List Nat

/-- An `SSL_CTX_ptr`: a `std::unique_ptr`, known by what it owns. -/
abbrev SSLCtxPtr : Type := Option Nat

/-- A pointer constructed from `std::move(source)`, and the source afterwards. -/
def moveConstruct (source : SSLCtxPtr) : SSLCtxPtr × SSLCtxPtr :=
  -- A `std::unique_ptr` that has been moved from is null.
  (source, none)

/-- `target = std::move(source)`: both pointers afterwards, and what the target had to free. -/
def moveAssign (target source : SSLCtxPtr) : (SSLCtxPtr × SSLCtxPtr) × List Nat :=
  ((source, none), target.toList)

/-- `assert`, which does nothing where assertions are compiled out. -/
def assertThat (assertions condition : Bool) (assertion : ConstructorAssertion) :
    Except CreateProtocolFailure Unit :=
  -- Without assertions the condition is not even evaluated.
  if assertions && !condition then .error (.assertionFailed assertion) else .ok ()

namespace Protocol

/--
The constructor.

Its parameter `ctx` hides the member of the same name, in the body too.
-/
def construct (assertions : Bool) (ctx : SSLCtxPtr)
    (cipherSuitesAvailable : List Security.CipherSuite)
    (supportedEphemeralGroups : List Security.EphemeralKeyGroup)
    (privateKey publicKey : Option Nat) (allowInsecureConnections : Bool) :
    Except CreateProtocolFailure Creation := do
  -- The initialiser list moves the context into the member, and the body moves the parameter again.
  let (member, ctx) := moveConstruct ctx
  assertThat assertions ctx.isSome .ctxNotNull
  if !allowInsecureConnections then
    assertThat assertions (!cipherSuitesAvailable.isEmpty) .cipherSuitesNotEmpty
    assertThat assertions (!supportedEphemeralGroups.isEmpty) .ephemeralGroupsNotEmpty
  if privateKey.isSome || publicKey.isSome then
    assertThat assertions privateKey.isSome .privateKeyGiven
    assertThat assertions publicKey.isSome .publicKeyGiven
  let ((member, _), freed) := moveAssign member ctx
  return {
    protocol := .initial member cipherSuitesAvailable supportedEphemeralGroups privateKey publicKey
      allowInsecureConnections
    freed }

/-- The first section of `createProtocol`: what a server needs for secure connections. -/
def checkLists (config : Config) : Except CreateProtocolFailure Unit :=
  -- A server that allows insecure connections may do without suites and groups.
  if !config.allowInsecureConnections then
    if config.cipherSuites.isEmpty then .error (.unexpected .missingCipherSuites)
    else if config.supportedEphemeralGroups.isEmpty then
      .error (.unexpected .missingEphemeralGroups)
    else .ok ()
  else .ok ()

/-- The second section of `createProtocol`: if one key is provided, both must be. -/
def checkKeys (config : Config) : Except CreateProtocolFailure Unit :=
  if config.privateKey.isSome || config.publicKey.isSome then
    if !config.privateKey.isSome then .error (.unexpected .missingPrivateKey)
    else if !config.publicKey.isSome then .error (.unexpected .missingPublicKey)
    else .ok ()
  else .ok ()

/-- `createProtocol`, given what `SSL_CTX_new` returns. -/
def createProtocol (assertions : Bool) (sslCtxNew : SSLCtxPtr) (config : Config) :
    Except CreateProtocolFailure Creation := do
  -- The context is asked for only once the configuration has passed its checks.
  checkLists config
  checkKeys config
  let ctx := sslCtxNew
  if ctx.isNone then throw (.unexpected .failedToCreateSslCtx)
  construct assertions ctx config.cipherSuites config.supportedEphemeralGroups config.privateKey
    config.publicKey config.allowInsecureConnections

end Protocol

namespace Config

/-- A list that a secure server needs is missing. -/
def LacksList (config : Config) : Prop :=
  config.allowInsecureConnections = false ∧
    (config.cipherSuites = [] ∨ config.supportedEphemeralGroups = [])

/-- Exactly one of the keys is present. -/
def LacksKey (config : Config) : Prop := config.privateKey.isSome ≠ config.publicKey.isSome

/-- No object can be created: a list or a key is missing, or `SSL_CTX_new` has failed. -/
def Rejected (config : Config) (sslCtxNew : SSLCtxPtr) : Prop :=
  config.LacksList ∨ config.LacksKey ∨ sslCtxNew = none

/-- What an error says is missing. -/
def Reports (config : Config) (sslCtxNew : SSLCtxPtr) : CreateProtocolError → Prop
  | .missingCipherSuites => config.allowInsecureConnections = false ∧ config.cipherSuites = []
  | .missingEphemeralGroups =>
    config.allowInsecureConnections = false ∧ config.supportedEphemeralGroups = []
  | .missingPrivateKey => config.privateKey = none ∧ config.publicKey ≠ none
  | .missingPublicKey => config.privateKey ≠ none ∧ config.publicKey = none
  | .failedToCreateSslCtx => sslCtxNew = none

/-- Whatever an error says is missing, its absence is a reason to create nothing. -/
theorem Reports.rejected {config : Config} {sslCtxNew : SSLCtxPtr} {error : CreateProtocolError}
    (reports : config.Reports sslCtxNew error) : config.Rejected sslCtxNew := by
  cases error with
  | missingCipherSuites => exact .inl ⟨reports.1, .inl reports.2⟩
  | missingEphemeralGroups => exact .inl ⟨reports.1, .inr reports.2⟩
  | missingPrivateKey =>
    refine .inr (.inl ?_)
    simp [LacksKey, reports.1, reports.2]
  | missingPublicKey =>
    refine .inr (.inl ?_)
    simp [LacksKey, reports.1, reports.2]
  | failedToCreateSslCtx => exact .inr (.inr reports)

end Config

namespace Protocol

/-- The lists pass, or one of them is reported missing. -/
theorem checkLists_cases (config : Config) (sslCtxNew : SSLCtxPtr) :
    checkLists config = .ok () ∧ ¬ config.LacksList ∨
      ∃ error, checkLists config = .error (.unexpected error) ∧
        config.Reports sslCtxNew error := by
  -- One case for each way through the section.
  unfold checkLists Config.LacksList
  cases insecure : config.allowInsecureConnections with
  | true => simp
  | false =>
    cases suites : config.cipherSuites with
    | nil => exact .inr ⟨.missingCipherSuites, rfl, insecure, suites⟩
    | cons suite rest =>
      cases groups : config.supportedEphemeralGroups with
      | nil => exact .inr ⟨.missingEphemeralGroups, rfl, insecure, groups⟩
      | cons group others => simp

/-- The keys pass, or one of them is reported missing. -/
theorem checkKeys_cases (config : Config) (sslCtxNew : SSLCtxPtr) :
    checkKeys config = .ok () ∧ ¬ config.LacksKey ∨
      ∃ error, checkKeys config = .error (.unexpected error) ∧
        config.Reports sslCtxNew error := by
  -- One case for each way through the section.
  unfold checkKeys Config.LacksKey
  cases hidden : config.privateKey with
  | none =>
    cases shown : config.publicKey with
    | none => simp
    | some key => exact .inr ⟨.missingPrivateKey, rfl, hidden, by simp [shown]⟩
  | some key =>
    cases shown : config.publicKey with
    | none => exact .inr ⟨.missingPublicKey, rfl, by simp [hidden], shown⟩
    | some other => simp

/-- Either the constructor is called with the new context, or what is missing is reported. -/
theorem createProtocol_cases (assertions : Bool) (sslCtxNew : SSLCtxPtr) (config : Config) :
    (¬ config.Rejected sslCtxNew ∧ ∃ ctx, sslCtxNew = some ctx ∧
        createProtocol assertions sslCtxNew config
          = construct assertions (some ctx) config.cipherSuites config.supportedEphemeralGroups
            config.privateKey config.publicKey config.allowInsecureConnections) ∨
      ∃ error, createProtocol assertions sslCtxNew config = .error (.unexpected error) ∧
        config.Reports sslCtxNew error := by
  unfold createProtocol
  -- The sections pass one after the other, or the first that does not is the end.
  rcases checkLists_cases config sslCtxNew with ⟨lists, complete⟩ | ⟨error, failed, reports⟩
  · rcases checkKeys_cases config sslCtxNew with ⟨keys, paired⟩ | ⟨error, failed, reports⟩
    · cases sslCtxNew with
      | none => exact .inr ⟨.failedToCreateSslCtx, by simp [lists, keys]; rfl, rfl⟩
      | some ctx =>
        refine .inl ⟨?_, ctx, rfl, by simp [lists, keys]⟩
        simp [Config.Rejected, complete, paired]
    · exact .inr ⟨error, by simp [lists, failed], reports⟩
  · exact .inr ⟨error, by simp [failed], reports⟩

section Construct

variable (ctx : SSLCtxPtr) (cipherSuitesAvailable : List Security.CipherSuite)
  (supportedEphemeralGroups : List Security.EphemeralKeyGroup) (privateKey publicKey : Option Nat)
  (allowInsecureConnections : Bool)

/-- With assertions the constructor always aborts: its parameter has just been moved from. -/
theorem construct_asserting :
    construct true ctx cipherSuitesAvailable supportedEphemeralGroups privateKey publicKey
      allowInsecureConnections = .error (.assertionFailed .ctxNotNull) :=
  -- The first assertion looks at the parameter, and not at the member.
  rfl

/-- Without assertions the constructor frees the context and leaves the member null. -/
theorem construct_unasserting :
    construct false ctx cipherSuitesAvailable supportedEphemeralGroups privateKey publicKey
      allowInsecureConnections
      = .ok
        { protocol := .initial none cipherSuitesAvailable supportedEphemeralGroups privateKey
            publicKey allowInsecureConnections
          freed := ctx.toList } := by
  -- The parameter that is assigned to the member in the body is null.
  simp [construct, assertThat, moveConstruct, moveAssign]

end Construct

end Protocol

/-- The object owns the context, which is still there, and has what the configuration gives it. -/
structure Creation.Owns (creation : Creation) (ctx : Nat) (config : Config) : Prop where
  owned : creation.protocol.ctx = some ctx
  notFreed : ctx ∉ creation.freed
  privateKey : creation.protocol.identityPrivateKey = config.privateKey
  publicKey : creation.protocol.identityPublicKey = config.publicKey
  cipherSuites : creation.protocol.cipherSuitesAvailable = config.cipherSuites
  groups : creation.protocol.supportedEphemeralGroups = config.supportedEphemeralGroups
  insecure : creation.protocol.allowInsecureConnections = config.allowInsecureConnections

/-- A creation ends in an error exactly when it is to be rejected, and otherwise with an owner. -/
structure Protocol.CreatesOwner (assertions : Bool) (sslCtxNew : SSLCtxPtr) (config : Config) :
    Prop where
  error_iff : (∃ error, createProtocol assertions sslCtxNew config = .error (.unexpected error)) ↔
    config.Rejected sslCtxNew
  created : ¬ config.Rejected sslCtxNew → ∃ creation ctx,
    createProtocol assertions sslCtxNew config = .ok creation ∧ sslCtxNew = some ctx ∧
      creation.Owns ctx config

/-- Whatever the configuration, an object that is created owns no context. -/
theorem ctx_of_created {assertions : Bool} {sslCtxNew : SSLCtxPtr} {config : Config}
    {creation : Creation}
    (created : Protocol.createProtocol assertions sslCtxNew config = .ok creation) :
    creation.protocol.ctx = none := by
  rcases Protocol.createProtocol_cases assertions sslCtxNew config with
    ⟨_, ctx, _, constructed⟩ | ⟨error, failed, _⟩
  · -- With assertions there is no object, and without them its member is null.
    rw [constructed] at created
    cases assertions with
    | true =>
      rw [Protocol.construct_asserting] at created
      contradiction
    | false =>
      rw [Protocol.construct_unasserting] at created
      cases created
      rfl
  · rw [failed] at created
    contradiction

/-- Errors are returned exactly where they should be. -/
theorem createProtocol_error_iff (assertions : Bool) (sslCtxNew : SSLCtxPtr) (config : Config) :
    (∃ error, Protocol.createProtocol assertions sslCtxNew config
        = .error (.unexpected error)) ↔ config.Rejected sslCtxNew := by
  rcases Protocol.createProtocol_cases assertions sslCtxNew config with
    ⟨valid, ctx, _, constructed⟩ | ⟨error, failed, reports⟩
  · -- The constructor returns no error, whether or not it aborts.
    refine iff_of_false ?_ valid
    rintro ⟨error, failed⟩
    rw [constructed] at failed
    cases assertions with
    | true =>
      rw [Protocol.construct_asserting] at failed
      cases failed
    | false =>
      rw [Protocol.construct_unasserting] at failed
      cases failed
  · exact iff_of_true ⟨error, failed⟩ reports.rejected

/-- A creation ends as it should exactly where it should end in an error. -/
theorem createsOwner_iff (assertions : Bool) (sslCtxNew : SSLCtxPtr) (config : Config) :
    Protocol.CreatesOwner assertions sslCtxNew config ↔ config.Rejected sslCtxNew := by
  constructor
  · intro creates
    by_contra valid
    -- An object that is created owns no context at all.
    obtain ⟨creation, ctx, created, _, owns⟩ := creates.created valid
    have owned := owns.owned
    rw [ctx_of_created created] at owned
    contradiction
  · intro rejected
    exact ⟨createProtocol_error_iff assertions sslCtxNew config,
      fun valid => absurd rejected valid⟩

/-- One suite, one group, no keys, and only secure connections. -/
def secureConfig : Config where
  cipherSuites := [.tlsAes128GcmSha256]
  supportedEphemeralGroups := [.secp256r1]
  privateKey := none
  publicKey := none
  allowInsecureConnections := false

/-- Where assertions are compiled out, this is how the secure server comes about. -/
example : Protocol.createProtocol false (some 0) secureConfig = .ok ⟨secureServer, [0]⟩ := rfl

/-- A valid configuration and a new context are not enough for the constructor. -/
theorem secureConfig_not_owner : ¬ Protocol.CreatesOwner true (some 0) secureConfig := by
  -- The constructor aborts, so there is no object.
  intro creates
  have valid : ¬ secureConfig.Rejected (some 0) := by
    simp [Config.Rejected, Config.LacksList, Config.LacksKey, secureConfig]
  obtain ⟨creation, ctx, created, _⟩ := creates.created valid
  cases created

end StreamUP
