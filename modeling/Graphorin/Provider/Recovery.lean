import Graphorin.Audit.Canonical
import Graphorin.Lib.Record
import Mathlib.Algebra.BigOperators.Group.List.Basic
import Mathlib.Data.List.Infix

namespace Graphorin.Provider.Recovery

open Audit Lib

/-! The recoveries of a chat request whose parameters a server does not take: what a provider
instance learns, and how its concurrent calls share it. -/

inductive TokenLimitParam
  | maxTokens
  | maxCompletionTokens
  deriving DecidableEq

def TokenLimitParam.key : TokenLimitParam → JsText
  | .maxTokens => ascii "max_tokens"
  | .maxCompletionTokens => ascii "max_completion_tokens"

inductive UnsupportedParamRecovery
  | auto
  | off
  deriving DecidableEq

structure OpenAIShapedOptions where
  model : JsText
  tokenLimitParam : Option TokenLimitParam := none
  unsupportedParamRecovery : UnsupportedParamRecovery := .auto
  structuredOutput : Bool := true

/-- An object with a value, or `undefined`, under each of its keys. -/
structure ProviderOptions where
  fields : Record JsText (Option Json)
  distinct : fields.keys.Nodup

/-- A request; its messages, tools and tool choice are as they are sent, and `jsonSchema` is
the schema of a structured output that has one. -/
structure ProviderRequest where
  messages : Json
  temperature : Option Rat := none
  maxTokens : Option Rat := none
  tools : Option (List Json) := none
  toolChoice : Option Json := none
  jsonSchema : Option Json := none
  providerOptions : Option ProviderOptions := none

namespace ProviderRequest

variable (req : ProviderRequest)

/-- `req.providerOptions?.[key]` as an own property. -/
def override (key : JsText) : Option (Option Json) :=
  req.providerOptions.bind fun options => options.fields.get? key

def hasTools : Bool := req.tools.any fun tools => !tools.isEmpty

end ProviderRequest

structure TokenParamState where
  pinned : Option TokenLimitParam
  learned : Option TokenLimitParam := none

def effectiveTokenParam (state : TokenParamState) : TokenLimitParam :=
  (state.pinned.or state.learned).getD .maxTokens

structure ParamCompatState where
  recovery : UnsupportedParamRecovery
  stripTemperature : Bool := false
  toolsReasoningEffortNone : Bool := false

structure AttemptSnapshot where
  tokenParam : TokenLimitParam
  sentTemperature : Bool
  sentReasoningEffortNone : Bool
  deriving DecidableEq

def snapshotAttempt (tokenState : TokenParamState) (compat : ParamCompatState)
    (req : ProviderRequest) : AttemptSnapshot where
  tokenParam := effectiveTokenParam tokenState
  sentTemperature := req.temperature.isSome && !compat.stripTemperature
  sentReasoningEffortNone := compat.toolsReasoningEffortNone && req.hasTools

inductive Failure
  | http (status : Nat) (message : JsText)
  | other (message : JsText)

def Failure.badRequest : Failure → Option JsText
  | .http status message => if status = 400 then some message else none
  | .other _ => none

def includes (message part : JsText) : Bool := decide (part <:+: message)

def shouldRemapTokenParam (state : TokenParamState) (sent : AttemptSnapshot) (err : Failure)
    (req : ProviderRequest) : Bool :=
  state.pinned.isNone && sent.tokenParam = .maxTokens && req.maxTokens.isSome &&
    err.badRequest.any fun message => includes message (ascii "max_completion_tokens")

def shouldStripTemperature (state : ParamCompatState) (sent : AttemptSnapshot) (err : Failure)
    (req : ProviderRequest) : Bool :=
  if state.recovery = .off || !sent.sentTemperature then false
  else if (req.override (ascii "temperature")).join.isSome then false
  else err.badRequest.any fun message =>
    includes message (ascii "'temperature'") &&
      (includes message (ascii "does not support") || includes message (ascii "nsupported"))

def shouldForceReasoningEffortNone (state : ParamCompatState) (sent : AttemptSnapshot)
    (err : Failure) (req : ProviderRequest) : Bool :=
  if state.recovery = .off || sent.sentReasoningEffortNone then false
  else if !req.hasTools then false
  else if (req.override (ascii "reasoning_effort")).join.isSome then false
  else err.badRequest.any fun message => includes message (ascii "reasoning_effort")

abbrev Body := Record JsText (Option Json)

/-- What `JSON.stringify` writes under a key. -/
def written (body : Body) (key : JsText) : Option Json := (body.get? key).join

def put (key : JsText) (value : Option Json) (body : Body) : Body :=
  match value with
  | some value => body.set key (some value)
  | none => body

def streamOptions : Json := .obj [(ascii "include_usage", .bool true)]

def responseFormat (schema : Json) : Json :=
  .obj [(ascii "type", .str (ascii "json_schema")),
    (ascii "json_schema", .obj [(ascii "name", .str (ascii "output")),
      (ascii "schema", schema), (ascii "strict", .bool true)])]

def ownFields (opts : OpenAIShapedOptions) (req : ProviderRequest) (stream : Bool)
    (sent : AttemptSnapshot) : Body :=
  let body : Body := [(ascii "model", some (.str opts.model)),
    (ascii "messages", some req.messages), (ascii "stream", some (.bool stream))]
  let body := put (ascii "stream_options") (if stream then some streamOptions else none) body
  let body := put (ascii "temperature")
    (if sent.sentTemperature then req.temperature.map .num else none) body
  let body := put sent.tokenParam.key (req.maxTokens.map .num) body
  let body := put (ascii "tools")
    (if req.hasTools then req.tools.map .arr else none) body
  let body := put (ascii "tool_choice") req.toolChoice body
  put (ascii "response_format")
    (if opts.structuredOutput then req.jsonSchema.map responseFormat else none) body

/-- `Object.assign(body, req.providerOptions)`. -/
def assigned (req : ProviderRequest) (body : Body) : Body :=
  match req.providerOptions with
  | some options => body.overlay options.fields
  | none => body

def buildBody (opts : OpenAIShapedOptions) (req : ProviderRequest) (stream : Bool)
    (sent : AttemptSnapshot) : Body :=
  let body := assigned req (ownFields opts req stream sent)
  if sent.sentReasoningEffortNone && (written body (ascii "tools")).isSome &&
      (written body (ascii "reasoning_effort")).isNone then
    body.set (ascii "reasoning_effort") (some (.str (ascii "none")))
  else body

inductive Param
  | tokenParam
  | temperature
  | reasoning
  deriving DecidableEq

structure Attempted where
  tokenParam : Bool := false
  temperature : Bool := false
  reasoning : Bool := false
  deriving DecidableEq

namespace Attempted

def has (attempted : Attempted) : Param → Bool
  | .tokenParam => attempted.tokenParam
  | .temperature => attempted.temperature
  | .reasoning => attempted.reasoning

def mark (attempted : Attempted) : Param → Attempted
  | .tokenParam => { attempted with tokenParam := true }
  | .temperature => { attempted with temperature := true }
  | .reasoning => { attempted with reasoning := true }

def count (attempted : Attempted) : Nat :=
  attempted.tokenParam.toNat + attempted.temperature.toNat + attempted.reasoning.toNat

end Attempted

/-- The promises made are numbered; `settling` is the one that is not resolved. -/
structure RecoveryFlight where
  settling : Option Nat := none
  made : Nat := 0

/-- What the calls of an instance share. -/
structure Shared where
  tokenState : TokenParamState
  compat : ParamCompatState
  flight : RecoveryFlight := {}
  warnings : List Param := []

namespace Shared

def fresh (opts : OpenAIShapedOptions) : Shared where
  tokenState := { pinned := opts.tokenLimitParam }
  compat := { recovery := opts.unsupportedParamRecovery }

variable (shared : Shared)

def should (sent : AttemptSnapshot) (err : Failure) (req : ProviderRequest) : Param → Bool
  | .tokenParam => shouldRemapTokenParam shared.tokenState sent err req
  | .temperature => shouldStripTemperature shared.compat sent err req
  | .reasoning => shouldForceReasoningEffortNone shared.compat sent err req

def learnTokenParamRemap : Shared :=
  if shared.tokenState.learned ≠ none then shared
  else { shared with
    tokenState := { shared.tokenState with learned := some .maxCompletionTokens }
    warnings := shared.warnings ++ [.tokenParam] }

def learnStripTemperature : Shared :=
  if shared.compat.stripTemperature then shared
  else { shared with
    compat := { shared.compat with stripTemperature := true }
    warnings := shared.warnings ++ [.temperature] }

def learnReasoningEffortNone : Shared :=
  if shared.compat.toolsReasoningEffortNone then shared
  else { shared with
    compat := { shared.compat with toolsReasoningEffortNone := true }
    warnings := shared.warnings ++ [.reasoning] }

def learn : Param → Shared
  | .tokenParam => shared.learnTokenParamRemap
  | .temperature => shared.learnStripTemperature
  | .reasoning => shared.learnReasoningEffortNone

def snapshot (req : ProviderRequest) : AttemptSnapshot :=
  snapshotAttempt shared.tokenState shared.compat req

/-- The leader's `finally`. -/
def release : Shared := { shared with flight := { shared.flight with settling := none } }

def elect : Shared :=
  { shared with flight := ⟨some shared.flight.made, shared.flight.made + 1⟩ }

end Shared

inductive Outcome
  | responded
  | failed (sent : AttemptSnapshot) (err : Failure)

inductive Phase
  | sending (sent : AttemptSnapshot)
  | waiting (flight : Nat)
  | settled (outcome : Outcome)

/-- A call; `attempts` are its requests, each with the recoveries applied before it. -/
structure Call where
  req : ProviderRequest
  stream : Bool
  attempted : Attempted := {}
  leader : Bool := false
  phase : Phase
  attempts : List (AttemptSnapshot × Attempted) := []

namespace Call

def send (shared : Shared) (call : Call) : Call :=
  { call with
    phase := .sending (shared.snapshot call.req)
    attempts := call.attempts ++ [(shared.snapshot call.req, call.attempted)] }

def start (shared : Shared) (req : ProviderRequest) (stream : Bool) : Call :=
  send shared { req, stream, phase := .settled .responded }

def settle (shared : Shared) (call : Call) (outcome : Outcome) : Shared × Call :=
  (if call.leader then shared.release else shared, { call with phase := .settled outcome })

def recovery (shared : Shared) (call : Call) (sent : AttemptSnapshot) (err : Failure) :
    Option Param :=
  [.tokenParam, .temperature, .reasoning].find? fun param =>
    !call.attempted.has param && shared.should sent err call.req param

/-- The `catch` of the loop, and what follows up to the next `await`. -/
def caught (shared : Shared) (call : Call) (sent : AttemptSnapshot) (err : Failure) :
    Shared × Call :=
  match call.recovery shared sent err with
  | none => call.settle shared (.failed sent err)
  | some param =>
    let call := { call with attempted := call.attempted.mark param }
    let shared := shared.learn param
    if call.leader then (shared, call.send shared)
    else
      match shared.flight.settling with
      | some flight => (shared, { call with phase := .waiting flight })
      | none => (shared.elect, send shared.elect { call with leader := true })

end Call

structure Instance where
  shared : Shared
  calls : List Call := []

inductive Action
  | start (req : ProviderRequest) (stream : Bool)
  | answer (index : Nat) (result : Except Failure Unit)
  | resume (index : Nat)

def Action.isMove : Action → Bool
  | .start _ _ => false
  | .answer _ _ => true
  | .resume _ => true

namespace Instance

/-- A server answers what was sent; a call goes on when what it waits for is resolved. -/
def step (before : Instance) : Action → Option Instance
  | .start req stream => some { before with
      calls := before.calls ++ [Call.start before.shared req stream] }
  | .answer index result =>
    match before.calls[index]? with
    | some call =>
      match call.phase with
      | .sending sent =>
        let after :=
          match result with
          | .ok () => call.settle before.shared .responded
          | .error err => call.caught before.shared sent err
        some { shared := after.1, calls := before.calls.set index after.2 }
      | _ => none
    | none => none
  | .resume index =>
    match before.calls[index]? with
    | some call =>
      match call.phase with
      | .waiting flight =>
        if before.shared.flight.settling = some flight then none
        else some { before with
          calls := before.calls.set index (call.send before.shared) }
      | _ => none
    | none => none

end Instance

/-- A run of an instance from when it was made. -/
inductive Run (opts : OpenAIShapedOptions) : List Action → Instance → Prop
  | made : Run opts [] { shared := .fresh opts }
  | step {actions : List Action} {before after : Instance} {action : Action} :
      Run opts actions before → before.step action = some after →
        Run opts (actions ++ [action]) after

def Applies (req : ProviderRequest) : Param → Prop
  | .tokenParam => req.maxTokens.isSome = true
  | .temperature => (req.override (ascii "temperature")).join = none
  | .reasoning => req.hasTools = true ∧ (req.override (ascii "reasoning_effort")).join = none

def AttemptSnapshot.Carries (sent : AttemptSnapshot) : Param → Prop
  | .tokenParam => sent.tokenParam = .maxCompletionTokens
  | .temperature => sent.sentTemperature = false
  | .reasoning => sent.sentReasoningEffortNone = true

/-- The recovered parameter is in the body, as far as the caller's own options, which are
merged last, leave it there. -/
def Recovered (req : ProviderRequest) (body : Body) : Param → Prop
  | .tokenParam => written body (ascii "max_completion_tokens") =
      (req.override (ascii "max_completion_tokens")).getD (req.maxTokens.map .num)
  | .temperature => written body (ascii "temperature") = none
  | .reasoning => (written body (ascii "tools")).isSome = true →
      written body (ascii "reasoning_effort") = some (.str (ascii "none"))

theorem written_put (key other : JsText) (value : Option Json) (body : Body) :
    written (put key value body) other =
      if other = key then value.or (written body other) else written body other := by
  cases value with
  | none => exact (ite_self _).symm
  | some =>
    rw [put, written, Record.get?_set]
    split <;> rfl

theorem written_assigned (req : ProviderRequest) (body : Body) (key : JsText) :
    written (assigned req body) key = (req.override key).getD (written body key) := by
  unfold ProviderRequest.override assigned
  cases req.providerOptions with
  | none => rfl
  | some options =>
    rw [written, Record.get?_overlay body options.distinct]
    show _ = (options.fields.get? key).getD _
    cases options.fields.get? key with
    | none => rfl
    | some => rfl

theorem written_buildBody (opts : OpenAIShapedOptions) (req : ProviderRequest)
    (stream : Bool) (sent : AttemptSnapshot) (other : key ≠ ascii "reasoning_effort") :
    written (buildBody opts req stream sent) key =
      (req.override key).getD (written (ownFields opts req stream sent) key) := by
  rw [← written_assigned]
  unfold buildBody
  generalize assigned req (ownFields opts req stream sent) = body
  simp only
  split
  · rw [written, Record.get?_set, if_neg other, ← written]
  · rfl

theorem written_ownFields (opts : OpenAIShapedOptions) (req : ProviderRequest)
    (stream : Bool) (sent : AttemptSnapshot)
    (other : key ∉ [ascii "model", ascii "messages", ascii "stream", ascii "stream_options",
      ascii "tools", ascii "tool_choice", ascii "response_format"]) :
    written (ownFields opts req stream sent) key =
      if key = sent.tokenParam.key then (req.maxTokens.map Json.num).or
        (if key = ascii "temperature" then
          (if sent.sentTemperature then req.temperature.map .num else none) else none)
      else if key = ascii "temperature" then
        (if sent.sentTemperature then req.temperature.map .num else none) else none := by
  simp only [List.mem_cons, List.not_mem_nil, or_false, not_or] at other
  obtain ⟨model, messages, streams, options, tools, choice, format⟩ := other
  have base : written [(ascii "model", some (.str opts.model)),
      (ascii "messages", some req.messages), (ascii "stream", some (.bool stream))] key =
      none := by
    rw [written, Record.get?_cons, if_neg (Ne.symm model), Record.get?_cons,
      if_neg (Ne.symm messages), Record.get?_cons, if_neg (Ne.symm streams)]
    rfl
  simp only [ownFields, written_put, if_neg format, if_neg choice, if_neg tools,
    if_neg options, base, Option.or_none]

theorem recovered_of_carries (opts : OpenAIShapedOptions) (stream : Bool)
    (carries : sent.Carries param) (applies : Applies req param) :
    Recovered req (buildBody opts req stream sent) param := by
  cases param with
  | tokenParam =>
    have carried : sent.tokenParam = .maxCompletionTokens := carries
    rw [Recovered, written_buildBody _ _ _ _ (by decide),
      written_ownFields _ _ _ _ (by decide), carried, TokenLimitParam.key, if_pos rfl,
      if_neg (by decide), Option.or_none]
  | temperature =>
    have omitted : sent.sentTemperature = false := carries
    have free : (req.override (ascii "temperature")).join = none := applies
    have apart : ascii "temperature" ≠ sent.tokenParam.key := by
      cases sent.tokenParam <;> decide
    rw [Recovered, written_buildBody _ _ _ _ (by decide),
      written_ownFields _ _ _ _ (by decide), if_neg apart, if_pos rfl, omitted]
    cases own : req.override (ascii "temperature") with
    | none => rfl
    | some =>
      rw [own] at free
      exact free
  | reasoning =>
    have effort : sent.sentReasoningEffortNone = true := carries
    intro tools
    rw [written_buildBody _ _ _ _ (by decide)] at tools
    have unset : written (ownFields opts req stream sent) (ascii "reasoning_effort") =
        none := by
      have apart : ascii "reasoning_effort" ≠ sent.tokenParam.key := by
        cases sent.tokenParam <;> decide
      rw [written_ownFields _ _ _ _ (by decide), if_neg apart, if_neg (by decide)]
    have free : (req.override (ascii "reasoning_effort")).getD none = none := by
      have unpinned := applies.2
      cases own : req.override (ascii "reasoning_effort") with
      | none => rfl
      | some =>
        rw [own] at unpinned
        exact unpinned
    rw [← written_assigned] at tools
    have merged : written (assigned req (ownFields opts req stream sent))
        (ascii "reasoning_effort") = none := by
      rw [written_assigned, unset, free]
    unfold buildBody
    simp only [effort, tools, merged, Option.isNone_none, Bool.and_self, if_true]
    rw [written, Record.get?_set_self]
    rfl

namespace Shared

variable {shared later : Shared}

def Knows (shared : Shared) : Param → Prop
  | .tokenParam => effectiveTokenParam shared.tokenState = .maxCompletionTokens
  | .temperature => shared.compat.stripTemperature = true
  | .reasoning => shared.compat.toolsReasoningEffortNone = true

def Switched (shared : Shared) : Param → Prop
  | .tokenParam => shared.tokenState.learned ≠ none
  | .temperature => shared.compat.stripTemperature = true
  | .reasoning => shared.compat.toolsReasoningEffortNone = true

structure Learned (opts : OpenAIShapedOptions) (shared : Shared) : Prop where
  pinned : shared.tokenState.pinned = opts.tokenLimitParam
  recovery : shared.compat.recovery = opts.unsupportedParamRecovery
  only : ∀ param ∈ shared.tokenState.learned, param = .maxCompletionTokens
  once : shared.warnings.Nodup
  warned : ∀ param ∈ shared.warnings, shared.Switched param

variable {opts : OpenAIShapedOptions}

theorem should_eq (learned : Learned opts shared) (sent : AttemptSnapshot) (err : Failure)
    (req : ProviderRequest) (param : Param) :
    shared.should sent err req param = (fresh opts).should sent err req param := by
  cases param with
  | tokenParam =>
    rw [should, shouldRemapTokenParam, learned.pinned]
    rfl
  | temperature =>
    rw [should, shouldStripTemperature, learned.recovery]
    rfl
  | reasoning =>
    rw [should, shouldForceReasoningEffortNone, learned.recovery]
    rfl

variable {req : ProviderRequest} {param : Param}

theorem applies_of_should (should : shared.should sent err req param = true) :
    Applies req param := by
  cases param with
  | tokenParam =>
    rw [Shared.should, shouldRemapTokenParam, Bool.and_eq_true, Bool.and_eq_true] at should
    exact should.1.2
  | temperature =>
    rw [Shared.should, shouldStripTemperature] at should
    split at should
    · cases should
    · split at should
      · cases should
      · rename_i unset
        exact Option.not_isSome_iff_eq_none.mp unset
  | reasoning =>
    rw [Shared.should, shouldForceReasoningEffortNone] at should
    split at should
    · cases should
    · split at should
      · cases should
      · rename_i tools
        split at should
        · cases should
        · rename_i unset
          exact ⟨by simpa using tools, Option.not_isSome_iff_eq_none.mp unset⟩

theorem learn_knows (learned : Learned opts shared)
    (should : shared.should sent err req param = true) :
    (shared.learn param).Knows param := by
  cases param with
  | tokenParam =>
    rw [Shared.should, shouldRemapTokenParam] at should
    simp only [Bool.and_eq_true, Option.isNone_iff_eq_none] at should
    rw [learn, learnTokenParamRemap, Knows]
    split
    · rename_i known
      obtain ⟨param, set⟩ := Option.ne_none_iff_exists'.mp known
      rw [effectiveTokenParam, should.1.1.1, set, learned.only param set]
      rfl
    · rw [effectiveTokenParam, should.1.1.1]
      rfl
  | temperature =>
    rw [learn, learnStripTemperature, Knows]
    split
    · assumption
    · rfl
  | reasoning =>
    rw [learn, learnReasoningEffortNone, Knows]
    split
    · assumption
    · rfl

def Extends (shared later : Shared) : Prop := ∀ param, shared.Knows param → later.Knows param

theorem learn_extends (shared : Shared) (param : Param) :
    shared.Extends (shared.learn param) := by
  intro other known
  cases param with
  | tokenParam =>
    rw [learn, learnTokenParamRemap]
    split
    · exact known
    · cases other with
      | tokenParam =>
        rw [Knows, effectiveTokenParam] at known ⊢
        cases pinned : shared.tokenState.pinned with
        | none => rfl
        | some =>
          rw [pinned] at known
          exact known
      | temperature => exact known
      | reasoning => exact known
  | temperature =>
    rw [learn, learnStripTemperature]
    split
    · exact known
    · cases other with
      | tokenParam => exact known
      | temperature => rfl
      | reasoning => exact known
  | reasoning =>
    rw [learn, learnReasoningEffortNone]
    split
    · exact known
    · cases other with
      | tokenParam => exact known
      | temperature => exact known
      | reasoning => rfl

theorem Learned.learn (learned : Learned opts shared) (param : Param) :
    Learned opts (shared.learn param) := by
  have apart (unswitched : ¬ shared.Switched param) : (shared.warnings ++ [param]).Nodup := by
    refine List.nodup_append.mpr ⟨learned.once, List.nodup_singleton _, ?_⟩
    rintro warned among other only rfl
    rw [List.mem_singleton.mp only] at among
    exact unswitched (learned.warned param among)
  cases param with
  | tokenParam =>
    rw [Shared.learn, learnTokenParamRemap]
    split
    · exact learned
    · rename_i unknown
      refine ⟨learned.pinned, learned.recovery, ?_, apart unknown, ?_⟩
      · rintro _ ⟨⟩
        rfl
      · intro warned among
        rcases List.mem_append.mp among with earlier | only
        · have switched := learned.warned warned earlier
          cases warned with
          | tokenParam => exact nofun
          | temperature => exact switched
          | reasoning => exact switched
        · rw [List.mem_singleton.mp only]
          exact nofun
  | temperature =>
    rw [Shared.learn, learnStripTemperature]
    split
    · exact learned
    · rename_i unknown
      refine ⟨learned.pinned, learned.recovery, learned.only, apart unknown, ?_⟩
      intro warned among
      rcases List.mem_append.mp among with earlier | only
      · have switched := learned.warned warned earlier
        cases warned with
        | tokenParam => exact switched
        | temperature => rfl
        | reasoning => exact switched
      · rw [List.mem_singleton.mp only]
        rfl
  | reasoning =>
    rw [Shared.learn, learnReasoningEffortNone]
    split
    · exact learned
    · rename_i unknown
      refine ⟨learned.pinned, learned.recovery, learned.only, apart unknown, ?_⟩
      intro warned among
      rcases List.mem_append.mp among with earlier | only
      · have switched := learned.warned warned earlier
        cases warned with
        | tokenParam => exact switched
        | temperature => exact switched
        | reasoning => rfl
      · rw [List.mem_singleton.mp only]
        rfl

@[simp] theorem learn_flight (shared : Shared) (param : Param) :
    (shared.learn param).flight = shared.flight := by
  cases param with
  | tokenParam =>
    rw [learn, learnTokenParamRemap]
    split <;> rfl
  | temperature =>
    rw [learn, learnStripTemperature]
    split <;> rfl
  | reasoning =>
    rw [learn, learnReasoningEffortNone]
    split <;> rfl

theorem snapshot_carries (known : shared.Knows param) (applies : Applies req param) :
    (shared.snapshot req).Carries param := by
  cases param with
  | tokenParam => exact known
  | temperature =>
    have strips : shared.compat.stripTemperature = true := known
    show (req.temperature.isSome && !shared.compat.stripTemperature) = false
    rw [strips]
    exact Bool.and_false _
  | reasoning =>
    have forces : shared.compat.toolsReasoningEffortNone = true := known
    show (shared.compat.toolsReasoningEffortNone && req.hasTools) = true
    rw [forces, applies.1]
    rfl

end Shared

namespace Attempted

theorem has_mark (attempted : Attempted) (param other : Param) :
    (attempted.mark param).has other = true ↔ attempted.has other = true ∨ other = param := by
  cases param <;> cases other <;> simp [mark, has]

theorem count_mark {attempted : Attempted} {param : Param}
    (fresh : attempted.has param = false) :
    (attempted.mark param).count = attempted.count + 1 := by
  cases param with
  | tokenParam =>
    have off : attempted.tokenParam = false := fresh
    simp only [mark, count, off, Bool.toNat_true, Bool.toNat_false]
    omega
  | temperature =>
    have off : attempted.temperature = false := fresh
    simp only [mark, count, off, Bool.toNat_true, Bool.toNat_false]
    omega
  | reasoning =>
    have off : attempted.reasoning = false := fresh
    simp only [mark, count, off, Bool.toNat_true, Bool.toNat_false]

theorem count_le (attempted : Attempted) : attempted.count ≤ 3 := by
  have token := attempted.tokenParam.toNat_le
  have temperature := attempted.temperature.toNat_le
  have reasoning := attempted.reasoning.toNat_le
  rw [count]
  omega

end Attempted

namespace Call

variable {opts : OpenAIShapedOptions} {shared later : Shared} {call : Call}

def idle (call : Call) : Nat :=
  match call.phase with
  | .waiting _ => 1
  | _ => 0

structure Kept (opts : OpenAIShapedOptions) (shared : Shared) (call : Call) : Prop where
  applied : ∀ param, call.attempted.has param = true →
    shared.Knows param ∧ Applies call.req param
  retried : ∀ attempt ∈ call.attempts, ∀ param, attempt.2.has param = true →
    attempt.1.Carries param ∧ Applies call.req param
  counted : call.attempts.length + call.idle = call.attempted.count + 1
  exhausted : ∀ sent err, call.phase = .settled (.failed sent err) → ∀ param,
    (Shared.fresh opts).should sent err call.req param = true →
      call.attempted.has param = true

theorem Kept.extend (kept : Kept opts shared call) (more : shared.Extends later) :
    Kept opts later call where
  applied param has := ⟨more param (kept.applied param has).1,
    (kept.applied param has).2⟩
  retried := kept.retried
  counted := kept.counted
  exhausted := kept.exhausted

theorem Kept.send (applied : ∀ param, call.attempted.has param = true →
      shared.Knows param ∧ Applies call.req param)
    (retried : ∀ attempt ∈ call.attempts, ∀ param, attempt.2.has param = true →
      attempt.1.Carries param ∧ Applies call.req param)
    (counted : call.attempts.length = call.attempted.count) :
    Kept opts shared (call.send shared) where
  applied := applied
  retried attempt among param has := by
    rcases List.mem_append.mp among with earlier | only
    · exact retried attempt earlier param has
    · rw [List.mem_singleton.mp only] at has ⊢
      obtain ⟨known, applies⟩ := applied param has
      exact ⟨Shared.snapshot_carries known applies, applies⟩
  counted := by
    show (call.attempts ++ [_]).length + 0 = call.attempted.count + 1
    rw [List.length_append, List.length_singleton, counted]
  exhausted sent err settled := by
    cases settled

structure Open (shared : Shared) (call : Call) (sent : AttemptSnapshot) (err : Failure)
    (param : Param) : Prop where
  fresh : call.attempted.has param = false
  should : shared.should sent err call.req param = true

inductive Caught (shared : Shared) (call : Call) (sent : AttemptSnapshot) (err : Failure) :
    Shared × Call → Prop
  | failed : (∀ param, ¬ call.Open shared sent err param) →
      Caught shared call sent err (call.settle shared (.failed sent err))
  | led {param : Param} : call.Open shared sent err param → call.leader = true →
      Caught shared call sent err (shared.learn param,
        send (shared.learn param) { call with attempted := call.attempted.mark param })
  | waited {param : Param} {flight : Nat} : call.Open shared sent err param →
      call.leader = false → shared.flight.settling = some flight →
      Caught shared call sent err (shared.learn param,
        { call with attempted := call.attempted.mark param, phase := .waiting flight })
  | elected {param : Param} : call.Open shared sent err param → call.leader = false →
      Caught shared call sent err ((shared.learn param).elect,
        send (shared.learn param).elect
          { call with attempted := call.attempted.mark param, leader := true })

theorem caught_cases (shared : Shared) (call : Call) (sent : AttemptSnapshot)
    (err : Failure) : Caught shared call sent err (call.caught shared sent err) := by
  unfold caught
  cases found : call.recovery shared sent err with
  | none =>
    refine .failed fun param available => ?_
    have none := List.find?_eq_none.mp found param (by cases param <;> simp)
    rw [available.fresh, available.should] at none
    exact none rfl
  | some param =>
    have chosen := List.find?_some found
    rw [Bool.and_eq_true, Bool.not_eq_true'] at chosen
    have available : call.Open shared sent err param := ⟨chosen.1, chosen.2⟩
    by_cases leads : call.leader = true
    · simp only [if_pos leads]
      exact .led available leads
    · have follows := Bool.eq_false_of_not_eq_true leads
      simp only [if_neg leads, Shared.learn_flight]
      cases settling : shared.flight.settling with
      | none => exact .elected available follows
      | some => exact .waited available follows settling

variable {sent : AttemptSnapshot} {err : Failure}

theorem Kept.mark (kept : Kept opts shared call) (learned : shared.Learned opts)
    (available : call.Open shared sent err param) (other : Param)
    (has : (call.attempted.mark param).has other = true) :
    (shared.learn param).Knows other ∧ Applies call.req other := by
  rcases (Attempted.has_mark _ _ _).mp has with earlier | rfl
  · obtain ⟨known, applies⟩ := kept.applied other earlier
    exact ⟨shared.learn_extends param other known, applies⟩
  · exact ⟨Shared.learn_knows learned available.should, Shared.applies_of_should available.should⟩

variable {out : Shared × Call}

theorem Caught.kept (caught : Caught shared call sent err out)
    (kept : Kept opts shared call) (learned : shared.Learned opts)
    (sends : call.phase = .sending sent) :
    out.1.Learned opts ∧ shared.Extends out.1 ∧ Kept opts out.1 out.2 := by
  have sent' : call.attempts.length = call.attempted.count + 1 := by
    have counted := kept.counted
    rwa [idle, sends] at counted
  cases caught with
  | failed closed =>
    have outcome : Kept opts shared { call with phase := .settled (.failed sent err) } := by
      refine ⟨kept.applied, kept.retried, sent', ?_⟩
      rintro _ _ ⟨⟩ param should
      rw [← Shared.should_eq learned] at should
      cases has : call.attempted.has param with
      | true => rfl
      | false => exact absurd ⟨has, should⟩ (closed param)
    unfold settle
    split
    · exact ⟨⟨learned.pinned, learned.recovery, learned.only, learned.once,
        learned.warned⟩, fun _ known => known, outcome.extend fun _ known => known⟩
    · exact ⟨learned, fun _ known => known, outcome⟩
  | @led param available leads =>
    refine ⟨learned.learn param, shared.learn_extends param, ?_⟩
    refine .send (kept.mark learned available) kept.retried ?_
    exact sent'.trans (Attempted.count_mark available.fresh).symm
  | @waited param flight available follows settling =>
    refine ⟨learned.learn param, shared.learn_extends param, ?_⟩
    refine ⟨kept.mark learned available, kept.retried, ?_, nofun⟩
    show call.attempts.length + 1 = (call.attempted.mark param).count + 1
    rw [sent', Attempted.count_mark available.fresh]
  | @elected param available follows =>
    have now := learned.learn param
    refine ⟨⟨now.pinned, now.recovery, now.only, now.once, now.warned⟩,
      shared.learn_extends param, ?_⟩
    refine .send (fun other has => kept.mark learned available other has) kept.retried ?_
    exact sent'.trans (Attempted.count_mark available.fresh).symm

def movesLeft (call : Call) : Nat :=
  match call.phase with
  | .settled _ => 0
  | .sending _ => 2 * (3 - call.attempted.count) + 1
  | .waiting _ => 2 * (3 - call.attempted.count) + 2

theorem Caught.movesLeft (caught : Caught shared call sent err out)
    (sends : call.phase = .sending sent) : out.2.movesLeft < call.movesLeft := by
  have before : call.movesLeft = 2 * (3 - call.attempted.count) + 1 := by
    rw [Call.movesLeft, sends]
  rw [before]
  cases caught with
  | failed => exact Nat.succ_pos _
  | @led param available leads =>
    have marked := Attempted.count_mark available.fresh
    have bound := (call.attempted.mark param).count_le
    show 2 * (3 - (call.attempted.mark param).count) + 1 < _
    omega
  | @waited param flight available follows settling =>
    have marked := Attempted.count_mark available.fresh
    have bound := (call.attempted.mark param).count_le
    show 2 * (3 - (call.attempted.mark param).count) + 2 < _
    omega
  | @elected param available follows =>
    have marked := Attempted.count_mark available.fresh
    have bound := (call.attempted.mark param).count_le
    show 2 * (3 - (call.attempted.mark param).count) + 1 < _
    omega

/-- It holds the flight and waits for the server only. -/
def Leads (call : Call) : Prop := call.leader = true ∧ ∃ sent, call.phase = .sending sent

theorem Caught.leads (caught : Caught shared call sent err out)
    (settling : out.1.flight.settling = some flight) :
    out.2.Leads ∨ shared.flight.settling = some flight ∧ ¬ call.Leads := by
  cases caught with
  | failed closed =>
    unfold settle at settling
    split at settling
    · cases settling
    · rename_i follows
      exact .inr ⟨settling, fun leads => follows leads.1⟩
  | @led param available leads => exact .inl ⟨leads, _, rfl⟩
  | @waited param other available follows there =>
    rw [Shared.learn_flight] at settling
    refine .inr ⟨settling, fun leads => ?_⟩
    rw [leads.1] at follows
    cases follows
  | @elected param available follows => exact .inl ⟨rfl, _, rfl⟩

end Call

namespace Instance

variable {opts : OpenAIShapedOptions} {before after : Instance}

structure Sound (opts : OpenAIShapedOptions) (shared : Shared) (calls : List Call) :
    Prop where
  learned : shared.Learned opts
  kept : ∀ call ∈ calls, call.Kept opts shared
  led : ∀ flight, shared.flight.settling = some flight → ∃ call ∈ calls, call.Leads

variable {shared : Shared} {index : Nat} {call : Call}

variable {calls : List Call}

theorem Sound.set {later : Shared} (sound : Sound opts shared calls)
    (inside : index < calls.length) (learned : later.Learned opts)
    (more : shared.Extends later) (kept : call.Kept opts later)
    (leads : ∀ flight, later.flight.settling = some flight → call.Leads ∨ shared.flight.settling =
      some flight ∧ ¬ calls[index].Leads)
    : Sound opts later (calls.set index call) where
  learned := learned
  kept other among := by
    rcases List.mem_or_eq_of_mem_set among with earlier | rfl
    · exact (sound.kept other earlier).extend more
    · exact kept
  led flight settling := by
    rcases leads flight settling with this | ⟨before, follows⟩
    · exact ⟨call, List.mem_set inside call, this⟩
    · obtain ⟨leader, among, leads⟩ := sound.led flight before
      obtain ⟨place, there, rfl⟩ := List.getElem_of_mem among
      have apart : index ≠ place := by
        rintro rfl
        exact follows leads
      refine ⟨calls[place], List.mem_iff_getElem.mpr ⟨place, ?_, ?_⟩, leads⟩
      · rw [List.length_set]
        exact there
      · exact List.getElem_set_ne apart _

def movesLeft (calls : List Call) : Nat := (calls.map Call.movesLeft).sum

theorem movesLeft_set (inside : index < calls.length)
    (fewer : call.movesLeft < calls[index].movesLeft) :
    movesLeft (calls.set index call) < movesLeft calls := by
  obtain ⟨earlier, later, split, -, changed⟩ :
      ∃ earlier later, calls = earlier ++ calls[index] :: later ∧ earlier.length = index ∧
        calls.set index call = earlier ++ call :: later :=
    List.exists_of_set inside
  have whole : movesLeft calls = movesLeft earlier + (calls[index].movesLeft +
      movesLeft later) := by
    conv_lhs => rw [split]
    rw [movesLeft, List.map_append, List.sum_append, List.map_cons, List.sum_cons]
    rfl
  rw [whole, changed, movesLeft, List.map_append, List.sum_append, List.map_cons,
    List.sum_cons]
  show movesLeft earlier + (call.movesLeft + movesLeft later) < _
  omega

/-- What happens to a call when the server answers its request. -/
def answered (shared : Shared) (call : Call) (sent : AttemptSnapshot) :
    Except Failure Unit → Shared × Call
  | .ok () => call.settle shared .responded
  | .error err => call.caught shared sent err

theorem step_answer (step : before.step (.answer index result) = some after) :
    ∃ (inside : index < before.calls.length) (sent : AttemptSnapshot),
      before.calls[index].phase = .sending sent ∧
        after.shared = (answered before.shared before.calls[index] sent result).1 ∧
        after.calls = before.calls.set index
          (answered before.shared before.calls[index] sent result).2 := by
  rw [Instance.step] at step
  split at step
  · rename_i call there
    obtain ⟨inside, rfl⟩ := List.getElem?_eq_some_iff.mp there
    split at step
    · rename_i sent sends
      cases step
      refine ⟨inside, sent, sends, ?_⟩
      cases result <;> exact ⟨rfl, rfl⟩
    · cases step
  · cases step

theorem step_resume (step : before.step (.resume index) = some after) :
    ∃ (inside : index < before.calls.length) (flight : Nat),
      before.calls[index].phase = .waiting flight ∧ after.shared = before.shared ∧
        after.calls = before.calls.set index (before.calls[index].send before.shared) := by
  rw [Instance.step] at step
  split at step
  · rename_i call there
    obtain ⟨inside, rfl⟩ := List.getElem?_eq_some_iff.mp there
    split at step
    · rename_i flight waits
      split at step
      · cases step
      · cases step
        exact ⟨inside, flight, waits, rfl, rfl⟩
    · cases step
  · cases step

theorem answered_kept (kept : call.Kept opts shared) (learned : shared.Learned opts)
    (sends : call.phase = .sending sent) (result : Except Failure Unit) :
    (answered shared call sent result).1.Learned opts ∧
      shared.Extends (answered shared call sent result).1 ∧
      (answered shared call sent result).2.Kept opts (answered shared call sent result).1 ∧
      (answered shared call sent result).2.movesLeft < call.movesLeft ∧
      ∀ flight, (answered shared call sent result).1.flight.settling = some flight →
        (answered shared call sent result).2.Leads ∨
          shared.flight.settling = some flight ∧ ¬ call.Leads := by
  cases result with
  | ok value =>
    have outcome : Call.Kept opts shared { call with phase := .settled .responded } := by
      refine ⟨kept.applied, kept.retried, ?_, nofun⟩
      have counted := kept.counted
      rwa [Call.idle, sends] at counted
    have used : 0 < call.movesLeft := by
      rw [Call.movesLeft, sends]
      exact Nat.succ_pos _
    show Shared.Learned opts (call.settle shared .responded).1 ∧ _
    rw [answered, Call.settle]
    split
    · exact ⟨⟨learned.pinned, learned.recovery, learned.only, learned.once,
        learned.warned⟩, fun _ known => known, outcome.extend fun _ known => known, used,
        nofun⟩
    · rename_i follows
      exact ⟨learned, fun _ known => known, outcome, used,
        fun flight settling => .inr ⟨settling, fun leads => follows leads.1⟩⟩
  | error err =>
    have caught := Call.caught_cases shared call sent err
    obtain ⟨learned', more, kept'⟩ := caught.kept kept learned sends
    exact ⟨learned', more, kept', caught.movesLeft sends, fun _ => caught.leads⟩

theorem resumed_kept (kept : call.Kept opts shared) (waits : call.phase = .waiting flight) :
    (call.send shared).Kept opts shared ∧ (call.send shared).movesLeft < call.movesLeft := by
  constructor
  · refine .send kept.applied kept.retried ?_
    have counted := kept.counted
    rw [Call.idle, waits] at counted
    exact Nat.succ.inj counted
  · have before : call.movesLeft = 2 * (3 - call.attempted.count) + 2 := by
      rw [Call.movesLeft, waits]
    rw [before]
    exact Nat.lt_succ_self _

theorem Sound.step (sound : Sound opts before.shared before.calls) {action : Action}
    (step : before.step action = some after) : Sound opts after.shared after.calls ∧
      (action.isMove = true → after.calls.length = before.calls.length ∧
        movesLeft after.calls < movesLeft before.calls) ∧
      (action.isMove = false → after.calls.length = before.calls.length + 1 ∧
        movesLeft after.calls = movesLeft before.calls + 7) := by
  cases action with
  | start =>
    cases step
    refine ⟨⟨sound.learned, ?_, ?_⟩, nofun, fun _ => ⟨?_, ?_⟩⟩
    · intro call among
      rcases List.mem_append.mp among with earlier | only
      · exact sound.kept call earlier
      · rw [List.mem_singleton.mp only]
        refine .send ?_ nofun rfl
        intro param has
        cases param <;> cases has
    · intro flight settling
      obtain ⟨leader, among, leads⟩ := sound.led flight settling
      exact ⟨leader, List.mem_append_left _ among, leads⟩
    · rw [List.length_append, List.length_singleton]
    · rw [movesLeft, List.map_append, List.sum_append]
      rfl
  | answer _ result =>
    obtain ⟨inside, sent, sends, shared, calls⟩ := step_answer step
    have kept := sound.kept _ (List.getElem_mem inside)
    obtain ⟨learned, more, kept', fewer, leads⟩ :=
      answered_kept kept sound.learned sends result
    rw [shared, calls]
    refine ⟨sound.set inside learned more kept' leads, fun _ => ⟨?_, ?_⟩, nofun⟩
    · exact List.length_set
    · exact movesLeft_set inside fewer
  | resume =>
    obtain ⟨inside, flight, waits, shared, calls⟩ := step_resume step
    have kept := sound.kept _ (List.getElem_mem inside)
    obtain ⟨kept', fewer⟩ := resumed_kept kept waits
    rw [shared, calls]
    refine ⟨sound.set inside sound.learned (fun _ known => known) kept' ?_,
      fun _ => ⟨?_, ?_⟩, nofun⟩
    · intro other settling
      refine .inr ⟨settling, ?_⟩
      rintro ⟨-, sent, sends⟩
      rw [waits] at sends
      cases sends
    · exact List.length_set
    · exact movesLeft_set inside fewer

end Instance

theorem Shared.learned_fresh (opts : OpenAIShapedOptions) :
    (Shared.fresh opts).Learned opts where
  pinned := rfl
  recovery := rfl
  only param learned := by cases learned
  once := .nil
  warned param among := by cases among

theorem Instance.sound_fresh (opts : OpenAIShapedOptions) :
    Instance.Sound opts (.fresh opts) [] where
  learned := Shared.learned_fresh opts
  kept call among := by cases among
  led flight settling := by cases settling

theorem Run.sound (ran : Run opts actions shared) :
    Instance.Sound opts shared.shared shared.calls ∧
      actions.countP Action.isMove + Instance.movesLeft shared.calls ≤
        7 * shared.calls.length := by
  induction ran with
  | made =>
    exact ⟨Instance.sound_fresh opts, Nat.zero_le _⟩
  | @step actions before after action earlier step ih =>
    obtain ⟨sound, bound⟩ := ih
    obtain ⟨sound', moves, starts⟩ := sound.step step
    refine ⟨sound', ?_⟩
    rw [List.countP_append, List.countP_singleton]
    cases move : action.isMove with
    | true =>
      obtain ⟨same, fewer⟩ := moves move
      rw [same]
      show _ + 1 + _ ≤ _
      omega
    | false =>
      obtain ⟨longer, more⟩ := starts move
      rw [longer, more]
      show _ + 0 + _ ≤ _
      omega

/-- When nothing is to be answered and nobody can go on, every call has settled. -/
theorem Instance.Sound.settled {opts : OpenAIShapedOptions} {shared : Instance}
    (sound : Instance.Sound opts shared.shared shared.calls)
    (quiet : ∀ action, action.isMove = true → shared.step action = none) :
    ∀ call ∈ shared.calls, ∃ outcome, call.phase = .settled outcome := by
  have answers : ∀ call ∈ shared.calls, ∀ sent, call.phase ≠ .sending sent := by
    intro call among sent sends
    obtain ⟨index, inside, rfl⟩ := List.getElem_of_mem among
    have stuck := quiet (.answer index (.ok ())) rfl
    rw [Instance.step, List.getElem?_eq_getElem inside] at stuck
    simp only [sends] at stuck
    cases stuck
  intro call among
  cases phase : call.phase with
  | settled outcome => exact ⟨outcome, rfl⟩
  | sending sent => exact absurd phase (answers call among sent)
  | waiting flight =>
    obtain ⟨index, inside, rfl⟩ := List.getElem_of_mem among
    have stuck := quiet (.resume index) rfl
    rw [Instance.step, List.getElem?_eq_getElem inside] at stuck
    simp only [phase] at stuck
    split at stuck
    · rename_i settling
      obtain ⟨leader, listed, -, sent, sends⟩ := sound.led flight settling
      exact absurd sends (answers leader listed sent)
    · cases stuck

/-- Whatever the servers answer and in whatever order, a call sends at most four requests,
waits only as long as a leader waits for an answer, settles, fails with what it could recover
from only after its own recovery, carries in each retry what was recovered before it, and
each switch is warned about once. -/
theorem callChatWithRecovery_recovers {opts : OpenAIShapedOptions} {actions : List Action}
    {shared : Instance} (ran : Run opts actions shared) :
    (∀ call ∈ shared.calls, call.attempts.length ≤ 4) ∧
    actions.countP Action.isMove ≤ 7 * shared.calls.length ∧
    ((∀ action, action.isMove = true → shared.step action = none) →
      ∀ call ∈ shared.calls, ∃ outcome, call.phase = .settled outcome) ∧
    (∀ call ∈ shared.calls, ∀ flight, call.phase = .waiting flight →
      shared.shared.flight.settling = some flight → ∃ leader ∈ shared.calls, leader.Leads) ∧
    (∀ call ∈ shared.calls, ∀ sent err, call.phase = .settled (.failed sent err) →
      ∀ param, (Shared.fresh opts).should sent err call.req param = true →
        call.attempted.has param = true) ∧
    (∀ call ∈ shared.calls, ∀ attempt ∈ call.attempts, ∀ param,
      attempt.2.has param = true →
        Recovered call.req (buildBody opts call.req call.stream attempt.1) param) ∧
    shared.shared.warnings.Nodup := by
  obtain ⟨sound, bound⟩ := ran.sound
  refine ⟨?_, Nat.le_of_add_right_le bound, sound.settled, ?_, ?_, ?_, sound.learned.once⟩
  · intro call among
    have counted := (sound.kept call among).counted
    have three := call.attempted.count_le
    omega
  · exact fun call among flight waits settling => sound.led flight settling
  · exact fun call among => (sound.kept call among).exhausted
  · intro call among attempt listed param has
    obtain ⟨carries, applies⟩ := (sound.kept call among).retried attempt listed param has
    exact recovered_of_carries opts call.stream carries applies

def plain : OpenAIShapedOptions := { model := ascii "small" }

/-- `providerOptions` with an `undefined` under the parameter that is recovered. -/
def unset : ProviderOptions where
  fields := [(ascii "max_completion_tokens", none)]
  distinct := by decide

def tenTokens (providerOptions : Option ProviderOptions) : ProviderRequest where
  messages := .null
  maxTokens := some 10
  providerOptions := providerOptions

def rejected : Failure := .http 400 (ascii "Use 'max_completion_tokens' instead.")

def retrying (providerOptions : Option ProviderOptions) : Instance where
  shared := ((Shared.fresh plain).learn .tokenParam).elect
  calls := [{
    req := tenTokens providerOptions
    stream := false
    attempted := { tokenParam := true }
    leader := true
    phase := .sending ⟨.maxCompletionTokens, false, false⟩
    attempts := [(⟨.maxTokens, false, false⟩, {}),
      (⟨.maxCompletionTokens, false, false⟩, { tokenParam := true })] }]

theorem run_retrying (providerOptions : Option ProviderOptions) :
    Run plain [.start (tenTokens providerOptions) false, .answer 0 (.error rejected)]
      (retrying providerOptions) := by
  have first : Run plain ([] ++ [.start (tenTokens providerOptions) false])
      { shared := .fresh plain
        calls := [Call.start (.fresh plain) (tenTokens providerOptions) false] } :=
    .step .made rfl
  have step : Instance.step
      { shared := .fresh plain
        calls := [Call.start (.fresh plain) (tenTokens providerOptions) false] }
      (.answer 0 (.error rejected)) = some (retrying providerOptions) := by
    rfl
  exact .step first step

/-- Both are rejected; the second one waits until the first has its answer. -/
def bothRejected : List Action :=
  [.start (tenTokens none) false, .start (tenTokens none) true, .answer 0 (.error rejected),
    .answer 1 (.error rejected), .answer 0 (.ok ()), .resume 1, .answer 1 (.ok ())]

theorem retrying_recovered : ∃ shared, Run plain bothRejected shared ∧
    shared.calls.length = 2 ∧ shared.shared.warnings = [.tokenParam] ∧
    ∀ call ∈ shared.calls, call.phase = .settled .responded ∧
      Recovered call.req (buildBody plain call.req call.stream
        ⟨.maxCompletionTokens, false, false⟩) .tokenParam := by
  have ran : Run plain bothRejected _ :=
    .step (.step (.step (.step (.step (.step (.step .made rfl) rfl) rfl) rfl) rfl) rfl) rfl
  obtain ⟨-, -, -, -, -, recovered, -⟩ := callChatWithRecovery_recovers ran
  refine ⟨_, ran, rfl, rfl, fun call among => ?_⟩
  have retried := recovered call among
    (⟨.maxCompletionTokens, false, false⟩, { tokenParam := true })
  rcases among with _ | ⟨_, _ | ⟨_, ⟨⟩⟩⟩
  · exact ⟨rfl, retried (.tail _ (.head _)) .tokenParam rfl⟩
  · exact ⟨rfl, retried (.tail _ (.head _)) .tokenParam rfl⟩

/-- A caller whose own options leave the parameter undefined retries without it. -/
theorem unset_retries_without : ∃ shared, Run plain
      [.start (tenTokens (some unset)) false, .answer 0 (.error rejected)] shared ∧
    ∃ call ∈ shared.calls, ∃ attempt ∈ call.attempts,
      attempt.2.has .tokenParam = true ∧
        written (buildBody plain call.req call.stream attempt.1)
          (ascii "max_completion_tokens") = none :=
  ⟨_, run_retrying (some unset), _, .head _,
    (⟨.maxCompletionTokens, false, false⟩, { tokenParam := true }), .tail _ (.head _), rfl,
    rfl⟩

end Graphorin.Provider.Recovery
