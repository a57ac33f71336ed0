import AdvancedSearch.Http.ApiKey
import AdvancedSearch.Lib.Json
import AdvancedSearch.Lib.Machine
import AdvancedSearch.Lib.Number

/-!
# Which traces leave the process

The tracer asks its sampler about every span that starts: at the head of a trace, under the context that
a caller sent, or under a span of this process. However the requests interleave, a trace is kept whole or
dropped whole, and a probe's trace that starts here is dropped (`traces_whole`).
-/

namespace AdvancedSearch

open Js

/-! ## Samplers -/

inductive SpanKind where
  | internal | server | client | producer | consumer
  deriving DecidableEq

/-- An attribute's value: a text, or a number, a flag or an array. -/
inductive AttributeValue where
  | text (value : String)
  | other

abbrev Attributes := List (String × AttributeValue)

/-- What identifies a span to those under it. -/
structure SpanContext where
  traceId : String
  sampled : Bool

/-- What a sampler is asked; no context means that there is none or that it is not valid. -/
structure SamplingRequest where
  context : Option SpanContext
  traceId : String
  spanName : String
  spanKind : SpanKind
  attributes : Attributes
  links : List SpanContext

inductive SamplingDecision where
  | NOT_RECORD | RECORD | RECORD_AND_SAMPLED
  deriving DecidableEq

abbrev Sampler := SamplingRequest → SamplingDecision

/-- Where the different HTTP semantic conventions put the request path. -/
def PATH_ATTRIBUTES : List String := ["url.path", "http.route", "http.target"]

def isIgnored (attributes : Attributes) : Bool :=
  PATH_ATTRIBUTES.any fun key =>
    match attributes.lookup key with
    | some (.text value) => matchesPath value.toList OPERATOR_PATHS
    | _ => false

/-- Drops the platform's probes; everything else is for the delegate. -/
def IgnoredPathsSampler (delegate : Sampler) : Sampler := fun request =>
  if request.spanKind = .server && isIgnored request.attributes then .NOT_RECORD else delegate request

/-- What the tracing library brings: the sampler by trace id for a ratio, and the sampler that asks the
parent first. -/
structure TracingLibrary where
  accumulates : Number → String → Bool
  ParentBasedSampler : Sampler → Sampler

/-- The library's sampler by trace id. -/
def TracingLibrary.TraceIdRatioBasedSampler (library : TracingLibrary) (ratio : Number) : Sampler :=
  fun request => if library.accumulates ratio request.traceId then .RECORD_AND_SAMPLED else .NOT_RECORD

/-- A head of a trace is for the root sampler; under a parent its flag decides. -/
structure TracingLibrary.Documented (library : TracingLibrary) : Prop where
  root : ∀ root request, request.context = none → library.ParentBasedSampler root request = root request
  parent : ∀ root request context, request.context = some context →
    library.ParentBasedSampler root request =
      if context.sampled then .RECORD_AND_SAMPLED else .NOT_RECORD

/-! ## The configuration -/

/-- What is shipped, and where to. -/
structure ObservabilityConfig where
  otlpEndpoint : Option String
  otlpHeaders : Js.Fields
  serviceName : String
  tracesSamplerRatio : Number
  metricsEnabled : Bool
  metricsExportEnabled : Bool
  metricExportIntervalMs : Number
  lokiUrl : Option String
  lokiUsername : Option String
  lokiPassword : Option String

/-- What the tracing library is started with. -/
structure TracingConfig where
  serviceName : String
  url : String
  headers : Js.Fields
  sampler : Sampler

/-- `.replace(/\/$/, '')`. -/
def withoutTrailingSlash (text : String) : String :=
  if text.toList.getLast? = some '/' then String.ofList text.toList.dropLast else text

/-- The single place that decides that tracing stays off. -/
def buildTracingConfig (library : TracingLibrary) (observability : ObservabilityConfig) :
    Option TracingConfig :=
  observability.otlpEndpoint.map fun otlpEndpoint =>
    { serviceName := observability.serviceName
      url := withoutTrailingSlash otlpEndpoint ++ "/v1/traces"
      headers := observability.otlpHeaders
      sampler := library.ParentBasedSampler
        (IgnoredPathsSampler (library.TraceIdRatioBasedSampler observability.tracesSamplerRatio)) }

/-! ## The tracer -/

/-- Where a span starts: at the head of a trace with a fresh id, under the context of a caller, or under
a span of this process. -/
inductive Origin where
  | head (traceId : String)
  | inbound (context : SpanContext)
  | under (span : ℕ)

/-- A span that starts. -/
structure SpanStart where
  origin : Origin
  spanName : String
  spanKind : SpanKind
  attributes : Attributes
  links : List SpanContext

/-- A span that has started. -/
structure Span where
  start : SpanStart
  traceId : String
  decision : SamplingDecision

/-- The exporter is handed the sampled spans. -/
def Span.exported (span : Span) : Bool := span.decision = .RECORD_AND_SAMPLED

/-- What those under a span are told. -/
def Span.context (span : Span) : SpanContext := { traceId := span.traceId, sampled := span.exported }

/-- The context a span starts in; nothing when the span that it names has not started. -/
def parentContext (spans : List Span) : Origin → Option (Option SpanContext)
  | .head _ => some none
  | .inbound context => some (some context)
  | .under i => spans[i]?.map fun span => some span.context

/-- A span under a context belongs to its trace. -/
def Origin.traceId (context : Option SpanContext) : Origin → String
  | .head traceId => traceId
  | _ => (context.map (·.traceId)).getD ""

/-- `startSpan`, with the sampler's decision. -/
def startSpan (sampler : Sampler) (spans : List Span) (start : SpanStart) : Option (List Span) :=
  (parentContext spans start.origin).map fun context =>
    let traceId := start.origin.traceId context
    spans ++ [{
      start, traceId
      decision := sampler
        { context, traceId, spanName := start.spanName, spanKind := start.spanKind,
          attributes := start.attributes, links := start.links } }]

/-! ## Traces -/

/-- The span with which this process enters a trace. -/
inductive EntersBy (spans : List Span) : ℕ → Span → Prop
  | head {i : ℕ} {span : Span} {traceId : String} : spans[i]? = some span →
    span.start.origin = .head traceId → EntersBy spans i span
  | inbound {i : ℕ} {span : Span} {context : SpanContext} : spans[i]? = some span →
    span.start.origin = .inbound context → EntersBy spans i span
  | under {i j : ℕ} {span entry : Span} : spans[i]? = some span →
    span.start.origin = .under j → EntersBy spans j entry → EntersBy spans i entry

/-- Whether a trace that this process enters by a start is kept. -/
def SpanStart.Kept (library : TracingLibrary) (ratio : Number) (start : SpanStart) : Prop :=
  match start.origin with
  | .head traceId =>
    ¬ (start.spanKind = .server ∧ isIgnored start.attributes) ∧ library.accumulates ratio traceId
  | .inbound context => context.sampled
  | .under _ => False

/-- A span was decided on with what its origin says. -/
def Span.Decided (sampler : Sampler) (spans : List Span) (span : Span) : Prop :=
  ∃ context, parentContext spans span.start.origin = some context ∧
    span.traceId = span.start.origin.traceId context ∧
    span.decision = sampler
      { context, traceId := span.traceId, spanName := span.start.spanName,
        spanKind := span.start.spanKind, attributes := span.start.attributes, links := span.start.links }

/-- Each span was decided on when those before it had started. -/
def InOrder (sampler : Sampler) (spans : List Span) : Prop :=
  ∀ (i : ℕ) (span : Span), spans[i]? = some span → span.Decided sampler (spans.take i)

theorem inOrder_startSpan {sampler : Sampler} {spans spans' : List Span} {start : SpanStart}
    (h : InOrder sampler spans) (hstep : startSpan sampler spans start = some spans') :
    InOrder sampler spans' := by
  unfold startSpan at hstep
  obtain ⟨context, hcontext, hspans⟩ := Option.map_eq_some_iff.mp hstep
  subst hspans
  intro i span hspan
  rcases lt_trichotomy i spans.length with hlt | heq | hgt
  · rw [List.getElem?_append_left hlt] at hspan
    rw [List.take_append_of_le_length hlt.le]
    exact h i span hspan
  · subst heq
    rw [List.getElem?_append_right le_rfl, Nat.sub_self] at hspan
    cases hspan
    rw [List.take_append_of_le_length le_rfl, List.take_length]
    exact ⟨context, hcontext, rfl, rfl⟩
  · rw [List.getElem?_eq_none (by simp; omega)] at hspan
    contradiction

/-- A run of starts leaves every span decided on. -/
theorem inOrder_run {sampler : Sampler} {starts : List SpanStart} {spans : List Span}
    (h : Machine.run (startSpan sampler) [] starts = some spans) : InOrder sampler spans :=
  Machine.run_keeps (fun _ _ _ hs he => inOrder_startSpan hs he) (by simp [InOrder]) h

section Library

variable {library : TracingLibrary} {root sampler : Sampler} {spans : List Span} {i : ℕ} {span : Span}

/-- Under a parent nothing is decided anew. -/
theorem SpanContext.exported_iff (hlib : library.Documented) {context : SpanContext}
    {traceId spanName : String} {spanKind : SpanKind} {attributes : Attributes}
    {links : List SpanContext}
    (h : span.decision = library.ParentBasedSampler root
      { context := some context, traceId, spanName, spanKind, attributes, links }) :
    span.exported = context.sampled := by
  rw [hlib.parent _ _ context rfl] at h
  unfold Span.exported
  rw [h]
  cases context.sampled <;> rfl

/-- A span under another has started after it, in its trace, and is exported with it. -/
theorem InOrder.under (hlib : library.Documented)
    (h : InOrder (library.ParentBasedSampler root) spans) (hspan : spans[i]? = some span) {j : ℕ}
    (horigin : span.start.origin = .under j) : ∃ above, j < i ∧ spans[j]? = some above ∧
      span.traceId = above.traceId ∧ span.exported = above.exported := by
  obtain ⟨context, hcontext, htrace, hdecision⟩ := h i span hspan
  rw [horigin] at hcontext htrace
  obtain ⟨above, habove, hsome⟩ := Option.map_eq_some_iff.mp hcontext
  subst hsome
  have hj : j < i := by
    by_contra hge
    rw [List.getElem?_take_eq_none (by omega)] at habove
    contradiction
  rw [List.getElem?_take_of_lt hj] at habove
  exact ⟨above, hj, habove, htrace, SpanContext.exported_iff hlib hdecision⟩

/-- The chain of parents ends where this process entered the trace. -/
theorem InOrder.exists_entersBy (hlib : library.Documented)
    (h : InOrder (library.ParentBasedSampler root) spans) :
    ∀ (i : ℕ) (span : Span), spans[i]? = some span → ∃ entry, EntersBy spans i entry := by
  intro i
  induction i using Nat.strong_induction_on with
  | _ i ih =>
    intro span hspan
    cases horigin : span.start.origin with
    | head traceId => exact ⟨span, .head hspan horigin⟩
    | inbound context => exact ⟨span, .inbound hspan horigin⟩
    | under j =>
      obtain ⟨above, hj, habove, -⟩ := h.under hlib hspan horigin
      obtain ⟨entry, hentry⟩ := ih j hj above habove
      exact ⟨entry, .under hspan horigin hentry⟩

/-- What is said of the entry is said of everything under it. -/
theorem InOrder.entersBy (hlib : library.Documented)
    (h : InOrder (library.ParentBasedSampler root) spans) {entry : Span}
    (hentry : EntersBy spans i entry) (hspan : spans[i]? = some span) :
    span.traceId = entry.traceId ∧ span.exported = entry.exported := by
  induction hentry generalizing span with
  | head hfound | inbound hfound =>
    rw [hfound] at hspan
    cases hspan
    exact ⟨rfl, rfl⟩
  | under hfound horigin _ ih =>
    rw [hfound] at hspan
    cases hspan
    obtain ⟨above, -, habove, htrace, hexported⟩ := h.under hlib hfound horigin
    obtain ⟨htrace', hexported'⟩ := ih habove
    exact ⟨htrace.trans htrace', hexported.trans hexported'⟩

end Library

/-- The root sampler keeps what is not a probe and what the ratio keeps. -/
theorem ignoredPathsSampler_iff (library : TracingLibrary) (ratio : Number) (request : SamplingRequest) :
    IgnoredPathsSampler (library.TraceIdRatioBasedSampler ratio) request = .RECORD_AND_SAMPLED ↔
      ¬ (request.spanKind = .server ∧ isIgnored request.attributes) ∧
        library.accumulates ratio request.traceId := by
  unfold IgnoredPathsSampler TracingLibrary.TraceIdRatioBasedSampler
  by_cases hprobe : request.spanKind = .server ∧ isIgnored request.attributes
  · simp [hprobe]
  · rw [if_neg (by simpa using hprobe)]
    cases library.accumulates ratio request.traceId <;> simp [hprobe]

/-- The span that enters a trace is exported when its start says so. -/
theorem InOrder.exported_entry {library : TracingLibrary} (hlib : library.Documented) {ratio : Number}
    {spans : List Span}
    (h : InOrder (library.ParentBasedSampler
      (IgnoredPathsSampler (library.TraceIdRatioBasedSampler ratio))) spans) {i : ℕ} {entry : Span}
    (hentry : EntersBy spans i entry) : entry.exported ↔ entry.start.Kept library ratio := by
  unfold SpanStart.Kept
  induction hentry with
  | head hfound horigin =>
    obtain ⟨context, hcontext, htrace, hdecision⟩ := h _ _ hfound
    rw [horigin] at hcontext htrace ⊢
    cases hcontext
    rw [hlib.root _ _ rfl] at hdecision
    unfold Span.exported
    rw [decide_eq_true_iff, hdecision, ignoredPathsSampler_iff, htrace]
    rfl
  | inbound hfound horigin =>
    obtain ⟨context, hcontext, -, hdecision⟩ := h _ _ hfound
    rw [horigin] at hcontext ⊢
    cases hcontext
    rw [SpanContext.exported_iff hlib hdecision]
  | under _ _ _ ih => exact ih

/-- However spans start, each belongs to one entry of this process into a trace, and is exported exactly
when that entry is kept: a probe's trace that starts here is dropped with every call under it, a trace
that a caller sampled is kept end to end, and no exported span has a parent here that was dropped. -/
theorem traces_whole {library : TracingLibrary} (hlib : library.Documented)
    {observability : ObservabilityConfig} {config : TracingConfig}
    (hconfig : buildTracingConfig library observability = some config) {starts : List SpanStart}
    {spans : List Span} (hrun : Machine.run (startSpan config.sampler) [] starts = some spans) :
    ∀ (i : ℕ) (span : Span), spans[i]? = some span →
      (∃ entry, EntersBy spans i entry) ∧
      (∀ entry, EntersBy spans i entry → span.traceId = entry.traceId ∧
        (span.exported ↔ entry.start.Kept library observability.tracesSamplerRatio)) ∧
      (∀ j, span.start.origin = .under j →
        ∃ above, j < i ∧ spans[j]? = some above ∧ span.exported = above.exported) := by
  unfold buildTracingConfig at hconfig
  obtain ⟨otlpEndpoint, -, hsome⟩ := Option.map_eq_some_iff.mp hconfig
  subst hsome
  have horder := inOrder_run hrun
  intro i span hspan
  refine ⟨horder.exists_entersBy hlib i span hspan, fun entry hentry => ?_, fun j horigin => ?_⟩
  · obtain ⟨htrace, hexported⟩ := horder.entersBy hlib hentry hspan
    rw [hexported]
    exact ⟨htrace, horder.exported_entry hlib hentry⟩
  · obtain ⟨above, hj, habove, -, hexported⟩ := horder.under hlib hspan horigin
    exact ⟨above, hj, habove, hexported⟩

/-! ## A probe and a search at the same time -/

/-- A library that keeps every trace id. -/
def keepingLibrary : TracingLibrary where
  accumulates _ _ := true
  ParentBasedSampler root request :=
    match request.context with
    | none => root request
    | some context => if context.sampled then .RECORD_AND_SAMPLED else .NOT_RECORD

theorem keepingLibrary_documented : keepingLibrary.Documented where
  root root request h := by simp [keepingLibrary, h]
  parent root request context h := by simp [keepingLibrary, h]

def tracedConfig : ObservabilityConfig where
  otlpEndpoint := some "https://collector/"
  otlpHeaders := []
  serviceName := "advanced-search-api"
  tracesSamplerRatio := .ofRat 1
  metricsEnabled := true
  metricsExportEnabled := false
  metricExportIntervalMs := .ofRat (60000 : ℕ)
  lokiUrl := none
  lokiUsername := none
  lokiPassword := none

/-- A server span for a path. -/
def served (origin : Origin) (path : String) : SpanStart where
  origin
  spanName := "GET"
  spanKind := .server
  attributes := [("http.request.method", .text "GET"), ("url.path", .text path)]
  links := []

/-- A call to a backend under a span. -/
def called (span : ℕ) (spanName : String) : SpanStart where
  origin := .under span
  spanName
  spanKind := .client
  attributes := []
  links := []

/-- A probe and a search at the same time, then a probe under a trace that its caller sampled. -/
def probedStarts : List SpanStart :=
  [served (.head "a") "/health", served (.head "b") "/search", called 0 "cluster.health",
    called 1 "search", called 3 "get", served (.inbound ⟨"c", true⟩) "/health", called 5 "ping"]

theorem traces_whole_probed : ∃ config spans,
    buildTracingConfig keepingLibrary tracedConfig = some config ∧
    config.url = "https://collector/v1/traces" ∧
    Machine.run (startSpan config.sampler) [] probedStarts = some spans ∧
    spans.map (·.exported) = [false, true, false, true, true, true, true] ∧
    ∀ (i : ℕ) (span : Span), spans[i]? = some span →
      (∃ entry, EntersBy spans i entry) ∧
      (∀ entry, EntersBy spans i entry → span.traceId = entry.traceId ∧
        (span.exported ↔ entry.start.Kept keepingLibrary tracedConfig.tracesSamplerRatio)) ∧
      (∀ j, span.start.origin = .under j →
        ∃ above, j < i ∧ spans[j]? = some above ∧ span.exported = above.exported) :=
  ⟨_, _, rfl, by decide, rfl, by decide, traces_whole keepingLibrary_documented rfl
    (show Machine.run _ [] probedStarts = some _ from rfl)⟩

end AdvancedSearch
