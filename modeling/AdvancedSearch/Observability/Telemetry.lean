import AdvancedSearch.Config.Boot
import AdvancedSearch.Config.OtlpHeaders
import AdvancedSearch.Observability.Sampling

/-!
# What a process ships, and what it says of it

Traces, metrics and logs leave a process through pipelines of their own. Which of them a process that
boots starts is read off its environment as spelled, and so is when the line that it logs about them is
true (`boot_ships`).
-/

namespace AdvancedSearch

open Js Validation Parsed

/-! ## Pipelines -/

/-- What observability reads of `buildConfig(env)`. -/
def Environment.observability (env : Environment) : ObservabilityConfig where
  otlpEndpoint := env .OTEL_EXPORTER_OTLP_ENDPOINT
  otlpHeaders := parseOtlpHeaders (env .OTEL_EXPORTER_OTLP_HEADERS)
  serviceName := env .OTEL_SERVICE_NAME
  tracesSamplerRatio := env EnvVariable.OTEL_TRACES_SAMPLER_RATIO
  metricsEnabled := env .METRICS_ENABLED
  metricsExportEnabled := env .OTEL_METRICS_EXPORT_ENABLED
  metricExportIntervalMs := env .OTEL_METRIC_EXPORT_INTERVAL_MS
  lokiUrl := env .LOKI_URL
  lokiUsername := env .LOKI_USERNAME
  lokiPassword := env .LOKI_PASSWORD

/-- Whether tracing was started. -/
def startTracing (library : TracingLibrary) (observability : ObservabilityConfig) : Bool :=
  (buildTracingConfig library observability).isSome

/-- Where the OTLP side of the metrics is sent, in which intervals. -/
structure OtlpMetricsConfig where
  serviceName : String
  url : String
  headers : Js.Fields
  exportIntervalMillis : Number

/-- The constructor of `OtlpMetricsAdapter`. -/
def otlpMetrics (observability : ObservabilityConfig) (endpoint : String) : OtlpMetricsConfig where
  serviceName := observability.serviceName
  url := withoutTrailingSlash endpoint ++ "/v1/metrics"
  headers := observability.otlpHeaders
  exportIntervalMillis := observability.metricExportIntervalMs

/-- What is shipped of the measurements. -/
def shippedMetrics (env : Environment) : Option OtlpMetricsConfig :=
  match buildMetricsAdapter env with
  | .composite endpoint => some (otlpMetrics env.observability endpoint)
  | _ => none

/-- The Loki target of the logger. -/
structure LokiTarget where
  host : String
  service : String
  env : NodeEnv
  basicAuth : Option (String × String)

/-- `shippingTransport`, where a Loki URL is set. -/
def shippingTransport (nodeEnv : NodeEnv) (observability : ObservabilityConfig) : Option LokiTarget :=
  observability.lokiUrl.map fun lokiUrl =>
    { host := lokiUrl
      service := observability.serviceName
      env := nodeEnv
      basicAuth := observability.lokiUsername.bind fun username =>
        observability.lokiPassword.map fun password => (username, password) }

/-! ## The status line -/

/-- One line stating which telemetry pipelines are live. -/
def telemetryStatusLine (observability : ObservabilityConfig) (tracingStarted : Bool) : String :=
  let traces := if tracingStarted then "exporting over OTLP" else "off (no OTLP endpoint)"
  let metrics :=
    if observability.metricsExportEnabled then
      "exporting over OTLP every " ++ observability.metricExportIntervalMs.text ++ "ms"
    else "local only (/metrics)"
  let logs := if observability.lokiUrl.isNone then "stdout only" else "stdout + Loki"
  "Telemetry — traces: " ++ traces ++ "; metrics: " ++ metrics ++ "; logs: " ++ logs

/-- A line about pipelines: whether traces leave, how often metrics do, whether logs do. -/
def pipelinesLine (traces : Bool) (metrics : Option Number) (logs : Bool) : String :=
  "Telemetry — traces: " ++ (if traces then "exporting over OTLP" else "off (no OTLP endpoint)") ++
    "; metrics: " ++
    (match metrics with
      | some interval => "exporting over OTLP every " ++ interval.text ++ "ms"
      | none => "local only (/metrics)") ++
    "; logs: " ++ (if logs then "stdout + Loki" else "stdout only")

/-- The line that is true of what is shipped. -/
def truthfulLine (traces : Option TracingConfig) (metrics : Option OtlpMetricsConfig)
    (logs : Option LokiTarget) : String :=
  pipelinesLine traces.isSome (metrics.map OtlpMetricsConfig.exportIntervalMillis) logs.isSome

theorem telemetryStatusLine_eq (observability : ObservabilityConfig) (tracingStarted : Bool) :
    telemetryStatusLine observability tracingStarted =
      pipelinesLine tracingStarted
        (if observability.metricsExportEnabled then some observability.metricExportIntervalMs else none)
        observability.lokiUrl.isSome := by
  unfold telemetryStatusLine pipelinesLine
  cases observability.metricsExportEnabled <;> cases observability.lokiUrl <;> rfl

/-- A line about metrics that leave is none about metrics that stay. -/
theorem pipelinesLine_some_ne_none (traces logs : Bool) (interval : Number) :
    pipelinesLine traces (some interval) logs ≠ pipelinesLine traces none logs := by
  unfold pipelinesLine
  intro h
  have hchars := congrArg String.toList h
  simp only [String.toList_append, List.append_assoc, List.append_cancel_left_eq] at hchars
  cases hchars

/-! ## What an accepted environment ships -/

section Accepted

variable {z : Zod} {env : Environment}

/-- An accepted environment names a gateway where it exports metrics. -/
theorem Environment.Accepted.gateway (h : env.Accepted z)
    (hexport : env .OTEL_METRICS_EXPORT_ENABLED = true) : (env .OTEL_EXPORTER_OTLP_ENDPOINT).isSome := by
  have hgateway := h.refined _ (List.mem_of_getElem? (i := 5) rfl)
  dsimp only at hgateway
  rwa [hexport, Bool.not_true, Bool.false_or] at hgateway

/-- An accepted environment has credentials for Loki whole or not at all, and only with its URL. -/
theorem Environment.Accepted.loki (h : env.Accepted z) :
    (env .LOKI_USERNAME).isNone = (env .LOKI_PASSWORD).isNone ∧
      ((env .LOKI_USERNAME).isSome → (env .LOKI_URL).isSome) := by
  have hpair := h.refined _ (List.mem_of_getElem? (i := 6) rfl)
  have hurl := h.refined _ (List.mem_of_getElem? (i := 7) rfl)
  dsimp only at hpair hurl
  refine ⟨of_decide_eq_true hpair, fun hsome => ?_⟩
  rcases Bool.or_eq_true_iff.mp hurl with hurl | hnone
  · exact hurl
  · exact absurd hsome (by rw [Option.isNone_iff_eq_none.mp hnone]; exact Bool.false_ne_true)

/-- Metrics are shipped where both of their switches are on and a gateway is named. -/
theorem shippedMetrics_of_on {endpoint : String} (hmetrics : env .METRICS_ENABLED = true)
    (hexport : env .OTEL_METRICS_EXPORT_ENABLED = true)
    (hendpoint : env .OTEL_EXPORTER_OTLP_ENDPOINT = some endpoint) :
    shippedMetrics env = some (otlpMetrics env.observability endpoint) := by
  unfold shippedMetrics buildMetricsAdapter
  rw [hmetrics, hexport, hendpoint]
  rfl

theorem shippedMetrics_of_off
    (h : env .METRICS_ENABLED = false ∨ env .OTEL_METRICS_EXPORT_ENABLED = false) :
    shippedMetrics env = none := by
  unfold shippedMetrics buildMetricsAdapter
  rcases h with h | h
  · rw [h]
    rfl
  · rw [h]
    cases env .METRICS_ENABLED <;> rfl

/-- What is shipped goes to the gateway of the environment. -/
theorem gateway_of_shippedMetrics {metrics : OtlpMetricsConfig} (h : shippedMetrics env = some metrics) :
    ∃ endpoint, env .OTEL_EXPORTER_OTLP_ENDPOINT = some endpoint ∧
      metrics = otlpMetrics env.observability endpoint := by
  cases hon : env .METRICS_ENABLED with
  | false =>
    rw [shippedMetrics_of_off (.inl hon)] at h
    cases h
  | true =>
    cases hexport : env .OTEL_METRICS_EXPORT_ENABLED with
    | false =>
      rw [shippedMetrics_of_off (.inr hexport)] at h
      cases h
    | true =>
      cases hendpoint : env .OTEL_EXPORTER_OTLP_ENDPOINT with
      | none =>
        unfold shippedMetrics buildMetricsAdapter at h
        rw [hon, hexport, hendpoint] at h
        cases h
      | some endpoint =>
        rw [shippedMetrics_of_on hon hexport hendpoint] at h
        exact ⟨endpoint, rfl, (Option.some.inj h).symm⟩

theorem isSome_shippedMetrics (h : env.Accepted z) :
    (shippedMetrics env).isSome ↔
      env .OTEL_METRICS_EXPORT_ENABLED = true ∧ env .METRICS_ENABLED = true := by
  constructor
  · intro hsome
    by_contra hoff
    have hswitched : env .METRICS_ENABLED = false ∨ env .OTEL_METRICS_EXPORT_ENABLED = false := by
      cases hon : env .METRICS_ENABLED with
      | false => exact .inl rfl
      | true => exact .inr (eq_false_of_ne_true fun hexport => hoff ⟨hexport, hon⟩)
    rw [shippedMetrics_of_off hswitched] at hsome
    cases hsome
  · rintro ⟨hexport, hon⟩
    obtain ⟨endpoint, hendpoint⟩ := Option.isSome_iff_exists.mp (h.gateway hexport)
    rw [shippedMetrics_of_on hon hexport hendpoint]
    rfl

/-- What is logged is shipped with credentials where there is a user. -/
theorem exists_credentials (h : env.Accepted z) :
    (∃ target ∈ shippingTransport (env .NODE_ENV) env.observability, target.basicAuth.isSome) ↔
      (env .LOKI_USERNAME).isSome := by
  obtain ⟨hpair, hurl⟩ := h.loki
  constructor
  · rintro ⟨target, htarget, hauth⟩
    obtain ⟨url, -, rfl⟩ := Option.map_eq_some_iff.mp htarget
    obtain ⟨credentials, hcredentials⟩ := Option.isSome_iff_exists.mp hauth
    obtain ⟨username, husername, -⟩ := Option.bind_eq_some_iff.mp hcredentials
    exact Option.isSome_of_eq_some husername
  · intro hsome
    obtain ⟨url, hurl⟩ := Option.isSome_iff_exists.mp (hurl hsome)
    obtain ⟨username, husername⟩ := Option.isSome_iff_exists.mp hsome
    have hpassword : ∃ password, env .LOKI_PASSWORD = some password := by
      rw [husername] at hpair
      cases hvalue : env .LOKI_PASSWORD with
      | none =>
        rw [hvalue] at hpair
        cases hpair
      | some password => exact ⟨password, rfl⟩
    obtain ⟨password, hpassword⟩ := hpassword
    refine ⟨_, Option.map_eq_some_iff.mpr ⟨url, hurl, rfl⟩, ?_⟩
    show ((env .LOKI_USERNAME).bind fun username =>
      (env .LOKI_PASSWORD).map fun password => (username, password)).isSome = true
    rw [husername, hpassword]
    rfl

end Accepted

/-! ## Shipping -/

/-- **What a process that boots ships.** Traces leave it exactly where a gateway is spelled. Metrics leave
it exactly where their export is switched on and they are not switched off; then traces leave it too, to
the same gateway with the same headers. Logs leave it exactly where a Loki URL is spelled, with
credentials exactly where a Loki user is. The line it logs about that is true except where the metrics
are switched off and their export is switched on. -/
theorem boot_ships (z : Zod) (library : TracingLibrary) {raw : ProcessEnv} {env : Environment}
    (hboot : validateEnv z raw = .ok env) :
    (startTracing library env.observability ↔ (raw .OTEL_EXPORTER_OTLP_ENDPOINT).isSome) ∧
      ((shippedMetrics env).isSome ↔
        raw .OTEL_METRICS_EXPORT_ENABLED = some "true" ∧ raw .METRICS_ENABLED ≠ some "false") ∧
      (∀ metrics ∈ shippedMetrics env, ∃ gateway, ∃ traces ∈ buildTracingConfig library env.observability,
        traces.url = gateway ++ "/v1/traces" ∧ metrics.url = gateway ++ "/v1/metrics" ∧
          metrics.headers = traces.headers) ∧
      ((shippingTransport (env .NODE_ENV) env.observability).isSome ↔ (raw .LOKI_URL).isSome) ∧
      ((∃ target ∈ shippingTransport (env .NODE_ENV) env.observability, target.basicAuth.isSome) ↔
        (raw .LOKI_USERNAME).isSome) ∧
      (telemetryStatusLine env.observability (startTracing library env.observability) =
          truthfulLine (buildTracingConfig library env.observability) (shippedMetrics env)
            (shippingTransport (env .NODE_ENV) env.observability) ↔
        ¬ (raw .METRICS_ENABLED = some "false" ∧ raw .OTEL_METRICS_EXPORT_ENABLED = some "true")) := by
  have hfields := (validateEnv_eq_ok.mp hboot).1
  have haccepted := accepted_of_validateEnv hboot
  have hmetrics := off_iff_of_yields_flag (hfields .METRICS_ENABLED)
  have hexport := on_iff_of_yields_flag (hfields .OTEL_METRICS_EXPORT_ENABLED)
  have hlogs : (shippingTransport (env .NODE_ENV) env.observability).isSome = (env .LOKI_URL).isSome :=
    Option.isSome_map
  refine ⟨?_, ?_, ?_, ?_, ?_, ?_⟩
  · rw [← isSome_of_yields_optional (hfields .OTEL_EXPORTER_OTLP_ENDPOINT)]
    exact iff_of_eq (congrArg (· = true) Option.isSome_map)
  · rw [← hexport, Ne, ← hmetrics, Bool.not_eq_false]
    exact isSome_shippedMetrics haccepted
  · intro metrics hshipped
    obtain ⟨endpoint, hendpoint, rfl⟩ := gateway_of_shippedMetrics hshipped
    refine ⟨withoutTrailingSlash endpoint, _, Option.map_eq_some_iff.mpr ⟨endpoint, hendpoint, rfl⟩, ?_⟩
    exact ⟨rfl, rfl, rfl⟩
  · rw [hlogs, isSome_of_yields_optional (hfields .LOKI_URL)]
  · rw [← isSome_of_yields_optional (hfields .LOKI_USERNAME)]
    exact exists_credentials haccepted
  · rw [← hexport, ← hmetrics, telemetryStatusLine_eq]
    unfold truthfulLine
    rw [hlogs]
    show pipelinesLine _ (if env .OTEL_METRICS_EXPORT_ENABLED then
      some (env .OTEL_METRIC_EXPORT_INTERVAL_MS) else none) (env .LOKI_URL).isSome = _ ↔ _
    cases hon : env .METRICS_ENABLED with
    | false =>
      rw [shippedMetrics_of_off (.inl hon)]
      cases env .OTEL_METRICS_EXPORT_ENABLED with
      | false => exact iff_of_true rfl fun h => by cases h.2
      | true => exact iff_of_false (pipelinesLine_some_ne_none _ _ _) fun h => h ⟨rfl, rfl⟩
    | true =>
      refine iff_of_true ?_ fun h => by cases h.1
      cases hexported : env .OTEL_METRICS_EXPORT_ENABLED with
      | false =>
        rw [shippedMetrics_of_off (.inr hexported)]
        rfl
      | true =>
        obtain ⟨endpoint, hendpoint⟩ := Option.isSome_iff_exists.mp (haccepted.gateway hexported)
        rw [shippedMetrics_of_on hon hexported hendpoint]
        rfl

/-- A deployment with a gateway and Loki that exports its metrics, or has switched them off. -/
def shippingEnv (metrics : String) : ProcessEnv
  | .METRICS_ENABLED => some metrics
  | .OTEL_METRICS_EXPORT_ENABLED => some "true"
  | .OTEL_EXPORTER_OTLP_ENDPOINT => some "https://collector/"
  | .LOKI_URL => some "https://loki"
  | .LOKI_USERNAME => some "1"
  | .LOKI_PASSWORD => some "secret"
  | v => spelledEnv v

theorem shippingEnv_boots (metrics : String) (h : metrics = "true" ∨ metrics = "false") :
    ∃ env, validateEnv schemeZod (shippingEnv metrics) = .ok env := by
  rcases h with rfl | rfl
  · exact boots_of_isOk (by decide +kernel)
  · exact boots_of_isOk (by decide +kernel)

/-- Switched off, no metrics are shipped and the line says that they are. -/
theorem boot_ships_switched_off :
    (∃ env, validateEnv schemeZod (shippingEnv "true") = .ok env ∧ (shippedMetrics env).isSome ∧
      telemetryStatusLine env.observability (startTracing keepingLibrary env.observability) =
        truthfulLine (buildTracingConfig keepingLibrary env.observability) (shippedMetrics env)
          (shippingTransport (env .NODE_ENV) env.observability)) ∧
    ∃ env, validateEnv schemeZod (shippingEnv "false") = .ok env ∧ ¬ (shippedMetrics env).isSome ∧
      telemetryStatusLine env.observability (startTracing keepingLibrary env.observability) ≠
        truthfulLine (buildTracingConfig keepingLibrary env.observability) (shippedMetrics env)
          (shippingTransport (env .NODE_ENV) env.observability) := by
  constructor
  · obtain ⟨env, hboot⟩ := shippingEnv_boots "true" (.inl rfl)
    obtain ⟨-, hmetrics, -, -, -, hline⟩ := boot_ships schemeZod keepingLibrary hboot
    exact ⟨env, hboot, hmetrics.mpr (by decide), hline.mpr (by decide)⟩
  · obtain ⟨env, hboot⟩ := shippingEnv_boots "false" (.inr rfl)
    obtain ⟨-, hmetrics, -, -, -, hline⟩ := boot_ships schemeZod keepingLibrary hboot
    exact ⟨env, hboot, fun h => (hmetrics.mp h).2 rfl, fun h => hline.mp h (by decide)⟩

end AdvancedSearch
