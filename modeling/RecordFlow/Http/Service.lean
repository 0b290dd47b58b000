import RecordFlow.Http.Address
import RecordFlow.Http.Correlation
import RecordFlow.Tick
import RecordFlow.Value.Basic

/-! # The service

Requests reach the health of the service, its metrics, a tick, and the pages that describe it. Every
request is counted, and logged unless it is for the metrics; while it is served, everything is
correlated with the identifier that it brought or was given. A path with slashes too many at its end
is redirected.
-/

/-! ## The service described

The endpoints of the service as a document that tools read.
-/
namespace RecordFlow.Http

structure Operation where
  topic : String
  title : String
  identifier : String
  answer : Fields
  deriving Inhabited

def Operation.describe (o : Operation) : Value := .obj [
  ("tags", .list [.str o.topic]),
  ("summary", .str o.title),
  ("operationId", .str o.identifier),
  ("responses", .obj [("200", .obj [
    ("description", .str "Successful Response"),
    ("content", .obj [("application/json", .obj [("schema", .obj o.answer)])])])])]

def objectShape (title : String) (values : Value) : Fields := [
  ("additionalProperties", values), ("type", .str "object"), ("title", .str title)]

def healthOperation : Operation where
  topic := "system"
  title := "Health"
  identifier := "health_health_get"
  answer := objectShape "Response Health Health Get" (.obj [("type", .str "string")])

def metricsOperation : Operation where
  topic := "system"
  title := "Metrics"
  identifier := "metrics_metrics_get"
  answer := []

def tickOperation : Operation where
  topic := "automation"
  title := "Run Scheduler Sweep"
  identifier := "run_scheduler_sweep_api_automation_scheduler_sweep_post"
  answer := objectShape "Response Run Scheduler Sweep Api Automation Scheduler Sweep Post"
    (.bool true)

def description : Value := .obj [
  ("openapi", .str "3.1.0"),
  ("info", .obj [("title", .str "CRM Automation Engine"), ("version", .str "0.1.0")]),
  ("paths", .obj [
    ("/health", .obj [("get", healthOperation.describe)]),
    ("/metrics", .obj [("get", metricsOperation.describe)]),
    ("/api/automation/scheduler/sweep", .obj [("post", tickOperation.describe)])])]

end RecordFlow.Http

namespace RecordFlow.Http
open RecordFlow.Flow

structure Request where
  method : String
  target : String
  headers : Fields
  deriving Inhabited

def Request.sent (r : Request) : Except RequestFault (String × Headers) := do
  let address ← (Address.read r.target).mapError .address
  let headers ← (Headers.read r.headers).mapError .header
  return (String.ofList (unescape address.servicePath), headers)

structure Response where
  status : Nat
  body : Value
  deriving Inhabited

namespace Response

def ok (body : Value) : Response := ⟨200, body⟩

def detail (status : Nat) (said : String) : Response :=
  ⟨status, .obj [("detail", .str said)]⟩

def redirect : Response := ⟨307, .null⟩

def notFound : Response := .detail 404 "Not Found"

def wrongMethod : Response := .detail 405 "Method Not Allowed"

end Response

structure LogLine where
  level : Log.Level
  message : String
  method : String
  path : String
  status : Nat
  deriving DecidableEq, Inhabited

def LogLine.encode (l : LogLine) : Value := .list [
  .str l.level.name, .str l.message, .str l.method, .str l.path, .nat l.status]

/-- What can be asked for. The last three are pages for people. -/
inductive Endpoint where
  | health
  | metrics
  | tick
  | description
  | explorer
  | signIn
  | manual
  deriving DecidableEq, Inhabited

namespace Endpoint

def path : Endpoint → String
  | .health => "/health"
  | .metrics => "/metrics"
  | .tick => "/api/automation/scheduler/sweep"
  | .description => "/openapi.json"
  | .explorer => "/docs"
  | .signIn => "/docs/oauth2-redirect"
  | .manual => "/redoc"

def methods : Endpoint → List String
  | .health | .metrics => ["GET"]
  | .tick => ["POST"]
  | .description | .explorer | .signIn | .manual => ["GET", "HEAD"]

def all : List Endpoint := [description, explorer, signIn, manual, health, metrics, tick]

/-- The endpoint of a path, which may end with a line break. -/
def ofPath? (path : String) : Option Endpoint :=
  all.find? fun e => path = e.path || path = e.path ++ "\n"

end Endpoint

/-- The metrics are asked for again and again, so those requests are not logged. -/
def isQuiet (path : String) : Bool := path = Endpoint.metrics.path

def health (s : Settings) : Value := .obj [
  ("status", .str "ok"),
  ("service", .str s.appName),
  ("environment", .str s.appEnvironment)]

def respond (tick : Flow Tick) : Endpoint → Flow Response
  | .health => return .ok (health (← settings))
  | .metrics => return if (← settings).metricsEnabled then .ok .null else .detail 404 "not found"
  | .tick => return .ok (← tick).encode
  | .description => return .ok Http.description
  | .explorer | .signIn | .manual => return .ok .null

def withoutSlashes (path : String) : String :=
  String.ofList (path.toList.reverse.dropWhile (· = '/')).reverse

def elsewhere (path : String) : Response :=
  if (Endpoint.ofPath? (withoutSlashes path)).isSome then .redirect else .notFound

def route (tick : Flow Tick) (method path : String) : Flow Response := do
  match Endpoint.ofPath? path with
  | none => return elsewhere path
  | some e => if e.methods.contains method then respond tick e else return .wrongMethod

/-- What became of a request: it was answered, or its answer broke off. -/
structure Served where
  outcome : Except Failure Response
  correlation : String
  log : List LogLine
  deriving Inhabited

def generated : String := "generated"

def serveAt (tick : Flow Tick) (method asked : String) (headers : Headers) : Flow Served := do
  let correlation := (correlation? headers).getD generated
  let path := sanitize (seenPath asked)
  match ← correlated (some correlation) (Job.orFailure (route tick method asked)) with
  | .ok response =>
    let response := if method = "HEAD" then { response with body := .null } else response
    count (.request method path (toString response.status))
    let line : LogLine :=
      ⟨Log.levelFor response.status, "http.request", method, path, response.status⟩
    return ⟨.ok response, correlation, if isQuiet path then [] else [line]⟩
  | .error cause =>
    count (.request method path "500")
    return ⟨.error cause, correlation, [⟨.error, "http.error", method, path, 500⟩]⟩

def serve (tick : Flow Tick) (r : Request) : Flow Served :=
  match r.sent with
  | .ok (asked, headers) => serveAt tick (Text.upper r.method) asked headers
  | .error fault => throw (.request fault)

end RecordFlow.Http
