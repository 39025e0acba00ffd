import PeakUsage.Gauges.Exposition
import PeakUsage.Json.Model

/-! What the exporter answers over HTTP. -/
namespace PeakUsage.Http

inductive Body where
  | empty
  | json (value : Json)
  | exposition (families : List MetricFamily)

structure Response where
  status : Nat
  contentType : Option String
  allow : Option String
  body : Body

inductive Route where
  | health
  | readiness
  | metrics
  | usage
deriving DecidableEq

def Route.path : Route → String
  | .health => "/healthz"
  | .readiness => "/readyz"
  | .metrics => "/metrics"
  | .usage => "/usage"

def Route.all : List Route := [.health, .readiness, .metrics, .usage]

/-- What follows the scheme of a target and two slashes. -/
def afterScheme? (cs : List Char) : Option (List Char) :=
  match cs.dropWhile (· ≠ ':') with
  | ':' :: '/' :: '/' :: rest => some rest
  | _ => none

/-- The path of a request target: what stands before its query and its fragment, and after scheme
and host. -/
def pathOf (target : String) : String :=
  let cs := target.toList.takeWhile fun c => c ≠ '?' && c ≠ '#'
  match cs with
  | '/' :: _ => String.ofList cs
  | _ =>
    match (afterScheme? cs).map fun rest => rest.dropWhile (· ≠ '/') with
    | none => ""
    | some [] => "/"
    | some path => String.ofList path

def route? (path : String) : Option Route := Route.all.find? fun r => r.path = path

/-- A value as it is sent: JSON has no numeral for a float that is not finite. -/
def ofReal (x : Float) : Json := if Number.isFinite x then .real x else .null

mutual

def asSent : Json → Json
  | .real x => ofReal x
  | .array items => .array (itemsAsSent items)
  | .object members => .object (membersAsSent members)
  | j => j

def itemsAsSent : List Json → List Json
  | [] => []
  | j :: rest => asSent j :: itemsAsSent rest

def membersAsSent : List (String × Json) → List (String × Json)
  | [] => []
  | (name, j) :: rest => (name, asSent j) :: membersAsSent rest

end

def jsonResponse (ok : Bool) (value : Json) : Response :=
  ⟨if ok then 200 else 503, some "application/json", none, .json (asSent value)⟩

/-- The answer to a request to read a resource. Health fails with an unhealthy component, readiness
and usage before the first scrape. -/
def get (o : Outlets) : Route → Response
  | .health => jsonResponse o.health.overall.isOperational o.health.report.toJson
  | .readiness => jsonResponse o.health.readiness.ready o.health.readiness.toJson
  | .metrics => ⟨200, some "text/plain; version=0.0.4", none, .exposition o.gauges.families⟩
  | .usage => jsonResponse o.latest.completedAt.isSome o.latest.toJson

/-- The answer to a request. Every resource can only be read. -/
def respond (o : Outlets) (method target : String) : Response :=
  match route? (pathOf target) with
  | none => ⟨404, none, none, .empty⟩
  | some r =>
    if method = "GET" then get o r
    else if method = "HEAD" then { get o r with body := .empty }
    else ⟨405, none, some "GET,HEAD", .empty⟩

/-- Whether a method is a token. -/
def isMethod (method : String) : Bool :=
  !method.isEmpty && method.toList.all fun c =>
    c.isAlphanum || "!#$%&'*+-.^_|~".toList.contains c || c.toNat = 0x60

def isPathChar (c : Char) : Bool :=
  0x21 ≤ c.toNat && c ≠ '<' && c ≠ '>' && c.toNat ≠ 0x60

def isQueryChar (c : Char) : Bool := 0x21 ≤ c.toNat && c ≠ '<' && c ≠ '>' && c ≠ '"'

/-- Whether a text is a request target: a path with or without scheme and host, or a host alone.
Nothing is asked of a fragment. -/
def isTarget (target : String) : Bool :=
  let cs := target.toList.takeWhile (· ≠ '#')
  let path := cs.takeWhile (· ≠ '?')
  let query := cs.drop path.length
  !path.isEmpty && path.all isPathChar && query.all isQueryChar &&
    (path.head? = some '/' || (afterScheme? path).isSome ||
      (path.length = target.length && !path.contains '/'))

end PeakUsage.Http
