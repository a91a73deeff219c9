import StackMachine.Machine.Basic
import StackMachine.Service.Body

/-!
# The web service

Five routes: two that describe the service, one that tests it, one that runs a program and one
that only assembles it.
-/

namespace StackMachine.Service

inductive Route where
  | root
  | health
  | ready
  | execute
  | validate
deriving DecidableEq, Repr

namespace Route

def all : List Route := [.root, .health, .ready, .execute, .validate]

def path : Route → String
  | .root => "/"
  | .health => "/api/v1/health"
  | .ready => "/api/v1/health/ready"
  | .execute => "/api/v1/execute"
  | .validate => "/api/v1/validate"

def method : Route → String
  | .root | .health | .ready => "GET"
  | .execute | .validate => "POST"

end Route

/-! ### Paths -/

/-- Whether a path is a known one. A line feed at its end makes no difference. -/
def isPath (known path : String) : Bool :=
  path == known || path == known ++ "\n"

def Route.ofPath? (path : String) : Option Route :=
  Route.all.find? fun r => isPath r.path path

/-- The pages for people that describe the service. They are kept elsewhere, but known. -/
def pages : List String :=
  ["/docs", "/docs/oauth2-redirect", "/openapi.json", "/redoc"]

def isPage (path : String) : Bool :=
  pages.any (isPath · path)

/-- A path without the slashes at its end, or with one if it has none. -/
def otherSlash (path : String) : String :=
  match path.toList.reverse with
  | '/' :: cs => String.ofList (cs.dropWhile (· == '/')).reverse
  | _ => path ++ "/"

/-- Whether a path is known but for the slashes at its end. -/
def isMisspelt (path : String) : Bool :=
  (Route.ofPath? (otherSlash path)).isSome || isPage (otherSlash path)

/-! ### Answers -/

structure Request where
  method : String
  path : String
  body : Option Json

structure Response where
  status : Nat
  body : Json

def detail (status : Nat) (message : String) : Response :=
  ⟨status, .object [("detail", .string message)]⟩

def unprocessable (problems : List Problem) : Response :=
  ⟨422, .array (problems.map (·.json))⟩

def version : String := "0.1.0"

def rootBody : Json :=
  .object [
    ("name", .string "StackVM API"),
    ("version", .string version),
    ("docs", .string "/docs"),
    ("health", .string Route.health.path)]

def healthBody : Json :=
  .object [
    ("status", .string "healthy"),
    ("version", .string version),
    ("service", .string "stackvm-api"),
    ("default_step_budget", .nat Config.standard.stepBudget)]

/-- A program that prints an exclamation mark. -/
def selfTestProgram : Program :=
  [.push (.ofInt .int8 33 (by decide)), .print, .exit]

def selfTest : Bool :=
  let (result, text) := selfTestProgram.runAlone .standard
  result.success && text == "!"

def readyBody : Json :=
  .object [
    ("ready", .bool selfTest),
    ("checks", .object [
      ("self_test", .bool selfTest),
      ("opcodes", .nat Opcode.all.length),
      ("value_types", .array (Kind.all.map (.string ·.name))),
      ("registers", .nat registerCount)])]

def executeBody (result : Result) (output : String) : Json :=
  .object [
    ("success", .bool result.success),
    ("output", .string output),
    ("steps", .nat result.steps),
    ("slices", .nat result.slices),
    ("error", .orNull (fun e => .string e.message) result.failure),
    ("error_kind", .orNull (fun e => .string e.kind) result.failure)]

/-- Assembles the source of a job and runs it in a fresh machine. -/
def execute (job : Job) : Except TooManyDigits Response :=
  match assemble job.source with
  | .error (.tooManyDigits e) => .error e
  | .error (.invalid e) => .ok (detail 400 e.message)
  | .ok p =>
    let (result, output) := p.runAlone job.config
    .ok ⟨200, executeBody result output⟩

def validateBody (verdict : Except Assembly.SourceError Nat) : Json :=
  let (valid, count, line, errors) := match verdict with
    | .ok count => (true, count, Json.null, [])
    | .error e => (false, 0, .nat e.line, [.string e.message])
  .object [
    ("valid", .bool valid),
    ("instruction_count", .nat count),
    ("line", line),
    ("errors", .array errors)]

def validate (source : String) : Except TooManyDigits Response :=
  match assemble source with
  | .error (.tooManyDigits e) => .error e
  | .error (.invalid e) => .ok ⟨200, validateBody (.error e)⟩
  | .ok p => .ok ⟨200, validateBody (.ok p.length)⟩

/-- Answers with the given action if the body can be read, and with its problems otherwise. -/
def withBody {α : Type} (body : Option Json) (read : Json → Except (List Problem) α)
    (action : α → Except TooManyDigits Response) : Except TooManyDigits Response :=
  match requireObject body >>= read with
  | .error problems => .ok (unprocessable problems)
  | .ok a => action a

/-- Sends the client on to another path. The response has no body. -/
def redirect : Response := ⟨307, .null⟩

def notFound : Response := detail 404 "Not Found"

def methodNotAllowed : Response := detail 405 "Method Not Allowed"

/-- The answer to a request for a path that is no route. -/
def answerElsewhere (method path : String) : Response :=
  if isPage path then
    if method = "GET" ∨ method = "HEAD" then notFound else methodNotAllowed
  else if isMisspelt path then redirect
  else notFound

/-- Answers a request. A source with an integer too long to be read has no answer. -/
def answer (r : Request) : Except TooManyDigits Response :=
  match Route.ofPath? r.path with
  | none => .ok (answerElsewhere r.method r.path)
  | some route =>
    if r.method ≠ route.method then .ok methodNotAllowed
    else
      match route with
      | .root => .ok ⟨200, rootBody⟩
      | .health => .ok ⟨200, healthBody⟩
      | .ready => .ok ⟨200, readyBody⟩
      | .execute => withBody r.body readJob execute
      | .validate => withBody r.body readSourceOnly validate

end StackMachine.Service
