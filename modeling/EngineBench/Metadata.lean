import EngineBench.Configuration.Json
import EngineBench.Host
import EngineBench.Json.Printer

/-!
# The metadata endpoint

While a run goes on, the configuration can be asked for on the port above that of the engine. Every
request is answered with the same JSON text, whatever its method and path; a `HEAD` request gets
the head of the answer alone.
-/

namespace EngineBench.Metadata

variable {σ : Type}

/-- Why there is no endpoint. -/
inductive StartError where
  /-- The dataset path is not UTF-8. -/
  | pathNotText
  /-- The port cannot be listened on. -/
  | port (e : OsError)
  deriving DecidableEq

def StartError.message : StartError → String
  | pathNotText => "path contains invalid UTF-8 characters"
  | port e => e.message

/-- The text that every request is answered with. -/
def body? (c : Configuration) : Option String := c.toJson?.map fun j => j.sorted.compact

def start (h : Host σ) (port : UInt16) (c : Configuration) (s : σ) : Except StartError Unit × σ :=
  match body? c with
  | none => (.error .pathNotText, s)
  | some body =>
    let (result, s) := h.listen port body s
    (result.mapError .port, s)

/-- The answer to a request. -/
structure Response where
  status : String
  contentType : String
  contentLength : Nat
  body : String
  deriving DecidableEq

/-- Answers a request of the given method on an endpoint with the given text. -/
def respond (body method : String) : Response where
  status := "HTTP/1.1 200 OK"
  contentType := "application/json"
  contentLength := body.utf8ByteSize
  body := if method = "HEAD" then "" else body

end EngineBench.Metadata
