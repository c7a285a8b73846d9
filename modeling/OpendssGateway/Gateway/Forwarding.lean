import OpendssGateway.Gateway.BodyRead
import OpendssGateway.Gateway.Proxy

/-!
# What a worker is sent

The method, the query and the body of a request that is forwarded, on each
of the three paths.  The query is the list of its pairs.  Two of the paths
hand the client's `QueryParams` to `httpx` as a mapping, which has a key
once, at its first place and with its last value.  The third one has no
query.

* `queryItems_eq_iff`: the mapping has the pairs of the query if and only if
  no key is repeated.
* `forwarded_iff`: the method and the body are the client's, and the query
  is if and only if its handler keeps it.
-/

namespace OpendssGateway

namespace Proxy

/-- A request that has reached the catch-all route. -/
structure ClientRequest where
  method : Method
  /-- `full` -/
  path : Bytes
  query : List (PyStr × PyStr)
  content_length : Option PyStr
  chunks : List Bytes

structure WorkerRequest where
  method : Method
  query : List (PyStr × PyStr)
  body : Bytes
  deriving DecidableEq

/-- `items()` of `QueryParams`. -/
def queryItems (query : List (PyStr × PyStr)) : List (PyStr × PyStr) :=
  (Table.ofRows query : PyDict PyStr).rows

/-- `gw.client.request(request.method, .., params=request.query_params, content=body)`. -/
def relayed (r : ClientRequest) (body : Bytes) : WorkerRequest where
  method := r.method
  query := queryItems r.query
  body := body

/-- The request of `_passthrough`. -/
def passthrough_request (r : ClientRequest) (body : Bytes) : WorkerRequest :=
  relayed r body

/-- The request of `_engine_call`. -/
def engine_call_request (r : ClientRequest) (body : Bytes) : WorkerRequest :=
  relayed r body

/-- The request of `_stream_call`. -/
def stream_call_request (body : Bytes) : WorkerRequest where
  method := .post
  query := []
  body := body

def requestOf (r : ClientRequest) (body : Bytes) : Handler → WorkerRequest
  | .engineCall => engine_call_request r body
  | .streamCall => stream_call_request body
  | .passthrough => passthrough_request r body

/-- What is sent to a worker, once the body has been read. -/
def forwarded (u : UnicodeDigits) (r : ClientRequest) : Option WorkerRequest :=
  match read_body u r.content_length r.chunks with
  | .error _ => none
  | .ok body => some (requestOf r body (proxy r.method r.path))

/-- The handler of the request keeps its query: no key is repeated, or, on the stream path,
there is no query at all. -/
def KeepsQuery (r : ClientRequest) : Prop :=
  if proxy r.method r.path = .streamCall then r.query = [] else (r.query.map Prod.fst).Nodup

theorem queryItems_eq_iff {query : List (PyStr × PyStr)} :
    queryItems query = query ↔ (query.map Prod.fst).Nodup :=
  Table.rows_ofRows_eq_iff

theorem method_of_streamCall {method : Method} {full : Bytes}
    (h : proxy method full = .streamCall) : method = .post := by
  unfold proxy at h
  split at h
  · cases h
  · split at h
    · rename_i hstream
      exact hstream.2
    · cases h

/-- The worker is sent the method and the body of the client, and its query if and only if
the handler keeps it. -/
theorem forwarded_iff (u : UnicodeDigits) (r : ClientRequest) (w : WorkerRequest)
    (h : forwarded u r = some w) :
    w.method = r.method ∧ w.body = r.chunks.flatten ∧
      ((w.method = r.method ∧ w.query = r.query ∧ w.body = r.chunks.flatten) ↔
        KeepsQuery r) := by
  unfold forwarded at h
  cases hread : read_body u r.content_length r.chunks with
  | error e =>
    rw [hread] at h
    cases h
  | ok body =>
    rw [hread] at h
    cases h
    have hbody := read_body_eq_ok hread
    unfold KeepsQuery
    cases hhandler : proxy r.method r.path with
    | streamCall =>
      have hmethod := method_of_streamCall hhandler
      rw [if_pos rfl, hmethod]
      refine ⟨rfl, hbody, ?_⟩
      exact ⟨fun hall => hall.2.1.symm, fun hquery => ⟨rfl, hquery.symm, hbody⟩⟩
    | engineCall =>
      rw [if_neg (by decide), ← queryItems_eq_iff]
      exact ⟨rfl, hbody, fun hall => hall.2.1, fun hquery => ⟨rfl, hquery, hbody⟩⟩
    | passthrough =>
      rw [if_neg (by decide), ← queryItems_eq_iff]
      exact ⟨rfl, hbody, fun hall => hall.2.1, fun hquery => ⟨rfl, hquery, hbody⟩⟩

/-- A query with a key twice, for an engine endpoint and for the stream. -/
def repeated (path : Bytes) : ClientRequest where
  method := .post
  path := path
  query := [(py "bus", py "1"), (py "bus", py "2")]
  content_length := none
  chunks := [ascii "ab", ascii "c"]

/-- The same with two keys. -/
def distinct : ClientRequest :=
  { repeated (ascii "/api/solve") with query := [(py "bus", py "1"), (py "kv", py "2")] }

theorem forwarded_iff_distinct :
    forwarded latin1 distinct =
        some { method := .post, query := distinct.query, body := ascii "abc" } ∧
      KeepsQuery distinct := by
  have hsent : forwarded latin1 distinct =
      some { method := .post, query := distinct.query, body := ascii "abc" } := by
    decide +kernel
  exact ⟨hsent, (forwarded_iff latin1 distinct _ hsent).2.2.1 ⟨rfl, rfl, by decide⟩⟩

/-- The worker of an engine call gets the last value only, and the one of a stream gets no
query. -/
theorem query_changed :
    (∃ w, forwarded latin1 (repeated (ascii "/api/solve")) = some w ∧
        w.query = [(py "bus", py "2")] ∧ w.query ≠ (repeated (ascii "/api/solve")).query) ∧
      ∃ w, forwarded latin1 (repeated STREAM_PATH) = some w ∧
        w.query = [] ∧ w.query ≠ (repeated STREAM_PATH).query := by
  constructor
  · refine ⟨{ method := .post, query := [(py "bus", py "2")], body := ascii "abc" }, ?_, rfl, ?_⟩
    · decide +kernel
    · decide +kernel
  · refine ⟨{ method := .post, query := [], body := ascii "abc" }, ?_, rfl, ?_⟩
    · decide +kernel
    · decide +kernel

end Proxy

end OpendssGateway
