import OpendssGateway.Gateway.Metering
import OpendssGateway.Library.Uri

/-!
# Which requests are metered

The catch-all route and its three kinds of request.  The gateway looks at
the path once the server has decoded it.  The worker sees the path of the
URL `worker + path` and decodes that again.

* `proxy` is the handler the gateway chooses.
* `workerPath` is the path on which the worker acts.
* `metered_iff` says when the two agree: the path must be no
  `Disguise` of an engine endpoint.
* `metered_of_plain`: no path without `?`, `#`, `%` and `.` is one.

Paths are bytes, the UTF-8 form of the source's strings.  A worker's base
is an origin, so the path of its URL is the path behind it.
-/

namespace OpendssGateway

namespace Proxy

/-- The methods of the catch-all route. -/
inductive Method
  | get
  | post
  | put
  | delete
  | patch
  | head
  | options
deriving DecidableEq

inductive Handler
  | engineCall
  | streamCall
  | passthrough
deriving DecidableEq

/-- What the server and the HTTP client do with a path. -/
structure Libraries where
  /-- The text the server makes of decoded bytes.  It replaces what is not UTF-8. -/
  text : Bytes → Bytes
  /-- The paths whose URL the client parses.  It refuses control characters and
  URLs that are too long. -/
  accepts : Bytes → Bool
  /-- How the client removes the segments `.` and `..`. -/
  removeDots : Bytes → Bytes
  removeDots_of_no_dot : ∀ path, (∀ b ∈ path, b ≠ 46) → removeDots path = path
  /-- The bytes the client does not escape in a path. -/
  safe : UInt8 → Bool

def ENGINE_PATHS : List Bytes :=
  [ascii "/api/solve", ascii "/api/faultstudy", ascii "/api/import/dss"]

def STREAM_PATH : Bytes :=
  ascii "/api/timeseries"

/-! ## Routing -/

/-- `$` also matches before a newline at the end. -/
def dropNewline (path : Bytes) : Bytes :=
  if path.getLast? = some 10 then path.dropLast else path

/-- The routes with a fixed path that are declared before the catch-all. -/
def pageRoutes : List (Method × Bytes) :=
  [(.get, ascii "/gw/health"), (.get, ascii "/api/me"), (.get, ascii "/auth/signin"),
    (.post, ascii "/auth/magic"), (.get, ascii "/auth/magic/verify"),
    (.post, ascii "/auth/magic/verify"), (.post, ascii "/auth/signout"),
    (.get, ascii "/account"), (.post, ascii "/billing/checkout"),
    (.get, ascii "/billing/success"), (.post, ascii "/billing/portal"),
    (.post, ascii "/billing/webhook"), (.get, ascii "/legal/privacy"),
    (.get, ascii "/legal/terms")]

/-- `/auth/{provider_id}` and `/auth/{provider_id}/callback`. -/
def isOauth (path : Bytes) : Bool :=
  match Metering.stripPrefix (ascii "/auth/") path with
  | none => false
  | some rest =>
    let provider_id := rest.takeWhile fun b => b ≠ 47
    let behind := rest.dropWhile fun b => b ≠ 47
    !provider_id.isEmpty && (behind.isEmpty || dropNewline behind == ascii "/callback")

/-- The routes before the catch-all. -/
def isPage (method : Method) (path : Bytes) : Bool :=
  pageRoutes.contains (method, dropNewline path) || (method == .get && isOauth path)

/-- The parameter of `/{path:path}`.  Its `.*` stops at a newline. -/
def catchAll : Bytes → Option Bytes
  | 47 :: rest =>
    let path := dropNewline rest
    if path.contains 10 then none else some path
  | _ => none

/-- `full` of a request that reaches the catch-all route. -/
def reached (lib : Libraries) (method : Method) (raw : Bytes) : Option Bytes :=
  let path := lib.text (Uri.decode raw)
  if isPage method path then none else (catchAll path).map (47 :: ·)

/-! ## The two sides -/

def proxy (method : Method) (full : Bytes) : Handler :=
  if full ∈ ENGINE_PATHS then .engineCall
  else if full = STREAM_PATH ∧ method = .post then .streamCall
  else .passthrough

/-- The path the worker matches, when the client sends the request. -/
def workerPath (lib : Libraries) (full : Bytes) : Option Bytes :=
  if lib.accepts full then
    some (Uri.decode (Uri.encode lib.safe (lib.removeDots (Uri.pathOf full))))
  else none

/-- The endpoints of a worker that run its engine. -/
def EngineEndpoint (method : Method) (path : Bytes) : Prop :=
  path ∈ ENGINE_PATHS ∨ path = STREAM_PATH ∧ method = .post

/-- No request of this method and raw path runs an engine past the meter. -/
def Metered (lib : Libraries) (method : Method) (raw : Bytes) : Prop :=
  ∀ full, reached lib method raw = some full →
    ∀ endpoint, EngineEndpoint method endpoint → workerPath lib full = some endpoint →
      proxy method full ≠ .passthrough

/-- A path that is no engine endpoint, and whose part before the first `?` or
`#` writes one with escapes and dot segments. -/
def Disguise (lib : Libraries) (method : Method) (full endpoint : Bytes) : Prop :=
  ¬ EngineEndpoint method full ∧ lib.accepts full = true ∧
    ∃ path behind, full = path ++ behind ∧ (∀ b ∈ path, b ≠ 63 ∧ b ≠ 35) ∧
      Uri.IsQueryOrFragment behind ∧ Uri.Spells (lib.removeDots path) endpoint

theorem proxy_eq_passthrough_iff {method : Method} {full : Bytes} :
    proxy method full = .passthrough ↔ ¬ EngineEndpoint method full := by
  unfold proxy EngineEndpoint
  split
  · simp [*]
  · split <;> simp [*]

/-- An endpoint is written without escapes. -/
theorem EngineEndpoint.no_percent {method : Method} {endpoint : Bytes}
    (h : EngineEndpoint method endpoint) : ∀ b ∈ endpoint, b ≠ 37 := by
  have hall : ∀ path ∈ STREAM_PATH :: ENGINE_PATHS, ∀ b ∈ path, b ≠ 37 := by
    decide +kernel
  apply hall
  rcases h with hpath | ⟨rfl, -⟩
  · exact List.mem_cons_of_mem _ hpath
  · exact List.mem_cons_self ..

theorem workerPath_eq_iff {lib : Libraries} {full endpoint : Bytes}
    (hplain : ∀ b ∈ endpoint, b ≠ 37) :
    workerPath lib full = some endpoint ↔ lib.accepts full = true ∧
      ∃ path behind, full = path ++ behind ∧ (∀ b ∈ path, b ≠ 63 ∧ b ≠ 35) ∧
        Uri.IsQueryOrFragment behind ∧ Uri.Spells (lib.removeDots path) endpoint := by
  have hspells : workerPath lib full = some endpoint ↔ lib.accepts full = true ∧
      Uri.Spells (lib.removeDots (Uri.pathOf full)) endpoint := by
    rw [workerPath, Uri.decode_encode, ← Uri.decode_eq_iff_spells hplain]
    split <;> simp [*]
  rw [hspells]
  apply and_congr_right
  intro _
  constructor
  · intro h
    obtain ⟨hpath, behind, hfull, hbehind⟩ := Uri.pathOf_eq_iff.1 (rfl : Uri.pathOf full = _)
    exact ⟨_, behind, hfull, hpath, hbehind, h⟩
  · rintro ⟨path, behind, hfull, hpath, hbehind, h⟩
    rwa [Uri.pathOf_eq_iff.2 ⟨hpath, behind, hfull, hbehind⟩]

/-- The gateway passes a request through and the worker runs its engine
exactly when the path is a disguise. -/
theorem disguise_iff {lib : Libraries} {method : Method} {full endpoint : Bytes}
    (hendpoint : EngineEndpoint method endpoint) :
    Disguise lib method full endpoint ↔
      proxy method full = .passthrough ∧ workerPath lib full = some endpoint := by
  rw [proxy_eq_passthrough_iff, workerPath_eq_iff hendpoint.no_percent]
  rfl

theorem metered_of_not_disguise {lib : Libraries} {method : Method} {raw : Bytes}
    (h : ∀ full, reached lib method raw = some full →
      ∀ endpoint, EngineEndpoint method endpoint → ¬ Disguise lib method full endpoint) :
    Metered lib method raw := by
  intro full hfull endpoint hendpoint hworker hpass
  exact h full hfull endpoint hendpoint ((disguise_iff hendpoint).2 ⟨hpass, hworker⟩)

/-- A request is metered unless its decoded path is the disguise of an engine
endpoint. -/
theorem metered_iff (lib : Libraries) (method : Method) (raw : Bytes) :
    Metered lib method raw ↔
      ∀ full, reached lib method raw = some full →
        ∀ endpoint, EngineEndpoint method endpoint → ¬ Disguise lib method full endpoint := by
  refine ⟨fun h full hfull endpoint hendpoint hdisguise => ?_, metered_of_not_disguise⟩
  obtain ⟨hpass, hworker⟩ := (disguise_iff hendpoint).1 hdisguise
  exact h full hfull endpoint hendpoint hworker hpass

/-- A path without `?`, `#`, `%` and `.` is no disguise. -/
theorem not_disguise_of_plain {lib : Libraries} {method : Method} {full endpoint : Bytes}
    (hplain : ∀ b ∈ full, b ≠ 63 ∧ b ≠ 35 ∧ b ≠ 37 ∧ b ≠ 46)
    (hendpoint : EngineEndpoint method endpoint) : ¬ Disguise lib method full endpoint := by
  rintro ⟨hnot, -, path, behind, rfl, -, hbehind, hspells⟩
  have hnil : behind = [] := by
    rcases hbehind with hnil | ⟨b, rest, rfl, hb⟩
    · exact hnil
    · have := hplain b (by simp)
      rcases hb with rfl | rfl <;> simp at this
  subst hnil
  rw [List.append_nil] at hplain hnot
  rw [lib.removeDots_of_no_dot path fun b hb => (hplain b hb).2.2.2] at hspells
  have hself : Uri.decode path = path :=
    (Uri.Spells.refl fun b hb => (hplain b hb).2.2.1).decode_eq
  rw [← hspells.decode_eq, hself] at hendpoint
  exact hnot hendpoint

theorem metered_of_plain (lib : Libraries) (method : Method) (raw : Bytes)
    (hplain : ∀ full, reached lib method raw = some full →
      ∀ b ∈ full, b ≠ 63 ∧ b ≠ 35 ∧ b ≠ 37 ∧ b ≠ 46) : Metered lib method raw :=
  metered_of_not_disguise fun full hfull _ hendpoint =>
    not_disguise_of_plain (hplain full hfull) hendpoint

/-! ## The paths that pass the meter by -/

/-- The libraries as they treat printable ASCII text.  The dot segments go as in RFC 3986;
httpx leaves no slash behind a last segment that is one. -/
def rfc3986 : Libraries where
  text := id
  accepts full := full.all fun b => 32 ≤ b && b ≠ 127
  removeDots := Uri.removeDotSegments
  removeDots_of_no_dot _ h := Uri.removeDotSegments_of_no_dot h
  safe b := 33 ≤ b && b ≤ 126 && !(ascii "\"#<>?`\x7b\x7d").contains b

/-- A posted `/api/solve%3Fx` reaches `/api/solve` of a worker and is not
metered. -/
theorem escaped_question_mark_unmetered :
    ¬ ∀ (method : Method) (raw : Bytes), Metered rfc3986 method raw := by
  intro hclaim
  have hreached : reached rfc3986 .post (ascii "/api/solve%3Fx") =
      some (ascii "/api/solve?x") := by decide
  have hworker : workerPath rfc3986 (ascii "/api/solve?x") = some (ascii "/api/solve") := by
    decide
  have hendpoint : EngineEndpoint .post (ascii "/api/solve") := Or.inl (by decide)
  exact hclaim .post _ _ hreached _ hendpoint hworker (by decide)

-- a fragment, a second escape, and a dot segment
example : (["/api/solve#", "/api/%73olve", "/api/x/../solve"].map fun text =>
    (proxy .post (ascii text), workerPath rfc3986 (ascii text))) =
      List.replicate 3 (.passthrough, some (ascii "/api/solve")) := by decide

end Proxy

end OpendssGateway
