import OpendssGateway.Gateway.Admission
import OpendssGateway.Gateway.Dumps
import OpendssGateway.Gateway.Email
import OpendssGateway.Library.Table

/-!
# The headers of a forwarded request

`upstream_headers` filters the client's headers by their names in lower
case, collects them in a dict, whose keys are the names as they are, and
sets two more.

* `upstream_headers_items` is what the dict holds.
* `limits_header_is_the_gateways`: whatever the client sends, the worker
  gets one limits header, with the JSON of the caller's plan, and the
  client's copies of it and of the dropped headers change nothing.

`str.format` and the numbers in a message are left to `Formatting`.
-/

namespace OpendssGateway

/-- The headers of a request, with the names as they came. -/
abbrev HeaderList := List (PyStr × PyStr)

/-- A dict with text for keys. -/
abbrev PyDict (α : Type) := Table (Prod.fst : PyStr × α → PyStr)

/-- `str.lower` of a header name, which is in Latin-1. -/
def lowerName (name : PyStr) : PyStr :=
  name.map fun c => if (65 ≤ c ∧ c ≤ 90) ∨ (192 ≤ c ∧ c ≤ 222 ∧ c ≠ 215) then c + 32 else c

def HOP_BY_HOP : List PyStr :=
  [py "connection", py "keep-alive", py "proxy-authenticate", py "proxy-authorization", py "te",
    py "trailers", py "transfer-encoding", py "upgrade", py "host", py "content-length",
    py "content-encoding"]

def PRIVATE : List PyStr :=
  [py "cookie", py "authorization"]

/-! ## The plan block -/

/-- `str.format` with keyword arguments, and the text of a number of seconds. -/
structure Formatting where
  format : PyStr → List (String × PyStr) → Except PyError PyStr
  /-- `_minutes` -/
  minutes : ℚ → PyStr

/-- `Plan`, with what the banner and the worker read. -/
structure FullPlan extends Plan where
  name : PyStr
  limits : PyDict Json
  message : PyStr
  links : List (PyDict PyStr)

/-- `period_phrase`. -/
def FullPlan.periodPhrase (plan : FullPlan) : PyStr :=
  if plan.budgetPeriod = "month" then py "this month" else py "today"

/-- The dict of `describe`. -/
structure PlanBlock where
  name : PyStr
  message : Json
  links : List (PyDict PyStr)

/-- `Plan.describe`. -/
def FullPlan.describe (fmt : Formatting) (plan : FullPlan) (usedSeconds : ℚ) :
    Except PyError PlanBlock := do
  let message ←
    match plan.budgetSeconds with
    | some budget =>
      if budget = 0 then .ok plan.message
      else fmt.format plan.message [("used", fmt.minutes usedSeconds),
        ("budget", fmt.minutes budget), ("period", plan.periodPhrase)]
    | none => .ok plan.message
  .ok { name := plan.name, message := (Json.str message).or .null, links := plan.links }

/-- `not link["url"].startswith("/auth/")`. -/
def keepsLink (link : PyDict PyStr) : Except PyError Bool :=
  match link.find? (py "url") with
  | some url => .ok !((py "/auth/").isPrefixOf url.2)
  | none => .error .keyError

/-- The list comprehension over `block["links"]`. -/
def filterLinks : List (PyDict PyStr) → Except PyError (List (PyDict PyStr))
  | [] => .ok []
  | link :: rest => do
    let keep ← keepsLink link
    let rest ← filterLinks rest
    .ok (if keep then link :: rest else rest)

/-- The settings of a gateway that the headers depend on.  The limits header is no header
that the gateway drops, nor the request id. -/
structure HeaderConfig where
  limits_header : PyStr
  signin_available : Bool
  limits_ok : lowerName limits_header ∉ py "x-request-id" :: (HOP_BY_HOP ++ PRIVATE)

/-- `Gateway.plan_block`. -/
def plan_block (cfg : HeaderConfig) (fmt : Formatting) (plan : FullPlan) (used : ℚ) :
    Except PyError PlanBlock := do
  let block ← plan.describe fmt used
  if cfg.signin_available then .ok block
  else
    let links ← filterLinks block.links
    .ok { block with links := links }

def PlanBlock.toJson (block : PlanBlock) : Json :=
  .obj [(py "name", .str block.name), (py "message", block.message),
    (py "links", .arr (block.links.map fun link =>
      .obj (link.rows.map fun member => (member.1, .str member.2))))]

/-! ## The headers -/

/-- The value of the limits header: `{**plan.limits, "plan": block}` as JSON, for limits that
`json.dumps` can write. -/
def limitsValue (rt : Runtime) (plan : FullPlan) (block : PlanBlock) : PyStr :=
  (Json.obj (plan.limits.put (py "plan", block.toJson)).rows).dumps rt compact

/-- The filter of `upstream_headers`. -/
def HeaderConfig.passes (cfg : HeaderConfig) (name : PyStr) : Bool :=
  !HOP_BY_HOP.contains (lowerName name) && !PRIVATE.contains (lowerName name) &&
    lowerName name != lowerName cfg.limits_header

/-- `Gateway.upstream_headers`. -/
def upstream_headers (cfg : HeaderConfig) (rt : Runtime) (fmt : Formatting)
    (headers : HeaderList) (plan : FullPlan) (used : ℚ) (request_id : PyStr) :
    Except PyError (PyDict PyStr) := do
  let out : PyDict PyStr := Table.ofRows (headers.filter fun header => cfg.passes header.1)
  let block ← plan_block cfg fmt plan used
  let out := out.put (cfg.limits_header, limitsValue rt plan block)
  .ok (out.put (py "X-Request-ID", request_id))

variable {cfg : HeaderConfig} {rt : Runtime} {fmt : Formatting} {headers headers' : HeaderList}
  {plan : FullPlan} {used : ℚ} {request_id : PyStr} {out : PyDict PyStr}

/-- The headers are computed when the plan block is. -/
theorem upstream_headers_eq_ok :
    upstream_headers cfg rt fmt headers plan used request_id = .ok out ↔
      ∃ block, plan_block cfg fmt plan used = .ok block ∧
        out = ((Table.ofRows (headers.filter fun header => cfg.passes header.1)).put
          (cfg.limits_header, limitsValue rt plan block)).put (py "X-Request-ID", request_id) := by
  unfold upstream_headers
  rw [bind_eq_ok]
  constructor
  · rintro ⟨block, hblock, hout⟩
    cases hout
    exact ⟨block, hblock, rfl⟩
  · rintro ⟨block, hblock, rfl⟩
    exact ⟨block, hblock, rfl⟩

/-- The name of the limits header is not the name of the request id. -/
theorem HeaderConfig.limits_ne_request_id (cfg : HeaderConfig) :
    lowerName cfg.limits_header ≠ lowerName (py "X-Request-ID") := by
  intro heq
  apply cfg.limits_ok
  rw [heq]
  decide

/-- The client's headers in a `dict`: the last value of every name that passes. -/
theorem passed_headers_items {header : PyStr × PyStr} :
    header ∈ (Table.ofRows (headers.filter fun other => cfg.passes other.1) : PyDict PyStr) ↔
      cfg.passes header.1 = true ∧
        (headers.filter fun other => other.1 = header.1).getLast? = some header := by
  rw [Table.mem_ofRows, List.filter_filter]
  by_cases hpasses : cfg.passes header.1 = true
  · have hsame : (headers.filter fun other => decide (other.1 = header.1) && cfg.passes other.1) =
        headers.filter fun other => other.1 = header.1 := by
      refine List.filter_congr fun other _ => ?_
      by_cases hkey : other.1 = header.1
      · rw [hkey, hpasses, Bool.and_true]
      · simp [hkey]
    rw [hsame]
    simp [hpasses]
  · have hnil : (headers.filter fun other => decide (other.1 = header.1) && cfg.passes other.1) =
        [] := by
      refine List.filter_eq_nil_iff.2 fun other _ => ?_
      simp only [Bool.and_eq_true, decide_eq_true_eq, not_and]
      intro hkey
      rw [hkey]
      exact hpasses
    rw [hnil]
    simp [hpasses]

/-- What the worker gets: the request id, the limits, and the last value of every name of
the client that passes. -/
theorem upstream_headers_items {block : PlanBlock}
    (hblock : plan_block cfg fmt plan used = .ok block)
    (h : upstream_headers cfg rt fmt headers plan used request_id = .ok out)
    {header : PyStr × PyStr} :
    header ∈ out ↔ header = (py "X-Request-ID", request_id) ∨
      header = (cfg.limits_header, limitsValue rt plan block) ∨
      header.1 ≠ py "X-Request-ID" ∧ cfg.passes header.1 = true ∧
        (headers.filter fun other => other.1 = header.1).getLast? = some header := by
  obtain ⟨block', hblock', rfl⟩ := upstream_headers_eq_ok.1 h
  rw [hblock] at hblock'
  cases hblock'
  have hlimits : cfg.limits_header ≠ py "X-Request-ID" := by
    intro heq
    exact cfg.limits_ne_request_id (by rw [heq])
  rw [Table.mem_put, Table.mem_put, passed_headers_items]
  constructor
  · rintro (rfl | ⟨rfl | ⟨h, -⟩, hne⟩)
    · exact Or.inl rfl
    · exact Or.inr (Or.inl rfl)
    · exact Or.inr (Or.inr ⟨hne, h⟩)
  · rintro (rfl | rfl | ⟨hne, hpasses, hlast⟩)
    · exact Or.inl rfl
    · exact Or.inr ⟨Or.inl rfl, hlimits⟩
    · refine Or.inr ⟨Or.inr ⟨⟨hpasses, hlast⟩, fun heq => ?_⟩, hne⟩
      have heq : header.1 = cfg.limits_header := heq
      rw [heq] at hpasses
      simp [HeaderConfig.passes] at hpasses

/-! ## The limits header -/

/-- The gateway forwards no header of this name. -/
def HeaderConfig.Drops (cfg : HeaderConfig) (name : PyStr) : Prop :=
  lowerName name ∈ HOP_BY_HOP ∨ lowerName name ∈ PRIVATE ∨
    lowerName name = lowerName cfg.limits_header

/-- Two lists of headers are the same but for headers that the gateway drops. -/
inductive SameBut (cfg : HeaderConfig) : HeaderList → HeaderList → Prop
  | nil : SameBut cfg [] []
  | same {headers headers' : HeaderList} (header : PyStr × PyStr) :
      SameBut cfg headers headers' → SameBut cfg (header :: headers) (header :: headers')
  | left {headers headers' : HeaderList} (header : PyStr × PyStr) :
      cfg.Drops header.1 → SameBut cfg headers headers' → SameBut cfg (header :: headers) headers'
  | right {headers headers' : HeaderList} (header : PyStr × PyStr) :
      cfg.Drops header.1 → SameBut cfg headers headers' → SameBut cfg headers (header :: headers')

theorem HeaderConfig.passes_eq_false {name : PyStr} :
    cfg.passes name = false ↔ cfg.Drops name := by
  simp only [HeaderConfig.passes, HeaderConfig.Drops, Bool.and_eq_false_iff, Bool.not_eq_false',
    List.contains_iff_mem, bne_eq_false_iff_eq, or_assoc]

/-- What the gateway drops changes nothing. -/
theorem SameBut.filter_eq (h : SameBut cfg headers headers') :
    (headers.filter fun header => cfg.passes header.1) =
      headers'.filter fun header => cfg.passes header.1 := by
  induction h with
  | nil => rfl
  | same header _ ih => rw [List.filter_cons, List.filter_cons, ih]
  | left header hdrops _ ih =>
    rw [List.filter_cons, HeaderConfig.passes_eq_false.2 hdrops]
    exact ih
  | right header hdrops _ ih =>
    rw [List.filter_cons, HeaderConfig.passes_eq_false.2 hdrops]
    exact ih

/-- The header is no cookie, no authorization and no hop-by-hop header. -/
theorem upstream_headers_allowed {block : PlanBlock}
    (hblock : plan_block cfg fmt plan used = .ok block)
    (h : upstream_headers cfg rt fmt headers plan used request_id = .ok out)
    {header : PyStr × PyStr} (hheader : header ∈ out) :
    lowerName header.1 ∉ HOP_BY_HOP ∧ lowerName header.1 ∉ PRIVATE := by
  rcases (upstream_headers_items hblock h).1 hheader with rfl | rfl | ⟨-, hpasses, -⟩
  · have hid : lowerName (py "X-Request-ID") ∉ HOP_BY_HOP ∧
        lowerName (py "X-Request-ID") ∉ PRIVATE := by decide
    exact hid
  · have hok := cfg.limits_ok
    simp only [List.mem_cons, List.mem_append, not_or] at hok
    exact hok.2
  · have hnot : ¬ cfg.Drops header.1 := fun hdrops => by
      rw [HeaderConfig.passes_eq_false.2 hdrops] at hpasses
      cases hpasses
    exact ⟨fun hhop => hnot (Or.inl hhop), fun hprivate => hnot (Or.inr (Or.inl hprivate))⟩

/-- No header of the client has the name of the limits header, whatever its case. -/
theorem upstream_headers_limits {block : PlanBlock}
    (hblock : plan_block cfg fmt plan used = .ok block)
    (h : upstream_headers cfg rt fmt headers plan used request_id = .ok out) :
    (out.rows.filter fun header => lowerName header.1 = lowerName cfg.limits_header) =
      [(cfg.limits_header, limitsValue rt plan block)] := by
  refine Table.filter_eq_singleton
    ((upstream_headers_items hblock h).2 (Or.inr (Or.inl rfl))) fun header hheader => ?_
  rw [decide_eq_true_eq]
  constructor
  · intro hname
    rcases (upstream_headers_items hblock h).1 hheader with rfl | rfl | ⟨-, hpasses, -⟩
    · exact absurd hname.symm cfg.limits_ne_request_id
    · rfl
    · rw [HeaderConfig.passes_eq_false.2 (Or.inr (Or.inr hname))] at hpasses
      cases hpasses
  · rintro rfl
    rfl

/-- Whatever the client sends, the worker gets one limits header, which holds the JSON of
the caller's plan, and no cookie, authorization or hop-by-hop header.  Requests that differ
only in headers the gateway drops are forwarded with the same headers. -/
theorem limits_header_is_the_gateways (cfg : HeaderConfig) (rt : Runtime) (fmt : Formatting)
    (plan : FullPlan) (used : ℚ) (request_id : PyStr) :
    (∀ (headers : HeaderList) (block : PlanBlock), plan_block cfg fmt plan used = .ok block →
      ∃ out, upstream_headers cfg rt fmt headers plan used request_id = .ok out ∧
        (out.rows.filter fun header => lowerName header.1 = lowerName cfg.limits_header) =
          [(cfg.limits_header, limitsValue rt plan block)] ∧
        ∀ header ∈ out, lowerName header.1 ∉ HOP_BY_HOP ∧ lowerName header.1 ∉ PRIVATE) ∧
    ∀ headers headers' : HeaderList, SameBut cfg headers headers' →
      upstream_headers cfg rt fmt headers plan used request_id =
        upstream_headers cfg rt fmt headers' plan used request_id := by
  constructor
  · intro headers block hblock
    obtain ⟨out, hout⟩ : ∃ out,
        upstream_headers cfg rt fmt headers plan used request_id = .ok out :=
      ⟨_, upstream_headers_eq_ok.2 ⟨block, hblock, rfl⟩⟩
    exact ⟨out, hout, upstream_headers_limits hblock hout,
      fun _ hheader => upstream_headers_allowed hblock hout hheader⟩
  · intro headers headers' h
    unfold upstream_headers
    rw [h.filter_eq]

/-- A gateway with the default name of the limits header. -/
def plainHeaders : HeaderConfig where
  limits_header := py "X-OpenDSS-Limits"
  signin_available := true
  limits_ok := by decide

/-- The guests, with a message that has no placeholder. -/
def guestPlan : FullPlan where
  id := "guest"
  priority := 10
  budgetSeconds := none
  name := py "Guest"
  limits := Table.ofRows [(py "maxNodes", .int 10)]
  message := py "No account needed."
  links := []

def plainFormatting : Formatting where
  format := fun template _ => .ok template
  minutes := fun _ => []

theorem limits_header_is_the_gateways_guest :
    ∃ out, upstream_headers plainHeaders plainRuntime plainFormatting
        [(py "x-opendss-LIMITS", py "1"), (py "Cookie", py "a=b")] guestPlan 0 (py "r1") =
        .ok out ∧
      (out.rows.filter fun header => lowerName header.1 = lowerName (py "X-OpenDSS-Limits")) =
        [(py "X-OpenDSS-Limits", limitsValue plainRuntime guestPlan
          ⟨py "Guest", .str (py "No account needed."), []⟩)] := by
  obtain ⟨out, hout, hlimits, -⟩ := (limits_header_is_the_gateways plainHeaders plainRuntime
    plainFormatting guestPlan 0 (py "r1")).1
    [(py "x-opendss-LIMITS", py "1"), (py "Cookie", py "a=b")] _ rfl
  exact ⟨out, hout, hlimits⟩

end OpendssGateway
