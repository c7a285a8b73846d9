import OpendssGateway.Gateway.Headers
import OpendssGateway.Gateway.Proxy

/-!
# Request ids

`request_id_for` takes the client's first `x-request-id` if it looks safe,
and makes an id otherwise.  The dict of `upstream_headers` keeps the
client's own header beside the gateway's, because the two names differ in
case.  So the worker sees the client's last `x-request-id` as it came.

`id_kept_iff` says for which headers this is the id of the gateway.
-/

namespace OpendssGateway

/-- `[A-Za-z0-9._:-]`. -/
def isIdChar (c : Nat) : Bool :=
  (65 ≤ c && c ≤ 90) || (97 ≤ c && c ≤ 122) || (48 ≤ c && c ≤ 57) || c == 46 || c == 95 ||
    c == 58 || c == 45

/-- `_SAFE_REQUEST_ID.match`.  The `$` also matches before a newline at the end. -/
def matchesSafe (text : PyStr) : Bool :=
  let run := text.takeWhile isIdChar
  let rest := text.dropWhile isIdChar
  1 ≤ run.length && run.length ≤ 64 && (rest == [] || rest == [10])

/-- `secrets.token_hex(6)`. -/
structure Token where
  text : PyStr
  length_ok : text.length = 12
  hex_ok : ∀ c ∈ text, (48 ≤ c ∧ c ≤ 57) ∨ (97 ≤ c ∧ c ≤ 102)

/-- The values of the client's `x-request-id`. -/
def clientIds (headers : HeaderList) : List PyStr :=
  (headers.filter fun header => header.1 = py "x-request-id").map Prod.snd

/-- `request_id_for`. -/
def request_id_for (headers : HeaderList) (token : Token) : PyStr :=
  let incoming := (clientIds headers).head?.getD []
  if matchesSafe incoming then incoming else py "gw-" ++ token.text

/-- What a request leaves with the worker and in the ledger. -/
structure Sent where
  headers : PyDict PyStr
  /-- the `request_id` of `_record`, which a pass-through does not call -/
  recorded : Option PyStr

/-- `proxy`, as far as the headers and the id go. -/
def proxied (cfg : HeaderConfig) (rt : Runtime) (fmt : Formatting) (handler : Proxy.Handler)
    (headers : HeaderList) (plan : FullPlan) (used : ℚ) (token : Token) :
    Except PyError Sent := do
  let request_id := request_id_for headers token
  let out ← upstream_headers cfg rt fmt headers plan used request_id
  match handler with
  | .engineCall => .ok { headers := out, recorded := some request_id }
  | .streamCall => .ok { headers := out, recorded := some request_id }
  | .passthrough => .ok { headers := out, recorded := none }

/-! ## Safe ids -/

/-- One to 64 of the characters. -/
def SafeId (id : PyStr) : Prop :=
  1 ≤ id.length ∧ id.length ≤ 64 ∧ ∀ c ∈ id, isIdChar c = true

/-- What matches is safe, but for a newline at its end. -/
theorem matchesSafe_iff {text : PyStr} :
    matchesSafe text = true ↔ SafeId text ∨ ∃ id, SafeId id ∧ text = id ++ [10] := by
  have happend := List.takeWhile_append_dropWhile (p := isIdChar) (l := text)
  have hall : ∀ c ∈ text.takeWhile isIdChar, isIdChar c = true :=
    fun c hc => List.mem_takeWhile_imp hc
  simp only [matchesSafe, Bool.and_eq_true, Bool.or_eq_true, decide_eq_true_eq, beq_iff_eq]
  constructor
  · rintro ⟨⟨hlow, hhigh⟩, hrest | hrest⟩
    · rw [hrest, List.append_nil] at happend
      rw [happend] at hlow hhigh hall
      exact Or.inl ⟨hlow, hhigh, hall⟩
    · rw [hrest] at happend
      exact Or.inr ⟨_, ⟨hlow, hhigh, hall⟩, happend.symm⟩
  · rintro (⟨hlow, hhigh, hchars⟩ | ⟨id, ⟨hlow, hhigh, hchars⟩, rfl⟩)
    · rw [List.takeWhile_eq_self_iff.2 hchars, List.dropWhile_eq_nil_iff.2 hchars]
      exact ⟨⟨hlow, hhigh⟩, Or.inl rfl⟩
    · rw [List.takeWhile_append_of_pos hchars, List.dropWhile_append_of_pos hchars,
        show [10].takeWhile isIdChar = [] from rfl, show [10].dropWhile isIdChar = [10] from rfl,
        List.append_nil]
      exact ⟨⟨hlow, hhigh⟩, Or.inr rfl⟩

/-- An id of the gateway is safe. -/
theorem safeId_token (token : Token) : SafeId (py "gw-" ++ token.text) := by
  have hprefix : ∀ c ∈ py "gw-", isIdChar c = true := by decide
  have hlength : (py "gw-" ++ token.text).length = 15 := by
    rw [List.length_append, token.length_ok]
    rfl
  refine ⟨by omega, by omega, fun c hc => ?_⟩
  rcases List.mem_append.1 hc with hc | hc
  · exact hprefix c hc
  · have hhex := token.hex_ok c hc
    simp only [isIdChar, Bool.or_eq_true, Bool.and_eq_true, decide_eq_true_eq, beq_iff_eq]
    omega

/-! ## The ids that the worker sees -/

variable {cfg : HeaderConfig} {rt : Runtime} {fmt : Formatting} {handler : Proxy.Handler}
  {headers : HeaderList} {plan : FullPlan} {used : ℚ} {token : Token} {sent : Sent}

/-- Every `x-request-id` of the worker is this id, which is safe and the one recorded. -/
def IdKept (sent : Sent) (id : PyStr) : Prop :=
  (∀ header ∈ sent.headers, lowerName header.1 = py "x-request-id" → header.2 = id) ∧
    SafeId id ∧ ∀ recorded ∈ sent.recorded, recorded = id

/-- The client sends no id, or its first id is safe and its last one the same, or its first
id is refused and its last one is the id that the gateway makes. -/
def IdsAgree (headers : HeaderList) (token : Token) : Prop :=
  clientIds headers = [] ∨
    (∃ id, (clientIds headers).head? = some id ∧ SafeId id ∧
      (clientIds headers).getLast? = some id) ∨
    ∃ id, (clientIds headers).head? = some id ∧ matchesSafe id = false ∧
      (clientIds headers).getLast? = some (py "gw-" ++ token.text)

/-- All three ways forward the headers of `upstream_headers`, and record the same id. -/
theorem proxied_eq_ok
    (h : proxied cfg rt fmt handler headers plan used token = .ok sent) :
    upstream_headers cfg rt fmt headers plan used (request_id_for headers token) =
        .ok sent.headers ∧
      ∀ recorded ∈ sent.recorded, recorded = request_id_for headers token := by
  obtain ⟨out, hout, hsent⟩ := bind_eq_ok.1 h
  cases handler with
  | engineCall | streamCall =>
    cases hsent
    exact ⟨hout, fun recorded hrecorded => (Option.mem_some_iff.1 hrecorded).symm⟩
  | passthrough =>
    cases hsent
    exact ⟨hout, fun recorded hrecorded => by cases hrecorded⟩

theorem HeaderConfig.passes_request_id (cfg : HeaderConfig) :
    cfg.passes (py "x-request-id") = true := by
  by_contra hpasses
  rw [Bool.not_eq_true, HeaderConfig.passes_eq_false] at hpasses
  rcases hpasses with h | h | h
  · exact absurd h (by decide)
  · exact absurd h (by decide)
  · apply cfg.limits_ok
    rw [← h]
    decide

/-- The headers of the worker with this name: the gateway's, and the client's last one. -/
theorem sent_ids (hlower : ∀ header ∈ headers, lowerName header.1 = header.1) {id : PyStr}
    {out : PyDict PyStr} (h : upstream_headers cfg rt fmt headers plan used id = .ok out)
    {value : PyStr} :
    (∃ header ∈ out, lowerName header.1 = py "x-request-id" ∧ header.2 = value) ↔
      value = id ∨ (clientIds headers).getLast? = some value := by
  obtain ⟨block, hblock, -⟩ := upstream_headers_eq_ok.1 h
  have hitems := fun header => @upstream_headers_items cfg rt fmt headers plan used id out block
    hblock h header
  have hupper : lowerName (py "X-Request-ID") = py "x-request-id" := by decide
  have hsame : lowerName (py "x-request-id") = py "x-request-id" := by decide
  have hne : py "x-request-id" ≠ py "X-Request-ID" := by decide
  have hlast : ∀ name : PyStr, (headers.filter fun other => other.1 = name).getLast? =
      some (name, value) ↔
        ((headers.filter fun other => other.1 = name).map Prod.snd).getLast? = some value := by
    intro name
    rw [List.getLast?_map, Option.map_eq_some_iff]
    constructor
    · intro hsome
      exact ⟨_, hsome, rfl⟩
    · rintro ⟨⟨name', value'⟩, hsome, rfl⟩
      have hmem := List.mem_of_getLast? hsome
      have hname : name' = name := by simpa using (List.mem_filter.1 hmem).2
      rw [hsome, hname]
  constructor
  · rintro ⟨header, hheader, hname, rfl⟩
    rcases (hitems header).1 hheader with rfl | rfl | ⟨-, -, hclient⟩
    · exact Or.inl rfl
    · exfalso
      apply cfg.limits_ok
      rw [show lowerName cfg.limits_header = py "x-request-id" from hname]
      exact List.mem_cons_self ..
    · -- the client's names are in lower case
      have hmem := (List.mem_filter.1 (List.mem_of_getLast? hclient)).1
      have hkey : header.1 = py "x-request-id" := (hlower header hmem).symm.trans hname
      right
      unfold clientIds
      rw [← hkey]
      exact (hlast header.1).1 hclient
  · rintro (rfl | hclient)
    · exact ⟨(py "X-Request-ID", value), (hitems _).2 (Or.inl rfl), hupper, rfl⟩
    · refine ⟨(py "x-request-id", value), (hitems _).2 (Or.inr (Or.inr ⟨hne,
        cfg.passes_request_id, ?_⟩)), hsame, rfl⟩
      exact (hlast (py "x-request-id")).2 hclient

/-- The worker sees no id but the gateway's when the client's last one is the same. -/
theorem sent_ids_agree_iff (hlower : ∀ header ∈ headers, lowerName header.1 = header.1)
    {id : PyStr} {out : PyDict PyStr}
    (hout : upstream_headers cfg rt fmt headers plan used id = .ok out) :
    (∀ header ∈ out, lowerName header.1 = py "x-request-id" → header.2 = id) ↔
      ∀ value, (clientIds headers).getLast? = some value → value = id := by
  constructor
  · intro hall value hvalue
    obtain ⟨header, hheader, hname, rfl⟩ := (sent_ids hlower hout).2 (Or.inr hvalue)
    exact hall header hheader hname
  · intro hall header hheader hname
    rcases (sent_ids hlower hout).1 ⟨header, hheader, hname, rfl⟩ with heq | hvalue
    · exact heq
    · exact hall _ hvalue

/-- Whichever way a request is forwarded, the worker sees no id but the gateway's, which is
safe and the one in the ledger, when the client's ids agree with it, and only then. -/
theorem id_kept_iff (hlower : ∀ header ∈ headers, lowerName header.1 = header.1)
    (h : proxied cfg rt fmt handler headers plan used token = .ok sent) :
    IdKept sent (request_id_for headers token) ↔ IdsAgree headers token := by
  obtain ⟨hout, hrecorded⟩ := proxied_eq_ok h
  unfold IdKept
  rw [sent_ids_agree_iff hlower hout]
  unfold IdsAgree request_id_for
  dsimp only
  cases hclient : clientIds headers with
  | nil =>
    have hmatch : matchesSafe [] = false := rfl
    simp only [List.head?_nil, Option.getD_none, hmatch, Bool.false_eq_true, if_false, true_or,
      iff_true]
    refine ⟨by simp, safeId_token token, fun recorded hr => ?_⟩
    rw [hrecorded recorded hr]
    simp [request_id_for, hclient, hmatch]
  | cons first rest =>
    have hrecorded' : ∀ recorded ∈ sent.recorded, recorded =
        if matchesSafe first = true then first else py "gw-" ++ token.text := by
      intro recorded hr
      rw [hrecorded recorded hr]
      simp [request_id_for, hclient]
    obtain ⟨last, hlast⟩ : ∃ last, (first :: rest).getLast? = some last :=
      ⟨_, List.getLast?_eq_some_getLast (List.cons_ne_nil first rest)⟩
    simp only [List.head?_cons, Option.getD_some, hlast, Option.some.injEq, reduceCtorEq, false_or,
      exists_eq_left', forall_eq']
    by_cases hmatch : matchesSafe first = true
    · simp only [hmatch, if_true, Bool.true_eq_false, false_and, or_false] at hrecorded' ⊢
      constructor
      · rintro ⟨heq, hsafe, -⟩
        exact ⟨hsafe, heq⟩
      · rintro ⟨hsafe, heq⟩
        exact ⟨heq, hsafe, hrecorded'⟩
    · have hunsafe : ¬ SafeId first := fun hsafe => hmatch (matchesSafe_iff.2 (Or.inl hsafe))
      rw [Bool.not_eq_true] at hmatch
      simp only [hmatch, Bool.false_eq_true, if_false, hunsafe, false_and, true_and,
        false_or] at hrecorded' ⊢
      constructor
      · rintro ⟨heq, -⟩
        exact heq
      · intro heq
        exact ⟨heq, safeId_token token, hrecorded'⟩

/-- Six zero bytes. -/
def zeroToken : Token where
  text := py "000000000000"
  length_ok := by decide
  hex_ok := by decide

/-- A request with one id. -/
def withId (id : String) : HeaderList :=
  [(py "accept", py "*/*"), (py "x-request-id", py id)]

theorem id_kept_iff_abc :
    ∃ sent, proxied plainHeaders plainRuntime plainFormatting .engineCall (withId "abc") guestPlan 0
        zeroToken = .ok sent ∧ IdKept sent (py "abc") := by
  have hsafe : SafeId (py "abc") := by
    unfold SafeId
    decide
  refine ⟨_, rfl, ?_⟩
  exact (@id_kept_iff plainHeaders plainRuntime plainFormatting .engineCall (withId "abc") guestPlan
    0 zeroToken _ (by decide) rfl).2 (Or.inr (Or.inl ⟨py "abc", rfl, hsafe, rfl⟩))

/-- An id with a space is refused, and is sent to the worker. -/
theorem refused_id_is_sent :
    ¬ ∀ (cfg : HeaderConfig) (rt : Runtime) (fmt : Formatting) (handler : Proxy.Handler)
      (headers : HeaderList) (plan : FullPlan) (used : ℚ) (token : Token) (sent : Sent),
      (∀ header ∈ headers, lowerName header.1 = header.1) →
      proxied cfg rt fmt handler headers plan used token = .ok sent →
      IdKept sent (request_id_for headers token) := by
  intro hclaim
  have hkept := hclaim plainHeaders plainRuntime plainFormatting .engineCall (withId "a b")
    guestPlan 0 zeroToken _ (by decide) rfl
  have hid : request_id_for (withId "a b") zeroToken ≠ py "a b" := by decide
  apply hid
  symm
  refine hkept.1 (py "x-request-id", py "a b") ?_ (by decide)
  refine Table.mem_def.2 ?_
  decide +kernel

end OpendssGateway
