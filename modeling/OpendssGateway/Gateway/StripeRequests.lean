import OpendssGateway.Gateway.Loads
import OpendssGateway.Gateway.Origins

/-!
# The requests to Stripe

`_post`, `_get`, `create_checkout` and `create_portal` of `billing.py`: the
fields of a request, and what a reply makes of it.

* `field_client_reference_id` and `field_customer` read the fields that say
  whom a checkout is for.
* `raised_is_fixed`: the text of a `StripeError` is one of the texts of the code,
  whatever Stripe replies.
-/

namespace OpendssGateway

namespace Billing

/-- `Stripe`, without the webhooks. -/
structure StripeConfig where
  secret_key : PyStr
  price_id : PyStr
  automatic_tax : Bool

def StripeConfig.enabled (stripe : StripeConfig) : Bool :=
  !stripe.secret_key.isEmpty && !stripe.price_id.isEmpty

/-! ## Fields -/

/-- The fields of a request for a checkout page, in their order. -/
def checkoutData (rt : Runtime) (stripe : StripeConfig) (user_id : Int) (email : PyStr)
    (customer_id : Option PyStr) (success_url cancel_url : PyStr) : List (PyStr × PyStr) :=
  let known := (customer_id.filter fun id => !id.isEmpty)
  [(py "mode", py "subscription"),
    (py "line_items[0][price]", stripe.price_id),
    (py "line_items[0][quantity]", py "1"),
    (py "success_url", success_url),
    (py "cancel_url", cancel_url),
    (py "client_reference_id", (Json.int user_id).toStr rt),
    (py "metadata[user_id]", (Json.int user_id).toStr rt),
    (py "allow_promotion_codes", py "true")] ++
  (match known with
    | some customer_id => [(py "customer", customer_id)]
    | none => [(py "customer_email", email)]) ++
  if stripe.automatic_tax then
    (py "automatic_tax[enabled]", py "true") ::
      if known.isSome then [(py "customer_update[address]", py "auto")] else []
  else []

/-- The fields of a request for the customer portal. -/
def portalData (customer_id return_url : PyStr) : List (PyStr × PyStr) :=
  [(py "customer", customer_id), (py "return_url", return_url)]

/-- `{public_url}/billing/success?session_id={CHECKOUT_SESSION_ID}`, where Stripe puts the
id in. -/
def successUrl (public_url : PyStr) : PyStr :=
  public_url ++ py "/billing/success?session_id=\x7bCHECKOUT_SESSION_ID\x7d"

def accountUrl (public_url : PyStr) : PyStr :=
  public_url ++ py "/account"

/-- The request that a page makes, as its path and its fields. -/
def Page.request (rt : Runtime) (stripe : StripeConfig) (public_url : PyStr) :
    Page → Option (String × List (PyStr × PyStr))
  | .redirect _ => none
  | .message _ => none
  | .create_checkout user_id email customer_id =>
    some ("/v1/checkout/sessions", checkoutData rt stripe user_id email customer_id
      (successUrl public_url) (accountUrl public_url))
  | .create_portal customer_id =>
    some ("/v1/billing_portal/sessions", portalData customer_id (accountUrl public_url))

section Fields

variable {rt : Runtime} {stripe : StripeConfig} {user_id : Int} {email : PyStr}
  {customer_id : Option PyStr} {success_url cancel_url : PyStr}

theorem field_client_reference_id :
    (checkoutData rt stripe user_id email customer_id success_url cancel_url).lookup
      (py "client_reference_id") = some ((Json.int user_id).toStr rt) := by
  unfold checkoutData
  simp only [List.cons_append, List.lookup_cons, beq_self_eq_true]
  rfl

/-- The customer that is sent is the one that is known. -/
theorem field_customer :
    (checkoutData rt stripe user_id email customer_id success_url cancel_url).lookup
      (py "customer") = customer_id.filter fun id => !id.isEmpty := by
  unfold checkoutData
  dsimp only
  generalize customer_id.filter (fun id => !id.isEmpty) = known
  cases known with
  | some id => rfl
  | none => cases stripe.automatic_tax <;> rfl

end Fields

/-! ## Replies -/

/-- What `httpx` gives back: an `HTTPError`, or a response with the text of its body. -/
inductive StripeReply
  | httpError
  | response (status_code : Nat) (body : PyStr)

/-- What a request raises: a `StripeError` with its text, or another exception. -/
inductive Raised
  | stripeError (text : String)
  | other (e : PyError)

/-- `billing_webhook` and `billing_success` look at the type only. -/
def Raised.toFetchError : Raised → FetchError
  | .stripeError _ => .stripeError
  | .other e => .other e

def UNREACHABLE : String :=
  "Could not reach the payment provider. Try again in a moment."

/-- A reply as `res.json()`, or the text for a refusal.  All that `json.loads` raises is taken
for a `ValueError`, since nothing that calls this tells its exceptions apart. -/
def sent (rt : Runtime) (refused : String) : StripeReply → Except Raised Json
  | .httpError => .error (.stripeError UNREACHABLE)
  | .response status_code body =>
    if 400 ≤ status_code then .error (.stripeError refused)
    else (JsonText.loads rt body).elim (.error (.other .valueError)) .ok

def post (rt : Runtime) : StripeReply → Except Raised Json :=
  sent rt ("The payment provider refused the request. This has been logged; " ++
    "try again later or email support.")

def get (rt : Runtime) : StripeReply → Except Raised Json :=
  sent rt "The payment provider refused the request. Try again in a moment."

/-- `session.get("url")`, which has to be there. -/
def pageUrl (missing : String) (session : Json) : Except Raised Json :=
  match session.get "url" with
  | .error e => .error (.other e)
  | .ok url => if url.truthy then .ok url else .error (.stripeError missing)

def create_checkout (rt : Runtime) (reply : StripeReply) : Except Raised Json :=
  post rt reply >>= pageUrl "The payment provider did not return a checkout page."

def create_portal (rt : Runtime) (reply : StripeReply) : Except Raised Json :=
  post rt reply >>= pageUrl "The payment provider did not return a billing page."

/-- The answer of `billing_checkout` and `billing_portal` to a visitor: the page of Stripe, or a
page with the text of the error. -/
inductive Replied
  | redirect (url : Json)
  | message (status : Nat) (text : String)
  | failed (e : PyError)

def replied : Except Raised Json → Replied
  | .ok url => .redirect url
  | .error (.stripeError text) => .message 503 text
  | .error (.other e) => .failed e

/-- The texts of `StripeError` in the requests. -/
def ERROR_TEXTS : List String :=
  [UNREACHABLE,
    "The payment provider refused the request. This has been logged; " ++
      "try again later or email support.",
    "The payment provider refused the request. Try again in a moment.",
    "The payment provider did not return a checkout page.",
    "The payment provider did not return a billing page."]

section Replies

variable {rt : Runtime} {reply : StripeReply} {text : String}

theorem sent_raises {refused : String} (h : sent rt refused reply = .error (.stripeError text)) :
    text = UNREACHABLE ∨ text = refused := by
  unfold sent at h
  split at h
  · cases h
    exact Or.inl rfl
  · rename_i status_code body
    split_ifs at h
    · cases h
      exact Or.inr rfl
    · cases hloads : JsonText.loads rt body <;> rw [hloads] at h <;> cases h

theorem pageUrl_raises {missing : String} {session : Json}
    (h : pageUrl missing session = .error (.stripeError text)) : text = missing := by
  unfold pageUrl at h
  split at h
  · cases h
  · split_ifs at h
    cases h
    rfl

theorem posted_raises {missing : String}
    (h : post rt reply >>= pageUrl missing = .error (.stripeError text)) :
    text = missing ∨ post rt reply = .error (.stripeError text) := by
  cases hpost : post rt reply with
  | error e =>
    rw [hpost] at h
    cases h
    exact Or.inr rfl
  | ok session =>
    rw [hpost] at h
    exact Or.inl (pageUrl_raises h)

/-- No text of Stripe's is shown. -/
theorem raised_is_fixed
    (h : create_checkout rt reply = .error (.stripeError text) ∨
      create_portal rt reply = .error (.stripeError text) ∨
      get rt reply = .error (.stripeError text)) : text ∈ ERROR_TEXTS := by
  have hpost : post rt reply = .error (.stripeError text) → text ∈ ERROR_TEXTS := by
    intro hpost
    rcases sent_raises hpost with rfl | rfl <;> simp [ERROR_TEXTS]
  rcases h with h | h | h
  · rcases posted_raises h with rfl | hraised
    · simp [ERROR_TEXTS]
    · exact hpost hraised
  · rcases posted_raises h with rfl | hraised
    · simp [ERROR_TEXTS]
    · exact hpost hraised
  · rcases sent_raises h with rfl | rfl <;> simp [ERROR_TEXTS]

end Replies

end Billing

end OpendssGateway
