import Mathlib.Algebra.Order.Floor.Ring
import Mathlib.Data.Rat.Floor
import OpendssGateway.Gateway.Email
import OpendssGateway.Gateway.Store
import OpendssGateway.Library.Signer
import OpendssGateway.Library.Transition

/-!
# Signing in and out

The tokens and cookies of `auth.py`, the table `magic_tokens`, and the
routes of `app.py` that sign a user in, refresh a session, use it or end
it.  A `Site` is what they share.

A client may send any text in any cookie, field or parameter.  The clock
is read once by every route, and it runs between them.  Tokens carry whole
seconds.

A callback of OAuth awaits the provider, and a request that is forwarded
awaits the worker.  Both are in flight meanwhile, and everything else may
run.  The mail of a magic link is awaited at the end of its route, where
nothing is left to be done.

`cookies`, `consumed`, `exchanged` and `entered` are history: the session
cookies that were issued and why, the nonces that were consumed, the
identities that a provider confirmed, and the nonces that signed someone
in.
-/

namespace OpendssGateway

namespace Auth

/-! ## Tokens -/

/-- One salt for each purpose. -/
inductive Salt
  | session
  | csrf
  | magic
  | oauthState
  deriving DecidableEq

inductive Payload
  | session (user_id epoch : Int)
  | csrf (user_id : Int) (nonce : PyStr)
  | magic (email nonce : PyStr)
  | oauthState (provider nonce : PyStr)
  deriving DecidableEq

/-- The dict that is signed. -/
def Payload.dict : Payload → Json
  | .session user_id epoch => .obj [(py "u", .int user_id), (py "e", .int epoch)]
  | .csrf user_id nonce => .obj [(py "u", .int user_id), (py "n", .str nonce)]
  | .magic email nonce => .obj [(py "e", .str email), (py "n", .str nonce)]
  | .oauthState provider nonce => .obj [(py "p", .str provider), (py "n", .str nonce)]

abbrev Token := Signer.Token Salt Payload

/-- What a client sends. -/
abbrev Text := Signer.Text Salt Payload PyStr

/-- The text is not empty. -/
def truthy : Text → Bool
  | .token _ => true
  | .other s => !s.isEmpty

/-- `secrets.compare_digest`, which raises for a text that is not ASCII.  Tokens are. -/
def isAscii : Text → Bool
  | .token _ => true
  | .other s => s.all fun c => c < 128

def SESSION_MAX_AGE : Int := 30 * 86400
def SESSION_REFRESH_AFTER : ℚ := 86400
def MAGIC_MAX_AGE : Int := 15 * 60
def STATE_MAX_AGE : Int := 10 * 60
def CSRF_MAX_AGE : Int := 86400

/-! ## The table of magic links -/

/-- A row of `magic_tokens`. -/
structure MagicToken where
  nonce : PyStr
  email : PyStr
  created : ℚ
  used : Option ℚ

/-- `Users.issue_magic`. -/
def issue_magic (rt : Runtime) (rows : Table MagicToken.nonce) (now : ℚ) (nonce email : PyStr) :
    Except PyError (Table MagicToken.nonce) := do
  let _ ← bindText nonce
  let _ ← bindText (rt.lower email)
  if h : rows.find? nonce = none then
    .ok ((rows.insert { nonce, email := rt.lower email, created := now, used := none } h).filter
      fun row => !decide (row.created < now - 86400))
  else .error .integrityError

/-- `Users.consume_magic`: the rows after the update, if it changed one. -/
def consume_magic (rt : Runtime) (rows : Table MagicToken.nonce) (now : ℚ) (nonce email : PyStr) :
    Except PyError (Option (Table MagicToken.nonce)) := do
  let _ ← bindText nonce
  let _ ← bindText (rt.lower email)
  match rows.find? nonce with
  | some row =>
    if row.email = rt.lower email ∧ row.used = none then
      .ok (some (rows.modify nonce (fun row => { row with used := some now }) fun _ h => h))
    else .ok none
  | none => .ok none

/-- `Users.bump_epoch`. -/
def bump_epoch (db : Store) (user_id : Int) : Store :=
  Users.update db user_id (fun user => { user with session_epoch := user.session_epoch + 1 })
    fun _ => rfl

/-- What an operator sets in the table. -/
def set_disabled (db : Store) (user_id : Int) (disabled : Bool) : Store :=
  Users.update db user_id (fun user => { user with disabled }) fun _ => rfl

/-! ## The site -/

inductive Provider
  | github
  | google
  deriving DecidableEq

def Provider.id : Provider → PyStr
  | .github => py "github"
  | .google => py "google"

def Provider.label : Provider → String
  | .github => "GitHub"
  | .google => "Google"

structure AuthConfig where
  email_signin : Bool
  providers : List Provider

/-- The provider with an id, if it is enabled. -/
def AuthConfig.provider (cfg : AuthConfig) (provider_id : PyStr) : Option Provider :=
  cfg.providers.find? fun provider => provider.id = provider_id

structure SessionClaims where
  user_id : Int
  epoch : Int
  issued_at : Int

/-- What `identify` says of a session, apart from the plan that admission reads. -/
structure Caller where
  user : Option User
  refresh_session : Bool

/-- Why a session cookie was issued. -/
inductive Cause
  | magic (nonce address : PyStr)
  | oauth (provider subject : PyStr)
  /-- `finish` of a request with a cookie -/
  | refresh (cookie : Option Text)
  deriving DecidableEq

/-- A session cookie that was issued for a user. -/
structure Issue where
  token : Token
  user_id : Int
  epoch : Int
  cause : Cause
  deriving DecidableEq

/-- A request that is suspended. -/
inductive InFlight
  /-- `await auth.exchange_code(...)` -/
  | exchange (provider : Provider)
  /-- a request with a cookie that is being forwarded -/
  | proxy (cookie : Option Text) (caller : Caller)

structure Site where
  now : ℚ
  store : Store
  magic_tokens : Table MagicToken.nonce
  issued : List Token
  inflight : List InFlight
  cookies : List Issue
  consumed : List (PyStr × PyStr)
  exchanged : List (PyStr × PyStr)
  entered : List (PyStr × User)

/-- What a route answers. -/
inductive Reply
  /-- a page with a message of an error -/
  | refused (status : Nat) (message : String)
  | page
  | redirect
  /-- a redirection with a session -/
  | signedIn (user : User)
  /-- it awaits something first -/
  | waits
  | raised

/-- What a provider says of who has signed in there: a subject, an address that it has
verified, and a name. -/
structure Profile where
  subject : PyStr
  email : PyStr
  name : Option PyStr

namespace Site

def init (db : Store) : Site where
  now := 0
  store := db
  magic_tokens := Table.empty
  issued := []
  inflight := []
  cookies := []
  consumed := []
  exchanged := []
  entered := []

section Signing

variable (s : Site)

/-- The clock in whole seconds. -/
def clock : Int :=
  ⌊s.now⌋

/-- `Signer.dumps`. -/
def dumps (payload : Payload) (salt : Salt) : Site :=
  { s with issued := (Signer.dumps s.issued s.clock payload salt).2 }

/-- `Signer.loads`, with the texts of its `AuthError`. -/
def loads (text : Text) (salt : Salt) (maxAge : Int) : Except String (Payload × Int) :=
  match Signer.loads s.issued s.clock text salt maxAge with
  | .ok loaded => .ok loaded
  | .error .expired => .error "That link has expired. Request a new one."
  | .error .bad => .error "That link is not valid."

end Signing

section Sessions

variable (rt : Runtime) (s : Site)

def read_session (cookie : Option Text) : Except PyError (Option SessionClaims) :=
  match cookie with
  | none => .ok none
  | some text =>
    if truthy text then
      match s.loads text .session SESSION_MAX_AGE with
      | .error _ => .ok none
      | .ok (payload, issued_at) =>
        match payload.dict.member "u" with
        | none => .ok none
        | some u => do
          let user_id ← u.toInt rt
          let epoch ← ((payload.dict.member "e").getD (.int 0)).toInt rt
          pure (some { user_id, epoch, issued_at })
    else .ok none

/-- `claims.stale`. -/
def stale (claims : SessionClaims) : Bool :=
  s.now - claims.issued_at > SESSION_REFRESH_AFTER

def identify (cookie : Option Text) : Except PyError Caller := do
  match ← s.read_session rt cookie with
  | none => pure { user := none, refresh_session := false }
  | some claims =>
    match ← Users.get s.store claims.user_id with
    | some user =>
      if !user.disabled && user.session_epoch = claims.epoch then
        pure { user := some user, refresh_session := s.stale claims }
      else pure { user := none, refresh_session := false }
    | none => pure { user := none, refresh_session := false }

/-- `set_session`. -/
def set_session (user_id epoch : Int) (cause : Cause) : Site :=
  let token := (Signer.dumps s.issued s.clock (.session user_id epoch) .session).1
  { s.dumps (.session user_id epoch) .session with
    cookies := s.cookies ++ [{ token, user_id, epoch, cause }] }

/-- `finish` of a request with a cookie. -/
def finish (cookie : Option Text) (caller : Caller) : Site :=
  match caller.user with
  | some user =>
    if caller.refresh_session then s.set_session user.id user.session_epoch (.refresh cookie)
    else s
  | none => s

/-- `csrf_token`. -/
def csrf_token (user_id : Int) (nonce : PyStr) : Site :=
  s.dumps (.csrf user_id nonce) .csrf

/-- `check_csrf`.  The member `u` of a token is an `int`. -/
def check_csrf (token : Text) (user_id : Int) : Bool :=
  match s.loads token .csrf CSRF_MAX_AGE with
  | .error _ => false
  | .ok (payload, _) =>
    match payload.dict.member "u" with
    | some (.int u) => u = user_id
    | _ => false

/-- `read_magic`: the address and the nonce. -/
def read_magic (token : Text) : Except String (PyStr × PyStr) := do
  let (payload, _) ← s.loads token .magic MAGIC_MAX_AGE
  match payload.dict.member "e", payload.dict.member "n" with
  | some e, some n => pure (e.toStr rt, n.toStr rt)
  | _, _ => throw "That link is not valid."

end Sessions

/-! ## Routes -/

section Routes

variable (rt : Runtime) (cfg : AuthConfig) (s : Site)

/-- `POST /auth/magic`.  `admitted` is what the rate windows say, and `sent` whether the
mail can be sent. -/
def magic_request (email nonce : PyStr) (admitted sent : Bool) : Site × Reply :=
  if cfg.email_signin then
    match valid_email rt email with
    | none => (s, .refused 400 "That does not look like an email address.")
    | some address =>
      if admitted then
        match issue_magic rt s.magic_tokens s.now nonce address with
        | .error _ => (s, .raised)
        | .ok magic_tokens =>
          ({ s with magic_tokens }.dumps (.magic address nonce) .magic,
            if sent then .page
            else .refused 502 ("The sign-in email could not be sent. " ++
              "Try again in a few minutes or use another method."))
      else
        (s, .refused 429 ("Too many sign-in links requested. " ++
          "Wait a while, or use one already in your inbox."))
  else (s, .refused 404 "Email sign-in is not available on this instance.")

/-- `GET /auth/magic/verify`. -/
def magic_confirm (token : Text) : Site × Reply :=
  match s.read_magic rt token with
  | .error message => (s, .refused 400 message)
  | .ok _ => (s, .page)

/-- `sign_in`, and the response with a session.  The `id` of a row is an integer that
SQLite holds, so a run in which `get` cannot bind one does not exist. -/
def sign_in (provider subject email : PyStr) (name : Option PyStr) (cause : Cause) :
    Option (Site × Reply) :=
  let (store, result) := Users.sign_in rt s.store s.now provider subject email name
  let s := { s with store }
  match result with
  | .error .overflowError => none
  | .error _ => some (s, .raised)
  | .ok none => some (s, .raised)
  | .ok (some user) => some (s.set_session user.id user.session_epoch cause, .signedIn user)

/-- Note that a nonce has signed a user in. -/
def noteEntry (nonce : PyStr) : Site × Reply → Site × Reply
  | (s, .signedIn user) => ({ s with entered := s.entered ++ [(nonce, user)] }, .signedIn user)
  | (s, reply) => (s, reply)

/-- `POST /auth/magic/verify`. -/
def magic_verify (token : Text) : Option (Site × Reply) :=
  match s.read_magic rt token with
  | .error message => some (s, .refused 400 message)
  | .ok (address, nonce) =>
    match consume_magic rt s.magic_tokens s.now nonce address with
    | .error _ => some (s, .raised)
    | .ok none =>
      some (s, .refused 400 "That link has already been used or has expired. Request a new one.")
    | .ok (some magic_tokens) =>
      ({ s with magic_tokens, consumed := s.consumed ++ [(nonce, address)] }.sign_in rt
        (py "email") address address none (.magic nonce address)).map (noteEntry nonce)

/-- `GET /auth/{provider_id}`. -/
def oauth_start (provider_id nonce : PyStr) : Site × Reply :=
  match cfg.provider provider_id with
  | none => (s, .refused 404 "That sign-in method is not available here.")
  | some _ => (s.dumps (.oauthState provider_id nonce) .oauthState, .redirect)

/-- The state is the one of the cookie, and was signed for the provider. -/
def stateMatches (provider_id : PyStr) (state : Text) (cookie : Option Text) : Bool :=
  truthy state && cookie.getD (.other []) = state &&
    match s.loads state .oauthState STATE_MAX_AGE with
    | .error _ => false
    | .ok (payload, _) => ((payload.dict.member "p").getD .null).isStr provider_id

/-- `GET /auth/{provider_id}/callback`, up to the exchange of the code. -/
def oauth_callback (provider_id error : PyStr) (state : Text) (cookie : Option Text) :
    Site × Reply :=
  match cfg.provider provider_id with
  | none => (s, .refused 404 "That sign-in method is not available here.")
  | some provider =>
    if !error.isEmpty then
      (s, .refused 400 (provider.label ++ " did not complete the sign-in."))
    else if truthy state && !(isAscii state && isAscii (cookie.getD (.other []))) then (s, .raised)
    else if s.stateMatches provider_id state cookie then
      ({ s with inflight := s.inflight ++ [.exchange provider] }, .waits)
    else
      (s, .refused 400 "The sign-in did not start from this browser, or took too long. Start again.")

/-- The end of `exchange_code`, once the requests to the provider have given a profile or
an `AuthError`. -/
def exchange_code (provider : Provider) (answer : Except String Profile) :
    Except String Profile := do
  let profile ← answer
  if profile.subject.isEmpty then throw (provider.label ++ " did not identify the account.")
  else
    match valid_email rt profile.email with
    | none => throw (provider.label ++ " returned an unusable email address.")
    | some email => pure { profile with email }

/-- The callback, once the provider has answered. -/
def exchanged_code (provider : Provider) (answer : Except String Profile) :
    Option (Site × Reply) :=
  match exchange_code rt provider answer with
  | .error message => some (s, .refused 400 message)
  | .ok profile =>
    { s with exchanged := s.exchanged ++ [(provider.id, profile.subject)] }.sign_in rt provider.id
      profile.subject profile.email profile.name (.oauth provider.id profile.subject)

/-- `POST /auth/signout`.  The cookie is cleared in any case. -/
def signout (cookie : Option Text) (csrf : Text) (everywhere : Bool) : Site × Reply :=
  match s.identify rt cookie with
  | .error _ => (s, .raised)
  | .ok caller =>
    match caller.user with
    | some user =>
      if s.check_csrf csrf user.id && everywhere then
        ({ s with store := bump_epoch s.store user.id }, .redirect)
      else (s, .redirect)
    | none => (s, .redirect)

/-- `GET /api/me`. -/
def me (cookie : Option Text) : Site × Reply :=
  match s.identify rt cookie with
  | .error _ => (s, .raised)
  | .ok caller => (s.finish cookie caller, .page)

/-- `GET /account`. -/
def account_page (cookie : Option Text) (nonce : PyStr) : Site × Reply :=
  match s.identify rt cookie with
  | .error _ => (s, .raised)
  | .ok caller =>
    match caller.user with
    | none => (s, .redirect)
    | some user => ((s.csrf_token user.id nonce).finish cookie caller, .page)

/-- The proxy, up to what it awaits first. -/
def proxy (cookie : Option Text) : Site × Reply :=
  match s.identify rt cookie with
  | .error _ => (s, .raised)
  | .ok caller => ({ s with inflight := s.inflight ++ [.proxy cookie caller] }, .waits)

end Routes

end Site

/-! ## Runs -/

inductive SiteAction
  | wait (seconds : ℚ)
  | magicRequest (email nonce : PyStr) (admitted sent : Bool)
  | magicConfirm (token : Text)
  | magicVerify (token : Text)
  | oauthStart (provider_id nonce : PyStr)
  | oauthCallback (provider_id error : PyStr) (state : Text) (cookie : Option Text)
  /-- the provider answers the exchange of a callback -/
  | exchanged (i : Nat) (answer : Except String Profile)
  | signout (cookie : Option Text) (csrf : Text) (everywhere : Bool)
  | me (cookie : Option Text)
  | account (cookie : Option Text) (nonce : PyStr)
  | proxy (cookie : Option Text)
  /-- a forwarded request gets to its response -/
  | responded (i : Nat)
  /-- a request in flight raises, or its client goes away -/
  | aborted (i : Nat)
  | setDisabled (user_id : Int) (disabled : Bool)

namespace Site

variable (rt : Runtime) (cfg : AuthConfig)

/-- A request leaves the list of those in flight. -/
def landed (s : Site) (i : Nat) : Site :=
  { s with inflight := s.inflight.eraseIdx i }

def next (s : Site) : SiteAction → Option Site
  | .wait seconds => if 0 ≤ seconds then some { s with now := s.now + seconds } else none
  | .magicRequest email nonce admitted sent =>
    some (s.magic_request rt cfg email nonce admitted sent).1
  | .magicConfirm token => some (s.magic_confirm rt token).1
  | .magicVerify token => (s.magic_verify rt token).map Prod.fst
  | .oauthStart provider_id nonce => some (s.oauth_start cfg provider_id nonce).1
  | .oauthCallback provider_id error state cookie =>
    some (s.oauth_callback cfg provider_id error state cookie).1
  | .exchanged i answer =>
    match s.inflight[i]? with
    | some (.exchange provider) => ((s.landed i).exchanged_code rt provider answer).map Prod.fst
    | _ => none
  | .signout cookie csrf everywhere => some (s.signout rt cookie csrf everywhere).1
  | .me cookie => some (s.me rt cookie).1
  | .account cookie nonce => some (s.account_page rt cookie nonce).1
  | .proxy cookie => some (s.proxy rt cookie).1
  | .responded i =>
    match s.inflight[i]? with
    | some (.proxy cookie caller) => some ((s.landed i).finish cookie caller)
    | _ => none
  | .aborted i => if i < s.inflight.length then some (s.landed i) else none
  | .setDisabled user_id disabled =>
    some { s with store := set_disabled s.store user_id disabled }

def machine : Transition.Machine Site SiteAction where
  init := init Store.empty
  next := next rt cfg

end Site

end Auth

end OpendssGateway
