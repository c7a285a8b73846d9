import Mathlib.Logic.Function.Basic
import OpendssGateway.Gateway.SessionRuns

/-!
# Browsers that sign in with a provider

A browser that goes to `GET /auth/{provider_id}` gets a state in a cookie
and in the URL that it is sent on to.  The callback wants the two to be the
same.  A `Flow` is the site with any number of browsers, each with its
cookie, while anybody may send anything else.

* A browser sends the cookie that it has, until it drops it after
  `STATE_MAX_AGE`, and whoever makes it go to the callback chooses the
  parameters.
* `starts` is history: who was given which state, and when.
* `Flow.Sound` is the invariant, and `sound_next` says that every step
  keeps it.
* `callbacks_are_of_the_browser` is the result.

The response to a request reaches the browser with the step that answers
it.
-/

namespace OpendssGateway

namespace Auth

/-- A state that was given out.  Of a client that is none of the browsers, `browser` is `none`. -/
structure Start where
  browser : Option Nat
  provider_id : PyStr
  nonce : PyStr
  time : ℚ
  deriving DecidableEq

def stateToken (provider_id nonce : PyStr) (timestamp : Int) : Token where
  salt := .oauthState
  payload := .oauthState provider_id nonce
  timestamp := timestamp

def Start.token (start : Start) : Token :=
  stateToken start.provider_id start.nonce ⌊start.time⌋

/-- A callback of a browser that was let through. -/
structure Arrival where
  browser : Nat
  provider_id : PyStr
  state : Text
  time : ℚ

structure Flow where
  site : Site
  /-- The state cookie of a browser, and when the browser drops it. -/
  jar : Nat → Option (Text × ℚ)
  /-- What each request in flight is, if it is a browser's callback. -/
  waiting : List (Option Arrival)
  starts : List Start

inductive FlowAction
  | start (browser : Option Nat) (provider_id nonce : PyStr)
  | callback (browser : Nat) (provider_id error : PyStr) (state : Text)
  /-- the provider answers the exchange of a callback -/
  | answered (i : Nat) (answer : Except String Profile)
  /-- any other request, of anybody, and what else happens at the site -/
  | other (a : SiteAction)

/-- The position at which a step ends a request in flight. -/
def SiteAction.lands : SiteAction → Option Nat
  | .exchanged i _ | .responded i | .aborted i => some i
  | _ => none

namespace Flow

def init : Flow where
  site := Site.init Store.empty
  jar _ := none
  waiting := []
  starts := []

/-- The cookie that a browser sends. -/
def cookie (f : Flow) (browser : Nat) : Option Text :=
  match f.jar browser with
  | some (text, expiry) => if f.site.now < expiry then some text else none
  | none => none

/-- What a step is at the site. -/
def action (f : Flow) : FlowAction → Option SiteAction
  | .start _ provider_id nonce => some (.oauthStart provider_id nonce)
  | .callback browser provider_id error state =>
    some (.oauthCallback provider_id error state (f.cookie browser))
  | .answered i answer => some (.exchanged i answer)
  | .other (.oauthStart ..) | .other (.exchanged ..) => none
  | .other a => some a

section Next

variable (rt : Runtime) (cfg : AuthConfig) (f : Flow)

/-- The state that a start gives out. -/
def given : FlowAction → List Start
  | .start browser provider_id nonce =>
    match (f.site.oauth_start cfg provider_id nonce).2 with
    | .redirect => [{ browser, provider_id, nonce, time := f.site.now }]
    | _ => []
  | _ => []

/-- The request in flight that a callback becomes. -/
def arrived : FlowAction → List (Option Arrival)
  | .callback browser provider_id error state =>
    match (f.site.oauth_callback cfg provider_id error state (f.cookie browser)).2 with
    | .waits => [some { browser, provider_id, state, time := f.site.now }]
    | _ => []
  | _ => []

/-- The browser that a response signs in. -/
def entered : FlowAction → Option Nat
  | .answered i answer =>
    match f.site.inflight[i]?, f.waiting[i]? with
    | some (.exchange provider), some (some arrival) =>
      match (f.site.landed i).exchanged_code rt provider answer with
      | some (_, .signedIn _) => some arrival.browser
      | _ => none
    | _, _ => none
  | _ => none

/-- The cookies after a step: a start sets one, and a sign-in deletes one. -/
def jars (a : FlowAction) : Nat → Option (Text × ℚ) :=
  match f.given cfg a with
  | start :: _ =>
    match start.browser with
    | some browser =>
      Function.update f.jar browser (some (.token start.token, start.time + STATE_MAX_AGE))
    | none => f.jar
  | [] =>
    match f.entered rt a with
    | some browser => Function.update f.jar browser none
    | none => f.jar

/-- The requests in flight after a step at the site. -/
def followed (a : FlowAction) (act : SiteAction) (site : Site) : List (Option Arrival) :=
  match act.lands with
  | some i => f.waiting.eraseIdx i
  | none =>
    let waiting := f.waiting ++ f.arrived cfg a
    waiting ++ List.replicate (site.inflight.length - waiting.length) none

def next (a : FlowAction) : Option Flow := do
  let act ← f.action a
  let site ← f.site.next rt cfg act
  some
    { site
      jar := f.jars rt cfg a
      waiting := f.followed cfg a act site
      starts := f.starts ++ f.given cfg a }

end Next

def machine (rt : Runtime) (cfg : AuthConfig) : Transition.Machine Flow FlowAction where
  init := init
  next := next rt cfg

/-- States are made with nonces that none has. -/
def FreshState (f : Flow) : FlowAction → Prop
  | .start _ _ nonce => ∀ start ∈ f.starts, start.nonce ≠ nonce
  | _ => True

/-- The last state that was given to a browser. -/
def latest (f : Flow) (browser : Nat) : Option Start :=
  (f.starts.filter fun start => start.browser = some browser).getLast?

end Flow

/-! ## The site in a step -/

/-- No state is given out, and no request starts or ends. -/
structure Aside (s s' : Site) : Prop where
  states : ∀ token : Token, token.salt = .oauthState → (token ∈ s'.issued ↔ token ∈ s.issued)
  now : s'.now = s.now
  inflight : s'.inflight = s.inflight

namespace Aside

variable {s s' s'' : Site}

theorem of_same (hissued : s'.issued = s.issued) (hnow : s'.now = s.now)
    (hinflight : s'.inflight = s.inflight) : Aside s s' where
  states token _ := by rw [hissued]
  now := hnow
  inflight := hinflight

theorem refl (s : Site) : Aside s s :=
  of_same rfl rfl rfl

theorem trans (h : Aside s s') (h' : Aside s' s'') : Aside s s'' where
  states token hsalt := (h'.states token hsalt).trans (h.states token hsalt)
  now := h'.now.trans h.now
  inflight := h'.inflight.trans h.inflight

/-- A token of another kind is signed. -/
theorem dumps (s : Site) (payload : Payload) {salt : Salt} (hsalt : salt ≠ .oauthState) :
    Aside s (s.dumps payload salt) where
  states token htoken := by
    show token ∈ s.issued ++ [_] ↔ _
    rw [List.mem_append, List.mem_singleton]
    refine ⟨fun hmem => hmem.resolve_right ?_, Or.inl⟩
    rintro rfl
    exact hsalt htoken
  now := rfl
  inflight := rfl

theorem set_session (s : Site) (user_id epoch : Int) (cause : Cause) :
    Aside s (s.set_session user_id epoch cause) := by
  have hdumps := dumps s (.session user_id epoch) (show Salt.session ≠ .oauthState by simp)
  exact ⟨hdumps.states, rfl, rfl⟩

theorem finish (s : Site) (cookie : Option Text) (caller : Caller) :
    Aside s (s.finish cookie caller) := by
  unfold Site.finish
  split
  · split
    · exact set_session ..
    · exact refl s
  · exact refl s

theorem sign_in {rt : Runtime} {provider subject email : PyStr} {name : Option PyStr}
    {cause : Cause} {reply : Reply}
    (h : s.sign_in rt provider subject email name cause = some (s', reply)) : Aside s s' := by
  rcases site_sign_in_cases h with ⟨rfl, -⟩ | ⟨user, -, rfl, -⟩
  · exact of_same rfl rfl rfl
  · have hstore : Aside s { s with
        store := (Users.sign_in rt s.store s.now provider subject email name).1 } :=
      of_same rfl rfl rfl
    exact hstore.trans (set_session ..)

theorem magic_request {rt : Runtime} {cfg : AuthConfig} (s : Site) (email nonce : PyStr)
    (admitted sent : Bool) : Aside s (s.magic_request rt cfg email nonce admitted sent).1 := by
  unfold Site.magic_request
  split
  · split
    · exact refl s
    · split
      · split
        · exact refl s
        · rename_i rows _
          have hrows : Aside s { s with magic_tokens := rows } := of_same rfl rfl rfl
          exact hrows.trans (dumps _ _ (by simp))
      · exact refl s
  · exact refl s

theorem magic_verify {rt : Runtime} {token : Text} {result : Site × Reply}
    (h : s.magic_verify rt token = some result) : Aside s result.1 := by
  unfold Site.magic_verify at h
  split at h
  · cases h
    exact refl s
  · split at h
    · cases h
      exact refl s
    · cases h
      exact refl s
    · rename_i address nonce _ _ rows _
      obtain ⟨⟨t, reply⟩, hsign, rfl⟩ := Option.map_eq_some_iff.1 h
      obtain ⟨entered, heq⟩ := noteEntry_fst nonce (t, reply)
      rw [heq]
      have hconsumed : Aside s { s with
          magic_tokens := rows, consumed := s.consumed ++ [(nonce, address)] } :=
        of_same rfl rfl rfl
      exact (hconsumed.trans (sign_in hsign)).trans (of_same rfl rfl rfl)

theorem exchanged_code {rt : Runtime} {provider : Provider} {answer : Except String Profile}
    {result : Site × Reply} (h : s.exchanged_code rt provider answer = some result) :
    Aside s result.1 := by
  unfold Site.exchanged_code at h
  split at h
  · cases h
    exact refl s
  · rename_i profile _
    have hnoted : Aside s { s with
        exchanged := s.exchanged ++ [(provider.id, profile.subject)] } := of_same rfl rfl rfl
    exact hnoted.trans (sign_in h)

theorem signout {rt : Runtime} (s : Site) (cookie : Option Text) (csrf : Text)
    (everywhere : Bool) : Aside s (s.signout rt cookie csrf everywhere).1 := by
  unfold Site.signout
  split
  · exact refl s
  · split
    · split_ifs
      · exact of_same rfl rfl rfl
      · exact refl s
    · exact refl s

theorem me {rt : Runtime} (s : Site) (cookie : Option Text) :
    Aside s (s.me rt cookie).1 := by
  unfold Site.me
  split
  · exact refl s
  · exact finish ..

theorem account_page {rt : Runtime} (s : Site) (cookie : Option Text) (nonce : PyStr) :
    Aside s (s.account_page rt cookie nonce).1 := by
  unfold Site.account_page
  split
  · exact refl s
  · split
    · exact refl s
    · exact (dumps _ _ (by simp)).trans (finish ..)

end Aside

/-- What a step of the site does with states and with requests in flight. -/
structure Follows (s : Site) (a : SiteAction) (s' : Site) : Prop where
  states : (∀ provider_id nonce, a ≠ .oauthStart provider_id nonce) →
    ∀ token : Token, token.salt = .oauthState → (token ∈ s'.issued ↔ token ∈ s.issued)
  now : s.now ≤ s'.now
  landed : ∀ i, a.lands = some i → s'.inflight = s.inflight.eraseIdx i
  added : a.lands = none → ∃ more, s'.inflight = s.inflight ++ more

section Follows

variable {rt : Runtime} {cfg : AuthConfig} {s s' : Site}

theorem Aside.follows {a : SiteAction} (h : Aside s s') (ha : a.lands = none) :
    Follows s a s' where
  states _ := h.states
  now := h.now.ge
  landed i hi := by
    rw [ha] at hi
    cases hi
  added _ := ⟨[], by rw [h.inflight, List.append_nil]⟩

/-- A request is suspended. -/
theorem follows_suspended {a : SiteAction} (request : InFlight) (ha : a.lands = none) :
    Follows s a { s with inflight := s.inflight ++ [request] } where
  states _ _ _ := Iff.rfl
  now := le_refl _
  landed i hi := by
    rw [ha] at hi
    cases hi
  added _ := ⟨[request], rfl⟩

theorem Aside.follows_landed {a : SiteAction} {i : Nat} (h : Aside (s.landed i) s')
    (ha : a.lands = some i) : Follows s a s' where
  states _ := h.states
  now := h.now.ge
  landed j hj := by
    rw [ha] at hj
    cases hj
    exact h.inflight
  added hnone := by
    rw [ha] at hnone
    cases hnone

theorem follows_next {a : SiteAction} (h : s.next rt cfg a = some s') : Follows s a s' := by
  cases a with
  | wait seconds =>
    simp only [Site.next] at h
    split_ifs at h with hseconds
    cases h
    exact ⟨fun _ _ _ => Iff.rfl, le_add_of_nonneg_right hseconds,
      (fun i hi => by cases hi), fun _ => ⟨[], (List.append_nil _).symm⟩⟩
  | magicRequest email nonce admitted sent =>
    cases h
    exact (Aside.magic_request s email nonce admitted sent).follows rfl
  | magicConfirm token =>
    cases h
    rw [magic_confirm_eq]
    exact (Aside.refl s).follows rfl
  | magicVerify token =>
    obtain ⟨result, hresult, rfl⟩ := Option.map_eq_some_iff.1 h
    exact (Aside.magic_verify hresult).follows rfl
  | oauthStart provider_id nonce =>
    cases h
    unfold Site.oauth_start
    split
    · exact (Aside.refl s).follows rfl
    · exact ⟨fun hno => absurd rfl (hno provider_id nonce), le_refl _,
        (fun i hi => by cases hi), fun _ => ⟨[], (List.append_nil _).symm⟩⟩
  | oauthCallback provider_id error state cookie =>
    cases h
    unfold Site.oauth_callback
    split
    · exact (Aside.refl s).follows rfl
    · split_ifs
      · exact (Aside.refl s).follows rfl
      · exact (Aside.refl s).follows rfl
      · exact follows_suspended _ rfl
      · exact (Aside.refl s).follows rfl
  | exchanged i answer =>
    simp only [Site.next] at h
    split at h
    · obtain ⟨result, hresult, rfl⟩ := Option.map_eq_some_iff.1 h
      exact (Aside.exchanged_code hresult).follows_landed rfl
    · cases h
  | signout cookie csrf everywhere =>
    cases h
    exact (Aside.signout s cookie csrf everywhere).follows rfl
  | me cookie =>
    cases h
    exact (Aside.me s cookie).follows rfl
  | account cookie nonce =>
    cases h
    exact (Aside.account_page s cookie nonce).follows rfl
  | proxy cookie =>
    cases h
    unfold Site.proxy
    split
    · exact (Aside.refl s).follows rfl
    · exact follows_suspended _ rfl
  | responded i =>
    simp only [Site.next] at h
    split at h
    · cases h
      exact (Aside.finish ..).follows_landed rfl
    · cases h
  | aborted i =>
    simp only [Site.next] at h
    split_ifs at h
    cases h
    exact (Aside.refl _).follows_landed rfl
  | setDisabled user_id flag =>
    cases h
    have hstore : Aside s { s with store := set_disabled s.store user_id flag } :=
      Aside.of_same rfl rfl rfl
    exact hstore.follows rfl

end Follows

/-! ## Callbacks -/

namespace Flow

/-- The callback came with the state that its browser was given for the provider, in time. -/
structure Answers (starts : List Start) (arrival : Arrival) (start : Start) : Prop where
  mem : start ∈ starts
  browser : start.browser = some arrival.browser
  provider_id : start.provider_id = arrival.provider_id
  state : arrival.state = .token start.token
  earlier : start.time ≤ arrival.time
  inTime : arrival.time < start.time + STATE_MAX_AGE

/-- The request in flight is the callback. -/
def Exchanges (site : Site) (i : Nat) (arrival : Arrival) : Prop :=
  ∃ provider : Provider, site.inflight[i]? = some (.exchange provider) ∧
    provider.id = arrival.provider_id

structure Sound (f : Flow) : Prop where
  starts : ∀ start ∈ f.starts, start.token ∈ f.site.issued ∧ start.time ≤ f.site.now
  issued : ∀ token ∈ f.site.issued, token.salt = .oauthState →
    ∃ start ∈ f.starts, start.token = token
  /-- The cookie of a browser is the last state it was given. -/
  jar : ∀ browser text expiry, f.jar browser = some (text, expiry) →
    ∃ start, f.latest browser = some start ∧ text = .token start.token ∧
      expiry = start.time + STATE_MAX_AGE
  aligned : f.waiting.length = f.site.inflight.length
  waiting : ∀ i arrival, f.waiting[i]? = some (some arrival) →
    Exchanges f.site i arrival ∧ ∃ start, Answers f.starts arrival start

section Callback

variable {cfg : AuthConfig} {f : Flow} {browser : Nat} {provider_id error : PyStr} {state : Text}

theorem of_latest {start : Start} (h : f.latest browser = some start) :
    start ∈ f.starts ∧ start.browser = some browser := by
  have hmem := List.mem_of_getLast? h
  obtain ⟨hstart, hbrowser⟩ := List.mem_filter.1 hmem
  exact ⟨hstart, of_decide_eq_true hbrowser⟩

/-- A state loads within ten minutes. -/
theorem clock_le {now time : ℚ} (h : now < time + STATE_MAX_AGE) :
    ⌊now⌋ - ⌊time⌋ ≤ STATE_MAX_AGE := by
  have hfloor : ⌊now⌋ ≤ ⌊time + STATE_MAX_AGE⌋ := Int.floor_mono h.le
  rw [Int.floor_add_intCast] at hfloor
  omega

theorem cookie_eq_some {text : Text} (h : f.Sound) (hcookie : f.cookie browser = some text) :
    ∃ start, f.latest browser = some start ∧ text = .token start.token ∧
      f.site.now < start.time + STATE_MAX_AGE := by
  unfold cookie at hcookie
  split at hcookie
  · rename_i text' expiry hjar
    split_ifs at hcookie with hnow
    cases hcookie
    obtain ⟨start, hlatest, htext, rfl⟩ := h.jar browser text expiry hjar
    exact ⟨start, hlatest, htext, hnow⟩
  · cases hcookie

/-- The state of a token is the provider that was signed. -/
theorem state_isStr (start : Start) :
    ((start.token.payload.dict.member "p").getD .null).isStr provider_id =
      (start.provider_id == provider_id) :=
  rfl

theorem stateMatches_iff (h : f.Sound) :
    f.site.stateMatches provider_id state (f.cookie browser) = true ↔
      ∃ start, f.latest browser = some start ∧ f.jar browser ≠ none ∧
        start.provider_id = provider_id ∧ state = .token start.token ∧
        f.site.now < start.time + STATE_MAX_AGE := by
  unfold Site.stateMatches
  constructor
  · intro hmatches
    simp only [Bool.and_eq_true, decide_eq_true_eq] at hmatches
    obtain ⟨⟨htruthy, hsame⟩, hloads⟩ := hmatches
    cases hcookie : f.cookie browser with
    | none =>
      -- without a cookie the state is the empty text
      rw [hcookie] at hsame
      subst hsame
      cases htruthy
    | some text =>
      obtain ⟨start, hlatest, htext, hnow⟩ := cookie_eq_some h hcookie
      rw [hcookie] at hsame
      have hstate : state = .token start.token := hsame.symm.trans htext
      split at hloads
      · cases hloads
      · rename_i payload timestamp hloaded
        obtain ⟨htoken, -, -⟩ := site_loads_eq_ok.1 hloaded
        have hpayload : payload = start.token.payload :=
          congrArg Signer.Token.payload (Signer.Text.token.inj (htoken.symm.trans hstate))
        rw [hpayload, state_isStr] at hloads
        refine ⟨start, hlatest, fun hjar => ?_, eq_of_beq hloads, hstate, hnow⟩
        unfold cookie at hcookie
        rw [hjar] at hcookie
        cases hcookie
  · rintro ⟨start, hlatest, hjar, rfl, rfl, hnow⟩
    have hcookie : f.cookie browser = some (.token start.token) := by
      cases hjar' : f.jar browser with
      | none => exact absurd hjar' hjar
      | some entry =>
        obtain ⟨text, expiry⟩ := entry
        obtain ⟨start', hlatest', rfl, rfl⟩ := h.jar browser text expiry hjar'
        rw [hlatest] at hlatest'
        cases hlatest'
        unfold cookie
        rw [hjar']
        exact if_pos hnow
    have hloads : f.site.loads (.token start.token) .oauthState STATE_MAX_AGE =
        .ok (start.token.payload, ⌊start.time⌋) := by
      have hissued := (h.starts start (of_latest hlatest).1).1
      exact site_loads_eq_ok.2 ⟨rfl, hissued, clock_le hnow⟩
    rw [hcookie, hloads]
    dsimp only
    rw [state_isStr]
    simp [truthy]

theorem ascii_of_matches (h : f.Sound)
    (hmatches : f.site.stateMatches provider_id state (f.cookie browser) = true) :
    isAscii state = true ∧ isAscii ((f.cookie browser).getD (.other [])) = true := by
  obtain ⟨start, -, -, -, rfl, -⟩ := (stateMatches_iff h).1 hmatches
  unfold Site.stateMatches at hmatches
  simp only [Bool.and_eq_true, decide_eq_true_eq] at hmatches
  rw [hmatches.1.2]
  exact ⟨rfl, rfl⟩

theorem waits_iff (h : f.Sound) :
    (f.site.oauth_callback cfg provider_id error state (f.cookie browser)).2 = .waits ↔
      (cfg.provider provider_id).isSome ∧ error = [] ∧
        ∃ start, f.latest browser = some start ∧ f.jar browser ≠ none ∧
          start.provider_id = provider_id ∧ state = .token start.token ∧
          f.site.now < start.time + STATE_MAX_AGE := by
  rw [← stateMatches_iff h]
  unfold Site.oauth_callback
  cases cfg.provider provider_id with
  | none => simp
  | some provider =>
    dsimp only
    by_cases herror : error = []
    · subst herror
      by_cases hmatches : f.site.stateMatches provider_id state (f.cookie browser) = true
      · obtain ⟨hstate, hcookie⟩ := ascii_of_matches h hmatches
        rw [if_neg (by simp), if_neg (by simp [hstate, hcookie]), if_pos hmatches]
        simp [hmatches]
      · rw [if_neg (by simp), if_neg hmatches]
        split_ifs <;> simp [hmatches]
    · have hnonempty : (!error.isEmpty) = true := by simpa using herror
      rw [if_pos hnonempty]
      simp [herror]

end Callback

/-! ## Steps -/

section Steps

variable {rt : Runtime} {cfg : AuthConfig} {f f' : Flow}

theorem sound_init : init.Sound where
  starts _ h := absurd h List.not_mem_nil
  issued _ h := absurd h List.not_mem_nil
  jar _ _ _ h := by cases h
  aligned := rfl
  waiting _ _ h := by cases h

theorem Answers.mono {starts more : List Start} {arrival : Arrival} {start : Start}
    (h : Answers starts arrival start) : Answers (starts ++ more) arrival start :=
  { h with mem := List.mem_append_left _ h.mem }

/-- A request in flight stays where it is while others start. -/
theorem Exchanges.mono {site site' : Site} {i : Nat} {arrival : Arrival} {more : List InFlight}
    (h : Exchanges site i arrival) (hmore : site'.inflight = site.inflight ++ more) :
    Exchanges site' i arrival := by
  obtain ⟨provider, hi, hid⟩ := h
  refine ⟨provider, ?_, hid⟩
  rw [hmore, List.getElem?_append_left (List.getElem?_eq_some_iff.1 hi).1]
  exact hi

/-- The browsers' requests stay in line with the site's. -/
theorem length_followed {a : FlowAction} {act : SiteAction} {site : Site} (h : f.Sound)
    (hfollows : Follows f.site act site) (hfit : act.lands = none →
      f.waiting.length + (f.arrived cfg a).length ≤ site.inflight.length) :
    (f.followed cfg a act site).length = site.inflight.length := by
  cases hlands : act.lands with
  | some i =>
    rw [followed, hlands, hfollows.landed i hlands]
    simp only [List.length_eraseIdx, h.aligned]
  | none =>
    have hlen := hfit hlands
    rw [followed, hlands]
    simp only [List.length_append, List.length_replicate]
    omega

/-- A request in flight keeps its place, moves up, or is the one that arrived. -/
theorem followed_get {a : FlowAction} {act : SiteAction} {site : Site} (h : f.Sound)
    (hfollows : Follows f.site act site)
    (harrived : ∀ j arrival, (f.arrived cfg a)[j]? = some (some arrival) →
      Exchanges site (f.waiting.length + j) arrival ∧ ∃ start, Answers f.starts arrival start)
    {j : Nat} {arrival : Arrival} (hj : (f.followed cfg a act site)[j]? = some (some arrival)) :
    Exchanges site j arrival ∧ ∃ start, Answers f.starts arrival start := by
  cases hlands : act.lands with
  | some i =>
    rw [followed, hlands] at hj
    dsimp only at hj
    rw [List.getElem?_eraseIdx] at hj
    have hshift : ∀ k, Exchanges f.site k arrival → k = (if j < i then j else j + 1) →
        Exchanges site j arrival := by
      rintro k ⟨provider, hk, hid⟩ rfl
      refine ⟨provider, ?_, hid⟩
      rw [hfollows.landed i hlands, List.getElem?_eraseIdx]
      split_ifs at hk ⊢ <;> exact hk
    split_ifs at hj with hlt
    · obtain ⟨hexchanges, hanswers⟩ := h.waiting j arrival hj
      exact ⟨hshift j hexchanges (by rw [if_pos hlt]), hanswers⟩
    · obtain ⟨hexchanges, hanswers⟩ := h.waiting (j + 1) arrival hj
      exact ⟨hshift (j + 1) hexchanges (by rw [if_neg hlt]), hanswers⟩
  | none =>
    obtain ⟨more, hmore⟩ := hfollows.added hlands
    rw [followed, hlands] at hj
    dsimp only at hj
    rw [List.append_assoc] at hj
    by_cases hold : j < f.waiting.length
    · rw [List.getElem?_append_left hold] at hj
      obtain ⟨hexchanges, hanswers⟩ := h.waiting j arrival hj
      exact ⟨hexchanges.mono hmore, hanswers⟩
    · rw [List.getElem?_append_right (by omega)] at hj
      by_cases hnew : j - f.waiting.length < (f.arrived cfg a).length
      · rw [List.getElem?_append_left hnew] at hj
        have harrival := harrived _ arrival hj
        rwa [Nat.add_sub_cancel' (by omega)] at harrival
      · rw [List.getElem?_append_right (by omega), List.getElem?_replicate] at hj
        split_ifs at hj
        cases hj

/-- A step that gives out no state. -/
theorem Sound.follow {a : FlowAction} {act : SiteAction} {site : Site}
    {jar : Nat → Option (Text × ℚ)} (h : f.Sound) (hfollows : Follows f.site act site)
    (hstates : ∀ token : Token, token.salt = .oauthState →
      (token ∈ site.issued ↔ token ∈ f.site.issued))
    (hjar : ∀ browser, jar browser = f.jar browser ∨ jar browser = none)
    (hfit : act.lands = none → f.waiting.length + (f.arrived cfg a).length ≤ site.inflight.length)
    (harrived : ∀ j arrival, (f.arrived cfg a)[j]? = some (some arrival) →
      Exchanges site (f.waiting.length + j) arrival ∧ ∃ start, Answers f.starts arrival start) :
    Sound { site, jar, waiting := f.followed cfg a act site, starts := f.starts } := by
  refine ⟨fun start hstart => ?_, fun token htoken hsalt => ?_, ?_,
    length_followed h hfollows hfit, fun j arrival hj => followed_get h hfollows harrived hj⟩
  · obtain ⟨hissued, htime⟩ := h.starts start hstart
    exact ⟨(hstates _ rfl).2 hissued, htime.trans hfollows.now⟩
  · exact h.issued token ((hstates token hsalt).1 htoken) hsalt
  · intro browser text expiry hentry
    rcases hjar browser with hsame | hnone
    · exact h.jar browser text expiry (hsame.symm.trans hentry)
    · have hcontra := hnone.symm.trans hentry
      cases hcontra

theorem latest_append (f : Flow) (start : Start) (browser : Nat) :
    latest { f with starts := f.starts ++ [start] } browser =
      if start.browser = some browser then some start else f.latest browser := by
  unfold latest
  rw [List.filter_append]
  split_ifs with hbrowser
  · simp [hbrowser]
  · simp [hbrowser]

/-- A state is given out. -/
theorem Sound.give (h : f.Sound) {start : Start} (htime : start.time = f.site.now)
    {jar : Nat → Option (Text × ℚ)}
    (hjar : ∀ browser, jar browser =
      if start.browser = some browser then some (.token start.token, start.time + STATE_MAX_AGE)
      else f.jar browser) :
    Sound { f with
      site := f.site.dumps (.oauthState start.provider_id start.nonce) .oauthState
      jar
      starts := f.starts ++ [start] } := by
  have hissued : (f.site.dumps (.oauthState start.provider_id start.nonce) .oauthState).issued =
      f.site.issued ++ [start.token] := by
    unfold Start.token
    rw [htime]
    rfl
  refine ⟨fun other hother => ?_, fun token htoken hsalt => ?_, ?_, h.aligned, ?_⟩
  · rw [hissued]
    rcases List.mem_append.1 hother with hold | hnew
    · exact ⟨List.mem_append_left _ (h.starts other hold).1, (h.starts other hold).2⟩
    · rw [List.mem_singleton.1 hnew]
      exact ⟨List.mem_append_right _ (List.mem_singleton_self _), htime.le⟩
  · rw [hissued] at htoken
    rcases List.mem_append.1 htoken with hold | hnew
    · obtain ⟨other, hother, heq⟩ := h.issued token hold hsalt
      exact ⟨other, List.mem_append_left _ hother, heq⟩
    · exact ⟨start, List.mem_append_right _ (List.mem_singleton_self _),
        (List.mem_singleton.1 hnew).symm⟩
  · intro browser text expiry hentry
    change jar browser = _ at hentry
    rw [hjar] at hentry
    show ∃ other, latest { f with starts := f.starts ++ [start] } browser = some other ∧ _
    rw [latest_append]
    split_ifs at hentry ⊢ with hbrowser
    · cases hentry
      exact ⟨start, rfl, rfl, rfl⟩
    · exact h.jar browser text expiry hentry
  · intro i arrival hi
    obtain ⟨hexchanges, other, hanswers⟩ := h.waiting i arrival hi
    exact ⟨hexchanges, other, hanswers.mono⟩

/-- A callback that goes on is in flight, and came with its browser's state. -/
theorem arrived_cases (h : f.Sound) {browser : Nat} {provider_id error : PyStr} {state : Text}
    {site : Site}
    (hsite : (f.site.oauth_callback cfg provider_id error state (f.cookie browser)).1 = site) :
    f.arrived cfg (.callback browser provider_id error state) = [] ∨
      ∃ arrival, f.arrived cfg (.callback browser provider_id error state) = [some arrival] ∧
        Exchanges site f.waiting.length arrival ∧ ∃ start, Answers f.starts arrival start := by
  unfold arrived
  dsimp only
  split
  · rename_i hwaits
    right
    obtain ⟨hprovider, -, start, hlatest, -, hid, hstate, hnow⟩ := (waits_iff h).1 hwaits
    obtain ⟨hmem, hbrowser⟩ := of_latest hlatest
    refine ⟨_, rfl, ?_, start, hmem, hbrowser, hid, hstate, (h.starts start hmem).2, hnow⟩
    obtain ⟨provider, hfind⟩ := Option.isSome_iff_exists.1 hprovider
    have hinflight : site.inflight = f.site.inflight ++ [.exchange provider] := by
      rw [← hsite]
      unfold Site.oauth_callback at hwaits ⊢
      rw [hfind] at hwaits ⊢
      dsimp only at hwaits ⊢
      split_ifs at hwaits ⊢
      rfl
    unfold AuthConfig.provider at hfind
    have hprovider_id : provider.id = provider_id := by simpa using List.find?_some hfind
    refine ⟨provider, ?_, hprovider_id⟩
    rw [hinflight, h.aligned]
    simp
  · exact Or.inl rfl

theorem given_start (f : Flow) (browser : Option Nat) (provider_id nonce : PyStr) :
    f.given cfg (.start browser provider_id nonce) =
      if (cfg.provider provider_id).isSome then
        [{ browser, provider_id, nonce, time := f.site.now }] else [] := by
  unfold given Site.oauth_start
  dsimp only
  cases cfg.provider provider_id <;> rfl

/-- A step of the site without a start, and without a callback that goes on. -/
theorem Sound.follow_other {a : FlowAction} {act : SiteAction} {site : Site}
    {jar : Nat → Option (Text × ℚ)} (h : f.Sound) (hfollows : Follows f.site act site)
    (hstates : ∀ token : Token, token.salt = .oauthState →
      (token ∈ site.issued ↔ token ∈ f.site.issued))
    (hjar : ∀ browser, jar browser = f.jar browser ∨ jar browser = none)
    (harrived : f.arrived cfg a = []) :
    Sound { site, jar, waiting := f.followed cfg a act site, starts := f.starts } := by
  refine h.follow hfollows hstates hjar (fun hlands => ?_) fun j arrival hj => ?_
  · obtain ⟨more, hmore⟩ := hfollows.added hlands
    rw [harrived, hmore, List.length_append, h.aligned]
    exact Nat.add_le_add_left (Nat.zero_le _) _
  · rw [harrived] at hj
    cases hj

/-- The state of a start, when the provider is known. -/
theorem Sound.start {browser : Option Nat} {provider_id nonce : PyStr} {site : Site} (h : f.Sound)
    (hfollows : Follows f.site (.oauthStart provider_id nonce) site)
    (hreply : (f.site.oauth_start cfg provider_id nonce).1 = site) :
    Sound
      { site
        jar := f.jars rt cfg (.start browser provider_id nonce)
        waiting := f.followed cfg (.start browser provider_id nonce)
          (.oauthStart provider_id nonce) site
        starts := f.starts ++ f.given cfg (.start browser provider_id nonce) } := by
  have hgiven : f.given cfg (.start browser provider_id nonce) = _ :=
    given_start f browser provider_id nonce
  unfold Site.oauth_start at hreply
  cases hprovider : cfg.provider provider_id with
  | none =>
    rw [hprovider] at hreply hgiven
    have hstarts : f.starts ++ f.given cfg (.start browser provider_id nonce) = f.starts := by
      rw [hgiven]
      exact List.append_nil _
    rw [hstarts]
    refine h.follow_other hfollows (fun token _ => by rw [← hreply]) (fun other => Or.inl ?_) rfl
    unfold jars
    rw [hgiven]
    rfl
  | some provider =>
    rw [hprovider] at hreply hgiven
    have hwaiting : f.followed cfg (.start browser provider_id nonce)
        (.oauthStart provider_id nonce) site = f.waiting := by
      subst hreply
      show (f.waiting ++ []) ++ List.replicate (f.site.inflight.length -
        (f.waiting ++ []).length) none = f.waiting
      rw [List.append_nil, h.aligned, Nat.sub_self]
      exact List.append_nil _
    subst hreply
    rw [hwaiting, hgiven]
    let start : Start := { browser, provider_id, nonce, time := f.site.now }
    have htime : start.time = f.site.now := rfl
    refine h.give htime fun other => ?_
    unfold jars
    rw [hgiven]
    show (match start.browser with
      | some b => Function.update f.jar b (some (.token start.token, start.time + STATE_MAX_AGE))
      | none => f.jar) other = _
    cases start.browser with
    | none => simp
    | some b =>
      by_cases hsame : other = b
      · subst hsame
        rw [if_pos rfl]
        exact Function.update_self ..
      · rw [if_neg fun heq => hsame (Option.some.inj heq).symm]
        exact Function.update_of_ne hsame ..

/-- A callback goes on, or ends at once. -/
theorem Sound.callback {browser : Nat} {provider_id error : PyStr} {state : Text} {act : SiteAction}
    {site : Site} (h : f.Sound) (hfollows : Follows f.site act site)
    (hstates : ∀ token : Token, token.salt = .oauthState →
      (token ∈ site.issued ↔ token ∈ f.site.issued))
    (hreply : (f.site.oauth_callback cfg provider_id error state (f.cookie browser)).1 = site) :
    Sound
      { site
        jar := f.jar
        waiting := f.followed cfg (.callback browser provider_id error state) act site
        starts := f.starts } := by
  rcases arrived_cases h hreply with hnone | ⟨arrival, hsome, hexchanges, hanswers⟩
  · exact h.follow_other hfollows hstates (fun _ => Or.inl rfl) hnone
  · refine h.follow hfollows hstates (fun _ => Or.inl rfl) (fun _ => ?_) fun j other hj => ?_
    · obtain ⟨provider, hi, -⟩ := hexchanges
      rw [hsome]
      exact (List.getElem?_eq_some_iff.1 hi).1
    · rw [hsome] at hj
      obtain ⟨hlt, hother⟩ := List.getElem?_eq_some_iff.1 hj
      obtain rfl : j = 0 := by simpa using hlt
      cases hother
      exact ⟨hexchanges, hanswers⟩

/-- Every step keeps a sound flow sound. -/
theorem sound_next {a : FlowAction} (h : f.Sound) (hnext : f.next rt cfg a = some f') :
    f'.Sound := by
  obtain ⟨act, hact, hnext⟩ := Option.bind_eq_some_iff.1 hnext
  obtain ⟨site, hsite, hnext⟩ := Option.bind_eq_some_iff.1 hnext
  cases hnext
  have hfollows := follows_next hsite
  cases a with
  | start browser provider_id nonce =>
    cases hact
    exact h.start hfollows (Option.some.inj hsite)
  | callback browser provider_id error state =>
    cases hact
    have hstarts : f.starts ++ f.given cfg (.callback browser provider_id error state) = f.starts :=
      List.append_nil _
    rw [hstarts]
    exact h.callback hfollows (hfollows.states fun _ _ hcontra => by cases hcontra)
      (Option.some.inj hsite)
  | answered i answer =>
    cases hact
    have hstarts : f.starts ++ f.given cfg (.answered i answer) = f.starts := List.append_nil _
    rw [hstarts]
    refine h.follow_other hfollows (hfollows.states fun _ _ hcontra => by cases hcontra)
      (fun browser => ?_) rfl
    unfold jars
    cases f.entered rt (.answered i answer) with
    | none => exact Or.inl rfl
    | some other =>
      show Function.update f.jar other none browser = _ ∨ Function.update f.jar other none browser = _
      by_cases hsame : browser = other
      · rw [hsame, Function.update_self]
        exact Or.inr rfl
      · rw [Function.update_of_ne hsame]
        exact Or.inl rfl
  | other act' =>
    have hstarts : f.starts ++ f.given cfg (.other act') = f.starts := List.append_nil _
    rw [hstarts]
    refine h.follow_other hfollows (hfollows.states ?_) (fun _ => Or.inl rfl) rfl
    rintro provider_id nonce rfl
    cases act' <;> cases hact

end Steps

/-! ## Runs -/

section Runs

variable {rt : Runtime} {cfg : AuthConfig} {f f' : Flow} {C : Flow → FlowAction → Prop}

theorem reachable_sound (hf : (machine rt cfg).ReachableBy C f) : f.Sound :=
  hf.invariant Sound sound_init fun _ _ _ h _ hnext => sound_next h hnext

/-- The site of a flow is one that the site alone reaches. -/
theorem reachable_site (hf : (machine rt cfg).ReachableBy C f) :
    (Site.machine rt cfg).Reachable f.site := by
  refine hf.invariant (fun f => (Site.machine rt cfg).Reachable f.site) .init ?_
  intro f a f' h _ hnext
  obtain ⟨act, -, hnext⟩ := Option.bind_eq_some_iff.1 hnext
  obtain ⟨site, hsite, hnext⟩ := Option.bind_eq_some_iff.1 hnext
  cases hnext
  exact h.next hsite

theorem starts_next {a : FlowAction} (hnext : f.next rt cfg a = some f') :
    f'.starts = f.starts ++ f.given cfg a := by
  obtain ⟨act, -, hnext⟩ := Option.bind_eq_some_iff.1 hnext
  obtain ⟨site, -, hnext⟩ := Option.bind_eq_some_iff.1 hnext
  cases hnext
  rfl

/-- With fresh nonces no state is given twice. -/
theorem nodup_nonces (hf : (machine rt cfg).ReachableBy FreshState f) :
    (f.starts.map Start.nonce).Nodup := by
  refine hf.invariant (fun f => (f.starts.map Start.nonce).Nodup) List.nodup_nil ?_
  intro f a f' h hfresh hnext
  rw [starts_next hnext, List.map_append]
  cases a with
  | start browser provider_id nonce =>
    rw [given_start]
    split_ifs
    · refine List.nodup_append.2 ⟨h, List.nodup_singleton _, ?_⟩
      intro old hold new hnew heq
      obtain ⟨start, hstart, rfl⟩ := List.mem_map.1 hold
      rw [List.map_singleton, List.mem_singleton] at hnew
      exact hfresh start hstart (heq.trans hnew)
    · simpa using h
  | callback | answered | other => simpa [given] using h

theorem eq_of_token (hf : (machine rt cfg).ReachableBy FreshState f) {start start' : Start}
    (hstart : start ∈ f.starts) (hstart' : start' ∈ f.starts) (h : start.token = start'.token) :
    start = start' := by
  have hnonce : start.nonce = start'.nonce := by
    have hpayload : Payload.oauthState start.provider_id start.nonce =
        .oauthState start'.provider_id start'.nonce := congrArg Signer.Token.payload h
    exact (Payload.oauthState.inj hpayload).2
  exact List.inj_on_of_nodup_map (nodup_nonces hf) hstart hstart' hnonce

/-- Whom the answer to a browser's callback signs in has an identity at the provider that the
browser started with. -/
theorem signed_in_of_callback (hf : (machine rt cfg).ReachableBy C f) {i : Nat}
    {answer : Except String Profile} {arrival : Arrival} {provider : Provider} {site : Site}
    {user : User} (hwaiting : f.waiting[i]? = some (some arrival))
    (hi : f.site.inflight[i]? = some (.exchange provider))
    (hreply : (f.site.landed i).exchanged_code rt provider answer = some (site, .signedIn user)) :
    ∃ start subject, Answers f.starts arrival start ∧ ∃ identity ∈ site.store.identities,
      identity.key = (start.provider_id, subject) ∧ identity.user_id = user.id := by
  obtain ⟨⟨provider', hi', hid⟩, start, hanswers⟩ := (reachable_sound hf).waiting i arrival hwaiting
  rw [hi] at hi'
  cases hi'
  have hregistered := (Auth.reachable_sound (reachable_site hf)).registered
  unfold Site.exchanged_code at hreply
  split at hreply
  · cases hreply
  · rename_i profile _
    rcases site_sign_in_cases hreply with ⟨-, hcontra⟩ | ⟨user', hresult, rfl, huser⟩
    · exact absurd rfl (hcontra user)
    · cases huser
      obtain ⟨-, -, hreturns⟩ := sign_in_registered hregistered
        (fun hcontra => absurd hcontra (provider_ne_email provider))
      obtain ⟨-, identity, hidentity, hkey, howner, -⟩ := hreturns user hresult
      exact ⟨start, profile.subject, hanswers, identity, hidentity,
        by rw [hkey, hid, hanswers.provider_id], howner⟩

/-- Whatever anybody else sends, and whoever chooses the parameters:

* a browser's callback goes on exactly when it names a provider and no error, and its state is
  the last that the browser was given, for this provider, less than ten minutes ago, and no
  sign-in has deleted the browser's cookie since;
* with a state that was given to another it does not go on;
* a sign-in that answers it is of an identity at the provider that the browser started with. -/
theorem callbacks_are_of_the_browser (hf : (machine rt cfg).ReachableBy FreshState f)
    (browser : Nat) :
    (∀ provider_id error state,
      (f.site.oauth_callback cfg provider_id error state (f.cookie browser)).2 = .waits ↔
        (cfg.provider provider_id).isSome ∧ error = [] ∧
          ∃ start, f.latest browser = some start ∧ f.jar browser ≠ none ∧
            start.provider_id = provider_id ∧ state = .token start.token ∧
            f.site.now < start.time + STATE_MAX_AGE) ∧
      (∀ provider_id error, ∀ start ∈ f.starts, start.browser ≠ some browser →
        (f.site.oauth_callback cfg provider_id error (.token start.token) (f.cookie browser)).2 ≠
          .waits) ∧
      ∀ i answer arrival provider site user, f.waiting[i]? = some (some arrival) →
        f.site.inflight[i]? = some (.exchange provider) →
        (f.site.landed i).exchanged_code rt provider answer = some (site, .signedIn user) →
        ∃ start subject, Answers f.starts arrival start ∧ ∃ identity ∈ site.store.identities,
          identity.key = (start.provider_id, subject) ∧ identity.user_id = user.id := by
  have hsound := reachable_sound hf
  refine ⟨fun _ _ _ => waits_iff hsound, fun provider_id error start hstart hother hwaits => ?_,
    fun _ _ _ _ _ _ => signed_in_of_callback hf⟩
  obtain ⟨-, -, latest, hlatest, -, -, hstate, -⟩ := (waits_iff hsound).1 hwaits
  obtain ⟨hmem, hbrowser⟩ := of_latest hlatest
  have hsame := eq_of_token hf hstart hmem (Signer.Text.token.inj hstate)
  exact hother (hsame ▸ hbrowser)

/-! ### A run -/

def bothProviders : AuthConfig where
  email_signin := false
  providers := [.github, .google]

/-- A browser has gone to GitHub. -/
def firstStarted : Flow :=
  (init.next plainRuntime bothProviders (.start (some 0) (py "github") (py "n0"))).getD init

/-- Another has gone to Google. -/
def bothStarted : Flow :=
  (firstStarted.next plainRuntime bothProviders
    (.start (some 1) (py "google") (py "n1"))).getD firstStarted

theorem bothStarted_reachable :
    (machine plainRuntime bothProviders).ReachableBy FreshState bothStarted := by
  have hfirst : (machine plainRuntime bothProviders).ReachableBy FreshState firstStarted :=
    Transition.Machine.ReachableBy.init.step (a := .start (some 0) (py "github") (py "n0"))
      (fun start hstart => absurd hstart List.not_mem_nil)
      (Transition.eq_some_getD _ (by decide +kernel))
  have hfresh : ∀ start ∈ firstStarted.starts, start.nonce ≠ py "n1" := by decide +kernel
  exact hfirst.step (a := .start (some 1) (py "google") (py "n1")) hfresh
    (Transition.eq_some_getD _ (by decide +kernel))

theorem callbacks_are_of_the_browser_both :
    (bothStarted.site.oauth_callback bothProviders (py "google") []
        (.token (stateToken (py "google") (py "n1") 0)) (bothStarted.cookie 1)).2 = .waits ∧
      (bothStarted.site.oauth_callback bothProviders (py "github") []
        (.token (stateToken (py "github") (py "n0") 0)) (bothStarted.cookie 1)).2 ≠ .waits := by
  obtain ⟨hwaits, hothers, -⟩ := callbacks_are_of_the_browser bothStarted_reachable 1
  constructor
  · have hlatest : bothStarted.latest 1 = some
        { browser := some 1, provider_id := py "google", nonce := py "n1", time := 0 } := by
      decide +kernel
    refine (hwaits _ _ _).2 ⟨by decide, rfl, _, hlatest, ?_, rfl, ?_, ?_⟩
    · decide +kernel
    · decide +kernel
    · decide +kernel
  · have hother : { browser := some 0, provider_id := py "github", nonce := py "n0", time := 0 } ∈
        bothStarted.starts := by decide +kernel
    have hrefused := hothers (py "github") [] _ hother (by decide)
    have htoken : stateToken (py "github") (py "n0") 0 =
        Start.token { browser := some 0, provider_id := py "github", nonce := py "n0", time := 0 } := by
      decide +kernel
    rw [htoken]
    exact hrefused

end Runs

end Flow

end Auth

end OpendssGateway
