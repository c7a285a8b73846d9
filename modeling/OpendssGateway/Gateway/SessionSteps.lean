import OpendssGateway.Gateway.Accounts
import OpendssGateway.Gateway.Session

/-!
# What a route can do

* `Registered` is what sign-ins keep of the tables: the accounts, and that a
  magic link's identity has the address as its email.
* `identify_eq_some` is what a session cookie must be to name a user.
* `Effect` lists what a step of the site can do, and `next_effect` says that
  it does nothing else.  The invariants of the site are case analyses over
  `Effect`, so none of them looks at the routes again.
-/

namespace OpendssGateway

namespace Auth

/-! ## The tables of a sign-in -/

/-- Accounts whose magic links are identities of their own address. -/
structure Registered (rt : Runtime) (db : Store) : Prop extends Users.Accounts rt db where
  links : ∀ identity ∈ db.identities, identity.provider = py "email" →
    identity.email = identity.subject

theorem registered_empty (rt : Runtime) : Registered rt Store.empty :=
  ⟨Users.accounts_empty rt, fun _ h => absurd h (Table.not_mem_empty _)⟩

section SignIn

variable {rt : Runtime} {db db' : Store} {now : ℚ} {provider subject email : PyStr}
  {name : Option PyStr} {user_id : Int}

theorem registered_transaction (h : Registered rt db)
    (hlink : provider = py "email" → rt.normalized email = subject)
    (htransaction : Users.sign_in_transaction db now provider subject (rt.normalized email) name =
      .ok (db', user_id)) :
    Users.SignedInto rt (provider, subject) (rt.normalized email) db db' user_id ∧
      Registered rt db' := by
  have hinto := Users.sign_in_transaction_spec h.toAccounts (normalized_normalized rt email)
    htransaction
  refine ⟨hinto, hinto.accounts, fun identity hidentity hprovider => ?_⟩
  rcases hinto.only identity hidentity with hold | hkey
  · exact h.links identity hold hprovider
  · obtain ⟨hprovider', hsubject⟩ := Prod.mk.inj hkey
    obtain ⟨new, hnew, hnew_key, -, hnew_email⟩ := hinto.identity
    have hsame := Table.eq_of_key hnew hidentity (hnew_key.trans hkey.symm)
    subst hsame
    cases hfind : db.identities.find? (provider, subject) with
    | none =>
      rw [hnew_email hfind, hsubject]
      exact hlink (hprovider'.symm.trans hprovider)
    | some old =>
      obtain ⟨hold, hold_key⟩ := Table.find?_eq_some hfind
      have hsame := Table.eq_of_key (hinto.extends_.identities old hold) hnew
        (hold_key.trans hnew_key.symm)
      subst hsame
      exact h.links old hold hprovider

/-- A sign-in keeps the tables, and the user it returns has the identity it was given. -/
theorem sign_in_registered (h : Registered rt db)
    (hlink : provider = py "email" → rt.normalized email = subject) :
    Users.Extends db (Users.sign_in rt db now provider subject email name).1 ∧
      Registered rt (Users.sign_in rt db now provider subject email name).1 ∧
      ∀ user, (Users.sign_in rt db now provider subject email name).2 = .ok (some user) →
        user ∈ (Users.sign_in rt db now provider subject email name).1.users ∧
        ∃ identity ∈ (Users.sign_in rt db now provider subject email name).1.identities,
          identity.key = (provider, subject) ∧ identity.user_id = user.id ∧
          identity.email = user.email := by
  unfold Users.sign_in
  cases htransaction : Users.sign_in_transaction db now provider subject (rt.normalized email)
      name with
  | error e => exact ⟨Users.Extends.refl db, h, fun user hcontra => by cases hcontra⟩
  | ok result =>
    obtain ⟨db', user_id⟩ := result
    obtain ⟨hinto, hregistered⟩ := registered_transaction h hlink htransaction
    refine ⟨hinto.extends_, hregistered, fun user hget => ?_⟩
    dsimp only at hget ⊢
    obtain ⟨_, -, hfind⟩ := bind_eq_ok.1 hget
    obtain ⟨huser, hid⟩ := Table.find?_eq_some (Except.ok.inj hfind)
    obtain ⟨identity, hidentity, hkey, howner, -⟩ := hinto.identity
    obtain ⟨owner, howner_mem, howner_id, howner_email⟩ := hregistered.owners identity hidentity
    have hsame := Table.eq_of_key howner_mem huser (howner_id.trans (howner.trans hid.symm))
    subst hsame
    exact ⟨huser, identity, hidentity, hkey, howner.trans hid.symm, howner_email.symm⟩

/-- A sign-in that commits returns a user, unless SQLite cannot hold the id. -/
theorem sign_in_committed (h : Registered rt db)
    (hlink : provider = py "email" → rt.normalized email = subject)
    (htransaction : Users.sign_in_transaction db now provider subject (rt.normalized email) name =
      .ok (db', user_id)) :
    (Users.sign_in rt db now provider subject email name).2 = .error .overflowError ∨
      ∃ user, (Users.sign_in rt db now provider subject email name).2 = .ok (some user) := by
  unfold Users.sign_in
  rw [htransaction]
  obtain ⟨hinto, hregistered⟩ := registered_transaction h hlink htransaction
  obtain ⟨identity, hidentity, -, howner, -⟩ := hinto.identity
  obtain ⟨user, huser, hid, -⟩ := hregistered.owners identity hidentity
  have hfind := Table.find?_eq_some_iff.2 ⟨huser, hid.trans howner⟩
  dsimp only
  unfold Users.get bindInt
  split
  · right
    refine ⟨user, ?_⟩
    show Except.ok (db'.users.find? user_id) = _
    rw [hfind]
  · exact Or.inl rfl

/-- A magic link's sign-in returns a user, unless SQLite cannot hold the id. -/
theorem sign_in_returns (h : Registered rt db) {v : SqlValue} (hbind : bindText email = .ok v)
    (hnormal : rt.normalized email = email) :
    (Users.sign_in rt db now (py "email") email email none).2 = .error .overflowError ∨
      ∃ user, (Users.sign_in rt db now (py "email") email email none).2 = .ok (some user) := by
  have haccount : ∃ mid id, Users.account db now (py "email") email email none = .ok (mid, id) := by
    have hprovider : bindText (py "email") = .ok (.text (py "email")) := rfl
    unfold Users.account Users.byEmailOrNew
    rw [hprovider, hbind]
    cases Users.byIdentity db (py "email") email with
    | some user => exact ⟨db, user.id, rfl⟩
    | none =>
      cases db.users.rows.find? fun user => user.email = email with
      | some user => exact ⟨_, _, rfl⟩
      | none => exact ⟨_, _, rfl⟩
  obtain ⟨mid, id, haccount⟩ := haccount
  cases htransaction : Users.sign_in_transaction db now (py "email") email (rt.normalized email)
      none with
  | error e =>
    unfold Users.sign_in_transaction at htransaction
    rw [hnormal, haccount] at htransaction
    cases htransaction
  | ok result => exact sign_in_committed h (fun _ => hnormal) htransaction

end SignIn

/-! ## What a cookie says -/

section Identify

variable {rt : Runtime} {s : Site}

theorem site_loads_eq_ok {text : Text} {salt : Salt} {maxAge timestamp : Int} {payload : Payload} :
    s.loads text salt maxAge = .ok (payload, timestamp) ↔
      text = .token { salt, payload, timestamp } ∧ { salt, payload, timestamp } ∈ s.issued ∧
        s.clock - timestamp ≤ maxAge := by
  rw [← Signer.loads_eq_ok]
  unfold Site.loads
  cases Signer.loads s.issued s.clock text salt maxAge with
  | ok loaded => simp
  | error e => cases e <;> simp

theorem read_session_eq_some {cookie : Option Text} {claims : SessionClaims}
    (h : s.read_session rt cookie = .ok (some claims)) :
    ∃ payload, cookie = some (.token { salt := .session, payload, timestamp := claims.issued_at }) ∧
      { salt := .session, payload, timestamp := claims.issued_at } ∈ s.issued ∧
      s.clock - claims.issued_at ≤ SESSION_MAX_AGE ∧
      ∀ user_id epoch, payload = .session user_id epoch →
        claims.user_id = user_id ∧ claims.epoch = epoch := by
  unfold Site.read_session at h
  split at h
  · cases h
  · rename_i text
    split at h
    · split at h
      · cases h
      · rename_i payload issued_at hloads
        obtain ⟨rfl, hissued, hage⟩ := site_loads_eq_ok.1 hloads
        split at h
        · cases h
        · rename_i u hu
          obtain ⟨user_id, huser_id, h⟩ := bind_eq_ok.1 h
          obtain ⟨epoch, hepoch, h⟩ := bind_eq_ok.1 h
          cases h
          refine ⟨payload, rfl, hissued, hage, ?_⟩
          rintro user_id' epoch' rfl
          cases hu
          cases huser_id
          cases hepoch
          exact ⟨rfl, rfl⟩
    · cases h

/-- Who is named by a cookie: an enabled user, with the epoch of a token that was signed
as a session and is not too old. -/
theorem identify_eq_some {cookie : Option Text} {caller : Caller} {user : User}
    (h : s.identify rt cookie = .ok caller) (huser : caller.user = some user) :
    user ∈ s.store.users ∧ user.disabled = false ∧ ∃ payload timestamp,
      cookie = some (.token { salt := .session, payload, timestamp }) ∧
      { salt := .session, payload, timestamp } ∈ s.issued ∧
      s.clock - timestamp ≤ SESSION_MAX_AGE ∧
      ∀ user_id epoch, payload = .session user_id epoch →
        user.id = user_id ∧ user.session_epoch = epoch := by
  unfold Site.identify at h
  obtain ⟨claims, hclaims, h⟩ := bind_eq_ok.1 h
  cases claims with
  | none =>
    cases h
    cases huser
  | some claims =>
    obtain ⟨found, hfound, h⟩ := bind_eq_ok.1 h
    cases found with
    | none =>
      cases h
      cases huser
    | some found =>
      dsimp only at h
      split_ifs at h with hvalid
      · cases h
        cases huser
        obtain ⟨_, -, hfind⟩ := bind_eq_ok.1 hfound
        obtain ⟨hmem, hid⟩ := Table.find?_eq_some (Except.ok.inj hfind)
        simp only [Bool.and_eq_true, Bool.not_eq_true', decide_eq_true_eq] at hvalid
        obtain ⟨payload, hcookie, hissued, hage, hpayload⟩ := read_session_eq_some hclaims
        refine ⟨hmem, hvalid.1, payload, claims.issued_at, hcookie, hissued, hage, ?_⟩
        intro user_id epoch heq
        obtain ⟨huser_id, hepoch⟩ := hpayload user_id epoch heq
        exact ⟨hid.trans huser_id, hvalid.2.trans hepoch⟩
      · cases h
        cases huser

end Identify

/-- A sign-in of the site: it is answered with a session, or the tables alone change. -/
theorem site_sign_in_cases {rt : Runtime} {s s' : Site} {provider subject email : PyStr}
    {name : Option PyStr} {cause : Cause} {reply : Reply}
    (h : s.sign_in rt provider subject email name cause = some (s', reply)) :
    (s' = { s with store := (Users.sign_in rt s.store s.now provider subject email name).1 } ∧
        ∀ user, reply ≠ .signedIn user) ∨
      ∃ user, (Users.sign_in rt s.store s.now provider subject email name).2 = .ok (some user) ∧
        s' = { s with
          store := (Users.sign_in rt s.store s.now provider subject email name).1 }.set_session
            user.id user.session_epoch cause ∧
        reply = .signedIn user := by
  unfold Site.sign_in at h
  dsimp only at h
  split at h
  · cases h
  · cases h
    exact Or.inl ⟨rfl, fun user hcontra => by cases hcontra⟩
  · cases h
    exact Or.inl ⟨rfl, fun user hcontra => by cases hcontra⟩
  · rename_i user hresult
    cases h
    exact Or.inr ⟨user, hresult, rfl, rfl⟩

theorem site_sign_in_of_ok {rt : Runtime} {s : Site} {provider subject email : PyStr}
    {name : Option PyStr} {user : User} (cause : Cause)
    (h : (Users.sign_in rt s.store s.now provider subject email name).2 = .ok (some user)) :
    ∃ s', s.sign_in rt provider subject email name cause = some (s', .signedIn user) := by
  unfold Site.sign_in
  dsimp only
  rw [h]
  exact ⟨_, rfl⟩

theorem site_sign_in_of_overflow {rt : Runtime} {s : Site} {provider subject email : PyStr}
    {name : Option PyStr} (cause : Cause)
    (h : (Users.sign_in rt s.store s.now provider subject email name).2 = .error .overflowError) :
    s.sign_in rt provider subject email name cause = none := by
  unfold Site.sign_in
  dsimp only
  rw [h]

/-! ## Effects -/

/-- All that a step of the site can do, when links are made with new nonces. -/
inductive Effect (rt : Runtime) (new : PyStr → Prop) (s : Site) : Site → Prop
  | nothing : Effect rt new s s
  | waited {seconds : ℚ} (h : 0 ≤ seconds) : Effect rt new s { s with now := s.now + seconds }
  | linked {address nonce : PyStr} {rows : Table MagicToken.nonce} (hnew : new nonce)
      (hnormal : rt.normalized address = address)
      (hissue : issue_magic rt s.magic_tokens s.now nonce address = .ok rows) :
      Effect rt new s ({ s with magic_tokens := rows }.dumps (.magic address nonce) .magic)
  /-- a token that is neither a session nor a magic link -/
  | dumped {payload : Payload} {salt : Salt} (hsession : salt ≠ .session) (hmagic : salt ≠ .magic) :
      Effect rt new s (s.dumps payload salt)
  | verified {token : Text} {address nonce : PyStr} {rows : Table MagicToken.nonce} {s' : Site}
      {reply : Reply} (hread : s.read_magic rt token = .ok (address, nonce))
      (hconsume : consume_magic rt s.magic_tokens s.now nonce address = .ok (some rows))
      (hsign : { s with
          magic_tokens := rows
          consumed := s.consumed ++ [(nonce, address)] }.sign_in rt (py "email") address address
        none (.magic nonce address) = some (s', reply)) :
      Effect rt new s (Site.noteEntry nonce (s', reply)).1
  | launched (provider : Provider) :
      Effect rt new s { s with inflight := s.inflight ++ [.exchange provider] }
  | exchanged {i : Nat} {provider : Provider} {profile : Profile} {s' : Site} {reply : Reply}
      (hi : s.inflight[i]? = some (.exchange provider))
      (hsign : { s.landed i with
          exchanged := s.exchanged ++ [(provider.id, profile.subject)] }.sign_in rt provider.id
        profile.subject profile.email profile.name (.oauth provider.id profile.subject) =
          some (s', reply)) :
      Effect rt new s s'
  | bumped {cookie : Option Text} {caller : Caller} {user : User}
      (hcaller : s.identify rt cookie = .ok caller) (huser : caller.user = some user) :
      Effect rt new s { s with store := bump_epoch s.store user.id }
  | used {cookie : Option Text} {caller : Caller} (hcaller : s.identify rt cookie = .ok caller) :
      Effect rt new s (s.finish cookie caller)
  | usedForm {cookie : Option Text} {caller : Caller} {user_id : Int} {nonce : PyStr}
      (hcaller : s.identify rt cookie = .ok caller) :
      Effect rt new s ((s.csrf_token user_id nonce).finish cookie caller)
  | proxied {cookie : Option Text} {caller : Caller}
      (hcaller : s.identify rt cookie = .ok caller) :
      Effect rt new s { s with inflight := s.inflight ++ [.proxy cookie caller] }
  | responded {i : Nat} {cookie : Option Text} {caller : Caller}
      (hi : s.inflight[i]? = some (.proxy cookie caller)) :
      Effect rt new s ((s.landed i).finish cookie caller)
  | landed (i : Nat) : Effect rt new s (s.landed i)
  | disabled (user_id : Int) (flag : Bool) :
      Effect rt new s { s with store := set_disabled s.store user_id flag }

section Steps

variable {rt : Runtime} {cfg : AuthConfig} {new : PyStr → Prop} {s s' : Site}

theorem magic_request_effect (email : PyStr) {nonce : PyStr} (hnew : new nonce)
    (admitted sent : Bool) :
    Effect rt new s (s.magic_request rt cfg email nonce admitted sent).1 := by
  unfold Site.magic_request
  split
  · split
    · exact .nothing
    · rename_i address hvalid
      split
      · split
        · exact .nothing
        · rename_i rows hissue
          exact .linked hnew (valid_email_normalized hvalid).2 hissue
      · exact .nothing
  · exact .nothing

theorem magic_confirm_eq (token : Text) : (s.magic_confirm rt token).1 = s := by
  unfold Site.magic_confirm
  split <;> rfl

theorem magic_verify_effect {token : Text} {result : Site × Reply}
    (h : s.magic_verify rt token = some result) : Effect rt new s result.1 := by
  unfold Site.magic_verify at h
  split at h
  · cases h
    exact .nothing
  · rename_i address nonce hread
    split at h
    · cases h
      exact .nothing
    · cases h
      exact .nothing
    · rename_i rows hconsume
      obtain ⟨⟨t, reply⟩, hsign, rfl⟩ := Option.map_eq_some_iff.1 h
      exact .verified hread hconsume hsign

theorem oauth_start_effect (provider_id nonce : PyStr) :
    Effect rt new s (s.oauth_start cfg provider_id nonce).1 := by
  unfold Site.oauth_start
  split
  · exact .nothing
  · exact .dumped (by simp) (by simp)

theorem oauth_callback_effect (provider_id error : PyStr) (state : Text) (cookie : Option Text) :
    Effect rt new s (s.oauth_callback cfg provider_id error state cookie).1 := by
  unfold Site.oauth_callback
  split
  · exact .nothing
  · rename_i provider _
    split_ifs
    · exact .nothing
    · exact .nothing
    · exact .launched provider
    · exact .nothing

theorem exchanged_code_effect {i : Nat} {provider : Provider} {answer : Except String Profile}
    {result : Site × Reply} (hi : s.inflight[i]? = some (.exchange provider))
    (h : (s.landed i).exchanged_code rt provider answer = some result) :
    Effect rt new s result.1 := by
  unfold Site.exchanged_code at h
  split at h
  · cases h
    exact .landed i
  · exact .exchanged hi h

theorem signout_effect (cookie : Option Text) (csrf : Text) (everywhere : Bool) :
    Effect rt new s (s.signout rt cookie csrf everywhere).1 := by
  unfold Site.signout
  split
  · exact .nothing
  · rename_i caller hcaller
    split
    · rename_i user huser
      split_ifs
      · exact .bumped hcaller huser
      · exact .nothing
    · exact .nothing

theorem me_effect (cookie : Option Text) : Effect rt new s (s.me rt cookie).1 := by
  unfold Site.me
  split
  · exact .nothing
  · rename_i caller hcaller
    exact .used hcaller

theorem account_page_effect (cookie : Option Text) (nonce : PyStr) :
    Effect rt new s (s.account_page rt cookie nonce).1 := by
  unfold Site.account_page
  split
  · exact .nothing
  · rename_i caller hcaller
    split
    · exact .nothing
    · exact .usedForm hcaller

theorem proxy_effect (cookie : Option Text) : Effect rt new s (s.proxy rt cookie).1 := by
  unfold Site.proxy
  split
  · exact .nothing
  · rename_i caller hcaller
    exact .proxied hcaller

/-- The nonces that an action makes links with are new. -/
def SiteAction.makes (new : PyStr → Prop) : SiteAction → Prop
  | .magicRequest _ nonce _ _ => new nonce
  | _ => True

/-- A step does one of the effects. -/
theorem next_effect {a : SiteAction} (hnew : a.makes new) (h : s.next rt cfg a = some s') :
    Effect rt new s s' := by
  cases a with
  | wait seconds =>
    simp only [Site.next] at h
    split_ifs at h with hseconds
    cases h
    exact .waited hseconds
  | magicRequest email nonce admitted sent =>
    cases h
    exact magic_request_effect email hnew admitted sent
  | magicConfirm token =>
    cases h
    rw [magic_confirm_eq]
    exact .nothing
  | magicVerify token =>
    obtain ⟨result, hresult, rfl⟩ := Option.map_eq_some_iff.1 h
    exact magic_verify_effect hresult
  | oauthStart provider_id nonce =>
    cases h
    exact oauth_start_effect provider_id nonce
  | oauthCallback provider_id error state cookie =>
    cases h
    exact oauth_callback_effect provider_id error state cookie
  | exchanged i answer =>
    simp only [Site.next] at h
    split at h
    · rename_i provider hi
      obtain ⟨result, hresult, rfl⟩ := Option.map_eq_some_iff.1 h
      exact exchanged_code_effect hi hresult
    · cases h
  | signout cookie csrf everywhere =>
    cases h
    exact signout_effect cookie csrf everywhere
  | me cookie =>
    cases h
    exact me_effect cookie
  | account cookie nonce =>
    cases h
    exact account_page_effect cookie nonce
  | proxy cookie =>
    cases h
    exact proxy_effect cookie
  | responded i =>
    simp only [Site.next] at h
    split at h
    · rename_i cookie caller hi
      cases h
      exact .responded hi
    · cases h
  | aborted i =>
    simp only [Site.next] at h
    split_ifs at h
    cases h
    exact .landed i
  | setDisabled user_id flag =>
    cases h
    exact .disabled user_id flag

/-! ## What every step keeps -/

theorem Registered.update {db : Store} (h : Registered rt db) (user_id : Int) {f : User → User}
    {hf : ∀ user, (f user).id = user.id} (hemail : ∀ user, (f user).email = user.email) :
    Registered rt (Users.update db user_id f hf) :=
  ⟨h.toAccounts.update user_id hemail, h.links⟩

theorem Registered.bump_epoch {db : Store} (h : Registered rt db) (user_id : Int) :
    Registered rt (Auth.bump_epoch db user_id) := by
  unfold Auth.bump_epoch
  exact h.update user_id fun _ => rfl

theorem Registered.set_disabled {db : Store} (h : Registered rt db) (user_id : Int)
    (disabled : Bool) : Registered rt (Auth.set_disabled db user_id disabled) := by
  unfold Auth.set_disabled
  exact h.update user_id fun _ => rfl

theorem finish_store (cookie : Option Text) (caller : Caller) :
    (s.finish cookie caller).store = s.store := by
  unfold Site.finish
  split
  · split <;> rfl
  · rfl

theorem noteEntry_fst (nonce : PyStr) (result : Site × Reply) :
    ∃ entered, (Site.noteEntry nonce result).1 = { result.1 with entered } := by
  obtain ⟨t, reply⟩ := result
  cases reply with
  | signedIn user => exact ⟨t.entered ++ [(nonce, user)], rfl⟩
  | refused | page | redirect | waits | raised => exact ⟨t.entered, rfl⟩

theorem noteEntry_store (nonce : PyStr) (result : Site × Reply) :
    (Site.noteEntry nonce result).1.store = result.1.store := by
  obtain ⟨entered, heq⟩ := noteEntry_fst nonce result
  rw [heq]

theorem registered_sign_in {provider subject email : PyStr} {name : Option PyStr} {cause : Cause}
    {reply : Reply} (hsign : s.sign_in rt provider subject email name cause = some (s', reply))
    (h : Registered rt s.store) (hlink : provider = py "email" → rt.normalized email = subject) :
    Registered rt s'.store := by
  obtain ⟨-, hregistered, -⟩ := @sign_in_registered rt s.store s.now provider subject email name
    h hlink
  rcases site_sign_in_cases hsign with ⟨rfl, -⟩ | ⟨user, -, rfl, -⟩
  · exact hregistered
  · exact hregistered

theorem provider_ne_email (provider : Provider) : provider.id ≠ py "email" := by
  cases provider <;> decide

/-- The address of a magic link that loads is in normal form. -/
def LinksNormal (rt : Runtime) (s : Site) : Prop :=
  ∀ token address nonce, s.read_magic rt token = .ok (address, nonce) →
    rt.normalized address = address

theorem registered_effect (h : Registered rt s.store) (hnormal : LinksNormal rt s)
    (he : Effect rt new s s') : Registered rt s'.store := by
  cases he with
  | nothing | waited | linked | dumped | launched | proxied | landed => exact h
  | verified hread hconsume hsign =>
    rw [noteEntry_store]
    exact registered_sign_in hsign h fun _ => hnormal _ _ _ hread
  | exchanged hi hsign =>
    rename_i i provider profile reply
    exact registered_sign_in hsign h fun hcontra => absurd hcontra (provider_ne_email provider)
  | bumped => exact h.bump_epoch _
  | used =>
    rw [finish_store]
    exact h
  | usedForm =>
    rw [finish_store]
    exact h
  | responded =>
    rw [finish_store]
    exact h
  | disabled user_id flag => exact h.set_disabled user_id flag

end Steps

end Auth

end OpendssGateway
