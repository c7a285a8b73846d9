import Mathlib.Logic.Relation
import OpendssGateway.Gateway.MagicLinks

/-!
# Sessions over runs

A session cookie names a user and an epoch.  It is issued by a sign-in, or
by a request that came with an older one, and the epoch of a user only
grows.

* `Grows` is what no step takes away: the history, the users with their
  emails, the identities.  Epochs do not go down.
* `Sound` says of every token, cookie and request in flight where it comes
  from.  Each of the three is kept as the site grows, so a step has to be
  looked at for what it adds alone.
* `sessions_are_authentic` is the result.

The nonces of the links need not be fresh here.
-/

namespace OpendssGateway

namespace Auth

/-- The token of a session cookie. -/
def sessionToken (user_id epoch timestamp : Int) : Token where
  salt := .session
  payload := .session user_id epoch
  timestamp := timestamp

theorem sessionToken_inj {user_id epoch timestamp user_id' epoch' timestamp' : Int}
    (h : sessionToken user_id epoch timestamp = sessionToken user_id' epoch' timestamp') :
    user_id = user_id' ∧ epoch = epoch' ∧ timestamp = timestamp' := by
  unfold sessionToken at h
  cases h
  exact ⟨rfl, rfl, rfl⟩

/-! ## Where a cookie comes from -/

/-- A sign-in of the user: a link that was sent to its address, or an identity of it that
the provider confirmed. -/
def Opened (s : Site) (user_id : Int) : Cause → Prop
  | .magic nonce address => (nonce, address) ∈ s.consumed ∧
      ∃ user ∈ s.store.users, user.id = user_id ∧ user.email = address
  | .oauth provider subject => (provider, subject) ∈ s.exchanged ∧
      ∃ identity ∈ s.store.identities,
        identity.key = (provider, subject) ∧ identity.user_id = user_id
  | .refresh _ => False

/-- The second cookie was issued by a request that came with the first. -/
def Refreshed (s : Site) (old new : Issue) : Prop :=
  old ∈ s.cookies ∧ new ∈ s.cookies ∧ new.cause = .refresh (some (.token old.token))

/-- Refreshes lead back to a sign-in of the same user. -/
def Traced (s : Site) (issue : Issue) : Prop :=
  ∃ first ∈ s.cookies, first.user_id = issue.user_id ∧ Opened s first.user_id first.cause ∧
    Relation.ReflTransGen (Refreshed s) first issue

/-- The cookie was issued for the user, with the epoch it has here. -/
def Holds (s : Site) (cookie : Option Text) (user : User) : Prop :=
  ∃ issue ∈ s.cookies, cookie = some (.token issue.token) ∧ issue.user_id = user.id ∧
    issue.epoch = user.session_epoch

structure Vouched (s : Site) (issue : Issue) : Prop where
  token : ∃ timestamp, issue.token = sessionToken issue.user_id issue.epoch timestamp
  epoch : ∃ user ∈ s.store.users, user.id = issue.user_id ∧ issue.epoch ≤ user.session_epoch
  /-- What it refreshes is a cookie of the same user and epoch. -/
  renewed : ∀ cookie, issue.cause = .refresh cookie →
    ∃ timestamp, cookie = some (.token (sessionToken issue.user_id issue.epoch timestamp))
  traced : Traced s issue

/-- A session token is a cookie, and a link is for an address in normal form. -/
def Accounted (rt : Runtime) (s : Site) (token : Token) : Prop :=
  match token.salt with
  | .session => ∃ issue ∈ s.cookies, issue.token = token
  | .magic => ∃ address nonce, token.payload = .magic address nonce ∧
      rt.normalized address = address
  | .csrf | .oauthState => True

/-- A caller that is waited for came with a cookie of its user. -/
def Awaited (s : Site) : InFlight → Prop
  | .exchange _ => True
  | .proxy cookie caller => ∀ user, caller.user = some user → Holds s cookie user

structure Sound (rt : Runtime) (s : Site) : Prop where
  registered : Registered rt s.store
  issued : ∀ token ∈ s.issued, Accounted rt s token
  cookies : ∀ issue ∈ s.cookies, Vouched s issue
  inflight : ∀ request ∈ s.inflight, Awaited s request

/-! ## What is never taken away -/

structure Grows (s s' : Site) : Prop where
  cookies : s.cookies ⊆ s'.cookies
  consumed : s.consumed ⊆ s'.consumed
  exchanged : s.exchanged ⊆ s'.exchanged
  users : ∀ user ∈ s.store.users, ∃ user' ∈ s'.store.users, user'.id = user.id ∧
    user'.email = user.email ∧ user.session_epoch ≤ user'.session_epoch
  identities : ∀ identity ∈ s.store.identities, identity ∈ s'.store.identities

namespace Grows

variable {s s' s'' : Site}

/-- The tables are left alone. -/
theorem of_store (hstore : s'.store = s.store) (hcookies : s.cookies ⊆ s'.cookies)
    (hconsumed : s.consumed ⊆ s'.consumed) (hexchanged : s.exchanged ⊆ s'.exchanged) :
    Grows s s' where
  cookies := hcookies
  consumed := hconsumed
  exchanged := hexchanged
  users user huser := ⟨user, by rw [hstore]; exact huser, rfl, rfl, le_refl _⟩
  identities identity hidentity := by
    rw [hstore]
    exact hidentity

theorem refl (s : Site) : Grows s s :=
  of_store rfl (List.Subset.refl _) (List.Subset.refl _) (List.Subset.refl _)

theorem trans (h : Grows s s') (h' : Grows s' s'') : Grows s s'' where
  cookies := List.Subset.trans h.cookies h'.cookies
  consumed := List.Subset.trans h.consumed h'.consumed
  exchanged := List.Subset.trans h.exchanged h'.exchanged
  users user huser := by
    obtain ⟨mid, hmid, hid, hemail, hepoch⟩ := h.users user huser
    obtain ⟨last, hlast, hid', hemail', hepoch'⟩ := h'.users mid hmid
    exact ⟨last, hlast, hid'.trans hid, hemail'.trans hemail, hepoch.trans hepoch'⟩
  identities identity hidentity := h'.identities identity (h.identities identity hidentity)

/-- The tables change by a sign-in. -/
theorem of_extends {db : Store} (h : Users.Extends s.store db) :
    Grows s { s with store := db } where
  cookies := List.Subset.refl _
  consumed := List.Subset.refl _
  exchanged := List.Subset.refl _
  users user huser := by
    obtain ⟨user', huser', hid, hemail, -, hepoch, -⟩ := h.users user huser
    exact ⟨user', huser', hid, hemail, hepoch.ge⟩
  identities := h.identities

/-- A row of `users` changes, and its epoch does not go down. -/
theorem update (s : Site) (user_id : Int) {f : User → User} {hf : ∀ user, (f user).id = user.id}
    (hemail : ∀ user, (f user).email = user.email)
    (hepoch : ∀ user, user.session_epoch ≤ (f user).session_epoch) :
    Grows s { s with store := Users.update s.store user_id f hf } where
  cookies := List.Subset.refl _
  consumed := List.Subset.refl _
  exchanged := List.Subset.refl _
  users user huser := by
    by_cases hid : user.id = user_id
    · have hmem : f user ∈ (Users.update s.store user_id f hf).users :=
        Users.mem_update.2 (Or.inr ⟨user, huser, hid, rfl⟩)
      exact ⟨f user, hmem, hf user, hemail user, hepoch user⟩
    · have hmem : user ∈ (Users.update s.store user_id f hf).users :=
        Users.mem_update.2 (Or.inl ⟨huser, hid⟩)
      exact ⟨user, hmem, rfl, rfl, le_refl _⟩
  identities _ h := h

/-! ### What is kept as the site grows -/

variable {rt : Runtime}

theorem opened (h : Grows s s') {user_id : Int} {cause : Cause} (ho : Opened s user_id cause) :
    Opened s' user_id cause := by
  cases cause with
  | magic nonce address =>
    obtain ⟨hconsumed, user, huser, hid, hemail⟩ := ho
    obtain ⟨user', huser', hid', hemail', -⟩ := h.users user huser
    exact ⟨h.consumed hconsumed, user', huser', hid'.trans hid, hemail'.trans hemail⟩
  | oauth provider subject =>
    obtain ⟨hexchanged, identity, hidentity, howner⟩ := ho
    exact ⟨h.exchanged hexchanged, identity, h.identities identity hidentity, howner⟩
  | refresh cookie => exact ho

theorem refreshed (h : Grows s s') {old new : Issue} (hr : Refreshed s old new) :
    Refreshed s' old new :=
  ⟨h.cookies hr.1, h.cookies hr.2.1, hr.2.2⟩

theorem traced (h : Grows s s') {issue : Issue} (ht : Traced s issue) : Traced s' issue := by
  obtain ⟨first, hfirst, huser_id, hopened, hchain⟩ := ht
  exact ⟨first, h.cookies hfirst, huser_id, h.opened hopened,
    Relation.ReflTransGen.mono (fun _ _ => h.refreshed) _ _ hchain⟩

theorem holds (h : Grows s s') {cookie : Option Text} {user : User} (hh : Holds s cookie user) :
    Holds s' cookie user := by
  obtain ⟨issue, hissue, hrest⟩ := hh
  exact ⟨issue, h.cookies hissue, hrest⟩

theorem vouched (h : Grows s s') {issue : Issue} (hv : Vouched s issue) : Vouched s' issue where
  token := hv.token
  epoch := by
    obtain ⟨user, huser, hid, hle⟩ := hv.epoch
    obtain ⟨user', huser', hid', -, hepoch⟩ := h.users user huser
    exact ⟨user', huser', hid'.trans hid, hle.trans hepoch⟩
  renewed := hv.renewed
  traced := h.traced hv.traced

theorem accounted (h : Grows s s') {token : Token} (ha : Accounted rt s token) :
    Accounted rt s' token := by
  unfold Accounted at ha ⊢
  split at ha
  · obtain ⟨issue, hissue, htoken⟩ := ha
    exact ⟨issue, h.cookies hissue, htoken⟩
  · exact ha
  · trivial
  · trivial

theorem awaited (h : Grows s s') {request : InFlight} (ha : Awaited s request) :
    Awaited s' request := by
  cases request with
  | exchange provider => trivial
  | proxy cookie caller => exact fun user huser => h.holds (ha user huser)

end Grows

/-! ## Steps -/

section Steps

variable {rt : Runtime} {s s' : Site}

theorem sound_init (rt : Runtime) : Sound rt (Site.init Store.empty) where
  registered := registered_empty rt
  issued _ h := absurd h List.not_mem_nil
  cookies _ h := absurd h List.not_mem_nil
  inflight _ h := absurd h List.not_mem_nil

/-- A site that grows stays sound when what it adds is. -/
theorem Sound.grow (h : Sound rt s) (hg : Grows s s') (hregistered : Registered rt s'.store)
    (hissued : ∀ token ∈ s'.issued, token ∈ s.issued ∨ Accounted rt s' token)
    (hcookies : ∀ issue ∈ s'.cookies, issue ∈ s.cookies ∨ Vouched s' issue)
    (hinflight : ∀ request ∈ s'.inflight, request ∈ s.inflight ∨ Awaited s' request) :
    Sound rt s' where
  registered := hregistered
  issued token htoken :=
    (hissued token htoken).elim (fun hold => hg.accounted (h.issued token hold)) id
  cookies issue hissue :=
    (hcookies issue hissue).elim (fun hold => hg.vouched (h.cookies issue hold)) id
  inflight request hrequest :=
    (hinflight request hrequest).elim (fun hold => hg.awaited (h.inflight request hold)) id

/-- The history of sign-ins grows, requests land, and time goes on. -/
theorem Sound.same (h : Sound rt s) (s' : Site) (hstore : s'.store = s.store)
    (hissued : s'.issued = s.issued) (hcookies : s'.cookies = s.cookies)
    (hinflight : s'.inflight ⊆ s.inflight)
    (hconsumed : s.consumed ⊆ s'.consumed) (hexchanged : s.exchanged ⊆ s'.exchanged) :
    Sound rt s' ∧ Grows s s' := by
  have hg : Grows s s' :=
    Grows.of_store hstore (by rw [hcookies]; exact List.Subset.refl _) hconsumed hexchanged
  refine ⟨h.grow hg ?_ ?_ ?_ ?_, hg⟩
  · rw [hstore]
    exact h.registered
  · rw [hissued]
    exact fun _ => Or.inl
  · rw [hcookies]
    exact fun _ => Or.inl
  · exact fun _ hrequest => Or.inl (hinflight hrequest)

/-- The tables change. -/
theorem Sound.stored (h : Sound rt s) {db : Store} (hg : Grows s { s with store := db })
    (hregistered : Registered rt db) :
    Sound rt { s with store := db } ∧ Grows s { s with store := db } :=
  ⟨h.grow hg hregistered (fun _ => Or.inl) (fun _ => Or.inl) fun _ => Or.inl, hg⟩

/-- A token is signed that is no session. -/
theorem Sound.dumps (h : Sound rt s) (payload : Payload) (salt : Salt)
    (htoken : Accounted rt s { salt, payload, timestamp := s.clock }) :
    Sound rt (s.dumps payload salt) ∧ Grows s (s.dumps payload salt) := by
  have hg : Grows s (s.dumps payload salt) :=
    Grows.of_store rfl (List.Subset.refl _) (List.Subset.refl _) (List.Subset.refl _)
  refine ⟨h.grow hg h.registered ?_ (fun _ => Or.inl) fun _ => Or.inl, hg⟩
  intro token hmem
  rcases List.mem_append.1 hmem with hold | hnew
  · exact Or.inl hold
  · rw [List.mem_singleton.1 hnew]
    exact Or.inr (hg.accounted htoken)

/-- A request is suspended. -/
theorem Sound.suspend (h : Sound rt s) {request : InFlight} (hrequest : Awaited s request) :
    Sound rt { s with inflight := s.inflight ++ [request] } ∧
      Grows s { s with inflight := s.inflight ++ [request] } := by
  have hg : Grows s { s with inflight := s.inflight ++ [request] } :=
    Grows.of_store rfl (List.Subset.refl _) (List.Subset.refl _) (List.Subset.refl _)
  refine ⟨h.grow hg h.registered (fun _ => Or.inl) (fun _ => Or.inl) ?_, hg⟩
  intro other hmem
  rcases List.mem_append.1 hmem with hold | hnew
  · exact Or.inl hold
  · rw [List.mem_singleton.1 hnew]
    exact Or.inr (hg.awaited hrequest)

/-- A session is issued by a sign-in of the user, or for a cookie of the same user and
epoch. -/
theorem Sound.set_session (h : Sound rt s) {user_id epoch : Int} {cause : Cause}
    (hepoch : ∃ user ∈ s.store.users, user.id = user_id ∧ epoch ≤ user.session_epoch)
    (hcause : Opened s user_id cause ∨ ∃ old ∈ s.cookies,
      cause = .refresh (some (.token old.token)) ∧ old.user_id = user_id ∧ old.epoch = epoch) :
    Sound rt (s.set_session user_id epoch cause) ∧
      Grows s (s.set_session user_id epoch cause) := by
  let issue : Issue := { token := sessionToken user_id epoch s.clock, user_id, epoch, cause }
  have hissue : issue ∈ (s.set_session user_id epoch cause).cookies :=
    List.mem_append_right _ (List.mem_singleton_self _)
  have hg : Grows s (s.set_session user_id epoch cause) :=
    Grows.of_store rfl (List.subset_append_left _ _) (List.Subset.refl _) (List.Subset.refl _)
  have hvouched : Vouched (s.set_session user_id epoch cause) issue := by
    refine ⟨⟨s.clock, rfl⟩, hepoch, fun cookie hcookie => ?_, ?_⟩
    · -- a refresh comes with the token of its cookie
      rcases hcause with hopened | ⟨old, hold, heq, rfl, rfl⟩
      · change cause = _ at hcookie
        rw [hcookie] at hopened
        exact hopened.elim
      · obtain ⟨timestamp, htoken⟩ := (h.cookies old hold).token
        change cause = _ at hcookie
        rw [hcookie] at heq
        cases heq
        exact ⟨timestamp, by rw [htoken]⟩
    · rcases hcause with hopened | ⟨old, hold, heq, rfl, rfl⟩
      · exact ⟨issue, hissue, rfl, hg.opened hopened, Relation.ReflTransGen.refl⟩
      · obtain ⟨first, hfirst, huser_id, hopened, hchain⟩ := hg.traced (h.cookies old hold).traced
        exact ⟨first, hfirst, huser_id, hopened,
          hchain.tail ⟨hg.cookies hold, hissue, heq⟩⟩
  refine ⟨h.grow hg h.registered ?_ ?_ fun _ => Or.inl, hg⟩
  · intro token hmem
    rcases List.mem_append.1 hmem with hold | hnew
    · exact Or.inl hold
    · rw [List.mem_singleton.1 hnew]
      exact Or.inr ⟨issue, hissue, rfl⟩
  · intro other hmem
    rcases List.mem_append.1 hmem with hold | hnew
    · exact Or.inl hold
    · rw [List.mem_singleton.1 hnew]
      exact Or.inr hvouched

/-- Who is identified holds a cookie. -/
theorem Sound.holds (h : Sound rt s) {cookie : Option Text} {caller : Caller} {user : User}
    (hcaller : s.identify rt cookie = .ok caller) (huser : caller.user = some user) :
    Holds s cookie user := by
  obtain ⟨-, -, payload, timestamp, hcookie, hissued, -, hpayload⟩ :=
    identify_eq_some hcaller huser
  obtain ⟨issue, hissue, htoken⟩ := h.issued _ hissued
  obtain ⟨timestamp', hsession⟩ := (h.cookies issue hissue).token
  obtain ⟨hid, hepoch⟩ := hpayload issue.user_id issue.epoch
    (congrArg Signer.Token.payload (htoken.symm.trans hsession))
  exact ⟨issue, hissue, by rw [hcookie, htoken], hid.symm, hepoch.symm⟩

/-- A response of a caller that holds its cookie. -/
theorem Sound.finish (h : Sound rt s) {cookie : Option Text} {caller : Caller}
    (hholds : ∀ user, caller.user = some user → Holds s cookie user) :
    Sound rt (s.finish cookie caller) ∧ Grows s (s.finish cookie caller) := by
  unfold Site.finish
  split
  · rename_i user huser
    split
    · obtain ⟨old, hold, hcookie, hid, hepoch⟩ := hholds user huser
      obtain ⟨owner, howner, howner_id, hle⟩ := (h.cookies old hold).epoch
      refine h.set_session ⟨owner, howner, howner_id.trans hid, hepoch ▸ hle⟩
        (Or.inr ⟨old, hold, ?_, hid, hepoch⟩)
      rw [hcookie]
    · exact ⟨h, Grows.refl s⟩
  · exact ⟨h, Grows.refl s⟩

/-- A sign-in that opens the session it is answered with. -/
theorem Sound.sign_in (h : Sound rt s) {provider subject email : PyStr} {name : Option PyStr}
    {cause : Cause} {reply : Reply}
    (hsign : s.sign_in rt provider subject email name cause = some (s', reply))
    (hlink : provider = py "email" → rt.normalized email = subject)
    (hopened : ∀ db user, (Users.sign_in rt s.store s.now provider subject email name).2 =
        .ok (some user) → user ∈ db.users →
      (∃ identity ∈ db.identities, identity.key = (provider, subject) ∧
        identity.user_id = user.id) → Opened { s with store := db } user.id cause) :
    Sound rt s' ∧ Grows s s' := by
  obtain ⟨hextends, hregistered, hreturns⟩ := @sign_in_registered rt s.store s.now provider subject
    email name h.registered hlink
  obtain ⟨hstored, hg⟩ := h.stored (Grows.of_extends hextends) hregistered
  rcases site_sign_in_cases hsign with ⟨rfl, -⟩ | ⟨user, hresult, rfl, -⟩
  · exact ⟨hstored, hg⟩
  · obtain ⟨huser, identity, hidentity, hkey, howner, -⟩ := hreturns user hresult
    obtain ⟨hsession, hg'⟩ := hstored.set_session ⟨user, huser, rfl, le_refl _⟩
      (Or.inl (hopened _ user hresult huser ⟨identity, hidentity, hkey, howner⟩))
    exact ⟨hsession, hg.trans hg'⟩

theorem Sound.normal (h : Sound rt s) : LinksNormal rt s := by
  intro token address nonce hread
  obtain ⟨⟨payload, timestamp⟩, hloads, hpair⟩ := bind_eq_ok.1 hread
  obtain ⟨-, hissued, -⟩ := site_loads_eq_ok.1 hloads
  obtain ⟨address', nonce', hpayload, hnormal⟩ := h.issued _ hissued
  cases hpayload
  cases hpair
  exact hnormal

/-- Every step keeps a sound site sound, and takes nothing away. -/
theorem sound_effect {new : PyStr → Prop} (h : Sound rt s) (he : Effect rt new s s') :
    Sound rt s' ∧ Grows s s' := by
  have hregistered := registered_effect h.registered h.normal he
  cases he with
  | nothing => exact ⟨h, Grows.refl s⟩
  | waited =>
    exact h.same _ rfl rfl rfl (List.Subset.refl _) (List.Subset.refl _) (List.Subset.refl _)
  | @linked address nonce rows hnew hnormal hissue =>
    obtain ⟨hrows, hg⟩ := h.same { s with magic_tokens := rows } rfl rfl rfl
      (List.Subset.refl _) (List.Subset.refl _) (List.Subset.refl _)
    obtain ⟨hdumps, hg'⟩ := hrows.dumps (.magic address nonce) .magic
      ⟨address, nonce, rfl, hnormal⟩
    exact ⟨hdumps, hg.trans hg'⟩
  | @dumped payload salt hsession hmagic =>
    apply h.dumps payload salt
    cases salt with
    | session => exact absurd rfl hsession
    | magic => exact absurd rfl hmagic
    | csrf | oauthState => trivial
  | @verified token address nonce rows t reply hread hconsume hsign =>
    have hnormal := h.normal _ _ _ hread
    obtain ⟨hconsumed, hg⟩ := h.same
      { s with magic_tokens := rows, consumed := s.consumed ++ [(nonce, address)] }
      rfl rfl rfl (List.Subset.refl _) (List.subset_append_left _ _) (List.Subset.refl _)
    obtain ⟨hsound, hg'⟩ := hconsumed.sign_in hsign (fun _ => hnormal)
      fun db user hresult huser _ =>
        ⟨List.mem_append_right _ (List.mem_singleton_self _), user, huser, rfl,
          signed_in_email h.registered hnormal hresult⟩
    obtain ⟨entered, heq⟩ := noteEntry_fst nonce (t, reply)
    rw [heq]
    obtain ⟨hentered, hg''⟩ := hsound.same { t with entered } rfl rfl rfl
      (List.Subset.refl _) (List.Subset.refl _) (List.Subset.refl _)
    exact ⟨hentered, (hg.trans hg').trans hg''⟩
  | launched provider => exact h.suspend trivial
  | @exchanged i provider profile t reply hi hsign =>
    obtain ⟨hlanded, hg⟩ := h.same
      { s.landed i with exchanged := s.exchanged ++ [(provider.id, profile.subject)] }
      rfl rfl rfl List.eraseIdx_subset (List.Subset.refl _) (List.subset_append_left _ _)
    obtain ⟨hsound, hg'⟩ := hlanded.sign_in hsign
      (fun hcontra => absurd hcontra (provider_ne_email provider)) fun db user _ _ hidentity =>
        ⟨List.mem_append_right _ (List.mem_singleton_self _), hidentity⟩
    exact ⟨hsound, hg.trans hg'⟩
  | @bumped cookie caller user =>
    refine h.stored (Grows.update s user.id (fun _ => rfl) fun user => ?_) hregistered
    show user.session_epoch ≤ user.session_epoch + 1
    omega
  | used hcaller => exact h.finish fun user huser => h.holds hcaller huser
  | @usedForm cookie caller user_id nonce hcaller =>
    obtain ⟨hform, hg⟩ := h.dumps (.csrf user_id nonce) .csrf trivial
    obtain ⟨hfinish, hg'⟩ := hform.finish fun user huser => hg.holds (h.holds hcaller huser)
    exact ⟨hfinish, hg.trans hg'⟩
  | proxied hcaller => exact h.suspend fun user huser => h.holds hcaller huser
  | @responded i cookie caller hi =>
    obtain ⟨hlanded, hg⟩ := h.same (s.landed i) rfl rfl rfl List.eraseIdx_subset
      (List.Subset.refl _) (List.Subset.refl _)
    have hawaited : Awaited s (.proxy cookie caller) :=
      h.inflight _ (List.mem_of_getElem? hi)
    obtain ⟨hfinish, hg'⟩ := hlanded.finish fun user huser => hg.holds (hawaited user huser)
    exact ⟨hfinish, hg.trans hg'⟩
  | landed i =>
    exact h.same _ rfl rfl rfl List.eraseIdx_subset (List.Subset.refl _) (List.Subset.refl _)
  | disabled user_id flag =>
    exact h.stored (Grows.update s user_id (fun _ => rfl) fun _ => le_refl _) hregistered

end Steps

/-! ## Runs -/

section Runs

variable {rt : Runtime} {cfg : AuthConfig} {s s' : Site}

theorem sound_next {a : SiteAction} (h : Sound rt s) (hnext : s.next rt cfg a = some s') :
    Sound rt s' ∧ Grows s s' := by
  have hmakes : a.makes fun _ => True := by cases a <;> trivial
  exact sound_effect h (next_effect hmakes hnext)

theorem reachable_sound (hs : (Site.machine rt cfg).Reachable s) : Sound rt s :=
  hs.invariant (Sound rt) (sound_init rt) fun _ _ _ h _ hnext => (sound_next h hnext).1

theorem sound_run {as : List SiteAction} (h : Sound rt s)
    (hrun : (Site.machine rt cfg).run s as = some s') : Sound rt s' ∧ Grows s s' := by
  induction as generalizing s with
  | nil =>
    cases hrun
    exact ⟨h, Grows.refl _⟩
  | cons a rest ih =>
    obtain ⟨t, hnext, hrest⟩ := Option.bind_eq_some_iff.1 hrun
    obtain ⟨ht, hg⟩ := sound_next h hnext
    obtain ⟨hs', hg'⟩ := ih ht hrest
    exact ⟨hs', hg.trans hg'⟩

/-- Refreshes keep the user and the epoch. -/
theorem Sound.descendant (h : Sound rt s) {old issue : Issue} (hold : old ∈ s.cookies)
    (hchain : Relation.ReflTransGen (Refreshed s) old issue) :
    issue ∈ s.cookies ∧ issue.user_id = old.user_id ∧ issue.epoch = old.epoch := by
  induction hchain with
  | refl => exact ⟨hold, rfl, rfl⟩
  | tail _ hrefreshed ih =>
    obtain ⟨hmid, hnew, hcause⟩ := hrefreshed
    obtain ⟨-, huser_id, hepoch⟩ := ih
    obtain ⟨timestamp, hcookie⟩ := (h.cookies _ hnew).renewed _ hcause
    obtain ⟨timestamp', htoken⟩ := (h.cookies _ hmid).token
    rw [htoken] at hcookie
    obtain ⟨huser_id', hepoch', -⟩ :=
      sessionToken_inj (Signer.Text.token.inj (Option.some.inj hcookie))
    exact ⟨hnew, huser_id'.symm.trans huser_id, hepoch'.symm.trans hepoch⟩

/-- A cookie whose epoch has passed names nobody. -/
theorem Sound.expired (h : Sound rt s) {issue : Issue} (hissue : issue ∈ s.cookies)
    (hpassed : ∀ user ∈ s.store.users, user.id = issue.user_id → issue.epoch < user.session_epoch)
    {caller : Caller} (hcaller : s.identify rt (some (.token issue.token)) = .ok caller) :
    caller.user = none := by
  cases huser : caller.user with
  | none => rfl
  | some user =>
    obtain ⟨hmem, -, payload, timestamp, hcookie, -, -, hpayload⟩ := identify_eq_some hcaller huser
    obtain ⟨timestamp', htoken⟩ := (h.cookies issue hissue).token
    rw [htoken] at hcookie
    cases hcookie
    obtain ⟨hid, hepoch⟩ := hpayload issue.user_id issue.epoch rfl
    have hlt := hpassed user hmem hid
    omega

/-- After `bump_epoch` of a user, its cookies and all that they are refreshed to name
nobody. -/
theorem Sound.bumped (h : Sound rt s) {user_id : Int} {as : List SiteAction}
    (hrun : (Site.machine rt cfg).run { s with store := bump_epoch s.store user_id } as = some s')
    {old issue : Issue} (hold : old ∈ s.cookies) (hold_user : old.user_id = user_id)
    (hchain : Relation.ReflTransGen (Refreshed s') old issue) {caller : Caller}
    (hcaller : s'.identify rt (some (.token issue.token)) = .ok caller) : caller.user = none := by
  have hepochs : Grows s { s with store := bump_epoch s.store user_id } := by
    refine Grows.update s user_id (fun _ => rfl) fun user => ?_
    show user.session_epoch ≤ user.session_epoch + 1
    omega
  obtain ⟨hbump, -⟩ := h.stored hepochs (h.registered.bump_epoch user_id)
  obtain ⟨hs', hg⟩ := sound_run hbump hrun
  obtain ⟨hissue, hissue_user, hissue_epoch⟩ := hs'.descendant (hg.cookies hold) hchain
  -- the user's epoch was at least the cookie's, and has gone up by one since
  obtain ⟨owner, howner, howner_id, hle⟩ := (h.cookies old hold).epoch
  have hraised : { owner with session_epoch := owner.session_epoch + 1 } ∈
      (bump_epoch s.store user_id).users :=
    Users.mem_update.2 (Or.inr ⟨owner, howner, howner_id.trans hold_user, rfl⟩)
  obtain ⟨later, hlater, hlater_id, -, hlater_epoch⟩ := hg.users _ hraised
  refine hs'.expired hissue (fun user huser hid => ?_) hcaller
  have hsame := Table.eq_of_key huser hlater
    (hid.trans (hissue_user.trans (howner_id.symm.trans hlater_id.symm)))
  subst hsame
  dsimp only at hlater_epoch
  omega

/-- Signing out everywhere bumps the epoch of who is signed in. -/
theorem signout_everywhere {cookie : Option Text} {csrf : Text} {caller : Caller} {user : User}
    (hcaller : s.identify rt cookie = .ok caller) (huser : caller.user = some user)
    (hcsrf : s.check_csrf csrf user.id = true) :
    (s.signout rt cookie csrf true).1 = { s with store := bump_epoch s.store user.id } := by
  unfold Site.signout
  rw [hcaller]
  dsimp only
  rw [huser]
  dsimp only
  rw [hcsrf]
  rfl

end Runs

/-- In every run:
* a cookie names a user only if it was issued for this user at most 30 days ago, with the
  epoch that the user has now, and the user is not disabled;
* every cookie that was issued leads back through refreshes to a sign-in of its user;
* signing out everywhere bumps the epoch of the user, and after a bump no cookie of the
  user from before, and none that is refreshed from one, names anybody in any later state. -/
theorem sessions_are_authentic {rt : Runtime} {cfg : AuthConfig} {s : Site}
    (hs : (Site.machine rt cfg).Reachable s) :
    (∀ cookie caller user, s.identify rt cookie = .ok caller → caller.user = some user →
        user ∈ s.store.users ∧ user.disabled = false ∧ ∃ issue ∈ s.cookies,
          cookie = some (.token issue.token) ∧ issue.user_id = user.id ∧
          issue.epoch = user.session_epoch ∧ s.clock - issue.token.timestamp ≤ SESSION_MAX_AGE) ∧
      (∀ issue ∈ s.cookies, Traced s issue) ∧
      (∀ cookie csrf caller user, s.identify rt cookie = .ok caller → caller.user = some user →
        s.check_csrf csrf user.id = true → s.next rt cfg (.signout cookie csrf true) =
          some { s with store := bump_epoch s.store user.id }) ∧
      ∀ user_id as s',
        (Site.machine rt cfg).run { s with store := bump_epoch s.store user_id } as = some s' →
        ∀ old ∈ s.cookies, old.user_id = user_id → ∀ issue,
          Relation.ReflTransGen (Refreshed s') old issue →
          ∀ caller, s'.identify rt (some (.token issue.token)) = .ok caller →
            caller.user = none := by
  have h := reachable_sound hs
  refine ⟨fun cookie caller user hcaller huser => ?_,
    fun issue hissue => (h.cookies issue hissue).traced,
    fun cookie csrf caller user hcaller huser hcsrf =>
      congrArg some (signout_everywhere hcaller huser hcsrf),
    fun user_id as s' hrun old hold hold_user issue hchain caller hcaller =>
      h.bumped hrun hold hold_user hchain hcaller⟩
  obtain ⟨hmem, henabled, payload, timestamp, hcookie, -, hage, -⟩ := identify_eq_some hcaller huser
  obtain ⟨issue, hissue, heq, hid, hepoch⟩ := h.holds hcaller huser
  refine ⟨hmem, henabled, issue, hissue, heq, hid, hepoch, ?_⟩
  rw [hcookie] at heq
  rw [← Signer.Text.token.inj (Option.some.inj heq)]
  exact hage

/-- One user is signed in by a link.  A day later, a request with its cookie is being
forwarded. -/
def signedIn : List SiteAction :=
  [.magicRequest (py "ada@example.com") (py "n1") true true,
    .magicVerify (.token (linkToken (py "ada@example.com") (py "n1") 0)), .wait 90000,
    .proxy (some (.token (sessionToken 1 0 0)))]

def signedInSite : Site :=
  ((Site.machine plainRuntime { email_signin := true, providers := [] }).run
    (Site.init Store.empty) signedIn).getD (Site.init Store.empty)

/-- The epoch of the user is bumped, and the request is answered with a new cookie. -/
def bumpedSite : Site :=
  ((Site.machine plainRuntime { email_signin := true, providers := [] }).run
    { signedInSite with store := bump_epoch signedInSite.store 1 }
    [.wait 1, .responded 0]).getD signedInSite

def firstIssue : Issue where
  token := sessionToken 1 0 0
  user_id := 1
  epoch := 0
  cause := .magic (py "n1") (py "ada@example.com")

def lateIssue : Issue where
  token := sessionToken 1 0 90001
  user_id := 1
  epoch := 0
  cause := .refresh (some (.token firstIssue.token))

theorem sessions_are_authentic_late :
    firstIssue ∈ signedInSite.cookies ∧ lateIssue ∈ bumpedSite.cookies ∧
      ∀ caller, bumpedSite.identify plainRuntime (some (.token lateIssue.token)) = .ok caller →
        caller.user = none := by
  have hreachable : (Site.machine plainRuntime { email_signin := true, providers := [] }).Reachable
      signedInSite :=
    Transition.Machine.reachable_of_run (Transition.eq_some_getD _ (by decide +kernel))
  have hfirst : firstIssue ∈ signedInSite.cookies := by decide +kernel
  have hkept : firstIssue ∈ bumpedSite.cookies := by decide +kernel
  have hlate : lateIssue ∈ bumpedSite.cookies := by decide +kernel
  obtain ⟨-, -, -, hrevoked⟩ := sessions_are_authentic hreachable
  exact ⟨hfirst, hlate, hrevoked 1 [.wait 1, .responded 0] bumpedSite
    (Transition.eq_some_getD _ (by decide +kernel)) firstIssue hfirst rfl lateIssue
    (Relation.ReflTransGen.single ⟨hkept, hlate, rfl⟩)⟩

end Auth

end OpendssGateway
