import OpendssGateway.Gateway.Exchange
import OpendssGateway.Gateway.SessionRuns

/-!
# What the exchange of a code raises

The body of `exchange_code` turns `httpx.HTTPError` into `AuthError`, and
nothing else.  A document that cannot be decoded, or that has a value of
another type where the code reads one, raises something that neither it nor
the callback handles.

`Lands P` says of a computation that nothing else is raised and that an
identity it returns is `P`.  It goes through the computation one step at a
time, and what it needs of the three responses is `Answerable`.

* `lands_exchange_code`: `exchange_code` lands if and only if the responses
  are `Answerable`.
* `callback_answers`: so does the callback, when the database takes the
  identity as well.  The store changes with a sign-in only.
-/

namespace OpendssGateway

namespace Auth

/-! ## Landing -/

/-- Nothing but `AuthError` and `httpx.HTTPError` is raised, and what is returned is `P`. -/
def Lands {α : Type} (P : α → Prop) : Except ExchangeError α → Prop
  | .ok a => P a
  | .error (.python _) => False
  | .error _ => True

section Landing

variable {α β : Type} {P : α → Prop}

@[simp] theorem lands_ok {a : α} : Lands P (.ok a) ↔ P a := Iff.rfl

@[simp] theorem lands_auth {message : String} : Lands P (.error (.auth message)) ↔ True := Iff.rfl

@[simp] theorem lands_python {e : PyError} : Lands P (.error (.python e)) ↔ False := Iff.rfl

theorem lands_bind {Q : β → Prop} {x : Except ExchangeError α} {f : α → Except ExchangeError β} :
    Lands Q (x >>= f) ↔ Lands (fun a => Lands Q (f a)) x := by
  cases x with
  | ok a => exact Iff.rfl
  | error e => cases e <;> exact Iff.rfl

/-- The `except` clause turns one exception that lands into another. -/
theorem lands_handled {provider : Provider} {x : Except ExchangeError α} :
    Lands P (handled provider x) ↔ Lands P x := by
  cases x with
  | ok a => exact Iff.rfl
  | error e => cases e <;> exact Iff.rfl

theorem lands_raises {x : Except PyError α} : Lands P (raises x) ↔ ∃ a, x = .ok a ∧ P a := by
  cases x with
  | ok a => simp [raises]
  | error e => simp [raises]

theorem lands_get {v : Json} {key : String} {P : Json → Prop} :
    Lands P (raises (v.get key)) ↔ v.isDict = true ∧ P (v.field key) := by
  rw [lands_raises, Json.get_eq]
  cases v.isDict <;> simp

end Landing

/-! ## What the responses have to be -/

/-- A response that is no failure has a document, which is `P`. -/
def Decodes (answer : Option Response) (P : Json → Prop) : Prop :=
  ∀ res, answer = some res → res.is_success = true → ∃ v, res.json = some v ∧ P v

theorem lands_fetch {answer : Option Response} {P : Json → Prop} :
    Lands P (fetch answer) ↔ Decodes answer P := by
  unfold fetch Decodes
  cases answer with
  | none => simp [Lands]
  | some res =>
    cases hsuccess : res.is_success with
    | false => simp [hsuccess, Lands]
    | true => cases hjson : res.json <;> simp [hsuccess, hjson, Lands]

theorem decodes_congr {answer : Option Response} {P Q : Json → Prop} (h : ∀ v, P v ↔ Q v) :
    Decodes answer P ↔ Decodes answer Q := by
  rw [funext fun v => propext (h v)]

section Conditions

variable (rt : Runtime) (client : HttpClient) (provider : Provider) (answers : Answers)
  (P : ExternalIdentity → Prop)

/-- An account with a subject has no email, or a text; the identity that it makes is `P`. -/
def Identifiable (subject : PyStr) (name email : Json) : Prop :=
  subject ≠ [] → email.truthy = true → ∃ s, email = .str s ∧
    ∀ address, valid_email rt s = some address → address ≠ [] →
      P { provider, subject, email := address, name }

/-- The user's document, and GitHub's list of addresses: it can be walked, and the entries
are dicts up to the first that is verified and primary. -/
def AccountAnswerable (info : Json) : Provider → Prop
  | .github => Decodes answers.emails fun listed => ∃ entries, listed.items = .ok entries ∧
      (walked entries).all Json.isDict = true ∧
      Identifiable rt .github P (subjectOf rt info "id")
        ((info.field "name").or (info.field "login")) (listedEmail entries)
  | .google => info.flag "email_verified" = true →
      Identifiable rt .google P (subjectOf rt info "sub") (info.field "name") (info.field "email")

/-- What `exchange_code` needs of the three responses. -/
def Answerable : Prop :=
  Decodes answers.token fun token => token.isDict = true ∧
    (token.flag "access_token" = true →
      client.encodes (py "Bearer " ++ (token.field "access_token").toStr rt) = true ∧
      Decodes answers.userinfo fun info =>
        info.isDict = true ∧ AccountAnswerable rt answers P info provider)

end Conditions

/-! ## `exchange_code` lands -/

section Exchange

variable {rt : Runtime} {client : HttpClient} {provider : Provider} {answers : Answers}
  {P : ExternalIdentity → Prop}

theorem valid_email_nil : valid_email rt [] = none := rfl

theorem lands_identityOf {subject : PyStr} {name email : Json} :
    Lands P (identityOf rt provider (subject, name, email)) ↔
      Identifiable rt provider P subject name email := by
  unfold identityOf Identifiable
  cases subject with
  | nil => simp [Lands, throw, throwThe, MonadExceptOf.throw]
  | cons c rest =>
    show Lands P (raises (validEmail rt email) >>= _) ↔ _
    rw [lands_bind, lands_raises]
    have hleaf : ∀ address, Lands P
        (if address.isEmpty then
          throw (.auth (provider.label ++ " returned an unusable email address."))
        else pure { provider, subject := c :: rest, email := address, name } :
          Except ExchangeError ExternalIdentity) ↔
        (address ≠ [] → P { provider, subject := c :: rest, email := address, name }) := by
      intro address
      cases address <;> simp [Lands, throw, throwThe, MonadExceptOf.throw, pure, Except.pure]
    simp only [hleaf]
    unfold validEmail Json.or
    by_cases htruthy : email.truthy = true
    · rw [if_pos htruthy]
      cases email with
      | str s => cases hvalid : valid_email rt s <;> simp [htruthy, hvalid]
      | _ => simp [htruthy]
    · rw [if_neg htruthy]
      simp [htruthy, valid_email_nil]

theorem lands_accountIn {info : Json} :
    Lands (fun account => Lands P (identityOf rt provider account))
        (accountIn rt answers info provider) ↔
      info.isDict = true ∧ AccountAnswerable rt answers P info provider := by
  cases hdict : info.isDict with
  | false =>
    have hraise := @account_of_not_dict rt answers info hdict
    cases provider with
    | github => simp [accountIn, hraise.1]
    | google => simp [accountIn, hraise.2]
  | true =>
    cases provider with
    | github =>
      show Lands _ (githubAccount rt answers info) ↔ _
      rw [githubAccount_eq hdict, lands_bind, lands_fetch]
      simp only [lands_bind, lands_raises, true_and, AccountAnswerable]
      have hleaf : ∀ (subject : PyStr) (name : Json) (entries : List Json),
          Lands (fun account => Lands P (identityOf rt .github account))
            (listedAccount subject name entries) ↔
          (walked entries).all Json.isDict = true ∧
            Identifiable rt .github P subject name (listedEmail entries) := by
        intro subject name entries
        unfold listedAccount
        split
        · rename_i hwalked
          split
          · rw [lands_ok, lands_identityOf]
            simp [hwalked]
          · rename_i hfalsy
            simp [hwalked, Identifiable, hfalsy]
        · rename_i hwalked
          simp [hwalked]
      simp only [hleaf]
    | google =>
      show Lands _ (googleAccount rt info) ↔ _
      rw [googleAccount_eq hdict]
      unfold AccountAnswerable
      cases hflag : info.flag "email_verified" with
      | true => simp [lands_identityOf]
      | false => simp

/-- `exchange_code` returns an identity that is `P` or raises an error that is handled, if
and only if the responses are answerable. -/
theorem lands_exchange_code :
    Lands P (exchange_code rt client provider answers) ↔
      Answerable rt client provider answers P := by
  unfold exchange_code Answerable
  rw [lands_bind, lands_handled]
  unfold readAccount
  rw [lands_bind, lands_fetch]
  simp only [lands_bind, lands_get]
  refine decodes_congr fun token => and_congr_right fun _ => ?_
  unfold Json.flag
  split
  · rename_i haccess
    rw [forall_prop_of_true haccess]
    split
    · rename_i hencodes
      rw [lands_bind, lands_fetch, and_iff_right hencodes]
      exact decodes_congr fun info => lands_accountIn
    · rename_i hencodes
      exact iff_of_false id fun h => hencodes h.1
  · rename_i haccess
    exact iff_of_true trivial fun h => absurd h haccess

theorem handled_ne_http {α : Type} (x : Except ExchangeError α) :
    handled provider x ≠ .error .http := by
  intro h
  cases x with
  | ok a => cases h
  | error e => cases e <;> cases h

theorem identityOf_ne_http (account : PyStr × Json × Json) :
    identityOf rt provider account ≠ .error .http := by
  obtain ⟨subject, name, email⟩ := account
  intro h
  cases subject with
  | nil => cases h
  | cons c rest =>
    change (raises (validEmail rt email) >>= _) = _ at h
    cases hemail : validEmail rt email with
    | error e =>
      rw [hemail] at h
      cases h
    | ok address =>
      rw [hemail] at h
      cases address <;> cases h

theorem exchange_code_ne_http :
    exchange_code rt client provider answers ≠ .error .http := by
  unfold exchange_code
  intro h
  cases hread : handled provider (readAccount rt client provider answers) with
  | error e =>
    rw [hread] at h
    cases h
    exact handled_ne_http _ hread
  | ok account =>
    rw [hread] at h
    exact identityOf_ne_http account h

/-- To land is to return an identity or to raise `AuthError`. -/
theorem exchange_code_ends :
    Lands (fun _ => True) (exchange_code rt client provider answers) ↔
      (∃ ident, exchange_code rt client provider answers = .ok ident) ∨
        ∃ message, exchange_code rt client provider answers = .error (.auth message) := by
  cases hcode : exchange_code rt client provider answers with
  | ok ident => simp
  | error e =>
    cases e with
    | auth message => simp
    | http => exact absurd hcode exchange_code_ne_http
    | python e => simp

end Exchange

/-! ## The callback -/

/-- Note that a provider has confirmed an identity. -/
def Site.confirmed (s : Site) (ident : ExternalIdentity) : Site :=
  { s with exchanged := s.exchanged ++ [(ident.provider.id, ident.subject)] }

/-- `sign_in` with the name that a provider has sent, and a session for the user.  A name
that cannot be bound raises within the transaction, which is rolled back. -/
def Site.signInAs (rt : Runtime) (s : Site) (ident : ExternalIdentity) : Option (Site × Reply) :=
  match bindValue ident.name with
  | .error _ => some (s.confirmed ident, .raised)
  | .ok v =>
    (s.confirmed ident).sign_in rt ident.provider.id ident.subject ident.email (textColumn rt v)
      (.oauth ident.provider.id ident.subject)

/-- The callback, once `exchange_code` has ended. -/
def Site.code_exchanged (rt : Runtime) (s : Site) :
    Except ExchangeError ExternalIdentity → Option (Site × Reply)
  | .error (.auth message) => some (s, .refused 400 message)
  | .error _ => some (s, .raised)
  | .ok ident => s.signInAs rt ident

/-- The database takes the texts of an identity. -/
def Storable (rt : Runtime) (db : Store) (ident : ExternalIdentity) : Prop :=
  (∃ v, bindText ident.subject = .ok v) ∧
    (∃ v w, bindValue ident.name = .ok v ∧ Users.bindName (textColumn rt v) = .ok w) ∧
    (Users.byIdentity db ident.provider.id ident.subject = none →
      ∃ v, bindText (rt.normalized ident.email) = .ok v)

/-- The callback has signed a user in, or answers with the page of an error. -/
def Answered (reply : Reply) : Prop :=
  (∃ user, reply = .signedIn user) ∨ ∃ message, reply = .refused 400 message

section Callback

variable {rt : Runtime} {s : Site} {ident : ExternalIdentity}

theorem bindText_cases (text : PyStr) :
    (∃ v, bindText text = .ok v) ∨ bindText text = .error .unicodeEncodeError := by
  unfold bindText
  split
  · exact Or.inr rfl
  · exact Or.inl ⟨_, rfl⟩

theorem bindName_cases (name : Option PyStr) :
    (∃ v, Users.bindName name = .ok v) ∨ Users.bindName name = .error .unicodeEncodeError := by
  cases name with
  | none => exact Or.inl ⟨_, rfl⟩
  | some name => exact bindText_cases name

/-- The statements of a sign-in can bind these texts. -/
structure Bindable (db : Store) (provider subject email : PyStr) (name : Option PyStr) : Prop where
  subject_ok : ∃ v, bindText subject = .ok v
  name_ok : ∃ v, Users.bindName name = .ok v
  email_ok : Users.byIdentity db provider subject = none → ∃ v, bindText email = .ok v

/-- The transaction of a sign-in commits if the database takes its texts. -/
theorem transaction_cases (db : Store) (now : ℚ) {provider : PyStr}
    (hprovider : ∃ v, bindText provider = .ok v) (subject email : PyStr) (name : Option PyStr) :
    (Bindable db provider subject email name ∧
        ∃ result, Users.sign_in_transaction db now provider subject email name = .ok result) ∨
      (¬ Bindable db provider subject email name ∧
        Users.sign_in_transaction db now provider subject email name =
          .error .unicodeEncodeError) := by
  obtain ⟨v, hprovider⟩ := hprovider
  unfold Users.sign_in_transaction Users.account
  rw [hprovider]
  rcases bindText_cases subject with ⟨w, hsubject⟩ | hsubject
  · rw [hsubject]
    cases hknown : Users.byIdentity db provider subject with
    | some user =>
      rcases bindName_cases name with ⟨x, hname⟩ | hname
      · rw [hname]
        refine Or.inl ⟨⟨⟨w, hsubject⟩, ⟨x, hname⟩, fun h => ?_⟩, _, rfl⟩
        rw [hknown] at h
        cases h
      · rw [hname]
        refine Or.inr ⟨fun h => ?_, rfl⟩
        obtain ⟨x, h⟩ := h.name_ok
        cases hname.symm.trans h
    | none =>
      unfold Users.byEmailOrNew
      rcases bindText_cases email with ⟨y, hemail⟩ | hemail
      · rw [hemail]
        rcases bindName_cases name with ⟨x, hname⟩ | hname
        · rw [hname]
          refine Or.inl ⟨⟨⟨w, hsubject⟩, ⟨x, hname⟩, fun _ => ⟨y, hemail⟩⟩, ?_⟩
          cases db.users.rows.find? fun user => user.email = email <;> exact ⟨_, rfl⟩
        · rw [hname]
          refine Or.inr ⟨fun h => ?_, ?_⟩
          · obtain ⟨x, h⟩ := h.name_ok
            cases hname.symm.trans h
          · cases db.users.rows.find? fun user => user.email = email <;> rfl
      · rw [hemail]
        refine Or.inr ⟨fun h => ?_, rfl⟩
        obtain ⟨y, h⟩ := h.email_ok hknown
        cases hemail.symm.trans h
  · rw [hsubject]
    refine Or.inr ⟨fun h => ?_, rfl⟩
    obtain ⟨w, h⟩ := h.subject_ok
    cases hsubject.symm.trans h

/-- The name can be bound if it is a value of SQLite, and is a text in its column. -/
theorem signInAs_cases (hregistered : Registered rt s.store) :
    (Storable rt s.store ident ∧
        (s.signInAs rt ident = none ∨
          ∃ s' user, s.signInAs rt ident = some (s', .signedIn user))) ∨
      (¬ Storable rt s.store ident ∧
        ∃ s', s.signInAs rt ident = some (s', .raised) ∧ s'.store = s.store) := by
  unfold Site.signInAs Storable
  cases hvalue : bindValue ident.name with
  | error e =>
    right
    refine ⟨?_, _, rfl, rfl⟩
    rintro ⟨-, ⟨v, w, h, -⟩, -⟩
    cases h
  | ok v =>
    have hprovider : ∃ v, bindText ident.provider.id = .ok v := by
      cases ident.provider <;> exact ⟨_, rfl⟩
    rcases transaction_cases s.store s.now hprovider ident.subject
      (rt.normalized ident.email) (textColumn rt v) with
      ⟨⟨hsubject, ⟨w, hname⟩, hemail⟩, ⟨db, user_id⟩, hcommit⟩ | ⟨hnot, hraise⟩
    · left
      refine ⟨⟨hsubject, ⟨v, w, rfl, hname⟩, hemail⟩, ?_⟩
      rcases sign_in_committed hregistered
        (fun h => absurd h (provider_ne_email ident.provider)) hcommit with
        hresult | ⟨user, hresult⟩
      · exact Or.inl (site_sign_in_of_overflow (s := s.confirmed ident) _ hresult)
      · obtain ⟨s', hs'⟩ := site_sign_in_of_ok (s := s.confirmed ident) _ hresult
        exact Or.inr ⟨s', user, hs'⟩
    · right
      refine ⟨?_, ?_⟩
      · rintro ⟨hsubject, ⟨v', w, h, hname⟩, hemail⟩
        cases h
        exact hnot ⟨hsubject, ⟨w, hname⟩, hemail⟩
      · have hresult : Users.sign_in rt s.store s.now ident.provider.id ident.subject ident.email
            (textColumn rt v) = (s.store, .error .unicodeEncodeError) := by
          unfold Users.sign_in
          rw [hraise]
        unfold Site.sign_in
        dsimp only [Site.confirmed]
        rw [hresult]
        exact ⟨_, rfl, rfl⟩

/-- The callback of an exchange that lands with an identity the database takes, and only
this, is answered.  Nothing is stored unless it signs a user in. -/
theorem code_exchanged_cases (hregistered : Registered rt s.store)
    {outcome : Except ExchangeError ExternalIdentity} (hne : outcome ≠ .error .http) :
    ((∀ s' reply, s.code_exchanged rt outcome = some (s', reply) → Answered reply) ↔
        Lands (Storable rt s.store) outcome) ∧
      ∀ s' reply, s.code_exchanged rt outcome = some (s', reply) →
        (∃ user, reply = .signedIn user) ∨ s'.store = s.store := by
  cases outcome with
  | error e =>
    cases e with
    | auth message =>
      refine ⟨iff_of_true ?_ trivial, ?_⟩
      · rintro s' reply ⟨⟩
        exact Or.inr ⟨message, rfl⟩
      · rintro s' reply ⟨⟩
        exact Or.inr rfl
    | http => exact absurd rfl hne
    | python e =>
      refine ⟨iff_of_false (fun h => ?_) id, ?_⟩
      · rcases h s .raised rfl with ⟨_, h⟩ | ⟨_, h⟩ <;> cases h
      · rintro s' reply ⟨⟩
        exact Or.inr rfl
  | ok ident =>
    show ((∀ s' reply, s.signInAs rt ident = some (s', reply) → _) ↔ _) ∧
      ∀ s' reply, s.signInAs rt ident = some (s', reply) → _
    rw [lands_ok]
    rcases @signInAs_cases rt s ident hregistered with
      ⟨hstorable, hnone | ⟨t, user, hsome⟩⟩ | ⟨hnot, t, hraised, hstore⟩
    · rw [hnone]
      refine ⟨iff_of_true ?_ hstorable, ?_⟩
      · rintro s' reply ⟨⟩
      · rintro s' reply ⟨⟩
    · rw [hsome]
      refine ⟨iff_of_true ?_ hstorable, ?_⟩
      · rintro s' reply ⟨⟩
        exact Or.inl ⟨user, rfl⟩
      · rintro s' reply ⟨⟩
        exact Or.inl ⟨user, rfl⟩
    · rw [hraised]
      refine ⟨iff_of_false (fun h => ?_) hnot, ?_⟩
      · rcases h t .raised rfl with ⟨_, h⟩ | ⟨_, h⟩ <;> cases h
      · rintro s' reply ⟨⟩
        exact Or.inr hstore

/-- A callback does what `Site.exchanged_code` does with some profile or `AuthError`, or it
raises and leaves the store alone. -/
theorem code_exchanged_exchanged {client : HttpClient} {provider : Provider} {answers : Answers}
    {s' : Site} {reply : Reply}
    (h : s.code_exchanged rt (exchange_code rt client provider answers) = some (s', reply)) :
    (∃ answer, s.exchanged_code rt provider answer = some (s', reply)) ∨
      (reply = .raised ∧ s'.store = s.store) := by
  cases hcode : exchange_code rt client provider answers with
  | error e =>
    rw [hcode] at h
    cases e with
    | auth message => exact Or.inl ⟨.error message, h⟩
    | http => exact absurd hcode exchange_code_ne_http
    | python e =>
      cases h
      exact Or.inr ⟨rfl, rfl⟩
  | ok ident =>
    rw [hcode] at h
    change s.signInAs rt ident = _ at h
    unfold Site.signInAs at h
    cases hvalue : bindValue ident.name with
    | error e =>
      rw [hvalue] at h
      cases h
      exact Or.inr ⟨rfl, rfl⟩
    | ok v =>
      rw [hvalue] at h
      obtain ⟨-, -, account, -, -, -, hident⟩ := exchange_code_eq_ok hcode
      obtain ⟨rfl, -, hsubject, -, address, -, hvalid⟩ := identityOf_eq_ok hident
      refine Or.inl
        ⟨.ok { subject := ident.subject, email := address, name := textColumn rt v }, ?_⟩
      obtain ⟨c, rest, hcons⟩ := List.exists_cons_of_ne_nil hsubject
      have hprofile : Site.exchange_code rt ident.provider
          (.ok { subject := ident.subject, email := address, name := textColumn rt v }) =
          .ok { subject := ident.subject, email := ident.email, name := textColumn rt v } := by
        unfold Site.exchange_code
        simp [hcons, hvalid, bind, Except.bind, pure, Except.pure]
      unfold Site.exchanged_code
      rw [hprofile]
      exact h

/-- `exchange_code` returns an identity or raises `AuthError` if and only if the responses
are answerable.  The callback ends in a sign-in or in a page of an error if and only if they
are, and the database takes the identity.  It changes the store with a sign-in only. -/
theorem callback_answers (rt : Runtime) (cfg : AuthConfig) (s : Site)
    (hs : (Site.machine rt cfg).Reachable s) (client : HttpClient) (provider : Provider)
    (answers : Answers) :
    (((∃ ident, exchange_code rt client provider answers = .ok ident) ∨
          ∃ message, exchange_code rt client provider answers = .error (.auth message)) ↔
        Answerable rt client provider answers fun _ => True) ∧
      ((∀ s' reply, s.code_exchanged rt (exchange_code rt client provider answers) =
          some (s', reply) → Answered reply) ↔
        Answerable rt client provider answers (Storable rt s.store)) ∧
      ∀ s' reply, s.code_exchanged rt (exchange_code rt client provider answers) =
          some (s', reply) → (∃ user, reply = .signedIn user) ∨ s'.store = s.store := by
  have hcases := code_exchanged_cases (s := s) (reachable_sound hs).registered
    (@exchange_code_ne_http rt client provider answers)
  rw [← exchange_code_ends, lands_exchange_code, ← lands_exchange_code (P := Storable rt s.store)]
  exact ⟨Iff.rfl, hcases⟩

/-- A token response of 200 whose body is no JSON. -/
def htmlToken : Answers where
  token := some { status := 200, json := none }
  userinfo := none
  emails := none

theorem callback_answers_start :
    Answerable plainRuntime ⟨fun _ => true⟩ .github unverifiedPrimary (fun _ => True) ∧
      ¬ Answerable plainRuntime ⟨fun _ => true⟩ .github htmlToken fun _ => True := by
  have hiff := fun answers => (callback_answers plainRuntime
    { email_signin := true, providers := [.github] } (Site.init Store.empty) .init
    ⟨fun _ => true⟩ .github answers).1
  constructor
  · have hok : (exchange_code plainRuntime ⟨fun _ => true⟩ .github
        unverifiedPrimary).toOption.isSome = true := by decide +kernel
    rw [← hiff]
    cases h : exchange_code plainRuntime ⟨fun _ => true⟩ .github unverifiedPrimary with
    | ok ident => exact Or.inl ⟨ident, rfl⟩
    | error e =>
      rw [h] at hok
      cases hok
  · rw [← hiff]
    rintro (⟨_, h⟩ | ⟨_, h⟩) <;> cases h

/-- A body that is no JSON raises `ValueError`, and the callback with it. -/
theorem exchange_code_raises :
    ¬ ∀ (rt : Runtime) (client : HttpClient) (provider : Provider) (answers : Answers),
      (∃ ident, exchange_code rt client provider answers = .ok ident) ∨
        ∃ message, exchange_code rt client provider answers = .error (.auth message) := by
  intro h
  rcases h plainRuntime ⟨fun _ => true⟩ .github htmlToken with ⟨_, h⟩ | ⟨_, h⟩ <;> cases h

end Callback

end Auth

end OpendssGateway
