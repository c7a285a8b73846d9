import OpendssGateway.Gateway.Session

/-!
# The exchange of a code

`exchange_code` of `auth.py`: three calls to the provider, and the identity
that is read off their responses.

A call fails in transport, or it has a response with any status and any
body.  The first two calls are the same for every provider.  GitHub lists
the addresses of an account, and two loops search the list; Google says in
the user's document whether the address is verified.

* `searchEmail_eq`: what a loop finds, and that it raises at an entry that
  is no dict.
* `exchange_code_verified`: an identity has a subject, and the address of
  the entry that decides, which is marked as verified.
-/

namespace OpendssGateway

namespace Json

def isDict : Json → Bool
  | obj _ => true
  | _ => false

/-- What `v.get(key)` returns for a dict. -/
def field (v : Json) (key : String) : Json :=
  (v.member key).getD null

/-- The member of a dict counts as true. -/
def flag (v : Json) (key : String) : Bool :=
  (v.field key).truthy

/-- What a loop over the value runs through. -/
def items : Json → Except PyError (List Json)
  | arr entries => .ok entries
  | str s => .ok (s.map fun c => str [c])
  | obj members => .ok (members.map fun member => str member.1)
  | _ => .error .typeError

theorem get_eq (v : Json) (key : String) :
    v.get key = if v.isDict then .ok (v.field key) else .error .attributeError := by
  cases v <;> rfl

theorem isDict_of_flag {v : Json} {key : String} (h : v.flag key = true) : v.isDict = true := by
  cases v with
  | obj members => rfl
  | _ => cases h

/-- A member that counts as true is there. -/
theorem member_of_field {v w : Json} {key : String} (h : v.field key = w) (hw : w ≠ null) :
    v.member key = some w := by
  unfold field at h
  cases hmember : v.member key with
  | none =>
    rw [hmember] at h
    exact absurd h.symm hw
  | some x =>
    rw [hmember] at h
    exact congrArg some h

end Json

namespace Auth

/-- What `exchange_code` raises. -/
inductive ExchangeError
  /-- `AuthError` -/
  | auth (message : String)
  /-- `httpx.HTTPError` -/
  | http
  /-- any other exception -/
  | python (e : PyError)

def raises {α : Type} : Except PyError α → Except ExchangeError α
  | .ok a => .ok a
  | .error e => .error (.python e)

/-- A response of a provider. -/
structure Response where
  status : Nat
  /-- `.json()`.  `none` is `ValueError`. -/
  json : Option Json

/-- `raise_for_status` does not raise. -/
def Response.is_success (res : Response) : Bool :=
  200 ≤ res.status && res.status ≤ 299

/-- What a provider does with the three calls.  `none` is a failure in transport. -/
structure Answers where
  token : Option Response
  userinfo : Option Response
  emails : Option Response

/-- The client that makes the calls. -/
structure HttpClient where
  /-- It can encode a text as the value of a header. -/
  encodes : PyStr → Bool

structure ExternalIdentity where
  provider : Provider
  subject : PyStr
  email : PyStr
  /-- any value that the provider has sent -/
  name : Json

/-- A call, `raise_for_status` and `json`. -/
def fetch : Option Response → Except ExchangeError Json
  | none => .error .http
  | some res =>
    if res.is_success then
      match res.json with
      | some v => .ok v
      | none => .error (.python .valueError)
    else .error .http

/-- A loop over the entries: the email of the first one that is wanted. -/
def searchEmail (wanted : Json → Except PyError Bool) : List Json → Except PyError Json
  | [] => .ok .null
  | entry :: rest => do
    if ← wanted entry then entry.get "email" else searchEmail wanted rest

/-- `entry.get("verified") and entry.get("primary")`. -/
def verifiedPrimary (entry : Json) : Except PyError Bool := do
  let verified ← entry.get "verified"
  if verified.truthy then
    let primary ← entry.get "primary"
    pure primary.truthy
  else pure false

/-- `entry.get("verified")`. -/
def verified (entry : Json) : Except PyError Bool := do
  let verified ← entry.get "verified"
  pure verified.truthy

section Exchange

variable (rt : Runtime) (client : HttpClient) (provider : Provider) (answers : Answers)

/-- The subject, the name and the email of a GitHub account. -/
def githubAccount (info : Json) : Except ExchangeError (PyStr × Json × Json) := do
  let id ← raises (info.get "id")
  let subject := (id.or (.str [])).toStr rt
  let name ← raises (info.get "name")
  let login ← raises (info.get "login")
  let name := name.or login
  let listed ← fetch answers.emails
  let entries ← raises listed.items
  let email ← raises (searchEmail verifiedPrimary entries)
  let email ← if email.isNull then raises (searchEmail verified entries) else pure email
  if email.truthy then pure (subject, name, email)
  else throw (.auth ("Your GitHub account has no verified email address, " ++
    "which is what the account is keyed on."))

/-- The same of a Google account. -/
def googleAccount (info : Json) : Except ExchangeError (PyStr × Json × Json) := do
  let sub ← raises (info.get "sub")
  let subject := (sub.or (.str [])).toStr rt
  let name ← raises (info.get "name")
  let email ← raises (info.get "email")
  let email_verified ← raises (info.get "email_verified")
  if email_verified.truthy then pure (subject, name, email)
  else throw (.auth "Google reports that email address as unverified.")

/-- `if provider.id == "github"`. -/
def accountIn (info : Json) : Provider → Except ExchangeError (PyStr × Json × Json)
  | .github => githubAccount rt answers info
  | .google => googleAccount rt info

/-- What stands under the `try`. -/
def readAccount : Except ExchangeError (PyStr × Json × Json) := do
  let token ← fetch answers.token
  let access ← raises (token.get "access_token")
  if access.truthy then
    if client.encodes (py "Bearer " ++ access.toStr rt) then
      let info ← fetch answers.userinfo
      accountIn rt answers info provider
    else throw (.python .unicodeEncodeError)
  else throw (.auth (provider.label ++ " did not return an access token."))

/-- `except httpx.HTTPError`. -/
def handled {α : Type} : Except ExchangeError α → Except ExchangeError α
  | .error .http =>
    .error (.auth ("Could not talk to " ++ provider.label ++ ". Try again in a moment."))
  | outcome => outcome

/-- `valid_email(email or "")`.  A value that counts as true and is no string has no
`strip`. -/
def validEmail (email : Json) : Except PyError PyStr :=
  match email.or (.str []) with
  | .str s => .ok ((valid_email rt s).getD [])
  | _ => .error .attributeError

/-- What is left to do with an account. -/
def identityOf (account : PyStr × Json × Json) : Except ExchangeError ExternalIdentity := do
  let (subject, name, email) := account
  if subject.isEmpty then throw (.auth (provider.label ++ " did not identify the account."))
  else
    let email ← raises (validEmail rt email)
    if email.isEmpty then
      throw (.auth (provider.label ++ " returned an unusable email address."))
    else pure { provider, subject, email, name }

/-- `exchange_code`. -/
def exchange_code : Except ExchangeError ExternalIdentity := do
  let account ← handled provider (readAccount rt client provider answers)
  identityOf rt provider account

end Exchange

/-! ## Readers -/

theorem raises_eq_ok {α : Type} {x : Except PyError α} {a : α} : raises x = .ok a ↔ x = .ok a := by
  cases x <;> simp [raises]

theorem fetch_eq_ok {answer : Option Response} {v : Json} :
    fetch answer = .ok v ↔
      ∃ res, answer = some res ∧ res.is_success = true ∧ res.json = some v := by
  unfold fetch
  cases answer with
  | none => simp
  | some res =>
    cases hsuccess : res.is_success with
    | false => simp [hsuccess]
    | true => cases hjson : res.json <;> simp [hsuccess, hjson]

theorem verified_eq (entry : Json) :
    verified entry =
      if entry.isDict then .ok (entry.flag "verified") else .error .attributeError := by
  unfold verified
  rw [Json.get_eq]
  cases entry.isDict <;> rfl

theorem verifiedPrimary_eq (entry : Json) :
    verifiedPrimary entry =
      if entry.isDict then .ok (entry.flag "verified" && entry.flag "primary")
      else .error .attributeError := by
  unfold verifiedPrimary
  rw [Json.get_eq, Json.get_eq]
  cases entry.isDict with
  | false => rfl
  | true =>
    show (if entry.flag "verified" then _ else _) = _
    cases entry.flag "verified" <;> rfl

/-! ## The loops over the addresses -/

/-- The email of an entry that was found. -/
def emailOf : Option Json → Json
  | none => .null
  | some entry => entry.field "email"

/-- A loop raises at the first entry that is no dict, unless it has ended before.  Else it
has the email of the first entry that is wanted. -/
theorem searchEmail_eq {wanted : Json → Except PyError Bool} {flag : Json → Bool}
    (hwanted : ∀ entry, wanted entry =
      if entry.isDict then .ok (flag entry) else .error .attributeError)
    (hflag : ∀ entry, flag entry = true → entry.isDict = true) (entries : List Json) :
    searchEmail wanted entries =
      if (entries.takeWhile fun entry => !flag entry).all Json.isDict then
        .ok (emailOf (entries.find? flag))
      else .error .attributeError := by
  induction entries with
  | nil => rfl
  | cons entry rest ih =>
    unfold searchEmail
    rw [hwanted]
    cases hentry : flag entry with
    | true =>
      have hdict := hflag entry hentry
      rw [List.takeWhile_cons_of_neg (by simp [hentry]), List.find?_cons_of_pos hentry,
        if_pos hdict]
      show entry.get "email" = _
      rw [Json.get_eq, if_pos hdict]
      rfl
    | false =>
      rw [List.takeWhile_cons_of_pos (by simp [hentry]), List.find?_cons_of_neg (by simp [hentry])]
      cases hdict : entry.isDict with
      | false => simp [hdict, bind, Except.bind]
      | true =>
        show searchEmail wanted rest = _
        rw [ih]
        simp [hdict]

/-- The entries before the first one that is verified and primary. -/
def walked (entries : List Json) : List Json :=
  entries.takeWhile fun entry => !(entry.flag "verified" && entry.flag "primary")

def firstPrimary (entries : List Json) : Option Json :=
  entries.find? fun entry => entry.flag "verified" && entry.flag "primary"

def firstVerified (entries : List Json) : Option Json :=
  entries.find? fun entry => entry.flag "verified"

theorem search_primary (entries : List Json) :
    searchEmail verifiedPrimary entries =
      if (walked entries).all Json.isDict then .ok (emailOf (firstPrimary entries))
      else .error .attributeError :=
  searchEmail_eq verifiedPrimary_eq
    (fun _ h => Json.isDict_of_flag ((Bool.and_eq_true _ _).mp h).1) entries

/-- The second loop gets no further than the first one, so it does not raise. -/
theorem search_verified {entries : List Json} (h : (walked entries).all Json.isDict = true) :
    searchEmail verified entries = .ok (emailOf (firstVerified entries)) := by
  rw [searchEmail_eq verified_eq fun _ h => Json.isDict_of_flag h]
  apply if_pos
  rw [List.all_eq_true] at h ⊢
  intro entry hentry
  refine h entry ?_
  unfold walked
  clear h
  induction entries with
  | nil => cases hentry
  | cons first rest ih =>
    cases hfirst : first.flag "verified" with
    | true =>
      rw [List.takeWhile_cons_of_neg (by simp [hfirst])] at hentry
      cases hentry
    | false =>
      rw [List.takeWhile_cons_of_pos (by simp [hfirst])] at hentry ⊢
      exact (List.mem_cons.1 hentry).elim (fun h => h ▸ List.mem_cons_self ..)
        fun h => List.mem_cons_of_mem _ (ih h)

/-- The email that the loops leave: the one of the first entry that is verified and
primary, or of the first verified one if that is missing. -/
def listedEmail (entries : List Json) : Json :=
  if (emailOf (firstPrimary entries)).isNull then emailOf (firstVerified entries)
  else emailOf (firstPrimary entries)

/-! ## The accounts -/

section Accounts

variable {rt : Runtime} {client : HttpClient} {provider : Provider} {answers : Answers}

/-- `str(v.get(key) or "")`. -/
def subjectOf (rt : Runtime) (v : Json) (key : String) : PyStr :=
  ((v.field key).or (.str [])).toStr rt

/-- What the loops leave is an account, unless no address is left. -/
def listedAccount (subject : PyStr) (name : Json) (entries : List Json) :
    Except ExchangeError (PyStr × Json × Json) :=
  if (walked entries).all Json.isDict then
    if (listedEmail entries).truthy then .ok (subject, name, listedEmail entries)
    else .error (.auth ("Your GitHub account has no verified email address, " ++
      "which is what the account is keyed on."))
  else .error (.python .attributeError)

theorem githubAccount_eq {info : Json} (h : info.isDict = true) :
    githubAccount rt answers info = (do
      let listed ← fetch answers.emails
      let entries ← raises listed.items
      listedAccount (subjectOf rt info "id") ((info.field "name").or (info.field "login"))
        entries) := by
  unfold githubAccount
  rw [Json.get_eq, Json.get_eq, Json.get_eq, if_pos h, if_pos h, if_pos h]
  show (fetch answers.emails >>= _) = _
  congr 1
  funext listed
  congr 1
  funext entries
  unfold listedAccount listedEmail
  rw [search_primary]
  by_cases hwalked : (walked entries).all Json.isDict = true
  · rw [if_pos hwalked, if_pos hwalked, search_verified hwalked]
    show (if (emailOf (firstPrimary entries)).isNull = true then _ else _) = _
    by_cases hnull : (emailOf (firstPrimary entries)).isNull = true
    · rw [if_pos hnull, if_pos hnull]
      rfl
    · rw [if_neg hnull, if_neg hnull]
      rfl
  · rw [if_neg hwalked, if_neg hwalked]
    rfl

theorem googleAccount_eq {info : Json} (h : info.isDict = true) :
    googleAccount rt info =
      if info.flag "email_verified" then
        .ok (subjectOf rt info "sub", info.field "name", info.field "email")
      else .error (.auth "Google reports that email address as unverified.") := by
  unfold googleAccount
  rw [Json.get_eq, Json.get_eq, Json.get_eq, Json.get_eq, if_pos h, if_pos h, if_pos h, if_pos h]
  rfl

/-- An info that is no dict raises at the first member that is read. -/
theorem account_of_not_dict {info : Json} (h : info.isDict = false) :
    githubAccount rt answers info = .error (.python .attributeError) ∧
      googleAccount rt info = .error (.python .attributeError) := by
  constructor
  · unfold githubAccount
    rw [Json.get_eq, h]
    rfl
  · unfold googleAccount
    rw [Json.get_eq, h]
    rfl

theorem handled_eq_ok {α : Type} {x : Except ExchangeError α} {a : α} :
    handled provider x = .ok a ↔ x = .ok a := by
  cases x with
  | ok b => exact Iff.rfl
  | error e => cases e <;> simp [handled]

theorem validEmail_eq_ok {email : Json} {address : PyStr} (h : validEmail rt email = .ok address)
    (hne : address ≠ []) :
    ∃ s, email = .str s ∧ valid_email rt s = some address := by
  unfold validEmail Json.or at h
  split at h
  · rename_i s hs
    have hvalid : valid_email rt s = some address := by
      cases hv : valid_email rt s with
      | none =>
        rw [hv] at h
        exact absurd (Except.ok.inj h).symm hne
      | some a =>
        rw [hv] at h
        exact congrArg some (Except.ok.inj h)
    split at hs
    · exact ⟨s, hs, hvalid⟩
    · cases hs
      cases hvalid
  · cases h

/-- What an account that becomes an identity has. -/
theorem identityOf_eq_ok {account : PyStr × Json × Json} {ident : ExternalIdentity}
    (h : identityOf rt provider account = .ok ident) :
    ident.provider = provider ∧ ident.subject = account.1 ∧ ident.subject ≠ [] ∧
      ident.name = account.2.1 ∧
      ∃ s, account.2.2 = .str s ∧ valid_email rt s = some ident.email := by
  unfold identityOf at h
  dsimp only at h
  split at h
  · cases h
  · rename_i hsubject
    obtain ⟨address, haddress, h⟩ := bind_eq_ok.1 h
    split at h
    · cases h
    · rename_i hne
      cases h
      exact ⟨rfl, rfl, by simpa using hsubject, rfl,
        validEmail_eq_ok (raises_eq_ok.1 haddress) (by simpa using hne)⟩

/-- The account of an identity, from the provider's user document. -/
theorem exchange_code_eq_ok {ident : ExternalIdentity}
    (h : exchange_code rt client provider answers = .ok ident) :
    ∃ res info account, answers.userinfo = some res ∧ res.json = some info ∧
      accountIn rt answers info provider = .ok account ∧
      identityOf rt provider account = .ok ident := by
  unfold exchange_code at h
  obtain ⟨account, haccount, hident⟩ := bind_eq_ok.1 h
  have hread := handled_eq_ok.1 haccount
  unfold readAccount at hread
  obtain ⟨token, -, hread⟩ := bind_eq_ok.1 hread
  obtain ⟨access, -, hread⟩ := bind_eq_ok.1 hread
  split at hread
  · split at hread
    · obtain ⟨info, hinfo, hread⟩ := bind_eq_ok.1 hread
      obtain ⟨res, hres, -, hjson⟩ := fetch_eq_ok.1 hinfo
      exact ⟨res, info, account, hres, hjson, hread, hident⟩
    · cases hread
  · cases hread

end Accounts

/-! ## The address of an identity -/

/-- An entry carries an address. -/
def carries (entry : Json) : Bool :=
  match entry.field "email" with
  | .str (_ :: _) => true
  | _ => false

/-- The entry that decides: the first one that is both verified and primary when it carries
an address, else the first verified one. -/
def deciding (entries : List Json) : Option Json :=
  match firstPrimary entries with
  | some entry => if carries entry then some entry else firstVerified entries
  | none => firstVerified entries

/-- The provider has marked an address as verified, where it counts. -/
inductive Attested : Provider → Answers → PyStr → Prop
  | github {answers : Answers} {res : Response} {entries : List Json} {entry : Json}
      {address : PyStr} (hres : answers.emails = some res) (hjson : res.json = some (.arr entries))
      (hentry : deciding entries = some entry) (hverified : entry.flag "verified" = true)
      (haddress : entry.member "email" = some (.str address)) : Attested .github answers address
  | google {answers : Answers} {res : Response} {info : Json} {address : PyStr}
      (hres : answers.userinfo = some res) (hjson : res.json = some info)
      (hverified : info.flag "email_verified" = true)
      (haddress : info.member "email" = some (.str address)) : Attested .google answers address

section Identity

variable {rt : Runtime} {client : HttpClient} {provider : Provider} {answers : Answers}

theorem member_email {entry : Json} {address : PyStr} (h : entry.field "email" = .str address) :
    entry.member "email" = some (.str address) :=
  Json.member_of_field h (by intro hcontra; cases hcontra)

theorem carries_iff {entry : Json} :
    carries entry = true ↔ ∃ c rest, entry.field "email" = .str (c :: rest) := by
  unfold carries
  split
  · rename_i c rest hfield
    exact ⟨fun _ => ⟨c, rest, hfield⟩, fun _ => rfl⟩
  · rename_i hother
    constructor
    · intro h
      cases h
    · rintro ⟨c, rest, hfield⟩
      exact absurd hfield (hother c rest)

theorem mem_of_deciding {entries : List Json} {entry : Json} (h : deciding entries = some entry) :
    entry ∈ entries := by
  unfold deciding at h
  split at h
  · rename_i first hfirst
    split at h
    · cases h
      exact List.mem_of_find?_eq_some hfirst
    · exact List.mem_of_find?_eq_some h
  · exact List.mem_of_find?_eq_some h

/-- Only a list has an entry with members. -/
theorem items_of_flag {v entry : Json} {entries : List Json} {key : String}
    (h : v.items = .ok entries) (hentry : entry ∈ entries) (hflag : entry.flag key = true) :
    v = .arr entries := by
  cases v with
  | arr l => exact congrArg Json.arr (Except.ok.inj h)
  | str s =>
    cases h
    obtain ⟨c, -, rfl⟩ := List.mem_map.1 hentry
    cases hflag
  | obj members =>
    cases h
    obtain ⟨member, -, rfl⟩ := List.mem_map.1 hentry
    cases hflag
  | _ => cases h

/-- The entry that the email of the loops is from. -/
theorem deciding_of_listedEmail {entries : List Json} {address : PyStr}
    (h : listedEmail entries = .str address) (hne : address ≠ []) :
    ∃ entry, deciding entries = some entry ∧ entry.flag "verified" = true ∧
      entry.field "email" = .str address := by
  have hsecond : emailOf (firstVerified entries) = .str address →
      ∃ entry, firstVerified entries = some entry ∧ entry.flag "verified" = true ∧
        entry.field "email" = .str address := by
    intro hemail
    cases hfound : firstVerified entries with
    | none =>
      rw [hfound] at hemail
      cases hemail
    | some entry =>
      rw [hfound] at hemail
      have hverified : entry.flag "verified" = true := by
        simpa using List.find?_some (show entries.find? _ = some entry from hfound)
      exact ⟨entry, rfl, hverified, hemail⟩
  unfold listedEmail at h
  unfold deciding
  cases hprimary : firstPrimary entries with
  | none =>
    rw [hprimary] at h
    exact hsecond h
  | some entry =>
    rw [hprimary] at h
    have hflags := List.find?_some hprimary
    dsimp only at h ⊢
    split at h
    · rename_i hnull
      rw [if_neg fun hcarries => ?_]
      · exact hsecond h
      · obtain ⟨c, rest, hfield⟩ := carries_iff.1 hcarries
        rw [emailOf, hfield] at hnull
        cases hnull
    · obtain ⟨c, rest, rfl⟩ := List.exists_cons_of_ne_nil hne
      rw [if_pos (carries_iff.2 ⟨c, rest, h⟩)]
      exact ⟨entry, rfl, ((Bool.and_eq_true _ _).mp hflags).1, h⟩

/-- A GitHub address is the one of an entry that is marked as verified. -/
theorem Attested.entry {address : PyStr} {res : Response} {entries : List Json}
    (h : Attested .github answers address) (hres : answers.emails = some res)
    (hjson : res.json = some (.arr entries)) :
    ∃ entry ∈ entries, entry.flag "verified" = true ∧
      entry.member "email" = some (.str address) := by
  cases h with
  | github hres' hjson' hentry hverified haddress =>
    cases hres.symm.trans hres'
    cases hjson.symm.trans hjson'
    exact ⟨_, mem_of_deciding hentry, hverified, haddress⟩

/-- The loops leave the address of the entry that decides. -/
theorem github_attested {info : Json} {account : PyStr × Json × Json} {address : PyStr}
    (hdict : info.isDict = true) (h : githubAccount rt answers info = .ok account)
    (haddress : account.2.2 = .str address) : Attested .github answers address := by
  have hlist := (githubAccount_eq hdict).symm.trans h
  obtain ⟨listed, hlisted, hlist⟩ := bind_eq_ok.1 hlist
  obtain ⟨res, hres, -, hjson⟩ := fetch_eq_ok.1 hlisted
  obtain ⟨entries, hentries, hlist⟩ := bind_eq_ok.1 hlist
  unfold listedAccount at hlist
  split at hlist
  · split at hlist
    · rename_i htruthy
      cases hlist
      have hne : address ≠ [] := by
        rintro rfl
        rw [show listedEmail entries = .str [] from haddress] at htruthy
        cases htruthy
      obtain ⟨entry, hentry, hverified, hemail⟩ := deciding_of_listedEmail haddress hne
      have hlist := items_of_flag (raises_eq_ok.1 hentries) (mem_of_deciding hentry) hverified
      exact .github hres (hjson.trans (congrArg some hlist)) hentry hverified
        (member_email hemail)
    · cases hlist
  · cases hlist

/-- An identity has a subject, and its email is the normal form of an address that the
provider has marked as verified: of the entry that decides, or of the user's document.
An address that no entry marks is not returned. -/
theorem exchange_code_attested (rt : Runtime) (client : HttpClient) (provider : Provider)
    (answers : Answers) (ident : ExternalIdentity)
    (h : exchange_code rt client provider answers = .ok ident) :
    ident.subject ≠ [] ∧
      (∃ address, Attested provider answers address ∧
        valid_email rt address = some ident.email ∧ ident.email = rt.normalized address) ∧
      ∀ res entries, provider = .github → answers.emails = some res →
        res.json = some (.arr entries) →
        ∃ entry ∈ entries, entry.flag "verified" = true ∧
          ∃ address, entry.member "email" = some (.str address) ∧
            ident.email = rt.normalized address := by
  obtain ⟨res, info, account, hres, hjson, haccount, hident⟩ := exchange_code_eq_ok h
  obtain ⟨-, -, hsubject, -, address, haddress, hvalid⟩ := identityOf_eq_ok hident
  have hnormal := (valid_email_normalized hvalid).1
  have hdict : info.isDict = true := by
    by_contra hnot
    have hraise := @account_of_not_dict rt answers info (by simpa using hnot)
    cases provider with
    | github => cases hraise.1.symm.trans haccount
    | google => cases hraise.2.symm.trans haccount
  have hattested : Attested provider answers address := by
    cases provider with
    | github => exact github_attested hdict haccount haddress
    | google =>
      have hinfo := (googleAccount_eq hdict).symm.trans haccount
      split at hinfo
      · cases hinfo
        exact .google hres hjson ‹_› (member_email haddress)
      · cases hinfo
  refine ⟨hsubject, ⟨address, hattested, hvalid, hnormal⟩, ?_⟩
  rintro res entries rfl hres hjson
  obtain ⟨entry, hentry, hverified, hmember⟩ := hattested.entry hres hjson
  exact ⟨entry, hentry, hverified, address, hmember, hnormal⟩

/-- Responses of GitHub: the primary address is not verified, another one is. -/
def unverifiedPrimary : Answers where
  token := some { status := 200, json := some (.obj [(py "access_token", .str (py "t"))]) }
  userinfo := some { status := 200, json := some (.obj [(py "id", .int 7)]) }
  emails := some { status := 200, json := some (.arr [
    .obj [(py "email", .str (py "victim@x.org")), (py "primary", .bool true)],
    .obj [(py "email", .str (py "Ada@x.org")), (py "verified", .bool true)]]) }

theorem exchange_code_attested_ada :
    ∃ ident address, exchange_code plainRuntime ⟨fun _ => true⟩ .github unverifiedPrimary =
        .ok ident ∧ Attested .github unverifiedPrimary address ∧
      ident.email = plainRuntime.normalized address ∧ ident.email = py "ada@x.org" := by
  have hemail : (exchange_code plainRuntime ⟨fun _ => true⟩ .github unverifiedPrimary).toOption.map
      ExternalIdentity.email = some (py "ada@x.org") := by decide +kernel
  cases h : exchange_code plainRuntime ⟨fun _ => true⟩ .github unverifiedPrimary with
  | error e =>
    rw [h] at hemail
    cases hemail
  | ok ident =>
    rw [h] at hemail
    obtain ⟨-, ⟨address, hattested, -, hnormal⟩, -⟩ :=
      exchange_code_attested plainRuntime ⟨fun _ => true⟩ .github unverifiedPrimary ident h
    exact ⟨ident, address, rfl, hattested, hnormal, Option.some.inj hemail⟩

end Identity

end Auth

end OpendssGateway
