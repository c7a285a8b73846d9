import OpendssGateway.Gateway.Json
import OpendssGateway.Library.Form

/-!
# The URLs of OAuth

`authorize_url` puts the parameters of a sign-in in the query of a URL, and
the provider reads them there.

* `decodeUtf8_encodeUtf8`: a text that can be encoded is decoded to itself.
* `authorize_url_reads_back`: the provider reads the parameters, whatever
  the client's id, the redirect URI and the state are.
-/

namespace OpendssGateway

/-! ## Texts on the wire -/

/-- `s.encode()`, which raises for a surrogate. -/
def encodeUtf8 (s : PyStr) : Except PyError Form.Bytes :=
  if ∀ c ∈ s, Nat.isValidChar c then .ok (String.ofList (s.map Char.ofNat)).toUTF8.data.toList
  else .error .unicodeEncodeError

/-- What the bytes are the text of.  `none` when they are no UTF-8. -/
def decodeUtf8 (b : Form.Bytes) : Option PyStr :=
  (String.fromUTF8? ⟨b.toArray⟩).map py

theorem decodeUtf8_encodeUtf8 {s : PyStr} {b : Form.Bytes} (h : encodeUtf8 s = .ok b) :
    decodeUtf8 b = some s := by
  unfold encodeUtf8 at h
  split_ifs at h with hvalid
  cases h
  have htext : py (String.ofList (s.map Char.ofNat)) = s := by
    unfold py
    rw [String.toList_ofList, List.map_map]
    refine (List.map_congr_left fun c hc => ?_).trans (List.map_id s)
    show (Char.ofNat c).toNat = c
    rw [Char.ofNat, dif_pos (hvalid c hc)]
    rfl
  have hbytes : String.fromUTF8? ⟨(String.ofList (s.map Char.ofNat)).toUTF8.data.toList.toArray⟩ =
      some (String.ofList (s.map Char.ofNat)) := by
    unfold String.fromUTF8?
    rw [Array.toArray_toList]
    exact dif_pos (String.ofList (s.map Char.ofNat)).isValidUTF8
  unfold decodeUtf8
  rw [hbytes, Option.map_some, htext]

/-- ASCII is encoded as it is. -/
theorem encodeUtf8_ascii {s : PyStr} (h : ∀ c ∈ s, c < 128) :
    encodeUtf8 s = .ok (s.map UInt8.ofNat) := by
  have hvalid : ∀ c ∈ s, Nat.isValidChar c := fun c hc => Or.inl (by have := h c hc; omega)
  have hchar : ∀ c, c < 128 → String.utf8EncodeChar (Char.ofNat c) = [UInt8.ofNat c] := by
    intro c hc
    have hval : (Char.ofNat c).val.toNat = c := by
      rw [Char.ofNat, dif_pos (Or.inl (by omega) : Nat.isValidChar c)]
      rfl
    have hsize : (Char.ofNat c).utf8Size = 1 := by
      rw [Char.utf8Size_eq_one_iff, UInt32.le_iff_toNat_le, hval]
      exact Nat.le_of_lt_succ hc
    rw [String.utf8EncodeChar_eq_singleton hsize, List.cons.injEq]
    refine ⟨UInt8.toNat_inj.1 ?_, rfl⟩
    rw [UInt32.toNat_toUInt8, hval, UInt8.toNat_ofNat']
  unfold encodeUtf8
  rw [if_pos hvalid]
  congr 1
  rw [String.toUTF8_eq_toByteArray, String.toByteArray_ofList, List.utf8Encode,
    List.toList_data_toByteArray, List.flatMap_map, List.map_eq_flatMap]
  exact List.flatMap_congr fun c hc => hchar c (h c hc)

/-- The bytes of a name or a value that `quote_plus` leaves as they are. -/
def alwaysSafe (b : UInt8) : Bool :=
  (48 ≤ b && b ≤ 57) || (65 ≤ b && b ≤ 90) || (97 ≤ b && b ≤ 122) || b == 95 || b == 46 ||
    b == 45 || b == 126

def encodeField (param : PyStr × PyStr) : Except PyError (Form.Bytes × Form.Bytes) := do
  let name ← encodeUtf8 param.1
  let value ← encodeUtf8 param.2
  .ok (name, value)

theorem mapM_encodeField_ascii {params : List (PyStr × PyStr)}
    (h : ∀ param ∈ params, (∀ c ∈ param.1, c < 128) ∧ ∀ c ∈ param.2, c < 128) :
    params.mapM encodeField =
      .ok (params.map fun param => (param.1.map UInt8.ofNat, param.2.map UInt8.ofNat)) := by
  induction params with
  | nil => rfl
  | cons param rest ih =>
    obtain ⟨hname, hvalue⟩ := h param List.mem_cons_self
    have hparam : encodeField param =
        .ok (param.1.map UInt8.ofNat, param.2.map UInt8.ofNat) := by
      unfold encodeField
      rw [encodeUtf8_ascii hname, encodeUtf8_ascii hvalue]
      rfl
    rw [List.mapM_cons, hparam, ih fun other hother => h other (List.mem_cons_of_mem param hother)]
    rfl

/-- `urllib.parse.urlencode`. -/
def urlencode (params : List (PyStr × PyStr)) : Except PyError PyStr := do
  let fields ← params.mapM encodeField
  .ok ((Form.serialize alwaysSafe fields).map UInt8.toNat)

/-- The text after `?`, up to a `#`. -/
def queryOf (url : PyStr) : PyStr :=
  ((url.takeWhile (· ≠ 35)).dropWhile (· ≠ 63)).drop 1

theorem queryOf_append {address query : PyStr} (haddress : ∀ c ∈ address, c ≠ 35 ∧ c ≠ 63)
    (hquery : ∀ c ∈ query, c ≠ 35) : queryOf (address ++ 63 :: query) = query := by
  have hwhole : (address ++ 63 :: query).takeWhile (fun c => decide (c ≠ 35)) =
      address ++ 63 :: query := by
    refine List.takeWhile_eq_self_iff.2 fun c hc => decide_eq_true ?_
    rcases List.mem_append.1 hc with hc | hc
    · exact (haddress c hc).1
    · rcases List.mem_cons.1 hc with rfl | hc
      · decide
      · exact hquery c hc
  have hskip : ∀ c ∈ address, decide (c ≠ 63) = true := fun c hc =>
    decide_eq_true (haddress c hc).2
  unfold queryOf
  rw [hwhole, List.dropWhile_append_of_pos hskip]
  simp

def decodeField (field : Form.Bytes × Form.Bytes) : Option (PyStr × PyStr) := do
  let name ← decodeUtf8 field.1
  let value ← decodeUtf8 field.2
  some (name, value)

/-- The parameters of a query.  `none` when one of them is no text. -/
def readQuery (query : PyStr) : Option (List (PyStr × PyStr)) :=
  (Form.parse (query.map UInt8.ofNat)).mapM decodeField

theorem decodeField_encodeField {param : PyStr × PyStr} {field : Form.Bytes × Form.Bytes}
    (h : encodeField param = .ok field) : decodeField field = some param := by
  obtain ⟨name, hname, h⟩ := bind_eq_ok.1 h
  obtain ⟨value, hvalue, h⟩ := bind_eq_ok.1 h
  cases h
  simp [decodeField, decodeUtf8_encodeUtf8 hname, decodeUtf8_encodeUtf8 hvalue]

theorem mapM_decodeField {params : List (PyStr × PyStr)} {fields : Form.Fields}
    (h : params.mapM encodeField = .ok fields) : fields.mapM decodeField = some params := by
  induction params generalizing fields with
  | nil =>
    cases h
    rfl
  | cons param params ih =>
    rw [List.mapM_cons] at h
    obtain ⟨field, hfield, h⟩ := bind_eq_ok.1 h
    obtain ⟨rest, hrest, h⟩ := bind_eq_ok.1 h
    cases h
    rw [List.mapM_cons, decodeField_encodeField hfield, ih hrest]
    rfl

theorem alwaysSafe_reserves : Form.Reserves alwaysSafe where
  percent := by decide
  ampersand := by decide
  plus := by decide
  equals := by decide

/-- What any writer puts into a query is read from it. -/
theorem readQuery_serialize {safe : UInt8 → Bool} (hsafe : Form.Reserves safe)
    {params : List (PyStr × PyStr)} {fields : Form.Fields}
    (h : params.mapM encodeField = .ok fields) :
    readQuery ((Form.serialize safe fields).map UInt8.toNat) = some params := by
  have hbytes : ((Form.serialize safe fields).map UInt8.toNat).map UInt8.ofNat =
      Form.serialize safe fields := by
    rw [List.map_map]
    refine (List.map_congr_left fun b _ => ?_).trans (List.map_id _)
    exact UInt8.ofNat_toNat
  unfold readQuery
  rw [hbytes, Form.parse_serialize hsafe]
  exact mapM_decodeField h

theorem readQuery_urlencode {params : List (PyStr × PyStr)} {query : PyStr}
    (h : urlencode params = .ok query) : readQuery query = some params := by
  obtain ⟨fields, hfields, h⟩ := bind_eq_ok.1 h
  cases h
  exact readQuery_serialize alwaysSafe_reserves hfields

/-- A query has no fragment. -/
theorem urlencode_ne_hash {params : List (PyStr × PyStr)} {query : PyStr}
    (h : urlencode params = .ok query) : ∀ c ∈ query, c ≠ 35 := by
  obtain ⟨fields, -, h⟩ := bind_eq_ok.1 h
  cases h
  have hall : ∀ c ∈ Form.serialize alwaysSafe fields, c ≠ 35 := by
    refine Form.of_mem_serialize (fun b hb => ?_) (by decide) fun b => ?_
    · exact Form.ne_of_safe hb (by decide)
    · exact ⟨(Form.hexDigit_ne b (Or.inl rfl)).1, (Form.hexDigit_ne b (Or.inr rfl)).1⟩
  intro c hc hhash
  obtain ⟨b, hb, rfl⟩ := List.mem_map.1 hc
  exact hall b hb (UInt8.toNat_inj.1 hhash)

/-! ## Providers -/

/-- `auth.Provider`. -/
structure OAuthProvider where
  id : PyStr
  label : PyStr
  client_id : PyStr
  client_secret : PyStr
  authorize_url : PyStr
  token_url : PyStr
  userinfo_url : PyStr
  scope : PyStr
  emails_url : Option PyStr := none

def OAuthProvider.enabled (provider : OAuthProvider) : Bool :=
  !provider.client_id.isEmpty && !provider.client_secret.isEmpty

def github_provider (client_id client_secret : PyStr) (base : PyStr := py "https://github.com")
    (api : PyStr := py "https://api.github.com") : OAuthProvider where
  id := py "github"
  label := py "GitHub"
  client_id := client_id
  client_secret := client_secret
  authorize_url := base ++ py "/login/oauth/authorize"
  token_url := base ++ py "/login/oauth/access_token"
  userinfo_url := api ++ py "/user"
  scope := py "read:user user:email"
  emails_url := some (api ++ py "/user/emails")

def google_provider (client_id client_secret : PyStr)
    (accounts : PyStr := py "https://accounts.google.com")
    (token : PyStr := py "https://oauth2.googleapis.com")
    (openid : PyStr := py "https://openidconnect.googleapis.com") : OAuthProvider where
  id := py "google"
  label := py "Google"
  client_id := client_id
  client_secret := client_secret
  authorize_url := accounts ++ py "/o/oauth2/v2/auth"
  token_url := token ++ py "/token"
  userinfo_url := openid ++ py "/v1/userinfo"
  scope := py "openid email profile"

/-- The dict of `authorize_url`. -/
def authorizeParams (provider : OAuthProvider) (redirect_uri state : PyStr) :
    List (PyStr × PyStr) :=
  [(py "client_id", provider.client_id), (py "redirect_uri", redirect_uri),
    (py "scope", provider.scope), (py "state", state), (py "response_type", py "code")] ++
  if provider.id = py "google" then
    [(py "access_type", py "online"), (py "prompt", py "select_account")]
  else []

def authorize_url (provider : OAuthProvider) (redirect_uri state : PyStr) :
    Except PyError PyStr := do
  let query ← urlencode (authorizeParams provider redirect_uri state)
  .ok (provider.authorize_url ++ 63 :: query)

/-- The provider is asked at its own address, and reads the parameters. -/
theorem authorize_url_reads_back {provider : OAuthProvider} {redirect_uri state url : PyStr}
    (haddress : ∀ c ∈ provider.authorize_url, c ≠ 35 ∧ c ≠ 63)
    (hurl : authorize_url provider redirect_uri state = .ok url) :
    url.takeWhile (fun c => decide (c ≠ 63 ∧ c ≠ 35)) = provider.authorize_url ∧
      readQuery (queryOf url) = some (authorizeParams provider redirect_uri state) := by
  obtain ⟨query, hquery, hurl⟩ := bind_eq_ok.1 hurl
  cases hurl
  have hbefore : ∀ c ∈ provider.authorize_url, decide (c ≠ 63 ∧ c ≠ 35) = true := fun c hc =>
    decide_eq_true (haddress c hc).symm
  rw [List.takeWhile_append_of_pos hbefore, queryOf_append haddress (urlencode_ne_hash hquery)]
  exact ⟨by simp, readQuery_urlencode hquery⟩

theorem authorize_url_reads_back_google :
    ∃ url, authorize_url (google_provider (py "id") (py "secret"))
        (py "https://x.example/auth/google/callback") (py "a.B-c_1") = .ok url ∧
      readQuery (queryOf url) = some (authorizeParams (google_provider (py "id") (py "secret"))
        (py "https://x.example/auth/google/callback") (py "a.B-c_1")) := by
  have hok : ∃ url, authorize_url (google_provider (py "id") (py "secret"))
      (py "https://x.example/auth/google/callback") (py "a.B-c_1") = .ok url := by
    have hparams : ∀ param ∈ authorizeParams (google_provider (py "id") (py "secret"))
        (py "https://x.example/auth/google/callback") (py "a.B-c_1"),
        (∀ c ∈ param.1, c < 128) ∧ ∀ c ∈ param.2, c < 128 := by decide +kernel
    unfold authorize_url urlencode
    rw [mapM_encodeField_ascii hparams]
    exact ⟨_, rfl⟩
  obtain ⟨url, hurl⟩ := hok
  exact ⟨url, hurl, (authorize_url_reads_back (by decide +kernel) hurl).2⟩

end OpendssGateway
