import OpendssGateway.Gateway.OAuthUrls
import OpendssGateway.Gateway.Pages

/-!
# From a link to a form

What a browser sends when a form of a page is submitted, and what the
gateway reads.

* `formsOf_controls`: a browser finds the forms that the page was made with,
  whatever the other values on the page are.
* `posted_fields_come_back`: what is sent is read as it was.
* `mailed_token_is_posted`: the token of a link that was mailed gets to the
  page, from there to the form, and from the form back to the gateway.

A browser sends the hidden fields, the fields that the user fills in, and the
button that is pressed, if it has a name.
-/

namespace OpendssGateway

open Html (Control Value)

/-! ## Forms -/

/-- What a form has to send. -/
inductive Field
  | hidden (name value : PyStr)
  /-- The user fills it in. -/
  | typed (name : PyStr)
  /-- It is sent when it is pressed. -/
  | button (name value : PyStr)
  deriving DecidableEq

/-- A form that is posted. -/
structure PostedForm where
  action : PyStr
  fields : List Field
  deriving DecidableEq

/-- The text of an attribute. -/
def attrText (attrs : Html.Attrs Empty) (name : String) : PyStr :=
  ((attrs.lookup (py name)).getD []).map fun
    | .char c => c

/-- Nothing without a name is sent.  A page has no check boxes, no files and no buttons but
those that submit. -/
def fieldOf : Control Empty → Option Field
  | .start tag attrs =>
    let name := attrText attrs "name"
    if name = [] then none
    else if tag = Html.INPUT then
      if attrText attrs "type" = py "hidden" then some (.hidden name (attrText attrs "value"))
      else some (.typed name)
    else if tag = Html.BUTTON then some (.button name (attrText attrs "value"))
    else none
  | .endForm => none

def opens : Control Empty → Bool
  | .start _ _ => true
  | .endForm => false

/-- The forms of a page that are posted. -/
def formsOf : List (Control Empty) → List PostedForm
  | [] => []
  | .start tag attrs :: rest =>
    if tag = Html.FORM ∧ attrText attrs "method" = py "post" then
      { action := attrText attrs "action"
        fields := (rest.takeWhile opens).filterMap fieldOf } :: formsOf rest
    else formsOf rest
  | .endForm :: rest => formsOf rest

/-! ## Submission -/

/-- What a user does with a form. -/
structure Filled where
  /-- what the browser takes as the text in the field of a name -/
  typed : PyStr → PyStr
  /-- the name of the button that is pressed, if it has one -/
  pressed : Option PyStr

def Field.sent (filled : Filled) : Field → Option (PyStr × PyStr)
  | .hidden name value => some (name, value)
  | .typed name => some (name, filled.typed name)
  | .button name value => if filled.pressed = some name then some (name, value) else none

/-- The names and the values that are sent. -/
def PostedForm.sent (form : PostedForm) (filled : Filled) : List (PyStr × PyStr) :=
  form.fields.filterMap (Field.sent filled)

/-- A line break of a value is sent as CR LF. -/
def crlf : PyStr → PyStr
  | [] => []
  | 13 :: 10 :: rest => 13 :: 10 :: crlf rest
  | c :: rest => if c = 10 ∨ c = 13 then 13 :: 10 :: crlf rest else c :: crlf rest

/-- The bytes that a browser leaves as they are. -/
def browserSafe (b : UInt8) : Bool :=
  (48 ≤ b && b ≤ 57) || (65 ≤ b && b ≤ 90) || (97 ≤ b && b ≤ 122) || b == 42 || b == 45 ||
    b == 46 || b == 95

/-- The body of the request. -/
def submit (form : PostedForm) (filled : Filled) : Except PyError PyStr := do
  let fields ← ((form.sent filled).map fun field => (crlf field.1, crlf field.2)).mapM encodeField
  .ok ((Form.serialize browserSafe fields).map UInt8.toNat)

/-! ## The forms of the pages -/

/-- The forms that a page is made with. -/
def Page.forms : Page → List PostedForm
  | .signin _ _ email_enabled =>
    if email_enabled then [{ action := py "/auth/magic", fields := [.typed (py "email")] }] else []
  | .magic_confirm token =>
    [{ action := py "/auth/magic/verify", fields := [.hidden (py "t") token] }]
  | .check_email _ | .message .. => []
  | .account _ plan _ _ csrf _ _ billing pro =>
    (if billing.enabled = false then []
      else if plan.id = "pro" ∧ billing.subscription.isSome then
        [{ action := py "/billing/portal", fields := [.hidden (py "csrf") csrf] }]
      else if pro.isSome then
        [{ action := py "/billing/checkout", fields := [.hidden (py "csrf") csrf] }]
      else []) ++
    [{ action := py "/auth/signout"
       fields := [.hidden (py "csrf") csrf, .button (py "everywhere") (py "1")] }]

theorem attrText_of_lookup {attrs : Html.Attrs Empty} {name : String} {text : PyStr}
    (h : attrs.lookup (py name) = some (text.map .char)) : attrText attrs name = text := by
  unfold attrText
  rw [h, Option.getD_some, List.map_map]
  exact (List.map_congr_left fun _ _ => rfl).trans (List.map_id text)

theorem fieldOf_hidden {name : String} (hname : py name ≠ []) (s : PyStr) :
    fieldOf ((Page.hidden name (.escaped s)).subst Value.syms) = some (.hidden (py name) s) := by
  rw [Page.subst_hidden]
  have htype : attrText [Page.attr "type" "hidden", Page.attr "name" name,
      (py "value", (Value.escaped s).syms)] "type" = py "hidden" := attrText_of_lookup rfl
  have hfield : attrText [Page.attr "type" "hidden", Page.attr "name" name,
      (py "value", (Value.escaped s).syms)] "name" = py name := attrText_of_lookup rfl
  have hvalue : attrText [Page.attr "type" "hidden", Page.attr "name" name,
      (py "value", (Value.escaped s).syms)] "value" = s := attrText_of_lookup rfl
  unfold fieldOf
  dsimp only
  rw [hfield, if_neg hname, if_pos rfl, if_pos htype, hvalue]

/-- The controls of a form hold no other form. -/
theorem formsOf_append {cs : List (Control Empty)}
    (h : ∀ c ∈ cs, ∀ attrs, c ≠ .start Html.FORM attrs) (rest : List (Control Empty)) :
    formsOf (cs ++ rest) = formsOf rest := by
  induction cs with
  | nil => rfl
  | cons c cs ih =>
    obtain ⟨hc, hcs⟩ := List.forall_mem_cons.1 h
    cases c with
    | endForm => exact ih hcs
    | start tag attrs =>
      have htag : ¬ (tag = Html.FORM ∧ attrText attrs "method" = py "post") := by
        rintro ⟨rfl, -⟩
        exact hc attrs rfl
      rw [List.cons_append, formsOf, if_neg htag, ih hcs]

/-- A form with one hidden field, and its buttons. -/
theorem formsOf_formWith {form : Control Value} {attrs : Html.Attrs Empty} {action : PyStr}
    {name : String} {s : PyStr} {buttons : List (List (String × String))}
    (hform : form.subst Value.syms = .start Html.FORM attrs)
    (hmethod : attrText attrs "method" = py "post") (haction : attrText attrs "action" = action)
    (hname : py name ≠ []) (rest : List (Control Empty)) :
    formsOf ((Page.formWith form name (.escaped s) buttons).map (Control.subst Value.syms) ++
        rest) =
      { action, fields := .hidden (py name) s ::
          (buttons.map Page.button).filterMap fieldOf } :: formsOf rest := by
  have hopens : ∀ c ∈ (Page.hidden name (.escaped s)).subst Value.syms ::
      buttons.map Page.button, opens c = true := by
    refine List.forall_mem_cons.2 ⟨rfl, fun c hc => ?_⟩
    obtain ⟨attrs, -, rfl⟩ := List.mem_map.1 hc
    rfl
  have hnone : ∀ c ∈ (Page.hidden name (.escaped s)).subst Value.syms ::
      (buttons.map Page.button ++ [.endForm]), ∀ attrs, c ≠ .start Html.FORM attrs := by
    refine List.forall_mem_cons.2 ⟨fun attrs => ?_, fun c hc attrs => ?_⟩
    · rw [Page.subst_hidden]
      exact fun heq => absurd (Control.start.inj heq).1 (by decide)
    · rcases List.mem_append.1 hc with hc | hc
      · obtain ⟨entries, -, rfl⟩ := List.mem_map.1 hc
        exact fun heq => absurd (Control.start.inj heq).1 (by decide)
      · rw [List.mem_singleton.1 hc]
        exact nofun
  have hrest := formsOf_append hnone rest
  unfold Page.formWith
  rw [List.map_cons, List.map_cons, Page.subst_buttons, hform]
  show formsOf (.start Html.FORM attrs :: (_ :: (buttons.map Page.button ++ [.endForm]) ++ rest)) =
    _
  rw [formsOf, if_pos ⟨rfl, hmethod⟩, haction, hrest]
  rw [List.cons_append, List.append_assoc, List.singleton_append, ← List.cons_append,
    List.takeWhile_append_of_pos hopens, List.takeWhile_cons, if_neg (by simp [opens]),
    List.append_nil, List.filterMap_cons_some (fieldOf_hidden hname s)]

theorem formsOf_signout (csrf : PyStr) :
    formsOf ((Page.formWith Page.signoutForm "csrf" (.escaped csrf) Page.SIGNOUT_BUTTONS).map
        (Control.subst Value.syms)) =
      [{ action := py "/auth/signout"
         fields := [.hidden (py "csrf") csrf, .button (py "everywhere") (py "1")] }] := by
  have hforms : formsOf ((Page.formWith Page.signoutForm "csrf" (.escaped csrf)
      Page.SIGNOUT_BUTTONS).map (Control.subst Value.syms) ++ []) = _ :=
    formsOf_formWith (Page.subst_signoutForm _) (attrText_of_lookup rfl) (attrText_of_lookup rfl)
      (by decide) []
  have hbuttons : (Page.SIGNOUT_BUTTONS.map Page.button).filterMap fieldOf =
      [.button (py "everywhere") (py "1")] := by decide +kernel
  rw [List.append_nil, hbuttons] at hforms
  exact hforms

theorem formsOf_post (address name : String) (hname : py name ≠ []) (s : PyStr)
    (buttons : List (List (String × String))) (rest : List (Control Empty)) :
    formsOf ((Page.formWith (Page.post address) name (.escaped s) buttons).map
        (Control.subst Value.syms) ++ rest) =
      { action := py address, fields := .hidden (py name) s ::
          (buttons.map Page.button).filterMap fieldOf } :: formsOf rest :=
  formsOf_formWith (Page.subst_post _ address) (attrText_of_lookup rfl) (attrText_of_lookup rfl)
    hname rest

theorem formsOf_controls (page : Page) :
    formsOf (page.controls.map (Control.subst Value.syms)) = page.forms := by
  cases page with
  | signin providers error email_enabled =>
    cases email_enabled with
    | false => rfl
    | true =>
      show formsOf ((Page.EMAIL_CONTROLS : List (Control Value)).map (Control.subst Value.syms)) =
        [{ action := py "/auth/magic", fields := [.typed (py "email")] }]
      decide +kernel
  | magic_confirm token =>
    have hforms := formsOf_post "/auth/magic/verify" "t" (by decide) token
      [[("class", "primary"), ("type", "submit")]] []
    rw [List.append_nil] at hforms
    exact hforms
  | check_email | message => rfl
  | account user plan used identities csrf recent support_email billing pro =>
    unfold Page.controls Page.billingControls Page.forms
    dsimp only
    rw [List.map_append]
    split_ifs
    · exact formsOf_signout csrf
    · rw [formsOf_post _ _ (by decide), formsOf_signout]
      rfl
    · rw [formsOf_post _ _ (by decide), formsOf_signout]
      rfl
    · exact formsOf_signout csrf

/-! ## What comes back -/

theorem browserSafe_reserves : Form.Reserves browserSafe where
  percent := by decide
  ampersand := by decide
  plus := by decide
  equals := by decide

/-- What is sent is read as it was, but for line breaks. -/
theorem posted_fields_come_back {form : PostedForm} {filled : Filled} {body : PyStr}
    (h : submit form filled = .ok body) :
    readQuery body = some ((form.sent filled).map fun field => (crlf field.1, crlf field.2)) := by
  obtain ⟨fields, hfields, h⟩ := bind_eq_ok.1 h
  cases h
  exact readQuery_serialize browserSafe_reserves hfields

/-- Characters of Unicode, without a line break. -/
def OneLine (s : PyStr) : Prop :=
  ∀ c ∈ s, Nat.isValidChar c ∧ c ≠ 10 ∧ c ≠ 13

theorem crlf_oneLine {s : PyStr} (h : OneLine s) : crlf s = s := by
  fun_induction crlf s with
  | case1 => rfl
  | case2 rest ih => exact absurd rfl (h 13 List.mem_cons_self).2.2
  | case3 c rest _ hbreak =>
    obtain ⟨-, hlf, hcr⟩ := h c List.mem_cons_self
    exact absurd hbreak (not_or.2 ⟨hlf, hcr⟩)
  | case4 c rest _ _ ih => rw [ih fun d hd => h d (List.mem_cons_of_mem c hd)]

theorem mapM_encodeField_oneLine {params : List (PyStr × PyStr)}
    (h : ∀ param ∈ params, OneLine param.1 ∧ OneLine param.2) :
    ∃ fields, params.mapM encodeField = .ok fields := by
  induction params with
  | nil => exact ⟨[], rfl⟩
  | cons param rest ih =>
    obtain ⟨hname, hvalue⟩ := h param List.mem_cons_self
    obtain ⟨fields, hfields⟩ := ih fun other hother => h other (List.mem_cons_of_mem param hother)
    have hparam : ∃ field, encodeField param = .ok field := by
      unfold encodeField encodeUtf8
      rw [if_pos fun c hc => (hname c hc).1, if_pos fun c hc => (hvalue c hc).1]
      exact ⟨_, rfl⟩
    obtain ⟨field, hfield⟩ := hparam
    refine ⟨field :: fields, ?_⟩
    rw [List.mapM_cons, hfield, hfields]
    rfl

/-- Fields of one line are read as they were sent. -/
theorem submit_oneLine {form : PostedForm} {filled : Filled}
    (h : ∀ field ∈ form.sent filled, OneLine field.1 ∧ OneLine field.2) :
    ∃ body, submit form filled = .ok body ∧ readQuery body = some (form.sent filled) := by
  have hsame : ((form.sent filled).map fun field => (crlf field.1, crlf field.2)) =
      form.sent filled := by
    refine (List.map_congr_left fun field hfield => ?_).trans (List.map_id _)
    exact Prod.ext (crlf_oneLine (h field hfield).1) (crlf_oneLine (h field hfield).2)
  have hsubmit : ∃ body, submit form filled = .ok body := by
    obtain ⟨fields, hfields⟩ := mapM_encodeField_oneLine h
    unfold submit
    rw [hsame, hfields]
    exact ⟨_, rfl⟩
  obtain ⟨body, hbody⟩ := hsubmit
  exact ⟨body, hbody, by rw [posted_fields_come_back hbody, hsame]⟩

theorem oneLine_t : OneLine (py "t") := by
  unfold OneLine
  decide

theorem oneLine_csrf : OneLine (py "csrf") := by
  unfold OneLine
  decide

theorem oneLine_email : OneLine (py "email") := by
  unfold OneLine
  decide

theorem oneLine_everywhere : OneLine (py "everywhere") ∧ OneLine (py "1") := by
  unfold OneLine
  decide

/-- The forms of a page carry its token, a field for an address, and the button that signs out
everywhere. -/
theorem fields_of_a_page {page : Page} {form : PostedForm} (hform : form ∈ page.forms)
    {field : Field} (hfield : field ∈ form.fields) :
    (∃ value, field = .hidden (py "t") value ∨ field = .hidden (py "csrf") value) ∨
      field = .typed (py "email") ∨ field = .button (py "everywhere") (py "1") := by
  cases page with
  | signin providers error email_enabled =>
    cases email_enabled with
    | false => cases hform
    | true =>
      cases List.mem_singleton.1 hform
      exact Or.inr (Or.inl (List.mem_singleton.1 hfield))
  | magic_confirm token =>
    cases List.mem_singleton.1 hform
    exact Or.inl ⟨token, Or.inl (List.mem_singleton.1 hfield)⟩
  | check_email | message => cases hform
  | account user plan used identities csrf recent support_email billing pro =>
    have hcsrf : ∀ address, form = { action := py address, fields := [.hidden (py "csrf") csrf] } →
        field = .hidden (py "csrf") csrf := by
      rintro address rfl
      exact List.mem_singleton.1 hfield
    unfold Page.forms at hform
    rcases List.mem_append.1 hform with hform | hform
    · split_ifs at hform
      · cases hform
      · exact Or.inl ⟨csrf, Or.inr (hcsrf _ (List.mem_singleton.1 hform))⟩
      · exact Or.inl ⟨csrf, Or.inr (hcsrf _ (List.mem_singleton.1 hform))⟩
      · cases hform
    · cases List.mem_singleton.1 hform
      rcases List.mem_pair.1 hfield with rfl | rfl
      · exact Or.inl ⟨csrf, Or.inr rfl⟩
      · exact Or.inr (Or.inr rfl)

/-- A browser finds the forms that a page was made with, whatever the other values on the page
are.  What it posts for a form, however the user fills it in and whichever button is pressed,
is read as the fields of the form. -/
theorem forms_come_back {fmt : PageFormatting} {page : Page} {t : Html.Template Value}
    (hpage : page.template fmt = .ok t)
    (htokens : ∀ form ∈ page.forms, ∀ name value, .hidden name value ∈ form.fields →
      OneLine value) :
    ∃ us, Html.tokens (Html.render t) = some us ∧ formsOf (Html.controls us) = page.forms ∧
      ∀ form ∈ page.forms, ∀ filled : Filled, (∀ name, OneLine (filled.typed name)) →
        ∃ body, submit form filled = .ok body ∧ readQuery body = some (form.sent filled) := by
  obtain ⟨us, hus, hcontrols⟩ := Page.controls_of_a_page hpage
  refine ⟨us, hus, by rw [hcontrols, formsOf_controls], fun form hform filled hfilled => ?_⟩
  refine submit_oneLine fun entry hentry => ?_
  obtain ⟨field, hfield, hsent⟩ := List.mem_filterMap.1 hentry
  rcases fields_of_a_page hform hfield with ⟨value, rfl | rfl⟩ | rfl | rfl
  · cases hsent
    exact ⟨oneLine_t, htokens form hform _ _ hfield⟩
  · cases hsent
    exact ⟨oneLine_csrf, htokens form hform _ _ hfield⟩
  · cases hsent
    exact ⟨oneLine_email, hfilled _⟩
  · rw [Field.sent, Option.ite_none_right_eq_some] at hsent
    cases hsent.2
    exact oneLine_everywhere

/-! ## The link -/

/-- What a token is made of. -/
def UrlSafe (s : PyStr) : Prop :=
  ∀ c ∈ s, (48 ≤ c ∧ c ≤ 57) ∨ (65 ≤ c ∧ c ≤ 90) ∨ (97 ≤ c ∧ c ≤ 122) ∨ c = 95 ∨ c = 45 ∨ c = 46

theorem UrlSafe.ascii {s : PyStr} (h : UrlSafe s) : ∀ c ∈ s, c < 128 := by
  intro c hc
  have hsafe := h c hc
  omega

theorem UrlSafe.oneLine {s : PyStr} (h : UrlSafe s) : OneLine s := by
  intro c hc
  have hsafe := h c hc
  exact ⟨Or.inl (by omega), by omega, by omega⟩

theorem alwaysSafe_urlSafe {s : PyStr} (h : UrlSafe s) :
    ∀ b ∈ s.map UInt8.ofNat, b ≠ 32 ∧ alwaysSafe b = true := by
  have hall : ∀ n : Fin 128, (48 ≤ n.val ∧ n.val ≤ 57) ∨ (65 ≤ n.val ∧ n.val ≤ 90) ∨
      (97 ≤ n.val ∧ n.val ≤ 122) ∨ n.val = 95 ∨ n.val = 45 ∨ n.val = 46 →
      UInt8.ofNat n ≠ 32 ∧ alwaysSafe (UInt8.ofNat n) = true := by decide +kernel
  intro b hb
  obtain ⟨c, hc, rfl⟩ := List.mem_map.1 hb
  exact hall ⟨c, h.ascii c hc⟩ (h c hc)

theorem urlSafe_t : UrlSafe (py "t") := by
  unfold UrlSafe
  decide

/-- The link of `magic_request`. -/
def magicLink (public_url token : PyStr) : PyStr :=
  public_url ++ py "/auth/magic/verify?t=" ++ token

/-- Safe texts are written as they are. -/
theorem serialize_urlSafe {field : PyStr × PyStr} (h : UrlSafe field.1 ∧ UrlSafe field.2) :
    (Form.serialize alwaysSafe [(field.1.map UInt8.ofNat, field.2.map UInt8.ofNat)]).map
      UInt8.toNat = field.1 ++ 61 :: field.2 := by
  have hback : ∀ {s : PyStr}, UrlSafe s → (s.map UInt8.ofNat).map UInt8.toNat = s := by
    intro s hs
    rw [List.map_map]
    refine (List.map_congr_left fun c hc => ?_).trans (List.map_id s)
    show (UInt8.ofNat c).toNat = c
    have hlt := hs.ascii c hc
    rw [UInt8.toNat_ofNat', Nat.mod_eq_of_lt (by omega)]
  have hserialize : Form.serialize alwaysSafe
      [(field.1.map UInt8.ofNat, field.2.map UInt8.ofNat)] =
        field.1.map UInt8.ofNat ++ 61 :: field.2.map UInt8.ofNat := by
    unfold Form.serialize Form.serializeField
    rw [List.map_singleton, Form.quote_of_safe (alwaysSafe_urlSafe h.1),
      Form.quote_of_safe (alwaysSafe_urlSafe h.2)]
    simp
  rw [hserialize, List.map_append, List.map_cons, hback h.1, hback h.2]
  rfl

/-- The gateway reads the token of a link. -/
theorem readQuery_magicLink {public_url token : PyStr} (hurl : ∀ c ∈ public_url, c ≠ 35 ∧ c ≠ 63)
    (htoken : UrlSafe token) :
    readQuery (queryOf (magicLink public_url token)) = some [(py "t", token)] := by
  have hlink : magicLink public_url token =
      (public_url ++ py "/auth/magic/verify") ++ 63 :: (py "t" ++ 61 :: token) := by
    simp [magicLink, py]
  have haddress : ∀ c ∈ public_url ++ py "/auth/magic/verify", c ≠ 35 ∧ c ≠ 63 := by
    intro c hc
    rcases List.mem_append.1 hc with hc | hc
    · exact hurl c hc
    · have hall : ∀ c ∈ py "/auth/magic/verify", c ≠ 35 ∧ c ≠ 63 := by decide
      exact hall c hc
  have hquery : ∀ c ∈ py "t" ++ 61 :: token, c ≠ 35 := by
    intro c hc
    rcases List.mem_append.1 hc with hc | hc
    · have hall : ∀ c ∈ py "t", c ≠ 35 := by decide
      exact hall c hc
    · rcases List.mem_cons.1 hc with rfl | hc
      · decide
      · have hsafe := htoken c hc
        omega
  have hfield : UrlSafe (py "t", token).1 ∧ UrlSafe (py "t", token).2 := ⟨urlSafe_t, htoken⟩
  rw [hlink, queryOf_append haddress hquery, ← serialize_urlSafe hfield]
  refine readQuery_serialize alwaysSafe_reserves (mapM_encodeField_ascii fun field hmem => ?_)
  rw [List.mem_singleton.1 hmem]
  exact ⟨urlSafe_t.ascii, htoken.ascii⟩

/-- The token of a link that was mailed is what the gateway reads from the link, what the page
carries, and what the form of the page posts. -/
theorem mailed_token_is_posted {public_url token : PyStr}
    (hurl : ∀ c ∈ public_url, c ≠ 35 ∧ c ≠ 63) (htoken : UrlSafe token) :
    readQuery (queryOf (magicLink public_url token)) = some [(py "t", token)] ∧
      ∃ us form, Html.tokens (Html.render (Pages.magic_confirm token)) = some us ∧
        formsOf (Html.controls us) = [form] ∧ form.action = py "/auth/magic/verify" ∧
        ∀ filled, ∃ body, submit form filled = .ok body ∧
          readQuery body = some [(py "t", token)] := by
  refine ⟨readQuery_magicLink hurl htoken, ?_⟩
  obtain ⟨us, hus, hcontrols⟩ := (Page.reads_magic_confirm token).render
  have hform := formsOf_controls (.magic_confirm token)
  refine ⟨us, _, hus, by rw [hcontrols, hform]; rfl, rfl, fun filled => ?_⟩
  refine submit_oneLine fun field hmem => ?_
  rw [List.mem_singleton.1 hmem]
  exact ⟨oneLine_t, htoken.oneLine⟩

theorem urlSafe_sample : UrlSafe (py "a.B-c_1") := by
  unfold UrlSafe
  decide

/-- The sign-out form of the page. -/
def signoutSample : PostedForm where
  action := py "/auth/signout"
  fields := [.hidden (py "csrf") (py "a.B-c_1"), .button (py "everywhere") (py "1")]

/-- The button that signs out everywhere is pressed. -/
def pressedEverywhere : Filled where
  typed := fun _ => []
  pressed := some (py "everywhere")

theorem forms_come_back_spiteful :
    ∃ t us body, Page.spitefulPage.template Page.plainPageFormatting = .ok t ∧
      Html.tokens (Html.render t) = some us ∧ formsOf (Html.controls us) = [signoutSample] ∧
      submit signoutSample pressedEverywhere = .ok body ∧
      readQuery body = some [(py "csrf", py "a.B-c_1"), (py "everywhere", py "1")] := by
  have hpage : ∃ t, Page.spitefulPage.template Page.plainPageFormatting = .ok t := ⟨_, rfl⟩
  obtain ⟨t, ht⟩ := hpage
  have hsample : Page.spitefulPage.forms = [signoutSample] := rfl
  have htokens : ∀ form ∈ Page.spitefulPage.forms, ∀ name value,
      .hidden name value ∈ form.fields → OneLine value := by
    intro form hform name value hfield
    rw [hsample, List.mem_singleton] at hform
    subst hform
    rcases List.mem_pair.1 hfield with hfield | hfield
    · cases hfield
      exact urlSafe_sample.oneLine
    · cases hfield
  obtain ⟨us, hus, hforms, hbodies⟩ := forms_come_back ht htokens
  obtain ⟨body, hbody, hread⟩ := hbodies signoutSample
    (by rw [hsample]; exact List.mem_singleton_self _) pressedEverywhere fun _ => nofun
  exact ⟨t, us, body, ht, hus, hforms.trans hsample, hbody, hread⟩

theorem mailed_token_is_posted_sample :
    readQuery (queryOf (magicLink (py "https://x.example") (py "a.B-c_1"))) =
      some [(py "t", py "a.B-c_1")] :=
  (mailed_token_is_posted (by decide) urlSafe_sample).1

end OpendssGateway
