import OpendssGateway.Gateway.Headers
import OpendssGateway.Gateway.Ledger
import OpendssGateway.Gateway.Store
import OpendssGateway.Library.Html

/-!
# The pages that the gateway serves

The pages as templates: what the source writes as text is text, and what it
puts through `html.escape` is a value.

* `pages_are_read_as_written`: whatever a user, a provider or the plans file supply,
  a page has the markup of its template, with each value where its template has it.
* `controls_of_a_page`: the forms, the fields and the buttons of a page, with the
  values that they carry.

The concurrency of a plan is shown without `html.escape`.  It is an integer here,
which `load_plans` does not check.  The legal pages, whose text is fixed, are left
out.
-/

namespace OpendssGateway

open Html (Piece Template Value)

/-- A text without markup. -/
abbrev PlainText := { s : PyStr // Html.Plain s }

/-- The texts of numbers and dates. -/
structure PageFormatting extends Formatting where
  /-- `f"{int(value):,}"` -/
  grouped : Json → Except PyError PlainText
  /-- `f"{value:g}"` -/
  general : Json → Except PyError PlainText
  /-- `f"{value:.2f}"` -/
  fixed2 : ℚ → PlainText
  /-- `datetime.fromtimestamp(value, UTC).strftime("%d %B %Y")` -/
  date : Float → Except PyError PyStr

/-- `round`, of halves to the even side. -/
def pyRound (x : ℚ) : Int :=
  let n := x.floor
  if x - n < 1 / 2 then n
  else if 1 / 2 < x - n then n + 1
  else if n % 2 = 0 then n
  else n + 1

theorem plain_int (n : Int) : Html.Plain (py (toString n)) := by
  have hdigits : ∀ n : Nat, Html.Plain (py n.repr) := by
    intro n c hc
    have hdigit := py_repr_digit hc
    omega
  cases n with
  | ofNat n => exact hdigits n
  | negSucc n =>
    intro c hc
    rw [py_toString_negSucc] at hc
    rcases List.mem_cons.1 hc with rfl | hc
    · decide
    · exact hdigits (n + 1) c hc

theorem plain_append {s t : PyStr} (hs : Html.Plain s) (ht : Html.Plain t) :
    Html.Plain (s ++ t) := by
  intro c hc
  rcases List.mem_append.1 hc with hc | hc
  · exact hs c hc
  · exact ht c hc

theorem plain_zeros : Html.Plain (py ".00") := by
  unfold Html.Plain
  decide

def intText (n : Int) : PlainText :=
  ⟨py (toString n), plain_int n⟩

/-- `s.removeprefix(p)`. -/
def removeprefix (s p : PyStr) : PyStr :=
  if p <+: s then s.drop p.length else s

namespace Pages

/-- `html.escape`, under the name of the module. -/
def h (s : PyStr) : Piece Value :=
  .hole (.escaped s)

/-- A text that is not escaped. -/
def shown (s : PlainText) : Piece Value :=
  .hole (.plain s.1 s.2)

/-! ## The layout -/

def STYLE : Template Value :=
  [.lit "\n:root\x7bcolor-scheme:light;--ink:#1f2328;--muted:#59636e;--line:#d0d7de;",
    .lit "--accent:#0969da;--bg:#f6f8fa\x7d\n",
    .lit "*\x7bbox-sizing:border-box\x7dbody\x7bmargin:0;font:15px/1.5 ",
    .lit "system-ui,-apple-system,Segoe UI,Roboto,sans-serif;color:var(--ink);",
    .lit "background:var(--bg)\x7d\n",
    .lit "main\x7bmax-width:34rem;margin:6vh auto;padding:0 1rem\x7d\n",
    .lit ".card\x7bbackground:#fff;border:1px solid var(--line);border-radius:10px;",
    .lit "padding:1.5rem 1.75rem;margin-bottom:1rem\x7d\n",
    .lit "h1\x7bfont-size:1.35rem;margin:0 0 .75rem\x7dh2\x7bfont-size:1.05rem;margin:1.25rem ",
    .lit "0 .5rem\x7d\n",
    .lit "p\x7bmargin:.5rem 0\x7d.muted\x7bcolor:var(--muted)\x7d",
    .lit "small\x7bcolor:var(--muted)\x7d\n",
    .lit "label\x7bdisplay:block;font-weight:600;margin:.75rem 0 .25rem\x7d\n",
    .lit "input[type=email]\x7bwidth:100%;font:inherit;padding:.55rem .7rem;border:1px solid ",
    .lit "var(--line);border-radius:6px\x7d\n",
    .lit "button,.btn\x7bdisplay:inline-block;font:inherit;font-weight:600;padding:.55rem 1rem;",
    .lit "border-radius:6px;border:1px solid var(--line);background:#fff;color:var(--ink);",
    .lit "cursor:pointer;text-decoration:none\x7d\n",
    .lit "button.primary\x7bbackground:var(--accent);border-color:var(--accent);",
    .lit "color:#fff\x7d\n",
    .lit ".row\x7bdisplay:flex;gap:.6rem;flex-wrap:wrap;margin-top:.75rem\x7d\n",
    .lit ".err\x7bbackground:#fff1f0;border:1px solid #ffa39e;color:#7a1f1a;padding:.6rem ",
    .lit ".8rem;border-radius:6px\x7d\n",
    .lit ".ok\x7bbackground:#f0fff4;border:1px solid #9be9a8;color:#1a4d2b;padding:.6rem .8rem;",
    .lit "border-radius:6px\x7d\n",
    .lit "table\x7bwidth:100%;border-collapse:collapse;margin:.5rem 0\x7d",
    .lit "td,th\x7btext-align:left;padding:.35rem .2rem;border-bottom:1px solid var(--line);",
    .lit "vertical-align:top\x7dth\x7bfont-weight:600;color:var(--muted);font-size:.9em\x7d\n",
    .lit ".meter\x7bheight:8px;background:var(--bg);border:1px solid var(--line);",
    .lit "border-radius:4px;overflow:hidden\x7d.meter>i\x7bdisplay:block;height:100%;",
    .lit "background:var(--accent)\x7d\n",
    .lit "footer\x7bcolor:var(--muted);font-size:.85em;margin:1.5rem 0;text-align:center\x7d",
    .lit "footer a\x7bcolor:inherit\x7d\n",
    .lit "a\x7bcolor:var(--accent)\x7d\n",
    .lit "nav.top\x7bdisplay:flex;align-items:center;justify-content:space-between;",
    .lit "margin-bottom:1rem\x7d\n",
    .lit "nav.top .brand\x7bfont-weight:700;color:var(--ink);text-decoration:none\x7d\n",
    .lit "nav.top .btn\x7bpadding:.4rem .8rem\x7d\n"]

def layout (title : PyStr) (body : Template Value) (app_url : PyStr := py "/") : Template Value :=
  [.lit "<!doctype html><html lang=\"en\"><head><meta charset=\"utf-8\">\n",
    .lit "<meta name=\"viewport\" content=\"width=device-width,initial-scale=1\"><title>",
    h title, .lit " · OpenDSS Designer</title>\n<style>"] ++
  STYLE ++
  [.lit "</style></head><body><main>\n<nav class=\"top\"><a class=\"brand\" href=\"",
    h app_url, .lit "\">OpenDSS Designer</a><a class=\"btn\" href=\"",
    h app_url, .lit "\">&larr; Back to the designer</a></nav>\n"] ++
  body ++
  [.lit "\n<footer><a href=\"",
    h app_url,
    .lit "\">Back to the designer</a> · <a href=\"/legal/privacy\">Privacy</a> · <a ",
    .lit "href=\"/legal/terms\">Terms</a> ·\n",
    .lit "<a href=\"https://github.com/rsparks3/opendss-designer\">Source</a></footer></main>",
    .lit "</body></html>"]

/-! ## Signing in -/

def EMAIL_FORM : Template Value :=
  [.lit "\n<form method=\"post\" action=\"/auth/magic\">\n",
    .lit "  <label for=\"email\">Email address</label>\n",
    .lit "  <input id=\"email\" name=\"email\" type=\"email\" required autocomplete=\"email\" ",
    .lit "placeholder=\"you@example.com\">\n",
    .lit "  <div class=\"row\"><button class=\"primary\" type=\"submit\">Email me a sign-in ",
    .lit "link</button></div>\n",
    .lit "  <p><small>No password. The link works once and expires in 15 minutes.</small></p>\n",
    .lit "</form>"]

def signin (providers : List (PyStr × PyStr)) (error : Option PyStr) (email_enabled : Bool) :
    Template Value :=
  let err : Template Value :=
    match error with
    | none | some [] => []
    | some error => [.lit "<p class=\"err\">", h error, .lit "</p>"]
  let buttons : Template Value := providers.flatMap fun provider =>
    [.lit "<a class=\"btn\" href=\"/auth/", h provider.1, .lit "\">Continue with ", h provider.2,
      .lit "</a>"]
  let email_form : Template Value := if email_enabled then EMAIL_FORM else []
  let divider : Template Value :=
    if buttons ≠ [] ∧ email_form ≠ [] then
      [.lit "<p class=\"muted\" style=\"text-align:center\">or</p>"]
    else []
  let err : Template Value :=
    if buttons = [] ∧ email_form = [] then
      [.lit "<p class=\"err\">Sign-in is not switched on for this instance yet. Everything works ",
        .lit "without an account; the guest limits apply.</p>"]
    else err
  layout (py "Sign in") (
    [.lit "\n<div class=\"card\"><h1>Sign in to OpenDSS Designer</h1>\n",
      .lit "<p class=\"muted\">A free account raises the guest limits: bigger circuits, longer ",
      .lit "time-series runs,\n",
      .lit "and a monthly solver budget instead of a daily one. Nothing you draw is stored on ",
      .lit "the server in any plan.</p>\n"] ++
    err ++ email_form ++ divider ++ [.lit "<div class=\"row\">"] ++ buttons ++
    [.lit "</div>\n",
      .lit "<p><small>By signing in you agree to the <a href=\"/legal/terms\">terms</a> and <a ",
      .lit "href=\"/legal/privacy\">privacy policy</a>.</small></p>\n",
      .lit "</div>"])

def magic_confirm (token : PyStr) : Template Value :=
  layout (py "Sign in") ([.lit "\n<div class=\"card\"><h1>Finish signing in</h1>\n",
    .lit "<p class=\"muted\">Click once to sign in to OpenDSS Designer in this browser.</p>\n"] ++
    [.lit "<form method=\"post\" action=\"/auth/magic/verify\"><input type=\"hidden\" ",
      .lit "name=\"t\" value=\"",
      h token,
      .lit "\">\n",
      .lit "<div class=\"row\"><button class=\"primary\" type=\"submit\">Sign in</button></div>",
      .lit "</form>\n",
      .lit "<p><small>The link works once and expires 15 minutes after it was sent. If it has ",
      .lit "expired,\n",
      .lit "<a href=\"/auth/signin\">request a new one</a>.</small></p></div>"])

def check_email (email : PyStr) : Template Value :=
  layout (py "Check your email") [
    .lit "\n<div class=\"card\"><h1>Check your email</h1>\n<p class=\"ok\">If <strong>",
    h email,
    .lit "</strong> can receive mail, a sign-in link is on its way.</p>\n",
    .lit "<p class=\"muted\">It expires in 15 minutes. Look in spam if it does not arrive ",
    .lit "within a minute or two;\n",
    .lit "you can also <a href=\"/auth/signin\">try another way</a>.</p></div>"]

def message (title text : PyStr) (error : Bool) (link : PyStr := py "/auth/signin")
    (link_text : PyStr := py "Back to sign in") : Template Value :=
  let cls := if error then "err" else "ok"
  layout title [.lit "<div class=\"card\"><h1>", h title, .lit "</h1><p class=\"", .lit cls,
    .lit "\">", h text, .lit "</p>\n<p><a class=\"btn\" href=\"", h link,
    .lit "\">", h link_text, .lit "</a></p></div>"]

/-! ## Billing -/

/-- The dict that `billing_section` reads. -/
structure BillingView where
  enabled : Bool
  price_text : PyStr
  subscription : Option Subscription

/-- The text of the day on which a paid period ends. -/
def whenText (fmt : PageFormatting) (sub : Subscription) : Except PyError PyStr :=
  match sub.current_period_end with
  | none => .ok []
  | some ends =>
    if ends == 0 then .ok []
    else do
      let date ← fmt.date ends
      let date := date.dropWhile (· = 48)
      .ok (if sub.cancel_at_period_end then
          py "Access continues until " ++ date ++ py ", then returns to Free."
        else py "Renews on " ++ date ++ py ".")

/-- `billing_section`.  The concurrency is not escaped. -/
def billing_section (fmt : PageFormatting) (plan : FullPlan) (pro : Option FullPlan)
    (billing : BillingView) (csrf : PyStr) : Except PyError (Template Value) :=
  if billing.enabled = false then .ok []
  else
    match (if plan.id = "pro" then billing.subscription else none), pro with
    | some sub, _ => do
      let when_ ← whenText fmt sub
      let note : Template Value :=
        if sub.status = py "past_due" then
          [.lit "<p class=\"err\">The last payment did not go through. Update the card under ",
            .lit "Manage billing ",
            .lit "to keep Pro.</p>"]
        else []
      .ok ([.lit "<h2>Billing</h2><p>", h when_, .lit "</p>"] ++ note ++
        [.lit "\n<form method=\"post\" action=\"/billing/portal\"><input type=\"hidden\" ",
          .lit "name=\"csrf\" value=\"",
          h csrf,
          .lit "\">\n",
          .lit "<button type=\"submit\">Manage billing</button></form>\n",
          .lit "<p><small>Change the card, download invoices, or cancel. Cancelling keeps Pro ",
          .lit "until the end of the paid period.</small></p>"])
    | none, none => .ok []
    | none, some pro => do
      let limit (key : String) : Json := ((pro.limits.find? (py key)).map Prod.snd).getD (.int 0)
      let nodes ← fmt.grouped (limit "maxNodes")
      let timeout ← fmt.general (limit "timeseriesTimeoutS")
      let cost ← fmt.grouped (limit "maxTimeseriesCost")
      .ok ([.lit "<h2>Pro · ", h billing.price_text, .lit "</h2>\n<p>", shown nodes,
          .lit " elements per circuit, time-series runs up to\n", shown timeout,
          .lit " s and cost ", shown cost, .lit ",\n", h (fmt.minutes (pro.budgetSeconds.getD 0)),
          .lit " of solver time ", h pro.periodPhrase, .lit ", ",
          shown (intText pro.concurrency), .lit " runs at once,\nfirst in the queue.</p>\n"] ++
        [.lit "<form method=\"post\" action=\"/billing/checkout\"><input type=\"hidden\" ",
          .lit "name=\"csrf\" value=\"",
          h csrf,
          .lit "\">\n",
          .lit "<button type=\"submit\" class=\"primary\">Upgrade to Pro</button></form>\n",
          .lit "<p><small>Payment is handled by Stripe; no card details reach this site. ",
          .lit "Cancel any time from this page.</small></p>"])

def billing_message (title text : PyStr) (error : Bool) : Template Value :=
  message title text error (py "/account") (py "Back to your account")

/-! ## The account -/

def LIMIT_LABELS : List (PyStr × PyStr) :=
  [(py "maxNodes", py "Elements per circuit"), (py "maxEdges", py "Connections per circuit"),
    (py "maxTimeseriesCost", py "Time-series size (steps × entities)"),
    (py "engineResultTimeoutS", py "Longest snapshot solve"),
    (py "timeseriesTimeoutS", py "Longest time-series run"), (py "maxShapes", py "Load shapes"),
    (py "maxShapePoints", py "Points per shape"),
    (py "maxTotalShapePoints", py "Total shape points"),
    (py "maxImportFiles", py "Files per import"),
    (py "maxImportBytes", py "Bytes per imported file")]

def PROVIDER_LABELS : List (PyStr × PyStr) :=
  [(py "email", py "Email link"), (py "github", py "GitHub"), (py "google", py "Google")]

/-- `labels.get(key, key)`. -/
def label (labels : List (PyStr × PyStr)) (key : PyStr) : PyStr :=
  (labels.lookup key).getD key

def fmt_limit (fmt : PageFormatting) (key : PyStr) (value : Json) : Except PyError PyStr :=
  if key.getLast? = some 83 then do
    let text ← fmt.general value
    .ok (text.1 ++ py " s")
  else do
    let text ← fmt.grouped value
    .ok text.1

def account (fmt : PageFormatting) (user : User) (plan : FullPlan) (used : ℚ)
    (identities : List Identity) (csrf : PyStr) (recent : List Run) (support_email : PyStr)
    (billing : BillingView) (pro : Option FullPlan) : Except PyError (Template Value) := do
  let billing_html ← billing_section fmt plan pro billing csrf
  let budget := plan.budgetSeconds.getD 0
  let pct := if budget = 0 then 0 else min 100 (pyRound (100 * used / budget))
  let usage : Template Value :=
    if budget = 0 then [.lit "<p>Unmetered.</p>"]
    else [.lit "<p>", h (fmt.minutes used), .lit " of ", h (fmt.minutes budget),
      .lit " of solver time used ", h plan.periodPhrase, .lit ".</p>",
      .lit "<div class=\"meter\"><i style=\"width:", shown (intText pct), .lit "%\"></i></div>"]
  let limits ← plan.limits.rows.mapM fun item => do
    let text ← fmt_limit fmt item.1 item.2
    .ok [.lit "<tr><td>", h (label LIMIT_LABELS item.1), .lit "</td><td>", h text,
      .lit "</td></tr>"]
  let ids : Template Value := identities.flatMap fun i =>
    [.lit "<tr><td>", h (label PROVIDER_LABELS i.provider), .lit "</td><td>",
      h (if i.email = [] then i.subject else i.email), .lit "</td></tr>"]
  let runs : Template Value := recent.flatMap fun r =>
    [.lit "<tr><td>", h ( removeprefix (py r.path) (py "/api/")), .lit "</td><td>",
      shown (fmt.fixed2 r.engineSeconds), .lit " s</td>", .lit "<td>", h (py r.status),
      .lit "</td></tr>"]
  let runs : Template Value :=
    if runs = [] then
      [.lit "<tr><td colspan=\"3\" class=\"muted\">No runs yet.</td></tr>"]
    else runs
  let support : Template Value :=
    if support_email = [] then []
    else [.lit "<p><small>Questions or want your account deleted? Email <a href=\"mailto:",
      h support_email, .lit "\">", h support_email, .lit "</a>.</small></p>"]
  let name : Template Value :=
    match user.name with
    | none | some [] => []
    | some name => [.lit " · ", h name]
  .ok (layout (py "Account") (
    [.lit "\n<div class=\"card\"><h1>Your account</h1>\n<p>", h user.email] ++ name ++
    [.lit "</p>\n<h2>", h plan.name, .lit " plan</h2>"] ++ usage ++
    [.lit "\n<table><tbody>"] ++ limits.flatten ++
    [.lit "</tbody></table>\n"] ++ billing_html ++
    [.lit "\n<h2>Sign-in methods</h2><table><tbody>"] ++ ids ++
    [.lit "</tbody></table>\n",
      .lit "<p class=\"muted\"><small>Signing in another way with the same email address links ",
      .lit "it to this account.</small></p>\n",
      .lit "<h2>Recent runs</h2><table><thead><tr><th>Call</th><th>Engine time</th><th>",
      .lit "Result</th></tr></thead><tbody>"] ++
    runs ++
    [.lit "</tbody></table>\n",
      .lit "<form method=\"post\" action=\"/auth/signout\" class=\"row\">\n",
      .lit "  <input type=\"hidden\" name=\"csrf\" value=\"",
      h csrf,
      .lit "\">\n",
      .lit "  <button type=\"submit\">Sign out</button>\n",
      .lit "  <button type=\"submit\" name=\"everywhere\" value=\"1\">Sign out ",
      .lit "everywhere</button>\n",
      .lit "</form>\n"] ++
    support ++ [.lit "\n</div>"]))

end Pages

/-! ## Every page -/

/-- A page, with what it is made of. -/
inductive Page
  | signin (providers : List (PyStr × PyStr)) (error : Option PyStr) (email_enabled : Bool)
  | magic_confirm (token : PyStr)
  | check_email (email : PyStr)
  | message (title text : PyStr) (error : Bool) (link link_text : PyStr)
  | account (user : User) (plan : FullPlan) (used : ℚ) (identities : List Identity) (csrf : PyStr)
      (recent : List Run) (support_email : PyStr) (billing : Pages.BillingView)
      (pro : Option FullPlan)

namespace Page

open Html (Control)

def template (fmt : PageFormatting) : Page → Except PyError (Template Value)
  | signin providers error email_enabled => .ok (Pages.signin providers error email_enabled)
  | magic_confirm token => .ok (Pages.magic_confirm token)
  | check_email email => .ok (Pages.check_email email)
  | message title text error link link_text => .ok (Pages.message title text error link link_text)
  | account user plan used identities csrf recent support_email billing pro =>
    Pages.account fmt user plan used identities csrf recent support_email billing pro

/-! ### The forms -/

section Controls

variable {ι : Type}

def attr (name value : String) : Html.Name × List (Html.Sym ι) :=
  (py name, (py value).map .char)

/-- A form that is posted to the address. -/
def post (action : String) : Control ι :=
  .start Html.FORM [attr "method" "post", attr "action" action]

/-- A field that carries the value. -/
def hidden (name : String) (v : ι) : Control ι :=
  .start Html.INPUT [attr "type" "hidden", attr "name" name, (py "value", [.hole v])]

def button (attrs : List (String × String)) : Control ι :=
  .start Html.BUTTON (attrs.map fun entry => attr entry.1 entry.2)

/-- A form with one hidden field. -/
def formWith (form : Control ι) (name : String) (v : ι) (buttons : List (List (String × String))) :
    List (Control ι) :=
  form :: hidden name v :: (buttons.map button ++ [.endForm])

def EMAIL_CONTROLS : List (Control ι) :=
  [post "/auth/magic",
    .start Html.INPUT [attr "id" "email", attr "name" "email", attr "type" "email",
      attr "required" "", attr "autocomplete" "email", attr "placeholder" "you@example.com"],
    button [("class", "primary"), ("type", "submit")], .endForm]

def signoutForm : Control ι :=
  .start Html.FORM [attr "method" "post", attr "action" "/auth/signout", attr "class" "row"]

def SIGNOUT_BUTTONS : List (List (String × String)) :=
  [[("type", "submit")], [("type", "submit"), ("name", "everywhere"), ("value", "1")]]

end Controls

/-- The controls of `billing_section`. -/
def billingControls (plan : FullPlan) (pro : Option FullPlan) (billing : Pages.BillingView)
    (csrf : PyStr) : List (Control Value) :=
  if billing.enabled = false then []
  else if plan.id = "pro" ∧ billing.subscription.isSome then
    formWith (post "/billing/portal") "csrf" (.escaped csrf) [[("type", "submit")]]
  else if pro.isSome then
    formWith (post "/billing/checkout") "csrf" (.escaped csrf)
      [[("type", "submit"), ("class", "primary")]]
  else []

/-- The controls of a page. -/
def controls : Page → List (Control Value)
  | signin _ _ email_enabled => if email_enabled then EMAIL_CONTROLS else []
  | magic_confirm token =>
    formWith (post "/auth/magic/verify") "t" (.escaped token)
      [[("class", "primary"), ("type", "submit")]]
  | check_email _ | message .. => []
  | account _ plan _ _ csrf _ _ billing pro =>
    billingControls plan pro billing csrf ++
      formWith signoutForm "csrf" (.escaped csrf) SIGNOUT_BUTTONS

/-! ### How they are read -/

open Html (Reads Spells)

set_option maxRecDepth 20000 in
theorem reads_layout {title app_url : PyStr} {body : Template Value} {cs : List (Control Value)}
    (hbody : Reads body cs) : Reads (Pages.layout title body app_url) cs := by
  unfold Pages.layout
  -- A text is spelled piece by piece: the constructors are those of the template.
  refine Reads.append_plain (Reads.plain_append (Spells.reads (by repeat constructor) ?_) hbody)
    (Spells.reads (by repeat constructor) ?_)
  · decide +kernel
  · decide +kernel

theorem attr_subst {ι κ : Type} (σ : ι → List (Html.Sym κ)) (name value : String) :
    ((attr name value : _ × List (Html.Sym ι)).1,
      (attr name value : _ × List (Html.Sym ι)).2.flatMap (Html.Sym.subst σ)) =
      attr name value :=
  congrArg (Prod.mk _) (Html.subst_chars (py value))

theorem subst_post {ι κ : Type} (σ : ι → List (Html.Sym κ)) (action : String) :
    (post action).subst σ = post action := by
  simp [post, Control.subst, Html.Attrs.subst, attr_subst]

theorem subst_signoutForm {ι κ : Type} (σ : ι → List (Html.Sym κ)) :
    signoutForm.subst σ = signoutForm := by
  simp [signoutForm, Control.subst, Html.Attrs.subst, attr_subst]

theorem subst_hidden {ι κ : Type} (σ : ι → List (Html.Sym κ)) (name : String) (v : ι) :
    (hidden name v).subst σ = .start Html.INPUT [attr "type" "hidden", attr "name" name,
      (py "value", σ v)] := by
  simp [hidden, Control.subst, Html.Attrs.subst, attr_subst, Html.Sym.subst]

theorem subst_button {ι κ : Type} (σ : ι → List (Html.Sym κ)) (attrs : List (String × String)) :
    (button attrs).subst σ = button attrs := by
  simp only [button, Control.subst, Html.Attrs.subst, List.map_map, Control.start.injEq, true_and]
  exact List.map_congr_left fun entry _ => attr_subst σ entry.1 entry.2

theorem subst_buttons {ι κ : Type} (σ : ι → List (Html.Sym κ))
    (buttons : List (List (String × String))) :
    (buttons.map button ++ [Control.endForm]).map (Control.subst σ) =
      buttons.map button ++ [Control.endForm] := by
  rw [List.map_append, List.map_map]
  refine congrArg (· ++ _) (List.map_congr_left fun attrs _ => ?_)
  exact subst_button σ attrs

/-- A form with one hidden field is read with its value. -/
theorem reads_form {t : Template Value} {name : String} {form : Control Unit}
    {form' : Control Value} {v : Value} {buttons : List (List (String × String))}
    {l : List (Html.Sym Unit)}
    (hform : form.subst (fun _ => [.hole v]) = form') (hv : ∀ w, .hole w ∈ t → w = v)
    (hspells : Spells t l) (hl : Html.scans l (formWith form name () buttons) = true) :
    Reads t (formWith form' name v buttons) := by
  have hreads := hspells.reads_const hv hl
  unfold formWith at hreads ⊢
  rw [List.map_cons, List.map_cons, subst_hidden, hform, subst_buttons] at hreads
  exact hreads

set_option maxRecDepth 20000 in
theorem reads_email_form : Reads Pages.EMAIL_FORM EMAIL_CONTROLS := by
  have hreads : Reads Pages.EMAIL_FORM
      ((EMAIL_CONTROLS : List (Control Unit)).map
        (Control.subst fun _ => [.hole (.escaped [])])) := by
    refine Spells.reads_const (by repeat constructor) (by simp [Pages.EMAIL_FORM]) ?_
    decide +kernel
  unfold EMAIL_CONTROLS at hreads ⊢
  simpa only [List.map_cons, List.map_nil, subst_post, subst_button, Control.subst_start,
    Control.subst_endForm, Html.Attrs.subst, attr_subst] using hreads

set_option maxRecDepth 20000 in
theorem reads_signin (providers : List (PyStr × PyStr)) (error : Option PyStr)
    (email_enabled : Bool) :
    Reads (Pages.signin providers error email_enabled)
      (controls (signin providers error email_enabled)) := by
  have hemail : Reads (if email_enabled then Pages.EMAIL_FORM else [])
      (if email_enabled then EMAIL_CONTROLS else []) := by
    cases email_enabled with
    | false => exact Reads.nil
    | true => exact reads_email_form
  refine reads_layout ?_
  refine .append_plain ?_ (Spells.reads (by repeat constructor) ?_)
  refine .append_plain ?_ (.flatMap fun provider _ => Spells.reads
    (.lit rfl <| .hole <| .lit rfl <| .hole <| .lit rfl .nil) ?_)
  refine .append_plain ?_ (Spells.reads (.lit rfl .nil) ?_)
  refine .append_plain ?_ (.ite (fun _ => Spells.reads (.lit rfl .nil) ?_) fun _ => .nil)
  refine .plain_append ?_ hemail
  refine .append_plain (Spells.reads (by repeat constructor) ?_)
    (.ite (fun _ => Spells.reads (.lit rfl <| .lit rfl .nil) ?_) fun _ => ?err)
  case err =>
    rcases error with _ | _ | ⟨c, error⟩
    · exact .nil
    · exact .nil
    · refine Spells.reads (.lit rfl <| .hole <| .lit rfl .nil) ?_
      decide +kernel
  all_goals decide +kernel

set_option maxRecDepth 20000 in
theorem reads_magic_confirm (token : PyStr) :
    Reads (Pages.magic_confirm token) (controls (magic_confirm token)) := by
  refine reads_layout (Reads.plain_append (Spells.reads (by repeat constructor) ?_)
    (reads_form (subst_post _ "/auth/magic/verify") (by simp [Pages.h])
      (by repeat constructor) ?_))
  · decide +kernel
  · decide +kernel

set_option maxRecDepth 20000 in
theorem reads_check_email (email : PyStr) : Reads (Pages.check_email email) [] := by
  refine reads_layout (Spells.reads (by repeat constructor) ?_)
  decide +kernel

theorem reads_message (title text : PyStr) (error : Bool) (link link_text : PyStr) :
    Reads (Pages.message title text error link link_text) [] := by
  cases error with
  | false | true =>
    refine reads_layout (Spells.reads (.lit rfl <| .hole <| .lit rfl <| .lit rfl <| .lit rfl <|
      .hole <| .lit rfl <| .hole <| .lit rfl <| .hole <| .lit rfl .nil) ?_)
    decide +kernel

set_option maxRecDepth 20000 in
theorem reads_billing_section {fmt : PageFormatting} {plan : FullPlan} {pro : Option FullPlan}
    {billing : Pages.BillingView} {csrf : PyStr} {t : Template Value}
    (hsection : Pages.billing_section fmt plan pro billing csrf = .ok t) :
    Reads t (billingControls plan pro billing csrf) := by
  unfold Pages.billing_section at hsection
  unfold billingControls
  by_cases hoff : billing.enabled = false
  · rw [if_pos hoff] at hsection ⊢
    cases hsection
    exact Reads.nil
  rw [if_neg hoff] at hsection ⊢
  cases hsub : if plan.id = "pro" then billing.subscription else none with
  | some sub =>
    have hpro : plan.id = "pro" ∧ billing.subscription.isSome := by
      split_ifs at hsub with hid
      exact ⟨hid, by rw [hsub]; rfl⟩
    rw [hsub] at hsection
    rw [if_pos hpro]
    obtain ⟨when_, -, hsection⟩ := bind_eq_ok.1 hsection
    cases hsection
    refine Reads.plain_append (Reads.append_plain (Spells.reads
      (.lit rfl <| .hole <| .lit rfl .nil) ?_) (Reads.ite (fun _ => Spells.reads
      (.lit rfl <| .lit rfl <| .lit rfl .nil) ?_) fun _ => Reads.nil)) (reads_form
      (subst_post _ "/billing/portal") (by simp [Pages.h]) (by repeat constructor) ?_)
    all_goals decide +kernel
  | none =>
    have hpro : ¬ (plan.id = "pro" ∧ billing.subscription.isSome) := by
      rintro ⟨hid, hsome⟩
      rw [if_pos hid] at hsub
      rw [hsub] at hsome
      cases hsome
    rw [hsub] at hsection
    rw [if_neg hpro]
    cases pro with
    | none =>
      cases hsection
      exact Reads.nil
    | some pro =>
      obtain ⟨nodes, -, hsection⟩ := bind_eq_ok.1 hsection
      obtain ⟨timeout, -, hsection⟩ := bind_eq_ok.1 hsection
      obtain ⟨cost, -, hsection⟩ := bind_eq_ok.1 hsection
      cases hsection
      refine Reads.plain_append (Spells.reads (.lit rfl <| .hole <| .lit rfl <| .hole <|
        .lit rfl <| .hole <| .lit rfl <| .hole <| .lit rfl <| .hole <| .lit rfl <| .hole <|
        .lit rfl <| .hole <| .lit rfl .nil) ?_) (reads_form
        (subst_post _ "/billing/checkout") (by simp [Pages.h]) (by repeat constructor) ?_)
      all_goals decide +kernel

set_option maxRecDepth 20000 in
theorem reads_account {fmt : PageFormatting} {user : User} {plan : FullPlan} {used : ℚ}
    {identities : List Identity} {csrf : PyStr} {recent : List Run} {support_email : PyStr}
    {billing : Pages.BillingView} {pro : Option FullPlan} {t : Template Value}
    (haccount : Pages.account fmt user plan used identities csrf recent support_email billing pro =
      .ok t) :
    Reads t
      (controls (account user plan used identities csrf recent support_email billing pro)) := by
  obtain ⟨billing_html, hbilling, haccount⟩ := bind_eq_ok.1 haccount
  obtain ⟨limits, hlimits, haccount⟩ := bind_eq_ok.1 haccount
  cases haccount
  have hrow : ∀ row ∈ limits, Reads row [] := by
    intro row hmem
    obtain ⟨item, -, hitem⟩ := of_mem_mapM hlimits hmem
    obtain ⟨text, -, hitem⟩ := bind_eq_ok.1 hitem
    cases hitem
    refine Spells.reads (.lit rfl <| .hole <| .lit rfl <| .hole <| .lit rfl .nil) ?_
    decide +kernel
  have hrows : Reads limits.flatten [] := by
    rw [← List.flatMap_id]
    exact Reads.flatMap hrow
  refine reads_layout ?_
  refine .append_plain ?_ (Spells.reads (.lit rfl .nil) ?_)
  refine .append_plain ?_ (.ite (fun _ => .nil) fun _ => Spells.reads
    (.lit rfl <| .hole <| .lit rfl <| .hole <| .lit rfl .nil) ?_)
  refine .append ?_ (reads_form (subst_signoutForm _) (by simp [Pages.h])
    (by repeat constructor) ?_)
  refine .append_plain ?_ (.ite (fun _ => Spells.reads (.lit rfl .nil) ?_) fun _ =>
    .flatMap fun r _ => Spells.reads (.lit rfl <| .hole <| .lit rfl <| .hole <| .lit rfl <|
      .lit rfl <| .hole <| .lit rfl .nil) ?_)
  refine .append_plain ?_ (Spells.reads (by repeat constructor) ?_)
  refine .append_plain ?_ (.flatMap fun i _ => Spells.reads
    (.lit rfl <| .hole <| .lit rfl <| .hole <| .lit rfl .nil) ?_)
  refine .append_plain ?_ (Spells.reads (.lit rfl .nil) ?_)
  refine .plain_append ?_ (reads_billing_section hbilling)
  refine .append_plain ?_ (Spells.reads (.lit rfl .nil) ?_)
  refine .append_plain ?_ hrows
  refine .append_plain ?_ (Spells.reads (.lit rfl .nil) ?_)
  refine .append_plain ?_ (.ite (fun _ => Spells.reads (.lit rfl .nil) ?_) fun _ => Spells.reads
    (.lit rfl <| .hole <| .lit rfl <| .hole <| .lit rfl <| .hole <| .lit rfl <| .lit rfl <|
      .hole <| .lit rfl .nil) ?_)
  refine .append_plain ?_ (Spells.reads (.lit rfl <| .hole <| .lit rfl .nil) ?_)
  refine .append_plain (Spells.reads (.lit rfl <| .hole .nil) ?_) ?name
  case name =>
    rcases user.name with _ | _ | ⟨c, name⟩
    · exact .nil
    · exact .nil
    · refine Spells.reads (.lit rfl <| .hole .nil) ?_
      decide +kernel
  all_goals decide +kernel

theorem reads_template {fmt : PageFormatting} {page : Page} {t : Template Value}
    (hpage : page.template fmt = .ok t) : Reads t page.controls := by
  cases page with
  | account => exact reads_account hpage
  | signin providers error email_enabled =>
    cases hpage
    exact reads_signin providers error email_enabled
  | magic_confirm token =>
    cases hpage
    exact reads_magic_confirm token
  | check_email email =>
    cases hpage
    exact reads_check_email email
  | message title text error link link_text =>
    cases hpage
    exact reads_message title text error link link_text

/-- A page has the markup of its template, and each value stands where its template has it,
whatever the values are. -/
theorem pages_are_read_as_written {fmt : PageFormatting} {page : Page} {t : Template Value}
    (hpage : page.template fmt = .ok t) :
    ∃ ts, Html.read (Html.syms t) = some ts ∧
      Html.tokens (Html.render t) = some (ts.flatMap (Html.Token.subst Value.syms)) ∧
      Html.read (Html.syms (t.map (Piece.rename fun _ => ()))) =
        some (ts.flatMap (Html.Token.subst fun _ => [.hole ()])) := by
  obtain ⟨ts, hts, -⟩ := reads_template hpage
  refine ⟨ts, hts, Html.read_render hts, ?_⟩
  rw [Html.syms_rename, Html.read_rename, hts]
  rfl

/-- Small whole numbers are written as they are. -/
def plainPageFormatting : PageFormatting where
  toFormatting := plainFormatting
  grouped
    | .int n => if n.natAbs < 1000 then .ok (intText n) else .error .overflowError
    | _ => .error .typeError
  general
    | .int n => if n.natAbs < 1000 then .ok (intText n) else .error .overflowError
    | _ => .error .typeError
  fixed2 x := ⟨(intText (pyRound x)).1 ++ py ".00", plain_append (plain_int _) plain_zeros⟩
  date _ := .error .overflowError

/-- The account of a user whose name, address and identity look like markup. -/
def spitefulPage : Page :=
  .account
    { id := 1, email := py "a@b.co", name := some (py "</p><script>\"&amp;'"), plan := py "guest",
      created := 0, last_seen := 0, session_epoch := 0, disabled := false }
    guestPlan 0
    [{ provider := py "github", subject := py "<i>", user_id := 1, email := [], created := 0 }]
    (py "a.B-c_1")
    [{ client := "user:1", plan := "guest", period := "2026-09-05", path := "/api/solve",
       engineSeconds := 2, status := "ok", worker := none, requestId := none, queueSeconds := 0 }]
    (py "help@example.com") { enabled := false, price_text := [], subscription := none } none

theorem pages_are_read_as_written_spiteful :
    ∃ t, ∃ ts : List (Html.Token Value), spitefulPage.template plainPageFormatting = .ok t ∧
      Html.tokens (Html.render t) = some (ts.flatMap (Html.Token.subst Value.syms)) := by
  have hpage : ∃ t, spitefulPage.template plainPageFormatting = .ok t := ⟨_, rfl⟩
  obtain ⟨t, ht⟩ := hpage
  obtain ⟨ts, -, hts, -⟩ := pages_are_read_as_written ht
  exact ⟨t, ts, ht, hts⟩

/-- The forms, the fields and the buttons of a page. -/
theorem controls_of_a_page {fmt : PageFormatting} {page : Page} {t : Template Value}
    (hpage : page.template fmt = .ok t) :
    ∃ us, Html.tokens (Html.render t) = some us ∧
      Html.controls us = page.controls.map (Control.subst Value.syms) :=
  (reads_template hpage).render

end Page

end OpendssGateway
