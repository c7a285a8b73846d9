import OpendssGateway.Gateway.RateWindow
import OpendssGateway.Gateway.Session

/-!
# The limits on magic links

`POST /auth/magic` asks two rate windows: one for the address that a
request comes from, and one for the email that it names.  The second is
asked only if the first lets the request pass, and by then the first has
counted it.

A `Desk` is the site with its two windows.  `admitted` is history: the
requests that passed both windows and had a nonce issued.  Any other route
may run between two requests.

* `magic_request_site`: the route is the one of the site, with what the
  windows say.
* `consult_cases`: the ways in which the windows answer, and what is
  counted.
* `Counted` is the invariant of the runs in which no request is counted
  without being admitted.  There the windows answer from `admitted` alone.
* `Desk.refusal_iff`: what a refusal means in these runs, and exactly which
  one uses up a quota.
* `Desk.starved`: a refusal by the second window does use up the quota of
  the first.
-/

namespace OpendssGateway

namespace Auth

open RateWindow

structure MagicConfig extends AuthConfig where
  magic_per_ip_hour : Int
  magic_per_email_hour : Int

/-- A request for a magic link: the monotonic clock, the form, and what the libraries
answer. -/
structure MagicRequest where
  now : ℚ
  client_ip : PyStr
  email : PyStr
  /-- `secrets.token_urlsafe(16)` -/
  nonce : PyStr
  /-- `mailer.send` does not raise -/
  sent : Bool

/-- A request that was admitted. -/
structure Admission where
  now : ℚ
  client_ip : PyStr
  email : PyStr

/-- The call of the first window. -/
def Admission.ipCall (a : Admission) : Call PyStr :=
  ⟨a.now, a.client_ip⟩

/-- The call of the second window. -/
def Admission.emailCall (a : Admission) : Call PyStr :=
  ⟨a.now, a.email⟩

structure Desk where
  site : Site
  magic_ip : RateWindow PyStr
  magic_email : RateWindow PyStr
  /-- the monotonic clock at the last request -/
  clock : ℚ
  admitted : List Admission

/-- The nonce is new, and the database can hold it and the address. -/
def Issuable (rt : Runtime) (rows : Table MagicToken.nonce) (nonce email : PyStr) : Prop :=
  (∃ v, bindText nonce = .ok v) ∧ (∃ v, bindText (rt.lower email) = .ok v) ∧
    rows.find? nonce = none

theorem issuable_iff {rt : Runtime} {rows : Table MagicToken.nonce} {nonce email : PyStr}
    (now : ℚ) :
    Issuable rt rows nonce email ↔ ∃ rows', issue_magic rt rows now nonce email = .ok rows' := by
  unfold Issuable issue_magic
  cases bindText nonce with
  | error e => simp [bind, Except.bind]
  | ok v =>
    cases bindText (rt.lower email) with
    | error e => simp [bind, Except.bind]
    | ok w =>
      by_cases hfresh : rows.find? nonce = none
      · simp [bind, Except.bind, hfresh]
      · simp [bind, Except.bind, hfresh]

namespace Desk

variable (rt : Runtime) (cfg : MagicConfig)

def init : Desk where
  site := Site.init Store.empty
  magic_ip := new cfg.magic_per_ip_hour 3600
  magic_email := new cfg.magic_per_email_hour 3600
  clock := 0
  admitted := []

/-- The address of a request that gets to the windows. -/
def addressOf (email : PyStr) : Option PyStr :=
  if cfg.email_signin then valid_email rt email else none

/-- `gw._magic_ip.allow(client_ip)` and then `gw._magic_email.allow(address)`. -/
def consult (d : Desk) (now : ℚ) (client_ip address : PyStr) : Desk × Bool :=
  let (magic_ip, passed) := d.magic_ip.allow now client_ip
  if passed then
    let (magic_email, passed) := d.magic_email.allow now address
    ({ d with magic_ip, magic_email }, passed)
  else ({ d with magic_ip }, false)

/-- What the windows are and say once the request has got past them. -/
def asked (d : Desk) (r : MagicRequest) : Desk × Bool :=
  match addressOf rt cfg r.email with
  | none => (d, false)
  | some address => d.consult r.now r.client_ip address

/-- `POST /auth/magic`. -/
def magic_request (d : Desk) (r : MagicRequest) : Desk × Reply :=
  let (asked, admitted) := d.asked rt cfg r
  let (site, reply) :=
    d.site.magic_request rt cfg.toAuthConfig r.email r.nonce admitted r.sent
  ({ asked with site }, reply)

/-- The admission of a request that passes both windows and has a nonce issued. -/
def admission (d : Desk) (r : MagicRequest) : List Admission :=
  match addressOf rt cfg r.email with
  | none => []
  | some address =>
    if (d.consult r.now r.client_ip address).2 then
      match issue_magic rt d.site.magic_tokens d.site.now r.nonce address with
      | .error _ => []
      | .ok _ => [{ now := r.now, client_ip := r.client_ip, email := address }]
    else []

end Desk

inductive DeskAction
  | request (r : MagicRequest)
  /-- any other route -/
  | other (action : SiteAction)

def SiteAction.isMagicRequest : SiteAction → Bool
  | .magicRequest .. => true
  | _ => false

namespace Desk

variable (rt : Runtime) (cfg : MagicConfig)

def next (d : Desk) : DeskAction → Option Desk
  | .request r =>
    if d.clock ≤ r.now then
      some { (d.magic_request rt cfg r).1 with
        clock := r.now
        admitted := d.admitted ++ d.admission rt cfg r }
    else none
  | .other action =>
    if action.isMagicRequest then none
    else (d.site.next rt cfg.toAuthConfig action).map fun site => { d with site }

def machine : Transition.Machine Desk DeskAction where
  init := init cfg
  next := next rt cfg

/-! ## What a request may be refused for -/

/-- The admitted requests of the last hour that came from the address of a request. -/
def fromAddress (d : Desk) (r : MagicRequest) : Nat :=
  d.admitted.countP fun a => a.client_ip = r.client_ip ∧ r.now - 3600 ≤ a.now

/-- The admitted requests of the last hour for the email of a request. -/
def forEmail (d : Desk) (r : MagicRequest) : Nat :=
  d.admitted.countP fun a => valid_email rt r.email = some a.email ∧ r.now - 3600 ≤ a.now

/-- A quota of the request is used up by admitted requests. -/
def Exhausted (d : Desk) (r : MagicRequest) : Prop :=
  cfg.magic_per_ip_hour ≤ d.fromAddress r ∨ cfg.magic_per_email_hour ≤ d.forEmail rt r

/-- The quota of the email is used up while the one of the address is not. -/
def EmailOnly (d : Desk) (r : MagicRequest) : Prop :=
  (∃ address, addressOf rt cfg r.email = some address) ∧
    d.fromAddress r < cfg.magic_per_ip_hour ∧ cfg.magic_per_email_hour ≤ d.forEmail rt r

/-- A request that passes both windows has its link issued. -/
def Issues (d : Desk) (r : MagicRequest) : Prop :=
  ∀ address, addressOf rt cfg r.email = some address →
    d.fromAddress r < cfg.magic_per_ip_hour → d.forEmail rt r < cfg.magic_per_email_hour →
    Issuable rt d.site.magic_tokens r.nonce address

/-- The request is not counted by a window without being admitted. -/
def Clean (d : Desk) : DeskAction → Prop
  | .request r => ¬ d.EmailOnly rt cfg r ∧ d.Issues rt cfg r
  | .other _ => True

/-- The answer is 429. -/
def TooMany (reply : Reply) : Prop :=
  ∃ message, reply = .refused 429 message

/-- Neither window counts more from a time on than it did. -/
def KeepsQuotas (d d' : Desk) (now : ℚ) : Prop :=
  ∀ later, now ≤ later → ∀ key,
    d'.magic_ip.used later key = d.magic_ip.used later key ∧
      d'.magic_email.used later key = d.magic_email.used later key

/-! ## What one request does -/

section Steps

variable {rt : Runtime} {cfg : MagicConfig} {d : Desk} {r : MagicRequest}

/-- The site sees a request that was admitted or not. -/
theorem magic_request_site :
    ((d.magic_request rt cfg r).1.site, (d.magic_request rt cfg r).2) =
      d.site.magic_request rt cfg.toAuthConfig r.email r.nonce (d.asked rt cfg r).2 r.sent :=
  rfl

/-- The first window refuses, or it counts the request and the second one answers. -/
theorem consult_cases (d : Desk) (now : ℚ) (client_ip address : PyStr) :
    ((d.magic_ip.allow now client_ip).2 = false ∧
      d.consult now client_ip address =
        ({ d with magic_ip := (d.magic_ip.allow now client_ip).1 }, false)) ∨
      ((d.magic_ip.allow now client_ip).2 = true ∧
        d.consult now client_ip address =
          ({ d with
            magic_ip := (d.magic_ip.allow now client_ip).1
            magic_email := (d.magic_email.allow now address).1 },
            (d.magic_email.allow now address).2)) := by
  unfold consult
  cases h : (d.magic_ip.allow now client_ip).2 with
  | false => exact Or.inl ⟨rfl, by simp [h]⟩
  | true => exact Or.inr ⟨rfl, by simp [h]⟩

theorem asked_of_none (h : addressOf rt cfg r.email = none) : d.asked rt cfg r = (d, false) := by
  simp only [asked, h]

theorem asked_of_some {address : PyStr} (h : addressOf rt cfg r.email = some address) :
    d.asked rt cfg r = d.consult r.now r.client_ip address := by
  simp only [asked, h]

theorem addressOf_eq_some {email address : PyStr} (h : addressOf rt cfg email = some address) :
    cfg.email_signin = true ∧ valid_email rt email = some address := by
  unfold addressOf at h
  split at h
  · exact ⟨‹_›, h⟩
  · cases h

/-- The answer is 429 exactly for a request with an address that a window refuses. -/
theorem tooMany_iff :
    TooMany (d.magic_request rt cfg r).2 ↔
      ∃ address, addressOf rt cfg r.email = some address ∧
        (d.consult r.now r.client_ip address).2 = false := by
  show TooMany (d.site.magic_request rt cfg.toAuthConfig r.email r.nonce
    (d.asked rt cfg r).2 r.sent).2 ↔ _
  cases haddress : addressOf rt cfg r.email with
  | none =>
    refine ⟨fun h => ?_, fun ⟨_, h, _⟩ => by cases h⟩
    obtain ⟨message, hreply⟩ := h
    unfold addressOf at haddress
    unfold Site.magic_request at hreply
    split at haddress
    · rw [if_pos ‹_›, haddress] at hreply
      cases hreply
    · rw [if_neg ‹_›] at hreply
      cases hreply
  | some address =>
    obtain ⟨hon, hvalid⟩ := addressOf_eq_some haddress
    rw [asked_of_some haddress]
    simp only [Site.magic_request, hon, hvalid, if_true, Option.some.injEq, exists_eq_left']
    cases hpassed : (d.consult r.now r.client_ip address).2 with
    | false =>
      exact ⟨fun _ => rfl, fun _ => ⟨_, rfl⟩⟩
    | true =>
      refine ⟨fun h => ?_, fun h => by cases h⟩
      obtain ⟨message, hreply⟩ := h
      simp only [if_true] at hreply
      split at hreply
      · cases hreply
      · split at hreply <;> cases hreply

end Steps

/-! ## Runs in which only admitted requests count -/

/-- The windows have counted the admitted requests, and nothing else. -/
structure Counted (cfg : MagicConfig) (d : Desk) : Prop where
  ip_limit : d.magic_ip.limit = cfg.magic_per_ip_hour
  ip_window : d.magic_ip.window = 3600
  email_limit : d.magic_email.limit = cfg.magic_per_email_hour
  email_window : d.magic_email.window = 3600
  ip : Tracks d.magic_ip (d.admitted.map Admission.ipCall) d.clock
  email : Tracks d.magic_email (d.admitted.map Admission.emailCall) d.clock

section Runs

variable {rt : Runtime} {cfg : MagicConfig} {d : Desk} {r : MagicRequest}

/-- The first window answers from the admitted requests. -/
theorem Counted.ip_allow (h : Counted cfg d) (hnow : d.clock ≤ r.now) :
    (d.magic_ip.allow r.now r.client_ip).2 = true ↔
      (d.fromAddress r : Int) < cfg.magic_per_ip_hour := by
  rw [(h.ip.mono hnow).allow_iff, h.ip_limit, h.ip_window, since, List.countP_map]
  rfl

/-- So does the second one. -/
theorem Counted.email_allow (h : Counted cfg d) (hnow : d.clock ≤ r.now) {address : PyStr}
    (haddress : addressOf rt cfg r.email = some address) :
    (d.magic_email.allow r.now address).2 = true ↔
      (d.forEmail rt r : Int) < cfg.magic_per_email_hour := by
  have hcount : since address (r.now - 3600) (d.admitted.map Admission.emailCall) =
      d.forEmail rt r := by
    unfold since forEmail
    rw [List.countP_map, (addressOf_eq_some haddress).2]
    apply List.countP_congr
    intro a _
    simp only [Function.comp_apply, Option.some.injEq, decide_eq_true_eq]
    exact and_congr_left fun _ => eq_comm
  rw [(h.email.mono hnow).allow_iff, h.email_limit, h.email_window, hcount]

/-- Both windows let a request pass if both quotas have room. -/
theorem Counted.passes_iff (h : Counted cfg d) (hnow : d.clock ≤ r.now) {address : PyStr}
    (haddress : addressOf rt cfg r.email = some address) :
    (d.consult r.now r.client_ip address).2 = true ↔
      (d.fromAddress r : Int) < cfg.magic_per_ip_hour ∧
        (d.forEmail rt r : Int) < cfg.magic_per_email_hour := by
  rw [← h.ip_allow hnow, ← h.email_allow hnow haddress]
  obtain ⟨hrefused, hconsult⟩ | ⟨hpassed, hconsult⟩ := consult_cases d r.now r.client_ip address
  · rw [hconsult, hrefused]
    simp
  · rw [hconsult, hpassed]
    simp

/-- A request that is counted is admitted, so the windows still count the same requests. -/
theorem Counted.request (h : Counted cfg d) (hnow : d.clock ≤ r.now)
    (hclean : d.Clean rt cfg (.request r)) :
    Counted cfg { (d.magic_request rt cfg r).1 with
      clock := r.now
      admitted := d.admitted ++ d.admission rt cfg r } := by
  have hip := h.ip.mono hnow
  have hemail := h.email.mono hnow
  show Counted cfg { (d.asked rt cfg r).1 with
    site := (d.magic_request rt cfg r).1.site
    clock := r.now
    admitted := d.admitted ++ d.admission rt cfg r }
  cases haddress : addressOf rt cfg r.email with
  | none =>
    have hadmission : d.admission rt cfg r = [] := by simp only [admission, haddress]
    rw [asked_of_none haddress, hadmission, List.append_nil]
    exact ⟨h.ip_limit, h.ip_window, h.email_limit, h.email_window, hip, hemail⟩
  | some address =>
    rw [asked_of_some haddress]
    obtain ⟨hrefused, hconsult⟩ | ⟨hpassed, hconsult⟩ :=
      consult_cases d r.now r.client_ip address
    · have hadmission : d.admission rt cfg r = [] := by
        simp only [admission, haddress, hconsult, Bool.false_eq_true, if_false]
      rw [hconsult, hadmission, List.append_nil]
      exact ⟨allow_limit.trans h.ip_limit, allow_window_eq.trans h.ip_window, h.email_limit,
        h.email_window, hip.refused hrefused, hemail⟩
    · -- the address has room, so the email has too, and the link is issued
      have hroom := (h.ip_allow hnow).1 hpassed
      have hemailRoom : (d.forEmail rt r : Int) < cfg.magic_per_email_hour := by
        by_contra hfull
        exact hclean.1 ⟨⟨address, haddress⟩, hroom, not_lt.1 hfull⟩
      have hallowed := (h.email_allow hnow haddress).2 hemailRoom
      obtain ⟨rows, hissued⟩ := (issuable_iff d.site.now).1
        (hclean.2 address haddress hroom hemailRoom)
      have hadmission : d.admission rt cfg r =
          [{ now := r.now, client_ip := r.client_ip, email := address }] := by
        simp only [admission, haddress, hconsult, hallowed, if_true, hissued]
      rw [hconsult, hadmission]
      refine ⟨allow_limit.trans h.ip_limit, allow_window_eq.trans h.ip_window,
        allow_limit.trans h.email_limit, allow_window_eq.trans h.email_window, ?_, ?_⟩
      · rw [List.map_append]
        exact hip.allowed hpassed
      · rw [List.map_append]
        exact hemail.allowed hallowed

/-- The windows count the admitted requests, and nothing else, in every run in which no
request is counted without being admitted. -/
theorem counted (h : (machine rt cfg).ReachableBy (Clean rt cfg) d) : Counted cfg d := by
  refine h.invariant (Counted cfg) ?_ ?_
  · exact ⟨rfl, rfl, rfl, rfl, Tracks.new _ _ _, Tracks.new _ _ _⟩
  · intro d action d' hd hclean hnext
    cases action with
    | request r =>
      simp only [machine, next] at hnext
      split at hnext
      · cases hnext
        exact hd.request ‹_› hclean
      · cases hnext
    | other action =>
      simp only [machine, next] at hnext
      split at hnext
      · cases hnext
      · obtain ⟨site, _, rfl⟩ := Option.map_eq_some_iff.1 hnext
        exact ⟨hd.ip_limit, hd.ip_window, hd.email_limit, hd.email_window, hd.ip, hd.email⟩

/-- A request is refused only if a quota is used up. -/
theorem Counted.exhausted (h : Counted cfg d) (hnow : d.clock ≤ r.now)
    (hmany : TooMany (d.magic_request rt cfg r).2) : d.Exhausted rt cfg r := by
  obtain ⟨address, haddress, hrefused⟩ := tooMany_iff.1 hmany
  by_contra hroom
  unfold Exhausted at hroom
  rw [not_or, not_le, not_le] at hroom
  rw [(h.passes_iff hnow haddress).2 hroom] at hrefused
  cases hrefused

/-- A refusal for the address uses nothing up. -/
theorem Counted.keepsQuotas (h : Counted cfg d) (hnow : d.clock ≤ r.now)
    (hmany : TooMany (d.magic_request rt cfg r).2) (hemail : ¬ d.EmailOnly rt cfg r) :
    KeepsQuotas d (d.magic_request rt cfg r).1 r.now := by
  obtain ⟨address, haddress, hrefused⟩ := tooMany_iff.1 hmany
  have hpassed : (d.magic_ip.allow r.now r.client_ip).2 = false := by
    rw [Bool.eq_false_iff, ne_eq, h.ip_allow hnow]
    intro hroom
    refine hemail ⟨⟨address, haddress⟩, hroom, not_lt.1 fun hfew => ?_⟩
    rw [(h.passes_iff hnow haddress).2 ⟨hroom, hfew⟩] at hrefused
    cases hrefused
  have hasked : d.asked rt cfg r =
      ({ d with magic_ip := (d.magic_ip.allow r.now r.client_ip).1 }, false) := by
    rw [asked_of_some haddress]
    obtain ⟨-, hconsult⟩ | ⟨hallowed, -⟩ := consult_cases d r.now r.client_ip address
    · exact hconsult
    · rw [hpassed] at hallowed
      cases hallowed
  intro later hlater key
  show (d.asked rt cfg r).1.magic_ip.used later key = _ ∧
    (d.asked rt cfg r).1.magic_email.used later key = _
  rw [hasked]
  exact ⟨used_of_refused hpassed hlater key, rfl⟩

/-- A request for an email that alone has no quota left is refused, and its address has been
counted by then. -/
theorem Counted.spent (h : Counted cfg d) (hnow : d.clock ≤ r.now)
    (hemail : d.EmailOnly rt cfg r) :
    TooMany (d.magic_request rt cfg r).2 ∧
      ¬ KeepsQuotas d (d.magic_request rt cfg r).1 r.now := by
  obtain ⟨⟨address, haddress⟩, hroom, hfull⟩ := hemail
  have hpassed := (h.ip_allow hnow).2 hroom
  have hrefused : (d.consult r.now r.client_ip address).2 = false := by
    rw [Bool.eq_false_iff, ne_eq, h.passes_iff hnow haddress]
    exact fun hboth => absurd hboth.2 (not_lt.2 hfull)
  refine ⟨tooMany_iff.2 ⟨address, haddress, hrefused⟩, fun hkeeps => ?_⟩
  have hused : (d.asked rt cfg r).1.magic_ip.used r.now r.client_ip =
      d.magic_ip.used r.now r.client_ip := (hkeeps r.now le_rfl r.client_ip).1
  rw [asked_of_some haddress] at hused
  obtain ⟨hnot, -⟩ | ⟨-, hconsult⟩ := consult_cases d r.now r.client_ip address
  · rw [hpassed] at hnot
    cases hnot
  · rw [hconsult] at hused
    have hcount := used_of_allowed hpassed (by rw [h.ip_window]; norm_num)
    exact absurd (hcount.symm.trans hused) (Nat.succ_ne_self _)

/-- In such a run a request is refused only if a quota is used up by admitted requests of
the last hour.  The refusal uses nothing up, unless it is the email alone that has no quota
left: then the address has been counted. -/
theorem refusal_iff (rt : Runtime) (cfg : MagicConfig) (d : Desk)
    (hd : (machine rt cfg).ReachableBy (Clean rt cfg) d) (r : MagicRequest)
    (hnow : d.clock ≤ r.now) :
    (TooMany (d.magic_request rt cfg r).2 → d.Exhausted rt cfg r) ∧
      ((TooMany (d.magic_request rt cfg r).2 →
          KeepsQuotas d (d.magic_request rt cfg r).1 r.now) ↔ ¬ d.EmailOnly rt cfg r) := by
  have hcounted := counted hd
  refine ⟨hcounted.exhausted hnow, fun hkeeps hemail => ?_, fun hemail hmany => ?_⟩
  · obtain ⟨hmany, hspent⟩ := hcounted.spent hnow hemail
    exact hspent (hkeeps hmany)
  · exact hcounted.keepsQuotas hnow hmany hemail

end Runs

/-! ## Runs on fixed requests -/

/-- The limits of `Config`. -/
def defaults : MagicConfig where
  email_signin := true
  providers := []
  magic_per_ip_hour := 6
  magic_per_email_hour := 3

/-- A request from one address, after some seconds. -/
def ask (now : Nat) (email : String) : MagicRequest where
  now := now
  client_ip := py "203.0.113.7"
  email := py email
  nonce := py (toString now)
  sent := true

/-- One request for an address. -/
def single : MagicConfig :=
  { defaults with magic_per_ip_hour := 1 }

/-- The desk after a first request. -/
def askedOnce : Desk :=
  ((machine plainRuntime single).next (init single) (.request (ask 0 "a@b.co"))).getD
    (init single)

/-- With one request for an address, the second one is refused, and uses nothing up. -/
theorem refusal_iff_second :
    askedOnce.Exhausted plainRuntime single (ask 1 "c@d.co") ∧
      KeepsQuotas askedOnce (askedOnce.magic_request plainRuntime single (ask 1 "c@d.co")).1
        1 := by
  have hclean : (init single).Clean plainRuntime single (.request (ask 0 "a@b.co")) := by
    refine ⟨fun h => absurd h.2.2 (by decide +kernel), fun address haddress _ _ => ?_⟩
    cases Option.some.inj (haddress.symm.trans
      (show addressOf plainRuntime single (py "a@b.co") = some (py "a@b.co") by decide +kernel))
    exact ⟨⟨_, rfl⟩, ⟨_, rfl⟩, rfl⟩
  have hd : (machine plainRuntime single).ReachableBy (Clean plainRuntime single) askedOnce :=
    Transition.Machine.ReachableBy.init.step hclean
      (Transition.eq_some_getD _ (by decide +kernel))
  have hrefusal := refusal_iff plainRuntime single askedOnce hd (ask 1 "c@d.co")
    (by decide +kernel)
  have hmany : TooMany
      (askedOnce.magic_request plainRuntime single (ask 1 "c@d.co")).2 :=
    tooMany_iff.2 ⟨py "c@d.co", by decide +kernel, by decide +kernel⟩
  exact ⟨hrefusal.1 hmany, hrefusal.2.2 (fun h => absurd h.2.1 (by decide +kernel)) hmany⟩

/-- The desk after six requests for one email from one address. -/
def askedSix : Desk :=
  ((machine plainRuntime defaults).run (init defaults)
    ((List.range 6).map fun now => .request (ask now "a@b.co"))).getD (init defaults)

/-- Three links for one email, three more requests for it that are refused, and an address
that has had three links gets no other. -/
theorem starved :
    ¬ ∀ d, (machine plainRuntime defaults).Reachable d → ∀ r, d.clock ≤ r.now →
      TooMany (d.magic_request plainRuntime defaults r).2 →
      d.Exhausted plainRuntime defaults r := by
  intro h
  have hreach : (machine plainRuntime defaults).Reachable askedSix :=
    Transition.Machine.reachable_of_run (Transition.eq_some_getD _ (by decide +kernel))
  have hmany : TooMany
      (askedSix.magic_request plainRuntime defaults (ask 6 "c@d.co")).2 :=
    tooMany_iff.2 ⟨py "c@d.co", by decide +kernel, by decide +kernel⟩
  rcases h askedSix hreach (ask 6 "c@d.co") (by decide +kernel) hmany with hip | hemail
  · exact absurd hip (by decide +kernel)
  · exact absurd hemail (by decide +kernel)

end Desk

end Auth

end OpendssGateway
