import OpendssGateway.Gateway.Signature

/-!
# What a header can make `verify_signature` raise

The header of a webhook comes from anyone.  `verify_signature` turns a time
that `int` does not read into a `StripeError`, and nothing else.

`Crash` has one case for each other exception.  The time may be beyond the
floats, the secret may not be encodable, and a `v1` item that is not ASCII
may be compared before one that matches.

* `verify_signature_crash`: these are the exceptions, and no others.
* `webhook_authenticates`: the route answers 400 to what it does not
  authenticate, unless there is one that is no `ValueError`.
-/

namespace OpendssGateway

open FloatText

/-! ## A time that was read can be printed -/

theorem digits_lt {text : Bytes} (h : ∀ b ∈ text, Metering.isDigit b = true) :
    Metering.digits text < 10 ^ text.length := by
  induction text using List.reverseRecOn with
  | nil => decide
  | append_singleton text b ih =>
    have hlt := ih fun c hc => h c (List.mem_append_left _ hc)
    have hdigit := h b (List.mem_append_right _ (List.mem_singleton_self b))
    have hle : b.toNat ≤ 57 := by
      simp only [Metering.isDigit, Bool.and_eq_true, decide_eq_true_eq, UInt8.le_iff_toNat_le]
        at hdigit
      exact hdigit.2
    have hsnoc : Metering.digits (text ++ [b]) = 10 * Metering.digits text + (b.toNat - 48) := by
      simp [Metering.digits, List.foldl_append]
    rw [hsnoc, List.length_append, List.length_singleton, pow_succ]
    omega

theorem showInt_of_readInt {u : Unicode} {text : PyStr} {ts : Int}
    (h : readInt u text = some ts) : ∃ shown, showInt ts = .ok shown := by
  obtain ⟨bytes, -, h⟩ := Option.bind_eq_some_iff.1 h
  dsimp only at h
  split at h
  · rename_i hdigits
    obtain ⟨hne, hall, hlength⟩ := hdigits
    have habs : ts.natAbs = Metering.digits (readSign bytes).2 := by
      cases h
      split <;> simp
    have hlt := digits_lt (List.all_eq_true.1 hall)
    have hshort : (decimal ts.natAbs).length ≤ maxStrDigits := by
      rw [decimal, List.length_map, habs]
      exact ((Nat.length_toDigits_le_iff (by decide) (List.length_pos_iff.2 hne)).2 hlt).trans
        hlength
    exact ⟨_, if_pos hshort⟩
  · cases h

/-! ## Comparing the candidates -/

/-- A candidate that is not ASCII comes before any that matches. -/
def Foul (expected : PyStr) (candidates : List PyStr) : Prop :=
  ∃ before c rest, candidates = before ++ c :: rest ∧ expected ∉ before ∧ ∃ x ∈ c, 128 ≤ x

theorem foul_cons_of_ascii {expected c : PyStr} {rest : List PyStr} (hc : ∀ x ∈ c, x < 128) :
    Foul expected (c :: rest) ↔ c ≠ expected ∧ Foul expected rest := by
  constructor
  · rintro ⟨before, d, after, heq, hbefore, x, hx, hlarge⟩
    cases before with
    | nil =>
      cases heq
      exact absurd (hc x hx) (not_lt.2 hlarge)
    | cons first before =>
      cases heq
      rw [List.mem_cons, not_or] at hbefore
      exact ⟨fun h => hbefore.1 h.symm, before, d, after, rfl, hbefore.2, x, hx, hlarge⟩
  · rintro ⟨hne, before, d, after, rfl, hbefore, hlarge⟩
    refine ⟨c :: before, d, after, rfl, ?_, hlarge⟩
    rw [List.mem_cons, not_or]
    exact ⟨fun h => hne h.symm, hbefore⟩

theorem compare_digest_of_ascii {a b : PyStr} (ha : ∀ x ∈ a, x < 128) (hb : ∀ x ∈ b, x < 128) :
    compare_digest a b = .ok (a == b) := by
  apply if_pos
  rw [Bool.and_eq_true, List.all_eq_true, List.all_eq_true]
  exact ⟨fun x hx => decide_eq_true (ha x hx), fun x hx => decide_eq_true (hb x hx)⟩

theorem anyDigest_error_iff {expected : PyStr} (hexpected : ∀ x ∈ expected, x < 128)
    (candidates : List PyStr) (e : PyError) :
    anyDigest expected candidates = .error e ↔ e = .typeError ∧ Foul expected candidates := by
  induction candidates with
  | nil =>
    refine iff_of_false (fun h => by cases h) ?_
    rintro ⟨-, before, c, rest, heq, -⟩
    cases before <;> cases heq
  | cons c rest ih =>
    by_cases hc : ∀ x ∈ c, x < 128
    · rw [foul_cons_of_ascii hc]
      unfold anyDigest
      rw [compare_digest_of_ascii hexpected hc]
      show (if (expected == c) = true then _ else _) = _ ↔ _
      by_cases hsame : expected = c
      · rw [if_pos (beq_iff_eq.2 hsame)]
        exact iff_of_false (fun h => by cases h) fun h => h.2.1 hsame.symm
      · rw [if_neg (mt beq_iff_eq.1 hsame), ih]
        exact and_congr_right fun _ => (and_iff_right fun h => hsame h.symm).symm
    · have hraise : anyDigest expected (c :: rest) = .error .typeError := by
        have hcompare : compare_digest expected c = .error .typeError := by
          apply if_neg
          rw [Bool.and_eq_true, List.all_eq_true, List.all_eq_true]
          exact fun h => hc fun x hx => of_decide_eq_true (h.2 x hx)
        unfold anyDigest
        rw [hcompare]
        rfl
      have hfoul : Foul expected (c :: rest) := by
        push Not at hc
        obtain ⟨x, hx, hlarge⟩ := hc
        exact ⟨[], c, rest, rfl, List.not_mem_nil, x, hx, hlarge⟩
      rw [hraise]
      exact ⟨fun h => ⟨(Except.error.inj h).symm, hfoul⟩, fun h => by rw [h.1]⟩

/-! ## `verify_signature` -/

section Crashes

variable (mac : Hmac) (u : Unicode) (payload : Bytes) (header : Option PyStr) (secret : PyStr)
  (now : ℚ)

/-- What makes `verify_signature` raise an exception that is no `StripeError`. -/
inductive Crash : PyError → Prop
  /-- the time is not near, and is beyond the floats -/
  | time {ts : Int} (htimed : Timed u header secret ts) (hfar : TOLERANCE_S < |now - ts|)
      (hlarge : Number.overflow ≤ |(ts : ℚ)|) : Crash .overflowError
  /-- the time is near, and the secret has a lone surrogate -/
  | secret {ts : Int} (htimed : Timed u header secret ts) (hnear : |now - ts| ≤ TOLERANCE_S)
      (hsecret : encodable secret = false) : Crash .unicodeEncodeError
  /-- the time is near, and a candidate cannot be compared -/
  | candidate {ts : Int} {shown : Bytes} (htimed : Timed u header secret ts)
      (hnear : |now - ts| ≤ TOLERANCE_S) (hsecret : encodable secret = true)
      (hshown : showInt ts = .ok shown)
      (hfoul : Foul (mac.hexdigest secret (shown ++ [46] ++ payload))
        (candidatesOf (header.getD []))) : Crash .typeError

end Crashes

section Verify

variable {mac : Hmac} {u : Unicode} {payload : Bytes} {header : Option PyStr} {secret : PyStr}
  {now : ℚ} {ts : Int}

/-- The candidates decide. -/
theorem verify_of_near (h : Timed u header secret ts) (hnear : |now - ts| ≤ TOLERANCE_S)
    (hencodes : encodable secret = true) {shown : Bytes} (hshown : showInt ts = .ok shown)
    (e : PyError) :
    verify_signature mac u payload header secret now = .error (.other e) ↔
      anyDigest (mac.hexdigest secret (shown ++ [46] ++ payload))
        (candidatesOf (header.getD [])) = .error e := by
  rw [verify_timed h, if_neg (not_lt_of_ge hnear), hencodes, if_neg (by decide),
    settled_eq_other, signedBytes_of_shown hshown]
  rfl

theorem hexdigest_ascii (mac : Hmac) (secret : PyStr) (message : Bytes) :
    ∀ x ∈ mac.hexdigest secret message, x < 128 := by
  intro x hx
  have hhex := mac.hex_ok secret message x hx
  omega

/-- The exceptions that are no `StripeError`. -/
theorem verify_signature_crash (e : PyError) :
    verify_signature mac u payload header secret now = .error (.other e) ↔
      Crash mac u payload header secret now e := by
  constructor
  · intro h
    by_cases htimed : ∃ ts, Timed u header secret ts
    · obtain ⟨ts, htimed⟩ := htimed
      by_cases hfar : TOLERANCE_S < |now - ts|
      · rw [verify_timed htimed, if_pos hfar] at h
        split at h
        · cases h
          exact .time htimed hfar ‹_›
        · cases h
      · have hnear := not_lt.1 hfar
        cases hencodes : encodable secret with
        | false =>
          rw [verify_timed htimed, if_neg hfar, if_pos hencodes] at h
          cases h
          exact .secret htimed hnear hencodes
        | true =>
          obtain ⟨shown, hshown⟩ := showInt_of_readInt htimed.2.2
          rw [verify_of_near htimed hnear hencodes hshown,
            anyDigest_error_iff (hexdigest_ascii mac secret _)] at h
          obtain ⟨rfl, hfoul⟩ := h
          exact .candidate htimed hnear hencodes hshown hfoul
    · obtain ⟨message, hstripe⟩ := verify_untimed fun ts hts => htimed ⟨ts, hts⟩
      cases hstripe.symm.trans h
  · intro h
    cases h with
    | time htimed hfar hlarge => rw [verify_timed htimed, if_pos hfar, if_pos hlarge]
    | secret htimed hnear hsecret =>
      rw [verify_timed htimed, if_neg (not_lt_of_ge hnear), if_pos hsecret]
    | candidate htimed hnear hsecret hshown hfoul =>
      exact (verify_of_near htimed hnear hsecret hshown _).2
        ((anyDigest_error_iff (hexdigest_ascii mac secret _) _ _).2 ⟨rfl, hfoul⟩)

end Verify

/-! ## The route -/

/-- `UnicodeError` is a `ValueError`. -/
def PyError.isValueError : PyError → Bool
  | .valueError | .unicodeEncodeError => true
  | _ => false

/-- What the route of the webhook does with a request, up to the event. -/
inductive WebhookAnswer
  | refused (status : Nat)
  | event (event : Json)
  | raised (e : PyError)

/-- `except (StripeError, ValueError)`. -/
def rejected : SignatureError → WebhookAnswer
  | .stripe _ => .refused 400
  | .other e => if e.isValueError then .refused 400 else .raised e

/-- `POST /billing/webhook` with a body, up to the event.  `loads` is `json.loads`. -/
def billing_webhook_event (mac : Hmac) (u : Unicode) (loads : Bytes → Except PyError Json)
    (payload : Bytes) (header : Option PyStr) (secret : PyStr) (now : ℚ) : WebhookAnswer :=
  match verify_signature mac u payload header secret now with
  | .error e => rejected e
  | .ok () =>
    match loads payload with
    | .error e => rejected (.other e)
    | .ok event => .event event

theorem rejected_eq {e : SignatureError} :
    rejected e = .refused 400 ↔ ∀ e', e = .other e' → e'.isValueError = true := by
  cases e with
  | stripe message => simp [rejected]
  | other e' =>
    unfold rejected
    cases he : e'.isValueError <;> simp [he]

/-- `verify_signature` returns or raises `StripeError` if and only if nothing in the request
makes it crash.  The route answers 400 to a request that it does not authenticate, if and only
if what makes it crash is a `ValueError`: the secret alone. -/
theorem webhook_authenticates (mac : Hmac) (u : Unicode) (loads : Bytes → Except PyError Json)
    (payload : Bytes) (header : Option PyStr) (secret : PyStr) (now : ℚ) :
    ((verify_signature mac u payload header secret now = .ok () ∨
          ∃ message, verify_signature mac u payload header secret now =
            .error (.stripe message)) ↔
        ∀ e, ¬ Crash mac u payload header secret now e) ∧
      ((verify_signature mac u payload header secret now ≠ .ok () →
          billing_webhook_event mac u loads payload header secret now = .refused 400) ↔
        ∀ e, Crash mac u payload header secret now e → e = .unicodeEncodeError) := by
  have hcrash := @verify_signature_crash mac u payload header secret now
  simp only [← hcrash]
  unfold billing_webhook_event
  cases hverify : verify_signature mac u payload header secret now with
  | ok answer => simp
  | error e =>
    cases e with
    | stripe message => simp [rejected]
    | other e' =>
      have hraised : Crash mac u payload header secret now e' := (hcrash e').1 hverify
      have hvalue : e'.isValueError = true ↔ e' = .unicodeEncodeError := by
        cases hraised <;> decide
      simp [rejected_eq, hvalue]

/-- A candidate that is not ASCII, in a header with the time of now. -/
theorem verify_signature_raises :
    ¬ ∀ (mac : Hmac) (u : Unicode) (payload : Bytes) (header : Option PyStr) (secret : PyStr)
      (now : ℚ), verify_signature mac u payload header secret now = .ok () ∨
        ∃ message, verify_signature mac u payload header secret now =
          .error (.stripe message) := by
  intro h
  have hraise : verify_signature hexMac asciiOnly [] (some (py "t=1700000000,v1=é"))
      (py "whsec") 1700000000 = .error (.other .typeError) := by
    decide +kernel
  rcases h hexMac asciiOnly [] (some (py "t=1700000000,v1=é")) (py "whsec") 1700000000 with
    hok | ⟨message, hstripe⟩
  · rw [hraise] at hok
    cases hok
  · rw [hraise] at hstripe
    cases hstripe

end OpendssGateway
