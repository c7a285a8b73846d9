import OpendssGateway.Gateway.FloatText
import OpendssGateway.Gateway.Headers

/-!
# Webhook signatures

`verify_signature` and `sign` of `billing.py`.  The header is a list of
items `key=value`.  The last `t` gives the time, in decimal, and any `v1`
may be the signature of `<t>.<payload>`.

`Hmac` is HMAC-SHA256 with its hex digest.  It is assumed that two messages
have different digests, for every secret.

* `readInt_showInt`: the time that was printed is read.
* `verify_sign_iff`: a signature is accepted exactly while its time is near.
* `verify_signature_spec` is the result.
-/

namespace OpendssGateway

open FloatText

/-! ## Integers in decimal -/

/-- The decimal digits. -/
def decimal (n : Nat) : Bytes :=
  (Nat.toDigits 10 n).map fun c => c.toNat.toUInt8

/-- `f"{n}"`. -/
def showInt (n : Int) : Except PyError Bytes :=
  if (decimal n.natAbs).length ≤ maxStrDigits then
    .ok (if n < 0 then 45 :: decimal n.natAbs else decimal n.natAbs)
  else .error .valueError

/-- `int(text)`.  `none` is `ValueError`. -/
def readInt (u : Unicode) (text : PyStr) : Option Int :=
  (clean u text).bind fun bytes =>
    let (sign, digits) := readSign bytes
    if digits ≠ [] ∧ digits.all Metering.isDigit ∧ digits.length ≤ maxStrDigits then
      some (if sign = [45] then -(Metering.digits digits : Int) else Metering.digits digits)
    else none

/-- `bytes.decode` of ASCII. -/
def decode (bytes : Bytes) : PyStr :=
  bytes.map UInt8.toNat

/-! ## The header -/

/-- HMAC-SHA256. -/
structure Hmac where
  hexdigest : (secret : PyStr) → (message : Bytes) → PyStr
  injective : ∀ secret, Function.Injective (hexdigest secret)
  hex_ok : ∀ secret message, ∀ c ∈ hexdigest secret message,
    (48 ≤ c ∧ c ≤ 57) ∨ (97 ≤ c ∧ c ≤ 102)

/-- `p.split("=", 1)`. -/
def splitItem (item : PyStr) : PyStr × PyStr :=
  (item.takeWhile (· ≠ 61), (item.dropWhile (· ≠ 61)).drop 1)

/-- `(p.split("=", 1) for p in header.split(",") if "=" in p)`. -/
def signatureItems (header : PyStr) : List (PyStr × PyStr) :=
  ((header.splitOnP (· == 44)).filter fun item => item.contains 61).map splitItem

/-- `hmac.compare_digest` of strings.  Only ASCII is compared. -/
def compare_digest (a b : PyStr) : Except PyError Bool :=
  if a.all (· < 128) && b.all (· < 128) then .ok (a == b) else .error .typeError

/-- `any(hmac.compare_digest(expected, c) for c in candidates)`. -/
def anyDigest (expected : PyStr) : List PyStr → Except PyError Bool
  | [] => .ok false
  | c :: rest => do
    let same ← compare_digest expected c
    if same then .ok true else anyDigest expected rest

/-- Why a signature is not accepted. -/
inductive SignatureError
  | stripe (message : String)
  | other (e : PyError)
  deriving DecidableEq

def TOLERANCE_S : ℚ := 300

section

variable (mac : Hmac) (u : Unicode)

/-- `str.encode` of a text without lone surrogates. -/
def encodable (s : PyStr) : Bool :=
  s.all fun c => !(0xD800 ≤ c && c ≤ 0xDFFF)

/-- What is signed: the time, a dot and the payload. -/
def signedBytes (ts : Int) (payload : Bytes) : Except PyError Bytes := do
  let text ← showInt ts
  .ok (text ++ [46] ++ payload)

/-- `verify_signature`, at the time `now`.  The time of the header is made a float when it is
subtracted.  `now` is a float, so one that is too large for that is not near it.  Smaller
times are exact: the rounding of the difference is left out. -/
def verify_signature (payload : Bytes) (header : Option PyStr) (secret : PyStr) (now : ℚ) :
    Except SignatureError Unit :=
  let header := header.getD []
  if header = [] ∨ secret = [] then .error (.stripe "missing signature")
  else
    let parts : PyDict PyStr := Table.ofRows (signatureItems header)
    match readInt u (((parts.find? (py "t")).map Prod.snd).getD []) with
    | none => .error (.stripe "malformed signature")
    | some ts =>
      if |now - ts| > TOLERANCE_S then
        if Number.overflow ≤ |(ts : ℚ)| then .error (.other .overflowError)
        else .error (.stripe "signature timestamp outside tolerance")
      else if !encodable secret then .error (.other .unicodeEncodeError)
      else
        match signedBytes ts payload with
        | .error e => .error (.other e)
        | .ok message =>
          let candidates := ((signatureItems header).filter fun item => item.1 = py "v1").map
            Prod.snd
          match anyDigest (mac.hexdigest secret message) candidates with
          | .error e => .error (.other e)
          | .ok true => .ok ()
          | .ok false => .error (.stripe "signature mismatch")

/-- `sign`. -/
def sign (payload : Bytes) (secret : PyStr) (ts : Int) : Except PyError PyStr := do
  let text ← showInt ts
  let message ← signedBytes ts payload
  if encodable secret then
    .ok (py "t=" ++ decode text ++ py ",v1=" ++ mac.hexdigest secret message)
  else .error .unicodeEncodeError

end

/-! ## Printing and reading the time -/

theorem toUInt8_toNat {c : Nat} (h : c < 256) : c.toUInt8.toNat = c := by
  rw [UInt8.toNat_ofNat']
  omega

theorem decimal_isDigit {n : Nat} : ∀ b ∈ decimal n, Metering.isDigit b = true := by
  intro b hb
  obtain ⟨c, hc, rfl⟩ := List.mem_map.1 hb
  have hcode := digit_toNat c hc
  have hnat := toUInt8_toNat (c := c.toNat) (by omega)
  simp only [Metering.isDigit, Bool.and_eq_true, decide_eq_true_eq, UInt8.le_iff_toNat_le, hnat]
  exact hcode

theorem decimal_ne_nil (n : Nat) : decimal n ≠ [] := by
  simp [decimal]

/-- The digits have the value that was printed. -/
theorem digits_decimal (n : Nat) : Metering.digits (decimal n) = n := by
  have hfold : Metering.digits (decimal n) = Nat.ofDigitChars 10 (Nat.toDigits 10 n) 0 := by
    rw [Nat.ofDigitChars_eq_foldl]
    unfold Metering.digits decimal
    rw [List.foldl_map]
    refine List.foldl_ext _ _ _ fun value c hc => ?_
    rw [toUInt8_toNat (by have := digit_toNat c hc; omega)]
    rfl
  rw [hfold, Nat.ofDigitChars_ten_toDigits]

/-- The text of an integer: a minus sign, or none, and digits. -/
theorem showInt_eq_ok {n : Int} {text : Bytes} (h : showInt n = .ok text) :
    ∃ sign, (sign = [] ∨ sign = [45]) ∧ text = sign ++ decimal n.natAbs ∧
      (decimal n.natAbs).length ≤ maxStrDigits ∧ (sign = [45] ↔ n < 0) := by
  unfold showInt at h
  split at h
  · rename_i hlength
    cases h
    by_cases hn : n < 0
    · exact ⟨[45], Or.inr rfl, by rw [if_pos hn]; rfl, hlength, by simp [hn]⟩
    · exact ⟨[], Or.inl rfl, by rw [if_neg hn]; rfl, hlength, by simp [hn]⟩
  · cases h

theorem plain_showInt {n : Int} {text : Bytes} (h : showInt n = .ok text) :
    ∀ b ∈ text, Plain b := by
  obtain ⟨sign, hsign, rfl, -, -⟩ := showInt_eq_ok h
  have hminus : Plain 45 := by
    unfold Plain
    decide
  intro b hb
  rcases List.mem_append.1 hb with hb | hb
  · rcases hsign with rfl | rfl
    · cases hb
    · rw [List.mem_singleton.1 hb]
      exact hminus
  · exact plain_of_digit (decimal_isDigit b hb)

/-- The text of an integer is one item of a header. -/
theorem showInt_no_comma {n : Int} {text : Bytes} (h : showInt n = .ok text) :
    ∀ c ∈ decode text, c ≠ 44 := by
  rintro c hc rfl
  obtain ⟨b, hb, h44⟩ := List.mem_map.1 hc
  have hcomma : b = 44 := UInt8.toNat_inj.1 h44
  subst hcomma
  obtain ⟨sign, hsign, rfl, -, -⟩ := showInt_eq_ok h
  rcases List.mem_append.1 hb with hb | hb
  · rcases hsign with rfl | rfl
    · cases hb
    · exact absurd hb (by decide)
  · exact absurd (decimal_isDigit _ hb) (by decide)

/-- An integer that was printed is read. -/
theorem readInt_showInt {u : Unicode} {n : Int} {text : Bytes} (h : showInt n = .ok text) :
    readInt u (decode text) = some n := by
  obtain ⟨sign, hsign, htext, hlength, hneg⟩ := showInt_eq_ok h
  unfold readInt decode
  rw [clean_of_plain (plain_showInt h), Option.bind_some, htext,
    readSign_of_sign (hsign.imp_right Or.inr) fun b hb =>
      not_sign_of_digit (decimal_isDigit b (List.mem_of_mem_head? hb))]
  dsimp only
  rw [if_pos ⟨decimal_ne_nil _, List.all_eq_true.2 decimal_isDigit, hlength⟩, digits_decimal]
  congr 1
  by_cases hn : n < 0
  · rw [if_pos (hneg.2 hn)]
    omega
  · rw [if_neg fun hs => hn (hneg.1 hs)]
    omega

/-! ## The items of a signature -/

/-- A character that separates nothing. -/
theorem not_separator_of_hex {c : Nat} (h : (48 ≤ c ∧ c ≤ 57) ∨ (97 ≤ c ∧ c ≤ 102)) :
    c ≠ 44 ∧ c ≠ 61 ∧ c < 128 := by
  omega

theorem splitItem_append {key value : PyStr} (h : ∀ c ∈ key, c ≠ 61) :
    splitItem (key ++ 61 :: value) = (key, value) := by
  have hkey : ∀ c ∈ key, decide (c ≠ 61) = true := fun c hc => decide_eq_true (h c hc)
  unfold splitItem
  rw [List.takeWhile_append_of_pos hkey, List.dropWhile_append_of_pos hkey]
  simp

/-- The items of a header that `sign` made. -/
theorem signatureItems_sign {time digest : PyStr} (htime : ∀ c ∈ time, c ≠ 44)
    (hdigest : ∀ c ∈ digest, c ≠ 44) :
    signatureItems (py "t=" ++ time ++ py ",v1=" ++ digest) =
      [(py "t", time), (py "v1", digest)] := by
  have hsplit : py "t=" ++ time ++ py ",v1=" ++ digest =
      (py "t" ++ 61 :: time) ++ 44 :: (py "v1" ++ 61 :: digest) := by
    simp [py]
  have hitem : ∀ key value : PyStr, (∀ c ∈ key, c ≠ 44) → (∀ c ∈ value, c ≠ 44) →
      ∀ c ∈ key ++ 61 :: value, (c == 44) = false := by
    intro key value hkey hvalue c hc
    rw [beq_eq_false_iff_ne]
    rcases List.mem_append.1 hc with hc | hc
    · exact hkey c hc
    · rcases List.mem_cons.1 hc with rfl | hc
      · decide
      · exact hvalue c hc
  have hcontains : ∀ item ∈ [py "t" ++ 61 :: time, py "v1" ++ 61 :: digest],
      item.contains 61 = true := by
    simp
  unfold signatureItems
  rw [hsplit, List.splitOnP_append_cons_of_forall_mem (hitem _ _ (by decide) htime) 44 rfl,
    List.splitOnP_eq_singleton (hitem _ _ (by decide) hdigest), List.filter_eq_self.2 hcontains,
    List.map_cons, List.map_cons, List.map_nil, splitItem_append (by decide),
    splitItem_append (by decide)]

/-- A digest that is found is among the candidates. -/
theorem mem_of_anyDigest {expected : PyStr} {candidates : List PyStr}
    (h : anyDigest expected candidates = .ok true) : expected ∈ candidates := by
  induction candidates with
  | nil => cases h
  | cons c rest ih =>
    obtain ⟨same, hsame, hrest⟩ := bind_eq_ok.1 h
    by_cases htrue : same = true
    · rw [htrue] at hsame
      unfold compare_digest at hsame
      split at hsame
      · have heq : (expected == c) = true := by
          injection hsame
        rw [eq_of_beq heq]
        exact List.mem_cons_self ..
      · cases hsame
    · rw [if_neg htrue] at hrest
      exact List.mem_cons_of_mem c (ih hrest)

/-- One candidate in ASCII is compared. -/
theorem anyDigest_singleton {expected candidate : PyStr} (hexpected : ∀ c ∈ expected, c < 128)
    (hcandidate : ∀ c ∈ candidate, c < 128) :
    anyDigest expected [candidate] = .ok true ↔ expected = candidate := by
  have hall : (expected.all (· < 128) && candidate.all (· < 128)) = true := by
    simp only [Bool.and_eq_true, List.all_eq_true, decide_eq_true_eq]
    exact ⟨hexpected, hcandidate⟩
  unfold anyDigest compare_digest
  rw [if_pos hall]
  show (if (expected == candidate) = true then Except.ok true else anyDigest expected []) = _ ↔ _
  split
  · rename_i heq
    simp [eq_of_beq heq]
  · rename_i hne
    constructor
    · intro h
      cases h
    · rintro rfl
      exact absurd (beq_self_eq_true _) hne

/-! ## What is accepted -/

variable {mac : Hmac} {u : Unicode} {payload payload2 : Bytes} {header : Option PyStr}
  {secret : PyStr} {ts : Int} {now : ℚ}

/-- The value of the last `t` item. -/
def timeText (header : PyStr) : PyStr :=
  (((Table.ofRows (signatureItems header) : PyDict PyStr).find? (py "t")).map Prod.snd).getD []

/-- The values of the `v1` items. -/
def candidatesOf (header : PyStr) : List PyStr :=
  ((signatureItems header).filter fun item => item.1 = py "v1").map Prod.snd

/-- A header that has a time, for a gateway with a secret. -/
def Timed (u : Unicode) (header : Option PyStr) (secret : PyStr) (ts : Int) : Prop :=
  header.getD [] ≠ [] ∧ secret ≠ [] ∧ readInt u (timeText (header.getD [])) = some ts

/-- What comes of the comparison. -/
def settled : Except PyError Bool → Except SignatureError Unit
  | .error e => .error (.other e)
  | .ok true => .ok ()
  | .ok false => .error (.stripe "signature mismatch")

theorem settled_eq_ok {x : Except PyError Bool} : settled x = .ok () ↔ x = .ok true := by
  cases x with
  | error e => simp [settled]
  | ok same => cases same <;> simp [settled]

theorem settled_eq_other {x : Except PyError Bool} {e : PyError} :
    settled x = .error (.other e) ↔ x = .error e := by
  cases x with
  | error e' => simp [settled]
  | ok same => cases same <;> simp [settled]

theorem verify_untimed (h : ∀ ts, ¬ Timed u header secret ts) :
    ∃ message, verify_signature mac u payload header secret now = .error (.stripe message) := by
  unfold verify_signature
  dsimp only
  split
  · exact ⟨_, rfl⟩
  · rename_i hpresent
    rw [not_or] at hpresent
    cases hts : readInt u (timeText (header.getD [])) with
    | none =>
      unfold timeText at hts
      rw [hts]
      exact ⟨_, rfl⟩
    | some ts => exact absurd ⟨hpresent.1, hpresent.2, hts⟩ (h ts)

/-- What is left to do once the time has been read. -/
theorem verify_timed (h : Timed u header secret ts) :
    verify_signature mac u payload header secret now =
      if TOLERANCE_S < |now - ts| then
        if Number.overflow ≤ |(ts : ℚ)| then .error (.other .overflowError)
        else .error (.stripe "signature timestamp outside tolerance")
      else if encodable secret = false then .error (.other .unicodeEncodeError)
      else settled (signedBytes ts payload >>= fun message =>
        anyDigest (mac.hexdigest secret message) (candidatesOf (header.getD []))) := by
  obtain ⟨hheader, hsecret, hts⟩ := h
  unfold timeText at hts
  unfold verify_signature candidatesOf
  dsimp only
  rw [if_neg (not_or.2 ⟨hheader, hsecret⟩), hts]
  dsimp only
  congr 1
  cases encodable secret with
  | false => rfl
  | true =>
    rw [if_neg (by decide), if_neg (by decide)]
    cases signedBytes ts payload with
    | error e => rfl
    | ok message =>
      show _ = settled (anyDigest (mac.hexdigest secret message) _)
      dsimp only
      cases anyDigest (mac.hexdigest secret message)
          (((signatureItems (header.getD [])).filter fun item => item.1 = py "v1").map
            Prod.snd) with
      | error e => rfl
      | ok same => cases same <;> rfl

theorem verify_signature_eq_ok :
    verify_signature mac u payload header secret now = .ok () ↔
      header.getD [] ≠ [] ∧ secret ≠ [] ∧ encodable secret = true ∧
        ∃ ts message, readInt u (timeText (header.getD [])) = some ts ∧
          |now - ts| ≤ TOLERANCE_S ∧ signedBytes ts payload = .ok message ∧
          anyDigest (mac.hexdigest secret message) (candidatesOf (header.getD [])) = .ok true := by
  constructor
  · intro h
    by_cases htimed : ∃ ts, Timed u header secret ts
    · obtain ⟨ts, htimed⟩ := htimed
      rw [verify_timed htimed] at h
      split_ifs at h with hfar hlarge hforeign
      obtain ⟨message, hmessage, hany⟩ := bind_eq_ok.1 (settled_eq_ok.1 h)
      exact ⟨htimed.1, htimed.2.1, by simpa using hforeign, ts, message, htimed.2.2,
        not_lt.1 hfar, hmessage, hany⟩
    · obtain ⟨message, hstripe⟩ := verify_untimed fun ts hts => htimed ⟨ts, hts⟩
      cases hstripe.symm.trans h
  · rintro ⟨hheader, hsecret, hencodes, ts, message, hts, hnear, hmessage, hany⟩
    rw [verify_timed ⟨hheader, hsecret, hts⟩, if_neg (not_lt_of_ge hnear), hencodes,
      if_neg (by decide), settled_eq_ok, hmessage]
    exact hany

/-- The time is read from the last `t` item. -/
theorem timeText_eq {text : PyStr} (h : readInt u (timeText text) = some ts) :
    ((signatureItems text).filter fun item => item.1 = py "t").getLast? =
      some (py "t", timeText text) := by
  unfold timeText at h ⊢
  cases hfind : (Table.ofRows (signatureItems text) : PyDict PyStr).find? (py "t") with
  | none =>
    rw [hfind] at h
    cases h
  | some item =>
    obtain ⟨hmem, hkey⟩ := Table.find?_eq_some hfind
    have hlast := Table.mem_ofRows.1 hmem
    rw [hkey] at hlast
    rw [hlast, ← hkey]
    rfl

theorem signedBytes_of_shown {shown : Bytes} (h : showInt ts = .ok shown) (payload : Bytes) :
    signedBytes ts payload = .ok (shown ++ [46] ++ payload) := by
  unfold signedBytes
  rw [h]
  rfl

theorem sign_eq_ok {text : PyStr} (h : sign mac payload secret ts = .ok text) :
    ∃ shown, showInt ts = .ok shown ∧ encodable secret = true ∧
      text = py "t=" ++ decode shown ++ py ",v1=" ++
        mac.hexdigest secret (shown ++ [46] ++ payload) := by
  obtain ⟨shown, hshown, h⟩ := bind_eq_ok.1 h
  obtain ⟨message, hmessage, h⟩ := bind_eq_ok.1 h
  rw [signedBytes_of_shown hshown] at hmessage
  cases hmessage
  split at h
  · rename_i hencodes
    exact ⟨shown, hshown, hencodes, (Except.ok.inj h).symm⟩
  · cases h

/-- A header that `sign` made is accepted for its own payload, with a secret, and near its
time. -/
theorem verify_sign_iff {text : PyStr} (h : sign mac payload secret ts = .ok text) :
    verify_signature mac u payload2 (some text) secret now = .ok () ↔
      secret ≠ [] ∧ payload2 = payload ∧ |now - ts| ≤ TOLERANCE_S := by
  obtain ⟨shown, hshown, hencodes, rfl⟩ := sign_eq_ok h
  set message := shown ++ [46] ++ payload with hmessage
  have hhex : ∀ message, ∀ c ∈ mac.hexdigest secret message, c ≠ 44 ∧ c ≠ 61 ∧ c < 128 :=
    fun message c hc => not_separator_of_hex (mac.hex_ok secret message c hc)
  have hitems := signatureItems_sign (showInt_no_comma hshown) fun c hc => (hhex message c hc).1
  rw [verify_signature_eq_ok, Option.getD_some]
  have htime : timeText (py "t=" ++ decode shown ++ py ",v1=" ++ mac.hexdigest secret message) =
      decode shown := by
    unfold timeText
    rw [hitems]
    rfl
  have hcandidates : candidatesOf (py "t=" ++ decode shown ++ py ",v1=" ++
      mac.hexdigest secret message) = [mac.hexdigest secret message] := by
    unfold candidatesOf
    rw [hitems]
    rfl
  rw [htime, hcandidates, readInt_showInt hshown]
  constructor
  · rintro ⟨-, hsecret, -, ts', message', hts, hnear, hmessage', hany⟩
    cases hts
    rw [signedBytes_of_shown hshown] at hmessage'
    cases hmessage'
    rw [anyDigest_singleton (fun c hc => (hhex _ c hc).2.2) fun c hc => (hhex _ c hc).2.2] at hany
    have hsame := mac.injective secret hany
    rw [hmessage] at hsame
    exact ⟨hsecret, List.append_cancel_left hsame, hnear⟩
  · rintro ⟨hsecret, rfl, hnear⟩
    refine ⟨by simp [py], hsecret, hencodes, ts, message, rfl, hnear, ?_, ?_⟩
    · rw [signedBytes_of_shown hshown, hmessage]
    · exact (anyDigest_singleton (fun c hc => (hhex _ c hc).2.2)
        fun c hc => (hhex _ c hc).2.2).2 rfl

/-- A header is accepted when `sign` made it for this payload, with a secret that is not
empty, and near its time.  Whatever a header looks like, when it is accepted the secret is
not empty, its last `t` item holds a time near now, and one of its `v1` items is the digest
of this time and the payload. -/
theorem verify_signature_spec (mac : Hmac) (u : Unicode) (secret : PyStr) (now : ℚ) :
    (∀ (payload payload2 : Bytes) (ts : Int) (text : PyStr),
      sign mac payload secret ts = .ok text →
      (verify_signature mac u payload2 (some text) secret now = .ok () ↔
        secret ≠ [] ∧ payload2 = payload ∧ |now - ts| ≤ TOLERANCE_S)) ∧
    ∀ (payload : Bytes) (header : Option PyStr),
      verify_signature mac u payload header secret now = .ok () →
      secret ≠ [] ∧ ∃ (text time : PyStr) (ts : Int) (shown : Bytes), header = some text ∧
        ((signatureItems text).filter fun item => item.1 = py "t").getLast? =
          some (py "t", time) ∧
        readInt u time = some ts ∧ |now - ts| ≤ TOLERANCE_S ∧ showInt ts = .ok shown ∧
        (py "v1", mac.hexdigest secret (shown ++ [46] ++ payload)) ∈ signatureItems text := by
  refine ⟨fun payload payload2 ts text h => verify_sign_iff h, fun payload header h => ?_⟩
  obtain ⟨hheader, hsecret, -, ts, message, hts, hnear, hmessage, hany⟩ :=
    verify_signature_eq_ok.1 h
  cases header with
  | none => exact absurd rfl hheader
  | some text =>
    obtain ⟨shown, hshown, hmessage⟩ := bind_eq_ok.1 hmessage
    cases hmessage
    refine ⟨hsecret, text, timeText text, ts, shown, rfl, timeText_eq hts, hts, hnear, hshown, ?_⟩
    obtain ⟨⟨key, value⟩, hitem, hvalue⟩ := List.mem_map.1 (mem_of_anyDigest hany)
    obtain ⟨hmem, hkey⟩ := List.mem_filter.1 hitem
    rw [decide_eq_true_eq] at hkey
    rw [← hvalue, ← hkey]
    exact hmem

/-! ## A digest that shows the message -/

/-- Two hexadecimal digits for a byte. -/
def hexByte (b : UInt8) : PyStr :=
  [hexDigit (b.toNat / 16), hexDigit (b.toNat % 16)]

theorem hexDigit_inj {d e : Nat} (hd : d < 16) (he : e < 16) (h : hexDigit d = hexDigit e) :
    d = e := by
  unfold hexDigit at h
  split at h <;> split at h <;> omega

theorem hex_injective : Function.Injective fun message : Bytes => message.flatMap hexByte := by
  intro a
  induction a with
  | nil =>
    intro b h
    cases b with
    | nil => rfl
    | cons c rest => simp [hexByte] at h
  | cons c rest ih =>
    intro b h
    cases b with
    | nil => simp [hexByte] at h
    | cons d more =>
      simp only [List.flatMap_cons, hexByte, List.cons_append, List.nil_append,
        List.cons.injEq] at h
      obtain ⟨hhigh, hlow, hrest⟩ := h
      have hc := c.toNat_lt
      have hd := d.toNat_lt
      have hhigh := hexDigit_inj (by omega) (by omega) hhigh
      have hlow := hexDigit_inj (by omega) (by omega) hlow
      have hbyte : c = d := UInt8.toNat_inj.1 (by omega)
      rw [hbyte, ih hrest]

def hexMac : Hmac where
  hexdigest _ message := message.flatMap hexByte
  injective _ := hex_injective
  hex_ok := by
    intro _ message c hc
    obtain ⟨b, -, hb⟩ := List.mem_flatMap.1 hc
    have hlt := b.toNat_lt
    simp only [hexByte, hexDigit, List.mem_cons, List.not_mem_nil, or_false] at hb
    rcases hb with rfl | rfl
    all_goals
      split <;> omega

/-- A payload that was signed a minute ago. -/
theorem verify_signature_spec_minute :
    ∃ text, sign hexMac (ascii "1") (py "whsec") 1700000000 = .ok text ∧
      verify_signature hexMac asciiOnly (ascii "1") (some text) (py "whsec") 1700000060 = .ok () ∧
      ∃ time, ((signatureItems text).filter fun item => item.1 = py "t").getLast? =
        some (py "t", time) := by
  have hspec := verify_signature_spec hexMac asciiOnly (py "whsec") 1700000060
  obtain ⟨text, hsign⟩ : ∃ text, sign hexMac (ascii "1") (py "whsec") 1700000000 = .ok text :=
    ⟨_, rfl⟩
  have hnear : |(1700000060 : ℚ) - (1700000000 : Int)| ≤ TOLERANCE_S := by
    unfold TOLERANCE_S
    norm_num
  have hok := (hspec.1 (ascii "1") (ascii "1") 1700000000 text hsign).2
    ⟨by decide, rfl, hnear⟩
  obtain ⟨-, text', time, -, -, htext, htime, -⟩ := hspec.2 (ascii "1") (some text) hok
  cases htext
  exact ⟨text, hsign, hok, time, htime⟩

end OpendssGateway
