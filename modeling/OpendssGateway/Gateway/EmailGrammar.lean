import OpendssGateway.Gateway.MagicLinks
import OpendssGateway.Gateway.MeterText
import OpendssGateway.Gateway.SignIn
import OpendssGateway.Library.Backtrack

/-!
# What `valid_email` accepts

`_EMAIL` is a regular expression, and its classes overlap: a dot is a
character like any other.  `emailPattern` is this expression, item by item,
and `matchesEmail_eq` says that `matchesEmail` answers what backtracking on
it does.

`IsAddress` is the grammar in words.  `matchesEmail_iff` says that the
expression and the length accept exactly this, of stripped texts.

`valid_email_iff` is the result for ASCII: what is accepted, in what form it
is returned, and that the further normalisations leave it alone.
-/

namespace OpendssGateway

open Backtrack

/-! ## The expression -/

/-- `$`: at the end, or before a newline at the end. -/
def atEnd (s : PyStr) : Bool :=
  s == [] || s == [10]

/-- `^[^@\s]{1,64}@[^@\s]{1,255}\.[^@\s]{2,}$`, from the start of a text. -/
def emailPattern : List (Item Nat) :=
  [.rep plainChar 1 (some 64), .rep (· == 64) 1 (some 1), .rep plainChar 1 (some 255),
    .rep (· == 46) 1 (some 1), .rep plainChar 2 none, .ahead atEnd]

/-- A text as the expression splits it. -/
structure EmailSplit (s : PyStr) where
  user : PyStr
  before : PyStr
  after : PyStr
  rest : PyStr
  text : s = user ++ 64 :: (before ++ 46 :: (after ++ rest))
  user_plain : ∀ c ∈ user, plainChar c = true
  before_plain : ∀ c ∈ before, plainChar c = true
  after_plain : ∀ c ∈ after, plainChar c = true
  user_length : 1 ≤ user.length ∧ user.length ≤ 64
  before_length : 1 ≤ before.length ∧ before.length ≤ 255
  after_length : 2 ≤ after.length
  rest_end : rest = [] ∨ rest = [10]

theorem accepts_iff {s : PyStr} : accepts emailPattern s = true ↔ Nonempty (EmailSplit s) := by
  unfold emailPattern accepts
  rw [takes_iff]
  constructor
  · rintro ⟨user, s1, rfl, huser, h⟩
    obtain ⟨at_, s2, rfl, hat, h⟩ := takes_one_iff.1 h
    obtain ⟨before, s3, rfl, hbefore, h⟩ := takes_iff.1 h
    obtain ⟨dot, s4, rfl, hdot, h⟩ := takes_one_iff.1 h
    obtain ⟨after, rest, rfl, hafter, hahead⟩ := takes_iff.1 h
    have hend : atEnd rest = true := by simpa [accepts] using hahead
    rw [beq_iff_eq] at hat hdot
    subst hat hdot
    exact ⟨{
      user, before, after, rest
      text := rfl
      user_plain := huser.all
      before_plain := hbefore.all
      after_plain := hafter.all
      user_length := ⟨huser.least, huser.most 64 rfl⟩
      before_length := ⟨hbefore.least, hbefore.most 255 rfl⟩
      after_length := hafter.least
      rest_end := by simpa [atEnd] using hend }⟩
  · rintro ⟨e⟩
    have huser : Taken plainChar 1 (some 64) e.user := by
      refine ⟨e.user_plain, e.user_length.1, ?_⟩
      rintro m ⟨⟩
      exact e.user_length.2
    have hbefore : Taken plainChar 1 (some 255) e.before := by
      refine ⟨e.before_plain, e.before_length.1, ?_⟩
      rintro m ⟨⟩
      exact e.before_length.2
    have hafter : Taken plainChar 2 none e.after := by
      refine ⟨e.after_plain, e.after_length, ?_⟩
      rintro m ⟨⟩
    have hend : accepts [.ahead atEnd] e.rest = true := by
      simpa [accepts, atEnd] using e.rest_end
    exact ⟨e.user, _, e.text, huser, takes_one_iff.2 ⟨64, _, rfl, rfl, takes_iff.2
      ⟨e.before, _, rfl, hbefore, takes_one_iff.2 ⟨46, _, rfl, rfl, takes_iff.2
        ⟨e.after, e.rest, rfl, hafter, hend⟩⟩⟩⟩⟩

/-! ## `matchesEmail` -/

theorem plainChar_iff {c : Nat} : plainChar c = true ↔ c ≠ 64 ∧ isSpace c = false := by
  simp [plainChar]

theorem matchesDomain_iff {s : PyStr} :
    matchesDomain s = true ↔
      ∃ before after, s = before ++ 46 :: after ∧ (∀ c ∈ before, plainChar c = true) ∧
        (∀ c ∈ after, plainChar c = true) ∧ (1 ≤ before.length ∧ before.length ≤ 255) ∧
        2 ≤ after.length := by
  unfold matchesDomain
  rw [Bool.and_eq_true, List.all_eq_true, List.any_eq_true]
  simp only [List.mem_range, Bool.and_eq_true, decide_eq_true_eq, beq_iff_eq]
  constructor
  · rintro ⟨hplain, i, hi, ⟨⟨hdot, hmin⟩, hmax⟩, hlength⟩
    obtain ⟨hi', hget⟩ := List.getElem?_eq_some_iff.1 hdot
    have hsplit : s = s.take i ++ 46 :: s.drop (i + 1) := by
      rw [← hget, ← List.drop_eq_getElem_cons, List.take_append_drop]
    refine ⟨s.take i, s.drop (i + 1), hsplit, fun c hc => hplain c (List.mem_of_mem_take hc),
      fun c hc => hplain c (List.mem_of_mem_drop hc), ?_, ?_⟩
    · rw [List.length_take]
      omega
    · rw [List.length_drop]
      omega
  · rintro ⟨before, after, rfl, hbefore, hafter, hlength, hafter_length⟩
    refine ⟨?_, before.length, ?_, ⟨⟨?_, hlength.1⟩, hlength.2⟩, ?_⟩
    · intro c hc
      rcases List.mem_append.1 hc with hc | hc
      · exact hbefore c hc
      · rcases List.mem_cons.1 hc with rfl | hc
        · rfl
        · exact hafter c hc
    · rw [List.length_append, List.length_cons]
      omega
    · simp
    · rw [List.length_append, List.length_cons]
      omega

/-- What stands before the first `@`, and behind it. -/
theorem span_at {p : Nat → Bool} {user rest : PyStr} (h : ∀ c ∈ user, p c = true)
    (hat : p 64 = false) :
    (user ++ 64 :: rest).takeWhile p = user ∧ (user ++ 64 :: rest).dropWhile p = 64 :: rest := by
  refine Metering.span_append h fun c hc => ?_
  cases hc
  exact hat

/-- A part before the `@`, and a domain, or a domain and a newline. -/
theorem matchesEmail_split {s : PyStr} :
    matchesEmail s = true ↔
      ∃ user domain, s = user ++ 64 :: domain ∧ (∀ c ∈ user, plainChar c = true) ∧
        (1 ≤ user.length ∧ user.length ≤ 64) ∧
        (matchesDomain domain = true ∨
          ∃ line, domain = line ++ [10] ∧ matchesDomain line = true) := by
  constructor
  · intro h
    unfold matchesEmail at h
    dsimp only at h
    split at h
    · rename_i domain hdrop
      simp only [Bool.and_eq_true, Bool.or_eq_true, decide_eq_true_eq, beq_iff_eq] at h
      obtain ⟨hlength, hdomain⟩ := h
      refine ⟨s.takeWhile plainChar, domain, ?_, List.all_eq_true.1 List.all_takeWhile, hlength, ?_⟩
      · rw [← hdrop, List.takeWhile_append_dropWhile]
      · rcases hdomain with hdomain | ⟨hlast, hline⟩
        · exact Or.inl hdomain
        · exact Or.inr ⟨domain.dropLast, (List.dropLast_append_getLast? 10 hlast).symm, hline⟩
    · cases h
  · rintro ⟨user, domain, rfl, huser, hlength, hdomain⟩
    unfold matchesEmail
    rw [(span_at huser rfl).1, (span_at huser rfl).2]
    simp only [Bool.and_eq_true, Bool.or_eq_true, decide_eq_true_eq, beq_iff_eq]
    refine ⟨hlength, ?_⟩
    rcases hdomain with hdomain | ⟨line, rfl, hline⟩
    · exact Or.inl hdomain
    · refine Or.inr ⟨List.getLast?_concat, ?_⟩
      rwa [List.dropLast_concat]

/-- `matchesEmail` answers what the expression does. -/
theorem matchesEmail_eq (s : PyStr) : matchesEmail s = accepts emailPattern s := by
  rw [Bool.eq_iff_iff, accepts_iff, matchesEmail_split]
  constructor
  · rintro ⟨user, domain, rfl, huser, hlength, hdomain⟩
    have hsplit : ∃ line rest, domain = line ++ rest ∧ (rest = [] ∨ rest = [10]) ∧
        matchesDomain line = true := by
      rcases hdomain with hdomain | ⟨line, rfl, hline⟩
      · exact ⟨domain, [], (List.append_nil _).symm, Or.inl rfl, hdomain⟩
      · exact ⟨line, [10], rfl, Or.inr rfl, hline⟩
    obtain ⟨line, rest, rfl, hend, hline⟩ := hsplit
    obtain ⟨before, after, rfl, hbefore, hafter, hblength, halength⟩ := matchesDomain_iff.1 hline
    exact ⟨{
      user, before, after, rest
      text := by simp
      user_plain := huser
      before_plain := hbefore
      after_plain := hafter
      user_length := hlength
      before_length := hblength
      after_length := halength
      rest_end := hend }⟩
  · rintro ⟨e⟩
    have hline : matchesDomain (e.before ++ 46 :: e.after) = true :=
      matchesDomain_iff.2 ⟨e.before, e.after, rfl, e.before_plain, e.after_plain,
        e.before_length, e.after_length⟩
    refine ⟨e.user, _, e.text, e.user_plain, e.user_length, ?_⟩
    rcases e.rest_end with hrest | hrest
    · rw [hrest, List.append_nil]
      exact Or.inl hline
    · exact Or.inr ⟨e.before ++ 46 :: e.after, by rw [hrest]; simp, hline⟩

/-! ## The grammar -/

/-- An address, in words: one `@`, no white space, 1 to 64 characters before the `@`, some dot
behind it with a character before it and two after it, and 254 characters at most. -/
structure IsAddress (t : PyStr) : Prop where
  at_once : t.count 64 = 1
  no_space : ∀ c ∈ t, isSpace c = false
  user : 1 ≤ (t.takeWhile (· != 64)).length ∧ (t.takeWhile (· != 64)).length ≤ 64
  dot : ∃ before after, (t.dropWhile (· != 64)).drop 1 = before ++ 46 :: after ∧
    1 ≤ before.length ∧ 2 ≤ after.length
  short : t.length ≤ 254

/-- A stripped text does not end in a newline. -/
theorem not_newline_of_strip {t : PyStr} (h : strip t = t) (line : PyStr) : t ≠ line ++ [10] := by
  rintro rfl
  have hdrop : ((line ++ [10]).dropWhile isSpace).rdropWhile isSpace = line ++ [10] := h
  have hne : ((line ++ [10]).dropWhile isSpace).rdropWhile isSpace ≠ [] := by
    rw [hdrop]
    exact List.append_ne_nil_of_right_ne_nil line (List.cons_ne_nil 10 [])
  have hlast := List.rdropWhile_last_not isSpace _ hne
  simp only [hdrop, List.getLast_concat] at hlast
  exact hlast rfl

/-- A text that is split at its `@` and a dot is an address. -/
theorem isAddress_of_parts {user before after : PyStr}
    (huser : ∀ c ∈ user, plainChar c = true) (hbefore : ∀ c ∈ before, plainChar c = true)
    (hafter : ∀ c ∈ after, plainChar c = true) (hlength : 1 ≤ user.length ∧ user.length ≤ 64)
    (hblength : 1 ≤ before.length) (halength : 2 ≤ after.length)
    (hshort : (user ++ 64 :: (before ++ 46 :: after)).length ≤ 254) :
    IsAddress (user ++ 64 :: (before ++ 46 :: after)) := by
  have hfree : ∀ l : PyStr, (∀ c ∈ l, plainChar c = true) → l.count 64 = 0 := fun l hl =>
    List.count_eq_zero.2 fun hc => (plainChar_iff.1 (hl 64 hc)).1 rfl
  have hne : ∀ c ∈ user, (c != 64) = true := fun c hc =>
    bne_iff_ne.2 (plainChar_iff.1 (huser c hc)).1
  have hspan := @span_at _ user (before ++ 46 :: after) hne rfl
  refine ⟨?_, ?_, ?_, ⟨before, after, ?_, hblength, halength⟩, hshort⟩
  · simp [List.count_append, hfree user huser, hfree before hbefore, hfree after hafter]
  · intro c hc
    simp only [List.mem_append, List.mem_cons] at hc
    rcases hc with hc | rfl | hc | rfl | hc
    · exact (plainChar_iff.1 (huser c hc)).2
    · rfl
    · exact (plainChar_iff.1 (hbefore c hc)).2
    · rfl
    · exact (plainChar_iff.1 (hafter c hc)).2
  · rw [hspan.1]
    exact hlength
  · rw [hspan.2]
    rfl

/-- An address is split at its `@`. -/
theorem IsAddress.split {t : PyStr} (h : IsAddress t) :
    ∃ user domain, t = user ++ 64 :: domain ∧ 64 ∉ user ∧ 64 ∉ domain := by
  have hmem : 64 ∈ t := List.count_pos_iff.1 (by rw [h.at_once]; exact Nat.one_pos)
  obtain ⟨user, domain, rfl, huser⟩ := List.eq_append_cons_of_mem hmem
  have honce := h.at_once
  rw [List.count_append, List.count_cons_self] at honce
  exact ⟨user, domain, rfl, huser, List.count_eq_zero.1 (by omega)⟩

theorem IsAddress.matches {t : PyStr} (h : IsAddress t) : matchesEmail t = true := by
  obtain ⟨user, domain, rfl, huser, hdomain⟩ := h.split
  have hspan := @span_at (· != 64) user domain
    (fun c hc => bne_iff_ne.2 fun heq => huser (heq ▸ hc)) rfl
  have hplain : ∀ c ∈ user ++ 64 :: domain, c ≠ 64 → plainChar c = true := fun c hc hne =>
    plainChar_iff.2 ⟨hne, h.no_space c hc⟩
  have hlength := h.user
  have hshort := h.short
  obtain ⟨before, after, hdot, hbefore, hafter⟩ := h.dot
  rw [hspan.1] at hlength
  rw [hspan.2] at hdot
  change domain = before ++ 46 :: after at hdot
  subst hdot
  have hmatches : matchesDomain (before ++ 46 :: after) = true := by
    refine matchesDomain_iff.2 ⟨before, after, rfl, ?_, ?_, ⟨hbefore, ?_⟩, hafter⟩
    · exact fun c hc => hplain c (by simp [hc]) fun heq => hdomain (heq ▸ by simp [hc])
    · exact fun c hc => hplain c (by simp [hc]) fun heq => hdomain (heq ▸ by simp [hc])
    · -- the greatest number of the expression is above the length
      simp only [List.length_append, List.length_cons] at hshort
      omega
  exact matchesEmail_split.2 ⟨user, _, rfl,
    fun c hc => hplain c (by simp [hc]) fun heq => huser (heq ▸ hc), hlength, Or.inl hmatches⟩

/-- What the expression and the length accept of stripped texts. -/
theorem matchesEmail_iff {t : PyStr} (h : strip t = t) :
    matchesEmail t = true ∧ t.length ≤ 254 ↔ IsAddress t := by
  constructor
  · rintro ⟨hmatches, hshort⟩
    obtain ⟨user, domain, rfl, huser, hlength, hdomain | ⟨line, rfl, -⟩⟩ :=
      matchesEmail_split.1 hmatches
    · obtain ⟨before, after, rfl, hbefore, hafter, hblength, halength⟩ :=
        matchesDomain_iff.1 hdomain
      exact isAddress_of_parts huser hbefore hafter hlength hblength.1 halength hshort
    · exact absurd (by simp) (not_newline_of_strip h (user ++ 64 :: line))
  · intro haddress
    exact ⟨haddress.matches, haddress.short⟩

theorem valid_email_eq_some {rt : Runtime} {value r : PyStr} :
    valid_email rt value = some r ↔ IsAddress (strip value) ∧ r = rt.lower (strip value) := by
  rw [← matchesEmail_iff (strip_strip value)]
  unfold valid_email
  dsimp only
  constructor
  · intro h
    split at h
    · rename_i hvalid
      rw [Bool.and_eq_true, decide_eq_true_eq] at hvalid
      exact ⟨hvalid, (Option.some.inj h).symm⟩
    · cases h
  · rintro ⟨hvalid, rfl⟩
    rw [if_pos (by rw [Bool.and_eq_true, decide_eq_true_eq]; exact hvalid)]

/-! ## ASCII -/

/-- `str.lower` of an ASCII text. -/
def LowersAscii (rt : Runtime) : Prop :=
  ∀ s, (∀ c ∈ s, c < 128) → rt.lower s = s.map asciiLower

theorem asciiLower_eq_iff {c d : Nat} (hd : d < 65) : asciiLower c = d ↔ c = d := by
  unfold asciiLower
  split_ifs <;> omega

theorem mem_of_mem_strip {s : PyStr} {c : Nat} (h : c ∈ strip s) : c ∈ s :=
  (List.dropWhile_suffix _).subset ((List.rdropWhile_prefix _ _).subset h)

/-- The grammar does not look at the case of letters. -/
theorem IsAddress.map_lower {t : PyStr} (h : IsAddress t) : IsAddress (t.map asciiLower) := by
  have hat : ((· != 64) : Nat → Bool) ∘ asciiLower = (· != 64) := by
    funext c
    rw [Function.comp_apply, Bool.eq_iff_iff, bne_iff_ne, bne_iff_ne, ne_eq, ne_eq,
      asciiLower_eq_iff (by decide)]
  obtain ⟨before, after, hdot, hbefore, hafter⟩ := h.dot
  refine ⟨?_, ?_, ?_, ⟨before.map asciiLower, after.map asciiLower, ?_, ?_, ?_⟩, ?_⟩
  · rw [← h.at_once, List.count_eq_countP, List.count_eq_countP, List.countP_map]
    apply List.countP_congr
    intro c _
    rw [Function.comp_apply, beq_iff_eq, beq_iff_eq, asciiLower_eq_iff (by decide)]
  · intro c hc
    obtain ⟨d, hd, rfl⟩ := List.mem_map.1 hc
    rw [isSpace_asciiLower]
    exact h.no_space d hd
  · rw [List.takeWhile_map, hat, List.length_map]
    exact h.user
  · rw [List.dropWhile_map, hat, ← List.map_drop, hdot, List.map_append, List.map_cons]
    rfl
  · rw [List.length_map]
    exact hbefore
  · rw [List.length_map]
    exact hafter
  · rw [List.length_map]
    exact h.short

/-- An ASCII text is accepted if and only if it is an address once it is stripped.  It is
returned stripped and in lower case.  In this form it is accepted again, and `sign_in`,
`issue_magic` and `consume_magic` use it as it is. -/
theorem valid_email_iff (rt : Runtime) (hlower : LowersAscii rt) (value : PyStr)
    (hascii : ∀ c ∈ value, c < 128) (r : PyStr) :
    (valid_email rt value = some r ↔
        IsAddress (strip value) ∧ r = (strip value).map asciiLower) ∧
      (valid_email rt value = some r →
        valid_email rt r = some r ∧ rt.normalized r = r ∧ rt.lower r = r ∧
          (∀ call : Users.SignInCall, call.email = r → call.address rt = r) ∧
          (∀ rows rows' now nonce, Auth.issue_magic rt rows now nonce r = .ok rows' →
            ∃ row ∈ rows', row.nonce = nonce ∧ row.email = r) ∧
          ∀ rows rows' now nonce, Auth.consume_magic rt rows now nonce r = .ok (some rows') →
            ∃ row ∈ rows, row.nonce = nonce ∧ row.email = r) := by
  have hstripped : rt.lower (strip value) = (strip value).map asciiLower :=
    hlower _ fun c hc => hascii c (mem_of_mem_strip hc)
  refine ⟨by rw [valid_email_eq_some, hstripped], fun h => ?_⟩
  rw [valid_email_eq_some, hstripped] at h
  obtain ⟨haddress, rfl⟩ := h
  have hstrip : strip ((strip value).map asciiLower) = (strip value).map asciiLower := by
    rw [strip_map isSpace_asciiLower, strip_strip]
  have hlow : rt.lower ((strip value).map asciiLower) = (strip value).map asciiLower := by
    rw [← hstripped, rt.lower_lower]
  have hnormal : rt.normalized ((strip value).map asciiLower) = (strip value).map asciiLower := by
    rw [Runtime.normalized, hstrip, hlow]
  refine ⟨valid_email_eq_some.2 ⟨?_, ?_⟩, hnormal, hlow, ?_, ?_, ?_⟩
  · rw [hstrip]
    exact haddress.map_lower
  · rw [hstrip, hlow]
  · intro call hcall
    rw [Users.SignInCall.address, hcall, hnormal]
  · intro rows rows' now nonce hissue
    obtain ⟨-, -, hrows⟩ := Auth.issue_magic_eq_ok hissue
    exact ⟨_, (hrows _).2 ⟨Or.inr rfl, sub_le_self now (by norm_num)⟩, rfl, hlow⟩
  · intro rows rows' now nonce hconsume
    obtain ⟨⟨row, hrow, hnonce, hemail, -⟩, -⟩ := Auth.consume_magic_eq_some hconsume
    exact ⟨row, hrow, hnonce, hemail.trans hlow⟩

theorem valid_email_iff_ada :
    valid_email plainRuntime (py " Ada.L@X.co.uk ") = some (py "ada.l@x.co.uk") ∧
      plainRuntime.normalized (py "ada.l@x.co.uk") = py "ada.l@x.co.uk" := by
  have hiff := valid_email_iff plainRuntime (fun _ _ => rfl) (py " Ada.L@X.co.uk ")
    (by decide) (py "ada.l@x.co.uk")
  have hvalid : valid_email plainRuntime (py " Ada.L@X.co.uk ") = some (py "ada.l@x.co.uk") := by
    decide +kernel
  exact ⟨hvalid, (hiff.2 hvalid).2.1⟩

end OpendssGateway
