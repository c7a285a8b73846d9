import OpendssGateway.Gateway.SessionSteps

/-!
# Magic links over runs

A magic link is a token and a row.  The token says which address and nonce
it is for and expires by its time of signing.  The row says whether it was
used, and the clean-up deletes it after a day.

`Links` ties the two and the clock together: a link that was issued has
expired, or it has its row, unused exactly when no request consumed its
nonce.  `link_signs_in_iff` is the result for every run of the site whose
nonces are fresh.
-/

namespace OpendssGateway

namespace Auth

/-- The token of a magic link. -/
def linkToken (address nonce : PyStr) (timestamp : Int) : Token where
  salt := .magic
  payload := .magic address nonce
  timestamp := timestamp

/-- A request has consumed the nonce. -/
def Spent (s : Site) (nonce : PyStr) : Prop :=
  nonce ∈ s.consumed.map Prod.fst

/-- The link was issued for the address and the nonce, has not expired, and is not used. -/
def Usable (s : Site) (token : Text) : Prop :=
  ∃ address nonce timestamp, token = .token (linkToken address nonce timestamp) ∧
    linkToken address nonce timestamp ∈ s.issued ∧ s.clock - timestamp ≤ MAGIC_MAX_AGE ∧
    ¬ Spent s nonce

/-- No link was issued with the nonce. -/
def FreshNonce (s : Site) (nonce : PyStr) : Prop :=
  ∀ address timestamp, linkToken address nonce timestamp ∉ s.issued

/-- Links are made with fresh nonces. -/
def Fresh (s : Site) (a : SiteAction) : Prop :=
  a.makes (FreshNonce s)

/-! ## The statements -/

section Statements

variable {rt : Runtime} {rows rows' : Table MagicToken.nonce} {now : ℚ} {nonce email : PyStr}

/-- The rows after a request: the new one, and those of the last day. -/
theorem issue_magic_eq_ok (h : issue_magic rt rows now nonce email = .ok rows') :
    (∃ v, bindText nonce = .ok v) ∧ (∃ v, bindText (rt.lower email) = .ok v) ∧
      ∀ row, row ∈ rows' ↔
        (row ∈ rows ∨ row = { nonce, email := rt.lower email, created := now, used := none }) ∧
          now - 86400 ≤ row.created := by
  unfold issue_magic at h
  obtain ⟨v, hnonce, h⟩ := bind_eq_ok.1 h
  obtain ⟨w, hemail, h⟩ := bind_eq_ok.1 h
  split_ifs at h with hnew
  · cases h
    refine ⟨⟨v, hnonce⟩, ⟨w, hemail⟩, fun row => ?_⟩
    simp only [Table.mem_filter, Table.mem_insert, Bool.not_eq_true', decide_eq_false_iff_not,
      not_lt]

/-- A nonce is consumed with its unused row. -/
theorem consume_magic_eq_some (h : consume_magic rt rows now nonce email = .ok (some rows')) :
    (∃ row ∈ rows, row.nonce = nonce ∧ row.email = rt.lower email ∧ row.used = none) ∧
      ∀ row, row ∈ rows' ↔ row ∈ rows ∧ row.nonce ≠ nonce ∨
        ∃ old ∈ rows, old.nonce = nonce ∧ row = { old with used := some now } := by
  unfold consume_magic at h
  obtain ⟨_, -, h⟩ := bind_eq_ok.1 h
  obtain ⟨_, -, h⟩ := bind_eq_ok.1 h
  split at h
  · rename_i row hfind
    obtain ⟨hrow, hnonce⟩ := Table.find?_eq_some hfind
    split_ifs at h with hvalid
    · cases h
      refine ⟨⟨row, hrow, hnonce, hvalid⟩, fun other => ?_⟩
      simp only [Table.mem_modify]
    · cases h
  · cases h

theorem consume_magic_of_row {v w : SqlValue} {row : MagicToken} (hnonce : bindText nonce = .ok v)
    (hemail : bindText (rt.lower email) = .ok w) (hrow : row ∈ rows)
    (hrow_nonce : row.nonce = nonce) :
    consume_magic rt rows now nonce email =
      if row.email = rt.lower email ∧ row.used = none then
        .ok (some (rows.modify nonce (fun row => { row with used := some now }) fun _ h => h))
      else .ok none := by
  unfold consume_magic
  rw [hnonce, hemail, Table.find?_eq_some_iff.2 ⟨hrow, hrow_nonce⟩]
  rfl

end Statements

/-! ## The invariant -/

/-- The row of a link, unused as long as the nonce was not consumed. -/
def HasRow (s : Site) (address nonce : PyStr) (timestamp : Int) : Prop :=
  ∃ row ∈ s.magic_tokens, row.nonce = nonce ∧ row.email = address ∧ ⌊row.created⌋ = timestamp ∧
    (row.used = none ↔ ¬ Spent s nonce)

structure Links (rt : Runtime) (s : Site) : Prop where
  registered : Registered rt s.store
  /-- What is signed for a link is a link. -/
  payloads : ∀ token ∈ s.issued, token.salt = .magic →
    ∃ address nonce timestamp, token = linkToken address nonce timestamp
  /-- SQLite takes the texts of a link, and its address is in normal form. -/
  texts : ∀ address nonce timestamp, linkToken address nonce timestamp ∈ s.issued →
    rt.normalized address = address ∧ (∃ v, bindText nonce = .ok v) ∧
      ∃ v, bindText address = .ok v
  /-- A link has expired, or it has its row. -/
  rows : ∀ address nonce timestamp, linkToken address nonce timestamp ∈ s.issued →
    MAGIC_MAX_AGE < s.clock - timestamp ∨ HasRow s address nonce timestamp
  consumed : ∀ entry ∈ s.consumed,
    ∃ timestamp, linkToken entry.2 entry.1 timestamp ∈ s.issued
  once : (s.consumed.map Prod.fst).Nodup
  entered : (s.entered.map Prod.fst).Sublist (s.consumed.map Prod.fst)
  owners : ∀ entry ∈ s.entered, (entry.1, entry.2.email) ∈ s.consumed

/-- A step that leaves the links alone, apart from the time. -/
structure Beside (s s' : Site) : Prop where
  issued : ∀ token : Token, token.salt = .magic → (token ∈ s'.issued ↔ token ∈ s.issued)
  clock : s.clock ≤ s'.clock
  magic_tokens : s'.magic_tokens = s.magic_tokens
  consumed : s'.consumed = s.consumed
  entered : s'.entered = s.entered

namespace Beside

variable {s s' s'' : Site}

theorem refl (s : Site) : Beside s s :=
  ⟨fun _ _ => Iff.rfl, le_refl _, rfl, rfl, rfl⟩

theorem trans (h : Beside s s') (h' : Beside s' s'') : Beside s s'' where
  issued token hsalt := (h'.issued token hsalt).trans (h.issued token hsalt)
  clock := h.clock.trans h'.clock
  magic_tokens := h'.magic_tokens.trans h.magic_tokens
  consumed := h'.consumed.trans h.consumed
  entered := h'.entered.trans h.entered

/-- A token of another kind is issued. -/
theorem dumps (s : Site) (payload : Payload) {salt : Salt} (hsalt : salt ≠ .magic) :
    Beside s (s.dumps payload salt) := by
  refine ⟨fun token htoken => ?_, le_refl _, rfl, rfl, rfl⟩
  show token ∈ s.issued ++ [_] ↔ _
  rw [List.mem_append, List.mem_singleton]
  refine ⟨fun hmem => hmem.resolve_right ?_, Or.inl⟩
  rintro rfl
  exact hsalt htoken

theorem set_session (s : Site) (user_id epoch : Int) (cause : Cause) :
    Beside s (s.set_session user_id epoch cause) := by
  have hdumps := dumps s (.session user_id epoch) (show Salt.session ≠ .magic by simp)
  exact ⟨hdumps.issued, hdumps.clock, rfl, rfl, rfl⟩

theorem finish (s : Site) (cookie : Option Text) (caller : Caller) :
    Beside s (s.finish cookie caller) := by
  unfold Site.finish
  split
  · split
    · exact set_session ..
    · exact refl s
  · exact refl s

theorem sign_in {rt : Runtime} {provider subject email : PyStr} {name : Option PyStr}
    {cause : Cause} {reply : Reply}
    (h : s.sign_in rt provider subject email name cause = some (s', reply)) : Beside s s' := by
  rcases site_sign_in_cases h with ⟨rfl, -⟩ | ⟨user, -, rfl, -⟩
  · exact ⟨fun _ _ => Iff.rfl, le_refl _, rfl, rfl, rfl⟩
  · have hsession := set_session { s with
      store := (Users.sign_in rt s.store s.now provider subject email name).1 } user.id
      user.session_epoch cause
    exact ⟨hsession.issued, hsession.clock, rfl, rfl, rfl⟩

end Beside

section Invariant

variable {rt : Runtime} {s s' : Site}

theorem links_init (rt : Runtime) : Links rt (Site.init Store.empty) where
  registered := registered_empty rt
  payloads _ h := absurd h List.not_mem_nil
  texts _ _ _ h := absurd h List.not_mem_nil
  rows _ _ _ h := absurd h List.not_mem_nil
  consumed _ h := absurd h List.not_mem_nil
  once := List.nodup_nil
  entered := List.Sublist.refl _
  owners _ h := absurd h List.not_mem_nil

/-- A step beside the links keeps them. -/
theorem Links.beside (h : Links rt s) (hb : Beside s s') (hregistered : Registered rt s'.store) :
    Links rt s' := by
  have hissued : ∀ address nonce timestamp, linkToken address nonce timestamp ∈ s'.issued →
      linkToken address nonce timestamp ∈ s.issued :=
    fun address nonce timestamp => (hb.issued _ rfl).1
  constructor
  · exact hregistered
  · exact fun token htoken hsalt => h.payloads token ((hb.issued token hsalt).1 htoken) hsalt
  · exact fun address nonce timestamp hlink => h.texts _ _ _ (hissued _ _ _ hlink)
  · intro address nonce timestamp hlink
    have hclock := hb.clock
    rcases h.rows _ _ _ (hissued _ _ _ hlink) with hexpired | hrow
    · exact Or.inl (by omega)
    · right
      unfold HasRow Spent at hrow ⊢
      rw [hb.magic_tokens, hb.consumed]
      exact hrow
  · rw [hb.consumed]
    intro entry hentry
    obtain ⟨timestamp, hlink⟩ := h.consumed entry hentry
    exact ⟨timestamp, (hb.issued _ rfl).2 hlink⟩
  · rw [hb.consumed]
    exact h.once
  · rw [hb.consumed, hb.entered]
    exact h.entered
  · rw [hb.consumed, hb.entered]
    exact h.owners

/-- A link loads exactly until it expires. -/
theorem Links.read_magic_eq_ok (h : Links rt s) {token : Text} {address nonce : PyStr} :
    s.read_magic rt token = .ok (address, nonce) ↔
      ∃ timestamp, token = .token (linkToken address nonce timestamp) ∧
        linkToken address nonce timestamp ∈ s.issued ∧ s.clock - timestamp ≤ MAGIC_MAX_AGE := by
  constructor
  · intro hread
    obtain ⟨⟨payload, timestamp⟩, hloads, hpair⟩ := bind_eq_ok.1 hread
    obtain ⟨rfl, hissued, hage⟩ := site_loads_eq_ok.1 hloads
    obtain ⟨address', nonce', timestamp', htoken⟩ := h.payloads _ hissued rfl
    cases htoken
    cases hpair
    exact ⟨timestamp, rfl, hissued, hage⟩
  · rintro ⟨timestamp, rfl, hissued, hage⟩
    have hloads : s.loads (.token (linkToken address nonce timestamp)) .magic MAGIC_MAX_AGE =
        .ok (.magic address nonce, timestamp) :=
      site_loads_eq_ok.2 ⟨rfl, hissued, hage⟩
    unfold Site.read_magic
    rw [hloads]
    rfl

theorem Links.normal (h : Links rt s) : LinksNormal rt s := by
  intro token address nonce hread
  obtain ⟨timestamp, -, hissued, -⟩ := h.read_magic_eq_ok.1 hread
  exact (h.texts _ _ _ hissued).1

/-- The case of an address is settled when it is normal. -/
theorem lower_eq {address : PyStr} (h : rt.normalized address = address) :
    rt.lower address = address := by
  rw [← h]
  unfold Runtime.normalized
  exact rt.lower_lower _

/-! ## Steps -/

/-- What the clean-up deletes has expired. -/
theorem expired_of_old {created now : ℚ} (h : created < now - 86400) :
    MAGIC_MAX_AGE < ⌊now⌋ - ⌊created⌋ := by
  have hfloor : ⌊created⌋ + 86400 ≤ ⌊now⌋ := by
    have hle : created + 86400 ≤ now := by linarith
    have hmono := Int.floor_le_floor hle
    rwa [show created + 86400 = created + ((86400 : ℤ) : ℚ) by norm_num, Int.floor_add_intCast]
      at hmono
  unfold MAGIC_MAX_AGE
  omega

/-- A link is issued, and the table cleaned up. -/
theorem Links.linked (h : Links rt s) {address nonce : PyStr} {rows : Table MagicToken.nonce}
    (hnew : FreshNonce s nonce) (hnormal : rt.normalized address = address)
    (hissue : issue_magic rt s.magic_tokens s.now nonce address = .ok rows) :
    Links rt ({ s with magic_tokens := rows }.dumps (.magic address nonce) .magic) := by
  obtain ⟨hnonce, haddress, hrows⟩ := issue_magic_eq_ok hissue
  rw [lower_eq hnormal] at haddress hrows
  have hissued : ∀ token : Token,
      token ∈ ({ s with magic_tokens := rows }.dumps (.magic address nonce) .magic).issued ↔
        token ∈ s.issued ∨ token = linkToken address nonce s.clock := by
    intro token
    show token ∈ s.issued ++ [_] ↔ _
    rw [List.mem_append, List.mem_singleton]
    rfl
  constructor
  · exact h.registered
  · intro token htoken hsalt
    rcases (hissued token).1 htoken with hold | rfl
    · exact h.payloads token hold hsalt
    · exact ⟨address, nonce, s.clock, rfl⟩
  · intro address' nonce' timestamp hlink
    rcases (hissued _).1 hlink with hold | hsame
    · exact h.texts _ _ _ hold
    · cases hsame
      exact ⟨hnormal, hnonce, haddress⟩
  · intro address' nonce' timestamp hlink
    rcases (hissued _).1 hlink with hold | hsame
    · rcases h.rows _ _ _ hold with hexpired | ⟨row, hrow, hrow_nonce, hrow_email, hcreated, hused⟩
      · exact Or.inl hexpired
      · by_cases hrecent : s.now - 86400 ≤ row.created
        · exact Or.inr ⟨row, (hrows row).2 ⟨Or.inl hrow, hrecent⟩, hrow_nonce, hrow_email,
            hcreated, hused⟩
        · left
          rw [← hcreated]
          exact expired_of_old (lt_of_not_ge hrecent)
    · -- the new row is of now, and its nonce was not consumed
      cases hsame
      right
      refine ⟨_, (hrows _).2 ⟨Or.inr rfl, by dsimp only; linarith⟩, rfl, rfl, rfl, ?_⟩
      refine ⟨fun _ hspent => ?_, fun _ => rfl⟩
      obtain ⟨⟨consumed, of⟩, hentry, rfl⟩ := List.mem_map.1 hspent
      obtain ⟨timestamp, hlink⟩ := h.consumed _ hentry
      exact hnew _ _ hlink
  · intro entry hentry
    obtain ⟨timestamp, hlink⟩ := h.consumed entry hentry
    exact ⟨timestamp, (hissued _).2 (Or.inl hlink)⟩
  · exact h.once
  · exact h.entered
  · exact h.owners

/-- A nonce is consumed with the row of its link. -/
theorem Links.consume (h : Links rt s) {token : Text} {address nonce : PyStr}
    {rows : Table MagicToken.nonce} (hread : s.read_magic rt token = .ok (address, nonce))
    (hconsume : consume_magic rt s.magic_tokens s.now nonce address = .ok (some rows)) :
    ¬ Spent s nonce ∧ Links rt { s with
      magic_tokens := rows
      consumed := s.consumed ++ [(nonce, address)] } := by
  obtain ⟨timestamp, -, hlink, hage⟩ := h.read_magic_eq_ok.1 hread
  obtain ⟨hunused, hrows⟩ := consume_magic_eq_some hconsume
  obtain ⟨unused, hunused_mem, hunused_nonce, -, hunused_used⟩ := hunused
  have hspent : ∀ other, Spent { s with
        magic_tokens := rows
        consumed := s.consumed ++ [(nonce, address)] } other ↔ Spent s other ∨ other = nonce := by
    intro other
    unfold Spent
    rw [List.map_append, List.mem_append, List.map_singleton, List.mem_singleton]
  have hfree : ¬ Spent s nonce := by
    rcases h.rows _ _ _ hlink with hexpired | ⟨row, hrow, hrow_nonce, -, -, hused⟩
    · omega
    · rw [Table.eq_of_key hrow hunused_mem (hrow_nonce.trans hunused_nonce.symm)] at hused
      exact hused.1 hunused_used
  refine ⟨hfree, ?_⟩
  constructor
  · exact h.registered
  · exact h.payloads
  · exact h.texts
  · intro address' nonce' timestamp' hlink'
    rcases h.rows _ _ _ hlink' with hexpired | ⟨row, hrow, hrow_nonce, hrow_email, hcreated, hused⟩
    · exact Or.inl hexpired
    · right
      by_cases hsame : nonce' = nonce
      · subst hsame
        refine ⟨_, (hrows _).2 (Or.inr ⟨row, hrow, hrow_nonce, rfl⟩), hrow_nonce, hrow_email,
          hcreated, ?_⟩
        rw [hspent]
        simp
      · refine ⟨row, (hrows row).2 (Or.inl ⟨hrow, by rw [hrow_nonce]; exact hsame⟩), hrow_nonce,
          hrow_email, hcreated, ?_⟩
        rw [hspent, hused]
        simp [hsame]
  · intro entry hentry
    rcases List.mem_append.1 hentry with hold | hnew
    · exact h.consumed entry hold
    · rw [List.mem_singleton.1 hnew]
      exact ⟨timestamp, hlink⟩
  · rw [List.map_append, List.map_singleton, ← List.concat_eq_append]
    exact h.once.concat hfree
  · show List.Sublist _ ((s.consumed ++ [_]).map Prod.fst)
    rw [List.map_append]
    exact h.entered.trans (List.sublist_append_left _ _)
  · exact fun entry hentry => List.mem_append_left _ (h.owners entry hentry)

/-- A magic link signs in the user with its address. -/
theorem signed_in_email {db : Store} {now : ℚ} {address : PyStr} {user : User}
    (h : Registered rt db) (hnormal : rt.normalized address = address)
    (hresult : (Users.sign_in rt db now (py "email") address address none).2 = .ok (some user)) :
    user.email = address := by
  obtain ⟨-, hregistered, hreturns⟩ := @sign_in_registered rt db now (py "email") address address
    none h fun _ => hnormal
  obtain ⟨-, identity, hidentity, hkey, -, hemail⟩ := hreturns user hresult
  obtain ⟨hprovider, hsubject⟩ := Prod.mk.inj hkey
  rw [← hemail, hregistered.links identity hidentity hprovider]
  exact hsubject

theorem noteEntry_eq (nonce : PyStr) {reply : Reply} (h : ∀ user, reply ≠ .signedIn user) :
    Site.noteEntry nonce (s, reply) = (s, reply) := by
  cases reply with
  | signedIn user => exact absurd rfl (h user)
  | refused | page | redirect | waits | raised => rfl

/-- The sign-in of a link, after its nonce is consumed. -/
theorem Links.verified (h : Links rt s) {token : Text} {address nonce : PyStr}
    {rows : Table MagicToken.nonce} {reply : Reply}
    (hread : s.read_magic rt token = .ok (address, nonce))
    (hconsume : consume_magic rt s.magic_tokens s.now nonce address = .ok (some rows))
    (hsign : { s with
        magic_tokens := rows
        consumed := s.consumed ++ [(nonce, address)] }.sign_in rt (py "email") address address
      none (.magic nonce address) = some (s', reply)) :
    Links rt (Site.noteEntry nonce (s', reply)).1 := by
  have hnormal := h.normal _ _ _ hread
  obtain ⟨-, hlinks⟩ := h.consume hread hconsume
  have hsession := hlinks.beside (Beside.sign_in hsign)
    (registered_sign_in hsign h.registered fun _ => hnormal)
  rcases site_sign_in_cases hsign with ⟨rfl, hreply⟩ | ⟨user, hresult, rfl, rfl⟩
  · rw [noteEntry_eq nonce hreply]
    exact hsession
  · refine { hsession with entered := ?_, owners := ?_ }
    · show List.Sublist ((s.entered ++ [(nonce, user)]).map Prod.fst)
        ((s.consumed ++ [(nonce, address)]).map Prod.fst)
      rw [List.map_append, List.map_append]
      exact h.entered.append (List.Sublist.refl _)
    · intro entry hentry
      show (entry.1, entry.2.email) ∈ s.consumed ++ [(nonce, address)]
      rcases List.mem_append.1 hentry with hold | hnew
      · exact List.mem_append_left _ (h.owners entry hold)
      · rw [List.mem_singleton.1 hnew]
        apply List.mem_append_right
        rw [signed_in_email h.registered hnormal hresult]
        exact List.mem_singleton_self _

theorem links_effect (h : Links rt s) (he : Effect rt (FreshNonce s) s s') : Links rt s' := by
  have hregistered := registered_effect h.registered h.normal he
  cases he with
  | nothing => exact h
  | waited hseconds =>
    refine h.beside ⟨fun _ _ => Iff.rfl, ?_, rfl, rfl, rfl⟩ hregistered
    exact Int.floor_le_floor (by dsimp only; linarith)
  | linked hnew hnormal hissue => exact h.linked hnew hnormal hissue
  | dumped hsession hmagic => exact h.beside (Beside.dumps s _ hmagic) hregistered
  | verified hread hconsume hsign => exact h.verified hread hconsume hsign
  | launched | bumped | proxied | landed | disabled =>
    exact h.beside ⟨fun _ _ => Iff.rfl, le_refl _, rfl, rfl, rfl⟩ hregistered
  | exchanged hi hsign =>
    have hsign := Beside.sign_in hsign
    exact h.beside ⟨hsign.issued, hsign.clock, hsign.magic_tokens, hsign.consumed, hsign.entered⟩
      hregistered
  | used => exact h.beside (Beside.finish ..) hregistered
  | usedForm =>
    exact h.beside ((Beside.dumps s _ (by simp)).trans (Beside.finish ..)) hregistered
  | @responded i =>
    have hlanded : Beside s (s.landed i) := ⟨fun _ _ => Iff.rfl, le_refl _, rfl, rfl, rfl⟩
    exact h.beside (hlanded.trans (Beside.finish ..)) hregistered

theorem reachable_links {cfg : AuthConfig} (h : (Site.machine rt cfg).ReachableBy Fresh s) :
    Links rt s :=
  h.invariant (Links rt) (links_init rt) fun _ _ _ ht hfresh hnext =>
    links_effect ht (next_effect hfresh hnext)

/-! ## What a link does -/

/-- A POST with the token signs a user in. -/
def SignsIn (rt : Runtime) (s : Site) (token : Text) : Prop :=
  ∃ s' user, s.magic_verify rt token = some (s', .signedIn user)

/-- The row of a link that has not expired decides whether its nonce is consumed. -/
theorem Links.consume_cases (h : Links rt s) {address nonce : PyStr} {timestamp : Int}
    (hlink : linkToken address nonce timestamp ∈ s.issued)
    (hage : s.clock - timestamp ≤ MAGIC_MAX_AGE) :
    (¬ Spent s nonce ∧
        ∃ rows, consume_magic rt s.magic_tokens s.now nonce address = .ok (some rows)) ∨
      Spent s nonce ∧ consume_magic rt s.magic_tokens s.now nonce address = .ok none := by
  obtain ⟨hnormal, ⟨v, hnonce⟩, w, haddress⟩ := h.texts _ _ _ hlink
  obtain hexpired | ⟨row, hrow, hrow_nonce, hrow_email, -, hused⟩ := h.rows _ _ _ hlink
  · omega
  · rw [← lower_eq hnormal] at haddress hrow_email
    have hconsume := @consume_magic_of_row rt s.magic_tokens s.now nonce address v w row hnonce
      haddress hrow hrow_nonce
    by_cases hspent : Spent s nonce
    · rw [if_neg fun hvalid => hused.1 hvalid.2 hspent] at hconsume
      exact Or.inr ⟨hspent, hconsume⟩
    · rw [if_pos ⟨hrow_email, hused.2 hspent⟩] at hconsume
      exact Or.inl ⟨hspent, _, hconsume⟩

/-- With a usable link, `magic_verify` goes on to the sign-in. -/
theorem Links.verify_unused (h : Links rt s) {address nonce : PyStr} {timestamp : Int}
    (hlink : linkToken address nonce timestamp ∈ s.issued)
    (hage : s.clock - timestamp ≤ MAGIC_MAX_AGE) (hfree : ¬ Spent s nonce) :
    ∃ t : Site, t.store = s.store ∧ t.now = s.now ∧
      t.consumed = s.consumed ++ [(nonce, address)] ∧
      s.magic_verify rt (.token (linkToken address nonce timestamp)) =
        (t.sign_in rt (py "email") address address none (.magic nonce address)).map
          (Site.noteEntry nonce) := by
  have hread : s.read_magic rt (.token (linkToken address nonce timestamp)) =
      .ok (address, nonce) :=
    h.read_magic_eq_ok.2 ⟨timestamp, rfl, hlink, hage⟩
  rcases h.consume_cases hlink hage with ⟨-, rows, hconsume⟩ | ⟨hspent, -⟩
  · refine ⟨{ s with
      magic_tokens := rows
      consumed := s.consumed ++ [(nonce, address)] }, rfl, rfl, rfl, ?_⟩
    unfold Site.magic_verify
    rw [hread]
    dsimp only
    rw [hconsume]
  · exact absurd hspent hfree

/-- A link that is not usable is refused, and nothing changes. -/
theorem Links.verify_unusable (h : Links rt s) {token : Text} (hunusable : ¬ Usable s token) :
    ∃ message, s.magic_verify rt token = some (s, .refused 400 message) := by
  unfold Site.magic_verify
  cases hread : s.read_magic rt token with
  | error message => exact ⟨message, rfl⟩
  | ok link =>
    obtain ⟨address, nonce⟩ := link
    obtain ⟨timestamp, rfl, hlink, hage⟩ := h.read_magic_eq_ok.1 hread
    rcases h.consume_cases hlink hage with ⟨hfree, -⟩ | ⟨-, hconsume⟩
    · exact absurd ⟨address, nonce, timestamp, rfl, hlink, hage, hfree⟩ hunusable
    · dsimp only
      rw [hconsume]
      exact ⟨_, rfl⟩

/-- Exactly the links that are usable sign in, as long as SQLite can hold the id. -/
theorem Links.signsIn_iff (h : Links rt s) {token : Text} :
    SignsIn rt s token ↔ ∃ address nonce timestamp user,
      token = .token (linkToken address nonce timestamp) ∧
      linkToken address nonce timestamp ∈ s.issued ∧ s.clock - timestamp ≤ MAGIC_MAX_AGE ∧
      ¬ Spent s nonce ∧
      (Users.sign_in rt s.store s.now (py "email") address address none).2 = .ok (some user) := by
  constructor
  · rintro ⟨s', user, hverify⟩
    by_cases husable : Usable s token
    · obtain ⟨address, nonce, timestamp, rfl, hlink, hage, hfree⟩ := husable
      obtain ⟨t, hstore, hnow, -, heq⟩ := h.verify_unused hlink hage hfree
      rw [heq] at hverify
      obtain ⟨⟨t', reply⟩, hsign, hnote⟩ := Option.map_eq_some_iff.1 hverify
      rcases site_sign_in_cases hsign with ⟨-, hreply⟩ | ⟨user', hresult, -, -⟩
      · rw [noteEntry_eq nonce hreply] at hnote
        exact absurd (Prod.mk.inj hnote).2 (hreply user)
      · rw [hstore, hnow] at hresult
        exact ⟨address, nonce, timestamp, user', rfl, hlink, hage, hfree, hresult⟩
    · obtain ⟨message, hrefused⟩ := h.verify_unusable husable
      rw [hrefused] at hverify
      cases hverify
  · rintro ⟨address, nonce, timestamp, user, rfl, hlink, hage, hfree, hresult⟩
    obtain ⟨t, hstore, hnow, -, heq⟩ := h.verify_unused hlink hage hfree
    rw [← hstore, ← hnow] at hresult
    obtain ⟨t', hsign⟩ := site_sign_in_of_ok (.magic nonce address) hresult
    refine ⟨{ t' with entered := t'.entered ++ [(nonce, user)] }, user, ?_⟩
    rw [heq, hsign]
    rfl

/-- A POST of the verify route signs in with a usable link and consumes its nonce, or it
refuses and changes nothing. -/
theorem Links.verify_cases (h : Links rt s) {token : Text} {reply : Reply}
    (hpost : s.magic_verify rt token = some (s', reply)) :
    (∃ nonce timestamp user, token = .token (linkToken user.email nonce timestamp) ∧
        linkToken user.email nonce timestamp ∈ s.issued ∧
        s.clock - timestamp ≤ MAGIC_MAX_AGE ∧ ¬ Spent s nonce ∧ reply = .signedIn user ∧
        s'.consumed = s.consumed ++ [(nonce, user.email)]) ∨
      ¬ Usable s token ∧ s' = s ∧ ∃ message, reply = .refused 400 message := by
  by_cases husable : Usable s token
  · left
    obtain ⟨address, nonce, timestamp, rfl, hlink, hage, hfree⟩ := husable
    obtain ⟨hnormal, -, w, haddress⟩ := h.texts _ _ _ hlink
    obtain ⟨t, hstore, hnow, hconsumed, heq⟩ := h.verify_unused hlink hage hfree
    rw [heq] at hpost
    have hregistered : Registered rt t.store := by
      rw [hstore]
      exact h.registered
    rcases @sign_in_returns rt t.store t.now address hregistered w haddress hnormal with
      hoverflow | ⟨user, hresult⟩
    · rw [site_sign_in_of_overflow _ hoverflow] at hpost
      cases hpost
    · have hemail := signed_in_email hregistered hnormal hresult
      subst hemail
      obtain ⟨t', hsign⟩ := site_sign_in_of_ok (.magic nonce user.email) hresult
      rw [hsign] at hpost
      cases hpost
      exact ⟨nonce, timestamp, user, rfl, hlink, hage, hfree, rfl,
        (Beside.sign_in hsign).consumed.trans hconsumed⟩
  · right
    obtain ⟨message, hrefused⟩ := h.verify_unusable husable
    obtain ⟨rfl, rfl⟩ := Prod.mk.inj (Option.some.inj (hpost.symm.trans hrefused))
    exact ⟨husable, rfl, message, rfl⟩

/-- What a request for a link leaves as it was. -/
theorem magic_request_keeps (cfg : AuthConfig) (s : Site) (email nonce : PyStr)
    (admitted sent : Bool) :
    (s.magic_request rt cfg email nonce admitted sent).1.store = s.store ∧
      (s.magic_request rt cfg email nonce admitted sent).1.now = s.now ∧
      (s.magic_request rt cfg email nonce admitted sent).1.consumed = s.consumed ∧
      s.issued ⊆ (s.magic_request rt cfg email nonce admitted sent).1.issued := by
  unfold Site.magic_request
  split
  · split
    · exact ⟨rfl, rfl, rfl, List.Subset.refl _⟩
    · split
      · split
        · exact ⟨rfl, rfl, rfl, List.Subset.refl _⟩
        · exact ⟨rfl, rfl, rfl, List.subset_append_left _ _⟩
      · exact ⟨rfl, rfl, rfl, List.Subset.refl _⟩
  · exact ⟨rfl, rfl, rfl, List.Subset.refl _⟩

/-- A request for another link, with its clean-up, changes nothing for the links there are. -/
theorem Links.signsIn_request {cfg : AuthConfig} (h : Links rt s) {email nonce : PyStr}
    (hnew : FreshNonce s nonce) (admitted sent : Bool) {token : Token} (htoken : token ∈ s.issued) :
    SignsIn rt (s.magic_request rt cfg email nonce admitted sent).1 (.token token) ↔
      SignsIn rt s (.token token) := by
  have hnext : Links rt (s.magic_request rt cfg email nonce admitted sent).1 :=
    links_effect h (magic_request_effect email hnew admitted sent)
  obtain ⟨hstore, hnow, hconsumed, hissued⟩ :=
    @magic_request_keeps rt cfg s email nonce admitted sent
  rw [hnext.signsIn_iff, h.signsIn_iff]
  unfold Spent Site.clock
  rw [hstore, hnow, hconsumed]
  constructor
  · rintro ⟨address, nonce', timestamp, user, heq, -, hrest⟩
    cases heq
    exact ⟨address, nonce', timestamp, user, rfl, htoken, hrest⟩
  · rintro ⟨address, nonce', timestamp, user, heq, hlink, hrest⟩
    cases heq
    exact ⟨address, nonce', timestamp, user, rfl, hissued hlink, hrest⟩

end Invariant

/-- In every run with fresh nonces:
* a POST signs in exactly with a link that was issued, has not expired and is unused, and
  only as the address of the link, whose nonce it consumes;
* no nonce has signed in twice, and only the address it was issued for;
* a GET changes nothing;
* a request for a link, with its clean-up, keeps what every other link does. -/
theorem link_signs_in_iff {rt : Runtime} {cfg : AuthConfig} {s : Site}
    (hs : (Site.machine rt cfg).ReachableBy Fresh s) :
    (∀ token s' reply, s.magic_verify rt token = some (s', reply) →
        ((∃ user, reply = .signedIn user) ↔ Usable s token) ∧
          ∀ user, reply = .signedIn user → ∃ nonce timestamp,
            token = .token (linkToken user.email nonce timestamp) ∧ Spent s' nonce) ∧
      (s.entered.map Prod.fst).Nodup ∧
      (∀ entry ∈ s.entered, ∃ timestamp, linkToken entry.2.email entry.1 timestamp ∈ s.issued) ∧
      (∀ token, (s.magic_confirm rt token).1 = s) ∧
      ∀ email nonce admitted sent, FreshNonce s nonce → ∀ token ∈ s.issued,
        (SignsIn rt (s.magic_request rt cfg email nonce admitted sent).1 (.token token) ↔
          SignsIn rt s (.token token)) := by
  have h := reachable_links hs
  refine ⟨fun token s' reply hpost => ?_, h.once.sublist h.entered, fun entry hentry => ?_,
    magic_confirm_eq, fun email nonce admitted sent hnew token htoken =>
      h.signsIn_request hnew admitted sent htoken⟩
  · rcases h.verify_cases hpost with
      ⟨nonce, timestamp, user, rfl, hlink, hage, hfree, rfl, hconsumed⟩ |
        ⟨hunusable, -, message, rfl⟩
    · refine ⟨⟨fun _ => ⟨_, nonce, timestamp, rfl, hlink, hage, hfree⟩, fun _ => ⟨user, rfl⟩⟩, ?_⟩
      intro user' hreply
      cases hreply
      refine ⟨nonce, timestamp, rfl, ?_⟩
      unfold Spent
      rw [hconsumed, List.map_append]
      exact List.mem_append_right _ (List.mem_singleton_self _)
    · refine ⟨⟨?_, fun husable => absurd husable hunusable⟩, ?_⟩
      · rintro ⟨user, hreply⟩
        cases hreply
      · intro user hreply
        cases hreply
  · exact h.consumed _ (h.owners entry hentry)

/-- The site after one request for a link. -/
def mailed : Site :=
  ((Site.init Store.empty).magic_request plainRuntime { email_signin := true, providers := [] }
    (py "Ada@example.com") (py "n1") true true).1

def mailedLink : Text :=
  .token (linkToken (py "ada@example.com") (py "n1") 0)

theorem link_signs_in_iff_mailed :
    ∃ s' user, mailed.magic_verify plainRuntime mailedLink = some (s', .signedIn user) ∧
      ¬ SignsIn plainRuntime s' mailedLink := by
  have hs : (Site.machine plainRuntime { email_signin := true, providers := [] }).ReachableBy Fresh
      mailed :=
    .step (a := .magicRequest (py "Ada@example.com") (py "n1") true true) .init
      (fun _ _ => List.not_mem_nil) rfl
  obtain ⟨⟨s', reply⟩, hpost⟩ := Option.isSome_iff_exists.1
    (show (mailed.magic_verify plainRuntime mailedLink).isSome from by decide +kernel)
  have husable : Usable mailed mailedLink :=
    ⟨_, _, 0, rfl, by decide +kernel, by decide +kernel, List.not_mem_nil⟩
  obtain ⟨hiff, hspent⟩ := (link_signs_in_iff hs).1 _ _ _ hpost
  obtain ⟨user, rfl⟩ := hiff.2 husable
  refine ⟨s', user, hpost, ?_⟩
  rintro ⟨s'', user', hagain⟩
  have hs' : (Site.machine plainRuntime { email_signin := true, providers := [] }).ReachableBy Fresh
      s' :=
    hs.step (a := .magicVerify mailedLink) trivial (congrArg (Option.map Prod.fst) hpost)
  obtain ⟨nonce, timestamp, hlink, hused⟩ := hspent user rfl
  obtain ⟨address, nonce', timestamp', hlink', -, -, hfree⟩ :=
    ((link_signs_in_iff hs').1 _ _ _ hagain).1.1 ⟨user', rfl⟩
  cases hlink.symm.trans hlink'
  exact hfree hused

end Auth

end OpendssGateway
