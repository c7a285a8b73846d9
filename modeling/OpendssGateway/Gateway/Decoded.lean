import OpendssGateway.Gateway.LoadsDumps

/-!
# JSON that is read and written again

* `decoded_of_loads`: what is read from a text without surrogates has texts
  of code points without a surrogate pair, and objects with distinct keys.
* `loads_dumps_loads`: so it is written, if `json.dumps` may go as deep, and
  read back as it is.
* `printable_dumps`: what is written is one line of printable ASCII.
-/

namespace OpendssGateway

namespace JsonText

/-! ## What is read -/

/-- A character of a text that has been decoded: a code point that is no surrogate. -/
def Scalar (c : Nat) : Prop :=
  CodePoint c ∧ isHigh c = false ∧ isLow c = false

def UnitOk : CodeUnit → Prop
  | .raw c => Scalar c
  | .escaped unit => unit < 0x10000

theorem scalar_of_ascii {c : Nat} (h : c < 128) : Scalar c := by
  refine ⟨?_, ?_, ?_⟩
  · unfold CodePoint
    omega
  · simp only [isHigh]
    grind
  · simp only [isLow]
    grind

/-- The characters of a literal. -/
theorem scalar_py (text : String) : ∀ c ∈ py text, Scalar c := by
  intro c hc
  obtain ⟨char, -, rfl⟩ := List.mem_map.1 hc
  have hvalid : char.toNat < 0xD800 ∨ 0xDFFF < char.toNat ∧ char.toNat < 0x110000 := char.valid
  unfold Scalar CodePoint isHigh isLow
  simp only [Bool.and_eq_false_iff, decide_eq_false_iff_not]
  omega

theorem not_hasPair_of_scalar {s : PyStr} (h : ∀ c ∈ s, Scalar c) : ¬ HasPair s := by
  rintro ⟨before, high, low, behind, rfl, hhigh, -⟩
  have hscalar := (h high (by simp)).2.1
  rw [hhigh] at hscalar
  cases hscalar

theorem hexValue_lt {c d : Nat} (h : hexValue c = some d) : d < 16 := by
  unfold hexValue at h
  split_ifs at h with hdigit hlower hupper <;> cases h <;> omega

theorem decode_uXXXX_lt {a b c d unit : Nat} (h : decode_uXXXX a b c d = some unit) :
    unit < 0x10000 := by
  simp only [decode_uXXXX, Option.bind_eq_bind, Option.bind_eq_some_iff] at h
  obtain ⟨a', ha, b', hb, c', hc, d', hd, hunit⟩ := h
  have ha := hexValue_lt ha
  have hb := hexValue_lt hb
  have hc := hexValue_lt hc
  have hd := hexValue_lt hd
  cases hunit
  omega

theorem BACKSLASH_lt {c d : Nat} (h : BACKSLASH c = some d) : d < 128 := by
  unfold BACKSLASH at h
  split_ifs at h <;> cases h <;> omega

theorem unitOk_of_scanUnits {s rest : PyStr} {units : List CodeUnit} (hs : ∀ c ∈ s, Scalar c)
    (h : scanUnits s = some (units, rest)) : ∀ unit ∈ units, UnitOk unit := by
  induction s using scanUnits.induct generalizing units with
  | case1 => cases h
  | case2 r =>
    cases h
    exact List.forall_mem_nil _
  | case3 a b c d r ih =>
    simp only [scanUnits, Option.bind_eq_bind, Option.bind_eq_some_iff] at h
    obtain ⟨unit, hunit, ⟨units', r'⟩, hunits, hpair⟩ := h
    cases hpair
    refine List.forall_mem_cons.2 ⟨decode_uXXXX_lt hunit, ih (fun x hx => hs x ?_) hunits⟩
    simp [hx]
  | case4 c r _ ih =>
    simp only [scanUnits, Option.bind_eq_bind, Option.bind_eq_some_iff] at h
    obtain ⟨d, hd, ⟨units', r'⟩, hunits, hpair⟩ := h
    cases hpair
    refine List.forall_mem_cons.2
      ⟨scalar_of_ascii (BACKSLASH_lt hd), ih (fun x hx => hs x ?_) hunits⟩
    simp [hx]
  | case5 c r hquote hu hback hbad =>
    simp [scanUnits, hbad] at h
  | case6 c r hquote hu hback hgood ih =>
    simp only [scanUnits, if_neg hgood, Option.bind_eq_bind, Option.bind_eq_some_iff] at h
    obtain ⟨⟨units', r'⟩, hunits, hpair⟩ := h
    cases hpair
    exact List.forall_mem_cons.2
      ⟨hs c List.mem_cons_self, ih (fun x hx => hs x (List.mem_cons_of_mem c hx)) hunits⟩

theorem combine_range {high low : Nat} (h : (isHigh high && isLow low) = true) :
    0x10000 ≤ combine high low ∧ CodePoint (combine high low) := by
  simp only [isHigh, isLow, Bool.and_eq_true, decide_eq_true_eq] at h
  unfold combine CodePoint
  omega

/-- Only the escape of a low surrogate becomes one. -/
theorem startsLow_of_join {units : List CodeUnit} (hunits : ∀ unit ∈ units, UnitOk unit)
    {low : Nat} {behind : PyStr} (h : join units = low :: behind) (hlow : isLow low = true) :
    StartsLow units := by
  cases units using join.induct with
  | case1 => cases h
  | case2 c units =>
    cases h
    have hscalar : Scalar low := hunits _ List.mem_cons_self
    rw [hscalar.2.2] at hlow
    cases hlow
  | case3 high low' units hpair =>
    rw [join, if_pos hpair] at h
    rw [← (List.cons.inj h).1] at hlow
    have hrange := (combine_range hpair).1
    simp only [isLow, Bool.and_eq_true, decide_eq_true_eq] at hlow
    omega
  | case4 high low' units hpair =>
    rw [join, if_neg hpair] at h
    cases h
    exact ⟨low, _, rfl, hlow⟩
  | case5 unit units hlast =>
    rw [join] at h
    · cases h
      exact ⟨low, _, rfl, hlow⟩
    · exact hlast

theorem join_ok {units : List CodeUnit} (hunits : ∀ unit ∈ units, UnitOk unit) :
    (∀ c ∈ join units, CodePoint c) ∧ ¬ HasPair (join units) := by
  have hsmall : ∀ unit, UnitOk (.escaped unit) → CodePoint unit := by
    intro unit h
    simp only [UnitOk, CodePoint] at *
    omega
  induction units using join.induct with
  | case1 => exact ⟨List.forall_mem_nil _, not_hasPair_nil⟩
  | case2 c units ih =>
    obtain ⟨hc, hrest⟩ := List.forall_mem_cons.1 hunits
    obtain ⟨hcodes, hnot⟩ := ih hrest
    refine ⟨List.forall_mem_cons.2 ⟨hc.1, hcodes⟩, ?_⟩
    rw [join, hasPair_cons]
    rintro (⟨hhigh, -⟩ | h)
    · rw [hc.2.1] at hhigh
      cases hhigh
    · exact hnot h
  | case3 high low units hpair ih =>
    obtain ⟨-, hrest⟩ := List.forall_mem_cons.1 hunits
    obtain ⟨hcodes, hnot⟩ := ih (List.forall_mem_cons.1 hrest).2
    rw [join, if_pos hpair]
    refine ⟨List.forall_mem_cons.2 ⟨(combine_range hpair).2, hcodes⟩, ?_⟩
    rw [hasPair_cons]
    rintro (⟨hhigh, -⟩ | h)
    · have hrange := (combine_range hpair).1
      simp only [isHigh, Bool.and_eq_true, decide_eq_true_eq] at hhigh
      omega
    · exact hnot h
  | case4 high low units hpair ih =>
    obtain ⟨hhigh, hrest⟩ := List.forall_mem_cons.1 hunits
    obtain ⟨hcodes, hnot⟩ := ih hrest
    rw [join, if_neg hpair]
    refine ⟨List.forall_mem_cons.2 ⟨hsmall high hhigh, hcodes⟩, ?_⟩
    rw [hasPair_cons]
    rintro (⟨hhigh, low', behind, hjoin, hlow⟩ | h)
    · obtain ⟨low'', units', heq, hlow⟩ := startsLow_of_join hrest hjoin hlow
      cases heq
      exact hpair (Bool.and_eq_true_iff.2 ⟨hhigh, hlow⟩)
    · exact hnot h
  | case5 unit units hlast ih =>
    obtain ⟨hunit, hrest⟩ := List.forall_mem_cons.1 hunits
    obtain ⟨hcodes, hnot⟩ := ih hrest
    rw [join]
    · refine ⟨List.forall_mem_cons.2 ⟨hsmall unit hunit, hcodes⟩, ?_⟩
      rw [hasPair_cons]
      rintro (⟨-, low, behind, hjoin, hlow⟩ | h)
      · obtain ⟨low', units', heq, -⟩ := startsLow_of_join hrest hjoin hlow
        exact hlast _ _ heq
      · exact hnot h
    · exact hlast

/-- Code points without a surrogate pair. -/
def DecodedText (s : PyStr) : Prop :=
  (∀ c ∈ s, CodePoint c) ∧ ¬ HasPair s

/-- What is read from a decoded text: such texts, and objects that have a key once. -/
def Decoded (v : Json) : Prop :=
  Holds DecodedText (fun _ => True) List.Nodup v

@[simp] theorem decodedText_py (text : String) : DecodedText (py text) :=
  ⟨fun c hc => (scalar_py text c hc).1, not_hasPair_of_scalar (scalar_py text)⟩

theorem itemsHold_iff {text : PyStr → Prop} {real : Float → Prop} {keys : List PyStr → Prop}
    {items : List Json} :
    ItemsHold text real keys items ↔ ∀ item ∈ items, Holds text real keys item := by
  induction items with
  | nil => simp [ItemsHold]
  | cons item items ih => simp [ItemsHold, ih]

theorem membersHold_iff {text : PyStr → Prop} {real : Float → Prop} {keys : List PyStr → Prop}
    {members : List (PyStr × Json)} :
    MembersHold text real keys members ↔
      ∀ member ∈ members, text member.1 ∧ Holds text real keys member.2 := by
  induction members with
  | nil => simp [MembersHold]
  | cons member members ih => simp [MembersHold, ih, and_assoc]

theorem decoded_of_scanAtom {rt : Runtime} {s rest : PyStr} {v : Json}
    (h : scanAtom rt s = some (v, rest)) : Decoded v := by
  rcases atom_cases h with rfl | ⟨b, rfl⟩ | ⟨x, rfl⟩ | ⟨n, integer, r, rfl, -, -⟩
  all_goals exact trivial

theorem decoded_of_scanstring {s text rest : PyStr} (hs : ∀ c ∈ s, Scalar c)
    (h : scanstring s = some (text, rest)) : DecodedText text := by
  simp only [scanstring, Option.bind_eq_bind, Option.bind_eq_some_iff] at h
  obtain ⟨⟨units, r⟩, hunits, hpair⟩ := h
  cases hpair
  exact join_ok (unitOk_of_scanUnits hs hunits)

theorem reading_decoded (rt : Runtime) : Reading rt Scalar DecodedText fun _ v => Decoded v where
  text _ _ _ hs h := decoded_of_scanstring hs h
  str _ _ h := h
  obj _ pairs _ hpairs :=
    ⟨nodup_dict pairs, membersHold_iff.2 fun pair hpair =>
      hpairs pair (Table.mem_of_mem_ofRows hpair)⟩
  arr _ _ _ hvalues := itemsHold_iff.2 hvalues
  atom _ _ _ _ h := decoded_of_scanAtom h

/-- What is read from a decoded text. -/
theorem decoded_of_loads {rt : Runtime} {s : PyStr} {v : Json} (hs : ∀ c ∈ s, Scalar c)
    (h : loads rt s = some v) : Decoded v :=
  (reading_decoded rt).of_loads hs h

mutual

/-- Conditions that follow from two others. -/
theorem holds_of_and {text text' text'' : PyStr → Prop} {real real' real'' : Float → Prop}
    {keys keys' keys'' : List PyStr → Prop} (htext : ∀ s, text s → text' s → text'' s)
    (hreal : ∀ x, real x → real' x → real'' x) (hkeys : ∀ l, keys l → keys' l → keys'' l)
    (v : Json) (h : Holds text real keys v) (h' : Holds text' real' keys' v) :
    Holds text'' real'' keys'' v := by
  cases v with
  | null | bool _ | int _ => exact trivial
  | float x => exact hreal x h h'
  | str s => exact htext s h h'
  | arr items => exact itemsHold_of_and htext hreal hkeys items h h'
  | obj members =>
    exact ⟨hkeys _ h.1 h'.1, membersHold_of_and htext hreal hkeys members h.2 h'.2⟩

theorem itemsHold_of_and {text text' text'' : PyStr → Prop} {real real' real'' : Float → Prop}
    {keys keys' keys'' : List PyStr → Prop} (htext : ∀ s, text s → text' s → text'' s)
    (hreal : ∀ x, real x → real' x → real'' x) (hkeys : ∀ l, keys l → keys' l → keys'' l)
    (items : List Json) (h : ItemsHold text real keys items)
    (h' : ItemsHold text' real' keys' items) : ItemsHold text'' real'' keys'' items := by
  cases items with
  | nil => exact trivial
  | cons item rest =>
    exact ⟨holds_of_and htext hreal hkeys item h.1 h'.1,
      itemsHold_of_and htext hreal hkeys rest h.2 h'.2⟩

theorem membersHold_of_and {text text' text'' : PyStr → Prop} {real real' real'' : Float → Prop}
    {keys keys' keys'' : List PyStr → Prop} (htext : ∀ s, text s → text' s → text'' s)
    (hreal : ∀ x, real x → real' x → real'' x) (hkeys : ∀ l, keys l → keys' l → keys'' l)
    (members : List (PyStr × Json)) (h : MembersHold text real keys members)
    (h' : MembersHold text' real' keys' members) : MembersHold text'' real'' keys'' members := by
  cases members with
  | nil => exact trivial
  | cons member rest =>
    obtain ⟨key, v⟩ := member
    exact ⟨htext key h.1 h'.1, holds_of_and htext hreal hkeys v h.2.1 h'.2.1,
      membersHold_of_and htext hreal hkeys rest h.2.2 h'.2.2⟩

end

/-- The scanner of numbers reads the text of every float of the value back. -/
def FloatsRead (rt : Runtime) (v : Json) : Prop :=
  Holds (fun _ => True) (Reads rt) (fun _ => True) v

theorem Decoded.canonical {v : Json} (h : Decoded v) : Canonical v :=
  holds_of_and (fun _ hs _ => hs.2) (fun _ _ _ => trivial) (fun _ hkeys _ => hkeys) v h h

theorem Decoded.writable {rt : Runtime} {v : Json} (h : Decoded v) (hfloats : FloatsRead rt v) :
    Writable rt v :=
  holds_of_and (fun _ hs _ => hs.1) (fun _ _ hx => hx) (fun _ _ _ => trivial) v h hfloats

/-- Decoded values are read back as they are. -/
theorem loads_dumps_of_decoded {rt : Runtime} {separators : Separators} (hsep : Blank separators)
    {v : Json} (h : Decoded v) (hfloats : FloatsRead rt v) (hfits : v.Fits rt.readDepth) :
    loads rt (v.dumps rt separators) = some v := by
  rw [loads_dumps hsep (h.writable hfloats) hfits, (normal_eq_iff v).2 h.canonical]

mutual

/-- What fits is not too deep where there is more room. -/
theorem fits_mono {depth depth' : Nat} (hle : depth ≤ depth') (v : Json) (h : v.Fits depth) :
    v.Fits depth' := by
  cases v with
  | null | bool _ | float _ | str _ => exact trivial
  | int n => exact h
  | arr items => exact ⟨by have := h.1; omega, itemsFit_mono (by omega) items h.2⟩
  | obj members => exact ⟨by have := h.1; omega, membersFit_mono (by omega) members h.2⟩

theorem itemsFit_mono {depth depth' : Nat} (hle : depth ≤ depth') (items : List Json)
    (h : ItemsFit depth items) : ItemsFit depth' items := by
  cases items with
  | nil => exact trivial
  | cons item rest => exact ⟨fits_mono hle item h.1, itemsFit_mono hle rest h.2⟩

theorem membersFit_mono {depth depth' : Nat} (hle : depth ≤ depth')
    (members : List (PyStr × Json)) (h : MembersFit depth members) :
    MembersFit depth' members := by
  cases members with
  | nil => exact trivial
  | cons member rest =>
    obtain ⟨key, v⟩ := member
    exact ⟨fits_mono hle v h.1, membersFit_mono hle rest h.2⟩

end

/-- What is read from a decoded text is written, and read again as it is. -/
theorem loads_dumps_loads {rt : Runtime} {separators : Separators} (hsep : Blank separators)
    (hdepth : rt.readDepth ≤ rt.writeDepth) {s : PyStr} {v : Json} (hs : ∀ c ∈ s, Scalar c)
    (h : loads rt s = some v) (hfloats : FloatsRead rt v) :
    ∃ text, json_dumps rt separators v = .ok text ∧ loads rt text = some v :=
  have hfits := fits_of_loads h
  ⟨_, json_dumps_eq_ok.2 ⟨fits_mono hdepth v hfits, rfl⟩,
    loads_dumps_of_decoded hsep (decoded_of_loads hs h) hfloats hfits⟩

/-! ## One line -/

theorem printable_of_isDigit {c : Nat} (h : isDigit c = true) : Printable c := by
  simp only [isDigit, Bool.and_eq_true, decide_eq_true_eq] at h
  exact ⟨by omega, by omega⟩

instance (c : Nat) : Decidable (Printable c) :=
  inferInstanceAs (Decidable (32 ≤ c ∧ c < 127))

/-- The characters that a scanner goes over are printable. -/
def Over (s rest : PyStr) : Prop :=
  ∀ c ∈ s, Printable c ∨ c ∈ rest

theorem Over.trans {s r rest : PyStr} (h : Over s r) (hr : Over r rest) : Over s rest :=
  fun c hc => (h c hc).elim Or.inl (hr c)

/-- What a scanner goes over as a whole is printable. -/
theorem Over.printable {s : PyStr} (h : Over s []) : ∀ c ∈ s, Printable c :=
  fun c hc => (h c hc).resolve_right List.not_mem_nil

theorem over_cons {c : Nat} {s rest : PyStr} (hc : Printable c) (h : Over s rest) :
    Over (c :: s) rest := by
  intro d hd
  rcases List.mem_cons.1 hd with rfl | hd
  · exact Or.inl hc
  · exact h d hd

theorem over_tail {s : PyStr} {c : Nat} (hc : Printable c) (h : s.head? = some c) :
    Over s s.tail := by
  cases s with
  | nil => cases h
  | cons d s =>
    cases h
    exact over_cons hc fun _ => Or.inr

theorem over_digits (s : PyStr) : Over s (s.dropWhile isDigit) := by
  intro c hc
  rw [← List.takeWhile_append_dropWhile (p := isDigit) (l := s), List.mem_append] at hc
  exact hc.imp (fun h => printable_of_isDigit (List.mem_takeWhile_imp h)) id

theorem over_scanDigits {s digits rest : PyStr} (h : scanDigits s = some (digits, rest)) :
    Over s rest := by
  cases s with
  | nil => cases h
  | cons c s =>
    simp only [scanDigits] at h
    split at h
    · rename_i hzero
      cases h
      exact over_cons (printable_of_isDigit (by rw [hzero]; rfl)) fun _ => Or.inr
    · split at h
      · rename_i hdigit
        cases h
        exact over_cons (printable_of_isDigit hdigit) (over_digits s)
      · cases h

theorem over_scanInteger {s integer rest : PyStr} (h : scanInteger s = some (integer, rest)) :
    Over s rest := by
  unfold scanInteger at h
  split at h
  · rename_i hsign
    obtain ⟨⟨digits, r⟩, hdigits, hpair⟩ := Option.bind_eq_some_iff.1 h
    cases hpair
    exact (over_tail (by decide) hsign).trans (over_scanDigits hdigits)
  · exact over_scanDigits h

theorem over_scanFraction (s : PyStr) : Over s (scanFraction s).2 := by
  unfold scanFraction
  split
  · rename_i hpoint
    exact (over_tail (by decide) hpoint.1).trans (over_digits _)
  · exact fun _ => Or.inr

theorem over_scanSign (s : PyStr) : Over s (scanSign s).2 := by
  unfold scanSign
  split
  · rename_i hsign
    rcases hsign with hsign | hsign
    · exact over_tail (by decide) hsign
    · exact over_tail (by decide) hsign
  · exact fun _ => Or.inr

theorem over_scanExponent (s : PyStr) : Over s (scanExponent s).2 := by
  simp only [scanExponent]
  split
  · rename_i hpower
    have htail : Over s s.tail := by
      rcases hpower.1 with hmarker | hmarker
      · exact over_tail (by decide) hmarker
      · exact over_tail (by decide) hmarker
    exact (htail.trans (over_scanSign _)).trans (over_digits _)
  · exact fun _ => Or.inr

theorem over_scanNumber {rt : Runtime} {s rest : PyStr} {v : Json}
    (h : scanNumber rt s = some (v, rest)) : Over s rest := by
  simp only [scanNumber, Option.bind_eq_bind, Option.bind_eq_some_iff] at h
  obtain ⟨⟨integer, r⟩, hinteger, h⟩ := h
  have hrest : rest = (scanExponent (scanFraction r).2).2 := by
    split at h
    · obtain ⟨n, -, hn⟩ := Option.bind_eq_some_iff.1 h
      cases hn
      rfl
    · obtain ⟨x, -, hx⟩ := Option.bind_eq_some_iff.1 h
      cases hx
      rfl
  rw [hrest]
  exact (over_scanInteger hinteger).trans ((over_scanFraction r).trans (over_scanExponent _))

/-- What is read as a whole is printable. -/
theorem printable_of_scanAtom {rt : Runtime} {s : PyStr} {v : Json}
    (h : scanAtom rt s = some (v, [])) : ∀ c ∈ s, Printable c := by
  rcases scanAtom_cases h with ⟨text, htext, rfl⟩ | h
  · have hprintable : ∀ text ∈ constants.map Prod.fst, ∀ c ∈ text, Printable c := by decide
    rw [List.append_nil]
    exact hprintable text (List.mem_map_of_mem htext)
  · exact (over_scanNumber h).printable

theorem printable_intercalate {separator : PyStr} {texts : List PyStr}
    (hseparator : ∀ c ∈ separator, Printable c) (h : ∀ text ∈ texts, ∀ c ∈ text, Printable c) :
    ∀ c ∈ separator.intercalate texts, Printable c := by
  induction texts with
  | nil => exact nofun
  | cons text texts ih =>
    obtain ⟨htext, hrest⟩ := List.forall_mem_cons.1 h
    by_cases hnil : texts = []
    · subst hnil
      simpa [List.intercalate] using htext
    · rw [intercalate_cons hnil]
      intro c hc
      rcases List.mem_append.1 hc with hc | hc
      · exact htext c hc
      · rcases List.mem_append.1 hc with hc | hc
        · exact hseparator c hc
        · exact ih hrest c hc

section Printable

variable {rt : Runtime} {separators : Separators}

mutual

/-- What is written is one line of ASCII. -/
theorem printable_dumps (hitem : ∀ c ∈ separators.item, Printable c)
    (hkey : ∀ c ∈ separators.key, Printable c) (v : Json) (h : Writable rt v) :
    ∀ c ∈ v.dumps rt separators, Printable c := by
  cases v with
  | null =>
    rw [Json.dumps]
    decide
  | bool b =>
    rw [Json.dumps]
    cases b <;> decide
  | int n => exact (over_scanInteger (scanInteger_toString n)).printable
  | float x => exact printable_of_scanAtom h.2
  | str s => exact printable_dumpsStr s
  | arr items =>
    rw [Json.dumps]
    intro c hc
    simp only [List.mem_append] at hc
    rcases hc with (hc | hc) | hc
    · revert c
      decide
    · exact printable_intercalate hitem (printable_dumpsItems hitem hkey items h) c hc
    · revert c
      decide
  | obj members =>
    rw [Json.dumps]
    intro c hc
    simp only [List.mem_append] at hc
    rcases hc with (hc | hc) | hc
    · revert c
      decide
    · exact printable_intercalate hitem (printable_dumpsMembers hitem hkey members h.2) c hc
    · revert c
      decide

theorem printable_dumpsItems (hitem : ∀ c ∈ separators.item, Printable c)
    (hkey : ∀ c ∈ separators.key, Printable c) (items' : List Json)
    (h : ItemsHold (fun s => ∀ c ∈ s, CodePoint c) (Reads rt) (fun _ => True) items') :
    ∀ text ∈ dumpsItems rt separators items', ∀ c ∈ text, Printable c := by
  cases items' with
  | nil => exact nofun
  | cons item rest =>
    exact List.forall_mem_cons.2 ⟨printable_dumps hitem hkey item h.1,
      printable_dumpsItems hitem hkey rest h.2⟩

theorem printable_dumpsMembers (hitem : ∀ c ∈ separators.item, Printable c)
    (hkey : ∀ c ∈ separators.key, Printable c) (pairs : List (PyStr × Json))
    (h : MembersHold (fun s => ∀ c ∈ s, CodePoint c) (Reads rt) (fun _ => True) pairs) :
    ∀ text ∈ dumpsMembers rt separators pairs, ∀ c ∈ text, Printable c := by
  cases pairs with
  | nil => exact nofun
  | cons pair rest =>
    obtain ⟨key, v⟩ := pair
    refine List.forall_mem_cons.2 ⟨fun c hc => ?_, printable_dumpsMembers hitem hkey rest h.2.2⟩
    rcases List.mem_append.1 hc with hc | hc
    · rcases List.mem_append.1 hc with hc | hc
      · exact printable_dumpsStr key c hc
      · exact hkey c hc
    · exact printable_dumps hitem hkey v h.2.1 c hc

end

end Printable

end JsonText

end OpendssGateway
