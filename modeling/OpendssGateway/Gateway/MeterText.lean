import Mathlib.Data.List.DropRight
import OpendssGateway.Gateway.Metering

/-!
# The last engine seconds of a text

`findall` goes on behind a match, so a match that overlaps an earlier one
would be passed over.  Of this pattern no two matches overlap: a match
holds two quotes, the second is followed by a colon, and a match begins
with a quote and a letter.  So `findall` gives the matches at every
position (`findall_eq_occurrences`), and what it gives for the rest of a
text does not depend on where the rest begins (`occurrences_suffix`).

`OccursAt` is the pattern in the words of lists, and `lastText_of_occursAt`
the result: the last occurrence is found in every rest of the text that
holds it.
-/

namespace OpendssGateway

namespace Metering

/-! ## One match -/

theorem stripPrefix_eq_some {pre bytes rest : Bytes} :
    stripPrefix pre bytes = some rest ↔ bytes = pre ++ rest := by
  induction pre generalizing bytes with
  | nil => simp [stripPrefix]
  | cons p pre ih =>
    cases bytes with
    | nil => simp [stripPrefix]
    | cons b bytes =>
      by_cases h : p = b
      · subst h
        simp [stripPrefix, ih]
      · have hne : b ≠ p := fun heq => h heq.symm
        simp [stripPrefix, h, hne]

/-- The pattern at the start of some bytes, with its group and the bytes behind it. -/
structure Matches (bytes spaces group behind : Bytes) : Prop where
  bytes : bytes = key ++ (spaces ++ (group ++ behind))
  spaces : ∀ b ∈ spaces, isSpace b = true
  nonempty : group ≠ []
  numeric : ∀ b ∈ group, isNumeric b = true
  /-- the group cannot be longer -/
  maximal : ∀ b ∈ behind.head?, isNumeric b = false

/-- White space is no digit and no dot. -/
theorem not_space_of_numeric {b : UInt8} (h : isNumeric b = true) : isSpace b = false := by
  simp only [isNumeric, isDigit, isSpace, Bool.or_eq_true, Bool.and_eq_true, decide_eq_true_eq,
    beq_iff_eq, UInt8.le_iff_toNat_le] at h ⊢
  rw [Bool.eq_false_iff]
  intro hspace
  simp only [Bool.or_eq_true, Bool.and_eq_true, decide_eq_true_eq, beq_iff_eq] at hspace
  rcases h with h | rfl
  · rcases hspace with rfl | hspace
    · exact absurd h.1 (by decide)
    · have h48 : (48 : UInt8).toNat = 48 := rfl
      have h13 : (13 : UInt8).toNat = 13 := rfl
      omega
  · rcases hspace with hspace | hspace
    · exact absurd hspace (by decide)
    · exact absurd hspace.2 (by decide)

/-- A run of a class and what is behind it. -/
theorem span_append {α : Type} {p : α → Bool} {run behind : List α} (hrun : ∀ b ∈ run, p b = true)
    (hbehind : ∀ b ∈ behind.head?, p b = false) :
    (run ++ behind).takeWhile p = run ∧ (run ++ behind).dropWhile p = behind := by
  have hnone : behind.takeWhile p = [] ∧ behind.dropWhile p = behind := by
    cases behind with
    | nil => exact ⟨rfl, rfl⟩
    | cons b rest =>
      have hb : p b = false := hbehind b rfl
      simp [hb]
  rw [List.takeWhile_append_of_pos hrun, List.dropWhile_append_of_pos hrun, hnone.1, hnone.2,
    List.append_nil]
  exact ⟨rfl, rfl⟩

theorem takeWhile_pos {p : UInt8 → Bool} {bytes : Bytes} :
    ∀ b ∈ bytes.takeWhile p, p b = true :=
  fun _ hb => List.mem_takeWhile_imp hb

theorem dropWhile_head {p : UInt8 → Bool} {bytes : Bytes} :
    ∀ b ∈ (bytes.dropWhile p).head?, p b = false := by
  intro b hb
  have h := List.head?_dropWhile_not p bytes
  rw [Option.mem_def.1 hb] at h
  simpa using h

/-- The search takes the longest group. -/
theorem matchHere_eq_some {bytes group behind : Bytes} :
    matchHere bytes = some (group, behind) ↔ ∃ spaces, Matches bytes spaces group behind := by
  constructor
  · intro h
    obtain ⟨rest, hrest, hgroup⟩ := Option.bind_eq_some_iff.1 h
    dsimp only at hgroup
    split at hgroup
    · cases hgroup
    · rename_i hnonempty
      cases hgroup
      refine ⟨rest.takeWhile isSpace, ?_, takeWhile_pos, ?_, takeWhile_pos, dropWhile_head⟩
      · rw [List.takeWhile_append_dropWhile, List.takeWhile_append_dropWhile]
        exact stripPrefix_eq_some.1 hrest
      · simpa using hnonempty
  · rintro ⟨spaces, h⟩
    have hgroup := span_append h.numeric h.maximal
    have hspaces : (spaces ++ (group ++ behind)).dropWhile isSpace = group ++ behind := by
      refine (span_append h.spaces fun b hb => ?_).2
      apply not_space_of_numeric
      apply h.numeric b
      cases group with
      | nil => exact absurd rfl h.nonempty
      | cons c rest =>
        cases hb
        exact List.mem_cons_self ..
    unfold matchHere
    rw [stripPrefix_eq_some.2 h.bytes, Option.bind_some]
    dsimp only
    rw [hspaces, hgroup.1, hgroup.2, if_neg (by simpa using h.nonempty)]

/-! ## All matches -/

/-- The groups of the matches at every position. -/
def occurrences : Bytes → List Bytes
  | [] => []
  | b :: rest =>
    match matchHere (b :: rest) with
    | some (group, _) => group :: occurrences rest
    | none => occurrences rest

/-- A match begins with a quote and a letter. -/
theorem matchHere_head {b : UInt8} {rest : Bytes}
    (h : b ≠ 34 ∨ ∃ c, rest.head? = some c ∧ c ≠ 101) : matchHere (b :: rest) = none := by
  rw [Option.eq_none_iff_forall_ne_some]
  rintro ⟨group, behind⟩ hmatch
  obtain ⟨spaces, hm⟩ := matchHere_eq_some.1 hmatch
  have hbytes := hm.bytes
  rcases h with h | ⟨c, hc, hne⟩
  · exact h (List.cons_eq_cons.1 hbytes).1
  · rw [(List.cons_eq_cons.1 hbytes).2] at hc
    exact hne (Option.some.inj hc).symm

/-- Nothing begins in bytes without a quote. -/
theorem occurrences_skip {bytes rest : Bytes} (h : ∀ b ∈ bytes, b ≠ 34) :
    occurrences (bytes ++ rest) = occurrences rest := by
  induction bytes with
  | nil => rfl
  | cons b bytes ih =>
    rw [List.cons_append, occurrences, matchHere_head (Or.inl (h b (List.mem_cons_self ..)))]
    exact ih fun c hc => h c (List.mem_cons_of_mem b hc)

/-- Nothing begins inside a match. -/
theorem occurrences_behind {b : UInt8} {rest spaces group behind : Bytes}
    (h : Matches (b :: rest) spaces group behind) : occurrences rest = occurrences behind := by
  -- the key is a quote, letters, and a quote with a colon
  have hkey : key = 34 :: (ascii "engineSeconds" ++ [34, 58]) := by decide
  have hbytes := h.bytes
  rw [hkey, List.cons_append, List.append_assoc] at hbytes
  have hletters : ∀ b ∈ ascii "engineSeconds", b ≠ 34 := by
    rintro b hb rfl
    exact absurd hb (by decide)
  rw [(List.cons_eq_cons.1 hbytes).2, occurrences_skip hletters]
  rw [List.cons_append, occurrences, matchHere_head (Or.inr ⟨58, rfl, by decide⟩)]
  dsimp only
  have hquote : ∀ b ∈ spaces ++ group, b ≠ 34 := by
    rintro b hb rfl
    rcases List.mem_append.1 hb with hb | hb
    · exact absurd (h.spaces 34 hb) (by decide)
    · exact absurd (h.numeric 34 hb) (by decide)
  rw [List.cons_append, List.nil_append, occurrences, matchHere_head (Or.inl (by decide))]
  dsimp only
  rw [← List.append_assoc, occurrences_skip hquote]

theorem findallAux_eq_occurrences {fuel : Nat} {bytes : Bytes} (h : bytes.length ≤ fuel) :
    findallAux fuel bytes = occurrences bytes := by
  induction fuel generalizing bytes with
  | zero =>
    have hnil : bytes = [] := List.length_eq_zero_iff.1 (by omega)
    rw [hnil]
    rfl
  | succ fuel ih =>
    cases bytes with
    | nil => rfl
    | cons b rest =>
      have hrest : rest.length ≤ fuel := by
        simpa using h
      rw [findallAux, occurrences]
      cases hmatch : matchHere (b :: rest) with
      | none => exact ih hrest
      | some found =>
        obtain ⟨group, behind⟩ := found
        dsimp only
        obtain ⟨spaces, hm⟩ := matchHere_eq_some.1 hmatch
        have hbehind : behind.length ≤ fuel := by
          have hlength := congrArg List.length hm.bytes
          simp only [List.length_append, List.length_cons] at hlength
          have hpos := List.length_pos_iff.2 hm.nonempty
          omega
        rw [occurrences_behind hm, ih hbehind]

/-- The search gives the matches at every position. -/
theorem findall_eq_occurrences (bytes : Bytes) : findall bytes = occurrences bytes :=
  findallAux_eq_occurrences (Nat.le_refl _)

/-- The matches of the rest of a text are the last of its matches. -/
theorem occurrences_suffix (before bytes : Bytes) :
    ∃ groups, occurrences (before ++ bytes) = groups ++ occurrences bytes := by
  induction before with
  | nil => exact ⟨[], rfl⟩
  | cons b before ih =>
    obtain ⟨groups, hgroups⟩ := ih
    rw [List.cons_append, occurrences]
    split
    · rename_i group _ _
      exact ⟨group :: groups, by rw [hgroups, List.cons_append]⟩
    · exact ⟨groups, hgroups⟩

/-! ## The last match -/

/-- The pattern occurs at place `p`, with this group. -/
def OccursAt (bytes : Bytes) (p : Nat) (group : Bytes) : Prop :=
  ∃ spaces behind, Matches (bytes.drop p) spaces group behind

/-- It occurs at place `p`, and at no later one. -/
def LastAt (bytes : Bytes) (p : Nat) (group : Bytes) : Prop :=
  OccursAt bytes p group ∧ ∀ q group', OccursAt bytes q group' → q ≤ p

theorem occurrences_eq_nil {bytes : Bytes} (h : ∀ p group, ¬ OccursAt bytes p group) :
    occurrences bytes = [] := by
  induction bytes with
  | nil => rfl
  | cons b rest ih =>
    rw [occurrences]
    split
    · rename_i group behind hmatch
      obtain ⟨spaces, hm⟩ := matchHere_eq_some.1 hmatch
      exact absurd ⟨spaces, behind, hm⟩ (h 0 group)
    · exact ih fun p group hocc => h (p + 1) group hocc

/-- The last occurrence in a text is the last match of every rest that holds it. -/
theorem lastText_of_lastAt {bytes group : Bytes} {p k : Nat} (h : LastAt bytes p group)
    (hk : k ≤ p) : lastText (bytes.drop k) = some group := by
  obtain ⟨⟨spaces, behind, hm⟩, hlast⟩ := h
  have hrest : bytes.drop k = (bytes.drop k).take (p - k) ++ bytes.drop p := by
    have hdrop : bytes.drop p = (bytes.drop k).drop (p - k) := by
      rw [List.drop_drop]
      congr 1
      omega
    rw [hdrop, List.take_append_drop]
  obtain ⟨groups, hgroups⟩ := occurrences_suffix ((bytes.drop k).take (p - k)) (bytes.drop p)
  rw [lastText, findall_eq_occurrences, hrest, hgroups]
  have hhere : occurrences (bytes.drop p) = [group] := by
    cases hbytes : bytes.drop p with
    | nil =>
      have hlength := congrArg List.length (hbytes ▸ hm.bytes)
      simp [key, ascii] at hlength
    | cons b rest =>
      rw [hbytes] at hm
      have hbehind : occurrences rest = [] := by
        refine occurrences_eq_nil fun q group' hocc => ?_
        have hlater : OccursAt bytes (p + 1 + q) group' := by
          unfold OccursAt at hocc ⊢
          rw [← List.drop_drop, ← List.drop_drop, hbytes]
          exact hocc
        have := hlast _ _ hlater
        omega
      rw [occurrences, matchHere_eq_some.2 ⟨spaces, hm⟩, hbehind]
  rw [hhere, List.getLast?_concat]

/-- The last occurrence is found in the last `n` bytes, when it begins there. -/
theorem lastText_rtake {bytes group : Bytes} {p n : Nat} (h : LastAt bytes p group)
    (hn : bytes.length ≤ p + n) : lastText (bytes.rtake n) = some group := by
  unfold List.rtake
  exact lastText_of_lastAt h (by omega)

/-- A text that has a match has a last one. -/
theorem exists_lastAt {bytes group : Bytes} (h : lastText bytes = some group) :
    ∃ p, LastAt bytes p group := by
  rw [lastText, findall_eq_occurrences] at h
  induction bytes with
  | nil => cases h
  | cons b rest ih =>
    rw [occurrences] at h
    by_cases hnil : occurrences rest = []
    · rw [hnil] at h
      split at h
      · rename_i group' behind hmatch
        cases h
        obtain ⟨spaces, hm⟩ := matchHere_eq_some.1 hmatch
        refine ⟨0, ⟨spaces, behind, hm⟩, fun q group' hocc => ?_⟩
        cases q with
        | zero => exact Nat.le_refl 0
        | succ q =>
          obtain ⟨spaces', behind', hm'⟩ := hocc
          obtain ⟨groups, hgroups⟩ := occurrences_suffix (rest.take q) (rest.drop q)
          rw [List.take_append_drop, hnil] at hgroups
          have hnone : occurrences (rest.drop q) = [] :=
            (List.append_eq_nil_iff.1 hgroups.symm).2
          have hm' : Matches (rest.drop q) spaces' group' behind' := hm'
          cases hrest : rest.drop q with
          | nil =>
            have hlength := congrArg List.length (hrest ▸ hm'.bytes)
            simp [key, ascii] at hlength
          | cons c more =>
            rw [hrest] at hnone hm'
            rw [occurrences, matchHere_eq_some.2 ⟨spaces', hm'⟩] at hnone
            cases hnone
      · cases h
    · have hlast : (occurrences rest).getLast? = some group := by
        split at h
        · rw [List.getLast?_cons_of_ne_nil hnil] at h
          exact h
        · exact h
      obtain ⟨p, ⟨spaces, behind, hm⟩, hp⟩ := ih hlast
      refine ⟨p + 1, ⟨spaces, behind, hm⟩, fun q group' hocc => ?_⟩
      cases q with
      | zero => omega
      | succ q =>
        have := hp q group' hocc
        omega

/-- There is one last occurrence. -/
theorem LastAt.unique {bytes group group' : Bytes} {p p' : Nat} (h : LastAt bytes p group)
    (h' : LastAt bytes p' group') : p = p' ∧ group = group' := by
  refine ⟨Nat.le_antisymm (h'.2 p group h.1) (h.2 p' group' h'.1), ?_⟩
  have htext := lastText_of_lastAt h (Nat.zero_le p)
  rw [lastText_of_lastAt h' (Nat.zero_le p')] at htext
  exact (Option.some.inj htext).symm

/-! ## Decimal numbers -/

/-- A decimal number without sign and exponent, and its value. -/
inductive Decimal : Bytes → ℚ → Prop
  | whole (digits' : Bytes) : digits' ≠ [] → (∀ b ∈ digits', isDigit b = true) →
      Decimal digits' (digits digits')
  | fraction (whole fraction : Bytes) : (whole ≠ [] ∨ fraction ≠ []) →
      (∀ b ∈ whole, isDigit b = true) → (∀ b ∈ fraction, isDigit b = true) →
      Decimal (whole ++ 46 :: fraction) (digits whole + digits fraction / 10 ^ fraction.length)

/-- `float` reads a decimal number. -/
theorem float_of_decimal {text : Bytes} {x : ℚ} (h : Decimal text x) : float text = some x := by
  unfold float
  cases h with
  | whole digits' hne hdigits =>
    have hend : ∀ b ∈ ([] : Bytes).head?, isDigit b = false := by simp
    have hspan := span_append hdigits hend
    rw [List.append_nil] at hspan
    rw [hspan.1, hspan.2]
    simp [hne]
  | fraction whole fraction hne hwhole hfraction =>
    have hpoint : ∀ b ∈ (46 :: fraction).head?, isDigit b = false := by
      rintro b ⟨⟩
      rfl
    have hspan := span_append hwhole hpoint
    rw [hspan.1, hspan.2]
    have hall : fraction.all isDigit = true := List.all_eq_true.2 hfraction
    have hsome : (whole.isEmpty && fraction.isEmpty) = false := by
      rcases hne with hne | hne <;> simp [hne]
    simp [hall, hsome]

end Metering

end OpendssGateway
