import Mathlib.Data.List.TakeWhile
import Mathlib.Data.UInt

/-!
# Paths of a URI

The parts of RFC 3986 that decide which path a server sees, over lists
of bytes.

* `pathOf` ends a path at the first `?` or `#`.
* `removeDotSegments` is the algorithm of section 5.2.4.
* `decode` reads the percent escapes once.  A `%` without two hexadecimal
  digits stays.
* `encode` writes the bytes that are not safe as escapes and keeps the
  escapes that are there, so it does not change what `decode` reads
  (`decode_encode`).

`Spells s e` says that `s` writes `e` with some of its bytes as escapes.
For a text without `%` this is the same as decoding to it
(`decode_eq_iff_spells`).
-/

namespace Uri

/-! ## Percent escapes -/

/-- The value of a hexadecimal digit. -/
def hexValue (b : UInt8) : Option UInt8 :=
  if 48 ≤ b ∧ b ≤ 57 then some (b - 48)
  else if 65 ≤ b ∧ b ≤ 70 then some (b - 55)
  else if 97 ≤ b ∧ b ≤ 102 then some (b - 87)
  else none

def hexDigit (n : UInt8) : UInt8 :=
  if n < 10 then n + 48 else n + 55

/-- The byte that three bytes are an escape of. -/
def escape (a h l : UInt8) : Option UInt8 :=
  if a = 37 then
    match hexValue h, hexValue l with
    | some x, some y => some (16 * x + y)
    | _, _ => none
  else none

def decode : List UInt8 → List UInt8
  | [] => []
  | [a] => [a]
  | [a, b] => [a, b]
  | a :: h :: l :: rest =>
    match escape a h l with
    | some b => b :: decode rest
    | none => a :: decode (h :: l :: rest)

/-- A byte on its own: as it is when it is safe, else as an escape. -/
def encodeByte (safe : UInt8 → Bool) (b : UInt8) : List UInt8 :=
  if safe b then [b] else [37, hexDigit (b / 16), hexDigit (b % 16)]

def encode (safe : UInt8 → Bool) : List UInt8 → List UInt8
  | [] => []
  | [a] => encodeByte safe a
  | [a, b] => encodeByte safe a ++ encodeByte safe b
  | a :: h :: l :: rest =>
    if (escape a h l).isSome then a :: h :: l :: encode safe rest
    else encodeByte safe a ++ encode safe (h :: l :: rest)

/-- A byte that starts no escape decodes to itself. -/
theorem decode_cons {a : UInt8} {rest : List UInt8}
    (h : ∀ x y tail, rest = x :: y :: tail → escape a x y = none) :
    decode (a :: rest) = a :: decode rest := by
  match rest with
  | [] => rfl
  | [_] => rfl
  | x :: y :: tail => rw [decode, h x y tail rfl]

theorem decode_cons_of_ne {a : UInt8} (h : a ≠ 37) (rest : List UInt8) :
    decode (a :: rest) = a :: decode rest :=
  decode_cons fun _ _ _ _ => if_neg h

theorem decode_escape {a h l b : UInt8} (he : escape a h l = some b) (rest : List UInt8) :
    decode (a :: h :: l :: rest) = b :: decode rest := by
  rw [decode, he]

theorem escape_hexDigit (b : UInt8) :
    escape 37 (hexDigit (b / 16)) (hexDigit (b % 16)) = some b := by
  have hall : ∀ n : Fin 256, escape 37 (hexDigit (UInt8.ofNat n / 16))
      (hexDigit (UInt8.ofNat n % 16)) = some (UInt8.ofNat n) := by decide +kernel
  have := hall ⟨b.toNat, b.toNat_lt⟩
  rwa [UInt8.ofNat_toNat] at this

section Encode

variable {safe : UInt8 → Bool}

theorem hexValue_percent : hexValue 37 = none := by decide

/-- An encoding that starts with a hexadecimal digit encodes a text that
starts with it. -/
theorem encode_hex_head {text rest : List UInt8} {x : UInt8} (hx : hexValue x ≠ none)
    (h : encode safe text = x :: rest) : ∃ text', text = x :: text' ∧ encode safe text' = rest := by
  have hbyte : ∀ {a : UInt8} {tail : List UInt8}, encodeByte safe a ++ tail = x :: rest →
      a = x ∧ tail = rest := by
    intro a tail ha
    unfold encodeByte at ha
    split at ha
    · simpa using ha
    · have hhead : (37 : UInt8) = x := (List.cons.inj ha).1
      exact absurd hexValue_percent (hhead ▸ hx)
  match text with
  | [] => cases h
  | [a] =>
    rw [encode, ← List.append_nil (encodeByte safe a)] at h
    obtain ⟨rfl, rfl⟩ := hbyte h
    exact ⟨[], rfl, rfl⟩
  | [a, b] =>
    rw [encode] at h
    obtain ⟨rfl, rfl⟩ := hbyte h
    exact ⟨[b], rfl, rfl⟩
  | a :: b :: c :: tail =>
    rw [encode] at h
    split at h
    · rename_i hesc
      have hhead : a = x := (List.cons.inj h).1
      unfold escape at hesc
      split at hesc
      · rename_i ha
        exact absurd hexValue_percent (ha ▸ hhead ▸ hx)
      · cases hesc
    · obtain ⟨rfl, rfl⟩ := hbyte h
      exact ⟨b :: c :: tail, rfl, rfl⟩

/-- The encoding of one byte that starts no escape decodes to the byte. -/
theorem decode_encodeByte (safe : UInt8 → Bool) (a : UInt8) (text : List UInt8)
    (h : ∀ x y tail, text = x :: y :: tail → escape a x y = none) :
    decode (encodeByte safe a ++ encode safe text) = a :: decode (encode safe text) := by
  unfold encodeByte
  split
  · refine decode_cons fun x y tail htext => ?_
    unfold escape
    split
    · rename_i ha
      split
      · rename_i u v hu hv
        -- two hexadecimal digits in the encoding were in the text
        obtain ⟨text', rfl, hrest⟩ := encode_hex_head (by simp [hu]) htext
        obtain ⟨text'', rfl, -⟩ := encode_hex_head (by simp [hv]) hrest
        have := h x y text'' rfl
        simp [escape, ha, hu, hv] at this
      · rfl
    · rfl
  · exact decode_escape (escape_hexDigit a) _

/-- Encoding keeps what is decoded. -/
theorem decode_encode (text : List UInt8) : decode (encode safe text) = decode text := by
  fun_induction encode safe text with
  | case1 => rfl
  | case2 a =>
    have := decode_encodeByte safe a [] (by simp)
    rw [encode, List.append_nil] at this
    rw [this]
    rfl
  | case3 a b =>
    have hb := decode_encodeByte safe b [] (by simp)
    rw [encode, List.append_nil] at hb
    have ha := decode_encodeByte safe a [b] (by simp)
    rw [encode] at ha
    rw [ha, hb]
    rfl
  | case4 a h l rest hesc ih =>
    obtain ⟨b, hb⟩ := Option.isSome_iff_exists.1 hesc
    rw [decode_escape hb, decode_escape hb, ih]
  | case5 a h l rest hesc ih =>
    have hnone : escape a h l = none := by simpa using hesc
    have hhead : ∀ x y tail, h :: l :: rest = x :: y :: tail → escape a x y = none := by
      intro x y tail htext
      cases htext
      exact hnone
    have ha := decode_encodeByte safe a (h :: l :: rest) hhead
    rw [ha, ih, decode, hnone]

end Encode

/-! ## Spellings -/

/-- `Spells s e`: the text `s` writes `e`, with some bytes as escapes. -/
inductive Spells : List UInt8 → List UInt8 → Prop
  | nil : Spells [] []
  | plain {s e : List UInt8} (b : UInt8) : b ≠ 37 → Spells s e → Spells (b :: s) (b :: e)
  | escaped {s e : List UInt8} {a h l b : UInt8} :
      escape a h l = some b → Spells s e → Spells (a :: h :: l :: s) (b :: e)

theorem Spells.refl {e : List UInt8} (h : ∀ b ∈ e, b ≠ 37) : Spells e e := by
  induction e with
  | nil => exact Spells.nil
  | cons b e ih =>
    exact Spells.plain b (h b (List.mem_cons_self ..))
      (ih fun c hc => h c (List.mem_cons_of_mem b hc))

theorem Spells.decode_eq {s e : List UInt8} (h : Spells s e) : decode s = e := by
  induction h with
  | nil => rfl
  | plain b hb _ ih => rw [decode_cons_of_ne hb, ih]
  | escaped he _ ih => rw [decode_escape he, ih]

/-- A text decodes to its spellings and to nothing else. -/
theorem decode_eq_iff_spells {s e : List UInt8} (he : ∀ b ∈ e, b ≠ 37) :
    decode s = e ↔ Spells s e := by
  refine ⟨fun h => ?_, Spells.decode_eq⟩
  subst h
  -- a byte that is decoded as itself is no `%`, because `e` has none
  fun_induction decode s with
  | case1 => exact Spells.nil
  | case2 a => exact Spells.refl he
  | case3 a b => exact Spells.refl he
  | case4 a h l rest b hesc ih =>
    exact Spells.escaped hesc (ih fun c hc => he c (List.mem_cons_of_mem b hc))
  | case5 a h l rest hesc ih =>
    exact Spells.plain a (he a (List.mem_cons_self ..))
      (ih fun c hc => he c (List.mem_cons_of_mem a hc))

/-! ## The path component -/

/-- The path ends at the first `?` or `#`. -/
def pathOf (text : List UInt8) : List UInt8 :=
  text.takeWhile fun b => b ≠ 63 && b ≠ 35

/-- The bytes behind the path: nothing, or from a `?` or `#` on. -/
def IsQueryOrFragment (text : List UInt8) : Prop :=
  text = [] ∨ ∃ b rest, text = b :: rest ∧ (b = 63 ∨ b = 35)

/-- The path of a text is the part before its first `?` or `#`. -/
theorem pathOf_eq_iff {text path : List UInt8} :
    pathOf text = path ↔ (∀ b ∈ path, b ≠ 63 ∧ b ≠ 35) ∧
      ∃ behind, text = path ++ behind ∧ IsQueryOrFragment behind := by
  constructor
  · rintro rfl
    refine ⟨fun b hb => ?_, text.dropWhile fun b => b ≠ 63 && b ≠ 35,
      List.takeWhile_append_dropWhile.symm, ?_⟩
    · simpa using List.mem_takeWhile_imp hb
    · cases hdrop : text.dropWhile fun b => b ≠ 63 && b ≠ 35 with
      | nil => exact Or.inl rfl
      | cons b rest =>
        have hstop := List.head_dropWhile_not (fun b => b ≠ 63 && b ≠ 35) (l := text)
          (by rw [hdrop]; exact List.cons_ne_nil _ _)
        simp only [hdrop, List.head_cons] at hstop
        refine Or.inr ⟨b, rest, rfl, ?_⟩
        by_contra hne
        rw [not_or] at hne
        simp [hne.1, hne.2] at hstop
  · rintro ⟨hpath, behind, rfl, hbehind⟩
    unfold pathOf
    rw [List.takeWhile_append_of_pos (by simpa using hpath)]
    rcases hbehind with rfl | ⟨b, rest, rfl, hb⟩
    · simp
    · rcases hb with rfl | rfl <;> simp

/-- Drop the last segment of the output and the `/` before it. -/
def dropSegment (output : List UInt8) : List UInt8 :=
  ((output.reverse.dropWhile fun b => b ≠ 47).drop 1).reverse

/-- The loop of section 5.2.4.  Every round shortens the input, so its length
is enough fuel. -/
def removeDotSegmentsAux : Nat → List UInt8 → List UInt8 → List UInt8
  | 0, _, output => output
  | _ + 1, [], output => output
  -- A: `../` and `./`
  | fuel + 1, 46 :: 46 :: 47 :: input, output => removeDotSegmentsAux fuel input output
  | fuel + 1, 46 :: 47 :: input, output => removeDotSegmentsAux fuel input output
  -- B: `/./`, and `/.` at the end
  | fuel + 1, 47 :: 46 :: 47 :: input, output => removeDotSegmentsAux fuel (47 :: input) output
  | fuel + 1, [47, 46], output => removeDotSegmentsAux fuel [47] output
  -- C: `/../`, and `/..` at the end
  | fuel + 1, 47 :: 46 :: 46 :: 47 :: input, output =>
    removeDotSegmentsAux fuel (47 :: input) (dropSegment output)
  | fuel + 1, [47, 46, 46], output => removeDotSegmentsAux fuel [47] (dropSegment output)
  -- D: `.` and `..`
  | _ + 1, [46], output => output
  | _ + 1, [46, 46], output => output
  -- E: move one segment
  | fuel + 1, b :: input, output =>
    removeDotSegmentsAux fuel (input.dropWhile fun b => b ≠ 47)
      (output ++ b :: input.takeWhile fun b => b ≠ 47)

/-- `remove_dot_segments` of section 5.2.4. -/
def removeDotSegments (path : List UInt8) : List UInt8 :=
  removeDotSegmentsAux path.length path []

private theorem removeDotSegmentsAux_of_no_dot :
    ∀ (fuel : Nat) (input output : List UInt8), input.length ≤ fuel → (∀ b ∈ input, b ≠ 46) →
      removeDotSegmentsAux fuel input output = output ++ input := by
  intro fuel
  induction fuel with
  | zero =>
    intro input output hlen _
    rw [List.eq_nil_of_length_eq_zero (Nat.le_zero.1 hlen), List.append_nil]
    rfl
  | succ fuel ih =>
    intro input output hlen hdot
    cases input with
    | nil => simp [removeDotSegmentsAux]
    | cons b input =>
      have hmove : removeDotSegmentsAux (fuel + 1) (b :: input) output =
          removeDotSegmentsAux fuel (input.dropWhile fun b => b ≠ 47)
            (output ++ b :: input.takeWhile fun b => b ≠ 47) := by
        rw [removeDotSegmentsAux] <;> intros <;> simp_all
      have hdrop : (input.dropWhile fun b => b ≠ 47).length ≤ fuel := by
        have := (List.dropWhile_sublist (l := input) fun b => b ≠ 47).length_le
        rw [List.length_cons] at hlen
        omega
      rw [hmove, ih _ _ hdrop, List.append_assoc, List.cons_append,
        List.takeWhile_append_dropWhile]
      intro c hc
      exact hdot c (List.mem_cons_of_mem b ((List.dropWhile_sublist _).subset hc))

/-- A path without a dot has no dot segments. -/
theorem removeDotSegments_of_no_dot {path : List UInt8} (h : ∀ b ∈ path, b ≠ 46) :
    removeDotSegments path = path := by
  rw [removeDotSegments, removeDotSegmentsAux_of_no_dot _ _ _ (Nat.le_refl _) h, List.nil_append]

end Uri
