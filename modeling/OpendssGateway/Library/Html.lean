import Mathlib.Data.List.Basic

/-!
# HTML with values in it

A tokenizer for a part of HTML, and templates whose values are escaped.

The part has a doctype, tags with double-quoted attributes, a title, a style
sheet and a few character references.  The tokenizer fails on everything else,
and on what it reads it agrees with the one of the standard, but for newlines
and NULs, which it leaves as they are.

A template is read as it is written: a value in it is one symbol, and belongs
to the text or the attribute that it stands in.

* `run_subst`: the tokenizer does not look at the symbols that stand for values.
* `inserts_escape`: an escaped text is read back wherever characters are data.
* `read_render`: a template that is read and the text that it is rendered as have the
  same tokens, with each value in the place of its symbol.
-/

namespace Html

/-! ## Symbols and tokens -/

/-- A code point of the markup, or a value that stands there. -/
inductive Sym (ι : Type*)
  | char (c : Nat)
  | hole (v : ι)
deriving DecidableEq

abbrev Name := List Nat

abbrev Attrs (ι : Type*) := List (Name × List (Sym ι))

inductive Token (ι : Type*)
  | doctype
  | text (s : Sym ι)
  | start (name : Name) (attrs : Attrs ι)
  | fin (name : Name)
deriving DecidableEq

/-- Where characters are data: between tags, in a title, and in the value of an attribute. -/
inductive Place (ι : Type*)
  | body
  | title
  | value (name : Name) (attrs : Attrs ι) (attr : Name) (value : List (Sym ι))

inductive State (ι : Type*)
  | here (place : Place ι)
  /-- After `&`. -/
  | reference (place : Place ι) (seen : Name)
  /-- After `<`. -/
  | tagOpen
  /-- After `</`. -/
  | endTagOpen
  | tagName (name : Name)
  | endName (name : Name)
  | beforeAttr (name : Name) (attrs : Attrs ι)
  | attrName (name : Name) (attrs : Attrs ι) (attr : Name)
  /-- After `=`. -/
  | beforeValue (name : Name) (attrs : Attrs ι) (attr : Name)
  | afterValue (name : Name) (attrs : Attrs ι)
  /-- In `<!doctype html>`. -/
  | markup (left : Name)
  | style
  /-- In the end tag of a title or a style sheet. -/
  | closing (name left : Name)

/-! ## The tokenizer -/

/-- The code points of a text that is written as characters. -/
def spelled (text : List Char) : Name :=
  text.map Char.toNat

def isLetter (c : Nat) : Bool :=
  97 ≤ c && c ≤ 122

def isDigit (c : Nat) : Bool :=
  48 ≤ c && c ≤ 57

def isBlank (c : Nat) : Bool :=
  c == 32 || c == 10

def REFERENCES : List (Name × Nat) :=
  [(spelled ['a', 'm', 'p'], 38), (spelled ['l', 't'], 60), (spelled ['g', 't'], 62),
    (spelled ['q', 'u', 'o', 't'], 34), (spelled ['#', 'x', '2', '7'], 39),
    (spelled ['l', 'a', 'r', 'r'], 0x2190)]

/-- Elements after whose start tag the standard reads on in another way. -/
def REFUSED : List Name :=
  [spelled ['s', 'c', 'r', 'i', 'p', 't'], spelled ['t', 'e', 'x', 't', 'a', 'r', 'e', 'a'],
    spelled ['x', 'm', 'p'], spelled ['i', 'f', 'r', 'a', 'm', 'e'],
    spelled ['n', 'o', 'e', 'm', 'b', 'e', 'd'], spelled ['n', 'o', 'f', 'r', 'a', 'm', 'e', 's'],
    spelled ['n', 'o', 's', 'c', 'r', 'i', 'p', 't'],
    spelled ['p', 'l', 'a', 'i', 'n', 't', 'e', 'x', 't'], spelled ['s', 'v', 'g'],
    spelled ['m', 'a', 't', 'h']]

def TITLE : Name :=
  spelled ['t', 'i', 't', 'l', 'e']

def STYLE : Name :=
  spelled ['s', 't', 'y', 'l', 'e']

def DOCTYPE : Name :=
  spelled ['d', 'o', 'c', 't', 'y', 'p', 'e', ' ', 'h', 't', 'm', 'l', '>']

section Tokenizer

variable {ι : Type*}

/-- A symbol is data. -/
def Place.put (p : Place ι) (s : Sym ι) : State ι × List (Token ι) :=
  match p with
  | .body => (.here .body, [.text s])
  | .title => (.here .title, [.text s])
  | .value name attrs attr seen => (.here (.value name attrs attr (seen ++ [s])), [])

/-- A start tag ends. -/
def opened (name : Name) (attrs : Attrs ι) : Option (State ι × List (Token ι)) :=
  if name = TITLE then some (.here .title, [.start name attrs])
  else if name = STYLE then some (.style, [.start name attrs])
  else if REFUSED.contains name then none
  else some (.here .body, [.start name attrs])

/-- The name of an attribute ends.  It is not there yet. -/
def fresh (attrs : Attrs ι) (attr : Name) : Bool :=
  attrs.all fun other => other.1 != attr

def stepChar (st : State ι) (c : Nat) : Option (State ι × List (Token ι)) :=
  match st with
  | .here p =>
    if c = 38 then some (.reference p [], [])
    else
      match p with
      | .body => if c = 60 then some (.tagOpen, []) else some (Place.put .body (.char c))
      | .title =>
        if c = 60 then some (.closing TITLE (47 :: TITLE ++ [62]), [])
        else some (Place.put .title (.char c))
      | .value name attrs attr value =>
        if c = 34 then some (.afterValue name (attrs ++ [(attr, value)]), [])
        else some (Place.put (.value name attrs attr value) (.char c))
  | .reference p seen =>
    if c = 59 then (REFERENCES.lookup seen).map fun d => p.put (.char d)
    else if isLetter c || isDigit c || c == 35 then some (.reference p (seen ++ [c]), [])
    else none
  | .tagOpen =>
    if c = 33 then some (.markup DOCTYPE, [])
    else if c = 47 then some (.endTagOpen, [])
    else if isLetter c then some (.tagName [c], [])
    else none
  | .endTagOpen => if isLetter c then some (.endName [c], []) else none
  | .tagName name =>
    if c = 62 then opened name []
    else if isBlank c then some (.beforeAttr name [], [])
    else if isLetter c || isDigit c then some (.tagName (name ++ [c]), [])
    else none
  | .endName name =>
    if c = 62 then some (.here .body, [.fin name])
    else if isLetter c || isDigit c then some (.endName (name ++ [c]), [])
    else none
  | .beforeAttr name attrs =>
    if c = 62 then opened name attrs
    else if isBlank c then some (.beforeAttr name attrs, [])
    else if isLetter c then some (.attrName name attrs [c], [])
    else none
  | .attrName name attrs attr =>
    if c = 61 then if fresh attrs attr then some (.beforeValue name attrs attr, []) else none
    else if c = 62 then if fresh attrs attr then opened name (attrs ++ [(attr, [])]) else none
    else if isBlank c then
      if fresh attrs attr then some (.beforeAttr name (attrs ++ [(attr, [])]), []) else none
    else if isLetter c || isDigit c || c == 45 then some (.attrName name attrs (attr ++ [c]), [])
    else none
  | .beforeValue name attrs attr =>
    if c = 34 then some (.here (.value name attrs attr []), []) else none
  | .afterValue name attrs =>
    if c = 62 then opened name attrs
    else if isBlank c then some (.beforeAttr name attrs, [])
    else none
  | .markup [] => none
  | .markup [d] => if c = d then some (.here .body, [.doctype]) else none
  | .markup (d :: left) => if c = d then some (.markup left, []) else none
  | .style =>
    if c = 60 then some (.closing STYLE (47 :: STYLE ++ [62]), [])
    else some (.style, [.text (.char c)])
  | .closing _ [] => none
  | .closing name [d] => if c = d then some (.here .body, [.fin name]) else none
  | .closing name (d :: left) => if c = d then some (.closing name left, []) else none

def step (st : State ι) : Sym ι → Option (State ι × List (Token ι))
  | .char c => stepChar st c
  | .hole v =>
    match st with
    | .here p => some (p.put (.hole v))
    | _ => none

def run (st : State ι) : List (Sym ι) → Option (State ι × List (Token ι))
  | [] => some (st, [])
  | s :: rest => (step st s).bind fun r => (run r.1 rest).map fun q => (q.1, r.2 ++ q.2)

/-- The tokens of a text that ends between tags. -/
def read (syms : List (Sym ι)) : Option (List (Token ι)) :=
  match run (.here .body) syms with
  | some (.here .body, tokens) => some tokens
  | _ => none

end Tokenizer

section Runs

variable {ι : Type*} {st st' : State ι}

theorem run_append (st : State ι) (xs ys : List (Sym ι)) :
    run st (xs ++ ys) =
      (run st xs).bind fun r => (run r.1 ys).map fun q => (q.1, r.2 ++ q.2) := by
  induction xs generalizing st with
  | nil =>
    show run st ys = (run st ys).map fun q => (q.1, [] ++ q.2)
    simp
  | cons s xs ih =>
    show (step st s).bind _ = ((step st s).bind _).bind _
    cases step st s with
    | none => rfl
    | some r =>
      show (run r.1 (xs ++ ys)).map _ = ((run r.1 xs).map _).bind _
      rw [ih]
      cases run r.1 xs with
      | none => rfl
      | some q =>
        show ((run q.1 ys).map _).map _ = (run q.1 ys).map _
        simp [Function.comp_def]

theorem run_append_of_eq_some {xs ys : List (Sym ι)} {ts us : List (Token ι)} {st'' : State ι}
    (hx : run st xs = some (st', ts)) (hy : run st' ys = some (st'', us)) :
    run st (xs ++ ys) = some (st'', ts ++ us) := by
  rw [run_append, hx]
  show (run st' ys).map _ = _
  rw [hy]
  rfl

theorem read_eq_some {syms : List (Sym ι)} {ts : List (Token ι)} :
    read syms = some ts ↔ run (.here .body) syms = some (.here .body, ts) := by
  unfold read
  constructor
  · intro h
    split at h
    · rename_i tokens hrun
      cases h
      exact hrun
    · cases h
  · intro h
    rw [h]

/-- What is read between tags is read one after the other. -/
theorem read_append {xs ys : List (Sym ι)} {ts us : List (Token ι)} (hx : read xs = some ts)
    (hy : read ys = some us) : read (xs ++ ys) = some (ts ++ us) := by
  rw [read_eq_some] at *
  exact run_append_of_eq_some hx hy

end Runs

/-! ## Values -/

section Subst

variable {ι κ : Type*} (σ : ι → List (Sym κ))

/-- A value is read as symbols. -/
def Sym.subst : Sym ι → List (Sym κ)
  | char c => [char c]
  | hole v => σ v

def Attrs.subst (attrs : Attrs ι) : Attrs κ :=
  attrs.map fun attr => (attr.1, attr.2.flatMap (Sym.subst σ))

def Token.subst : Token ι → List (Token κ)
  | doctype => [doctype]
  | text s => (s.subst σ).map text
  | start name attrs => [start name (Attrs.subst σ attrs)]
  | fin name => [fin name]

def Place.subst : Place ι → Place κ
  | .body => .body
  | .title => .title
  | .value name attrs attr seen =>
    .value name (Attrs.subst σ attrs) attr (seen.flatMap (Sym.subst σ))

def State.subst : State ι → State κ
  | here p => here (p.subst σ)
  | reference p seen => reference (p.subst σ) seen
  | tagOpen => tagOpen
  | endTagOpen => endTagOpen
  | tagName name => tagName name
  | endName name => endName name
  | beforeAttr name attrs => beforeAttr name (Attrs.subst σ attrs)
  | attrName name attrs attr => attrName name (Attrs.subst σ attrs) attr
  | beforeValue name attrs attr => beforeValue name (Attrs.subst σ attrs) attr
  | afterValue name attrs => afterValue name (Attrs.subst σ attrs)
  | markup left => markup left
  | style => style
  | closing name left => closing name left

/-- A step, read with the values. -/
def substStep (r : State ι × List (Token ι)) : State κ × List (Token κ) :=
  (r.1.subst σ, r.2.flatMap (Token.subst σ))

variable {σ}

theorem subst_chars (s : List Nat) :
    (s.map Sym.char).flatMap (Sym.subst σ) = s.map Sym.char := by
  rw [List.flatMap_map]
  exact List.map_eq_flatMap.symm

theorem Attrs.subst_append (attrs : Attrs ι) (attr : Name) (value : List (Sym ι)) :
    Attrs.subst σ (attrs ++ [(attr, value)]) =
      Attrs.subst σ attrs ++ [(attr, value.flatMap (Sym.subst σ))] :=
  List.map_append

theorem fresh_subst (attrs : Attrs ι) (attr : Name) :
    fresh (Attrs.subst σ attrs) attr = fresh attrs attr := by
  unfold fresh Attrs.subst
  rw [List.all_map]
  rfl

theorem put_subst_char (p : Place ι) (c : Nat) :
    (p.subst σ).put (.char c) = substStep σ (p.put (.char c)) := by
  cases p with
  | body | title => rfl
  | value name attrs attr value =>
    simp [Place.put, Place.subst, substStep, State.subst, Sym.subst]

theorem opened_subst (name : Name) (attrs : Attrs ι) :
    opened name (Attrs.subst σ attrs) = (opened name attrs).map (substStep σ) := by
  unfold opened
  split_ifs <;> rfl

/-- A character is read in the same way whatever the values before it are. -/
theorem stepChar_subst (st : State ι) (c : Nat) :
    stepChar (st.subst σ) c = (stepChar st c).map (substStep σ) := by
  cases st with
  | here p =>
    by_cases hc : c = 38
    · simp only [State.subst, stepChar, if_pos hc]
      rfl
    · have hput := put_subst_char (σ := σ) p c
      cases p with
      | body | title =>
        simp only [State.subst, Place.subst, stepChar, if_neg hc]
        split_ifs <;> rfl
      | value name attrs attr value =>
        simp only [State.subst, Place.subst, stepChar, if_neg hc] at hput ⊢
        split_ifs
        · simp [substStep, State.subst, Attrs.subst_append]
        · rw [hput]
          rfl
  | reference p seen =>
    simp only [State.subst, stepChar]
    split_ifs
    · cases REFERENCES.lookup seen with
      | none => rfl
      | some d => exact congrArg some (put_subst_char p d)
    · rfl
    · rfl
  | tagOpen | endTagOpen | endName | style | beforeValue =>
    simp only [State.subst, stepChar]
    split_ifs <;> rfl
  | tagName name =>
    simp only [State.subst, stepChar]
    split_ifs
    · exact opened_subst name []
    all_goals rfl
  | beforeAttr name attrs | afterValue name attrs =>
    simp only [State.subst, stepChar]
    split_ifs
    · exact opened_subst name attrs
    all_goals rfl
  | attrName name attrs attr =>
    have happend := Attrs.subst_append (σ := σ) attrs attr []
    simp only [State.subst, stepChar, fresh_subst]
    split_ifs
    · rfl
    · rfl
    · rw [← opened_subst, happend]
      rfl
    · rfl
    · simp only [Option.map_some, substStep, State.subst, happend]
      rfl
    all_goals rfl
  | markup left | closing name left =>
    match left with
    | [] => rfl
    | [d] =>
      simp only [State.subst, stepChar]
      split_ifs <;> rfl
    | d :: e :: left =>
      simp only [State.subst, stepChar]
      split_ifs <;> rfl

end Subst

/-! ## Texts that are inserted -/

section Inserts

variable {ι κ : Type*}

/-- Symbols are data, one after the other. -/
def Place.puts (p : Place ι) (l : List (Sym ι)) : State ι × List (Token ι) :=
  match p with
  | .body => (.here .body, l.map .text)
  | .title => (.here .title, l.map .text)
  | .value name attrs attr seen => (.here (.value name attrs attr (seen ++ l)), [])

/-- Wherever characters are data, the input is read as the symbols. -/
def Inserts (input symbols : List (Sym ι)) : Prop :=
  ∀ p : Place ι, run (.here p) input = some (p.puts symbols)

theorem Inserts.nil : Inserts ([] : List (Sym ι)) [] := by
  intro p
  cases p with
  | body | title => rfl
  | value name attrs attr seen => simp [run, Place.puts]

theorem Inserts.append {xs ys out out' : List (Sym ι)} (hx : Inserts xs out)
    (hy : Inserts ys out') : Inserts (xs ++ ys) (out ++ out') := by
  intro p
  have hxp := hx p
  cases p with
  | body =>
    rw [run_append_of_eq_some hxp (hy .body)]
    simp [Place.puts]
  | title =>
    rw [run_append_of_eq_some hxp (hy .title)]
    simp [Place.puts]
  | value name attrs attr seen =>
    rw [run_append_of_eq_some hxp (hy (.value name attrs attr (seen ++ out)))]
    simp [Place.puts]

theorem put_eq_puts (p : Place ι) (s : Sym ι) : p.put s = p.puts [s] := by
  cases p <;> rfl

theorem Inserts.hole (v : ι) : Inserts [.hole v] [.hole v] := by
  intro p
  show (step (.here p) (.hole v)).bind _ = _
  rw [step, put_eq_puts]
  cases p <;> rfl

/-- A value that is read as symbols, in the place of its symbol. -/
theorem run_subst {σ input : ι → List (Sym κ)} (hinput : ∀ v, Inserts (input v) (σ v))
    {st st' : State ι} {syms : List (Sym ι)} {ts : List (Token ι)}
    (h : run st syms = some (st', ts)) :
    run (st.subst σ) (syms.flatMap (Sym.subst input)) =
      some (st'.subst σ, ts.flatMap (Token.subst σ)) := by
  induction syms generalizing st ts with
  | nil =>
    cases h
    rfl
  | cons s rest ih =>
    obtain ⟨r, hstep, h⟩ := Option.bind_eq_some_iff.1 h
    obtain ⟨q, hrest, hq⟩ := Option.map_eq_some_iff.1 h
    cases hq
    have hfirst : run (st.subst σ) (s.subst input) = some (substStep σ r) := by
      cases s with
      | char c =>
        show (stepChar (st.subst σ) c).bind _ = _
        have hstep : stepChar st c = some r := hstep
        rw [stepChar_subst, hstep]
        simp [run]
      | hole v =>
        cases st with
        | here p =>
          cases hstep
          show run (.here (p.subst σ)) (input v) = _
          rw [hinput v]
          cases p with
          | body | title => simp [Place.puts, Place.put, Place.subst, substStep, State.subst,
              Token.subst, Sym.subst]
          | value name attrs attr seen =>
            simp [Place.puts, Place.put, Place.subst, substStep, State.subst, Sym.subst]
        | _ => cases hstep
    rw [List.flatMap_cons, List.flatMap_append]
    exact run_append_of_eq_some hfirst (ih hrest)

/-! ### Other values -/

/-- Another value at the same place. -/
def Sym.rename (f : ι → κ) : Sym ι → Sym κ
  | char c => char c
  | hole v => hole (f v)

/-- Which value it is does not matter. -/
theorem run_rename (f : ι → κ) (st : State ι) (syms : List (Sym ι)) :
    run (st.subst fun v => [.hole (f v)]) (syms.map (Sym.rename f)) =
      (run st syms).map (substStep fun v => [.hole (f v)]) := by
  induction syms generalizing st with
  | nil => rfl
  | cons s rest ih =>
    have hstep : step (st.subst fun v => [.hole (f v)]) (s.rename f) =
        (step st s).map (substStep fun v => [.hole (f v)]) := by
      cases s with
      | char c => exact stepChar_subst st c
      | hole v =>
        cases st with
        | here p =>
          cases p with
          | body | title => rfl
          | value name attrs attr seen =>
            simp [Sym.rename, State.subst, step, Place.subst, Place.put, substStep, Sym.subst]
        | _ => rfl
    show (step _ _).bind _ = ((step st s).bind _).map _
    rw [hstep]
    cases step st s with
    | none => rfl
    | some r =>
      show (run (r.1.subst _) (rest.map (Sym.rename f))).map _ = ((run r.1 rest).map _).map _
      rw [ih]
      cases run r.1 rest with
      | none => rfl
      | some q => simp [substStep]

theorem read_rename (f : ι → κ) (syms : List (Sym ι)) :
    read (syms.map (Sym.rename f)) =
      (read syms).map (List.flatMap (Token.subst fun v => [.hole (f v)])) := by
  have h := run_rename f (.here .body) syms
  unfold read
  change run (.here .body) _ = _ at h
  rw [h]
  cases run (.here .body) syms with
  | none => rfl
  | some r =>
    obtain ⟨st, ts⟩ := r
    cases st with
    | here p => cases p <;> rfl
    | _ => rfl

end Inserts

/-! ## Escaping -/

/-- `s.replace(c, text)`. -/
def replace (c : Nat) (text : List Char) (s : List Nat) : List Nat :=
  s.flatMap fun d => if d = c then spelled text else [d]

/-- `html.escape`. -/
def escape (s : List Nat) : List Nat :=
  replace 39 ['&', '#', 'x', '2', '7', ';'] <| replace 34 ['&', 'q', 'u', 'o', 't', ';'] <|
    replace 62 ['&', 'g', 't', ';'] <| replace 60 ['&', 'l', 't', ';'] <|
      replace 38 ['&', 'a', 'm', 'p', ';'] s

section Escape

variable {κ : Type*}

theorem replace_append (c : Nat) (text : List Char) (s t : List Nat) :
    replace c text (s ++ t) = replace c text s ++ replace c text t :=
  List.flatMap_append

theorem escape_cons (c : Nat) (s : List Nat) : escape (c :: s) = escape [c] ++ escape s := by
  show escape ([c] ++ s) = _
  simp only [escape, replace_append]

/-- No character of it is markup. -/
def Plain (s : List Nat) : Prop :=
  ∀ c ∈ s, c ≠ 34 ∧ c ≠ 38 ∧ c ≠ 60

theorem inserts_char {c : Nat} (h : c ≠ 34 ∧ c ≠ 38 ∧ c ≠ 60) :
    Inserts ([.char c] : List (Sym κ)) [.char c] := by
  intro p
  show (stepChar (.here p) c).bind _ = _
  simp only [stepChar, if_neg h.2.1]
  cases p with
  | body | title =>
    simp only [if_neg h.2.2]
    rfl
  | value name attrs attr seen =>
    simp only [if_neg h.1]
    rfl

theorem inserts_plain {s : List Nat} (h : Plain s) :
    Inserts (s.map .char : List (Sym κ)) (s.map .char) := by
  induction s with
  | nil => exact Inserts.nil
  | cons c s ih =>
    have hfirst := inserts_char (κ := κ) (h c List.mem_cons_self)
    exact hfirst.append (ih fun d hd => h d (List.mem_cons_of_mem c hd))

/-- A reference to a character. -/
theorem inserts_reference (name : List Char) {c : Nat}
    (hname : ∀ p : Place κ, run (.here p) ((spelled name).map .char) = some (p.put (.char c))) :
    Inserts ((spelled name).map .char : List (Sym κ)) [.char c] := by
  intro p
  rw [hname p, put_eq_puts]

theorem inserts_escape_char (c : Nat) :
    Inserts ((escape [c]).map .char : List (Sym κ)) [.char c] := by
  by_cases hamp : c = 38
  · subst hamp
    exact inserts_reference ['&', 'a', 'm', 'p', ';'] fun p => by cases p <;> rfl
  by_cases hlt : c = 60
  · subst hlt
    exact inserts_reference ['&', 'l', 't', ';'] fun p => by cases p <;> rfl
  by_cases hgt : c = 62
  · subst hgt
    exact inserts_reference ['&', 'g', 't', ';'] fun p => by cases p <;> rfl
  by_cases hquot : c = 34
  · subst hquot
    exact inserts_reference ['&', 'q', 'u', 'o', 't', ';'] fun p => by cases p <;> rfl
  by_cases hapos : c = 39
  · subst hapos
    exact inserts_reference ['&', '#', 'x', '2', '7', ';'] fun p => by cases p <;> rfl
  have hsame : escape [c] = [c] := by
    simp [escape, replace, hamp, hlt, hgt, hquot, hapos]
  rw [hsame]
  exact inserts_char ⟨hquot, hamp, hlt⟩

/-- An escaped text is read as the text. -/
theorem inserts_escape (s : List Nat) :
    Inserts ((escape s).map .char : List (Sym κ)) (s.map .char) := by
  induction s with
  | nil => exact Inserts.nil
  | cons c s ih =>
    rw [escape_cons, List.map_append]
    exact (inserts_escape_char c).append ih

end Escape

/-! ## Templates -/

def codes (s : String) : List Nat :=
  s.toList.map Char.toNat

/-- A part of a template. -/
inductive Piece (ι : Type*)
  | lit (s : String)
  | hole (v : ι)

abbrev Template (ι : Type*) := List (Piece ι)

/-- What stands in a template: a text that is escaped, or one without markup as it is. -/
inductive Value
  | escaped (s : List Nat)
  | plain (s : List Nat) (h : Plain s)

/-- The text that the value is written as. -/
def Value.html : Value → List Nat
  | escaped s => escape s
  | plain s _ => s

/-- The text that it is. -/
def Value.text : Value → List Nat
  | escaped s => s
  | plain s _ => s

def Value.syms (v : Value) : List (Sym Empty) :=
  v.text.map .char

section Templates

variable {ι κ : Type*}

def Piece.syms : Piece ι → List (Sym ι)
  | lit s => (codes s).map .char
  | hole v => [.hole v]

/-- A template, with each value as one symbol. -/
def syms (t : Template ι) : List (Sym ι) :=
  t.flatMap Piece.syms

def render (t : Template Value) : List Nat :=
  t.flatMap fun
    | .lit s => codes s
    | .hole v => v.html

/-- The tokens of a text. -/
def tokens (s : List Nat) : Option (List (Token Empty)) :=
  read (s.map .char)

theorem inserts_value (v : Value) : Inserts (v.html.map .char) v.syms := by
  cases v with
  | escaped s => exact inserts_escape s
  | plain s h => exact inserts_plain h

/-- A template is read as it is written: the text has the tokens of the template, with each value
in the place of its symbol. -/
theorem read_render {t : Template Value} {ts : List (Token Value)} (h : read (syms t) = some ts) :
    tokens (render t) = some (ts.flatMap (Token.subst Value.syms)) := by
  have hrender : (render t).map (.char : Nat → Sym Empty) =
      (syms t).flatMap (Sym.subst fun v => v.html.map .char) := by
    unfold render syms
    rw [List.map_flatMap, List.flatMap_assoc]
    congr 1
    funext piece
    cases piece with
    | lit s =>
      simp only [Piece.syms, List.flatMap_map, Sym.subst]
      exact List.map_eq_flatMap
    | hole v => simp [Piece.syms, Sym.subst]
  unfold tokens
  rw [hrender, read_eq_some]
  exact run_subst inserts_value (read_eq_some.1 h)

/-! ### Other values -/

def Piece.rename (f : ι → κ) : Piece ι → Piece κ
  | lit s => lit s
  | hole v => hole (f v)

theorem syms_rename (f : ι → κ) (t : Template ι) :
    syms (t.map (Piece.rename f)) = (syms t).map (Sym.rename f) := by
  unfold syms
  rw [List.flatMap_map, List.map_flatMap]
  congr 1
  funext piece
  cases piece with
  | lit s => simp [Piece.rename, Piece.syms, Sym.rename]
  | hole v => rfl

theorem syms_append (t u : Template ι) : syms (t ++ u) = syms t ++ syms u :=
  List.flatMap_append

end Templates

/-! ## Forms -/

section Forms

variable {ι κ : Type*}

def FORM : Name :=
  spelled ['f', 'o', 'r', 'm']

def INPUT : Name :=
  spelled ['i', 'n', 'p', 'u', 't']

def BUTTON : Name :=
  spelled ['b', 'u', 't', 't', 'o', 'n']

/-- What the forms of a document are made of. -/
inductive Control (ι : Type*)
  /-- The start of a form, a field or a button. -/
  | start (name : Name) (attrs : Attrs ι)
  | endForm
deriving DecidableEq

def controls (ts : List (Token ι)) : List (Control ι) :=
  ts.filterMap fun
    | .start name attrs =>
      if name = FORM ∨ name = INPUT ∨ name = BUTTON then some (.start name attrs) else none
    | .fin name => if name = FORM then some .endForm else none
    | _ => none

def Control.subst (σ : ι → List (Sym κ)) : Control ι → Control κ
  | start name attrs => start name (Attrs.subst σ attrs)
  | endForm => endForm

@[simp] theorem Control.subst_start (σ : ι → List (Sym κ)) (name : Name) (attrs : Attrs ι) :
    (Control.start name attrs).subst σ = .start name (Attrs.subst σ attrs) :=
  rfl

@[simp] theorem Control.subst_endForm (σ : ι → List (Sym κ)) :
    (Control.endForm : Control ι).subst σ = .endForm :=
  rfl

theorem controls_append (ts us : List (Token ι)) :
    controls (ts ++ us) = controls ts ++ controls us :=
  List.filterMap_append

theorem controls_subst (σ : ι → List (Sym κ)) (ts : List (Token ι)) :
    controls (ts.flatMap (Token.subst σ)) = (controls ts).map (Control.subst σ) := by
  induction ts with
  | nil => rfl
  | cons t ts ih =>
    rw [List.flatMap_cons, controls_append, ih]
    cases t with
    | doctype => rfl
    | fin name =>
      by_cases hname : name = FORM <;> simp [controls, Token.subst, Control.subst, hname]
    | text s =>
      have hnone : controls ((s.subst σ).map Token.text) = [] := by
        simp [controls]
      show controls ((s.subst σ).map Token.text) ++ _ = _
      rw [hnone]
      rfl
    | start name attrs =>
      by_cases hname : name = FORM ∨ name = INPUT ∨ name = BUTTON <;>
        simp [controls, Token.subst, Control.subst, hname]

/-- The template is read, from between tags to between tags, with the controls. -/
def Reads (t : Template ι) (cs : List (Control ι)) : Prop :=
  ∃ ts, read (syms t) = some ts ∧ controls ts = cs

/-- The controls of the text, with each value in the place of its symbol. -/
theorem Reads.render {t : Template Value} {cs : List (Control Value)} (h : Reads t cs) :
    ∃ us, tokens (render t) = some us ∧ controls us = cs.map (Control.subst Value.syms) := by
  obtain ⟨ts, hts, rfl⟩ := h
  exact ⟨_, read_render hts, controls_subst _ ts⟩

theorem Reads.nil : Reads ([] : Template ι) [] :=
  ⟨[], rfl, rfl⟩

theorem Reads.append {t u : Template ι} {cs ds : List (Control ι)} (ht : Reads t cs)
    (hu : Reads u ds) : Reads (t ++ u) (cs ++ ds) := by
  obtain ⟨ts, hts, rfl⟩ := ht
  obtain ⟨us, hus, rfl⟩ := hu
  refine ⟨ts ++ us, ?_, controls_append ts us⟩
  rw [syms_append]
  exact read_append hts hus

theorem Reads.append_plain {t u : Template ι} {cs : List (Control ι)} (ht : Reads t cs)
    (hu : Reads u []) : Reads (t ++ u) cs := by
  simpa using ht.append hu

theorem Reads.plain_append {t u : Template ι} {cs : List (Control ι)} (ht : Reads t [])
    (hu : Reads u cs) : Reads (t ++ u) cs :=
  ht.append hu

/-- A part for each element. -/
theorem Reads.flatMap {α : Type*} {l : List α} {f : α → Template ι}
    (h : ∀ a ∈ l, Reads (f a) []) : Reads (l.flatMap f) [] := by
  induction l with
  | nil => exact Reads.nil
  | cons a l ih =>
    rw [List.flatMap_cons]
    exact (h a List.mem_cons_self).append (ih fun b hb => h b (List.mem_cons_of_mem a hb))

theorem Reads.ite {p : Prop} [Decidable p] {t u : Template ι} {cs : List (Control ι)}
    (ht : p → Reads t cs) (hu : ¬ p → Reads u cs) : Reads (if p then t else u) cs := by
  split_ifs with hp
  · exact ht hp
  · exact hu hp

/-- How a template is read does not depend on its values. -/
theorem reads_rename {f : ι → κ} {t : Template ι} {ds : List (Control κ)} :
    Reads (t.map (Piece.rename f)) ds ↔
      ∃ cs, Reads t cs ∧ cs.map (Control.subst fun v => [.hole (f v)]) = ds := by
  unfold Reads
  rw [syms_rename, read_rename]
  constructor
  · rintro ⟨us, hus, rfl⟩
    obtain ⟨ts, hts, rfl⟩ := Option.map_eq_some_iff.1 hus
    exact ⟨controls ts, ⟨ts, hts, rfl⟩, (controls_subst _ ts).symm⟩
  · rintro ⟨_, ⟨ts, hts, rfl⟩, rfl⟩
    exact ⟨_, by rw [hts]; rfl, controls_subst _ ts⟩

/-! ### Evaluation -/

/-- The state after the symbols, and the controls on the way. -/
def scan (st : State ι) (seen : List (Control ι)) :
    List (Sym ι) → Option (State ι × List (Control ι))
  | [] => some (st, seen)
  | s :: rest =>
    match step st s with
    | none => none
    | some r =>
      match controls r.2 with
      | [] => scan r.1 seen rest
      | c :: cs => scan r.1 (seen ++ c :: cs) rest

theorem scan_eq (st : State ι) (seen : List (Control ι)) (l : List (Sym ι)) :
    scan st seen l = (run st l).map fun r => (r.1, seen ++ controls r.2) := by
  induction l generalizing st seen with
  | nil => simp [scan, run, controls]
  | cons s rest ih =>
    rw [scan]
    show _ = ((step st s).bind _).map _
    cases step st s with
    | none => rfl
    | some r =>
      have hscan : (match controls r.2 with
          | [] => scan r.1 seen rest
          | c :: cs => scan r.1 (seen ++ c :: cs) rest) =
            scan r.1 (seen ++ controls r.2) rest := by
        cases controls r.2 with
        | nil => rw [List.append_nil]
        | cons c cs => rfl
      show (match controls r.2 with | [] => _ | c :: cs => _) =
        ((run r.1 rest).map _).map _
      rw [hscan, ih, Option.map_map]
      simp [Function.comp_def, controls_append]

/-- The symbols end between tags, and have the controls. -/
def scans (l : List (Sym Unit)) (cs : List (Control Unit)) : Bool :=
  match scan (.here .body) [] l with
  | some (.here .body, seen) => seen == cs
  | _ => false

/-- The template has the symbols, but for its values.  Its texts are spelled out, so that the
symbols can be read by evaluation. -/
inductive Spells : Template ι → List (Sym Unit) → Prop
  | nil : Spells [] []
  | lit {s : String} {l : List Char} {t : Template ι} {rest : List (Sym Unit)} :
      s = String.ofList l → Spells t rest →
      Spells (.lit s :: t) ((spelled l).map .char ++ rest)
  | hole {v : ι} {t : Template ι} {rest : List (Sym Unit)} :
      Spells t rest → Spells (.hole v :: t) (.hole () :: rest)

theorem Spells.syms_eq {t : Template ι} {l : List (Sym Unit)} (h : Spells t l) :
    syms (t.map (Piece.rename fun _ => ())) = l := by
  rw [syms_rename]
  induction h with
  | nil => rfl
  | lit hs _ ih =>
    subst hs
    rw [← ih]
    simp [syms, Piece.syms, codes, spelled, Sym.rename]
  | hole _ ih =>
    rw [← ih]
    rfl

theorem Spells.reads_erased {t : Template ι} {l : List (Sym Unit)} {cs : List (Control Unit)}
    (h : Spells t l) (hl : scans l cs = true) :
    Reads (t.map (Piece.rename fun _ => ())) cs := by
  have hscan := scan_eq (.here .body) [] l
  unfold scans at hl
  split at hl
  · rename_i seen hseen
    rw [hseen] at hscan
    obtain ⟨r, hr, hst⟩ := Option.map_eq_some_iff.1 hscan.symm
    obtain ⟨hend, hcs⟩ := Prod.mk.inj hst
    refine ⟨r.2, ?_, hcs.trans (eq_of_beq hl)⟩
    rw [h.syms_eq, read_eq_some, hr, ← hend]
  · cases hl

theorem Spells.reads {t : Template ι} {l : List (Sym Unit)} (h : Spells t l)
    (hl : scans l [] = true) : Reads t [] := by
  obtain ⟨cs, hcs, hnil⟩ := reads_rename.1 (h.reads_erased hl)
  rw [List.map_eq_nil_iff.1 hnil] at hcs
  exact hcs

/-- Each value of the template is the same. -/
theorem Spells.reads_const {t : Template ι} {l : List (Sym Unit)} {cs : List (Control Unit)} {v : ι}
    (h : Spells t l) (hv : ∀ w, .hole w ∈ t → w = v) (hl : scans l cs = true) :
    Reads t (cs.map (Control.subst fun _ => [.hole v])) := by
  have hsame : (t.map (Piece.rename fun _ => ())).map (Piece.rename fun _ => v) = t := by
    rw [List.map_map]
    conv_rhs => rw [← List.map_id t]
    refine List.map_congr_left fun piece hpiece => ?_
    cases piece with
    | lit s => rfl
    | hole w => exact congrArg Piece.hole (hv w hpiece).symm
  have hreads : Reads ((t.map (Piece.rename fun _ => ())).map (Piece.rename fun _ => v))
      (cs.map (Control.subst fun _ => [.hole v])) :=
    reads_rename.2 ⟨cs, h.reads_erased hl, rfl⟩
  rwa [hsame] at hreads

end Forms

end Html
