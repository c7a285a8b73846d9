import Mathlib.Init

/-!
# Server-sent events

A reader of an event stream, byte by byte.  A line ends with LF, CR or both.
A line with the field name `data` adds its value to the event that is being
read, and a blank line ends the event, if it has data.  Comments, which
begin with a colon, and other fields are ignored.

`last_event_iff` says when an event that is appended to a stream is the
last one that is read: the stream may have been cut anywhere.
-/

namespace Sse

abbrev Bytes := List UInt8

def colon : UInt8 := 58

/-- `data`. -/
def dataName : Bytes := [100, 97, 116, 97]

/-- What was read. -/
structure Reader where
  /-- the bytes of the line so far -/
  line : Bytes
  /-- the last byte was a CR -/
  afterCR : Bool
  /-- the data of the event so far -/
  data : List Bytes
  events : List Bytes
  deriving DecidableEq

def start : Reader where
  line := []
  afterCR := false
  data := []
  events := []

/-- The field name of a line. -/
def name (line : Bytes) : Bytes :=
  line.takeWhile (· ≠ colon)

/-- The value of a field, without one leading space. -/
def value (line : Bytes) : Bytes :=
  let rest := (line.dropWhile (· ≠ colon)).drop 1
  if rest.head? = some 32 then rest.drop 1 else rest

/-- The data of an event.  An LF follows every value but the last one. -/
def join (data : List Bytes) : Bytes :=
  (data.flatMap (· ++ [10])).dropLast

/-- The line ends. -/
def Reader.endLine (r : Reader) : Reader :=
  if r.line = [] then
    { line := []
      afterCR := false
      data := []
      events := if r.data = [] then r.events else r.events ++ [join r.data] }
  else
    { r with
      line := []
      afterCR := false
      data := if name r.line = dataName then r.data ++ [value r.line] else r.data }

def Reader.step (r : Reader) (b : UInt8) : Reader :=
  if b = 10 then
    if r.afterCR then { r with afterCR := false } else r.endLine
  else if b = 13 then { r.endLine with afterCR := true }
  else { r with line := r.line ++ [b], afterCR := false }

def Reader.read (r : Reader) (bytes : Bytes) : Reader :=
  bytes.foldl Reader.step r

/-- The data of the events of a stream.  An event that was not ended is none. -/
def events (bytes : Bytes) : List Bytes :=
  (start.read bytes).events

/-- The event with one line of data. -/
def event (text : Bytes) : Bytes :=
  dataName ++ [colon, 32] ++ text ++ [10, 10]

/-- No line ends in these bytes. -/
def OneLine (text : Bytes) : Prop :=
  ∀ b ∈ text, b ≠ 10 ∧ b ≠ 13

/-- Events of whole lines of data. -/
def WellFormed (bytes : Bytes) : Prop :=
  ∃ events : List (List Bytes), (∀ lines ∈ events, lines ≠ [] ∧ ∀ line ∈ lines, OneLine line) ∧
    bytes = events.flatMap fun lines =>
      (lines.flatMap fun line => dataName ++ [colon, 32] ++ line ++ [10]) ++ [10]

variable {r : Reader} {line text : Bytes}

theorem endLine_blank (h : r.line = []) :
    r.endLine =
      { line := []
        afterCR := false
        data := []
        events := if r.data = [] then r.events else r.events ++ [join r.data] } := by
  rw [Reader.endLine, if_pos h]

theorem endLine_field (h : r.line ≠ []) :
    r.endLine =
      { r with
        line := []
        afterCR := false
        data := if name r.line = dataName then r.data ++ [value r.line] else r.data } := by
  rw [Reader.endLine, if_neg h]

theorem join_append (data : List Bytes) (text : Bytes) :
    join (data ++ [text]) = data.flatMap (· ++ [10]) ++ text := by
  unfold join
  rw [List.flatMap_append, List.flatMap_singleton, ← List.append_assoc, List.dropLast_concat]

/-- Data before a text makes the event longer. -/
theorem join_eq_iff {data : List Bytes} : join (data ++ [text]) = text ↔ data = [] := by
  rw [join_append]
  constructor
  · intro h
    have hnil : data.flatMap (· ++ [10]) = [] := List.append_left_eq_self.1 h
    cases data with
    | nil => rfl
    | cons first rest => simp at hnil
  · rintro rfl
    rfl

theorem read_append (bytes more : Bytes) : r.read (bytes ++ more) = (r.read bytes).read more :=
  List.foldl_append

/-- Bytes of one line are added to the line. -/
theorem read_oneLine (h : OneLine text) (hne : text ≠ []) :
    r.read text = { r with line := r.line ++ text, afterCR := false } := by
  induction text generalizing r with
  | nil => exact absurd rfl hne
  | cons b rest ih =>
    have hb := h b (List.mem_cons_self ..)
    have hstep : r.step b = { r with line := r.line ++ [b], afterCR := false } := by
      unfold Reader.step
      rw [if_neg hb.1, if_neg hb.2]
    show (r.step b).read rest = _
    rw [hstep]
    cases rest with
    | nil => rfl
    | cons c rest =>
      rw [ih (fun d hd => h d (List.mem_cons_of_mem b hd)) (by simp)]
      simp

/-- A line that ends, and a blank line behind it. -/
theorem read_block (h : OneLine text) (hne : text ≠ []) :
    r.read (text ++ [10, 10]) =
      ({ r with line := r.line ++ text, afterCR := false } : Reader).endLine.endLine := by
  have hcr : ∀ r : Reader, r.endLine.afterCR = false := by
    intro r
    unfold Reader.endLine
    split <;> rfl
  have hlf : ∀ r : Reader, r.afterCR = false → r.step 10 = r.endLine := by
    intro r hr
    simp [Reader.step, hr]
  rw [read_append, read_oneLine h hne]
  show (Reader.step _ 10).step 10 = _
  rw [hlf { r with line := r.line ++ text, afterCR := false } rfl, hlf _ (hcr _)]

/-! ## An event behind a stream that was cut -/

/-- The reader is between two events. -/
def Reader.Between (r : Reader) : Prop :=
  r.line = [] ∧ r.data = []

/-- The line that is being read is a field of data, whatever follows. -/
def Reader.InData (r : Reader) : Prop :=
  dataName ++ [colon] <+: r.line

/-- What a blank line would leave as the last event. -/
def Reader.lastEvent (r : Reader) : Option Bytes :=
  if r.data = [] then r.events.getLast? else some (join r.data)

/-- The name of the field of data goes up to its colon. -/
theorem dataName_before_colon : ∀ b ∈ dataName, decide (b ≠ colon) = true :=
  List.all_eq_true.1 (by decide)

/-- Text behind the beginning of a line leaves its field name, when it has one. -/
theorem name_append (hne : line ≠ []) :
    name (line ++ (dataName ++ colon :: text)) = dataName ↔ dataName ++ [colon] <+: line := by
  unfold name
  constructor
  · intro h
    by_cases hcolon : colon ∈ line
    · obtain ⟨before, behind, hline, hbefore⟩ := List.eq_append_cons_of_mem hcolon
      have htake : (line ++ (dataName ++ colon :: text)).takeWhile (· ≠ colon) = before := by
        rw [hline, List.append_assoc, List.takeWhile_append_of_pos]
        · simp
        · intro b hb
          rw [decide_eq_true_eq]
          rintro rfl
          exact hbefore hb
      rw [htake] at h
      rw [hline, h]
      exact ⟨behind, by simp⟩
    · -- the field name goes on into the text
      have htake : (line ++ (dataName ++ colon :: text)).takeWhile (· ≠ colon) =
          line ++ dataName := by
        rw [List.takeWhile_append_of_pos, List.takeWhile_append_of_pos]
        · simp
        · exact dataName_before_colon
        · intro b hb
          rw [decide_eq_true_eq]
          rintro rfl
          exact hcolon hb
      rw [htake] at h
      exact absurd (List.append_left_eq_self.1 h) hne
  · rintro ⟨behind, rfl⟩
    rw [List.append_assoc, List.append_assoc, List.takeWhile_append_of_pos dataName_before_colon]
    simp

/-- The value of a field that was begun ends with what follows. -/
theorem value_append (h : dataName ++ [colon] <+: line) (htext : text.head? ≠ some 32) :
    ∃ before, value (line ++ text) = before ++ text := by
  obtain ⟨begun, rfl⟩ := h
  unfold value
  have hrest : ((dataName ++ [colon] ++ begun ++ text).dropWhile (· ≠ colon)).drop 1 =
      begun ++ text := by
    rw [List.append_assoc, List.append_assoc, List.dropWhile_append_of_pos dataName_before_colon]
    simp
  rw [hrest]
  dsimp only
  cases begun with
  | nil => exact ⟨[], by rw [List.nil_append, if_neg htext]⟩
  | cons b rest =>
    split
    · exact ⟨rest, rfl⟩
    · exact ⟨b :: rest, rfl⟩

/-- An event that is appended to a stream is read as its last event if the stream ends
between two events.  Otherwise the event is lost in the line that was begun.  It is still
the last one when this line is no data and the stream's own last event has the same data. -/
theorem last_event_iff (h : OneLine text) :
    ((r.read (event text)).events.getLast? = some text) ↔
      r.Between ∨ (r.line ≠ [] ∧ ¬ r.InData ∧ r.lastEvent = some text) := by
  have hline : OneLine (dataName ++ [colon, 32] ++ text) := by
    intro b hb
    rcases List.mem_append.1 hb with hb | hb
    · constructor
      · rintro rfl
        exact absurd hb (by decide)
      · rintro rfl
        exact absurd hb (by decide)
    · exact h b hb
  unfold event
  rw [read_block hline (by simp [dataName])]
  have hfield : r.line ++ (dataName ++ [colon, 32] ++ text) ≠ [] := by simp [dataName]
  rw [endLine_field (r := { r with
    line := r.line ++ (dataName ++ [colon, 32] ++ text), afterCR := false }) hfield,
    endLine_blank rfl]
  dsimp only
  by_cases hblank : r.line = []
  · -- the event has a line of its own
    have hname : name (dataName ++ [colon, 32] ++ text) = dataName := by
      unfold name
      rw [List.append_assoc, List.takeWhile_append_of_pos dataName_before_colon]
      simp
    have hvalue : value (dataName ++ [colon, 32] ++ text) = text := by
      unfold value
      rw [List.append_assoc, List.dropWhile_append_of_pos dataName_before_colon]
      simp
    rw [hblank, List.nil_append, if_pos hname, hvalue, if_neg (by simp), List.getLast?_concat,
      Option.some.injEq, join_eq_iff]
    simp [Reader.Between, hblank]
  · have hnot : ¬ r.Between := fun hbetween => hblank hbetween.1
    have hname := @name_append r.line (32 :: text) hblank
    have hsame : dataName ++ colon :: 32 :: text = dataName ++ [colon, 32] ++ text := by simp
    rw [hsame] at hname
    by_cases hdata : r.InData
    · -- the value is longer than the text
      obtain ⟨before, hvalue⟩ := @value_append r.line (dataName ++ [colon, 32] ++ text) hdata
        (by simp [dataName])
      rw [if_pos (hname.2 hdata), if_neg (by simp), List.getLast?_concat, Option.some.injEq,
        join_append, hvalue]
      constructor
      · intro heq
        have hlength := congrArg List.length heq
        simp only [List.length_append, dataName, List.length_cons, List.length_nil] at hlength
        omega
      · rintro (hbetween | ⟨-, hnotdata, -⟩)
        · exact absurd hbetween hnot
        · exact absurd hdata hnotdata
    · rw [if_neg fun hn => hdata (hname.1 hn)]
      unfold Reader.lastEvent
      split
      · simp [hnot, hblank, hdata]
      · simp [hnot, hblank, hdata]

end Sse
