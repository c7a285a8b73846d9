import OpendssGateway.Gateway.Dumps
import OpendssGateway.Gateway.Email
import OpendssGateway.Gateway.StreamMeter
import OpendssGateway.Library.Sse

/-!
# A stream whose worker is lost

When the worker's connection fails, `gen()` appends an error event to what
it has passed on.  The bytes of the worker may end anywhere.  If they end
inside a line, the error event is read as the rest of this line, and if
they end behind a line of data, as more data of the worker's event.

`dropped_event_iff` says for which bytes the caller reads the error.
-/

namespace OpendssGateway

/-- The object of an error event. -/
def errorObject (rt : Runtime) (message : String) : PyStr :=
  (Json.obj [(py "type", .str (py "error")), (py "message", .str (py message))]).dumps rt spaced

/-- `str.encode` of ASCII. -/
def encode (text : PyStr) : Bytes :=
  text.map Nat.toUInt8

/-- `_sse_error`. -/
def sseError (rt : Runtime) (message : String) : Bytes :=
  ascii "data: " ++ encode (errorObject rt message) ++ ascii "\n\n"

/-- The bytes of an item. -/
def Item.bytes (rt : Runtime) : Item → Bytes
  | .comment text => ascii ": " ++ ascii text ++ ascii "\n\n"
  | .error message => sseError rt message
  | .raw chunk => chunk

/-- The bytes that the caller receives. -/
def Gen.text (rt : Runtime) (g : Gen) : Bytes :=
  g.output.flatMap (Item.bytes rt)

theorem printable_errorObject (rt : Runtime) (message : String) :
    ∀ c ∈ errorObject rt message, Printable c := by
  have hkeys : ∀ c ∈ py "\x7b" ++ dumpsStr (py "type") ++ py ": " ++ dumpsStr (py "error") ++
      py ", " ++ dumpsStr (py "message") ++ py ": ", Printable c := by
    unfold Printable
    decide +kernel
  have hobject : errorObject rt message =
      (py "\x7b" ++ dumpsStr (py "type") ++ py ": " ++ dumpsStr (py "error") ++
        py ", " ++ dumpsStr (py "message") ++ py ": ") ++ dumpsStr (py message) ++ py "\x7d" := by
    simp [errorObject, Json.dumps, dumpsMembers, spaced, List.intercalate, List.intersperse]
  intro c hc
  rw [hobject] at hc
  rcases List.mem_append.1 hc with hc | hc
  · rcases List.mem_append.1 hc with hc | hc
    · exact hkeys c hc
    · exact printable_dumpsStr _ c hc
  · have hclose : ∀ d ∈ py "\x7d", Printable d := by
      unfold Printable
      decide
    exact hclose c hc

/-- The error object is one line. -/
theorem oneLine_errorObject (rt : Runtime) (message : String) :
    Sse.OneLine (encode (errorObject rt message)) := by
  intro b hb
  obtain ⟨c, hc, rfl⟩ := List.mem_map.1 hb
  obtain ⟨hlow, hhigh⟩ := printable_errorObject rt message c hc
  have hnat : c.toUInt8.toNat = c := by
    rw [UInt8.toNat_ofNat']
    omega
  constructor
  · intro heq
    rw [heq] at hnat
    have h10 : (10 : UInt8).toNat = 10 := rfl
    omega
  · intro heq
    rw [heq] at hnat
    have h13 : (13 : UInt8).toNat = 13 := rfl
    omega

theorem sseError_eq (rt : Runtime) (message : String) :
    sseError rt message = Sse.event (encode (errorObject rt message)) := by
  have hdata : ascii "data: " = Sse.dataName ++ [Sse.colon, 32] := by decide
  have hend : ascii "\n\n" = [10, 10] := by decide
  unfold sseError Sse.event
  rw [hdata, hend]

namespace Stream

variable {cfg : SchedulerConfig} {call : StreamCall} {s : Stream} {rt : Runtime}

/-- The comments of the gateway are no event. -/
theorem read_comments {comments : List String}
    (h : ∀ text ∈ comments, text = "open" ∨ text = "queued") :
    Sse.start.read ((comments.map Item.comment).flatMap (Item.bytes rt)) = Sse.start := by
  induction comments with
  | nil => rfl
  | cons text comments ih =>
    have hcomment : Sse.start.read (Item.bytes rt (.comment text)) = Sse.start := by
      show Sse.start.read (ascii ": " ++ ascii text ++ ascii "\n\n") = Sse.start
      rcases h text (List.mem_cons_self ..) with rfl | rfl <;> decide +kernel
    rw [List.map_cons, List.flatMap_cons, Sse.read_append, hcomment]
    exact ih fun text' htext => h text' (List.mem_cons_of_mem text htext)

/-- Chunks and comments are read as the bytes of the worker. -/
theorem read_passed {output : List Item} (h : Passed output) :
    Sse.start.read (output.flatMap (Item.bytes rt)) =
      Sse.start.read (output.flatMap Item.payload) := by
  obtain ⟨comments, chunks, rfl, hcomments⟩ := h
  have hnone : (comments.map Item.comment).flatMap Item.payload = [] := by
    rw [List.flatMap_map]
    simp [Item.payload]
  rw [List.flatMap_append, List.flatMap_append, Sse.read_append, read_comments hcomments, hnone,
    List.nil_append]
  congr 1
  rw [List.flatMap_map, List.flatMap_map]
  rfl

/-- The worker's connection failed.  The last event that the caller reads is the error
object, exactly when the bytes of the worker end between two events, or in a line that is
no data when the last event before it is this very object. -/
theorem dropped_event_iff (rt : Runtime) (h : (machine cfg call).Reachable s)
    (hstatus : s.gen.status = "upstream-error") :
    (Sse.events (s.gen.text rt)).getLast? = some (encode (errorObject rt droppedText)) ↔
      (Sse.start.read s.gen.received).Between ∨
      ((Sse.start.read s.gen.received).line ≠ [] ∧ ¬ (Sse.start.read s.gen.received).InData ∧
        (Sse.start.read s.gen.received).lastEvent =
          some (encode (errorObject rt droppedText))) := by
  obtain ⟨-, output, houtput, hpassed⟩ := (reachable_piped h).dropped hstatus
  have hreceived : s.gen.received = output.flatMap Item.payload := by
    unfold Gen.received
    rw [houtput, List.flatMap_append]
    simp [Item.payload]
  have htext : s.gen.text rt = output.flatMap (Item.bytes rt) ++
      Sse.event (encode (errorObject rt droppedText)) := by
    unfold Gen.text
    rw [houtput, List.flatMap_append, ← sseError_eq]
    simp [Item.bytes]
  unfold Sse.events
  rw [htext, Sse.read_append, read_passed hpassed, ← hreceived]
  exact Sse.last_event_iff (oneLine_errorObject rt droppedText)

/-- The worker is free at once, sends these chunks and is lost. -/
def lostRun (chunks : List Bytes) : List StreamAction :=
  [.gen .next, .gen .next, .start, .gen .wake, .gen (.response 200)] ++
    chunks.flatMap (fun bytes => [.gen (.chunk bytes), .gen .next]) ++
    [.gen .httpError, .gen .next, .gen .closed]

def lost (chunks : List Bytes) : Stream :=
  ((machine smallConfig guestStream).run (init smallConfig) (lostRun chunks)).getD
    (init smallConfig)

theorem lost_reachable (chunks : List Bytes)
    (h : ((machine smallConfig guestStream).run (init smallConfig)
      (lostRun chunks)).isSome = true) :
    (machine smallConfig guestStream).Reachable (lost chunks) := by
  have hrun : (machine smallConfig guestStream).run (init smallConfig) (lostRun chunks) =
      some (lost chunks) := by
    unfold lost
    exact Transition.eq_some_getD (init smallConfig) h
  exact Transition.Machine.reachable_of_run hrun

/-- The worker is lost behind its first event. -/
def lostBetween : Stream :=
  lost [ascii "data: \x7b\"type\"", ascii ": \"step\"\x7d\n\n"]

theorem dropped_event_iff_lostBetween :
    (Sse.events (lostBetween.gen.text plainRuntime)).getLast? =
      some (encode (errorObject plainRuntime droppedText)) := by
  have hreachable : (machine smallConfig guestStream).Reachable lostBetween :=
    lost_reachable _ (by decide +kernel)
  refine (dropped_event_iff plainRuntime hreachable (by decide +kernel)).2 (Or.inl ?_)
  unfold Sse.Reader.Between
  decide +kernel

/-- The worker is lost inside its first event. -/
def lostInside : Stream :=
  lost [ascii "data: \x7b\"type\"", ascii ": \"step\""]

/-- The error event is read as the end of the event that was cut. -/
theorem cut_event_swallows_error :
    ¬ ∀ (rt : Runtime) (cfg : SchedulerConfig) (call : StreamCall) (s : Stream),
      (machine cfg call).Reachable s → s.gen.status = "upstream-error" →
      s.gen.upstream = some 200 → (∃ rest, Sse.WellFormed (s.gen.received ++ rest)) →
      (Sse.events (s.gen.text rt)).getLast? = some (encode (errorObject rt droppedText)) := by
  intro hclaim
  have hreachable : (machine smallConfig guestStream).Reachable lostInside :=
    lost_reachable _ (by decide +kernel)
  have hwellFormed : Sse.WellFormed (lostInside.gen.received ++ ascii "\x7d\n\n") := by
    refine ⟨[[ascii "\x7b\"type\": \"step\"\x7d"]], ?_, by decide +kernel⟩
    unfold Sse.OneLine
    decide +kernel
  have hlast := hclaim plainRuntime _ _ lostInside hreachable (by decide +kernel)
    (by decide +kernel) ⟨_, hwellFormed⟩
  have hother : ¬ (Sse.events (lostInside.gen.text plainRuntime)).getLast? =
      some (encode (errorObject plainRuntime droppedText)) := by decide +kernel
  exact hother hlast

end Stream

end OpendssGateway
