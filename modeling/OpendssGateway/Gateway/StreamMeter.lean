import OpendssGateway.Gateway.MeterText
import OpendssGateway.Gateway.StreamCharge

/-!
# What a completed stream is charged

The raw bytes that a stream call passes on, and the window of them that it
searches for engine seconds.  `Piped` is the invariant: the window is the
end of what was received, whatever the chunks were, and what the caller
has got is comments, then the raw bytes, then at most one error.

`completed_is_metered` is the result.
-/

namespace OpendssGateway

/-- The bytes of the worker in an item. -/
def Item.payload : Item → Bytes
  | .raw chunk => chunk
  | _ => []

/-- The raw bytes that the generator has yielded. -/
def Gen.received (g : Gen) : Bytes :=
  g.output.flatMap Item.payload

/-- The generator has no worker yet. -/
def Point.early : Point → Bool
  | .unstarted | .opened | .waiting | .queued | .refused => true
  | _ => false

/-- The generator has yielded no error. -/
def Point.clean : Point → Bool
  | .unstarted | .opened | .waiting | .queued | .sending | .reading | .streaming | .chunk => true
  | _ => false

/-- The stream of the worker came to its end, and its seconds were looked for. -/
def Gen.Completed (g : Gen) : Prop :=
  g.upstream = some 200 ∧ g.status = "ok" ∧
    (g.point = .ended .returned ∨ g.point = .ended (.raised .valueError))

/-- The seconds of a completed stream with these last bytes, or none when `float` fails. -/
def tailSeconds (tail : Bytes) : List ℚ :=
  match Metering.lastText tail with
  | some text => (Metering.float text).toList
  | none => [0]

theorem tailSeconds_of_lastText {tail text : Bytes} (h : Metering.lastText tail = some text) :
    tailSeconds tail = (Metering.float text).toList := by
  unfold tailSeconds
  rw [h]

/-- The end of a list with more behind it needs only the end of the list. -/
theorem rtake_append_rtake {α : Type*} (n : Nat) (l more : List α) :
    (l.rtake n ++ more).rtake n = (l ++ more).rtake n := by
  unfold List.rtake
  by_cases h : l.length ≤ n
  · rw [Nat.sub_eq_zero_of_le h, List.drop_zero]
  · rw [← List.drop_append_of_le_length (Nat.sub_le _ _), List.drop_drop]
    congr 1
    simp only [List.length_drop, List.length_append]
    omega

theorem appendTail_rtake (received bytes : Bytes) :
    appendTail (received.rtake 65536) bytes = (received ++ bytes).rtake 65536 := by
  unfold appendTail
  rw [← rtake_append_rtake]
  rfl

namespace Stream

variable {cfg : SchedulerConfig} {call : StreamCall} {s s' : Stream}

/-- Comments of the gateway, then what the worker sent. -/
def Passed (output : List Item) : Prop :=
  ∃ (comments : List String) (chunks : List Bytes),
    output = comments.map Item.comment ++ chunks.map Item.raw ∧
      ∀ text ∈ comments, text = "open" ∨ text = "queued"

/-- Comments of the gateway. -/
def Greeted (output : List Item) : Prop :=
  ∃ comments : List String, output = comments.map Item.comment ∧
    ∀ text ∈ comments, text = "open" ∨ text = "queued"

/-- What a generator has passed on, keeps and has recorded. -/
structure Piped (g : Gen) : Prop where
  tail : g.tail = g.received.rtake 65536
  early : g.point.early = true → g.upstream = none ∧ g.received = []
  greeted : (g.point.early && g.point.clean) = true → Greeted g.output
  clean : g.point.clean = true → g.status = "ok" ∧ Passed g.output
  passed : g.status = "ok" → g.upstream.isSome = true → Passed g.output
  dropped : g.status = "upstream-error" → (g.point.leaving || g.point.isEnded) = true ∧
    ∃ output, g.output = output ++ [.error droppedText] ∧ Passed output
  records : g.point.isEnded = false → g.records = []
  closing : g.point ≠ .closing (.raised .valueError)
  ended : g.Completed → g.records.map Run.engineSeconds = tailSeconds g.tail ∧
    (g.point = .ended .returned ↔ tailSeconds g.tail ≠ [])

theorem piped_init : Piped initGen where
  tail := rfl
  early := fun _ => ⟨rfl, rfl⟩
  greeted := fun _ => ⟨[], rfl, by simp⟩
  clean := fun _ => ⟨rfl, [], [], rfl, by simp⟩
  passed := fun _ hsome => by cases hsome
  dropped := by simp [initGen]
  records := fun _ => rfl
  closing := by simp [initGen]
  ended := by simp [Gen.Completed, initGen]

/-- A step that only goes on to another point. -/
theorem Piped.move {g : Gen} {point : Point} (h : Piped g)
    (hearly : point.early = true → g.point.early = true)
    (hclean : point.clean = true → g.point.clean = true)
    (hdropped : g.status = "upstream-error" → (point.leaving || point.isEnded) = true)
    (hrecords : point.isEnded = false → g.point.isEnded = false)
    (hclosing : point ≠ .closing (.raised .valueError))
    (hended : ¬ ({ g with point := point } : Gen).Completed) :
    Piped { g with point := point } where
  tail := h.tail
  early := fun he => h.early (hearly he)
  greeted := fun hg => by
    rw [Bool.and_eq_true] at hg
    exact h.greeted (by rw [hearly hg.1, hclean hg.2]; rfl)
  clean := fun hc => h.clean (hclean hc)
  passed := h.passed
  dropped := fun hs => ⟨hdropped hs, (h.dropped hs).2⟩
  records := fun hr => h.records (hrecords hr)
  closing := hclosing
  ended := fun hc => absurd hc hended

/-- What the `finally` block leaves after `aclose`. -/
theorem settle_gen (outcome : Outcome) :
    ∃ records outcome', (s.settle cfg call outcome).gen =
        { s.gen with records := s.gen.records ++ records, point := .ended outcome' } ∧
      (s.gen.status = "ok" → records.map Run.engineSeconds = tailSeconds s.gen.tail ∧
        (outcome' = .raised .valueError ↔ outcome = .raised .valueError ∨
          tailSeconds s.gen.tail = [])) := by
  obtain ⟨l, hrelease⟩ := @releaseLease_eq cfg s
  unfold settle tailSeconds
  rw [hrelease]
  dsimp only
  cases Metering.lastText s.gen.tail with
  | none =>
    dsimp only
    refine ⟨[_], outcome, rfl, fun hstatus => ⟨?_, by simp⟩⟩
    simp [wallSeconds, hstatus]
  | some text =>
    dsimp only
    cases Metering.float text with
    | none => exact ⟨[], .raised .valueError, by simp [moveTo], fun _ => by simp⟩
    | some seconds => exact ⟨[_], outcome, rfl, fun _ => by simp⟩

/-- What the `finally` block finds. -/
structure Left (g : Gen) : Prop where
  tail : g.tail = g.received.rtake 65536
  passed : g.status = "ok" → g.upstream.isSome = true → Passed g.output
  dropped : g.status = "upstream-error" →
    ∃ output, g.output = output ++ [.error droppedText] ∧ Passed output
  records : g.records = []

theorem Piped.left {g : Gen} (h : Piped g) (hpoint : g.point.isEnded = false) : Left g where
  tail := h.tail
  passed := h.passed
  dropped := fun hs => (h.dropped hs).2
  records := h.records hpoint

theorem Left.setStatus {status : String} (h : Left s.gen)
    (hstatus : status ≠ "ok" ∧ status ≠ "upstream-error") : Left (s.setStatus status).gen where
  tail := h.tail
  passed := fun hs => absurd hs hstatus.1
  dropped := fun hs => absurd hs hstatus.2
  records := h.records

theorem piped_settle {outcome : Outcome} (h : Left s.gen)
    (hout : outcome ≠ .raised .valueError) : Piped (s.settle cfg call outcome).gen := by
  obtain ⟨records, outcome', hgen, hok⟩ := @settle_gen cfg call s outcome
  rw [hgen]
  refine ⟨h.tail, ?_, ?_, ?_, h.passed, ?_, ?_, ?_, ?_⟩
  · intro hearly
    cases hearly
  · intro hgreeted
    cases hgreeted
  · intro hclean
    cases hclean
  · exact fun hs => ⟨rfl, h.dropped hs⟩
  · intro hnot
    cases hnot
  · simp
  · rintro ⟨-, hstatus, hcases⟩
    obtain ⟨hseconds, hvalue⟩ := hok hstatus
    dsimp only
    rw [h.records, List.nil_append]
    refine ⟨hseconds, ?_⟩
    simp only [hout, false_or, Point.ended.injEq] at hvalue hcases ⊢
    rw [Ne, ← hvalue]
    rcases hcases with rfl | rfl <;> simp

/-- The `finally` block. -/
theorem piped_finish {outcome : Outcome} (h : Left s.gen)
    (hout : outcome ≠ .raised .valueError) : Piped (s.finish cfg call outcome).gen := by
  unfold finish
  split
  · refine ⟨h.tail, ?_, ?_, ?_, h.passed, fun hs => ⟨rfl, h.dropped hs⟩, fun _ => h.records, ?_,
      ?_⟩
    · intro hearly
      cases hearly
    · intro hgreeted
      cases hgreeted
    · intro hclean
      cases hclean
    · simp [moveTo, hout]
    · simp [Gen.Completed, moveTo]
  · exact piped_settle h hout

/-! ## One step -/

theorem Greeted.passed {output : List Item} (h : Greeted output) :
    Passed output ∧ output.flatMap Item.payload = [] := by
  obtain ⟨comments, rfl, hcomments⟩ := h
  refine ⟨⟨comments, [], by simp, hcomments⟩, ?_⟩
  induction comments with
  | nil => rfl
  | cons text comments ih =>
    exact ih fun text' htext => hcomments text' (List.mem_cons_of_mem text htext)

theorem Greeted.comment {output : List Item} {text : String} (h : Greeted output)
    (htext : text = "open" ∨ text = "queued") : Greeted (output ++ [Item.comment text]) := by
  obtain ⟨comments, rfl, hcomments⟩ := h
  refine ⟨comments ++ [text], by simp, fun text' hmem => ?_⟩
  rcases List.mem_append.1 hmem with hmem | hmem
  · exact hcomments text' hmem
  · rw [List.mem_singleton.1 hmem]
    exact htext

theorem Passed.raw {output : List Item} {chunk : Bytes} (h : Passed output) :
    Passed (output ++ [Item.raw chunk]) := by
  obtain ⟨comments, chunks, rfl, hcomments⟩ := h
  exact ⟨comments, chunks ++ [chunk], by simp, hcomments⟩

theorem Piped.task {g : Gen} (h : Piped g) (task : AcquireTask) : Piped { g with task := task } :=
  ⟨h.tail, h.early, h.greeted, h.clean, h.passed, h.dropped, h.records, h.closing, h.ended⟩

/-- Leaving without the `finally` block. -/
theorem Piped.quit {outcome : Outcome} (h : Piped s.gen)
    (hout : s.gen.upstream = none ∨ outcome ≠ .returned ∧ outcome ≠ .raised .valueError) :
    Piped (s.moveTo (.ended outcome)).gen := by
  refine h.move ?_ ?_ (fun _ => rfl) ?_ (by simp) ?_
  · intro he
    cases he
  · intro hc
    cases hc
  · intro hr
    cases hr
  · rintro ⟨hupstream, -, hcases⟩
    rcases hout with hnone | ⟨hreturned, hvalue⟩
    · have hupstream : s.gen.upstream = some 200 := hupstream
      rw [hnone] at hupstream
      cases hupstream
    · simp [hreturned, hvalue] at hcases

/-- A step at which the generator has no worker and passes something on. -/
theorem piped_yield {item : Item} {point : Point} (h : Piped s.gen)
    (hpoint : (s.gen.point.early && s.gen.point.clean) = true) (hitem : item.payload = [])
    (hearly : point.early = true)
    (hgreeted : point.clean = true → Greeted (s.gen.output ++ [item])) :
    Piped (s.yield item point).gen := by
  rw [Bool.and_eq_true] at hpoint
  have hstatus := (h.clean hpoint.2).1
  have hreceived : (s.yield item point).gen.received = s.gen.received := by
    simp [yield, Gen.received, hitem]
  have hended : point.isEnded = false ∧ (∀ outcome, point ≠ .closing outcome) ∧
      ∀ outcome, point ≠ .ended outcome := by
    cases point <;> simp_all [Point.early, Point.isEnded]
  refine ⟨?_, fun _ => ?_, fun hg => ?_, fun hc => ?_, fun _ hsome => ?_, fun hs => ?_,
    fun _ => ?_, hended.2.1 _, ?_⟩
  · rw [hreceived]
    exact h.tail
  · rw [hreceived]
    exact h.early hpoint.1
  · rw [Bool.and_eq_true] at hg
    exact hgreeted hg.2
  · exact ⟨hstatus, (hgreeted hc).passed.1⟩
  · have hsome : s.gen.upstream.isSome = true := hsome
    rw [(h.early hpoint.1).1] at hsome
    cases hsome
  · have hs : s.gen.status = "upstream-error" := hs
    rw [hstatus] at hs
    exact absurd hs (by decide)
  · apply h.records
    cases hp : s.gen.point <;> simp_all [Point.clean, Point.isEnded]
  · rintro ⟨-, -, hcases⟩
    rcases hcases with hp | hp <;> exact absurd hp (hended.2.2 _)

/-- A step that only goes on to another point, and neither enters nor leaves a part of the
generator that matters. -/
theorem Piped.goOn {point : Point} (h : Piped s.gen)
    (hclean : (s.gen.point.clean && point.clean) = true)
    (hearly : point.early = true → s.gen.point.early = true) : Piped (s.moveTo point).gen := by
  rw [Bool.and_eq_true] at hclean
  have hstatus := (h.clean hclean.1).1
  refine h.move hearly (fun _ => hclean.1) (fun hs => ?_) (fun _ => ?_) ?_ ?_
  · rw [hstatus] at hs
    exact absurd hs (by decide)
  · cases hp : s.gen.point <;> simp_all [Point.clean, Point.isEnded]
  · rintro rfl
    cases hclean.2
  · rintro ⟨-, -, hcases⟩
    rcases hcases with hp | hp
    all_goals
      have hp : point = _ := hp
      rw [hp] at hclean
      cases hclean.2

theorem piped_next (h : Piped s.gen) (hs : s.step cfg call .next = some s') : Piped s'.gen := by
  simp only [step] at hs
  split at hs <;> cases hs <;> rename_i hpoint
  · have hgreeted := h.greeted (by rw [hpoint]; rfl)
    exact piped_yield h (by rw [hpoint]; rfl) rfl rfl fun _ => hgreeted.comment (Or.inl rfl)
  · exact Piped.goOn (s := { s with gen := { s.gen with task := .created false } }) (h.task _)
      (by simp [hpoint, Point.clean]) (by simp [hpoint, Point.early])
  · exact h.goOn (by simp [hpoint, Point.clean]) (by simp [hpoint, Point.early])
  · exact h.quit (Or.inl (h.early (by rw [hpoint]; rfl)).1)
  · exact piped_finish (h.left (by rw [hpoint]; rfl)) (by simp)
  · exact h.goOn (by simp [hpoint, Point.clean]) (by simp [Point.early])
  · exact piped_finish (h.left (by rw [hpoint]; rfl)) (by simp)

theorem piped_close (h : Piped s.gen) (hs : s.step cfg call .close = some s') :
    Piped s'.gen := by
  simp only [step] at hs
  split at hs <;> cases hs <;> rename_i hpoint
  any_goals exact h.quit (Or.inr (by simp))
  all_goals exact piped_finish (h.left (by rw [hpoint]; rfl)) (by simp)

theorem piped_cancel (h : Piped s.gen) (hs : s.step cfg call .cancel = some s') :
    Piped s'.gen := by
  simp only [step] at hs
  split at hs <;> cases hs <;> rename_i hpoint
  · have htask : Piped (s.cancelTask cfg).gen := by
      rw [cancelTask_gen]
      exact h.task _
    exact htask.quit (Or.inr (by simp))
  all_goals first
    | exact piped_finish ((h.left (by rw [hpoint]; rfl)).setStatus (by simp)) (by simp)
    | exact h.quit (Or.inr (by simp))

theorem piped_wake (h : Piped s.gen) (hs : s.step cfg call .wake = some s') : Piped s'.gen := by
  simp only [step, Option.ite_none_right_eq_some] at hs
  obtain ⟨hpoint, hs⟩ := hs
  have hgreeted := h.greeted (by rw [hpoint]; rfl)
  have hpassed := hgreeted.passed
  split at hs <;> cases hs
  · exact piped_yield h (by rw [hpoint]; rfl) rfl rfl fun _ => hgreeted.comment (Or.inr rfl)
  · -- the worker is there, and nothing of it was received
    have hreceived : s.gen.received = [] := hpassed.2
    refine ⟨?_, ?_, ?_, fun _ => ⟨rfl, hpassed.1⟩, fun _ _ => hpassed.1, ?_,
      fun _ => h.records (by rw [hpoint]; rfl), ?_, ?_⟩
    · show [] = s.gen.received.rtake 65536
      rw [hreceived, List.rtake_nil]
    · intro he
      cases he
    · intro hg
      cases hg
    · simp [forward]
    · simp [forward]
    · simp [forward, Gen.Completed]
  · exact piped_yield h (by rw [hpoint]; rfl) rfl rfl (by simp [Point.clean])
  · have htask : Piped (s.cancelTask cfg).gen := by
      rw [cancelTask_gen]
      exact h.task _
    exact htask.quit (Or.inr (by simp))

theorem error_received (status message : String) (point : Point) :
    ((s.setStatus status).yield (.error message) point).gen.received = s.gen.received := by
  simp [yield, setStatus, Gen.received, Item.payload]

/-- The connection of the worker fails. -/
theorem piped_httpError (h : Piped s.gen) (hpoint : s.gen.point.onWorker = true) :
    Piped ((s.setStatus "upstream-error").yield (.error droppedText) .dropped).gen := by
  have hclean : s.gen.point.clean = true ∧ s.gen.point.isEnded = false := by
    cases hp : s.gen.point <;> simp_all [Point.onWorker, Point.clean, Point.isEnded]
  have hpassed := (h.clean hclean.1).2
  refine ⟨?_, ?_, ?_, ?_, ?_, fun _ => ⟨rfl, s.gen.output, rfl, hpassed⟩,
    fun _ => h.records hclean.2, ?_, ?_⟩
  · rw [error_received]
    exact h.tail
  · intro he
    cases he
  · intro hg
    cases hg
  · intro hc
    cases hc
  · intro hs
    exact absurd hs (by simp [yield, setStatus])
  · simp [yield, setStatus]
  · simp [yield, setStatus, Gen.Completed]

/-- The worker's refusal is passed on. -/
theorem piped_relay {text message : String} (h : Piped s.gen) (hpoint : s.gen.point = .reading) :
    Piped ((s.setStatus ("http-" ++ text)).yield (.error message) .relaying).gen := by
  have hstatus : "http-" ++ text ≠ "ok" ∧ "http-" ++ text ≠ "upstream-error" := by
    constructor
    all_goals
      intro heq
      have hhead := congrArg (fun t => t.toList.head?) heq
      simp at hhead
  refine ⟨?_, ?_, ?_, ?_, ?_, ?_, fun _ => h.records (by rw [hpoint]; rfl), ?_, ?_⟩
  · rw [error_received]
    exact h.tail
  · intro he
    cases he
  · intro hg
    cases hg
  · intro hc
    cases hc
  · intro hs
    exact absurd hs hstatus.1
  · intro hs
    exact absurd hs hstatus.2
  · simp [yield, setStatus]
  · simp [yield, setStatus, Gen.Completed]

theorem keep_received (tail bytes : Bytes) :
    (({ s with gen := { s.gen with tail := tail } } : Stream).yield
      (.raw bytes) .chunk).gen.received = s.gen.received ++ bytes := by
  simp [yield, Gen.received, Item.payload]

/-- A chunk of the worker is passed on, and its end is kept. -/
theorem piped_chunk {bytes tail : Bytes} (h : Piped s.gen) (hpoint : s.gen.point = .streaming)
    (htail : tail = (s.gen.received ++ bytes).rtake 65536) :
    Piped (({ s with gen := { s.gen with tail := tail } } : Stream).yield
      (.raw bytes) .chunk).gen := by
  have hclean := h.clean (by rw [hpoint]; rfl)
  refine ⟨?_, ?_, ?_, fun _ => ⟨hclean.1, hclean.2.raw⟩, fun _ _ => hclean.2.raw,
    fun hs => ?_,
    fun _ => h.records (by rw [hpoint]; rfl), by simp [yield], by simp [yield, Gen.Completed]⟩
  · rw [keep_received]
    exact htail
  · intro he
    cases he
  · intro hg
    cases hg
  · have hs : s.gen.status = "upstream-error" := hs
    rw [hclean.1] at hs
    exact absurd hs (by decide)

theorem piped_worker (h : Piped s.gen) {e : Event}
    (he : e ≠ .next ∧ e ≠ .close ∧ e ≠ .cancel ∧ e ≠ .wake)
    (hs : s.step cfg call e = some s') : Piped s'.gen := by
  cases worker_step he hs with
  | response hpoint hnew =>
    have hclean := h.clean (by rw [hpoint]; rfl)
    refine ⟨h.tail, ?_, ?_, fun _ => hclean, fun _ _ => hclean.2, fun hstatus => ?_,
      fun _ => h.records (by rw [hpoint]; rfl), ?_, ?_⟩
    · rcases hnew with rfl | rfl <;> simp [moveTo, Point.early]
    · rcases hnew with rfl | rfl <;> simp [moveTo, Point.early]
    · have hstatus : s.gen.status = "upstream-error" := hstatus
      rw [hclean.1] at hstatus
      exact absurd hstatus (by decide)
    · rcases hnew with rfl | rfl <;> simp [moveTo]
    · rcases hnew with rfl | rfl <;> simp [moveTo, Gen.Completed]
  | httpError hpoint => exact piped_httpError h hpoint
  | relay hpoint => exact piped_relay h hpoint
  | chunk hpoint =>
    refine piped_chunk h hpoint ?_
    rw [h.tail]
    exact appendTail_rtake _ _
  | finish _ hpoint hout =>
    have hended : s.gen.point.isEnded = false := by
      cases hp : s.gen.point <;> simp_all [Point.onWorker, Point.isEnded]
    exact piped_finish (h.left hended) hout
  | settle hpoint =>
    refine piped_settle (h.left (by rw [hpoint]; rfl)) ?_
    rintro rfl
    exact h.closing hpoint
  | lost => exact h.quit (Or.inr (by simp))

theorem piped_step (h : Piped s.gen) {a : StreamAction} (hs : s.next cfg call a = some s') :
    Piped s'.gen := by
  cases a with
  | gen e =>
    replace hs : s.step cfg call e = some s' := hs
    cases e with
    | next => exact piped_next h hs
    | close => exact piped_close h hs
    | cancel => exact piped_cancel h hs
    | wake => exact piped_wake h hs
    | response | httpError | otherError | body | chunk | eof | closed | closeFailed =>
      exact piped_worker h (by simp) hs
  | env | start | cancelTask =>
    rw [beside_gen (by simp) hs]
    exact h.task _

theorem reachable_piped (h : (machine cfg call).Reachable s) : Piped s.gen :=
  h.invariant (fun s => Piped s.gen) piped_init fun _ _ _ hI _ hs => piped_step hI hs

/-! ## The result -/

/-- The seconds recorded of a completed stream are a function of the bytes received. -/
theorem completed_seconds (h : (machine cfg call).Reachable s) (hs : s.gen.Completed) :
    s.gen.records.map Run.engineSeconds = tailSeconds (s.gen.received.rtake 65536) := by
  have hpiped := reachable_piped h
  rw [← hpiped.tail]
  exact (hpiped.ended hs).1

/-- When the last engine seconds of a completed stream begin in its last 65536 bytes and are
a decimal number, the run is recorded with this number.  Two completed streams with the same
bytes record the same seconds, whatever their chunks, callers and schedulers. -/
theorem completed_is_metered (h : (machine cfg call).Reachable s) (hs : s.gen.Completed) :
    (∀ p group x, Metering.LastAt s.gen.received p group →
      s.gen.received.length ≤ p + 65536 → Metering.Decimal group x →
      ∃ run, s.gen.records = [run] ∧ run.engineSeconds = x) ∧
    ∀ (cfg' : SchedulerConfig) (call' : StreamCall) (t : Stream),
      (machine cfg' call').Reachable t → t.gen.Completed → t.gen.received = s.gen.received →
      t.gen.records.map Run.engineSeconds = s.gen.records.map Run.engineSeconds := by
  have hseconds := completed_seconds h hs
  refine ⟨fun p group x hlast hwindow hx => ?_, fun cfg' call' t ht hcompleted hreceived => ?_⟩
  · have htext : Metering.lastText (s.gen.received.rtake 65536) = some group :=
      Metering.lastText_rtake hlast hwindow
    have hmap : s.gen.records.map Run.engineSeconds = [x] := by
      rw [hseconds, tailSeconds_of_lastText htext, Metering.float_of_decimal hx]
      rfl
    obtain ⟨run, hrun, hx⟩ := List.map_eq_singleton_iff.1 hmap
    exact ⟨run, hrun, hx⟩
  · rw [hseconds, completed_seconds ht hcompleted, hreceived]

/-- The worker is free at once, sends these chunks and ends its stream. -/
def chunkedRun (chunks : List Bytes) : List StreamAction :=
  [.gen .next, .gen .next, .start, .gen .wake, .gen (.response 200)] ++
    chunks.flatMap (fun bytes => [.gen (.chunk bytes), .gen .next]) ++ [.gen .eof, .gen .closed]

def chunked (chunks : List Bytes) : Stream :=
  ((machine smallConfig guestStream).run (init smallConfig) (chunkedRun chunks)).getD
    (init smallConfig)

theorem chunked_reachable (chunks : List Bytes)
    (h : ((machine smallConfig guestStream).run (init smallConfig)
      (chunkedRun chunks)).isSome = true) :
    (machine smallConfig guestStream).Reachable (chunked chunks) := by
  have hrun : (machine smallConfig guestStream).run (init smallConfig) (chunkedRun chunks) =
      some (chunked chunks) := by
    unfold chunked
    exact Transition.eq_some_getD (init smallConfig) h
  exact Transition.Machine.reachable_of_run hrun

/-- The key is cut in two by the chunks, and the caller's text holds another number. -/
def cutKey : Stream :=
  chunked [ascii "data: \"engineSeconds\": 1\n\n", ascii "data: \"engineSec",
    ascii "onds\": 3.25\n\n"]

theorem completed_is_metered_cutKey :
    ∃ run, cutKey.gen.records = [run] ∧ run.engineSeconds = 3.25 := by
  have hreachable : (machine smallConfig guestStream).Reachable cutKey :=
    chunked_reachable _ (by decide +kernel)
  have hcompleted : cutKey.gen.Completed := by
    unfold Gen.Completed
    decide +kernel
  have hlast : ∃ p, Metering.LastAt cutKey.gen.received p (ascii "3.25") :=
    Metering.exists_lastAt (by decide +kernel)
  obtain ⟨p, hp⟩ := hlast
  have hdecimal : Metering.Decimal (ascii "3.25") 3.25 := by
    have h := Metering.Decimal.fraction (ascii "3") (ascii "25") (by decide)
      (List.all_eq_true.1 (by decide)) (List.all_eq_true.1 (by decide))
    have hvalue : ((Metering.digits (ascii "3") : ℚ) +
        (Metering.digits (ascii "25") : ℚ) / 10 ^ (ascii "25").length) = 3.25 := by
      decide +kernel
    rw [hvalue] at h
    exact h
  have hlength : cutKey.gen.received.length ≤ 65536 := by decide +kernel
  exact (completed_is_metered hreachable hcompleted).1 p _ _ hp
    (by omega) hdecimal

end Stream

end OpendssGateway
