import OpendssGateway.Gateway.Decoded
import OpendssGateway.Gateway.Headers

/-!
# The file of plans

`load_plans` of `plans.py`.  Nothing checks the types of what the file
holds, so the fields of a `PlanRecord` are values of JSON.

* `load_plans_iff`: which files are loaded, and the plans that they give.
* `load_plans_dumps`: a set of plans that has the required ones is loaded
  from the file that holds it.
* `limits_of_the_file_reach_the_worker`: every caller has a plan of the file,
  and a worker reads back from the limits header the limits of that plan,
  with the plan block in them.
-/

namespace OpendssGateway

open JsonText

/-- `Plan`, with the values of a file in it. -/
structure PlanRecord where
  id : PyStr
  name : Json
  priority : Json
  limits : Json
  budget_seconds : Json
  budget_period : Json
  concurrency : Json
  pool : Json
  message : Json
  links : Json

/-- `dict[str, Plan]` -/
abbrev Plans := Table PlanRecord.id

/-- The exceptions of `load_plans`. -/
inductive PlansError
  /-- What `json.loads` raises: `JSONDecodeError` and its other exceptions. -/
  | decode
  | python (e : PyError)
  /-- `ValueError(f"plans file must define a '{required}' plan")` -/
  | missing (required : PyStr)

namespace PlanRecord

/-- The keyword arguments of `Plan` that a file may give, and their defaults. -/
def defaults : List (String × Option Json) :=
  [("name", none), ("priority", none), ("limits", some (.obj [])), ("budget_seconds", some .null),
    ("budget_period", some (.str (py "day"))), ("concurrency", some (.int 1)),
    ("pool", some (.str (py "guest"))), ("message", some (.str [])), ("links", some (.arr []))]

/-- The value of an argument: its keyword, or the default. -/
def argument (spec : List (PyStr × Json)) (field : String) : Except PlansError Json :=
  match spec.lookup (py field), (defaults.lookup field).join with
  | some v, _ => .ok v
  | none, some v => .ok v
  | none, none => .error (.python .typeError)

/-- `Plan(id=pid, **spec)` -/
def construct (pid : PyStr) (spec : List (PyStr × Json)) : Except PlansError PlanRecord := do
  if spec.any fun member => !(defaults.map fun field => py field.1).contains member.1 then
    .error (.python .typeError)
  let name ← argument spec "name"
  let priority ← argument spec "priority"
  let limits ← argument spec "limits"
  let budget_seconds ← argument spec "budget_seconds"
  let budget_period ← argument spec "budget_period"
  let concurrency ← argument spec "concurrency"
  let pool ← argument spec "pool"
  let message ← argument spec "message"
  let links ← argument spec "links"
  .ok { id := pid, name := name, priority := priority, limits := limits,
        budget_seconds := budget_seconds, budget_period := budget_period,
        concurrency := concurrency, pool := pool, message := message, links := links }

end PlanRecord

/-- `DEFAULT_PLANS` -/
def DEFAULT_PLANS : Plans :=
  Table.ofRows [
    { id := py "guest", name := .str (py "Guest"), priority := .int 10,
      limits := .obj [(py "maxNodes", .int 10), (py "maxEdges", .int 20),
        (py "maxTimeseriesCost", .int 250000), (py "engineResultTimeoutS", .int 30),
        (py "timeseriesTimeoutS", .int 30)],
      budget_seconds := .int 10, budget_period := .str (py "day"), concurrency := .int 1,
      pool := .str (py "guest"),
      message := .str (py
        "No account needed. \x7bused\x7d of \x7bbudget\x7d of solver time used \x7bperiod\x7d."),
      links := .arr [.obj [(py "label", .str (py "Sign in")),
        (py "url", .str (py "/auth/signin"))]] },
    { id := py "free", name := .str (py "Free"), priority := .int 5,
      limits := .obj [(py "maxNodes", .int 50), (py "maxEdges", .int 100),
        (py "maxTimeseriesCost", .int 1000000), (py "engineResultTimeoutS", .int 90),
        (py "timeseriesTimeoutS", .int 90)],
      budget_seconds := .int 30, budget_period := .str (py "day"), concurrency := .int 1,
      pool := .str (py "member"),
      message := .str (py
        "\x7bused\x7d of \x7bbudget\x7d of solver time used \x7bperiod\x7d."),
      links := .arr [.obj [(py "label", .str (py "Account")), (py "url", .str (py "/account"))]] },
    { id := py "pro", name := .str (py "Pro"), priority := .int 1,
      limits := .obj [(py "maxNodes", .int 1000), (py "maxEdges", .int 2000),
        (py "maxTimeseriesCost", .int 3000000), (py "engineResultTimeoutS", .int 90),
        (py "timeseriesTimeoutS", .int 600)],
      budget_seconds := .int 3600, budget_period := .str (py "month"), concurrency := .int 2,
      pool := .str (py "member"),
      message := .str (py
        "\x7bused\x7d of \x7bbudget\x7d of solver time used \x7bperiod\x7d."),
      links := .arr [.obj [(py "label", .str (py "Account")), (py "url", .str (py "/account"))]] }]

/-- The plan of a member of the file: `_comment` and friends are none. -/
def isPlan (member : PyStr × Json) : Option (List (PyStr × Json)) :=
  match member.2 with
  | .obj spec => if (py "_").isPrefixOf member.1 then none else some spec
  | _ => none

/-- The loop over the members of the file. -/
def addPlans (plans : Plans) : List (PyStr × Json) → Except PlansError Plans
  | [] => .ok plans
  | member :: rest =>
    match isPlan member with
    | none => addPlans plans rest
    | some spec => do
      let plan ← PlanRecord.construct member.1 spec
      addPlans (plans.put plan) rest

/-- `for required in ("guest", "free", "pro")` -/
def checkRequired (plans : Plans) : List PyStr → Except PlansError Unit
  | [] => .ok ()
  | required :: rest =>
    if (plans.find? required).isNone then .error (.missing required) else checkRequired plans rest

def REQUIRED : List PyStr :=
  [py "guest", py "free", py "pro"]

/-- What `load_plans` does with the value of the file. -/
def plansOf : Json → Except PlansError Plans
  | .obj raw => do
    let plans ← addPlans Table.empty raw
    checkRequired plans REQUIRED
    .ok plans
  | _ => .error (.python .attributeError)

/-- `load_plans`, of the text of the file if there is one. -/
def load_plans (rt : Runtime) : Option PyStr → Except PlansError Plans
  | none => .ok DEFAULT_PLANS
  | some text => (loads rt text).elim (.error .decode) plansOf

/-- The plan of a caller in `identify`, from the plan of the user if there is one. -/
def planOf (plans : Plans) : Option PyStr → Except PyError PlanRecord
  | none => (plans.find? (py "guest")).elim (.error .keyError) .ok
  | some plan =>
    match plans.find? plan with
    | some plan => .ok plan
    | none => (plans.find? (py "free")).elim (.error .keyError) .ok

variable {rt : Runtime} {plans : Plans} {plan : PlanRecord}

/-! ## Loading -/

theorem PlanRecord.construct_id {pid : PyStr} {spec : List (PyStr × Json)}
    (h : PlanRecord.construct pid spec = .ok plan) : plan.id = pid := by
  unfold PlanRecord.construct at h
  split at h
  · cases h
  · simp only [bind_eq_ok] at h
    obtain ⟨_, -, _, -, _, -, _, -, _, -, _, -, _, -, _, -, _, -, h⟩ := h
    cases h
    rfl

/-- The plans of a file, with their keyword arguments. -/
def specs (raw : List (PyStr × Json)) : List (PyStr × List (PyStr × Json)) :=
  raw.filterMap fun member => (isPlan member).map fun spec => (member.1, spec)

/-- The plans of a list of specs. -/
def Constructs (specs : List (PyStr × List (PyStr × Json))) (rows : List PlanRecord) : Prop :=
  List.Forall₂ (fun spec plan => PlanRecord.construct spec.1 spec.2 = .ok plan) specs rows

theorem Constructs.ids {specs : List (PyStr × List (PyStr × Json))} {rows : List PlanRecord}
    (h : Constructs specs rows) : rows.map PlanRecord.id = specs.map Prod.fst := by
  induction h with
  | nil => rfl
  | cons hplan _ ih => rw [List.map_cons, List.map_cons, ih, PlanRecord.construct_id hplan]

theorem specs_cons (member : PyStr × Json) (rest : List (PyStr × Json)) :
    specs (member :: rest) =
      ((isPlan member).map fun spec => (member.1, spec)).toList ++ specs rest := by
  unfold specs
  rw [List.filterMap_cons]
  cases isPlan member <;> rfl

/-- The loop puts the plans of the file into the dict. -/
theorem addPlans_eq_ok {plans plans' : Plans} {raw : List (PyStr × Json)} :
    addPlans plans raw = .ok plans' ↔
      ∃ rows, Constructs (specs raw) rows ∧ plans' = rows.foldl Table.put plans := by
  induction raw generalizing plans with
  | nil =>
    constructor
    · intro h
      cases h
      exact ⟨[], List.Forall₂.nil, rfl⟩
    · rintro ⟨rows, hrows, rfl⟩
      cases hrows
      rfl
  | cons member rest ih =>
    rw [addPlans, specs_cons]
    cases hplan : isPlan member with
    | none => exact ih
    | some spec =>
      simp only [bind_eq_ok, ih]
      constructor
      · rintro ⟨plan, hconstruct, rows, hrows, rfl⟩
        exact ⟨plan :: rows, List.Forall₂.cons hconstruct hrows, rfl⟩
      · rintro ⟨rows, hrows, rfl⟩
        cases hrows with
        | cons hconstruct hrows => exact ⟨_, hconstruct, _, hrows, rfl⟩

theorem checkRequired_eq_ok {required : List PyStr} :
    checkRequired plans required = .ok () ↔
      ∀ id ∈ required, ∃ plan ∈ plans, plan.id = id := by
  induction required with
  | nil => simp [checkRequired]
  | cons id required ih =>
    rw [checkRequired, List.forall_mem_cons, ← ih]
    cases hfind : plans.find? id with
    | none =>
      have hnone := Table.find?_eq_none_iff.1 hfind
      simp only [Option.isNone_none, if_true, reduceCtorEq, false_iff, not_and]
      rintro ⟨plan, hplan, hid⟩
      exact absurd hid (hnone plan hplan)
    | some plan =>
      simp only [Option.isNone_some, Bool.false_eq_true, if_false]
      exact (and_iff_right ⟨plan, Table.find?_eq_some hfind⟩).symm

theorem reading_nodup (rt : Runtime) : Reading rt (fun _ => True) (fun _ => True) fun _ v =>
    ∀ raw, v = .obj raw → (raw.map Prod.fst).Nodup where
  text _ _ _ _ _ := trivial
  str _ _ _ := nofun
  obj _ pairs _ _ raw hraw := by
    cases hraw
    exact nodup_dict pairs
  arr _ _ _ _ := nofun
  atom _ _ _ _ h raw hraw := by
    subst hraw
    exact (decoded_of_scanAtom h).1

/-- The members of an object that is read have distinct keys. -/
theorem nodup_of_loads {text : PyStr} {raw : List (PyStr × Json)}
    (h : loads rt text = some (.obj raw)) : (raw.map Prod.fst).Nodup :=
  (reading_nodup rt).of_loads (fun _ _ => trivial) h raw rfl

theorem nodup_specs {raw : List (PyStr × Json)} (h : (raw.map Prod.fst).Nodup) :
    ((specs raw).map Prod.fst).Nodup := by
  refine h.sublist ?_
  clear h
  induction raw with
  | nil => exact List.Sublist.refl _
  | cons member rest ih =>
    rw [specs_cons, List.map_append, List.map_cons]
    cases isPlan member with
    | none => exact ih.cons _
    | some spec => exact ih.cons_cons member.1

/-- The plans of a value whose members have distinct keys. -/
theorem plansOf_eq_ok {raw : List (PyStr × Json)} (h : (raw.map Prod.fst).Nodup) :
    plansOf (.obj raw) = .ok plans ↔
      Constructs (specs raw) plans.rows ∧ ∀ id ∈ REQUIRED, ∃ plan ∈ plans, plan.id = id := by
  have hrows : ∀ rows, Constructs (specs raw) rows →
      (rows.foldl Table.put (Table.empty : Plans)).rows = rows := by
    intro rows hrows
    refine Table.rows_ofRows_of_nodup ?_
    rw [hrows.ids]
    exact nodup_specs h
  unfold plansOf
  simp only [bind_eq_ok, addPlans_eq_ok]
  constructor
  · rintro ⟨plans', ⟨rows, hconstructs, rfl⟩, u, hcheck, hplans⟩
    cases hplans
    refine ⟨?_, checkRequired_eq_ok.1 hcheck⟩
    rw [hrows rows hconstructs]
    exact hconstructs
  · rintro ⟨hconstructs, hrequired⟩
    refine ⟨plans, ⟨plans.rows, hconstructs, ?_⟩, (), checkRequired_eq_ok.2 hrequired, rfl⟩
    exact Table.ext (hrows _ hconstructs).symm

/-- A file is loaded if and only if it is an object, its plans can be constructed and the
required ones are among them.  The plans are the ones of the file, in its order. -/
theorem load_plans_iff {text : PyStr} :
    load_plans rt (some text) = .ok plans ↔
      ∃ raw, loads rt text = some (.obj raw) ∧ Constructs (specs raw) plans.rows ∧
        ∀ id ∈ REQUIRED, ∃ plan ∈ plans, plan.id = id := by
  rw [load_plans]
  constructor
  · intro h
    cases hloads : loads rt text with
    | none =>
      rw [hloads] at h
      cases h
    | some v =>
      rw [hloads] at h
      cases v with
      | obj raw => exact ⟨raw, rfl, (plansOf_eq_ok (nodup_of_loads hloads)).1 h⟩
      | null | bool _ | int _ | float _ | str _ | arr _ => cases h
  · rintro ⟨raw, hloads, h⟩
    rw [hloads]
    exact (plansOf_eq_ok (nodup_of_loads hloads)).2 h

/-! ## A file that has been written -/

namespace PlanRecord

/-- The keyword arguments of a plan. -/
def spec (plan : PlanRecord) : List (PyStr × Json) :=
  [(py "name", plan.name), (py "priority", plan.priority), (py "limits", plan.limits),
    (py "budget_seconds", plan.budget_seconds), (py "budget_period", plan.budget_period),
    (py "concurrency", plan.concurrency), (py "pool", plan.pool), (py "message", plan.message),
    (py "links", plan.links)]

theorem construct_spec (plan : PlanRecord) : construct plan.id plan.spec = .ok plan :=
  rfl

end PlanRecord

/-- The file of a set of plans. -/
def filed (plans : Plans) : Json :=
  .obj (plans.rows.map fun plan => (plan.id, .obj plan.spec))

theorem specs_filed {rows : List PlanRecord} (h : ∀ plan ∈ rows, ¬ py "_" <+: plan.id) :
    specs (rows.map fun plan => (plan.id, .obj plan.spec)) =
      rows.map fun plan => (plan.id, plan.spec) := by
  induction rows with
  | nil => rfl
  | cons plan rows ih =>
    obtain ⟨hplan, hrest⟩ := List.forall_mem_cons.1 h
    have hfirst : isPlan (plan.id, .obj plan.spec) = some plan.spec := by
      have hprefix : ¬ (py "_").isPrefixOf plan.id = true := fun h =>
        hplan (List.isPrefixOf_iff_prefix.1 h)
      exact if_neg hprefix
    rw [List.map_cons, specs_cons, hfirst, ih hrest]
    rfl

theorem constructs_specs (rows : List PlanRecord) :
    Constructs (rows.map fun plan => (plan.id, plan.spec)) rows := by
  induction rows with
  | nil => exact List.Forall₂.nil
  | cons plan rows ih => exact List.Forall₂.cons plan.construct_spec ih

/-- A set of plans is loaded from the file that holds it. -/
theorem load_plans_dumps {separators : Separators} (hsep : Blank separators)
    (hwritable : Writable rt (filed plans)) (hcanonical : Canonical (filed plans))
    (hwrite : (filed plans).Fits rt.writeDepth) (hread : (filed plans).Fits rt.readDepth)
    (hids : ∀ plan ∈ plans, ¬ py "_" <+: plan.id)
    (hrequired : ∀ id ∈ REQUIRED, ∃ plan ∈ plans, plan.id = id) :
    ∃ text, json_dumps rt separators (filed plans) = .ok text ∧
      load_plans rt (some text) = .ok plans := by
  have hloads : loads rt ((filed plans).dumps rt separators) = some (filed plans) := by
    rw [loads_dumps hsep hwritable hread, (normal_eq_iff _).2 hcanonical]
  refine ⟨_, json_dumps_eq_ok.2 ⟨hwrite, rfl⟩, load_plans_iff.2 ⟨_, hloads, ?_, hrequired⟩⟩
  rw [specs_filed hids]
  exact constructs_specs plans.rows

/-! ## The limits header -/

/-- The plan of a record whose values have the types that the gateway expects. -/
structure Represents (record : PlanRecord) (plan : FullPlan) : Prop where
  name : record.name = .str plan.name
  limits : record.limits = .obj plan.limits.rows
  links : record.links = .arr (plan.links.map fun link =>
    .obj (link.rows.map fun member => (member.1, .str member.2)))

theorem describe_eq_ok {fmt : Formatting} {plan : FullPlan} {used : ℚ} {block : PlanBlock}
    (h : plan.describe fmt used = .ok block) :
    block.name = plan.name ∧ block.links = plan.links ∧
      ∃ message, block.message = (Json.str message).or .null := by
  unfold FullPlan.describe at h
  split at h
  · split at h
    · cases h
      exact ⟨rfl, rfl, _, rfl⟩
    · obtain ⟨message, -, h⟩ := bind_eq_ok.1 h
      cases h
      exact ⟨rfl, rfl, _, rfl⟩
  · cases h
    exact ⟨rfl, rfl, _, rfl⟩

theorem filterLinks_subset {links kept : List (PyDict PyStr)} (h : filterLinks links = .ok kept) :
    ∀ link ∈ kept, link ∈ links := by
  induction links generalizing kept with
  | nil =>
    cases h
    exact nofun
  | cons link rest ih =>
    simp only [filterLinks, bind_eq_ok] at h
    obtain ⟨keep, -, kept', hrest, h⟩ := h
    cases h
    split
    · exact fun other hother => (List.mem_cons.1 hother).elim
        (fun heq => heq ▸ List.mem_cons_self) fun hother =>
          List.mem_cons_of_mem link (ih hrest other hother)
    · exact fun other hother => List.mem_cons_of_mem link (ih hrest other hother)

/-- The name of the block is the plan's, and so are its links. -/
theorem plan_block_eq_ok {cfg : HeaderConfig} {fmt : Formatting} {plan : FullPlan} {used : ℚ}
    {block : PlanBlock} (h : plan_block cfg fmt plan used = .ok block) :
    block.name = plan.name ∧ (∀ link ∈ block.links, link ∈ plan.links) ∧
      ∃ message, block.message = (Json.str message).or .null := by
  unfold plan_block at h
  obtain ⟨block', hdescribe, h⟩ := bind_eq_ok.1 h
  obtain ⟨hname, hlinks, hmessage⟩ := describe_eq_ok hdescribe
  split at h
  · cases h
    exact ⟨hname, fun link hlink => hlinks ▸ hlink, hmessage⟩
  · obtain ⟨links, hfilter, h⟩ := bind_eq_ok.1 h
    cases h
    rw [← hlinks]
    exact ⟨hname, filterLinks_subset hfilter, hmessage⟩

theorem mem_of_lookup {α β : Type} [BEq α] [LawfulBEq α] {pairs : List (α × β)} {key : α} {v : β}
    (h : pairs.lookup key = some v) : (key, v) ∈ pairs := by
  obtain ⟨before, behind, rfl, -⟩ := List.lookup_eq_some_iff.1 h
  exact List.mem_append_right before List.mem_cons_self

theorem PlanRecord.decoded_defaults :
    ∀ entry ∈ PlanRecord.defaults, ∀ v, entry.2 = some v → Decoded v := by
  intro entry hentry v hv
  simp only [PlanRecord.defaults, List.mem_cons, List.not_mem_nil, or_false] at hentry
  rcases hentry with rfl | rfl | rfl | rfl | rfl | rfl | rfl | rfl | rfl
  · cases hv
  · cases hv
  · cases hv
    exact ⟨List.nodup_nil, trivial⟩
  · cases hv
    exact trivial
  · cases hv
    exact decodedText_py "day"
  · cases hv
    exact trivial
  · cases hv
    exact decodedText_py "guest"
  · cases hv
    exact decodedText_py ""
  · cases hv
    exact trivial

/-- A value of the file, or a default. -/
theorem decoded_argument {spec : List (PyStr × Json)} {field : String} {v : Json}
    (h : Decoded (.obj spec)) (hv : PlanRecord.argument spec field = .ok v) : Decoded v := by
  unfold PlanRecord.argument at hv
  split at hv
  · rename_i hlookup
    cases hv
    exact (membersHold_iff.1 h.2 _ (mem_of_lookup hlookup)).2
  · rename_i hdefault
    cases hv
    have hmem := mem_of_lookup (Option.join_eq_some_iff.1 hdefault)
    exact PlanRecord.decoded_defaults _ hmem v rfl
  · cases hv

theorem Constructs.exists_spec {specs : List (PyStr × List (PyStr × Json))}
    {rows : List PlanRecord} (h : Constructs specs rows) {record : PlanRecord}
    (hrecord : record ∈ rows) :
    ∃ spec ∈ specs, PlanRecord.construct spec.1 spec.2 = .ok record := by
  induction h with
  | nil => cases hrecord
  | cons hconstruct _ ih =>
    rcases List.mem_cons.1 hrecord with rfl | hrecord
    · exact ⟨_, List.mem_cons_self, hconstruct⟩
    · obtain ⟨spec, hspec, hconstruct⟩ := ih hrecord
      exact ⟨spec, List.mem_cons_of_mem _ hspec, hconstruct⟩

theorem mem_of_mem_specs {raw : List (PyStr × Json)} {spec : PyStr × List (PyStr × Json)}
    (h : spec ∈ specs raw) : (spec.1, .obj spec.2) ∈ raw := by
  obtain ⟨member, hmember, hspec⟩ := List.mem_filterMap.1 h
  obtain ⟨spec, hplan, rfl⟩ := Option.map_eq_some_iff.1 hspec
  obtain ⟨pid, v⟩ := member
  unfold isPlan at hplan
  split at hplan
  · rename_i spec' hobj
    split at hplan
    · cases hplan
    · cases hplan
      cases hobj
      exact hmember
  · cases hplan

theorem PlanRecord.argument_of_construct {pid : PyStr} {spec : List (PyStr × Json)}
    (h : PlanRecord.construct pid spec = .ok plan) :
    argument spec "name" = .ok plan.name ∧ argument spec "limits" = .ok plan.limits ∧
      argument spec "links" = .ok plan.links := by
  unfold PlanRecord.construct at h
  split at h
  · cases h
  · simp only [bind_eq_ok] at h
    obtain ⟨_, hname, _, -, _, hlimits, _, -, _, -, _, -, _, -, _, -, _, hlinks, h⟩ := h
    cases h
    exact ⟨hname, hlimits, hlinks⟩

/-- The values of the plans of a decoded file. -/
theorem decoded_of_load_plans {text : PyStr} (hs : ∀ c ∈ text, Scalar c)
    (h : load_plans rt (some text) = .ok plans) {record : PlanRecord} (hrecord : record ∈ plans) :
    Decoded record.name ∧ Decoded record.limits ∧ Decoded record.links := by
  obtain ⟨raw, hloads, hconstructs, -⟩ := load_plans_iff.1 h
  have hraw : Decoded (.obj raw) := decoded_of_loads hs hloads
  obtain ⟨spec, hspec, hconstruct⟩ := hconstructs.exists_spec hrecord
  have hdecoded : Decoded (.obj spec.2) :=
    (membersHold_iff.1 hraw.2 _ (mem_of_mem_specs hspec)).2
  obtain ⟨hname, hlimits, hlinks⟩ := PlanRecord.argument_of_construct hconstruct
  exact ⟨decoded_argument hdecoded hname, decoded_argument hdecoded hlimits,
    decoded_argument hdecoded hlinks⟩

/-- The object in the limits header. -/
def limitsObject (plan : FullPlan) (block : PlanBlock) : Json :=
  .obj (plan.limits.put (py "plan", block.toJson)).rows

/-- A member of that object is a limit of the plan, or the plan block. -/
theorem mem_limitsObject {plan : FullPlan} {block : PlanBlock} {member : PyStr × Json}
    (h : member ∈ (plan.limits.put (py "plan", block.toJson)).rows) :
    member ∈ plan.limits.rows ∨ member = (py "plan", block.toJson) := by
  rcases Table.mem_put.1 h with rfl | ⟨hmember, -⟩
  · exact Or.inr rfl
  · exact Or.inl hmember

theorem decoded_limitsObject {plan : FullPlan} {block : PlanBlock}
    (hlimits : Decoded (.obj plan.limits.rows)) (hblock : Decoded block.toJson) :
    Decoded (limitsObject plan block) := by
  refine ⟨(plan.limits.put (py "plan", block.toJson)).nodup, membersHold_iff.2 ?_⟩
  intro member hmember
  rcases mem_limitsObject hmember with hmember | rfl
  · exact membersHold_iff.1 hlimits.2 member hmember
  · exact ⟨decodedText_py "plan", hblock⟩

theorem floatsRead_limitsObject {plan : FullPlan} {block : PlanBlock}
    (hlimits : FloatsRead rt (.obj plan.limits.rows)) (hblock : FloatsRead rt block.toJson) :
    FloatsRead rt (limitsObject plan block) := by
  refine ⟨trivial, membersHold_iff.2 fun member hmember => ?_⟩
  rcases mem_limitsObject hmember with hmember | rfl
  · exact membersHold_iff.1 hlimits.2 member hmember
  · exact ⟨trivial, hblock⟩

theorem fits_limitsObject {plan : FullPlan} {block : PlanBlock} {depth : Nat} (hdepth : depth ≠ 0)
    (hlimits : MembersFit (depth - 1) plan.limits.rows) (hblock : block.toJson.Fits (depth - 1)) :
    (limitsObject plan block).Fits depth := by
  refine ⟨hdepth, membersFit_iff.2 fun member hmember => ?_⟩
  rcases mem_limitsObject hmember with hmember | rfl
  · exact membersFit_iff.1 hlimits member hmember
  · exact hblock

theorem decoded_toJson {block : PlanBlock} (hname : Decoded (.str block.name))
    (hmessage : Decoded block.message)
    (hlinks : ∀ link ∈ block.links, Decoded (.obj (link.rows.map fun member =>
      (member.1, Json.str member.2)))) : Decoded block.toJson := by
  have hkeys : [py "name", py "message", py "links"].Nodup := by decide
  refine ⟨hkeys, decodedText_py "name", hname, decodedText_py "message", hmessage, decodedText_py "links", ?_,
    trivial⟩
  refine itemsHold_iff.2 fun v hv => ?_
  obtain ⟨link, hlink, rfl⟩ := List.mem_map.1 hv
  exact hlinks link hlink

/-- There is no float in the plan block. -/
theorem floatsRead_toJson {block : PlanBlock} (hmessage : FloatsRead rt block.message) :
    FloatsRead rt block.toJson := by
  refine ⟨trivial, trivial, trivial, trivial, hmessage, trivial, ?_, trivial⟩
  refine itemsHold_iff.2 fun v hv => ?_
  obtain ⟨link, -, rfl⟩ := List.mem_map.1 hv
  refine ⟨trivial, membersHold_iff.2 fun member hmember => ?_⟩
  obtain ⟨entry, -, rfl⟩ := List.mem_map.1 hmember
  exact ⟨trivial, trivial⟩

/-- The limits of a plan are two objects deep in the file, or the empty object. -/
theorem fits_limits {text : PyStr} (h : load_plans rt (some text) = .ok plans)
    {record : PlanRecord} (hrecord : record ∈ plans) {rows : List (PyStr × Json)}
    (hrows : record.limits = .obj rows) : MembersFit (rt.readDepth - 3) rows := by
  obtain ⟨raw, hloads, hconstructs, -⟩ := load_plans_iff.1 h
  have hraw : (Json.obj raw).Fits rt.readDepth := fits_of_loads hloads
  obtain ⟨spec, hspec, hconstruct⟩ := hconstructs.exists_spec hrecord
  have hfits : (Json.obj spec.2).Fits (rt.readDepth - 1) :=
    membersFit_iff.1 hraw.2 _ (mem_of_mem_specs hspec)
  have hlimits := (PlanRecord.argument_of_construct hconstruct).2.1
  rw [hrows] at hlimits
  unfold PlanRecord.argument at hlimits
  split at hlimits
  · rename_i hlookup
    cases hlimits
    exact (membersFit_iff.1 hfits.2 _ (mem_of_lookup hlookup)).2
  · rename_i v hdefault
    cases hlimits
    have hempty : rows = [] := by
      simpa [PlanRecord.defaults] using mem_of_lookup (Option.join_eq_some_iff.1 hdefault)
    rw [hempty]
    exact trivial
  · cases hlimits

/-- The plan block is three levels deep. -/
theorem fits_toJson {depth : Nat} (hdepth : 3 ≤ depth) {block : PlanBlock} {message : PyStr}
    (hmessage : block.message = (Json.str message).or .null) : block.toJson.Fits depth := by
  have htext : block.message.Fits (depth - 1) := by
    rw [hmessage]
    unfold Json.or
    split <;> exact trivial
  refine ⟨by omega, trivial, htext, ⟨by omega, itemsFit_iff.2 fun v hv => ?_⟩, trivial⟩
  obtain ⟨link, -, rfl⟩ := List.mem_map.1 hv
  refine ⟨by omega, membersFit_iff.2 fun member hmember => ?_⟩
  obtain ⟨entry, -, rfl⟩ := List.mem_map.1 hmember
  exact trivial

/-- `identify` finds a plan for every caller, once a file is loaded. -/
theorem planOf_eq_ok {text : PyStr} (h : load_plans rt (some text) = .ok plans)
    (user : Option PyStr) : ∃ plan ∈ plans, planOf plans user = .ok plan := by
  obtain ⟨raw, -, -, hrequired⟩ := load_plans_iff.1 h
  have hfind : ∀ id ∈ REQUIRED, ∃ plan ∈ plans, plans.find? id = some plan := by
    intro id hid
    obtain ⟨plan, hplan, rfl⟩ := hrequired id hid
    exact ⟨plan, hplan, Table.find?_eq_some_iff.2 ⟨hplan, rfl⟩⟩
  obtain ⟨guest, hguest, hfindguest⟩ := hfind (py "guest") (by simp [REQUIRED])
  obtain ⟨free, hfree, hfindfree⟩ := hfind (py "free") (by simp [REQUIRED])
  cases user with
  | none => exact ⟨guest, hguest, by rw [planOf, hfindguest]; rfl⟩
  | some id =>
    cases hfindplan : plans.find? id with
    | some plan => exact ⟨plan, (Table.find?_eq_some hfindplan).1, by rw [planOf, hfindplan]⟩
    | none => exact ⟨free, hfree, by rw [planOf, hfindplan, hfindfree]; rfl⟩

/-- Every caller has a plan of the file, as a worker gets it: whatever the request, its limits
header is one line of ASCII, and the JSON in it is the limits of the file with the plan block in
them. -/
theorem limits_of_the_file_reach_the_worker {text : PyStr} (hs : ∀ c ∈ text, Scalar c)
    (h : load_plans rt (some text) = .ok plans) (hlevels : 4 ≤ rt.readDepth)
    (hdepth : rt.readDepth ≤ rt.writeDepth) (user : Option PyStr) :
    ∃ record ∈ plans, planOf plans user = .ok record ∧
      ∀ plan, Represents record plan → FloatsRead rt (.obj plan.limits.rows) →
      ∀ cfg fmt used block, plan_block cfg fmt plan used = .ok block → Decoded block.message →
      ∀ headers request_id out,
        upstream_headers cfg rt fmt headers plan used request_id = .ok out →
        ∃ value,
          (out.rows.filter fun header => lowerName header.1 = lowerName cfg.limits_header) =
            [(cfg.limits_header, value)] ∧
          json_dumps rt compact (limitsObject plan block) = .ok value ∧
          loads rt value = some (limitsObject plan block) ∧ ∀ c ∈ value, Printable c := by
  obtain ⟨record, hrecord, hfind⟩ := planOf_eq_ok h user
  refine ⟨record, hrecord, hfind, ?_⟩
  intro plan hplan hfloats cfg fmt used block hblock hmessage headers request_id out hout
  obtain ⟨hname, hlimits, hlinks⟩ := decoded_of_load_plans hs h hrecord
  rw [hplan.name] at hname
  rw [hplan.limits] at hlimits
  rw [hplan.links] at hlinks
  obtain ⟨hblockname, hsub, message, hblockmessage⟩ := plan_block_eq_ok hblock
  have hread : FloatsRead rt block.message := by
    rw [hblockmessage]
    unfold Json.or
    split <;> exact trivial
  have hdecodedblock : Decoded block.toJson := by
    refine decoded_toJson (hblockname ▸ hname) hmessage fun link hlink => ?_
    exact itemsHold_iff.1 hlinks _ (List.mem_map_of_mem (hsub link hlink))
  have hobject := decoded_limitsObject hlimits hdecodedblock
  have hobjectfloats := floatsRead_limitsObject hfloats (floatsRead_toJson hread)
  have hfits : (limitsObject plan block).Fits rt.readDepth :=
    fits_limitsObject (by omega)
      (membersFit_mono (by omega) _ (fits_limits h hrecord hplan.limits))
      (fits_toJson (by omega) hblockmessage)
  exact ⟨limitsValue rt plan block, upstream_headers_limits hblock hout,
    json_dumps_eq_ok.2 ⟨fits_mono hdepth _ hfits, rfl⟩,
    loads_dumps_of_decoded blank_compact hobject hobjectfloats hfits,
    printable_dumps (by decide) (by decide) _ (hobject.writable hobjectfloats)⟩

/-! ## A file -/

def smallPlan (id name : PyStr) (priority : Int) (limits : List (PyStr × Json)) : PlanRecord where
  id := id
  name := .str name
  priority := .int priority
  limits := .obj limits
  budget_seconds := .null
  budget_period := .str (py "day")
  concurrency := .int 1
  pool := .str (py "guest")
  message := .str (py "")
  links := .arr []

def smallPlans : Plans :=
  Table.ofRows [smallPlan (py "guest") (py "Guest") 10 [(py "maxNodes", .int 10)],
    smallPlan (py "free") (py "Free") 5 [], smallPlan (py "pro") (py "Pro") 1 []]

theorem decoded_smallPlans : Decoded (filed smallPlans) := by
  have hspec : ∀ (id name : String) (priority : Int) (limits : List (PyStr × Json)),
      Decoded (.obj limits) →
        Decoded (.obj (smallPlan (py id) (py name) priority limits).spec) := by
    intro id name priority limits hlimits
    have hkeys : [py "name", py "priority", py "limits", py "budget_seconds", py "budget_period",
      py "concurrency", py "pool", py "message", py "links"].Nodup := by decide
    refine ⟨hkeys, ?_⟩
    simp only [MembersHold, smallPlan, Holds, ItemsHold, PlanRecord.spec, decodedText_py, true_and,
      and_true]
    exact hlimits
  have hids : [py "guest", py "free", py "pro"].Nodup := by decide
  have hguest : Decoded (.obj [(py "maxNodes", .int 10)]) :=
    ⟨List.nodup_singleton _, decodedText_py "maxNodes", trivial, trivial⟩
  have hnone : Decoded (.obj []) := ⟨List.nodup_nil, trivial⟩
  exact ⟨hids, decodedText_py "guest", hspec "guest" "Guest" 10 _ hguest, decodedText_py "free",
    hspec "free" "Free" 5 _ hnone, decodedText_py "pro", hspec "pro" "Pro" 1 _ hnone, trivial⟩

theorem floatsRead_smallPlans : FloatsRead plainRuntime (filed smallPlans) := by
  have hrows : smallPlans.rows = [smallPlan (py "guest") (py "Guest") 10 [(py "maxNodes", .int 10)],
    smallPlan (py "free") (py "Free") 5 [], smallPlan (py "pro") (py "Pro") 1 []] := rfl
  simp [FloatsRead, Holds, filed, hrows, smallPlan, MembersHold, ItemsHold, PlanRecord.spec]

theorem intFits_small {n : Int} (h : n.natAbs < 100) : IntFits n := by
  have hpow : 10 ^ 2 ≤ 10 ^ maxStrDigits := Nat.pow_le_pow_right (by decide) (by decide)
  exact (Nat.length_repr_le_iff (by decide)).2 (h.trans_le hpow)

theorem fits_smallPlans {depth : Nat} (hdepth : 3 ≤ depth) : (filed smallPlans).Fits depth := by
  have hspec : ∀ (id name : String) (priority : Int) (limits : List (PyStr × Json)),
      priority.natAbs < 100 → MembersFit (depth - 3) limits →
        (Json.obj (smallPlan (py id) (py name) priority limits).spec).Fits (depth - 1) := by
    intro id name priority limits hpriority hlimits
    exact ⟨by omega, trivial, intFits_small hpriority, ⟨by omega, hlimits⟩, trivial, trivial,
      intFits_small (by decide), trivial, trivial, ⟨by omega, trivial⟩, trivial⟩
  exact ⟨by omega, hspec "guest" "Guest" 10 _ (by decide) ⟨intFits_small (by decide), trivial⟩,
    hspec "free" "Free" 5 _ (by decide) trivial, hspec "pro" "Pro" 1 _ (by decide) trivial,
    trivial⟩

theorem smallPlans_required : ∀ id ∈ REQUIRED, ∃ plan ∈ smallPlans, plan.id = id := by
  have hids : ∀ id ∈ REQUIRED, id ∈ smallPlans.rows.map PlanRecord.id := by decide
  exact fun id hid => List.mem_map.1 (hids id hid)

theorem smallPlans_ids : ∀ plan ∈ smallPlans, ¬ py "_" <+: plan.id := by
  have hids : ∀ id ∈ smallPlans.rows.map PlanRecord.id, ¬ py "_" <+: id := by decide
  exact fun plan hplan => hids plan.id (List.mem_map_of_mem hplan)

/-- The text of the file. -/
def smallFile : PyStr :=
  (filed smallPlans).dumps plainRuntime compact

theorem load_plans_dumps_small :
    ∃ text, json_dumps plainRuntime compact (filed smallPlans) = .ok text ∧
      load_plans plainRuntime (some text) = .ok smallPlans :=
  load_plans_dumps blank_compact (decoded_smallPlans.writable floatsRead_smallPlans)
    decoded_smallPlans.canonical (fits_smallPlans (by decide)) (fits_smallPlans (by decide))
    smallPlans_ids smallPlans_required

theorem load_plans_smallFile : load_plans plainRuntime (some smallFile) = .ok smallPlans := by
  refine load_plans_iff.2 ⟨_, loads_dumps_of_decoded blank_compact decoded_smallPlans
    floatsRead_smallPlans (fits_smallPlans (by decide)), ?_, smallPlans_required⟩
  rw [specs_filed smallPlans_ids]
  exact constructs_specs smallPlans.rows

theorem scalar_smallFile : ∀ c ∈ smallFile, Scalar c := by
  intro c hc
  have hprintable := printable_dumps (by decide) (by decide) _
    (decoded_smallPlans.writable floatsRead_smallPlans) c hc
  exact scalar_of_ascii (hprintable.2.trans (by decide))

theorem limits_of_the_file_reach_the_worker_small :
    ∃ out value, upstream_headers plainHeaders plainRuntime plainFormatting
        [(py "x-opendss-limits", py "1")] guestPlan 0 (py "r1") = .ok out ∧
      (out.rows.filter fun header => lowerName header.1 = lowerName (py "X-OpenDSS-Limits")) =
        [(py "X-OpenDSS-Limits", value)] ∧
      loads plainRuntime value =
        some (limitsObject guestPlan ⟨py "Guest", .str (py "No account needed."), []⟩) := by
  obtain ⟨out, hout⟩ : ∃ out, upstream_headers plainHeaders plainRuntime plainFormatting
      [(py "x-opendss-limits", py "1")] guestPlan 0 (py "r1") = .ok out :=
    ⟨_, upstream_headers_eq_ok.2 ⟨_, rfl, rfl⟩⟩
  have hplan : Represents (smallPlan (py "guest") (py "Guest") 10 [(py "maxNodes", .int 10)])
      guestPlan := ⟨rfl, rfl, rfl⟩
  have hfloats : FloatsRead plainRuntime (.obj guestPlan.limits.rows) :=
    ⟨trivial, trivial, trivial, trivial⟩
  have hblock : plan_block plainHeaders plainFormatting guestPlan 0 =
      .ok ⟨py "Guest", .str (py "No account needed."), []⟩ := rfl
  obtain ⟨record, -, hfind, hreach⟩ := limits_of_the_file_reach_the_worker scalar_smallFile
    load_plans_smallFile (by decide) (by decide) none
  cases hfind
  obtain ⟨value, hvalue, -, hloads, -⟩ := hreach guestPlan hplan hfloats plainHeaders
    plainFormatting 0 _ hblock (decodedText_py "No account needed.") _ _ out hout
  exact ⟨out, value, hout, hvalue, hloads⟩

end OpendssGateway
