import OpendssGateway.Gateway.Headers
import OpendssGateway.Gateway.RunningCalls

/-!
# The configuration

`Config.from_env` of `config.py` reads the `GATEWAY_*` variables, and
`Gateway.__init__` makes the scheduler of it.

* `from_env_settings`: the configuration is a function of the settings, which
  are the trimmed values of the variables that are not blank.
* `guests_leave_workers`: with whatever the variables say the gateway starts,
  and what it then guarantees to guests and to the others.

The flags of `os.environ` and the warning about a missing secret are left
out.  A path is its text, and `secrets.token_urlsafe(32)` is an argument.
-/

namespace OpendssGateway

/-! ## Reading a variable -/

/-- `os.environ`. -/
abbrev Environ := PyDict PyStr

/-- `s.rstrip("/")`. -/
def rstripSlash (s : PyStr) : PyStr :=
  s.rdropWhile (· == 47)

namespace Environ

/-- `env.get(key)`. -/
def get (env : Environ) (key : String) : Option PyStr :=
  (env.find? (py key)).map Prod.snd

/-- `_bool`. -/
def bool (rt : Runtime) (raw : Option PyStr) (default : Bool) : Bool :=
  match raw with
  | none => default
  | some raw =>
    if strip raw = [] then default
    else [py "1", py "true", py "yes", py "on"].contains (rt.lower (strip raw))

/-- `_bool(raw, True) if raw and raw.strip() else None`. -/
def optionalBool (rt : Runtime) (raw : Option PyStr) : Option Bool :=
  if strip (raw.getD []) = [] then none else some (bool rt raw true)

/-- `_num`.  The cast gives `none` for a `ValueError`. -/
def num {α : Type} (raw : Option PyStr) (default : α) (cast : PyStr → Option α) : α :=
  match raw with
  | none => default
  | some raw => if strip raw = [] then default else (cast (strip raw)).getD default

/-- `_str`. -/
def str (env : Environ) (key : String) (default : PyStr := []) : PyStr :=
  if strip ((env.get key).getD []) = [] then default else strip ((env.get key).getD [])

/-- `w.strip().rstrip("/")` of the parts of `raw.split(",")` that are not blank. -/
def workers (raw : PyStr) : List PyStr :=
  (raw.splitOnP (· == 44)).filterMap fun w =>
    if strip w = [] then none else some (rstripSlash (strip w))

end Environ

/-! ## The configuration -/

/-- `Config`. -/
structure Config where
  workers : List PyStr := [py "http://127.0.0.1:8721"]
  limits_header : PyStr := py "X-OpenDSS-Limits"
  db_path : PyStr := py "gateway.sqlite"
  plans_path : Option PyStr := none
  client_ip_header : PyStr := py "x-forwarded-for"
  max_queue : Int := 16
  queue_wait_s : Float := 45.0
  guest_max_workers : Option Int := none
  upstream_timeout_s : Float := 900.0
  drain_s : Float := 200.0
  host : PyStr := py "127.0.0.1"
  port : Int := 8730
  log_json : Bool := false
  secret : PyStr := []
  public_url : PyStr := py "http://127.0.0.1:8730"
  cookie_secure : Option Bool := none
  github_client_id : PyStr := []
  github_client_secret : PyStr := []
  google_client_id : PyStr := []
  google_client_secret : PyStr := []
  email_mode : PyStr := py "log"
  email_from : PyStr := py "OpenDSS Designer <no-reply@localhost>"
  resend_api_key : PyStr := []
  smtp_url : PyStr := []
  magic_per_ip_hour : Int := 6
  magic_per_email_hour : Int := 3
  operator_name : PyStr := py "the operator"
  support_email : PyStr := []
  stripe_secret_key : PyStr := []
  stripe_webhook_secret : PyStr := []
  stripe_price_id : PyStr := []
  stripe_automatic_tax : Bool := false
  pro_price_text : PyStr := py "$5 / month"

namespace Config

/-- The class attributes. -/
def cls : Config := {}

/-- `guest_workers`. -/
def guest_workers (cfg : Config) : Int :=
  -- `or` takes a zero for no setting.
  let n := match cfg.guest_max_workers with
    | some m => if m = 0 then (cfg.workers.length : Int) else m
    | none => cfg.workers.length
  max 1 (min n cfg.workers.length)

/-- `secure_cookies`. -/
def secure_cookies (cfg : Config) : Bool :=
  match cfg.cookie_secure with
  | some secure => secure
  | none => (py "https://").isPrefixOf cfg.public_url

/-- `from_env`. -/
def from_env (rt : Runtime) (env : Environ) (token : PyStr) : Config :=
  let workers := Environ.workers ((env.get "GATEWAY_WORKERS").getD [])
  let plans := env.str "GATEWAY_PLANS"
  let secret := env.str "GATEWAY_SECRET"
  { workers := if workers = [] then cls.workers else workers
    limits_header := env.str "GATEWAY_LIMITS_HEADER" cls.limits_header
    db_path := env.str "GATEWAY_DB" (py "gateway.sqlite")
    plans_path := if plans = [] then none else some plans
    client_ip_header := rt.lower (env.str "GATEWAY_CLIENT_IP_HEADER" cls.client_ip_header)
    max_queue := Environ.num (env.get "GATEWAY_MAX_QUEUE") cls.max_queue rt.parseInt
    queue_wait_s := Environ.num (env.get "GATEWAY_QUEUE_WAIT_S") cls.queue_wait_s rt.parseFloat
    guest_max_workers := Environ.num (env.get "GATEWAY_GUEST_MAX_WORKERS") none
      fun raw => (rt.parseInt raw).map some
    upstream_timeout_s := Environ.num (env.get "GATEWAY_UPSTREAM_TIMEOUT_S")
      cls.upstream_timeout_s rt.parseFloat
    drain_s := Environ.num (env.get "GATEWAY_DRAIN_S") cls.drain_s rt.parseFloat
    host := env.str "GATEWAY_HOST" cls.host
    port := Environ.num (env.get "PORT") cls.port rt.parseInt
    log_json := Environ.bool rt (env.get "GATEWAY_LOG_JSON") false
    secret := if secret = [] then token else secret
    public_url := rstripSlash (env.str "GATEWAY_PUBLIC_URL" cls.public_url)
    cookie_secure := Environ.optionalBool rt (env.get "GATEWAY_COOKIE_SECURE")
    github_client_id := env.str "GITHUB_CLIENT_ID"
    github_client_secret := env.str "GITHUB_CLIENT_SECRET"
    google_client_id := env.str "GOOGLE_CLIENT_ID"
    google_client_secret := env.str "GOOGLE_CLIENT_SECRET"
    email_mode := rt.lower (env.str "GATEWAY_EMAIL_MODE" (py "log"))
    email_from := env.str "EMAIL_FROM" cls.email_from
    resend_api_key := env.str "RESEND_API_KEY"
    smtp_url := env.str "SMTP_URL"
    magic_per_ip_hour := Environ.num (env.get "GATEWAY_MAGIC_PER_IP_HOUR") cls.magic_per_ip_hour
      rt.parseInt
    magic_per_email_hour := Environ.num (env.get "GATEWAY_MAGIC_PER_EMAIL_HOUR")
      cls.magic_per_email_hour rt.parseInt
    operator_name := env.str "GATEWAY_OPERATOR_NAME" cls.operator_name
    stripe_secret_key := env.str "STRIPE_SECRET_KEY"
    stripe_webhook_secret := env.str "STRIPE_WEBHOOK_SECRET"
    stripe_price_id := env.str "STRIPE_PRICE_ID"
    stripe_automatic_tax := Environ.bool rt (env.get "STRIPE_AUTOMATIC_TAX") false
    pro_price_text := env.str "GATEWAY_PRO_PRICE_TEXT" cls.pro_price_text
    support_email := env.str "GATEWAY_SUPPORT_EMAIL" }

end Config

/-! ## The settings -/

/-- White space in front of a text. -/
theorem strip_space_cons {c : Nat} (hc : isSpace c = true) (s : PyStr) :
    strip (c :: s) = strip s := by
  unfold strip
  rw [List.dropWhile_cons_of_pos hc]

/-- White space behind a text. -/
theorem strip_append_space {c : Nat} (hc : isSpace c = true) (s : PyStr) :
    strip (s ++ [c]) = strip s := by
  unfold strip
  rw [List.dropWhile_append]
  split
  · rename_i hempty
    rw [List.isEmpty_iff.1 hempty, List.dropWhile_cons_of_pos hc, List.dropWhile_nil]
  · exact List.rdropWhile_concat_pos _ _ _ hc

/-- The last part grows with the text. -/
theorem splitOnP_append_singleton {p : Nat → Bool} {c : Nat} (hc : p c = false) (s : PyStr) :
    ∃ parts last, s.splitOnP p = parts ++ [last] ∧
      (s ++ [c]).splitOnP p = parts ++ [last ++ [c]] := by
  induction s with
  | nil =>
    have hsingle : [c].splitOnP p = [[c]] :=
      List.splitOnP_eq_singleton fun d hd => by rw [List.mem_singleton.1 hd, hc]
    exact ⟨[], [], rfl, hsingle⟩
  | cons d s ih =>
    obtain ⟨parts, last, hs, hsc⟩ := ih
    rw [List.cons_append, List.splitOnP_cons_eq_if_modifyHead, List.splitOnP_cons_eq_if_modifyHead,
      hs, hsc]
    split
    · exact ⟨[] :: parts, last, rfl, rfl⟩
    · cases parts with
      | nil => exact ⟨[], d :: last, rfl, rfl⟩
      | cons part parts => exact ⟨(d :: part) :: parts, last, rfl, rfl⟩

namespace Environ

theorem workers_space_cons {c : Nat} (hc : isSpace c = true) (s : PyStr) :
    workers (c :: s) = workers s := by
  have hcomma : (c == 44) = false := by
    rw [beq_eq_false_iff_ne]
    rintro rfl
    exact absurd hc (by decide)
  unfold workers
  rw [List.splitOnP_cons_eq_if_modifyHead, hcomma, if_neg Bool.false_ne_true]
  cases s.splitOnP (· == 44) with
  | nil => rfl
  | cons part parts => simp only [List.modifyHead_cons, List.filterMap_cons, strip_space_cons hc]

theorem workers_append_space {c : Nat} (hc : isSpace c = true) (s : PyStr) :
    workers (s ++ [c]) = workers s := by
  have hcomma : (c == 44) = false := by
    rw [beq_eq_false_iff_ne]
    rintro rfl
    exact absurd hc (by decide)
  obtain ⟨parts, last, hs, hsc⟩ := splitOnP_append_singleton (p := (· == 44)) hcomma s
  unfold workers
  rw [hs, hsc, List.filterMap_append, List.filterMap_append, List.filterMap_cons,
    List.filterMap_cons, strip_append_space hc]

/-- White space around the list of workers changes nothing. -/
theorem workers_strip (s : PyStr) : workers (strip s) = workers s := by
  have hfront : ∀ s : PyStr, workers (s.dropWhile isSpace) = workers s := by
    intro s
    induction s with
    | nil => rfl
    | cons c s ih =>
      rw [List.dropWhile_cons]
      split
      · rename_i hc
        rw [ih, workers_space_cons hc]
      · rfl
  have hback : ∀ s : PyStr, workers (s.rdropWhile isSpace) = workers s := by
    intro s
    induction s using List.reverseRecOn with
    | nil => rfl
    | append_singleton s c ih =>
      rw [List.rdropWhile_concat]
      split
      · rename_i hc
        rw [ih, workers_append_space hc]
      · rfl
  rw [strip, hback, hfront]

/-- What a variable says: its trimmed value, unless it is blank. -/
def setting (env : Environ) (key : String) : Option PyStr :=
  if strip ((env.get key).getD []) = [] then none else some (strip ((env.get key).getD []))

variable {env env' : Environ} {key : String}

theorem str_eq (default : PyStr) : env.str key default = (env.setting key).getD default := by
  unfold str setting
  split <;> rfl

theorem num_eq {α : Type} (default : α) (cast : PyStr → Option α) :
    num (env.get key) default cast = ((env.setting key).bind cast).getD default := by
  unfold num setting
  cases env.get key with
  | none => rfl
  | some raw =>
    dsimp only [Option.getD_some]
    split <;> rfl

theorem bool_eq (rt : Runtime) (default : Bool) :
    bool rt (env.get key) default = ((env.setting key).map fun raw =>
      [py "1", py "true", py "yes", py "on"].contains (rt.lower raw)).getD default := by
  unfold bool setting
  cases env.get key with
  | none => rfl
  | some raw =>
    dsimp only [Option.getD_some]
    split <;> rfl

theorem optionalBool_eq (rt : Runtime) :
    optionalBool rt (env.get key) = (env.setting key).map fun raw =>
      [py "1", py "true", py "yes", py "on"].contains (rt.lower raw) := by
  unfold optionalBool
  rw [bool_eq]
  unfold setting
  split <;> rfl

theorem workers_eq :
    workers ((env.get key).getD []) = workers ((env.setting key).getD []) := by
  rw [← workers_strip]
  unfold setting
  split
  · rename_i hblank
    rw [hblank]
    rfl
  · rfl

end Environ

namespace Config

variable {rt : Runtime} {env env' : Environ} {token : PyStr}

/-- Environments with the same settings have the same configuration: white space around a value
changes nothing, and a blank variable is as good as none. -/
theorem from_env_settings (h : ∀ key, env.setting key = env'.setting key) :
    from_env rt env token = from_env rt env' token := by
  have hstr : ∀ key default, env.str key default = env'.str key default := by
    intro key default
    rw [Environ.str_eq, Environ.str_eq, h]
  have hnum : ∀ {α : Type} key (default : α) cast,
      Environ.num (env.get key) default cast = Environ.num (env'.get key) default cast := by
    intro α key default cast
    rw [Environ.num_eq, Environ.num_eq, h]
  have hbool : ∀ key default,
      Environ.bool rt (env.get key) default = Environ.bool rt (env'.get key) default := by
    intro key default
    rw [Environ.bool_eq, Environ.bool_eq, h]
  have hworkers : ∀ key,
      Environ.workers ((env.get key).getD []) = Environ.workers ((env'.get key).getD []) := by
    intro key
    rw [Environ.workers_eq, Environ.workers_eq, h]
  have hoptional : ∀ key,
      Environ.optionalBool rt (env.get key) = Environ.optionalBool rt (env'.get key) := by
    intro key
    rw [Environ.optionalBool_eq, Environ.optionalBool_eq, h]
  unfold from_env
  simp only [hstr, hnum, hbool, hworkers, hoptional]

/-- A variable with white space around its value, and a blank one. -/
def padded : Environ :=
  Table.ofRows [(py "GATEWAY_WORKERS", py "\n http://w1 , http://w2/ "),
    (py "GATEWAY_SECRET", py " ")]

def trimmed : Environ :=
  Table.ofRows [(py "GATEWAY_WORKERS", py "http://w1 , http://w2/")]

theorem from_env_settings_padded :
    from_env plainRuntime padded [] = from_env plainRuntime trimmed [] := by
  have hpadded : padded.rows =
      [(py "GATEWAY_WORKERS", py "\n http://w1 , http://w2/ "), (py "GATEWAY_SECRET", py " ")] := by
    decide +kernel
  have htrimmed : trimmed.rows = [(py "GATEWAY_WORKERS", py "http://w1 , http://w2/")] := by
    decide +kernel
  refine from_env_settings fun key => ?_
  unfold Environ.setting Environ.get Table.find?
  rw [hpadded, htrimmed, List.find?_cons, List.find?_cons, List.find?_cons]
  by_cases hworkers : py "GATEWAY_WORKERS" = py key
  · simp only [hworkers, decide_true, Option.map_some, Option.getD_some]
    decide +kernel
  · by_cases hsecret : py "GATEWAY_SECRET" = py key
    · simp only [hworkers, hsecret, decide_true, decide_false, List.find?_nil, Option.map_some,
        Option.map_none, Option.getD_some, Option.getD_none]
      decide +kernel
    · simp [hworkers, hsecret]

/-! ## The scheduler -/

/-- The text as the scheduler has it. -/
def textOf (s : PyStr) : String :=
  String.ofList (s.map Char.ofNat)

/-- The scheduler of `Gateway.__init__`, whose constructor raises `ValueError` without workers.
The wait is whatever `queue_wait_s` is. -/
def scheduler (cfg : Config) (waitS : ℚ) : Except PyError SchedulerConfig :=
  if h : cfg.workers = [] then .error .valueError
  else .ok {
    workers := cfg.workers.map textOf
    poolCaps := fun pool => if pool = "guest" then some cfg.guest_workers else none
    maxQueue := cfg.max_queue
    waitS := waitS
    nonempty := fun hnil => h (List.map_eq_nil_iff.1 hnil) }

theorem workers_ne_nil : (from_env rt env token).workers ≠ [] := by
  show (if Environ.workers ((env.get "GATEWAY_WORKERS").getD []) = [] then cls.workers
    else Environ.workers ((env.get "GATEWAY_WORKERS").getD [])) ≠ []
  split
  · exact List.cons_ne_nil _ _
  · assumption

/-- At least one worker is for guests, and at most all are. -/
theorem guest_workers_bounds {cfg : Config} (h : cfg.workers ≠ []) :
    1 ≤ cfg.guest_workers ∧ cfg.guest_workers ≤ cfg.workers.length := by
  have hpos := List.length_pos_iff.2 h
  unfold guest_workers
  dsimp only
  omega

/-- Whatever the variables say, the gateway has a scheduler, and in every state that it reaches:

* a worker has at most one call for each time it is named;
* guests are at between one and `guest_workers` of the workers, which are not more than all;
* a call of another pool waits, with fewer workers than its plan allows, only while all are out,
  and guests have at most `guest_workers` of them. -/
theorem guests_leave_workers (rt : Runtime) (env : Environ) (token : PyStr)
    (waitS upstreamTimeoutS : ℚ) (today : Date) :
    ∃ scheduler, (from_env rt env token).scheduler waitS = .ok scheduler ∧
      1 ≤ (from_env rt env token).guest_workers ∧
      (from_env rt env token).guest_workers ≤ scheduler.workers.length ∧
      ∀ g, (Gateway.machine ⟨scheduler, upstreamTimeoutS⟩ today).Reachable g →
        (∀ worker, g.running.countP (fun run => run.2.worker = worker) ≤
          scheduler.workers.count worker) ∧
        ((g.running.countP fun run => run.1.caller.plan.pool = "guest" : Nat) : Int) ≤
          (from_env rt env token).guest_workers ∧
        ∀ (k i : Nat) (r : Request), g.requests[k]? = some r → r.progress.waiting = some i →
          g.loop.sched.futures i = .pending → r.caller.plan.pool ≠ "guest" →
          ((g.loop.outstanding.countP fun grant =>
            grant.1.job.client = r.caller.client : Nat) : Int) < r.caller.plan.concurrency →
          g.loop.sched.free = [] ∧
            scheduler.workers.length - (from_env rt env token).guest_workers ≤
              (g.loop.outstanding.countP fun grant => grant.1.job.pool ≠ "guest" : Nat) := by
  have hne := @workers_ne_nil rt env token
  obtain ⟨hone, hall⟩ := guest_workers_bounds hne
  have hguest : (fun pool => if pool = "guest" then some (from_env rt env token).guest_workers
      else none) "guest" = some (from_env rt env token).guest_workers := rfl
  refine ⟨_, dif_neg hne, hone, by rw [List.length_map]; exact hall, fun g hg => ?_⟩
  refine ⟨fun worker => Gateway.running_worker_le hg worker,
    Gateway.running_pool_le hg hguest (by omega), ?_⟩
  intro k i r hr hwaiting hpending hpool hclient
  obtain ⟨hfree, hleft⟩ :=
    Gateway.waits_for_other_pools hg hr hwaiting hpending (if_neg hpool) hclient
  exact ⟨hfree, hleft "guest" _ hguest (by omega)⟩

/-! ### Two workers, one of them for guests -/

def twoWorkers : Environ :=
  Table.ofRows [(py "GATEWAY_WORKERS", py " http://w1/, http://w2 ,"),
    (py "GATEWAY_GUEST_MAX_WORKERS", py " 1 "), (py "GATEWAY_MAX_QUEUE", py "  ")]

theorem scheduler_twoWorkers :
    (from_env plainRuntime twoWorkers []).scheduler 45 = .ok Gateway.smallGateway.scheduler := by
  have hworkers : (from_env plainRuntime twoWorkers []).workers =
      [py "http://w1", py "http://w2"] := by
    decide +kernel
  have hguests : (from_env plainRuntime twoWorkers []).guest_workers = 1 := by decide +kernel
  have hqueue : (from_env plainRuntime twoWorkers []).max_queue = 16 := by decide +kernel
  unfold scheduler
  simp only [hworkers, hguests, hqueue]
  rfl

/-- A guest is at one worker and a member at the other, and another member waits. -/
def otherMember : Caller :=
  { Gateway.memberCaller with client := "user:2" }

def memberWaitingRun : List GatewayAction :=
  Gateway.bothRunningRun ++ [.arrive otherMember false "/api/solve" "r3", .body 2 .read]

def memberWaiting : Gateway :=
  ((Gateway.machine Gateway.smallGateway Gateway.newYear).run
    (Gateway.init Gateway.smallGateway Gateway.newYear) memberWaitingRun).getD
      (Gateway.init Gateway.smallGateway Gateway.newYear)

theorem guests_leave_workers_waiting :
    memberWaiting.loop.sched.free = [] ∧
      1 ≤ memberWaiting.loop.outstanding.countP fun grant => grant.1.job.pool ≠ "guest" := by
  obtain ⟨scheduler, hscheduler, -, -, hleave⟩ :=
    guests_leave_workers plainRuntime twoWorkers [] 45 900 Gateway.newYear
  rw [scheduler_twoWorkers] at hscheduler
  cases hscheduler
  have hreach : (Gateway.machine Gateway.smallGateway Gateway.newYear).Reachable memberWaiting :=
    Transition.Machine.reachable_of_run (Transition.eq_some_getD _ (by decide +kernel))
  have hguests : (from_env plainRuntime twoWorkers []).guest_workers = 1 := by decide +kernel
  have hr : memberWaiting.requests[2]? = some
      { caller := otherMember, path := "/api/solve", requestId := "r3", period := "2026-01-01"
        used := 0, checkedAt := 0, progress := .acquiring 2 } := rfl
  obtain ⟨hfree, hleft⟩ := (hleave memberWaiting hreach).2.2 2 2 _ hr rfl (by decide +kernel)
    (by decide) (by decide +kernel)
  rw [hguests] at hleft
  exact ⟨hfree, Int.ofNat_le.1 hleft⟩

end Config

end OpendssGateway
