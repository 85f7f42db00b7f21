import StarFabric.Go.Basic
import StarFabric.Lib.Fold
import StarFabric.Lib.Lease
import StarFabric.Lib.Prog

/-!
# Election by a Kubernetes Lease

`internal/leadership/kubernetes.go`. `tryAcquireOrRenew` is one attempt: it reads the Lease, and if
nobody else holds it, or if it has expired, writes its own name and the time of the attempt into it.
An attempt is a program over the requests to the API server (`API`). `serve` is the server, which
refuses to replace a version that is not the current one.
-/

namespace StarFabric.Leadership

open Go EffectProgram ExceptFold Leasing

/-! ### Configuration -/

structure Config where
  apiEndpoint : String := ""
  leaseNamespace : String := ""
  namespacePath : String := ""
  tokenPath : String := ""
  caPath : String := ""
  leaseName : String := ""
  identity : String := ""
  leaseDuration : Duration := 0
  retryPeriod : Duration := 0
  deriving DecidableEq, Repr

/-- The parts of a URL that are looked at. -/
structure URL where
  scheme : String
  host : String
  hostname : String

structure Host where
  getenv : String → String
  parseURL : String → Except String URL
  parseRequestURI : String → Except String Unit
  readFile : String → Except String String
  trimSpace : String → String
  appendCertsFromPEM : String → Bool

/-- `Elector`, without its flag. Of the client only the timeout matters. -/
structure Elector where
  config : Config
  timeout : Duration
  token : String
  deriving DecidableEq, Repr

def defaultTokenPath : String := "/var/run/secrets/kubernetes.io/serviceaccount/token"
def defaultNamespacePath : String := "/var/run/secrets/kubernetes.io/serviceaccount/namespace"
def defaultCAPath : String := "/var/run/secrets/kubernetes.io/serviceaccount/ca.crt"

section New

variable (h : Host) (config : Config)

def withPaths : Config :=
  { config with
    tokenPath := if config.tokenPath = "" then defaultTokenPath else config.tokenPath
    namespacePath :=
      if config.namespacePath = "" then defaultNamespacePath else config.namespacePath
    caPath := if config.caPath = "" then defaultCAPath else config.caPath }

def withEndpoint : Except String Config :=
  if config.apiEndpoint = "" then
    let host := h.getenv "KUBERNETES_SERVICE_HOST"
    let port := h.getenv "KUBERNETES_SERVICE_PORT_HTTPS"
    -- the port may be missing, the host may not
    let port := if port = "" then "443" else port
    if host = "" then .error "KUBERNETES_SERVICE_HOST is not set"
    else .ok { config with apiEndpoint := "https://" ++ host ++ ":" ++ port }
  else .ok config

/-- Whether the endpoint is a loopback one without TLS. Others need TLS. -/
def loopbackHTTP : Except String Bool :=
  match h.parseURL config.apiEndpoint with
  | .error _ => .error "Kubernetes API endpoint must be an absolute URL"
  | .ok endpoint =>
    if endpoint.scheme = "" ∨ endpoint.host = "" then
      .error "Kubernetes API endpoint must be an absolute URL"
    else
      let loopback := endpoint.scheme = "http" ∧ (endpoint.hostname = "127.0.0.1" ∨
        endpoint.hostname = "localhost" ∨ endpoint.hostname = "::1")
      if endpoint.scheme ≠ "https" ∧ ¬ loopback then
        .error "Kubernetes API endpoint requires HTTPS except for a loopback test endpoint"
      else .ok loopback

def withNamespace : Except String Config :=
  if config.leaseNamespace = "" then
    match h.readFile config.namespacePath with
    | .error e => .error ("read Kubernetes namespace: " ++ e)
    | .ok value => .ok { config with leaseNamespace := h.trimSpace value }
  else .ok config

def checkNames : Except String Unit :=
  if config.leaseName = "" ∨ config.identity = "" ∨ config.leaseNamespace = "" then
    .error "lease name, identity, and namespace are required"
  else .ok ()

def defaultDurations : Config :=
  { config with
    leaseDuration := if config.leaseDuration ≤ 0 then 15 * second else config.leaseDuration
    retryPeriod := if config.retryPeriod ≤ 0 then 2 * second else config.retryPeriod }

def withDurations : Except String Config :=
  let config := defaultDurations config
  if config.leaseDuration.tdiv 2 ≤ config.retryPeriod then
    .error "leader retry period must be less than half the lease duration"
  else .ok config

def readToken : Except String String :=
  match h.readFile config.tokenPath with
  | .error e => .error ("read Kubernetes service-account token: " ++ e)
  | .ok token =>
    if h.trimSpace token = "" then .error "Kubernetes service-account token is empty"
    else .ok (h.trimSpace token)

def checkCA (loopback : Bool) : Except String Unit :=
  if loopback then .ok ()
  else match h.readFile config.caPath with
    | .error e => .error ("read Kubernetes CA: " ++ e)
    | .ok ca =>
      if h.appendCertsFromPEM ca then .ok () else .error "Kubernetes CA contains no certificate"

def newWithClient (timeout : Duration) (token : String) : Except String Elector :=
  match h.parseRequestURI config.apiEndpoint with
  | .error e => .error ("invalid Kubernetes API endpoint: " ++ e)
  | .ok _ => .ok ⟨config, timeout, token⟩

/-- `New`. The timeout of a request is the retry period. -/
def new : Except String Elector := do
  let config ← withEndpoint h (withPaths config)
  -- the checks come in this order, and the first that fails is reported
  let loopback ← loopbackHTTP h config
  let config ← withNamespace h config
  checkNames config
  let config ← withDurations config
  let token ← readToken h config
  checkCA h config loopback
  newWithClient h config config.retryPeriod token

end New

/-- The checks of `new` that matter for the election. -/
structure Elector.Checked (e : Elector) : Prop where
  identity : e.config.identity ≠ ""
  retryPeriod : 0 < e.config.retryPeriod
  half : e.config.retryPeriod < e.config.leaseDuration.tdiv 2
  timeout : e.timeout = e.config.retryPeriod

theorem retryPeriod_pos (config : Config) : 0 < (defaultDurations config).retryPeriod := by
  show 0 < if config.retryPeriod ≤ 0 then 2 * second else config.retryPeriod
  split_ifs with hnone
  · decide
  · exact not_le.mp hnone

theorem checked_of_new {h : Host} {config : Config} {e : Elector} (hnew : new h config = .ok e) :
    e.Checked := by
  -- the stages of `new`, from the first to the last
  obtain ⟨c₁, -, hnew⟩ := bind_eq_ok.mp hnew
  obtain ⟨loopback, -, hnew⟩ := bind_eq_ok.mp hnew
  obtain ⟨c₂, -, hnew⟩ := bind_eq_ok.mp hnew
  obtain ⟨_, hnames, hnew⟩ := bind_eq_ok.mp hnew
  obtain ⟨c₃, hdurations, hnew⟩ := bind_eq_ok.mp hnew
  obtain ⟨token, -, hnew⟩ := bind_eq_ok.mp hnew
  obtain ⟨_, -, hnew⟩ := bind_eq_ok.mp hnew
  have hname : c₂.identity ≠ "" := by
    unfold checkNames at hnames
    split_ifs at hnames with hmissing
    exact fun hempty => hmissing (.inr (.inl hempty))
  unfold withDurations at hdurations
  dsimp only at hdurations
  split_ifs at hdurations with hhalf
  cases hdurations
  unfold newWithClient at hnew
  split at hnew
  · cases hnew
  · cases Except.ok.inj hnew
    exact ⟨hname, retryPeriod_pos c₂, not_le.mp hhalf, rfl⟩

/-! ### The Lease -/

/-- The text of a time, by what `time.Parse` makes of it. -/
inductive Timestamp where
  | empty
  | stamp (t : Time)
  | malformed (err : String)
  deriving DecidableEq, Repr

def microsecond : Duration := 1000

def truncated (now : Time) : Time := now - now % microsecond

/-- `lease`, with its metadata and its spec. -/
structure Lease where
  apiVersion : String := ""
  kind : String := ""
  name : String := ""
  leaseNamespace : String := ""
  resourceVersion : ℕ := 0
  holderIdentity : String := ""
  leaseDurationSeconds : Int32 := 0
  acquireTime : Timestamp := .empty
  renewTime : Timestamp := .empty
  leaseTransitions : Int32 := 0
  deriving DecidableEq, Repr

def Lease.expires (l : Lease) : Except String Time :=
  match l.renewTime with
  -- the zero time is over for everybody
  | .empty => .ok 0
  | .malformed err => .error ("parse Lease renewTime: " ++ err)
  | .stamp renewed => .ok (renewed + l.leaseDurationSeconds.toInt * second)

section Attempt

variable (config : Config) (now : Time)

def Config.seconds : Int32 := Int32.ofInt (config.leaseDuration.tdiv second)

def createdLease : Lease where
  apiVersion := "coordination.k8s.io/v1"
  kind := "Lease"
  name := config.leaseName
  leaseNamespace := config.leaseNamespace
  holderIdentity := config.identity
  leaseDurationSeconds := config.seconds
  acquireTime := .stamp (truncated now)
  renewTime := .stamp (truncated now)

def claimedLease (current : Lease) : Lease :=
  { current with
    acquireTime :=
      if current.holderIdentity ≠ config.identity then .stamp (truncated now)
      else current.acquireTime
    leaseTransitions :=
      if current.holderIdentity ≠ config.identity then current.leaseTransitions + 1
      else current.leaseTransitions
    holderIdentity := config.identity
    leaseDurationSeconds := config.seconds
    renewTime := .stamp (truncated now) }

end Attempt

/-! ### An attempt -/

inductive Call where
  | get
  | post (value : Lease)
  | put (value : Lease)

/-- `get` returns a Lease, a status and an error, `write` a status and an error. -/
def API : Interface where
  Call := Call
  Answer
    | .get => Lease × ℕ × Option String
    | .post _ => ℕ × Option String
    | .put _ => ℕ × Option String

abbrev Outcome := Bool × Option String

def afterWrite (success : ℕ) (answer : ℕ × Option String) : Outcome :=
  -- a conflict is no error: somebody else was faster
  if answer.1 = 409 then (false, none) else (answer.1 = success, answer.2)

/-- `tryAcquireOrRenew`, after the Lease was read. -/
def afterGet (config : Config) (now : Time) (answer : Lease × ℕ × Option String) :
    Prog API Outcome :=
  if answer.2.2 ≠ none then .done (false, answer.2.2)
  -- there is no Lease yet
  else if answer.2.1 = 404 then
    .call (.post (createdLease config now)) fun written => .done (afterWrite 201 written)
  else if answer.2.1 ≠ 200 then
    .done (false, some ("get Kubernetes Lease returned " ++ toString answer.2.1))
  else match answer.1.expires with
    | .error err => .done (false, some err)
    | .ok expiry =>
      -- somebody else holds the Lease
      if answer.1.holderIdentity ≠ "" ∧ answer.1.holderIdentity ≠ config.identity ∧
          now < expiry then .done (false, none)
      else .call (.put (claimedLease config now answer.1)) fun written =>
        .done (afterWrite 200 written)

def tryAcquireOrRenew (config : Config) (now : Time) : Prog API Outcome :=
  .call .get (afterGet config now)

def MayClaim (config : Config) (now : Time) (current : Lease) : Prop :=
  ∃ expiry, current.expires = .ok expiry ∧
    (current.holderIdentity = "" ∨ current.holderIdentity = config.identity ∨ expiry ≤ now)

theorem afterGet_read (config : Config) (now : Time) (current : Lease) :
    (∃ err, afterGet config now (current, 200, none) = .done (false, err)) ∨
      MayClaim config now current ∧ afterGet config now (current, 200, none) =
        .call (.put (claimedLease config now current)) fun written =>
          .done (afterWrite 200 written) := by
  unfold afterGet
  rw [if_neg (not_not.mpr rfl), if_neg (by decide : ¬ (200 : ℕ) = 404), if_neg (not_not.mpr rfl)]
  cases hexpires : current.expires with
  | error err => exact .inl ⟨some err, rfl⟩
  | ok expiry =>
    dsimp only
    split_ifs with hheld
    · exact .inl ⟨none, rfl⟩
    · refine .inr ⟨⟨expiry, hexpires, ?_⟩, rfl⟩
      by_contra hnot
      rw [not_or, not_or, not_le] at hnot
      exact hheld hnot

/-! ### The server -/

def serve : Handler API (Option Lease)
  | .get, none => (({}, 404, none), none)
  | .get, some l => ((l, 200, none), some l)
  | .post value, none => ((201, none), some { value with resourceVersion := 1 })
  | .post _, some l => ((409, none), some l)
  | .put _, none => ((404, some "Kubernetes Lease PUT: 404 not found"), none)
  | .put value, some l =>
    if value.resourceVersion = l.resourceVersion then
      ((200, none), some { value with resourceVersion := l.resourceVersion + 1 })
    else ((409, none), some l)

def failure (status : ℕ) (message : String) : (c : API.Call) → API.Answer c
  | .get => ({}, status, some message)
  | .post _ => (status, some message)
  | .put _ => (status, some message)

end StarFabric.Leadership
