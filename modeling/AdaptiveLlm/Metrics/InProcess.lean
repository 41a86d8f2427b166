import AdaptiveLlm.Lib.Inventory
import AdaptiveLlm.Python.Text
import Mathlib.Data.Rat.Defs
import Mathlib.Data.Finset.Lattice.Fold

set_option autoImplicit false

/-! # Metrics in the process

`InProcessMetrics` (`metrics/__init__.py`). The values of a label that is not from a fixed set share a
bounded inventory of slots: one without a slot is counted as `other`. Looking a series up resolves its
labels as counting does, so a `get` takes slots too, and a later call can be refused one for it.

Two runs are compared, of which the second leaves out some reads. Along both, the inventories of the
smaller run are part of those of the larger one, in the sense of `Lib/Inventory.lean`; where a call
is refused a slot in the larger run that it has in the smaller one, only a removed read can be
holding it. The condition of the theorem is about the inventories before each call and the labels of
the reads, so it can be checked along a run without comparing results. -/

namespace AdaptiveLlm

open Inventory (Admits Fewer use)

/-- The counters there are. -/
def counterNames : List String :=
  ["requests", "fallback_free_attempts", "outbox_delivered", "outbox_retried", "dead_letter",
    "dropped_events", "persistence_failures", "degraded_emissions", "replay_hits", "dispatcher_failures",
    "route_distribution", "fallback_reasons", "shadow_opportunities", "shadow_completed", "shadow_drops",
    "shadow_cost_micros", "shadow_failures", "live_planner_failures", "validation_advisory_failures"]

/-- The gauges there are. -/
def gaugeNames : List String :=
  ["outbox_pending", "outbox_dead", "dispatcher_lag_seconds", "shadow_queue_depth", "shadow_coverage",
    "breaker_state", "kill_switch"]

/-- The values of the label `status_class`. -/
def statusClasses : List String := ["2xx", "3xx", "4xx", "5xx"]

/-- The values of the label `method`. -/
def httpMethods : List String :=
  ["GET", "HEAD", "POST", "PUT", "PATCH", "DELETE", "OPTIONS", "TRACE", "CONNECT", "OTHER"]

/-- The checks that are counted under their own names. -/
def builtinChecks : List String :=
  ["non_empty", "citation_ids", "json_object", "tool_allowlist", "citation_required", "groundedness",
    "language", "repetition", "truncation"]

/-- The reasons of a fallback that are counted under their own names. -/
def allowedReasons : List String :=
  ["validation_failure", "endpoint_error", "deadline_risk", "policy_uncertainty", "unsupported_tool",
    "low_confidence", "out_of_distribution", "low_quality", "circuit_open", "live_specialists_disabled",
    "deployment_disabled", "state_ineligible", "context_length", "unsupported_modality",
    "canary_not_assigned", "not_cheapest", "not_selected", "queue_full", "disabled",
      "unhealthy", "shutdown"]

/-- The labels a call is given. -/
structure MetricLabels where
  tenantId : Option String := none
  statusClass : Option String := none
  method : Option String := none
  deploymentId : Option String := none
  reason : Option String := none
  checkName : Option String := none
  deriving DecidableEq

/-- A series: a name with resolved labels. -/
structure SeriesKey extends MetricLabels where
  name : String
  deriving DecidableEq

/-- The values of the series, and the labels that were seen. -/
structure InProcessMetrics where
  values : SeriesKey → Option ℚ := fun _ => none
  deployments : Finset String := ∅
  domainChecks : Finset String := ∅
  tenants : Finset String := ∅

namespace InProcessMetrics

/-! ## Labels -/

/-- A label with an inventory, and the inventory with it. -/
def bounded (cap : ℕ) (inventory : Finset String) : Option String → Option String × Finset String
  | none => (none, inventory)
  | some value =>
    if value ∉ inventory ∧ cap ≤ inventory.card then (some "other", inventory)
    else (some value, insert value inventory)

variable (wide : Char → Bool) (m : InProcessMetrics)

/-- `_tenant`. -/
def tenant (value : Option String) : Option String × InProcessMetrics :=
  let (label, tenants) := bounded 64 m.tenants value
  (label, { m with tenants })

/-- `_deployment`. -/
def deployment (value : Option String) : Option String × InProcessMetrics :=
  let (label, deployments) := bounded 64 m.deployments value
  (label, { m with deployments })

/-- `re.fullmatch(r"domain\.[\w.-]{1,100}", value)`. -/
def isDomainCheck (value : String) : Bool :=
  let rest := value.toList.drop 7
  "domain.".toList.isPrefixOf value.toList && 1 ≤ rest.length && rest.length ≤ 100 &&
    rest.all fun c => Python.isWord wide c || c = '.' || c = '-'

/-- `_check_name`. -/
def checkName (value : Option String) : Option String × InProcessMetrics :=
  match value with
  | none => (none, m)
  | some value =>
    if value ∈ builtinChecks then (some value, m)
    else if isDomainCheck wide value ∧ (value ∈ m.domainChecks ∨ m.domainChecks.card < 32) then
      (some value, { m with domainChecks := insert value m.domainChecks })
    else (some "other", m)

/-- `_reason`. -/
def reason (value : Option String) : Option String :=
  value.map fun value => if value ∈ allowedReasons then value else "other"

/-- The key that `increment` and `get` build. -/
def series (name : String) (labels : MetricLabels) : SeriesKey × InProcessMetrics :=
  let (tenantId, m) := m.tenant labels.tenantId
  let (deploymentId, m) := m.deployment labels.deploymentId
  let (checkName, m) := m.checkName wide labels.checkName
  ({ labels with name, tenantId, deploymentId, reason := reason labels.reason, checkName }, m)

/-! ## Calls -/

/-- `increment`, or the error that the call is no valid one. -/
def increment (name : String) (value : ℤ) (labels : MetricLabels) : Except String InProcessMetrics :=
  if name ∉ counterNames ∨ value < 0 ∨ labels.statusClass.any (· ∉ statusClasses) ∨
      labels.method.any (· ∉ httpMethods) then .error "invalid_metric"
  else
    let (key, m) := m.series wide name labels
    .ok { m with values := Function.update m.values key (some ((m.values key).getD 0 + value)) }

/-- `gauge`, or the error that the call is no valid one. -/
def gauge (name : String) (value : ℚ) (deploymentId : Option String) : Except String InProcessMetrics :=
  if name ∉ gaugeNames then .error "invalid_metric"
  else
    let (deploymentId, m) := m.deployment deploymentId
    .ok { m with values := Function.update m.values { name, deploymentId } (some value) }

/-- `get`: the value of a series, which also takes a place for its labels. -/
def get (name : String) (labels : MetricLabels) : ℚ × InProcessMetrics :=
  let (key, m) := m.series wide name labels
  ((m.values key).getD 0, m)

end InProcessMetrics

/-- The calls of the metrics. -/
inductive MetricsCall where
  | increment (name : String) (value : ℤ) (labels : MetricLabels)
  | gauge (name : String) (value : ℚ) (deploymentId : Option String)
  | get (name : String) (labels : MetricLabels)

namespace InProcessMetrics

variable (wide : Char → Bool) (m : InProcessMetrics)

/-- What a call returns, and the metrics behind it. -/
def call : MetricsCall → Except String (Option ℚ) × InProcessMetrics
  | .increment name value labels =>
    match m.increment wide name value labels with
    | .ok m' => (.ok none, m')
    | .error e => (.error e, m)
  | .gauge name value deploymentId =>
    match m.gauge name value deploymentId with
    | .ok m' => (.ok none, m')
    | .error e => (.error e, m)
  | .get name labels => (.ok (m.get wide name labels).1, (m.get wide name labels).2)

/-- What the calls return one after the other, and the metrics behind them. -/
def run : InProcessMetrics → List MetricsCall → List (Except String (Option ℚ)) × InProcessMetrics
  | m, [] => ([], m)
  | m, c :: calls =>
    let rest := run (m.call wide c).2 calls
    ((m.call wide c).1 :: rest.1, rest.2)

end InProcessMetrics

/-! ## Inventories

There are three kinds of label that clients can invent, and each has an inventory of limited size. A
label that comes when the inventory is full shares the series `other`, and stays there, for no label
is ever forgotten. -/

/-- The three inventories. -/
inductive LabelInventory where
  | tenants
  | deployments
  | domainChecks
  deriving DecidableEq

/-- How many labels of a kind get a series of their own. -/
def LabelInventory.cap : LabelInventory → ℕ
  | tenants => 64
  | deployments => 64
  | domainChecks => 32

/-- The labels of a kind that were seen. -/
def InProcessMetrics.inventory (m : InProcessMetrics) : LabelInventory → Finset String
  | .tenants => m.tenants
  | .deployments => m.deployments
  | .domainChecks => m.domainChecks

/-- The name of a check that needs a slot. -/
def domainCheck (wide : Char → Bool) (value : Option String) : Option String :=
  value.filter fun v => v ∉ builtinChecks ∧ InProcessMetrics.isDomainCheck wide v

/-- The label that is looked up in an inventory. -/
def MetricLabels.wants (wide : Char → Bool) (labels : MetricLabels) : LabelInventory → Option String
  | .tenants => labels.tenantId
  | .deployments => labels.deploymentId
  | .domainChecks => domainCheck wide labels.checkName

namespace InProcessMetrics

variable {wide : Char → Bool} {m m' : InProcessMetrics}

/-- An inventory behind a label. -/
def useLabel (cap : ℕ) (inventory : Finset String) (value : Option String) : Finset String :=
  value.elim inventory (use cap inventory)

/-- The label, or `other` where it is refused a slot. -/
def resolved (cap : ℕ) (inventory : Finset String) (value : Option String) : Option String :=
  value.map fun v => if Admits cap inventory v then v else "other"

theorem bounded_eq (cap : ℕ) (inventory : Finset String) (value : Option String) :
    bounded cap inventory value = (resolved cap inventory value, useLabel cap inventory value) := by
  cases value with
  | none => rfl
  | some v =>
    have hiff : (v ∉ inventory ∧ cap ≤ inventory.card) ↔ ¬ Admits cap inventory v := by
      rw [Admits, not_or, not_lt]
    simp only [bounded, resolved, useLabel, Option.map_some, Option.elim_some, use, hiff]
    by_cases h : Admits cap inventory v
    · simp [h]
    · simp [h]

/-- `_check_name` gives the names of validators slots as the other labels are given theirs. -/
theorem checkName_eq (value : Option String) :
    m.checkName wide value =
      ((domainCheck wide value).elim (value.map fun v => if v ∈ builtinChecks then v else "other")
        (fun v => resolved 32 m.domainChecks (some v)),
        { m with domainChecks := useLabel 32 m.domainChecks (domainCheck wide value) }) := by
  cases value with
  | none => rfl
  | some v =>
    by_cases hbuiltin : v ∈ builtinChecks
    · have hwants : domainCheck wide (some v) = none := by simp [domainCheck, Option.filter, hbuiltin]
      rw [hwants]
      simp [checkName, hbuiltin, useLabel]
    · by_cases hdomain : isDomainCheck wide v = true
      · have hwants : domainCheck wide (some v) = some v := by
          simp [domainCheck, Option.filter, hbuiltin, hdomain]
        rw [hwants]
        by_cases hadmits : v ∈ m.domainChecks ∨ m.domainChecks.card < 32
        · simp [checkName, hbuiltin, hdomain, useLabel, resolved, use, Admits, hadmits]
        · simp [checkName, hbuiltin, hdomain, useLabel, resolved, use, Admits, hadmits]
      · have hwants : domainCheck wide (some v) = none := by simp [domainCheck, Option.filter, hdomain]
        rw [hwants]
        simp [checkName, hbuiltin, hdomain, useLabel]

theorem series_values (name : String) (labels : MetricLabels) :
    (m.series wide name labels).2.values = m.values := by
  simp only [series, tenant, deployment, checkName_eq]

/-- What a call leaves in an inventory. -/
theorem series_inventory (name : String) (labels : MetricLabels) (i : LabelInventory) :
    (m.series wide name labels).2.inventory i = useLabel i.cap (m.inventory i) (labels.wants wide i) := by
  simp only [series, tenant, deployment, checkName_eq, bounded_eq]
  cases i <;> rfl

/-- The labels fare alike in two inventories. -/
def Alike (m m' : InProcessMetrics) (wants : LabelInventory → Option String) : Prop :=
  ∀ i, ∀ v ∈ wants i, Admits i.cap (m.inventory i) v ↔ Admits i.cap (m'.inventory i) v

theorem resolved_congr {cap : ℕ} {inventory inventory' : Finset String} {value : Option String}
    (h : ∀ v ∈ value, Admits cap inventory v ↔ Admits cap inventory' v) :
    resolved cap inventory value = resolved cap inventory' value := by
  cases value with
  | none => rfl
  | some v => simp only [resolved, Option.map_some, h v rfl]

/-- The key depends on the inventories only by the slots that the labels have or get. -/
theorem series_congr {labels : MetricLabels} (h : Alike m m' (labels.wants wide)) (name : String) :
    (m.series wide name labels).1 = (m'.series wide name labels).1 := by
  have htenant := resolved_congr (h .tenants)
  have hdeployment := resolved_congr (h .deployments)
  have hcheck : ∀ v, domainCheck wide labels.checkName = some v →
      resolved 32 m.domainChecks (some v) = resolved 32 m'.domainChecks (some v) := by
    intro v hv
    exact resolved_congr fun w hw => h .domainChecks w (hv.trans hw)
  simp only [series, tenant, deployment, checkName_eq, bounded_eq]
  simp only [inventory, LabelInventory.cap, MetricLabels.wants] at htenant hdeployment
  rw [htenant, hdeployment]
  cases hwants : domainCheck wide labels.checkName with
  | none => rfl
  | some v => simp only [Option.elim_some, hcheck v hwants]

end InProcessMetrics

/-! ## Calls that are not refused

A call with an unknown name, status class or method, or with a negative increment, raises and
changes nothing. The others differ in what they do to one value only, so one lemma is enough for the
inventories of all three. -/

namespace MetricsCall

/-- The series that a call names. -/
def name : MetricsCall → String
  | increment name .. => name
  | gauge name .. => name
  | get name _ => name

/-- The labels that a call gives. -/
def labels : MetricsCall → MetricLabels
  | increment _ _ labels => labels
  | gauge _ _ deploymentId => { deploymentId }
  | get _ labels => labels

/-- A call that passes the checks. -/
def Valid : MetricsCall → Prop
  | increment name value labels =>
    ¬(name ∉ counterNames ∨ value < 0 ∨ labels.statusClass.any (· ∉ statusClasses) ∨
      labels.method.any (· ∉ httpMethods))
  | gauge name .. => name ∈ gaugeNames
  | get .. => True

instance : DecidablePred Valid
  | increment .. => inferInstanceAs (Decidable (¬_))
  | gauge name .. => inferInstanceAs (Decidable (name ∈ gaugeNames))
  | get .. => inferInstanceAs (Decidable True)

/-- The labels for which it needs slots. -/
def wants (wide : Char → Bool) (c : MetricsCall) (i : LabelInventory) : Option String :=
  if c.Valid then c.labels.wants wide i else none

/-- What it returns for the value of its series. -/
def answer (value : Option ℚ) : MetricsCall → Option ℚ
  | increment .. => none
  | gauge .. => none
  | get .. => some (value.getD 0)

/-- What it makes of the values. -/
def write (key : SeriesKey) (values : SeriesKey → Option ℚ) : MetricsCall → SeriesKey → Option ℚ
  | increment _ value _ => Function.update values key (some ((values key).getD 0 + value))
  | gauge _ value _ => Function.update values key (some value)
  | get .. => values

end MetricsCall

namespace InProcessMetrics

variable {wide : Char → Bool} {m m' : InProcessMetrics} {c : MetricsCall}

theorem call_of_not_valid (h : ¬c.Valid) : m.call wide c = (.error "invalid_metric", m) := by
  cases c with
  | increment name value labels =>
    rw [MetricsCall.Valid, not_not] at h
    rw [call, increment, if_pos h]
  | gauge name value deploymentId =>
    have hname : name ∉ gaugeNames := h
    rw [call, gauge, if_pos hname]
  | get name labels => exact absurd trivial h

theorem call_of_valid (h : c.Valid) :
    m.call wide c = (.ok (c.answer (m.values (m.series wide c.name c.labels).1)),
      { (m.series wide c.name c.labels).2 with
        values := c.write (m.series wide c.name c.labels).1 m.values }) := by
  cases c with
  | increment name value labels =>
    rw [call, increment, if_neg h]
    simp only [series_values]
    rfl
  | gauge name value deploymentId =>
    have hname : ¬name ∉ gaugeNames := not_not.2 h
    rw [call, gauge, if_neg hname]
    rfl
  | get name labels =>
    have hvalues := @series_values wide m name labels
    refine Prod.ext ?_ ?_
    · simp only [call, get, hvalues]
      rfl
    · exact congrArg (fun values => { (m.series wide name labels).2 with values }) hvalues

/-- What a call leaves in an inventory. -/
theorem inventory_call (i : LabelInventory) :
    (m.call wide c).2.inventory i = useLabel i.cap (m.inventory i) (c.wants wide i) := by
  by_cases h : c.Valid
  · have hsame : ∀ m' : InProcessMetrics, ∀ values,
        ({ m' with values } : InProcessMetrics).inventory i = m'.inventory i := by
      intro m' values
      cases i <;> rfl
    rw [call_of_valid h, hsame, series_inventory, MetricsCall.wants, if_pos h]
  · rw [call_of_not_valid h, MetricsCall.wants, if_neg h]
    rfl

/-- Calls with alike labels on the same values. -/
theorem call_congr (hvalues : m.values = m'.values) (h : Alike m m' (c.wants wide)) :
    (m.call wide c).1 = (m'.call wide c).1 ∧ (m.call wide c).2.values = (m'.call wide c).2.values := by
  by_cases hvalid : c.Valid
  · have halike : Alike m m' (c.labels.wants wide) := by
      simpa [Alike, MetricsCall.wants, hvalid] using h
    rw [call_of_valid hvalid, call_of_valid hvalid, series_congr halike, hvalues]
    exact ⟨rfl, rfl⟩
  · rw [call_of_not_valid hvalid, call_of_not_valid hvalid]
    exact ⟨rfl, hvalues⟩

theorem values_get (name : String) (labels : MetricLabels) :
    (m.call wide (.get name labels)).2.values = m.values := by
  rw [call_of_valid (c := .get name labels) trivial]
  rfl

end InProcessMetrics

/-! ## Removing reads

Each call of a run is marked as kept or removed. The smaller run meets smaller inventories, and the
condition says of each kept call that no label of it is refused because of a removed one. -/

/-- A call of a run from which some of the `get` calls are removed. -/
structure MarkedCall where
  call : MetricsCall
  removed : Bool := false
  read : removed = true → ∃ name labels, call = .get name labels

/-- The calls that are left. -/
def kept (calls : List MarkedCall) : List MetricsCall := (calls.filter (!·.removed)).map (·.call)

/-- What the calls that are left return in the run of all. -/
def keptReturns (wide : Char → Bool) (m : InProcessMetrics) (calls : List MarkedCall) :
    List (Except String (Option ℚ)) :=
  ((calls.zip (m.run wide (calls.map (·.call))).1).filter (!·.1.removed)).map (·.2)

/-- The labels of an inventory that the calls left so far have given. -/
abbrev Named := LabelInventory → Finset String

/-- The labels that were given, with those of one more call. -/
def Named.add (named : Named) (wants : LabelInventory → Option String) : Named := fun i =>
  (wants i).elim (named i) (insert · (named i))

/-- The call is refused no slot, unless labels that the calls left so far have given hold them all. -/
def Fits (wide : Char → Bool) (m : InProcessMetrics) (named : Named) (c : MetricsCall) : Prop :=
  ∀ i, ∀ v ∈ c.wants wide i,
    Admits i.cap (m.inventory i) v ∨ i.cap ≤ (m.inventory i ∩ named i).card

/-- Every call that is left fits, in the run of all calls. -/
def Uncrowded (wide : Char → Bool) : InProcessMetrics → Named → List MarkedCall → Prop
  | _, _, [] => True
  | m, named, c :: calls =>
    (c.removed = false → Fits wide m named c.call) ∧
      Uncrowded wide (m.call wide c.call).2
        (if c.removed then named else named.add (c.call.wants wide)) calls

/-- The metrics of the run of all calls, and those of the run of the calls that are left. -/
structure Related (named : Named) (m m' : InProcessMetrics) : Prop where
  values : m'.values = m.values
  inventories : ∀ i, Fewer i.cap (named i) (m.inventory i) (m'.inventory i)

namespace Related

variable {wide : Char → Bool} {named : Named} {m m' : InProcessMetrics}

theorem start : Related (fun _ => ∅) {} {} where
  values := rfl
  inventories i := by
    cases i <;> exact Fewer.empty _

/-- **Step lemma**, of a call that is removed. -/
theorem skip (h : Related named m m') (name : String) (labels : MetricLabels) :
    Related named (m.call wide (.get name labels)).2 m' where
  values := by rw [InProcessMetrics.values_get, h.values]
  inventories i := by
    rw [InProcessMetrics.inventory_call]
    cases (MetricsCall.get name labels).wants wide i with
    | none => exact h.inventories i
    | some v => exact (h.inventories i).skip v

theorem alike (h : Related named m m') {c : MetricsCall} (hfits : Fits wide m named c) :
    InProcessMetrics.Alike m m' (c.wants wide) :=
  fun i v hv => (h.inventories i).admits_iff (hfits i v hv)

/-- **Step lemma**, of a call that is left. -/
theorem keep (h : Related named m m') {c : MetricsCall} (hfits : Fits wide m named c) :
    (m'.call wide c).1 = (m.call wide c).1 ∧
      Related (named.add (c.wants wide)) (m.call wide c).2 (m'.call wide c).2 := by
  obtain ⟨hreturn, hvalues⟩ := InProcessMetrics.call_congr h.values.symm (h.alike hfits)
  refine ⟨hreturn.symm, hvalues.symm, fun i => ?_⟩
  rw [InProcessMetrics.inventory_call, InProcessMetrics.inventory_call, Named.add]
  cases hwants : c.wants wide i with
  | none => exact h.inventories i
  | some v => exact (h.inventories i).keep (hfits i v hwants)

/-- **Run lemma.** -/
theorem run {calls : List MarkedCall} (h : Related named m m') (hfits : Uncrowded wide m named calls) :
    (m'.run wide (kept calls)).1 = keptReturns wide m calls ∧
      (m'.run wide (kept calls)).2.values = (m.run wide (calls.map (·.call))).2.values := by
  induction calls generalizing named m m' with
  | nil => exact ⟨rfl, h.values⟩
  | cons c calls ih =>
    obtain ⟨hc, hrest⟩ := hfits
    cases hremoved : c.removed with
    | false =>
      obtain ⟨hreturn, hrelated⟩ := h.keep (hc hremoved)
      rw [hremoved] at hrest
      obtain ⟨hreturns, hvalues⟩ := ih hrelated hrest
      have hkept : kept (c :: calls) = c.call :: kept calls := by simp [kept, hremoved]
      have hreturned : keptReturns wide m (c :: calls) =
          (m.call wide c.call).1 :: keptReturns wide (m.call wide c.call).2 calls := by
        simp [keptReturns, InProcessMetrics.run, hremoved]
      rw [hkept, hreturned]
      exact ⟨by rw [InProcessMetrics.run, hreturn, hreturns], hvalues⟩
    | true =>
      obtain ⟨name, labels, hget⟩ := c.read hremoved
      rw [hremoved, hget] at hrest
      obtain ⟨hreturns, hvalues⟩ := ih (h.skip name labels) hrest
      have hkept : kept (c :: calls) = kept calls := by simp [kept, hremoved]
      have hreturned : keptReturns wide m (c :: calls) =
          keptReturns wide (m.call wide c.call).2 calls := by
        simp [keptReturns, InProcessMetrics.run, hremoved]
      rw [hkept, hreturned, hget]
      refine ⟨hreturns, hvalues.trans ?_⟩
      rw [List.map_cons, InProcessMetrics.run, hget]

end Related

/-- **Reads can be removed** from a run in which no label is refused a slot that only the labels of
removed reads hold: the calls that are left return the same, and leave the same series. -/
theorem gets_removable (wide : Char → Bool) {calls : List MarkedCall}
    (h : Uncrowded wide {} (fun _ => ∅) calls) :
    (InProcessMetrics.run wide {} (kept calls)).1 = keptReturns wide {} calls ∧
      (InProcessMetrics.run wide {} (kept calls)).2.values =
        (InProcessMetrics.run wide {} (calls.map (·.call))).2.values :=
  Related.start.run h

/-- One tenant is counted, with a read before and behind that is removed. -/
def oneTenant : List MarkedCall :=
  [⟨.get "requests" { tenantId := some "acme" }, true, fun _ => ⟨_, _, rfl⟩⟩,
    ⟨.increment "requests" 1 { tenantId := some "globex" }, false, nofun⟩,
    ⟨.get "requests" { tenantId := some "globex" }, true, fun _ => ⟨_, _, rfl⟩⟩,
    ⟨.get "requests" { tenantId := some "globex" }, false, nofun⟩]

theorem oneTenant_reads_removable :
    (InProcessMetrics.run (fun _ => false) {} (kept oneTenant)).1 =
    keptReturns (fun _ => false) {} oneTenant ∧
      (InProcessMetrics.run (fun _ => false) {} (kept oneTenant)).2.values =
        (InProcessMetrics.run (fun _ => false) {} (oneTenant.map (·.call))).2.values := by
  refine gets_removable _ ⟨nofun, fun _ i v hv => ?_, nofun, fun _ i v hv => ?_, trivial⟩
  · refine .inl (.inr ?_)
    cases i <;> decide +kernel
  · refine .inl (.inr ?_)
    cases i <;> decide +kernel

/-- A read of a series of each of 64 tenants, and the count of another tenant. -/
def manyReads : List MarkedCall :=
  (List.range 64).map (fun n => ⟨.get "requests" { tenantId := some (toString n) },
    true, fun _ => ⟨_, _, rfl⟩⟩) ++ [⟨.increment "requests" 1 { tenantId := some "acme" }, false, nofun⟩]

/-- Behind the reads the tenant is counted as `other`, and without them under its own name. -/
theorem manyReads_crowd :
    (InProcessMetrics.run (fun _ => false) {} (kept manyReads)).2.values ≠
        (InProcessMetrics.run (fun _ => false) {} (manyReads.map (·.call))).2.values ∧
      (InProcessMetrics.run (fun _ => false) {} (manyReads.map (·.call))).2.values
        { name := "requests", tenantId := some "other" } = some 1 := by
  have hacme : (InProcessMetrics.run (fun _ => false) {} (kept manyReads)).2.values
        { name := "requests", tenantId := some "acme" } = some 1 ∧
      (InProcessMetrics.run (fun _ => false) {} (manyReads.map (·.call))).2.values
        { name := "requests", tenantId := some "acme" } = none := by
    decide +kernel
  refine ⟨fun hsame => ?_, by decide +kernel⟩
  rw [hsame, hacme.2] at hacme
  exact absurd hacme.1 (by simp)

end AdaptiveLlm
