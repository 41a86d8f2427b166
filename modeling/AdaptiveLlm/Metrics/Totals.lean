import AdaptiveLlm.Lib.LastWrite
import AdaptiveLlm.Metrics.InProcess
import Mathlib.Algebra.BigOperators.Ring.Finset
import Mathlib.Algebra.Order.BigOperators.Group.List
import Mathlib.Data.Finset.Prod
import Mathlib.Data.Rat.Cast.Defs

set_option autoImplicit false

/-! # What the series hold

A slot is never freed, and an inventory that is full stays as it is: whether a value has a series of its
own is settled by its first use, so that what a run leaves in a series is told by the inventories that it
leaves. What a tenant is counted is never split between a series of its own and `other`.

The argument rests on one fact: the inventories grow, and a value that was refused once finds the
inventory full for good. So each call's key can be computed from the inventories at the end of the
run (`settled`) instead of those it met. Sums over keys then rearrange to sums over calls. The bound
on what is stored is the product of the numbers of values that each label can settle to. -/

namespace AdaptiveLlm

open Inventory (Grows)

namespace InProcessMetrics

/-! ## Settled labels

The inventories after a run tell, for every value that was used before, whether it had a slot: one
that is held now has been held since its first use. -/

/-- The label of a value, where the slots that are held are the only ones. -/
def settledLabel (held : Finset String) (value : String) : String := if value ∈ held then value else "other"

/-- The key of a series, where the slots that are held are the only ones. -/
def settled (m : InProcessMetrics) (name : String) (labels : MetricLabels) : SeriesKey :=
  { labels with
    name
    tenantId := labels.tenantId.map (settledLabel m.tenants)
    deploymentId := labels.deploymentId.map (settledLabel m.deployments)
    reason := reason labels.reason
    checkName := labels.checkName.map fun value =>
      if value ∈ builtinChecks then value else settledLabel m.domainChecks value }

/-- The inventories of a process: bounded, and with the names of validators only among the checks. -/
structure Stocked (wide : Char → Bool) (m : InProcessMetrics) : Prop where
  bounded : ∀ i, (m.inventory i).card ≤ i.cap
  checks : ∀ v ∈ m.domainChecks, domainCheck wide (some v) = some v

/-- What later calls make of the inventories. -/
def Later (m m' : InProcessMetrics) : Prop := ∀ i, Grows i.cap (m.inventory i) (m'.inventory i)

variable {wide : Char → Bool} {m m' : InProcessMetrics} {c : MetricsCall}

theorem Later.refl (m : InProcessMetrics) : Later m m := fun _ => Grows.refl _ _

theorem Later.trans {m'' : InProcessMetrics} (h : Later m m') (h' : Later m' m'') : Later m m'' :=
  fun i => (h i).trans (h' i)

theorem grows_useLabel (cap : ℕ) (held : Finset String) (value : Option String) :
    Grows cap held (useLabel cap held value) := by
  cases value with
  | none => exact Grows.refl _ _
  | some v => exact Grows.use _ _ _

theorem card_useLabel {cap : ℕ} {held : Finset String} (h : held.card ≤ cap) (value : Option String) :
    (useLabel cap held value).card ≤ cap := by
  cases value with
  | none => exact h
  | some v => exact Inventory.card_use h

theorem mem_of_mem_useLabel {cap : ℕ} {held : Finset String} {value : Option String} {v : String}
    (h : v ∈ useLabel cap held value) : v ∈ held ∨ value = some v := by
  cases value with
  | none => exact .inl h
  | some w =>
    rw [useLabel, Option.elim_some, Inventory.use] at h
    split_ifs at h with hadmits
    · obtain rfl | h := Finset.mem_insert.1 h
      · exact .inr rfl
      · exact .inl h
    · exact .inl h

theorem later_call (wide : Char → Bool) (m : InProcessMetrics) (c : MetricsCall) :
    Later m (m.call wide c).2 := by
  intro i
  rw [inventory_call]
  exact grows_useLabel _ _ _

theorem later_run (wide : Char → Bool) (m : InProcessMetrics) (calls : List MetricsCall) :
    Later m (m.run wide calls).2 := by
  induction calls generalizing m with
  | nil => exact Later.refl m
  | cons c calls ih => exact (later_call wide m c).trans (ih _)

theorem Stocked.start (wide : Char → Bool) : Stocked wide {} where
  bounded i := by cases i <;> exact Nat.zero_le _
  checks := nofun

theorem domainCheck_eq_self {value : Option String} {v : String} (h : domainCheck wide value = some v) :
    domainCheck wide (some v) = some v := by
  obtain ⟨rfl, -⟩ := Option.filter_eq_some_iff.1 h
  exact h

theorem Stocked.call (h : Stocked wide m) (c : MetricsCall) : Stocked wide (m.call wide c).2 where
  bounded i := by
    rw [inventory_call]
    exact card_useLabel (h.bounded i) _
  checks := by
    intro v hv
    have hheld : v ∈ useLabel 32 m.domainChecks (c.wants wide .domainChecks) :=
      (inventory_call (m := m) (c := c) .domainChecks) ▸ hv
    obtain hv | hwants := mem_of_mem_useLabel hheld
    · exact h.checks v hv
    · rw [MetricsCall.wants] at hwants
      split_ifs at hwants
      exact domainCheck_eq_self hwants

theorem Stocked.run (h : Stocked wide m) (calls : List MetricsCall) :
    Stocked wide (m.run wide calls).2 := by
  induction calls generalizing m with
  | nil => exact h
  | cons c calls ih => exact ih (h.call c)

/-! ## Keys -/

theorem resolved_eq {cap : ℕ} {held held' : Finset String} {value : Option String}
    (h : Grows cap (useLabel cap held value) held') :
    resolved cap held value = value.map (settledLabel held') := by
  cases value with
  | none => rfl
  | some v =>
    have hiff : Inventory.Admits cap held v ↔ v ∈ held' := h.admits_iff
    simp only [resolved, Option.map_some, settledLabel, hiff]

/-- **The key of a call is settled**: the inventories after any later calls tell it. -/
theorem series_eq_settled (hm : Stocked wide m') (name : String) (labels : MetricLabels)
    (h : Later (m.series wide name labels).2 m') :
    (m.series wide name labels).1 = m'.settled name labels := by
  have hgrows : ∀ i, Grows i.cap (useLabel i.cap (m.inventory i) (labels.wants wide i)) (m'.inventory i) :=
    fun i => series_inventory name labels i ▸ h i
  have htenant := resolved_eq (hgrows .tenants)
  have hdeployment := resolved_eq (hgrows .deployments)
  simp only [inventory, LabelInventory.cap, MetricLabels.wants] at htenant hdeployment
  simp only [series, tenant, deployment, checkName_eq, bounded_eq, settled, htenant, hdeployment]
  congr 1
  cases hwants : domainCheck wide labels.checkName with
  | none =>
    -- No slot is asked for, and none is held.
    cases hcheck : labels.checkName with
    | none => rfl
    | some v =>
      simp only [Option.elim_none, Option.map_some]
      by_cases hbuiltin : v ∈ builtinChecks
      · rw [if_pos hbuiltin, if_pos hbuiltin]
      · have hnot : v ∉ m'.domainChecks := by
          intro hv
          rw [hcheck, hm.checks v hv] at hwants
          cases hwants
        rw [if_neg hbuiltin, if_neg hbuiltin, settledLabel, if_neg hnot]
  | some v =>
    obtain ⟨hcheck, hneeds⟩ := Option.filter_eq_some_iff.1 hwants
    have hbuiltin : v ∉ builtinChecks := (of_decide_eq_true hneeds).1
    have hgrown := hgrows .domainChecks
    simp only [inventory, LabelInventory.cap, MetricLabels.wants, hwants] at hgrown
    rw [hcheck, Option.elim_some, resolved_eq hgrown, Option.map_some, Option.map_some, if_neg hbuiltin]

end InProcessMetrics

/-! ## Values

A series is followed by the key that the inventories at the end of the run give it. Since a label
keeps what its first use decided, this is the key it had all along, and the sums can be taken over
the whole run. -/

/-- What an increment adds. -/
def MetricsCall.amount : MetricsCall → ℚ
  | increment _ value _ => value
  | gauge .. => 0
  | get .. => 0

/-- The value a gauge is set to. -/
def MetricsCall.level : MetricsCall → Option ℚ
  | increment .. => none
  | gauge _ value _ => some value
  | get .. => none

namespace InProcessMetrics

variable {wide : Char → Bool} {m m' : InProcessMetrics}

/-- What the increments of a series add up to. -/
def counted (m : InProcessMetrics) (calls : List MetricsCall) (key : SeriesKey) : ℚ :=
  (calls.map fun c => if c.Valid ∧ m.settled c.name c.labels = key then c.amount else 0).sum

/-- The levels that gauges are set to, with their series. -/
def levels (m : InProcessMetrics) (calls : List MetricsCall) : List (SeriesKey × ℚ) :=
  calls.filterMap fun c => if c.Valid then c.level.map (m.settled c.name c.labels, ·) else none

theorem counted_cons (m : InProcessMetrics) (c : MetricsCall) (calls : List MetricsCall) (key : SeriesKey) :
    m.counted (c :: calls) key =
      (if c.Valid ∧ m.settled c.name c.labels = key then c.amount else 0) + m.counted calls key := by
  rw [counted, List.map_cons, List.sum_cons, counted]

theorem levels_cons (m : InProcessMetrics) (c : MetricsCall) (calls : List MetricsCall) :
    m.levels (c :: calls) = m.levels [c] ++ m.levels calls := by
  have hcons : c :: calls = [c] ++ calls := rfl
  rw [levels, hcons, List.filterMap_append, levels, levels]

theorem gaugeNames_not_counters : ∀ name ∈ gaugeNames, name ∉ counterNames := by decide

/-- The values behind a call, by the key that later inventories settle. -/
theorem call_values {c : MetricsCall} (hm : Stocked wide m') (h : Later (m.call wide c).2 m') :
    (m.call wide c).2.values =
      if c.Valid then c.write (m'.settled c.name c.labels) m.values else m.values := by
  split_ifs with hvalid
  · have hlater : Later (m.series wide c.name c.labels).2 m' := by
      intro i
      have hi := h i
      rwa [inventory_call, MetricsCall.wants, if_pos hvalid, ← series_inventory c.name c.labels i] at hi
    rw [call_of_valid hvalid, series_eq_settled hm c.name c.labels hlater]
  · rw [call_of_not_valid hvalid]

/-- **Step lemma**, of a counter. -/
theorem counter_call {c : MetricsCall} {key : SeriesKey} (hm : Stocked wide m')
    (h : Later (m.call wide c).2 m') (hkey : key.name ∈ counterNames) :
    ((m.call wide c).2.values key).getD 0 =
      (m.values key).getD 0 + if c.Valid ∧ m'.settled c.name c.labels = key then c.amount else 0 := by
  rw [call_values hm h]
  by_cases hvalid : c.Valid
  · simp only [hvalid, if_true, true_and]
    cases c with
    | increment name value labels =>
      by_cases heq : m'.settled name labels = key
      · subst heq
        simp [MetricsCall.write, MetricsCall.name, MetricsCall.labels, MetricsCall.amount]
      · simp [MetricsCall.write, MetricsCall.name, MetricsCall.labels,
          Function.update_of_ne (Ne.symm heq), heq]
    | gauge name value deploymentId =>
      have hne : key ≠ m'.settled name { deploymentId } := by
        rintro rfl
        exact gaugeNames_not_counters name hvalid hkey
      simp [MetricsCall.write, MetricsCall.name, MetricsCall.labels, Function.update_of_ne hne, Ne.symm hne]
    | get name labels => simp [MetricsCall.write, MetricsCall.amount]
  · simp [hvalid]

/-- **Step lemma**, of a gauge. -/
theorem gauge_call {c : MetricsCall} {key : SeriesKey} (hm : Stocked wide m')
    (h : Later (m.call wide c).2 m') (hkey : key.name ∈ gaugeNames) :
    (m.call wide c).2.values key = (LastWrite.last (m'.levels [c]) key).or (m.values key) := by
  rw [call_values hm h, levels, List.filterMap_cons, List.filterMap_nil]
  by_cases hvalid : c.Valid
  · rw [if_pos hvalid, if_pos hvalid]
    cases c with
    | increment name value labels =>
      have hne : key ≠ m'.settled name labels := by
        rintro rfl
        exact gaugeNames_not_counters name hkey (by_contra fun hnot => hvalid (.inl hnot))
      rw [MetricsCall.write, MetricsCall.name, MetricsCall.labels, Function.update_of_ne hne]
      rfl
    | gauge name value deploymentId =>
      by_cases heq : m'.settled name { deploymentId } = key
      · subst heq
        simp [MetricsCall.write, MetricsCall.name, MetricsCall.labels, MetricsCall.level, LastWrite.last]
      · simp [MetricsCall.write, MetricsCall.name, MetricsCall.labels, MetricsCall.level, LastWrite.last,
          Function.update_of_ne (Ne.symm heq), heq]
    | get name labels => rfl
  · rw [if_neg hvalid, if_neg hvalid]
    rfl

/-- **Run lemma.** -/
theorem values_run (hm : Stocked wide m) (calls : List MetricsCall) (key : SeriesKey) :
    (key.name ∈ counterNames → ((m.run wide calls).2.values key).getD 0 =
      (m.values key).getD 0 + (m.run wide calls).2.counted calls key) ∧
    (key.name ∈ gaugeNames → (m.run wide calls).2.values key =
      (LastWrite.last ((m.run wide calls).2.levels calls) key).or (m.values key)) := by
  induction calls generalizing m with
  | nil => simp [run, counted, levels, LastWrite.last]
  | cons c calls ih =>
    obtain ⟨hcounter, hgauge⟩ := ih (hm.call c)
    have hlater := later_run wide (m.call wide c).2 calls
    have hstocked := (hm.call c).run calls
    have hrun : (m.run wide (c :: calls)).2 = ((m.call wide c).2.run wide calls).2 := rfl
    rw [hrun]
    refine ⟨fun hkey => ?_, fun hkey => ?_⟩
    · rw [hcounter hkey, counter_call hstocked hlater hkey, counted_cons, add_assoc]
    · rw [hgauge hkey, gauge_call hstocked hlater hkey, levels_cons _ c calls,
        LastWrite.last_append, Option.or_assoc]

/-- **What the series hold.** After any calls, each series of a counter holds the sum of the
increments whose labels the inventories now settle to it, and each series of a gauge the last level
set for it: a value with a slot has had it since its first use, and one without has always been
counted as `other`. -/
theorem series_settled (wide : Char → Bool) (calls : List MetricsCall) (key : SeriesKey) :
    (key.name ∈ counterNames → ((run wide {} calls).2.values key).getD 0 =
      (run wide {} calls).2.counted calls key) ∧
    (key.name ∈ gaugeNames → (run wide {} calls).2.values key =
      LastWrite.last ((run wide {} calls).2.levels calls) key) := by
  obtain ⟨hcounter, hgauge⟩ := values_run (Stocked.start wide) calls key
  refine ⟨fun hkey => ?_, fun hkey => ?_⟩
  · rw [hcounter hkey]
    exact zero_add _
  · rw [hgauge hkey]
    exact Option.or_none

/-! ## Totals

The keys that a call can have are bounded by the slots and by the fixed sets of the other labels. A
sum over these keys gathers what was counted under each of them. -/

/-- The labels that a series can have under a bounded inventory. -/
def slotLabels (held : Finset String) : Finset (Option String) :=
  insert none (insert (some "other") (held.image some))

/-- The labels from a fixed set. -/
def fixedLabels (values : List String) : Finset (Option String) := insert none (values.toFinset.image some)

/-- The series that the inventories leave room for. -/
def room (m : InProcessMetrics) : Finset SeriesKey :=
  ((counterNames ++ gaugeNames).toFinset ×ˢ slotLabels m.tenants ×ˢ fixedLabels statusClasses ×ˢ
    fixedLabels httpMethods ×ˢ slotLabels m.deployments ×ˢ fixedLabels ("other" :: allowedReasons) ×ˢ
    (fixedLabels builtinChecks ∪ slotLabels m.domainChecks)).image
    fun (name, tenantId, statusClass, method, deploymentId, reason, checkName) =>
      { name, tenantId, statusClass, method, deploymentId, reason, checkName }

theorem card_slotLabels {held : Finset String} {cap : ℕ} (h : held.card ≤ cap) :
    (slotLabels held).card ≤ cap + 2 := by
  calc (slotLabels held).card
    _ ≤ (insert (some "other") (held.image some)).card + 1 := Finset.card_insert_le _ _
    _ ≤ (held.image some).card + 1 + 1 := Nat.succ_le_succ (Finset.card_insert_le _ _)
    _ ≤ cap + 2 := Nat.add_le_add_right (Finset.card_image_le.trans h) 2

theorem card_room {m : InProcessMetrics} (hm : Stocked wide m) :
    m.room.card ≤ 26 * (66 * (5 * (11 * (66 * (23 * 43))))) := by
  have htenants : (slotLabels m.tenants).card ≤ 66 := card_slotLabels (hm.bounded .tenants)
  have hdeployments : (slotLabels m.deployments).card ≤ 66 := card_slotLabels (hm.bounded .deployments)
  have hchecks : (fixedLabels builtinChecks ∪ slotLabels m.domainChecks).card ≤ 43 := by
    -- Both hold the empty label.
    have hunion : fixedLabels builtinChecks ∪ slotLabels m.domainChecks =
        builtinChecks.toFinset.image some ∪ slotLabels m.domainChecks := by
      rw [fixedLabels, slotLabels, Finset.insert_union, Finset.union_insert, Finset.insert_idem]
    rw [hunion]
    have hbuiltin : (builtinChecks.toFinset.image some).card ≤ 9 := by decide
    have hdomain : (slotLabels m.domainChecks).card ≤ 34 := card_slotLabels (hm.bounded .domainChecks)
    exact (Finset.card_union_le _ _).trans (Nat.add_le_add hbuiltin hdomain)
  have hnames : (counterNames ++ gaugeNames).toFinset.card ≤ 26 := by decide
  have hstatuses : (fixedLabels statusClasses).card ≤ 5 := by decide
  have hmethods : (fixedLabels httpMethods).card ≤ 11 := by decide
  have hreasons : (fixedLabels ("other" :: allowedReasons)).card ≤ 23 := by decide
  refine Finset.card_image_le.trans ?_
  simp only [Finset.card_product]
  gcongr

theorem map_settledLabel_mem (held : Finset String) (value : Option String) :
    value.map (settledLabel held) ∈ slotLabels held := by
  cases value with
  | none => exact Finset.mem_insert_self _ _
  | some v =>
    rw [Option.map_some, settledLabel]
    split_ifs with hv
    · exact Finset.mem_insert_of_mem (Finset.mem_insert_of_mem (Finset.mem_image_of_mem _ hv))
    · exact Finset.mem_insert_of_mem (Finset.mem_insert_self _ _)

theorem mem_fixedLabels {values : List String} {value : Option String} (h : ∀ v ∈ value, v ∈ values) :
    value ∈ fixedLabels values := by
  cases value with
  | none => exact Finset.mem_insert_self _ _
  | some v =>
    exact Finset.mem_insert_of_mem (Finset.mem_image_of_mem _ (List.mem_toFinset.2 (h v rfl)))

/-- A settled key has its room, where the labels that are not bounded are from their sets. -/
theorem settled_mem_room (m : InProcessMetrics) {name : String} {labels : MetricLabels}
    (hname : name ∈ counterNames ++ gaugeNames) (hstatus : ∀ v ∈ labels.statusClass, v ∈ statusClasses)
    (hmethod : ∀ v ∈ labels.method, v ∈ httpMethods) : m.settled name labels ∈ m.room := by
  have hreason : reason labels.reason ∈ fixedLabels ("other" :: allowedReasons) := by
    refine mem_fixedLabels fun v hv => ?_
    obtain ⟨w, -, rfl⟩ := Option.map_eq_some_iff.1 hv
    split_ifs with hw
    · exact List.mem_cons_of_mem _ hw
    · exact List.mem_cons_self
  have hcheck : (m.settled name labels).checkName ∈ fixedLabels builtinChecks ∪
      slotLabels m.domainChecks := by
    rw [Finset.mem_union, settled]
    cases labels.checkName with
    | none => exact .inl (Finset.mem_insert_self _ _)
    | some v =>
      rw [Option.map_some]
      split_ifs with hv
      · exact .inl (mem_fixedLabels fun w hw => Option.some.inj hw ▸ hv)
      · exact .inr (map_settledLabel_mem m.domainChecks (some v))
  refine Finset.mem_image.2 ⟨(_, _, _, _, _, _, _), ?_, rfl⟩
  simp only [Finset.mem_product]
  exact ⟨List.mem_toFinset.2 hname, map_settledLabel_mem _ _, mem_fixedLabels hstatus,
    mem_fixedLabels hmethod, map_settledLabel_mem _ _, hreason, hcheck⟩

theorem mem_of_not_any {values : List String} {value : Option String} (h : ¬ value.any (· ∉ values)) :
    ∀ v ∈ value, v ∈ values := by
  intro v hv
  by_contra hnot
  apply h
  rw [Option.mem_def.1 hv, Option.any_some]
  exact decide_eq_true hnot

/-- Whatever is written has its room. -/
theorem write_mem_room (m : InProcessMetrics) {c : MetricsCall} (hvalid : c.Valid)
    (hwrites : ∀ name labels, c ≠ .get name labels) : m.settled c.name c.labels ∈ m.room := by
  cases c with
  | increment name value labels =>
    rw [MetricsCall.Valid, not_or, not_not, not_or, not_or] at hvalid
    obtain ⟨hname, -, hstatus, hmethod⟩ := hvalid
    exact settled_mem_room m (List.mem_append_left _ hname) (mem_of_not_any hstatus)
      (mem_of_not_any hmethod)
  | gauge name value deploymentId =>
    have hnone : ∀ values : List String, ∀ v ∈ (none : Option String), v ∈ values := by
      intro values v hv
      cases hv
    exact settled_mem_room m (List.mem_append_right _ hvalid) (hnone _) (hnone _)
  | get name labels => exact absurd rfl (hwrites name labels)

theorem write_of_ne {c : MetricsCall} {key k : SeriesKey} (values : SeriesKey → Option ℚ) (h : k ≠ key) :
    c.write key values k = values k := by
  cases c with
  | increment name value labels => exact Function.update_of_ne h _ _
  | gauge name value deploymentId => exact Function.update_of_ne h _ _
  | get name labels => rfl

/-- **Step lemma**: a call stores nothing outside the room. -/
theorem mem_room_call {c : MetricsCall} {key : SeriesKey} (hm : Stocked wide m')
    (hlater : Later (m.call wide c).2 m') (h : (m.call wide c).2.values key ≠ none) :
    m.values key ≠ none ∨ key ∈ m'.room := by
  rw [call_values hm hlater] at h
  split_ifs at h with hvalid
  · by_cases hkey : key = m'.settled c.name c.labels
    · by_cases hreads : ∃ name labels, c = .get name labels
      · obtain ⟨name, labels, rfl⟩ := hreads
        exact .inl h
      · exact .inr (hkey ▸ write_mem_room m' hvalid fun name labels hc => hreads ⟨name, labels, hc⟩)
    · rw [write_of_ne m.values hkey] at h
      exact .inl h
  · exact .inl h

/-- **Run lemma.** -/
theorem mem_room_run (hm : Stocked wide m) {calls : List MetricsCall} {key : SeriesKey}
    (h : (m.run wide calls).2.values key ≠ none) :
    m.values key ≠ none ∨ key ∈ (m.run wide calls).2.room := by
  induction calls generalizing m with
  | nil => exact .inl h
  | cons c calls ih =>
    obtain h | h := ih (hm.call c) h
    · exact mem_room_call ((hm.call c).run calls) (later_run wide _ calls) h
    · exact .inr h

/-- What a call adds to the series of a name. -/
theorem sum_amount (m : InProcessMetrics) (c : MetricsCall) (name : String) :
    (∑ key ∈ m.room with key.name = name,
      if c.Valid ∧ m.settled c.name c.labels = key then c.amount else 0) =
        if c.Valid ∧ c.name = name then c.amount else 0 := by
  by_cases hvalid : c.Valid
  · simp only [hvalid, true_and]
    cases c with
    | increment name' value labels =>
      have hroom := write_mem_room m hvalid (fun _ _ h => by cases h)
      rw [Finset.sum_ite_eq]
      simp only [Finset.mem_filter, hroom, true_and]
      rfl
    | gauge name' value deploymentId => simp [MetricsCall.amount]
    | get name' labels => simp [MetricsCall.amount]
  · simp [hvalid]

theorem sum_counted (m : InProcessMetrics) (calls : List MetricsCall) (name : String) :
    ∑ key ∈ m.room with key.name = name, m.counted calls key =
      (calls.map fun c => if c.Valid ∧ c.name = name then c.amount else 0).sum := by
  induction calls with
  | nil => exact Finset.sum_const_zero
  | cons c calls ih =>
    simp only [counted_cons]
    rw [Finset.sum_add_distrib, sum_amount, ih, List.map_cons, List.sum_cons]

/-- **Counts are kept in bounded room.** Whatever labels the calls give, what is stored lies in a set
of series that is bounded once and for all, and over it the series of a counter add up to exactly what
its increments that are not refused add up to: no count is lost or made twice, also where labels are
refused a slot. -/
theorem counts_conserved (wide : Char → Bool) (calls : List MetricsCall) :
    ∃ keys : Finset SeriesKey, keys.card ≤ 26 * 66 * 5 * 11 * 66 * 23 * 43 ∧
      (∀ key, (run wide {} calls).2.values key ≠ none → key ∈ keys) ∧
      ∀ name ∈ counterNames,
        ∑ key ∈ keys with key.name = name, ((run wide {} calls).2.values key).getD 0 =
          (calls.map fun c => if c.Valid ∧ c.name = name then c.amount else 0).sum := by
  have hstocked := (Stocked.start wide).run calls
  refine ⟨(run wide {} calls).2.room, (card_room hstocked).trans (by decide), fun key hkey => ?_,
    fun name hname => ?_⟩
  · exact (mem_room_run (Stocked.start wide) hkey).resolve_left fun h => h rfl
  · rw [← sum_counted]
    refine Finset.sum_congr rfl fun key hkey => ?_
    have hcounter : key.name ∈ counterNames := (Finset.mem_filter.1 hkey).2 ▸ hname
    rw [(values_run (Stocked.start wide) calls key).1 hcounter]
    exact zero_add _

end InProcessMetrics

end AdaptiveLlm
