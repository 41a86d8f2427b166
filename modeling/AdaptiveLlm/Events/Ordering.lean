import AdaptiveLlm.Events.Dispatcher

set_option autoImplicit false

/-! # The order of an interaction's events

Rows are selected by time, but one that has an earlier pending row of its interaction is not eligible.
So while no row of the interaction is dead, a dispatcher that holds a row finds every earlier one
delivered: in its snapshot already, and for good. This needs no locks, and one dispatcher over SQLite
is the case where the snapshot is the table.

`OrderInv` carries, for each dispatcher with a row in hand, that the earlier rows of the interaction
are delivered in the table itself. For PostgreSQL the row was found in a snapshot that may be old by
then; but a delivered row stays delivered, and a row that comes later is inserted behind. The
exception is a row that has died and is put back by an operator, hence the condition on dead
rows. -/

namespace AdaptiveLlm

namespace Dispatch

variable {κ δ : Type} [DecidableEq κ] {env : Envelopes δ} {maxAttempts : ℕ} {backend : Backend}
  {s s' : System κ δ} {tenant interaction : String}

/-! ## Rows of one interaction -/

/-- The row is one of the interaction. -/
def Row.of (r : Row) (tenant interaction : String) : Prop :=
  r.tenantId = tenant ∧ r.interactionId = some interaction

/-- Two versions of a row. -/
structure Row.Same (r r' : Row) : Prop where
  eventId : r.eventId = r'.eventId
  sequence : r.sequence = r'.sequence
  tenantId : r.tenantId = r'.tenantId
  interactionId : r.interactionId = r'.interactionId

theorem Row.Same.of_iff {r r' : Row} (h : r.Same r') :
    r.of tenant interaction ↔ r'.of tenant interaction := by
  rw [Row.of, Row.of, h.tenantId, h.interactionId]

theorem Row.Same.symm {r r' : Row} (h : r.Same r') : r'.Same r :=
  ⟨h.eventId.symm, h.sequence.symm, h.tenantId.symm, h.interactionId.symm⟩

theorem Row.Same.trans {r r' r'' : Row} (h : r.Same r') (h' : r'.Same r'') : r.Same r'' :=
  ⟨h.eventId.trans h'.eventId, h.sequence.trans h'.sequence, h.tenantId.trans h'.tenantId,
    h.interactionId.trans h'.interactionId⟩

theorem Row.Same.rfl {r : Row} : r.Same r := ⟨.refl _, .refl _, .refl _, .refl _⟩

/-- An eligible row of the interaction has no earlier one that is pending. -/
theorem eligible_earlier {rows : List Row} {now : ℤ} {r row : Row}
    (h : eligible rows now row = true) (hr : r ∈ rows) (hof : r.of tenant interaction)
    (hrow : row.of tenant interaction) (hlt : r.sequence < row.sequence) : r.state ≠ .pending := by
  intro hpending
  simp only [eligible, Bool.and_eq_true, Bool.not_eq_true', List.any_eq_false] at h
  refine h.2 r hr ?_
  simp [Row.blocks, Row.sharesInteraction, hof.1, hof.2, hrow.1, hrow.2, hpending, hlt]

/-! ## The invariant

A dispatcher that has a row in hand has seen all earlier rows of its interaction delivered. What it
has seen may be an old snapshot, but delivered rows stay delivered and new rows come behind. -/

/-- No row of the interaction is dead. -/
def NoneDead (tenant interaction : String) (rows : List Row) : Prop :=
  ∀ r ∈ rows, r.of tenant interaction → r.state ≠ .dead

/-- The sink has accepted the event of a row. -/
def Accepted (log : List (Happening δ)) (eventId : String) : Prop :=
  ∃ e, .accepted e ∈ log ∧ e.eventId = eventId

/-- The rows are those of an earlier moment: what was inserted before one of them is there, and what
    was done with then is done with now. -/
structure Earlier (tenant interaction : String) (snapshot rows : List Row) : Prop where
  present : ∀ o ∈ snapshot, ∃ r ∈ rows, o.Same r
  complete : ∀ o ∈ snapshot, ∀ r ∈ rows, r.sequence < o.sequence → ∃ o' ∈ snapshot, o'.Same r
  done : ∀ o ∈ snapshot, ∀ r ∈ rows, o.Same r → o.of tenant interaction → o.state ≠ .pending →
    r.state ≠ .pending

/-- Every earlier row of the interaction is done with. -/
def First (tenant interaction : String) (rows : List Row) (row : Row) : Prop :=
  row.of tenant interaction → ∀ r ∈ rows, r.of tenant interaction → r.sequence < row.sequence →
    r.state ≠ .pending

/-- What holds of the rows of one interaction after every step. -/
structure OrderInv (tenant interaction : String) (env : Envelopes δ) (s : System κ δ) : Prop where
  ids : (s.rows.map (·.eventId)).Nodup
  sorted : s.rows.Pairwise (·.sequence < ·.sequence)
  noneDead : NoneDead tenant interaction s.rows
  /-- what is done with was accepted, -/
  done : ∀ r ∈ s.rows, r.of tenant interaction → r.state ≠ .pending → Accepted s.log r.eventId
  known : ∀ e, .accepted e ∈ s.log → ∃ r ∈ s.rows, r.eventId = e.eventId
  selecting : ∀ d snapshot now, s.phases d = .selecting snapshot now →
    Earlier tenant interaction snapshot s.rows
  held : ∀ d row, (s.phases d).row? = some row →
    (∃ r ∈ s.rows, row.Same r) ∧ First tenant interaction s.rows row
  emitted : ∀ d row, s.phases d = .emitted row false → Accepted s.log row.eventId
  /-- and after what comes before it. -/
  ordered : ∀ r₁ ∈ s.rows, ∀ r₂ ∈ s.rows, r₁.of tenant interaction → r₂.of tenant interaction →
    r₁.sequence < r₂.sequence → ∀ later e earlier, s.log = later ++ .accepted e :: earlier →
    e.eventId = r₂.eventId → Accepted earlier r₁.eventId

theorem Accepted.mono {log log' : List (Happening δ)} {eventId : String} (h : Accepted log eventId)
    (hsub : log ⊆ log') : Accepted log' eventId := by
  obtain ⟨e, he, hid⟩ := h
  exact ⟨e, hsub he, hid⟩

theorem Earlier.refl {rows : List Row} (hids : (rows.map (·.eventId)).Nodup) :
    Earlier tenant interaction rows rows where
  present := fun o ho => ⟨o, ho, .rfl⟩
  complete := fun _ _ r hr _ => ⟨r, hr, .rfl⟩
  done := by
    intro o ho r hr hsame _ hstate
    rwa [← eq_of_eventId hids ho hr hsame.eventId]

theorem le_lastSequence {rows : List Row} {r : Row} (hr : r ∈ rows) :
    r.sequence ≤ lastSequence rows := by
  induction rows with
  | nil => simp at hr
  | cons a rows ih =>
    rw [lastSequence, List.map_cons, List.foldr_cons]
    rcases List.mem_cons.1 hr with rfl | hr
    · exact le_max_left _ _
    · exact (ih hr).trans (le_max_right _ _)

/-- The event of a row has its id. -/
theorem decode_eventId {row : Row} {e : Event String δ} (h : env.decode row = some e) :
    e.eventId = row.eventId := by
  have hcolumns := (Option.filter_eq_some_iff.1 h).2
  simp only [Bool.and_eq_true, decide_eq_true_eq] at hcolumns
  exact hcolumns.1.1.1.1

namespace OrderInv

omit [DecidableEq κ] in
theorem init : OrderInv tenant interaction env ({} : System κ δ) where
  ids := List.nodup_nil
  sorted := List.Pairwise.nil
  noneDead := by simp [NoneDead]
  done := by simp
  known := by simp
  selecting := by simp
  held := by simp [Phase.row?]
  emitted := by simp
  ordered := by simp

variable (hinv : OrderInv tenant interaction env s)

include hinv

omit [DecidableEq κ] in
/-- Versions of one row in the table are the same row. -/
theorem unique {row r r' : Row} (hr : r ∈ s.rows) (hsame : row.Same r) (hr' : r' ∈ s.rows)
    (hid : r'.eventId = row.eventId) : r' = r :=
  eq_of_eventId hinv.ids hr' hr (hid.trans hsame.eventId)

theorem goto (d : κ) {phase : Phase}
    (hselecting : ∀ snapshot now, phase = .selecting snapshot now →
      Earlier tenant interaction snapshot s.rows)
    (hheld : ∀ row, phase.row? = some row →
      (∃ r ∈ s.rows, row.Same r) ∧ First tenant interaction s.rows row)
    (hemitted : ∀ row, phase = .emitted row false → Accepted s.log row.eventId) :
    OrderInv tenant interaction env (s.goto d phase) := by
  refine ⟨hinv.ids, hinv.sorted, hinv.noneDead, hinv.done, hinv.known, ?_, ?_, ?_, hinv.ordered⟩
  · intro d' snapshot now hphase
    by_cases hd : d' = d
    · subst hd
      rw [System.goto_self] at hphase
      exact hselecting snapshot now hphase
    · rw [System.goto_of_ne s hd] at hphase
      exact hinv.selecting d' snapshot now hphase
  · intro d' row hrow
    by_cases hd : d' = d
    · subst hd
      rw [System.goto_self] at hrow
      exact hheld row hrow
    · rw [System.goto_of_ne s hd] at hrow
      exact hinv.held d' row hrow
  · intro d' row hphase
    by_cases hd : d' = d
    · subst hd
      rw [System.goto_self] at hphase
      exact hemitted row hphase
    · rw [System.goto_of_ne s hd] at hphase
      exact hinv.emitted d' row hphase

theorem idle (d : κ) : OrderInv tenant interaction env (s.goto d .idle) :=
  hinv.goto d (by simp) (by simp [Phase.row?]) (by simp)

omit [DecidableEq κ] in
/-- Something else than an acceptance happens. -/
theorem noted {x : Happening δ} (hx : ∀ e, x ≠ .accepted e) :
    OrderInv tenant interaction env { s with log := x :: s.log } := by
  refine ⟨hinv.ids, hinv.sorted, hinv.noneDead, ?_, ?_, hinv.selecting, hinv.held, ?_, ?_⟩
  · intro r hr hof hstate
    exact (hinv.done r hr hof hstate).mono (List.subset_cons_self _ _)
  · intro e he
    rcases List.mem_cons.1 he with heq | he
    · exact absurd heq.symm (hx e)
    · exact hinv.known e he
  · intro d row hphase
    exact (hinv.emitted d row hphase).mono (List.subset_cons_self _ _)
  · intro r₁ hr₁ r₂ hr₂ hof₁ hof₂ hlt later e earlier hlog hid
    cases later with
    | nil => exact absurd (List.cons.inj hlog).1 (hx e)
    | cons _ later =>
      exact hinv.ordered r₁ hr₁ r₂ hr₂ hof₁ hof₂ hlt later e earlier (List.cons.inj hlog).2 hid

omit [DecidableEq κ] in
/-- **The event of a held row is accepted**, and those before it were. -/
theorem accept {d : κ} {row : Row} (hrow : (s.phases d).row? = some row) {e : Event String δ}
    (he : e.eventId = row.eventId) :
    OrderInv tenant interaction env { s with log := .accepted e :: s.log } := by
  obtain ⟨⟨r, hr, hsame⟩, hfirst⟩ := hinv.held d row hrow
  refine ⟨hinv.ids, hinv.sorted, hinv.noneDead, ?_, ?_, hinv.selecting, hinv.held, ?_, ?_⟩
  · intro r' hr' hof hstate
    exact (hinv.done r' hr' hof hstate).mono (List.subset_cons_self _ _)
  · intro e' he'
    rcases List.mem_cons.1 he' with heq | he'
    · cases heq
      exact ⟨r, hr, hsame.eventId.symm.trans he.symm⟩
    · exact hinv.known e' he'
  · intro d' row' hphase
    exact (hinv.emitted d' row' hphase).mono (List.subset_cons_self _ _)
  · intro r₁ hr₁ r₂ hr₂ hof₁ hof₂ hlt later e' earlier hlog hid
    cases later with
    | nil =>
      obtain ⟨heq, rfl⟩ := List.cons.inj hlog
      cases heq
      obtain rfl := hinv.unique hr hsame hr₂ (hid.symm.trans he)
      rw [← hsame.of_iff] at hof₂
      rw [← hsame.sequence] at hlt
      exact hinv.done r₁ hr₁ hof₁ (hfirst hof₂ r₁ hr₁ hof₁ hlt)
    | cons _ later =>
      exact hinv.ordered r₁ hr₁ r₂ hr₂ hof₁ hof₂ hlt later e' earlier (List.cons.inj hlog).2 hid

omit [DecidableEq κ] in
/-- Rows are changed in place, and those done with stay so. -/
theorem change {f : Row → Row} (hsame : ∀ r : Row, r.Same (f r))
    (hkeep : ∀ r ∈ s.rows, r.of tenant interaction → r.state ≠ .pending → (f r).state ≠ .pending)
    (hdone : ∀ r ∈ s.rows, r.of tenant interaction → r.state = .pending →
      (f r).state ≠ .pending → Accepted s.log r.eventId)
    (hdead : NoneDead tenant interaction (s.rows.map f)) :
    OrderInv tenant interaction env { s with rows := s.rows.map f } := by
  have hids : (s.rows.map f).map (·.eventId) = s.rows.map (·.eventId) := by
    rw [List.map_map]
    exact List.map_congr_left fun r _ => (hsame r).eventId.symm
  constructor
  case ids =>
    rw [hids]
    exact hinv.ids
  case sorted =>
    rw [List.pairwise_map]
    refine hinv.sorted.imp fun {r r'} hlt => ?_
    rw [← (hsame r).sequence, ← (hsame r').sequence]
    exact hlt
  case noneDead => exact hdead
  case done =>
    rintro r' hr' hof hstate
    obtain ⟨r, hr, rfl⟩ := List.mem_map.1 hr'
    rw [← (hsame r).of_iff] at hof
    rw [← (hsame r).eventId]
    by_cases hpending : r.state = .pending
    · exact hdone r hr hof hpending hstate
    · exact hinv.done r hr hof hpending
  case known =>
    intro e he
    obtain ⟨r, hr, hid⟩ := hinv.known e he
    exact ⟨f r, List.mem_map_of_mem hr, (hsame r).eventId.symm.trans hid⟩
  case selecting =>
    intro d snapshot now hphase
    have hearlier := hinv.selecting d snapshot now hphase
    constructor
    case present =>
      intro o ho
      obtain ⟨r, hr, hor⟩ := hearlier.present o ho
      exact ⟨f r, List.mem_map_of_mem hr, hor.trans (hsame r)⟩
    case complete =>
      intro o ho r' hr' hlt
      obtain ⟨r, hr, rfl⟩ := List.mem_map.1 hr'
      rw [← (hsame r).sequence] at hlt
      obtain ⟨o', ho', hor⟩ := hearlier.complete o ho r hr hlt
      exact ⟨o', ho', hor.trans (hsame r)⟩
    case done =>
      intro o ho r' hr' hor hof hstate
      obtain ⟨r, hr, rfl⟩ := List.mem_map.1 hr'
      have hor' := hor.trans (hsame r).symm
      exact hkeep r hr (hor'.of_iff.1 hof) (hearlier.done o ho r hr hor' hof hstate)
  case held =>
    intro d row hrow
    obtain ⟨⟨r, hr, hrow'⟩, hfirst⟩ := hinv.held d row hrow
    refine ⟨⟨f r, List.mem_map_of_mem hr, hrow'.trans (hsame r)⟩, ?_⟩
    intro hof r' hr' hof' hlt
    obtain ⟨r₁, hr₁, rfl⟩ := List.mem_map.1 hr'
    rw [← (hsame r₁).of_iff] at hof'
    rw [← (hsame r₁).sequence] at hlt
    exact hkeep r₁ hr₁ hof' (hfirst hof r₁ hr₁ hof' hlt)
  case emitted => exact hinv.emitted
  case ordered =>
    intro r₁' hr₁' r₂' hr₂' hof₁ hof₂ hlt later e earlier hlog hid
    obtain ⟨r₁, hr₁, rfl⟩ := List.mem_map.1 hr₁'
    obtain ⟨r₂, hr₂, rfl⟩ := List.mem_map.1 hr₂'
    rw [← (hsame r₁).of_iff] at hof₁
    rw [← (hsame r₂).of_iff] at hof₂
    rw [← (hsame r₁).sequence, ← (hsame r₂).sequence] at hlt
    rw [← (hsame r₂).eventId] at hid
    rw [← (hsame r₁).eventId]
    exact hinv.ordered r₁ hr₁ r₂ hr₂ hof₁ hof₂ hlt later e earlier hlog hid

omit [DecidableEq κ] in
/-- New rows come last. -/
theorem enqueue {last : ℕ} (pendingLimit : ℕ) (events : List (Event String δ))
    (hlast : lastSequence s.rows ≤ last) :
    OrderInv tenant interaction env { s with
      rows := (enqueueAfter env last pendingLimit s.rows events).rows
      log := .enqueued events :: s.log } := by
  have hadded := enqueueAfter_added env last pendingLimit s.rows events
  obtain ⟨new, hrows, hsorted, hnew⟩ := hadded.inserted
  have hids : ((s.rows ++ new).map (·.eventId)).Nodup := hrows ▸ hadded.ids hinv.ids
  rw [hrows]
  have hold {r : Row} (hr : r ∈ s.rows) : r.sequence ≤ last := (le_lastSequence hr).trans hlast
  have hlate {r : Row} (hr : r ∈ new) : last < r.sequence := (hnew r hr).2.1
  have hpending {r : Row} (hr : r ∈ new) : r.state = .pending := by
    obtain ⟨⟨e, -, n, rfl⟩, -⟩ := hnew r hr
    rfl
  have hnoted := hinv.noted (x := .enqueued events) (by simp)
  constructor
  case ids => exact hids
  case sorted =>
    rw [List.pairwise_append]
    exact ⟨hinv.sorted, hsorted, fun r hr r' hr' => (hold hr).trans_lt (hlate hr')⟩
  case noneDead =>
    intro r hr hof
    rcases List.mem_append.1 hr with hr | hr
    · exact hinv.noneDead r hr hof
    · simp [hpending hr]
  case done =>
    intro r hr hof hstate
    rcases List.mem_append.1 hr with hr | hr
    · exact hnoted.done r hr hof hstate
    · exact absurd (hpending hr) hstate
  case known =>
    intro e he
    obtain ⟨r, hr, hid⟩ := hnoted.known e he
    exact ⟨r, List.mem_append_left _ hr, hid⟩
  case selecting =>
    intro d snapshot now hphase
    have hearlier := hinv.selecting d snapshot now hphase
    have hbound {o : Row} (ho : o ∈ snapshot) : o.sequence ≤ last := by
      obtain ⟨r, hr, hsame⟩ := hearlier.present o ho
      rw [hsame.sequence]
      exact hold hr
    constructor
    case present =>
      intro o ho
      obtain ⟨r, hr, hsame⟩ := hearlier.present o ho
      exact ⟨r, List.mem_append_left _ hr, hsame⟩
    case complete =>
      intro o ho r hr hlt
      rcases List.mem_append.1 hr with hr | hr
      · exact hearlier.complete o ho r hr hlt
      · exact absurd (hlate hr) (by have := hbound ho; omega)
    case done =>
      intro o ho r hr hsame hof hstate
      rcases List.mem_append.1 hr with hr | hr
      · exact hearlier.done o ho r hr hsame hof hstate
      · exact absurd (hlate hr) (by have := hbound ho; have := hsame.sequence; omega)
  case held =>
    intro d row hrow
    obtain ⟨⟨r, hr, hsame⟩, hfirst⟩ := hinv.held d row hrow
    refine ⟨⟨r, List.mem_append_left _ hr, hsame⟩, ?_⟩
    intro hof r' hr' hof' hlt
    rcases List.mem_append.1 hr' with hr' | hr'
    · exact hfirst hof r' hr' hof' hlt
    · exact absurd (hlate hr') (by have := hold hr; have := hsame.sequence; omega)
  case emitted => exact hnoted.emitted
  case ordered =>
    intro r₁ hr₁ r₂ hr₂ hof₁ hof₂ hlt later e earlier hlog hid
    have hr₂ : r₂ ∈ s.rows := by
      obtain ⟨r, hr, hid'⟩ := hnoted.known e (by rw [hlog]; simp)
      rwa [eq_of_eventId hids hr₂ (List.mem_append_left _ hr) (hid.symm.trans hid'.symm)]
    have hr₁ : r₁ ∈ s.rows := by
      rcases List.mem_append.1 hr₁ with hr₁ | hr₁
      · exact hr₁
      · exact absurd (hlate hr₁) (by have := hold hr₂; omega)
    exact hnoted.ordered r₁ hr₁ r₂ hr₂ hof₁ hof₂ hlt later e earlier hlog hid

/-- A dispatcher writes down what came of its row; `delivered` only what the sink accepted. -/
theorem finish {d : κ} {row : Row} {state : OutboxState} {attempts : ℕ} {nextAttemptAt : ℤ}
    {error : Option DispatchError} (hstate : state = .delivered → Accepted s.log row.eventId)
    (hdead : NoneDead tenant interaction
      (Dispatch.finish s.rows row.eventId state attempts nextAttemptAt error)) :
    OrderInv tenant interaction env { s.goto d .idle with
      rows := Dispatch.finish s.rows row.eventId state attempts nextAttemptAt error } := by
  refine (hinv.idle d).change ?_ ?_ ?_ hdead
  · intro r
    split <;> exact ⟨rfl, rfl, rfl, rfl⟩
  · intro r _ _ hpending
    rw [if_neg (by simp [hpending])]
    exact hpending
  · intro r hr hof hpending hdone
    by_cases hid : r.eventId = row.eventId
    · rw [if_pos (by simp [hid, hpending])] at hdone
      rw [hid]
      refine hstate ?_
      have halive := hdead _ (List.mem_map.2 ⟨r, hr, rfl⟩)
      rw [if_pos (by simp [hid, hpending])] at halive
      have halive : state ≠ .dead := halive hof
      have hdone : state ≠ .pending := hdone
      cases state <;> simp_all
    · rw [if_neg (by simp [hid])] at hdone
      exact absurd hpending hdone

end OrderInv

/-! ## Runs

Order can only be promised while no row of the interaction is given up, for the rows behind a dead
one go on. The hypothesis is on the run's steps, and the invariant carries what was accepted so far.
-/

/-- A step after which no row of the interaction is dead. -/
def QuietStep (env : Envelopes δ) (maxAttempts : ℕ) (backend : Backend) (tenant interaction : String)
    (s s' : System κ δ) : Prop :=
  Step env maxAttempts backend s s' ∧ NoneDead tenant interaction s'.rows

theorem QuietStep.keeps (h : QuietStep env maxAttempts backend tenant interaction s s')
    (hinv : OrderInv tenant interaction env s) : OrderInv tenant interaction env s' := by
  obtain ⟨hstep, hdead⟩ := h
  cases hstep with
  | enqueue last pendingLimit events hlast => exact hinv.enqueue pendingLimit events hlast
  | rolledBack => exact hinv
  | claim d now _ _ hfound =>
    obtain ⟨hrow, heligible⟩ := nextDue_eq_some hfound
    refine hinv.goto d (by simp) ?_ (by simp)
    intro row hphase
    cases hphase
    exact ⟨⟨_, hrow, .rfl⟩, fun hof r hr hof' hlt => eligible_earlier heligible hr hof' hof hlt⟩
  | snapshot d now =>
    refine hinv.goto d ?_ (by simp [Phase.row?]) (by simp)
    intro snapshot now hphase
    cases hphase
    exact .refl hinv.ids
  | @lock d snapshot now old row hselecting hread _ hcurrent hid heligible _ =>
    have hearlier := hinv.selecting d snapshot now hselecting
    refine hinv.goto d (by simp) ?_ (by simp)
    intro row' hphase
    cases hphase
    refine ⟨⟨row, hcurrent, .rfl⟩, ?_⟩
    intro hof r hr hof' hlt
    -- what is earlier in the table was in the snapshot, and was done with there
    have hsame : old.Same row := by
      obtain ⟨r', hr', hsame⟩ := hearlier.present old hread
      rwa [hinv.unique hr' hsame hcurrent hid]
    obtain ⟨o, ho, hor⟩ := hearlier.complete old hread r hr (by rw [hsame.sequence]; exact hlt)
    have hofo := hor.of_iff.2 hof'
    exact hearlier.done o ho r hr hor hofo
      (eligible_earlier heligible ho hofo hof (by rw [hor.sequence]; exact hlt))
  | invalid d now => exact hinv.finish (by simp) hdead
  | @emit d row e hclaimed hdecode =>
    have hrow : (s.phases d).row? = some row := by
      rw [hclaimed]
      rfl
    refine (hinv.accept hrow (decode_eventId hdecode)).goto d (by simp) ?_ ?_
    · intro row' hphase
      cases hphase
      exact hinv.held d row hrow
    · intro row' hphase
      cases hphase
      exact ⟨e, List.mem_cons_self, decode_eventId hdecode⟩
  | @fail d accepted row e hclaimed hdecode =>
    have hrow : (s.phases d).row? = some row := by
      rw [hclaimed]
      rfl
    have hheard : OrderInv tenant interaction env { s with
        log := .failed row.eventId :: (if accepted then [.accepted e] else []) ++ s.log } := by
      cases accepted
      · exact hinv.noted (by simp)
      · exact (hinv.accept hrow (decode_eventId hdecode)).noted (by simp)
    refine hheard.goto d (by simp) ?_ (by simp)
    intro row' hphase
    cases hphase
    exact hinv.held d row hrow
  | delivered d now hphase => exact hinv.finish (fun _ => hinv.emitted d _ hphase) hdead
  | retry d retryAt => exact hinv.finish (by simp) hdead
  | bury d now => exact hinv.finish (by simp) hdead
  | stop d => exact hinv.idle d
  | redeliver eventId now =>
    refine (hinv.noted (x := .redelivered eventId) (by simp)).change ?_ ?_ ?_ hdead
    · intro r
      split <;> exact ⟨rfl, rfl, rfl, rfl⟩
    · intro r hr hof hpending
      have halive := hinv.noneDead r hr hof
      rw [if_neg (by simp [halive])]
      exact hpending
    · intro r hr hof hpending hdone
      rw [if_neg (by simp [hpending])] at hdone
      exact absurd hpending hdone

theorem orderInv_of_run
    (hrun : Relation.ReflTransGen (QuietStep env maxAttempts backend tenant interaction) {} s) :
    OrderInv tenant interaction env s :=
  Runs.reflTransGen_of_invariant (fun _ _ hinv hstep => hstep.keeps hinv) .init hrun

/-- Whether a row is eligible is between it and the rows of its interaction. -/
theorem eligible_congr {rows rows' : List Row} {r : Row}
    (h : rows'.filter (·.sharesInteraction r) = rows.filter (·.sharesInteraction r)) (now : ℤ) :
    eligible rows' now r = eligible rows now r := by
  have hblocks (l : List Row) : l.any (·.blocks r) =
      (l.filter (·.sharesInteraction r)).any
        fun e => e.state = .pending && e.sequence < r.sequence := by
    rw [List.any_filter]
    refine congrArg l.any (funext fun e => ?_)
    rw [Row.blocks, Bool.and_assoc]
  rw [eligible, eligible, hblocks, hblocks, h]

theorem eligible_of_no_interaction {rows : List Row} {r : Row} (h : r.interactionId = none)
    (now : ℤ) : eligible rows now r = r.due now := by
  have hblocks : rows.any (·.blocks r) = false := by
    rw [List.any_eq_false]
    intro e _
    cases hid : e.interactionId <;> simp [Row.blocks, Row.sharesInteraction, h, hid]
  rw [eligible, hblocks]
  simp

/-- **Order of delivery.** In any run, over either backend and of any number of dispatchers, after no
    step of which a row of the interaction is dead, the sink accepts an event of the interaction only
    after every one before it. Other interactions' rows, whatever they wait for, do not make a row
    ineligible, and no row makes one without an interaction ineligible. -/
theorem interaction_order (env : Envelopes δ) (maxAttempts : ℕ) (backend : Backend)
    (tenant interaction : String) {s : System κ δ}
    (hrun : Relation.ReflTransGen (QuietStep env maxAttempts backend tenant interaction) {} s) :
    (∀ r₁ ∈ s.rows, ∀ r₂ ∈ s.rows, r₁.of tenant interaction → r₂.of tenant interaction →
      r₁.sequence < r₂.sequence → ∀ later e earlier, s.log = later ++ .accepted e :: earlier →
      e.eventId = r₂.eventId → Accepted earlier r₁.eventId) ∧
    (∀ r ∈ s.rows, ∀ rows now,
      rows.filter (·.sharesInteraction r) = s.rows.filter (·.sharesInteraction r) →
      eligible rows now r = eligible s.rows now r) ∧
    ∀ r ∈ s.rows, r.interactionId = none → ∀ now, eligible s.rows now r = r.due now :=
  ⟨(orderInv_of_run hrun).ordered, fun _ _ _ now h => eligible_congr h now,
    fun _ _ h now => eligible_of_no_interaction h now⟩

/-! Two events of one interaction, delivered one after the other. -/

namespace Samples

/-- An event of the interaction `t1`. -/
def event (eventId : String) : Event String Unit := ⟨eventId, .interactionCompleted, "acme", "t1", ()⟩

/-- The envelope is the id. -/
def named : Envelopes Unit :=
  { envelopes with
    dump := fun e => e.eventId
    parse := fun text => some (event text) }

/-- Its row. -/
def rowOf (sequence : ℕ) (eventId : String) (state : OutboxState) : Row :=
  { named.rowOf sequence (event eventId) with
    state
    attempts := if state = .pending then 0 else 1 }

/-- The table with the two rows in a state each. -/
def pair (first second : OutboxState) (phase : Phase) (log : List (Happening Unit)) :
    System Unit Unit :=
  { rows := [rowOf 1 "e1" first, rowOf 2 "e2" second], phases := fun _ => phase, log }

end Samples

open Samples in
theorem first_accepted_before_second :
    Accepted [.accepted (event "e1"), .enqueued [event "e1", event "e2"]] "e1" := by
  have hquiet : ∀ phase log first, first ≠ .dead →
      NoneDead "acme" "i1" (pair first .pending phase log).rows := by
    intro phase log first hfirst r hr _
    rcases List.mem_cons.1 hr with rfl | hr
    · exact hfirst
    · rw [List.mem_singleton.1 hr]
      simp [rowOf]
  have h₁ : Step named 1 .sqlite {}
      (pair .pending .pending .idle [.enqueued [event "e1", event "e2"]]) :=
    .enqueue 0 10 [event "e1", event "e2"] (Nat.le_refl _) (fun _ => rfl)
  have h₂ : Step named 1 .sqlite
      (pair .pending .pending .idle [.enqueued [event "e1", event "e2"]])
      (pair .pending .pending (.claimed (rowOf 1 "e1" .pending))
        [.enqueued [event "e1", event "e2"]]) := .claim () 0 rfl rfl rfl
  have h₃ : Step named 1 .sqlite
      (pair .pending .pending (.claimed (rowOf 1 "e1" .pending))
        [.enqueued [event "e1", event "e2"]])
      (pair .pending .pending (.emitted (rowOf 1 "e1" .pending) false)
        [.accepted (event "e1"), .enqueued [event "e1", event "e2"]]) := .emit () rfl rfl
  have h₄ : Step named 1 .sqlite
      (pair .pending .pending (.emitted (rowOf 1 "e1" .pending) false)
        [.accepted (event "e1"), .enqueued [event "e1", event "e2"]])
      (pair .delivered .pending .idle
        [.accepted (event "e1"), .enqueued [event "e1", event "e2"]]) :=
    @Step.delivered _ _ _ _ _ _ _ () 0 (rowOf 1 "e1" .pending) rfl
  have h₅ : Step named 1 .sqlite
      (pair .delivered .pending .idle [.accepted (event "e1"), .enqueued [event "e1", event "e2"]])
      (pair .delivered .pending (.claimed (rowOf 2 "e2" .pending))
        [.accepted (event "e1"), .enqueued [event "e1", event "e2"]]) := .claim () 0 rfl rfl rfl
  have h₆ : Step named 1 .sqlite
      (pair .delivered .pending (.claimed (rowOf 2 "e2" .pending))
        [.accepted (event "e1"), .enqueued [event "e1", event "e2"]])
      (pair .delivered .pending (.emitted (rowOf 2 "e2" .pending) false)
        [.accepted (event "e2"), .accepted (event "e1"), .enqueued [event "e1", event "e2"]]) :=
    .emit () rfl rfl
  have hrun : Relation.ReflTransGen (QuietStep named 1 .sqlite "acme" "i1") {}
      (pair .delivered .pending (.emitted (rowOf 2 "e2" .pending) false)
        [.accepted (event "e2"), .accepted (event "e1"), .enqueued [event "e1", event "e2"]]) :=
    (((((Relation.ReflTransGen.single ⟨h₁, hquiet _ _ _ (by simp)⟩).tail
      ⟨h₂, hquiet _ _ _ (by simp)⟩).tail ⟨h₃, hquiet _ _ _ (by simp)⟩).tail
      ⟨h₄, hquiet _ _ _ (by simp)⟩).tail ⟨h₅, hquiet _ _ _ (by simp)⟩).tail
      ⟨h₆, hquiet _ _ _ (by simp)⟩
  exact (interaction_order named 1 .sqlite "acme" "i1" hrun).1 (rowOf 1 "e1" .delivered)
    List.mem_cons_self (rowOf 2 "e2" .pending) (List.mem_cons_of_mem _ List.mem_cons_self) ⟨rfl, rfl⟩
    ⟨rfl, rfl⟩ (by decide) [] (event "e2") _ rfl rfl

end Dispatch

end AdaptiveLlm
