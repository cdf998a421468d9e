import IngressBench.Proofs.Program.Asks
import IngressBench.Proofs.Readiness.WellFormed
import IngressBench.Proofs.Signals.Plain

/-!
Steps that heed signals. A step heeds signals when it never invents one, hands on every one that it
is answered with, and gives way to the stop of the run: after a pause has been cut short nothing is
left but a report, and the step fails as cancelled (`Heeded`).

The rules below follow the shape of a step. The one that matters is about a step that is attempted:
what comes after it has to hand on a signal as it is (`Action.HandsOn`), and may do with any other
failure what it likes.
-/
namespace IngressBench

variable {τ σ α β : Type}

/-! ### Events -/

/-- The failure that a reply of a helper is. Faults of the cluster, of the metrics server, of files
and of bulk requests are no failures yet. -/
def Question.failed? : (q : Question) → q.Reply → Option Failure
  | .access _, .error x | .connect _, .error x => some x
  | .index .., .error x | .check, .error x => some x
  | .drive .., .error x | .tune _, .error x | .compare .., .error x => some x
  | _, _ => none

/-- A helper failed in this way. -/
def Event.Raises (x : Failure) : Event τ → Prop
  | .asked q r _ => q.failed? r = some x
  | _ => False

/-- An event of a report: a line of the log, or a listing of pending pods. -/
def Event.Reports : Event τ → Prop
  | .logged .. => True
  | .asked (.api (.listPods _ _ phase)) _ _ => phase = "Pending"
  | _ => False

/-- An event that is neither the stop of the run nor a failure of a helper. -/
def Event.Calm : Event τ → Prop
  | .stopped => False
  | .asked q r _ => q.failed? r = none
  | _ => True

theorem Event.Reports.calm {e : Event τ} (h : e.Reports) : e.Calm := by
  cases e with
  | logged level text => trivial
  | asked q r time =>
    cases q with
    | api call => rfl
    | _ => exact h.elim
  | _ => exact h.elim

theorem Event.Calm.not_raises {e : Event τ} (h : e.Calm) (x : Failure) : ¬ e.Raises x := by
  intro hx
  cases e with
  | asked q r time =>
    have hr : q.failed? r = some x := hx
    rw [show q.failed? r = none from h] at hr
    cases hr
  | _ => exact hx

/-! ### Rows -/

/-- What a row of events and the end of the step that left it have to do with signals. -/
structure Heeded (evs : List (Event τ)) (r : Except Failure α) : Prop where
  /-- A signal has a cause: a helper that failed with it, or the stop of the run. -/
  caused : ∀ x, r = .error x → x.isSignal = true →
    (∃ e ∈ evs, e.Raises x) ∨ x.isCancelled = true ∧ .stopped ∈ evs
  /-- A helper that fails with a signal ends the step. -/
  raised : ∀ e ∈ evs, ∀ x, e.Raises x → x.isSignal = true → r = .error x
  /-- So does the stop of the run, unless an answer that a report needs cannot be judged. -/
  halted : (∀ e ∈ evs, e.Sound) → ∀ {before after : List (Event τ)},
    evs = before ++ .stopped :: after →
      (∀ e ∈ after, e.Reports) ∧ ∃ x, r = .error x ∧ x.isCancelled = true

/-- Calm events and an end that is no signal. -/
theorem heeded_of_calm {evs : List (Event τ)} {r : Except Failure α} (h : ∀ e ∈ evs, e.Calm)
    (hr : Plain r) : Heeded evs r where
  caused x hx hsignal := by
    rw [hr x hx] at hsignal
    cases hsignal
  raised e he x hx _ := absurd hx ((h e he).not_raises x)
  halted _ {before after} hsplit := (h .stopped (hsplit ▸ List.mem_append_cons_self)).elim

/-- Calm events, the stop of the run, and a report; the step fails as cancelled if it can be
reported at all. -/
theorem heeded_of_stop {first report : List (Event τ)} {r : Except Failure α}
    (hfirst : ∀ e ∈ first, e.Calm) (hreport : ∀ e ∈ report, e.Reports)
    (hsignal : ∀ x, r = .error x → x.isSignal = true → x.isCancelled = true)
    (hsound : (∀ e ∈ first ++ .stopped :: report, e.Sound) →
      ∃ x, r = .error x ∧ x.isCancelled = true) : Heeded (first ++ .stopped :: report) r := by
  refine ⟨fun x hx hs => .inr ⟨hsignal x hx hs, List.mem_append_cons_self⟩, ?_, ?_⟩
  · intro e he x hraises _
    rcases List.mem_append.mp he with he | he
    · exact absurd hraises ((hfirst e he).not_raises x)
    rcases List.mem_cons.mp he with rfl | he
    · exact hraises.elim
    · exact absurd hraises ((hreport e he).calm.not_raises x)
  · -- Neither the calm events nor the report hold a stop, so that this is the only one.
    intro hall before after hsplit
    refine ⟨?_, hsound hall⟩
    rcases append_eq_append_cons hsplit with ⟨between, hfirst', -⟩ | ⟨between, -, hlater⟩
    · have hmem : Event.stopped ∈ first := hfirst' ▸ List.mem_append_cons_self
      exact (hfirst _ hmem).elim
    · cases between with
      | nil =>
        obtain ⟨-, rfl⟩ := List.cons.inj hlater
        exact hreport
      | cons e between =>
        obtain ⟨-, hreport'⟩ := List.cons.inj hlater
        have hmem : Event.stopped ∈ report := hreport' ▸ List.mem_append_cons_self
        exact (hreport _ hmem).elim

/-- What is left and ended with by a step that leaves a report and hands on a failure. -/
def HandedOn (x : Failure) (evs : List (Event τ)) (r : Except Failure α) : Prop :=
  (∀ e ∈ evs, e.Reports) ∧ r = .error x

/-- The events of a step that failed with a signal, and of the step that hands it on. -/
theorem Heeded.handedOn {first rest : List (Event τ)} {x : Failure} {r : Except Failure β}
    (h : Heeded first (.error x : Except Failure α)) (hrest : HandedOn x rest r) : Heeded (first ++ rest) r := by
  obtain ⟨hreports, rfl⟩ := hrest
  refine ⟨?_, ?_, ?_⟩
  · intro y hy hsignal
    cases hy
    rcases h.caused x rfl hsignal with ⟨e, he, hraises⟩ | ⟨hcancelled, hstopped⟩
    · exact .inl ⟨e, List.mem_append_left _ he, hraises⟩
    · exact .inr ⟨hcancelled, List.mem_append_left _ hstopped⟩
  · intro e he y hraises hsignal
    rcases List.mem_append.mp he with he | he
    · cases h.raised e he y hraises hsignal
      rfl
    · exact absurd hraises ((hreports e he).calm.not_raises y)
  · intro hsound before after hsplit
    rcases append_eq_append_cons hsplit with ⟨between, hfirst, rfl⟩ | ⟨between, -, hrest⟩
    · obtain ⟨hafter, y, hy, hcancelled⟩ :=
        h.halted (fun e he => hsound e (List.mem_append_left _ he)) hfirst
      cases hy
      refine ⟨fun e he => ?_, x, rfl, hcancelled⟩
      rcases List.mem_append.mp he with he | he
      · exact hafter e he
      · exact hreports e he
    · have hmem : Event.stopped ∈ rest := hrest ▸ List.mem_append_cons_self
      exact (hreports _ hmem).elim

/-- A failure is the same whatever value was expected. -/
theorem Heeded.failed {evs : List (Event τ)} {x : Failure}
    (h : Heeded evs (.error x : Except Failure α)) : Heeded evs (.error x : Except Failure β) := by
  have hnone : HandedOn x ([] : List (Event τ)) (.error x : Except Failure β) :=
    ⟨fun e he => absurd he List.not_mem_nil, rfl⟩
  simpa using h.handedOn hnone

/-- The events of a step that did not end with a signal, and of what came after it. -/
theorem Heeded.append {first rest : List (Event τ)} {e : Except Failure α} {r : Except Failure β}
    (h : Heeded first e) (he : Plain e) (hrest : Heeded rest r) : Heeded (first ++ rest) r := by
  refine ⟨?_, ?_, ?_⟩
  · intro x hx hsignal
    rcases hrest.caused x hx hsignal with ⟨e', he', hraises⟩ | ⟨hcancelled, hstopped⟩
    · exact .inl ⟨e', List.mem_append_right _ he', hraises⟩
    · exact .inr ⟨hcancelled, List.mem_append_right _ hstopped⟩
  · intro e' he' x hraises hsignal
    rcases List.mem_append.mp he' with he' | he'
    · have hplain := he x (h.raised e' he' x hraises hsignal)
      rw [hplain] at hsignal
      cases hsignal
    · exact hrest.raised e' he' x hraises hsignal
  · intro hsound before after hsplit
    rcases append_eq_append_cons hsplit with ⟨between, hfirst, -⟩ | ⟨between, -, hlater⟩
    · -- The first step did not end with a signal, so that no pause of it was cut short.
      obtain ⟨-, x, hx, hcancelled⟩ :=
        h.halted (fun e he => hsound e (List.mem_append_left _ he)) hfirst
      have hplain := he x hx
      rw [Failure.isSignal_of_isCancelled hcancelled] at hplain
      cases hplain
    · exact hrest.halted (fun e he => hsound e (List.mem_append_right _ he)) hlater

/-! ### Steps that can fail -/

namespace Action

/-- The step heeds signals. -/
def Heeds (a : Action τ α) : Prop :=
  ∀ evs r, a.Leaves evs r → Heeded evs r

/-- The step leaves a report and fails as told. -/
def HandsOn (x : Failure) (a : Action τ α) : Prop :=
  ∀ evs r, a.Leaves evs r → HandedOn x evs r

/-- The step pauses nowhere, asks no helper, and fails with no signal. -/
def Calm (a : Action τ α) : Prop :=
  ∀ evs r, a.Leaves evs r → (∀ e ∈ evs, e.Calm) ∧ Plain r

theorem Calm.heeds {a : Action τ α} (h : a.Calm) : a.Heeds :=
  fun evs r hl => heeded_of_calm (h evs r hl).1 (h evs r hl).2

theorem calm_pure (v : α) : Calm (pure v : Action τ α) := by
  intro evs r hl
  obtain ⟨rfl, rfl⟩ := leaves_pure.mp hl
  exact ⟨fun e he => absurd he List.not_mem_nil, plain_ok v⟩

theorem calm_throw {x : Failure} (hx : x.isSignal = false) : Calm (throw x : Action τ α) := by
  intro evs r hl
  obtain ⟨rfl, rfl⟩ := leaves_throw.mp hl
  exact ⟨fun e he => absurd he List.not_mem_nil, plain_error hx⟩

theorem calm_bind {a : Action τ α} {f : α → Action τ β} (ha : a.Calm) (hf : ∀ v, (f v).Calm) :
    Calm (a >>= f) := by
  intro evs r hl
  rcases leaves_bind.mp hl with ⟨x, hx, rfl⟩ | ⟨v, first, rest, hv, hr, rfl⟩
  · exact ⟨(ha _ _ hx).1, plain_error ((ha _ _ hx).2 x rfl)⟩
  · have hrest := hf v _ _ hr
    exact ⟨List.forall_mem_append.mpr ⟨(ha _ _ hv).1, hrest.1⟩, hrest.2⟩

theorem calm_ofExcept {e : Except Failure α} (he : Plain e) : Calm (ofExcept e : Action τ α) := by
  intro evs r hl
  obtain ⟨rfl, rfl⟩ := leaves_ofExcept.mp hl
  exact ⟨fun e he => absurd he List.not_mem_nil, he⟩

theorem calm_log (level : Level) (text : String) : Calm (log level text : Action τ Unit) := by
  intro evs r hl
  obtain ⟨rfl, rfl⟩ := leaves_log.mp hl
  exact ⟨List.forall_mem_singleton.mpr trivial, plain_ok ()⟩

theorem calm_sleep (time : τ) : Calm (sleep time) := by
  intro evs r hl
  obtain ⟨rfl, rfl⟩ := leaves_sleep.mp hl
  exact ⟨List.forall_mem_singleton.mpr trivial, plain_ok ()⟩

/-- A calm step that is attempted fails with no signal. -/
theorem calm_attempt_bind {a : Action τ α} {f : Except Failure α → Action τ β} (ha : a.Calm)
    (hf : ∀ e, Plain e → (f e).Calm) : Calm (attempt a >>= f) := by
  intro evs r hl
  obtain ⟨e, first, rest, he, hr, rfl⟩ := leaves_attempt_bind.mp hl
  obtain ⟨hfirst, hplain⟩ := ha _ _ he
  obtain ⟨hrest, hend⟩ := hf e hplain _ _ hr
  exact ⟨List.forall_mem_append.mpr ⟨hfirst, hrest⟩, hend⟩

/-- A question that no helper is asked. -/
theorem calm_ask_bind {q : Question} {f : q.Reply → Action τ β} (hq : ∀ v, q.failed? v = none)
    (hf : ∀ v, (f v).Calm) : Calm (ask q >>= f) := by
  intro evs r hl
  obtain ⟨v, time, rest, hr, rfl⟩ := leaves_ask_bind.mp hl
  exact ⟨List.forall_mem_cons.mpr ⟨hq v, (hf v _ _ hr).1⟩, (hf v _ _ hr).2⟩

/-- A fault of the cluster is no signal. -/
theorem failure_plain (fault : ApiFault) : fault.failure.isSignal = false := by
  cases fault <;> rfl

theorem calm_apiOrFail (call : ApiCall) : Calm (apiOrFail call : Action τ call.Reply) := by
  refine calm_ask_bind (fun _ => rfl) fun reply => ?_
  cases reply with
  | ok v => exact calm_pure v
  | error fault => exact calm_throw (failure_plain fault)

theorem HandsOn.heeds {x : Failure} {a : Action τ α} (h : HandsOn x a) (hx : x.isSignal = false) :
    a.Heeds := by
  intro evs r hl
  obtain ⟨hreports, rfl⟩ := h _ _ hl
  exact heeded_of_calm (fun e he => (hreports e he).calm) (plain_error hx)

theorem handsOn_throw (x : Failure) : HandsOn x (throw x : Action τ α) := by
  intro evs r hl
  obtain ⟨rfl, rfl⟩ := leaves_throw.mp hl
  exact ⟨fun e he => absurd he List.not_mem_nil, rfl⟩

theorem heeds_bind {a : Action τ α} {f : α → Action τ β} (ha : a.Heeds) (hf : ∀ v, (f v).Heeds) :
    Heeds (a >>= f) := by
  intro evs r hl
  rcases leaves_bind.mp hl with ⟨x, hx, rfl⟩ | ⟨v, first, rest, hv, hr, rfl⟩
  · exact (ha _ _ hx).failed
  · exact (ha _ _ hv).append (plain_ok v) (hf v _ _ hr)

theorem heeds_pure (v : α) : Heeds (pure v : Action τ α) :=
  (calm_pure v).heeds

theorem heeds_throw {x : Failure} (hx : x.isSignal = false) : Heeds (throw x : Action τ α) :=
  (calm_throw hx).heeds

theorem heeds_clock_bind {f : τ → Action τ β} (hf : ∀ now, (f now).Heeds) :
    Heeds (clock >>= f) := by
  intro evs r hl
  obtain ⟨now, hr⟩ := leaves_clock_bind.mp hl
  exact hf now _ _ hr

/-- What comes after an attempt hands on a signal; it may do with any other outcome what it likes.
-/
theorem heeds_attempt_bind {a : Action τ α} {f : Except Failure α → Action τ β} (ha : a.Heeds)
    (hsignal : ∀ x, x.isSignal = true → HandsOn x (f (.error x)))
    (hrest : ∀ e, Plain e → (f e).Heeds) : Heeds (attempt a >>= f) := by
  intro evs r hl
  obtain ⟨e, first, rest, he, hr, rfl⟩ := leaves_attempt_bind.mp hl
  cases e with
  | ok v => exact (ha _ _ he).append (plain_ok v) (hrest _ (plain_ok v) _ _ hr)
  | error x =>
    cases hx : x.isSignal with
    | true => exact (ha _ _ he).handedOn (hsignal x hx _ _ hr)
    | false => exact (ha _ _ he).append (plain_error hx) (hrest _ (plain_error hx) _ _ hr)

/-- So does what comes after a question. -/
theorem heeds_ask_bind {q : Question} {f : q.Reply → Action τ β}
    (hsignal : ∀ v x, q.failed? v = some x → x.isSignal = true → HandsOn x (f v))
    (hrest : ∀ v, (∀ x, q.failed? v = some x → x.isSignal = false) → (f v).Heeds) :
    Heeds (ask q >>= f) := by
  intro evs r hl
  obtain ⟨v, time, rest, hr, rfl⟩ := leaves_ask_bind.mp hl
  have hstep : ∀ e : Except Failure Unit,
      (∀ x, q.failed? v = some x → x.isSignal = true → e = .error x) →
      (∀ x, e = .error x → q.failed? v = some x) → Heeded [Event.asked q v time] e := by
    intro e hfailed hcause
    refine ⟨fun x hx _ => .inl ⟨_, List.mem_singleton_self _, hcause x hx⟩, ?_, ?_⟩
    · intro e' he' x hraises hs
      obtain rfl := List.mem_singleton.mp he'
      exact hfailed x hraises hs
    · intro _ before after hsplit
      have hmem : Event.stopped ∈ [Event.asked q v time] := hsplit ▸ List.mem_append_cons_self
      cases List.mem_singleton.mp hmem
  rw [← List.singleton_append]
  cases hv : q.failed? v with
  | none =>
    refine (hstep (.ok ()) (fun x hx => by rw [hv] at hx; cases hx) fun x hx => nomatch hx).append
      (plain_ok ()) (hrest v (fun x hx => by rw [hv] at hx; cases hx) _ _ hr)
  | some x =>
    have herror := hstep (.error x) (fun y hy _ => by rw [hv] at hy; cases hy; rfl)
      fun y hy => by cases hy; exact hv
    cases hx : x.isSignal with
    | true => exact herror.handedOn (hsignal v x hv hx _ _ hr)
    | false =>
      refine herror.append (plain_error hx) (hrest v (fun y hy => ?_) _ _ hr)
      rw [hv] at hy
      cases hy
      exact hx

/-- A helper whose failure, as `read` finds it in the reply, is handed on as it is. -/
theorem heeds_answer {q : Question} (read : q.Reply → Except Failure α)
    {f : Except Failure α → Action τ β}
    (hread : ∀ v x, q.failed? v = some x ↔ read v = .error x) (hfail : ∀ x, f (.error x) = throw x)
    (hok : ∀ a, (f (.ok a)).Heeds) : Heeds (ask q >>= fun v => f (read v)) := by
  refine heeds_ask_bind (fun v x hx _ => ?_) fun v hplain => ?_
  · rw [(hread v x).mp hx, hfail]
    exact handsOn_throw x
  · cases hv : read v with
    | ok a => exact hok a
    | error x =>
      rw [hfail]
      exact heeds_throw (hplain x ((hread v x).mpr hv))

end Action

/-! ### Steps that keep a state -/

namespace Keeping

/-- The step heeds signals, from whatever state it starts. -/
def Heeds (m : Keeping σ τ α) : Prop :=
  ∀ s evs r s', m.Leaves s evs r s' → Heeded evs r

theorem heeds_bind {m : Keeping σ τ α} {f : α → Keeping σ τ β} (hm : m.Heeds)
    (hf : ∀ v, (f v).Heeds) : Heeds (m >>= f) := by
  intro s evs r s' hl
  rcases leaves_bind.mp hl with ⟨x, hx, rfl⟩ | ⟨v, s₁, first, rest, hv, hr, rfl⟩
  · exact (hm _ _ _ _ hx).failed
  · exact (hm _ _ _ _ hv).append (plain_ok v) (hf v _ _ _ _ hr)

/-- A step without events that does not end with a signal. -/
theorem heeds_of_silent {m : Keeping σ τ α}
    (h : ∀ s evs r s', m.Leaves s evs r s' → evs = [] ∧ Plain r) : m.Heeds := by
  intro s evs r s' hl
  obtain ⟨rfl, hr⟩ := h _ _ _ _ hl
  exact heeded_of_calm (fun e he => absurd he List.not_mem_nil) hr

theorem heeds_pure (v : α) : Heeds (pure v : Keeping σ τ α) :=
  heeds_of_silent fun _ _ _ _ hl => ⟨(leaves_pure.mp hl).1, (leaves_pure.mp hl).2.1 ▸ plain_ok v⟩

theorem heeds_throw {x : Failure} (hx : x.isSignal = false) :
    Heeds (throw x : Keeping σ τ α) :=
  heeds_of_silent fun _ _ _ _ hl =>
    ⟨(leaves_throw.mp hl).1, (leaves_throw.mp hl).2.1 ▸ plain_error hx⟩

theorem heeds_get : Heeds (get : Keeping σ τ σ) :=
  heeds_of_silent fun _ _ _ _ hl => ⟨(leaves_get.mp hl).1, (leaves_get.mp hl).2.1 ▸ plain_ok _⟩

theorem heeds_set (t : σ) : Heeds (set t : Keeping σ τ PUnit) :=
  heeds_of_silent fun _ _ _ _ hl => ⟨(leaves_set.mp hl).1, (leaves_set.mp hl).2.1 ▸ plain_ok _⟩

theorem heeds_modify (f : σ → σ) : Heeds (modify f : Keeping σ τ PUnit) :=
  heeds_of_silent fun _ _ _ _ hl =>
    ⟨(leaves_modify.mp hl).1, (leaves_modify.mp hl).2.1 ▸ plain_ok _⟩

theorem heeds_lift {a : Action τ α} (ha : a.Heeds) : Heeds (lift a : Keeping σ τ α) :=
  fun _ _ _ _ hl => ha _ _ (leaves_lift.mp hl).1

theorem heeds_discard {m : Keeping σ τ α} (hm : m.Heeds) :
    Heeds (discard m : Keeping σ τ PUnit) := by
  rw [show (discard m : Keeping σ τ PUnit) = m >>= fun _ => pure ⟨⟩ from map_eq_pure_bind _ m]
  exact heeds_bind hm fun _ => heeds_pure _

end Keeping

end IngressBench
