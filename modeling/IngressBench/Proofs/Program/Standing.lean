import IngressBench.Proofs.Program.Asks
import IngressBench.Tuning.Apply

/-!
When a run may go on. Some replies end a run: a fault that no step goes on after. Other replies
oblige it: after a change of a deployment has been accepted, the deployment has to be seen ready
before anything else is changed, and after the deletion of a namespace the namespace has to be seen
gone. A run is free while it owes nothing, and only a free run changes anything
(`Standing.Guarded`).

`a.Guards s s'` says that the step `a`, begun at the standing `s`, changes nothing while it owes
something, and comes to the standing `s'` when it ends well. Steps that follow each other compose
(`Action.guards_bind`), so a run that ends well met all its obligations, and a run that did not meet
one failed.
-/
namespace IngressBench

variable {τ ρ α β : Type}

/-! ### Replies -/

/-- Whether a reply is one that no step of a run goes on after. An object that is there already, a
namespace that is gone, and documents that were not stored are no reason to stop. -/
def Question.isFatal : (q : Question) → q.Reply → Bool
  | .api (.create _), .error fault => !fault.hasStatus ApiFault.alreadyExists
  | .api (.delete _), .error _ => true
  | .api (.scale ..), .error _ => true
  | .api (.tune _), .error _ => true
  | .api (.readNamespace _), .error fault => !fault.hasStatus ApiFault.notFound
  | .api (.readDeployment ..), .error _ => true
  | .api (.readDeployment ..), .ok d => d.status.isNone
  | .api .version, .error _ => true
  | .api .listNodes, .error _ => true
  | .api (.readConfig ..), .error fault => !fault.hasStatus ApiFault.notFound
  | .api (.readRoute ..), .error _ => true
  | .access _, .error _ => true
  | .connect _, .error _ => true
  | .drive .., .error _ => true
  | .tune _, .error _ => true
  | .compare .., .error _ => true
  | .index .., .error (.indexing _) => false
  | .index .., .error _ => true
  | _, _ => false

/-- Whether a question may change something, in the cluster or wherever results are kept. Measuring,
tuning and comparing count as changes. -/
def Question.isEffect : Question → Bool
  | .api (.create _) | .api (.delete _) | .api (.scale ..) | .api (.tune _) => true
  | .exec _ | .drive .. | .tune _ | .compare .. | .index .. | .bulk .. => true
  | .file (.write ..) | .file (.rename ..) | .file (.makeDirectory _) => true
  | _ => false

/-- What has to be seen before the next change. -/
inductive Obligation where
  | ready (ns name : String)
  | gone (ns : String)
deriving DecidableEq

/-- What an accepted change obliges to. -/
def Question.obliges : (q : Question) → q.Reply → Option Obligation
  | .api (.scale ns name _), .ok _ => some (.ready ns name)
  | .api (.tune _), .ok _ => some (.ready routerNamespace Tuning.routerDeployment)
  | .api (.delete ⟨.ns, _, name⟩), .ok _ => some (.gone name)
  | _, _ => none

/-- Only a change obliges, and only one that was accepted. -/
theorem Question.obliges_some {q : Question} {r : q.Reply} {o : Obligation}
    (h : q.obliges r = some o) : q.isEffect = true ∧ q.isFatal r = false := by
  unfold obliges at h
  split at h
  · exact ⟨rfl, rfl⟩
  · exact ⟨rfl, rfl⟩
  · exact ⟨rfl, rfl⟩
  · cases h

/-- Whether a reply shows what an obligation asks for: a ready deployment, or an absent namespace.
-/
def Obligation.isMet : Obligation → (q : Question) → q.Reply → Bool
  | .ready ns name, .api (.readDeployment n m), .ok d =>
    n == ns && m == name && d.isReady.toOption == some true
  | .gone ns, .api (.readNamespace n), .error fault =>
    n == ns && fault.hasStatus ApiFault.notFound
  | _, _, _ => false

/-! ### Standings -/

/-- How a run stands. -/
inductive Standing where
  | free
  | owes (obligation : Obligation)
  | over
deriving DecidableEq

/-- Whether an event may change something. -/
def Event.isEffect : Event τ → Bool
  | .asked q _ _ => q.isEffect
  | _ => false

namespace Standing

/-- The standing after a reply. A new obligation takes the place of an old one. -/
def replied (s : Standing) (q : Question) (r : q.Reply) : Standing :=
  if s = .over ∨ q.isFatal r then .over
  else match q.obliges r, s with
    | some o, _ => .owes o
    | none, .owes o => if o.isMet q r then .free else .owes o
    | none, s => s

/-- A reply that neither ends the run nor obliges it leaves it free. -/
theorem replied_free {q : Question} {r : q.Reply} (hf : q.isFatal r = false)
    (ho : q.obliges r = none) : Standing.free.replied q r = .free := by
  simp [replied, hf, ho]

/-- Such a reply leaves an obligation as it is, or meets it. -/
theorem replied_owes {o : Obligation} {q : Question} {r : q.Reply} (hf : q.isFatal r = false)
    (ho : q.obliges r = none) :
    (Standing.owes o).replied q r = if o.isMet q r then .free else .owes o := by
  simp [replied, hf, ho]

/-- The standing after an event; the stop of the run ends it. -/
def next (s : Standing) : Event τ → Standing
  | .asked q r _ => s.replied q r
  | .stopped => .over
  | .slept _ | .logged .. => s

/-- The standing after a row of events. -/
def after (s : Standing) (evs : List (Event τ)) : Standing :=
  evs.foldl next s

/-- Nothing is changed except by a free run. -/
def Guarded (s : Standing) : List (Event τ) → Prop
  | [] => True
  | e :: rest => (e.isEffect = true → s = .free) ∧ (s.next e).Guarded rest

theorem after_append (s : Standing) (first rest : List (Event τ)) :
    s.after (first ++ rest) = (s.after first).after rest :=
  List.foldl_append

theorem guarded_append {s : Standing} {first rest : List (Event τ)} :
    s.Guarded (first ++ rest) ↔ s.Guarded first ∧ (s.after first).Guarded rest := by
  induction first generalizing s with
  | nil => exact ⟨fun h => ⟨trivial, h⟩, And.right⟩
  | cons e first ih => exact (and_congr_right fun _ => ih).trans and_assoc.symm

/-- A run that is over stays over. -/
theorem next_over (e : Event τ) : Standing.over.next e = .over := by
  cases e <;> rfl

theorem after_over (evs : List (Event τ)) : Standing.over.after evs = .over := by
  induction evs with
  | nil => rfl
  | cons e rest ih =>
    show (Standing.over.next e).after rest = .over
    rw [next_over, ih]

/-- A run that is over changes nothing. -/
theorem Guarded.over {evs : List (Event τ)} (h : Standing.over.Guarded evs) :
    ∀ e ∈ evs, e.isEffect = false := by
  induction evs with
  | nil => exact fun e he => absurd he List.not_mem_nil
  | cons e rest ih =>
    obtain ⟨hfirst, hrest⟩ := h
    rw [next_over] at hrest
    intro e' he
    rcases List.mem_cons.mp he with rfl | he
    · cases heffect : e'.isEffect with
      | false => rfl
      | true => cases hfirst heffect
    · exact ih hrest e' he

/-- A row without changes can follow any standing. -/
theorem guarded_of_asks {s : Standing} {evs : List (Event τ)}
    (h : ∀ e ∈ evs, e.Asks fun q => q.isEffect = false) : s.Guarded evs := by
  induction evs generalizing s with
  | nil => trivial
  | cons e rest ih =>
    refine ⟨fun heffect => ?_, ih fun e' he => h e' (List.mem_cons_of_mem _ he)⟩
    have he := h e List.mem_cons_self
    cases e with
    | asked q r time =>
      have hq : q.isEffect = false := he
      have hq' : q.isEffect = true := heffect
      rw [hq] at hq'
      cases hq'
    | _ => cases heffect

/-- Lines of the log and the stop of the run are no changes. -/
theorem guarded_notice (s : Standing) (notice : List (Level × String)) :
    s.Guarded (notice.map (fun (l, t) => (Event.logged l t : Event τ)) ++ [.stopped]) := by
  induction notice with
  | nil => exact ⟨fun h => absurd h Bool.false_ne_true, trivial⟩
  | cons line rest ih => exact ⟨fun h => absurd h Bool.false_ne_true, ih⟩

/-- An event that may change something comes to a free run. -/
theorem Guarded.free_before {s : Standing} {before after : List (Event τ)} {e : Event τ}
    (h : s.Guarded (before ++ e :: after)) (he : e.isEffect = true) : s.after before = .free :=
  (guarded_append.mp h).2.1 he

/-- Nothing is changed after an event that ends the run. -/
theorem Guarded.over_after {s : Standing} {before after : List (Event τ)} {e : Event τ}
    (h : s.Guarded (before ++ e :: after)) (he : ∀ t : Standing, t.next e = .over) :
    (∀ e' ∈ after, e'.isEffect = false) ∧ s.after (before ++ e :: after) = .over := by
  have hrest := (guarded_append.mp h).2.2
  rw [he] at hrest
  refine ⟨hrest.over, ?_⟩
  rw [after_append]
  show ((s.after before).next e).after after = .over
  rw [he, after_over]

theorem next_fatal {q : Question} {r : q.Reply} (h : q.isFatal r = true) (time : τ)
    (s : Standing) : s.next (.asked q r time) = .over :=
  if_pos (.inr h)

theorem next_stopped (s : Standing) : s.next (.stopped : Event τ) = .over := rfl

/-- One event of a run that owes something, and that is no change: it is still owed, or the run is
over, or the event shows it. -/
theorem next_owes {o : Obligation} {e : Event τ} (heffect : e.isEffect = false) :
    (Standing.owes o).next e = .owes o ∨ (Standing.owes o).next e = .over ∨
      ∃ (q : Question) (r : q.Reply) (time : τ), e = .asked q r time ∧ o.isMet q r = true := by
  cases e with
  | slept time => exact .inl rfl
  | logged level text => exact .inl rfl
  | stopped => exact .inr (.inl rfl)
  | asked q r time =>
    cases hf : q.isFatal r with
    | true => exact .inr (.inl (next_fatal hf time _))
    | false =>
      have ho : q.obliges r = none := by
        cases ho : q.obliges r with
        | none => rfl
        | some o' =>
          have hq : q.isEffect = false := heffect
          rw [(Question.obliges_some ho).1] at hq
          cases hq
      by_cases hm : o.isMet q r = true
      · exact .inr (.inr ⟨q, r, time, rfl, hm⟩)
      · refine .inl ?_
        show (Standing.owes o).replied q r = .owes o
        rw [replied_owes hf ho, if_neg hm]

/-- What an obligation leads to: it is met before anything is changed again, or nothing is changed
any more and the run does not end free. -/
theorem Guarded.owes {o : Obligation} {evs : List (Event τ)} (h : (Standing.owes o).Guarded evs) :
    (∃ (before : List (Event τ)) (q : Question) (r : q.Reply) (time : τ) (after : List (Event τ)),
      evs = before ++ .asked q r time :: after ∧ o.isMet q r = true ∧
        ∀ e ∈ before, e.isEffect = false) ∨
      (∀ e ∈ evs, e.isEffect = false) ∧ (Standing.owes o).after evs ≠ .free := by
  induction evs with
  | nil => exact .inr ⟨fun e he => absurd he List.not_mem_nil, fun h => nomatch h⟩
  | cons e rest ih =>
    obtain ⟨hfirst, hrest⟩ := h
    have heffect : e.isEffect = false := by
      cases he : e.isEffect with
      | false => rfl
      | true => cases hfirst he
    have hcons : ∀ {row : List (Event τ)}, (∀ e' ∈ row, e'.isEffect = false) →
        ∀ e' ∈ e :: row, e'.isEffect = false := fun h => List.forall_mem_cons.mpr ⟨heffect, h⟩
    rcases next_owes (o := o) heffect with hsame | hover | ⟨q, r, time, rfl, hm⟩
    · rw [hsame] at hrest
      rcases ih hrest with ⟨before, q, r, time, after, rfl, hm, hbefore⟩ | ⟨hnone, hfree⟩
      · exact .inl ⟨e :: before, q, r, time, after, rfl, hm, hcons hbefore⟩
      · refine .inr ⟨hcons hnone, ?_⟩
        show ((Standing.owes o).next e).after rest ≠ .free
        rw [hsame]
        exact hfree
    · rw [hover] at hrest
      refine .inr ⟨hcons hrest.over, ?_⟩
      show ((Standing.owes o).next e).after rest ≠ .free
      rw [hover, after_over]
      exact fun h => nomatch h
    · exact .inl ⟨[], q, r, time, rest, rfl, hm, fun e he => absurd he List.not_mem_nil⟩

end Standing

/-! ### Steps -/

/-- A step that ends well ends at the standing `s`. -/
def Standing.Well (s : Standing) (r : Except Failure α) (t : Standing) : Prop :=
  ∀ v, r = .ok v → t = s

theorem Standing.well_ok (s : Standing) (v : α) : s.Well (.ok v) s :=
  fun _ _ => rfl

theorem Standing.well_error (s : Standing) (x : Failure) (t : Standing) :
    s.Well (.error x : Except Failure α) t :=
  fun _ h => nomatch h

namespace Action

/-- Begun at the standing `s`, the step changes nothing while the run is not free, and what it ends
with satisfies `Q` together with the standing then. -/
def Guards (s : Standing) (a : Action τ α) (Q : Except Failure α → Standing → Prop) : Prop :=
  ∀ evs r, a.Leaves evs r → s.Guarded evs ∧ Q r (s.after evs)

variable {s : Standing} {Q : Except Failure β → Standing → Prop}

theorem guards_bind {a : Action τ α} {f : α → Action τ β} {P : Except Failure α → Standing → Prop}
    (ha : a.Guards s P) (herror : ∀ x t, P (.error x) t → Q (.error x) t)
    (hok : ∀ v t, P (.ok v) t → (f v).Guards t Q) : Guards s (a >>= f) Q := by
  intro evs r h
  rcases leaves_bind.mp h with ⟨x, hx, rfl⟩ | ⟨v, first, rest, hv, hr, rfl⟩
  · obtain ⟨hg, hp⟩ := ha _ _ hx
    exact ⟨hg, herror _ _ hp⟩
  · obtain ⟨hg, hp⟩ := ha _ _ hv
    obtain ⟨hg', hq⟩ := hok _ _ hp _ _ hr
    rw [Standing.after_append]
    exact ⟨Standing.guarded_append.mpr ⟨hg, hg'⟩, hq⟩

/-- Steps one after the other, each of which ends at one standing when it ends well. -/
theorem guards_then {a : Action τ α} {f : α → Action τ β} {s₁ s₂ : Standing}
    (ha : a.Guards s s₁.Well) (hf : ∀ v, (f v).Guards s₁ s₂.Well) : Guards s (a >>= f) s₂.Well :=
  guards_bind ha (fun _ _ _ => s₂.well_error _ _) fun v _ h => h v rfl ▸ hf v

theorem guards_mono {a : Action τ β} {P : Except Failure β → Standing → Prop} (ha : a.Guards s P)
    (hPQ : ∀ r t, P r t → Q r t) : a.Guards s Q :=
  fun evs r h => ⟨(ha evs r h).1, hPQ _ _ (ha evs r h).2⟩

theorem guards_pure {v : β} (h : Q (.ok v) s) : Guards s (pure v : Action τ β) Q := by
  intro evs r hl
  obtain ⟨rfl, rfl⟩ := leaves_pure.mp hl
  exact ⟨trivial, h⟩

theorem guards_throw {x : Failure} (h : Q (.error x) s) : Guards s (throw x : Action τ β) Q := by
  intro evs r hl
  obtain ⟨rfl, rfl⟩ := leaves_throw.mp hl
  exact ⟨trivial, h⟩

theorem guards_ofExcept {e : Except Failure β} (h : Q e s) :
    Guards s (ofExcept e : Action τ β) Q := by
  intro evs r hl
  obtain ⟨rfl, rfl⟩ := leaves_ofExcept.mp hl
  exact ⟨trivial, h⟩

theorem guards_log (s : Standing) (level : Level) (text : String) :
    Guards s (log level text : Action τ Unit) s.Well := by
  intro evs r hl
  obtain ⟨rfl, rfl⟩ := leaves_log.mp hl
  exact ⟨⟨fun h => absurd h Bool.false_ne_true, trivial⟩, s.well_ok ()⟩

/-- A question may be a change only when the run is free. -/
theorem guards_ask {q : Question} {Q : Except Failure q.Reply → Standing → Prop}
    (hq : q.isEffect = true → s = .free) (h : ∀ v, Q (.ok v) (s.replied q v)) :
    Guards s (ask q : Action τ q.Reply) Q := by
  intro evs r hl
  obtain ⟨v, time, rfl, rfl⟩ := leaves_ask.mp hl
  exact ⟨⟨hq, trivial⟩, h v⟩

theorem guards_ask_bind {q : Question} {f : q.Reply → Action τ β}
    (hq : q.isEffect = true → s = .free) (h : ∀ v, (f v).Guards (s.replied q v) Q) :
    Guards s (ask q >>= f) Q :=
  guards_bind (guards_ask (Q := fun r t => ∃ v, r = .ok v ∧ t = s.replied q v) hq
    fun v => ⟨v, rfl, rfl⟩) (fun _ _ ⟨_, hx, _⟩ => nomatch hx)
    fun _ _ ⟨_, hv, ht⟩ => ht ▸ Except.ok.inj hv ▸ h _

theorem guards_log_bind {level : Level} {text : String} {f : Unit → Action τ β}
    (h : (f ()).Guards s Q) : Guards s (log level text >>= f) Q := by
  intro evs r hl
  obtain ⟨rest, hr, rfl⟩ := leaves_log_bind.mp hl
  exact ⟨⟨fun h => absurd h Bool.false_ne_true, (h _ _ hr).1⟩, (h _ _ hr).2⟩

theorem guards_ofExcept_bind {e : Except Failure α} {f : α → Action τ β}
    (herror : ∀ x, e = .error x → Q (.error x) s) (hok : ∀ v, e = .ok v → (f v).Guards s Q) :
    Guards s (ofExcept e >>= f) Q := by
  intro evs r hl
  rcases leaves_ofExcept_bind.mp hl with ⟨x, hx, rfl, rfl⟩ | ⟨v, hv, hr⟩
  · exact ⟨trivial, herror x hx⟩
  · exact hok v hv _ _ hr

theorem guards_clock_bind {f : τ → Action τ β} (h : ∀ now, (f now).Guards s Q) :
    Guards s (clock >>= f) Q := by
  intro evs r hl
  obtain ⟨now, hr⟩ := leaves_clock_bind.mp hl
  exact h now _ _ hr

theorem guards_attempt_bind {a : Action τ α} {f : Except Failure α → Action τ β}
    {P : Except Failure α → Standing → Prop} (ha : a.Guards s P)
    (hf : ∀ e t, P e t → (f e).Guards t Q) : Guards s (attempt a >>= f) Q := by
  intro evs r hl
  obtain ⟨e, first, rest, he, hr, rfl⟩ := leaves_attempt_bind.mp hl
  obtain ⟨hg, hp⟩ := ha _ _ he
  obtain ⟨hg', hq⟩ := hf _ _ hp _ _ hr
  rw [Standing.after_append]
  exact ⟨Standing.guarded_append.mpr ⟨hg, hg'⟩, hq⟩

/-- A step that asks for no change can be begun at any standing. -/
theorem guards_of_asks {a : Action τ β} (h : a.Asks fun q => q.isEffect = false) (s : Standing) :
    a.Guards s fun _ _ => True :=
  fun evs r hl => ⟨Standing.guarded_of_asks (h evs r hl), trivial⟩

/-- A call to the cluster whose fault is a failure. -/
theorem guards_apiOrFail {call : ApiCall} {Q : Except Failure call.Reply → Standing → Prop}
    (hq : (Question.api call).isEffect = true → s = .free)
    (herror : ∀ fault, Q (.error fault.failure) (s.replied (.api call) (.error fault)))
    (hok : ∀ v : call.Reply, Q (.ok v) (s.replied (.api call) (.ok v))) :
    Guards s (apiOrFail call : Action τ call.Reply) Q := by
  intro evs r hl
  obtain ⟨reply, time, rfl, rfl⟩ := leaves_apiOrFail.mp hl
  refine ⟨⟨hq, trivial⟩, ?_⟩
  cases reply with
  | ok v => exact hok v
  | error fault => exact herror fault

theorem guards_apiOrFail_bind {call : ApiCall} {f : call.Reply → Action τ β}
    (hq : (Question.api call).isEffect = true → s = .free)
    (herror : ∀ fault, Q (.error fault.failure) (s.replied (.api call) (.error fault)))
    (h : ∀ v : call.Reply, (f v).Guards (s.replied (.api call) (.ok v)) Q) :
    Guards s (apiOrFail call >>= f) Q := by
  intro evs r hl
  rcases leaves_apiOrFail_bind.mp hl with ⟨fault, time, rfl, rfl⟩ | ⟨v, time, rest, hr, rfl⟩
  · exact ⟨⟨hq, trivial⟩, herror fault⟩
  · obtain ⟨hg, hw⟩ := h v _ _ hr
    exact ⟨⟨hq, hg⟩, hw⟩

end Action

namespace Keeping

/-- The same for a step that keeps a state, from whatever state it starts. -/
def Guards (s : Standing) (m : Keeping ρ τ α) (s' : Standing) : Prop :=
  ∀ t evs r t', m.Leaves t evs r t' → s.Guarded evs ∧ s'.Well r (s.after evs)

variable {s s₁ s₂ : Standing}

theorem guards_bind {m : Keeping ρ τ α} {f : α → Keeping ρ τ β} (hm : m.Guards s s₁)
    (hf : ∀ v, (f v).Guards s₁ s₂) : Guards s (m >>= f) s₂ := by
  intro t evs r t' h
  rcases leaves_bind.mp h with ⟨x, hx, rfl⟩ | ⟨v, t₁, first, rest, hv, hr, rfl⟩
  · exact ⟨(hm _ _ _ _ hx).1, s₂.well_error _ _⟩
  · obtain ⟨hg, hw⟩ := hm _ _ _ _ hv
    obtain rfl := hw v rfl
    obtain ⟨hg', hw'⟩ := hf v _ _ _ _ hr
    rw [Standing.after_append]
    exact ⟨Standing.guarded_append.mpr ⟨hg, hg'⟩, hw'⟩

theorem guards_pure (v : α) : Guards s (pure v : Keeping ρ τ α) s := by
  intro t evs r t' h
  obtain ⟨rfl, rfl, rfl⟩ := leaves_pure.mp h
  exact ⟨trivial, s.well_ok v⟩

theorem guards_throw (x : Failure) : Guards s (throw x : Keeping ρ τ α) s₁ := by
  intro t evs r t' h
  obtain ⟨rfl, rfl, rfl⟩ := leaves_throw.mp h
  exact ⟨trivial, s₁.well_error _ _⟩

theorem guards_get : Guards s (get : Keeping ρ τ ρ) s := by
  intro t evs r t' h
  obtain ⟨rfl, rfl, rfl⟩ := leaves_get.mp h
  exact ⟨trivial, s.well_ok _⟩

theorem guards_set (u : ρ) : Guards s (set u : Keeping ρ τ PUnit) s := by
  intro t evs r t' h
  obtain ⟨rfl, rfl, rfl⟩ := leaves_set.mp h
  exact ⟨trivial, s.well_ok _⟩

theorem guards_modify (f : ρ → ρ) : Guards s (modify f : Keeping ρ τ PUnit) s := by
  intro t evs r t' h
  obtain ⟨rfl, rfl, rfl⟩ := leaves_modify.mp h
  exact ⟨trivial, s.well_ok _⟩

theorem guards_lift {a : Action τ α} (ha : a.Guards s s₁.Well) :
    Guards s (lift a : Keeping ρ τ α) s₁ :=
  fun _ _ _ _ h => ha _ _ (leaves_lift.mp h).1

theorem guards_discard {m : Keeping ρ τ α} (hm : m.Guards s s₁) :
    Guards s (discard m : Keeping ρ τ PUnit) s₁ := by
  intro t evs r t' h
  obtain ⟨r₁, h₁, rfl⟩ := leaves_discard.mp h
  obtain ⟨hg, hw⟩ := hm _ _ _ _ h₁
  refine ⟨hg, fun v hv => ?_⟩
  cases r₁ with
  | ok u => exact hw u rfl
  | error x => cases hv

end Keeping

end IngressBench
