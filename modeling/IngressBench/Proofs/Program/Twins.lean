import IngressBench.Proofs.Program.Asks

/-!
Two runs that differ in some replies only.

A variation names the questions that two worlds may answer differently, how their replies may differ,
and which lines of the log such a reply comes with. `p₁.Twins v Q p₂` couples two programs: they ask
the same questions in the same order, whatever they are answered, and after two replies of the
variation each of them writes the lines of its own reply and goes on as a twin of the other; in the
end their values are related by `Q`. In two worlds that are alike but for the variation such programs
take the same time, end with related values and leave rows of events that vary only so
(`Twins.run`). In worlds whose replies to the variation are any at all they do so too, up to the first
two replies that may not stand for each other (`Twins.run_or_part`).

The rules follow the shape of a step, and a step that asks nothing of the variation is its own twin
(`Program.twins_self`).
-/
namespace IngressBench

variable {τ σ σ₁ σ₂ α β γ δ : Type}

/-! ### Variations -/

/-- How the surroundings of two runs may differ. -/
structure Variation where
  /-- The questions that may be answered differently. -/
  concerns : Question → Prop
  /-- The replies that may stand for each other. -/
  allows : (q : Question) → q.Reply → q.Reply → Prop
  /-- The lines of the log that a reply comes with. -/
  tells : (q : Question) → q.Reply → List (Level × String)

/-- Lines of the log as events. -/
def logged (lines : List (Level × String)) : List (Event τ) :=
  lines.map fun (l, t) => .logged l t

/-- What a program does at one step, whatever it is answered. -/
inductive Act (τ : Type) where
  | slept (time : τ)
  | stopped
  | asked (question : Question) (time : τ)

/-- What a program does at an event; it writes into the log for others. -/
def Event.act? : Event τ → Option (Act τ)
  | .slept time => some (.slept time)
  | .stopped => some .stopped
  | .logged .. => none
  | .asked q _ time => some (.asked q time)

/-- Rows of events that are the same, but for replies of the variation and the lines that come with
them. -/
inductive Varies (v : Variation) : List (Event τ) → List (Event τ) → Prop
  | nil : Varies v [] []
  | same {e : Event τ} {evs₁ evs₂ : List (Event τ)} (h : e.Asks fun q => ¬ v.concerns q)
      (rest : Varies v evs₁ evs₂) : Varies v (e :: evs₁) (e :: evs₂)
  | reply {q : Question} {r₁ r₂ : q.Reply} {time : τ} {evs₁ evs₂ : List (Event τ)}
      (hq : v.concerns q) (h : v.allows q r₁ r₂) (rest : Varies v evs₁ evs₂) :
      Varies v (.asked q r₁ time :: (logged (v.tells q r₁) ++ evs₁))
        (.asked q r₂ time :: (logged (v.tells q r₂) ++ evs₂))

namespace Varies

variable {v : Variation} {evs₁ evs₂ later₁ later₂ es : List (Event τ)}

theorem append (h : Varies v evs₁ evs₂) (h' : Varies v later₁ later₂) :
    Varies v (evs₁ ++ later₁) (evs₂ ++ later₂) := by
  induction h with
  | nil => exact h'
  | same h _ ih => exact .same h ih
  | reply hq h _ ih =>
    rw [List.cons_append, List.cons_append, List.append_assoc, List.append_assoc]
    exact .reply hq h ih

theorem of_same (h : ∀ e ∈ es, e.Asks fun q => ¬ v.concerns q) : Varies v es es := by
  induction es with
  | nil => exact .nil
  | cons e rest ih =>
    exact .same (h e List.mem_cons_self) (ih fun e he => h e (List.mem_cons_of_mem _ he))

/-- Rows that vary only so look the same to a view that sees neither the log nor the variation. -/
theorem filterMap_eq {f : Event τ → Option α} (hlog : ∀ level text, f (.logged level text) = none)
    (hreply : ∀ q r₁ r₂ time, v.concerns q → v.allows q r₁ r₂ →
      f (.asked q r₁ time) = f (.asked q r₂ time)) (h : Varies v evs₁ evs₂) :
    evs₁.filterMap f = evs₂.filterMap f := by
  have hlines : ∀ lines : List (Level × String),
      (logged lines : List (Event τ)).filterMap f = [] := fun lines => by
    refine List.filterMap_eq_nil_iff.mpr fun e he => ?_
    obtain ⟨_, -, rfl⟩ := List.mem_map.mp he
    exact hlog _ _
  induction h with
  | nil => rfl
  | same _ _ ih => rw [List.filterMap_cons, List.filterMap_cons, ih]
  | @reply q r₁ r₂ time evs₁ evs₂ hq hallowed _ ih =>
    rw [List.filterMap_cons, List.filterMap_cons, hreply q r₁ r₂ time hq hallowed,
      List.filterMap_append, List.filterMap_append, hlines, hlines, ih]

/-- **Rows that vary only so do the same.** -/
theorem acts_eq (h : Varies v evs₁ evs₂) :
    evs₁.filterMap Event.act? = evs₂.filterMap Event.act? :=
  h.filterMap_eq (fun _ _ => rfl) fun _ _ _ _ _ _ => rfl

end Varies

/-! ### Worlds that are alike -/

/-- Worlds that are alike but for a variation, with states that are related by `R`. -/
structure World.Alike (v : Variation) (R : σ₁ → σ₂ → Prop) (w₁ : World τ σ₁) (w₂ : World τ σ₂) :
    Prop where
  stopAt : w₁.stopAt = w₂.stopAt
  notice : w₁.notice = w₂.notice
  same : ∀ q s₁ s₂, R s₁ s₂ → ¬ v.concerns q → (w₁.answer q s₁).1 = (w₂.answer q s₂).1
  allowed : ∀ q s₁ s₂, R s₁ s₂ → v.concerns q →
    v.allows q (w₁.answer q s₁).1 (w₂.answer q s₂).1
  cost : ∀ q s₁ s₂, R s₁ s₂ → (w₁.answer q s₁).2.1 = (w₂.answer q s₂).2.1
  next : ∀ q s₁ s₂, R s₁ s₂ → R (w₁.answer q s₁).2.2 (w₂.answer q s₂).2.2

/-- The variation with any replies for each other. -/
def Variation.loose (v : Variation) : Variation :=
  { v with allows := fun _ _ _ => True }

theorem World.Alike.loosen {v : Variation} {R : σ₁ → σ₂ → Prop} {w₁ : World τ σ₁}
    {w₂ : World τ σ₂} (hw : World.Alike v R w₁ w₂) : World.Alike v.loose R w₁ w₂ :=
  ⟨hw.stopAt, hw.notice, hw.same, fun _ _ _ _ _ => trivial, hw.cost, hw.next⟩

/-- Rows that vary only so, up to a question that the worlds answer in ways that may not stand for
each other. -/
inductive Parts (v : Variation) (R : σ₁ → σ₂ → Prop) (w₁ : World τ σ₁) (w₂ : World τ σ₂) :
    List (Event τ) → List (Event τ) → Prop
  | reply {q : Question} {s₁ : σ₁} {s₂ : σ₂} {time : τ}
      {evs₁ evs₂ later₁ later₂ : List (Event τ)} (hq : v.concerns q) (hs : R s₁ s₂)
      (hrefused : ¬ v.allows q (w₁.answer q s₁).1 (w₂.answer q s₂).1)
      (hcommon : Varies v evs₁ evs₂) :
      Parts v R w₁ w₂ (evs₁ ++ .asked q (w₁.answer q s₁).1 time :: later₁)
        (evs₂ ++ .asked q (w₂.answer q s₂).1 time :: later₂)

/-- Worlds that are alike never part. -/
theorem Parts.not_alike {v : Variation} {R : σ₁ → σ₂ → Prop} {w₁ : World τ σ₁} {w₂ : World τ σ₂}
    {evs₁ evs₂ : List (Event τ)} (h : Parts v R w₁ w₂ evs₁ evs₂) : ¬ World.Alike v R w₁ w₂ := by
  intro hw
  cases h with
  | reply hq hs hrefused _ => exact hrefused (hw.allowed _ _ _ hs hq)

/-- Histories at the same time, whose events vary only so. -/
structure Twin (v : Variation) (R : σ₁ → σ₂ → Prop) (h₁ : History τ σ₁) (h₂ : History τ σ₂) :
    Prop where
  now : h₁.now = h₂.now
  stopped : h₁.stopped = h₂.stopped
  state : R h₁.state h₂.state
  events : Varies v h₁.events.reverse h₂.events.reverse

section
variable [TimeScale τ] {v : Variation} {R : σ₁ → σ₂ → Prop} {w₁ : World τ σ₁} {w₂ : World τ σ₂}
  {h₁ k₁ : History τ σ₁} {h₂ k₂ : History τ σ₂}

omit [TimeScale τ] in
/-- Histories that begin at one time, in related states. -/
theorem Twin.begin (now : τ) {s₁ : σ₁} {s₂ : σ₂} (h : R s₁ s₂) :
    Twin v R { now, state := s₁ } { now, state := s₂ } :=
  ⟨rfl, rfl, h, .nil⟩

omit [TimeScale τ] in
/-- Twins stay twins when the same happens to both. -/
theorem Twin.extend (h : Twin v R h₁ h₂) (es : List (Event τ))
    (hes : ∀ e ∈ es, e.Asks fun q => ¬ v.concerns q) (hnow : k₁.now = k₂.now)
    (hstopped : k₁.stopped = k₂.stopped) (hstate : R k₁.state k₂.state)
    (he₁ : k₁.events = es.reverse ++ h₁.events) (he₂ : k₂.events = es.reverse ++ h₂.events) :
    Twin v R k₁ k₂ where
  now := hnow
  stopped := hstopped
  state := hstate
  events := by
    rw [he₁, he₂, List.reverse_append, List.reverse_append, List.reverse_reverse]
    exact h.events.append (.of_same hes)

theorem Twin.slept (h : Twin v R h₁ h₂) (time : τ) :
    Twin v R (World.slept time h₁) (World.slept time h₂) := by
  refine h.extend [.slept time] (List.forall_mem_singleton.mpr trivial) ?_ h.stopped
    h.state rfl rfl
  exact congrArg (TimeScale.add · time) h.now

theorem Twin.stopWithin (hw : World.Alike v.loose R w₁ w₂) (h : Twin v R h₁ h₂) (time : τ) :
    Twin v R (w₁.stopWithin time h₁) (w₂.stopWithin time h₂) := by
  have hnotice : ∀ e ∈ (logged w₂.notice : List (Event τ)), e.Asks fun q => ¬ v.concerns q := by
    intro e he
    obtain ⟨_, -, rfl⟩ := List.mem_map.mp he
    trivial
  unfold World.stopWithin
  rw [hw.stopAt, hw.notice, h.now, h.stopped]
  split
  · split
    · exact h.extend _ hnotice rfl rfl h.state rfl rfl
    · exact h
  · exact h

/-- **A call that the variation does not concern is answered alike.** -/
theorem Twin.reply (hw : World.Alike v.loose R w₁ w₂) (h : Twin v R h₁ h₂) {c : Call τ}
    (hc : ∀ q, c = .ask q → ¬ v.concerns q) :
    (w₁.reply c h₁).1 = (w₂.reply c h₂).1 ∧ Twin v R (w₁.reply c h₁).2 (w₂.reply c h₂).2 := by
  cases c with
  | clock => exact ⟨h.now, h⟩
  | sleep time => exact ⟨rfl, h.slept time⟩
  | log level text =>
    exact ⟨rfl, h.extend [.logged level text] (List.forall_mem_singleton.mpr trivial)
      h.now h.stopped h.state rfl rfl⟩
  | ask q =>
    have hq := hc q rfl
    have hreply := hw.same q _ _ h.state hq
    refine ⟨hreply, h.extend [.asked q (w₁.answer q h₁.state).1 h₁.now]
      (List.forall_mem_singleton.mpr hq) ?_ h.stopped (hw.next q _ _ h.state) rfl ?_⟩
    · exact congr (congrArg TimeScale.add h.now) (hw.cost q _ _ h.state)
    · rw [hreply, h.now]
      rfl
  | pause time =>
    have htwin := h.stopWithin hw time
    cases hs : (w₁.stopWithin time h₁).stopped with
    | false =>
      rw [w₁.reply_pause_whole hs, w₂.reply_pause_whole (htwin.stopped.symm.trans hs)]
      exact ⟨rfl, htwin.slept time⟩
    | true =>
      rw [w₁.reply_pause_cut hs, w₂.reply_pause_cut (htwin.stopped.symm.trans hs)]
      exact ⟨rfl, htwin.extend [.stopped] (List.forall_mem_singleton.mpr trivial)
        htwin.now htwin.stopped htwin.state rfl rfl⟩

end

/-! ### Programs -/

namespace Program

/-- Writes lines into the log, and goes on. -/
def telling : List (Level × String) → Program τ α → Program τ α
  | [], p => p
  | (level, text) :: lines, p => .call (.log level text) fun _ => telling lines p

theorem run_telling [TimeScale τ] (w : World τ σ) (lines : List (Level × String))
    (p : Program τ α) (h : History τ σ) :
    w.run (telling lines p) h =
      w.run p { h with events := (logged lines).reverse ++ h.events } := by
  induction lines generalizing h with
  | nil => rfl
  | cons line lines ih =>
    refine (ih _).trans ?_
    rw [show (logged (line :: lines) : List (Event τ)) = .logged line.1 line.2 :: logged lines
      from rfl, List.reverse_cons, List.append_assoc]
    rfl

theorem telling_bind (lines : List (Level × String)) (p : Program τ α) (f : α → Program τ β) :
    (telling lines p).bind f = telling lines (p.bind f) := by
  induction lines with
  | nil => rfl
  | cons line lines ih => exact congrArg (Program.call _) (funext fun _ => ih)

/-- Programs that ask the same, and go on as twins after two replies of a variation, when each of
them has written the lines of its own reply. -/
inductive Twins (v : Variation) (Q : α → β → Prop) : Program τ α → Program τ β → Prop
  | done {a : α} {b : β} (h : Q a b) : Twins v Q (.done a) (.done b)
  | call {c : Call τ} {next₁ : c.Reply → Program τ α} {next₂ : c.Reply → Program τ β}
      (hc : ∀ q, c = .ask q → ¬ v.concerns q) (hnext : ∀ r, Twins v Q (next₁ r) (next₂ r)) :
      Twins v Q (.call c next₁) (.call c next₂)
  | told {q : Question} {next₁ : q.Reply → Program τ α} {next₂ : q.Reply → Program τ β}
      (hq : v.concerns q)
      (hnext : ∀ r₁ r₂, v.allows q r₁ r₂ → Twins v Q (next₁ r₁) (next₂ r₂)) :
      Twins v Q (.call (.ask q) fun r => telling (v.tells q r) (next₁ r))
        (.call (.ask q) fun r => telling (v.tells q r) (next₂ r))

variable {v : Variation} {Q : α → β → Prop} {p₁ : Program τ α} {p₂ : Program τ β}

/-- What is left after a question comes behind its reply. -/
theorem run_question [TimeScale τ] (w : World τ σ) {q : Question} (next : q.Reply → Program τ α)
    (h : History τ σ) : ∃ later, (w.run (.call (.ask q) next) h).2.events.reverse =
      h.events.reverse ++ .asked q (w.answer q h.state).1 h.now :: later := by
  obtain ⟨later, -, hevents⟩ :=
    w.run_leaves (next (w.reply (.ask q) h).1) (w.reply (.ask q) h).2
  refine ⟨later, ?_⟩
  show (w.run (next (w.reply (.ask q) h).1) (w.reply (.ask q) h).2).2.events.reverse = _
  rw [hevents]
  simp [World.reply]

/-- **Twins end with related values**, at the same time, and leave rows of events that vary only so,
unless they part at a question. -/
theorem Twins.run_or_part [TimeScale τ] {R : σ₁ → σ₂ → Prop} {w₁ : World τ σ₁} {w₂ : World τ σ₂}
    (hw : World.Alike v.loose R w₁ w₂) (hp : Twins v Q p₁ p₂) {h₁ : History τ σ₁}
    {h₂ : History τ σ₂} (h : Twin v R h₁ h₂) :
    (Q (w₁.run p₁ h₁).1 (w₂.run p₂ h₂).1 ∧ Twin v R (w₁.run p₁ h₁).2 (w₂.run p₂ h₂).2) ∨
      Parts v R w₁ w₂ (w₁.run p₁ h₁).2.events.reverse (w₂.run p₂ h₂).2.events.reverse := by
  induction hp generalizing h₁ h₂ with
  | done hq => exact .inl ⟨hq, h⟩
  | @call c next₁ next₂ hc _ ih =>
    obtain ⟨hreply, htwin⟩ := h.reply hw hc
    rw [w₁.run_call, w₂.run_call, ← hreply]
    exact ih _ htwin
  | @told q next₁ next₂ hq _ ih =>
    by_cases hallowed : v.allows q (w₁.answer q h₁.state).1 (w₂.answer q h₂.state).1
    · rw [w₁.run_call, w₂.run_call, run_telling, run_telling]
      refine ih _ _ hallowed ⟨?_, h.stopped, hw.next q _ _ h.state, ?_⟩
      · exact congr (congrArg TimeScale.add h.now) (hw.cost q _ _ h.state)
      · show Varies v ((logged (v.tells q (w₁.answer q h₁.state).1)).reverse ++
            (Event.asked q (w₁.answer q h₁.state).1 h₁.now :: h₁.events)).reverse
          ((logged (v.tells q (w₂.answer q h₂.state).1)).reverse ++
            (Event.asked q (w₂.answer q h₂.state).1 h₂.now :: h₂.events)).reverse
        rw [h.now]
        simpa using h.events.append (.reply hq hallowed .nil)
    · obtain ⟨later₁, he₁⟩ := run_question w₁ (fun r => telling (v.tells q r) (next₁ r)) h₁
      obtain ⟨later₂, he₂⟩ := run_question w₂ (fun r => telling (v.tells q r) (next₂ r)) h₂
      rw [← h.now] at he₂
      refine .inr ((congr (congrArg (Parts v R w₁ w₂) he₁) he₂).mpr ?_)
      exact .reply hq h.state hallowed h.events

/-- **In worlds that are alike twins end with related values**, at the same time, and leave rows of
events that vary only so. -/
theorem Twins.run [TimeScale τ] {R : σ₁ → σ₂ → Prop} {w₁ : World τ σ₁} {w₂ : World τ σ₂}
    (hw : World.Alike v R w₁ w₂) (hp : Twins v Q p₁ p₂) {h₁ : History τ σ₁} {h₂ : History τ σ₂}
    (h : Twin v R h₁ h₂) :
    Q (w₁.run p₁ h₁).1 (w₂.run p₂ h₂).1 ∧ Twin v R (w₁.run p₁ h₁).2 (w₂.run p₂ h₂).2 := by
  rcases hp.run_or_part hw.loosen h with hends | hparts
  · exact hends
  · exact (hparts.not_alike hw).elim

/-! #### Rules -/

/-- What comes after twins, for any two values that are related, makes twins of the whole. -/
theorem Twins.bind {Q' : γ → δ → Prop} {f : α → Program τ γ} {g : β → Program τ δ}
    (hp : Twins v Q p₁ p₂) (hf : ∀ a b, Q a b → Twins v Q' (f a) (g b)) :
    Twins v Q' (p₁.bind f) (p₂.bind g) := by
  induction hp with
  | done hq => exact hf _ _ hq
  | call hc _ ih => exact .call hc ih
  | told hq _ ih =>
    have htold := Twins.told (v := v) hq ih
    simpa only [Program.bind, telling_bind] using htold

theorem Twins.mono {Q' : α → β → Prop} (hp : Twins v Q p₁ p₂) (hQ : ∀ a b, Q a b → Q' a b) :
    Twins v Q' p₁ p₂ := by
  induction hp with
  | done hq => exact .done (hQ _ _ hq)
  | call hc _ ih => exact .call hc ih
  | told hq _ ih => exact .told hq ih

end Program

/-! #### A program and itself -/

variable [TimeScale τ]

/-- **A program that asks nothing of the variation is its own twin.** -/
theorem Program.twins_self {v : Variation} (p : Program τ α)
    (h : p.Only fun e => e.Asks fun q => ¬ v.concerns q) : Twins v Eq p p := by
  induction p with
  | done a => exact .done rfl
  | call c next ih =>
    obtain ⟨hcall, hnext⟩ := h.call
    refine .call (fun q hq => ?_) fun r => ih r (hnext r)
    subst hq
    obtain ⟨r⟩ := (inferInstance : Nonempty q.Reply)
    exact hcall r _ ⟨TimeScale.zero, rfl⟩ _ List.mem_cons_self

/-! ### Steps that can fail -/

/-- Outcomes with related values, or with the same failure. -/
def Agree (Q : α → β → Prop) : Except Failure α → Except Failure β → Prop
  | .ok a, .ok b => Q a b
  | .error x, .error y => x = y
  | _, _ => False

omit [TimeScale τ] in
theorem Agree.eq {r₁ r₂ : Except Failure α} (h : Agree Eq r₁ r₂) : r₁ = r₂ := by
  cases r₁ <;> cases r₂
  · exact congrArg Except.error h
  · exact h.elim
  · exact h.elim
  · exact congrArg Except.ok h

theorem Agree.refl (r : Except Failure α) : Agree Eq r r := by
  cases r <;> rfl

namespace Action

variable {v : Variation} {Q : α → β → Prop} {Q' : γ → δ → Prop}

/-- A step that asks nothing of the variation is its own twin. -/
theorem twins_self {a : Action τ α} (ha : a.Asks fun q => ¬ v.concerns q) :
    a.run.Twins v (Agree Eq) a.run :=
  (a.run.twins_self ha).mono fun e _ he => he ▸ Agree.refl e

omit [TimeScale τ] in
theorem twins_bind {a : Action τ α} {b : Action τ β} {f : α → Action τ γ} {g : β → Action τ δ}
    (h : a.run.Twins v (Agree Q) b.run)
    (hf : ∀ x y, Q x y → (f x).run.Twins v (Agree Q') (g y).run) :
    (a >>= f).run.Twins v (Agree Q') (b >>= g).run := by
  rw [bind_run, bind_run]
  refine h.bind fun e₁ e₂ hagree => ?_
  cases e₁ <;> cases e₂
  · exact .done hagree
  · exact hagree.elim
  · exact hagree.elim
  · exact hf _ _ hagree

/-- A step that is its own twin, and a rest that goes on with the same value. -/
theorem twins_after {a : Action τ α} {f : α → Action τ γ} {g : α → Action τ δ}
    (ha : a.Asks fun q => ¬ v.concerns q)
    (hf : ∀ x, (f x).run.Twins v (Agree Q') (g x).run) :
    (a >>= f).run.Twins v (Agree Q') (a >>= g).run :=
  twins_bind (twins_self ha) fun x _ hxy => hxy ▸ hf x

end Action

namespace Keeping

/-- Steps that are twins when they are begun in states that are related by `S`, and end in such
states. -/
def Twins (v : Variation) (S : σ → σ → Prop) (Q : α → β → Prop) (m₁ : Keeping σ τ α)
    (m₂ : Keeping σ τ β) : Prop :=
  ∀ s₁ s₂, S s₁ s₂ → (m₁.perform s₁).Twins v (fun o₁ o₂ => Agree Q o₁.1 o₂.1 ∧ S o₁.2 o₂.2)
    (m₂.perform s₂)

variable {v : Variation} {S : σ → σ → Prop} {Q : α → β → Prop} {Q' : γ → δ → Prop}

/-- A step that asks nothing of the variation, begun in one state. -/
theorem twins_self {m : Keeping σ τ α} (h : m.Asks fun q => ¬ v.concerns q) :
    Twins v Eq Eq m m := by
  rintro s _ rfl
  refine ((m.perform s).twins_self fun evs o hl => h s evs o.1 o.2 hl).mono fun o _ ho => ?_
  subst ho
  exact ⟨Agree.refl o.1, rfl⟩

omit [TimeScale τ] in
theorem twins_bind {m₁ : Keeping σ τ α} {m₂ : Keeping σ τ β} {f : α → Keeping σ τ γ}
    {g : β → Keeping σ τ δ} (hm : Twins v S Q m₁ m₂) (hf : ∀ a b, Q a b → Twins v S Q' (f a) (g b)) :
    Twins v S Q' (m₁ >>= f) (m₂ >>= g) := by
  intro s₁ s₂ hs
  rw [perform_bind, perform_bind]
  refine (hm s₁ s₂ hs).bind fun o₁ o₂ ⟨hagree, hstate⟩ => ?_
  obtain ⟨r₁, s₁'⟩ := o₁
  obtain ⟨r₂, s₂'⟩ := o₂
  cases r₁ <;> cases r₂
  · exact .done ⟨hagree, hstate⟩
  · exact hagree.elim
  · exact hagree.elim
  · exact hf _ _ hagree _ _ hstate

omit [TimeScale τ] in
/-- Steps with equal values, and a rest that goes on with the same value. -/
theorem twins_bind_eq {m : Keeping σ τ α} {f : α → Keeping σ τ γ} {g : α → Keeping σ τ δ}
    (hm : Twins v S Eq m m) (hf : ∀ a, Twins v S Q' (f a) (g a)) :
    Twins v S Q' (m >>= f) (m >>= g) := by
  refine twins_bind hm fun a b hab => ?_
  subst hab
  exact hf a

omit [TimeScale τ] in
theorem twins_pure {a : α} {b : β} (h : Q a b) :
    Twins v S Q (pure a : Keeping σ τ α) (pure b) :=
  fun _ _ hs => .done ⟨h, hs⟩

omit [TimeScale τ] in
theorem twins_throw (x : Failure) : Twins v S Q (throw x : Keeping σ τ α) (throw x) :=
  fun _ _ hs => .done ⟨rfl, hs⟩

omit [TimeScale τ] in
theorem twins_get : Twins v S S (get : Keeping σ τ σ) get :=
  fun _ _ hs => .done ⟨hs, hs⟩

omit [TimeScale τ] in
theorem twins_set {t₁ t₂ : σ} (h : S t₁ t₂) :
    Twins v S Eq (set t₁ : Keeping σ τ PUnit) (set t₂) :=
  fun _ _ _ => .done ⟨rfl, h⟩

omit [TimeScale τ] in
theorem twins_modify {f : σ → σ} (hf : ∀ s₁ s₂, S s₁ s₂ → S (f s₁) (f s₂)) :
    Twins v S Eq (modify f : Keeping σ τ PUnit) (modify f) :=
  fun _ _ hs => .done ⟨rfl, hf _ _ hs⟩

omit [TimeScale τ] in
theorem twins_lift_of {a : Action τ α} {b : Action τ β} (h : a.run.Twins v (Agree Q) b.run) :
    Twins v S Q (lift a) (lift b) :=
  fun _ _ hs => h.bind fun _ _ hagree => .done ⟨hagree, hs⟩

/-- A step that does not touch the state and asks nothing of the variation. -/
theorem twins_lift {a : Action τ α} (ha : a.Asks fun q => ¬ v.concerns q) :
    Twins v S Eq (lift a) (lift a) :=
  twins_lift_of (Action.twins_self ha)

omit [TimeScale τ] in
theorem twins_discard {m₁ : Keeping σ τ α} {m₂ : Keeping σ τ β} (h : Twins v S Q m₁ m₂) :
    Twins v S Eq (discard m₁ : Keeping σ τ PUnit) (discard m₂) := by
  rw [show (discard m₁ : Keeping σ τ PUnit) = m₁ >>= fun _ => pure ⟨⟩ from map_eq_pure_bind _ m₁,
    show (discard m₂ : Keeping σ τ PUnit) = m₂ >>= fun _ => pure ⟨⟩ from map_eq_pure_bind _ m₂]
  exact twins_bind h fun _ _ _ => twins_pure rfl

end Keeping
end IngressBench
