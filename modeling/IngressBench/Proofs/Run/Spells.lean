import IngressBench.Proofs.Watch
import IngressBench.Run.Team

/-!
The waits of a run. A program makes waits when it is put together from parts that do not pause and
from waits that end by themselves (`Waits`); what is known of each wait is its spell. A wait may last
as long as one of the limits of the run tells.

`Spends w limits allowance p q` is about a program `p` and the same program `q` with other budgets of
looks: both do the same, and the waits of `p` may last no longer than the allowance, and one wait more
for each profile that the routers have taken (`Event.retunes`). The rules follow the shape of a step.
-/
namespace IngressBench

/-- A wait that has ended: how long it might last, how often it looked, and its pauses. -/
structure Spell (τ : Type) where
  timeout : τ
  looks : Nat
  rests : List τ

/-- The times that a wait of a run may last. -/
def Limits.timeouts {τ : Type} (limits : Limits τ) : List τ :=
  [limits.readiness, limits.tuning, limits.cleanup]

/-- The routers take a profile. -/
def Event.retunes {τ : Type} : Event τ → Bool
  | .asked (.api (.tune _)) (.ok _) _ => true
  | _ => false

variable {τ σ : Type} [TimeScale τ]

/-- How many profiles the routers have taken. -/
def History.retuned (h : History τ σ) : Nat :=
  h.events.countP Event.retunes

/-- The waits that a program makes from a history on. -/
inductive Waits (w : World τ σ) (limits : Limits τ) :
    {α : Type} → Program τ α → History τ σ → List (Spell τ) → Prop
  | still {α : Type} {p : Program τ α} {h : History τ σ} (hp : p.Only Event.Still) :
      Waits w limits p h []
  | wait {β : Type} {timeout : τ} {look : Action τ (β × Bool)} {h : History τ σ} {looks : Nat}
      {rests : List τ} (htimeout : timeout ∈ limits.timeouts) (hlook : look.Only Event.Brisk)
      (hends : Watches w limits.pace timeout (TimeScale.add h.now timeout) look h looks rests
        (w.run (watch limits.pace timeout look).run h).1
        (w.run (watch limits.pace timeout look).run h).2) :
      Waits w limits (watch limits.pace timeout look).run h [⟨timeout, looks, rests⟩]
  | bind {α β : Type} {p : Program τ α} {f : α → Program τ β} {h : History τ σ}
      {spells later : List (Spell τ)} (first : Waits w limits p h spells)
      (rest : Waits w limits (f (w.run p h).1) (w.run p h).2 later) :
      Waits w limits (p.bind f) h (spells ++ later)

variable {w : World τ σ} {limits : Limits τ} {α β : Type}

/-- Profiles are not forgotten. -/
theorem World.retuned_le (w : World τ σ) (p : Program τ α) (h : History τ σ) :
    h.retuned ≤ (w.run p h).2.retuned := by
  obtain ⟨evs, -, hevents⟩ := w.run_leaves p h
  unfold History.retuned
  rw [hevents, List.countP_append]
  exact Nat.le_add_left _ _

variable [Field τ] [LinearOrder τ]

omit [TimeScale τ] in
/-- Limits with pauses of some length, and waits that may last some time. -/
structure Limits.Proper (limits : Limits τ) : Prop where
  interval : 0 < limits.interval
  readiness : 0 ≤ limits.readiness
  tuning : 0 ≤ limits.tuning
  cleanup : 0 ≤ limits.cleanup

omit [TimeScale τ] in
theorem Limits.Proper.timeout (hl : limits.Proper) {timeout : τ} (h : timeout ∈ limits.timeouts) :
    0 ≤ timeout := by
  simp only [timeouts, List.mem_cons, List.not_mem_nil, or_false] at h
  rcases h with rfl | rfl | rfl
  · exact hl.readiness
  · exact hl.tuning
  · exact hl.cleanup

variable [IsStrictOrderedRing τ] [FloorSemiring τ] [TimeScale.Exact τ]

section
variable (hw : w.Forward) (hl : limits.Proper)
include hw hl

/-- **The pauses of a run are those of its waits.** -/
theorem Waits.pauses_eq {p : Program τ α} {h : History τ σ} {spells : List (Spell τ)}
    (hwaits : Waits w limits p h spells) : w.pauses p h = spells.flatMap Spell.rests := by
  induction hwaits with
  | still hp => exact w.pauses_of_still hp _
  | @wait _ timeout look h looks rests _ hlook hends =>
    obtain ⟨_, _, hends', hpauses⟩ :=
      watch_ends limits.pace hw hlook hl.interval timeout h
    obtain ⟨-, rfl, -⟩ := hends.unique hends'
    simp [hpauses rfl]
  | bind _ _ ih ihlater => rw [World.pauses_bind, ih, ihlater, List.flatMap_append]

/-- **Every wait looks once more than pauses fit into it, at most, and its pauses last no longer than
it may.** -/
theorem Waits.bounded {p : Program τ α} {h : History τ σ} {spells : List (Spell τ)}
    (hwaits : Waits w limits p h spells) : ∀ spell ∈ spells, spell.timeout ∈ limits.timeouts ∧
      spell.looks ≤ ⌈spell.timeout / limits.interval⌉₊ + 1 ∧ spell.rests.sum ≤ spell.timeout := by
  induction hwaits with
  | still _ => exact fun spell hspell => absurd hspell List.not_mem_nil
  | @wait _ timeout look h looks rests htimeout hlook hends =>
    have hleft : TimeScale.add h.now timeout - h.now = timeout := by
      rw [TimeScale.Exact.add_eq, add_sub_cancel_left]
    have hlooks := hends.looks_le hw hlook hl.interval
    have hrests := hends.rests_le hw hlook
    rw [hleft] at hlooks hrests
    rw [max_eq_right (hl.timeout htimeout)] at hrests
    exact List.forall_mem_singleton.mpr ⟨htimeout, hlooks, hrests⟩
  | bind _ _ ih ihlater => exact List.forall_mem_append.mpr ⟨ih, ihlater⟩

end

/-! ### Allowances -/

/-- A program that does the same with other budgets of looks, and whose waits are allowed for. -/
structure Spends (w : World τ σ) (limits : Limits τ) (allowance : τ) (p q : Program τ α) : Prop where
  same : ∀ h, w.run q h = w.run p h
  waits : ∀ h, ∃ spells, Waits w limits p h spells ∧
    (spells.map Spell.timeout).sum + h.retuned * limits.tuning ≤
      allowance + (w.run p h).2.retuned * limits.tuning

namespace Spends

variable {a b : τ}

omit [FloorSemiring τ] [TimeScale.Exact τ]

theorem mono {p q : Program τ α} (h : Spends w limits a p q) (hab : a ≤ b) :
    Spends w limits b p q where
  same := h.same
  waits h₀ := by
    obtain ⟨spells, hwaits, hsum⟩ := h.waits h₀
    exact ⟨spells, hwaits, hsum.trans (by gcongr)⟩

theorem bind {p q : Program τ α} {f g : α → Program τ β} (hp : Spends w limits a p q)
    (hf : ∀ v, Spends w limits b (f v) (g v)) :
    Spends w limits (a + b) (p.bind f) (q.bind g) where
  same h := by
    rw [World.run_bind, World.run_bind, hp.same]
    exact (hf _).same _
  waits h := by
    obtain ⟨spells, hwaits, hsum⟩ := hp.waits h
    obtain ⟨later, hlater, hmore⟩ := (hf (w.run p h).1).waits (w.run p h).2
    refine ⟨spells ++ later, .bind hwaits hlater, ?_⟩
    rw [World.run_bind, List.map_append, List.sum_append]
    linarith

variable (hl : limits.Proper)
include hl

/-- A program that does not pause spends nothing. -/
theorem still {p : Program τ α} (hp : p.Only Event.Still) (ha : 0 ≤ a) :
    Spends w limits a p p where
  same _ := rfl
  waits h := by
    refine ⟨[], .still hp, ?_⟩
    have hmono : (h.retuned : τ) ≤ (w.run p h).2.retuned := Nat.cast_le.mpr (w.retuned_le p h)
    have htuning := hl.tuning
    simp only [List.map_nil, List.sum_nil]
    gcongr

/-! #### Steps that can fail -/

/-- After a step that failed nothing else is spent. -/
theorem step {x y : Action τ α} {f g : α → Action τ β} (hx : Spends w limits a x.run y.run)
    (hb : 0 ≤ b) (hf : ∀ v, Spends w limits b (f v).run (g v).run) :
    Spends w limits (a + b) (x >>= f).run (y >>= g).run := by
  rw [Action.bind_run, Action.bind_run]
  refine hx.bind fun e => ?_
  cases e with
  | ok v => exact hf v
  | error failure => exact still hl (Action.only_throw failure) hb

/-- What comes after a step that does not pause. -/
theorem after {x : Action τ α} {f g : α → Action τ β} (hx : x.Only Event.Still) (hb : 0 ≤ b)
    (hf : ∀ v, Spends w limits b (f v).run (g v).run) :
    Spends w limits b (x >>= f).run (x >>= g).run :=
  ((still hl hx le_rfl).step hl hb hf).mono (by rw [zero_add])

omit hl in
/-- A step that is attempted hands on what it ends with. -/
theorem attempt {x y : Action τ α} {f g : Except Failure α → Action τ β}
    (hx : Spends w limits a x.run y.run) (hf : ∀ e, Spends w limits b (f e).run (g e).run) :
    Spends w limits (a + b) (Action.attempt x >>= f).run (Action.attempt y >>= g).run := by
  have hrun : ∀ (x : Action τ α) (f : Except Failure α → Action τ β),
      (Action.attempt x >>= f).run = x.run.bind fun e => (f e).run := fun x f => by
    show Program.bind (Program.bind x.run _) _ = _
    rw [Program.bind_assoc]
    rfl
  rw [hrun, hrun]
  exact hx.bind hf

end Spends

/-! #### Steps that keep a state -/

namespace Keeping

variable {ν : Type} {a b : τ}

/-- Two steps that spend no more than an allowance, from whatever state they start. -/
def Spends (w : World τ σ) (limits : Limits τ) (allowance : τ) (m m' : Keeping ν τ α) : Prop :=
  ∀ s, IngressBench.Spends w limits allowance (m.perform s) (m'.perform s)

omit [FloorSemiring τ] [TimeScale.Exact τ]

theorem Spends.mono {m m' : Keeping ν τ α} (h : m.Spends w limits a m') (hab : a ≤ b) :
    m.Spends w limits b m' :=
  fun s => (h s).mono hab

variable (hl : limits.Proper)
include hl

theorem spends_still {m : Keeping ν τ α} (hm : m.Only Event.Still) (ha : 0 ≤ a) :
    m.Spends w limits a m :=
  fun s => .still hl (fun evs r he => hm s evs r.1 r.2 he) ha

theorem spends_bind {m m' : Keeping ν τ α} {f g : α → Keeping ν τ β} (hm : m.Spends w limits a m')
    (hb : 0 ≤ b) (hf : ∀ v, (f v).Spends w limits b (g v)) :
    Spends w limits (a + b) (m >>= f) (m' >>= g) := by
  intro s
  rw [perform_bind, perform_bind]
  refine (hm s).bind fun (e, s₁) => ?_
  cases e with
  | ok v => exact hf v s₁
  | error failure =>
    have hfails : (throw failure : Keeping ν τ β).Only Event.Still := only_throw failure
    exact spends_still hl hfails hb s₁

theorem spends_after {m : Keeping ν τ α} {f g : α → Keeping ν τ β} (hm : m.Only Event.Still)
    (hb : 0 ≤ b) (hf : ∀ v, (f v).Spends w limits b (g v)) :
    Spends w limits b (m >>= f) (m >>= g) :=
  (spends_bind hl (spends_still hl hm le_rfl) hb hf).mono (by rw [zero_add])

theorem spends_lift {x y : Action τ α} (hx : IngressBench.Spends w limits a x.run y.run) :
    (lift x : Keeping ν τ α).Spends w limits a (lift y) := by
  intro s
  have hend : ∀ e : Except Failure α,
      IngressBench.Spends w limits 0 (Program.done (e, s)) (Program.done (e, s)) := fun e =>
    .still hl (fun evs r he e hmem => by
      rw [he.1] at hmem
      exact absurd hmem List.not_mem_nil) le_rfl
  exact (hx.bind hend).mono (by rw [add_zero])

end Keeping
end IngressBench
