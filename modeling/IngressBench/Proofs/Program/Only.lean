import IngressBench.Proofs.Program.Leaves

/-!
What every event of a step is like. `a.Only P` says that each event that the step `a` can leave
satisfies `P`, whatever the step is answered. The rules below follow the shape of a step, so that this
is read off its parts.
-/
namespace IngressBench

variable {τ σ α β : Type} {P Q : Event τ → Prop}

/-! ### Programs -/

instance (call : FileCall) : Nonempty call.Reply := by
  cases call with
  | read _ => exact ⟨Except.ok []⟩
  | write _ _ | rename _ _ | makeDirectory _ => exact ⟨Except.ok ()⟩
  | isDirectory _ | exists_ _ => exact ⟨true⟩

instance (q : Question) : Nonempty q.Reply := by
  cases q with
  | api _ | exec _ => exact ⟨Except.error (ApiFault.unreachable "")⟩
  | http _ => exact ⟨Except.error (HttpFault.timeout "")⟩
  | file call => exact inferInstanceAs (Nonempty call.Reply)
  | access _ | connect _ | index _ _ | drive _ _ _ | tune _ | compare _ _ | check =>
    exact ⟨Except.error Failure.comparison⟩
  | bulk _ _ => exact ⟨BulkAnswer.refused 0⟩
  | stamp => exact ⟨(default : Moment)⟩
  | freshId => exact ⟨""⟩
  | say _ _ | setLevel _ | handleSignals | announce _ _ _ _ _ => exact ⟨()⟩

instance [TimeScale τ] (c : Call τ) : Nonempty c.Reply := by
  cases c with
  | clock => exact ⟨(TimeScale.zero : τ)⟩
  | sleep _ | log _ _ => exact ⟨()⟩
  | pause _ => exact ⟨false⟩
  | ask q => exact inferInstanceAs (Nonempty q.Reply)

/-- Every reply to a call comes with some events. -/
theorem Call.marks_exists [TimeScale τ] (c : Call τ) (r : c.Reply) : ∃ es, c.Marks r es := by
  cases c with
  | clock | sleep _ | log _ _ => exact ⟨_, rfl⟩
  | ask q => exact ⟨_, TimeScale.zero, rfl⟩
  | pause time =>
    cases r with
    | false => exact ⟨_, rfl⟩
    | true => exact ⟨_, [], rfl⟩

/-- Every program can leave something. -/
theorem Program.leaves_exists [TimeScale τ] (p : Program τ α) : ∃ evs a, p.Leaves evs a := by
  induction p with
  | done a => exact ⟨[], a, rfl, rfl⟩
  | call c next ih =>
    obtain ⟨r⟩ := (inferInstance : Nonempty c.Reply)
    obtain ⟨es, hes⟩ := c.marks_exists r
    obtain ⟨evs, a, h⟩ := ih r
    exact ⟨es ++ evs, a, r, es, evs, hes, h, rfl⟩

/-- Every event of the program satisfies `P`. -/
def Program.Only (P : Event τ → Prop) (p : Program τ α) : Prop :=
  ∀ evs a, p.Leaves evs a → ∀ e ∈ evs, P e

/-- It is so of the events of the first call, and of all that may come after it. -/
theorem Program.Only.call [TimeScale τ] {c : Call τ} {next : c.Reply → Program τ α}
    (h : (Program.call c next).Only P) :
    (∀ r es, c.Marks r es → ∀ e ∈ es, P e) ∧ ∀ r, (next r).Only P := by
  constructor
  · intro r es hm e he
    obtain ⟨evs, a, hl⟩ := (next r).leaves_exists
    exact h _ a ⟨r, es, evs, hm, hl, rfl⟩ e (List.mem_append_left _ he)
  · intro r evs a hl e he
    obtain ⟨es, hm⟩ := c.marks_exists r
    exact h _ a ⟨r, es, evs, hm, hl, rfl⟩ e (List.mem_append_right _ he)

/-! ### Steps that can fail -/

namespace Action

/-- Every event of the step satisfies `P`. -/
def Only (P : Event τ → Prop) (a : Action τ α) : Prop :=
  Program.Only P a.run

theorem Only.mono {a : Action τ α} (h : a.Only P) (hPQ : ∀ e, P e → Q e) : a.Only Q :=
  fun evs r hl e he => hPQ e (h evs r hl e he)

theorem only_bind {a : Action τ α} {f : α → Action τ β} (ha : a.Only P) (hf : ∀ v, (f v).Only P) :
    Only P (a >>= f) := by
  intro evs r h e he
  rcases leaves_bind.mp h with ⟨x, hx, -⟩ | ⟨v, first, rest, hv, hr, rfl⟩
  · exact ha _ _ hx e he
  · rcases List.mem_append.mp he with he | he
    · exact ha _ _ hv e he
    · exact hf v _ _ hr e he

theorem only_ofExcept (x : Except Failure α) : Only P (ofExcept x : Action τ α) := by
  intro evs r h e he
  rw [h.1] at he
  exact absurd he List.not_mem_nil

theorem only_pure (v : α) : Only P (pure v : Action τ α) :=
  only_ofExcept (.ok v)

theorem only_throw (x : Failure) : Only P (throw x : Action τ α) :=
  only_ofExcept (.error x)

theorem only_perform {c : Call τ} (hc : ∀ r es, c.Marks r es → ∀ e ∈ es, P e) :
    Only P (perform c) := by
  intro evs r h
  obtain ⟨v, hm, -⟩ := leaves_perform.mp h
  exact hc v evs hm

theorem only_log {level : Level} {text : String} (h : P (.logged level text)) :
    Only P (log level text : Action τ Unit) := by
  refine only_perform fun _ es hm e he => ?_
  obtain rfl : es = [.logged level text] := hm
  exact List.mem_singleton.mp he ▸ h

theorem only_ask {q : Question} (h : ∀ r time, P (.asked q r time)) :
    Only P (ask q : Action τ q.Reply) := by
  refine only_perform fun r es hm e he => ?_
  obtain ⟨time, rfl⟩ := hm
  exact List.mem_singleton.mp he ▸ h r time

theorem only_attempt {a : Action τ α} (ha : a.Only P) : Only P (attempt a) := by
  intro evs r h
  obtain ⟨e, he, -⟩ := leaves_attempt.mp h
  exact ha _ _ he

theorem only_apiOrFail {call : ApiCall} (h : ∀ r time, P (.asked (.api call) r time)) :
    Only P (apiOrFail call : Action τ call.Reply) := by
  intro evs r hl e he
  obtain ⟨reply, time, rfl, -⟩ := leaves_apiOrFail.mp hl
  exact List.mem_singleton.mp he ▸ h reply time

end Action

/-! ### Steps that keep a state -/

namespace Keeping

/-- Every event of the step satisfies `P`, from whatever state it starts. -/
def Only (P : Event τ → Prop) (m : Keeping σ τ α) : Prop :=
  ∀ s evs r s', m.Leaves s evs r s' → ∀ e ∈ evs, P e

theorem Only.mono {m : Keeping σ τ α} (h : m.Only P) (hPQ : ∀ e, P e → Q e) : m.Only Q :=
  fun s evs r s' hl e he => hPQ e (h s evs r s' hl e he)

theorem only_bind {m : Keeping σ τ α} {f : α → Keeping σ τ β} (hm : m.Only P)
    (hf : ∀ v, (f v).Only P) : Only P (m >>= f) := by
  intro s evs r s' h e he
  rcases leaves_bind.mp h with ⟨x, hx, -⟩ | ⟨v, s₁, first, rest, hv, hr, rfl⟩
  · exact hm _ _ _ _ hx e he
  · rcases List.mem_append.mp he with he | he
    · exact hm _ _ _ _ hv e he
    · exact hf v _ _ _ _ hr e he

theorem only_pure (v : α) : Only P (pure v : Keeping σ τ α) := by
  intro s evs r s' h e he
  rw [(leaves_pure.mp h).1] at he
  exact absurd he List.not_mem_nil

theorem only_throw (x : Failure) : Only P (throw x : Keeping σ τ α) := by
  intro s evs r s' h e he
  rw [(leaves_throw.mp h).1] at he
  exact absurd he List.not_mem_nil

theorem only_get : Only P (get : Keeping σ τ σ) := by
  intro s evs r s' h e he
  rw [(leaves_get.mp h).1] at he
  exact absurd he List.not_mem_nil

theorem only_set (t : σ) : Only P (set t : Keeping σ τ PUnit) := by
  intro s evs r s' h e he
  rw [(leaves_set.mp h).1] at he
  exact absurd he List.not_mem_nil

theorem only_modify (f : σ → σ) : Only P (modify f : Keeping σ τ PUnit) := by
  intro s evs r s' h e he
  rw [(leaves_modify.mp h).1] at he
  exact absurd he List.not_mem_nil

theorem only_lift {a : Action τ α} (ha : a.Only P) : Only P (lift a : Keeping σ τ α) :=
  fun _ _ _ _ h => ha _ _ (leaves_lift.mp h).1

theorem only_discard {m : Keeping σ τ α} (hm : m.Only P) :
    Only P (discard m : Keeping σ τ PUnit) := by
  intro s evs r s' h
  obtain ⟨r₁, h₁, -⟩ := leaves_discard.mp h
  exact hm _ _ _ _ h₁

end Keeping
end IngressBench
