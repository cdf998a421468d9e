import IngressBench.Proofs.Program.Only

/-!
What steps ask for. `a.Asks P` says that every question that the step `a` can come to ask satisfies
`P`, whatever it was answered before. The rules below follow the shape of a step, so that the
questions of a large one are read off its parts.
-/
namespace IngressBench

variable {τ σ α β : Type}

/-- An event that is no question, or a question of the given kind. -/
def Event.Asks (P : Question → Prop) : Event τ → Prop
  | .asked q _ _ => P q
  | _ => True

theorem Event.Asks.mono {P Q : Question → Prop} {e : Event τ} (h : e.Asks P)
    (hPQ : ∀ q, P q → Q q) : e.Asks Q := by
  cases e with
  | asked q r t => exact hPQ q h
  | _ => trivial

/-- The events of any reply to a call that is no question. -/
theorem Call.Marks.asks {P : Question → Prop} {c : Call τ} {r : c.Reply} {es : List (Event τ)}
    (h : c.Marks r es) (hc : ∀ q, c = .ask q → P q) : ∀ e ∈ es, e.Asks P := by
  intro e he
  cases c with
  | clock =>
    obtain rfl : es = [] := h
    exact absurd he List.not_mem_nil
  | sleep time =>
    obtain rfl : es = [.slept time] := h
    obtain rfl := List.mem_singleton.mp he
    trivial
  | log level text =>
    obtain rfl : es = [.logged level text] := h
    obtain rfl := List.mem_singleton.mp he
    trivial
  | ask q =>
    obtain ⟨time, rfl⟩ := h
    obtain rfl := List.mem_singleton.mp he
    exact hc q rfl
  | pause time =>
    cases r with
    | false =>
      obtain rfl : es = [.slept time] := h
      obtain rfl := List.mem_singleton.mp he
      trivial
    | true =>
      obtain ⟨notice, rfl⟩ := h
      rcases List.mem_append.mp he with he | he
      · obtain ⟨line, -, rfl⟩ := List.mem_map.mp he
        trivial
      · obtain rfl := List.mem_singleton.mp he
        trivial

/-! ### Answers of a world -/

/-- An event that is no question, or a question with one of the replies that a world gives to it. -/
def Event.AnsweredIn (w : World τ σ) : Event τ → Prop
  | .asked q r _ => ∃ state, r = (w.answer q state).1
  | _ => True

namespace World

variable [TimeScale τ]

theorem reply_answered (w : World τ σ) (c : Call τ) (h : History τ σ)
    (hh : ∀ e ∈ h.events, e.AnsweredIn w) : ∀ e ∈ (w.reply c h).2.events, e.AnsweredIn w := by
  intro e he
  obtain ⟨es, hm, hevents⟩ := w.reply_marks c h
  by_cases hask : ∃ q, c = .ask q
  · obtain ⟨q, rfl⟩ := hask
    rcases List.mem_cons.mp he with rfl | he
    · exact ⟨h.state, rfl⟩
    · exact hh e he
  · rw [hevents] at he
    rcases List.mem_append.mp he with he | he
    · have hnone : e.Asks fun _ => False :=
        hm.asks (fun q hq => hask ⟨q, hq⟩) e (List.mem_reverse.mp he)
      cases e with
      | asked q r time => exact hnone.elim
      | _ => trivial
    · exact hh e he

theorem run_answered (w : World τ σ) (p : Program τ α) (h : History τ σ)
    (hh : ∀ e ∈ h.events, e.AnsweredIn w) : ∀ e ∈ (w.run p h).2.events, e.AnsweredIn w := by
  induction p generalizing h with
  | done a => exact hh
  | call c next ih => exact ih (w.reply c h).1 (w.reply c h).2 (w.reply_answered c h hh)

/-- Every reply of a trace is one that the world gives. -/
theorem trace_answered (w : World τ σ) (now : τ) (state : σ) (p : Program τ α) :
    ∀ e ∈ (w.trace now state p).2, e.AnsweredIn w := by
  intro e he
  exact w.run_answered p { now, state } (fun _ h => absurd h List.not_mem_nil) e
    (List.mem_reverse.mp he)

end World

namespace Action

/-- Every question of the step is of the given kind. -/
def Asks (P : Question → Prop) (a : Action τ α) : Prop :=
  ∀ evs r, a.Leaves evs r → ∀ e ∈ evs, e.Asks P

variable {P Q : Question → Prop}

theorem Asks.mono {a : Action τ α} (h : a.Asks P) (hPQ : ∀ q, P q → Q q) : a.Asks Q :=
  Only.mono h fun _ he => he.mono hPQ

theorem asks_bind {a : Action τ α} {f : α → Action τ β} (ha : a.Asks P)
    (hf : ∀ v, (f v).Asks P) : Asks P (a >>= f) :=
  only_bind ha hf

theorem asks_pure (v : α) : Asks P (pure v : Action τ α) :=
  only_pure v

theorem asks_throw (x : Failure) : Asks P (throw x : Action τ α) :=
  only_throw x

theorem asks_ofExcept (x : Except Failure α) : Asks P (ofExcept x : Action τ α) :=
  only_ofExcept x

theorem asks_perform {c : Call τ} (hc : ∀ q, c = .ask q → P q) : Asks P (perform c) :=
  only_perform fun _ _ hm => hm.asks hc

theorem asks_ask {q : Question} (hq : P q) : Asks P (ask q : Action τ q.Reply) :=
  asks_perform fun _ h => Call.ask.inj h ▸ hq

theorem asks_log (level : Level) (text : String) : Asks P (log level text : Action τ Unit) :=
  asks_perform fun _ h => nomatch h

theorem asks_sleep (time : τ) : Asks P (sleep time) :=
  asks_perform fun _ h => nomatch h

theorem asks_pause (time : τ) : Asks P (pause time) :=
  asks_perform fun _ h => nomatch h

theorem asks_clock : Asks P (clock : Action τ τ) :=
  asks_perform fun _ h => nomatch h

theorem asks_attempt {a : Action τ α} (ha : a.Asks P) : Asks P (attempt a) :=
  only_attempt ha

theorem asks_apiOrFail {call : ApiCall} (hcall : P (.api call)) :
    Asks P (apiOrFail call : Action τ call.Reply) :=
  only_apiOrFail fun _ _ => hcall

end Action

namespace Keeping

/-- Every question of the step is of the given kind, from whatever state it starts. -/
def Asks (P : Question → Prop) (m : Keeping σ τ α) : Prop :=
  ∀ s evs r s', m.Leaves s evs r s' → ∀ e ∈ evs, e.Asks P

variable {P Q : Question → Prop}

theorem Asks.mono {m : Keeping σ τ α} (h : m.Asks P) (hPQ : ∀ q, P q → Q q) : m.Asks Q :=
  Only.mono h fun _ he => he.mono hPQ

theorem asks_bind {m : Keeping σ τ α} {f : α → Keeping σ τ β} (hm : m.Asks P)
    (hf : ∀ v, (f v).Asks P) : Asks P (m >>= f) :=
  only_bind hm hf

theorem asks_pure (v : α) : Asks P (pure v : Keeping σ τ α) :=
  only_pure v

theorem asks_throw (x : Failure) : Asks P (throw x : Keeping σ τ α) :=
  only_throw x

theorem asks_get : Asks P (get : Keeping σ τ σ) :=
  only_get

theorem asks_modify (f : σ → σ) : Asks P (modify f : Keeping σ τ PUnit) :=
  only_modify f

theorem asks_lift {a : Action τ α} (ha : a.Asks P) : Asks P (lift a : Keeping σ τ α) :=
  only_lift ha

end Keeping

end IngressBench
