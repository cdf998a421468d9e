import IngressBench.Keeping
import IngressBench.World

/-!
What programs leave behind, whatever they are answered.

`p.Leaves evs a` says that the program `p` can leave the events `evs`, in this order, and end with
`a`, for some replies of its surroundings. A program that runs in a world leaves such events
(`World.run_leaves`), so what holds of every row of events that a program can leave holds in every
world. A program and what comes after it leave one row after the other (`Program.leaves_bind`);
steps that can fail, and steps that keep a state, do so until one of them fails.
-/
namespace IngressBench

variable {τ σ α β : Type}

/-! ### Splitting rows -/

/-- An element of two rows stands in the first one or in the second one. -/
theorem append_eq_append_cons {first rest before after : List α} {e : α}
    (h : first ++ rest = before ++ e :: after) :
    (∃ between, first = before ++ e :: between ∧ after = between ++ rest) ∨
      ∃ between, before = first ++ between ∧ rest = between ++ e :: after := by
  rcases List.append_eq_append_iff.mp h with ⟨between, rfl, rfl⟩ | ⟨between, rfl, hrest⟩
  · exact .inr ⟨between, rfl, rfl⟩
  · cases between with
    | nil => exact .inr ⟨[], by simp, by simpa using hrest.symm⟩
    | cons e' between =>
      obtain ⟨rfl, rfl⟩ := List.cons.inj hrest
      exact .inl ⟨between, rfl, rfl⟩

/-! ### Programs -/

/-- The events that come with the reply to a call. A pause that is cut short may come with lines of
the log about the stop. -/
def Call.Marks (c : Call τ) (r : c.Reply) (es : List (Event τ)) : Prop :=
  match c, r with
  | .clock, _ => es = []
  | .sleep time, _ => es = [.slept time]
  | .pause time, false => es = [.slept time]
  | .pause _, true => ∃ notice : List (Level × String),
      es = notice.map (fun (l, t) => .logged l t) ++ [.stopped]
  | .log level text, _ => es = [.logged level text]
  | .ask q, r => ∃ time, es = [.asked q r time]

namespace Program

/-- The program can leave these events and end with this value. -/
def Leaves : Program τ α → List (Event τ) → α → Prop
  | done a, evs, b => evs = [] ∧ b = a
  | call c next, evs, b => ∃ r es rest, c.Marks r es ∧ (next r).Leaves rest b ∧ evs = es ++ rest

/-- A program and what comes after it leave their events one after the other. -/
theorem leaves_bind {p : Program τ α} {f : α → Program τ β} {evs : List (Event τ)} {b : β} :
    (p.bind f).Leaves evs b ↔
      ∃ a first rest, p.Leaves first a ∧ (f a).Leaves rest b ∧ evs = first ++ rest := by
  induction p generalizing evs with
  | done a =>
    constructor
    · intro h
      exact ⟨a, [], evs, ⟨rfl, rfl⟩, h, rfl⟩
    · intro hl
      obtain ⟨_, _, _, ⟨rfl, rfl⟩, h, rfl⟩ := hl
      exact h
  | call c next ih =>
    constructor
    · intro hl
      obtain ⟨r, es, rest, hr, h, rfl⟩ := hl
      obtain ⟨a, first, rest, ha, hb, rfl⟩ := (ih r).mp h
      exact ⟨a, es ++ first, rest, ⟨r, es, first, hr, ha, rfl⟩, hb, (List.append_assoc ..).symm⟩
    · intro hl
      obtain ⟨a, _, rest, ⟨r, es, first, hr, ha, rfl⟩, hb, rfl⟩ := hl
      exact ⟨r, es, first ++ rest, hr, (ih r).mpr ⟨a, first, rest, ha, hb, rfl⟩,
        List.append_assoc ..⟩

theorem leaves_ask {c : Call τ} {evs : List (Event τ)} {r : c.Reply} :
    (Program.ask c).Leaves evs r ↔ c.Marks r evs := by
  constructor
  · intro hl
    obtain ⟨_, es, _, hr, ⟨rfl, rfl⟩, rfl⟩ := hl
    rw [List.append_nil]
    exact hr
  · intro h
    exact ⟨r, evs, [], h, ⟨rfl, rfl⟩, (List.append_nil evs).symm⟩

end Program

/-! ### In a world -/

namespace World

variable [TimeScale τ]

theorem run_call (w : World τ σ) (c : Call τ) (next : c.Reply → Program τ α) (h : History τ σ) :
    w.run (.call c next) h = w.run (next (w.reply c h).1) (w.reply c h).2 := rfl

/-- A pause that is not cut short. -/
theorem reply_pause_whole (w : World τ σ) {time : τ} {h : History τ σ}
    (hs : (w.stopWithin time h).stopped = false) :
    w.reply (.pause time) h = (false, slept time (w.stopWithin time h)) :=
  if_neg (by rw [hs]; exact Bool.false_ne_true)

/-- A pause that is cut short. -/
theorem reply_pause_cut (w : World τ σ) {time : τ} {h : History τ σ}
    (hs : (w.stopWithin time h).stopped = true) :
    w.reply (.pause time) h = (true, { w.stopWithin time h with
      events := .stopped :: (w.stopWithin time h).events }) :=
  if_pos hs

/-- A reply of a world comes with the events of the call. -/
theorem reply_marks (w : World τ σ) (c : Call τ) (h : History τ σ) :
    ∃ es, c.Marks (w.reply c h).1 es ∧ (w.reply c h).2.events = es.reverse ++ h.events := by
  cases c with
  | clock => exact ⟨[], rfl, rfl⟩
  | sleep time => exact ⟨[.slept time], rfl, rfl⟩
  | log level text => exact ⟨[.logged level text], rfl, rfl⟩
  | ask q => exact ⟨[.asked q _ h.now], ⟨h.now, rfl⟩, rfl⟩
  | pause time =>
    have hstop : ∃ notice : List (Level × String), (w.stopWithin time h).events =
        (notice.map fun (l, t) => Event.logged l t).reverse ++ h.events ∧
          ((w.stopWithin time h).stopped = false → notice = []) := by
      unfold stopWithin
      split
      · split
        · exact ⟨w.notice, rfl, fun hn => absurd hn (by simp)⟩
        · exact ⟨[], rfl, fun _ => rfl⟩
      · exact ⟨[], rfl, fun _ => rfl⟩
    obtain ⟨notice, hevents, hnone⟩ := hstop
    cases hs : (w.stopWithin time h).stopped with
    | false =>
      rw [w.reply_pause_whole hs]
      refine ⟨[.slept time], rfl, ?_⟩
      simp [slept, hevents, hnone hs]
    | true =>
      rw [w.reply_pause_cut hs]
      refine ⟨notice.map (fun (l, t) => .logged l t) ++ [.stopped], ⟨notice, rfl⟩, ?_⟩
      simp [hevents]

/-- What a program leaves in a world is among what it can leave. -/
theorem run_leaves (w : World τ σ) (p : Program τ α) (h : History τ σ) :
    ∃ evs, p.Leaves evs (w.run p h).1 ∧ (w.run p h).2.events = evs.reverse ++ h.events := by
  induction p generalizing h with
  | done a => exact ⟨[], ⟨rfl, rfl⟩, rfl⟩
  | call c next ih =>
    obtain ⟨es, hm, he⟩ := w.reply_marks c h
    obtain ⟨evs, hl, hr⟩ := ih (w.reply c h).1 (w.reply c h).2
    refine ⟨es ++ evs, ⟨_, es, evs, hm, hl, rfl⟩, ?_⟩
    show (w.run (next (w.reply c h).1) (w.reply c h).2).2.events = _
    rw [hr, he, List.reverse_append, List.append_assoc]

/-- The value of a program that runs in a world from the start, and the events that it leaves, the
first one first. -/
def trace (w : World τ σ) (now : τ) (state : σ) (p : Program τ α) : α × List (Event τ) :=
  let (a, h) := w.run p { now, state }
  (a, h.events.reverse)

/-- What a program leaves in a world in which nothing has happened yet. -/
theorem run_leaves_fresh (w : World τ σ) (p : Program τ α) (h : History τ σ) (hfresh : h.events = []) :
    p.Leaves (w.run p h).2.events.reverse (w.run p h).1 := by
  obtain ⟨evs, hl, he⟩ := w.run_leaves p h
  rw [he, hfresh, List.append_nil, List.reverse_reverse]
  exact hl

theorem trace_leaves (w : World τ σ) (now : τ) (state : σ) (p : Program τ α) :
    p.Leaves (w.trace now state p).2 (w.trace now state p).1 :=
  w.run_leaves_fresh p { now, state } rfl

end World

/-! ### Steps that can fail -/

namespace Action

/-- The step can leave these events and end with this value or failure. -/
def Leaves (a : Action τ α) (evs : List (Event τ)) (r : Except Failure α) : Prop :=
  Program.Leaves a.run evs r

/-- A step and what comes after it, as one program. -/
theorem bind_run (a : Action τ α) (f : α → Action τ β) :
    (a >>= f).run = a.run.bind fun
      | .ok v => (f v).run
      | .error x => .done (.error x) := by
  show Program.bind _ _ = _
  congr 1
  funext e
  cases e <;> rfl

/-- After a step that failed nothing else is done. -/
theorem leaves_bind {a : Action τ α} {f : α → Action τ β} {evs : List (Event τ)}
    {r : Except Failure β} :
    Leaves (a >>= f) evs r ↔ (∃ x, a.Leaves evs (.error x) ∧ r = .error x) ∨
      ∃ v first rest, a.Leaves first (.ok v) ∧ (f v).Leaves rest r ∧ evs = first ++ rest := by
  unfold Leaves
  rw [bind_run, Program.leaves_bind]
  constructor
  · intro hl
    obtain ⟨e, first, rest, ha, hb, rfl⟩ := hl
    cases e with
    | ok v => exact .inr ⟨v, first, rest, ha, hb, rfl⟩
    | error x =>
      obtain ⟨rfl, rfl⟩ := hb
      exact .inl ⟨x, by rwa [List.append_nil], rfl⟩
  · intro hl
    rcases hl with ⟨x, ha, rfl⟩ | ⟨v, first, rest, ha, hb, rfl⟩
    · exact ⟨.error x, evs, [], ha, ⟨rfl, rfl⟩, (List.append_nil evs).symm⟩
    · exact ⟨.ok v, first, rest, ha, hb, rfl⟩

/-- Where the whole succeeds both steps do. -/
theorem leaves_bind_ok {a : Action τ α} {f : α → Action τ β} {evs : List (Event τ)} {w : β} :
    Leaves (a >>= f) evs (.ok w) ↔
      ∃ v first rest, a.Leaves first (.ok v) ∧ (f v).Leaves rest (.ok w) ∧ evs = first ++ rest := by
  rw [leaves_bind]
  refine or_iff_right fun hl => ?_
  obtain ⟨_, -, hr⟩ := hl
  cases hr

theorem leaves_pure {v : α} {evs : List (Event τ)} {r : Except Failure α} :
    Leaves (pure v : Action τ α) evs r ↔ evs = [] ∧ r = .ok v := Iff.rfl

theorem leaves_throw {x : Failure} {evs : List (Event τ)} {r : Except Failure α} :
    Leaves (throw x : Action τ α) evs r ↔ evs = [] ∧ r = .error x := Iff.rfl

theorem leaves_ofExcept {e : Except Failure α} {evs : List (Event τ)} {r : Except Failure α} :
    Leaves (ofExcept e : Action τ α) evs r ↔ evs = [] ∧ r = e := Iff.rfl

/-- A call does not fail by itself: its fault, if any, is its reply. -/
theorem leaves_perform {c : Call τ} {evs : List (Event τ)} {r : Except Failure c.Reply} :
    Leaves (perform c) evs r ↔ ∃ v, c.Marks v evs ∧ r = .ok v := by
  have hrun : (perform c).run = (Program.ask c).bind fun v => .done (.ok v) := rfl
  unfold Leaves
  rw [hrun, Program.leaves_bind]
  constructor
  · intro hl
    obtain ⟨v, first, rest, hv, ⟨rfl, rfl⟩, rfl⟩ := hl
    rw [List.append_nil]
    exact ⟨v, Program.leaves_ask.mp hv, rfl⟩
  · intro hl
    obtain ⟨v, hv, rfl⟩ := hl
    exact ⟨v, evs, [], Program.leaves_ask.mpr hv, ⟨rfl, rfl⟩, (List.append_nil evs).symm⟩

theorem leaves_ask {q : Question} {evs : List (Event τ)} {r : Except Failure q.Reply} :
    Leaves (ask q : Action τ q.Reply) evs r ↔ ∃ v time, evs = [.asked q v time] ∧ r = .ok v := by
  refine Iff.trans (leaves_perform (c := .ask q)) ?_
  constructor
  · intro hl
    obtain ⟨v, ⟨time, rfl⟩, rfl⟩ := hl
    exact ⟨v, time, rfl, rfl⟩
  · intro hl
    obtain ⟨v, time, rfl, rfl⟩ := hl
    exact ⟨v, ⟨time, rfl⟩, rfl⟩

theorem leaves_log {level : Level} {text : String} {evs : List (Event τ)}
    {r : Except Failure Unit} :
    Leaves (log level text : Action τ Unit) evs r ↔ evs = [.logged level text] ∧ r = .ok () := by
  refine Iff.trans (leaves_perform (c := .log level text)) ?_
  constructor
  · intro hl
    obtain ⟨_, h, rfl⟩ := hl
    exact ⟨h, rfl⟩
  · intro hl
    obtain ⟨h, rfl⟩ := hl
    exact ⟨(), h, rfl⟩

theorem leaves_sleep {time : τ} {evs : List (Event τ)} {r : Except Failure Unit} :
    Leaves (sleep time) evs r ↔ evs = [.slept time] ∧ r = .ok () := by
  refine Iff.trans (leaves_perform (c := .sleep time)) ?_
  constructor
  · intro hl
    obtain ⟨_, h, rfl⟩ := hl
    exact ⟨h, rfl⟩
  · intro hl
    obtain ⟨h, rfl⟩ := hl
    exact ⟨(), h, rfl⟩

theorem leaves_clock {evs : List (Event τ)} {r : Except Failure τ} :
    Leaves (clock : Action τ τ) evs r ↔ evs = [] ∧ ∃ now, r = .ok now := by
  refine Iff.trans (leaves_perform (c := .clock)) ?_
  constructor
  · intro hl
    obtain ⟨now, h, rfl⟩ := hl
    exact ⟨h, now, rfl⟩
  · intro hl
    obtain ⟨h, now, rfl⟩ := hl
    exact ⟨now, h, rfl⟩

/-- A step that is attempted leaves what it leaves, and does not fail. -/
theorem leaves_attempt {a : Action τ α} {evs : List (Event τ)}
    {r : Except Failure (Except Failure α)} :
    Leaves (attempt a) evs r ↔ ∃ e, a.Leaves evs e ∧ r = .ok e := by
  have hrun : (attempt a).run = a.run.bind fun e => .done (.ok e) := rfl
  unfold Leaves
  rw [hrun, Program.leaves_bind]
  constructor
  · intro hl
    obtain ⟨e, first, rest, he, ⟨rfl, rfl⟩, rfl⟩ := hl
    rw [List.append_nil]
    exact ⟨e, he, rfl⟩
  · intro hl
    obtain ⟨e, he, rfl⟩ := hl
    exact ⟨e, evs, [], he, ⟨rfl, rfl⟩, (List.append_nil evs).symm⟩

/-- A call to the cluster is one question; its fault is its failure. -/
theorem leaves_apiOrFail {call : ApiCall} {evs : List (Event τ)}
    {r : Except Failure call.Reply} :
    Leaves (apiOrFail call : Action τ call.Reply) evs r ↔
      ∃ (reply : Except ApiFault call.Reply) (time : τ), evs = [.asked (.api call) reply time] ∧
        r = reply.mapError ApiFault.failure := by
  unfold apiOrFail
  rw [leaves_bind]
  constructor
  · intro hl
    rcases hl with ⟨x, h, -⟩ | ⟨v, first, rest, hv, hb, rfl⟩
    · obtain ⟨_, _, _, h⟩ := leaves_ask.mp h
      cases h
    · obtain ⟨w, time, rfl, hw⟩ := leaves_ask.mp hv
      obtain rfl : v = w := Except.ok.inj hw
      cases v with
      | ok reply =>
        obtain ⟨rfl, rfl⟩ := leaves_pure.mp hb
        exact ⟨.ok reply, time, rfl, rfl⟩
      | error fault =>
        obtain ⟨rfl, rfl⟩ := leaves_throw.mp hb
        exact ⟨.error fault, time, rfl, rfl⟩
  · intro hl
    obtain ⟨reply, time, rfl, rfl⟩ := hl
    refine .inr ⟨reply, _, [], leaves_ask.mpr ⟨reply, time, rfl, rfl⟩, ?_, rfl⟩
    cases reply <;> exact ⟨rfl, rfl⟩

/-! #### Steps that begin with a call -/

theorem leaves_ask_bind {q : Question} {f : q.Reply → Action τ β} {evs : List (Event τ)}
    {r : Except Failure β} :
    Leaves (ask q >>= f) evs r ↔
      ∃ v time rest, (f v).Leaves rest r ∧ evs = .asked q v time :: rest := by
  rw [leaves_bind]
  constructor
  · intro hl
    rcases hl with ⟨x, h, -⟩ | ⟨v, first, rest, h, hf, rfl⟩
    · obtain ⟨_, _, _, h⟩ := leaves_ask.mp h
      cases h
    · obtain ⟨w, time, rfl, hw⟩ := leaves_ask.mp h
      obtain rfl := Except.ok.inj hw
      exact ⟨v, time, rest, hf, rfl⟩
  · intro hl
    obtain ⟨v, time, rest, hf, rfl⟩ := hl
    exact .inr ⟨v, _, rest, leaves_ask.mpr ⟨v, time, rfl, rfl⟩, hf, rfl⟩

theorem leaves_log_bind {level : Level} {text : String} {f : Unit → Action τ β}
    {evs : List (Event τ)} {r : Except Failure β} :
    Leaves (log level text >>= f) evs r ↔
      ∃ rest, (f ()).Leaves rest r ∧ evs = .logged level text :: rest := by
  rw [leaves_bind]
  constructor
  · intro hl
    rcases hl with ⟨x, h, -⟩ | ⟨_, first, rest, h, hf, rfl⟩
    · cases (leaves_log.mp h).2
    · obtain ⟨rfl, -⟩ := leaves_log.mp h
      exact ⟨rest, hf, rfl⟩
  · intro hl
    obtain ⟨rest, hf, rfl⟩ := hl
    exact .inr ⟨(), _, rest, leaves_log.mpr ⟨rfl, rfl⟩, hf, rfl⟩

/-- Reading the clock leaves nothing. -/
theorem leaves_clock_bind {f : τ → Action τ β} {evs : List (Event τ)} {r : Except Failure β} :
    Leaves (clock >>= f) evs r ↔ ∃ now, (f now).Leaves evs r := by
  rw [leaves_bind]
  constructor
  · intro hl
    rcases hl with ⟨x, h, -⟩ | ⟨now, first, rest, h, hf, rfl⟩
    · obtain ⟨-, _, h⟩ := leaves_clock.mp h
      cases h
    · obtain ⟨rfl, -⟩ := leaves_clock.mp h
      exact ⟨now, hf⟩
  · intro hl
    obtain ⟨now, hf⟩ := hl
    exact .inr ⟨now, [], evs, leaves_clock.mpr ⟨rfl, now, rfl⟩, hf, rfl⟩

theorem leaves_ofExcept_bind {e : Except Failure α} {f : α → Action τ β} {evs : List (Event τ)}
    {r : Except Failure β} :
    Leaves (ofExcept e >>= f) evs r ↔
      (∃ x, e = .error x ∧ evs = [] ∧ r = .error x) ∨ ∃ v, e = .ok v ∧ (f v).Leaves evs r := by
  rw [leaves_bind]
  constructor
  · intro hl
    rcases hl with ⟨x, h, rfl⟩ | ⟨v, first, rest, h, hf, rfl⟩
    · exact .inl ⟨x, h.2.symm, h.1, rfl⟩
    · obtain ⟨rfl, rfl⟩ := leaves_ofExcept.mp h
      exact .inr ⟨v, rfl, hf⟩
  · intro hl
    rcases hl with ⟨x, rfl, rfl, rfl⟩ | ⟨v, rfl, hf⟩
    · exact .inl ⟨x, leaves_ofExcept.mpr ⟨rfl, rfl⟩, rfl⟩
    · exact .inr ⟨v, [], evs, leaves_ofExcept.mpr ⟨rfl, rfl⟩, hf, rfl⟩

theorem leaves_attempt_bind {a : Action τ α} {f : Except Failure α → Action τ β}
    {evs : List (Event τ)} {r : Except Failure β} :
    Leaves (attempt a >>= f) evs r ↔
      ∃ e first rest, a.Leaves first e ∧ (f e).Leaves rest r ∧ evs = first ++ rest := by
  rw [leaves_bind]
  constructor
  · intro hl
    rcases hl with ⟨x, h, -⟩ | ⟨e, first, rest, h, hf, rfl⟩
    · obtain ⟨_, _, h⟩ := leaves_attempt.mp h
      cases h
    · obtain ⟨e', ha, he⟩ := leaves_attempt.mp h
      obtain rfl := Except.ok.inj he
      exact ⟨e, first, rest, ha, hf, rfl⟩
  · intro hl
    obtain ⟨e, first, rest, ha, hf, rfl⟩ := hl
    exact .inr ⟨e, first, rest, leaves_attempt.mpr ⟨e, ha, rfl⟩, hf, rfl⟩

theorem leaves_apiOrFail_bind {call : ApiCall} {f : call.Reply → Action τ β}
    {evs : List (Event τ)} {r : Except Failure β} :
    Leaves (apiOrFail call >>= f) evs r ↔
      (∃ (fault : ApiFault) (time : τ), evs = [.asked (.api call) (.error fault) time] ∧
          r = .error fault.failure) ∨
        ∃ (v : call.Reply) (time : τ) (rest : List (Event τ)), (f v).Leaves rest r ∧
          evs = .asked (.api call) (.ok v) time :: rest := by
  rw [leaves_bind]
  constructor
  · intro hl
    rcases hl with ⟨x, h, rfl⟩ | ⟨v, first, rest, h, hf, rfl⟩
    · obtain ⟨reply, time, rfl, hx⟩ := leaves_apiOrFail.mp h
      cases reply with
      | ok v => cases hx
      | error fault =>
        cases hx
        exact .inl ⟨fault, time, rfl, rfl⟩
    · obtain ⟨reply, time, rfl, hv⟩ := leaves_apiOrFail.mp h
      cases reply with
      | ok w =>
        cases hv
        exact .inr ⟨v, time, rest, hf, rfl⟩
      | error fault => cases hv
  · intro hl
    rcases hl with ⟨fault, time, rfl, rfl⟩ | ⟨v, time, rest, hf, rfl⟩
    · exact .inl ⟨_, leaves_apiOrFail.mpr ⟨.error fault, time, rfl, rfl⟩, rfl⟩
    · exact .inr ⟨v, _, rest, leaves_apiOrFail.mpr ⟨.ok v, time, rfl, rfl⟩, hf, rfl⟩

end Action

/-! ### Steps that keep a state -/

namespace Keeping

/-- From one state the step can leave these events, end with this value or failure, and come to
another state. -/
def Leaves (m : Keeping σ τ α) (s : σ) (evs : List (Event τ)) (r : Except Failure α) (s' : σ) :
    Prop :=
  Program.Leaves (m.perform s) evs (r, s')

/-- A step and what comes after it, from a state. -/
theorem perform_bind (m : Keeping σ τ α) (f : α → Keeping σ τ β) (s : σ) :
    (m >>= f).perform s = (m.perform s).bind fun
      | (.ok v, s₁) => (f v).perform s₁
      | (.error x, s₁) => .done (.error x, s₁) := by
  show Program.bind _ _ = _
  congr 1
  funext ⟨e, s₁⟩
  cases e <;> rfl

/-- After a step that failed nothing else is done, and its state is the last one. -/
theorem leaves_bind {m : Keeping σ τ α} {f : α → Keeping σ τ β} {s s' : σ} {evs : List (Event τ)}
    {r : Except Failure β} :
    Leaves (m >>= f) s evs r s' ↔ (∃ x, m.Leaves s evs (.error x) s' ∧ r = .error x) ∨
      ∃ v s₁ first rest, m.Leaves s first (.ok v) s₁ ∧ (f v).Leaves s₁ rest r s' ∧
        evs = first ++ rest := by
  unfold Leaves
  rw [perform_bind, Program.leaves_bind]
  constructor
  · intro hl
    obtain ⟨⟨e, s₁⟩, first, rest, hm, hf, rfl⟩ := hl
    cases e with
    | ok v => exact .inr ⟨v, s₁, first, rest, hm, hf, rfl⟩
    | error x =>
      obtain ⟨rfl, h⟩ := hf
      cases h
      exact .inl ⟨x, by rwa [List.append_nil], rfl⟩
  · intro hl
    rcases hl with ⟨x, hm, rfl⟩ | ⟨v, s₁, first, rest, hm, hf, rfl⟩
    · exact ⟨(.error x, s'), evs, [], hm, ⟨rfl, rfl⟩, (List.append_nil evs).symm⟩
    · exact ⟨(.ok v, s₁), first, rest, hm, hf, rfl⟩

/-- Where the whole succeeds both steps do. -/
theorem leaves_bind_ok {m : Keeping σ τ α} {f : α → Keeping σ τ β} {s s' : σ}
    {evs : List (Event τ)} {w : β} :
    Leaves (m >>= f) s evs (.ok w) s' ↔
      ∃ v s₁ first rest, m.Leaves s first (.ok v) s₁ ∧ (f v).Leaves s₁ rest (.ok w) s' ∧
        evs = first ++ rest := by
  rw [leaves_bind]
  refine or_iff_right fun hl => ?_
  obtain ⟨_, -, hr⟩ := hl
  cases hr

theorem leaves_pure {v : α} {s s' : σ} {evs : List (Event τ)} {r : Except Failure α} :
    Leaves (pure v : Keeping σ τ α) s evs r s' ↔ evs = [] ∧ r = .ok v ∧ s' = s :=
  and_congr_right fun _ => Prod.mk.injEq .. ▸ Iff.rfl

theorem leaves_throw {x : Failure} {s s' : σ} {evs : List (Event τ)} {r : Except Failure α} :
    Leaves (throw x : Keeping σ τ α) s evs r s' ↔ evs = [] ∧ r = .error x ∧ s' = s :=
  and_congr_right fun _ => Prod.mk.injEq .. ▸ Iff.rfl

theorem leaves_get {s s' : σ} {evs : List (Event τ)} {r : Except Failure σ} :
    Leaves (get : Keeping σ τ σ) s evs r s' ↔ evs = [] ∧ r = .ok s ∧ s' = s :=
  and_congr_right fun _ => Prod.mk.injEq .. ▸ Iff.rfl

theorem leaves_set {s s' t : σ} {evs : List (Event τ)} {r : Except Failure PUnit} :
    Leaves (set t : Keeping σ τ PUnit) s evs r s' ↔ evs = [] ∧ r = .ok ⟨⟩ ∧ s' = t :=
  and_congr_right fun _ => Prod.mk.injEq .. ▸ Iff.rfl

theorem leaves_modify {f : σ → σ} {s s' : σ} {evs : List (Event τ)} {r : Except Failure PUnit} :
    Leaves (modify f : Keeping σ τ PUnit) s evs r s' ↔ evs = [] ∧ r = .ok ⟨⟩ ∧ s' = f s :=
  and_congr_right fun _ => Prod.mk.injEq .. ▸ Iff.rfl

theorem leaves_set_bind {t : σ} {f : PUnit → Keeping σ τ β} {s s' : σ} {evs : List (Event τ)}
    {r : Except Failure β} : Leaves (set t >>= f) s evs r s' ↔ (f ⟨⟩).Leaves t evs r s' := by
  rw [leaves_bind]
  constructor
  · intro hl
    rcases hl with ⟨x, h, -⟩ | ⟨_, s₁, first, rest, h, hf, rfl⟩
    · cases (leaves_set.mp h).2.1
    · obtain ⟨rfl, -, rfl⟩ := leaves_set.mp h
      exact hf
  · intro h
    exact .inr ⟨⟨⟩, t, [], evs, leaves_set.mpr ⟨rfl, rfl, rfl⟩, h, rfl⟩

/-- A step that does not touch the state leaves it as it is. -/
theorem leaves_lift {a : Action τ α} {s s' : σ} {evs : List (Event τ)} {r : Except Failure α} :
    Leaves (lift a) s evs r s' ↔ a.Leaves evs r ∧ s' = s := by
  have hperform : (lift a).perform s = a.run.bind fun e => .done (e, s) := rfl
  unfold Leaves
  rw [hperform, Program.leaves_bind]
  constructor
  · intro hl
    obtain ⟨e, first, rest, ha, ⟨rfl, h⟩, rfl⟩ := hl
    cases h
    exact ⟨by rwa [List.append_nil], rfl⟩
  · intro hl
    obtain ⟨ha, rfl⟩ := hl
    exact ⟨r, evs, [], ha, ⟨rfl, rfl⟩, (List.append_nil evs).symm⟩

theorem leaves_get_bind {f : σ → Keeping σ τ β} {s s' : σ} {evs : List (Event τ)}
    {r : Except Failure β} : Leaves (get >>= f) s evs r s' ↔ (f s).Leaves s evs r s' := by
  rw [leaves_bind]
  constructor
  · intro hl
    rcases hl with ⟨x, h, -⟩ | ⟨v, s₁, first, rest, h, hf, rfl⟩
    · cases (leaves_get.mp h).2.1
    · obtain ⟨rfl, hv, rfl⟩ := leaves_get.mp h
      obtain rfl := Except.ok.inj hv
      exact hf
  · intro h
    exact .inr ⟨s, s, [], evs, leaves_get.mpr ⟨rfl, rfl, rfl⟩, h, rfl⟩

theorem leaves_modify_bind {g : σ → σ} {f : PUnit → Keeping σ τ β} {s s' : σ}
    {evs : List (Event τ)} {r : Except Failure β} :
    Leaves (modify g >>= f) s evs r s' ↔ (f ⟨⟩).Leaves (g s) evs r s' := by
  rw [leaves_bind]
  constructor
  · intro hl
    rcases hl with ⟨x, h, -⟩ | ⟨_, s₁, first, rest, h, hf, rfl⟩
    · cases (leaves_modify.mp h).2.1
    · obtain ⟨rfl, -, rfl⟩ := leaves_modify.mp h
      exact hf
  · intro h
    exact .inr ⟨⟨⟩, g s, [], evs, leaves_modify.mpr ⟨rfl, rfl, rfl⟩, h, rfl⟩

theorem leaves_lift_bind {a : Action τ α} {f : α → Keeping σ τ β} {s s' : σ}
    {evs : List (Event τ)} {r : Except Failure β} :
    Leaves (lift a >>= f) s evs r s' ↔
      (∃ x, a.Leaves evs (.error x) ∧ r = .error x ∧ s' = s) ∨
        ∃ v first rest, a.Leaves first (.ok v) ∧ (f v).Leaves s rest r s' ∧
          evs = first ++ rest := by
  rw [leaves_bind]
  constructor
  · intro hl
    rcases hl with ⟨x, h, rfl⟩ | ⟨v, s₁, first, rest, h, hf, rfl⟩
    · obtain ⟨ha, rfl⟩ := leaves_lift.mp h
      exact .inl ⟨x, ha, rfl, rfl⟩
    · obtain ⟨ha, rfl⟩ := leaves_lift.mp h
      exact .inr ⟨v, first, rest, ha, hf, rfl⟩
  · intro hl
    rcases hl with ⟨x, ha, rfl, rfl⟩ | ⟨v, first, rest, ha, hf, rfl⟩
    · exact .inl ⟨x, leaves_lift.mpr ⟨ha, rfl⟩, rfl⟩
    · exact .inr ⟨v, s, first, rest, leaves_lift.mpr ⟨ha, rfl⟩, hf, rfl⟩

theorem leaves_log_bind {level : Level} {text : String} {f : Unit → Keeping σ τ β} {s s' : σ}
    {evs : List (Event τ)} {r : Except Failure β} :
    Leaves (lift (Action.log level text) >>= f) s evs r s' ↔
      ∃ rest, (f ()).Leaves s rest r s' ∧ evs = .logged level text :: rest := by
  rw [leaves_lift_bind]
  constructor
  · intro hl
    rcases hl with ⟨x, hx, -⟩ | ⟨_, first, rest, h, hf, rfl⟩
    · cases (Action.leaves_log.mp hx).2
    · obtain ⟨rfl, -⟩ := Action.leaves_log.mp h
      exact ⟨rest, hf, rfl⟩
  · intro hl
    obtain ⟨rest, hf, rfl⟩ := hl
    exact .inr ⟨(), _, rest, Action.leaves_log.mpr ⟨rfl, rfl⟩, hf, rfl⟩

theorem leaves_ofProgram {p : σ → Program τ (Except Failure α × σ)} {s s' : σ}
    {evs : List (Event τ)} {r : Except Failure α} :
    Leaves (ofProgram p) s evs r s' ↔ (p s).Leaves evs (r, s') := Iff.rfl

theorem leaves_discard {m : Keeping σ τ α} {s s' : σ} {evs : List (Event τ)}
    {r : Except Failure PUnit} :
    Leaves (discard m) s evs r s' ↔
      ∃ r₁ : Except Failure α, m.Leaves s evs r₁ s' ∧ r = r₁.map fun _ => ⟨⟩ := by
  rw [show (discard m : Keeping σ τ PUnit) = m >>= fun _ => pure ⟨⟩ from
    (map_eq_pure_bind _ m), leaves_bind]
  constructor
  · intro hl
    rcases hl with ⟨x, hm, rfl⟩ | ⟨v, s₁, first, rest, hm, hf, rfl⟩
    · exact ⟨.error x, hm, rfl⟩
    · obtain ⟨rfl, rfl, rfl⟩ := leaves_pure.mp hf
      exact ⟨.ok v, by rwa [List.append_nil], rfl⟩
  · intro hl
    obtain ⟨r₁, hm, rfl⟩ := hl
    cases r₁ with
    | error x => exact .inl ⟨x, hm, rfl⟩
    | ok v =>
      exact .inr ⟨v, s', evs, [], hm, leaves_pure.mpr ⟨rfl, rfl, rfl⟩, (List.append_nil evs).symm⟩

end Keeping

end IngressBench
