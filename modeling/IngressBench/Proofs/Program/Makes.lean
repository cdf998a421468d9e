import IngressBench.Proofs.Program.Clock
import IngressBench.Proofs.Stop
import IngressBench.Wait

/-!
Steps whose calls are known. `w.Makes a s v made s'` says that in the world `w` the step `a`, begun
in the state `s`, ends well with `v` in the state `s'`, and which calls to the cluster it makes. Steps
one after another make the calls of both (`World.Makes.bind`).
-/
namespace IngressBench

variable {τ σ α β : Type}

/-- The calls to the cluster among the events. -/
def calls (evs : List (Event τ)) : List ApiCall :=
  evs.filterMap fun
    | .asked (.api call) _ _ => some call
    | _ => none

theorem calls_append (evs evs' : List (Event τ)) : calls (evs ++ evs') = calls evs ++ calls evs' :=
  List.filterMap_append ..

variable [TimeScale τ] {w : World τ σ} {s s₁ s₂ : σ}

/-- From whatever history in the state `s`, the step ends well with `v` in the state `s'`, having
made these calls to the cluster; it neither sleeps nor pauses. -/
def World.Makes (w : World τ σ) (a : Action τ α) (s : σ) (v : α) (made : List ApiCall) (s' : σ) :
    Prop :=
  ∀ h : History τ σ, h.state = s → ∃ h' evs, w.run a.run h = (.ok v, h') ∧ h'.state = s' ∧
    h'.events = evs.reverse ++ h.events ∧ calls evs = made ∧ ∀ e ∈ evs, e.Brisk

namespace World

/-- One step after another makes the calls of both. -/
theorem Makes.bind {a : Action τ α} {f : α → Action τ β} {v : α} {b : β}
    {first rest made : List ApiCall} (ha : w.Makes a s v first s₁)
    (hf : w.Makes (f v) s₁ b rest s₂) (hmade : first ++ rest = made) :
    w.Makes (a >>= f) s b made s₂ := by
  intro h hs
  obtain ⟨h₁, evs, hrun, hs₁, hevs, rfl, hbrisk⟩ := ha h hs
  obtain ⟨h₂, evs', hrun', hs₂, hevs', rfl, hbrisk'⟩ := hf h₁ hs₁
  refine ⟨h₂, evs ++ evs', (run_step_ok hrun).trans hrun', hs₂, ?_, (calls_append ..).trans hmade,
    fun e he => ?_⟩
  · rw [hevs', hevs, List.reverse_append, List.append_assoc]
  · rcases List.mem_append.mp he with he | he
    · exact hbrisk e he
    · exact hbrisk' e he

theorem makes_pure (v : α) : w.Makes (pure v) s v [] s :=
  fun h hs => ⟨h, [], rfl, hs, rfl, rfl, fun _ he => absurd he List.not_mem_nil⟩

theorem makes_ofExcept {e : Except Failure α} {v : α} (he : e = .ok v) :
    w.Makes (Action.ofExcept e) s v [] s := by
  rw [he]
  exact makes_pure v

theorem makes_log (level : Level) (text : String) : w.Makes (Action.log level text) s () [] s := by
  intro h hs
  refine ⟨_, [.logged level text], rfl, hs, rfl, rfl, fun e he => ?_⟩
  obtain rfl := List.mem_singleton.mp he
  trivial

/-- A call is made once, and ends with what it is answered. -/
theorem makes_api {call : ApiCall} {reply : Except ApiFault call.Reply} {cost : τ}
    (hreply : w.answer (.api call) s = (reply, cost, s₁)) :
    w.Makes (Action.api call) s reply [call] s₁ := by
  intro h hs
  subst hs
  have hcall : w.run (Action.api call).run h = (.ok reply, (w.reply (.ask (.api call)) h).2) :=
    congrArg (fun r : Except ApiFault call.Reply × τ × σ =>
      (Except.ok r.1, (w.reply (.ask (.api call)) h).2)) hreply
  have hevents : (w.reply (.ask (.api call)) h).2.events =
      [.asked (.api call) reply h.now] ++ h.events :=
    congrArg (fun r : Except ApiFault call.Reply × τ × σ =>
      Event.asked (.api call) r.1 h.now :: h.events) hreply
  refine ⟨_, [.asked (.api call) reply h.now], hcall, congrArg (fun r => r.2.2) hreply, hevents,
    rfl, fun e he => ?_⟩
  obtain rfl := List.mem_singleton.mp he
  trivial

/-- A call that succeeds. -/
theorem makes_apiOrFail {call : ApiCall} {reply : call.Reply} {cost : τ}
    (hreply : w.answer (.api call) s = (.ok reply, cost, s₁)) :
    w.Makes (Action.apiOrFail call) s reply [call] s₁ :=
  (makes_api hreply).bind (makes_pure reply) rfl

/-- A step that is attempted and ends well. -/
theorem Makes.attempt {a : Action τ α} {v : α} {made : List ApiCall} (ha : w.Makes a s v made s₁) :
    w.Makes (Action.attempt a) s (.ok v) made s₁ := by
  intro h hs
  obtain ⟨h₁, evs, hrun, hrow⟩ := ha h hs
  exact ⟨h₁, evs, run_attempt hrun, hrow⟩

/-- A wait is over when its first look sees enough. -/
theorem Makes.watch {look : Action τ (β × Bool)} {seen : β} {made : List ApiCall}
    (hlook : w.Makes look s (seen, true) made s₁) (pace : Pace τ) (timeout : τ) :
    w.Makes (IngressBench.watch pace timeout look) s (seen, none) made s₁ := by
  intro h hs
  have hclock : w.run Action.clock.run h = (.ok h.now, h) := rfl
  have hloop : ∀ deadline budget,
      w.Makes (watchLoop pace timeout deadline look budget) s (seen, none) made s₁ := by
    intro deadline budget
    cases budget with
    | zero => exact hlook.bind (makes_pure _) (List.append_nil _)
    | succ budget => exact hlook.bind (makes_pure _) (List.append_nil _)
  unfold IngressBench.watch
  rw [run_step_ok hclock]
  exact hloop _ _ h hs

end World

end IngressBench
