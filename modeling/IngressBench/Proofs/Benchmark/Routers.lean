import IngressBench.Proofs.Benchmark.Faults
import IngressBench.Proofs.Outcome
import IngressBench.Proofs.Program.Twins

/-!
What a reply of the metrics server makes of a sample. The processor time of the routers is one query
and what its reply tells (`MetricsServer.told`): the time itself, nothing and a warning when the
failure is a tolerated one, and the end of the measurement otherwise (`Load.metered`,
`Load.routerCpu_run`). A reply fails in a way that is tolerated, or because some value inside it is
not of the form that is looked for (`MetricsServer.told_error`).
-/
namespace IngressBench

variable {τ α : Type}

/-! ### Lines of the log in front of a program -/

/-- A program that writes lines first leaves them first. -/
theorem Program.leaves_telling {lines : List (Level × String)} {p : Program τ α}
    {evs : List (Event τ)} {a : α} :
    (telling lines p).Leaves evs a ↔ ∃ rest, p.Leaves rest a ∧ evs = logged lines ++ rest := by
  induction lines generalizing evs with
  | nil => simp [telling, logged]
  | cons line lines ih =>
    constructor
    · intro hl
      obtain ⟨_, es, rest, hm, hrest, rfl⟩ := hl
      obtain rfl : es = [.logged line.1 line.2] := hm
      obtain ⟨rest, hp, rfl⟩ := ih.mp hrest
      exact ⟨rest, hp, rfl⟩
    · intro hl
      obtain ⟨rest, hp, rfl⟩ := hl
      exact ⟨(), [.logged line.1 line.2], logged lines ++ rest, rfl, ih.mpr ⟨rest, hp, rfl⟩, rfl⟩

/-! ### Replies -/

/-- A failure of a value that is not of the form that is looked for. -/
def Failure.isMisshapen : Failure → Bool
  | .part _ | .kind _ | .position _ | .overflow _ => true
  | _ => false

namespace MetricsServer

/-- What a reply of a metrics server tells: the number that its result starts with, if any. -/
def told (call : HttpCall) : Except HttpFault HttpAnswer → Except Failure (Option Float)
  | .ok answer => read call.url answer >>= scalarOf
  | .error fault => .error (.http fault)

/-- The request that a query makes. -/
def request (server : MetricsServer) (expr : String) : HttpCall where
  url := server.queryUrl
  query := expr
  time := none
  timeout := server.timeout
  verify := server.verify
  authorization := server.authorization

/-- A query is one question, and what its reply tells. -/
theorem queryScalar_run (server : MetricsServer) (expr : String) :
    (server.queryScalar expr : Action τ (Option Float)).run =
      .call (.ask (.http (server.request expr))) fun reply =>
        .done (told (server.request expr) reply) := by
  refine congrArg (Program.call _) (funext fun reply => ?_)
  cases reply with
  | error fault => rfl
  | ok answer =>
    show (Action.ofExcept (read server.queryUrl answer) >>= fun d =>
      Action.ofExcept (scalarOf d) : Action τ (Option Float)).run =
        .done (read server.queryUrl answer >>= scalarOf)
    cases read server.queryUrl answer <;> rfl

/-- A failure that reading a reply can end with. -/
def Explains (x : Failure) : Prop :=
  Load.isTolerated x = true ∨ x.isMisshapen = true

variable {d : Document} {x : Failure}

theorem explains_under {name : String} (h : d.under name = .error x) : Explains x := by
  rcases Load.under_error h with ⟨_, rfl⟩ | ⟨_, rfl⟩
  · exact .inl rfl
  · exact .inr rfl

theorem explains_lookUp {name : String} (h : d.lookUp name = .error x) : Explains x := by
  unfold Document.lookUp at h
  split at h <;> cases h
  exact .inr rfl

theorem explains_atPosition {i : Nat} (h : d.atPosition i = .error x) : Explains x := by
  unfold Document.atPosition at h
  split at h
  · split at h <;> cases h
    exact .inr rfl
  · split at h <;> cases h
    exact .inr rfl
  · split at h <;> cases h
    exact .inl rfl
  · cases h
    exact .inr rfl

theorem explains_toFloat (h : d.toFloat = .error x) : Explains x := by
  unfold Document.toFloat at h
  split at h
  · dsimp only at h
    split at h <;> cases h
    exact .inr rfl
  · cases h
  · cases h
  · split at h <;> cases h
    exact .inl rfl
  · cases h
    exact .inr rfl

theorem explains_payload {body : String} (h : payload body = .error x) : Explains x := by
  unfold payload at h
  split at h
  · cases h
  · dsimp only at h
    split at h <;> cases h
    · exact .inl rfl
    · exact .inl rfl

theorem explains_resultOf (h : resultOf d = .error x) : Explains x := by
  rcases bind_eq_error_iff.mp h with hx | ⟨status, -, hrest⟩
  · exact explains_lookUp hx
  · split at hrest
    · rcases bind_eq_error_iff.mp hrest with hx | ⟨data, -, hx⟩
      · exact explains_under hx
      · exact explains_under hx
    · rcases bind_eq_error_iff.mp hrest with hx | ⟨why, -, hx⟩
      · exact explains_lookUp hx
      · cases hx
        exact .inl rfl

theorem explains_read {url : String} {answer : HttpAnswer} (h : read url answer = .error x) :
    Explains x := by
  unfold read at h
  split at h
  · cases h
    exact .inl rfl
  · rcases bind_eq_error_iff.mp h with hx | ⟨d, -, hx⟩
    · exact explains_payload hx
    · exact explains_resultOf hx

theorem explains_scalarOf (h : scalarOf d = .error x) : Explains x := by
  unfold scalarOf at h
  split at h
  · cases h
  · rcases bind_eq_error_iff.mp h with hx | ⟨first, -, h₁⟩
    · exact explains_atPosition hx
    rcases bind_eq_error_iff.mp h₁ with hx | ⟨sample, -, h₂⟩
    · exact explains_under hx
    rcases bind_eq_error_iff.mp h₂ with hx | ⟨number, -, h₃⟩
    · exact explains_atPosition hx
    rcases bind_eq_error_iff.mp h₃ with hx | ⟨y, -, h₄⟩
    · exact explains_toFloat hx
    · cases h₄

/-- **A reply fails in a way that is tolerated, or by the form of a value inside it.** -/
theorem told_error {call : HttpCall} {reply : Except HttpFault HttpAnswer}
    (h : told call reply = .error x) : Explains x := by
  cases reply with
  | error fault =>
    cases h
    exact .inl rfl
  | ok answer =>
    rcases bind_eq_error_iff.mp h with hx | ⟨result, -, hx⟩
    · exact explains_read hx
    · exact explains_scalarOf hx

end MetricsServer

/-! ### Samples -/

namespace Load

variable {server : MetricsServer} {c : TestCase} {seconds : Int} {call : HttpCall}
  {reply : Except HttpFault HttpAnswer}

/-- The processor time that a reply makes: nothing when its failure is tolerated. -/
def metered (call : HttpCall) (reply : Except HttpFault HttpAnswer) :
    Except Failure (Option Float) :=
  match MetricsServer.told call reply with
  | .ok x => .ok x
  | .error x => if isTolerated x then .ok none else .error x

/-- The lines of the log that a reply comes with: a warning about a failure that is tolerated. -/
def warnings (call : HttpCall) (reply : Except HttpFault HttpAnswer) : List (Level × String) :=
  match MetricsServer.told call reply with
  | .ok _ => []
  | .error x =>
    if isTolerated x then [(.warning, s!"Could not fetch router CPU usage: {x.message}")] else []

/-- A reply that ends the measurement has a value inside it that is not of its form. -/
theorem metered_error {x : Failure} (h : metered call reply = .error x) :
    x.isMisshapen = true := by
  unfold metered at h
  split at h
  · cases h
  · rename_i y hy
    split at h
    · cases h
    · rename_i hy'
      cases h
      exact (MetricsServer.told_error hy).resolve_left hy'

theorem warnings_of_error {x : Failure} (h : metered call reply = .error x) :
    warnings call reply = [] := by
  unfold metered at h
  unfold warnings
  split at h
  · cases h
  · split at h
    · cases h
    · rename_i hx hno
      simp [hno]

/-- The query of a test case for the processor time of the routers. -/
def routerCall (server : MetricsServer) (seconds : Int) : HttpCall :=
  server.request (routerQuery seconds)

/-- What becomes of what a reply tells. -/
def settle (outcome : Except Failure (Option Float)) : Action τ (Option Float) :=
  match outcome with
  | .ok x => return x
  | .error failure => do
    if !isTolerated failure then throw failure
    Action.log .warning s!"Could not fetch router CPU usage: {failure.message}"
    return none

theorem settle_told (call : HttpCall) (reply : Except HttpFault HttpAnswer) :
    (settle (MetricsServer.told call reply) : Action τ (Option Float)).run =
      .telling (warnings call reply) (.done (metered call reply)) := by
  unfold metered warnings
  cases MetricsServer.told call reply with
  | ok x => rfl
  | error x =>
    cases ht : isTolerated x <;> simp [settle, ht] <;> rfl

/-- **The processor time of the routers is one query**, and what its reply makes. -/
theorem routerCpu_run (hseconds : wholeSeconds c.duration = .ok seconds) :
    (routerCpu server c : Action τ (Option Float)).run =
      .call (.ask (.http (routerCall server seconds))) fun reply =>
        .telling (warnings (routerCall server seconds) reply)
          (.done (metered (routerCall server seconds) reply)) := by
  have hquery : (do server.queryScalar (routerQuery (← Action.ofExcept (wholeSeconds c.duration))) :
      Action τ (Option Float)).run = .call (.ask (.http (routerCall server seconds))) fun reply =>
        .done (MetricsServer.told (routerCall server seconds) reply) := by
    rw [hseconds]
    exact server.queryScalar_run _
  have hcpu : (routerCpu server c : Action τ (Option Float)).run =
      (do server.queryScalar (routerQuery (← Action.ofExcept (wholeSeconds c.duration))) :
        Action τ (Option Float)).run.bind fun outcome => (settle outcome).run :=
    (Action.bind_run _ _).trans (Program.bind_assoc _ _ _)
  rw [hcpu, hquery]
  exact congrArg (Program.call _) (funext fun reply => settle_told _ reply)

/-- A duration without end leaves nothing to ask for. -/
theorem routerCpu_endless {x : Failure} (hseconds : wholeSeconds c.duration = .error x) :
    (routerCpu server c : Action τ (Option Float)) = settle (.error x) := by
  unfold routerCpu
  rw [hseconds]
  rfl

/-- What is left of it is the query with its reply, and a warning about it, if any. -/
theorem routerCpu_leaves (hseconds : wholeSeconds c.duration = .ok seconds) {evs : List (Event τ)}
    {r : Except Failure (Option Float)} (h : (routerCpu server c : Action τ _).Leaves evs r) :
    ∃ reply time, r = metered (routerCall server seconds) reply ∧
      evs = .asked (.http (routerCall server seconds)) reply time ::
        logged (warnings (routerCall server seconds) reply) := by
  unfold Action.Leaves at h
  rw [routerCpu_run hseconds] at h
  obtain ⟨reply, es, rest, ⟨time, rfl⟩, htold, rfl⟩ := h
  obtain ⟨_, ⟨rfl, rfl⟩, rfl⟩ := Program.leaves_telling.mp htold
  exact ⟨reply, time, rfl, by simp⟩

end Load
end IngressBench
