import IngressBench.Benchmark.Load
import IngressBench.Proofs.Program.Leaves

/-!
What the steps of a measurement can do, said once for each of them: how the address and the pods are
found (`Load.Finds`, `Load.Lists`), how these make a preparation (`Load.Preparing`), how a command is run
in a pod (`Load.runIn_hears`), and how samples are a first one and those that are left
(`Load.samples_cases`).
-/
namespace IngressBench.Load

variable {τ : Type} {ns : String} {c : TestCase} {evs : List (Event τ)}

/-! ### Preparation -/

/-- The address of a test case at a host. -/
def address (c : TestCase) (host : Document) : String :=
  scheme c.termination ++ "://" ++ host.plain ++ c.path

/-- The names of the pods of a listing. -/
def podNames (pods : Option (Listing Pod)) : Except Failure (List (Option String)) := do
  (← Listing.all pods).mapM podName

/-- The call for the route of a test case. -/
def routeCall (ns : String) (c : TestCase) : ApiCall :=
  .readRoute ns (Assets.routeName c.termination)

/-- The call for the running pods of the clients. -/
def podsCall (ns : String) : ApiCall :=
  .listPods ns ("app=" ++ Assets.clientName) "Running"

/-- The route is asked for, and its host is looked for. -/
inductive Finds (ns : String) (c : TestCase) : List (Event τ) → Except Failure String → Prop
  | refused {fault : ApiFault} {asked : τ} :
      Finds ns c [.asked (.api (routeCall ns c)) (.error fault) asked] (.error fault.failure)
  | hostless {route : Document} {asked : τ} {x : Failure} (hx : Discovery.hostOf route = .error x) :
      Finds ns c [.asked (.api (routeCall ns c)) (.ok route) asked] (.error x)
  | found {route host : Document} {asked : τ} (hhost : Discovery.hostOf route = .ok host) :
      Finds ns c [.asked (.api (routeCall ns c)) (.ok route) asked] (.ok (address c host))

/-- The pods are asked for, and the first ones are taken if there are enough of them. -/
inductive Lists (ns : String) (expected : Nat) :
    List (Event τ) → Except Failure (List (Option String)) → Prop
  | refused {fault : ApiFault} {listed : τ} :
      Lists ns expected [.asked (.api (podsCall ns)) (.error fault) listed] (.error fault.failure)
  | nameless {pods : Option (Listing Pod)} {listed : τ} {x : Failure}
      (hx : podNames pods = .error x) :
      Lists ns expected [.asked (.api (podsCall ns)) (.ok pods) listed] (.error x)
  | short {pods : Option (Listing Pod)} {names : List (Option String)} {listed : τ}
      (hnames : podNames pods = .ok names) (hshort : names.length < expected) :
      Lists ns expected [.asked (.api (podsCall ns)) (.ok pods) listed]
        (.error (.benchmark (.pods expected names.length)))
  | enough {pods : Option (Listing Pod)} {names : List (Option String)} {listed : τ}
      (hnames : podNames pods = .ok names) (henough : expected ≤ names.length) :
      Lists ns expected [.asked (.api (podsCall ns)) (.ok pods) listed] (.ok (names.take expected))

/-- The address comes first, then the command line, then the pods. -/
inductive Preparing (ns : String) (c : TestCase) :
    List (Event τ) → Except Failure (List String × List (Option String)) → Prop
  | lost {evs : List (Event τ)} {x : Failure} (hfinds : Finds ns c evs (.error x)) :
      Preparing ns c evs (.error x)
  | speechless {evs : List (Event τ)} {address : String} {x : Failure}
      (hfinds : Finds ns c evs (.ok address)) (hx : c.command address = .error x) :
      Preparing ns c evs (.error x)
  | staffed {first second : List (Event τ)} {address : String} {command : List String}
      {r : Except Failure (List (Option String))} (hfinds : Finds ns c first (.ok address))
      (hcommand : c.command address = .ok command) (hlists : Lists ns c.concurrency second r) :
      Preparing ns c (first ++ second) (r.map fun pods => (command, pods))

theorem url_finds {r : Except Failure String} (h : (url ns c : Action τ String).Leaves evs r) :
    Finds ns c evs r := by
  rcases Action.leaves_apiOrFail_bind.mp h with
    ⟨fault, asked, rfl, rfl⟩ | ⟨route, asked, rest, h₁, rfl⟩
  · exact .refused
  rcases Action.leaves_ofExcept_bind.mp h₁ with ⟨x, hx, rfl, rfl⟩ | ⟨host, hhost, h₂⟩
  · exact .hostless hx
  · obtain ⟨rfl, rfl⟩ := Action.leaves_pure.mp h₂
    exact .found hhost

theorem clientPods_lists {expected : Nat} {r : Except Failure (List (Option String))}
    (h : (clientPods ns expected : Action τ (List (Option String))).Leaves evs r) :
    Lists ns expected evs r := by
  rcases Action.leaves_apiOrFail_bind.mp h with
    ⟨fault, listed, rfl, rfl⟩ | ⟨pods, listed, rest, h₁, rfl⟩
  · exact .refused
  rcases Action.leaves_ofExcept_bind.mp h₁ with ⟨x, hx, rfl, rfl⟩ | ⟨names, hnames, h₂⟩
  · exact .nameless hx
  split at h₂
  · rename_i hshort
    rcases Action.leaves_bind.mp h₂ with ⟨x, hx, rfl⟩ | ⟨_, _, _, hthrow, -, -⟩
    · obtain ⟨rfl, hfault⟩ := Action.leaves_throw.mp hx
      cases hfault
      exact .short hnames hshort
    · cases (Action.leaves_throw.mp hthrow).2
  · obtain ⟨rfl, rfl⟩ := Action.leaves_pure.mp h₂
    exact .enough hnames (by omega)

/-- **A preparation takes its steps one after the other**, up to the first that fails. -/
theorem prepare_preparing {r : Except Failure (List String × List (Option String))}
    (h : (prepare ns c : Action τ _).Leaves evs r) : Preparing ns c evs r := by
  rcases Action.leaves_bind.mp h with ⟨x, hurl, rfl⟩ | ⟨address, first, rest, hurl, h₁, rfl⟩
  · exact .lost (url_finds hurl)
  rcases Action.leaves_ofExcept_bind.mp h₁ with ⟨x, hx, rfl, rfl⟩ | ⟨command, hcommand, h₂⟩
  · rw [List.append_nil]
    exact .speechless (url_finds hurl) hx
  rcases Action.leaves_bind.mp h₂ with ⟨x, hpods, rfl⟩ | ⟨pods, second, rest, hpods, h₃, rfl⟩
  · exact .staffed (r := .error x) (url_finds hurl) hcommand (clientPods_lists hpods)
  · obtain ⟨rfl, rfl⟩ := Action.leaves_pure.mp h₃
    rw [List.append_nil]
    exact .staffed (r := .ok pods) (url_finds hurl) hcommand (clientPods_lists hpods)

/-! ### Commands -/

variable {command : List String} {pod : Option String} {pods : List (Option String)}

/-- A command of the load generator in a pod. -/
def commandIn (ns : String) (command : List String) (pod : Option String) : Question :=
  .exec { pod, ns, command, withErrors := false }

/-- What a reply to a command makes: the document that it printed, or a failure. -/
def heard (pod : Option String) : Except ApiFault Document → Except Failure Document
  | .ok output => outputOf pod output
  | .error (.rejected _ reason) => .error (.benchmark (.exec (podText pod) reason))
  | .error (.unreachable text) => .error (.unreachable text)

theorem runIn_eq (ns : String) (command : List String) (pod : Option String) :
    (runIn ns command pod : Action τ Document) =
      Action.ask (commandIn ns command pod) >>= fun reply => Action.ofExcept (heard pod reply) := by
  refine congrArg (Action.ask (commandIn ns command pod) >>= ·) (funext fun reply => ?_)
  cases reply with
  | ok output => rfl
  | error fault => cases fault <;> rfl

/-- A command is run once, and what is heard of it is its end. -/
theorem runIn_hears {r : Except Failure Document}
    (h : (runIn ns command pod : Action τ Document).Leaves evs r) :
    ∃ (reply : Except ApiFault Document) (time : τ),
      evs = [.asked (commandIn ns command pod) reply time] ∧ r = heard pod reply := by
  rw [runIn_eq] at h
  obtain ⟨reply, time, rest, h₁, rfl⟩ := Action.leaves_ask_bind.mp h
  obtain ⟨rfl, rfl⟩ := Action.leaves_ofExcept.mp h₁
  exact ⟨reply, time, rfl, rfl⟩

/-! ### Samples -/

variable [TimeScale τ] {metadata : ClusterMetadata} {routers : Routers} {number left : Nat}

/-- The pause before the samples that are left, if there are any and the test case asks for one. -/
def pauseBefore (c : TestCase) (left : Nat) : List (Event τ) :=
  if c.delay != 0 && left != 0 then [.slept (TimeScale.ofSeconds c.delay)] else []

/-- **Samples are a first one and those that are left**, or a first one that failed. -/
theorem samples_cases {r : Except Failure (List Result)}
    (h : (samples ns c metadata routers command pods number (left + 1) :
      Action τ (List Result)).Leaves evs r) :
    (∃ x, (sample ns c metadata routers command pods number : Action τ Result).Leaves evs
        (.error x) ∧ r = .error x) ∨
      ∃ result first rest later,
        (sample ns c metadata routers command pods number : Action τ Result).Leaves first
          (.ok result) ∧
        (samples ns c metadata routers command pods (number + 1) left :
          Action τ (List Result)).Leaves rest later ∧
        r = later.map (result :: ·) ∧ evs = first ++ (pauseBefore c left ++ rest) := by
  rcases Action.leaves_bind.mp h with ⟨x, hx, rfl⟩ | ⟨result, first, rest, hresult, h₁, rfl⟩
  · exact .inl ⟨x, hx, rfl⟩
  refine .inr ⟨result, first, ?_⟩
  have hlater : ∀ {evs}, Action.Leaves (do
      return result :: (← samples ns c metadata routers command pods (number + 1) left) :
        Action τ (List Result)) evs r →
      ∃ later, (samples ns c metadata routers command pods (number + 1) left :
        Action τ (List Result)).Leaves evs later ∧ r = later.map (result :: ·) := by
    intro evs h
    rcases Action.leaves_bind.mp h with ⟨x, hx, rfl⟩ | ⟨results, second, third, hresults, h₂, rfl⟩
    · exact ⟨_, hx, rfl⟩
    · obtain ⟨rfl, rfl⟩ := Action.leaves_pure.mp h₂
      rw [List.append_nil]
      exact ⟨_, hresults, rfl⟩
  unfold pauseBefore
  dsimp only at h₁
  split at h₁
  · rename_i hpause
    rcases Action.leaves_bind.mp h₁ with ⟨x, hx, -⟩ | ⟨_, second, third, hsleep, h₂, rfl⟩
    · cases (Action.leaves_sleep.mp hx).2
    · obtain ⟨rfl, -⟩ := Action.leaves_sleep.mp hsleep
      obtain ⟨later, hsamples, hr⟩ := hlater h₂
      exact ⟨third, later, hresult, hsamples, hr, by rw [if_pos hpause]⟩
  · rename_i hpause
    obtain ⟨later, hsamples, hr⟩ := hlater h₁
    exact ⟨rest, later, hresult, hsamples, hr, by rw [if_neg hpause, List.nil_append]⟩

end IngressBench.Load
