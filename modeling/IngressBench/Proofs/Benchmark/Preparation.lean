import IngressBench.Proofs.Benchmark.Faults

/-!
What a preparation leaves behind. It asks for the route and then for the pods; a preparation that ends
well has found the command line and the first of the pods that were listed (`Load.Prepares`). One that
does not end well fails for too few pods whenever the pods could be listed (`Load.prepare_cases`).
-/
namespace IngressBench

variable {τ : Type}

/-- The names of pods that a listing has. -/
def Event.Names (names : List (Option String)) : Event τ → Prop
  | .asked (.api (.listPods ..)) (.ok pods) _ => Load.podNames pods = .ok names
  | _ => False

namespace Load

variable {ns : String} {c : TestCase} {evs : List (Event τ)}

/-- A preparation that found the command line and the pods: the first ones of those that are listed,
as many as the test case asks for. -/
inductive Prepares (ns : String) (c : TestCase) :
    List (Event τ) → List String × List (Option String) → Prop
  | found {route : Document} {host : Document} {listing : Option (Listing Pod)}
      {command : List String} {names : List (Option String)} {asked listed : τ}
      (hhost : Discovery.hostOf route = .ok host)
      (hcommand : c.command (address c host) = .ok command)
      (hnames : podNames listing = .ok names) (henough : c.concurrency ≤ names.length) :
      Prepares ns c [.asked (.api (routeCall ns c)) (.ok route) asked,
        .asked (.api (podsCall ns)) (.ok listing) listed] (command, names.take c.concurrency)

variable {prepared : List String × List (Option String)}

theorem Prepares.length_pods (h : Prepares ns c evs prepared) :
    prepared.2.length = c.concurrency := by
  obtain ⟨-, -, -, henough⟩ := h
  rw [List.length_take]
  omega

/-- A command line tells the duration in seconds. -/
theorem Prepares.seconds (h : Prepares ns c evs prepared) :
    ∃ seconds, wholeSeconds c.duration = .ok seconds := by
  obtain ⟨-, hcommand, -, -⟩ := h
  exact seconds_of_command hcommand

theorem Prepares.le_length (h : Prepares ns c evs prepared) {names : List (Option String)}
    (hlisted : ∃ e ∈ evs, e.Names names) : c.concurrency ≤ names.length := by
  obtain ⟨-, -, hnames, henough⟩ := h
  obtain ⟨e, he, hlisted⟩ := hlisted
  rcases List.mem_pair.mp he with rfl | rfl
  · exact hlisted.elim
  · have hsame : podNames _ = .ok names := hlisted
    rw [hnames] at hsame
    cases hsame
    exact henough

/-- A failure of a preparation in which the pods were not listed, or were too few; there being no
output is none. -/
structure Misses (c : TestCase) (evs : List (Event τ)) (x : Failure) : Prop where
  short : ∀ names, (∃ e ∈ evs, e.Names names) → x = .benchmark (.pods c.concurrency names.length)
  measurable : preparationFailure x ≠ .benchmark .noOutput

theorem measurable_of_foreign {x : Failure} (h : (preparationFailure x).isBenchmark = false) :
    preparationFailure x ≠ .benchmark .noOutput := by
  intro hx
  rw [hx] at h
  cases h

theorem measurable_fault (fault : ApiFault) :
    preparationFailure fault.failure ≠ .benchmark .noOutput := by
  cases fault <;> exact nofun

theorem measurable_hostOf {route : Document} {x : Failure}
    (h : Discovery.hostOf route = .error x) : preparationFailure x ≠ .benchmark .noOutput := by
  rcases hostOf_error h with ⟨_, rfl⟩ | ⟨_, rfl⟩ <;> exact nofun

theorem misses_route {reply : Except ApiFault Document} {time : τ} {x : Failure}
    (h : preparationFailure x ≠ .benchmark .noOutput) :
    Misses c [.asked (.api (routeCall ns c)) reply time] x := by
  refine ⟨fun names hlisted => ?_, h⟩
  obtain ⟨e, he, hnames⟩ := hlisted
  obtain rfl := List.mem_singleton.mp he
  exact hnames.elim

/-- A route that was read does not matter for what is missed later. -/
theorem Misses.cons_route {route : Document} {time : τ} {x : Failure} (h : Misses c evs x) :
    Misses c (.asked (.api (routeCall ns c)) (.ok route) time :: evs) x := by
  refine ⟨fun names hlisted => h.short names ?_, h.measurable⟩
  obtain ⟨e, he, hnames⟩ := hlisted
  rcases List.mem_cons.mp he with rfl | he
  · exact hnames.elim
  · exact ⟨e, he, hnames⟩

theorem Finds.misses {x : Failure} (h : Finds ns c evs (.error x)) : Misses c evs x := by
  cases h with
  | refused => exact misses_route (measurable_fault _)
  | hostless hx => exact misses_route (measurable_hostOf hx)

theorem misses_pods {reply : Except ApiFault (Option (Listing Pod))} {listed : τ} {x : Failure}
    (hshort : ∀ names, (Event.asked (.api (podsCall ns)) reply listed).Names names →
      x = .benchmark (.pods c.concurrency names.length))
    (h : preparationFailure x ≠ .benchmark .noOutput) :
    Misses c [.asked (.api (podsCall ns)) reply listed] x := by
  refine ⟨fun names hlisted => ?_, h⟩
  obtain ⟨e, he, hnames⟩ := hlisted
  obtain rfl := List.mem_singleton.mp he
  exact hshort names hnames

theorem Lists.misses {x : Failure} (h : Lists ns c.concurrency evs (.error x)) :
    Misses c evs x := by
  cases h with
  | refused => exact misses_pods (fun _ hnames => hnames.elim) (measurable_fault _)
  | nameless hx =>
    refine misses_pods (fun names hnames => ?_) (measurable_of_foreign (podNames_error hx))
    have hnames : podNames _ = .ok names := hnames
    rw [hx] at hnames
    cases hnames
  | short htold _ =>
    refine misses_pods (fun names hnames => ?_) nofun
    have hnames : podNames _ = .ok names := hnames
    rw [htold] at hnames
    cases hnames
    rfl

/-- **A preparation finds what it is for, or fails**; with too few pods it fails for them. -/
theorem prepare_cases {r : Except Failure (List String × List (Option String))}
    (h : (prepare ns c : Action τ _).Leaves evs r) :
    (∃ prepared, r = .ok prepared ∧ Prepares ns c evs prepared) ∨
      ∃ x, r = .error x ∧ Misses c evs x := by
  cases prepare_preparing h with
  | lost hfinds => exact .inr ⟨_, rfl, hfinds.misses⟩
  | speechless hfinds hx =>
    cases hfinds
    exact .inr ⟨_, rfl, misses_route (measurable_of_foreign
      (wholeSeconds_error (endless_of_command hx)))⟩
  | @staffed _ _ _ _ pods hfinds hcommand hlists =>
    cases hfinds with
    | found hhost =>
      cases pods with
      | error x => exact .inr ⟨x, rfl, hlists.misses.cons_route⟩
      | ok pods =>
        cases hlists with
        | enough hnames henough => exact .inl ⟨_, rfl, .found hhost hcommand hnames henough⟩

end Load
end IngressBench
