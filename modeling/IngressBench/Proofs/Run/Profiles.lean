import IngressBench.Proofs.Run.Register
import IngressBench.Proofs.Run.Sample
import Mathlib.Data.List.Destutter

/-!
Tuning profiles follow the test cases. A run remembers one profile, the one that it applied last; test
cases without a profile neither use nor forget it. So the profiles that a run applies are those of its
test cases with the empty ones dropped and equal neighbours collapsed (`profiles`, `due_fresh`), up to
the first profile that is refused; and whoever measures a test case that names a profile finds it
applied (`start_follows_profiles`).
-/
namespace IngressBench

/-! ### Reading a register -/

namespace HelperCall

/-- The profile that is to be applied, and how that ended. -/
def tuning? : HelperCall → Option (String × Except Failure Unit)
  | tuned profile outcome => some (profile, outcome)
  | _ => none

/-- The profile that is to be applied. -/
def profile? : HelperCall → Option String
  | tuned profile _ => some profile
  | _ => none

/-- The profile that has been applied. -/
def applied? : HelperCall → Option String
  | tuned profile (.ok ()) => some profile
  | _ => none

/-- The test case that is measured. -/
def case? : HelperCall → Option TestCase
  | measured c _ => some c
  | _ => none

end HelperCall

open HelperCall

/-- The last tuning of a register, or the one before if there is none. -/
def latest (before : String × Except Failure Unit) (calls : List HelperCall) :
    String × Except Failure Unit :=
  (calls.filterMap tuning?).getLast?.getD before

@[simp] theorem latest_append (before : String × Except Failure Unit)
    (calls later : List HelperCall) :
    latest before (calls ++ later) = latest (latest before calls) later := by
  unfold latest
  rw [List.filterMap_append, List.getLast?_append]
  cases (later.filterMap tuning?).getLast? <;> rfl

namespace Plan

variable {τ : Type}

/-! ### The profiles of test cases -/

/-- The profiles that test cases ask for: the empty names are dropped, and of equal neighbours one is
left. -/
def profiles (cases : List TestCase) : List String :=
  ((cases.map TestCase.tuning).filter (· ≠ "")).destutter (· ≠ ·)

/-- The profiles that are still to be applied, by the one that is applied already. -/
def due (applied : String) : List TestCase → List String
  | [] => []
  | c :: rest =>
    if c.tuning = "" ∨ c.tuning = applied then due applied rest else c.tuning :: due c.tuning rest

theorem due_idle {applied : String} {c : TestCase} {rest : List TestCase}
    (h : c.tuning = "" ∨ c.tuning = applied) : due applied (c :: rest) = due applied rest :=
  if_pos h

theorem due_new {applied : String} {c : TestCase} {rest : List TestCase}
    (h : ¬ (c.tuning = "" ∨ c.tuning = applied)) :
    due applied (c :: rest) = c.tuning :: due c.tuning rest :=
  if_neg h

theorem due_applied {applied : String} (happlied : applied ≠ "") (cases : List TestCase) :
    ((cases.map TestCase.tuning).filter (· ≠ "")).destutter' (· ≠ ·) applied =
      applied :: due applied cases := by
  induction cases generalizing applied with
  | nil => rfl
  | cons c rest ih =>
    rw [List.map_cons]
    by_cases hempty : c.tuning = ""
    · rw [List.filter_cons_of_neg (by simp [hempty]), due_idle (.inl hempty)]
      exact ih happlied
    rw [List.filter_cons_of_pos (by simp [hempty])]
    by_cases hsame : c.tuning = applied
    · rw [List.destutter'_cons_neg _ (by simp [hsame]), due_idle (.inr hsame)]
      exact ih happlied
    · rw [List.destutter'_cons_pos _ (fun h => hsame h.symm), due_new (by simp [hempty, hsame]),
        ih hempty]

/-- **Before anything is applied all profiles of the test cases are due.** -/
theorem due_fresh (cases : List TestCase) : due "" cases = profiles cases := by
  induction cases with
  | nil => rfl
  | cons c rest ih =>
    unfold profiles
    rw [List.map_cons]
    by_cases hempty : c.tuning = ""
    · rw [List.filter_cons_of_neg (by simp [hempty]), due_idle (.inl hempty)]
      exact ih
    · rw [List.filter_cons_of_pos (by simp [hempty]), due_new (by simp [hempty]),
        List.destutter_cons', due_applied hempty]

example : profiles [{ tuning := "a" }, {}, { tuning := "a" }, { tuning := "b" }, { tuning := "a" }] =
    ["a", "b", "a"] := by decide

/-! ### One test case -/

/-- What one test case enters, as far as tuning and measuring go: it was not begun, its profile was
refused, or it was measured with its profile applied. -/
inductive CaseTuning (c : TestCase) (applied : String) :
    List HelperCall → Except Failure Unit → String → Prop
  | unscaled {x : Failure} : CaseTuning c applied [] (.error x) applied
  | refused {x : Failure} (h : ¬ (c.tuning = "" ∨ c.tuning = applied)) :
      CaseTuning c applied [.tuned c.tuning (.error x)] (.error x) applied
  | measured {tuning after : List HelperCall} {outcome : Except Failure (List Result)}
      {r : Except Failure Unit} {applied' : String}
      (htuning : TuneCalls c applied tuning (.ok ()) applied')
      (hafter : ∀ e ∈ after, e.tuning? = none ∧ e.case? = none) :
      CaseTuning c applied (tuning ++ .measured c outcome :: after) r applied'

variable {p : Plan τ} {c : TestCase} {applied applied' : String} {calls : List HelperCall}
  {r : Except Failure Unit} {cases : List TestCase}

theorem CaseCalls.tuning (h : CaseCalls p c applied calls r applied') :
    CaseTuning c applied calls r applied' := by
  have hnone : ∀ e ∈ ([] : List HelperCall), e.tuning? = none ∧ e.case? = none :=
    fun _ h => absurd h List.not_mem_nil
  cases h with
  | unscaled => exact .unscaled
  | untuned htuning =>
    cases htuning with
    | refused h => exact .refused h
  | unmeasured htuning => exact .measured htuning hnone
  | warm htuning _ => exact .measured htuning hnone
  | judged htuning _ hjudging _ =>
    refine .measured htuning fun e he => ?_
    cases hjudging with
    | unjudged _ => exact hnone e he
    | judged _ =>
      obtain rfl := List.mem_singleton.mp he
      exact ⟨rfl, rfl⟩
    | failed _ =>
      obtain rfl := List.mem_singleton.mp he
      exact ⟨rfl, rfl⟩

/-- A reading that sees tunings only, of a test case that was measured. -/
theorem filterMap_measured {β : Type} {read : HelperCall → Option β}
    (hread : ∀ e, e.tuning? = none → read e = none) {tuning after : List HelperCall}
    {outcome : Except Failure (List Result)}
    (hafter : ∀ e ∈ after, e.tuning? = none ∧ e.case? = none) :
    (tuning ++ .measured c outcome :: after).filterMap read = tuning.filterMap read := by
  have hrest : (HelperCall.measured c outcome :: after).filterMap read = [] := by
    refine List.filterMap_eq_nil_iff.mpr fun e he => hread e ?_
    rcases List.mem_cons.mp he with rfl | he
    · rfl
    · exact (hafter e he).1
  rw [List.filterMap_append, hrest, List.append_nil]

theorem profile?_of_tuning? {e : HelperCall} (h : e.tuning? = none) : e.profile? = none := by
  cases e with
  | tuned profile outcome => cases h
  | _ => rfl

theorem applied?_of_tuning? {e : HelperCall} (h : e.tuning? = none) : e.applied? = none := by
  cases e with
  | tuned profile outcome => cases h
  | _ => rfl

/-! ### All test cases -/

/-- Profiles are applied in the order in which they are due. -/
theorem CasesCalls.inOrder (h : CasesCalls p cases applied calls r applied') :
    calls.filterMap profile? <+: due applied cases := by
  induction h with
  | none => exact List.prefix_refl _
  | @broken c rest _ _ _ _ first =>
    cases first.tuning with
    | unscaled => exact List.nil_prefix
    | refused h =>
      rw [due_new (c := c) h]
      exact List.prefix_append [_] _
    | measured htuning hafter =>
      rw [filterMap_measured (fun _ => profile?_of_tuning?) hafter]
      cases htuning with
      | idle _ => exact List.nil_prefix
      | applied h =>
        rw [due_new (c := c) h]
        exact List.prefix_append [_] _
  | @more c rest _ _ _ _ _ _ first _ ih =>
    rw [List.filterMap_append]
    cases first.tuning with
    | measured htuning hafter =>
      rw [filterMap_measured (fun _ => profile?_of_tuning?) hafter]
      cases htuning with
      | idle h =>
        rw [due_idle (c := c) h]
        exact ih
      | applied h =>
        rw [due_new (c := c) h]
        exact (List.prefix_cons_inj _).mpr ih

theorem TuneCalls.case? {tuning : List HelperCall} (h : TuneCalls c applied tuning r applied') :
    tuning.filterMap HelperCall.case? = [] := by
  cases h <;> rfl

/-- The test cases that are measured in a row of calls of one test case. -/
theorem CaseTuning.case? (h : CaseTuning c applied calls r applied') :
    calls.filterMap HelperCall.case? = [] ∧ (∃ x, r = .error x) ∨
      calls.filterMap HelperCall.case? = [c] := by
  cases h with
  | @unscaled x => exact .inl ⟨rfl, x, rfl⟩
  | @refused x _ => exact .inl ⟨rfl, x, rfl⟩
  | measured htuning hafter =>
    have hrest := List.filterMap_eq_nil_iff.mpr fun e he => (hafter e he).2
    refine .inr ?_
    rw [List.filterMap_append, htuning.case?]
    exact congrArg (c :: ·) hrest

/-- **When every test case has been measured every profile that was due has been applied.** -/
theorem CasesCalls.complete (h : CasesCalls p cases applied calls r applied')
    (hall : calls.filterMap HelperCall.case? = cases.map (·.forRun p.run)) :
    calls.filterMap profile? = due applied cases := by
  induction h with
  | none => rfl
  | @broken c rest _ _ _ _ first =>
    rcases first.tuning.case? with ⟨hnone, -⟩ | hone
    · rw [hnone] at hall
      cases hall
    · rw [hone] at hall
      obtain rfl : rest = [] := by simpa using hall
      cases first.tuning with
      | unscaled => cases hone
      | refused h => cases hone
      | measured htuning hafter =>
        rw [filterMap_measured (fun _ => profile?_of_tuning?) hafter]
        cases htuning with
        | idle h =>
          rw [due_idle (c := c) h]
          rfl
        | applied h =>
          rw [due_new (c := c) h]
          rfl
  | @more c rest _ _ _ _ _ _ first _ ih =>
    rw [List.filterMap_append] at hall ⊢
    rcases first.tuning.case? with ⟨-, x, hx⟩ | hone
    · cases hx
    rw [hone] at hall
    have hrest := ih (List.cons.inj hall).2
    cases first.tuning with
    | measured htuning hafter =>
      rw [filterMap_measured (fun _ => profile?_of_tuning?) hafter, hrest]
      cases htuning with
      | idle h => exact (due_idle (c := c) h).symm
      | applied h => exact (due_new (c := c) h).symm

/-- When no test case fails all of them have been measured. -/
theorem CasesCalls.measured (h : CasesCalls p cases applied calls (.ok ()) applied') :
    calls.filterMap HelperCall.case? = cases.map (·.forRun p.run) := by
  generalize hr : (.ok () : Except Failure Unit) = r at h
  induction h with
  | none => rfl
  | broken first => cases hr
  | more first _ ih =>
    rw [List.filterMap_append, ih hr]
    rcases first.tuning.case? with ⟨-, x, hx⟩ | hone
    · cases hx
    · rw [hone]
      rfl

/-- The profile that a run remembers is the one that was applied last. -/
theorem CasesCalls.current (h : CasesCalls p cases applied calls r applied') :
    applied' = (calls.filterMap applied?).getLast?.getD applied := by
  have hcase : ∀ {c : TestCase} {applied : String} {calls : List HelperCall}
      {r : Except Failure Unit} {applied' : String}, CaseTuning c applied calls r applied' →
        applied' = (calls.filterMap applied?).getLast?.getD applied := by
    intro c applied calls r applied' h
    cases h with
    | unscaled => rfl
    | refused _ => rfl
    | measured htuning hafter =>
      rw [filterMap_measured (fun _ => applied?_of_tuning?) hafter]
      cases htuning <;> rfl
  induction h with
  | none => rfl
  | broken first => exact hcase first.tuning
  | more first _ ih =>
    rw [ih, hcase first.tuning, List.filterMap_append, List.getLast?_append]
    cases (List.filterMap applied? _).getLast? <;> rfl

/-- After a row of calls that went well the profile that is remembered is the one of the last tuning.
-/
theorem CaseTuning.latest (h : CaseTuning c applied calls (.ok ()) applied') :
    latest (applied, .ok ()) calls = (applied', .ok ()) := by
  cases h with
  | measured htuning hafter =>
    unfold IngressBench.latest
    rw [filterMap_measured (fun _ => id) hafter]
    cases htuning <;> rfl

/-- **Whoever measures a test case that names a profile finds it applied.** -/
theorem CaseTuning.matched {before after : List HelperCall} {c' : TestCase}
    {outcome : Except Failure (List Result)} (h : CaseTuning c applied calls r applied')
    (hsplit : calls = before ++ .measured c' outcome :: after) (hnamed : c'.tuning ≠ "") :
    IngressBench.latest (applied, .ok ()) before = (c'.tuning, .ok ()) := by
  cases h with
  | unscaled => simp at hsplit
  | refused _ =>
    rcases List.singleton_eq_append_iff.mp hsplit with ⟨-, h⟩ | ⟨-, h⟩ <;> cases h
  | measured htuning hafter =>
    rcases append_eq_append_cons hsplit with ⟨between, rfl, -⟩ | ⟨between, rfl, hrest⟩
    · -- Nobody measures while a profile is applied.
      cases List.filterMap_eq_nil_iff.mp htuning.case? (.measured c' outcome) (by simp)
    · cases between with
      | nil =>
        obtain ⟨hc, -⟩ := List.cons.inj hrest
        cases hc
        rw [List.append_nil]
        cases htuning with
        | idle h => exact Prod.ext (h.resolve_left hnamed).symm rfl
        | applied _ => rfl
      | cons e between =>
        have hmem := (hafter (.measured c' outcome)
          (by rw [(List.cons.inj hrest).2]; exact List.mem_append_right _ List.mem_cons_self)).2
        cases hmem

theorem CasesCalls.matched {before after : List HelperCall} {c : TestCase}
    {outcome : Except Failure (List Result)} (h : CasesCalls p cases applied calls r applied')
    (hsplit : calls = before ++ .measured c outcome :: after) (hnamed : c.tuning ≠ "") :
    IngressBench.latest (applied, .ok ()) before = (c.tuning, .ok ()) := by
  induction h generalizing before with
  | none => simp at hsplit
  | broken first => exact first.tuning.matched hsplit hnamed
  | more first _ ih =>
    rcases append_eq_append_cons hsplit with ⟨between, hfirst, -⟩ | ⟨between, rfl, hrest⟩
    · exact first.tuning.matched hfirst hnamed
    · rw [latest_append, first.tuning.latest]
      exact ih hrest

/-- **A profile that is refused is the last call of a helper**, and the failure ends the test cases. -/
theorem CasesCalls.refused {before after : List HelperCall} {profile : String} {x : Failure}
    (h : CasesCalls p cases applied calls r applied')
    (hsplit : calls = before ++ .tuned profile (.error x) :: after) :
    after = [] ∧ r = .error x := by
  have hcase : ∀ {c : TestCase} {applied : String} {calls : List HelperCall}
      {r : Except Failure Unit} {applied' : String} {before after : List HelperCall},
      CaseTuning c applied calls r applied' →
        calls = before ++ .tuned profile (.error x) :: after → after = [] ∧ r = .error x := by
    intro c applied calls r applied' before after h hsplit
    cases h with
    | unscaled => simp at hsplit
    | refused _ =>
      rcases List.singleton_eq_append_iff.mp hsplit with ⟨-, h⟩ | ⟨-, h⟩
      · cases h
        exact ⟨rfl, rfl⟩
      · cases h
    | measured htuning hafter =>
      have hmem : HelperCall.tuned profile (.error x) ∈ before ++ .tuned profile (.error x) :: after :=
        List.mem_append_right _ List.mem_cons_self
      rw [← hsplit] at hmem
      rcases List.mem_append.mp hmem with hmem | hmem
      · cases htuning with
        | idle _ => cases hmem
        | applied _ => cases List.mem_singleton.mp hmem
      · rcases List.mem_cons.mp hmem with hmem | hmem
        · cases hmem
        · cases (hafter _ hmem).1
  induction h generalizing before with
  | none => simp at hsplit
  | broken first => exact hcase first.tuning hsplit
  | more first _ ih =>
    rcases append_eq_append_cons hsplit with ⟨between, hfirst, rfl⟩ | ⟨between, rfl, hrest⟩
    · cases (hcase first.tuning hfirst).2
    · exact ih hrest

/-! ### A whole start -/

/-- How tuning profiles follow the test cases: the calls of helpers that a start makes, what it ends
with, and its last state. -/
structure FollowsProfiles (p : Plan τ) (calls : List HelperCall) (outcome : Except Failure Unit)
    (final : RunState) : Prop where
  /-- The profiles that are to be applied are the first ones of those of the test cases. -/
  inOrder : calls.filterMap profile? <+: profiles p.cases
  /-- They are all of them when every test case is measured. -/
  complete : calls.filterMap HelperCall.case? = p.cases.map (·.forRun p.run) →
    calls.filterMap profile? = profiles p.cases
  /-- A run that goes beyond its test cases has measured all of them. -/
  measured : final.phase.isOpen = false →
    calls.filterMap HelperCall.case? = p.cases.map (·.forRun p.run)
  /-- When a test case that names a profile is measured, the last call of the tuner was for this
  profile and ended well. -/
  matched : ∀ before c result after, calls = before ++ .measured c result :: after →
    c.tuning ≠ "" → (before.filterMap tuning?).getLast? = some (c.tuning, .ok ())
  /-- A profile that is refused is the last thing that any helper is asked for, and the start ends
  with this failure. -/
  refused : ∀ before profile x after, calls = before ++ .tuned profile (.error x) :: after →
    after = [] ∧ outcome = .error x
  /-- The profile that the run remembers is the one that was applied last. -/
  current : final.tuning = (calls.filterMap applied?).getLast?.getD ""

theorem CasesCalls.follows {final : RunState} {outcome : Except Failure Unit}
    (h : CasesCalls p p.cases "" calls r final.tuning) (hfailed : ∀ x, r = .error x → outcome = r)
    (hphase : final.phase.isOpen = false → r = .ok ()) : FollowsProfiles p calls outcome final where
  inOrder := due_fresh p.cases ▸ h.inOrder
  complete hall := due_fresh p.cases ▸ h.complete hall
  measured hclosed := by
    rw [hphase hclosed] at h
    exact h.measured
  matched before c result after hsplit hnamed := by
    have hlatest := h.matched hsplit hnamed
    unfold latest at hlatest
    cases hlast : (before.filterMap tuning?).getLast? with
    | some last =>
      rw [hlast] at hlatest
      exact congrArg some hlatest
    | none =>
      -- Before anything is applied no profile counts as applied.
      rw [hlast] at hlatest
      exact absurd (congrArg Prod.fst hlatest).symm hnamed
  refused before profile x after hsplit := by
    obtain ⟨hlast, hr⟩ := h.refused hsplit
    exact ⟨hlast, (hfailed x hr).trans hr⟩
  current := h.current

/-- Test cases of which nothing was entered. -/
theorem CasesCalls.unbegun (p : Plan τ) (cases : List TestCase) (applied : String) (x : Failure) :
    ∃ r, CasesCalls p cases applied [] r applied ∧ ∀ y, r = .error y → r = .error x := by
  cases cases with
  | nil => exact ⟨.ok (), .none, fun _ h => nomatch h⟩
  | cons c rest => exact ⟨.error x, .broken .unscaled, fun _ _ => rfl⟩

theorem StartCalls.follows {outcome : Except Failure Unit} {final : RunState}
    (h : StartCalls p "" calls outcome final) : FollowsProfiles p calls outcome final := by
  cases h with
  | @unopened x _ hphase htuning =>
    obtain ⟨r, hcases, hfailed⟩ := CasesCalls.unbegun p p.cases final.tuning x
    rw [htuning] at hcases
    refine CasesCalls.follows (htuning ▸ hcases) (fun y hy => (hfailed y hy).symm) fun hclosed => ?_
    cases hphase.symm.trans hclosed
  | broken hcases hphase =>
    refine hcases.follows (fun _ _ => rfl) fun hclosed => ?_
    rw [hphase] at hclosed
    cases hclosed
  | closed hcases => exact hcases.follows (fun _ h => nomatch h) fun _ => rfl

/-- **Tuning profiles follow the test cases**, whatever the helpers of the run do: a start does what
the start with a register does, and its register tells that every test case was measured with its own
profile applied. Where the helpers are in the surroundings, the register is what the events tell. -/
theorem start_follows_profiles [TimeScale τ] {σ : Type} (p : Plan τ) (w : World τ σ) (now : τ)
    (world : σ) (session : Option Session) (sink : Option Sink) :
    let run := w.trace now world (p.startEntered.perform (.fresh session sink, []))
    w.trace now world (p.start.perform (.fresh session sink)) = ((run.1.1, run.1.2.1), run.2) ∧
      FollowsProfiles p run.1.2.2 run.1.1 run.1.2.1 ∧
      (p.team.Observed → p.team.tune = Outside.tune →
        run.2.filterMap Event.helper? = run.1.2.2) := by
  intro run
  have hleaves : p.startEntered.Leaves (.fresh session sink, []) run.2 run.1.1
      (run.1.2.1, run.1.2.2) := w.trace_leaves now world _
  refine ⟨(startWith_shadows call? p).trace_eq w now world _ [], ?_, fun hp htune => ?_⟩
  · exact StartCalls.follows (startEntered_leaves (s := .fresh session sink) rfl hleaves)
  · obtain ⟨new, hnew, hread⟩ := startEntered_told hp htune _ _ _ _ _ _ hleaves
    exact hread.trans hnew.symm

/-- Where everything succeeds a profile is applied when it comes up, and once more when it comes
back. -/
theorem start_follows_profiles_ideal :
    let p := Sample.plan [{ tuning := "a" }, {}, { tuning := "a" }, { tuning := "b" }, { tuning := "a" }]
    let run := Sample.ideal.trace 0 {} (p.startEntered.perform (.fresh none none, []))
    FollowsProfiles p run.1.2.2 run.1.1 run.1.2.1 ∧
      run.2.filterMap Event.helper? = run.1.2.2 ∧
      run.1.2.2.filterMap profile? = ["a", "b", "a"] :=
  have hfollows := start_follows_profiles _ Sample.ideal 0 {} none none
  ⟨hfollows.2.1, hfollows.2.2 Sample.team_observed rfl, by decide +kernel⟩

end Plan
end IngressBench
