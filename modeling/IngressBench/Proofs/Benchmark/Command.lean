import IngressBench.Proofs.Benchmark.Routers
import IngressBench.Proofs.Decimal.Binary
import IngressBench.Proofs.Decimal.Reading
import IngressBench.Proofs.TestCase

/-!
What becomes of the duration of a test case. Command lines and the query for the routers tell the same
whole number of seconds (`TestCase.Loads`). An accepted test case makes a real load, of at least one
second, exactly when its duration is at least a second and has an end (`TestCase.realLoad_iff`): what
is shorter is cut to a load of no seconds (`TestCase.loads_zero`), and there is no command for a
duration without end (`TestCase.commandFor_endless`).
-/
namespace IngressBench

/-! ### Whole seconds -/

theorem wholeSeconds_eq_ok_iff {x : Float} {n : Int} :
    wholeSeconds x = .ok n ↔ ∃ a, Binary.ofFloat? x = some a ∧ a.truncated = n := by
  unfold wholeSeconds
  cases Binary.ofFloat? x with
  | some a => simp
  | none =>
    simp only [reduceCtorEq, false_and, exists_false, iff_false]
    split <;> exact nofun

/-- A duration is cut to at least one second when it is at least a second and has an end. -/
theorem one_le_wholeSeconds_iff {x : Float} (hpos : 0 < x) :
    (∃ n, 1 ≤ n ∧ wholeSeconds x = .ok n) ↔ 1 ≤ x ∧ x.isFinite = true := by
  simp only [wholeSeconds_eq_ok_iff, Binary.isFinite_iff]
  constructor
  · rintro ⟨n, hn, a, ha, rfl⟩
    have hvalue : 0 < a.value := (Binary.pos_iff_value ha).mp hpos
    rw [Binary.truncated_of_nonneg hvalue.le, Int.le_floor, Int.cast_one] at hn
    exact ⟨(Binary.one_le_iff_value ha).mpr hn, a, ha⟩
  · rintro ⟨hone, a, ha⟩
    have hvalue : 1 ≤ a.value := (Binary.one_le_iff_value ha).mp hone
    refine ⟨a.truncated, ?_, a, ha, rfl⟩
    rw [Binary.truncated_of_nonneg (zero_le_one.trans hvalue), Int.le_floor, Int.cast_one]
    exact hvalue

/-- A duration of less than a second is cut to nothing. -/
theorem wholeSeconds_of_lt_one {x : Float} (hpos : 0 < x) (hlt : x < 1) :
    wholeSeconds x = .ok 0 := by
  obtain ⟨a, ha⟩ := Binary.isFinite_iff.mp (Binary.isFinite_of_lt_of_lt hpos hlt)
  have hvalue : 0 ≤ a.value := ((Binary.pos_iff_value ha).mp hpos).le
  refine wholeSeconds_eq_ok_iff.mpr ⟨a, ha, ?_⟩
  rw [Binary.truncated_of_nonneg hvalue, Int.floor_eq_zero_iff]
  exact ⟨hvalue, (Binary.lt_one_iff_value ha).mp hlt⟩

/-- A duration without end is not cut to a whole number. -/
theorem wholeSeconds_of_not_isFinite {x : Float} (hpos : 0 < x) (h : x.isFinite = false) :
    wholeSeconds x = .error (.overflow "cannot convert float infinity to integer") := by
  cases ha : Binary.ofFloat? x with
  | some a =>
    rw [Binary.isFinite_iff.mpr ⟨a, ha⟩] at h
    cases h
  | none =>
    unfold wholeSeconds
    rw [ha, Binary.isNaN_of_pos hpos]
    rfl

namespace TestCase

/-! ### Loads -/

/-- Every command line asks for a load of so many seconds, and the processor time of the routers is one
query over as many. -/
structure Loads (c : TestCase) (seconds : Int) : Prop where
  commands : ∀ tool url, ∃ command, c.commandFor url tool = .ok command ∧
    ["-d", s!"{seconds}s"] <:+: command
  query : ∀ (τ : Type) server,
    ∃ (lines : Except HttpFault HttpAnswer → List (Level × String))
      (outcome : Except HttpFault HttpAnswer → Except Failure (Option Float)),
      (Load.routerCpu server c : Action τ (Option Float)).run =
        .call (.ask (.http (server.request (Load.routerQuery seconds)))) fun reply =>
          .telling (lines reply) (.done (outcome reply))

/-- A load of at least one second. -/
def RealLoad (c : TestCase) : Prop :=
  ∃ seconds, 1 ≤ seconds ∧ c.Loads seconds

variable {c : TestCase} {seconds : Int}

theorem commands_of_wholeSeconds (h : wholeSeconds c.duration = .ok seconds) (tool : Tool)
    (url : String) : ∃ command, c.commandFor url tool = .ok command ∧
      ["-d", s!"{seconds}s"] <:+: command := by
  cases tool with
  | wrk =>
    refine ⟨_, bind_eq_of_ok h rfl, ?_⟩
    exact ⟨["wrk", "-s", "json.lua", "-c", toString c.connections, "-t", "1"], _, rfl⟩
  | hloader =>
    refine ⟨_, bind_eq_of_ok h rfl, ?_⟩
    exact ⟨["hloader", "-u", url, "-c", toString c.connections], _, rfl⟩

/-- The whole seconds of the duration are what is asked for. -/
theorem loads_of_wholeSeconds (h : wholeSeconds c.duration = .ok seconds) : c.Loads seconds where
  commands := commands_of_wholeSeconds h
  query := fun _ _ => ⟨_, _, Load.routerCpu_run h⟩

theorem routerQuery_inj {n m : Int} (h : Load.routerQuery n = Load.routerQuery m) : n = m := by
  have htext : toString n = toString m :=
    (String.append_right_inj _).mp ((String.append_left_inj _).mp h)
  exact toString_int_inj htext

/-- What is asked for are the whole seconds of the duration, and nothing else. -/
theorem Loads.wholeSeconds_eq (h : c.Loads seconds) : wholeSeconds c.duration = .ok seconds := by
  obtain ⟨command, hcommand, -⟩ := h.commands .wrk ""
  obtain ⟨cut, hcut, -⟩ := bind_eq_ok_iff.mp hcommand
  have hquery : Load.routerQuery cut = Load.routerQuery seconds := by
    obtain ⟨_, _, hrun⟩ := h.query Unit { url := "" }
    rw [Load.routerCpu_run hcut] at hrun
    injection hrun with hcall
    injection hcall with hquestion
    injection hquestion with hhttp
    exact congrArg HttpCall.query hhttp
  rw [hcut, routerQuery_inj hquery]

theorem loads_iff : c.Loads seconds ↔ wholeSeconds c.duration = .ok seconds :=
  ⟨Loads.wholeSeconds_eq, loads_of_wholeSeconds⟩

/-- A duration of less than a second makes a load of none. -/
theorem loads_zero (h : c.Accepted) (hlt : c.duration < 1) : c.Loads 0 :=
  loads_of_wholeSeconds (wholeSeconds_of_lt_one h.valid.duration hlt)

/-- For a duration without end there is no command at all. -/
theorem commandFor_endless (h : c.Accepted) (hend : c.duration.isFinite = false) (url : String)
    (tool : Tool) : c.commandFor url tool =
      .error (.overflow "cannot convert float infinity to integer") := by
  have hseconds := wholeSeconds_of_not_isFinite h.valid.duration hend
  cases tool with
  | wrk => exact bind_eq_error_iff.mpr (.inl hseconds)
  | hloader => exact bind_eq_error_iff.mpr (.inl hseconds)

/-- **A load is a real one exactly when the duration is at least a second and has an end.** -/
theorem realLoad_iff (h : c.Accepted) :
    c.RealLoad ↔ 1 ≤ c.duration ∧ c.duration.isFinite = true := by
  unfold RealLoad
  simp only [loads_iff]
  exact one_le_wholeSeconds_iff h.valid.duration

/-- A test case of a minute and a half. -/
def lasting : TestCase :=
  { tool := .hloader, duration := 90, given := ["tool", "duration"] }

theorem realLoad_lasting : lasting.Accepted ∧ lasting.RealLoad := by
  have hread : ofFields [("tool", .text "hloader"), ("duration", .text "1.5m")] = .ok lasting := by
    rfl
  exact ⟨.read hread, (realLoad_iff (.read hread)).mpr (by decide)⟩

/-- A test case of half a second. -/
def fleeting : TestCase :=
  { duration := 0.5, given := ["duration"] }

/-- **Half a second is accepted, and no load at all.** -/
theorem not_realLoad : fleeting.Accepted ∧ ¬ fleeting.RealLoad := by
  have hread : ofFields [("duration", .text "500ms")] = .ok fleeting := by rfl
  refine ⟨.read hread, ?_⟩
  rintro ⟨seconds, hone, hloads⟩
  have hzero : wholeSeconds fleeting.duration = .ok 0 := wholeSeconds_of_lt_one (by decide) (by decide)
  rw [hloads.wholeSeconds_eq] at hzero
  cases hzero
  omega

end TestCase
end IngressBench
