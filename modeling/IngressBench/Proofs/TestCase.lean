import IngressBench.Proofs.Outcome
import IngressBench.TestCase

/-!
What accepted test cases have in common. A test case that was read from named values keeps within the
bounds of its fields, whichever of them were given and whichever stayed at their defaults
(`TestCase.Accepted.valid`), and so does its copy for a run.
-/
namespace IngressBench

/-! ### Readings that ensure something -/

namespace Record

variable {α β : Type} {V : α → Prop} {W : β → Prop}

/-- The value that the reading ends with satisfies `V`, whether there were issues or not. -/
def Ensures (m : Intake α) (V : α → Prop) : Prop :=
  ∀ issues v found, m.run issues = .ok (v, found) → V v

theorem ensures_true (m : Intake α) : Ensures m fun _ => True :=
  fun _ _ _ _ => trivial

theorem ensures_pure {v : α} (h : V v) : Ensures (pure v : Intake α) V := by
  intro issues w found hrun
  cases hrun
  exact h

theorem ensures_throw (x : Failure) : Ensures (throw x : Intake α) V := by
  intro issues v found hrun
  cases hrun

theorem ensures_bind {m : Intake α} {f : α → Intake β} (hm : Ensures m V)
    (hf : ∀ v, V v → Ensures (f v) W) : Ensures (m >>= f) W := by
  intro issues b found hrun
  rw [StateT.run_bind] at hrun
  obtain ⟨first, hfirst, hrest⟩ := bind_eq_ok_iff.mp hrun
  exact hf first.1 (hm issues first.1 first.2 hfirst) first.2 b found hrest

/-- A reading whose value does not matter for what comes after it. -/
theorem ensures_after {m : Intake α} {f : α → Intake β} (hf : ∀ v, Ensures (f v) W) :
    Ensures (m >>= f) W :=
  ensures_bind (ensures_true m) fun v _ => hf v

/-- The default satisfies `V`, and so does every value that is accepted. -/
theorem ensures_optionalBy {fields : Fields} {names : List String} {default : α}
    {read : Document → Except Cause α} (hdefault : V default)
    (hread : ∀ d v, read d = .ok v → V v) : Ensures (optionalBy fields names default read) V := by
  unfold optionalBy
  split
  · exact ensures_pure hdefault
  · split
    · rename_i hok
      exact ensures_pure (hread _ _ hok)
    · exact ensures_after fun _ => ensures_pure hdefault

theorem Ensures.finish {m : Intake α} (h : Ensures m V) {title : String} {v : α}
    (hv : Record.finish title m = .ok v) : V v := by
  obtain ⟨⟨w, issues⟩, hrun, hread⟩ := bind_eq_ok_iff.mp hv
  dsimp only at hread
  split at hread
  · cases hread
    exact h [] _ issues hrun
  · cases hread

theorem atLeast_le {least i : Int} {d : Document} (h : atLeast least d = .ok i) : least ≤ i := by
  obtain ⟨j, -, hj⟩ := bind_eq_ok_iff.mp h
  split at hj
  · cases hj
  · cases hj
    omega

theorem positive_lt {x y : Float} (h : positive x = .ok y) : 0 < y := by
  unfold positive at h
  split at h
  · cases h
    assumption
  · cases h

theorem nonnegative_le {x y : Float} (h : nonnegative x = .ok y) : 0 ≤ y := by
  unfold nonnegative at h
  split at h
  · cases h
    assumption
  · cases h

end Record

/-! ### Test cases -/

namespace TestCase

open Record

/-- The bounds of a test case. -/
structure Valid (c : TestCase) : Prop where
  samples : 1 ≤ c.samples
  duration : 0 < c.duration
  concurrency : 1 ≤ c.concurrency
  procs : 1 ≤ c.procs
  connections : 1 ≤ c.connections
  serverReplicas : 1 ≤ c.serverReplicas
  requestTimeout : 0 < c.requestTimeout
  delay : 0 ≤ c.delay

/-- A test case that was read from named values, or the copy of one for a run. -/
inductive Accepted : TestCase → Prop
  | read {fields : Fields} {c : TestCase} (h : ofFields fields = .ok c) : Accepted c
  | forRun {c : TestCase} (h : Accepted c) (run : String) : Accepted (c.forRun run)

theorem asCount_le {d : Document} {n : Nat} (h : asCount d = .ok n) : 1 ≤ n := by
  obtain ⟨i, hi, rfl⟩ := map_eq_ok_iff.mp h
  have := atLeast_le hi
  omega

theorem ensures_count (fields : Fields) (names : List String) {default : Nat}
    (hdefault : 1 ≤ default) : Ensures (optionalBy fields names default asCount) (1 ≤ ·) :=
  ensures_optionalBy hdefault fun _ _ => asCount_le

/-- A duration that is read is within its bound, as its default is. -/
theorem ensures_durationField {V : Float → Prop} (fields : Fields) (name : String) {default : Float}
    {bound : Float → Except Cause Float} (hdefault : V default)
    (hbound : ∀ x y, bound x = .ok y → V y) :
    Ensures (durationField fields name default bound) V := by
  unfold durationField
  split
  · exact ensures_pure hdefault
  · split
    · exact ensures_after fun _ => ensures_pure hdefault
    · exact ensures_throw _
    · split
      · rename_i hok
        exact ensures_pure (hbound _ _ hok)
      · exact ensures_after fun _ => ensures_pure hdefault

theorem ensures_intake (fields : Fields) : Ensures (intake fields) Valid := by
  unfold intake
  refine ensures_after fun uuid => ensures_after fun tool => ensures_after fun termination => ?_
  refine ensures_bind (ensures_count fields _ (by decide)) fun samples hsamples => ?_
  refine ensures_bind (ensures_durationField fields _ (V := (0 < ·)) (by decide)
    fun _ _ => positive_lt) fun duration hduration => ?_
  refine ensures_after fun path => ?_
  refine ensures_bind (ensures_count fields _ (by decide)) fun concurrency hconcurrency => ?_
  refine ensures_bind (ensures_count fields _ (by decide)) fun procs hprocs => ?_
  refine ensures_bind (ensures_count fields _ (by decide)) fun connections hconnections => ?_
  refine ensures_bind (ensures_count fields _ (by decide)) fun serverReplicas hservers => ?_
  refine ensures_bind (ensures_durationField fields _ (V := (0 < ·)) (by decide)
    fun _ _ => positive_lt) fun requestTimeout htimeout => ?_
  refine ensures_bind (ensures_durationField fields _ (V := (0 ≤ ·)) (by decide)
    fun _ _ => nonnegative_le) fun delay hdelay => ?_
  refine ensures_after fun keepalive => ensures_after fun warmup => ensures_after fun tuning => ?_
  exact ensures_pure
    ⟨hsamples, hduration, hconcurrency, hprocs, hconnections, hservers, htimeout, hdelay⟩

/-- **An accepted test case keeps within its bounds.** -/
theorem Accepted.valid {c : TestCase} (h : c.Accepted) : c.Valid := by
  induction h with
  | read h => exact (ensures_intake _).finish h
  | forRun _ run ih =>
    exact ⟨ih.samples, ih.duration, ih.concurrency, ih.procs, ih.connections, ih.serverReplicas,
      ih.requestTimeout, ih.delay⟩

end TestCase
end IngressBench
