import IngressBench.Benchmark.Aggregate
import IngressBench.Proofs.Outcome
import Mathlib.Algebra.Order.BigOperators.Group.List
import Mathlib.Algebra.Order.Field.Rat
import Mathlib.Data.List.MinMax
import Mathlib.Data.Rat.Floor
import Mathlib.Order.Bounds.Lattice
import Mathlib.Tactic.NormNum

/-!
What the measurements of several outputs come to in exact arithmetic, where no sum is rounded. The
measurements of a row of outputs are told by three laws (`Aggregate.Summarizes`): counts and rates are
sums, latencies the greatest ones, and the average latency a mean. The laws determine the measurements
(`Aggregate.Summarizes.unique`) and say nothing about the order of the outputs, so it does not matter;
and they tell how the measurements of two rows make those of both (`Aggregate.Summarizes.merges`).
-/
namespace IngressBench

instance : Quantity ℚ where
  zero := 0
  add := (· + ·)
  less a b := a < b
  share a n := a / n
  whole q := .ok (if q < 0 then ⌈q⌉ else ⌊q⌋)

namespace Aggregate

variable {m a b : Measures ℚ} {name : String}

/-! ### Exact outputs -/

/-- The measurements that are counts. -/
def counted : List String := ["requests", "http_errors", "timeouts"]

/-- What a process measured: exact quantities by their names, of which any may be missing. A count
is a whole number. -/
structure Output where
  quantity? : String → Option ℚ
  whole : ∀ name ∈ counted, ∀ q, quantity? name = some q → ∃ n : ℤ, q = n

/-- A quantity of an output; a missing one is zero. -/
def Output.quantity (o : Output) (name : String) : ℚ :=
  (o.quantity? name).getD 0

/-- The measurements of exact outputs. -/
def ofExact (outputs : List Output) : Except Failure (Measures ℚ) :=
  measures (fun o name => .ok (o.quantity name)) outputs

variable {outputs others xs ys : List Output}

/-- The average latency of an output. -/
def Output.average (o : Output) : ℚ :=
  o.quantity "avg_lat_us"

/-- The quantities of outputs under a name. -/
def values (outputs : List Output) (name : String) : List ℚ :=
  outputs.map (·.quantity name)

theorem values_append (xs ys : List Output) (name : String) :
    values (xs ++ ys) name = values xs name ++ values ys name :=
  List.map_append

theorem values_perm (h : xs.Perm ys) (name : String) : (values xs name).Perm (values ys name) :=
  h.map _

theorem Output.exists_int (o : Output) (h : name ∈ counted) : ∃ n : ℤ, o.quantity name = n := by
  unfold quantity
  cases hq : o.quantity? name with
  | none => exact ⟨0, by simp⟩
  | some q => exact o.whole name h q hq

theorem exists_int_sum (h : name ∈ counted) (outputs : List Output) :
    ∃ n : ℤ, (values outputs name).sum = n := by
  induction outputs with
  | nil => exact ⟨0, by simp [values]⟩
  | cons o rest ih =>
    obtain ⟨n, hn⟩ := o.exists_int h
    obtain ⟨k, hk⟩ := ih
    refine ⟨n + k, ?_⟩
    show (o.quantity name :: values rest name).sum = _
    rw [List.sum_cons, hn, hk, Int.cast_add]

/-! ### Combining quantities -/

theorem column_exact (name : String) (outputs : List Output) :
    column (fun o name => .ok (Output.quantity o name)) name outputs =
      .ok (values outputs name) := by
  induction outputs with
  | nil => rfl
  | cons o rest ih =>
    unfold column
    rw [ih]
    rfl

theorem total_column (name : String) (outputs : List Output) :
    (column (fun o name => .ok (Output.quantity o name)) name outputs).map total =
      .ok (values outputs name).sum := by
  rw [column_exact]
  exact congrArg Except.ok List.sum_eq_foldl.symm

theorem peak_column (name : String) (outputs : List Output) :
    (column (fun o name => .ok (Output.quantity o name)) name outputs).map peak =
      .ok (peak (values outputs name)) := by
  rw [column_exact]
  rfl

/-- A sum of counts is a whole number, and its whole part the sum itself. -/
theorem whole_sum (h : name ∈ counted) (outputs : List Output) :
    ∃ n : ℤ, (values outputs name).sum = n ∧ Quantity.whole (values outputs name).sum = .ok n := by
  obtain ⟨n, hn⟩ := exists_int_sum h outputs
  have hwhole : Quantity.whole (n : ℚ) = .ok n := by simp [Quantity.whole]
  exact ⟨n, hn, (congrArg Quantity.whole hn).trans hwhole⟩

/-- The greatest quantity so far becomes the greatest of all. -/
theorem foldl_isGreatest (q : ℚ) (qs : List ℚ) :
    IsGreatest {r | r ∈ q :: qs} (qs.foldl (fun m r => if Quantity.less m r then r else m) q) := by
  induction qs generalizing q with
  | nil => simp [IsGreatest, upperBounds]
  | cons p qs ih =>
    have hnext : (if Quantity.less q p then p else q) = max q p := by
      simp [Quantity.less, max_def_lt]
    rw [List.foldl_cons, hnext]
    obtain ⟨hmem, hupper⟩ := ih (max q p)
    have hmax : max q p ≤ qs.foldl _ (max q p) := hupper List.mem_cons_self
    refine ⟨?_, fun r hr => ?_⟩
    · rcases List.mem_cons.mp hmem with hmem | hmem
      · rw [hmem]
        rcases max_choice q p with h | h <;> simp [h]
      · exact List.mem_cons_of_mem _ (List.mem_cons_of_mem _ hmem)
    · rcases List.mem_cons.mp hr with rfl | hr
      · exact (le_max_left _ _).trans hmax
      · rcases List.mem_cons.mp hr with rfl | hr
        · exact (le_max_right _ _).trans hmax
        · exact hupper (List.mem_cons_of_mem _ hr)

theorem peak_isGreatest {qs : List ℚ} (h : qs ≠ []) : IsGreatest {q | q ∈ qs} (peak qs) := by
  cases qs with
  | nil => exact absurd rfl h
  | cons q qs => exact foldl_isGreatest q qs

/-! ### The laws -/

/-- A measurement with its name. -/
structure Metric where
  name : String
  of : Measures ℚ → ℚ

/-- The measurements that add up. -/
def Metric.added : List Metric :=
  [⟨"requests", fun m => m.requests⟩, ⟨"rps", Measures.rps⟩,
    ⟨"http_errors", fun m => m.httpErrors⟩, ⟨"timeouts", fun m => m.timeouts⟩]

/-- The measurements of which the greatest counts. -/
def Metric.greatest : List Metric :=
  [⟨"max_lat_us", Measures.maxLatency⟩, ⟨"p90_lat_us", Measures.p90Latency⟩,
    ⟨"p95_lat_us", Measures.p95Latency⟩, ⟨"p99_lat_us", Measures.p99Latency⟩]

/-- The measurements of outputs. -/
structure Summarizes (outputs : List Output) (m : Measures ℚ) : Prop where
  added : ∀ x ∈ Metric.added, x.of m = (values outputs x.name).sum
  greatest : ∀ x ∈ Metric.greatest,
    IsGreatest {q | q ∈ values outputs x.name} (x.of m)
  mean : m.avgLatency = (values outputs "avg_lat_us").sum / outputs.length

/-- **Exact outputs have measurements, by the three laws.** -/
theorem ofExact_summarizes (h : outputs ≠ []) :
    ∃ m, ofExact outputs = .ok m ∧ Summarizes outputs m := by
  obtain ⟨requests, hrequests, hwhole₁⟩ := whole_sum (show "requests" ∈ counted by decide) outputs
  obtain ⟨errors, herrors, hwhole₂⟩ := whole_sum (show "http_errors" ∈ counted by decide) outputs
  obtain ⟨timeouts, htimeouts, hwhole₃⟩ := whole_sum (show "timeouts" ∈ counted by decide) outputs
  refine ⟨⟨requests, (values outputs "rps").sum,
    (values outputs "avg_lat_us").sum / outputs.length, peak (values outputs "max_lat_us"),
    peak (values outputs "p90_lat_us"), peak (values outputs "p95_lat_us"),
    peak (values outputs "p99_lat_us"), errors, timeouts⟩, ?_, ?_, ?_, rfl⟩
  · have hempty : outputs.isEmpty = false := by simpa using h
    unfold ofExact measures
    rw [hempty]
    refine bind_eq_of_ok (total_column _ _) (bind_eq_of_ok hwhole₁ ?_)
    refine bind_eq_of_ok (total_column _ _) (bind_eq_of_ok (total_column _ _) ?_)
    iterate 4 refine bind_eq_of_ok (peak_column _ _) ?_
    refine bind_eq_of_ok (total_column _ _) (bind_eq_of_ok hwhole₂ ?_)
    exact bind_eq_of_ok (total_column _ _) (bind_eq_of_ok hwhole₃ rfl)
  · simp [Metric.added, hrequests, herrors, htimeouts]
  · have hgreatest (name : String) :
        IsGreatest {q | q ∈ values outputs name} (peak (values outputs name)) :=
      peak_isGreatest (by simpa [values] using h)
    intro x hx
    simp only [Metric.greatest, List.mem_cons, List.not_mem_nil, or_false] at hx
    rcases hx with rfl | rfl | rfl | rfl <;> exact hgreatest _

namespace Summarizes

/-- The laws determine the measurements. -/
theorem unique (ha : Summarizes outputs a) (hb : Summarizes outputs b) : a = b := by
  have hadded : ∀ x ∈ Metric.added, x.of a = x.of b := fun x hx =>
    (ha.added x hx).trans (hb.added x hx).symm
  have hgreatest : ∀ x ∈ Metric.greatest, x.of a = x.of b := fun x hx =>
    (ha.greatest x hx).unique (hb.greatest x hx)
  have hmean : a.avgLatency = b.avgLatency := ha.mean.trans hb.mean.symm
  cases a
  cases b
  simp_all [Metric.added, Metric.greatest]

/-- They say nothing about the order of the outputs. -/
theorem perm (h : Summarizes outputs m) (hperm : others.Perm outputs) : Summarizes others m where
  added x hx := (h.added x hx).trans (values_perm hperm _).sum_eq.symm
  greatest x hx := by
    have hset : {q | q ∈ values others x.name} = {q | q ∈ values outputs x.name} :=
      Set.ext fun q => (values_perm hperm _).mem_iff
    rw [hset]
    exact h.greatest x hx
  mean := by rw [h.mean, (values_perm hperm _).sum_eq, hperm.length_eq]

/-- Every measurement of which the greatest counts is that of some output. -/
theorem attained (h : Summarizes outputs m) {x : Metric} (hx : x ∈ Metric.greatest) :
    ∃ o ∈ outputs, x.of m = o.quantity x.name := by
  obtain ⟨o, ho, hq⟩ := List.mem_map.mp (h.greatest x hx).1
  exact ⟨o, ho, hq.symm⟩

/-- The sum of the averages, from their mean. -/
theorem sum_average (h : Summarizes outputs m) (hne : outputs ≠ []) :
    (values outputs "avg_lat_us").sum = m.avgLatency * outputs.length := by
  have hlength : (outputs.length : ℚ) ≠ 0 := by simpa using hne
  rw [h.mean, div_mul_cancel₀ _ hlength]

/-- The mean lies between the least and the greatest average. -/
theorem mean_between (h : Summarizes outputs m) (hne : outputs ≠ []) :
    ∃ least ∈ outputs, ∃ most ∈ outputs,
      (∀ o ∈ outputs, least.average ≤ o.average ∧ o.average ≤ most.average) ∧
      least.average ≤ m.avgLatency ∧ m.avgLatency ≤ most.average := by
  have hlength : (0 : ℚ) < outputs.length := by
    exact_mod_cast List.length_pos_of_ne_nil hne
  obtain ⟨least, hleast⟩ := Option.ne_none_iff_exists'.mp
    (mt (List.argmin_eq_none (f := Output.average)).mp hne)
  obtain ⟨most, hmost⟩ := Option.ne_none_iff_exists'.mp
    (mt (List.argmax_eq_none (f := Output.average)).mp hne)
  have hbelow : ∀ o ∈ outputs, least.average ≤ o.average := fun o ho =>
    List.le_of_mem_argmin ho hleast
  have habove : ∀ o ∈ outputs, o.average ≤ most.average := fun o ho =>
    List.le_of_mem_argmax ho hmost
  refine ⟨least, List.argmin_mem hleast, most, List.argmax_mem hmost,
    fun o ho => ⟨hbelow o ho, habove o ho⟩, ?_, ?_⟩
  · have hsum := List.card_nsmul_le_sum (values outputs "avg_lat_us") least.average
      (List.forall_mem_map.mpr hbelow)
    rw [h.mean, le_div_iff₀ hlength, mul_comm]
    simpa [values] using hsum
  · have hsum := List.sum_le_card_nsmul (values outputs "avg_lat_us") most.average
      (List.forall_mem_map.mpr habove)
    rw [h.mean, div_le_iff₀ hlength, mul_comm]
    simpa [values] using hsum

end Summarizes

/-! ### Two rows -/

/-- How the measurements of two rows of outputs make those of both rows together. -/
structure Merges (xs ys : List Output) (a b m : Measures ℚ) : Prop where
  added : ∀ x ∈ Metric.added, x.of m = x.of a + x.of b
  greatest : ∀ x ∈ Metric.greatest, x.of m = max (x.of a) (x.of b)
  mean : m.avgLatency =
    (a.avgLatency * xs.length + b.avgLatency * ys.length) / (xs.length + ys.length)

theorem Summarizes.merges (ha : Summarizes xs a) (hb : Summarizes ys b)
    (hm : Summarizes (xs ++ ys) m) (hxs : xs ≠ []) (hys : ys ≠ []) : Merges xs ys a b m where
  added x hx := by
    rw [hm.added x hx, ha.added x hx, hb.added x hx, values_append, List.sum_append]
  greatest x hx := by
    have hset : {q | q ∈ values (xs ++ ys) x.name} =
        {q | q ∈ values xs x.name} ∪ {q | q ∈ values ys x.name} := by
      rw [values_append]
      exact Set.ext fun q => List.mem_append
    have hboth := hm.greatest x hx
    rw [hset] at hboth
    exact hboth.unique ((ha.greatest x hx).union (hb.greatest x hx))
  mean := by
    rw [hm.mean, values_append, List.sum_append, ha.sum_average hxs, hb.sum_average hys,
      List.length_append, Nat.cast_add]

/-- **Combining exact outputs summarizes them, whatever their order.** Outputs have measurements, by
the three laws and in whatever order they come. Of two rows the counts and rates add up, the greatest
latencies are the greater ones, each of them that of some output, and the average latency is the mean
by the lengths of the rows, between the least and the greatest average. -/
theorem ofExact_merges (hxs : xs ≠ []) (hys : ys ≠ []) :
    ∃ a b m, ofExact xs = .ok a ∧ ofExact ys = .ok b ∧ ofExact (xs ++ ys) = .ok m ∧
      Summarizes xs a ∧ Summarizes ys b ∧ Summarizes (xs ++ ys) m ∧
      (∀ others, others.Perm xs → ofExact others = .ok a) ∧ Merges xs ys a b m ∧
      (∀ x ∈ Metric.greatest, ∃ o ∈ xs ++ ys, x.of m = o.quantity x.name) ∧
      ∃ least ∈ xs ++ ys, ∃ most ∈ xs ++ ys,
        (∀ o ∈ xs ++ ys, least.average ≤ o.average ∧ o.average ≤ most.average) ∧
        least.average ≤ m.avgLatency ∧ m.avgLatency ≤ most.average := by
  have hboth : xs ++ ys ≠ [] := List.append_ne_nil_of_left_ne_nil hxs ys
  obtain ⟨a, hxa, ha⟩ := ofExact_summarizes hxs
  obtain ⟨b, hyb, hb⟩ := ofExact_summarizes hys
  obtain ⟨m, hxym, hm⟩ := ofExact_summarizes hboth
  refine ⟨a, b, m, hxa, hyb, hxym, ha, hb, hm, fun others hperm => ?_, ha.merges hb hm hxs hys,
    fun x hx => hm.attained hx, hm.mean_between hboth⟩
  have hothers : others ≠ [] := fun hnil => hxs (List.nil_perm.mp (hnil ▸ hperm))
  obtain ⟨a', hothersa, ha'⟩ := ofExact_summarizes hothers
  rw [hothersa, ha'.unique (ha.perm hperm)]

namespace Sample

/-- An output that tells a count of requests and an average latency. -/
def output (requests : ℕ) (average : ℚ) : Output where
  quantity? name := if name = "requests" then some requests
    else if name = "avg_lat_us" then some average else none
  whole name hname q hq := by
    by_cases hrequests : name = "requests"
    · rw [if_pos hrequests] at hq
      exact ⟨requests, (Option.some.inj hq).symm⟩
    · have hother : name ≠ "avg_lat_us" := by
        rintro rfl
        exact absurd hname (by decide)
      rw [if_neg hrequests, if_neg hother] at hq
      cases hq

end Sample

/-- Two processes that were slow and one that was fast. -/
theorem ofExact_merges_uneven :
    let xs := [Sample.output 3 (5 / 2), Sample.output 4 (7 / 2)]
    let ys := [Sample.output 20 (1 / 3)]
    xs ≠ [] ∧ ys ≠ [] ∧ ∃ a b m, ofExact xs = .ok a ∧ ofExact ys = .ok b ∧
      ofExact (xs ++ ys) = .ok m ∧ Merges xs ys a b m ∧ m.requests = 27 ∧ m.avgLatency = 19 / 9 := by
  intro xs ys
  have hxs : xs ≠ [] := List.cons_ne_nil _ _
  have hys : ys ≠ [] := List.cons_ne_nil _ _
  obtain ⟨a, b, m, ha, hb, hm, -, -, hsum, -, hmerges, -⟩ := ofExact_merges hxs hys
  have hrequests : (m.requests : ℚ) = 27 := by
    have hadded := hsum.added ⟨"requests", fun m => m.requests⟩ List.mem_cons_self
    have hvalues : (values (xs ++ ys) "requests").sum = 3 + (4 + 20) := by
      simp [values, xs, ys, Sample.output, Output.quantity]
    exact (hadded.trans hvalues).trans (by norm_num)
  have haverage : m.avgLatency = 19 / 9 := by
    have hvalues : (values (xs ++ ys) "avg_lat_us").sum = 5 / 2 + (7 / 2 + 1 / 3) := by
      simp [values, xs, ys, Sample.output, Output.quantity]
    have hlength : (xs ++ ys).length = 3 := rfl
    rw [hsum.mean, hvalues, hlength]
    norm_num
  exact ⟨hxs, hys, a, b, m, ha, hb, hm, hmerges, by exact_mod_cast hrequests, haverage⟩

end Aggregate
end IngressBench
