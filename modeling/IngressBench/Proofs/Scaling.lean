import IngressBench.Cluster.Request
import IngressBench.Proofs.Program.Makes
import IngressBench.Proofs.Readiness.Check
import IngressBench.Proofs.Readiness.WellFormed
import IngressBench.Reconcile
import IngressBench.World.Ideal
import IngressBench.Proofs.Run.Sample
import Mathlib.Logic.Function.Basic

/-!
Scaling in an obedient cluster, in which every call succeeds and a deployment that was scaled has
all its replicas at the next reading (`World.Obeys`). There a row of targets costs one patch for
every target that differs from the one before it, and no pause; asking for the last targets again
costs a reading of each deployment and nothing else (`reconcileEach_minimal`).

A step lemma tells the calls of one deployment (`makes_scaleTo`), and from it an induction on the
targets those of a whole row (`makes_reconcileEach`).
-/
namespace IngressBench

variable {τ σ : Type}

/-! ### Obedient clusters -/

/-- All counts of the deployment are `n`; an absent one is zero. -/
def Deployment.HasAll (d : Deployment) (n : Int) : Prop :=
  ∃ spec status, d.spec = some spec ∧ d.status = some status ∧ countOf spec.replicas = n ∧
    countOf status.replicas = n ∧ countOf status.ready = n ∧ countOf status.available = n

/-- The cluster does at once what it is asked for; `count` tells the replicas of its deployments. -/
structure World.Obeys (w : World τ σ) (ns : String) (count : σ → String → Int) : Prop where
  /-- A reading shows the replicas of the deployment, and changes none. -/
  reads : ∀ s name, ∃ d cost s', w.answer (.api (.readDeployment ns name)) s = (.ok d, cost, s') ∧
    d.HasAll (count s name) ∧ count s' = count s
  /-- A deployment has the replicas that it is scaled to from now on; the others are as before. -/
  scales : ∀ s name n, ∃ cost s', w.answer (.api (.scale ns name n)) s = (.ok (), cost, s') ∧
    count s' = Function.update (count s) name n

namespace Deployment.HasAll

variable {d : Deployment} {n : Int}

theorem readyCount_eq (h : d.HasAll n) : d.readyCount = .ok n := by
  obtain ⟨spec, status, -, hstatus, -, -, hready, -⟩ := h
  unfold readyCount
  rw [present_some hstatus, ← hready]
  rfl

theorem agrees (h : d.HasAll n) : d.Agrees := by
  obtain ⟨spec, status, hspec, hstatus, hdesired, hreplicas, hready, havailable⟩ := h
  subst hdesired
  exact ⟨spec, status, hspec, hstatus, hreplicas, hready, havailable⟩

end Deployment.HasAll

variable [TimeScale τ] {w : World τ σ}

/-! ### One deployment -/

variable {ns : String} {count : σ → String → Int}

/-- The calls that bring a deployment from one count of replicas to another one. -/
def scaling (ns name : String) (present target : Int) : List ApiCall :=
  if target = present then [.readDeployment ns name]
  else [.readDeployment ns name, .scale ns name target, .readDeployment ns name]

/-- The replicas of the servers and of the clients. -/
def replicas (count : σ → String → Int) (s : σ) : Int × Int :=
  (count s Assets.serverName, count s Assets.clientName)

namespace World.Obeys

theorem makes_read (hw : w.Obeys ns count) (name : String) (s : σ) :
    ∃ d s', w.Makes (Action.apiOrFail (.readDeployment ns name)) s d [.readDeployment ns name] s' ∧
      d.HasAll (count s name) ∧ count s' = count s := by
  obtain ⟨d, cost, s', hreply, hall, hcount⟩ := hw.reads s name
  exact ⟨d, s', makes_apiOrFail hreply, hall, hcount⟩

/-- A check sees a ready deployment. -/
theorem makes_checkReady (hw : w.Obeys ns count) (name : String) (s : σ) :
    ∃ d s', w.Makes (checkReady ns name) s (d, true) [.readDeployment ns name] s' ∧
      count s' = count s := by
  obtain ⟨d, s', hread, hall, hcount⟩ := hw.makes_read name s
  have hready : d.isReady = .ok true := Deployment.isReady_iff.mpr hall.agrees
  refine ⟨d, s', hread.bind ((makes_ofExcept hready).bind ?_ rfl) rfl, hcount⟩
  exact (makes_log _ _).bind (makes_pure _) rfl

/-- A wait for a deployment is over at its first look. -/
theorem makes_awaitReported (hw : w.Obeys ns count) (pace : Pace τ) (timeout : τ) (name : String)
    (s : σ) : ∃ s', w.Makes (awaitReported pace ns name timeout) s () [.readDeployment ns name] s' ∧
      count s' = count s := by
  obtain ⟨d, s', hcheck, hcount⟩ := hw.makes_checkReady name s
  have hwait : w.Makes (awaitReady pace ns name timeout) s () [.readDeployment ns name] s' :=
    (makes_log _ _).bind ((hcheck.watch pace timeout).bind (makes_pure ()) rfl) rfl
  exact ⟨s', hwait.attempt.bind (makes_pure ()) rfl, hcount⟩

/-- **A deployment that has the replicas already is read once**; any other one is read, scaled and
read again. Either way it has them afterwards. -/
theorem makes_scaleTo (hw : w.Obeys ns count) (pace : Pace τ) (timeout : τ) (name : String)
    (target : Int) (s : σ) :
    ∃ changed s', w.Makes (scaleTo pace timeout ns name target) s changed
      (scaling ns name (count s name) target) s' ∧
      count s' = Function.update (count s) name target := by
  obtain ⟨d, s₁, hread, hall, hcount⟩ := hw.makes_read name s
  have hready : w.Makes (Action.ofExcept d.readyCount) s₁ (count s name) [] s₁ :=
    makes_ofExcept hall.readyCount_eq
  by_cases htarget : target = count s name
  · subst htarget
    refine ⟨false, s₁, hread.bind (hready.bind ?_ rfl) (if_pos rfl).symm, ?_⟩
    · rw [if_pos (beq_self_eq_true _)]
      exact (makes_log _ _).bind (makes_pure false) rfl
    · rw [Function.update_eq_self]
      exact hcount
  · -- The second reading is that of the wait, which is over at its first look.
    obtain ⟨cost, s₂, hreply, hscaled⟩ := hw.scales s₁ name target
    obtain ⟨s₃, hwait, hwaited⟩ := hw.makes_awaitReported pace timeout name s₂
    refine ⟨true, s₃, hread.bind (hready.bind ?_ rfl) (if_neg htarget).symm, ?_⟩
    · rw [if_neg (by rw [beq_iff_eq]; exact fun heq => htarget heq.symm)]
      exact (makes_log _ _).bind
        ((makes_apiOrFail hreply).bind (hwait.bind (makes_pure true) rfl) rfl) rfl
    · rw [hwaited, hscaled, hcount]

/-- Both deployments are brought to their replicas, the servers first. -/
theorem makes_reconcile (hw : w.Obeys ns count) (pace : Pace τ) (timeout : τ) (s : σ)
    {present : Int × Int} (hpresent : replicas count s = present) (target : Int × Int) :
    ∃ s', w.Makes (reconcile pace timeout ns target.1 target.2) s ()
      (scaling ns Assets.serverName present.1 target.1 ++
        scaling ns Assets.clientName present.2 target.2) s' ∧ replicas count s' = target := by
  subst hpresent
  obtain ⟨_, s₁, hservers, hcount₁⟩ := hw.makes_scaleTo pace timeout Assets.serverName target.1 s
  obtain ⟨_, s₂, hclients, hcount₂⟩ := hw.makes_scaleTo pace timeout Assets.clientName target.2 s₁
  have hne : Assets.clientName ≠ Assets.serverName := by decide
  rw [hcount₁, Function.update_of_ne hne] at hclients
  refine ⟨s₂, hservers.bind (hclients.bind (makes_pure ()) (List.append_nil _)) rfl, ?_⟩
  unfold replicas
  rw [hcount₂, hcount₁, Function.update_self, Function.update_of_ne hne.symm, Function.update_self]

end World.Obeys

/-! ### Rows of targets -/

/-- The changes of a deployment that has `present` replicas: none when it has the wanted ones. -/
def change (name : String) (present target : Int) : List (String × Int) :=
  if target = present then [] else [(name, target)]

/-- The changes on the way from the replicas that are there through a row of targets. -/
def changes (present : Int × Int) : List (Int × Int) → List (String × Int)
  | [] => []
  | target :: rest => change Assets.serverName present.1 target.1 ++
      change Assets.clientName present.2 target.2 ++ changes target rest

/-- The replicas after a row of targets. -/
def reached (present : Int × Int) (targets : List (Int × Int)) : Int × Int :=
  targets.getLast?.getD present

/-- Brings both deployments to one target after another. -/
def reconcileEach (pace : Pace τ) (timeout : τ) (ns : String) : List (Int × Int) → Action τ Unit
  | [] => pure ()
  | target :: rest => do
    reconcile pace timeout ns target.1 target.2
    reconcileEach pace timeout ns rest

/-- A request that changes an object in place. -/
def Request.isPatch (r : Request) : Bool :=
  r.operation.startsWith "patch_"

/-- The requests among the calls that change an object in place. -/
def patches (made : List ApiCall) : List Request :=
  (made.map ApiCall.request).filter Request.isPatch

/-- The request for a count of replicas. -/
def replicaPatch (ns : String) (change : String × Int) : Request where
  group := "apps"
  operation := "patch_namespaced_deployment_scale"
  arguments := [("name", .text change.1), ("namespace", .text ns),
    ("body", .object [("spec", .object [("replicas", .int change.2)])])]
  subject := some change.1

theorem patches_append (made made' : List ApiCall) :
    patches (made ++ made') = patches made ++ patches made' := by
  unfold patches
  rw [List.map_append, List.filter_append]

/-- A deployment is patched when it has to be changed, and not otherwise. -/
theorem patches_scaling (ns name : String) (present target : Int) :
    patches (scaling ns name present target) =
      (change name present target).map (replicaPatch ns) := by
  have hread : (ApiCall.readDeployment ns name).request.isPatch = false := by
    show String.startsWith "read_namespaced_deployment" "patch_" = false
    decide +kernel
  have hscale : (ApiCall.scale ns name target).request.isPatch = true := by
    show String.startsWith "patch_namespaced_deployment_scale" "patch_" = true
    decide +kernel
  unfold scaling change patches
  split
  · simp [hread]
  · simp [hread, hscale]
    rfl

/-- The targets of one deployment that differ from the one before them. -/
def turns (present : Int) : List Int → List Int
  | [] => []
  | target :: rest => (if target = present then [] else [target]) ++ turns target rest

/-- The patches of one deployment among those of both. -/
theorem patches_of (ns : String) {name : String} {part : Int × Int → Int}
    (hpart : ∀ present target : Int × Int,
      (change Assets.serverName present.1 target.1 ++
        change Assets.clientName present.2 target.2).filter (fun c => c.1 = name) =
        change name (part present) (part target))
    (present : Int × Int) (targets : List (Int × Int)) :
    ((changes present targets).map (replicaPatch ns)).filter (fun r => r.subject = some name) =
      (turns (part present) (targets.map part)).map fun n => replicaPatch ns (name, n) := by
  have hsubject : ((fun r : Request => decide (r.subject = some name)) ∘ replicaPatch ns) =
      fun c => decide (c.1 = name) := by
    funext c
    simp [replicaPatch]
  rw [List.filter_map, hsubject]
  induction targets generalizing present with
  | nil => rfl
  | cons target rest ih =>
    rw [changes, List.filter_append, hpart, List.map_append, ih, List.map_cons, turns,
      List.map_append]
    unfold change
    split <;> rfl

/-- What a row of targets costs an obedient cluster: one patch for every change, in order, and for
either deployment one for every target that differs from the one before it. -/
structure PatchesChanges (ns : String) (present : Int × Int) (targets : List (Int × Int))
    (made : List ApiCall) : Prop where
  inOrder : patches made = (changes present targets).map (replicaPatch ns)
  servers : (patches made).filter (fun r => r.subject = some Assets.serverName) =
    (turns present.1 (targets.map (·.1))).map fun n => replicaPatch ns (Assets.serverName, n)
  clients : (patches made).filter (fun r => r.subject = some Assets.clientName) =
    (turns present.2 (targets.map (·.2))).map fun n => replicaPatch ns (Assets.clientName, n)

theorem PatchesChanges.of_inOrder {present : Int × Int} {targets : List (Int × Int)}
    {made : List ApiCall} (h : patches made = (changes present targets).map (replicaPatch ns)) :
    PatchesChanges ns present targets made := by
  have hservers : ¬ Assets.clientName = Assets.serverName := by decide
  have hclients : ¬ Assets.serverName = Assets.clientName := by decide
  refine ⟨h, ?_, ?_⟩
  · rw [h]
    refine patches_of ns (fun present target => ?_) present targets
    unfold change
    split <;> split <;> simp [hservers]
  · rw [h]
    refine patches_of ns (fun present target => ?_) present targets
    unfold change
    split <;> split <;> simp [hclients]

/-- Each target of a row is reached before the next one is begun. -/
theorem makes_reconcileEach (hw : w.Obeys ns count) (pace : Pace τ) (timeout : τ)
    (targets : List (Int × Int)) (s : σ) :
    ∃ made s', w.Makes (reconcileEach pace timeout ns targets) s () made s' ∧
      patches made = (changes (replicas count s) targets).map (replicaPatch ns) ∧
      replicas count s' = reached (replicas count s) targets := by
  induction targets generalizing s with
  | nil => exact ⟨[], s, World.makes_pure (), rfl, rfl⟩
  | cons target rest ih =>
    -- What is there for the rest of the row is the first target.
    obtain ⟨s₁, hfirst, htarget⟩ := hw.makes_reconcile pace timeout s rfl target
    obtain ⟨made, s₂, hrest, hpatches, hreached⟩ := ih s₁
    rw [htarget] at hpatches hreached
    refine ⟨_, s₂, hfirst.bind hrest rfl, ?_, ?_⟩
    · rw [patches_append, patches_append, patches_scaling, patches_scaling, hpatches, changes,
        List.map_append, List.map_append]
    · rw [hreached]
      unfold reached
      rw [List.getLast?_cons, Option.getD_some]

/-- **Scaling is minimal and idempotent.** In an obedient cluster a row of targets ends well; it
sends the patches of its changes and no others. The targets that were reached last can then be asked
for again at the cost of one reading of each deployment. Nothing ever pauses. -/
theorem reconcileEach_minimal (hw : w.Obeys ns count) (pace : Pace τ) (timeout : τ)
    (targets : List (Int × Int)) (s : σ) :
    ∃ made s', w.Makes (reconcileEach pace timeout ns targets) s () made s' ∧
      PatchesChanges ns (replicas count s) targets made ∧
      ∃ s'', w.Makes (reconcile pace timeout ns (reached (replicas count s) targets).1
          (reached (replicas count s) targets).2) s' ()
        [.readDeployment ns Assets.serverName, .readDeployment ns Assets.clientName] s'' := by
  obtain ⟨made, s', hrow, hpatches, hreached⟩ := makes_reconcileEach hw pace timeout targets s
  obtain ⟨s'', hagain, -⟩ := hw.makes_reconcile pace timeout s' hreached
    (reached (replicas count s) targets)
  refine ⟨made, s', hrow, .of_inOrder hpatches, s'', ?_⟩
  simpa [scaling] using hagain

/-- A deployment that is scaled in the ideal cluster has the count; the others are as before. -/
theorem Ideal.count_after_scale (s : Ideal) (ns name : String) (n : Int) :
    (s.after (.scale ns name n)).count = Function.update s.count name n := by
  funext other
  show (((name, n) :: s.replicas.filter fun e => e.1 ≠ name).lookup other).getD 0 = _
  by_cases hother : other = name
  · subst hother
    rw [List.lookup_cons_self, Function.update_self]
    rfl
  · have hfilter : (s.replicas.filter fun e => e.1 ≠ name).lookup other =
        s.replicas.lookup other := by
      induction s.replicas with
      | nil => rfl
      | cons e rest ih => grind
    rw [Function.update_of_ne hother, List.lookup_cons, beq_false_of_ne hother, hfilter]
    rfl

theorem Ideal.obeys (ns : String) : Sample.ideal.Obeys ns Ideal.count where
  reads _ _ := ⟨_, _, _, rfl, ⟨_, _, rfl, rfl, rfl, rfl, rfl, rfl⟩, rfl⟩
  scales s name n := ⟨1, s.after (.scale ns name n), rfl, s.count_after_scale ns name n⟩

/-- Three targets, of which the second one repeats the servers' and the third one the clients'. -/
theorem reconcileEach_minimal_ideal :
    Sample.ideal.Obeys "bench" Ideal.count ∧
    ∃ made s', Sample.ideal.Makes
        (reconcileEach ⟨1, true⟩ 10 "bench" [(2, 1), (2, 4), (0, 4)]) {} () made s' ∧
      patches made = [("nginx", 2), ("ingress-perf-client", 1), ("ingress-perf-client", 4),
        ("nginx", 0)].map (replicaPatch "bench") := by
  obtain ⟨made, s', hrow, hpatches, -⟩ :=
    reconcileEach_minimal (Ideal.obeys "bench") ⟨1, true⟩ 10 [(2, 1), (2, 4), (0, 4)] {}
  exact ⟨Ideal.obeys "bench", made, s', hrow, hpatches.inOrder⟩

end IngressBench
