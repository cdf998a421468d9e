import IngressBench.Proofs.Run.Team
import IngressBench.Proofs.Signals.Helpers
import IngressBench.Run.State
import IngressBench.World.Ideal

/-!
Small worlds for examples. Times are counted in ticks, every answer takes one tick, and whatever is
not the cluster answers well: measurements and comparisons succeed, and documents are stored.
-/
namespace IngressBench.Sample

/-- Times as counts of ticks. -/
instance ticks : TimeScale Nat where
  add := Nat.add
  sub := Nat.sub
  less a b := decide (a < b)
  atMost a b := decide (a ≤ b)
  zero := 0
  text := toString
  rounds interval timeout := timeout / interval + 1
  ofSeconds _ := 0

/-- The result of a measurement of a test case. -/
def result (c : TestCase) : Result :=
  { (default : Result) with uuid := c.uuid, sample := 1, config := c }

/-- What surroundings answer that do well, with the given cluster. -/
def reply (api : (call : ApiCall) → Except ApiFault call.Reply) : (q : Question) → q.Reply
  | .api call => api call
  | .exec _ => .ok (.text "HAProxy version 2.8.5 2023/12/07")
  | .http _ => .ok Ideal.metrics
  | .file (.read _) => .ok []
  | .file (.write ..) | .file (.rename ..) | .file (.makeDirectory _) => .ok ()
  | .file (.isDirectory _) | .file (.exists_ _) => true
  | .access _ | .connect _ => .ok []
  | .stamp => (default : Moment)
  | .freshId => "run"
  | .index .. => .ok (.text "stored")
  | .bulk .. => .stored (.int 0)
  | .drive c .. => .ok [result c]
  | .tune _ => .ok ()
  | .compare .. | .check => .ok true
  | .say .. | .setLevel _ | .handleSignals | .announce .. => ()

/-- Surroundings whose cluster answers and changes as told. -/
def world {σ : Type} (api : σ → (call : ApiCall) → Except ApiFault call.Reply)
    (after : σ → ApiCall → σ) : World Nat σ where
  answer q s := (reply (api s) q, 1, match q with
    | .api call => after s call
    | _ => s)

/-- Surroundings whose cluster does at once what it is asked for. -/
def ideal : World Nat Ideal :=
  world Ideal.answer Ideal.after

/-- An ideal cluster in which the namespace is there already, and the given objects. -/
def shared (found : List ObjectRef) : World Nat Ideal :=
  world (fun s call => match call with
    | .create object =>
      if object.ref.kind = .ns ∨ object.ref ∈ found then
        .error (.rejected ApiFault.alreadyExists none)
      else .ok ()
    | call => s.answer call) Ideal.after

/-- Surroundings that do well, but for a driver that claims that a comparison failed. -/
def condemning : World Nat Ideal where
  answer q s := match q with
    | .drive .. => (.error .comparison, 1, s)
    | q => ideal.answer q s

/-- An ideal cluster whose deployments never become ready, and a run that is stopped. -/
def stuck : World Nat Ideal where
  answer := (world (fun (s : Ideal) call => match call with
    | .readDeployment _ name => .ok { Ideal.deployment name 2 with status := some {} }
    | call => s.answer call) Ideal.after).answer
  stopAt := some 22

/-- Surroundings in which every file holds the same bytes, and that are otherwise as told. -/
def supplied {τ σ : Type} (bytes : List UInt8) (w : World τ σ) : World τ σ where
  answer q s := match q with
    | .file (.read path) => (.ok bytes, (w.answer (.file (.read path)) s).2)
    | q => w.answer q s
  stopAt := w.stopAt
  notice := w.notice

/-- A suite of a warm-up and another test case. -/
def suite : List UInt8 :=
  "config: [{warmup: true}, {}]".toUTF8.data.toList

/-- Ticks of a clock for which every setting is long. -/
def Tick : Type := Nat

instance longTicks : TimeScale Tick where
  add := Nat.add
  sub := Nat.sub
  less := Nat.blt
  atMost := Nat.ble
  zero := Nat.zero
  text := Nat.repr
  rounds interval timeout := Nat.div timeout interval + 1
  ofSeconds _ := Nat.succ 99

/-- A team whose helpers are all in the surroundings. -/
def team : Team Nat where
  connect := Outside.connect "ingress-perf"
  drive := Outside.drive
  tune := Outside.tune
  compare := some Outside.compare

theorem team_observed : team.Observed :=
  ⟨.inl ⟨_, rfl⟩, rfl, .inl rfl, .inr rfl⟩

theorem team_usual : team.Usual :=
  ⟨.inl ⟨_, rfl⟩, .inl rfl, .inl rfl, .inr rfl⟩

/-- A run of some test cases that cleans up. -/
def plan (cases : List TestCase) : Plan Nat where
  run := "run"
  cleanup := true
  cases := cases
  settings := {}
  limits := ⟨1, 10, 10, 10⟩
  team := team

/-- Such a run that measures and tunes by itself. -/
def alone (cases : List TestCase) : Plan Nat :=
  let p := plan cases
  { p with team := { team with
      drive := Load.run p.settings.ns, tune := Tuning.apply p.limits.pace p.limits.tuning } }

end IngressBench.Sample
