import IngressBench.Proofs.Cluster.Objects
import IngressBench.Proofs.Run.Patience
import IngressBench.Proofs.Schedule

/-!
The removal of a namespace of the benchmark's own. The namespace is deleted, and then the cluster is
asked about it until it is not found, an answer fails, the deadline has passed or the run is stopped
(`Vigil`). Only a namespace that was not found lets the binding of the clients' role go, as the last
thing that is done; in every other case the removal fails as the vigil did (`removeAssets_own`).

A vigil grows by one answer with every look of the wait (`Schedule.vigil`), so what holds of it is
proved by induction on its answers.
-/
namespace IngressBench

variable {τ σ : Type}

/-! ### Answers -/

/-- A question was asked. -/
def Event.isAsked : Event τ → Bool
  | .asked .. => true
  | _ => false

/-- The questions of a row with their answers, in order. -/
def asked (evs : List (Event τ)) : List (Event τ) :=
  evs.filter Event.isAsked

/-- Nothing but a question is a deletion. -/
theorem deletions_asked (evs : List (Event τ)) : deletions (asked evs) = deletions evs := by
  unfold deletions asked
  rw [List.filterMap_filter]
  refine List.filterMap_congr fun e _ => ?_
  cases e <;> rfl

@[simp] theorem asked_append (first rest : List (Event τ)) :
    asked (first ++ rest) = asked first ++ asked rest :=
  List.filter_append ..

/-- Whether a call succeeded, and when it was made. -/
structure Answered (τ : Type) where
  answer : Except ApiFault Unit
  time : τ

namespace Answered

/-- The call was the deletion of an object. -/
def deletes (object : ObjectRef) (x : Answered τ) : Event τ :=
  .asked (.api (.delete object)) x.answer x.time

/-- The call was a look at a namespace. -/
def reads (ns : String) (x : Answered τ) : Event τ :=
  .asked (.api (.readNamespace ns)) x.answer x.time

/-- The namespace is there. -/
def Present (x : Answered τ) : Prop :=
  x.answer = .ok ()

/-- The namespace was not found. -/
def Missing (x : Answered τ) : Prop :=
  ∃ fault, x.answer = .error fault ∧ fault.hasStatus ApiFault.notFound = true

theorem Missing.not_present {x : Answered τ} (h : x.Missing) : ¬ x.Present := by
  obtain ⟨fault, hfault, -⟩ := h
  intro hpresent
  cases hfault.symm.trans hpresent

end Answered

/-- What a vigil over a namespace is answered up to its end, and what it ends with: the first answer
that does not find the namespace is the last one, and so is one that comes too late or is followed by
the stop of the run. -/
inductive Vigil [TimeScale τ] [LE τ] (timeout deadline : τ) (ended : History τ σ) :
    List (Answered τ) → Except Failure (Option WaitFault) → Prop
  | gone {x : Answered τ} (missing : x.Missing) : Vigil timeout deadline ended [x] (.ok none)
  | failed {fault : ApiFault} {time : τ} (other : fault.hasStatus ApiFault.notFound = false) :
      Vigil timeout deadline ended [⟨.error fault, time⟩] (.error fault.failure)
  | late {time : τ} (late : deadline ≤ ended.now) :
      Vigil timeout deadline ended [⟨.ok (), time⟩] (.ok (some (timedOut timeout)))
  | cancelled {time : τ} (stopped : ended.stopped = true) :
      Vigil timeout deadline ended [⟨.ok (), time⟩] (.ok (some .cancelled))
  | again {time : τ} {x : Answered τ} {later : List (Answered τ)}
      {e : Except Failure (Option WaitFault)} (inTime : x.time ≤ deadline)
      (more : Vigil timeout deadline ended (x :: later) e) :
      Vigil timeout deadline ended (⟨.ok (), time⟩ :: x :: later) e

namespace Vigil

variable [TimeScale τ] [LE τ] {timeout deadline : τ} {ended : History τ σ}
  {answers : List (Answered τ)} {e : Except Failure (Option WaitFault)}

theorem ne_nil (h : Vigil timeout deadline ended answers e) : answers ≠ [] := by
  cases h <;> simp

/-- **The first answer that does not find the namespace is the last one.** -/
theorem last (h : Vigil timeout deadline ended answers e) {past later : List (Answered τ)}
    {x : Answered τ} (hsplit : answers = past ++ x :: later) (hx : ¬ x.Present) : later = [] := by
  induction h generalizing past with
  | again _ _ ih =>
    cases past with
    | nil =>
      obtain ⟨rfl, -⟩ := List.cons.inj hsplit
      exact absurd rfl hx
    | cons y past => exact ih (List.cons.inj hsplit).2
  | _ => cases past <;> simp_all

/-- The vigil ends well exactly when the namespace was not found. -/
theorem gone_iff (h : Vigil timeout deadline ended answers e) :
    e = .ok none ↔ ∃ x ∈ answers, x.Missing := by
  induction h with
  | gone hmissing => simpa using hmissing
  | failed hother => simp [Answered.Missing, hother]
  | late _ => simp [Answered.Missing]
  | cancelled _ => simp [Answered.Missing]
  | again _ _ ih => simpa [Answered.Missing] using ih

/-- Any other answer that does not find the namespace is the failure of the vigil. -/
theorem failure_eq (h : Vigil timeout deadline ended answers e) {x : Answered τ}
    {fault : ApiFault} (hx : x ∈ answers) (hfault : x.answer = .error fault)
    (hother : fault.hasStatus ApiFault.notFound = false) : e = .error fault.failure := by
  induction h with
  | gone hmissing =>
    obtain rfl := List.mem_singleton.mp hx
    obtain ⟨given, hgiven, hstatus⟩ := hmissing
    cases hfault.symm.trans hgiven
    cases hother.symm.trans hstatus
  | failed _ =>
    obtain rfl := List.mem_singleton.mp hx
    cases hfault
    rfl
  | late _ | cancelled _ =>
    obtain rfl := List.mem_singleton.mp hx
    cases hfault
  | again _ _ ih =>
    rcases List.mem_cons.mp hx with rfl | hx
    · cases hfault
    · exact ih hx

/-- A vigil whose answers all find the namespace was too late, or was cancelled. -/
theorem waited (h : Vigil timeout deadline ended answers e) (hall : ∀ x ∈ answers, x.Present) :
    (e = .ok (some (timedOut timeout)) ∧ deadline ≤ ended.now) ∨
      (e = .ok (some .cancelled) ∧ ended.stopped = true) := by
  induction h with
  | gone hmissing => exact absurd (hall _ List.mem_cons_self) hmissing.not_present
  | failed _ => exact nomatch hall _ List.mem_cons_self
  | late hlate => exact .inl ⟨rfl, hlate⟩
  | cancelled hstopped => exact .inr ⟨rfl, hstopped⟩
  | again _ _ ih => exact ih fun x hx => hall x (List.mem_cons_of_mem _ hx)

/-- No look after the first one comes after the deadline. -/
theorem inTime (h : Vigil timeout deadline ended answers e) :
    ∀ x ∈ answers.tail, x.time ≤ deadline := by
  induction h with
  | again hin _ ih => exact List.forall_mem_cons.mpr ⟨hin, ih⟩
  | _ => simp

end Vigil

/-! ### Removals -/

/-- The questions of a removal, in order. -/
def removal (ns : String) (deletion : Answered τ) (looks : List (Answered τ))
    (binding : Option (Answered τ)) : List (Event τ) :=
  deletion.deletes (Assets.nsRef ns) ::
    (looks.map (Answered.reads ns) ++ binding.toList.map (Answered.deletes (Assets.bindingRef ns)))

/-- Nothing else than the namespace and the binding is deleted. -/
theorem objectsOf_removal (ns : String) (deletion : Answered τ) (looks : List (Answered τ))
    (binding : Option (Answered τ)) :
    objectsOf (deletions (removal ns deletion looks binding)) =
      Assets.nsRef ns :: binding.toList.map fun _ => Assets.bindingRef ns := by
  have hlooks : deletions (looks.map (Answered.reads ns)) = [] := by
    refine List.filterMap_eq_nil_iff.mpr fun e he => ?_
    obtain ⟨x, -, rfl⟩ := List.mem_map.mp he
    rfl
  have hfirst : deletions (removal ns deletion looks binding) =
      ⟨Assets.nsRef ns, deletion.answer⟩ :: deletions (looks.map (Answered.reads ns) ++
        binding.toList.map (Answered.deletes (Assets.bindingRef ns))) := rfl
  rw [hfirst, deletions_append, hlooks, List.nil_append]
  cases binding <;> rfl

section
variable [TimeScale τ] [Field τ] [LinearOrder τ] {ended : History τ σ}

/-- What the removal of a namespace of the benchmark's own is answered: the deletion of the
namespace, the looks at it, and the deletion of the binding, if it comes to that. -/
structure RemovesOwn (timeout : τ) (deletion : Answered τ) (looks : List (Answered τ))
    (binding : Option (Answered τ)) (r : Except Failure Unit) (ended : History τ σ) : Prop where
  /-- A namespace whose deletion was refused is not looked at. -/
  refused : ∀ fault, deletion.answer = .error fault → looks = [] ∧ r = .error fault.failure
  /-- The first look that does not find the namespace is the last one. -/
  last : ∀ past x later, looks = past ++ x :: later → ¬ x.Present → later = []
  /-- No look after the first one comes after the deadline. -/
  inTime : ∀ first later, looks = first :: later → ∀ x ∈ later, x.time ≤ first.time + timeout
  /-- The binding goes exactly when the namespace was deleted and then not found. -/
  unbound_iff : binding.isSome ↔ deletion.answer = .ok () ∧ ∃ x ∈ looks, x.Missing
  /-- Then the removal ends as the deletion of the binding does. -/
  unbound : ∀ x, binding = some x → r = x.answer.mapError ApiFault.failure
  /-- A look that failed otherwise is the failure of the removal. -/
  failed : ∀ x ∈ looks, ∀ fault, x.answer = .error fault →
    fault.hasStatus ApiFault.notFound = false → r = .error fault.failure
  /-- A namespace that was always found was waited for in vain, up to the deadline or the stop. -/
  waited : deletion.answer = .ok () → (∀ x ∈ looks, x.Present) → ∃ first later,
    looks = first :: later ∧
      ((r = .error (.wait (timedOut timeout)) ∧ first.time + timeout ≤ ended.now) ∨
        (r = .error (.wait .cancelled) ∧ ended.stopped = true))

/-- A removal whose first deletion is refused. -/
theorem RemovesOwn.of_refused {timeout : τ} {deletion : Answered τ} {fault : ApiFault}
    (h : deletion.answer = .error fault) :
    RemovesOwn timeout deletion [] none (.error fault.failure) ended where
  refused given hgiven := by
    obtain rfl := Except.error.inj (h.symm.trans hgiven)
    exact ⟨rfl, rfl⟩
  last := by simp
  inTime := by simp
  unbound_iff := by simp
  unbound := by simp
  failed := by simp
  waited hok := nomatch h.symm.trans hok

/-- A removal that waits for the namespace to go. -/
theorem Vigil.removesOwn {timeout : τ} {deletion first : Answered τ} {later : List (Answered τ)}
    {binding : Option (Answered τ)} {r : Except Failure Unit}
    {e : Except Failure (Option WaitFault)}
    (hvigil : Vigil timeout (first.time + timeout) ended (first :: later) e)
    (hok : deletion.answer = .ok ()) (hbinding : binding.isSome ↔ e = .ok none)
    (hunbound : ∀ x, binding = some x → r = x.answer.mapError ApiFault.failure)
    {last : History τ σ} (hbound : binding = none → r = settled e ∧ last = ended) :
    RemovesOwn timeout deletion (first :: later) binding r last where
  refused fault hfault := nomatch hok.symm.trans hfault
  last past x rest hsplit hx := hvigil.last hsplit hx
  inTime first' later' hlooks x hx := by
    obtain ⟨rfl, rfl⟩ := List.cons.inj hlooks
    exact hvigil.inTime x hx
  unbound_iff := by rw [hbinding, hvigil.gone_iff, and_iff_right hok]
  unbound := hunbound
  failed x hx fault hfault hother := by
    have he := hvigil.failure_eq hx hfault hother
    have hnone : binding = none := by simpa [he] using hbinding
    rw [(hbound hnone).1, he]
    rfl
  waited _ hall := by
    have hnone : e ≠ .ok none → binding = none := by simp [← hbinding]
    refine ⟨first, later, rfl, ?_⟩
    rcases hvigil.waited hall with ⟨rfl, hlate⟩ | ⟨rfl, hstopped⟩
    · obtain ⟨hr, rfl⟩ := hbound (hnone nofun)
      exact .inl ⟨hr, hlate⟩
    · obtain ⟨hr, rfl⟩ := hbound (hnone nofun)
      exact .inr ⟨hr, hstopped⟩

end

/-! ### Looks -/

/-- What a look at a namespace tells. -/
def goneOf : Except ApiFault Unit → Except Failure Bool
  | .ok () => .ok false
  | .error fault =>
    if fault.hasStatus ApiFault.notFound then .ok true else .error fault.failure

theorem missing_of_goneOf {x : Answered τ} (h : goneOf x.answer = .ok true) : x.Missing := by
  unfold goneOf at h
  split at h
  · cases h
  · rename_i fault heq
    split at h
    · rename_i hstatus
      exact ⟨fault, heq, hstatus⟩
    · cases h

theorem present_of_goneOf {answer : Except ApiFault Unit} (h : goneOf answer = .ok false) :
    answer = .ok () := by
  unfold goneOf at h
  split at h
  · rfl
  · split at h <;> cases h

theorem fault_of_goneOf {answer : Except ApiFault Unit} {x : Failure} (h : goneOf answer = .error x) :
    ∃ fault, answer = .error fault ∧ fault.hasStatus ApiFault.notFound = false ∧
      x = fault.failure := by
  unfold goneOf at h
  split at h
  · cases h
  · rename_i fault
    split at h
    · cases h
    · rename_i hstatus
      exact ⟨fault, rfl, by simpa using hstatus, (Except.error.inj h).symm⟩

section
variable [TimeScale τ] {w : World τ σ}

/-- A call is one question, and its answer is handed on. -/
theorem World.run_api (w : World τ σ) (call : ApiCall) (h : History τ σ) :
    ∃ (answer : Except ApiFault call.Reply) (h' : History τ σ),
      w.run (Action.api call).run h = (.ok answer, h') ∧
      h'.events = .asked (.api call) answer h.now :: h.events :=
  ⟨(w.answer (.api call) h.state).1, (w.reply (.ask (.api call)) h).2, rfl, rfl⟩

/-- A call whose fault is its failure. -/
theorem World.run_apiOrFail (w : World τ σ) (call : ApiCall) (h : History τ σ) :
    ∃ (answer : Except ApiFault call.Reply) (h' : History τ σ),
      w.run (Action.apiOrFail call).run h = (answer.mapError ApiFault.failure, h') ∧
      h'.events = .asked (.api call) answer h.now :: h.events := by
  obtain ⟨answer, h', hcall, hevents⟩ := w.run_api call h
  refine ⟨answer, h', (World.run_step_ok hcall).trans ?_, hevents⟩
  cases answer <;> rfl

/-- A look at a namespace. -/
theorem World.run_namespaceGone (w : World τ σ) (ns : String) (h : History τ σ) :
    ∃ (answer : Except ApiFault Unit) (h' : History τ σ),
      w.run (namespaceGone ns).run h = (goneOf answer, h') ∧
      h'.events = .asked (.api (.readNamespace ns)) answer h.now :: h.events := by
  obtain ⟨answer, h', hcall, hevents⟩ := w.run_api (.readNamespace ns) h
  refine ⟨answer, h', (World.run_step_ok hcall).trans ?_, hevents⟩
  cases answer with
  | ok _ => rfl
  | error fault =>
    unfold goneOf
    dsimp only
    split <;> rfl

/-- Nothing is asked during a rest. -/
theorem Pace.rest_asks_nothing {pace : Pace τ} {length : τ} {cut : Bool} {h h' : History τ σ}
    (hrest : w.run (pace.rest length).run h = (.ok cut, h')) :
    ∃ evs, h'.events = evs.reverse ++ h.events ∧ asked evs = [] := by
  obtain ⟨evs, hleaves, hevents⟩ := w.run_leaves (pace.rest length).run h
  rw [hrest] at hevents
  refine ⟨evs, hevents, List.filter_eq_nil_iff.mpr fun e he => ?_⟩
  have hasks := pace.asks_rest (P := fun _ => False) length _ _ hleaves e he
  cases e with
  | asked => exact hasks.elim
  | _ => exact Bool.false_ne_true

variable [Field τ] [LinearOrder τ] [IsStrictOrderedRing τ] [FloorSemiring τ] [TimeScale.Exact τ]
  {pace : Pace τ} {timeout deadline : τ} {ns : String} {begun ended : History τ σ}
  {steps : List (Stride τ σ)} {e : Except Failure (Option WaitFault)}

/-- **A wait for a namespace to go is a vigil**, with one answer for every look. -/
theorem Schedule.vigil (hinterval : 0 < pace.interval)
    (hs : Schedule w pace timeout deadline (namespaceGone ns) true begun steps e ended) :
    ∃ evs first later, ended.events = evs.reverse ++ begun.events ∧
      asked evs = (first :: later).map (Answered.reads ns) ∧ first.time = begun.now ∧
      Vigil timeout deadline ended (first :: later) e := by
  -- The wait goes on, after a look and a rest, as one that looks at once and has two steps less.
  induction hcount : steps.length using Nat.strong_induction_on generalizing steps begun with
  | _ count ih =>
    subst hcount
    obtain ⟨seen, h, later, rfl, hcases⟩ := hs.look_cases
    obtain ⟨answer, h', hlook, hevents⟩ := w.run_namespaceGone ns begun
    obtain ⟨rfl, rfl⟩ : goneOf answer = seen ∧ h' = h := Prod.mk.inj <|
      hlook.symm.trans (hs.made (.look begun seen h) (by simp))
    let first : Answered τ := ⟨answer, begun.now⟩
    have hasks : asked [first.reads ns] = [first].map (Answered.reads ns) := rfl
    rcases hcases with ⟨rfl, hconcludes, rfl⟩ | ⟨hseen, hearly, cut, h₁, more, rfl, hrest, hmore⟩
    · have hlast : Vigil timeout deadline h' [first] e := by
        generalize hgone : goneOf answer = seen at hconcludes
        cases hconcludes with
        | enough => exact .gone (missing_of_goneOf hgone)
        | failed =>
          obtain ⟨fault, rfl, hother, rfl⟩ := fault_of_goneOf hgone
          exact .failed hother
        | late hlate =>
          obtain rfl := present_of_goneOf hgone
          exact .late hlate
      exact ⟨[first.reads ns], first, [], hevents, hasks, rfl, hlast⟩
    · obtain rfl := present_of_goneOf hseen
      obtain ⟨rested, hrested, hsilent⟩ := Pace.rest_asks_nothing hrest
      let length := min pace.interval (deadline - h'.now)
      have hsplit : .look begun (goneOf (.ok ())) h' :: .rest h' length cut h₁ :: more =
        [.look begun (goneOf (.ok ())) h'] ++ .rest h' length cut h₁ :: more := rfl
      cases cut with
      | true =>
        rcases hs.later_cases hsplit with ⟨rfl, hconcludes, rfl⟩ | ⟨_, _, -, hgoes⟩
        · cases hconcludes
          refine ⟨first.reads ns :: rested, first, [], ?_, ?_, rfl,
            .cancelled (Pace.rest_cut hrest).2.1⟩
          · simp [Stride.after, hrested, hevents, first, Answered.reads]
          · rw [← List.singleton_append, asked_append, hsilent, hasks]
            rfl
        · cases hgoes
      | false =>
        have hin : h₁.now ≤ deadline :=
          (hs.inTime hinterval hsplit nofun).2.2
        have hshorter : more.length < more.length + 1 + 1 := by omega
        obtain ⟨evs, next, later, hlater, hall, hnext, hvigil⟩ :=
          ih more.length hshorter (hmore rfl) rfl
        refine ⟨first.reads ns :: (rested ++ evs), first, next :: later, ?_, ?_, rfl,
          .again (hnext ▸ hin) hvigil⟩
        · simp [hlater, hrested, hevents, first, Answered.reads]
        · rw [← List.singleton_append, asked_append, asked_append, hsilent, hasks, hall]
          rfl

/-- A namespace is deleted, and if that was not refused there is a vigil over it. -/
theorem removeNamespace_vigil (hw : w.Forward) (hinterval : 0 < pace.interval) (timeout : τ)
    (ns : String) (h : History τ σ) :
    ∃ evs deletion looks r ended, w.run (removeNamespace pace timeout ns).run h = (r, ended) ∧
      ended.events = evs.reverse ++ h.events ∧ asked evs = removal ns deletion looks none ∧
      ((∃ fault, deletion.answer = .error fault ∧ looks = [] ∧ r = .error fault.failure) ∨
        (deletion.answer = .ok () ∧ ∃ first later e, looks = first :: later ∧ r = settled e ∧
          Vigil timeout (first.time + timeout) ended looks e)) := by
  obtain ⟨answer, h₁, hdelete, hdeleted⟩ := w.run_apiOrFail (.delete (Assets.nsRef ns)) h
  let deletion : Answered τ := ⟨answer, h.now⟩
  cases hanswer : answer with
  | error fault =>
    subst hanswer
    exact ⟨[deletion.deletes (Assets.nsRef ns)], deletion, [], _, h₁,
      World.run_step_error hdelete, hdeleted, rfl, .inl ⟨fault, rfl, rfl, rfl⟩⟩
  | ok _ =>
    subst hanswer
    let waiting : Event τ := .logged .info s!"Waiting for namespace {ns} to be deleted"
    let h₂ : History τ σ := { h₁ with events := waiting :: h₁.events }
    obtain ⟨steps, e, ended, hs, hwait⟩ :=
      waitUntil_schedule hw (brisk_namespaceGone ns) hinterval timeout true h₂
    obtain ⟨evs, first, later, hended, hlooks, htime, hvigil⟩ := hs.vigil hinterval
    refine ⟨deletion.deletes (Assets.nsRef ns) :: waiting :: evs, deletion, first :: later, _, ended,
      (World.run_step_ok hdelete).trans hwait, ?_, ?_, .inr ⟨rfl, first, later, e, rfl, rfl, ?_⟩⟩
    · simp [hended, h₂, hdeleted, deletion, Answered.deletes]
    · have hskip : asked (deletion.deletes (Assets.nsRef ns) :: waiting :: evs) =
        deletion.deletes (Assets.nsRef ns) :: asked evs := rfl
      rw [hskip, hlooks]
      simp [removal]
    · rw [htime]
      exact hvigil

/-- **The binding goes only after the namespace is confirmed gone.** A namespace of the benchmark's
own is deleted once and looked at until a look does not find it, the deadline has passed or the run is
stopped. The binding is deleted, once and last, exactly when the first look that did not find the
namespace was told that it is not there. -/
theorem removeAssets_own (hw : w.Forward) (hinterval : 0 < pace.interval) (timeout : τ)
    (ns : String) (h : History τ σ) :
    let run := w.run (removeAssets pace timeout false ns).run h
    ∃ evs deletion looks binding, run.2.events = evs.reverse ++ h.events ∧
      asked evs = removal ns deletion looks binding ∧
      objectsOf (deletions evs) =
        Assets.nsRef ns :: binding.toList.map (fun _ => Assets.bindingRef ns) ∧
      RemovesOwn timeout deletion looks binding run.1 run.2 := by
  intro run
  suffices hall : ∃ evs deletion looks binding, run.2.events = evs.reverse ++ h.events ∧
      asked evs = removal ns deletion looks binding ∧
      RemovesOwn timeout deletion looks binding run.1 run.2 by
    obtain ⟨evs, deletion, looks, binding, hevents, hasked, hremoves⟩ := hall
    refine ⟨evs, deletion, looks, binding, hevents, hasked, ?_, hremoves⟩
    rw [← deletions_asked, hasked, objectsOf_removal]
  let unbind : Action τ Unit := Action.apiOrFail (.delete (Assets.bindingRef ns))
  let cleaning : Event τ := .logged .info "Cleaning up resources"
  let h₁ : History τ σ := { h with events := cleaning :: h.events }
  have hrun : run = w.run (removeNamespace pace timeout ns >>= fun _ => unbind).run h₁ :=
    World.run_log_bind ..
  obtain ⟨evs, deletion, looks, r, ended, hremove, hended, hasked, hcases⟩ :=
    removeNamespace_vigil hw hinterval timeout ns h₁
  have hbefore : ended.events = (cleaning :: evs).reverse ++ h.events := by simp [hended, h₁]
  -- What fails is the last thing that is done.
  have hfails : ∀ {x : Failure}, r = .error x → run = (.error x, ended) := fun hr =>
    hrun.trans (World.run_step_error (hr ▸ hremove))
  rcases hcases with ⟨fault, hfault, rfl, hr⟩ | ⟨hok, first, later, e, rfl, rfl, hvigil⟩
  · rw [hfails hr]
    exact ⟨cleaning :: evs, deletion, [], none, hbefore, hasked, .of_refused hfault⟩
  by_cases hgone : e = .ok none
  · subst hgone
    obtain ⟨answer, h₂, hunbind, hunbound⟩ := w.run_apiOrFail (.delete (Assets.bindingRef ns)) ended
    let binding : Answered τ := ⟨answer, ended.now⟩
    have hends : run = (answer.mapError ApiFault.failure, h₂) :=
      hrun.trans ((World.run_step_ok hremove).trans hunbind)
    rw [hends]
    refine ⟨cleaning :: evs ++ [binding.deletes (Assets.bindingRef ns)], deletion, first :: later,
      some binding, ?_, ?_, hvigil.removesOwn hok (by simp) (fun x hx => ?_) nofun⟩
    · rw [hunbound, hbefore, List.reverse_append]
      rfl
    · have hskip : asked (cleaning :: evs) = asked evs := rfl
      rw [asked_append, hskip, hasked]
      simp [removal, asked, Answered.deletes, Event.isAsked]
    · obtain rfl := Option.some.inj hx
      rfl
  · obtain ⟨x, hx⟩ : ∃ x, settled e = .error x := by
      rcases e with x | _ | fault
      · exact ⟨x, rfl⟩
      · exact absurd rfl hgone
      · exact ⟨.wait fault, rfl⟩
    rw [hfails hx]
    exact ⟨cleaning :: evs, deletion, first :: later, none, hbefore, hasked,
      hvigil.removesOwn hok (by simpa using hgone) (by simp) fun _ => ⟨hx.symm, rfl⟩⟩

end

namespace Sample

/-- Surroundings in which a namespace that was deleted is there for two more looks, and answers take
a quarter of a unit of time. -/
def lingering : World ℚ Nat where
  answer q s := (match q with
    | .api (.readNamespace _) => if s < 3 then .ok () else .error Ideal.missing
    | q => reply (Ideal.answer {}) q, 1 / 4, s + 1)

end Sample

/-- The third look does not find the namespace, and then the binding goes. -/
theorem removeAssets_own_lingering :
    let begun : History ℚ Nat := { now := 0, state := 0 }
    let run := Sample.lingering.run (removeAssets ⟨1, true⟩ 10 false "bench").run begun
    Sample.lingering.Forward ∧
    (∃ evs deletion looks binding, run.2.events = evs.reverse ++ begun.events ∧
      asked evs = removal "bench" deletion looks binding ∧
      objectsOf (deletions evs) =
        Assets.nsRef "bench" :: binding.toList.map (fun _ => Assets.bindingRef "bench") ∧
      RemovesOwn 10 deletion looks binding run.1 run.2) ∧
    run.1 = .ok () ∧ objectsOf (deletions run.2.events.reverse) =
      [Assets.nsRef "bench", Assets.bindingRef "bench"] := by
  intro begun run
  have hforward : Sample.lingering.Forward := fun _ _ => by norm_num [Sample.lingering]
  exact ⟨hforward, removeAssets_own hforward one_pos 10 "bench" begun, by decide +kernel,
    by decide +kernel⟩

end IngressBench
