import IngressBench.Indexing.Sink
import IngressBench.Proofs.Program.Keeps
import IngressBench.Proofs.Program.Standing

/-!
What a sink leaves. A streaming sink that is given the results of a test case makes one delivery of
their documents and keeps none of them (`accept_leaves_streaming`); a batch sink keeps them
(`accept_leaves_batch`), and makes one delivery of all that it kept when it is closed
(`close_leaves_batch`). A sink whose deliveries are stored or refused never fails.
-/
namespace IngressBench

variable {τ α : Type}

/-- A question that a sink asks to store documents. -/
def Question.Stores : Question → Prop
  | .index .. | .bulk .. | .file _ => True
  | _ => False

/-! ### What its events are like -/

section
variable {P : Event τ → Prop}

theorem Directory.only_write (hP : ∀ call r time, P (.asked (.file call) r time))
    (directory name : String) (documents : Document) :
    (Directory.write directory name documents : Action τ Unit).Only P := by
  unfold Directory.write
  obtain ⟨text, flaw⟩ := Json.pages documents
  refine Action.only_bind (Action.only_ask (hP _)) fun written => ?_
  cases written with
  | error e => exact Action.only_throw _
  | ok _ =>
    cases flaw with
    | some flaw => exact Action.only_throw _
    | none =>
      refine Action.only_bind (Action.only_ask (hP _)) fun renamed => ?_
      cases renamed with
      | error e => exact Action.only_throw _
      | ok _ => exact Action.only_pure _

/-- A directory is a matter of files. -/
theorem Directory.only_store (hP : ∀ call r time, P (.asked (.file call) r time))
    (directory : String) (label : Option String) (documents : Document) :
    (Directory.store directory label documents : Action τ String).Only P := by
  unfold Directory.store
  extract_lets name proceed
  split
  · exact Action.only_throw _
  · refine Action.only_bind (Directory.only_write hP _ _ _) fun _ => ?_
    exact Action.only_bind (Action.only_ofExcept _) fun _ => Action.only_pure _

theorem Store.only_put (hP : ∀ q : Question, q.Stores → ∀ r time, P (.asked q r time))
    (store : Store) (label : Option String) (documents : Document) :
    (store.put label documents : Action τ String).Only P := by
  cases store with
  | directory path => exact Directory.only_store (fun _ => hP _ trivial) path label documents
  | search servers index =>
    refine Action.only_bind (Action.only_ofExcept _) fun documents => ?_
    refine Action.only_bind (Action.only_ask (hP _ trivial)) fun answer => ?_
    cases answer with
    | stored count => exact Action.only_pure _
    | refused count => exact Action.only_throw _
    | failed failure => exact Action.only_throw _
  | outside =>
    refine Action.only_bind (Action.only_ask (hP _ trivial)) fun answer => ?_
    cases answer with
    | ok status => exact Action.only_pure _
    | error failure => exact Action.only_throw _

namespace Sink

variable (hlog : ∀ level text, P (.logged level text))
include hlog

/-- A delivery leaves what its place leaves, and a line of the log. -/
theorem only_deliver {store : Store} {label : Option String} {documents : List Document}
    (h : (store.put label (.list documents) : Action τ String).Only P) :
    (deliver store label documents : Action τ Bool).Only P := by
  refine Action.only_bind (Action.only_attempt h) fun outcome => ?_
  cases outcome with
  | ok status => exact Action.only_bind (Action.only_log (hlog _ _)) fun _ => Action.only_pure _
  | error failure =>
    cases failure with
    | indexing fault =>
      exact Action.only_bind (Action.only_log (hlog _ _)) fun _ => Action.only_pure _
    | _ => exact Action.only_throw _

variable (hP : ∀ q : Question, q.Stores → ∀ r time, P (.asked q r time))
include hP

theorem only_flush (label : Option String) : (flush label : Keeping Sink τ Bool).Only P := by
  refine Keeping.only_bind Keeping.only_get fun s => ?_
  refine Keeping.only_bind (Keeping.only_set _) fun _ => ?_
  exact Keeping.only_lift (only_deliver hlog (s.store.only_put hP label _))

theorem only_accept (results : List (Option Result)) :
    (accept results : Keeping Sink τ Unit).Only P := by
  refine Keeping.only_bind Keeping.only_get fun s => ?_
  obtain ⟨documents, complete⟩ := documentsOf results
  refine Keeping.only_bind (Keeping.only_set _) fun _ => ?_
  cases complete with
  | false => exact Keeping.only_throw _
  | true =>
    cases s.cadence with
    | streaming => exact Keeping.only_discard (only_flush hlog hP none)
    | batch run => exact Keeping.only_pure _

theorem only_close : (close : Keeping Sink τ Unit).Only P := by
  refine Keeping.only_bind Keeping.only_get fun s => ?_
  split
  · split
    · exact Keeping.only_discard (only_flush hlog hP none)
    · exact Keeping.only_pure _
  · exact Keeping.only_discard (only_flush hlog hP _)

end Sink
end

/-! ### What is asked for -/

namespace Sink

theorem asks_accept (results : List (Option Result)) :
    (accept results : Keeping Sink τ Unit).Asks Question.Stores :=
  only_accept (fun _ _ => trivial) (fun _ h _ _ => h) results

theorem asks_close : (close : Keeping Sink τ Unit).Asks Question.Stores :=
  only_close (fun _ _ => trivial) fun _ h _ _ => h

/-! ### Where it leads -/

end Sink

/-- A place for documents leaves a free run free, unless it fails in another way than by not storing
them. -/
def Tolerable (r : Except Failure α) (t : Standing) : Prop :=
  (∀ x, r = .error x → ∃ fault, x = .indexing fault) → t = .free

theorem Directory.guards_write (directory name : String) (documents : Document) :
    (Directory.write directory name documents : Action τ Unit).Guards .free fun _ t =>
      t = .free := by
  unfold Directory.write
  obtain ⟨text, flaw⟩ := Json.pages documents
  refine Action.guards_ask_bind (fun _ => rfl) fun written => ?_
  cases written with
  | error e => exact Action.guards_throw rfl
  | ok _ =>
    cases flaw with
    | some flaw => exact Action.guards_throw rfl
    | none =>
      refine Action.guards_ask_bind (fun _ => rfl) fun renamed => ?_
      cases renamed with
      | error e => exact Action.guards_throw rfl
      | ok _ => exact Action.guards_pure rfl

theorem Directory.guards_store (directory : String) (label : Option String)
    (documents : Document) :
    (Directory.store directory label documents : Action τ String).Guards .free fun _ t =>
      t = .free := by
  unfold Directory.store
  extract_lets name proceed
  split
  · exact Action.guards_throw rfl
  · refine Action.guards_bind (Directory.guards_write directory _ documents) (fun _ _ h => h)
      fun _ t ht => ?_
    rw [ht]
    exact Action.guards_ofExcept_bind (fun _ _ => rfl) fun _ _ => Action.guards_pure rfl

theorem Store.guards_put (store : Store) (label : Option String) (documents : Document) :
    (store.put label documents : Action τ String).Guards .free Tolerable := by
  cases store with
  | directory path =>
    exact Action.guards_mono (Directory.guards_store path label documents) fun _ _ ht _ => ht
  | search servers index =>
    refine Action.guards_ofExcept_bind (fun _ _ _ => rfl) fun documents _ => ?_
    refine Action.guards_ask_bind (fun _ => rfl) fun answer => ?_
    cases answer with
    | stored count => exact Action.guards_pure fun _ => rfl
    | refused count => exact Action.guards_throw fun _ => rfl
    | failed failure => exact Action.guards_throw fun _ => rfl
  | outside =>
    refine Action.guards_ask_bind (fun _ => rfl) fun answer => ?_
    cases answer with
    | ok status => exact Action.guards_pure fun _ => rfl
    | error failure =>
      refine Action.guards_throw fun h => ?_
      obtain ⟨fault, rfl⟩ := h failure rfl
      rfl

namespace Sink

/-- Documents that are refused end no run; any other failure of the place does. -/
theorem guards_deliver (store : Store) (label : Option String) (documents : List Document) :
    (deliver store label documents : Action τ Bool).Guards .free Standing.free.Well := by
  refine Action.guards_attempt_bind (Store.guards_put store label _) fun outcome t ht => ?_
  cases outcome with
  | ok status =>
    rw [ht fun _ h => nomatch h]
    exact Action.guards_log_bind (Action.guards_pure (Standing.free.well_ok _))
  | error failure =>
    cases failure with
    | indexing fault =>
      rw [ht fun x h => ⟨fault, (Except.error.inj h).symm⟩]
      exact Action.guards_log_bind (Action.guards_pure (Standing.free.well_ok _))
    | _ => exact Action.guards_throw (Standing.free.well_error _ _)

theorem guards_flush (label : Option String) :
    (flush label : Keeping Sink τ Bool).Guards .free .free := by
  refine Keeping.guards_bind Keeping.guards_get fun s => ?_
  refine Keeping.guards_bind (Keeping.guards_set _) fun _ => ?_
  exact Keeping.guards_lift (guards_deliver s.store label s.buffer)

theorem guards_accept (results : List (Option Result)) :
    (accept results : Keeping Sink τ Unit).Guards .free .free := by
  refine Keeping.guards_bind Keeping.guards_get fun s => ?_
  obtain ⟨documents, complete⟩ := documentsOf results
  refine Keeping.guards_bind (Keeping.guards_set _) fun _ => ?_
  cases complete with
  | false => exact Keeping.guards_throw _
  | true =>
    cases s.cadence with
    | streaming => exact Keeping.guards_discard (guards_flush none)
    | batch run => exact Keeping.guards_pure _

theorem guards_close : (close : Keeping Sink τ Unit).Guards .free .free := by
  refine Keeping.guards_bind Keeping.guards_get fun s => ?_
  split
  · split
    · exact Keeping.guards_discard (guards_flush none)
    · exact Keeping.guards_pure _
  · exact Keeping.guards_discard (guards_flush _)

/-! ### What is left -/

/-- The documents of results. -/
theorem documentsOf_map_some (results : List Result) :
    documentsOf (results.map some) = (results.map Result.document, true) := by
  induction results with
  | nil => rfl
  | cons r rest ih =>
    show (r.document :: (documentsOf (rest.map some)).1, (documentsOf (rest.map some)).2) = _
    rw [ih]
    rfl

/-- The sink gives its documents away before the place answers. -/
theorem flush_leaves {label : Option String} {s s' : Sink} {evs : List (Event τ)}
    {r : Except Failure Bool} :
    (flush label).Leaves s evs r s' ↔
      (deliver s.store label s.buffer).Leaves evs r ∧ s' = { s with buffer := [] } := by
  refine Iff.trans Keeping.leaves_get_bind (Iff.trans Keeping.leaves_set_bind ?_)
  exact Keeping.leaves_lift

/-- **A streaming sink delivers what it is given**, and keeps nothing. -/
theorem accept_leaves_streaming {results : List Result} {s s' : Sink} {evs : List (Event τ)}
    {r : Except Failure Unit} (hs : s.cadence = .streaming)
    (h : (accept (results.map some)).Leaves s evs r s') :
    s' = { s with buffer := [] } ∧ ∃ outcome : Except Failure Bool,
      (deliver s.store none (s.buffer ++ results.map Result.document)).Leaves evs outcome ∧
        r = outcome.map fun _ => () := by
  obtain ⟨cadence, store, buffer⟩ := s
  obtain rfl : cadence = .streaming := hs
  have h₁ := Keeping.leaves_get_bind.mp h
  rw [documentsOf_map_some] at h₁
  have h₂ := Keeping.leaves_set_bind.mp h₁
  obtain ⟨outcome, hflush, rfl⟩ := Keeping.leaves_discard.mp h₂
  obtain ⟨hdeliver, rfl⟩ := flush_leaves.mp hflush
  exact ⟨rfl, outcome, hdeliver, rfl⟩

/-- **A batch sink keeps what it is given**, and delivers nothing. -/
theorem accept_leaves_batch {results : List Result} {s s' : Sink} {evs : List (Event τ)}
    {r : Except Failure Unit} {run : String} (hs : s.cadence = .batch run)
    (h : (accept (results.map some)).Leaves s evs r s') :
    s' = { s with buffer := s.buffer ++ results.map Result.document } ∧ evs = [] ∧ r = .ok () := by
  obtain ⟨cadence, store, buffer⟩ := s
  obtain rfl : cadence = .batch run := hs
  have h₁ := Keeping.leaves_get_bind.mp h
  rw [documentsOf_map_some] at h₁
  have h₂ := Keeping.leaves_set_bind.mp h₁
  obtain ⟨rfl, rfl, rfl⟩ := Keeping.leaves_pure.mp h₂
  exact ⟨rfl, rfl, rfl⟩

/-- A streaming sink that keeps nothing closes without a delivery. -/
theorem close_leaves_streaming {s s' : Sink} {evs : List (Event τ)} {r : Except Failure Unit}
    (hs : s.cadence = .streaming) (hbuffer : s.buffer = []) (h : close.Leaves s evs r s') :
    s' = s ∧ evs = [] ∧ r = .ok () := by
  have h₁ := Keeping.leaves_get_bind.mp h
  rw [hs, hbuffer] at h₁
  obtain ⟨rfl, rfl, rfl⟩ := Keeping.leaves_pure.mp h₁
  exact ⟨rfl, rfl, rfl⟩

/-- **A batch sink delivers all that it kept when it is closed.** -/
theorem close_leaves_batch {s s' : Sink} {evs : List (Event τ)} {r : Except Failure Unit}
    {run : String} (hs : s.cadence = .batch run) (h : close.Leaves s evs r s') :
    s' = { s with buffer := [] } ∧ ∃ outcome : Except Failure Bool,
      (deliver s.store (some run) s.buffer).Leaves evs outcome ∧ r = outcome.map fun _ => () := by
  have h₁ := Keeping.leaves_get_bind.mp h
  rw [hs] at h₁
  obtain ⟨outcome, hflush, rfl⟩ := Keeping.leaves_discard.mp h₁
  obtain ⟨hdeliver, rfl⟩ := flush_leaves.mp hflush
  exact ⟨rfl, outcome, hdeliver, rfl⟩

/-! ### What a sink keeps -/

/-- A sink without its documents. -/
def emptied (sink : Sink) : Sink :=
  { sink with buffer := [] }

/-- Sinks that differ in their documents. -/
def Alike (sink sink' : Sink) : Prop :=
  sink'.emptied = sink.emptied

/-- Taking results changes the documents of a sink only. -/
theorem keeps_accept (results : List (Option Result)) :
    (accept results : Keeping Sink τ Unit).Keeps Alike := by
  rintro ⟨cadence, store, buffer⟩ evs r s' h
  have h₁ := Keeping.leaves_get_bind.mp h
  generalize documentsOf results = found at h₁
  obtain ⟨documents, complete⟩ := found
  have h₂ := Keeping.leaves_set_bind.mp h₁
  cases complete with
  | false =>
    obtain ⟨-, -, rfl⟩ := Keeping.leaves_throw.mp h₂
    rfl
  | true =>
    cases cadence with
    | streaming =>
      obtain ⟨outcome, hflush, -⟩ := Keeping.leaves_discard.mp h₂
      obtain ⟨-, rfl⟩ := flush_leaves.mp hflush
      rfl
    | batch run =>
      obtain ⟨-, -, rfl⟩ := Keeping.leaves_pure.mp h₂
      rfl

/-- **A closed sink keeps no documents.** -/
theorem close_leaves {s s' : Sink} {evs : List (Event τ)} {r : Except Failure Unit}
    (h : close.Leaves s evs r s') : s' = s.emptied := by
  obtain ⟨cadence, store, buffer⟩ := s
  cases cadence with
  | streaming =>
    have h₁ := Keeping.leaves_get_bind.mp h
    cases buffer with
    | nil =>
      obtain ⟨-, -, rfl⟩ := Keeping.leaves_pure.mp h₁
      rfl
    | cons document rest =>
      obtain ⟨outcome, hflush, -⟩ := Keeping.leaves_discard.mp h₁
      exact (flush_leaves.mp hflush).2
  | batch run => exact (close_leaves_batch rfl h).1

/-! ### Deliveries to the surroundings -/

/-- A delivery is one question. It fails only when the question is answered by another failure than
that the documents are not stored. -/
theorem deliver_leaves {label : Option String} {documents : List Document} {evs : List (Event τ)}
    {r : Except Failure Bool} (h : (deliver .outside label documents).Leaves evs r) :
    ∃ (reply : Except Failure Document) (time : τ) (lines : List (Event τ)),
      evs = .asked (.index (.list documents) label) reply time :: lines ∧
      (∀ e ∈ lines, e.Asks fun _ => False) ∧
      ∀ x, r = .error x → reply = .error x ∧ ∀ fault, x ≠ .indexing fault := by
  obtain ⟨outcome, first, rest, hput, hr, rfl⟩ := Action.leaves_attempt_bind.mp h
  obtain ⟨reply, time, none, hp, rfl⟩ := Action.leaves_ask_bind.mp hput
  cases reply with
  | ok status =>
    obtain ⟨rfl, rfl⟩ := Action.leaves_pure.mp hp
    obtain ⟨_, hlast, rfl⟩ := Action.leaves_log_bind.mp hr
    obtain ⟨rfl, rfl⟩ := Action.leaves_pure.mp hlast
    refine ⟨_, time, _, rfl, fun e he => ?_, fun x hx => nomatch hx⟩
    obtain rfl := List.mem_singleton.mp he
    trivial
  | error failure =>
    obtain ⟨rfl, rfl⟩ := Action.leaves_throw.mp hp
    cases failure with
    | indexing fault =>
      obtain ⟨_, hlast, rfl⟩ := Action.leaves_log_bind.mp hr
      obtain ⟨rfl, rfl⟩ := Action.leaves_pure.mp hlast
      refine ⟨_, time, _, rfl, fun e he => ?_, fun x hx => nomatch hx⟩
      obtain rfl := List.mem_singleton.mp he
      trivial
    | _ =>
      obtain ⟨rfl, rfl⟩ := Action.leaves_throw.mp hr
      refine ⟨_, time, [], rfl, fun e he => absurd he List.not_mem_nil, fun x hx => ?_⟩
      obtain rfl := Except.error.inj hx
      exact ⟨rfl, fun _ h => nomatch h⟩

end Sink
end IngressBench
