import IngressBench.File.Volume
import IngressBench.Proofs.File.Path
import IngressBench.World

/-!
What changes in a tree of files. A change of one entry leaves every other one as it is, and as long as
all directories stay (`Volume.KeepsDirectories`) paths lead where they led before (`Volume.walk_keeps`).
So a path inside a standing directory leads to its own name there, if it leads anywhere
(`Volume.Stands.located_inside`).

Surroundings keep their files in a tree (`World.Files`) when every call does what the tree does, or
fails: a write that fails may leave anything in its file, and a renaming that fails leaves all as it
was.
-/
namespace IngressBench

/-- When a key is left out, the entries of the others are found as before. -/
theorem lookup_filter_ne {κ α : Type} [BEq κ] [LawfulBEq κ] [DecidableEq κ]
    (entries : List (κ × α)) (left key : κ) :
    (entries.filter fun e => e.1 ≠ left).lookup key =
      if key = left then none else entries.lookup key := by
  induction entries with
  | nil => simp
  | cons e rest ih => grind

namespace Volume

variable {v v' : Volume} {place loc : Location} {entry : FileEntry}

/-! ### Single entries -/

/-- Where paths start or lead up from there is always a directory. -/
def IsFixed (loc : Location) : Prop :=
  loc = [] ∨ loc = ["/"] ∨ loc.all (· = "..") = true

theorem find?_fixed (v : Volume) (h : IsFixed loc) : v.find? loc = some .directory :=
  if_pos h

theorem find?_of_not_isFixed (v : Volume) (h : ¬ IsFixed loc) :
    v.find? loc = v.entries.lookup loc :=
  if_neg h

theorem find?_put_self (v : Volume) (h : ¬ IsFixed place) :
    (v.put place entry).find? place = some entry := by
  rw [find?_of_not_isFixed _ h]
  exact List.lookup_cons_self

theorem find?_put_of_ne (v : Volume) (h : loc ≠ place) :
    (v.put place entry).find? loc = v.find? loc := by
  by_cases hfixed : IsFixed loc
  · rw [find?_fixed _ hfixed, find?_fixed _ hfixed]
  · rw [find?_of_not_isFixed _ hfixed, find?_of_not_isFixed _ hfixed]
    show ((place, entry) :: v.entries.filter fun e => e.1 ≠ place).lookup loc = _
    rw [List.lookup_cons, beq_false_of_ne h, lookup_filter_ne, if_neg h]

theorem find?_remove_self (v : Volume) (h : ¬ IsFixed place) :
    (v.remove place).find? place = none := by
  rw [find?_of_not_isFixed _ h]
  show (v.entries.filter fun e => e.1 ≠ place).lookup place = none
  rw [lookup_filter_ne, if_pos rfl]

theorem find?_remove_of_ne (v : Volume) (h : loc ≠ place) :
    (v.remove place).find? loc = v.find? loc := by
  by_cases hfixed : IsFixed loc
  · rw [find?_fixed _ hfixed, find?_fixed _ hfixed]
  · rw [find?_of_not_isFixed _ hfixed, find?_of_not_isFixed _ hfixed]
    show (v.entries.filter fun e => e.1 ≠ place).lookup loc = _
    rw [lookup_filter_ne, if_neg h]

/-- Where there is no directory paths do not start. -/
theorem not_isFixed (h : v.find? loc ≠ some .directory) : ¬ IsFixed loc :=
  fun hfixed => h (v.find?_fixed hfixed)

/-! ### Directories -/

/-- Every directory is one afterwards as well. -/
def KeepsDirectories (v v' : Volume) : Prop :=
  ∀ loc, v.find? loc = some .directory → v'.find? loc = some .directory

theorem KeepsDirectories.trans {v'' : Volume} (h : v.KeepsDirectories v')
    (h' : v'.KeepsDirectories v'') : v.KeepsDirectories v'' :=
  fun loc hloc => h' loc (h loc hloc)

theorem keepsDirectories_put (h : v.find? place ≠ some .directory) :
    v.KeepsDirectories (v.put place entry) := by
  intro loc hloc
  have hne : loc ≠ place := by
    rintro rfl
    exact h hloc
  rw [find?_put_of_ne v hne, hloc]

theorem keepsDirectories_remove (h : v.find? place ≠ some .directory) :
    v.KeepsDirectories (v.remove place) := by
  intro loc hloc
  have hne : loc ≠ place := by
    rintro rfl
    exact h hloc
  rw [find?_remove_of_ne v hne, hloc]

/-! ### Paths -/

theorem walk_append (v : Volume) (loc : Location) (first rest : List String) :
    v.walk loc (first ++ rest) = (v.walk loc first).bind fun place => v.walk place rest := by
  induction first generalizing loc with
  | nil => rfl
  | cons name names ih =>
    simp only [List.cons_append, walk]
    split
    · rfl
    · rfl
    · split
      · rfl
      · split
        · exact ih _
        · exact ih _

/-- A path leads where it led as long as the directories stay. -/
theorem walk_keeps (h : v.KeepsDirectories v') {names : List String}
    (hwalk : v.walk loc names = .ok place) : v'.walk loc names = .ok place := by
  induction names generalizing loc with
  | nil => exact hwalk
  | cons name names ih =>
    unfold walk at hwalk ⊢
    split at hwalk
    · cases hwalk
    · cases hwalk
    · rename_i hdirectory
      rw [h loc hdirectory]
      dsimp only
      split at hwalk
      · cases hwalk
      · rename_i hshort
        rw [if_neg hshort]
        split at hwalk
        · rename_i hup
          rw [if_pos hup]
          exact ih hwalk
        · rename_i hup
          rw [if_neg hup]
          exact ih hwalk

/-- Where a path starts. -/
def start (path : String) : Location :=
  if path.startsWith "/" then ["/"] else []

/-- A path that leads somewhere. -/
theorem locate_eq_ok_iff {path : String} : v.locate path = .ok place ↔
    path ≠ "" ∧ '\x00' ∉ path.toList ∧ v.walk (start path) (Path.parts path) = .ok place := by
  unfold locate
  by_cases hempty : path = ""
  · simp [hempty]
  by_cases hnull : '\x00' ∈ path.toList
  · simp [hempty, hnull]
  · simp [hempty, hnull, start]

theorem locate_keeps (h : v.KeepsDirectories v') {path : String}
    (hlocate : v.locate path = .ok place) : v'.locate path = .ok place := by
  obtain ⟨hempty, hnull, hwalk⟩ := locate_eq_ok_iff.mp hlocate
  exact locate_eq_ok_iff.mpr ⟨hempty, hnull, walk_keeps h hwalk⟩

/-- The directory of a path is there, at this place. -/
structure Stands (v : Volume) (directory : String) (place : Location) : Prop where
  located : v.locate directory = .ok place
  isDirectory : v.find? place = some .directory

namespace Stands

variable {directory name : String}

theorem keeps (h : v.Stands directory place) (hkeeps : v.KeepsDirectories v') :
    v'.Stands directory place :=
  ⟨locate_keeps hkeeps h.located, hkeeps place h.isDirectory⟩

/-- The walk to a name inside a directory ends there, if the name is not too long. -/
theorem walk_join (h : v.Stands directory place) (hname : Path.IsPart name) (hup : name ≠ "..") :
    v.walk (start (Path.join directory name)) (Path.parts (Path.join directory name)) =
      if name.utf8ByteSize > nameLimit then .error .nameTooLong else .ok (place ++ [name]) := by
  obtain ⟨-, -, hdirectory⟩ := locate_eq_ok_iff.mp h.located
  have hstart : start (Path.join directory name) = start directory := by
    have habsolute := @Path.isAbsolute_join directory name
    unfold Path.IsAbsolute at habsolute
    simp [start, habsolute]
  rw [hstart, Path.parts_join, Path.parts_of_isPart hname, walk_append, hdirectory]
  simp only [Except.bind, walk, h.isDirectory, hup, decide_false, Bool.false_and,
    Bool.false_eq_true, if_false]

/-- **A name inside a directory leads to this name there**, if it leads anywhere. -/
theorem located_inside (h : v.Stands directory place) (hname : Path.IsPart name) (hup : name ≠ "..")
    (hlocate : v.locate (Path.join directory name) = .ok loc) : loc = place ++ [name] := by
  obtain ⟨-, -, hwalk⟩ := locate_eq_ok_iff.mp hlocate
  rw [h.walk_join hname hup] at hwalk
  split at hwalk
  · cases hwalk
  · exact (Except.ok.inj hwalk).symm

/-- A short name does lead there. -/
theorem locate_inside (h : v.Stands directory place) (hname : Path.IsPart name) (hup : name ≠ "..")
    (hshort : name.utf8ByteSize ≤ nameLimit)
    (hnull : '\x00' ∉ (Path.join directory name).toList) :
    v.locate (Path.join directory name) = .ok (place ++ [name]) := by
  refine locate_eq_ok_iff.mpr ⟨Path.join_ne_empty directory name, hnull, ?_⟩
  rw [h.walk_join hname hup, if_neg (by omega)]

end Stands

/-! ### Calls -/

/-- The place of a path that a file can be written to. -/
def Writable (v : Volume) (path : String) (place : Location) : Prop :=
  v.locate path = .ok place ∧ v.find? place ≠ some .directory

/-- How a call can fail otherwise than in the tree itself. -/
def Balks (v : Volume) : (call : FileCall) → call.Reply → Volume → Prop
  | .write path _, .error _, v' =>
    v' = v ∨ ∃ place bytes, v.Writable path place ∧ v' = v.put place (.file bytes)
  | .rename .., .error _, v' => v' = v
  | _, _, _ => False

/-- The reply to a call, and the tree after it: those of the tree itself, or a failure. -/
def Does (v : Volume) (call : FileCall) (reply : call.Reply) (v' : Volume) : Prop :=
  v.perform call = (reply, v') ∨ v.Balks call reply v'

theorem write_eq_ok {path text : String} (h : v.write path text = .ok v') :
    ∃ place, v.Writable path place ∧ v' = v.put place (.file text.toUTF8.data.toList) := by
  unfold write at h
  cases hlocate : v.locate path with
  | error fault =>
    rw [hlocate] at h
    cases h
  | ok place =>
    rw [hlocate] at h
    refine ⟨place, ⟨hlocate, fun hdirectory => ?_⟩, ?_⟩
    · simp only [bind, Except.bind, hdirectory] at h
      cases h
    · simp only [bind, Except.bind] at h
      split at h
      · cases h
      · exact (Except.ok.inj h).symm

/-- What can be written is written. -/
theorem perform_write {path text : String} (h : v.Writable path place) :
    v.perform (.write path text) = (.ok (), v.put place (.file text.toUTF8.data.toList)) := by
  obtain ⟨hlocate, hfree⟩ := h
  have hwrite : v.write path text = .ok (v.put place (.file text.toUTF8.data.toList)) := by
    unfold write
    rw [hlocate]
    simp only [bind, Except.bind]
    rfl
  show v.changed path none (v.write path text) = _
  rw [hwrite]
  rfl

/-- A file that can be moved is moved over what can be replaced. -/
theorem rename_eq_ok {source target : String} (h : v.rename source target = .ok v') :
    ∃ place goal entry, v.locate source = .ok place ∧ v.locate target = .ok goal ∧
      v.find? place = some entry ∧ (entry ≠ .directory → v.find? goal ≠ some .directory) ∧
      v' = (v.remove place).put goal entry := by
  unfold rename at h
  cases hplace : v.locate source with
  | error fault =>
    rw [hplace] at h
    cases h
  | ok place =>
    cases hgoal : v.locate target with
    | error fault =>
      rw [hplace, hgoal] at h
      cases h
    | ok goal =>
      rw [hplace, hgoal] at h
      simp only [bind, Except.bind] at h
      split at h
      · cases h
      · cases h
      · rename_i entry hentry hfree
        refine ⟨place, goal, entry, rfl, rfl, hentry, fun hfile hdirectory => ?_,
          (Except.ok.inj h).symm⟩
        cases entry with
        | directory => exact hfile rfl
        | file bytes => exact hfree bytes hdirectory rfl

/-- A file is moved to where there is no directory. -/
theorem perform_rename {source target : String} {goal : Location} {bytes : List UInt8}
    (hsource : v.locate source = .ok place) (hgoal : v.locate target = .ok goal)
    (hfile : v.find? place = some (.file bytes)) (hfree : v.find? goal ≠ some .directory) :
    v.perform (.rename source target) = (.ok (), (v.remove place).put goal (.file bytes)) := by
  have hrename : v.rename source target = .ok ((v.remove place).put goal (.file bytes)) := by
    unfold rename
    rw [hsource, hgoal]
    simp only [bind, Except.bind, hfile]
    rcases hentry : v.find? goal with _ | _ | _
    · rfl
    · exact absurd hentry hfree
    · rfl
  show v.changed source (some target) (v.rename source target) = _
  rw [hrename]
  rfl

namespace Does

variable {path text source target : String} {e : FileError}

/-- A write that succeeds puts the text into its file. -/
theorem write_ok (h : v.Does (.write path text) (.ok ()) v') :
    ∃ place, v.Writable path place ∧ v' = v.put place (.file text.toUTF8.data.toList) := by
  rcases h with h | h
  · cases hwrite : v.write path text with
    | error fault =>
      simp only [perform, changed, hwrite] at h
      cases h
    | ok v₁ =>
      simp only [perform, changed, hwrite] at h
      cases h
      exact write_eq_ok hwrite
  · exact h.elim

/-- A write that fails may leave anything in its file. -/
theorem write_error (h : v.Does (.write path text) (.error e) v') :
    v' = v ∨ ∃ place bytes, v.Writable path place ∧ v' = v.put place (.file bytes) := by
  rcases h with h | h
  · cases hwrite : v.write path text with
    | error fault =>
      simp only [perform, changed, hwrite] at h
      cases h
      exact .inl rfl
    | ok v₁ =>
      simp only [perform, changed, hwrite] at h
      cases h
  · exact h

theorem rename_ok (h : v.Does (.rename source target) (.ok ()) v') :
    ∃ place goal entry, v.locate source = .ok place ∧ v.locate target = .ok goal ∧
      v.find? place = some entry ∧ (entry ≠ .directory → v.find? goal ≠ some .directory) ∧
      v' = (v.remove place).put goal entry := by
  rcases h with h | h
  · cases hrename : v.rename source target with
    | error fault =>
      simp only [perform, changed, hrename] at h
      cases h
    | ok v₁ =>
      simp only [perform, changed, hrename] at h
      cases h
      exact rename_eq_ok hrename
  · exact h.elim

theorem rename_error (h : v.Does (.rename source target) (.error e) v') : v' = v := by
  rcases h with h | h
  · cases hrename : v.rename source target with
    | error fault =>
      simp only [perform, changed, hrename] at h
      cases h
      rfl
    | ok v₁ =>
      simp only [perform, changed, hrename] at h
      cases h
  · exact h

end Does

end Volume

/-- Surroundings that keep their files in a tree. -/
def World.Files {τ σ : Type} (w : World τ σ) (files : σ → Volume) : Prop :=
  ∀ call s, (files s).Does call (w.answer (.file call) s).1 (files (w.answer (.file call) s).2.2)

/-- A question about files, with its reply. -/
theorem World.Files.run_file_eq {τ σ : Type} [TimeScale τ] {w : World τ σ} {files : σ → Volume}
    (hw : w.Files files) {call : FileCall} {reply : call.Reply} {h : History τ σ}
    (hreply : (w.answer (.file call) h.state).1 = reply) :
    ∃ h' : History τ σ, w.run (Action.ask (.file call)).run h = (.ok reply, h') ∧
      (files h.state).Does call reply (files h'.state) := by
  subst hreply
  exact ⟨(w.reply (.ask (.file call)) h).2, rfl, hw call h.state⟩

/-- A question about files is answered as the tree does, or with a failure. -/
theorem World.Files.run_file {τ σ : Type} [TimeScale τ] {w : World τ σ} {files : σ → Volume}
    (hw : w.Files files) (call : FileCall) (h : History τ σ) :
    ∃ (reply : call.Reply) (h' : History τ σ),
      w.run (Action.ask (.file call)).run h = (.ok reply, h') ∧
      (files h.state).Does call reply (files h'.state) :=
  ⟨_, hw.run_file_eq rfl⟩

end IngressBench
