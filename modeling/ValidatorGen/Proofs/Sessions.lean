import ValidatorGen.Proofs.Traversal
import ValidatorGen.Session
import Mathlib.Data.List.Induction

/-!
# What passes of a session give

Between two passes of a session anything can be done to it, in any order: snapshots are merged, the
configuration is replaced, the flag is set, and a new flag is taken. All of this is put into
*commands* here, and a pass is described by the commands that led to it and nothing else. So there
is no state besides the three parts of a session, and none of them is lost or changed by a command
about another one.

* A pass is about all files that have been merged, in the order in which they were. Those that were
  merged before the configuration was replaced, or while the flag was set, are among them.
* The configuration is the last one that was set.
* The flag is not reset by a pass, nor by anything else but taking a new one. As long as it is set
  all passes are cancelled before they start: they give no artifacts and no diagnostics, and say so.

Main results:

* `Session.files_performAll`, `Session.config_performAll`, `Session.cancelled_performAll_iff` — the
  three parts of a session after any commands;
* `Session.run_start_performAll` — the pass after any commands;
* `Session.cancelled_of_run_iff` — an output says that the pass was cancelled exactly if it was.
-/

namespace ValidatorGen

open Number (Arithmetic)

namespace Session

/-- What is done to a session between its passes. A pass is not among them: it reads a session and
leaves it as it is. -/
inductive Command where
  | merge (c : Compilation)
  | configure (config : Config)
  | cancel
  | renew

/-- The session after a command. -/
def perform (s : Session) : Command → Session
  | .merge c => s.merge c
  | .configure config => s.configure config
  | .cancel => s.cancel
  | .renew => s.renew

/-- The session after commands, the first of which is performed first. -/
def performAll (s : Session) (commands : List Command) : Session :=
  commands.foldl perform s

namespace Command

/-- The files that a command adds. -/
def files : Command → List SourceFile
  | .merge c => c.files
  | _ => []

/-- The configuration that a command sets. -/
def config? : Command → Option Config
  | .configure config => some config
  | _ => none

end Command

/-- Whether the flag has been set and no new one has been taken since. The flag may have been set
several times. One of them counts if no new flag came after it. -/
def IsCancelledBy (commands : List Command) : Prop :=
  ∃ before after, commands = before ++ .cancel :: after ∧ .renew ∉ after

variable {s : Session} {commands : List Command}

theorem performAll_snoc (s : Session) (commands : List Command) (last : Command) :
    s.performAll (commands ++ [last]) = (s.performAll commands).perform last := by
  rw [performAll, List.foldl_append, List.foldl_cons, List.foldl_nil, performAll]

/-! ## The parts of a session

The last command decides what a session is like after it, so the inductions are on the end of the
list. -/

/-- No file is lost, and none is added twice. -/
theorem files_performAll (s : Session) (commands : List Command) :
    (s.performAll commands).compilation.files =
      s.compilation.files ++ commands.flatMap Command.files := by
  induction commands using List.reverseRecOn with
  | nil => simp [performAll]
  | append_singleton commands last ih =>
    -- only merging adds files; the other commands change other components
    have hStep : ∀ s : Session,
        (s.perform last).compilation.files = s.compilation.files ++ last.files := by
      intro s
      cases last with
      | merge c => rfl
      | configure config => exact (List.append_nil _).symm
      | cancel => exact (List.append_nil _).symm
      | renew => exact (List.append_nil _).symm
    rw [performAll_snoc, hStep, ih, List.flatMap_append, List.flatMap_singleton,
      List.append_assoc]

/-- Of all configurations the last one counts. -/
theorem config_performAll (s : Session) (commands : List Command) :
    (s.performAll commands).config =
      (commands.filterMap Command.config?).getLast?.getD s.config := by
  induction commands using List.reverseRecOn with
  | nil => rfl
  | append_singleton commands last ih =>
    rw [performAll_snoc, List.filterMap_append]
    cases last with
    | configure config => simp [perform, configure, Command.config?]
    | merge c => simpa [perform, merge, Command.config?] using ih
    | cancel => simpa [perform, cancel, Command.config?] using ih
    | renew => simpa [perform, renew, Command.config?] using ih

/-- What the last command does to the flag: it sets it, it takes a new one, or it leaves things as
they are. -/
theorem isCancelledBy_snoc_iff {last : Command} :
    IsCancelledBy (commands ++ [last]) ↔
      last = .cancel ∨ last ≠ .renew ∧ IsCancelledBy commands := by
  constructor
  · rintro ⟨before, after, hSplit, hNone⟩
    rcases List.eq_nil_or_concat' after with rfl | ⟨after, _, rfl⟩
    · exact .inl (List.singleton_inj.1 (List.append_inj' hSplit rfl).2)
    · -- the command that sets the flag is among the earlier ones
      rw [← List.cons_append, ← List.append_assoc] at hSplit
      obtain ⟨rfl, hLast⟩ := List.append_inj' hSplit rfl
      obtain rfl := List.singleton_inj.1 hLast
      rw [List.mem_append, List.mem_singleton, not_or] at hNone
      exact .inr ⟨fun hRenew => hNone.2 hRenew.symm, before, after, rfl, hNone.1⟩
  · rintro (rfl | ⟨hNotRenew, before, after, rfl, hNone⟩)
    · exact ⟨commands, [], rfl, List.not_mem_nil⟩
    · refine ⟨before, after ++ [last], by simp, ?_⟩
      simp [hNone, hNotRenew.symm]

/-- **The flag is set until a new one is taken.** -/
theorem cancelled_performAll_iff (hNotYet : s.cancelled = false) :
    (s.performAll commands).cancelled = true ↔ IsCancelledBy commands := by
  induction commands using List.reverseRecOn with
  | nil => simp [performAll, IsCancelledBy, hNotYet]
  | append_singleton commands last ih =>
    rw [performAll_snoc, isCancelledBy_snoc_iff, ← ih]
    cases last with
    | merge c => simp [perform, merge]
    | configure config => simp [perform, configure]
    | cancel => simp [perform, cancel]
    | renew => simp [perform, renew]

/-! ## Passes -/

variable [Arithmetic]

/-- **A pass of a session depends on the commands before it alone.** Unless the flag is set, it is a
pass over all merged files with the last configuration; otherwise it gives nothing. -/
theorem run_start_performAll (commands : List Command) :
    (IsCancelledBy commands → (start.performAll commands).run = .ok .cancelledOutput) ∧
      (¬ IsCancelledBy commands → (start.performAll commands).run =
        generate ((commands.filterMap Command.config?).getLast?.getD .standard)
          ⟨commands.flatMap Command.files⟩) := by
  have hCancelled : (start.performAll commands).cancelled = true ↔ IsCancelledBy commands :=
    cancelled_performAll_iff rfl
  unfold run generateUnless
  constructor
  · intro hSet
    rw [if_pos (hCancelled.2 hSet)]
  · intro hNotSet
    have hFiles : (start.performAll commands).compilation = ⟨commands.flatMap Command.files⟩ :=
      congrArg Compilation.mk (files_performAll start commands)
    rw [if_neg (mt hCancelled.1 hNotSet), config_performAll, hFiles]
    rfl

/-- **An output tells whether its pass was cancelled**, and if so, there is nothing else in it. -/
theorem cancelled_of_run_iff {out : PassOutput} (h : (start.performAll commands).run = .ok out) :
    (out.cancelled = true ↔ IsCancelledBy commands) ∧
      (out.cancelled = true → out.artifacts = [] ∧ out.diagnostics = []) := by
  obtain ⟨hSet, hNotSet⟩ := run_start_performAll commands
  by_cases hCancelled : IsCancelledBy commands
  · rw [hSet hCancelled] at h
    obtain rfl := Except.ok.inj h
    exact ⟨iff_of_true rfl hCancelled, fun _ => ⟨rfl, rfl⟩⟩
  · rw [hNotSet hCancelled] at h
    -- outputs of passes that have been started do not say so
    obtain ⟨results, -, rfl⟩ := except_map_eq_ok_iff.1 h
    exact ⟨iff_of_false Bool.false_ne_true hCancelled, fun hFlag => absurd hFlag Bool.false_ne_true⟩

end Session

end ValidatorGen
