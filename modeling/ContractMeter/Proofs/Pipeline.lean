import ContractMeter.Compilation
import ContractMeter.Proofs.Outcome

/-!
# ContractMeter.Proofs.Pipeline

Renaming before or after another pass over a tree, with ceilings of its own.

* `renameThen`, `thenRename` — the two orders. A compilation renames first.
* `compile_outcome` — what a compilation makes of a tree that was parsed.
-/

namespace ContractMeter

/-- Renames a tree and hands the renamed one to a pass. -/
def renameThen (s : Sanitizer) (pass : Value → Metered Value) (tree : Value) : Metered Value :=
  (⟨.empty, s.sanitize 0 tree⟩ : Metered Value) >>= pass

/-- Renames what a pass makes of a tree. -/
def thenRename (s : Sanitizer) (pass : Value → Metered Value) (tree : Value) : Metered Value :=
  pass tree >>= fun out => ⟨.empty, s.sanitize 0 out⟩

theorem renameThen_of_ok {s : Sanitizer} {pass : Value → Metered Value} {tree renamed : Value}
    (h : s.sanitize 0 tree = .ok renamed) : renameThen s pass tree = pass renamed := by
  unfold renameThen
  rw [h]
  rfl

/-- The compilation that a run amounts to. -/
def Compilation.ofRun (run : Metered Value) : Except Failure Compilation :=
  run.outcome.map fun tree => ⟨tree, run.ledger.charges, run.ledger.warnings⟩

/-- A compilation runs the pipeline on what it parsed, strictly if its options or settings say
so. -/
theorem compile_outcome {parse : Parser} {settings : Settings} {options : CompileOptions}
    {source : String} {tree : Value} (hs : settings.sourceTooLarge? source = none)
    (hp : parse true source = .ok tree) :
    (compile parse settings options source).outcome =
      Compilation.ofRun (renameThen settings.sanitizer
        ((settings.instrumenter (options.strict || settings.strict)).node 0) tree) := by
  unfold compile
  simp only [hs, hp]
  cases hr : settings.sanitizer.sanitize 0 tree with
  | error failure =>
    unfold renameThen
    rw [hr]
    rfl
  | ok renamed =>
    rw [renameThen_of_ok hr]
    dsimp only
    generalize (settings.instrumenter (options.strict || settings.strict)).node 0 renamed = run
    obtain ⟨ledger, outcome⟩ := run
    cases outcome <;> rfl

end ContractMeter
