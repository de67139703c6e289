import ContractMeter.Tree.Node

/-!
# ContractMeter.Ledger

What a run records besides its result:

* `Charge` — one metering call that was placed.
* `Ledger` — warnings and charges in the order they arose.
* `Metered` — a result or a failure together with everything recorded up to it.
-/

namespace ContractMeter

/-- A metering call placed in front of a statement or at the top of a loop's body. -/
structure Charge where
  statement : Value
  line : Value
  gamma : Int

/-- The entry for a charge of a statement, under a label of its own or the statement's kind. An
empty label counts as none. -/
def Charge.of (statement : Value) (gamma : Int) (label : Option String) : Except Fault Charge :=
  match statement.line with
  | .error fault => .error fault
  | .ok line =>
    match label with
    | none => .ok ⟨statement.kind, line, gamma⟩
    | some name => .ok ⟨if name.isEmpty then statement.kind else .text name, line, gamma⟩

/-- The gamma of a list of charges. -/
def totalGamma (charges : List Charge) : Int :=
  (charges.map Charge.gamma).foldr (· + ·) 0

structure Ledger where
  warnings : List String
  charges : List Charge

namespace Ledger

def empty : Ledger := ⟨[], []⟩

/-- The entries of one ledger followed by those of another. -/
def append (a b : Ledger) : Ledger :=
  ⟨a.warnings ++ b.warnings, a.charges ++ b.charges⟩

instance : Append Ledger := ⟨append⟩

@[simp]
theorem warnings_append (a b : Ledger) : (a ++ b).warnings = a.warnings ++ b.warnings := rfl

@[simp]
theorem charges_append (a b : Ledger) : (a ++ b).charges = a.charges ++ b.charges := rfl

@[simp]
theorem empty_append (a : Ledger) : empty ++ a = a := rfl

@[simp]
theorem append_empty (a : Ledger) : a ++ empty = a := by
  show append a empty = a
  simp [append, empty]

theorem append_assoc (a b c : Ledger) : a ++ b ++ c = a ++ (b ++ c) := by
  show append (append a b) c = append a (append b c)
  simp [append, List.append_assoc]

end Ledger

/-- A run that records as it goes. A failure keeps what was recorded before it. -/
structure Metered (α : Type) where
  ledger : Ledger
  outcome : Except Failure α

namespace Metered

def pure {α : Type} (a : α) : Metered α := ⟨.empty, .ok a⟩

def fail {α : Type} (failure : Failure) : Metered α := ⟨.empty, .error failure⟩

/-- Goes on with the result of a run, adding to what it recorded. -/
def bind {α β : Type} (x : Metered α) (f : α → Metered β) : Metered β :=
  match x.outcome with
  | .error failure => ⟨x.ledger, .error failure⟩
  | .ok a =>
    let y := f a
    ⟨x.ledger ++ y.ledger, y.outcome⟩

/-- The same run with a function of its result. -/
def map {α β : Type} (f : α → β) (x : Metered α) : Metered β :=
  ⟨x.ledger, x.outcome.map f⟩

instance : Monad Metered where
  pure := pure
  bind := bind
  map := map

def reject {α : Type} (reason : Rejection) : Metered α := fail (.rejected reason)

def fault {α : Type} (cause : Fault) : Metered α := fail (.faulted cause)

/-- A step that records nothing and may fail. -/
def ofExcept {α : Type} : Except Fault α → Metered α
  | .ok a => pure a
  | .error cause => fault cause

def warn (message : String) : Metered Unit := ⟨⟨[message], []⟩, .ok ()⟩

def record (charge : Charge) : Metered Unit := ⟨⟨[], [charge]⟩, .ok ()⟩

end Metered

end ContractMeter
