import ContractMeter.Session
import ContractMeter.Proofs.Price

/-!
# ContractMeter.Proofs.SharedLedger

Prices, walks and whole sessions on one ledger that all of them write to.

* `Shared` — work that is handed the ledger as it was left, adds to it entry by entry, and leaves
  it so when it fails.
* `Shared.gammaAt`, `Shared.nodeAt`, `Shared.perform` — the operations as such work.
* `Shared.Appends` — on any ledger the work does what a metered run does on its own, behind what
  stood there. There is one lemma for each operation.
* `shared_ledger_influences_nothing` — so sharing changes no answer, and the entries of a session
  are those of its steps in order.
-/

namespace ContractMeter

open Instrumenter (block prepend loopBody isUncharged)

abbrev Shared := EStateM Failure Ledger

namespace Shared

def settled {α : Type} : Except Failure α → Shared α
  | .ok a => pure a
  | .error failure => throw failure

def reading {α : Type} : Except Fault α → Shared α
  | .ok a => pure a
  | .error cause => throw (.faulted cause)

def warn (message : String) : Shared Unit :=
  modify fun ledger => { ledger with warnings := ledger.warnings ++ [message] }

def record (charge : Charge) : Shared Unit :=
  modify fun ledger => { ledger with charges := ledger.charges ++ [charge] }

/-! ## Prices on a shared ledger -/

def unpriced (p : Pricing) (kind : Value) : Shared Nat :=
  if p.strict then throw (.rejected (.unhandledNode kind))
  else do
    warn (unhandledMessage kind)
    return 0

def sumOf (price : Value → Shared Nat) : List Value → Shared Nat
  | [] => pure 0
  | item :: rest => do
    let first ← price item
    let others ← sumOf price rest
    return first + others

def optional (price : Value → Shared Nat) (part : Value) : Shared Nat :=
  match part with
  | .null => pure 0
  | part => price part

def required (node : Value) (name : String) : Shared Value :=
  match node.field? name with
  | some value => pure value
  | none => throw (.faulted (.missingField name))

def initial (price : Value → Shared Nat) (init : Value) : Shared Nat :=
  match init with
  | .null => pure 0
  | init =>
    if init.hasKind "Literal" then settled (gammaForLiteral (Pricing.declaredLiteral init))
    else price init

def assignedOperator (operator : Value) : Shared Nat :=
  if operator.isText "=" then pure 0
  else do
    let shortened ← reading (compoundOperator operator)
    settled (gammaForOperator shortened)

def byRule (p : Pricing) (price : Value → Shared Nat) (rule : PriceRule) (node : Value) :
    Shared Nat :=
  match rule with
  | .free => pure 0
  | .operator => do
    let operator ← required node "operator"
    settled (gammaForOperator operator)
  | .expression => do
    let inner ← required node "expression"
    price inner
  | .argument => optional price (node.field "argument")
  | .declarations => price ((node.field? "declarations").getD (.list []))
  | .declarator => initial price (node.field "init")
  | .assignment => do
    let right ← price (node.field "right")
    let operator ← assignedOperator ((node.field? "operator").getD (.text "="))
    return right + operator
  | .test => optional price (node.field "test")
  | .testAndInit => do
    let test ← optional price (node.field "test")
    let init ← optional price (node.field "init")
    return test + init
  | .unpriced => unpriced p node.kind

def gammaAt (p : Pricing) : Nat → Value → Shared Nat
  | 0, _ => throw (.rejected (.tooDeep (some p.maxDepth)))
  | levels + 1, .list items => sumOf (gammaAt p levels) items
  | levels + 1, node =>
    match node.kind with
    | .text name => byRule p (gammaAt p levels) (PriceRule.ofKind name) node
    | kind => if kind.usableKey then unpriced p kind else throw (.faulted .unusableKey)

def gammaFor (p : Pricing) (depth : Int) (computation : Value) : Shared Nat :=
  gammaAt p (levelsLeft p.maxDepth depth) computation

def gammaPerIterationAt (p : Pricing) : Nat → Value → Shared Nat
  | 0, _ => throw (.rejected (.tooDeep (some p.maxDepth)))
  | levels + 1, .record fields => do
    let test ← optional (gammaAt p levels) (Fields.get fields "test")
    let update ← optional (gammaAt p levels) (Fields.get fields "update")
    return test + update
  | _ + 1, _ => throw (.faulted .notARecord)

def gammaPerIteration (p : Pricing) (depth : Int) (loop : Value) : Shared Nat :=
  gammaPerIterationAt p (levelsLeft p.maxDepth depth) loop

/-! ## Walks on a shared ledger -/

def recordCharge (statement : Value) (gamma : Nat) (label : Option String) : Shared Unit := do
  let entry ← reading (Charge.of statement gamma label)
  record entry

def charged (m : Instrumenter) (statement : Value) : Shared (List Value) :=
  if isUncharged statement then pure [statement]
  else do
    let gamma ← gammaFor m.pricing 0 statement
    recordCharge statement gamma none
    return [m.charge gamma, statement]

def chargeEach (m : Instrumenter) (instrument : Value → Shared Value) :
    List Value → Shared (List Value)
  | [] => pure []
  | statement :: rest => do
    let statement ← instrument statement
    let placed ← charged m statement
    let others ← chargeEach m instrument rest
    return placed ++ others

def chargeElements (m : Instrumenter) (instrument : Value → Shared Value) (statements : Value) :
    Shared Value := do
  let items ← reading statements.elements
  let items ← chargeEach m instrument items
  return .list items

def statementPart (node inner : Value → Shared Value) (part : Value) : Shared Value :=
  match part with
  | .null => node .null
  | part =>
    if part.hasKind "BlockStatement" then node part
    else do
      let statements ← inner (.list [part])
      return block statements

def eachCase (inner : Value → Shared Value) : List Value → Shared (List Value)
  | [] => pure []
  | .record fields :: rest => do
    let consequent ← inner ((Fields.get? fields "consequent").getD (.list []))
    let others ← eachCase inner rest
    return .record (Fields.set fields "consequent" consequent) :: others
  | _ :: _ => throw (.faulted .notFields)

def meterLoop (m : Instrumenter) (node inner : Value → Shared Value) (depth : Int)
    (kind : String) (fields : Fields) : Shared Value := do
  let gamma ← gammaPerIteration m.pricing depth (.record fields)
  recordCharge (.record fields) gamma (some (kind ++ " iteration"))
  let body ← statementPart node inner (loopBody fields)
  return .record (Fields.set fields "body" (prepend (m.charge gamma) body))

def parts (m : Instrumenter) (node sequence inner : Value → Shared Value) (depth : Int)
    (kind : String) (fields : Fields) : Shared Value :=
  match Container.ofKind kind with
  | .sequence => do
    let body ← sequence ((Fields.get? fields "body").getD (.list []))
    return .record (Fields.set fields "body" body)
  | .body => do
    let body ← node (Fields.get fields "body")
    return .record (Fields.set fields "body" body)
  | .loop => meterLoop m node inner depth kind fields
  | .statementBody => do
    let body ← statementPart node inner (Fields.get fields "body")
    return .record (Fields.set fields "body" body)
  | .value => do
    let value ← node (Fields.get fields "value")
    return .record (Fields.set fields "value" value)
  | .branch => do
    let consequent ← statementPart node inner (Fields.get fields "consequent")
    let alternate ← statementPart node inner (Fields.get fields "alternate")
    return .record (Fields.set (Fields.set fields "consequent" consequent) "alternate" alternate)
  | .attempt => do
    let block ← node (Fields.get fields "block")
    let handler ← node (Fields.get fields "handler")
    let finalizer ← node (Fields.get fields "finalizer")
    return .record
      (Fields.set (Fields.set (Fields.set fields "block" block) "handler" handler)
        "finalizer" finalizer)
  | .switch => do
    let cases ← reading ((Fields.get? fields "cases").getD (.list [])).elements
    let cases ← eachCase inner cases
    return .record (Fields.set fields "cases" (.list cases))
  | .leaf => pure (.record fields)

mutual

def nodeAt (m : Instrumenter) : Nat → Value → Shared Value
  | 0, _ => throw (.rejected (.tooDeep (some m.maxDepth)))
  | levels + 1, .record fields =>
    match Fields.get? fields "type" with
    | none => pure (.record fields)
    | some (.text kind) =>
      parts m (nodeAt m levels) (sequenceAt m levels) (innerSequenceAt m levels)
        (m.maxDepth - levels + 1) kind fields
    | some kind => if kind.comparable then pure (.record fields) else throw (.faulted .unusableKey)
  | _ + 1, other => pure other

def sequenceAt (m : Instrumenter) : Nat → Value → Shared Value
  | 0, _ => throw (.rejected (.tooDeep (some m.maxDepth)))
  | levels + 1, statements => chargeElements m (nodeAt m levels) statements

def innerSequenceAt (m : Instrumenter) : Nat → Value → Shared Value
  | 0, _ => throw (.rejected (.tooDeep (some m.maxDepth)))
  | levels + 1, statements => sequenceAt m levels statements

end

def node (m : Instrumenter) (depth : Int) (tree : Value) : Shared Value :=
  nodeAt m (levelsLeft m.maxDepth depth) tree

/-! ## Sessions on a shared ledger -/

def perform (w : Workbench) (operation : Operation) (tree : Value) : Shared Value :=
  match operation with
  | .gamma depth => do
    let gamma ← gammaFor w.instrumenter.pricing depth tree
    return .int gamma
  | .perIteration depth => do
    let gamma ← gammaPerIteration w.instrumenter.pricing depth tree
    return .int gamma
  | .sanitize depth => settled (w.sanitizer.sanitize depth tree)
  | .instrument depth => node w.instrumenter depth tree
  | .record gamma label => do
    let charge ← reading (Charge.of tree gamma label)
    record charge
    return .null

/-- The answer of a step on a ledger, and the ledger it left. -/
def answer (w : Workbench) (operation : Operation) (tree : Value) (ledger : Ledger) : StepAnswer :=
  match perform w operation tree ledger with
  | .ok value ledger => ⟨.ok value, ledger⟩
  | .error failure ledger => ⟨.error failure, ledger⟩

/-- Continues a session: each step finds the ledger that the one before it left. -/
def sessionFrom (w : Workbench) (answers : List StepAnswer) (ledger : Ledger) :
    List Step → List StepAnswer
  | [] => answers
  | step :: rest =>
    let next := answer w step.operation (Workbench.operandTree answers step.operand) ledger
    sessionFrom w (answers ++ [next]) next.ledger rest

def session (w : Workbench) (steps : List Step) : List StepAnswer :=
  sessionFrom w [] .empty steps

/-- Continues a sequence of steps of which each has objects of its own, with nothing recorded. -/
def apartFrom (w : Workbench) (answers : List StepAnswer) : List Step → List StepAnswer
  | [] => answers
  | step :: rest =>
    let next := answer w step.operation (Workbench.operandTree answers step.operand) .empty
    apartFrom w (answers ++ [next]) rest

def apart (w : Workbench) (steps : List Step) : List StepAnswer :=
  apartFrom w [] steps

end Shared

/-- What several steps recorded, one after the other. -/
def recordedBy (answers : List StepAnswer) : Ledger :=
  (answers.map StepAnswer.ledger).foldr (· ++ ·) .empty

/-! ## Work that only appends -/

namespace Shared

open Metered (ofExcept)

/-- How a run ends on a ledger that it is not the first to write to. -/
def onto {α : Type} (x : Metered α) (ledger : Ledger) : EStateM.Result Failure Ledger α :=
  match x.outcome with
  | .ok a => .ok a (ledger ++ x.ledger)
  | .error failure => .error failure (ledger ++ x.ledger)

structure Appends {α : Type} (f : Shared α) (x : Metered α) : Prop where
  eq : ∀ ledger, f ledger = onto x ledger

section Appends

variable {α β : Type} {f : Shared α} {x : Metered α}

theorem appends_pure (a : α) : Appends (pure a) (Metered.pure a) := by
  constructor
  intro ledger
  show EStateM.Result.ok a ledger = .ok a (ledger ++ .empty)
  rw [Ledger.append_empty]

theorem appends_throw (failure : Failure) :
    Appends (throw failure : Shared α) (Metered.fail failure) := by
  constructor
  intro ledger
  show EStateM.Result.error failure ledger = .error failure (ledger ++ .empty)
  rw [Ledger.append_empty]

/-- A failure leaves what was recorded, and nothing behind it is done. -/
theorem Appends.bind {g : α → Shared β} {k : α → Metered β} (h : Appends f x)
    (hg : ∀ a, Appends (g a) (k a)) : Appends (f >>= g) (x >>= k) := by
  constructor
  intro ledger
  have hf := h.eq ledger
  show EStateM.bind f g ledger = onto (x.bind k) ledger
  obtain ⟨l, outcome⟩ := x
  cases outcome with
  | error failure =>
    have hf : f ledger = .error failure (ledger ++ l) := hf
    simp only [EStateM.bind, hf]
    rfl
  | ok a =>
    have hf : f ledger = .ok a (ledger ++ l) := hf
    have hx : (⟨l, .ok a⟩ : Metered α).bind k = ⟨l ++ (k a).ledger, (k a).outcome⟩ := rfl
    simp only [EStateM.bind, hf, (hg a).eq, hx, onto, Ledger.append_assoc]

theorem Appends.map (h : Appends f x) (g : α → β) :
    Appends (f >>= fun a => pure (g a)) (x.map g) := by
  rw [Metered.map_eq_bind]
  exact h.bind fun a => appends_pure (g a)

theorem appends_warn (message : String) : Appends (warn message) (Metered.warn message) := by
  constructor
  intro ledger
  show EStateM.Result.ok () (⟨ledger.warnings ++ [message], ledger.charges⟩ : Ledger) =
    .ok () ⟨ledger.warnings ++ [message], ledger.charges ++ []⟩
  rw [List.append_nil]

theorem appends_record (charge : Charge) : Appends (record charge) (Metered.record charge) := by
  constructor
  intro ledger
  show EStateM.Result.ok () (⟨ledger.warnings, ledger.charges ++ [charge]⟩ : Ledger) =
    .ok () ⟨ledger.warnings ++ [], ledger.charges ++ [charge]⟩
  rw [List.append_nil]

theorem appends_reading (e : Except Fault α) : Appends (reading e) (ofExcept e) := by
  cases e with
  | ok a => exact appends_pure a
  | error cause => exact appends_throw _

theorem appends_settled (e : Except Failure α) : Appends (settled e) ⟨.empty, e⟩ := by
  cases e with
  | ok a => exact appends_pure a
  | error failure => exact appends_throw failure

end Appends

/-! ### Prices -/

theorem unpriced_appends (p : Pricing) (kind : Value) :
    Appends (unpriced p kind) (p.unpriced kind) := by
  unfold unpriced Pricing.unpriced
  split
  · exact appends_throw _
  · exact (appends_warn _).map fun _ => 0

theorem settled_appends (e : Except Failure Nat) : Appends (settled e) (Pricing.settled e) := by
  cases e with
  | ok gamma => exact appends_pure gamma
  | error failure => exact appends_throw failure

theorem required_appends (node : Value) (name : String) :
    Appends (required node name) (Pricing.required node name) := by
  unfold required Pricing.required
  cases node.field? name with
  | some value => exact appends_pure value
  | none => exact appends_throw _

theorem assignedOperator_appends (operator : Value) :
    Appends (assignedOperator operator) (Pricing.assignedOperator operator) := by
  unfold assignedOperator Pricing.assignedOperator
  split
  · exact appends_pure 0
  · cases compoundOperator operator with
    | ok shortened => exact settled_appends _
    | error cause => exact appends_throw _

section Parts

variable {price : Value → Shared Nat} {price' : Value → Metered Nat}
  (h : ∀ v, Appends (price v) (price' v))

include h

theorem sumOf_appends (items : List Value) :
    Appends (sumOf price items) (Pricing.sumOf price' items) := by
  induction items with
  | nil => exact appends_pure 0
  | cons item rest ih => exact (h item).bind fun first => ih.map fun others => first + others

theorem optional_appends (part : Value) :
    Appends (optional price part) (Pricing.optional price' part) := by
  cases part with
  | null => exact appends_pure 0
  | _ => exact h _

theorem initial_appends (init : Value) :
    Appends (initial price init) (Pricing.initial price' init) := by
  cases init with
  | null => exact appends_pure 0
  | _ =>
    unfold initial Pricing.initial
    dsimp only
    split
    · exact settled_appends _
    · exact h _

theorem byRule_appends (p : Pricing) (rule : PriceRule) (node : Value) :
    Appends (byRule p price rule node) (p.byRule price' rule node) := by
  cases rule with
  | free => exact appends_pure 0
  | operator => exact (required_appends ..).bind fun _ => settled_appends _
  | expression => exact (required_appends ..).bind fun inner => h inner
  | argument | test => exact optional_appends h _
  | declarations => exact h _
  | declarator => exact initial_appends h _
  | assignment =>
    exact (h _).bind fun _ => (assignedOperator_appends _).bind fun _ => appends_pure _
  | testAndInit =>
    exact (optional_appends h _).bind fun _ => (optional_appends h _).bind fun _ => appends_pure _
  | unpriced => exact unpriced_appends p _

end Parts

theorem gammaAt_succ {p : Pricing} {levels : Nat} {v : Value} (hv : ∀ items, v ≠ .list items) :
    gammaAt p (levels + 1) v =
      match v.kind with
      | .text name => byRule p (gammaAt p levels) (PriceRule.ofKind name) v
      | kind => if kind.usableKey then unpriced p kind else throw (.faulted .unusableKey) := by
  cases v with
  | list items => exact absurd rfl (hv items)
  | _ => rfl

theorem gammaAt_appends (p : Pricing) (levels : Nat) (v : Value) :
    Appends (gammaAt p levels v) (p.gammaAt levels v) := by
  induction levels generalizing v with
  | zero => exact appends_throw _
  | succ levels ih =>
    by_cases hv : ∃ items, v = .list items
    · obtain ⟨items, rfl⟩ := hv
      exact sumOf_appends ih items
    · have hv : ∀ items, v ≠ .list items := fun items e => hv ⟨items, e⟩
      rw [gammaAt_succ hv, Pricing.gammaAt_succ hv]
      cases v.kind with
      | text name => exact byRule_appends ih p _ v
      | _ =>
        dsimp only
        split
        · exact unpriced_appends p _
        · exact appends_throw _

theorem gammaPerIteration_appends (p : Pricing) (depth : Int) (loop : Value) :
    Appends (gammaPerIteration p depth loop) (p.gammaPerIteration depth loop) := by
  unfold gammaPerIteration Pricing.gammaPerIteration
  cases levelsLeft p.maxDepth depth with
  | zero => exact appends_throw _
  | succ levels =>
    cases loop with
    | record fields =>
      have h := optional_appends (gammaAt_appends p levels)
      exact (h _).bind fun _ => (h _).bind fun _ => appends_pure _
    | _ => exact appends_throw _

/-! ### Walks -/

theorem recordCharge_appends (statement : Value) (gamma : Nat) (label : Option String) :
    Appends (recordCharge statement gamma label)
      (Instrumenter.recordCharge statement gamma label) :=
  (appends_reading _).bind fun entry => appends_record entry

theorem charged_appends (m : Instrumenter) (statement : Value) :
    Appends (charged m statement) (m.charged statement) := by
  unfold charged Instrumenter.charged
  split
  · exact appends_pure _
  · exact (gammaAt_appends ..).bind fun _ => (recordCharge_appends ..).bind fun _ => appends_pure _

section Parts

variable {node inner sequence : Value → Shared Value}
  {node' inner' sequence' : Value → Metered Value}
  (hn : ∀ v, Appends (node v) (node' v)) (hi : ∀ v, Appends (inner v) (inner' v))
  (hs : ∀ v, Appends (sequence v) (sequence' v))

include hn in
theorem chargeEach_appends (m : Instrumenter) (items : List Value) :
    Appends (chargeEach m node items) (m.chargeEach node' items) := by
  induction items with
  | nil => exact appends_pure []
  | cons item rest ih =>
    exact (hn item).bind fun statement => (charged_appends m statement).bind fun placed =>
      ih.map fun others => placed ++ others

include hn in
theorem chargeElements_appends (m : Instrumenter) (statements : Value) :
    Appends (chargeElements m node statements) (m.chargeElements node' statements) :=
  (appends_reading _).bind fun items => (chargeEach_appends hn m items).bind fun _ =>
    appends_pure _

include hn hi in
theorem statementPart_appends (part : Value) :
    Appends (statementPart node inner part) (Instrumenter.statementPart node' inner' part) := by
  cases part with
  | null => exact hn .null
  | _ =>
    unfold statementPart Instrumenter.statementPart
    dsimp only
    split
    · exact hn _
    · exact (hi _).bind fun _ => appends_pure _

include hi in
theorem eachCase_appends (cases : List Value) :
    Appends (eachCase inner cases) (Instrumenter.eachCase inner' cases) := by
  induction cases with
  | nil => exact appends_pure []
  | cons c rest ih =>
    cases c with
    | record fields =>
      exact (hi _).bind fun consequent => ih.map fun others =>
        .record (Fields.set fields "consequent" consequent) :: others
    | _ => exact appends_throw _

include hn hi in
theorem meterLoop_appends (m : Instrumenter) (depth : Int) (kind : String) (fields : Fields) :
    Appends (meterLoop m node inner depth kind fields)
      (m.meterLoop node' inner' depth kind fields) :=
  (gammaPerIteration_appends m.pricing depth _).bind fun _ =>
    (recordCharge_appends ..).bind fun _ =>
      (statementPart_appends hn hi _).bind fun _ => appends_pure _

include hn hi hs in
theorem parts_appends (m : Instrumenter) (depth : Int) (kind : String) (fields : Fields) :
    Appends (parts m node sequence inner depth kind fields)
      (m.parts node' sequence' inner' depth kind fields) := by
  have hp := statementPart_appends hn hi
  unfold parts Instrumenter.parts
  cases Container.ofKind kind with
  | sequence => exact (hs _).bind fun _ => appends_pure _
  | body | value => exact (hn _).bind fun _ => appends_pure _
  | loop => exact meterLoop_appends hn hi m depth kind fields
  | statementBody => exact (hp _).bind fun _ => appends_pure _
  | branch => exact (hp _).bind fun _ => (hp _).bind fun _ => appends_pure _
  | attempt =>
    exact (hn _).bind fun _ => (hn _).bind fun _ => (hn _).bind fun _ => appends_pure _
  | switch =>
    exact (appends_reading _).bind fun cases => (eachCase_appends hi cases).bind fun _ =>
      appends_pure _
  | leaf => exact appends_pure _

end Parts

mutual

theorem nodeAt_appends (m : Instrumenter) : ∀ (levels : Nat) (v : Value),
    Appends (nodeAt m levels v) (m.nodeAt levels v)
  | 0, _ => appends_throw _
  | levels + 1, .record fields => by
    rw [nodeAt, Instrumenter.nodeAt]
    cases Fields.get? fields "type" with
    | none => exact appends_pure _
    | some kind =>
      cases kind with
      | text kind =>
        exact parts_appends (nodeAt_appends m levels) (innerSequenceAt_appends m levels)
          (sequenceAt_appends m levels) m _ kind fields
      | _ =>
        dsimp only
        split
        · exact appends_pure _
        · exact appends_throw _
  | _ + 1, .null | _ + 1, .bool _ | _ + 1, .int _ | _ + 1, .float _ | _ + 1, .text _
  | _ + 1, .broken _ | _ + 1, .list _ | _ + 1, .host _ => appends_pure _

theorem sequenceAt_appends (m : Instrumenter) : ∀ (levels : Nat) (v : Value),
    Appends (sequenceAt m levels v) (m.sequenceAt levels v)
  | 0, _ => appends_throw _
  | levels + 1, v => by
    rw [sequenceAt, Instrumenter.sequenceAt]
    exact chargeElements_appends (nodeAt_appends m levels) m v

theorem innerSequenceAt_appends (m : Instrumenter) : ∀ (levels : Nat) (v : Value),
    Appends (innerSequenceAt m levels v) (m.innerSequenceAt levels v)
  | 0, _ => appends_throw _
  | levels + 1, v => by
    rw [innerSequenceAt, Instrumenter.innerSequenceAt]
    exact sequenceAt_appends m levels v

end

/-! ### Sessions -/

theorem perform_appends (w : Workbench) (operation : Operation) (tree : Value) :
    Appends (perform w operation tree) (w.perform operation tree) := by
  cases operation with
  | gamma depth => exact (gammaAt_appends ..).bind fun _ => appends_pure _
  | perIteration depth => exact (gammaPerIteration_appends ..).bind fun _ => appends_pure _
  | sanitize depth => exact appends_settled _
  | instrument depth => exact nodeAt_appends ..
  | record gamma label =>
    exact (appends_reading _).bind fun charge => (appends_record charge).bind fun _ =>
      appends_pure _

theorem answer_eq (w : Workbench) (operation : Operation) (tree : Value) (ledger : Ledger) :
    answer w operation tree ledger =
      ⟨(w.perform operation tree).outcome, ledger ++ (w.perform operation tree).ledger⟩ := by
  rw [answer, (perform_appends w operation tree).eq ledger]
  obtain ⟨l, outcome⟩ := w.perform operation tree
  cases outcome <;> rfl

/-- A step on a shared ledger beside the step on one of its own. -/
theorem answer_onto (w : Workbench) (operation : Operation) (tree : Value) (ledger : Ledger) :
    answer w operation tree ledger =
      ⟨(answer w operation tree .empty).outcome,
        ledger ++ (answer w operation tree .empty).ledger⟩ := by
  rw [answer_eq, answer_eq, Ledger.empty_append]

theorem runFrom_eq_sessionFrom (w : Workbench) (steps : List Step) :
    ∀ (answers : List StepAnswer) (ledger : Ledger),
      w.runFrom answers ledger steps = sessionFrom w answers ledger steps := by
  induction steps with
  | nil => intro answers ledger; rfl
  | cons step rest ih =>
    intro answers ledger
    rw [Workbench.runFrom, sessionFrom, answer_eq]
    exact ih _ _

/-- The answers of steps apart, each with all that was recorded once it was done. -/
def totals (ledger : Ledger) : List StepAnswer → List StepAnswer
  | [] => []
  | a :: rest => ⟨a.outcome, ledger ++ a.ledger⟩ :: totals (ledger ++ a.ledger) rest

theorem totals_snoc (answers : List StepAnswer) (a : StepAnswer) :
    ∀ ledger, totals ledger (answers ++ [a]) =
      totals ledger answers ++ [⟨a.outcome, ledger ++ recordedBy answers ++ a.ledger⟩] := by
  induction answers with
  | nil =>
    intro ledger
    have hl : ledger ++ recordedBy [] = ledger := Ledger.append_empty ledger
    rw [hl]
    rfl
  | cons b rest ih =>
    intro ledger
    have hl : ledger ++ recordedBy (b :: rest) = ledger ++ b.ledger ++ recordedBy rest :=
      (Ledger.append_assoc ..).symm
    rw [List.cons_append, totals, totals, ih, List.cons_append, hl]

theorem recordedBy_snoc (answers : List StepAnswer) (a : StepAnswer) :
    recordedBy (answers ++ [a]) = recordedBy answers ++ a.ledger := by
  induction answers with
  | nil => exact Ledger.append_empty a.ledger
  | cons b rest ih =>
    have h : recordedBy (b :: (rest ++ [a])) = b.ledger ++ recordedBy (rest ++ [a]) := rfl
    rw [List.cons_append, h, ih, ← Ledger.append_assoc]
    rfl

theorem getElem?_totals (answers : List StepAnswer) :
    ∀ (ledger : Ledger) (k : Nat), (totals ledger answers)[k]? =
      answers[k]?.map fun a => ⟨a.outcome, ledger ++ recordedBy (answers.take (k + 1))⟩ := by
  induction answers with
  | nil => intro ledger k; simp [totals]
  | cons a rest ih =>
    intro ledger k
    cases k with
    | zero =>
      have h : recordedBy ((a :: rest).take 1) = a.ledger := Ledger.append_empty a.ledger
      simp only [totals, List.getElem?_cons_zero, Option.map_some, Nat.zero_add, h]
    | succ k =>
      have h : recordedBy ((a :: rest).take (k + 2)) =
          a.ledger ++ recordedBy (rest.take (k + 1)) := rfl
      simp only [totals, List.getElem?_cons_succ, ih, h, Ledger.append_assoc]

/-- Totals do not show in the trees that later steps take from earlier ones. -/
theorem operandTree_totals (answers : List StepAnswer) (operand : Operand) :
    Workbench.operandTree (totals .empty answers) operand =
      Workbench.operandTree answers operand := by
  cases operand with
  | given tree => rfl
  | result index =>
    rw [Workbench.operandTree, Workbench.operandTree, getElem?_totals]
    cases answers[index]? with
    | none => rfl
    | some a =>
      obtain ⟨outcome, ledger⟩ := a
      cases outcome <;> rfl

theorem sessionFrom_totals (w : Workbench) (steps : List Step) :
    ∀ answers : List StepAnswer,
      sessionFrom w (totals .empty answers) (recordedBy answers) steps =
        totals .empty (apartFrom w answers steps) := by
  induction steps with
  | nil => intro answers; rfl
  | cons step rest ih =>
    intro answers
    have hs := totals_snoc answers
      (answer w step.operation (Workbench.operandTree answers step.operand) .empty) .empty
    rw [sessionFrom, apartFrom, operandTree_totals, answer_onto, ← ih, hs, recordedBy_snoc,
      Ledger.empty_append]

theorem length_apartFrom (w : Workbench) (steps : List Step) :
    ∀ answers : List StepAnswer,
      (apartFrom w answers steps).length = answers.length + steps.length := by
  induction steps with
  | nil => intro answers; rfl
  | cons step rest ih =>
    intro answers
    rw [apartFrom, ih, List.length_append, List.length_singleton, List.length_cons]
    omega

end Shared

/-- **Sharing influences nothing.** A session on one ledger answers each step as it is answered
apart, with a ledger of its own, also where a step takes the result of an earlier one; and after
each step the shared ledger holds what all steps so far record apart, in order, what failing steps
recorded before they failed included. -/
theorem shared_ledger_influences_nothing (w : Workbench) (steps : List Step) :
    w.run steps = Shared.session w steps ∧
    (Shared.apart w steps).length = steps.length ∧
    ∀ k : Nat, (Shared.session w steps)[k]? = (Shared.apart w steps)[k]?.map fun answer =>
      (⟨answer.outcome, recordedBy ((Shared.apart w steps).take (k + 1))⟩ : StepAnswer) := by
  have hs : Shared.session w steps = Shared.totals .empty (Shared.apart w steps) :=
    Shared.sessionFrom_totals w steps []
  refine ⟨Shared.runFrom_eq_sessionFrom w steps [] .empty, ?_, ?_⟩
  · have hl := Shared.length_apartFrom w steps []
    exact hl.trans (Nat.zero_add _)
  · intro k
    rw [hs, Shared.getElem?_totals]
    rfl

end ContractMeter
