import ContractMeter.Proofs.Execution
import ContractMeter.Proofs.Instrumented

/-!
# ContractMeter.Proofs.Prepayment

Runs of an instrumented tree pay for a computation before they begin it.

* `Pending`, `Covered` — a stack of an instrumented run, the stack of the contract's own run it
  goes with, and the credit: what is paid for computations that have not begun.
* `covered_step`, `covered_run` — the contract's own run answers each step, and each run, of the
  instrumented one, and charges and computations move the credit.
* `charges_prepay_computations` — what was charged covers what was begun.
-/

namespace ContractMeter
namespace Execution

open Instrumenter (block prepend loopBody isUncharged)
open Pricing (Costs present)
open Sample (program increment less whileLess)

variable {m : Instrumenter}

/-! ## Stacks -/

/-- Stacks of statements yet to be paid for. The credit is for the loops around them, whose
passes were paid for when they were begun. -/
inductive Pending (m : Instrumenter) : Nat → List Task → List Task → Prop where
  | done : Pending m 0 [] []
  | charged {s s' : Value} {l₁ l₂ : Ledger} {gamma k : Nat} {K' K : List Task}
      (h : Instrumented m 0 s s' l₁) (hp : (m.pricing.gammaFor 0 s').Yields l₂ gamma)
      (hK : Pending m k K' K) :
      Pending m k (.charge (m.charge gamma) :: .run s' :: K') (.run s :: K)
  | uncharged {s s' : Value} {l : Ledger} {k : Nat} {K' K : List Task}
      (h : Instrumented m 0 s s' l) (hu : isUncharged s' = true) (hK : Pending m k K' K) :
      Pending m k (.run s' :: K') (.run s :: K)
  | again {loop loop' : Fields} {l : Ledger} {g₁ g₂ k : Nat} {K' K : List Task}
      (h : Instrumented m 0 (.record loop) (.record loop') l)
      (hc : (Value.record loop).container = .loop)
      (hu : Costs m.pricing (present (Fields.get loop "update")) g₁)
      (ht : Costs m.pricing (present (Fields.get loop "test")) g₂) (hK : Pending m k K' K) :
      Pending m (g₁ + g₂ + k) (.again loop' :: K') (.again loop :: K)

/-- The kinds of nodes that need no charge to be entered. -/
def freeKinds : List String :=
  ["Program", "BlockStatement", "MethodDefinition", "ClassDeclaration"]

/-- What entering a statement costs. -/
def Entry (p : Pricing) (s : Value) (g : Nat) : Prop :=
  (∃ name ∈ freeKinds, s.hasKind name = true ∧ g = 0) ∨ (p.gammaFor 0 s).outcome = .ok g

/-- Stacks on the way of a run. Only at the top stands what has been paid for and not begun. -/
inductive Covered (m : Instrumenter) : Nat → List Task → List Task → Prop where
  | pending {k : Nat} {K' K : List Task} (hK : Pending m k K' K) : Covered m k K' K
  | entered {s s' : Value} {l : Ledger} {gamma k : Nat} {K' K : List Task}
      (h : Instrumented m 0 s s' l) (he : Entry m.pricing s' gamma) (hK : Pending m k K' K) :
      Covered m (gamma + k) (.run s' :: K') (.run s :: K)
  | part {s s' : Value} {l : Ledger} {k : Nat} {K' K : List Task} (hn : s ≠ .null)
      (h : InstrumentedPart m 0 s s' l) (hK : Pending m k K' K) :
      Covered m k (.run s' :: K') (.run s :: K)
  | test {loop loop' : Fields} {l : Ledger} {gamma k : Nat} {K' K : List Task}
      (h : Instrumented m 0 (.record loop) (.record loop') l)
      (hc : (Value.record loop).container = .loop)
      (ht : Costs m.pricing (present (Fields.get loop "test")) gamma) (hK : Pending m k K' K) :
      Covered m (gamma + k) (.test loop' :: K') (.test loop :: K)
  | pass {gamma k : Nat} {K' K : List Task} (hK : Pending m (gamma + k) K' K) :
      Covered m k (.charge (m.charge gamma) :: K') K

theorem Pending.behindLoop {k : Nat} {K' K : List Task} (h : Pending m k K' K) :
    ∃ k₂, k₂ ≤ k ∧ Pending m k₂ (Task.behindLoop K') (Task.behindLoop K) := by
  induction h with
  | done => exact ⟨0, Nat.le_refl 0, .done⟩
  | charged _ _ _ ih => exact ih
  | uncharged _ _ _ ih => exact ih
  -- the credit for another pass stays behind
  | again _ _ _ _ hK _ => exact ⟨_, Nat.le_add_left .., hK⟩

/-- Up to the end of a pass nothing is paid in advance. -/
theorem Pending.endOfPass {k : Nat} {K' K : List Task} (h : Pending m k K' K) :
    Pending m k (Task.endOfPass K') (Task.endOfPass K) := by
  induction h with
  | done => exact .done
  | charged _ _ _ ih => exact ih
  | uncharged _ _ _ ih => exact ih
  | again h hc hu ht hK _ => exact .again h hc hu ht hK

theorem meteredTasks_uncharged {item : Value} {rest : List Value} (h : isUncharged item = true) :
    Reading.meteredTasks (item :: rest) = .run item :: Reading.meteredTasks rest := by
  cases rest <;> simp [Reading.meteredTasks, h]

theorem meteredTasks_charge {gamma : Nat} {item : Value} {rest : List Value} :
    Reading.meteredTasks (m.charge gamma :: item :: rest) =
      .charge (m.charge gamma) :: .run item :: Reading.meteredTasks rest := by
  simp [Reading.meteredTasks]

theorem Pending.append {k : Nat} {K' K : List Task} (hK : Pending m k K' K)
    {items items' : List Value} {l : Ledger} : InstrumentedList m 0 items items' l →
      Pending m k (Reading.metered.tasks items' ++ K') (Reading.plain.tasks items ++ K)
  | .nil => hK
  | .uncharged h hu hs => by
    have ih := hK.append hs
    simp only [Reading.tasks, meteredTasks_uncharged hu] at ih ⊢
    exact .uncharged h hu ih
  | .charged h _ hp _ hs => by
    have ih := hK.append hs
    simp only [Reading.tasks, meteredTasks_charge] at ih ⊢
    exact .charged h hp ih

/-! ## Bodies -/

/-- Both runs enter a part in statement position: the instrumented one its block, the contract's
own one that block if it has it. -/
theorem InstrumentedPart.opened {part part' : Value} {l : Ledger} (hn : part ≠ .null)
    (h : InstrumentedPart m 0 part part' l) :
    ∃ fields' items items' l', part' = .record fields' ∧
      part'.hasKind "BlockStatement" = true ∧
      Fields.get? fields' "body" = some (.list items') ∧ InstrumentedList m 0 items items' l' ∧
      ∀ rest, Run .plain (.run part :: rest) [] (Reading.plain.tasks items ++ rest) := by
  cases h with
  | null => contradiction
  | block hk hb h =>
    refine ⟨_, _, _, _, rfl, ?_, Fields.get?_set_self .., h, fun rest => ?_⟩
    · rw [Value.hasKind_set (by decide : "body" ≠ "type")]
      exact hk
    · exact .single (.sequence (by decide : "BlockStatement" ∈ _) hk hb)
  | bare _ _ h => exact ⟨_, _, _, _, rfl, rfl, rfl, h, fun _ => .refl⟩

theorem InstrumentedPart.ne_null {part part' : Value} {l : Ledger} (hn : part ≠ .null)
    (h : InstrumentedPart m 0 part part' l) : part' ≠ .null := by
  obtain ⟨_, _, _, _, rfl, _⟩ := InstrumentedPart.opened hn h
  simp

/-- An instrumented pass starts with the charge in front of the body's statements. -/
theorem pass_prepend {loop fields : Fields} {charge : Value} {items : List Value}
    (hb : Fields.get? fields "body" = some (.list items)) :
    Reading.metered.pass (Fields.set loop "body" (prepend charge (.record fields))) =
      .charge charge :: Reading.metered.tasks items := by
  simp [Reading.pass, Reading.tasks, prepend, Fields.get, hb]

/-- What an instrumented loop charges at the top of a pass is the price of its update and its
test. -/
theorem Instrumented.pass {loop loop' : Fields} {l : Ledger}
    (h : Instrumented m 0 (.record loop) (.record loop') l)
    (hc : (Value.record loop).container = .loop) :
    ∃ g₁ g₂ items items' l', Costs m.pricing (present (Fields.get loop "update")) g₁ ∧
      Costs m.pricing (present (Fields.get loop "test")) g₂ ∧
      Reading.metered.pass loop' =
        .charge (m.charge (g₁ + g₂)) :: Reading.metered.tasks items' ∧
      InstrumentedList m 0 items items' l' ∧
      ∀ rest, Run .plain (.run (Instrumenter.loopBody loop) :: rest) []
        (Reading.plain.tasks items ++ rest) := by
  obtain ⟨_, e, _, _, gamma, body, _, _, _, _, hd, hp, hb, rfl, _⟩ := h.fields hc
  cases e
  obtain ⟨g₁, g₂, hu, ht, rfl⟩ := Pricing.costs_perIteration hd hp
  obtain ⟨fields', items, items', l', rfl, _, hf, hl, hr⟩ :=
    InstrumentedPart.opened (Instrumenter.loopBody_ne_null loop) hb
  exact ⟨g₁, g₂, items, items', l', hu, ht, pass_prepend hf, hl, hr⟩

/-! ## Entering a statement -/

section Entry

variable {p : Pricing} {s : Value} {name : String} {g : Nat}

theorem Entry.eq_zero (h : Entry p s g) (hk : s.hasKind name = true)
    (hr : PriceRule.ofKind name = .free ∨ PriceRule.ofKind name = .unpriced) : g = 0 := by
  rcases h with ⟨_, _, _, h0⟩ | hy
  · exact h0
  · rcases hr with hr | hr
    · exact Pricing.zero_of_free hk hr (Metered.outcome_ok_iff.mp hy)
    · exact Pricing.zero_of_unpriced hk hr (Metered.outcome_ok_iff.mp hy)

theorem Entry.gammaFor (h : Entry p s g) (hk : s.hasKind name = true) (hn : name ∉ freeKinds) :
    (p.gammaFor 0 s).outcome = .ok g := by
  rcases h with ⟨other, ho, hk', _⟩ | hy
  · rw [Value.eq_of_hasKind hk' hk] at ho
    contradiction
  · exact hy

end Entry

/-! ## Steps -/

/-- The contract's own run answers a step of the instrumented one: it does the same but for the
charges, and what has begun is taken from the credit `k` and from what was charged. Leaving may
forfeit some of the credit. -/
def Answered (m : Instrumenter) (k : Nat) (K : List Task) (events : List Event)
    (next' : List Task) : Prop :=
  ∃ next k₂ owed, Run .plain K (Event.withoutCharges events) next ∧ Covered m k₂ next' next ∧
    Costs m.pricing (Event.computations events) owed ∧
    (owed + k₂ : Int) ≤ Event.charged events + k ∧
    (.leave ∉ events → (owed + k₂ : Int) = Event.charged events + k)

theorem Answered.of_evaluate {k k₂ owed : Nat} {K next next' : List Task} {part : Value}
    (hr : Run .plain K (Event.evaluate part) next) (hc : Covered m k₂ next' next)
    (ho : Costs m.pricing (present part) owed) (hk : owed + k₂ = k) :
    Answered m k K (Event.evaluate part) next' := by
  refine ⟨next, k₂, owed, by simpa using hr, hc, by simpa using ho, ?_, fun _ => ?_⟩
  · simp only [Event.charged_evaluate]
    omega
  · simp only [Event.charged_evaluate]
    omega

theorem Answered.of_silent {k : Nat} {K next next' : List Task} (hr : Run .plain K [] next)
    (hc : Covered m k next' next) : Answered m k K [] next' :=
  show Answered m k K (Event.evaluate .null) next' from
    .of_evaluate hr hc Pricing.costs_nil (Nat.zero_add k)

theorem Instrumented.eq_of_kind {s : Value} {fields : Fields} {l : Ledger} {name : String}
    (h : Instrumented m 0 s (.record fields) l)
    (hk : (Value.record fields).hasKind name = true) (hc : Container.ofKind name = .leaf) :
    s = .record fields := by
  have hk' : s.hasKind name = true := (h.hasKind_eq name).symm.trans hk
  exact (h.eq_of_leaf (Value.container_of_hasKind hk' ▸ hc)).symm

theorem Instrumented.original {s : Value} {fields' : Fields} {l : Ledger} {name : String}
    (h : Instrumented m 0 s (.record fields') l)
    (hk : (Value.record fields').hasKind name = true) :
    ∃ fields, s = .record fields ∧ (Value.record fields).hasKind name = true ∧
      ∀ key, key ∉ statementFields → Fields.get fields' key = Fields.get fields key := by
  obtain ⟨fields, rfl, _⟩ := h.of_record
  exact ⟨fields, rfl, (h.hasKind_eq name).symm.trans hk, fun key hn => h.get_eq hn⟩

theorem Task.part_of_ne_null {v : Value} (h : v ≠ .null) : Task.part v = [.run v] := by
  cases v with
  | null => contradiction
  | _ => rfl

theorem Covered.task {k : Nat} {K' K : List Task} {part part' : Value} {l : Ledger}
    (h : InstrumentedPart m 0 part part' l) (hK : Pending m k K' K) :
    Covered m k (Task.part part' ++ K') (Task.part part ++ K) := by
  by_cases hn : part = .null
  · subst hn
    cases h with
    | null => exact .pending hK
    | bare hn _ _ => contradiction
  · rw [Task.part_of_ne_null hn, Task.part_of_ne_null (InstrumentedPart.ne_null hn h)]
    exact .part hn h hK

section Begin

variable {s : Value} {fields' : Fields} {l : Ledger} {gamma k : Nat} {K' K : List Task}
  {name : String}

theorem sequence_begin {items' : List Value} (h : Instrumented m 0 s (.record fields') l)
    (he : Entry m.pricing (.record fields') gamma) (hK : Pending m k K' K)
    (hn : name ∈ ["Program", "BlockStatement"])
    (hk : (Value.record fields').hasKind name = true)
    (hb : ((Fields.get? fields' "body").getD (.list [])).elements = .ok items') :
    Answered m (gamma + k) (.run s :: K) [] (Reading.metered.tasks items' ++ K') := by
  have hc : ∀ name ∈ ["Program", "BlockStatement"], Container.ofKind name = .sequence ∧
      (PriceRule.ofKind name = .free ∨ PriceRule.ofKind name = .unpriced) := by decide
  obtain ⟨fields, rfl, hk', _⟩ := Instrumented.original h hk
  obtain ⟨_, e, items, _, hb', hl, rfl⟩ :=
    h.fields ((Value.container_of_hasKind hk').trans (hc name hn).1)
  cases e
  simp only [Fields.get?_set_self, Option.getD_some, Value.elements, Except.ok.injEq] at hb
  subst hb
  obtain rfl := he.eq_zero hk (hc name hn).2
  rw [Nat.zero_add]
  exact .of_silent (.single (.sequence hn hk' hb')) (.pending (hK.append hl))

theorem compute_begin (h : Instrumented m 0 s (.record fields') l)
    (he : Entry m.pricing (.record fields') gamma) (hK : Pending m k K' K)
    (hn : name ∈ ["ExpressionStatement", "VariableDeclaration"])
    (hk : (Value.record fields').hasKind name = true) :
    Answered m (gamma + k) (.run s :: K) [.compute (.record fields')] K' := by
  have hc : ∀ name ∈ ["ExpressionStatement", "VariableDeclaration"],
      Container.ofKind name = .leaf ∧ name ∉ freeKinds := by decide
  obtain rfl := Instrumented.eq_of_kind h hk (hc name hn).1
  have hg := Metered.outcome_ok_iff.mp (he.gammaFor hk (hc name hn).2)
  have hr : Run .plain (.run (.record fields') :: K) (Event.evaluate (.record fields')) K :=
    .single (.compute hn hk)
  exact Answered.of_evaluate hr (.pending hK) (Pricing.costs_single hg) rfl

theorem idle_begin (h : Instrumented m 0 s (.record fields') l)
    (he : Entry m.pricing (.record fields') gamma) (hK : Pending m k K' K)
    (hn : name ∈ ["EmptyStatement", "FunctionDeclaration", "ClassDeclaration"])
    (hk : (Value.record fields').hasKind name = true) :
    Answered m (gamma + k) (.run s :: K) [] K' := by
  have hr : ∀ name ∈ ["EmptyStatement", "FunctionDeclaration", "ClassDeclaration"],
      PriceRule.ofKind name = .free ∨ PriceRule.ofKind name = .unpriced := by decide
  obtain ⟨fields, rfl, hk', _⟩ := Instrumented.original h hk
  obtain rfl := he.eq_zero hk (hr name hn)
  rw [Nat.zero_add]
  exact .of_silent (.single (.idle hn hk')) (.pending hK)

theorem returns_begin (h : Instrumented m 0 s (.record fields') l)
    (he : Entry m.pricing (.record fields') gamma)
    (hk : (Value.record fields').hasKind "ReturnStatement" = true) :
    Answered m (gamma + k) (.run s :: K)
      (Event.evaluate (Fields.get fields' "argument") ++ [.leave]) [] := by
  obtain rfl := Instrumented.eq_of_kind h hk rfl
  have hg := Metered.outcome_ok_iff.mp (he.gammaFor hk (by decide))
  have ho := Pricing.costs_argument hk rfl hg
  refine ⟨[], 0, gamma, ?_, .pending .done, ?_, ?_, fun hl => ?_⟩
  · rw [Event.withoutCharges_append, Event.withoutCharges_evaluate]
    exact .single (.returns hk)
  · simpa [Event.computations_append, Event.computations] using ho
  · simp only [Event.charged_append, Event.charged_evaluate, Event.charged]
    omega
  · simp at hl

theorem breaks_begin (h : Instrumented m 0 s (.record fields') l) (hK : Pending m k K' K)
    (hk : (Value.record fields').hasKind "BreakStatement" = true)
    (hl : Fields.get fields' "label" = .null) :
    Answered m (gamma + k) (.run s :: K) [.leave] (Task.behindLoop K') := by
  -- leaving forfeits what was paid for and has not begun
  obtain rfl := Instrumented.eq_of_kind h hk rfl
  obtain ⟨k₂, hle, hK₂⟩ := hK.behindLoop
  refine ⟨_, k₂, 0, .single (.breaks hk hl), .pending hK₂, Pricing.costs_nil, ?_, fun hl => ?_⟩
  · simp only [Event.charged]
    omega
  · simp at hl

theorem continues_begin (h : Instrumented m 0 s (.record fields') l)
    (he : Entry m.pricing (.record fields') gamma) (hK : Pending m k K' K)
    (hk : (Value.record fields').hasKind "ContinueStatement" = true)
    (hl : Fields.get fields' "label" = .null) :
    Answered m (gamma + k) (.run s :: K) [] (Task.endOfPass K') := by
  obtain rfl := Instrumented.eq_of_kind h hk rfl
  obtain rfl := he.eq_zero hk (.inl rfl)
  rw [Nat.zero_add]
  exact .of_silent (.single (.continues hk hl)) (.pending hK.endOfPass)

theorem branch_begin {side : String} (h : Instrumented m 0 s (.record fields') l)
    (he : Entry m.pricing (.record fields') gamma) (hK : Pending m k K' K)
    (hk : (Value.record fields').hasKind "IfStatement" = true)
    (hs : side ∈ ["consequent", "alternate"]) :
    Answered m (gamma + k) (.run s :: K) (Event.evaluate (Fields.get fields' "test"))
      (Task.part (Fields.get fields' side) ++ K') := by
  obtain ⟨fields, rfl, hk', hf⟩ := Instrumented.original h hk
  have hg := Metered.outcome_ok_iff.mp (he.gammaFor hk (by decide))
  have ho := Pricing.costs_test hk rfl hg
  rw [Value.field_record, hf "test" (by decide)] at ho
  rw [hf "test" (by decide)]
  obtain ⟨_, e, consequent, alternate, l₁, l₂, h₁, h₂, rfl, _⟩ :=
    h.fields (Value.container_of_hasKind hk')
  cases e
  have hp : ∃ l, InstrumentedPart m 0 (Fields.get fields side) (Fields.get
      (Fields.set (Fields.set fields "consequent" consequent) "alternate" alternate) side) l := by
    simp only [List.mem_cons, List.not_mem_nil, or_false] at hs
    rcases hs with rfl | rfl
    · exact ⟨l₁, by simpa [Fields.get_set] using h₁⟩
    · exact ⟨l₂, by simpa [Fields.get_set] using h₂⟩
  obtain ⟨_, hp⟩ := hp
  exact .of_evaluate (.single (.branch hk' hs)) (.task hp hK) ho rfl

theorem whileLoop_begin (h : Instrumented m 0 s (.record fields') l)
    (he : Entry m.pricing (.record fields') gamma) (hK : Pending m k K' K)
    (hk : (Value.record fields').hasKind "WhileStatement" = true) :
    Answered m (gamma + k) (.run s :: K) [] (.test fields' :: K') := by
  obtain ⟨fields, rfl, hk', hf⟩ := Instrumented.original h hk
  have hg := Metered.outcome_ok_iff.mp (he.gammaFor hk (by decide))
  have ho := Pricing.costs_test hk rfl hg
  rw [Value.field_record, hf "test" (by decide)] at ho
  exact .of_silent (.single (.whileLoop hk')) (.test h (Value.container_of_hasKind hk') ho hK)

theorem forLoop_begin (h : Instrumented m 0 s (.record fields') l)
    (he : Entry m.pricing (.record fields') gamma) (hK : Pending m k K' K)
    (hk : (Value.record fields').hasKind "ForStatement" = true) :
    Answered m (gamma + k) (.run s :: K) (Event.evaluate (Fields.get fields' "init"))
      (.test fields' :: K') := by
  obtain ⟨fields, rfl, hk', hf⟩ := Instrumented.original h hk
  have hg := Metered.outcome_ok_iff.mp (he.gammaFor hk (by decide))
  obtain ⟨g₁, g₂, hi, ho, rfl⟩ := Pricing.costs_init_test hk rfl hg
  rw [Value.field_record, hf _ (by decide)] at hi ho
  rw [hf _ (by decide)]
  exact .of_evaluate (.single (.forLoop hk')) (.test h (Value.container_of_hasKind hk') ho hK)
    hi (Nat.add_assoc ..).symm

theorem doLoop_begin (h : Instrumented m 0 s (.record fields') l)
    (he : Entry m.pricing (.record fields') gamma) (hK : Pending m k K' K)
    (hk : (Value.record fields').hasKind "DoWhileStatement" = true) :
    Answered m (gamma + k) (.run s :: K) []
      (Reading.metered.pass fields' ++ .again fields' :: K') := by
  obtain ⟨fields, rfl, hk', _⟩ := Instrumented.original h hk
  have hc : (Value.record fields).container = .loop := Value.container_of_hasKind hk'
  obtain rfl := he.eq_zero hk (.inl rfl)
  obtain ⟨g₁, g₂, items, items', l', hu, ht, hp, hl, hr⟩ := Instrumented.pass h hc
  rw [hp, Nat.zero_add]
  have hr : Run .plain (.run (.record fields) :: K) []
      (Reading.plain.tasks items ++ .again fields :: K) :=
    .step (.doLoop hk') (hr _)
  exact .of_silent hr (.pass ((Pending.again h hc hu ht hK).append hl))

theorem run_step {s' : Value} {next' : List Task} {events : List Event}
    (h : Instrumented m 0 s s' l) (he : Entry m.pricing s' gamma) (hK : Pending m k K' K)
    (hs : Step .metered (.run s' :: K') events next') :
    Answered m (gamma + k) (.run s :: K) events next' := by
  cases hs with
  | sequence hn hk hb => exact sequence_begin h he hK hn hk hb
  | compute hn hk => exact compute_begin h he hK hn hk
  | idle hn hk => exact idle_begin h he hK hn hk
  | returns hk => exact returns_begin h he hk
  | breaks hk hl => exact breaks_begin h hK hk hl
  | continues hk hl => exact continues_begin h he hK hk hl
  | branch hk hs => exact branch_begin h he hK hk hs
  | whileLoop hk => exact whileLoop_begin h he hK hk
  | forLoop hk => exact forLoop_begin h he hK hk
  | doLoop hk => exact doLoop_begin h he hK hk

end Begin

/-- A pass through the body of a loop starts with the charge for the test behind it. -/
theorem pass_step {loop loop' : Fields} {l : Ledger} {gamma k : Nat} {K' K : List Task}
    (h : Instrumented m 0 (.record loop) (.record loop') l)
    (hc : (Value.record loop).container = .loop)
    (ht : Costs m.pricing (present (Fields.get loop "test")) gamma) (hK : Pending m k K' K) :
    Answered m (gamma + k) (.test loop :: K) (Event.evaluate (Fields.get loop "test"))
      (Reading.metered.pass loop' ++ .again loop' :: K') := by
  obtain ⟨g₁, g₂, items, items', l', hu, ht', hp, hl, hr⟩ := Instrumented.pass h hc
  rw [hp]
  have hr : Run .plain (.test loop :: K) (Event.evaluate (Fields.get loop "test"))
      (Reading.plain.tasks items ++ .again loop :: K) := by
    simpa using Run.step .pass (hr _)
  exact .of_evaluate hr (.pass ((Pending.again h hc hu ht' hK).append hl)) ht rfl

theorem part_step {s s' : Value} {l : Ledger} {k : Nat} {K' K next' : List Task}
    {events : List Event} (hn : s ≠ .null) (h : InstrumentedPart m 0 s s' l)
    (hK : Pending m k K' K) (hs : Step .metered (.run s' :: K') events next') :
    Answered m k (.run s :: K) events next' := by
  obtain ⟨fields', items, items', l', rfl, hb, hf, hl, hr⟩ := InstrumentedPart.opened hn h
  cases hs with
  | sequence _ _ he =>
    simp only [hf, Option.getD_some, Value.elements, Except.ok.injEq] at he
    subst he
    exact .of_silent (hr _) (.pending (hK.append hl))
  | compute hm hk | idle hm hk =>
    rw [← Value.eq_of_hasKind hb hk] at hm
    exact absurd hm (by decide)
  | returns hk | breaks hk _ | continues hk _ | branch hk _ | whileLoop hk | forLoop hk
  | doLoop hk => exact absurd (Value.eq_of_hasKind hb hk) (by decide)

@[simp]
theorem Event.amount_charge (gamma : Nat) : Event.amount (m.charge gamma) = gamma := rfl

/-- The answer to an inserted charge is to wait for what it pays. -/
theorem Answered.of_charge {gamma k : Nat} {K next' : List Task}
    (hc : Covered m (gamma + k) next' K) : Answered m k K [.charge (m.charge gamma)] next' := by
  refine ⟨K, gamma + k, 0, .refl, hc, Pricing.costs_nil, ?_, fun _ => ?_⟩
  · simp [Event.charged]
  · simp [Event.charged]

theorem Entry.of_uncharged {p : Pricing} {s : Value} (h : isUncharged s = true) :
    Entry p s 0 := by
  obtain ⟨name, hn, hk⟩ := List.any_eq_true.mp h
  have hu : ∀ name ∈ unchargedKinds, name ∈ freeKinds := by decide
  exact .inl ⟨name, hu name hn, hk, rfl⟩

theorem covered_step {k : Nat} {K' K next' : List Task} {events : List Event}
    (hc : Covered m k K' K) (hs : Step .metered K' events next') :
    Answered m k K events next' := by
  cases hc with
  | pending hK =>
    cases hK with
    | done => cases hs
    | charged h hp hK =>
      cases hs with
      | charge => exact .of_charge (.entered h (.inr hp.outcome) hK)
    | uncharged h hu hK => simpa using run_step h (.of_uncharged hu) hK hs
    | again h hl hu ht hK =>
      cases hs with
      | again =>
        rw [h.get_eq (by decide)]
        exact .of_evaluate (.single .again) (.test h hl ht hK) hu (Nat.add_assoc ..).symm
  | entered h he hK => exact run_step h he hK hs
  | part hn h hK => exact part_step hn h hK hs
  | test h hl ht hK =>
    cases hs with
    | pass =>
      rw [h.get_eq (by decide)]
      exact pass_step h hl ht hK
    | done hn =>
      rw [h.get_eq (by decide)] at hn ⊢
      exact .of_evaluate (.single (.done hn)) (.pending hK) ht rfl
  | pass hK =>
    cases hs with
    | charge => exact .of_charge (.pending hK)

/-! ## Runs -/

theorem covered_run {k : Nat} {K' K last' : List Task} {events : List Event}
    (hr : Run .metered K' events last') (hc : Covered m k K' K) : Answered m k K events last' := by
  induction hr generalizing k K with
  | refl => exact .of_silent .refl hc
  | step hs _ ih =>
    -- the credit that the step leaves is the credit of the rest of the run
    obtain ⟨next, k₁, owed₁, hr₁, hc₁, ho₁, hle₁, heq₁⟩ := covered_step hc hs
    obtain ⟨last, k₂, owed₂, hr₂, hc₂, ho₂, hle₂, heq₂⟩ := ih hc₁
    refine ⟨last, k₂, owed₁ + owed₂, ?_, hc₂, ?_, ?_, fun hl => ?_⟩
    · rw [Event.withoutCharges_append]
      exact hr₁.trans hr₂
    · rw [Event.computations_append]
      exact Pricing.costs_append ho₁ ho₂
    · rw [Event.charged_append]
      omega
    · rw [List.mem_append, not_or] at hl
      have e₁ := heq₁ hl.1
      have e₂ := heq₂ hl.2
      rw [Event.charged_append]
      omega

theorem Entry.instrumented {s s' : Value} {l : Ledger} {g : Nat}
    (h : Instrumented m 0 s s' l) (he : Entry m.pricing s g) : Entry m.pricing s' g := by
  rcases he with ⟨name, hn, hk, rfl⟩ | hy
  · exact .inl ⟨name, hn, (h.hasKind_eq name).trans hk, rfl⟩
  · refine .inr ?_
    unfold Pricing.gammaFor at hy ⊢
    rw [h.gammaAt_eq]
    exact hy

/-- At every point of every run of an instrumented tree, the computations begun so far are those
of a run of the tree itself, and what was charged covers their prices, up to the price of entering
the root. A run that ends without leaving by a `break` or a `return` has been charged no more. -/
theorem charges_prepay_computations {tree out : Value} {k : Nat} {events : List Event}
    {rest : List Task} (h : (m.node 0 tree).outcome = .ok out) (he : Entry m.pricing tree k)
    (hr : Run .metered [.run out] events rest) :
    ∃ owed, Costs m.pricing (Event.computations events) owed ∧
      (owed : Int) ≤ Event.charged events + k ∧
      (∃ rest, Run .plain [.run tree] (Event.withoutCharges events) rest) ∧
      (rest = [] → .leave ∉ events → (owed : Int) = Event.charged events + k) := by
  have hi := node_sound (Metered.outcome_ok_iff.mp h)
  have hc : Covered m (k + 0) [.run out] [.run tree] := .entered hi (he.instrumented hi) .done
  obtain ⟨next, k₂, owed, hp, hc₂, ho, hle, heq⟩ := covered_run hr hc
  refine ⟨owed, ho, by omega, ⟨next, hp⟩, fun e hl => ?_⟩
  subst e
  -- a credit is always for something on the stack
  have hk₂ : k₂ = 0 := by
    cases hc₂ with
    | pending hK =>
      cases hK with
      | done => rfl
  have := heq hl
  omega

def counting : Value := program [whileLess increment]

def countingMetered : Value :=
  program [Instrumenter.sample.charge 2, whileLess
    (block (.list [Instrumenter.sample.charge 2, Instrumenter.sample.charge 6, increment]))]

def countingEvents : List Event :=
  [.charge (Instrumenter.sample.charge 2), .compute less,
    .charge (Instrumenter.sample.charge 2), .charge (Instrumenter.sample.charge 6),
    .compute increment, .compute less]

theorem charges_prepay_computations_of_counting :
    (Instrumenter.sample.node 0 counting).outcome = .ok countingMetered ∧
      Entry Instrumenter.sample.pricing counting 0 ∧
      Run .metered [.run countingMetered] countingEvents [] ∧
      Event.charged countingEvents = 10 ∧
      Costs Instrumenter.sample.pricing [less, increment, less] 10 := by
  have he : Entry Instrumenter.sample.pricing counting 0 :=
    .inl ⟨"Program", by decide, rfl, rfl⟩
  have hr : Run .metered [.run countingMetered] _ [] :=
    .step (.sequence (by decide : "Program" ∈ _) rfl rfl) <| .step .charge <|
      .step (.whileLoop rfl) <| .step .pass <| .step .charge <| .step .charge <|
      .step (.compute (by decide : "ExpressionStatement" ∈ _) rfl) <| .step .again <|
      .step (.done (fun e => nomatch e)) .refl
  have hr : Run .metered [.run countingMetered] countingEvents [] := hr
  obtain ⟨owed, ho, _, _, heq⟩ := charges_prepay_computations rfl he hr
  have h10 : (owed : Int) = 10 := heq rfl (by simp [countingEvents])
  obtain rfl : owed = 10 := by omega
  exact ⟨rfl, he, hr, rfl, ho⟩

/-- The statement `a + b;`. -/
def addition : Value :=
  Value.node "ExpressionStatement"
    [("expression", Value.node "BinaryExpression" [("operator", .text "+")])]

/-- A root that is a bare statement has no list to stand behind a charge in. -/
theorem bare_root_is_not_charged :
    (Instrumenter.sample.node 0 addition).outcome = .ok addition ∧
      Run .metered [.run addition] [.compute addition] [] ∧
      Costs Instrumenter.sample.pricing (Event.computations [.compute addition]) 3 ∧
      ¬ (3 : Int) ≤ Event.charged [.compute addition] := by
  have hr : Run .metered [.run addition] [.compute addition] [] :=
    .step (.compute (by decide : "ExpressionStatement" ∈ _) rfl) .refl
  exact ⟨rfl, hr, rfl, by decide⟩

end Execution
end ContractMeter
