import ContractMeter.Proofs.Instrumented
import ContractMeter.Proofs.Shape

/-!
# ContractMeter.Proofs.Erasure

Taking the charges out of an instrumented tree again.

* `Value.erase` — the tree without its charges, which are told from their position alone: one
  stands before each element of a list that gets one, and one at the top of a metered loop's body.
* `Value.normal` — a tree as the pass leaves it but for charges: blocks around bare bodies, an
  empty block for a loop without a body, and no container field absent.

`erasure_inverts_instrumentation` says that erasing inverts the pass up to normal form, for trees
whose statement lists are lists.
-/

namespace ContractMeter

open Instrumenter (block prepend loopBody isUncharged)

namespace Fields

theorem sizeOf_get?_option (fields : Fields) (key : String) :
    sizeOf (get? fields key) < sizeOf (Value.record fields) := by
  cases h : get? fields key with
  | none =>
    have := sizeOf_pos fields
    simp only [Option.none.sizeOf_spec, Value.record.sizeOf_spec]
    omega
  | some v =>
    have := sizeOf_get? h
    simp only [Option.some.sizeOf_spec, Value.record.sizeOf_spec]
    omega

end Fields

namespace Value

mutual

/-- The tree without its charges. -/
def erase : Value → Value
  | .record fields =>
    match (record fields).container with
    | .sequence => .record (Fields.set fields "body" (eraseSequence (Fields.get fields "body")))
    | .body => .record (Fields.set fields "body" (erase (Fields.get fields "body")))
    | .loop => .record (Fields.set fields "body" (erasePass (Fields.get fields "body")))
    | .statementBody => .record (Fields.set fields "body" (erase (Fields.get fields "body")))
    | .value => .record (Fields.set fields "value" (erase (Fields.get fields "value")))
    | .branch => .record
      (Fields.set (Fields.set fields "consequent" (erase (Fields.get fields "consequent")))
        "alternate" (erase (Fields.get fields "alternate")))
    | .attempt => .record
      (Fields.set
        (Fields.set (Fields.set fields "block" (erase (Fields.get fields "block")))
          "handler" (erase (Fields.get fields "handler")))
        "finalizer" (erase (Fields.get fields "finalizer")))
    | .switch => .record (Fields.set fields "cases" (eraseCases (Fields.get fields "cases")))
    | .leaf => .record fields
  | v => v
termination_by v => sizeOf v
decreasing_by all_goals exact Fields.sizeOf_get ..

/-- The body of a loop, whose first statement is the charge of a pass. -/
def erasePass : Value → Value
  | .record fields => .record (Fields.set fields "body" (eraseBehind (Fields.get fields "body")))
  | v => v
termination_by v => sizeOf v
decreasing_by exact Fields.sizeOf_get ..

def eraseBehind : Value → Value
  | .list (_ :: items) => .list (eraseItems items)
  | v => v
termination_by v => sizeOf v
decreasing_by simp; omega

def eraseSequence : Value → Value
  | .list items => .list (eraseItems items)
  | v => v
termination_by v => sizeOf v
decreasing_by simp

/-- The statements of a list. Each but an uncharged declaration stands behind its charge. -/
def eraseItems : List Value → List Value
  | [] => []
  | [item] => if isUncharged item then [erase item] else []
  | item :: statement :: rest =>
    if isUncharged item then erase item :: eraseItems (statement :: rest)
    else erase statement :: eraseItems rest
termination_by items => sizeOf items
decreasing_by all_goals simp <;> omega

def eraseCases : Value → Value
  | .list cases => .list (eraseCaseItems cases)
  | v => v
termination_by v => sizeOf v
decreasing_by simp

def eraseCaseItems : List Value → List Value
  | [] => []
  | .record fields :: rest =>
    .record (Fields.set fields "consequent" (eraseSequence (Fields.get fields "consequent"))) ::
      eraseCaseItems rest
  | v :: rest => v :: eraseCaseItems rest
termination_by cases => sizeOf cases
decreasing_by
  · have := Fields.sizeOf_get fields "consequent"
    simp only [List.cons.sizeOf_spec]
    omega
  all_goals
    simp only [List.cons.sizeOf_spec]
    omega

end

mutual

/-- The tree as the pass leaves it, but for charges. -/
def normal : Value → Value
  | .record fields =>
    match (record fields).container with
    | .sequence => .record (Fields.set fields "body" (normalSequence (Fields.get? fields "body")))
    | .body => .record (Fields.set fields "body" (normal (Fields.get fields "body")))
    | .loop => .record (Fields.set fields "body"
      (if (Fields.get fields "body").truthy then normalPart (Fields.get fields "body")
        else block (.list [])))
    | .statementBody => .record (Fields.set fields "body" (normalPart (Fields.get fields "body")))
    | .value => .record (Fields.set fields "value" (normal (Fields.get fields "value")))
    | .branch => .record
      (Fields.set (Fields.set fields "consequent" (normalPart (Fields.get fields "consequent")))
        "alternate" (normalPart (Fields.get fields "alternate")))
    | .attempt => .record
      (Fields.set
        (Fields.set (Fields.set fields "block" (normal (Fields.get fields "block")))
          "handler" (normal (Fields.get fields "handler")))
        "finalizer" (normal (Fields.get fields "finalizer")))
    | .switch => .record (Fields.set fields "cases" (normalCases (Fields.get? fields "cases")))
    | .leaf => .record fields
  | v => v
termination_by v => (sizeOf v, 0)
decreasing_by
  all_goals
    apply Prod.Lex.left
    first
    | exact Fields.sizeOf_get ..
    | exact Fields.sizeOf_get?_option ..

/-- A part in statement position; a bare statement stands in a block. -/
def normalPart (part : Value) : Value :=
  match part with
  | .null => .null
  | part => if part.hasKind "BlockStatement" then normal part else block (.list [normal part])
termination_by (sizeOf part, 1)

def normalSequence : Option Value → Value
  | none => .list []
  | some (.list items) => .list (normalItems items)
  | some v => v
termination_by v => (sizeOf v, 0)
decreasing_by
  apply Prod.Lex.left
  simp only [Option.some.sizeOf_spec, list.sizeOf_spec]
  omega

def normalItems : List Value → List Value
  | [] => []
  | item :: rest => normal item :: normalItems rest
termination_by items => (sizeOf items, 0)
decreasing_by
  all_goals
    apply Prod.Lex.left
    simp only [List.cons.sizeOf_spec]
    omega

def normalCases : Option Value → Value
  | none => .list []
  | some (.list cases) => .list (normalCaseItems cases)
  | some v => v
termination_by v => (sizeOf v, 0)
decreasing_by
  apply Prod.Lex.left
  simp only [Option.some.sizeOf_spec, list.sizeOf_spec]
  omega

def normalCaseItems : List Value → List Value
  | [] => []
  | .record fields :: rest =>
    .record (Fields.set fields "consequent" (normalSequence (Fields.get? fields "consequent"))) ::
      normalCaseItems rest
  | v :: rest => v :: normalCaseItems rest
termination_by cases => (sizeOf cases, 0)
decreasing_by
  · apply Prod.Lex.left
    have := Fields.sizeOf_get?_option fields "consequent"
    simp only [List.cons.sizeOf_spec]
    omega
  all_goals
    apply Prod.Lex.left
    simp only [List.cons.sizeOf_spec]
    omega

end

theorem normalSequence_eq {field : Option Value} {items : List Value}
    (hf : isListOrAbsent field = true) (h : (field.getD (.list [])).elements = .ok items) :
    normalSequence field = .list (normalItems items) := by
  rcases elements_of_isListOrAbsent hf h with ⟨rfl, rfl⟩ | rfl <;>
    simp [normalSequence, normalItems]

theorem normalCases_eq {field : Option Value} {cases : List Value}
    (hf : isListOrAbsent field = true) (h : (field.getD (.list [])).elements = .ok cases) :
    normalCases field = .list (normalCaseItems cases) := by
  rcases elements_of_isListOrAbsent hf h with ⟨rfl, rfl⟩ | rfl <;>
    simp [normalCases, normalCaseItems]

@[simp]
theorem erase_block (items : List Value) :
    (block (.list items)).erase = block (.list (eraseItems items)) := by
  have hc : (record [("type", .text "BlockStatement"), ("body", .list items)]).container =
      .sequence := rfl
  rw [block, erase, hc]
  simp [Fields.get, Fields.get?_cons, eraseSequence]

@[simp]
theorem normal_block (items : List Value) :
    (block (.list items)).normal = block (.list (normalItems items)) := by
  have hc : (record [("type", .text "BlockStatement"), ("body", .list items)]).container =
      .sequence := rfl
  rw [block, normal, hc]
  simp [Fields.get?_cons, normalSequence]

theorem normalPart_of_block {v : Value} (h : v.hasKind "BlockStatement" = true) :
    v.normalPart = v.normal := by
  cases v with
  | record fields => rw [normalPart, if_pos h]; simp
  | _ => cases h

theorem normalPart_of_bare {v : Value} (hn : v ≠ .null) (h : v.hasKind "BlockStatement" = false) :
    v.normalPart = block (.list [v.normal]) := by
  cases v <;> simp_all [normalPart]

theorem normalPart_loopBody (fields : Fields) :
    normalPart (loopBody fields) =
      if (Fields.get fields "body").truthy then normalPart (Fields.get fields "body")
      else block (.list []) := by
  by_cases h : (Fields.get fields "body").truthy = true
  · simp [loopBody, h]
  · simp only [loopBody, if_neg h]
    rw [normalPart_of_block (by simp), normal_block, normalItems]

end Value

section Erase

variable {m : Instrumenter} {start : Int}

theorem eraseItems_uncharged {item : Value} {rest : List Value} (h : isUncharged item = true) :
    Value.eraseItems (item :: rest) = item.erase :: Value.eraseItems rest := by
  cases rest with
  | nil => simp [Value.eraseItems, h]
  | cons next rest => simp [Value.eraseItems, h]

theorem eraseItems_charge {gamma : Nat} {item : Value} {rest : List Value} :
    Value.eraseItems (m.charge gamma :: item :: rest) = item.erase :: Value.eraseItems rest := by
  simp [Value.eraseItems]

mutual

theorem Instrumented.erase_eq {v v' : Value} {l : Ledger} :
    Instrumented m start v v' l → v.listShaped = true → v'.erase = v.normal
  | .leaf hc, _ => by
    cases v with
    | record fields => rw [Value.erase, Value.normal, hc]
    | _ => simp [Value.erase, Value.normal]
  | .sequence hc hb h, hv => by
    have hf := Value.isListOrAbsent_body hv hc
    rw [Value.erase, Value.normal, Value.container_set (by decide : "body" ≠ "type"), hc]
    simp only [Fields.get_set, reduceIte, Fields.set_set, Value.eraseSequence]
    rw [Value.normalSequence_eq hf hb, h.erase_eq (Value.listShaped_of_elements hv hf hb)]
  | .body hc h, hv => by
    rw [Value.erase, Value.normal, Value.container_set (by decide : "body" ≠ "type"), hc]
    simp only [Fields.get_set, reduceIte, Fields.set_set]
    rw [h.erase_eq (Value.listShaped_get hv "body")]
  | .loop hk hc _ _ _ h, hv => by
    rw [Value.erase, Value.normal, Value.container_set (by decide : "body" ≠ "type"),
      Value.container_of_kind hk, hc]
    simp only [Fields.get_set, reduceIte, Fields.set_set]
    rw [(h.erase_eq (Value.listShaped_loopBody hv)).2 (Instrumenter.loopBody_ne_null _),
      Value.normalPart_loopBody]
  | .statementBody hc h, hv => by
    rw [Value.erase, Value.normal, Value.container_set (by decide : "body" ≠ "type"), hc]
    simp only [Fields.get_set, reduceIte, Fields.set_set]
    rw [(h.erase_eq (Value.listShaped_get hv "body")).1]
  | .value hc h, hv => by
    rw [Value.erase, Value.normal, Value.container_set (by decide : "value" ≠ "type"), hc]
    simp only [Fields.get_set, reduceIte, Fields.set_set]
    rw [h.erase_eq (Value.listShaped_get hv "value")]
  | .branch hc h₁ h₂, hv => by
    rw [Value.erase, Value.normal, Value.container_set (by decide : "alternate" ≠ "type"),
      Value.container_set (by decide : "consequent" ≠ "type"), hc]
    simp only [Fields.get_set, reduceIte, String.reduceEq]
    rw [(h₁.erase_eq (Value.listShaped_get hv "consequent")).1,
      (h₂.erase_eq (Value.listShaped_get hv "alternate")).1,
      Fields.set_comm "consequent" "alternate" (by decide) (by simp), Fields.set_set,
      Fields.set_set]
  | .attempt hc h₁ h₂ h₃, hv => by
    rw [Value.erase, Value.normal, Value.container_set (by decide : "finalizer" ≠ "type"),
      Value.container_set (by decide : "handler" ≠ "type"),
      Value.container_set (by decide : "block" ≠ "type"), hc]
    simp only [Fields.get_set, reduceIte, String.reduceEq]
    rw [h₁.erase_eq (Value.listShaped_get hv "block"),
      h₂.erase_eq (Value.listShaped_get hv "handler"),
      h₃.erase_eq (Value.listShaped_get hv "finalizer"),
      Fields.set_comm "block" "finalizer" (by decide) (by simp [Fields.get?_set]),
      Fields.set_comm "block" "handler" (by decide) (by simp), Fields.set_set,
      Fields.set_comm "handler" "finalizer" (by decide) (by simp), Fields.set_set, Fields.set_set]
  | .switch hc hb h, hv => by
    obtain ⟨hl, hi, hcs⟩ := Value.cases_of_listShaped hv hc hb
    rw [Value.erase, Value.normal, Value.container_set (by decide : "cases" ≠ "type"), hc]
    simp only [Fields.get_set, reduceIte, Fields.set_set, Value.eraseCases]
    rw [Value.normalCases_eq hl hb, h.erase_eq hi hcs]

theorem InstrumentedPart.erase_eq {v v' : Value} {l : Ledger} :
    InstrumentedPart m start v v' l → v.listShaped = true →
      v'.erase = v.normalPart ∧
        (v ≠ .null → ∀ gamma, (prepend (m.charge gamma) v').erasePass = v.normalPart)
  | .null, _ => by simp [Value.erase, Value.normalPart]
  | .block hk hb h, hv => by
    have hc := Value.container_of_hasKind hk
    have hf := Value.isListOrAbsent_body hv hc
    have e := h.erase_eq (Value.listShaped_of_elements hv hf hb)
    have hs : Container.ofKind "BlockStatement" = .sequence := rfl
    rw [hs] at hc
    rw [Value.normalPart_of_block hk, Value.normal, hc]
    dsimp only
    rw [Value.normalSequence_eq hf hb, ← e]
    -- as a node, and as the body of a loop, behind the charge for a pass
    constructor
    · rw [Value.erase, Value.container_set (by decide : "body" ≠ "type"), hc]
      simp [Fields.get_set, Value.eraseSequence]
    · intro _ gamma
      simp [prepend, Fields.get_set, Value.erasePass, Value.eraseBehind]
  | .bare hn hk h, hv => by
    have e := h.erase_eq (Value.listShaped_cons.mpr ⟨hv, rfl⟩)
    rw [Value.normalPart_of_bare hn hk]
    simp only [Value.normalItems] at e
    constructor
    · rw [Value.erase_block, e]
    · intro _ gamma
      simp [prepend, block, Fields.get, Fields.get?_cons, Fields.set, Value.erasePass,
        Value.eraseBehind, e]

theorem InstrumentedList.erase_eq {items items' : List Value} {l : Ledger} :
    InstrumentedList m start items items' l → (Value.list items).listShaped = true →
      Value.eraseItems items' = Value.normalItems items
  | .nil, _ => by simp [Value.eraseItems, Value.normalItems]
  | .uncharged h hu hs, hi => by
    rw [Value.listShaped_cons] at hi
    rw [eraseItems_uncharged hu, Value.normalItems, h.erase_eq hi.1, hs.erase_eq hi.2]
  | .charged h _ _ _ hs, hi => by
    rw [Value.listShaped_cons] at hi
    rw [eraseItems_charge, Value.normalItems, h.erase_eq hi.1, hs.erase_eq hi.2]

theorem InstrumentedCases.erase_eq {cases cases' : List Value} {l : Ledger} :
    InstrumentedCases m start cases cases' l → (Value.list cases).listShaped = true →
      (∀ c ∈ cases, Value.isListOrAbsent (c.field? "consequent") = true) →
      Value.eraseCaseItems cases' = Value.normalCaseItems cases
  | .nil, _, _ => by simp [Value.eraseCaseItems, Value.normalCaseItems]
  | .cons hb h hs, hi, hcs => by
    rw [Value.listShaped_cons] at hi
    have hf : Value.isListOrAbsent (Fields.get? _ "consequent") = true :=
      hcs _ List.mem_cons_self
    rw [Value.eraseCaseItems, Value.normalCaseItems,
      hs.erase_eq hi.2 fun c hc => hcs c (List.mem_cons_of_mem _ hc)]
    simp only [Fields.get_set, reduceIte, Fields.set_set, Value.eraseSequence]
    rw [Value.normalSequence_eq hf hb, h.erase_eq (Value.listShaped_of_elements hi.1 hf hb)]

end

end Erase

/-- **Erasing the charges gives the contract back**, up to normal form, whatever statements and
metering calls it has of its own. A list is instrumented as a sequence of statements. -/
theorem erasure_inverts_instrumentation {m : Instrumenter} {tree : Value}
    (hl : tree.listShaped = true) :
    (∀ depth out, (m.node depth tree).outcome = .ok out → out.erase = tree.normal) ∧
      (∀ items out, tree = .list items → (m.statements tree).outcome = .ok out →
        out.eraseSequence = Value.normalSequence (some tree)) := by
  constructor
  · intro depth out h
    exact (node_sound (Metered.outcome_ok_iff.mp h)).erase_eq hl
  · rintro items out rfl h
    obtain ⟨items', rfl, hs⟩ := statements_sound (Metered.outcome_ok_iff.mp h)
    simp only [Value.eraseSequence, Value.normalSequence]
    rw [hs.erase_eq hl]

/-- A `do` loop with a bare body, behind a class and a metering call of the contract's own. -/
def unbracedLoop : Value :=
  Value.node "Program" [("body", .list [
    Value.node "ClassDeclaration" [("body", Value.node "ClassBody" [("body", .list [])])],
    Instrumenter.sample.charge 7,
    Value.node "DoWhileStatement" [("test", Value.node "ThisExpression" []),
      ("body", Value.node "EmptyStatement" [])]])]

theorem erasure_inverts_instrumentation_of_unbracedLoop :
    ∃ out, unbracedLoop.listShaped = true ∧
      (Instrumenter.sample.node 0 unbracedLoop).outcome = .ok out ∧
      out.erase = unbracedLoop.normal := by
  refine ⟨_, by decide, rfl, ?_⟩
  have h : (Instrumenter.sample.node 0 unbracedLoop).outcome = .ok _ := rfl
  exact (erasure_inverts_instrumentation (by decide)).1 0 _ h

end ContractMeter
