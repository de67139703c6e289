import ContractMeter.Instrumenter
import ContractMeter.Proofs.Price

/-!
# ContractMeter.Proofs.Instrumented

What a successful walk makes of a tree, as a relation free of levels:

* `Instrumented` — a node, the instrumented node, and what was recorded on the way.
* `InstrumentedPart` — the same of a part in statement position.
* `InstrumentedList`, `InstrumentedCases` — the same of the statements of a list and of the cases
  of a `switch`.

`nodeAt_sound` and `statements_sound` say that every walk that succeeds stands in the relation;
properties of instrumented trees follow by induction on it.
-/

namespace ContractMeter

/-- How a value holds statements. -/
def Value.container (v : Value) : Container :=
  match v.field? "type" with
  | some (.text kind) => Container.ofKind kind
  | _ => .leaf

/-- The items of a list; any other value has none. -/
def Value.items : Value → List Value
  | .list items => items
  | _ => []

open Instrumenter (block prepend loopBody isUncharged)

mutual

/-- A node, the instrumented node and the ledger of the walk. No loop is priced at a depth less
than `start`. -/
inductive Instrumented (m : Instrumenter) (start : Int) : Value → Value → Ledger → Prop where
  | leaf {v : Value} (hc : v.container = .leaf) : Instrumented m start v v .empty
  | sequence {fields : Fields} {items items' : List Value} {l : Ledger}
      (hc : (Value.record fields).container = .sequence)
      (hb : ((Fields.get? fields "body").getD (.list [])).elements = .ok items)
      (h : InstrumentedList m start items items' l) :
      Instrumented m start (.record fields) (.record (Fields.set fields "body" (.list items'))) l
  | body {fields : Fields} {body : Value} {l : Ledger}
      (hc : (Value.record fields).container = .body)
      (h : Instrumented m start (Fields.get fields "body") body l) :
      Instrumented m start (.record fields) (.record (Fields.set fields "body" body)) l
  | loop {fields : Fields} {kind : String} {depth : Int} {gamma : Nat} {entry : Charge}
      {body : Value} {l₁ l₂ : Ledger}
      (hk : Fields.get? fields "type" = some (.text kind))
      (hc : Container.ofKind kind = .loop) (hd : start ≤ depth)
      (hp : (m.pricing.gammaPerIteration depth (.record fields)).Yields l₁ gamma)
      (he : Charge.of (.record fields) gamma (some (kind ++ " iteration")) = .ok entry)
      (h : InstrumentedPart m start (loopBody fields) body l₂) :
      Instrumented m start (.record fields)
        (.record (Fields.set fields "body" (prepend (m.charge gamma) body)))
        (l₁ ++ (⟨[], [entry]⟩ ++ l₂))
  | statementBody {fields : Fields} {body : Value} {l : Ledger}
      (hc : (Value.record fields).container = .statementBody)
      (h : InstrumentedPart m start (Fields.get fields "body") body l) :
      Instrumented m start (.record fields) (.record (Fields.set fields "body" body)) l
  | value {fields : Fields} {value : Value} {l : Ledger}
      (hc : (Value.record fields).container = .value)
      (h : Instrumented m start (Fields.get fields "value") value l) :
      Instrumented m start (.record fields) (.record (Fields.set fields "value" value)) l
  | branch {fields : Fields} {consequent alternate : Value} {l₁ l₂ : Ledger}
      (hc : (Value.record fields).container = .branch)
      (h₁ : InstrumentedPart m start (Fields.get fields "consequent") consequent l₁)
      (h₂ : InstrumentedPart m start (Fields.get fields "alternate") alternate l₂) :
      Instrumented m start (.record fields)
        (.record (Fields.set (Fields.set fields "consequent" consequent) "alternate" alternate))
        (l₁ ++ l₂)
  | attempt {fields : Fields} {block handler finalizer : Value} {l₁ l₂ l₃ : Ledger}
      (hc : (Value.record fields).container = .attempt)
      (h₁ : Instrumented m start (Fields.get fields "block") block l₁)
      (h₂ : Instrumented m start (Fields.get fields "handler") handler l₂)
      (h₃ : Instrumented m start (Fields.get fields "finalizer") finalizer l₃) :
      Instrumented m start (.record fields)
        (.record (Fields.set (Fields.set (Fields.set fields "block" block) "handler" handler)
          "finalizer" finalizer))
        (l₁ ++ (l₂ ++ l₃))
  | switch {fields : Fields} {cases cases' : List Value} {l : Ledger}
      (hc : (Value.record fields).container = .switch)
      (hb : ((Fields.get? fields "cases").getD (.list [])).elements = .ok cases)
      (h : InstrumentedCases m start cases cases' l) :
      Instrumented m start (.record fields) (.record (Fields.set fields "cases" (.list cases'))) l

/-- A part in statement position; a bare statement gets a block. -/
inductive InstrumentedPart (m : Instrumenter) (start : Int) : Value → Value → Ledger → Prop where
  | null : InstrumentedPart m start .null .null .empty
  | block {fields : Fields} {items items' : List Value} {l : Ledger}
      (hk : (Value.record fields).hasKind "BlockStatement" = true)
      (hb : ((Fields.get? fields "body").getD (.list [])).elements = .ok items)
      (h : InstrumentedList m start items items' l) :
      InstrumentedPart m start (.record fields)
        (.record (Fields.set fields "body" (.list items'))) l
  | bare {part : Value} {items : List Value} {l : Ledger} (hn : part ≠ .null)
      (hk : part.hasKind "BlockStatement" = false)
      (h : InstrumentedList m start [part] items l) :
      InstrumentedPart m start part (block (.list items)) l

/-- The statements of a list, each behind its charge unless it gets none. -/
inductive InstrumentedList (m : Instrumenter) (start : Int) :
    List Value → List Value → Ledger → Prop where
  | nil : InstrumentedList m start [] [] .empty
  | uncharged {s s' : Value} {ss ss' : List Value} {l₁ l₂ : Ledger}
      (h : Instrumented m start s s' l₁) (hu : isUncharged s' = true)
      (hs : InstrumentedList m start ss ss' l₂) :
      InstrumentedList m start (s :: ss) (s' :: ss') (l₁ ++ l₂)
  | charged {s s' : Value} {gamma : Nat} {entry : Charge} {ss ss' : List Value}
      {l₁ l₂ l₃ : Ledger} (h : Instrumented m start s s' l₁) (hu : isUncharged s' = false)
      (hp : (m.pricing.gammaFor 0 s').Yields l₂ gamma)
      (he : Charge.of s' gamma none = .ok entry)
      (hs : InstrumentedList m start ss ss' l₃) :
      InstrumentedList m start (s :: ss) (m.charge gamma :: s' :: ss')
        (l₁ ++ (l₂ ++ ⟨[], [entry]⟩ ++ l₃))

/-- The cases of a `switch`, which hold lists of statements. -/
inductive InstrumentedCases (m : Instrumenter) (start : Int) :
    List Value → List Value → Ledger → Prop where
  | nil : InstrumentedCases m start [] [] .empty
  | cons {fields : Fields} {items items' cases cases' : List Value} {l₁ l₂ : Ledger}
      (hb : ((Fields.get? fields "consequent").getD (.list [])).elements = .ok items)
      (h : InstrumentedList m start items items' l₁)
      (hs : InstrumentedCases m start cases cases' l₂) :
      InstrumentedCases m start (.record fields :: cases)
        (.record (Fields.set fields "consequent" (.list items')) :: cases') (l₁ ++ l₂)

end

/-- Lenient instrumenting with ceilings that small trees stay below. -/
def Instrumenter.sample : Instrumenter where
  pricing := ⟨false, 20⟩
  call := ⟨"Host", "meter"⟩
  maxDepth := 20

namespace Sample

def program (statements : List Value) : Value :=
  Value.node "Program" [("body", .list statements)]

/-- The statement `a++;`. -/
def increment : Value :=
  Value.node "ExpressionStatement"
    [("expression", Value.node "UpdateExpression" [("operator", .text "++")])]

def less : Value :=
  Value.node "BinaryExpression" [("operator", .text "<")]

/-- The statement `while (a < b)` with a body. -/
def whileLess (body : Value) : Value :=
  Value.node "WhileStatement" [("test", less), ("body", body)]

def labelled (body : Value) : Value :=
  Value.node "LabeledStatement" [("label", Value.node "Identifier" []), ("body", body)]

end Sample

theorem Value.container_of_kind {fields : Fields} {kind : String}
    (h : Fields.get? fields "type" = some (.text kind)) :
    (Value.record fields).container = Container.ofKind kind := by
  simp [Value.container, h]

theorem Value.container_of_hasKind {v : Value} {kind : String} (h : v.hasKind kind = true) :
    v.container = Container.ofKind kind := by
  simp [Value.container, Value.hasKind_iff.mp h]

theorem Value.container_of_not_hasKind {v : Value} (h : ∀ kind, v.hasKind kind = false) :
    v.container = .leaf := by
  unfold Value.container
  split
  · rename_i kind ht
    exact absurd (h kind) (by rw [Value.hasKind_iff.mpr ht]; decide)
  · rfl

theorem Value.container_of_untyped {fields : Fields}
    (h : ∀ kind, Fields.get? fields "type" ≠ some (.text kind)) :
    (Value.record fields).container = .leaf := by
  unfold Value.container
  split
  · exact absurd ‹_› (h _)
  · rfl

theorem Value.container_set {fields : Fields} {key : String} {v : Value} (h : key ≠ "type") :
    (Value.record (Fields.set fields key v)).container = (Value.record fields).container := by
  simp [Value.container, Fields.get?_set_of_ne h.symm]

@[simp]
theorem Instrumenter.hasKind_block (statements : Value) :
    (block statements).hasKind "BlockStatement" = true := rfl

@[simp]
theorem Instrumenter.set_block (statements other : Value) :
    Value.record (Fields.set [("type", .text "BlockStatement"), ("body", statements)] "body" other)
      = block other := rfl

theorem Instrumenter.prepend_block (charge : Value) (items : List Value) :
    prepend charge (block (.list items)) = block (.list (charge :: items)) := rfl

theorem Instrumenter.prepend_record (charge : Value) (fields : Fields) :
    prepend charge (.record fields) =
      .record (Fields.set fields "body" (.list (charge :: (Fields.get fields "body").items))) := by
  cases hb : Fields.get fields "body" <;> simp only [prepend, hb, Value.items]

theorem Instrumenter.statementPart_of_ne_null {node inner : Value → Metered Value} {part : Value}
    (h : part ≠ .null) :
    Instrumenter.statementPart node inner part =
      if part.hasKind "BlockStatement" then node part
      else inner (.list [part]) >>= fun statements => pure (block statements) := by
  cases part <;> first | contradiction | rfl

theorem Instrumenter.loopBody_ne_null (fields : Fields) : loopBody fields ≠ .null := by
  intro h
  unfold loopBody at h
  dsimp only at h
  split at h
  · rename_i ht
    rw [h] at ht
    cases ht
  · cases h

@[simp]
theorem Instrumenter.isUncharged_charge (m : Instrumenter) (gamma : Nat) :
    isUncharged (m.charge gamma) = false := by
  simp [isUncharged, unchargedKinds, Instrumenter.charge, MeteringCall.statement,
    Value.hasKind, Value.kind, Value.isNode, Fields.get?, Value.isText]

/-! ## Inversion -/

/-- What a walk makes of the fields of a node, by the way the node holds statements. -/
def InstrumentedFields (m : Instrumenter) (start : Int) (fields fields' : Fields) (l : Ledger) :
    Container → Prop
  | .leaf => fields' = fields ∧ l = .empty
  | .sequence => ∃ items items',
      ((Fields.get? fields "body").getD (.list [])).elements = .ok items ∧
      InstrumentedList m start items items' l ∧ fields' = Fields.set fields "body" (.list items')
  | .body => ∃ body, Instrumented m start (Fields.get fields "body") body l ∧
      fields' = Fields.set fields "body" body
  | .loop => ∃ (kind : String) (depth : Int) (gamma : Nat) (body : Value) (l₁ l₂ l₃ : Ledger),
      Fields.get? fields "type" = some (.text kind) ∧ start ≤ depth ∧
      (m.pricing.gammaPerIteration depth (.record fields)).Yields l₁ gamma ∧
      InstrumentedPart m start (loopBody fields) body l₂ ∧
      fields' = Fields.set fields "body" (prepend (m.charge gamma) body) ∧
      l = l₁ ++ (l₃ ++ l₂)
  | .statementBody => ∃ body, InstrumentedPart m start (Fields.get fields "body") body l ∧
      fields' = Fields.set fields "body" body
  | .value => ∃ value, Instrumented m start (Fields.get fields "value") value l ∧
      fields' = Fields.set fields "value" value
  | .branch => ∃ consequent alternate l₁ l₂,
      InstrumentedPart m start (Fields.get fields "consequent") consequent l₁ ∧
      InstrumentedPart m start (Fields.get fields "alternate") alternate l₂ ∧
      fields' = Fields.set (Fields.set fields "consequent" consequent) "alternate" alternate ∧
      l = l₁ ++ l₂
  | .attempt => ∃ block handler finalizer l₁ l₂ l₃,
      Instrumented m start (Fields.get fields "block") block l₁ ∧
      Instrumented m start (Fields.get fields "handler") handler l₂ ∧
      Instrumented m start (Fields.get fields "finalizer") finalizer l₃ ∧
      fields' = Fields.set (Fields.set (Fields.set fields "block" block) "handler" handler)
        "finalizer" finalizer ∧
      l = l₁ ++ (l₂ ++ l₃)
  | .switch => ∃ cases cases',
      ((Fields.get? fields "cases").getD (.list [])).elements = .ok cases ∧
      InstrumentedCases m start cases cases' l ∧ fields' = Fields.set fields "cases" (.list cases')

theorem Instrumented.fields {m : Instrumenter} {start : Int} {fields : Fields} {v' : Value}
    {l : Ledger} {c : Container} (h : Instrumented m start (.record fields) v' l)
    (hc : (Value.record fields).container = c) :
    ∃ fields', v' = .record fields' ∧ InstrumentedFields m start fields fields' l c := by
  subst hc
  cases h with
  | leaf hc => exact ⟨_, rfl, by rw [hc]; exact ⟨rfl, rfl⟩⟩
  | sequence hc hb h => exact ⟨_, rfl, by rw [hc]; exact ⟨_, _, hb, h, rfl⟩⟩
  | body hc h => exact ⟨_, rfl, by rw [hc]; exact ⟨_, h, rfl⟩⟩
  | loop hk hc hd hp _ h =>
    refine ⟨_, rfl, ?_⟩
    rw [Value.container_of_kind hk, hc]
    exact ⟨_, _, _, _, _, _, _, hk, hd, hp, h, rfl, rfl⟩
  | statementBody hc h => exact ⟨_, rfl, by rw [hc]; exact ⟨_, h, rfl⟩⟩
  | value hc h => exact ⟨_, rfl, by rw [hc]; exact ⟨_, h, rfl⟩⟩
  | branch hc h₁ h₂ => exact ⟨_, rfl, by rw [hc]; exact ⟨_, _, _, _, h₁, h₂, rfl, rfl⟩⟩
  | attempt hc h₁ h₂ h₃ =>
    exact ⟨_, rfl, by rw [hc]; exact ⟨_, _, _, _, _, _, h₁, h₂, h₃, rfl, rfl⟩⟩
  | switch hc hb h => exact ⟨_, rfl, by rw [hc]; exact ⟨_, _, hb, h, rfl⟩⟩

theorem InstrumentedPart.ofBlock {m : Instrumenter} {start : Int} {v v' : Value} {l : Ledger}
    (hk : v.hasKind "BlockStatement" = true) (h : Instrumented m start v v' l) :
    InstrumentedPart m start v v' l := by
  have hc : v.container = .sequence := Value.container_of_hasKind hk
  cases v with
  | record fields =>
    obtain ⟨_, rfl, items, items', hb, hl, rfl⟩ := h.fields hc
    exact .block hk hb hl
  | _ => cases hc

/-! ## What an instrumented node keeps -/

/-- The fields that hold statements in some kind of node. -/
def statementFields : List String :=
  ["body", "value", "consequent", "alternate", "block", "handler", "finalizer", "cases"]

theorem get?_set_statementField {fields : Fields} {key name : String} {v : Value}
    (hk : key ∈ statementFields) (hn : name ∉ statementFields) :
    Fields.get? (Fields.set fields key v) name = Fields.get? fields name :=
  Fields.get?_set_of_ne fun e => hn (e ▸ hk)

theorem get_set_statementField {fields : Fields} {key name : String} {v : Value}
    (hk : key ∈ statementFields) (hn : name ∉ statementFields) :
    Fields.get (Fields.set fields key v) name = Fields.get fields name := by
  rw [Fields.get, Fields.get, get?_set_statementField hk hn]

theorem hasKind_set_statementField {fields : Fields} {key name : String} {v : Value}
    (hk : key ∈ statementFields) :
    (Value.record (Fields.set fields key v)).hasKind name = (Value.record fields).hasKind name :=
  Value.hasKind_set fun e => absurd (e ▸ hk) (by decide)

section Keeps

variable {m : Instrumenter} {start : Int} {v v' : Value} {l : Ledger}

theorem Instrumented.record {fields : Fields} (h : Instrumented m start (.record fields) v' l) :
    ∃ fields', v' = .record fields' ∧
      ∀ name, name ∉ statementFields → Fields.get? fields' name = Fields.get? fields name := by
  cases h with
  | leaf _ => exact ⟨fields, rfl, fun _ _ => rfl⟩
  | sequence _ _ _ | body _ _ | loop _ _ _ _ _ _ | statementBody _ _ =>
    exact ⟨_, rfl, fun name hn =>
      get?_set_statementField (by decide : "body" ∈ statementFields) hn⟩
  | value _ _ =>
    exact ⟨_, rfl, fun name hn =>
      get?_set_statementField (by decide : "value" ∈ statementFields) hn⟩
  | branch _ _ _ =>
    refine ⟨_, rfl, fun name hn => ?_⟩
    rw [get?_set_statementField (by decide : "alternate" ∈ statementFields) hn,
      get?_set_statementField (by decide : "consequent" ∈ statementFields) hn]
  | attempt _ _ _ _ =>
    refine ⟨_, rfl, fun name hn => ?_⟩
    rw [get?_set_statementField (by decide : "finalizer" ∈ statementFields) hn,
      get?_set_statementField (by decide : "handler" ∈ statementFields) hn,
      get?_set_statementField (by decide : "block" ∈ statementFields) hn]
  | switch _ _ _ =>
    exact ⟨_, rfl, fun name hn =>
      get?_set_statementField (by decide : "cases" ∈ statementFields) hn⟩

theorem Instrumented.get_eq {fields fields' : Fields} {name : String}
    (h : Instrumented m start (.record fields) (.record fields') l) (hn : name ∉ statementFields) :
    Fields.get fields' name = Fields.get fields name := by
  obtain ⟨_, e, hf⟩ := h.record
  cases e
  simp only [Fields.get, hf name hn]

theorem Instrumented.eq_or_record (h : Instrumented m start v v' l) :
    v' = v ∨ ∃ fields fields', v = .record fields ∧ v' = .record fields' ∧
      ∀ name, name ∉ statementFields → Fields.get? fields' name = Fields.get? fields name := by
  cases v with
  | record fields =>
    obtain ⟨fields', rfl, hf⟩ := h.record
    exact .inr ⟨fields, fields', rfl, rfl, hf⟩
  | _ =>
    cases h with
    | leaf _ => exact .inl rfl

theorem Instrumented.of_record {fields' : Fields}
    (h : Instrumented m start v (.record fields') l) :
    ∃ fields, v = .record fields ∧
      ∀ name, name ∉ statementFields → Fields.get? fields' name = Fields.get? fields name := by
  rcases h.eq_or_record with e | ⟨fields, _, rfl, e, hf⟩
  · exact ⟨fields', e.symm, fun _ _ => rfl⟩
  · cases e
    exact ⟨fields, rfl, hf⟩

theorem Instrumented.eq_of_leaf (h : Instrumented m start v v' l) (hc : v.container = .leaf) :
    v' = v := by
  cases v with
  | record fields =>
    obtain ⟨_, rfl, rfl, _⟩ := h.fields hc
    rfl
  | _ =>
    cases h with
    | leaf _ => rfl

/-- Instrumenting changes no price. -/
theorem Instrumented.gammaAt_eq (h : Instrumented m start v v' l) (p : Pricing) (n : Nat) :
    p.gammaAt n v' = p.gammaAt n v := by
  rcases h.eq_or_record with rfl | ⟨fields, fields', rfl, rfl, hf⟩
  · rfl
  · apply Pricing.gammaAt_congr
    intro name hn
    have : ∀ name ∈ Pricing.pricedFields, name ∉ statementFields := by decide
    exact hf name (this name hn)

theorem Instrumented.gammaFor_eq (h : Instrumented m start v v' l) (p : Pricing) (depth : Int) :
    p.gammaFor depth v' = p.gammaFor depth v :=
  h.gammaAt_eq p _

theorem Instrumented.gammaPerIteration_eq (h : Instrumented m start v v' l) (p : Pricing)
    (depth : Int) : p.gammaPerIteration depth v' = p.gammaPerIteration depth v := by
  rcases h.eq_or_record with rfl | ⟨fields, fields', rfl, rfl, hf⟩
  · rfl
  · have ht : Fields.get fields' "test" = Fields.get fields "test" := by
      rw [Fields.get, Fields.get, hf "test" (by decide)]
    have hu : Fields.get fields' "update" = Fields.get fields "update" := by
      rw [Fields.get, Fields.get, hf "update" (by decide)]
    unfold Pricing.gammaPerIteration
    cases levelsLeft p.maxDepth depth with
    | zero => rfl
    | succ levels => rw [Pricing.gammaPerIterationAt, Pricing.gammaPerIterationAt, ht, hu]

theorem Instrumented.hasKind_eq (h : Instrumented m start v v' l) (name : String) :
    v'.hasKind name = v.hasKind name := by
  rcases h.eq_or_record with rfl | ⟨fields, fields', rfl, rfl, hf⟩
  · rfl
  · simp [Value.hasKind, Value.isNode, Value.kind, Value.typeName, hf "type" (by decide)]

theorem Instrumented.kind_eq (h : Instrumented m start v v' l) : v'.kind = v.kind := by
  rcases h.eq_or_record with rfl | ⟨fields, fields', rfl, rfl, hf⟩
  · rfl
  · simp [Value.kind, Value.typeName, hf "type" (by decide)]

theorem Instrumented.line_eq (h : Instrumented m start v v' l) : v'.line = v.line := by
  rcases h.eq_or_record with rfl | ⟨fields, fields', rfl, rfl, hf⟩
  · rfl
  · simp [Value.line, Fields.get, hf "loc" (by decide)]

theorem Instrumented.isUncharged_eq (h : Instrumented m start v v' l) :
    isUncharged v' = isUncharged v := by
  unfold isUncharged
  rw [funext h.hasKind_eq]

end Keeps

/-! ## Successful walks -/

section Sound

variable {m : Instrumenter} {start : Int} {node inner : Value → Metered Value}

def SoundNode (m : Instrumenter) (start : Int) (node : Value → Metered Value) : Prop :=
  ∀ ⦃v v' : Value⦄ ⦃l : Ledger⦄, (node v).Yields l v' → Instrumented m start v v' l

def SoundList (m : Instrumenter) (start : Int) (list : Value → Metered Value) : Prop :=
  ∀ ⦃v w : Value⦄ ⦃l : Ledger⦄, (list v).Yields l w →
    ∃ items items', v.elements = .ok items ∧ w = .list items' ∧
      InstrumentedList m start items items' l

theorem recordCharge_yields {s : Value} {gamma : Nat} {label : Option String} {l : Ledger}
    {u : Unit} : (Instrumenter.recordCharge s gamma label).Yields l u ↔
      ∃ entry, Charge.of s gamma label = .ok entry ∧ l = ⟨[], [entry]⟩ := by
  simp only [Instrumenter.recordCharge, Metered.yields_bind, Metered.yields_ofExcept,
    Metered.yields_record]
  constructor
  · rintro ⟨_, entry, _, ⟨he, rfl⟩, rfl, rfl⟩
    exact ⟨entry, he, rfl⟩
  · rintro ⟨entry, he, rfl⟩
    exact ⟨_, entry, _, ⟨he, rfl⟩, rfl, rfl⟩

theorem chargeEach_sound (hn : SoundNode m start node) {items items' : List Value} {l : Ledger}
    (h : (m.chargeEach node items).Yields l items') :
    InstrumentedList m start items items' l := by
  induction items generalizing items' l with
  | nil =>
    simp only [Instrumenter.chargeEach, Metered.yields_pure] at h
    obtain ⟨rfl, rfl⟩ := h
    exact .nil
  | cons s ss ih =>
    simp only [Instrumenter.chargeEach, Metered.yields_bind, Metered.yields_map] at h
    obtain ⟨l₁, s', _, hs, ⟨l₂, placed, l₃, hp, ⟨ss', hss, rfl⟩, rfl⟩, rfl⟩ := h
    by_cases hu : isUncharged s' = true
    · simp only [Instrumenter.charged, hu, if_true, Metered.yields_pure] at hp
      obtain ⟨rfl, rfl⟩ := hp
      simpa using InstrumentedList.uncharged (hn hs) hu (ih hss)
    · have hu : isUncharged s' = false := by simpa using hu
      simp only [Instrumenter.charged, hu, Bool.false_eq_true, if_false, Metered.yields_bind,
        recordCharge_yields, Metered.yields_return] at hp
      obtain ⟨l₄, gamma, _, hg, ⟨_, _, _, ⟨entry, he, rfl⟩, ⟨rfl, rfl⟩, rfl⟩, rfl⟩ := hp
      simpa using InstrumentedList.charged (hn hs) hu hg he (ih hss)

theorem chargeElements_sound (hn : SoundNode m start node) :
    SoundList m start (m.chargeElements node) := by
  intro v w l h
  simp only [Instrumenter.chargeElements, Metered.yields_bind, Metered.yields_ofExcept,
    Metered.yields_return] at h
  obtain ⟨_, items, _, ⟨hv, rfl⟩, ⟨l₁, items', _, hi, ⟨rfl, rfl⟩, rfl⟩, rfl⟩ := h
  exact ⟨items, items', hv, rfl, by simpa using chargeEach_sound hn hi⟩

theorem eachCase_sound (hi : SoundList m start inner) {cases cases' : List Value} {l : Ledger}
    (h : (Instrumenter.eachCase inner cases).Yields l cases') :
    InstrumentedCases m start cases cases' l := by
  induction cases generalizing cases' l with
  | nil =>
    simp only [Instrumenter.eachCase, Metered.yields_pure] at h
    obtain ⟨rfl, rfl⟩ := h
    exact .nil
  | cons c cs ih =>
    cases c with
    | record fields =>
      simp only [Instrumenter.eachCase, Metered.yields_bind, Metered.yields_map] at h
      obtain ⟨l₁, w, l₂, hw, ⟨cs', hcs, rfl⟩, rfl⟩ := h
      obtain ⟨items, items', hb, rfl, hl⟩ := hi hw
      exact .cons hb hl (ih hcs)
    | _ => simp [Instrumenter.eachCase] at h

theorem statementPart_sound (hn : SoundNode m start node) (hi : SoundList m start inner)
    {part part' : Value} {l : Ledger}
    (h : (Instrumenter.statementPart node inner part).Yields l part') :
    InstrumentedPart m start part part' l := by
  by_cases h0 : part = .null
  · subst h0
    cases hn h with
    | leaf _ => exact .null
  · rw [Instrumenter.statementPart_of_ne_null h0] at h
    by_cases hk : part.hasKind "BlockStatement" = true
    · rw [if_pos hk] at h
      exact .ofBlock hk (hn h)
    · rw [if_neg hk, Metered.yields_bind] at h
      obtain ⟨l₁, w, _, hw, hp, rfl⟩ := h
      obtain ⟨rfl, rfl⟩ := Metered.yields_return.mp hp
      obtain ⟨items, items', hb, rfl, hl⟩ := hi hw
      cases hb
      simpa using InstrumentedPart.bare h0 (by simpa using hk) hl

/-- What a walk makes of the parts of a node, given what it makes of nodes and lists. -/
theorem parts_sound {sequence : Value → Metered Value} {depth : Int} {kind : String}
    {fields : Fields} {v' : Value} {l : Ledger} (hn : SoundNode m start node)
    (hs : SoundList m start sequence) (hi : SoundList m start inner) (hd : start ≤ depth)
    (hk : Fields.get? fields "type" = some (.text kind))
    (h : (m.parts node sequence inner depth kind fields).Yields l v') :
    Instrumented m start (.record fields) v' l := by
  have hc := Value.container_of_kind hk
  unfold Instrumenter.parts at h
  split at h <;> rename_i ho <;> rw [ho] at hc <;>
    simp only [Metered.yields_bind, Metered.yields_return, Metered.yields_pure,
      Metered.yields_ofExcept, Instrumenter.meterLoop, recordCharge_yields] at h
  case h_1 =>
    obtain ⟨l₁, w, _, hw, ⟨rfl, rfl⟩, rfl⟩ := h
    obtain ⟨items, items', hb, rfl, hl⟩ := hs hw
    simpa using Instrumented.sequence hc hb hl
  case h_2 =>
    obtain ⟨l₁, w, _, hw, ⟨rfl, rfl⟩, rfl⟩ := h
    simpa using Instrumented.body hc (hn hw)
  case h_3 =>
    obtain ⟨l₁, gamma, _, hg, ⟨_, _, _, ⟨entry, he, rfl⟩, ⟨l₂, b, _, hb, ⟨rfl, rfl⟩, rfl⟩, rfl⟩,
      rfl⟩ := h
    simpa using Instrumented.loop hk ho hd hg he (statementPart_sound hn hi hb)
  case h_4 =>
    obtain ⟨l₁, w, _, hw, ⟨rfl, rfl⟩, rfl⟩ := h
    simpa using Instrumented.statementBody hc (statementPart_sound hn hi hw)
  case h_5 =>
    obtain ⟨l₁, w, _, hw, ⟨rfl, rfl⟩, rfl⟩ := h
    simpa using Instrumented.value hc (hn hw)
  case h_6 =>
    obtain ⟨l₁, w₁, _, hw₁, ⟨l₂, w₂, _, hw₂, ⟨rfl, rfl⟩, rfl⟩, rfl⟩ := h
    simpa using Instrumented.branch hc (statementPart_sound hn hi hw₁)
      (statementPart_sound hn hi hw₂)
  case h_7 =>
    obtain ⟨l₁, w₁, _, hw₁, ⟨l₂, w₂, _, hw₂, ⟨l₃, w₃, _, hw₃, ⟨rfl, rfl⟩, rfl⟩, rfl⟩, rfl⟩ := h
    simpa using Instrumented.attempt hc (hn hw₁) (hn hw₂) (hn hw₃)
  case h_8 =>
    obtain ⟨_, cases, _, ⟨hb, rfl⟩, ⟨l₁, cases', _, hcs, ⟨rfl, rfl⟩, rfl⟩, rfl⟩ := h
    simpa using Instrumented.switch hc hb (eachCase_sound hi hcs)
  case h_9 =>
    obtain ⟨rfl, rfl⟩ := h
    exact .leaf hc

end Sound

mutual

theorem nodeAt_sound {m : Instrumenter} {start : Int} :
    ∀ (levels : Nat), start ≤ m.maxDepth - levels + 2 → SoundNode m start (m.nodeAt levels)
  | 0, _ => by
    intro v v' l h
    simp [Instrumenter.nodeAt, Instrumenter.tooDeep] at h
  | levels + 1, hd => by
    intro v v' l h
    cases v with
    | record fields =>
      rw [Instrumenter.nodeAt] at h
      split at h
      case h_1 ht =>
        obtain ⟨rfl, rfl⟩ := Metered.yields_pure.mp h
        exact .leaf (Value.container_of_untyped fun kind e => nomatch ht.symm.trans e)
      case h_2 kind ht =>
        -- the bound on `levels` keeps the depth a loop is priced at from falling below `start`
        exact parts_sound (nodeAt_sound levels (by omega)) (sequenceAt_sound levels (by omega))
          (innerSequenceAt_sound levels (by omega)) (by omega) ht h
      case h_3 kind hne ht =>
        split at h
        · obtain ⟨rfl, rfl⟩ := Metered.yields_pure.mp h
          refine .leaf (Value.container_of_untyped fun name e => hne name ?_)
          exact Option.some.inj (ht.symm.trans e)
        · exact absurd h Metered.not_yields_fault
    | _ =>
      obtain ⟨rfl, rfl⟩ := Metered.yields_pure.mp h
      exact .leaf rfl

theorem sequenceAt_sound {m : Instrumenter} {start : Int} :
    ∀ (levels : Nat), start ≤ m.maxDepth - levels + 2 → SoundList m start (m.sequenceAt levels)
  | 0, _ => by
    intro v w l h
    simp [Instrumenter.sequenceAt, Instrumenter.tooDeep] at h
  | levels + 1, hd => by
    intro v w l h
    rw [Instrumenter.sequenceAt] at h
    exact chargeElements_sound (nodeAt_sound levels (by omega)) h

theorem innerSequenceAt_sound {m : Instrumenter} {start : Int} :
    ∀ (levels : Nat), start ≤ m.maxDepth - levels + 2 →
      SoundList m start (m.innerSequenceAt levels)
  | 0, _ => by
    intro v w l h
    simp [Instrumenter.innerSequenceAt, Instrumenter.tooDeep] at h
  | levels + 1, hd => by
    intro v w l h
    rw [Instrumenter.innerSequenceAt] at h
    exact sequenceAt_sound levels (by omega) h

end

theorem node_sound {m : Instrumenter} {depth : Int} {v v' : Value} {l : Ledger}
    (h : (m.node depth v).Yields l v') : Instrumented m depth v v' l := by
  unfold Instrumenter.node at h
  cases hl : levelsLeft m.maxDepth depth with
  | zero => simp [hl, Instrumenter.nodeAt, Instrumenter.tooDeep] at h
  | succ levels =>
    rw [hl] at h
    refine nodeAt_sound (levels + 1) ?_ h
    unfold levelsLeft at hl
    omega

theorem statements_sound {m : Instrumenter} {items : List Value} {v' : Value} {l : Ledger}
    (h : (m.statements (.list items)).Yields l v') :
    ∃ items', v' = .list items' ∧ InstrumentedList m 0 items items' l := by
  unfold Instrumenter.statements at h
  cases hl : levelsLeft m.maxDepth 0 with
  | zero => simp [hl, Instrumenter.sequenceAt, Instrumenter.tooDeep] at h
  | succ levels =>
    rw [hl] at h
    have hd : (0 : Int) ≤ m.maxDepth - (levels + 1 : Nat) + 2 := by
      unfold levelsLeft at hl
      omega
    obtain ⟨_, items', hv, rfl, hs⟩ := sequenceAt_sound _ hd h
    cases hv
    exact ⟨items', rfl, hs⟩

end ContractMeter
