import ContractMeter.Proofs.Price

/-!
# ContractMeter.Proofs.Lookalike

Values that no price can tell apart.

* `Pricing.Lookalike` — a relation of values that agree in what a price makes of them directly,
  and are related again in the parts that it goes on to.
* `Lookalike.gammaAt_agrees`, `Lookalike.gammaPerIteration_agrees` — related values have the same
  prices.
-/

namespace ContractMeter
namespace Pricing

/-- The fields that a price or the price of a pass is read from. -/
def readFields : List String := "update" :: pricedFields

/-- Related values are of the same sort and have related parts, the same scalars, and the same
literals to store. -/
structure Lookalike (R : Value → Value → Prop) : Prop where
  list : ∀ {items : List Value} {w : Value}, R (.list items) w →
    ∃ f : Value → Value, w = .list (items.map f) ∧ ∀ v ∈ items, R v (f v)
  record : ∀ {fields : Fields} {w : Value}, R (.record fields) w →
    ∃ (fields' : Fields) (f : Value → Value), w = .record fields' ∧ ∀ key ∈ readFields,
      Fields.get? fields' key = (Fields.get? fields key).map f ∧
      ∀ v, Fields.get? fields key = some v → R v (f v)
  scalar : ∀ {v w : Value}, R v w → (∀ items, v ≠ .list items) → (∀ fields, v ≠ .record fields) →
    w = v
  literal : ∀ {v w : Value}, R v w → v.hasKind "Literal" = true →
    declaredLiteral w = declaredLiteral v

/-- A function that is the same for related values. -/
def Agrees {α : Type} (R : Value → Value → Prop) (g : Value → α) : Prop :=
  ∀ ⦃v w : Value⦄, R v w → g w = g v

namespace Lookalike

variable {R : Value → Value → Prop} {v w : Value}

theorem eq_of_text (hR : Lookalike R) {t : String} (h : R (.text t) w) : w = .text t :=
  hR.scalar h (by simp) (by simp)

theorem text_iff (hR : Lookalike R) (h : R v w) (t : String) : w = .text t ↔ v = .text t := by
  cases v with
  | list items =>
    obtain ⟨f, rfl, -⟩ := hR.list h
    simp
  | record fields =>
    obtain ⟨fields', f, rfl, -⟩ := hR.record h
    simp
  | _ => rw [hR.scalar h (by simp) (by simp)]

theorem null_iff (hR : Lookalike R) (h : R v w) : w = .null ↔ v = .null := by
  cases v with
  | list items =>
    obtain ⟨f, rfl, -⟩ := hR.list h
    simp
  | record fields =>
    obtain ⟨fields', f, rfl, -⟩ := hR.record h
    simp
  | _ => rw [hR.scalar h (by simp) (by simp)]

theorem hasKind_eq (hR : Lookalike R) (h : R v w) (name : String) :
    w.hasKind name = v.hasKind name := by
  cases v with
  | list items =>
    obtain ⟨f, rfl, -⟩ := hR.list h
    rfl
  | record fields =>
    obtain ⟨fields', f, rfl, hf⟩ := hR.record h
    obtain ⟨ht, hr⟩ := hf "type" (by decide)
    rw [Bool.eq_iff_iff, Value.hasKind_iff, Value.hasKind_iff, Value.field?_record,
      Value.field?_record, ht]
    cases hg : Fields.get? fields "type" with
    | none => simp
    | some t => simpa using hR.text_iff (hr t hg) name
  | _ => rw [hR.scalar h (by simp) (by simp)]

/-! ### Operators -/

theorem gammaForOperator_agrees (hR : Lookalike R) : Agrees R gammaForOperator := by
  intro v w h
  cases v with
  | list items =>
    obtain ⟨f, rfl, -⟩ := hR.list h
    rfl
  | record fields =>
    obtain ⟨fields', f, rfl, -⟩ := hR.record h
    rfl
  | _ => rw [hR.scalar h (by simp) (by simp)]

theorem assignedOperator_agrees (hR : Lookalike R) : Agrees R assignedOperator := by
  intro v w h
  cases v with
  | list items =>
    obtain ⟨f, rfl, -⟩ := hR.list h
    rfl
  | record fields =>
    obtain ⟨fields', f, rfl, -⟩ := hR.record h
    rfl
  | _ => rw [hR.scalar h (by simp) (by simp)]

/-! ### Parts -/

section Parts

variable {price : Value → Metered Nat} (hR : Lookalike R) (hp : Agrees R price)

include hp in
theorem sumOf_eq {items : List Value} {f : Value → Value} (h : ∀ v ∈ items, R v (f v)) :
    sumOf price (items.map f) = sumOf price items := by
  induction items with
  | nil => rfl
  | cons item rest ih =>
    obtain ⟨hi, hr⟩ := List.forall_mem_cons.mp h
    rw [List.map_cons, sumOf, sumOf, hp hi, ih hr]

include hR hp

theorem optional_agrees : Agrees R (optional price) := by
  intro v w h
  by_cases hn : v = .null
  · rw [hn, (hR.null_iff h).mpr hn]
  · rw [optional_of_ne_null hn, optional_of_ne_null (mt (hR.null_iff h).mp hn), hp h]

theorem initial_agrees : Agrees R (initial price) := by
  intro v w h
  by_cases hn : v = .null
  · rw [hn, (hR.null_iff h).mpr hn]
  · rw [initial_of_ne_null hn, initial_of_ne_null (mt (hR.null_iff h).mp hn), hR.hasKind_eq h,
      hp h]
    split
    · rename_i hl
      rw [hR.literal h hl]
    · rfl

end Parts

section Rules

variable {price : Value → Metered Nat} {fields fields' : Fields} {f : Value → Value} {key : String}
  (hf : ∀ key ∈ readFields, Fields.get? fields' key = (Fields.get? fields key).map f ∧
    ∀ v, Fields.get? fields key = some v → R v (f v))

include hf

/-- What is the same for related values is the same for a field, also if it is missing. -/
theorem getD_eq {α : Type} {g : Value → α} (hg : Agrees R g) (hk : key ∈ readFields)
    (default : Value) :
    g ((Fields.get? fields' key).getD default) = g ((Fields.get? fields key).getD default) := by
  obtain ⟨hkey, hr⟩ := hf key hk
  rw [hkey]
  cases hv : Fields.get? fields key with
  | none => rfl
  | some v => exact hg (hr v hv)

theorem get_eq {α : Type} {g : Value → α} (hg : Agrees R g) (hk : key ∈ readFields) :
    g (Fields.get fields' key) = g (Fields.get fields key) :=
  getD_eq hf hg hk .null

theorem required_eq {g : Value → Metered Nat} (hg : Agrees R g) (hk : key ∈ readFields) :
    required (.record fields') key >>= g = required (.record fields) key >>= g := by
  obtain ⟨hkey, hr⟩ := hf key hk
  simp only [required, Value.field?_record, hkey]
  cases hv : Fields.get? fields key with
  | none => rfl
  | some v =>
    simp only [Option.map_some, Metered.pure_bind]
    exact hg (hr v hv)

theorem byRule_eq (hR : Lookalike R) (hp : Agrees R price) (p : Pricing) (rule : PriceRule)
    (hk : (Value.record fields').kind = (Value.record fields).kind) :
    p.byRule price rule (.record fields') = p.byRule price rule (.record fields) := by
  have hop := optional_agrees hR hp
  cases rule with
  | free => rfl
  | operator =>
    have hg : Agrees R fun operator => settled (gammaForOperator operator) :=
      fun _ _ h => congrArg settled (hR.gammaForOperator_agrees h)
    exact required_eq hf hg (by decide)
  | expression => exact required_eq hf hp (by decide)
  | argument | test => exact get_eq hf hop (by decide)
  | declarations => exact getD_eq hf hp (by decide) _
  | declarator => exact get_eq hf (initial_agrees hR hp) (by decide)
  | assignment =>
    simp only [byRule, Value.field_record, Value.field?_record]
    rw [get_eq hf hp (by decide), getD_eq hf hR.assignedOperator_agrees (by decide)]
  | testAndInit =>
    simp only [byRule, Value.field_record]
    rw [get_eq hf hop (by decide : "test" ∈ readFields),
      get_eq hf hop (by decide : "init" ∈ readFields)]
  | unpriced => simp only [byRule, hk]

end Rules

/-! ### Prices -/

variable (hR : Lookalike R) (p : Pricing)

include hR

/-- Related values have the same price. -/
theorem gammaAt_agrees (levels : Nat) : Agrees R (p.gammaAt levels) := by
  induction levels with
  | zero => exact fun _ _ _ => rfl
  | succ levels ih =>
    intro v w h
    cases v with
    | list items =>
      obtain ⟨f, rfl, hf⟩ := hR.list h
      exact sumOf_eq ih hf
    | record fields =>
      obtain ⟨fields', f, rfl, hf⟩ := hR.record h
      obtain ⟨ht, hr⟩ := hf "type" (by decide)
      have hrule (kind : String) (hk : (Value.record fields').kind = (Value.record fields).kind) :=
        byRule_eq hf hR ih p (PriceRule.ofKind kind) hk
      rw [gammaAt_succ (by simp), gammaAt_succ (by simp)]
      simp only [Value.kind, Value.field?_record, ht] at hrule ⊢
      cases hg : Fields.get? fields "type" with
      | none =>
        rw [hg] at hrule
        exact hrule _ rfl
      | some t =>
        rw [hg] at hrule
        have hrt := hr t hg
        simp only [Option.map_some, Option.getD_some] at hrule ⊢
        cases t with
        | text kind =>
          rw [hR.eq_of_text hrt] at hrule ⊢
          exact hrule kind rfl
        -- whatever has parts is no key, and any other kind is the same
        | list items =>
          obtain ⟨g, e, -⟩ := hR.list hrt
          rw [e]
          simp only [Value.usableKey, Value.comparable, Bool.false_eq_true, if_false]
        | record fields =>
          obtain ⟨fields'', g, e, -⟩ := hR.record hrt
          rw [e]
          simp only [Value.usableKey, Value.comparable, Bool.false_eq_true, if_false]
        | _ => rw [hR.scalar hrt (by simp) (by simp)]
    | _ => rw [hR.scalar h (by simp) (by simp)]

theorem gammaFor_agrees (depth : Int) : Agrees R (p.gammaFor depth) :=
  hR.gammaAt_agrees p _

theorem gammaPerIteration_agrees (depth : Int) : Agrees R (p.gammaPerIteration depth) := by
  intro v w h
  unfold gammaPerIteration
  cases levelsLeft p.maxDepth depth with
  | zero => rfl
  | succ levels =>
    have hop := optional_agrees hR (hR.gammaAt_agrees p levels)
    cases v with
    | record fields =>
      obtain ⟨fields', f, rfl, hf⟩ := hR.record h
      rw [gammaPerIterationAt, gammaPerIterationAt,
        get_eq hf hop (by decide : "test" ∈ readFields),
        get_eq hf hop (by decide : "update" ∈ readFields)]
    | list items =>
      obtain ⟨f, rfl, -⟩ := hR.list h
      rfl
    | _ => rw [hR.scalar h (by simp) (by simp)]

end Lookalike

end Pricing
end ContractMeter
