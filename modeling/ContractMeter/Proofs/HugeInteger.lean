import ContractMeter.Proofs.Renaming
import ContractMeter.Tree.Json
import Mathlib.Algebra.Ring.Nat

/-!
# ContractMeter.Proofs.HugeInteger

The integers in a tree: which of them are too long to be written, and where those of a metered tree
come from.

* `IsHuge` — an integer with more digits than are written.
* `Value.integers` — all integers in a value; `Value.unwritable?_displayed_iff` says that a huge one
  is all that keeps a value out of a text that displays host objects.
* `Sanitizer.mem_integers_renamed` — renaming keeps the integers of a tree.
* `Instrumented.mem_integers` — metering adds the amounts of its charges and takes no integer away
  but zero, which may stand for the missing body of a loop.
-/

namespace ContractMeter

open Instrumenter (block prepend loopBody prepend_block loopBody_ne_null)

/-! ## Huge integers -/

/-- An integer has more digits than an integer is written with. -/
def IsHuge (n : Int) : Prop := Text.maxDigits < (Nat.toDigits 10 n.natAbs).length

instance (n : Int) : Decidable (IsHuge n) := inferInstanceAs (Decidable (_ < _))

theorem Value.hugeBound_eq : Value.hugeBound = 10 ^ Text.maxDigits := by
  unfold Value.hugeBound
  generalize Text.maxDigits = digits
  rfl

theorem isHuge_iff {n : Int} : IsHuge n ↔ Value.hugeBound ≤ n.natAbs := by
  have hpos : 0 < Text.maxDigits := by decide
  unfold IsHuge
  rw [Value.hugeBound_eq]
  generalize Text.maxDigits = digits at hpos
  rw [← Nat.not_le, Nat.length_toDigits_le_iff (by decide) hpos, Nat.not_lt]

theorem IsHuge.ne_zero {n : Int} (h : IsHuge n) : n ≠ 0 := by
  rintro rfl
  have hlength : (Nat.toDigits 10 (0 : Int).natAbs).length = 1 := rfl
  rw [IsHuge, hlength] at h
  exact absurd h (by decide)

theorem IsHuge.mono {n k : Int} (h : IsHuge n) (hn : 0 ≤ n) (hk : n ≤ k) : IsHuge k := by
  rw [isHuge_iff] at h ⊢
  omega

namespace Value

mutual

/-- The integers anywhere in a value, in the order of its text. -/
def integers : Value → List Int
  | .int n => [n]
  | .list items => itemIntegers items
  | .record fields => fieldIntegers fields
  | _ => []

def itemIntegers : List Value → List Int
  | [] => []
  | item :: rest => integers item ++ itemIntegers rest

def fieldIntegers : List (String × Value) → List Int
  | [] => []
  | (_, v) :: rest => integers v ++ fieldIntegers rest

end

section Integers

variable {n : Int} {v : Value} {items : List Value} {fields : Fields} {key : String}

theorem integers_list (items : List Value) : (list items).integers = itemIntegers items := by
  rw [integers]

theorem integers_record (fields : Fields) : (record fields).integers = fieldIntegers fields := by
  rw [integers]

@[simp]
theorem integers_nil : (list []).integers = [] := by
  rw [integers_list, itemIntegers]

@[simp]
theorem integers_cons (item : Value) (rest : List Value) :
    (list (item :: rest)).integers = item.integers ++ (list rest).integers := by
  rw [integers_list, integers_list, itemIntegers]

theorem integers_of_isString (h : v.isString = true) : v.integers = [] := by
  cases v with
  | text _ | broken _ => rw [integers] <;> nofun
  | _ => cases h

/-- Nothing but zero is lost with a value that is not truthy. -/
theorem not_mem_integers_of_not_truthy (hn : n ≠ 0) (h : v.truthy = false) : n ∉ v.integers := by
  cases v with
  | int k =>
    obtain rfl : k = 0 := by simpa [truthy] using h
    simpa [integers] using hn
  | list items =>
    cases items with
    | nil => simp
    | cons item rest => cases h
  | record fields =>
    cases fields with
    | nil => simp [integers, fieldIntegers]
    | cons field rest => cases h
  | _ => simp [integers]

/-! ### Writing a field -/

variable {added : Prop}

theorem mem_fieldIntegers_set (h : n ∈ v.integers ↔ n ∈ (Fields.get fields key).integers ∨ added) :
    n ∈ fieldIntegers (Fields.set fields key v) ↔ n ∈ fieldIntegers fields ∨ added := by
  induction fields with
  | nil => simpa [Fields.set, Fields.get, Fields.get?, fieldIntegers, integers] using h
  | cons field rest ih =>
    obtain ⟨k, w⟩ := field
    by_cases hk : k = key
    · subst hk
      rw [Fields.get, Fields.get?_cons, if_pos rfl, Option.getD_some] at h
      simp only [Fields.set, if_true, fieldIntegers, List.mem_append, h]
      exact or_right_comm
    · have hg : Fields.get ((k, w) :: rest) key = Fields.get rest key := by
        simp only [Fields.get, Fields.get?_cons, if_neg (Ne.symm hk)]
      rw [hg] at h
      simp only [Fields.set, if_neg hk, fieldIntegers, List.mem_append, ih h, or_assoc]

/-- A record gains what its new field has more than the old one. -/
theorem mem_integers_set (h : n ∈ v.integers ↔ n ∈ (Fields.get fields key).integers ∨ added) :
    n ∈ (record (Fields.set fields key v)).integers ↔ n ∈ (record fields).integers ∨ added := by
  rw [integers_record, integers_record]
  exact mem_fieldIntegers_set h

theorem integers_of_elements (hf : isListOrAbsent (Fields.get? fields key) = true)
    (h : ((Fields.get? fields key).getD (.list [])).elements = .ok items) :
    (Fields.get fields key).integers = (list items).integers := by
  rcases elements_of_isListOrAbsent hf h with ⟨hn, rfl⟩ | hs
  · rw [Fields.get, hn, integers_nil]
    simp [integers]
  · rw [Fields.get_of_get? hs]

@[simp]
theorem integers_block (items : List Value) :
    (block (.list items)).integers = (list items).integers := by
  simp [block, integers, fieldIntegers]

theorem mem_integers_loopBody (hn : n ≠ 0) :
    n ∈ (loopBody fields).integers ↔ n ∈ (Fields.get fields "body").integers := by
  unfold Instrumenter.loopBody
  dsimp only
  split
  · exact Iff.rfl
  · rename_i h
    rw [integers_block, integers_nil]
    exact iff_of_false List.not_mem_nil (not_mem_integers_of_not_truthy hn (by simpa using h))

end Integers

/-! ### Texts of values -/

mutual

/-- A text that displays host objects is kept from a value by its huge integers alone. -/
theorem unwritable?_displayed_iff : ∀ v : Value,
    v.unwritable? true = none ↔ ∀ n ∈ v.integers, ¬ IsHuge n
  | .int n => by
    simp only [unwritable?, integers, List.mem_singleton, forall_eq, isHuge_iff]
    split <;> simp_all
  | .list items => by
    rw [unwritable?, integers]
    exact unwritableItem?_displayed_iff items
  | .record fields => by
    rw [unwritable?, integers]
    exact unwritableField?_displayed_iff fields
  | .null | .bool _ | .float _ | .text _ | .broken _ | .host _ => by simp [unwritable?, integers]

theorem unwritableItem?_displayed_iff : ∀ items : List Value,
    unwritableItem? true items = none ↔ ∀ n ∈ itemIntegers items, ¬ IsHuge n
  | [] => by simp [unwritableItem?, itemIntegers]
  | item :: rest => by
    rw [unwritableItem?, itemIntegers, List.forall_mem_append, ← unwritable?_displayed_iff item,
      ← unwritableItem?_displayed_iff rest]
    cases unwritable? true item <;> simp

theorem unwritableField?_displayed_iff : ∀ fields : List (String × Value),
    unwritableField? true fields = none ↔ ∀ n ∈ fieldIntegers fields, ¬ IsHuge n
  | [] => by simp [unwritableField?, fieldIntegers]
  | (_, v) :: rest => by
    rw [unwritableField?, fieldIntegers, List.forall_mem_append, ← unwritable?_displayed_iff v,
      ← unwritableField?_displayed_iff rest]
    cases unwritable? true v <;> simp

end

end Value

/-! ## Renaming -/

namespace Sanitizer

variable {s : Sanitizer} {n : Int}

theorem mem_fieldIntegers_renamedIdentifier {fields : Fields}
    (hn : (Fields.get fields "name").isString = true) :
    n ∈ Value.fieldIntegers (s.renamedIdentifier fields) ↔ n ∈ Value.fieldIntegers fields := by
  unfold renamedIdentifier
  split
  · exact Iff.rfl
  · have h := @Value.mem_fieldIntegers_set n (s.prefixed (Fields.get fields "name")) fields "name"
      False
    rw [Value.integers_of_isString hn, Value.integers_of_isString (s.isString_prefixed _)] at h
    simpa using h

mutual

/-- Where names are strings, renaming keeps the integers of a tree. -/
theorem mem_integers_renamed : ∀ v : Value, v.namesAreStrings = true →
    (n ∈ (s.renamed v).integers ↔ n ∈ v.integers)
  | .list items, h => by
    rw [renamed_list, Value.integers_list, Value.integers_list]
    exact mem_itemIntegers_renamed items h
  | .record fields, h => by
    rw [Value.namesAreStrings, Value.everywhere, Bool.and_eq_true] at h
    rw [renamed_record, Value.integers_record, Value.integers_record, renamedRecord]
    split
    · rename_i hk
      exact mem_fieldIntegers_renamedIdentifier (by simpa [Value.hasStringName, hk] using h.1)
    · split
      · exact Iff.rfl
      · exact mem_fieldIntegers_renamed fields h.2
  | .null, _ | .bool _, _ | .int _, _ | .float _, _ | .text _, _ | .broken _, _
  | .host _, _ => by simp [renamed]

theorem mem_itemIntegers_renamed : ∀ items : List Value,
    Value.everywhereItems Value.hasStringName items = true →
    (n ∈ Value.itemIntegers (s.renamedItems items) ↔ n ∈ Value.itemIntegers items)
  | [], _ => by rw [renamedItems]
  | item :: rest, h => by
    rw [Value.everywhereItems, Bool.and_eq_true] at h
    rw [renamedItems, Value.itemIntegers, Value.itemIntegers, List.mem_append, List.mem_append,
      mem_integers_renamed item h.1, mem_itemIntegers_renamed rest h.2]

theorem mem_fieldIntegers_renamed : ∀ fields : List (String × Value),
    Value.everywhereFields Value.hasStringName fields = true →
    (n ∈ Value.fieldIntegers (s.renamedFields fields) ↔ n ∈ Value.fieldIntegers fields)
  | [], _ => by rw [renamedFields]
  | (_, v) :: rest, h => by
    rw [Value.everywhereFields, Bool.and_eq_true] at h
    rw [renamedFields, Value.fieldIntegers, Value.fieldIntegers, List.mem_append, List.mem_append,
      mem_integers_renamed v h.1, mem_fieldIntegers_renamed rest h.2]

end

end Sanitizer

/-! ## Metering -/

namespace Ledger

/-- The amounts that a run charged. -/
def amounts (l : Ledger) : List Int := l.charges.map Charge.gamma

@[simp]
theorem amounts_append (a b : Ledger) : (a ++ b).amounts = a.amounts ++ b.amounts := by
  rw [amounts, charges_append, List.map_append, amounts, amounts]

@[simp]
theorem amounts_empty : empty.amounts = [] := rfl

theorem amounts_of_charges {l : Ledger} (h : l.charges = []) : l.amounts = [] := by
  rw [amounts, h, List.map_nil]

theorem amounts_entry {v : Value} {gamma : Int} {label : Option String} {entry : Charge}
    (h : Charge.of v gamma label = .ok entry) : amounts ⟨[], [entry]⟩ = [gamma] := by
  unfold Charge.of at h
  split at h
  · cases h
  · split at h <;> cases h <;> rfl

end Ledger

section Metering

variable {m : Instrumenter} {start : Int} {n : Int}

@[simp]
theorem Instrumenter.integers_charge (gamma : Nat) :
    (m.charge gamma).integers = [(gamma : Int)] := by
  simp [Instrumenter.charge, MeteringCall.statement, MeteringCall.callee, MeteringCall.identifier,
    MeteringCall.amountLiteral, Value.integers, Value.itemIntegers, Value.fieldIntegers]

mutual

/-- What stands in a metered node stood in the node or was charged. -/
theorem Instrumented.mem_integers (hn : n ≠ 0) {v v' : Value} {l : Ledger} :
    Instrumented m start v v' l → v.listShaped = true →
      (n ∈ v'.integers ↔ n ∈ v.integers ∨ n ∈ l.amounts)
  | .leaf _, _ => by simp
  | .sequence hc hb h, hv => by
    have hf := Value.isListOrAbsent_body hv hc
    refine Value.mem_integers_set ?_
    rw [Value.integers_of_elements hf hb]
    exact h.mem_integers hn (Value.listShaped_of_elements hv hf hb)
  | .body _ h, hv =>
    Value.mem_integers_set (h.mem_integers hn (Value.listShaped_get hv "body"))
  | .loop _ _ _ hp he h, hv => by
    have hg := Ledger.amounts_of_charges (Pricing.gammaPerIteration_charges hp)
    have ⟨hb, hpass⟩ := h.mem_integers hn (Value.listShaped_loopBody hv)
    refine Value.mem_integers_set ?_
    rw [hpass (loopBody_ne_null _), hb, Value.mem_integers_loopBody hn, Ledger.amounts_append,
      Ledger.amounts_append, hg, Ledger.amounts_entry he]
    simp only [List.nil_append, List.mem_append, List.mem_singleton]
    grind
  | .statementBody _ h, hv =>
    Value.mem_integers_set (h.mem_integers hn (Value.listShaped_get hv "body")).1
  | .value _ h, hv =>
    Value.mem_integers_set (h.mem_integers hn (Value.listShaped_get hv "value"))
  | @Instrumented.branch _ _ fields consequent alternate l₁ l₂ _ h₁ h₂, hv => by
    have e₁ := (h₁.mem_integers hn (Value.listShaped_get hv "consequent")).1
    -- the alternate is put where the new consequent already stands
    have e₂ : n ∈ alternate.integers ↔
        n ∈ (Fields.get (Fields.set fields "consequent" consequent) "alternate").integers ∨
          n ∈ l₂.amounts := by
      rw [Fields.get_set, if_neg (by decide)]
      exact (h₂.mem_integers hn (Value.listShaped_get hv "alternate")).1
    rw [Value.mem_integers_set e₂, Value.mem_integers_set e₁, Ledger.amounts_append,
      List.mem_append, or_assoc]
  | @Instrumented.attempt _ _ fields block handler finalizer l₁ l₂ l₃ _ h₁ h₂ h₃, hv => by
    have e₁ := h₁.mem_integers hn (Value.listShaped_get hv "block")
    have e₂ : n ∈ handler.integers ↔
        n ∈ (Fields.get (Fields.set fields "block" block) "handler").integers ∨
          n ∈ l₂.amounts := by
      rw [Fields.get_set, if_neg (by decide)]
      exact h₂.mem_integers hn (Value.listShaped_get hv "handler")
    have e₃ : n ∈ finalizer.integers ↔
        n ∈ (Fields.get (Fields.set (Fields.set fields "block" block) "handler" handler)
          "finalizer").integers ∨ n ∈ l₃.amounts := by
      rw [Fields.get_set, if_neg (by decide), Fields.get_set, if_neg (by decide)]
      exact h₃.mem_integers hn (Value.listShaped_get hv "finalizer")
    rw [Value.mem_integers_set e₃, Value.mem_integers_set e₂, Value.mem_integers_set e₁,
      Ledger.amounts_append, Ledger.amounts_append, List.mem_append, List.mem_append, or_assoc,
      or_assoc]
  | .switch hc hb h, hv => by
    obtain ⟨hl, hi, hcs⟩ := Value.cases_of_listShaped hv hc hb
    refine Value.mem_integers_set ?_
    rw [Value.integers_of_elements hl hb]
    exact h.mem_integers hn hi hcs

theorem InstrumentedPart.mem_integers (hn : n ≠ 0) {v v' : Value} {l : Ledger} :
    InstrumentedPart m start v v' l → v.listShaped = true →
      (n ∈ v'.integers ↔ n ∈ v.integers ∨ n ∈ l.amounts) ∧
        (v ≠ .null → ∀ gamma : Nat,
          (n ∈ (prepend (m.charge gamma) v').integers ↔ n ∈ v'.integers ∨ n = gamma))
  | .null, _ => ⟨by simp, fun h => absurd rfl h⟩
  | .block hk hb h, hv => by
    have hf := Value.isListOrAbsent_body hv (Value.container_of_hasKind hk)
    constructor
    · refine Value.mem_integers_set ?_
      rw [Value.integers_of_elements hf hb]
      exact h.mem_integers hn (Value.listShaped_of_elements hv hf hb)
    · intro _ gamma
      simp only [prepend, Fields.get_set, if_true]
      refine Value.mem_integers_set ?_
      rw [Fields.get_set, if_pos rfl, Value.integers_cons, Instrumenter.integers_charge,
        List.mem_append, List.mem_singleton, or_comm]
  | .bare _ _ h, hv => by
    have e := h.mem_integers hn (Value.listShaped_cons.mpr ⟨hv, rfl⟩)
    rw [Value.integers_cons, Value.integers_nil, List.append_nil] at e
    constructor
    · rw [Value.integers_block, e]
    · intro _ gamma
      rw [prepend_block, Value.integers_block, Value.integers_block, Value.integers_cons,
        Instrumenter.integers_charge, List.mem_append, List.mem_singleton, or_comm]

theorem InstrumentedList.mem_integers (hn : n ≠ 0) {items items' : List Value} {l : Ledger} :
    InstrumentedList m start items items' l → (Value.list items).listShaped = true →
      (n ∈ (Value.list items').integers ↔ n ∈ (Value.list items).integers ∨ n ∈ l.amounts)
  | .nil, _ => by simp
  | .uncharged h _ hs, hi => by
    rw [Value.listShaped_cons] at hi
    have e₁ := h.mem_integers hn hi.1
    have e₂ := hs.mem_integers hn hi.2
    simp only [Value.integers_cons, Ledger.amounts_append, List.mem_append, e₁, e₂]
    exact or_or_or_comm
  | .charged h _ hp he hs, hi => by
    rw [Value.listShaped_cons] at hi
    have e₁ := h.mem_integers hn hi.1
    have e₂ := hs.mem_integers hn hi.2
    have hg := Ledger.amounts_of_charges (Pricing.gammaFor_charges hp)
    simp only [Value.integers_cons, Instrumenter.integers_charge, Ledger.amounts_append, hg,
      Ledger.amounts_entry he, List.nil_append, List.mem_append, List.mem_singleton, e₁, e₂]
    grind

theorem InstrumentedCases.mem_integers (hn : n ≠ 0) {cases cases' : List Value} {l : Ledger} :
    InstrumentedCases m start cases cases' l → (Value.list cases).listShaped = true →
      (∀ c ∈ cases, Value.isListOrAbsent (c.field? "consequent") = true) →
      (n ∈ (Value.list cases').integers ↔ n ∈ (Value.list cases).integers ∨ n ∈ l.amounts)
  | .nil, _, _ => by simp
  | .cons hb h hs, hi, hcs => by
    rw [Value.listShaped_cons] at hi
    have hf : Value.isListOrAbsent (Fields.get? _ "consequent") = true :=
      hcs _ List.mem_cons_self
    have e₁ := h.mem_integers hn (Value.listShaped_of_elements hi.1 hf hb)
    rw [← Value.integers_of_elements hf hb] at e₁
    have e₂ := hs.mem_integers hn hi.2 fun c hc => hcs c (List.mem_cons_of_mem _ hc)
    have e₃ := Value.mem_integers_set e₁
    simp only [Value.integers_cons, Ledger.amounts_append, List.mem_append, e₂, e₃]
    exact or_or_or_comm

end

end Metering

end ContractMeter
