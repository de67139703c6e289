import ContractMeter.Proofs.Lookalike
import ContractMeter.Proofs.Renaming

/-!
# ContractMeter.Proofs.Steady

Trees that renaming changes in no way that a price or a charge could show.

* `Value.Steady` — kinds and names are strings, and no name stands in a position or a literal.
* `gammaFor_renamed`, `gammaPerIteration_renamed` — the prices of a renamed tree.
* `chargeOf_renamed` — the entry for a charge in a renamed tree.
-/

namespace ContractMeter

namespace Value

/-- Whether the kind of a record, if it has one, is a string. -/
def hasStringKind (fields : Fields) : Bool :=
  match Fields.get? fields "type" with
  | none => true
  | some kind => kind.isString

/-- Whether every kind in a tree is a string. -/
def kindsAreStrings (v : Value) : Bool :=
  v.everywhere hasStringKind

/-- Whether there is no identifier and no member access in a tree. -/
def holdsNoNames (v : Value) : Bool :=
  v.everywhere fun fields =>
    !(record fields).hasKind "Identifier" && !(record fields).hasKind "MemberExpression"

/-- Whether there is no name in what a literal stores. -/
def storesNoNames (fields : Fields) : Bool :=
  !(record fields).hasKind "Literal" ||
    (Fields.get fields "value").holdsNoNames && (Fields.get fields "regex").holdsNoNames

/-- Whether there is no name in the position of a record, nor in what it stores. -/
def fixesParts (fields : Fields) : Bool :=
  (Fields.get fields "loc").holdsNoNames && storesNoNames fields

/-- Whether no position and no literal of a tree holds a name. -/
def partsAreFixed (v : Value) : Bool :=
  v.everywhere fixesParts

/-- A tree whose prices and positions stay the same under renaming. -/
structure Steady (v : Value) : Prop where
  kinds : v.kindsAreStrings = true
  names : v.namesAreStrings = true
  parts : v.partsAreFixed = true

section Steady

variable {v w : Value} {fields : Fields} {items : List Value}

theorem Steady.stores (h : v.Steady) : v.everywhere storesNoNames = true :=
  everywhere_mono (fun _ hf => (Bool.and_eq_true_iff.mp hf).2) v h.parts

theorem Steady.child? {edge : Edge} (h : v.Steady) (hw : v.child? edge = some w) : w.Steady :=
  ⟨everywhere_child? h.kinds hw, everywhere_child? h.names hw, everywhere_child? h.parts hw⟩

theorem Steady.field (h : v.Steady) (key : String) : (v.field key).Steady :=
  ⟨everywhere_field h.kinds key, everywhere_field h.names key, everywhere_field h.parts key⟩

theorem Steady.of_field? {key : String} (h : v.Steady) (hw : v.field? key = some w) :
    w.Steady := by
  have hf := h.field key
  rwa [Value.field, hw, Option.getD_some] at hf

theorem Steady.get (h : (record fields).Steady) (key : String) : (Fields.get fields key).Steady :=
  h.field key

theorem Steady.getD (h : (record fields).Steady) (key : String) :
    ((Fields.get? fields key).getD (.list [])).Steady := by
  cases hf : Fields.get? fields key with
  | none => exact ⟨rfl, rfl, rfl⟩
  | some v => exact h.of_field? hf

theorem steady_cons {item : Value} {rest : List Value} :
    (list (item :: rest)).Steady ↔ item.Steady ∧ (list rest).Steady := by
  constructor
  · rintro ⟨hk, hn, hp⟩
    simp only [kindsAreStrings, namesAreStrings, partsAreFixed, everywhere_cons,
      Bool.and_eq_true] at hk hn hp
    exact ⟨⟨hk.1, hn.1, hp.1⟩, ⟨hk.2, hn.2, hp.2⟩⟩
  · rintro ⟨h, hs⟩
    refine ⟨?_, ?_, ?_⟩
    · simpa [kindsAreStrings] using ⟨h.kinds, hs.kinds⟩
    · simpa [namesAreStrings] using ⟨h.names, hs.names⟩
    · simpa [partsAreFixed] using ⟨h.parts, hs.parts⟩

theorem steady_nil : (list []).Steady :=
  ⟨rfl, rfl, rfl⟩

theorem steady_list : (list items).Steady ↔ ∀ v ∈ items, v.Steady := by
  induction items with
  | nil => simpa using steady_nil
  | cons item rest ih => rw [steady_cons, ih, List.forall_mem_cons]

theorem steady_of_isString (h : v.isString = true) : v.Steady :=
  ⟨everywhere_of_isString h, everywhere_of_isString h, everywhere_of_isString h⟩

theorem Steady.set {fields : Fields} {key : String} {v : Value} (h : (record fields).Steady)
    (hv : v.Steady) (hk : key ∈ statementFields)
    (hl : key ≠ "value" ∨ (record fields).hasKind "Literal" = false) :
    (record (Fields.set fields key v)).Steady := by
  obtain ⟨⟨hck, hfk⟩, ⟨hcn, hfn⟩, ⟨hcp, hfp⟩⟩ :
      (hasStringKind fields = true ∧ everywhereFields hasStringKind fields = true) ∧
      (hasStringName fields = true ∧ everywhereFields hasStringName fields = true) ∧
      (fixesParts fields = true ∧ everywhereFields fixesParts fields = true) := by
    simpa [kindsAreStrings, namesAreStrings, partsAreFixed, everywhere] using
      And.intro h.kinds (And.intro h.names h.parts)
  refine ⟨?_, ?_, ?_⟩
  · refine Bool.and_eq_true_iff.mpr ⟨?_, everywhereFields_set hfk hv.kinds⟩
    rwa [hasStringKind, get?_set_statementField hk (by decide)]
  · refine Bool.and_eq_true_iff.mpr ⟨?_, everywhereFields_set hfn hv.names⟩
    rwa [hasStringName, hasKind_set_statementField hk, get_set_statementField hk (by decide)]
  · refine Bool.and_eq_true_iff.mpr ⟨?_, everywhereFields_set hfp hv.parts⟩
    rw [fixesParts, storesNoNames, hasKind_set_statementField hk,
      get_set_statementField hk (by decide : "loc" ∉ statementFields),
      get_set_statementField hk (by decide : "regex" ∉ statementFields), Fields.get_set]
    rcases hl with hl | hl
    · rwa [if_neg hl.symm]
    · rw [fixesParts, storesNoNames, Bool.and_eq_true] at hcp
      rw [hcp.1, hl]
      rfl

end Steady

theorem Steady.items {v : Value} (h : v.Steady) : ∀ w ∈ v.items, w.Steady := by
  cases v with
  | list items => exact steady_list.mp h
  | _ => exact fun _ hw => nomatch hw

theorem isString_of_elements {v : Value} {items : List Value} (hv : ∀ items, v ≠ .list items)
    (h : v.elements = .ok items) : ∀ w ∈ items, w.isString = true := by
  intro w hw
  cases v with
  | list items => exact absurd rfl (hv items)
  | text _ | record _ =>
    cases h
    obtain ⟨_, _, rfl⟩ := List.mem_map.mp hw
    rfl
  | broken t =>
    cases h
    obtain ⟨p, _, rfl⟩ := List.mem_map.mp hw
    exact isString_ofPoints [p]
  | host object => cases object <;> cases h <;> cases hw
  | _ => cases h

theorem Steady.elements {v : Value} {items : List Value} (h : v.Steady)
    (hi : v.elements = .ok items) : ∀ w ∈ items, w.Steady := by
  by_cases hv : ∃ items, v = .list items
  · obtain ⟨items, rfl⟩ := hv
    cases hi
    exact steady_list.mp h
  · have hv : ∀ items, v ≠ .list items := fun items e => hv ⟨items, e⟩
    exact fun w hw => steady_of_isString (isString_of_elements hv hi w hw)

end Value

namespace Sanitizer

variable {s : Sanitizer}

mutual

theorem renamed_of_holdsNoNames : ∀ v : Value, v.holdsNoNames = true → s.renamed v = v
  | .list items, h => by
    rw [renamed_list, renamedItems_of_holdsNoNames items h]
  | .record fields, h => by
    simp only [Value.holdsNoNames, Value.everywhere, Bool.and_eq_true, Bool.not_eq_true'] at h
    obtain ⟨⟨hi, hm⟩, hf⟩ := h
    have he : s.enters fields = true := by simp [enters, exempts, hi, hm]
    rw [renamed_record, renamedRecord_of_enters he,
      renamedFields_of_holdsNoNames fields (by simpa using hf)]
  | .null, _ | .bool _, _ | .int _, _ | .float _, _ | .text _, _ | .broken _, _
  | .host _, _ => by simp [renamed]

theorem renamedItems_of_holdsNoNames : ∀ items : List Value,
    (Value.list items).holdsNoNames = true → s.renamedItems items = items
  | [], _ => by rw [renamedItems]
  | item :: rest, h => by
    rw [Value.holdsNoNames, Value.everywhere_cons, Bool.and_eq_true] at h
    rw [renamedItems, renamed_of_holdsNoNames item h.1, renamedItems_of_holdsNoNames rest h.2]

theorem renamedFields_of_holdsNoNames : ∀ fields : List (String × Value),
    Value.everywhereFields (fun fields => !(Value.record fields).hasKind "Identifier" &&
      !(Value.record fields).hasKind "MemberExpression") fields = true →
      s.renamedFields fields = fields
  | [], _ => by rw [renamedFields]
  | (key, v) :: rest, h => by
    rw [Value.everywhereFields, Bool.and_eq_true] at h
    rw [renamedFields, renamed_of_holdsNoNames v h.1, renamedFields_of_holdsNoNames rest h.2]

end

theorem elements_renamed {v : Value} (h : v.namesAreStrings = true) :
    (s.renamed v).elements = v.elements.map (List.map s.renamed) := by
  by_cases hv : ∃ items, v = .list items
  · obtain ⟨items, rfl⟩ := hv
    simp [Value.elements, renamedItems_eq_map, Except.map]
  · have hv : ∀ items, v ≠ .list items := fun items e => hv ⟨items, e⟩
    have he : (s.renamed v).elements = v.elements := by
      cases v with
      | list items => exact absurd rfl (hv items)
      | record fields =>
        have hk := s.keys_renamedRecord (Value.check_of_everywhere h)
        simpa [Value.elements, Function.comp_def] using congrArg (List.map Value.text) hk
      | _ => simp [renamed]
    rw [he]
    cases hi : v.elements with
    | error cause => rfl
    | ok items =>
      have hs : ∀ w ∈ items, s.renamed w = w := fun w hw =>
        s.renamed_of_isString (Value.isString_of_elements hv hi w hw)
      exact congrArg Except.ok ((List.map_congr_left hs).trans (List.map_id items)).symm

/-! ## Charges -/

theorem type_renamedRecord {fields : Fields} (h : (Value.record fields).kindsAreStrings = true) :
    Fields.get? (s.renamedRecord fields) "type" = Fields.get? fields "type" := by
  have hk := Value.check_of_everywhere h
  rw [get?_renamedRecord (by decide)]
  unfold Value.hasStringKind at hk
  cases ht : Fields.get? fields "type" with
  | none => rfl
  | some kind =>
    rw [ht] at hk
    simp [within, s.renamed_of_isString hk]

theorem kind_renamed {v : Value} (h : v.kindsAreStrings = true) : (s.renamed v).kind = v.kind := by
  cases v with
  | record fields =>
    rw [renamed_record, Value.kind, Value.kind, Value.field?_record, Value.field?_record,
      type_renamedRecord h]
    rfl
  | list items => rw [renamed_list]; rfl
  | _ => simp [renamed]

theorem line_renamed {v : Value} (h : v.partsAreFixed = true) : (s.renamed v).line = v.line := by
  cases v with
  | record fields =>
    have hp := Value.check_of_everywhere h
    rw [Value.fixesParts, Bool.and_eq_true] at hp
    have hl : s.within fields (Fields.get fields "loc") = Fields.get fields "loc" := by
      simp [within, renamed_of_holdsNoNames _ hp.1]
    rw [renamed_record, Value.line, Value.line, get_renamedRecord (by decide), hl]
  | list items => rw [renamed_list]; rfl
  | _ => simp [renamed]

theorem chargeOf_renamed {v : Value} (h : v.Steady) (gamma : Int) (label : Option String) :
    Charge.of (s.renamed v) gamma label = Charge.of v gamma label := by
  rw [Charge.of, Charge.of, line_renamed h.parts, kind_renamed h.kinds]

end Sanitizer

/-! ## Prices -/

namespace Pricing

open Sanitizer

variable {s : Sanitizer}

theorem declaredLiteral_renamed {v : Value} (h : v.everywhere Value.storesNoNames = true)
    (hk : v.hasKind "Literal" = true) : declaredLiteral (s.renamed v) = declaredLiteral v := by
  have hf : ∀ key, (v.field key).holdsNoNames = true → (s.renamed v).field key = v.field key :=
    fun key hn => (field_renamed hk (by decide) (by decide)).trans (renamed_of_holdsNoNames _ hn)
  cases v with
  | record fields =>
    have hp := Value.check_of_everywhere h
    simp only [Value.storesNoNames, hk, Bool.not_true, Bool.false_or, Bool.and_eq_true] at hp
    rw [declaredLiteral, declaredLiteral, hf "regex" hp.2, hf "value" hp.1]
  | _ => cases hk

/-- No price tells a value whose literals store no names from what renaming makes of it, nor the
parts of one where renaming leaves them alone. -/
theorem lookalike_renamed (s : Sanitizer) : Lookalike fun v w =>
    v.everywhere Value.storesNoNames = true ∧ (w = s.renamed v ∨ w = v) where
  list := by
    rintro items w ⟨hv, rfl | rfl⟩
    · refine ⟨s.renamed, by rw [renamed_list, renamedItems_eq_map], fun v hm => ?_⟩
      exact ⟨Value.everywhere_mem hv hm, .inl rfl⟩
    · exact ⟨id, by rw [List.map_id], fun v hm => ⟨Value.everywhere_mem hv hm, .inr rfl⟩⟩
  record := by
    rintro fields w ⟨hv, rfl | rfl⟩
    · refine ⟨s.renamedRecord fields, s.within fields, s.renamed_record fields, fun key hk => ?_⟩
      have hne : key ≠ "name" := by
        rintro rfl
        exact absurd hk (by decide)
      refine ⟨get?_renamedRecord hne, fun v hw => ⟨Value.everywhere_get? hv hw, ?_⟩⟩
      unfold within
      split
      · exact .inl rfl
      · exact .inr rfl
    · exact ⟨fields, id, rfl, fun key _ => ⟨by rw [Option.map_id, id_eq],
        fun v hw => ⟨Value.everywhere_get? hv hw, .inr rfl⟩⟩⟩
  scalar := by
    rintro v w ⟨-, rfl | rfl⟩ hl hr
    · cases v with
      | list items => exact absurd rfl (hl items)
      | record fields => exact absurd rfl (hr fields)
      | _ => simp [renamed]
    · rfl
  literal := by
    rintro v w ⟨hv, rfl | rfl⟩ hk
    · exact declaredLiteral_renamed hv hk
    · rfl

theorem gammaFor_renamed (p : Pricing) (depth : Int) {v : Value}
    (h : v.everywhere Value.storesNoNames = true) :
    p.gammaFor depth (s.renamed v) = p.gammaFor depth v :=
  (lookalike_renamed s).gammaFor_agrees p depth ⟨h, .inl rfl⟩

theorem gammaPerIteration_renamed (p : Pricing) (depth : Int) {v : Value}
    (h : v.everywhere Value.storesNoNames = true) :
    p.gammaPerIteration depth (s.renamed v) = p.gammaPerIteration depth v :=
  (lookalike_renamed s).gammaPerIteration_agrees p depth ⟨h, .inl rfl⟩

end Pricing

end ContractMeter
