import ContractMeter.Proofs.Instrumented
import ContractMeter.Proofs.Path

/-!
# ContractMeter.Proofs.Shape

Trees whose statement lists are lists, as in every tree of a parser.

* `Value.listShaped` — whether a tree is one.
* `Value.elements_of_isListOrAbsent` — what its lists yield are their items.
* `Instrumented.listShaped` — metering keeps lists.
-/

namespace ContractMeter

open Instrumenter (block prepend loopBody)

namespace Value

def isListOrAbsent : Option Value → Bool
  | none => true
  | some (.list _) => true
  | some _ => false

/-- Whether the statement lists that a record itself holds are lists. -/
def holdsLists (fields : Fields) : Bool :=
  match (record fields).container with
  | .sequence => isListOrAbsent (Fields.get? fields "body")
  | .switch =>
    match Fields.get? fields "cases" with
    | none => true
    | some (.list cases) => cases.all fun c => isListOrAbsent (c.field? "consequent")
    | some _ => false
  | _ => true

/-- Whether every statement list anywhere in a tree is a list. -/
def listShaped (v : Value) : Bool :=
  v.everywhere holdsLists

theorem listShaped_cons {item : Value} {rest : List Value} :
    (list (item :: rest)).listShaped = true ↔
      item.listShaped = true ∧ (list rest).listShaped = true := by
  simp [listShaped]

theorem listShaped_get {fields : Fields} (hv : (record fields).listShaped = true) (key : String) :
    (Fields.get fields key).listShaped = true := by
  unfold Fields.get
  cases h : Fields.get? fields key with
  | none => rfl
  | some v =>
    have hc : (record fields).child? (.field key) = some v := h
    exact everywhere_child? hv hc

theorem getD_of_isListOrAbsent {field : Option Value} (h : isListOrAbsent field = true) :
    ∃ items, field.getD (.list []) = .list items := by
  cases field with
  | none => exact ⟨[], rfl⟩
  | some v =>
    cases v with
    | list items => exact ⟨items, rfl⟩
    | _ => cases h

theorem elements_of_isListOrAbsent {field : Option Value} {items : List Value}
    (hf : isListOrAbsent field = true) (h : (field.getD (.list [])).elements = .ok items) :
    field = none ∧ items = [] ∨ field = some (.list items) := by
  cases field with
  | none =>
    cases h
    exact .inl ⟨rfl, rfl⟩
  | some v =>
    cases v with
    | list items' =>
      cases h
      exact .inr rfl
    | _ => simp [isListOrAbsent] at hf

theorem eq_list_of_elements {field : Option Value} {items : List Value}
    (hf : isListOrAbsent field = true) (h : (field.getD (.list [])).elements = .ok items) :
    ∀ v, field = some v → v = .list items := by
  rintro v rfl
  rcases elements_of_isListOrAbsent hf h with ⟨e, _⟩ | e
  · cases e
  · exact Option.some.inj e

theorem listShaped_of_elements {fields : Fields} {key : String} {items : List Value}
    (hv : (record fields).listShaped = true) (hf : isListOrAbsent (Fields.get? fields key) = true)
    (h : ((Fields.get? fields key).getD (.list [])).elements = .ok items) :
    (list items).listShaped = true := by
  rcases elements_of_isListOrAbsent hf h with ⟨_, rfl⟩ | hs
  · rfl
  · simpa [Fields.get, hs] using listShaped_get hv key

theorem isListOrAbsent_body {fields : Fields} (hv : (record fields).listShaped = true)
    (hc : (record fields).container = .sequence) :
    isListOrAbsent (Fields.get? fields "body") = true := by
  have h := check_of_everywhere hv
  simpa only [holdsLists, hc] using h

theorem isListOrAbsent_cases {fields : Fields} (hv : (record fields).listShaped = true)
    (hc : (record fields).container = .switch) :
    isListOrAbsent (Fields.get? fields "cases") = true := by
  have h := check_of_everywhere hv
  simp only [holdsLists, hc] at h
  revert h
  cases Fields.get? fields "cases" with
  | none => simp [isListOrAbsent]
  | some v => cases v <;> simp [isListOrAbsent]

theorem cases_of_listShaped {fields : Fields} {cases : List Value}
    (hv : (record fields).listShaped = true) (hc : (record fields).container = .switch)
    (h : ((Fields.get? fields "cases").getD (.list [])).elements = .ok cases) :
    isListOrAbsent (Fields.get? fields "cases") = true ∧ (list cases).listShaped = true ∧
      ∀ c ∈ cases, isListOrAbsent (c.field? "consequent") = true := by
  have hch := check_of_everywhere hv
  simp only [holdsLists, hc] at hch
  have hl := isListOrAbsent_cases hv hc
  refine ⟨hl, listShaped_of_elements hv hl h, ?_⟩
  rcases elements_of_isListOrAbsent hl h with ⟨_, rfl⟩ | hs
  · exact fun _ hc => nomatch hc
  · simpa only [hs, List.all_eq_true] using hch

theorem listShaped_loopBody {fields : Fields} (hv : (record fields).listShaped = true) :
    (loopBody fields).listShaped = true := by
  unfold loopBody
  dsimp only
  split
  · exact listShaped_get hv "body"
  · rfl

/-- A list may take the place of any field but that of the cases. -/
theorem holdsLists_set {fields : Fields} {key : String} (items : List Value)
    (hk : key ∈ statementFields) (hc : key ≠ "cases") (h : holdsLists fields = true) :
    holdsLists (Fields.set fields key (.list items)) = true := by
  have ht : key ≠ "type" := fun e => absurd (e ▸ hk) (by decide)
  have hcases : Fields.get? (Fields.set fields key (.list items)) "cases" =
      Fields.get? fields "cases" := Fields.get?_set_of_ne hc.symm
  unfold holdsLists at h ⊢
  rw [container_set ht, hcases]
  split at h
  · by_cases hb : key = "body"
    · rw [hb, Fields.get?_set_self]
      rfl
    · rw [Fields.get?_set_of_ne (Ne.symm hb)]
      exact h
  · exact h
  · rfl

theorem listShaped_set {fields : Fields} {key : String} {v : Value}
    (hv : (record fields).listShaped = true) (hc : holdsLists (Fields.set fields key v) = true)
    (h : v.listShaped = true) : (record (Fields.set fields key v)).listShaped = true := by
  rw [listShaped, everywhere, Bool.and_eq_true] at hv ⊢
  exact ⟨hc, everywhereFields_set hv.2 h⟩

theorem listShaped_set_list {fields : Fields} {key : String} {items : List Value}
    (hv : (record fields).listShaped = true) (hk : key ∈ statementFields) (hc : key ≠ "cases")
    (h : (list items).listShaped = true) :
    (record (Fields.set fields key (.list items))).listShaped = true :=
  listShaped_set hv (holdsLists_set items hk hc (check_of_everywhere hv)) h

theorem listShaped_block {items : List Value} (h : (list items).listShaped = true) :
    (block (.list items)).listShaped = true := by
  have ht : (text "BlockStatement").everywhere holdsLists = true := rfl
  rw [listShaped] at h
  rw [block, listShaped, everywhere, everywhereFields, everywhereFields, everywhereFields, ht, h]
  rfl

theorem listShaped_items {v : Value} (h : v.listShaped = true) :
    (list v.items).listShaped = true := by
  cases v with
  | list items => exact h
  | _ => rfl

theorem listShaped_prepend {charge v : Value} (hc : charge.listShaped = true)
    (h : v.listShaped = true) : (prepend charge v).listShaped = true := by
  cases v with
  | record fields =>
    rw [Instrumenter.prepend_record]
    have hi := listShaped_items (listShaped_get h "body")
    exact listShaped_set_list h (by decide) (by decide) (listShaped_cons.mpr ⟨hc, hi⟩)
  | _ => exact h

end Value

/-! ## What metering keeps -/

section Metering

variable {m : Instrumenter} {start : Int}

theorem Instrumenter.listShaped_charge (m : Instrumenter) (gamma : Nat) :
    (m.charge gamma).listShaped = true := rfl

/-- In other containers any field may hold anything list-shaped. -/
theorem Value.listShaped_set_part {fields : Fields} {key : String} {v : Value} {c : Container}
    (hv : (Value.record fields).listShaped = true) (hk : key ∈ statementFields)
    (hc : (Value.record fields).container = c) (hp : c ≠ .sequence ∧ c ≠ .switch)
    (h : v.listShaped = true) : (Value.record (Fields.set fields key v)).listShaped = true := by
  refine listShaped_set hv ?_ h
  have hs : (Value.record (Fields.set fields key v)).container = c :=
    (container_set fun e => absurd (e ▸ hk) (by decide)).trans hc
  unfold holdsLists
  rw [hs]
  cases c with
  | sequence => exact absurd rfl hp.1
  | switch => exact absurd rfl hp.2
  | _ => rfl

mutual

theorem Instrumented.listShaped {v v' : Value} {l : Ledger} :
    Instrumented m start v v' l → v.listShaped = true → v'.listShaped = true
  | .leaf _, hv => hv
  | .sequence hc hb h, hv => by
    have hi := Value.listShaped_of_elements hv (Value.isListOrAbsent_body hv hc) hb
    exact Value.listShaped_set_list hv (by decide) (by decide) (h.listShaped hi)
  | .body hc h, hv =>
    Value.listShaped_set_part hv (by decide) hc (by decide)
      (h.listShaped (Value.listShaped_get hv "body"))
  | .loop hk hc _ _ _ h, hv => by
    have hl := (Value.container_of_kind hk).trans hc
    have hb := h.listShaped (Value.listShaped_loopBody hv)
    exact Value.listShaped_set_part hv (by decide) hl (by decide)
      (Value.listShaped_prepend (m.listShaped_charge _) hb)
  | .statementBody hc h, hv =>
    Value.listShaped_set_part hv (by decide) hc (by decide)
      (h.listShaped (Value.listShaped_get hv "body"))
  | .value hc h, hv =>
    Value.listShaped_set_part hv (by decide) hc (by decide)
      (h.listShaped (Value.listShaped_get hv "value"))
  | @Instrumented.branch _ _ fields consequent _ _ _ hc h₁ h₂, hv => by
    have hs := Value.listShaped_set_part hv (by decide : "consequent" ∈ statementFields) hc
      (by decide) (h₁.listShaped (Value.listShaped_get hv "consequent"))
    have hc' : (Value.record (Fields.set fields "consequent" consequent)).container = .branch :=
      (Value.container_set (by decide)).trans hc
    exact Value.listShaped_set_part hs (by decide) hc' (by decide)
      (h₂.listShaped (Value.listShaped_get hv "alternate"))
  | @Instrumented.attempt _ _ fields block handler _ _ _ _ hc h₁ h₂ h₃, hv => by
    have hs := Value.listShaped_set_part hv (by decide : "block" ∈ statementFields) hc
      (by decide) (h₁.listShaped (Value.listShaped_get hv "block"))
    have hc' : (Value.record (Fields.set fields "block" block)).container = .attempt :=
      (Value.container_set (by decide)).trans hc
    have hs' := Value.listShaped_set_part hs (by decide : "handler" ∈ statementFields) hc'
      (by decide) (h₂.listShaped (Value.listShaped_get hv "handler"))
    have hc'' : (Value.record (Fields.set (Fields.set fields "block" block) "handler"
        handler)).container = .attempt := (Value.container_set (by decide)).trans hc'
    exact Value.listShaped_set_part hs' (by decide) hc'' (by decide)
      (h₃.listShaped (Value.listShaped_get hv "finalizer"))
  | .switch hc hb h, hv => by
    obtain ⟨_, hi, hcs⟩ := Value.cases_of_listShaped hv hc hb
    obtain ⟨hi', hcs'⟩ := h.listShaped hi hcs
    refine Value.listShaped_set hv ?_ hi'
    unfold Value.holdsLists
    rw [Value.container_set (by decide), hc, Fields.get?_set_self]
    exact List.all_eq_true.mpr hcs'

theorem InstrumentedPart.listShaped {v v' : Value} {l : Ledger} :
    InstrumentedPart m start v v' l → v.listShaped = true → v'.listShaped = true
  | .null, hv => hv
  | .block hk hb h, hv => by
    have hf := Value.isListOrAbsent_body hv (Value.container_of_hasKind hk)
    have hi := Value.listShaped_of_elements hv hf hb
    exact Value.listShaped_set_list hv (by decide) (by decide) (h.listShaped hi)
  | .bare _ _ h, hv =>
    Value.listShaped_block (h.listShaped (Value.listShaped_cons.mpr ⟨hv, rfl⟩))

theorem InstrumentedList.listShaped {items items' : List Value} {l : Ledger} :
    InstrumentedList m start items items' l → (Value.list items).listShaped = true →
      (Value.list items').listShaped = true
  | .nil, hi => hi
  | .uncharged h _ hs, hi => by
    rw [Value.listShaped_cons] at hi ⊢
    exact ⟨h.listShaped hi.1, hs.listShaped hi.2⟩
  | .charged h _ _ _ hs, hi => by
    rw [Value.listShaped_cons] at hi
    rw [Value.listShaped_cons, Value.listShaped_cons]
    exact ⟨m.listShaped_charge _, h.listShaped hi.1, hs.listShaped hi.2⟩

theorem InstrumentedCases.listShaped {cases cases' : List Value} {l : Ledger} :
    InstrumentedCases m start cases cases' l → (Value.list cases).listShaped = true →
      (∀ c ∈ cases, Value.isListOrAbsent (c.field? "consequent") = true) →
      (Value.list cases').listShaped = true ∧
        ∀ c ∈ cases', Value.isListOrAbsent (c.field? "consequent") = true
  | .nil, hi, hcs => ⟨hi, hcs⟩
  | .cons hb h hs, hi, hcs => by
    rw [Value.listShaped_cons] at hi
    rw [List.forall_mem_cons] at hcs
    have hf := h.listShaped (Value.listShaped_of_elements hi.1 hcs.1 hb)
    have ⟨hr, hrs⟩ := hs.listShaped hi.2 hcs.2
    rw [Value.listShaped_cons, List.forall_mem_cons, Value.field?_record, Fields.get?_set_self]
    exact ⟨⟨Value.listShaped_set_list hi.1 (by decide) (by decide) hf, hr⟩, rfl, hrs⟩

end

end Metering

end ContractMeter
