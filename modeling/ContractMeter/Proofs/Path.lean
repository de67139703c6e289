import ContractMeter.Proofs.Field

/-!
# ContractMeter.Proofs.Path

Positions in a tree, and what holds of every record in it.

* `Edge`, `Value.at?` — positions, as paths from the root.
* `Value.everywhere` — whether a check of fields passes for all records of a tree;
  `Value.everywhere_at?` says that it then passes at every path.
-/

namespace ContractMeter

inductive Edge where
  | field (name : String)
  | item (index : Nat)
deriving DecidableEq

/-- A way down from the root of a tree. -/
abbrev Path := List Edge

namespace Value

def child? : Value → Edge → Option Value
  | .record fields, .field name => Fields.get? fields name
  | .list items, .item i => items[i]?
  | _, _ => none

def at? (v : Value) : Path → Option Value
  | [] => some v
  | edge :: rest =>
    match v.child? edge with
    | some w => w.at? rest
    | none => none

@[simp]
theorem child?_field (fields : Fields) (name : String) :
    (record fields).child? (.field name) = Fields.get? fields name := rfl

@[simp]
theorem child?_item (items : List Value) (i : Nat) :
    (list items).child? (.item i) = items[i]? := rfl

@[simp]
theorem at?_nil (v : Value) : v.at? [] = some v := rfl

theorem at?_of_child? {v w : Value} {edge : Edge} {rest : Path} (h : v.child? edge = some w) :
    v.at? (edge :: rest) = w.at? rest := by
  rw [at?, h]

theorem at?_field {fields : Fields} {name : String} {w : Value} {rest : Path}
    (h : Fields.get? fields name = some w) :
    (record fields).at? (.field name :: rest) = w.at? rest :=
  at?_of_child? h

theorem at?_item {items : List Value} {i : Nat} {w : Value} {rest : Path}
    (h : items[i]? = some w) : (list items).at? (.item i :: rest) = w.at? rest :=
  at?_of_child? h

theorem at?_cons {v s : Value} {edge : Edge} {rest : Path} :
    v.at? (edge :: rest) = some s ↔ ∃ w, v.child? edge = some w ∧ w.at? rest = some s := by
  rw [at?]
  cases v.child? edge <;> simp

theorem at?_append {v w : Value} {front back : Path} (h : v.at? front = some w) :
    v.at? (front ++ back) = w.at? back := by
  induction front generalizing v with
  | nil =>
    cases h
    rfl
  | cons edge rest ih =>
    obtain ⟨u, hu, hr⟩ : ∃ u, v.child? edge = some u ∧ u.at? rest = some w := at?_cons.mp h
    rw [List.cons_append, at?_of_child? hu]
    exact ih hr

theorem truthy_of_child? {v w : Value} {edge : Edge} (h : v.child? edge = some w) :
    v.truthy = true := by
  cases v with
  | record fields =>
    cases fields with
    | nil => cases edge <;> simp [child?, Fields.get?] at h
    | cons field rest => rfl
  | list items =>
    cases items with
    | nil => cases edge <;> simp [child?] at h
    | cons item rest => rfl
  | _ => cases edge <;> cases h

theorem truthy_of_at? {v s : Value} {path : Path} (h : v.at? path = some s)
    (ht : s.truthy = true) : v.truthy = true := by
  cases path with
  | nil =>
    cases h
    exact ht
  | cons edge rest =>
    obtain ⟨_, hw, _⟩ := at?_cons.mp h
    exact truthy_of_child? hw

/-! ## Checks of a whole tree -/

mutual

/-- Whether a check of fields passes for every record of a tree. -/
def everywhere (check : Fields → Bool) : Value → Bool
  | .list items => everywhereItems check items
  | .record fields => check fields && everywhereFields check fields
  | _ => true

def everywhereItems (check : Fields → Bool) : List Value → Bool
  | [] => true
  | item :: rest => everywhere check item && everywhereItems check rest

def everywhereFields (check : Fields → Bool) : List (String × Value) → Bool
  | [] => true
  | (_, v) :: rest => everywhere check v && everywhereFields check rest

end

section Everywhere

variable {check : Fields → Bool} {v w : Value}

@[simp]
theorem everywhere_nil : (list []).everywhere check = true := by
  simp [everywhere, everywhereItems]

@[simp]
theorem everywhere_cons {item : Value} {rest : List Value} :
    (list (item :: rest)).everywhere check =
      (item.everywhere check && (list rest).everywhere check) := by
  simp [everywhere, everywhereItems]

theorem check_of_everywhere {fields : Fields} (h : (record fields).everywhere check = true) :
    check fields = true := by
  simp only [everywhere, Bool.and_eq_true] at h
  exact h.1

theorem everywhereFields_get? {fields : Fields} {key : String}
    (h : everywhereFields check fields = true) (hw : Fields.get? fields key = some w) :
    w.everywhere check = true := by
  induction fields with
  | nil => cases hw
  | cons field rest ih =>
    obtain ⟨k, u⟩ := field
    rw [everywhereFields, Bool.and_eq_true] at h
    rw [Fields.get?_cons] at hw
    split at hw
    · cases hw
      exact h.1
    · exact ih h.2 hw

theorem everywhere_get? {fields : Fields} {key : String}
    (h : (record fields).everywhere check = true) (hw : Fields.get? fields key = some w) :
    w.everywhere check = true := by
  rw [everywhere, Bool.and_eq_true] at h
  exact everywhereFields_get? h.2 hw

theorem everywhere_mem {items : List Value} (h : (list items).everywhere check = true)
    (hw : w ∈ items) : w.everywhere check = true := by
  induction items with
  | nil => cases hw
  | cons item rest ih =>
    rw [everywhere_cons, Bool.and_eq_true] at h
    rcases List.mem_cons.mp hw with rfl | hw
    · exact h.1
    · exact ih h.2 hw

theorem everywhereFields_mem {fields : Fields} {field : String × Value}
    (h : everywhereFields check fields = true) (hm : field ∈ fields) :
    field.2.everywhere check = true := by
  induction fields with
  | nil => cases hm
  | cons other rest ih =>
    rw [everywhereFields, Bool.and_eq_true] at h
    rcases List.mem_cons.mp hm with rfl | hm
    · exact h.1
    · exact ih h.2 hm

theorem everywhere_value {fields : Fields} {field : String × Value}
    (h : (record fields).everywhere check = true) (hm : field ∈ fields) :
    field.2.everywhere check = true := by
  rw [everywhere, Bool.and_eq_true] at h
  exact everywhereFields_mem h.2 hm

theorem everywhere_child? {edge : Edge} (h : v.everywhere check = true)
    (hw : v.child? edge = some w) : w.everywhere check = true := by
  cases v with
  | record fields =>
    cases edge with
    | field name => exact everywhere_get? h hw
    | item i => cases hw
  | list items =>
    cases edge with
    | field name => cases hw
    | item i => exact everywhere_mem h (List.mem_of_getElem? hw)
  | _ => cases edge <;> cases hw

theorem everywhere_field (h : v.everywhere check = true) (key : String) :
    (v.field key).everywhere check = true := by
  unfold field
  cases hf : v.field? key with
  | none => rfl
  | some u =>
    cases v with
    | record fields => exact everywhere_get? h hf
    | _ => cases hf

theorem everywhere_at? {path : Path} (h : v.everywhere check = true)
    (hw : v.at? path = some w) : w.everywhere check = true := by
  induction path generalizing v with
  | nil =>
    cases hw
    exact h
  | cons edge rest ih =>
    obtain ⟨u, hu, hr⟩ : ∃ u, v.child? edge = some u ∧ u.at? rest = some w := at?_cons.mp hw
    exact ih (everywhere_child? h hu) hr

theorem everywhereFields_set {fields : Fields} {key : String}
    (h : everywhereFields check fields = true) (hv : v.everywhere check = true) :
    everywhereFields check (Fields.set fields key v) = true := by
  induction fields with
  | nil => simp [Fields.set, everywhereFields, hv]
  | cons field rest ih =>
    obtain ⟨k, w⟩ := field
    rw [everywhereFields, Bool.and_eq_true] at h
    by_cases hk : k = key
    · simp [Fields.set, hk, everywhereFields, hv, h.2]
    · simp [Fields.set, hk, everywhereFields, h.1, ih h.2]

end Everywhere

section Mono

variable {check check' : Fields → Bool}

mutual

theorem everywhere_mono (hc : ∀ fields, check fields = true → check' fields = true) :
    ∀ v : Value, v.everywhere check = true → v.everywhere check' = true
  | .list items, h => everywhereItems_mono hc items h
  | .record fields, h => by
    simp only [everywhere, Bool.and_eq_true] at h ⊢
    exact ⟨hc fields h.1, everywhereFields_mono hc fields h.2⟩
  | .null, _ | .bool _, _ | .int _, _ | .float _, _ | .text _, _ | .broken _, _
  | .host _, _ => rfl

theorem everywhereItems_mono (hc : ∀ fields, check fields = true → check' fields = true) :
    ∀ items : List Value, everywhereItems check items = true → everywhereItems check' items = true
  | [], _ => rfl
  | item :: rest, h => by
    simp only [everywhereItems, Bool.and_eq_true] at h ⊢
    exact ⟨everywhere_mono hc item h.1, everywhereItems_mono hc rest h.2⟩

theorem everywhereFields_mono (hc : ∀ fields, check fields = true → check' fields = true) :
    ∀ fields : List (String × Value),
      everywhereFields check fields = true → everywhereFields check' fields = true
  | [], _ => rfl
  | (_, v) :: rest, h => by
    simp only [everywhereFields, Bool.and_eq_true] at h ⊢
    exact ⟨everywhere_mono hc v h.1, everywhereFields_mono hc rest h.2⟩

end

end Mono

end Value

end ContractMeter
