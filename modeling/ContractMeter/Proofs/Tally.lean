import ContractMeter.Proofs.Weight

/-!
# ContractMeter.Proofs.Tally

How many records of a tree pass a check, and what metering adds to their number.

* `Value.count` — the number of records anywhere in a tree that pass a check.
* `Value.weigh_count` — a count is a weight of one for each record that passes.
* `Instrumenter.Tallies` — checks that metering affects by its charges alone.
* `Instrumenter.Tallies.node`, `Instrumenter.Tallies.statements` — each charge adds what it holds
  itself.
-/

namespace ContractMeter

namespace Value

mutual

/-- The number of records anywhere in a tree that pass a check. -/
def count (check : Fields → Bool) : Value → Nat
  | .list items => countItems check items
  | .record fields => (check fields).toNat + countFields check fields
  | _ => 0

def countItems (check : Fields → Bool) : List Value → Nat
  | [] => 0
  | item :: rest => count check item + countItems check rest

def countFields (check : Fields → Bool) : List (String × Value) → Nat
  | [] => 0
  | (_, v) :: rest => count check v + countFields check rest

end

section Count

variable {check : Fields → Bool}

theorem count_list (items : List Value) : (list items).count check = countItems check items := by
  rw [count]

theorem countFields_set (fields : Fields) (key : String) (v : Value) :
    countFields check (Fields.set fields key v) + (Fields.get fields key).count check =
      countFields check fields + v.count check := by
  induction fields with
  | nil => simp [Fields.set, Fields.get, Fields.get?, countFields, count]
  | cons field rest ih =>
    obtain ⟨k, w⟩ := field
    by_cases hk : k = key
    · subst hk
      simp only [Fields.set, if_true, Fields.get, Fields.get?_cons, Option.getD_some, countFields]
      omega
    · simp only [Fields.set, if_neg hk, Fields.get, Fields.get?_cons, if_neg (Ne.symm hk),
        countFields] at ih ⊢
      omega

mutual

/-- A count is a weight of one for each record that passes. -/
theorem weigh_count : ∀ v : Value, v.weigh (fun fields => (check fields).toNat) = v.count check
  | .list items => by rw [weigh, count, weigh_countItems items]
  | .record fields => by
    rw [weigh, count, weigh_countFields fields, Int.natCast_add]
  | .null | .bool _ | .int _ | .float _ | .text _ | .broken _ | .host _ => by
    simp [weigh, count]

theorem weigh_countItems : ∀ items : List Value,
    weighItems (fun fields => (check fields).toNat) items = countItems check items
  | [] => by rfl
  | item :: rest => by
    rw [weighItems, countItems, weigh_count item, weigh_countItems rest, Int.natCast_add]

theorem weigh_countFields : ∀ fields : List (String × Value),
    weighFields (fun fields => (check fields).toNat) fields = countFields check fields
  | [] => by rfl
  | (_, v) :: rest => by
    rw [weighFields, countFields, weigh_count v, weigh_countFields rest, Int.natCast_add]

end

end Count

section CountZero

variable {check : Fields → Bool}

mutual

/-- Nothing is counted in exactly the trees where the check fails everywhere. -/
theorem count_eq_zero_iff : ∀ v : Value,
    v.count check = 0 ↔ v.everywhere (fun fields => !check fields) = true
  | .list items => by
    rw [count, everywhere]
    exact countItems_eq_zero_iff items
  | .record fields => by
    rw [count, everywhere, Nat.add_eq_zero_iff, countFields_eq_zero_iff fields, Bool.and_eq_true]
    cases check fields <;> simp
  | .null | .bool _ | .int _ | .float _ | .text _ | .broken _ | .host _ => by
    simp [count, everywhere]

theorem countItems_eq_zero_iff : ∀ items : List Value,
    countItems check items = 0 ↔ everywhereItems (fun fields => !check fields) items = true
  | [] => by simp [countItems, everywhereItems]
  | item :: rest => by
    rw [countItems, everywhereItems, Nat.add_eq_zero_iff, Bool.and_eq_true, count_eq_zero_iff item,
      countItems_eq_zero_iff rest]

theorem countFields_eq_zero_iff : ∀ fields : List (String × Value),
    countFields check fields = 0 ↔ everywhereFields (fun fields => !check fields) fields = true
  | [] => by simp [countFields, everywhereFields]
  | (_, v) :: rest => by
    rw [countFields, everywhereFields, Nat.add_eq_zero_iff, Bool.and_eq_true, count_eq_zero_iff v,
      countFields_eq_zero_iff rest]

end

end CountZero

end Value

/-! ## What metering adds -/

/-- A check that fields of statements have no part in and that blocks fail, but of which every
charge holds as many as any other. -/
structure Instrumenter.Tallies (m : Instrumenter) (check : Fields → Bool) (each : Nat) : Prop where
  set : ∀ (fields : Fields) (key : String) (v : Value), key ∈ statementFields →
    check (Fields.set fields key v) = check fields
  nil : check [] = false
  block : ∀ statements, check [("type", .text "BlockStatement"), ("body", statements)] = false
  charge : ∀ gamma, (m.charge gamma).count check = each

section Tallies

variable {m : Instrumenter} {check : Fields → Bool} {each : Nat}

theorem Ledger.weigh_const (l : Ledger) :
    l.weigh (fun _ => (each : Int)) = each * l.charges.length := by
  unfold Ledger.weigh
  rw [List.map_const', Int.mul_comm]
  exact List.sum_replicate_int

theorem Instrumenter.Tallies.weighs (ht : m.Tallies check each) :
    m.Weighs (fun fields => (check fields).toNat) fun _ => each where
  set fields key v hk := by rw [ht.set fields key v hk]
  nil := by rw [ht.nil]; rfl
  block statements := by rw [ht.block statements]; rfl
  charge gamma := by rw [Value.weigh_count, ht.charge gamma]

/-- Metering adds to the number of records that pass what each of its charges holds. -/
theorem Instrumenter.Tallies.node (ht : m.Tallies check each) {depth : Int} {tree out : Value}
    (hl : tree.listShaped = true) (h : (m.node depth tree).outcome = .ok out) :
    out.count check = tree.count check + each * (m.node depth tree).ledger.charges.length := by
  have hw := ht.weighs.node hl h
  rw [Value.weigh_count, Value.weigh_count, Ledger.weigh_const] at hw
  exact_mod_cast hw

theorem Instrumenter.Tallies.statements (ht : m.Tallies check each) {tree out : Value}
    (hl : tree.listShaped = true) (h : (m.statements tree).outcome = .ok out) :
    out.count check = tree.count check + each * (m.statements tree).ledger.charges.length := by
  have hw := ht.weighs.statements hl h
  rw [Value.weigh_count, Value.weigh_count, Ledger.weigh_const] at hw
  exact_mod_cast hw

end Tallies

end ContractMeter
