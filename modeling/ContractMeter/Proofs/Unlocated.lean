import ContractMeter.Proofs.Acceptance
import ContractMeter.Proofs.Ceiling
import ContractMeter.Proofs.Commutation
import ContractMeter.Proofs.Location

/-!
# ContractMeter.Proofs.Unlocated

Compilations of a tree with and without positions.

* `Sanitizer.accepts_unlocated`, `Sanitizer.accepts_of_unlocated` — renaming takes positions for
  parts of the tree, which costs no more than two levels.
* `Metered.Matches` — runs that record the same but for lines, and end alike.
* `nodeAt_ignores` — a walk makes of a tree without positions what it makes of the tree, without
  positions.
* `positions_are_inert` — so do compilations, up to two levels.
-/

namespace ContractMeter

open Instrumenter (block prepend loopBody)
open Metered

/-! ## Renaming -/

namespace Sanitizer

variable {s : Sanitizer} {fields : Fields} {v : Value}

theorem exempts_unlocatedRecord (fields : Fields) :
    s.exempts (Value.unlocatedRecord fields) = s.exempts fields := by
  have hk := Value.hasKind_unlocated (.record fields) "MemberExpression"
  have hf (key : String) (hkey : key ≠ "loc") :=
    Value.field_unlocated (v := .record fields) hkey
  rw [Value.unlocated_record] at hk hf
  rw [exempts, exempts, hk, isHostAccess, isHostAccess, hf "object" (by decide),
    hf "computed" (by decide), Value.truthy_unlocated, Value.hasKind_unlocated,
    Value.field_unlocated _ (by decide), Value.isText_unlocated]

theorem all_unlocatedFields (p : Value → Bool) (hp : ∀ v, p v = true → p v.unlocated = true)
    (isNode : Bool) (h : fields.all (fun field => p field.2) = true) :
    (Value.unlocatedFields isNode fields).all (fun field => p field.2) = true := by
  induction fields with
  | nil => rw [Value.unlocatedFields]; rfl
  | cons field rest ih =>
    obtain ⟨key, v⟩ := field
    rw [List.all_cons, Bool.and_eq_true] at h
    rw [Value.unlocatedFields]
    split
    · exact ih h.2
    · rw [List.all_cons, hp v h.1, ih h.2]
      rfl

/-- What renaming accepts it accepts without positions. -/
theorem accepts_unlocated {levels : Nat} (h : s.accepts levels v = true) :
    s.accepts levels v.unlocated = true := by
  induction levels generalizing v with
  | zero => cases h
  | succ levels ih =>
    cases v with
    | list items =>
      rw [accepts, List.all_eq_true] at h
      rw [Value.unlocated_list, accepts, List.all_map, List.all_eq_true]
      exact fun item hi => ih (h item hi)
    | record fields =>
      have hk := Value.hasKind_unlocated (.record fields) "Identifier"
      rw [Value.unlocated_record] at hk ⊢
      rw [accepts] at h ⊢
      rw [hk, exempts_unlocatedRecord, Value.get_unlocatedRecord (by decide),
        Value.comparable_unlocated]
      split
      · rename_i hi
        rwa [if_pos hi] at h
      · rename_i hi
        rw [if_neg hi, Bool.or_eq_true] at h
        rw [Bool.or_eq_true]
        exact h.imp_right (all_unlocatedFields (s.accepts levels) (fun _ => ih) _)
    | _ => simp [Value.unlocated, accepts]

/-! ### Positions are accepted two levels down -/

theorem not_hasKind_of_all {p : Value → Bool} (hp : ∀ t, p (.text t) = false)
    (h : fields.all (fun field => p field.2) = true) (name : String) :
    (Value.record fields).hasKind name = false := by
  refine Bool.eq_false_iff.mpr fun hk => ?_
  have ht : Fields.get? fields "type" = some (.text name) := Value.hasKind_iff.mp hk
  have hn := List.all_eq_true.mp h ("type", .text name) (Fields.mem_of_get? ht)
  rw [hp] at hn
  cases hn

theorem accepts_record_of_all {levels : Nat} (p : Value → Bool) (hp : ∀ t, p (.text t) = false)
    (ha : ∀ v, p v = true → s.accepts levels v = true)
    (h : fields.all (fun field => p field.2) = true) :
    s.accepts (levels + 1) (.record fields) = true := by
  rw [accepts, not_hasKind_of_all hp h, if_neg Bool.false_ne_true, Bool.or_eq_true]
  exact .inr (List.all_eq_true.mpr fun field hf => ha _ (List.all_eq_true.mp h field hf))

theorem accepts_point {levels : Nat} (h : v.isPoint = true) : s.accepts (levels + 2) v = true := by
  cases v with
  | record fields =>
    refine accepts_record_of_all Value.isInteger (fun t => rfl) (fun v hv => ?_) h
    cases v with
    | int n => rfl
    | _ => cases hv
  | _ => cases h

theorem accepts_location {levels : Nat} (h : v.isLocation = true) :
    s.accepts (levels + 3) v = true := by
  cases v with
  | record fields =>
    exact accepts_record_of_all Value.isPoint (fun t => rfl) (fun v hv => accepts_point hv) h
  | _ => cases h

theorem all_of_unlocatedFields (p q : Value → Bool) (isNode : Bool)
    (hp : ∀ v : Value, v.Positioned → q v.unlocated = true → p v = true)
    (hl : isNode = true → ∀ v : Value, v.isLocation = true → p v = true)
    (hloc : isNode = true →
      fields.all (fun field => field.1 != "loc" || field.2.isLocation) = true)
    (hf : ∀ field ∈ fields, field.2.Positioned)
    (h : (Value.unlocatedFields isNode fields).all (fun field => q field.2) = true) :
    fields.all (fun field => p field.2) = true := by
  induction fields with
  | nil => rfl
  | cons field rest ih =>
    obtain ⟨key, v⟩ := field
    obtain ⟨hv, hrest⟩ := List.forall_mem_cons.mp hf
    have hloc' : isNode = true →
        rest.all (fun field => field.1 != "loc" || field.2.isLocation) = true := by
      intro hn
      have h := hloc hn
      rw [List.all_cons, Bool.and_eq_true] at h
      exact h.2
    rw [Value.unlocatedFields] at h
    rw [List.all_cons, Bool.and_eq_true]
    split at h
    · rename_i hk
      rw [Bool.and_eq_true, beq_iff_eq] at hk
      obtain ⟨hn, rfl⟩ := hk
      have h' := hloc hn
      rw [List.all_cons, Bool.and_eq_true] at h'
      exact ⟨hl hn v (by simpa using h'.1), ih hloc' hrest h⟩
    · rw [List.all_cons, Bool.and_eq_true] at h
      exact ⟨hp v hv h.1, ih hloc' hrest h.2⟩

/-- A positioned tree that renaming accepts without positions it accepts with them, two levels
further down. -/
theorem accepts_of_unlocated {levels : Nat} (hv : v.Positioned)
    (h : s.accepts levels v.unlocated = true) : s.accepts (levels + 2) v = true := by
  induction levels generalizing v with
  | zero => cases h
  | succ levels ih =>
    cases v with
    | list items =>
      rw [Value.unlocated_list, accepts, List.all_map, List.all_eq_true] at h
      rw [accepts, List.all_eq_true]
      exact fun item hi => ih (Value.positioned_list.mp hv item hi) (h item hi)
    | record fields =>
      have hk := Value.hasKind_unlocated (.record fields) "Identifier"
      rw [Value.unlocated_record] at hk h
      rw [accepts] at h ⊢
      rw [hk, exempts_unlocatedRecord, Value.get_unlocatedRecord (by decide),
        Value.comparable_unlocated] at h
      split
      · rename_i hi
        rwa [if_pos hi] at h
      · rename_i hi
        rw [if_neg hi, Bool.or_eq_true] at h
        rw [Bool.or_eq_true]
        refine h.imp_right fun h => ?_
        have hpos := Value.check_of_everywhere hv
        rw [Value.isPositioned, Value.hasLocation, Bool.and_eq_true, Bool.or_eq_true,
          Bool.not_eq_true'] at hpos
        refine all_of_unlocatedFields _ _ _ (fun v hv h => ih hv h) (fun hn v hl => ?_)
          (fun hn => ?_) hv.mem h
        · -- the kind of a node takes a level, so there is one for what stands beside it
          cases levels with
          | zero =>
            cases hu : Value.unlocatedRecord fields with
            | nil =>
              rw [Value.unlocatedRecord_eq_nil_iff.mp hu] at hn
              cases hn
            | cons field rest =>
              rw [hu] at h
              cases h
          | succ levels => exact accepts_location hl
        · rcases hpos.1 with hn' | hpos
          · rw [hn] at hn'
            cases hn'
          · exact hpos
    | _ => rfl

/-! ### Renaming without positions -/

theorem isNode_renamedRecord (fields : Fields) :
    (Value.record (s.renamedRecord fields)).isNode = (Value.record fields).isNode := by
  rw [Value.isNode, Value.isNode, Value.field?_record, Value.field?_record,
    get?_renamedRecord (by decide)]
  exact Option.isSome_map ..

theorem renamedFields_unlocatedFields (isNode : Bool)
    (h : ∀ field ∈ fields, s.renamed field.2.unlocated = (s.renamed field.2).unlocated) :
    s.renamedFields (Value.unlocatedFields isNode fields) =
      Value.unlocatedFields isNode (s.renamedFields fields) := by
  induction fields with
  | nil => simp [Value.unlocatedFields, renamedFields]
  | cons field rest ih =>
    obtain ⟨key, v⟩ := field
    obtain ⟨hv, hr⟩ := List.forall_mem_cons.mp h
    rw [Value.unlocatedFields, renamedFields, Value.unlocatedFields]
    split
    · exact ih hr
    · rw [renamedFields, hv, ih hr]

theorem renamedIdentifier_unlocatedRecord
    (h : (Fields.get fields "name").comparable = true) :
    s.renamedIdentifier (Value.unlocatedRecord fields) =
      Value.unlocatedRecord (s.renamedIdentifier fields) := by
  have hn : (Fields.get fields "name").unlocated = Fields.get fields "name" := by
    cases hv : Fields.get fields "name" with
    | list _ | record _ =>
      rw [hv] at h
      cases h
    | _ => simp [Value.unlocated]
  rw [renamedIdentifier, renamedIdentifier, Value.get_unlocatedRecord (by decide), hn]
  split
  · rfl
  · rw [Value.unlocatedRecord_set (by decide) (by decide),
      Value.unlocated_of_isString (s.isString_prefixed _)]

/-- Where renaming succeeds it does the same to the tree without positions. -/
theorem renamed_unlocated {levels : Nat} (h : s.accepts levels v = true) :
    s.renamed v.unlocated = (s.renamed v).unlocated := by
  induction levels generalizing v with
  | zero => cases h
  | succ levels ih =>
    cases v with
    | list items =>
      rw [accepts, List.all_eq_true] at h
      rw [Value.unlocated_list, renamed_list, renamed_list, Value.unlocated_list,
        renamedItems_eq_map, renamedItems_eq_map, List.map_map, List.map_map]
      exact congrArg _ (List.map_congr_left fun item hi => ih (h item hi))
    | record fields =>
      have hk := Value.hasKind_unlocated (.record fields) "Identifier"
      rw [Value.unlocated_record] at hk ⊢
      rw [renamed_record, renamed_record, Value.unlocated_record, renamedRecord, renamedRecord, hk,
        exempts_unlocatedRecord]
      rw [accepts] at h
      by_cases hi : (Value.record fields).hasKind "Identifier" = true
      · rw [if_pos hi] at h ⊢
        rw [if_pos hi, renamedIdentifier_unlocatedRecord h]
      · rw [if_neg hi] at h ⊢
        rw [if_neg hi]
        by_cases he : s.exempts fields = true
        · rw [if_pos he, if_pos he]
        · have hr : s.renamedRecord fields = s.renamedFields fields := by
            rw [renamedRecord, if_neg hi, if_neg he]
          have hn := s.isNode_renamedRecord fields
          rw [hr] at hn
          rw [Bool.eq_false_iff.mpr he, Bool.false_or, List.all_eq_true] at h
          rw [if_neg he, if_neg he, Value.unlocatedRecord, Value.unlocatedRecord, hn,
            renamedFields_unlocatedFields _ fun field hf => ih (h field hf)]
    | _ => simp [Value.unlocated, renamed]

/-! ### What a walk relies on -/

theorem renamed_of_all (p : Value → Bool) (hp : ∀ t, p (.text t) = false)
    (hr : ∀ v, p v = true → s.renamed v = v)
    (h : fields.all (fun field => p field.2) = true) :
    s.renamed (.record fields) = .record fields := by
  have hk := not_hasKind_of_all hp h
  have he : s.enters fields = true := by simp [enters, exempts, hk]
  have hf : ∀ field ∈ fields, (field.1, s.renamed field.2) = field := fun field hm => by
    rw [hr _ (List.all_eq_true.mp h field hm)]
  rw [renamed_record, renamedRecord_of_enters he, renamedFields_eq_map, List.map_congr_left hf,
    List.map_id']

theorem renamed_of_isPoint (h : v.isPoint = true) : s.renamed v = v := by
  cases v with
  | record fields =>
    refine renamed_of_all Value.isInteger (fun t => rfl) (fun v hv => ?_) h
    cases v with
    | int n => simp [renamed]
    | _ => cases hv
  | _ => cases h

theorem renamed_of_isLocation (h : v.isLocation = true) : s.renamed v = v := by
  cases v with
  | record fields =>
    exact renamed_of_all Value.isPoint (fun t => rfl) (fun v hv => renamed_of_isPoint hv) h
  | _ => cases h

theorem hasLocation_renamedRecord (h : Value.hasLocation fields = true) :
    Value.hasLocation (s.renamedRecord fields) = true := by
  rw [Value.hasLocation, isNode_renamedRecord]
  cases hn : (Value.record fields).isNode with
  | false => rfl
  | true =>
    rw [Value.hasLocation, hn, Bool.not_true, Bool.false_or] at h
    rw [Bool.not_true, Bool.false_or, renamedRecord]
    split
    · rw [renamedIdentifier]
      split
      · exact h
      · rwa [Value.all_set _ _ _ fun w => by simp]
    · split
      · exact h
      · rw [renamedFields_eq_map, List.all_map, List.all_eq_true]
        intro field hf
        have hl := List.all_eq_true.mp h field hf
        rw [Bool.or_eq_true] at hl
        rcases hl with hne | hl
        · simp only [Function.comp_apply, hne, Bool.true_or]
        · simp only [Function.comp_apply, renamed_of_isLocation hl, hl, Bool.or_true]

theorem holdsNoNames_of_holdsNoNodes (h : v.holdsNoNodes = true) : v.holdsNoNames = true := by
  refine Value.everywhere_mono (fun fields hf => ?_) v h
  rw [Bool.not_eq_true'] at hf
  have hk (name : String) : (Value.record fields).hasKind name = false := by
    rw [Value.hasKind, hf, Bool.false_and]
  rw [hk, hk]
  rfl

theorem storesNoNodes_renamedRecord (h : Value.storesNoNodes fields = true) :
    Value.storesNoNodes (s.renamedRecord fields) = true := by
  have hk := s.hasKind_renamed (.record fields) "Literal"
  rw [renamed_record] at hk
  rw [Value.storesNoNodes, hk]
  by_cases hl : (Value.record fields).hasKind "Literal" = true
  · rw [Value.storesNoNodes, hl, Bool.not_true, Bool.false_or, Bool.and_eq_true] at h
    rw [hl, Bool.not_true, Bool.false_or, get_renamedRecord (by decide),
      get_renamedRecord (by decide),
      within_of_enters (enters_of_hasKind hl (by decide) (by decide)),
      renamed_of_holdsNoNames _ (holdsNoNames_of_holdsNoNodes h.1),
      renamed_of_holdsNoNames _ (holdsNoNames_of_holdsNoNodes h.2), h.1, h.2]
    rfl
  · rw [Bool.eq_false_iff.mpr hl]
    rfl

theorem positioned_renamed (h : v.Positioned) : (s.renamed v).Positioned := by
  refine everywhere_renamed (fun fields hf => ?_) v h
  rw [Value.isPositioned, Bool.and_eq_true] at hf ⊢
  exact ⟨hasLocation_renamedRecord hf.1, storesNoNodes_renamedRecord hf.2⟩

theorem isLocated_renamed (v : Value) : (s.renamed v).isLocated = v.isLocated := by
  cases v with
  | record fields =>
    rw [renamed_record, Value.isLocated, Value.isLocated, isNode_renamedRecord,
      Value.field?_record, Value.field?_record, get?_renamedRecord (by decide), Option.isSome_map]
  | list items => rw [renamed_list]; rfl
  | _ => simp [renamed]

theorem isLocated_field_renamed (v : Value) {key : String} (hk : key ≠ "name") :
    ((s.renamed v).field key).isLocated = (v.field key).isLocated := by
  cases v with
  | record fields =>
    rw [renamed_record, Value.field_record, Value.field_record, get_renamedRecord hk,
      within_congr (isLocated_renamed _)]
  | list items => rw [renamed_list]; rfl
  | _ => simp [renamed]

theorem readsLists_renamedRecord (fields : Fields) :
    Value.readsLists (s.renamedRecord fields) = Value.readsLists fields := by
  have hc := s.container_renamed (.record fields)
  rw [renamed_record] at hc
  have hi (c : Value) : ((s.within fields c).field "consequent").isLocated =
      (c.field "consequent").isLocated :=
    within_congr (f := fun c => (c.field "consequent").isLocated)
      (isLocated_field_renamed c (by decide))
  simp only [Value.readsLists, hc, get_renamedRecord (by decide : "body" ≠ "name"),
    get_renamedRecord (by decide : "cases" ≠ "name"), within_congr (isLocated_renamed _),
    items_within, List.all_map, Function.comp_def, hi]

theorem legible_renamed (h : v.Legible) : (s.renamed v).Legible :=
  ⟨positioned_renamed h.positioned,
    everywhere_renamed (fun fields hf => (readsLists_renamedRecord fields).trans hf) v h.lists⟩

end Sanitizer

/-! ## Prices -/

namespace Pricing

theorem declaredLiteral_unlocated {v : Value} (h : v.Positioned)
    (hk : v.hasKind "Literal" = true) : declaredLiteral v.unlocated = declaredLiteral v := by
  cases v with
  | record fields =>
    have hp := Value.check_of_everywhere h
    rw [Value.isPositioned, Value.storesNoNodes, hk, Bool.not_true, Bool.false_or,
      Bool.and_eq_true, Bool.and_eq_true] at hp
    obtain ⟨-, hvalue, hregex⟩ := hp
    rw [declaredLiteral, declaredLiteral, Value.field_unlocated _ (by decide),
      Value.field_unlocated _ (by decide), Value.field_record, Value.field_record,
      Value.unlocated_of_holdsNoNodes _ hvalue, Value.unlocated_of_holdsNoNodes _ hregex]
  | _ => cases hk

/-- No price tells a positioned value from the value without positions. -/
theorem lookalike_unlocated : Lookalike fun v w => v.Positioned ∧ w = v.unlocated where
  list := by
    rintro items w ⟨hv, rfl⟩
    exact ⟨Value.unlocated, Value.unlocated_list items, fun v hm =>
      ⟨Value.positioned_list.mp hv v hm, rfl⟩⟩
  record := by
    rintro fields w ⟨hv, rfl⟩
    refine ⟨_, Value.unlocated, Value.unlocated_record fields, fun key hk => ?_⟩
    have hne : key ≠ "loc" := by
      rintro rfl
      exact absurd hk (by decide)
    exact ⟨Value.get?_unlocatedRecord hne, fun v hw => ⟨hv.get? hw, rfl⟩⟩
  scalar := by
    rintro v w ⟨-, rfl⟩ hl hr
    cases v with
    | list items => exact absurd rfl (hl items)
    | record fields => exact absurd rfl (hr fields)
    | _ => simp [Value.unlocated]
  literal := by
    rintro v w ⟨hv, rfl⟩ hk
    exact declaredLiteral_unlocated hv hk

theorem usableKey_of_yields {p : Pricing} {n : Nat} {v : Value} {l : Ledger} {g : Nat}
    (h : (p.gammaAt n v).Yields l g) : v.kind.usableKey = true := by
  cases n with
  | zero => cases h
  | succ n =>
    by_cases hv : ∃ items, v = .list items
    · obtain ⟨items, rfl⟩ := hv
      rfl
    · rw [gammaAt_succ fun items e => hv ⟨items, e⟩] at h
      split at h
      · rename_i kind hk
        rw [hk]
        rfl
      · split at h
        · assumption
        · cases h

end Pricing

/-! ## Runs that differ in lines -/

def Ledger.unlined (ledger : Ledger) : Ledger :=
  ⟨ledger.warnings, ledger.charges.map Charge.unlined⟩

theorem Ledger.unlined_append (a b : Ledger) : (a ++ b).unlined = a.unlined ++ b.unlined := by
  simp only [unlined, Ledger.warnings_append, Ledger.charges_append, List.map_append]
  rfl

namespace Metered

/-- The run without the lines that it records. -/
def unlined {α : Type} (x : Metered α) : Metered α :=
  ⟨x.ledger.unlined, x.outcome⟩

/-- Runs that record the same but for lines, and end with related results or the same failure. -/
def Matches {α β : Type} (R : α → β → Prop) (x : Metered α) (y : Metered β) : Prop :=
  Parallel R x.unlined y.unlined

section Matches

variable {α β γ δ : Type} {R : α → β → Prop} {S : γ → δ → Prop} {x : Metered α} {y : Metered β}

theorem unlined_bind (x : Metered α) (f : α → Metered γ) :
    (x >>= f).unlined = x.unlined >>= fun a => (f a).unlined := by
  obtain ⟨l, outcome⟩ := x
  cases outcome with
  | error failure => rfl
  | ok a =>
    have h := Ledger.unlined_append l (f a).ledger
    show (⟨(l ++ (f a).ledger).unlined, (f a).outcome⟩ : Metered γ) = _
    rw [h]
    rfl

theorem matches_pure {a : α} {b : β} (h : R a b) : Matches R (.pure a) (.pure b) :=
  .ok h

theorem matches_fail (failure : Failure) : Matches R (fail failure) (fail failure) :=
  .error

theorem Matches.bind {f : α → Metered γ} {g : β → Metered δ} (h : Matches R x y)
    (hf : ∀ a b, R a b → Matches S (f a) (g b)) : Matches S (x >>= f) (y >>= g) := by
  unfold Matches
  rw [unlined_bind, unlined_bind]
  exact Parallel.bind h hf

theorem Matches.map {f : α → γ} {g : β → δ} (h : Matches R x y)
    (hf : ∀ a b, R a b → S (f a) (g b)) : Matches S (x.map f) (y.map g) :=
  Parallel.map h hf

theorem Matches.afterSame {f : α → Metered γ} {g : α → Metered δ} (x : Metered α)
    (h : ∀ l a, x.Yields l a → Matches S (f a) (g a)) : Matches S (x >>= f) (x >>= g) := by
  unfold Matches
  rw [unlined_bind, unlined_bind]
  obtain ⟨l, outcome⟩ := x
  cases outcome with
  | error failure => exact .error
  | ok a => exact Parallel.after (h l a rfl)

end Matches

end Metered

/-! ## Walks -/

namespace Instrumenter

variable {m : Instrumenter}

/-- A positioned value and the same without positions. -/
def Unlocates (v w : Value) : Prop :=
  w = v.unlocated ∧ v.Positioned

def UnlocatesEach (vs ws : List Value) : Prop :=
  ws = vs.map Value.unlocated ∧ ∀ v ∈ vs, v.Positioned

/-- A pass that makes of a value without positions what it makes of the value, without positions,
and records the same but for lines. -/
def Ignores (pass : Value → Metered Value) : Prop :=
  ∀ ⦃v : Value⦄, v.Legible → Matches Unlocates (pass v) (pass v.unlocated)

/-- A pass over lists that does so unless it is given a located node for a list. -/
def ListIgnores (pass : Value → Metered Value) : Prop :=
  ∀ ⦃v : Value⦄, v.Legible → v.isLocated = false → Matches Unlocates (pass v) (pass v.unlocated)

theorem positioned_charge (gamma : Nat) : (m.charge gamma).Positioned := rfl

theorem unlocated_charge (gamma : Nat) : (m.charge gamma).unlocated = m.charge gamma := by
  simp [charge, MeteringCall.statement, MeteringCall.callee, MeteringCall.identifier,
    MeteringCall.amountLiteral, Value.unlocated, Value.unlocatedItems, Value.unlocatedRecord,
    Value.unlocatedFields]

theorem unlocates_record {fields : Fields} (h : (Value.record fields).Positioned) :
    Unlocates (.record fields) (.record (Value.unlocatedRecord fields)) :=
  ⟨(Value.unlocated_record fields).symm, h⟩

theorem unlocates_set {fields fields' : Fields} {key : String} {v w : Value}
    (h : Unlocates (.record fields) (.record fields')) (hw : Unlocates v w)
    (hk : key ∈ statementFields)
    (hl : key ≠ "value" ∨ (Value.record fields).hasKind "Literal" = false) :
    Unlocates (.record (Fields.set fields key v)) (.record (Fields.set fields' key w)) := by
  obtain ⟨hf, hp⟩ := h
  obtain ⟨rfl, hv⟩ := hw
  rw [Value.unlocated_record, Value.record.injEq] at hf
  refine ⟨?_, hp.set hv hk hl⟩
  rw [Value.unlocated_record, Value.unlocatedRecord_set (fun e => absurd (e ▸ hk) (by decide))
    (fun e => absurd (e ▸ hk) (by decide)), hf]

theorem recordCharge_matches {v : Value} (h : v.Positioned) (hk : v.kind.usableKey = true)
    (gamma : Nat) (label : Option String) :
    Matches (fun _ _ => True) (recordCharge v gamma label)
      (recordCharge v.unlocated gamma label) := by
  have hc := chargeOf_unlocated h hk gamma label
  unfold recordCharge
  revert hc
  generalize Charge.of v gamma label = entry
  generalize Charge.of v.unlocated gamma label = entry'
  intro hc
  cases entry with
  | error cause =>
    cases entry' with
    | error cause' =>
      cases hc
      exact matches_fail _
    | ok c' => cases hc
  | ok c =>
    cases entry' with
    | error cause' => cases hc
    | ok c' =>
      simp only [Except.map, Except.ok.injEq] at hc
      show Parallel _ ⟨⟨[], [c.unlined]⟩, .ok ()⟩ ⟨⟨[], [c'.unlined]⟩, .ok ()⟩
      rw [hc]
      exact .ok trivial

theorem charged_matches {v : Value} (h : v.Positioned) :
    Matches UnlocatesEach (m.charged v) (m.charged v.unlocated) := by
  unfold charged
  rw [Value.isUncharged_unlocated]
  split
  · exact matches_pure ⟨rfl, List.forall_mem_singleton.mpr h⟩
  · rw [Pricing.lookalike_unlocated.gammaFor_agrees m.pricing 0 ⟨h, rfl⟩]
    refine .afterSame _ fun l gamma hy => ?_
    refine (recordCharge_matches h (Pricing.usableKey_of_yields hy) gamma none).bind
      fun _ _ _ => matches_pure ⟨?_, ?_⟩
    · simp [unlocated_charge]
    · exact List.forall_mem_cons.mpr ⟨positioned_charge gamma, List.forall_mem_singleton.mpr h⟩

section Parts

variable {node inner sequence : Value → Metered Value}

theorem chargeEach_matches (hn : Ignores node) {items : List Value}
    (h : ∀ v ∈ items, v.Legible) :
    Matches UnlocatesEach (m.chargeEach node items)
      (m.chargeEach node (items.map Value.unlocated)) := by
  induction items with
  | nil => exact matches_pure ⟨rfl, fun _ hm => nomatch hm⟩
  | cons item rest ih =>
    obtain ⟨hi, hr⟩ := List.forall_mem_cons.mp h
    refine (hn hi).bind ?_
    rintro item _ ⟨rfl, hi'⟩
    refine (charged_matches hi').bind ?_
    rintro placed _ ⟨rfl, hp⟩
    refine (ih hr).map ?_
    rintro others _ ⟨rfl, ho⟩
    exact ⟨(List.map_append ..).symm, by simpa [or_imp, forall_and] using ⟨hp, ho⟩⟩

theorem chargeElements_ignores (hn : Ignores node) : ListIgnores (m.chargeElements node) := by
  intro v hv hl
  unfold chargeElements
  rw [Value.elements_unlocated hl]
  cases he : v.elements with
  | error cause => exact matches_fail _
  | ok items =>
    refine (chargeEach_matches hn (hv.elements he)).bind ?_
    rintro items' _ ⟨rfl, hi⟩
    exact matches_pure ⟨(Value.unlocated_list items').symm, Value.positioned_list.mpr hi⟩

theorem statementPart_ignores (hn : Ignores node) (hi : ListIgnores inner) :
    Ignores (statementPart node inner) := by
  intro v hv
  by_cases h0 : v = .null
  · subst h0
    have h := hn hv
    rw [Value.unlocated_null] at h ⊢
    exact h
  · rw [statementPart_of_ne_null h0,
      statementPart_of_ne_null (mt Value.unlocated_eq_null_iff.mp h0), Value.hasKind_unlocated]
    split
    · exact hn hv
    · have h := hi (Value.legible_singleton hv) rfl
      rw [Value.unlocated_list, List.map_singleton] at h
      refine h.bind ?_
      rintro statements _ ⟨rfl, hs⟩
      exact matches_pure ⟨(Value.unlocated_block statements).symm, Value.positioned_block hs⟩

theorem unlocates_prepend (gamma : Nat) {v w : Value} (h : Unlocates v w) :
    Unlocates (prepend (m.charge gamma) v) (prepend (m.charge gamma) w) := by
  obtain ⟨rfl, hv⟩ := h
  cases v with
  | record fields =>
    rw [Value.unlocated_record, prepend_record, prepend_record,
      Value.get_unlocatedRecord (by decide), Value.items_unlocated]
    refine unlocates_set (unlocates_record hv) ⟨?_, ?_⟩ (by decide) (.inl (by decide))
    · rw [Value.unlocated_list, List.map_cons, unlocated_charge]
    · exact Value.positioned_list.mpr (List.forall_mem_cons.mpr
        ⟨positioned_charge gamma, (hv.get "body").items⟩)
  | list items =>
    rw [Value.unlocated_list]
    exact ⟨(Value.unlocated_list items).symm, hv⟩
  | _ =>
    simp only [Value.unlocated]
    exact ⟨by simp [prepend, Value.unlocated], hv⟩

theorem eachCase_matches (hi : ListIgnores inner) {cases : List Value}
    (h : ∀ c ∈ cases, c.Legible ∧ (c.field "consequent").isLocated = false) :
    Matches UnlocatesEach (eachCase inner cases) (eachCase inner (cases.map Value.unlocated)) := by
  induction cases with
  | nil => exact matches_pure ⟨rfl, fun _ hm => nomatch hm⟩
  | cons c rest ih =>
    obtain ⟨⟨hc, hl⟩, hr⟩ := List.forall_mem_cons.mp h
    rw [List.map_cons]
    cases c with
    | record fields =>
      rw [Value.unlocated_record, eachCase, eachCase, Value.getD_unlocatedRecord (by decide)]
      refine (hi (hc.getD "consequent") (Value.isLocated_getD hl)).bind ?_
      intro consequent consequent' hw
      refine (ih hr).map ?_
      rintro others _ ⟨rfl, ho⟩
      have hset := @unlocates_set fields _ "consequent" _ _ (unlocates_record hc.positioned) hw
        (by decide) (.inl (by decide))
      exact ⟨by rw [List.map_cons, ← hset.1], List.forall_mem_cons.mpr ⟨hset.2, ho⟩⟩
    | list items =>
      rw [Value.unlocated_list]
      exact matches_fail _
    | _ =>
      simp only [Value.unlocated]
      exact matches_fail _

theorem meterLoop_matches (hn : Ignores node) (hi : ListIgnores inner) (depth : Int)
    {kind : String} {fields : Fields} (h : (Value.record fields).Legible)
    (hk : Fields.get? fields "type" = some (.text kind)) :
    Matches Unlocates (m.meterLoop node inner depth kind fields)
      (m.meterLoop node inner depth kind (Value.unlocatedRecord fields)) := by
  unfold meterLoop
  have hg := Pricing.lookalike_unlocated.gammaPerIteration_agrees m.pricing depth
    ⟨h.positioned, Value.unlocated_record fields |>.symm⟩
  have hu : (Value.record fields).kind.usableKey = true := by simp [Value.kind, hk]; rfl
  rw [hg]
  refine .afterSame _ fun _ gamma _ => ?_
  have hr := recordCharge_matches h.positioned hu gamma (some (kind ++ " iteration"))
  rw [Value.unlocated_record] at hr
  refine hr.bind fun _ _ _ => ?_
  rw [Value.loopBody_unlocatedRecord]
  refine (statementPart_ignores hn hi (Value.legible_loopBody h)).bind ?_
  intro body body' hb
  exact matches_pure (unlocates_set (unlocates_record h.positioned) (unlocates_prepend gamma hb)
    (by decide) (.inl (by decide)))

/-- A record with fields holds no cases, whether it is a located node or not. -/
theorem eachCase_of_record {fields : Fields} (h : fields ≠ [])
    (f : List Value → Metered Value) :
    (Metered.ofExcept (Value.record fields).elements >>= fun cases =>
      eachCase inner cases >>= f) = .fault .notFields := by
  cases fields with
  | nil => exact absurd rfl h
  | cons field rest => rfl

theorem switch_matches (hi : ListIgnores inner) {depth : Int} {kind : String} {fields : Fields}
    (h : (Value.record fields).Legible) (hk : Fields.get? fields "type" = some (.text kind))
    (hc : Container.ofKind kind = .switch) :
    Matches Unlocates (m.parts node sequence inner depth kind fields)
      (m.parts node sequence inner depth kind (Value.unlocatedRecord fields)) := by
  have hb := h.getD "cases"
  have hlists := Value.check_of_everywhere h.lists
  rw [Value.readsLists, Value.container_of_kind hk, hc] at hlists
  simp only [parts, hc]
  rw [Value.getD_unlocatedRecord (by decide)]
  by_cases hl : ((Fields.get? fields "cases").getD (.list [])).isLocated = true
  · generalize (Fields.get? fields "cases").getD (.list []) = v at hl
    cases v with
    | record located =>
      have hne : located ≠ [] := by
        rintro rfl
        cases hl
      rw [Value.unlocated_record, eachCase_of_record hne,
        eachCase_of_record (mt Value.unlocatedRecord_eq_nil_iff.mp hne)]
      exact matches_fail _
    | _ => cases hl
  · rw [Bool.not_eq_true] at hl
    rw [Value.elements_unlocated hl]
    cases he : ((Fields.get? fields "cases").getD (.list [])).elements with
    | error cause => exact matches_fail _
    | ok cases =>
      have hcases : ∀ c ∈ cases, c.Legible ∧ (c.field "consequent").isLocated = false := by
        intro c hm
        refine ⟨hb.elements he c hm, ?_⟩
        cases hw : Fields.get? fields "cases" with
        | none =>
          rw [hw] at he
          cases he
          cases hm
        | some v =>
          rw [hw, Option.getD_some] at he
          rw [Fields.get_of_get? hw] at hlists
          by_cases hv : ∃ items, v = .list items
          · obtain ⟨items, rfl⟩ := hv
            cases he
            simpa using List.all_eq_true.mp hlists c hm
          · have hs := Value.isString_of_elements (fun items e => hv ⟨items, e⟩) he c hm
            cases c with
            | text _ | broken _ => rfl
            | _ => cases hs
      refine (eachCase_matches hi hcases).bind ?_
      rintro cases' _ ⟨rfl, hcs⟩
      exact matches_pure (unlocates_set (unlocates_record h.positioned)
        ⟨(Value.unlocated_list cases').symm, Value.positioned_list.mpr hcs⟩ (by decide)
        (.inl (by decide)))

theorem parts_matches (hn : Ignores node) (hs : ListIgnores sequence) (hi : ListIgnores inner)
    (depth : Int) {kind : String} {fields : Fields} (h : (Value.record fields).Legible)
    (hk : Fields.get? fields "type" = some (.text kind)) :
    Matches Unlocates (m.parts node sequence inner depth kind fields)
      (m.parts node sequence inner depth kind (Value.unlocatedRecord fields)) := by
  have hp : Ignores (statementPart node inner) := statementPart_ignores hn hi
  have hf : Unlocates (.record fields) (.record (Value.unlocatedRecord fields)) :=
    unlocates_record h.positioned
  have hcont := Value.container_of_kind hk
  by_cases hswitch : Container.ofKind kind = .switch
  · exact switch_matches hi h hk hswitch
  unfold parts
  cases hc : Container.ofKind kind with
  | sequence =>
    have hlists := Value.check_of_everywhere h.lists
    rw [Value.readsLists, hcont, hc] at hlists
    have hl : (Fields.get fields "body").isLocated = false := by simpa using hlists
    dsimp only
    rw [Value.getD_unlocatedRecord (by decide)]
    refine (hs (h.getD "body") (Value.isLocated_getD hl)).bind fun body body' hb => ?_
    exact matches_pure (unlocates_set hf hb (by decide) (.inl (by decide)))
  | body =>
    dsimp only
    rw [Value.get_unlocatedRecord (by decide)]
    refine (hn (h.get "body")).bind fun body body' hb => ?_
    exact matches_pure (unlocates_set hf hb (by decide) (.inl (by decide)))
  | loop => exact meterLoop_matches hn hi depth h hk
  | statementBody =>
    dsimp only
    rw [Value.get_unlocatedRecord (by decide)]
    refine (hp (h.get "body")).bind fun body body' hb => ?_
    exact matches_pure (unlocates_set hf hb (by decide) (.inl (by decide)))
  | value =>
    dsimp only
    rw [Value.get_unlocatedRecord (by decide)]
    refine (hn (h.get "value")).bind fun value value' hv => ?_
    -- a literal's value would have to stay free of nodes
    have hl : (Value.record fields).hasKind "Literal" = false := by
      refine Bool.eq_false_iff.mpr fun hl => ?_
      have hcl := Value.container_of_hasKind hl
      rw [hcont, hc] at hcl
      cases hcl
    exact matches_pure (unlocates_set hf hv (by decide) (.inr hl))
  | branch =>
    dsimp only
    rw [Value.get_unlocatedRecord (by decide), Value.get_unlocatedRecord (by decide)]
    refine (hp (h.get "consequent")).bind fun _ _ h₁ => ?_
    refine (hp (h.get "alternate")).bind fun _ _ h₂ => matches_pure ?_
    have hf₁ := @unlocates_set fields _ "consequent" _ _ hf h₁ (by decide) (.inl (by decide))
    exact unlocates_set hf₁ h₂ (by decide) (.inl (by decide))
  | attempt =>
    dsimp only
    rw [Value.get_unlocatedRecord (by decide), Value.get_unlocatedRecord (by decide),
      Value.get_unlocatedRecord (by decide)]
    refine (hn (h.get "block")).bind fun _ _ h₁ => ?_
    refine (hn (h.get "handler")).bind fun _ _ h₂ => ?_
    refine (hn (h.get "finalizer")).bind fun _ _ h₃ => matches_pure ?_
    have hf₁ := @unlocates_set fields _ "block" _ _ hf h₁ (by decide) (.inl (by decide))
    have hf₂ := @unlocates_set _ _ "handler" _ _ hf₁ h₂ (by decide) (.inl (by decide))
    exact unlocates_set hf₂ h₃ (by decide) (.inl (by decide))
  | switch => exact absurd hc hswitch
  | leaf => exact matches_pure hf

end Parts

mutual

/-- A walk takes no notice of positions, but for the lines it records. -/
theorem nodeAt_ignores : ∀ levels, Ignores (m.nodeAt levels)
  | 0 => fun _ _ => matches_fail _
  | levels + 1 => by
    intro v hv
    cases v with
    | record fields =>
      rw [Value.unlocated_record, nodeAt, nodeAt, Value.get?_unlocatedRecord (by decide)]
      cases hk : Fields.get? fields "type" with
      | none => exact matches_pure (unlocates_record hv.positioned)
      | some kind =>
        rw [Option.map_some]
        cases kind with
        | text kind =>
          rw [Value.unlocated_of_isString rfl]
          exact parts_matches (nodeAt_ignores levels) (sequenceAt_ignores levels)
            (innerSequenceAt_ignores levels) _ hv hk
        | list items =>
          rw [Value.unlocated_list]
          exact matches_fail _
        | record fields' =>
          rw [Value.unlocated_record]
          exact matches_fail _
        | _ =>
          simp only [Value.unlocated]
          exact matches_pure (unlocates_record hv.positioned)
    | list items =>
      rw [Value.unlocated_list]
      exact matches_pure ⟨(Value.unlocated_list items).symm, hv.positioned⟩
    | _ =>
      simp only [Value.unlocated]
      exact matches_pure ⟨by simp [Value.unlocated], hv.positioned⟩

theorem sequenceAt_ignores : ∀ levels, ListIgnores (m.sequenceAt levels)
  | 0 => fun _ _ _ => matches_fail _
  | levels + 1 => chargeElements_ignores (nodeAt_ignores levels)

theorem innerSequenceAt_ignores : ∀ levels, ListIgnores (m.innerSequenceAt levels)
  | 0 => fun _ _ _ => matches_fail _
  | levels + 1 => sequenceAt_ignores levels

end

end Instrumenter
/-! ## Compilations -/

namespace Metered

variable {α β : Type} {R : α → β → Prop} {x : Metered α} {y : Metered β} {l : Ledger}

theorem Matches.yields {a : α} (h : Matches R x y) (hx : x.Yields l a) :
    ∃ l' b, y.Yields l' b ∧ R a b ∧ l'.unlined = l.unlined := by
  cases hx
  obtain ⟨l', outcome⟩ := y
  have hm : Parallel R ⟨l.unlined, .ok a⟩ ⟨l'.unlined, outcome⟩ := h
  generalize hu : l'.unlined = u at hm
  cases hm with
  | ok hab => exact ⟨l', _, rfl, hab, hu⟩

theorem Matches.yields_left {b : β} (h : Matches R x y) (hy : y.Yields l b) :
    ∃ l' a, x.Yields l' a ∧ R a b ∧ l.unlined = l'.unlined := by
  cases hy
  obtain ⟨l', outcome⟩ := x
  have hm : Parallel R ⟨l'.unlined, outcome⟩ ⟨l.unlined, .ok b⟩ := h
  generalize hu : l'.unlined = u at hm
  cases hm with
  | ok hab => exact ⟨l', _, rfl, hab, hu.symm⟩

end Metered

/-- The second compilation is the first one without positions, and its charges differ in nothing
but lines. -/
structure Compilation.Unlocates (c c' : Compilation) : Prop where
  tree : c'.tree = c.tree.unlocated
  charges : c'.charges.map Charge.unlined = c.charges.map Charge.unlined
  total : c'.totalGamma = c.totalGamma
  warnings : c'.warnings = c.warnings

theorem totalGamma_unlined (charges : List Charge) :
    totalGamma (charges.map Charge.unlined) = totalGamma charges := by
  rw [totalGamma, totalGamma, List.map_map]
  rfl

theorem Compilation.unlocates_of_unlined {c c' : Compilation} (ht : c'.tree = c.tree.unlocated)
    (hl : Ledger.unlined ⟨c'.warnings, c'.charges⟩ = Ledger.unlined ⟨c.warnings, c.charges⟩) :
    c.Unlocates c' := by
  simp only [Ledger.unlined, Ledger.mk.injEq] at hl
  obtain ⟨hw, hc⟩ := hl
  refine ⟨ht, hc, ?_, hw⟩
  rw [totalGamma, totalGamma, ← totalGamma_unlined, hc, totalGamma_unlined]

/-- The same settings with a ceiling so much higher. -/
def Settings.deeper (settings : Settings) (more : Nat) : Settings :=
  { settings with maxTreeDepth := settings.maxTreeDepth + more }

theorem Instrumenter.deepens_deeper (settings : Settings) (more : Nat) (strict : Bool) :
    (settings.instrumenter strict).Deepens ((settings.deeper more).instrumenter strict) more where
  call := rfl
  strict := rfl
  pricing := Int.le_add_of_nonneg_right (Int.natCast_nonneg more)
  walk := rfl

/-- **Positions are inert**: what compiles with positions compiles without them, to the same tree
without positions, with the same amounts, labels, total and warnings. What compiles without them
compiles so with them below a ceiling two levels higher, since only renaming counts positions as
levels: it, too, accepts a tree without them where it accepts the tree, and the tree two levels
above where it accepts it without them. -/
theorem positions_are_inert {parse parse' : Parser} {settings : Settings}
    {options : CompileOptions} {source : String} {tree : Value}
    (hp : parse true source = .ok tree) (hp' : parse' true source = .ok tree.unlocated)
    (hv : tree.Legible) :
    (∀ result, (compile parse settings options source).outcome = .ok result →
      ∃ result', (compile parse' settings options source).outcome = .ok result' ∧
        result.Unlocates result') ∧
    (∀ result', (compile parse' settings options source).outcome = .ok result' →
      ∃ result, (compile parse (settings.deeper 2) options source).outcome = .ok result ∧
        result.Unlocates result') ∧
    (∀ renamed, settings.sanitizer.sanitize 0 tree = .ok renamed →
      settings.sanitizer.sanitize 0 tree.unlocated = .ok renamed.unlocated) ∧
    (∀ renamed', settings.sanitizer.sanitize 0 tree.unlocated = .ok renamed' →
      ∃ renamed, (settings.deeper 2).sanitizer.sanitize 0 tree = .ok renamed ∧
        renamed.unlocated = renamed') := by
  have hmatches (m : Instrumenter) := Instrumenter.nodeAt_ignores (m := m)
    (levelsLeft m.maxDepth 0) (Sanitizer.legible_renamed (s := settings.sanitizer) hv)
  refine ⟨fun result h => ?_, fun result' h => ?_, fun renamed h => ?_, fun renamed' h => ?_⟩
  · obtain ⟨hlarge, ha, hy⟩ := (compile_ok_iff hp).mp h
    obtain ⟨l, out, hy', ⟨ht, -⟩, hl⟩ := (hmatches _).yields hy
    rw [← Sanitizer.renamed_unlocated ha] at hy'
    refine ⟨⟨out, l.charges, l.warnings⟩, (compile_ok_iff hp').mpr
      ⟨hlarge, Sanitizer.accepts_unlocated ha, hy'⟩, Compilation.unlocates_of_unlined ht hl⟩
  · obtain ⟨hlarge, ha', hy'⟩ := (compile_ok_iff hp').mp h
    have ha := Sanitizer.accepts_of_unlocated hv.positioned ha'
    have hs := Sanitizer.sanitize_withCeiling (Sanitizer.pos_of_accepts ha') ha
    rw [Sanitizer.renamed_unlocated ha] at hy'
    obtain ⟨l, out, hy, ⟨ht, -⟩, hl⟩ := (hmatches _).yields_left hy'
    -- a walk that a lower ceiling does not stop is the same below a higher one
    have hdeep := (Instrumenter.node_deepened (Instrumenter.deepens_deeper settings 2 _) 0
      (settings.sanitizer.renamed tree)).yields hy
    refine ⟨⟨out, l.charges, l.warnings⟩, (compile_ok_iff hp).mpr ⟨hlarge, ?_, ?_⟩,
      Compilation.unlocates_of_unlined ht hl⟩
    · exact (Sanitizer.sanitizeAt_eq_ok_iff.mp hs).1
    · have hr : (settings.deeper 2).sanitizer.renamed tree = settings.sanitizer.renamed tree :=
        Sanitizer.renamed_withCeiling settings.sanitizer _ tree
      rw [hr]
      exact hdeep
  · obtain ⟨ha, rfl⟩ := Sanitizer.sanitizeAt_eq_ok_iff.mp h
    exact Sanitizer.sanitizeAt_eq_ok_iff.mpr
      ⟨Sanitizer.accepts_unlocated ha, (Sanitizer.renamed_unlocated ha).symm⟩
  · obtain ⟨ha', rfl⟩ := Sanitizer.sanitizeAt_eq_ok_iff.mp h
    have ha := Sanitizer.accepts_of_unlocated hv.positioned ha'
    exact ⟨_, Sanitizer.sanitize_withCeiling (Sanitizer.pos_of_accepts ha') ha,
      (Sanitizer.renamed_unlocated ha).symm⟩

namespace Sample

/-- A position on the first line. -/
def position : Value :=
  .record [("start", .record [("line", .int 1), ("column", .int 0)]),
    ("end", .record [("line", .int 1), ("column", .int 1)])]

def locatedEmpty : Value :=
  Value.node "EmptyStatement" [("loc", position)]

/-- The program `;` with its positions. -/
def locatedProgram : Value :=
  Value.node "Program" [("body", .list [locatedEmpty]), ("loc", position)]

/-- A program with a located statement for its list. -/
def statementForList : Value :=
  Value.node "Program" [("body", locatedEmpty)]

end Sample

theorem positions_are_inert_of_locatedProgram :
    ∃ result result',
      (compile (fun _ _ => .ok Sample.locatedProgram) {} {} ";").outcome = .ok result ∧
      (compile (fun _ _ => .ok Sample.locatedProgram.unlocated) {} {} ";").outcome = .ok result' ∧
      result.Unlocates result' := by
  have hv : Sample.locatedProgram.Legible := ⟨rfl, rfl⟩
  have h := @positions_are_inert (fun _ _ => .ok Sample.locatedProgram)
    (fun _ _ => .ok Sample.locatedProgram.unlocated) {} {} ";" _ rfl rfl hv
  have hr : (compile (fun _ _ => .ok Sample.locatedProgram) {} {} ";").outcome = .ok _ := rfl
  obtain ⟨result', hr', hu⟩ := h.1 _ hr
  exact ⟨_, result', hr, hr', hu⟩

/-- Where a statement stands for a list, the list that is read is one of field names, and its
position is one of them: with it there are two charges, and without it there is one. -/
theorem statementForList_shows_position :
    Sample.statementForList.Positioned ∧
      ¬ ∀ result,
        (compile (fun _ _ => .ok Sample.statementForList) {} {} ";").outcome = .ok result →
          ∃ result', (compile (fun _ _ => .ok Sample.statementForList.unlocated) {} {}
              ";").outcome = .ok result' ∧ result.Unlocates result' := by
  refine ⟨rfl, fun h => ?_⟩
  obtain ⟨result', hr', hu⟩ := h _ rfl
  cases hr'
  have hw := congrArg List.length hu.warnings
  exact absurd hw (by decide)

end ContractMeter
