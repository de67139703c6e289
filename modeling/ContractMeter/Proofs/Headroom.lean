import ContractMeter.Proofs.Acceptance
import ContractMeter.Proofs.Avoidance
import ContractMeter.Proofs.PriceFault

/-!
# ContractMeter.Proofs.Headroom

One ceiling for renaming, and how high those of the other passes have to be beside it.

* `Metered.Unstopped` — a run that no ceiling stops.
* `Value.fits` — how many levels a tree has; an accepted tree has no more than it was let have.
* `gammaAt_unstopped` — a price needs no more levels than its node has.
* `Roomy`, `nodeAt_unstopped` — a walk needs one more where bodies are blocks, and up to three
  times as many where they are not, since a bare body gets a block and a list around it.
-/

namespace ContractMeter

open Instrumenter (block loopBody)

/-- A run that does not end at a ceiling. -/
def Metered.Unstopped {α : Type} (x : Metered α) : Prop :=
  x.Avoids Rejection.isTooDeep

open Metered

/-! ## How deep a tree is -/

namespace Value

/-- Whether a record is an identifier or a member access. -/
def isName (fields : Fields) : Bool :=
  (record fields).hasKind "Identifier" || (record fields).hasKind "MemberExpression"

/-- Whether a value has no more than so many levels, where names have one. -/
def fits : Nat → Value → Bool
  | 0, _ => false
  | levels + 1, .list items => items.all (fits levels)
  | levels + 1, .record fields => isName fields || fields.all fun field => fits levels field.2
  | _ + 1, _ => true

section Fits

variable {v w : Value} {fields : Fields} {key : String} {n : Nat}

theorem pos_of_fits (h : v.fits n = true) : 0 < n := by
  cases n with
  | zero => cases h
  | succ n => exact Nat.succ_pos n

theorem fits_null (h : 0 < n) : null.fits n = true := by
  obtain ⟨k, rfl⟩ : ∃ k, n = k + 1 := ⟨n - 1, by omega⟩
  rfl

theorem fits_item {items : List Value} (h : (list items).fits n = true) (hv : v ∈ items) :
    v.fits (n - 1) = true := by
  cases n with
  | zero => cases h
  | succ n => exact List.all_eq_true.mp h v hv

theorem fits_get? (h : (record fields).fits n = true) (hn : isName fields = false)
    (hw : Fields.get? fields key = some w) : w.fits (n - 1) = true := by
  cases n with
  | zero => cases h
  | succ n =>
    rw [fits, hn, Bool.false_or] at h
    exact List.all_eq_true.mp h (key, w) (Fields.mem_of_get? hw)

theorem fits_get (h : (record fields).fits n = true) (hn : isName fields = false)
    (hpos : 0 < n - 1) : (Fields.get fields key).fits (n - 1) = true :=
  get_of (P := fun w => w.fits (n - 1) = true) (fits_null hpos) fun _ hw => fits_get? h hn hw

end Fits

end Value

namespace Sanitizer

variable {s : Sanitizer}

theorem isName_renamedRecord (fields : Fields) :
    Value.isName (s.renamedRecord fields) = Value.isName fields := by
  have hk := s.hasKind_renamed (.record fields)
  simp only [renamed_record] at hk
  rw [Value.isName, Value.isName, hk, hk]

/-- An accepted tree has no more levels than it was let have. -/
theorem fits_renamed {levels : Nat} {v : Value} (h : s.accepts levels v = true) :
    (s.renamed v).fits levels = true := by
  induction levels generalizing v with
  | zero => cases h
  | succ levels ih =>
    cases v with
    | list items =>
      rw [accepts, List.all_eq_true] at h
      rw [renamed_list, renamedItems_eq_map, Value.fits, List.all_map, List.all_eq_true]
      exact fun v hv => ih (h v hv)
    | record fields =>
      rw [renamed_record, Value.fits, isName_renamedRecord]
      by_cases hn : Value.isName fields = true
      · rw [hn, Bool.true_or]
      · rw [Value.isName, Bool.or_eq_true, not_or] at hn
        obtain ⟨hi, hm⟩ := hn
        have he : s.exempts fields = false := by simp [exempts, hm]
        have he' : s.enters fields = true := by simp [enters, he, hi]
        rw [accepts, if_neg hi, he, Bool.false_or, List.all_eq_true] at h
        rw [renamedRecord_of_enters he', renamedFields_eq_map, List.all_map, Bool.or_eq_true]
        exact .inr (List.all_eq_true.mpr fun field hf => ih (h field hf))
    | _ => simp [renamed, Value.fits]

end Sanitizer

/-! ## Prices -/

namespace Pricing

variable {p : Pricing} {v : Value}

theorem ofKind_typeName (v : Value) : PriceRule.ofKind v.typeName = .unpriced := by
  unfold Value.typeName
  split <;> decide

/-- Only records that are no names are priced by their parts. -/
theorem record_of_parts {name : String} (hn : name ∈ (PriceRule.ofValue v).parts) :
    ∃ fields kind, v = .record fields ∧ Fields.get? fields "type" = some (.text kind) ∧
      Value.isName fields = false := by
  unfold PriceRule.ofValue Value.kind at hn
  cases ht : v.field? "type" with
  | none =>
    rw [ht, Option.getD_none] at hn
    simp [ofKind_typeName, PriceRule.parts] at hn
  | some kind =>
    rw [ht, Option.getD_some] at hn
    cases v with
    | record fields =>
      cases kind with
      | text kind =>
        refine ⟨fields, kind, rfl, ht, Bool.eq_false_iff.mpr fun hname => ?_⟩
        rw [Value.isName, Bool.or_eq_true, Value.hasKind_iff, Value.hasKind_iff, ht] at hname
        rcases hname with e | e
        · cases e
          have hn : name ∈ ([] : List String) := hn
          cases hn
        · cases e
          have hn : name ∈ ([] : List String) := hn
          cases hn
      | _ => exact absurd hn (by simp [PriceRule.parts])
    | _ => cases ht

theorem gammaAt_null_unstopped {levels : Nat} (h : 0 < levels) :
    (p.gammaAt levels .null).Unstopped := by
  obtain ⟨k, rfl⟩ : ∃ k, levels = k + 1 := ⟨levels - 1, by omega⟩
  exact unpriced_avoids Rejection.isTooDeep_of_isUnpriced _

theorem gammaAt_nil_unstopped {levels : Nat} (h : 0 < levels) :
    (p.gammaAt levels (.list [])).Unstopped := by
  obtain ⟨k, rfl⟩ : ∃ k, levels = k + 1 := ⟨levels - 1, by omega⟩
  exact avoids_pure _

/-- A rule ends at no ceiling if the prices of the parts that it reads do not. -/
theorem byRule_unstopped {price : Value → Metered Nat} (rule : PriceRule) {node : Value}
    (h : ∀ name ∈ rule.parts, (∀ part, node.field? name = some part → (price part).Unstopped) ∧
      (price .null).Unstopped ∧ (price (.list [])).Unstopped) :
    (p.byRule price rule node).Unstopped := by
  have hbad : ∀ {reason : Rejection}, reason.isUnpriced = true → reason.isTooDeep = false :=
    Rejection.isTooDeep_of_isUnpriced
  have hfield {name : String} (hn : name ∈ rule.parts) : (price (node.field name)).Unstopped := by
    obtain ⟨hp, hnull, -⟩ := h name hn
    unfold Value.field
    cases hf : node.field? name with
    | none => exact hnull
    | some part => exact hp part hf
  cases rule with
  | free => exact avoids_pure _
  | operator => exact (required_avoids node _).bind fun _ _ _ => settled_operator_avoids hbad _
  | expression =>
    simp only [byRule, required]
    cases he : node.field? "expression" with
    | none => exact avoids_fault _
    | some inner => exact (h "expression" (by decide)).1 inner he
  | argument => exact optional_avoids (hfield (by decide))
  | declarations =>
    obtain ⟨hp, -, hnil⟩ := h "declarations" (by decide)
    simp only [byRule]
    cases hd : node.field? "declarations" with
    | none => exact hnil
    | some declarations => exact hp declarations hd
  | declarator => exact initial_avoids hbad (hfield (by decide))
  | assignment =>
    exact (hfield (by decide)).bind fun _ _ _ => (assignedOperator_avoids hbad _).bind
      fun _ _ _ => avoids_pure _
  | test => exact optional_avoids (hfield (by decide))
  | testAndInit =>
    exact (optional_avoids (hfield (by decide))).bind fun _ _ _ =>
      (optional_avoids (hfield (by decide))).bind fun _ _ _ => avoids_pure _
  | unpriced => exact unpriced_avoids hbad _

/-- A price that may go as deep as its node does ends at no ceiling. -/
theorem gammaAt_unstopped {n levels : Nat} (h : v.fits n = true) (hl : n ≤ levels) :
    (p.gammaAt levels v).Unstopped := by
  induction n generalizing levels v with
  | zero => cases h
  | succ n ih =>
    obtain ⟨levels, rfl⟩ : ∃ k, levels = k + 1 := ⟨levels - 1, by omega⟩
    by_cases hv : ∃ items, v = .list items
    · obtain ⟨items, rfl⟩ := hv
      exact sumOf_avoids fun item hm => ih (Value.fits_item h hm) (by omega)
    · rw [gammaAt_succ fun items e => hv ⟨items, e⟩]
      split
      · rename_i kind hk
        refine byRule_unstopped _ fun name hn => ?_
        have hr : PriceRule.ofValue v = PriceRule.ofKind kind := by rw [PriceRule.ofValue, hk]
        obtain ⟨fields, _, rfl, ht, hname⟩ := record_of_parts (hr ▸ hn)
        have hpos := Value.pos_of_fits (Value.fits_get? h hname ht)
        exact ⟨fun part hp => ih (Value.fits_get? h hname hp) (by omega),
          gammaAt_null_unstopped (by omega), gammaAt_nil_unstopped (by omega)⟩
      · split
        · exact unpriced_avoids Rejection.isTooDeep_of_isUnpriced _
        · exact avoids_fault _

end Pricing

/-! ## Regular trees -/

namespace Value

/-- Whether the cases of a record, if it is a `switch`, are nodes of their kind. -/
def holdsSwitchCases (fields : Fields) : Bool :=
  (record fields).container != .switch ||
    (Fields.get fields "cases").items.all fun c => c.hasKind "SwitchCase"

def isBlockOrNull : Value → Bool
  | .null => true
  | v => v.hasKind "BlockStatement"

/-- Whether the bodies and branches that a record runs are blocks or missing. -/
def holdsBlocks (fields : Fields) : Bool :=
  match (record fields).container with
  | .loop => (loopBody fields).isBlockOrNull
  | .statementBody => (Fields.get fields "body").isBlockOrNull
  | .branch =>
    (Fields.get fields "consequent").isBlockOrNull && (Fields.get fields "alternate").isBlockOrNull
  | _ => true

/-- A tree as a parser yields it, which is `braced` if bodies and branches are blocks. -/
structure Regular (braced : Bool) (v : Value) : Prop where
  lists : v.listShaped = true
  cases : v.everywhere holdsSwitchCases = true
  blocks : braced = true → v.everywhere holdsBlocks = true

section Regular

variable {braced : Bool} {v w : Value} {fields : Fields}

theorem Regular.child? {edge : Edge} (h : v.Regular braced) (hw : v.child? edge = some w) :
    w.Regular braced :=
  ⟨everywhere_child? h.lists hw, everywhere_child? h.cases hw,
    fun hb => everywhere_child? (h.blocks hb) hw⟩

theorem Regular.item {items : List Value} (h : (list items).Regular braced) (hv : v ∈ items) :
    v.Regular braced := by
  obtain ⟨i, hi⟩ := List.mem_iff_getElem?.mp hv
  have hc : (list items).child? (.item i) = some v := hi
  exact h.child? hc

theorem Regular.get (h : (record fields).Regular braced) (key : String) :
    (Fields.get fields key).Regular braced := by
  refine get_of ⟨rfl, rfl, fun _ => rfl⟩ fun w hw => ?_
  have hc : (record fields).child? (.field key) = some w := hw
  exact h.child? hc

theorem Regular.switchCases {cases : List Value} (h : (record fields).Regular braced)
    (hc : (record fields).container = .switch)
    (hw : Fields.get? fields "cases" = some (.list cases)) :
    ∀ c ∈ cases, c.hasKind "SwitchCase" = true := by
  have hch := check_of_everywhere h.cases
  rw [holdsSwitchCases, hc, Fields.get_of_get? hw] at hch
  exact List.all_eq_true.mp (by simpa [Value.items] using hch)

theorem Regular.holdsBlocks (h : (record fields).Regular true) : holdsBlocks fields = true :=
  check_of_everywhere (h.blocks rfl)

end Regular

end Value

namespace Sanitizer

variable {s : Sanitizer}

theorem isBlockOrNull_renamed (v : Value) : (s.renamed v).isBlockOrNull = v.isBlockOrNull := by
  by_cases hn : v = .null
  · rw [hn, renamed_null]
  · have hn' : s.renamed v ≠ .null := mt s.renamed_eq_null_iff.mp hn
    have hb : ∀ w : Value, w ≠ .null → w.isBlockOrNull = w.hasKind "BlockStatement" := by
      intro w hw
      cases w <;> first | contradiction | rfl
    rw [hb _ hn, hb _ hn', hasKind_renamed]

theorem holdsSwitchCases_renamedRecord (fields : Fields) :
    Value.holdsSwitchCases (s.renamedRecord fields) = Value.holdsSwitchCases fields := by
  have hc := s.container_renamed (.record fields)
  rw [renamed_record] at hc
  have hk : ∀ c, (s.within fields c).hasKind "SwitchCase" = c.hasKind "SwitchCase" := fun c =>
    within_congr (f := fun v => v.hasKind "SwitchCase") (hasKind_renamed c _)
  rw [Value.holdsSwitchCases, Value.holdsSwitchCases, hc, get_renamedRecord (by decide),
    items_within, List.all_map]
  simp only [Function.comp_def, hk]

theorem holdsBlocks_renamedRecord (fields : Fields) :
    Value.holdsBlocks (s.renamedRecord fields) = Value.holdsBlocks fields := by
  have hc := s.container_renamed (.record fields)
  rw [renamed_record] at hc
  have hb : ∀ v, (s.within fields v).isBlockOrNull = v.isBlockOrNull := fun v =>
    within_congr (isBlockOrNull_renamed v)
  simp only [Value.holdsBlocks, hc, loopBody_renamedRecord, hb,
    get_renamedRecord (by decide : "body" ≠ "name"),
    get_renamedRecord (by decide : "consequent" ≠ "name"),
    get_renamedRecord (by decide : "alternate" ≠ "name")]

theorem regular_renamed {braced : Bool} {v : Value} (h : v.Regular braced) :
    (s.renamed v).Regular braced where
  lists := listShaped_renamed h.lists
  cases := everywhere_renamed (fun fields hf => (holdsSwitchCases_renamedRecord fields).trans hf)
    v h.cases
  blocks := fun hb => everywhere_renamed
    (fun fields hf => (holdsBlocks_renamedRecord fields).trans hf) v (h.blocks hb)

end Sanitizer

/-! ## Room for a walk -/

/-- So many levels are enough to walk over a value that has `n`. A walk needs one level more for
what a loop spends on a pass, and two levels more for each body that is no block. -/
def Roomy (braced : Bool) (n levels : Nat) : Prop :=
  if braced then n < levels else 3 * n ≤ levels + 2

/-- A walk that may go down so many levels has room for a value. -/
structure HasRoom (braced : Bool) (levels : Nat) (v : Value) : Prop where
  regular : v.Regular braced
  fits : ∃ n, v.fits n = true ∧ Roomy braced n levels

/-- Whether a record is a node whose parts count as levels. -/
def Value.holdsParts (fields : Fields) : Bool :=
  (Fields.get? fields "type").isSome && !isName fields

section Room

variable {braced : Bool} {levels levels' : Nat} {v : Value} {fields : Fields} {key : String}

theorem Value.holdsParts_of_hasKind {kind : String} (h : (record fields).hasKind kind = true)
    (hi : kind ≠ "Identifier") (hm : kind ≠ "MemberExpression") :
    holdsParts fields = true := by
  have ht : Fields.get? fields "type" = some (.text kind) := hasKind_iff.mp h
  rw [holdsParts, isName, ht, hasKind_of_ne h hi, hasKind_of_ne h hm]
  rfl

theorem Value.holdsParts_of_container (h : (record fields).container ≠ .leaf) :
    holdsParts fields = true := by
  by_cases hk : ∃ kind, (record fields).hasKind kind = true
  · obtain ⟨kind, hk⟩ := hk
    rw [container_of_hasKind hk] at h
    refine holdsParts_of_hasKind hk ?_ ?_
    · rintro rfl
      exact h rfl
    · rintro rfl
      exact h rfl
  · simp only [not_exists, Bool.not_eq_true] at hk
    exact absurd (container_of_not_hasKind hk) h

theorem Roomy.mono {n : Nat} (h : Roomy braced n levels) (hl : levels ≤ levels') :
    Roomy braced n levels' := by
  unfold Roomy at h ⊢
  split at h <;> split <;> first | contradiction | omega

theorem HasRoom.mono (h : HasRoom braced levels v) (hl : levels ≤ levels') :
    HasRoom braced levels' v := by
  obtain ⟨n, hf, hr⟩ := h.fits
  exact ⟨h.regular, n, hf, hr.mono hl⟩

/-- What has room to be walked over has room to be priced. -/
theorem HasRoom.fits_le (h : HasRoom braced levels v) : ∃ n, v.fits n = true ∧ n ≤ levels := by
  obtain ⟨n, hf, hr⟩ := h.fits
  have hpos := Value.pos_of_fits hf
  refine ⟨n, hf, ?_⟩
  unfold Roomy at hr
  split at hr <;> omega

theorem HasRoom.item {items : List Value} (h : HasRoom braced levels (.list items))
    (hv : v ∈ items) : HasRoom braced (levels - 1) v := by
  obtain ⟨n, hf, hr⟩ := h.fits
  have hpos := Value.pos_of_fits hf
  have hi := Value.fits_item hf hv
  have hposi := Value.pos_of_fits hi
  refine ⟨h.regular.item hv, n - 1, hi, ?_⟩
  unfold Roomy at hr ⊢
  split at hr <;> split <;> first | contradiction | omega

/-- The levels of a node with parts, and those of its parts. -/
theorem HasRoom.inside (h : HasRoom braced (levels + 1) (.record fields))
    (hp : Value.holdsParts fields = true) :
    ∃ n, 0 < n ∧ Roomy braced (n + 1) (levels + 1) ∧
      ∀ key, (Fields.get fields key).fits n = true := by
  obtain ⟨n, hf, hr⟩ := h.fits
  rw [Value.holdsParts, Bool.and_eq_true, Bool.not_eq_true', Option.isSome_iff_exists] at hp
  obtain ⟨⟨kind, ht⟩, hn⟩ := hp
  have hpos := Value.pos_of_fits (Value.fits_get? hf hn ht)
  refine ⟨n - 1, hpos, ?_, fun key => Value.fits_get hf hn hpos⟩
  rwa [show n - 1 + 1 = n by omega]

theorem HasRoom.part (h : HasRoom braced (levels + 1) (.record fields))
    (hp : Value.holdsParts fields = true) (key : String) :
    HasRoom braced levels (Fields.get fields key) := by
  obtain ⟨n, hpos, hr, hf⟩ := h.inside hp
  refine ⟨h.regular.get key, n, hf key, ?_⟩
  unfold Roomy at hr ⊢
  split at hr <;> split <;> first | contradiction | omega

theorem HasRoom.one_lt (h : HasRoom braced (levels + 1) (.record fields))
    (hp : Value.holdsParts fields = true) : 1 < levels := by
  obtain ⟨n, hpos, hr, -⟩ := h.inside hp
  unfold Roomy at hr
  split at hr <;> omega

/-- A part that is no block has room two levels further down. -/
theorem HasRoom.bare (h : HasRoom false (levels + 1) (.record fields))
    (hp : Value.holdsParts fields = true) (key : String) :
    HasRoom false (levels - 2) (Fields.get fields key) := by
  obtain ⟨n, hpos, hr, hf⟩ := h.inside hp
  refine ⟨h.regular.get key, n, hf key, ?_⟩
  simp only [Roomy, Bool.false_eq_true, if_false] at hr ⊢
  omega

/-- What a loop spends on a pass is priced one level further down than its parts. -/
theorem HasRoom.pass (h : HasRoom braced (levels + 1) (.record fields))
    (hp : Value.holdsParts fields = true) (key : String) :
    ∃ n, (Fields.get fields key).fits n = true ∧ n < levels := by
  obtain ⟨n, hpos, hr, hf⟩ := h.inside hp
  refine ⟨n, hf key, ?_⟩
  unfold Roomy at hr
  split at hr <;> omega

/-- The items of a list in a field, which may be missing. -/
theorem HasRoom.listed {items : List Value} (h : HasRoom braced (levels + 1) (.record fields))
    (hp : Value.holdsParts fields = true)
    (hl : (Fields.get? fields key).getD (.list []) = .list items) :
    ∀ item ∈ items, HasRoom braced (levels - 1) item := by
  intro item hi
  cases hw : Fields.get? fields key with
  | none =>
    rw [hw] at hl
    cases hl
    cases hi
  | some w =>
    rw [hw, Option.getD_some] at hl
    have hr := h.part hp key
    rw [Fields.get_of_get? hw, hl] at hr
    exact hr.item hi

end Room

/-! ## Walks -/

namespace Instrumenter

variable {m : Instrumenter} {braced : Bool} {levels : Nat} {start : Int}
  {node sequence inner : Value → Metered Value} {fields : Fields} {v v' : Value} {l : Ledger}

/-- A walk over nodes that no ceiling stops where there is room. -/
def NodeRuns (braced : Bool) (levels : Nat) (node : Value → Metered Value) : Prop :=
  ∀ ⦃v : Value⦄, HasRoom braced levels v → (node v).Unstopped

/-- A walk over lists that no ceiling stops where there is room for the items. -/
def ListRuns (braced : Bool) (levels : Nat) (list : Value → Metered Value) : Prop :=
  ∀ ⦃items : List Value⦄, (∀ item ∈ items, HasRoom braced levels item) →
    (list (.list items)).Unstopped

theorem charged_unstopped (hv : HasRoom braced levels v) (h : Instrumented m start v v' l)
    (hl : levels ≤ levelsLeft m.pricing.maxDepth 0) : (m.charged v').Unstopped := by
  unfold charged
  split
  · exact avoids_pure _
  · have hg : m.pricing.gammaFor 0 v' = m.pricing.gammaFor 0 v := h.gammaAt_eq _ _
    obtain ⟨n, hf, hn⟩ := hv.fits_le
    rw [hg]
    exact (Pricing.gammaAt_unstopped hf (Nat.le_trans hn hl)).bind fun _ _ _ =>
      (recordCharge_avoids _ _ _).bind fun _ _ _ => avoids_pure _

theorem chargeElements_unstopped (hs : SoundNode m start node) (hn : NodeRuns braced levels node)
    (hl : levels ≤ levelsLeft m.pricing.maxDepth 0) :
    ListRuns braced levels (m.chargeElements node) := by
  intro items h
  have he : (m.chargeEach node items).Unstopped := by
    induction items with
    | nil => exact avoids_pure _
    | cons item rest ih =>
      obtain ⟨hi, hr⟩ := List.forall_mem_cons.mp h
      exact (hn hi).bind fun _ _ hy => (charged_unstopped hi (hs hy) hl).bind fun _ _ _ =>
        (ih hr).map
  refine (avoids_ofExcept _).bind fun _ _ hy => ?_
  obtain ⟨hy, -⟩ := yields_ofExcept.mp hy
  cases hy
  exact he.bind fun _ _ _ => avoids_pure _

section Parts

variable (hn : NodeRuns braced levels node) (hs : ListRuns braced (levels - 1) sequence)
  (hi : ListRuns braced (levels - 2) inner)

include hn hi in
theorem statementPart_unstopped {key : String}
    (hr : HasRoom braced (levels + 1) (.record fields)) (hp : Value.holdsParts fields = true)
    (hb : braced = true → (Fields.get fields key).isBlockOrNull = true) :
    (statementPart node inner (Fields.get fields key)).Unstopped := by
  have hpart := hr.part hp key
  by_cases h0 : Fields.get fields key = .null
  · rw [h0] at hpart ⊢
    exact hn hpart
  · rw [statementPart_of_ne_null h0]
    by_cases hk : (Fields.get fields key).hasKind "BlockStatement" = true
    · rw [if_pos hk]
      exact hn hpart
    · rw [if_neg hk]
      cases braced with
      | true =>
        -- a braced part is a block
        have hb := hb rfl
        generalize Fields.get fields key = part at h0 hk hb
        cases part with
        | null => exact absurd rfl h0
        | _ => exact absurd hb hk
      | false =>
        have hone : ∀ item ∈ [Fields.get fields key], HasRoom false (levels - 2) item :=
          List.forall_mem_singleton.mpr (hr.bare hp key)
        exact (hi hone).bind fun _ _ _ => avoids_pure _

theorem gammaPerIteration_unstopped {depth : Int}
    (hr : HasRoom braced (levels + 1) (.record fields)) (hp : Value.holdsParts fields = true)
    (hd : levels ≤ levelsLeft m.pricing.maxDepth depth) :
    (m.pricing.gammaPerIteration depth (.record fields)).Unstopped := by
  have hone := hr.one_lt hp
  unfold Pricing.gammaPerIteration
  generalize levelsLeft m.pricing.maxDepth depth = total at hd
  obtain ⟨total, rfl⟩ : ∃ k, total = k + 1 := ⟨total - 1, by omega⟩
  have hpart (key : String) : (m.pricing.gammaAt total (Fields.get fields key)).Unstopped := by
    obtain ⟨n, hf, hlt⟩ := hr.pass hp key
    exact Pricing.gammaAt_unstopped hf (by omega)
  exact (Pricing.optional_avoids (hpart "test")).bind fun _ _ _ =>
    (Pricing.optional_avoids (hpart "update")).bind fun _ _ _ => avoids_pure _

include hn hi in
theorem meterLoop_unstopped {depth : Int} {kind : String}
    (hempty : (node (block (.list []))).Unstopped)
    (hr : HasRoom braced (levels + 1) (.record fields))
    (hc : (Value.record fields).container = .loop)
    (hd : levels ≤ levelsLeft m.pricing.maxDepth depth) :
    (m.meterLoop node inner depth kind fields).Unstopped := by
  have hp : Value.holdsParts fields = true := Value.holdsParts_of_container (by rw [hc]; decide)
  refine (gammaPerIteration_unstopped hr hp hd).bind fun _ _ _ =>
    (recordCharge_avoids _ _ _).bind fun _ _ _ => Avoids.bind ?_ fun _ _ _ => avoids_pure _
  have hb : braced = true → (loopBody fields).isBlockOrNull = true := by
    rintro rfl
    have h := hr.regular.holdsBlocks
    rwa [Value.holdsBlocks, hc] at h
  unfold loopBody at hb ⊢
  dsimp only at hb ⊢
  split
  · rename_i ht
    simp only [if_pos ht] at hb
    exact statementPart_unstopped hn hi hr hp hb
  · exact hempty

include hi in
theorem eachCase_unstopped {cases : List Value}
    (h : ∀ c ∈ cases, HasRoom braced (levels - 1) c ∧ c.hasKind "SwitchCase" = true ∧
      Value.isListOrAbsent (c.field? "consequent") = true) :
    (eachCase inner cases).Unstopped := by
  induction cases with
  | nil => exact avoids_pure _
  | cons c rest ih =>
    obtain ⟨⟨hr, hk, hf⟩, hrest⟩ := List.forall_mem_cons.mp h
    cases c with
    | record fields =>
      have hp := Value.holdsParts_of_hasKind hk (by decide) (by decide)
      obtain ⟨items, hl⟩ := Value.getD_of_isListOrAbsent hf
      have hitems : ∀ item ∈ items, HasRoom braced (levels - 2) item := by
        have hpos := Value.pos_of_fits hr.fits_le.choose_spec.1
        have hle := hr.fits_le.choose_spec.2
        obtain ⟨k, hk'⟩ : ∃ k, levels - 1 = k + 1 := ⟨levels - 2, by omega⟩
        rw [hk'] at hr
        exact fun item hm => (hr.listed hp hl item hm).mono (by omega)
      rw [eachCase, show Fields.get? fields "consequent" =
        (Value.record fields).field? "consequent" from rfl, hl]
      exact (hi hitems).bind fun _ _ _ => (ih hrest).map
    | _ => exact avoids_fault _

include hn hs hi in
theorem parts_unstopped {depth : Int} {kind : String}
    (hempty : 1 < levels → (node (block (.list []))).Unstopped)
    (hr : HasRoom braced (levels + 1) (.record fields))
    (hk : Fields.get? fields "type" = some (.text kind))
    (hd : levels ≤ levelsLeft m.pricing.maxDepth depth) :
    (m.parts node sequence inner depth kind fields).Unstopped := by
  have hc := Value.container_of_kind hk
  have hreg := hr.regular
  unfold parts
  by_cases hleaf : Container.ofKind kind = .leaf
  · rw [hleaf]
    exact avoids_pure _
  have hp : Value.holdsParts fields = true := Value.holdsParts_of_container (hc ▸ hleaf)
  have hpart (key : String) : (node (Fields.get fields key)).Unstopped := hn (hr.part hp key)
  cases hcont : Container.ofKind kind with
  | sequence =>
    rw [hcont] at hc
    obtain ⟨items, hl⟩ := Value.getD_of_isListOrAbsent (Value.isListOrAbsent_body hreg.lists hc)
    dsimp only
    rw [hl]
    exact (hs (hr.listed hp hl)).bind fun _ _ _ => avoids_pure _
  | body | value => exact (hpart _).bind fun _ _ _ => avoids_pure _
  | loop =>
    rw [hcont] at hc
    exact meterLoop_unstopped hn hi (hempty (hr.one_lt hp)) hr hc hd
  | statementBody =>
    rw [hcont] at hc
    refine (statementPart_unstopped hn hi hr hp ?_).bind fun _ _ _ => avoids_pure _
    rintro rfl
    have h := hreg.holdsBlocks
    rwa [Value.holdsBlocks, hc] at h
  | branch =>
    rw [hcont] at hc
    have hb : braced = true → (Fields.get fields "consequent").isBlockOrNull = true ∧
        (Fields.get fields "alternate").isBlockOrNull = true := by
      rintro rfl
      have h := hreg.holdsBlocks
      rwa [Value.holdsBlocks, hc, Bool.and_eq_true] at h
    exact (statementPart_unstopped hn hi hr hp fun h => (hb h).1).bind fun _ _ _ =>
      (statementPart_unstopped hn hi hr hp fun h => (hb h).2).bind fun _ _ _ => avoids_pure _
  | attempt =>
    exact (hpart _).bind fun _ _ _ => (hpart _).bind fun _ _ _ => (hpart _).bind fun _ _ _ =>
      avoids_pure _
  | switch =>
    rw [hcont] at hc
    refine (avoids_ofExcept _).bind fun _ cases hy => ?_
    obtain ⟨hy, -⟩ := yields_ofExcept.mp hy
    obtain ⟨hl, -, hlists⟩ := Value.cases_of_listShaped hreg.lists hc hy
    refine (eachCase_unstopped hi fun c hm => ?_).bind fun _ _ _ => avoids_pure _
    rcases Value.elements_of_isListOrAbsent hl hy with ⟨-, rfl⟩ | hw
    · cases hm
    · have hroom := hr.part hp "cases"
      rw [Fields.get_of_get? hw] at hroom
      exact ⟨hroom.item hm, hreg.switchCases hc hw c hm, hlists c hm⟩
  | leaf => exact absurd hcont hleaf

end Parts

theorem not_hasRoom_zero : ¬ HasRoom braced 0 v := by
  intro h
  obtain ⟨n, hf, hn⟩ := h.fits_le
  have hpos := Value.pos_of_fits hf
  omega

theorem nodeAt_emptyBlock_unstopped (hl : 1 < levels) :
    (m.nodeAt levels (block (.list []))).Unstopped := by
  obtain ⟨k, rfl⟩ : ∃ k, levels = k + 2 := ⟨levels - 2, by omega⟩
  exact fun _ h => nomatch h

mutual

/-- No ceiling stops a walk that has room, if the ceiling of prices is at least as high. -/
theorem nodeAt_unstopped (hd : m.maxDepth ≤ m.pricing.maxDepth) : ∀ levels,
    levels ≤ levelsLeft m.maxDepth 0 → NodeRuns braced levels (m.nodeAt levels)
  | 0, _ => fun _ h => absurd h not_hasRoom_zero
  | levels + 1, hl => by
    intro v hv
    cases v with
    | record fields =>
      rw [nodeAt]
      split
      · exact avoids_pure _
      · rename_i kind hk
        -- prices of a pass start at the depth of the parts, where as many levels are left
        have hdepth : levels ≤ levelsLeft m.pricing.maxDepth (m.maxDepth - levels + 1) := by
          unfold levelsLeft
          omega
        by_cases hleaf : (Value.record fields).container = .leaf
        · rw [Value.container_of_kind hk] at hleaf
          rw [parts, hleaf]
          exact avoids_pure _
        · have hone := hv.one_lt (Value.holdsParts_of_container hleaf)
          exact parts_unstopped (nodeAt_unstopped hd levels (by omega))
            (sequenceAt_unstopped hd levels (by omega) (by omega))
            (innerSequenceAt_unstopped hd levels (by omega) hone)
            nodeAt_emptyBlock_unstopped hv hk hdepth
      · split
        · exact avoids_pure _
        · exact avoids_fault _
    | _ => exact avoids_pure _

theorem sequenceAt_unstopped (hd : m.maxDepth ≤ m.pricing.maxDepth) : ∀ levels,
    levels ≤ levelsLeft m.maxDepth 0 → 0 < levels →
      ListRuns braced (levels - 1) (m.sequenceAt levels)
  | 0, _, h => absurd h (Nat.lt_irrefl 0)
  | levels + 1, hl, _ => by
    have hp : levels ≤ levelsLeft m.pricing.maxDepth 0 := by
      unfold levelsLeft at hl ⊢
      omega
    exact chargeElements_unstopped (nodeAt_sound levels (Int.le_refl _))
      (nodeAt_unstopped hd levels (by omega)) hp

theorem innerSequenceAt_unstopped (hd : m.maxDepth ≤ m.pricing.maxDepth) : ∀ levels,
    levels ≤ levelsLeft m.maxDepth 0 → 1 < levels →
      ListRuns braced (levels - 2) (m.innerSequenceAt levels)
  | 0, _, h => absurd h (by decide)
  | levels + 1, hl, h => sequenceAt_unstopped hd levels (by omega) (by omega)

end

theorem node_unstopped (hd : m.maxDepth ≤ m.pricing.maxDepth)
    (h : HasRoom braced (levelsLeft m.maxDepth 0) v) : (m.node 0 v).Unstopped :=
  nodeAt_unstopped hd _ (Nat.le_refl _) h

theorem statements_unstopped (hd : m.maxDepth ≤ m.pricing.maxDepth)
    (h : HasRoom braced (levelsLeft m.maxDepth 0) v) : (m.statements v).Unstopped := by
  cases v with
  | list items =>
    obtain ⟨n, hf, hn⟩ := h.fits_le
    have hpos := Value.pos_of_fits hf
    exact sequenceAt_unstopped hd _ (Nat.le_refl _) (by omega) fun item hi => h.item hi
  | _ => exact node_unstopped hd h

end Instrumenter

/-- **One ceiling, three passes.** A regular tree that renaming accepts is walked over and priced
below ceilings three times as high, also as a list of statements; where bodies and branches are
blocks, ceilings one level higher suffice. -/
theorem accepted_trees_have_headroom {s : Sanitizer} {m : Instrumenter} {tree renamed : Value}
    (hv : tree.Regular false) (hs : s.sanitize 0 tree = .ok renamed)
    (hp : m.maxDepth ≤ m.pricing.maxDepth) :
    (3 * s.maxDepth ≤ m.maxDepth →
      (m.node 0 renamed).Unstopped ∧ (m.statements renamed).Unstopped) ∧
    (tree.everywhere Value.holdsBlocks = true → s.maxDepth + 1 ≤ m.maxDepth →
      (m.node 0 renamed).Unstopped ∧ (m.statements renamed).Unstopped) := by
  obtain ⟨ha, rfl⟩ := Sanitizer.sanitizeAt_eq_ok_iff.mp hs
  have hf := Sanitizer.fits_renamed ha
  have hpos := Value.pos_of_fits hf
  constructor
  · intro hd
    have hr : Roomy false (levelsLeft s.maxDepth 0) (levelsLeft m.maxDepth 0) := by
      unfold levelsLeft at hpos
      simp only [Roomy, Bool.false_eq_true, if_false, levelsLeft]
      omega
    have h : HasRoom false _ (s.renamed tree) := ⟨Sanitizer.regular_renamed hv, _, hf, hr⟩
    exact ⟨Instrumenter.node_unstopped hp h, Instrumenter.statements_unstopped hp h⟩
  · intro hb hd
    have hr : Roomy true (levelsLeft s.maxDepth 0) (levelsLeft m.maxDepth 0) := by
      unfold levelsLeft at hpos
      simp only [Roomy, if_true, levelsLeft]
      omega
    have hv : tree.Regular true := ⟨hv.lists, hv.cases, fun _ => hb⟩
    have h : HasRoom true _ (s.renamed tree) := ⟨Sanitizer.regular_renamed hv, _, hf, hr⟩
    exact ⟨Instrumenter.node_unstopped hp h, Instrumenter.statements_unstopped hp h⟩

/-- The sample instrumenter with another ceiling for its walks and prices. -/
def Instrumenter.sampleBelow (limit : Int) : Instrumenter :=
  { sample with pricing := ⟨false, limit⟩, maxDepth := limit }

/-- The loop `while (a < b) { a++; }`, which has eight levels. -/
def Sample.bracedLoop : Value :=
  program [whileLess (block (.list [increment]))]

theorem accepted_trees_have_headroom_of_bracedLoop :
    ∃ renamed, ({ Sanitizer.sample with maxDepth := 7 } : Sanitizer).sanitize 0
        Sample.bracedLoop = .ok renamed ∧
      ((Instrumenter.sampleBelow 21).node 0 renamed).Unstopped ∧
      ((Instrumenter.sampleBelow 8).node 0 renamed).Unstopped := by
  have hv : Sample.bracedLoop.Regular false := ⟨rfl, rfl, nofun⟩
  have hs : ({ Sanitizer.sample with maxDepth := 7 } : Sanitizer).sanitize 0 Sample.bracedLoop =
    .ok _ := rfl
  have hthrice := @accepted_trees_have_headroom _ (.sampleBelow 21) _ _ hv hs (by decide)
  have hmore := @accepted_trees_have_headroom _ (.sampleBelow 8) _ _ hv hs (by decide)
  exact ⟨_, hs, (hthrice.1 (by decide)).1, (hmore.2 rfl (by decide)).1⟩

end ContractMeter
