import Mathlib.Data.List.Forall2
import ContractMeter.Proofs.Bookkeeping
import ContractMeter.Proofs.Commutation
import ContractMeter.Proofs.Conservation

/-!
# ContractMeter.Proofs.Authorship

The charges of a run as prices of what the author of a contract wrote, although they are computed
on trees that were rewritten.

* `Counterpart` — values that neither walks nor prices tell apart; a tree and the renamed tree are
  such values.
* `Bills` — charges that are the prices of parts of a tree.
* `Instrumented.bills` — every walk bills its tree, and each counterpart of it.
* `rewriting_keeps_prices` — for both passes and for the pipeline.
-/

namespace ContractMeter

open Instrumenter (block loopBody isUncharged)
open Metered

/-! ## Counterparts -/

/-- Related values have the same prices, hold statements alike, and have related parts. -/
structure Counterpart (R : Value → Value → Prop) : Prop extends Pricing.Lookalike R where
  null : R .null .null
  nil : R (.list []) (.list [])
  field : ∀ {fields fields' : Fields} {key : String} {default : Value},
    R (.record fields) (.record fields') → key ∈ statementFields → R default default →
    R ((Fields.get? fields key).getD default) ((Fields.get? fields' key).getD default)
  loopBody : ∀ {fields fields' : Fields}, R (.record fields) (.record fields') →
    R (loopBody fields) (loopBody fields')
  elements : ∀ {v w : Value} {ws : List Value}, R v w → w.elements = .ok ws →
    ∃ vs, v.elements = .ok vs ∧ List.Forall₂ R vs ws

namespace Counterpart

variable {R : Value → Value → Prop} {v w : Value}

theorem get (hR : Counterpart R) {fields fields' : Fields} {key : String}
    (h : R (.record fields) (.record fields')) (hk : key ∈ statementFields) :
    R (Fields.get fields key) (Fields.get fields' key) :=
  hR.field h hk hR.null

theorem of_record (hR : Counterpart R) {fields' : Fields} (h : R v (.record fields')) :
    ∃ fields, v = .record fields := by
  cases v with
  | list items =>
    obtain ⟨f, e, -⟩ := hR.list h
    cases e
  | record fields => exact ⟨fields, rfl⟩
  | _ => cases hR.scalar h (by simp) (by simp)

theorem container_eq (hR : Counterpart R) (h : R v w) : w.container = v.container := by
  by_cases hk : ∃ kind, v.hasKind kind = true
  · obtain ⟨kind, hk⟩ := hk
    rw [Value.container_of_hasKind hk, Value.container_of_hasKind ((hR.hasKind_eq h kind).trans hk)]
  · simp only [not_exists, Bool.not_eq_true] at hk
    rw [Value.container_of_not_hasKind hk,
      Value.container_of_not_hasKind fun kind => (hR.hasKind_eq h kind).trans (hk kind)]

theorem isUncharged_eq (hR : Counterpart R) (h : R v w) : isUncharged w = isUncharged v := by
  unfold isUncharged
  rw [funext fun kind => hR.hasKind_eq h kind]

end Counterpart

/-- A tree with strings as names and none of them in a literal, and what renaming makes of it or of
the parts that it leaves alone. -/
def Sanitizer.Presents (s : Sanitizer) (v w : Value) : Prop :=
  v.namesAreStrings = true ∧ v.everywhere Value.storesNoNames = true ∧ (w = s.renamed v ∨ w = v)

namespace Sanitizer

variable {s : Sanitizer} {v w : Value} {fields : Fields} {key : String}

theorem Presents.within (hn : v.namesAreStrings = true)
    (hs : v.everywhere Value.storesNoNames = true) : s.Presents v (s.within fields v) := by
  refine ⟨hn, hs, ?_⟩
  unfold Sanitizer.within
  split
  · exact .inl rfl
  · exact .inr rfl

theorem presents_getD {default : Value} (h : (Value.record fields).namesAreStrings = true)
    (hs : (Value.record fields).everywhere Value.storesNoNames = true)
    (hd : s.Presents default default) :
    s.Presents ((Fields.get? fields key).getD default)
      (((Fields.get? fields key).map (s.within fields)).getD default) := by
  cases hg : Fields.get? fields key with
  | none => exact hd
  | some v => exact .within (Value.everywhere_get? h hg) (Value.everywhere_get? hs hg)

theorem counterpart_presents (s : Sanitizer) : Counterpart s.Presents where
  list := by
    rintro items w ⟨hn, hs, hw⟩
    obtain ⟨f, rfl, hf⟩ := (Pricing.lookalike_renamed s).list ⟨hs, hw⟩
    exact ⟨f, rfl, fun v hm => ⟨Value.everywhere_mem hn hm, hf v hm⟩⟩
  record := by
    rintro fields w ⟨hn, hs, hw⟩
    obtain ⟨fields', f, rfl, hf⟩ := (Pricing.lookalike_renamed s).record ⟨hs, hw⟩
    refine ⟨fields', f, rfl, fun key hk => ⟨(hf key hk).1, fun v hv => ?_⟩⟩
    exact ⟨Value.everywhere_get? hn hv, (hf key hk).2 v hv⟩
  scalar := fun ⟨_, h⟩ => (Pricing.lookalike_renamed s).scalar h
  literal := fun ⟨_, h⟩ => (Pricing.lookalike_renamed s).literal h
  null := ⟨rfl, rfl, .inr rfl⟩
  nil := ⟨rfl, rfl, .inr rfl⟩
  field := by
    rintro fields fields' key default ⟨hn, hs, hw⟩ hk hd
    rcases hw with hw | hw
    · have hne : key ≠ "name" := fun e => absurd (e ▸ hk) (by decide)
      rw [renamed_record, Value.record.injEq] at hw
      rw [hw, get?_renamedRecord hne]
      exact presents_getD hn hs hd
    · cases hw
      cases hg : Fields.get? fields key with
      | none => exact hd
      | some v => exact ⟨Value.everywhere_get? hn hg, Value.everywhere_get? hs hg, .inr rfl⟩
  loopBody := by
    rintro fields fields' ⟨hn, hs, hw⟩
    have hbody {check : Fields → Bool} (h : (Value.record fields).everywhere check = true)
        (he : (block (.list [])).everywhere check = true) :
        (loopBody fields).everywhere check = true := by
      unfold Instrumenter.loopBody
      dsimp only
      split
      · exact Value.everywhere_field h "body"
      · exact he
    rcases hw with hw | hw
    · rw [renamed_record, Value.record.injEq] at hw
      rw [hw, loopBody_renamedRecord]
      exact .within (hbody hn rfl) (hbody hs rfl)
    · cases hw
      exact ⟨hbody hn rfl, hbody hs rfl, .inr rfl⟩
  elements := by
    rintro v w ws ⟨hn, hs, hw⟩ h
    have hparts {vs : List Value} (hv : v.elements = .ok vs) :
        ∀ u ∈ vs, u.namesAreStrings = true ∧ u.everywhere Value.storesNoNames = true := by
      by_cases hl : ∃ items, v = .list items
      · obtain ⟨items, rfl⟩ := hl
        cases hv
        exact fun u hu => ⟨Value.everywhere_mem hn hu, Value.everywhere_mem hs hu⟩
      · have hl : ∀ items, v ≠ .list items := fun items e => hl ⟨items, e⟩
        intro u hu
        have hstr := Value.isString_of_elements hl hv u hu
        exact ⟨Value.everywhere_of_isString hstr, Value.everywhere_of_isString hstr⟩
    rcases hw with rfl | rfl
    · rw [elements_renamed hn] at h
      cases hv : v.elements with
      | error cause =>
        rw [hv] at h
        cases h
      | ok vs =>
        rw [hv] at h
        cases h
        refine ⟨vs, rfl, List.forall₂_map_right_iff.mpr (List.forall₂_same.mpr fun u hu => ?_)⟩
        exact ⟨(hparts hv u hu).1, (hparts hv u hu).2, .inl rfl⟩
    · exact ⟨ws, h, List.forall₂_same.mpr fun u hu =>
        ⟨(hparts h u hu).1, (hparts h u hu).2, .inr rfl⟩⟩

end Sanitizer

/-! ## Bills -/

/-- Whether a value is part of a tree, as a field or as an element of a list that is read. -/
inductive Value.Holds : Value → Value → Prop where
  | self (v : Value) : v.Holds v
  | field {fields : Fields} {key : String} {w : Value} (h : (Fields.get fields key).Holds w) :
      (record fields).Holds w
  | element {v item w : Value} {items : List Value} (he : v.elements = .ok items)
      (hi : item ∈ items) (h : item.Holds w) : v.Holds w

theorem Value.Holds.of_elements {fields : Fields} {key : String} {items : List Value}
    {item w : Value} (he : ((Fields.get? fields key).getD (.list [])).elements = .ok items)
    (hi : item ∈ items) (h : item.Holds w) : (record fields).Holds w := by
  cases hg : Fields.get? fields key with
  | none =>
    rw [hg] at he
    cases he
    cases hi
  | some v =>
    rw [hg, Option.getD_some, ← Fields.get_of_get? hg] at he
    exact .field (.element he hi h)

/-- Whether an amount is the price of what is due: of a statement as a tree of its own, of a pass
where the loop stands. -/
def Due.HasPrice (p : Pricing) (amount : Int) : Due → Prop
  | .statement node => ∃ gamma : Nat, (p.gammaFor 0 node).outcome = .ok gamma ∧ amount = gamma
  | .pass loop => ∃ (depth : Int) (gamma : Nat),
      (p.gammaPerIteration depth loop).outcome = .ok gamma ∧ amount = gamma

/-- Charges that are, one by one, the prices of dues with nodes that are `held`; these are the
`expected` dues where the tree they are read from is `shaped`. -/
def Bills (p : Pricing) (held : Value → Prop) (shaped : Prop) (expected : List Due)
    (charges : List Charge) : Prop :=
  ∃ dues, (∀ d ∈ dues, held d.node) ∧
    List.Forall₂ (fun d c => Due.HasPrice p c.gamma d) dues charges ∧ (shaped → dues = expected)

namespace Bills

variable {p : Pricing} {held held' : Value → Prop} {shaped shaped' : Prop}
  {expected expected' : List Due} {charges charges' : List Charge}

theorem nil (he : shaped → expected = []) : Bills p held shaped expected [] :=
  ⟨[], fun _ h => (nomatch h), .nil, fun hs => (he hs).symm⟩

theorem cons {d : Due} {c : Charge} (hd : held d.node) (hp : d.HasPrice p c.gamma)
    (h : Bills p held shaped expected charges) :
    Bills p held shaped (d :: expected) (c :: charges) := by
  obtain ⟨dues, hh, hf, he⟩ := h
  exact ⟨d :: dues, List.forall_mem_cons.mpr ⟨hd, hh⟩, .cons hp hf, fun hs => by rw [he hs]⟩

theorem append (h : Bills p held shaped expected charges)
    (h' : Bills p held shaped expected' charges') :
    Bills p held shaped (expected ++ expected') (charges ++ charges') := by
  obtain ⟨dues, hh, hf, he⟩ := h
  obtain ⟨dues', hh', hf', he'⟩ := h'
  refine ⟨dues ++ dues', fun d hd => ?_, List.rel_append hf hf', fun hs => by rw [he hs, he' hs]⟩
  exact (List.mem_append.mp hd).elim (hh d) (hh' d)

theorem mono (h : Bills p held shaped expected charges) (hh : ∀ v, held v → held' v)
    (hs : shaped' → shaped ∧ expected' = expected) :
    Bills p held' shaped' expected' charges := by
  obtain ⟨dues, hd, hf, he⟩ := h
  exact ⟨dues, fun d hm => hh _ (hd d hm), hf, fun h' => (he (hs h').1).trans (hs h').2.symm⟩

/-- Where nothing is due, it does not matter what is held. -/
theorem of_nothing_due (h : Bills p held shaped [] charges) (hs : shaped) :
    Bills p held' shaped' [] charges := by
  obtain ⟨dues, -, hf, he⟩ := h
  rw [he hs] at hf
  exact ⟨[], fun _ hm => (nomatch hm), hf, fun _ => rfl⟩

end Bills

section Walks

variable {m : Instrumenter} {start : Int} {R : Value → Value → Prop} {v w : Value}
  {vs ws : List Value} {l : Ledger}

/-- What the walk bills a node for. -/
abbrev BillsNode (m : Instrumenter) (v : Value) : List Charge → Prop :=
  Bills m.pricing v.Holds (v.listShaped = true) v.dues

abbrev BillsPart (m : Instrumenter) (v : Value) : List Charge → Prop :=
  Bills m.pricing v.Holds (v.listShaped = true) (v.dues ++ v.partDue)

abbrev BillsList (m : Instrumenter) (vs : List Value) : List Charge → Prop :=
  Bills m.pricing (fun u => ∃ v ∈ vs, v.Holds u) ((Value.list vs).listShaped = true)
    (Value.itemDues vs)

abbrev BillsCases (m : Instrumenter) (vs : List Value) : List Charge → Prop :=
  Bills m.pricing (fun u => ∃ v ∈ vs, v.Holds u)
    ((Value.list vs).listShaped = true ∧
      ∀ c ∈ vs, Value.isListOrAbsent (c.field? "consequent") = true)
    (Value.caseItemDues vs)

theorem bills_loopBody {fields : Fields} {charges : List Charge}
    (h : BillsPart m (loopBody fields) charges) :
    Bills m.pricing (Value.record fields).Holds ((Value.record fields).listShaped = true)
      (if (Fields.get fields "body").truthy then
        (Fields.get fields "body").dues ++ (Fields.get fields "body").partDue else []) charges := by
  rw [BillsPart, Value.dues_loopBody] at h
  by_cases ht : (Fields.get fields "body").truthy = true
  · rw [loopBody, if_pos ht] at h
    exact h.mono (fun _ => .field) fun hl => ⟨Value.listShaped_get hl "body", rfl⟩
  -- the empty block that the loop gets is not part of the tree, but nothing is due for it
  · rw [loopBody, if_neg ht] at h
    rw [if_neg ht] at h ⊢
    exact h.of_nothing_due rfl

theorem hasPrice_statement (hR : Counterpart R) (hv : R v w) {w' : Value} {l' : Ledger}
    {gamma : Nat} {entry : Charge} (h : Instrumented m start w w' l)
    (hp : (m.pricing.gammaFor 0 w').Yields l' gamma) (he : Charge.of w' gamma none = .ok entry) :
    Due.HasPrice m.pricing entry.gamma (.statement v) := by
  have hg : m.pricing.gammaFor 0 w' = m.pricing.gammaFor 0 v :=
    (h.gammaFor_eq _ _).trans (hR.gammaFor_agrees _ _ hv)
  obtain ⟨-, ha, -⟩ := Charge.of_ok he
  rw [hg] at hp
  exact ⟨gamma, hp.outcome, ha⟩

mutual

/-- A walk that succeeds bills every counterpart of its tree: prices are the same there, and so are
the places where statements stand. -/
theorem Instrumented.bills (hR : Counterpart R) {v w w' : Value} {l : Ledger} :
    Instrumented m start w w' l → R v w → BillsNode m v l.charges
  | .leaf hc, hv => by
    rw [hR.container_eq hv] at hc
    exact .nil fun _ => Value.dues_of_leaf hc
  | .sequence hc hb h, hv => by
    obtain ⟨fields, rfl⟩ := hR.of_record hv
    rw [hR.container_eq hv] at hc
    obtain ⟨vs, he, hvs⟩ := hR.elements (hR.field hv (by decide) hR.nil) hb
    refine (h.bills hR hvs).mono (fun u ⟨v, hm, hu⟩ => .of_elements he hm hu) fun hl => ?_
    have hf := Value.isListOrAbsent_body hl hc
    rw [Value.dues, hc]
    exact ⟨Value.listShaped_of_elements hl hf he, Value.sequenceDues_eq hf he⟩
  | .body hc h, hv => by
    obtain ⟨fields, rfl⟩ := hR.of_record hv
    rw [hR.container_eq hv] at hc
    refine (h.bills hR (hR.get hv (by decide))).mono (fun _ => .field) fun hl => ?_
    rw [Value.dues, hc]
    exact ⟨Value.listShaped_get hl "body", rfl⟩
  | .loop hk hc hd hp he h, hv => by
    obtain ⟨fields, rfl⟩ := hR.of_record hv
    have hloop := (hR.container_eq hv).symm.trans ((Value.container_of_kind hk).trans hc)
    have hbody := bills_loopBody (h.bills hR (hR.loopBody hv))
    rw [BillsNode, Value.dues, hloop, Ledger.charges_append, Ledger.charges_append,
      Pricing.gammaPerIteration_charges hp]
    rw [hR.gammaPerIteration_agrees _ _ hv] at hp
    exact .cons (.self _) ⟨_, _, hp.outcome, (Charge.of_ok he).2.1⟩ hbody
  | .statementBody hc h, hv => by
    obtain ⟨fields, rfl⟩ := hR.of_record hv
    rw [hR.container_eq hv] at hc
    refine (h.bills hR (hR.get hv (by decide))).mono (fun _ => .field) fun hl => ?_
    rw [Value.dues, hc]
    exact ⟨Value.listShaped_get hl "body", rfl⟩
  | .value hc h, hv => by
    obtain ⟨fields, rfl⟩ := hR.of_record hv
    rw [hR.container_eq hv] at hc
    refine (h.bills hR (hR.get hv (by decide))).mono (fun _ => .field) fun hl => ?_
    rw [Value.dues, hc]
    exact ⟨Value.listShaped_get hl "value", rfl⟩
  | .branch hc h₁ h₂, hv => by
    obtain ⟨fields, rfl⟩ := hR.of_record hv
    rw [hR.container_eq hv] at hc
    rw [BillsNode, Value.dues, hc]
    refine .append ?_ ?_
    · exact (h₁.bills hR (hR.get hv (by decide))).mono (fun _ => .field) fun hl =>
        ⟨Value.listShaped_get hl "consequent", rfl⟩
    · exact (h₂.bills hR (hR.get hv (by decide))).mono (fun _ => .field) fun hl =>
        ⟨Value.listShaped_get hl "alternate", rfl⟩
  | .attempt hc h₁ h₂ h₃, hv => by
    obtain ⟨fields, rfl⟩ := hR.of_record hv
    rw [hR.container_eq hv] at hc
    rw [BillsNode, Value.dues, hc]
    refine .append ?_ (.append ?_ ?_)
    · exact (h₁.bills hR (hR.get hv (by decide))).mono (fun _ => .field) fun hl =>
        ⟨Value.listShaped_get hl "block", rfl⟩
    · exact (h₂.bills hR (hR.get hv (by decide))).mono (fun _ => .field) fun hl =>
        ⟨Value.listShaped_get hl "handler", rfl⟩
    · exact (h₃.bills hR (hR.get hv (by decide))).mono (fun _ => .field) fun hl =>
        ⟨Value.listShaped_get hl "finalizer", rfl⟩
  | .switch hc hb h, hv => by
    obtain ⟨fields, rfl⟩ := hR.of_record hv
    rw [hR.container_eq hv] at hc
    obtain ⟨vs, he, hvs⟩ := hR.elements (hR.field hv (by decide) hR.nil) hb
    refine (h.bills hR hvs).mono (fun u ⟨v, hm, hu⟩ => .of_elements he hm hu) fun hl => ?_
    obtain ⟨hf, hlist, hcs⟩ := Value.cases_of_listShaped hl hc he
    rw [Value.dues, hc]
    exact ⟨⟨hlist, hcs⟩, Value.caseDues_eq hf he⟩

theorem InstrumentedPart.bills (hR : Counterpart R) {v w w' : Value} {l : Ledger} :
    InstrumentedPart m start w w' l → R v w → BillsPart m v l.charges
  | .null, hv => by
    obtain rfl := (hR.null_iff hv).mp rfl
    exact .nil fun _ => by simp only [Value.dues, Value.partDue, List.append_nil]
  | .block hk hb h, hv => by
    obtain ⟨fields, rfl⟩ := hR.of_record hv
    rw [hR.hasKind_eq hv] at hk
    have hc : (Value.record fields).container = .sequence := Value.container_of_hasKind hk
    obtain ⟨vs, he, hvs⟩ := hR.elements (hR.field hv (by decide) hR.nil) hb
    refine (h.bills hR hvs).mono (fun u ⟨v, hm, hu⟩ => .of_elements he hm hu) fun hl => ?_
    have hf := Value.isListOrAbsent_body hl hc
    rw [Value.partDue_of_block hk, List.append_nil, Value.dues, hc]
    exact ⟨Value.listShaped_of_elements hl hf he, Value.sequenceDues_eq hf he⟩
  | .bare hn hk h, hv => by
    have hn := mt (hR.null_iff hv).mpr hn
    rw [hR.hasKind_eq hv] at hk
    have hb := h.bills hR (.cons hv .nil)
    rw [BillsList, Value.itemDues, Value.itemDues, List.append_nil] at hb
    rw [BillsPart, Value.partDue_of_bare hn hk]
    refine hb.mono (fun u ⟨v, hm, hu⟩ => List.mem_singleton.mp hm ▸ hu) fun hl => ⟨?_, rfl⟩
    exact Value.listShaped_cons.mpr ⟨hl, rfl⟩

theorem InstrumentedList.bills (hR : Counterpart R) {vs ws ws' : List Value} {l : Ledger} :
    InstrumentedList m start ws ws' l → List.Forall₂ R vs ws → BillsList m vs l.charges
  | .nil, .nil => .nil fun _ => by rw [Value.itemDues]
  | .uncharged h hu hs, .cons hv hvs => by
    rw [h.isUncharged_eq, hR.isUncharged_eq hv] at hu
    have ho : Value.ownDue _ = [] := if_pos hu
    rw [BillsList, Value.itemDues, ho, List.append_nil]
    refine .append ((h.bills hR hv).mono (fun u hh => ⟨_, List.mem_cons_self, hh⟩) fun hl => ?_)
      ((hs.bills hR hvs).mono (fun u ⟨x, hm, hh⟩ => ⟨x, List.mem_cons_of_mem _ hm, hh⟩)
        fun hl => ?_)
    · exact ⟨(Value.listShaped_cons.mp hl).1, rfl⟩
    · exact ⟨(Value.listShaped_cons.mp hl).2, rfl⟩
  | .charged h hu hp he hs, .cons hv hvs => by
    rw [h.isUncharged_eq, hR.isUncharged_eq hv] at hu
    have ho : Value.ownDue _ = [.statement _] := if_neg (by rw [hu]; decide)
    rw [BillsList, Value.itemDues, ho, List.append_assoc, Ledger.charges_append,
      Ledger.charges_append, Ledger.charges_append, Pricing.gammaFor_charges hp]
    refine .append ((h.bills hR hv).mono (fun u hh => ⟨_, List.mem_cons_self, hh⟩) fun hl => ?_)
      (.cons ⟨_, List.mem_cons_self, .self _⟩ (hasPrice_statement hR hv h hp he)
        ((hs.bills hR hvs).mono (fun u ⟨x, hm, hh⟩ => ⟨x, List.mem_cons_of_mem _ hm, hh⟩)
          fun hl => ?_))
    · exact ⟨(Value.listShaped_cons.mp hl).1, rfl⟩
    · exact ⟨(Value.listShaped_cons.mp hl).2, rfl⟩

theorem InstrumentedCases.bills (hR : Counterpart R) {vs ws ws' : List Value} {l : Ledger} :
    InstrumentedCases m start ws ws' l → List.Forall₂ R vs ws → BillsCases m vs l.charges
  | .nil, .nil => .nil fun _ => by rw [Value.caseItemDues]
  | .cons hb h hs, .cons hv hvs => by
    obtain ⟨fields, rfl⟩ := hR.of_record hv
    obtain ⟨us, he, hus⟩ := hR.elements (hR.field hv (by decide) hR.nil) hb
    rw [BillsCases, Value.caseItemDues, Ledger.charges_append]
    refine .append ((h.bills hR hus).mono (fun u ⟨x, hm, hh⟩ =>
        ⟨_, List.mem_cons_self, .of_elements he hm hh⟩) fun hl => ?_)
      ((hs.bills hR hvs).mono (fun u ⟨x, hm, hh⟩ => ⟨x, List.mem_cons_of_mem _ hm, hh⟩)
        fun hl => ?_)
    · have hf := hl.2 _ List.mem_cons_self
      have hlist := (Value.listShaped_cons.mp hl.1).1
      exact ⟨Value.listShaped_of_elements hlist hf he, Value.sequenceDues_eq hf he⟩
    · exact ⟨⟨(Value.listShaped_cons.mp hl.1).2,
        fun c hc => hl.2 c (List.mem_cons_of_mem _ hc)⟩, rfl⟩

end

theorem bills_node (hR : Counterpart R) (hv : R v w) {depth : Int} {out : Value}
    (h : (m.node depth w).outcome = .ok out) : BillsNode m v (m.node depth w).ledger.charges :=
  (node_sound (outcome_ok_iff.mp h)).bills hR hv

theorem bills_statements (hR : Counterpart R) {vs ws : List Value} (hvs : List.Forall₂ R vs ws)
    {out : Value} (h : (m.statements (.list ws)).outcome = .ok out) :
    BillsList m vs (m.statements (.list ws)).ledger.charges := by
  obtain ⟨_, -, hs⟩ := statements_sound (outcome_ok_iff.mp h)
  exact hs.bills hR hvs

end Walks

/-! ## The pipeline -/

/-- Whether two values have the same price and the same price of a pass, with the same warnings,
for every pricing and at every depth. -/
def Value.PricedAlike (v w : Value) : Prop :=
  ∀ (p : Pricing) (depth : Int), p.gammaFor depth w = p.gammaFor depth v ∧
    p.gammaPerIteration depth w = p.gammaPerIteration depth v

/-- **Rewriting never changes a price.** Neither metering a node nor renaming it does, where no
literal stores a name; and each charge that the pipeline places, though computed on the rewritten
tree, is the price of a part of the tree that was written: of what is due in its place, where the
statement lists of the tree are lists. A list is charged as a sequence of statements. -/
theorem rewriting_keeps_prices {s : Sanitizer} {m : Instrumenter} {tree : Value}
    (hn : tree.namesAreStrings = true) (hs : tree.everywhere Value.storesNoNames = true) :
    (∀ depth v out, (m.node depth v).outcome = .ok out → v.PricedAlike out) ∧
    (∀ depth out, s.sanitize depth tree = .ok out → tree.PricedAlike out) ∧
    (∀ out, (renameThen s (m.node 0) tree).outcome = .ok out →
      Bills m.pricing tree.Holds (tree.listShaped = true) tree.dues
        (renameThen s (m.node 0) tree).ledger.charges) ∧
    (∀ items out, tree = .list items → (renameThen s m.statements tree).outcome = .ok out →
      Bills m.pricing tree.Holds (tree.listShaped = true) tree.sequenceDues
        (renameThen s m.statements tree).ledger.charges) := by
  refine ⟨fun depth v out ho p d => ?_, fun depth out ho p d => ?_, fun out ho => ?_,
    fun items out he ho => ?_⟩
  · have hi := node_sound (outcome_ok_iff.mp ho)
    exact ⟨hi.gammaFor_eq p d, hi.gammaPerIteration_eq p d⟩
  · rw [Sanitizer.sanitize_ok ho]
    exact ⟨p.gammaFor_renamed d hs, p.gammaPerIteration_renamed d hs⟩
  · have hr := renameThen_of_outcome ho
    rw [hr] at ho ⊢
    exact bills_node (Sanitizer.counterpart_presents s) ⟨hn, hs, .inl rfl⟩ ho
  · subst he
    have hr := renameThen_of_outcome ho
    have hitems : List.Forall₂ s.Presents items (s.renamedItems items) := by
      rw [Sanitizer.renamedItems_eq_map]
      exact List.forall₂_map_right_iff.mpr (List.forall₂_same.mpr fun v hv =>
        ⟨Value.everywhere_mem hn hv, Value.everywhere_mem hs hv, .inl rfl⟩)
    rw [hr, Sanitizer.renamed_list] at ho ⊢
    rw [Value.sequenceDues]
    exact (bills_statements (Sanitizer.counterpart_presents s) hitems ho).mono
      (fun u ⟨v, hv, hu⟩ => .element rfl hv hu) fun hl => ⟨hl, rfl⟩

theorem rewriting_keeps_prices_of_hostLoop :
    ∃ renamed out, Sanitizer.sample.sanitize 0 hostLoop = .ok renamed ∧
      hostLoop.PricedAlike renamed ∧
      (renameThen .sample (Instrumenter.sample.node 0) hostLoop).outcome = .ok out ∧
      Bills Instrumenter.sample.pricing hostLoop.Holds (hostLoop.listShaped = true) hostLoop.dues
        (renameThen .sample (Instrumenter.sample.node 0) hostLoop).ledger.charges := by
  obtain ⟨-, hsanitize, hpipeline, -⟩ :=
    @rewriting_keeps_prices .sample .sample hostLoop rfl rfl
  exact ⟨_, _, rfl, hsanitize 0 _ rfl, rfl, hpipeline _ rfl⟩

end ContractMeter
