import ContractMeter.Proofs.Grammar
import ContractMeter.Proofs.Position

/-!
# ContractMeter.Proofs.Coverage

Which statements of a tree of the grammar stand behind a charge.

* `Place.Fits` — the walk stands to a value the way the grammar asks; `Place.Fits.follow` says
  that it does so at every path through statements.
* `BehindCharge` — what stands at a path stands right behind a charge of a statement's price.
* `statement_charged_iff_not_labelled` — each statement does, unless it is the body of a label.
-/

namespace ContractMeter

open Instrumenter (block prepend loopBody isUncharged ownCharges outIndex prepend_block)

/-! ## The walk and the grammar -/

/-- Whether a value of the grammar may stand at a place. -/
def Place.Fits (v : Value) : Place → Prop
  | .node => v.isPlain = true
  | .pass => v.hasKind "BlockStatement" = true
  | .list _ => ∃ items, v = .list items ∧ ∀ item ∈ items, item.isPlain = true
  | .cases => ∃ cases, v = .list cases ∧ ∀ c ∈ cases, c.isCase = true
  | .case => v.hasKind "SwitchCase" = true
  | .kept => False

/-- Whether the walk enters a field of a kind of node as what the grammar puts there. -/
def entersAs (kind name : String) (content : Content) : Bool :=
  match (Container.ofKind kind).slot name, content with
  | .direct (.list _), .list kinds => !kinds.contains "SwitchCase"
  | .direct .node, .one kinds =>
    !kinds.contains "SwitchCase" && (kind == "LabeledStatement" ||
      kinds.all fun k => k == "BlockStatement" || !listedKinds.contains k)
  | .direct .node, .arrowBody => true
  | .part .node _, .one kinds => !kinds.contains "SwitchCase"
  | .part .pass _, .one kinds => !kinds.contains "SwitchCase"
  | .direct .cases, .cases => true
  | _, _ => false

theorem grammar_entered :
    ∀ entry ∈ grammar, entry.1 = "SwitchCase" ∨ entersAs entry.1 entry.2.1 entry.2.2 = true := by
  decide

theorem block_in_grammar :
    ∀ entry ∈ grammar, entry.1 = "BlockStatement" → entry.2.1 = "body" ∧
      entry.2.2 = .list statementKinds := by
  decide

theorem case_in_grammar :
    ∀ entry ∈ grammar, entry.1 = "SwitchCase" → entry.2.1 = "consequent" ∧
      entry.2.2 = .list statementKinds := by
  decide

namespace Value

theorem isPlain_of_hasKind {v : Value} {kind : String} (h : v.hasKind kind = true)
    (hk : kind ≠ "SwitchCase") : v.isPlain = true := by
  unfold isPlain
  split
  · cases h
  · cases hc : v.hasKind "SwitchCase" with
    | false => rfl
    | true => exact absurd (eq_of_hasKind h hc) hk

theorem isPlain_of_isAny {v : Value} {kinds : List String} (h : v.isAny kinds = true)
    (hk : kinds.contains "SwitchCase" = false) : v.isPlain = true := by
  obtain ⟨kind, hm, hv⟩ := List.any_eq_true.mp h
  refine isPlain_of_hasKind hv ?_
  rintro rfl
  simp [hm] at hk

theorem isPlain_of_allows {v : Value} {kinds : List String}
    (h : (Content.one kinds).allows v = true) (hk : kinds.contains "SwitchCase" = false) :
    v.isPlain = true := by
  rcases Bool.or_eq_true_iff.mp h with hn | ha
  · cases v <;> first | rfl | cases hn
  · exact isPlain_of_isAny ha hk

theorem items_of_allows {v : Value} {kinds : List String}
    (h : (Content.list kinds).allows v = true) (hk : kinds.contains "SwitchCase" = false) :
    ∃ items, v = .list items ∧ ∀ item ∈ items, item.isPlain = true := by
  obtain ⟨items, rfl, hi⟩ := isListOf_iff.mp h
  exact ⟨items, rfl, fun item hm => isPlain_of_isAny (hi item hm) hk⟩

end Value

theorem Slot.enter_fits {kind name : String} {content : Content} {w : Value}
    (he : entersAs kind name content = true) (ha : content.allows w = true) :
    (((Container.ofKind kind).slot name).enter name w).2.Fits w := by
  unfold entersAs at he
  split at he
  case h_1 hs =>
    rw [hs]
    exact Value.items_of_allows ha (by simpa using he)
  case h_2 hs =>
    rw [hs]
    simp only [Bool.and_eq_true, Bool.not_eq_true'] at he
    exact Value.isPlain_of_allows ha he.1
  case h_3 hs =>
    rw [hs]
    simp only [Content.allows, Bool.or_eq_true, Bool.and_eq_true] at ha
    rcases ha with hk | ⟨hp, _⟩
    · exact Value.isPlain_of_hasKind hk (by decide)
    · exact hp
  case h_4 hs =>
    rw [hs]
    have hp := Value.isPlain_of_allows ha (by simpa using he)
    simp only [Slot.enter]
    split <;> exact hp
  case h_5 hs =>
    rw [hs]
    simp only [Slot.enter]
    split
    · assumption
    · exact Value.isPlain_of_allows ha (by simpa using he)
  case h_6 hs =>
    rw [hs]
    exact Value.isListOf_iff.mp ha
  case h_7 => cases he

theorem Place.Fits.along {place : Place} {v w : Value} {edge : Edge} (h : place.Fits v)
    (hg : v.grammatical = true) (hl : v.leads edge = true) (hw : v.child? edge = some w) :
    (place.along v edge).2.Fits w := by
  cases v with
  | record fields =>
    cases edge with
    | item i => cases hw
    | field name =>
      obtain ⟨kind, content, he, hk, ha⟩ := Value.exists_content hg hl hw
      cases place with
      | node =>
        rcases grammar_entered _ he with hc | hs
        · subst hc
          simp [Place.Fits, Value.isPlain, hk] at h
        · have hf : (Value.record fields).field name = w :=
            Fields.get_of_get? hw
          simp only [Place.along, Value.container_of_hasKind hk, hf]
          exact Slot.enter_fits hs ha
      | pass =>
        obtain ⟨rfl, rfl⟩ := block_in_grammar _ he (Value.eq_of_hasKind hk h)
        exact Value.items_of_allows ha (by decide)
      | case =>
        obtain ⟨rfl, rfl⟩ := case_in_grammar _ he (Value.eq_of_hasKind hk h)
        exact Value.items_of_allows ha (by decide)
      | list ahead | cases =>
        obtain ⟨_, e, _⟩ := h
        cases e
      | kept => exact h.elim
  | list items =>
    cases edge with
    | field name => cases hw
    | item i =>
      have hm : w ∈ items := List.mem_of_getElem? hw
      cases place with
      | list ahead =>
        obtain ⟨_, e, hi⟩ := h
        cases e
        exact hi w hm
      | cases =>
        obtain ⟨_, e, hc⟩ := h
        cases e
        have := hc w hm
        simp only [Value.isCase, Bool.and_eq_true] at this
        exact this.1
      | node | pass | case | kept => cases h
  | _ => cases edge <;> cases hw

theorem Place.Fits.follow {place : Place} {v s : Value} {path : Path} (h : place.Fits v)
    (hg : v.grammatical = true) (hr : v.reaches path = true) (hs : v.at? path = some s) :
    (place.follow v path).2.Fits s := by
  induction path generalizing place v with
  | nil =>
    cases hs
    exact h
  | cons edge rest ih =>
    obtain ⟨w, hw, hs⟩ : ∃ w, v.child? edge = some w ∧ w.at? rest = some s := Value.at?_cons.mp hs
    simp only [Value.reaches, hw, Bool.and_eq_true] at hr
    simp only [Place.follow, hw]
    exact ih (h.along hg hr.1 hw) (Value.everywhere_child? hg hw) hr.2 hs

/-! ## Statements behind their charges -/

/-- What stands at a path stands right behind a charge of the price of `s`. -/
def BehindCharge (m : Instrumenter) (out : Value) (path : Path) (s : Value) : Prop :=
  ∃ front i gamma, path = front ++ [.item (i + 1)] ∧
    out.at? (front ++ [.item i]) = some (m.charge gamma) ∧
    (m.pricing.gammaFor 0 s).outcome = .ok gamma

section BehindCharge

variable {m : Instrumenter} {start : Int} {s : Value}

theorem BehindCharge.below {v w : Value} {path : Path} (front : Path)
    (h : BehindCharge m w path s) (hw : v.at? front = some w) :
    BehindCharge m v (front ++ path) s := by
  obtain ⟨back, i, gamma, rfl, hc, hg⟩ := h
  refine ⟨front ++ back, i, gamma, (List.append_assoc ..).symm, ?_, hg⟩
  rw [List.append_assoc, Value.at?_append hw, hc]

theorem InstrumentedList.behindCharge {items items' : List Value} {l : Ledger} {i : Nat}
    (front : List Value) (hi : items[i]? = some s) (hu : isUncharged s = false) :
    InstrumentedList m start items items' l →
      BehindCharge m (.list (front ++ items')) [.item (front.length + outIndex items i)] s
  | .nil => by simp at hi
  | @InstrumentedList.uncharged _ _ _ s' _ _ _ _ h hu' hs => by
    rw [h.isUncharged_eq] at hu'
    cases i with
    | zero =>
      simp only [List.getElem?_cons_zero, Option.some.injEq] at hi
      rw [hi, hu] at hu'
      cases hu'
    | succ i =>
      have hb := hs.behindCharge (front ++ [s']) (by simpa using hi) hu
      simpa [outIndex, ownCharges, hu', Nat.add_assoc, Nat.add_comm] using hb
  | @InstrumentedList.charged _ _ _ s' gamma _ _ _ _ _ _ h hu' hp _ hs => by
    rw [h.isUncharged_eq] at hu'
    rw [h.gammaFor_eq] at hp
    cases i with
    | zero =>
      simp only [List.getElem?_cons_zero, Option.some.injEq] at hi
      subst hi
      refine ⟨[], front.length, gamma, by simp [outIndex, ownCharges, hu], ?_, hp.outcome⟩
      exact Value.at?_item (by simp)
    | succ i =>
      have hb := hs.behindCharge (front ++ [m.charge gamma, s']) (by simpa using hi) hu
      simpa [outIndex, ownCharges, hu', Nat.add_assoc, Nat.add_comm, Nat.add_left_comm] using hb

/-- A bare part in statement position gets a block to stand behind its charge in. -/
theorem InstrumentedPart.behindCharge {fields' : Fields} {name : String} {v' : Value} {l : Ledger}
    (hn : s ≠ .null) (hu : isUncharged s = false) (hk : s.hasKind "BlockStatement" = false)
    (h : InstrumentedPart m start s v' l) :
    (Fields.get? fields' name = some v' → BehindCharge m (.record fields')
        ((Slot.part .node 0).enter name s).1 s) ∧
      (∀ gamma, Fields.get? fields' name = some (prepend (m.charge gamma) v') →
        BehindCharge m (.record fields') ((Slot.part .pass 1).enter name s).1 s) := by
  cases h with
  | null => contradiction
  | block hb _ _ =>
    rw [hb] at hk
    cases hk
  | bare _ _ h =>
    simp only [Slot.enter, hk, Bool.false_eq_true, if_false]
    constructor
    · intro hf
      have hb := h.behindCharge [] (i := 0) rfl hu
      refine hb.below [.field name, .field "body"] ?_
      rw [Value.at?_field hf, Instrumenter.block, Value.at?_field rfl, List.nil_append,
        Value.at?_nil]
    · intro gamma hf
      have hb := h.behindCharge [m.charge gamma] (i := 0) rfl hu
      refine hb.below [.field name, .field "body"] ?_
      rw [Value.at?_field hf, prepend_block, Instrumenter.block, Value.at?_field rfl,
        List.singleton_append, Value.at?_nil]

theorem Place.eq_of_along_node {place : Place} {v : Value} {edge : Edge}
    (h : (place.along v edge).2 = .node) :
    (∃ name, place = .node ∧ edge = .field name) ∨
      ∃ ahead items i, place = .list ahead ∧ v = .list items ∧ edge = .item i := by
  unfold Place.along at h
  split at h
  case h_1 => exact .inl ⟨_, rfl, rfl⟩
  case h_3 => exact .inr ⟨_, _, _, rfl, rfl, rfl⟩
  all_goals cases h

theorem Place.cases_of_charges {place : Place} {v : Value} {edge : Edge}
    (hc : place.charges v edge = true) (hs : v.child? edge = some s) :
    isUncharged s = false ∧
      ((∃ fields name block ahead, place = .node ∧ v = .record fields ∧ edge = .field name ∧
          (Value.record fields).container.slot name = .part block ahead ∧
          s.hasKind "BlockStatement" = false) ∨
        ∃ ahead items i, place = .list ahead ∧ v = .list items ∧ edge = .item i) := by
  unfold Place.charges at hc
  split at hc
  case h_1 ahead items i =>
    rw [show items[i]? = some s from hs] at hc
    exact ⟨by simpa using hc, .inr ⟨ahead, items, i, rfl, rfl, rfl⟩⟩
  case h_2 name =>
    split at hc
    · rename_i block ahead hslot
      cases v with
      | record fields =>
        have hf : (Value.record fields).field name = s := Fields.get_of_get? hs
        simp only [hf, Bool.and_eq_true, Bool.not_eq_true'] at hc
        exact ⟨hc.1, .inl ⟨fields, name, block, ahead, rfl, rfl, rfl, hslot, hc.2⟩⟩
      | _ => cases hs
    · cases hc
  case h_3 => cases hc

theorem InstrumentedFields.behindCharge {fields fields' : Fields} {name : String} {l : Ledger}
    {c : Container} {block : Place} {ahead : Nat}
    (h : InstrumentedFields m start fields fields' l c) (hs : Fields.get? fields name = some s)
    (ht : s.truthy = true) (hu : isUncharged s = false)
    (hk : s.hasKind "BlockStatement" = false) (hp : c.slot name = .part block ahead) :
    BehindCharge m (.record fields') ((c.slot name).enter name s).1 s := by
  have hg : Fields.get fields name = s := Fields.get_of_get? hs
  have hn : s ≠ .null := by
    rintro rfl
    cases ht
  revert hp
  unfold Container.slot
  split <;> intro hp
  case h_3 =>
    obtain ⟨_, _, gamma, body, _, _, _, _, _, _, h, rfl, _⟩ := h
    have hb : loopBody fields = s := by simp [loopBody, hg, ht]
    rw [hb] at h
    exact (h.behindCharge hn hu hk).2 gamma (Fields.get?_set_self ..)
  case h_4 =>
    obtain ⟨body, h, rfl⟩ := h
    rw [hg] at h
    exact (h.behindCharge hn hu hk).1 (Fields.get?_set_self ..)
  case h_6 =>
    obtain ⟨consequent, alternate, _, _, h, _, rfl, _⟩ := h
    rw [hg] at h
    exact (h.behindCharge hn hu hk).1 (by simp [Fields.get?_set])
  case h_7 =>
    obtain ⟨consequent, alternate, _, _, _, h, rfl, _⟩ := h
    rw [hg] at h
    exact (h.behindCharge hn hu hk).1 (by simp)
  all_goals cases hp

theorem Place.Relates.behindCharge {place : Place} {v v' : Value} {edge : Edge}
    (h : place.Relates m start v v') (hs : v.child? edge = some s) (ht : s.truthy = true)
    (hc : place.charges v edge = true) : BehindCharge m v' (place.along v edge).1 s := by
  obtain ⟨hu, ⟨fields, name, block, ahead, rfl, rfl, rfl, hp, hk⟩ |
    ⟨ahead, items, i, rfl, rfl, rfl⟩⟩ := Place.cases_of_charges hc hs
  · obtain ⟨l, h⟩ := h
    obtain ⟨fields', rfl, hf⟩ := h.fields rfl
    have hg : (Value.record fields).field name = s := Fields.get_of_get? hs
    simp only [Place.along, hg]
    exact hf.behindCharge hs ht hu hk hp
  · obtain ⟨_, front, items', l, e, rfl, h, rfl⟩ := h
    cases e
    exact h.behindCharge front hs hu

theorem outIndex_pos {items : List Value} {i : Nat} (hs : items[i]? = some s)
    (hu : isUncharged s = false) : 0 < outIndex items i := by
  cases items with
  | nil => simp at hs
  | cons item rest =>
    cases i with
    | zero =>
      cases hs
      simp [outIndex, ownCharges, hu]
    | succ i =>
      rw [outIndex]
      omega

theorem outIndex_ne {items : List Value} {i j : Nat} (hs : items[i]? = some s)
    (hu : isUncharged s = false) (hj : j < items.length) :
    outIndex items j + 1 ≠ outIndex items i := by
  induction items generalizing i j with
  | nil => simp at hs
  | cons item rest ih =>
    cases i with
    | zero =>
      cases hs
      have h1 : outIndex (s :: rest) 0 = 1 := by simp [outIndex, ownCharges, hu]
      have hpos : 0 < outIndex (s :: rest) j := by
        cases j with
        | zero => omega
        | succ j =>
          rw [outIndex]
          omega
      omega
    | succ i =>
      have hs' : rest[i]? = some s := by simpa using hs
      cases j with
      | zero =>
        have := outIndex_pos hs' hu
        simp only [outIndex]
        omega
      | succ j =>
        have := ih hs' (by simpa using hj)
        simp only [outIndex]
        omega

/-- Where the charge of a part stands, no part of the value is moved to. -/
theorem Place.along_ne_of_charges {place : Place} {v u : Value} {edge other : Edge} {front : Path}
    {i : Nat} (hc : place.charges v edge = true) (hs : v.child? edge = some s)
    (ho : v.child? other = some u) (he : (place.along v edge).1 = front ++ [.item (i + 1)]) :
    (place.along v other).1 ≠ front ++ [.item i] := by
  obtain ⟨hu, ⟨fields, name, block, ahead, rfl, rfl, rfl, hp, hk⟩ |
    ⟨ahead, items, k, rfl, rfl, rfl⟩⟩ := Place.cases_of_charges hc hs
  · have hg : Fields.get fields name = s := Fields.get_of_get? hs
    have hfront : front = [.field name, .field "body"] ∧ i = ahead := by
      simp only [Place.along, hp, Value.field_record, hg, Slot.enter, hk, Bool.false_eq_true,
        if_false, ownCharges, hu] at he
      have he : ([.field name, .field "body"] : Path) ++ [.item (ahead + 1)] =
        front ++ [.item (i + 1)] := he
      obtain ⟨hf, hi⟩ := List.append_inj' he rfl
      simp only [List.cons.injEq, Edge.item.injEq, and_true] at hi
      exact ⟨hf.symm, by omega⟩
    obtain ⟨rfl, rfl⟩ := hfront
    cases other with
    | item j => cases ho
    | field name' =>
      by_cases hn : name' = name
      · subst hn
        rw [he]
        simp
      · simp only [Place.along, Slot.enter]
        split <;> try split
        all_goals simp [hn]
  · cases other with
    | field name => cases ho
    | item j =>
      have hj : j < items.length := (List.getElem?_eq_some_iff.mp ho).1
      have hne := outIndex_ne hs hu hj
      intro e
      have he : ([] : Path) ++ [.item (ahead + outIndex items k)] = front ++ [.item (i + 1)] := he
      have e : ([] : Path) ++ [.item (ahead + outIndex items j)] = front ++ [.item i] := e
      have h1 := (List.append_inj' he rfl).2
      have h2 := (List.append_inj' e rfl).2
      simp only [List.cons.injEq, Edge.item.injEq, and_true] at h1 h2
      omega

end BehindCharge

/-! ## Coverage -/

/-- Where a part of a tree stands in the instrumented tree. -/
def Value.moved (tree : Value) (path : Path) : Path :=
  (Place.node.follow tree path).1

theorem Place.follow_append {place : Place} {v w : Value} {front back : Path}
    (h : v.at? front = some w) :
    place.follow v (front ++ back) =
      ((place.follow v front).1 ++ ((place.follow v front).2.follow w back).1,
        ((place.follow v front).2.follow w back).2) := by
  induction front generalizing place v with
  | nil =>
    cases h
    rfl
  | cons edge rest ih =>
    obtain ⟨u, hu, hr⟩ : ∃ u, v.child? edge = some u ∧ u.at? rest = some w := Value.at?_cons.mp h
    simp only [List.cons_append, Place.follow, hu, ih hr, List.append_assoc]

/-- A statement of a tree, below its root. -/
structure StatementAt (tree : Value) (path : Path) (parent : Value) (edge : Edge) (s : Value) :
    Prop where
  parent_at : tree.at? path = some parent
  child : parent.child? edge = some s
  /-- Functions, classes, loops, branches and the like lead to it. -/
  reached : tree.reaches (path ++ [edge]) = true
  statement : s.isAny listedKinds = true
  charged : isUncharged s = false
  /-- Blocks that are bodies, branches or parts of a `try` belong to the statement around. -/
  block_in_list : s.hasKind "BlockStatement" = true → ∃ i, edge = .item i

section Coverage

variable {m : Instrumenter} {tree out parent s : Value} {path : Path} {edge : Edge}

theorem hasKind_label_of_slot {fields : Fields} {name : String}
    (hg : (Value.record fields).grammatical = true)
    (hl : (Value.record fields).leads (.field name) = true) (hw : Fields.get? fields name = some s)
    (hs : s.isAny listedKinds = true) (hb : s.hasKind "BlockStatement" = false)
    (hd : (Value.record fields).container.slot name = .direct .node) :
    (Value.record fields).hasKind "LabeledStatement" = true := by
  obtain ⟨kind, content, he, hk, ha⟩ := Value.exists_content hg hl hw
  rw [Value.container_of_hasKind hk] at hd
  rcases grammar_entered _ he with hc | he
  · subst hc
    cases hd
  · cases content with
    | list kinds | cases => simp [entersAs, hd] at he
    | one kinds =>
      simp only [entersAs, hd, Bool.and_eq_true, Bool.or_eq_true, beq_iff_eq,
        List.all_eq_true] at he
      rcases he.2 with hlabel | hkinds
      · rw [← hlabel]
        exact hk
      · rcases Bool.or_eq_true_iff.mp ha with hn | hany
        · have ht := Value.truthy_of_isAny hs
          obtain rfl : s = .null := by cases s <;> first | rfl | cases hn
          cases ht
        · obtain ⟨k, hm, hsk⟩ := List.any_eq_true.mp hany
          obtain ⟨k', hm', hsk'⟩ := List.any_eq_true.mp hs
          rcases hkinds k hm with rfl | hno
          · rw [hsk] at hb
            cases hb
          · rw [Value.eq_of_hasKind hsk hsk'] at hno
            simp [hm'] at hno
    | arrowBody =>
      simp only [Content.allows, hb, hs] at ha
      simp at ha

theorem label_in_grammar :
    ∀ entry ∈ grammar, entry.1 = "LabeledStatement" → entry.2.1 = "body" := by
  decide

theorem Place.eq_node_of_fits {place : Place} (h : place.Fits s) (hs : s.isAny listedKinds = true)
    (hp : place ≠ .pass) : place = .node := by
  obtain ⟨kind, hm, hk⟩ := List.any_eq_true.mp hs
  cases place with
  | node => rfl
  | pass => contradiction
  | list _ | cases =>
    obtain ⟨_, rfl, _⟩ := h
    cases hk
  | case =>
    rw [Value.eq_of_hasKind hk h] at hm
    revert hm
    decide
  | kept => exact h.elim

/-- The walk instruments every statement as a node. -/
theorem Place.Fits.along_eq_node {place : Place} (hf : place.Fits parent)
    (hg : parent.grammatical = true) (hl : parent.leads edge = true)
    (hc : parent.child? edge = some s) (hs : s.isAny listedKinds = true)
    (hb : s.hasKind "BlockStatement" = true → ∃ i, edge = .item i) :
    (place.along parent edge).2 = .node := by
  have hfit := hf.along hg hl hc
  refine Place.eq_node_of_fits hfit hs fun hp => ?_
  rw [hp] at hfit
  obtain ⟨i, rfl⟩ := hb hfit
  revert hp
  unfold Place.along
  split <;> simp_all

theorem Place.Fits.along_label {place : Place} (hf : place.Fits parent)
    (hl : parent.leads edge = true) (hc : parent.child? edge = some s)
    (hk : parent.hasKind "LabeledStatement" = true) :
    (place.along parent edge).1 = [.field "body"] := by
  cases parent with
  | record fields =>
    cases edge with
    | item i => cases hc
    | field name =>
      simp only [Value.leads, List.any_eq_true, Bool.and_eq_true, beq_iff_eq] at hl
      obtain ⟨entry, he, hk', rfl⟩ := hl
      rw [label_in_grammar entry he (Value.eq_of_hasKind hk' hk)] at hc ⊢
      cases place with
      | node =>
        simp only [Place.along, Value.container_of_hasKind hk]
        rfl
      | pass => exact absurd (Value.eq_of_hasKind hk hf) (by decide)
      | case => exact absurd (Value.eq_of_hasKind hk hf) (by decide)
      | list _ | cases =>
        obtain ⟨_, e, _⟩ := hf
        cases e
      | kept => exact hf.elim
  | _ => cases hk

/-- The walk charges every statement that is not the body of a label. -/
theorem Place.Fits.charges {place : Place} (hf : place.Fits parent)
    (hs : StatementAt tree path parent edge s) (hg : parent.grammatical = true)
    (hl : parent.leads edge = true) (hk : parent.hasKind "LabeledStatement" = false) :
    place.charges parent edge = true := by
  have hnode := hf.along_eq_node hg hl hs.child hs.statement hs.block_in_list
  have hc := hs.child
  rcases Place.eq_of_along_node hnode with ⟨name, rfl, rfl⟩ | ⟨ahead, items, i, rfl, rfl, rfl⟩
  · have hb : s.hasKind "BlockStatement" = false := by
      cases hb : s.hasKind "BlockStatement" with
      | false => rfl
      | true =>
        obtain ⟨_, e⟩ := hs.block_in_list hb
        cases e
    cases parent with
    | record fields =>
      have hget : Fields.get fields name = s := Fields.get_of_get? hc
      simp only [Place.charges, Value.field_record, hget]
      split
      · rw [hs.charged, hb]
        rfl
      · rename_i place hslot
        simp only [Place.along, hslot, Slot.enter] at hnode
        rw [hnode] at hslot
        rw [hasKind_label_of_slot hg hl hc hs.statement hb hslot] at hk
        cases hk
    | _ => cases hc
  · simp only [Place.charges, show items[i]? = some s from hc, Option.all_some, hs.charged,
      Bool.not_false]

/-- A statement stands right behind a charge of its price, where no part of its parent stands. -/
def BehindOwnCharge (m : Instrumenter) (tree out : Value) (path : Path) (parent : Value)
    (edge : Edge) (s : Value) : Prop :=
  ∃ front i gamma, tree.moved (path ++ [edge]) = front ++ [.item (i + 1)] ∧
    out.at? (front ++ [.item i]) = some (m.charge gamma) ∧
    (m.pricing.gammaFor 0 s).outcome = .ok gamma ∧
    ∀ other u, parent.child? other = some u →
      tree.moved (path ++ [other]) ≠ front ++ [.item i]

/-- **Statement coverage.** Every statement below the root of a tree of the grammar is found in
the instrumented tree, and right behind a charge of its price, unless it is the body of a label. -/
theorem statement_charged_iff_not_labelled (hg : tree.grammatical = true)
    (hp : tree.isPlain = true) (h : (m.node 0 tree).outcome = .ok out)
    (hs : StatementAt tree path parent edge s) :
    (∃ s' l, out.at? (tree.moved (path ++ [edge])) = some s' ∧ Instrumented m 0 s s' l) ∧
      (BehindOwnCharge m tree out path parent edge s ↔
        parent.hasKind "LabeledStatement" = false) := by
  have hl := Value.listShaped_of_grammatical hg
  have ht := Value.truthy_of_isAny hs.statement
  have hreach := hs.reached
  rw [Value.reaches_append hs.parent_at] at hreach
  simp only [Value.reaches, hs.child, Bool.and_eq_true] at hreach
  obtain ⟨hreach, hleads, -⟩ := hreach
  -- the walk stands to the parent as the grammar asks
  have hroot : Place.node.Relates m 0 tree out := ⟨_, node_sound (Metered.outcome_ok_iff.mp h)⟩
  have hfit : (Place.node.follow tree path).2.Fits parent :=
    .follow hp hg hreach hs.parent_at
  obtain ⟨parent', hparent, hrel⟩ :=
    hroot.follow hl hs.parent_at (Value.truthy_of_child? hs.child)
  have hgp : parent.grammatical = true := Value.everywhere_at? hg hs.parent_at
  have hlp : parent.listShaped = true := Value.everywhere_at? hl hs.parent_at
  -- and so to the statement
  have hmoved {other : Edge} {u : Value} (ho : parent.child? other = some u) :
      tree.moved (path ++ [other]) = (Place.node.follow tree path).1 ++
        ((Place.node.follow tree path).2.along parent other).1 := by
    simp [Value.moved, Place.follow_append hs.parent_at, Place.follow, ho]
  have hnode := hfit.along_eq_node hgp hleads hs.child hs.statement hs.block_in_list
  obtain ⟨s', hs', hr⟩ := hrel.along hlp hs.child ht
  rw [hnode] at hr
  obtain ⟨l, hi⟩ := hr
  refine ⟨⟨s', l, ?_, hi⟩, fun hb => ?_, fun hk => ?_⟩
  · rw [hmoved hs.child, Value.at?_append hparent]
    exact hs'
  · cases hk : parent.hasKind "LabeledStatement" with
    | false => rfl
    | true =>
      obtain ⟨front, i, _, e, _, _, _⟩ := hb
      rw [hmoved hs.child, hfit.along_label hleads hs.child hk] at e
      cases (List.append_inj' e rfl).2
  · have hc := hfit.charges hs hgp hleads hk
    obtain ⟨front, i, gamma, he, hcharge, hgamma⟩ := hrel.behindCharge hs.child ht hc
    refine ⟨(Place.node.follow tree path).1 ++ front, i, gamma, ?_, ?_, hgamma, ?_⟩
    · rw [hmoved hs.child, he, List.append_assoc]
    · rw [List.append_assoc, Value.at?_append hparent]
      exact hcharge
    · intro other u ho e
      rw [hmoved ho, List.append_assoc] at e
      exact Place.along_ne_of_charges hc hs.child ho he (List.append_cancel_left e)

end Coverage

open Sample (program increment whileLess labelled)

theorem statement_charged_iff_not_labelled_of_loop :
    (program [labelled (whileLess increment)]).grammatical = true ∧
      (program [labelled (whileLess increment)]).isPlain = true ∧
      ∃ out, (Instrumenter.sample.node 0 (program [labelled (whileLess increment)])).outcome =
        .ok out ∧
        StatementAt (program [labelled (whileLess increment)])
          [.field "body", .item 0, .field "body"] (whileLess increment) (.field "body")
          increment ∧
        BehindOwnCharge Instrumenter.sample (program [labelled (whileLess increment)]) out
          [.field "body", .item 0, .field "body"] (whileLess increment) (.field "body")
          increment := by
  have hs : StatementAt (program [labelled (whileLess increment)])
      [.field "body", .item 0, .field "body"] (whileLess increment) (.field "body") increment :=
    ⟨rfl, rfl, rfl, by decide, by decide, fun h => nomatch h⟩
  have hg : (program [labelled (whileLess increment)]).grammatical = true := by decide
  exact ⟨hg, rfl, _, rfl, hs,
    (statement_charged_iff_not_labelled hg rfl rfl hs).2.mpr rfl⟩

/-- The statement behind `l: a++;` costs something, but only the label is charged, for nothing. -/
theorem labelled_body_is_not_charged :
    (Instrumenter.sample.node 0 (program [labelled increment])).outcome =
        .ok (program [Instrumenter.sample.charge 0, labelled increment]) ∧
      (Instrumenter.sample.node 0 (program [labelled increment])).ledger.charges.map
        Charge.gamma = [0] ∧
      StatementAt (program [labelled increment]) [.field "body", .item 0] (labelled increment)
        (.field "body") increment ∧
      (Instrumenter.sample.pricing.gammaFor 0 increment).outcome = .ok 6 ∧
      ¬ BehindOwnCharge Instrumenter.sample (program [labelled increment])
        (program [Instrumenter.sample.charge 0, labelled increment]) [.field "body", .item 0]
        (labelled increment) (.field "body") increment := by
  refine ⟨rfl, rfl, ⟨rfl, rfl, rfl, by decide, by decide, fun h => nomatch h⟩, rfl, ?_⟩
  rintro ⟨front, i, _, e, _⟩
  have e : ([.field "body", .item 1] : Path) ++ [.field "body"] = front ++ [.item (i + 1)] := e
  cases (List.append_inj' e rfl).2

end ContractMeter
