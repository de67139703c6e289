import ContractMeter.Proofs.Shape

/-!
# ContractMeter.Proofs.Position

Where the parts of a tree stand after it is instrumented.

* `Place` — how the walk stands to a value: it instruments it as a node, goes through it as a
  list, or keeps it.
* `Place.follow` — the path in the instrumented tree of what a path leads to, and its place.

`Place.Relates.follow` says that each part stands there, instrumented if the walk enters it and
unchanged if it does not.
-/

namespace ContractMeter

open Instrumenter (block prepend loopBody isUncharged)

/-! ## Indices -/

namespace Instrumenter

/-- The number of charges that stand right before a statement of a list. -/
def ownCharges (statement : Value) : Nat :=
  if isUncharged statement then 0 else 1

/-- The index that an element of a list has among the instrumented statements. -/
def outIndex : List Value → Nat → Nat
  | [], i => i
  | s :: _, 0 => ownCharges s
  | s :: rest, i + 1 => ownCharges s + 1 + outIndex rest i

end Instrumenter

open Instrumenter (ownCharges outIndex prepend_block)

/-! ## Places -/

/-- How the walk stands to a value. -/
inductive Place where
  | node
  /-- The value is the block a loop runs, which starts with the charge for a pass. -/
  | pass
  /-- It charges the elements of a list, behind so many charges. -/
  | list (ahead : Nat)
  | cases
  | case
  /-- It does not enter the value. -/
  | kept
deriving DecidableEq

/-- What a field of a node holds. -/
inductive Slot where
  | direct (place : Place)
  /-- A part in statement position: a block at a place, or a bare statement, which gets a block
  and stands in it behind so many charges and its own. -/
  | part (block : Place) (ahead : Nat)

def Container.slot : Container → String → Slot
  | .sequence, "body" => .direct (.list 0)
  | .body, "body" => .direct .node
  | .loop, "body" => .part .pass 1
  | .statementBody, "body" => .part .node 0
  | .value, "value" => .direct .node
  | .branch, "consequent" => .part .node 0
  | .branch, "alternate" => .part .node 0
  | .attempt, "block" => .direct .node
  | .attempt, "handler" => .direct .node
  | .attempt, "finalizer" => .direct .node
  | .switch, "cases" => .direct .cases
  | _, _ => .direct .kept

/-- The way into a field that holds `v`: the edges that lead there in the instrumented tree, and
the place of `v`. -/
def Slot.enter (name : String) (v : Value) : Slot → Path × Place
  | .direct place => ([.field name], place)
  | .part block ahead =>
    if v.hasKind "BlockStatement" then ([.field name], block)
    else ([.field name, .field "body", .item (ahead + ownCharges v)], .node)

namespace Place

/-- The way along an edge out of a value. -/
def along (place : Place) (v : Value) (edge : Edge) : Path × Place :=
  match place, v, edge with
  | node, _, .field name => (v.container.slot name).enter name (v.field name)
  | pass, _, .field "body" => ([edge], list 1)
  | list ahead, .list items, .item i => ([.item (ahead + outIndex items i)], node)
  | cases, _, .item _ => ([edge], case)
  | case, _, .field "consequent" => ([edge], list 0)
  | _, _, _ => ([edge], kept)

/-- Whether the walk charges what an edge leads to. -/
def charges (place : Place) (v : Value) (edge : Edge) : Bool :=
  match place, v, edge with
  | .list _, .list items, .item i => items[i]?.all fun s => !isUncharged s
  | .node, _, .field name =>
    match v.container.slot name with
    | .part _ _ => !isUncharged (v.field name) && !(v.field name).hasKind "BlockStatement"
    | .direct _ => false
  | _, _, _ => false

/-- Where a path out of a value leads. -/
def follow (place : Place) (v : Value) : Path → Path × Place
  | [] => ([], place)
  | edge :: rest =>
    match v.child? edge with
    | some w => ((place.along v edge).1 ++ ((place.along v edge).2.follow w rest).1,
        ((place.along v edge).2.follow w rest).2)
    | none => (edge :: rest, kept)

/-- What a walk makes of a value at a place. -/
def Relates (m : Instrumenter) (start : Int) (v v' : Value) : Place → Prop
  | node => ∃ l, Instrumented m start v v' l
  | pass => ∃ fields items items' gamma l, v = .record fields ∧
      (∀ w, Fields.get? fields "body" = some w → w = .list items) ∧
      InstrumentedList m start items items' l ∧
      v' = .record (Fields.set fields "body" (.list (m.charge gamma :: items')))
  | list ahead => ∃ items front items' l, v = .list items ∧ front.length = ahead ∧
      InstrumentedList m start items items' l ∧ v' = .list (front ++ items')
  | cases => ∃ cases cases' l, v = .list cases ∧
      (∀ c ∈ cases, Value.isListOrAbsent (c.field? "consequent") = true) ∧
      InstrumentedCases m start cases cases' l ∧ v' = .list cases'
  | case => ∃ fields items items' l, v = .record fields ∧
      (∀ w, Fields.get? fields "consequent" = some w → w = .list items) ∧
      InstrumentedList m start items items' l ∧
      v' = .record (Fields.set fields "consequent" (.list items'))
  | kept => v' = v

end Place

/-! ## Following the walk -/

section Lists

variable {m : Instrumenter} {start : Int}

theorem InstrumentedList.item {items items' : List Value} {l : Ledger} {i : Nat} {s : Value}
    (hi : items[i]? = some s) : InstrumentedList m start items items' l →
      ∃ s' l', items'[outIndex items i]? = some s' ∧ Instrumented m start s s' l'
  | .nil => by simp at hi
  | .uncharged h hu hs => by
    rw [h.isUncharged_eq] at hu
    cases i with
    | zero =>
      simp only [List.getElem?_cons_zero, Option.some.injEq] at hi
      subst hi
      exact ⟨_, _, by simp [outIndex, ownCharges, hu], h⟩
    | succ i =>
      obtain ⟨s', l', hi', h'⟩ := hs.item (by simpa using hi)
      refine ⟨s', l', ?_, h'⟩
      rw [outIndex, ownCharges, hu, if_pos rfl, Nat.add_comm, List.getElem?_cons_succ]
      exact hi'
  | .charged h hu _ _ hs => by
    rw [h.isUncharged_eq] at hu
    cases i with
    | zero =>
      simp only [List.getElem?_cons_zero, Option.some.injEq] at hi
      subst hi
      exact ⟨_, _, by simp [outIndex, ownCharges, hu], h⟩
    | succ i =>
      obtain ⟨s', l', hi', h'⟩ := hs.item (by simpa using hi)
      refine ⟨s', l', ?_, h'⟩
      rw [outIndex, ownCharges, hu, if_neg (by simp), Nat.add_comm, List.getElem?_cons_succ,
        List.getElem?_cons_succ]
      exact hi'

theorem InstrumentedCases.item {cases cases' : List Value} {l : Ledger} {i : Nat} {c : Value}
    (hi : cases[i]? = some c)
    (hl : ∀ c ∈ cases, Value.isListOrAbsent (c.field? "consequent") = true) :
    InstrumentedCases m start cases cases' l →
      ∃ c', cases'[i]? = some c' ∧ Place.case.Relates m start c c'
  | .nil => by simp at hi
  | .cons hb h hs => by
    cases i with
    | zero =>
      simp only [List.getElem?_cons_zero, Option.some.injEq] at hi
      subst hi
      have hf := Value.eq_list_of_elements (hl _ List.mem_cons_self) hb
      exact ⟨_, rfl, _, _, _, _, rfl, hf, h, rfl⟩
    | succ i =>
      obtain ⟨c', hi', hr⟩ :=
        hs.item (by simpa using hi) fun c hc => hl c (List.mem_cons_of_mem _ hc)
      exact ⟨c', by simpa using hi', hr⟩

variable {fields' : Fields} {name : String} {v v' : Value} {l : Ledger}

theorem InstrumentedPart.enter_node (hn : v ≠ .null) (h : InstrumentedPart m start v v' l)
    (hf : Fields.get? fields' name = some v') :
    ∃ w', (Value.record fields').at? ((Slot.part .node 0).enter name v).1 = some w' ∧
      ((Slot.part .node 0).enter name v).2.Relates m start v w' := by
  cases h with
  | null => contradiction
  | block hk hb h =>
    simp only [Slot.enter, hk, if_true]
    have hs := Instrumented.sequence (Value.container_of_hasKind hk) hb h
    exact ⟨_, Value.at?_of_child? hf, _, hs⟩
  | bare _ hk h =>
    obtain ⟨s', l', hi, hs⟩ := InstrumentedList.item (i := 0) rfl h
    rw [outIndex] at hi
    simp only [Slot.enter, hk, Bool.false_eq_true, if_false, Nat.zero_add]
    refine ⟨s', ?_, l', hs⟩
    rw [Value.at?_field hf, Instrumenter.block, Value.at?_field rfl, Value.at?_item hi,
      Value.at?_nil]

theorem InstrumentedPart.enter_pass {gamma : Nat} (hn : v ≠ .null) (hv : v.listShaped = true)
    (h : InstrumentedPart m start v v' l)
    (hf : Fields.get? fields' name = some (prepend (m.charge gamma) v')) :
    ∃ w', (Value.record fields').at? ((Slot.part .pass 1).enter name v).1 = some w' ∧
      ((Slot.part .pass 1).enter name v).2.Relates m start v w' := by
  cases h with
  | null => contradiction
  | @block fields items items' _ hk hb h =>
    simp only [Slot.enter, hk, if_true]
    refine ⟨_, Value.at?_of_child? hf, fields, items, items', gamma, l, rfl, ?_, h, ?_⟩
    · exact Value.eq_list_of_elements
        (Value.isListOrAbsent_body hv (Value.container_of_hasKind hk)) hb
    · simp [prepend, Fields.get_set]
  | bare _ hk h =>
    obtain ⟨s', l', hi, hs⟩ := InstrumentedList.item (i := 0) rfl h
    rw [outIndex] at hi
    simp only [Slot.enter, hk, Bool.false_eq_true, if_false, Nat.add_comm 1]
    refine ⟨s', ?_, l', hs⟩
    have hi' : (m.charge gamma :: _)[ownCharges v + 1]? = some s' := hi
    rw [Value.at?_field hf, prepend_block, Instrumenter.block, Value.at?_field rfl,
      Value.at?_item hi', Value.at?_nil]

end Lists

section Fields

variable {m : Instrumenter} {start : Int} {fields fields' : Fields} {c : Container}
  {name : String} {w : Value} {l : Ledger}

theorem InstrumentedFields.get?_of_kept (h : InstrumentedFields m start fields fields' l c)
    (hn : c.slot name = .direct .kept) : Fields.get? fields' name = Fields.get? fields name := by
  cases c with
  | leaf =>
    obtain ⟨rfl, _⟩ := h
    rfl
  | sequence =>
    obtain ⟨_, _, _, _, rfl⟩ := h
    exact Fields.get?_set_of_ne (by rintro rfl; cases hn)
  | body | statementBody | value =>
    obtain ⟨_, _, rfl⟩ := h
    exact Fields.get?_set_of_ne (by rintro rfl; cases hn)
  | loop =>
    obtain ⟨_, _, _, _, _, _, _, _, _, _, _, rfl, _⟩ := h
    exact Fields.get?_set_of_ne (by rintro rfl; cases hn)
  | branch =>
    obtain ⟨_, _, _, _, _, _, rfl, _⟩ := h
    rw [Fields.get?_set_of_ne (by rintro rfl; cases hn),
      Fields.get?_set_of_ne (by rintro rfl; cases hn)]
  | attempt =>
    obtain ⟨_, _, _, _, _, _, _, _, _, rfl, _⟩ := h
    rw [Fields.get?_set_of_ne (by rintro rfl; cases hn),
      Fields.get?_set_of_ne (by rintro rfl; cases hn),
      Fields.get?_set_of_ne (by rintro rfl; cases hn)]
  | switch =>
    obtain ⟨_, _, _, _, rfl⟩ := h
    exact Fields.get?_set_of_ne (by rintro rfl; cases hn)

theorem Place.relates_child {v' w : Value} {edge : Edge} (h : v'.child? edge = some w) :
    ∃ w', v'.at? [edge] = some w' ∧ Place.kept.Relates m start w w' :=
  ⟨w, Value.at?_of_child? h, rfl⟩

theorem InstrumentedFields.enter (hv : (Value.record fields).listShaped = true)
    (hc : (Value.record fields).container = c)
    (h : InstrumentedFields m start fields fields' l c)
    (hw : Fields.get? fields name = some w) (ht : w.truthy = true) :
    ∃ w', (Value.record fields').at? ((c.slot name).enter name w).1 = some w' ∧
      ((c.slot name).enter name w).2.Relates m start w w' := by
  have hg : Fields.get fields name = w := Fields.get_of_get? hw
  have hn : w ≠ .null := by
    rintro rfl
    cases ht
  have hs : w.listShaped = true := hg ▸ Value.listShaped_get hv name
  by_cases hk : c.slot name = .direct .kept
  · rw [hk]
    exact Place.relates_child (by rw [Value.child?_field, h.get?_of_kept hk, hw])
  · revert hk
    unfold Container.slot
    split <;> intro hk
    case h_1 =>
      obtain ⟨items, items', hb, h, rfl⟩ := h
      have e := Value.eq_list_of_elements (Value.isListOrAbsent_body hv hc) hb w hw
      exact ⟨_, Value.at?_field (Fields.get?_set_self ..), items, [], items', l, e, rfl, h, rfl⟩
    case h_2 =>
      obtain ⟨body, h, rfl⟩ := h
      rw [hg] at h
      exact ⟨_, Value.at?_field (Fields.get?_set_self ..), l, h⟩
    case h_3 =>
      obtain ⟨_, _, gamma, body, _, _, _, _, _, _, h, rfl, _⟩ := h
      have hb : loopBody fields = w := by simp [loopBody, hg, ht]
      rw [hb] at h
      exact h.enter_pass hn hs (Fields.get?_set_self ..)
    case h_4 =>
      obtain ⟨body, h, rfl⟩ := h
      rw [hg] at h
      exact h.enter_node hn (Fields.get?_set_self ..)
    case h_5 =>
      obtain ⟨body, h, rfl⟩ := h
      rw [hg] at h
      exact ⟨_, Value.at?_field (Fields.get?_set_self ..), l, h⟩
    case h_6 =>
      obtain ⟨consequent, alternate, l₁, _, h, _, rfl, _⟩ := h
      rw [hg] at h
      exact h.enter_node hn (by simp [Fields.get?_set])
    case h_7 =>
      obtain ⟨consequent, alternate, _, l₂, _, h, rfl, _⟩ := h
      rw [hg] at h
      exact h.enter_node hn (by simp)
    case h_8 =>
      obtain ⟨_, _, _, l₁, _, _, h, _, _, rfl, _⟩ := h
      rw [hg] at h
      exact ⟨_, Value.at?_field (by simp [Fields.get?_set]), l₁, h⟩
    case h_9 =>
      obtain ⟨_, _, _, _, l₂, _, _, h, _, rfl, _⟩ := h
      rw [hg] at h
      exact ⟨_, Value.at?_field (by simp [Fields.get?_set]), l₂, h⟩
    case h_10 =>
      obtain ⟨_, _, _, _, _, l₃, _, _, h, rfl, _⟩ := h
      rw [hg] at h
      exact ⟨_, Value.at?_field (by simp), l₃, h⟩
    case h_11 =>
      obtain ⟨cases, cases', hb, h, rfl⟩ := h
      obtain ⟨hl, _, hcs⟩ := Value.cases_of_listShaped hv hc hb
      have e := Value.eq_list_of_elements hl hb w hw
      exact ⟨_, Value.at?_field (Fields.get?_set_self ..), cases, cases', l, e, hcs, h, rfl⟩
    case h_12 => exact absurd rfl hk

end Fields

section Follow

variable {m : Instrumenter} {start : Int}

theorem Place.Relates.along {place : Place} {v v' w : Value} {edge : Edge}
    (h : place.Relates m start v v') (hv : v.listShaped = true) (hw : v.child? edge = some w)
    (ht : w.truthy = true) :
    ∃ w', v'.at? (place.along v edge).1 = some w' ∧
      (place.along v edge).2.Relates m start w w' := by
  cases place with
  | node =>
    obtain ⟨l, h⟩ := h
    cases v with
    | record fields =>
      cases edge with
      | field name =>
        obtain ⟨fields', rfl, hf⟩ := h.fields rfl
        have hg : (Value.record fields).field name = w :=
          Fields.get_of_get? hw
        simp only [Place.along, hg]
        exact hf.enter hv rfl hw ht
      | item i => cases hw
    | list items =>
      obtain rfl := h.eq_of_leaf rfl
      cases edge with
      | field name => cases hw
      | item i => exact Place.relates_child hw
    | _ => cases edge <;> cases hw
  | pass =>
    obtain ⟨fields, items, items', gamma, l, rfl, hf, h, rfl⟩ := h
    cases edge with
    | field name =>
      by_cases hn : name = "body"
      · subst hn
        exact ⟨_, Value.at?_field (Fields.get?_set_self ..), items, [m.charge gamma], items', l,
          hf w hw, rfl, h, rfl⟩
      · have hk : Place.pass.along (.record fields) (.field name) = ([.field name], .kept) := by
          unfold Place.along
          split <;> simp_all
        rw [hk]
        exact Place.relates_child (by rw [Value.child?_field, Fields.get?_set_of_ne hn]; exact hw)
    | item i => cases hw
  | list ahead =>
    obtain ⟨items, front, items', l, rfl, rfl, h, rfl⟩ := h
    cases edge with
    | field name => cases hw
    | item i =>
      obtain ⟨s', l', hi, hs⟩ := h.item hw
      refine ⟨s', Value.at?_item ?_, l', hs⟩
      rw [List.getElem?_append_right (Nat.le_add_right ..), Nat.add_sub_cancel_left]
      exact hi
  | cases =>
    obtain ⟨cases, cases', l, rfl, hl, h, rfl⟩ := h
    cases edge with
    | field name => cases hw
    | item i =>
      obtain ⟨c', hi, hc⟩ := h.item hw hl
      exact ⟨c', Value.at?_item hi, hc⟩
  | case =>
    obtain ⟨fields, items, items', l, rfl, hf, h, rfl⟩ := h
    cases edge with
    | field name =>
      by_cases hn : name = "consequent"
      · subst hn
        exact ⟨_, Value.at?_field (Fields.get?_set_self ..), items, [], items', l, hf w hw, rfl, h,
          rfl⟩
      · have hk : Place.case.along (.record fields) (.field name) = ([.field name], .kept) := by
          unfold Place.along
          split <;> simp_all
        rw [hk]
        exact Place.relates_child (by rw [Value.child?_field, Fields.get?_set_of_ne hn]; exact hw)
    | item i => cases hw
  | kept =>
    obtain rfl : v' = v := h
    exact Place.relates_child hw

/-- What stands at a path in a tree stands in the instrumented tree where the path leads. -/
theorem Place.Relates.follow {place : Place} {v v' s : Value} {path : Path}
    (h : place.Relates m start v v') (hv : v.listShaped = true) (hs : v.at? path = some s)
    (ht : s.truthy = true) :
    ∃ s', v'.at? (place.follow v path).1 = some s' ∧
      (place.follow v path).2.Relates m start s s' := by
  induction path generalizing place v v' with
  | nil =>
    cases hs
    exact ⟨v', rfl, h⟩
  | cons edge rest ih =>
    obtain ⟨w, hw, hr⟩ : ∃ w, v.child? edge = some w ∧ w.at? rest = some s := Value.at?_cons.mp hs
    obtain ⟨w', hw', hp⟩ := h.along hv hw (Value.truthy_of_at? hr ht)
    obtain ⟨s', hs', hq⟩ := ih hp (Value.everywhere_child? hv hw) hr
    simp only [Place.follow, hw]
    exact ⟨s', (Value.at?_append hw').trans hs', hq⟩

end Follow

end ContractMeter
