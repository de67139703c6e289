import ContractMeter.Proofs.Coverage

/-!
# ContractMeter.Proofs.StrictMode

What strict pricing says about functions and classes that are expressions. The walk instruments
those it enters, and a strict price rejects those it sees; what neither comes to is a blind spot.

* `PriceRule.parts`, `Pricing.Priced` — the parts that a price is made of have prices.
* `View` — how the walk or a price comes to a position.
* `strict_covers_code_iff` — strict instrumenting enters all code exactly if none is in a blind
  spot.
-/

namespace ContractMeter

open Metered

/-! ## The parts of a price -/

/-- The fields whose price a rule takes. -/
def PriceRule.parts : PriceRule → List String
  | .expression => ["expression"]
  | .argument => ["argument"]
  | .declarations => ["declarations"]
  | .declarator => ["init"]
  | .assignment => ["right"]
  | .test => ["test"]
  | .testAndInit => ["test", "init"]
  | .free | .operator | .unpriced => []

/-- The rule that prices a value. -/
def PriceRule.ofValue (v : Value) : PriceRule :=
  match v.kind with
  | .text kind => ofKind kind
  | _ => .unpriced

/-- Whether the price of a value is made of the price of what an edge leads to. -/
def Value.pricesInto (v : Value) : Edge → Bool
  | .field name => (PriceRule.ofValue v).parts.contains name
  | .item _ => true

namespace Pricing

/-- A value that a price was asked of, and given. Null parts and declared literals are not priced
as computations. -/
def Priced (p : Pricing) (v : Value) : Prop :=
  v = .null ∨ v.hasKind "Literal" = true ∨ ∃ n l g, (p.gammaAt n v).Yields l g

variable {p : Pricing} {v w : Value} {l : Ledger} {g n : Nat}

theorem sumOf_item {price : Value → Metered Nat} {items : List Value} (hm : v ∈ items)
    (h : (sumOf price items).Yields l g) : ∃ l g, (price v).Yields l g := by
  induction items generalizing l g with
  | nil => cases hm
  | cons item rest ih =>
    simp only [sumOf, yields_bind, yields_map] at h
    obtain ⟨l₁, g₁, l₂, h₁, ⟨g₂, h₂, rfl⟩, rfl⟩ := h
    rcases List.mem_cons.mp hm with rfl | hm
    · exact ⟨l₁, g₁, h₁⟩
    · exact ih hm h₂

theorem priced_optional (h : (optional (p.gammaAt n) v).Yields l g) : p.Priced v := by
  by_cases hn : v = .null
  · exact .inl hn
  · refine .inr (.inr ⟨n, l, g, ?_⟩)
    unfold optional at h
    split at h
    · contradiction
    · exact h

theorem priced_initial (h : (initial (p.gammaAt n) v).Yields l g) : p.Priced v := by
  unfold initial at h
  split at h
  · exact .inl rfl
  · split at h
    · exact .inr (.inl ‹_›)
    · exact .inr (.inr ⟨n, l, g, h⟩)

theorem priced_byRule {rule : PriceRule} {fields : Fields} {name : String}
    (h : (p.byRule (p.gammaAt n) rule (.record fields)).Yields l g)
    (hn : rule.parts.contains name = true) (hw : Fields.get? fields name = some w) :
    p.Priced w := by
  have hg : Fields.get fields name = w := Fields.get_of_get? hw
  cases rule with
  | free | operator | unpriced => cases hn
  | expression =>
    obtain rfl : name = "expression" := by simpa [PriceRule.parts] using hn
    simp only [byRule, required, Value.field?_record, hw, yields_bind, yields_pure] at h
    obtain ⟨_, _, _, ⟨rfl, rfl⟩, hy, rfl⟩ := h
    exact .inr (.inr ⟨n, _, _, hy⟩)
  | argument =>
    obtain rfl : name = "argument" := by simpa [PriceRule.parts] using hn
    rw [byRule, Value.field_record, hg] at h
    exact priced_optional h
  | declarations =>
    obtain rfl : name = "declarations" := by simpa [PriceRule.parts] using hn
    simp only [byRule, Value.field?_record, hw, Option.getD_some] at h
    exact .inr (.inr ⟨n, l, g, h⟩)
  | declarator =>
    obtain rfl : name = "init" := by simpa [PriceRule.parts] using hn
    rw [byRule, Value.field_record, hg] at h
    exact priced_initial h
  | assignment =>
    obtain rfl : name = "right" := by simpa [PriceRule.parts] using hn
    simp only [byRule, Value.field_record, hg, yields_bind] at h
    obtain ⟨l₁, right, _, hy, _⟩ := h
    exact .inr (.inr ⟨n, l₁, right, hy⟩)
  | test =>
    obtain rfl : name = "test" := by simpa [PriceRule.parts] using hn
    rw [byRule, Value.field_record, hg] at h
    exact priced_optional h
  | testAndInit =>
    simp only [byRule, Value.field_record, yields_bind] at h
    obtain ⟨_, _, _, ht, ⟨_, _, _, hi, _⟩, _⟩ := h
    have hn : name = "test" ∨ name = "init" := by simpa [PriceRule.parts] using hn
    rcases hn with rfl | rfl
    · exact priced_optional (hg ▸ ht)
    · exact priced_optional (hg ▸ hi)

theorem ofValue_of_hasKind {kind : String} (h : v.hasKind kind = true) :
    PriceRule.ofValue v = PriceRule.ofKind kind := by
  simp only [PriceRule.ofValue, Value.kind, Value.hasKind_iff.mp h, Option.getD_some]

theorem Priced.child {edge : Edge} (h : p.Priced v) (he : v.pricesInto edge = true)
    (hw : v.child? edge = some w) : p.Priced w := by
  rcases h with rfl | hk | ⟨n, l, g, hy⟩
  · cases edge <;> cases hw
  · cases edge with
    | item i =>
      cases v with
      | list items => cases hk
      | _ => cases hw
    | field name =>
      rw [Value.pricesInto, ofValue_of_hasKind hk] at he
      cases he
  · cases n with
    | zero => simp [gammaAt, tooDeep] at hy
    | succ n =>
      cases v with
      | list items =>
        cases edge with
        | field name => cases hw
        | item i =>
          obtain ⟨l, g, hy⟩ := sumOf_item (List.mem_of_getElem? hw) hy
          exact .inr (.inr ⟨n, l, g, hy⟩)
      | record fields =>
        cases edge with
        | item i => cases hw
        | field name =>
          rw [gammaAt_succ (by simp)] at hy
          simp only [Value.pricesInto, PriceRule.ofValue] at he
          split at hy
          · rename_i kind hk
            rw [hk] at he
            exact priced_byRule hy he hw
          · rename_i hk
            split at he
            · exact absurd ‹_› (hk _)
            · cases he
      | _ => cases edge <;> cases hw

theorem not_priced_of_unpriced {kind : String} (hs : p.strict = true) (hk : v.hasKind kind = true)
    (hr : PriceRule.ofKind kind = .unpriced) : ¬ p.Priced v := by
  rintro (rfl | hk' | ⟨n, l, g, hy⟩)
  · cases hk
  · rw [Value.eq_of_hasKind hk hk'] at hr
    cases hr
  · cases n with
    | zero => simp [gammaAt, tooDeep] at hy
    | succ n =>
      have hf := Value.hasKind_iff.mp hk
      rw [gammaAt_succ (by rintro items rfl; cases hf)] at hy
      simp [Value.kind, hf, hr, byRule, unpriced, hs] at hy

theorem priced_perIteration {depth : Int} {fields : Fields} {name : String}
    (h : (p.gammaPerIteration depth (.record fields)).Yields l g)
    (hn : name = "test" ∨ name = "update") : p.Priced (Fields.get fields name) := by
  unfold gammaPerIteration at h
  cases hl : levelsLeft p.maxDepth depth with
  | zero => simp [hl, gammaPerIterationAt, tooDeep] at h
  | succ levels =>
    simp only [hl, gammaPerIterationAt, yields_bind] at h
    obtain ⟨_, _, _, ht, ⟨_, _, _, hu, _⟩, _⟩ := h
    rcases hn with rfl | rfl
    · exact priced_optional ht
    · exact priced_optional hu

end Pricing

/-! ## Views -/

/-- How the walk or a price comes to a position. -/
inductive View where
  /-- The walk comes to it, and charges it or does not. -/
  | entered (place : Place) (charged : Bool)
  /-- A price comes to it that the walk asked for further up. -/
  | priced
  | unseen
deriving DecidableEq

/-- Whether an edge leads to what a loop does between two passes. -/
def Value.repeats (v : Value) (edge : Edge) : Bool :=
  v.container == .loop && (edge == .field "test" || edge == .field "update")

namespace View

def place : View → Place
  | entered place _ => place
  | priced | unseen => .kept

def along (view : View) (v : Value) (edge : Edge) : View :=
  match view with
  | entered place charged =>
    if (place.along v edge).2 = .kept then
      if charged && v.pricesInto edge || place == .node && v.repeats edge then priced else unseen
    else entered (place.along v edge).2 (place.charges v edge)
  | priced => if v.pricesInto edge then priced else unseen
  | unseen => unseen

def follow (view : View) (v : Value) : Path → View
  | [] => view
  | edge :: rest =>
    match v.child? edge with
    | some w => (view.along v edge).follow w rest
    | none => unseen

/-- What holds of a value in view and of what is made of it. -/
def Holds (m : Instrumenter) (v v' : Value) : View → Prop
  | entered place charged => place.Relates m 0 v v' ∧ (charged = true → m.pricing.Priced v)
  | priced => v' = v ∧ m.pricing.Priced v
  | unseen => v' = v

end View

section View

variable {m : Instrumenter} {v v' w : Value} {edge : Edge}

theorem View.along_kept {place : Place} {charged : Bool} (h : (place.along v edge).2 = .kept) :
    (entered place charged).along v edge =
      if charged && v.pricesInto edge || place == .node && v.repeats edge then priced else unseen :=
  if_pos h

theorem View.along_entered {place : Place} {charged : Bool} (h : (place.along v edge).2 ≠ .kept) :
    (entered place charged).along v edge =
      entered (place.along v edge).2 (place.charges v edge) :=
  if_neg h

theorem View.place_along {view : View} :
    (view.along v edge).place = (view.place.along v edge).2 := by
  cases view with
  | entered place charged =>
    by_cases hk : (place.along v edge).2 = .kept
    · rw [along_kept hk]
      split <;> exact hk.symm
    · rw [along_entered hk]
      rfl
  | priced =>
    simp only [along]
    by_cases hp : v.pricesInto edge = true
    · rw [if_pos hp]
      rfl
    · rw [if_neg hp]
      rfl
  | unseen => rfl

theorem Place.priced_of_charges {place : Place} (h : place.Relates m 0 v v')
    (hc : place.charges v edge = true) (hw : v.child? edge = some w) (ht : w.truthy = true) :
    m.pricing.Priced w := by
  obtain ⟨_, _, gamma, _, _, hg⟩ := h.behindCharge hw ht hc
  exact .inr (.inr ⟨_, _, gamma, outcome_ok_iff.mp hg⟩)

theorem Place.priced_of_repeats (h : Place.node.Relates m 0 v v') (hr : v.repeats edge = true)
    (hw : v.child? edge = some w) : m.pricing.Priced w := by
  obtain ⟨l, h⟩ := h
  simp only [Value.repeats, Bool.and_eq_true, Bool.or_eq_true, beq_iff_eq] at hr
  obtain ⟨hc, he⟩ := hr
  cases v with
  | record fields =>
    obtain ⟨_, rfl, _, _, _, _, _, _, _, _, _, hp, _⟩ := h.fields hc
    rcases he with rfl | rfl
    · have hg : Fields.get fields "test" = w := Fields.get_of_get? hw
      exact hg ▸ Pricing.priced_perIteration hp (.inl rfl)
    · have hg : Fields.get fields "update" = w := Fields.get_of_get? hw
      exact hg ▸ Pricing.priced_perIteration hp (.inr rfl)
  | _ => rcases he with rfl | rfl <;> cases hw

theorem View.Holds.along {view : View} (h : view.Holds m v v') (hv : v.listShaped = true)
    (hw : v.child? edge = some w) (ht : w.truthy = true) :
    ∃ w', v'.at? (view.place.along v edge).1 = some w' ∧ (view.along v edge).Holds m w w' := by
  cases view with
  | entered place charged =>
    obtain ⟨hr, hp⟩ := h
    obtain ⟨w', hw', hr'⟩ := hr.along hv hw ht
    refine ⟨w', hw', ?_⟩
    by_cases hk : (place.along v edge).2 = .kept
    · rw [along_kept hk]
      rw [hk] at hr'
      split
      · rename_i hs
        refine ⟨hr', ?_⟩
        rw [Bool.or_eq_true_iff, Bool.and_eq_true_iff, Bool.and_eq_true_iff] at hs
        rcases hs with ⟨hc, he⟩ | ⟨hn, hl⟩
        · exact (hp hc).child he hw
        · obtain rfl : place = .node := by simpa using hn
          exact Place.priced_of_repeats hr hl hw
      · exact hr'
    · rw [along_entered hk]
      exact ⟨hr', fun hc => Place.priced_of_charges hr hc hw ht⟩
  | priced =>
    obtain ⟨rfl, hp⟩ := h
    refine ⟨w, Value.at?_of_child? hw, ?_⟩
    simp only [View.along]
    split
    · exact ⟨rfl, hp.child ‹_› hw⟩
    · exact rfl
  | unseen =>
    obtain rfl : v' = v := h
    exact ⟨w, Value.at?_of_child? hw, rfl⟩

/-- What is in view after a path stands in the instrumented tree where the path leads. -/
theorem View.Holds.follow {view : View} {s : Value} {path : Path} (h : view.Holds m v v')
    (hv : v.listShaped = true) (hs : v.at? path = some s) (ht : s.truthy = true) :
    ∃ s', v'.at? (view.place.follow v path).1 = some s' ∧ (view.follow v path).Holds m s s' := by
  induction path generalizing view v v' with
  | nil =>
    cases hs
    exact ⟨v', rfl, h⟩
  | cons edge rest ih =>
    obtain ⟨w, hw, hr⟩ : ∃ w, v.child? edge = some w ∧ w.at? rest = some s := Value.at?_cons.mp hs
    obtain ⟨w', hw', hp⟩ := h.along hv hw (Value.truthy_of_at? hr ht)
    obtain ⟨s', hs', hq⟩ := ih hp (Value.everywhere_child? hv hw) hr
    rw [View.place_along] at hs'
    simp only [Place.follow, View.follow, hw]
    exact ⟨s', (Value.at?_append hw').trans hs', hq⟩

end View

/-! ## Code in expressions -/

/-- Whether a value is a function with a block or a class, as an expression. -/
def Value.isCode (v : Value) : Bool :=
  v.hasKind "ClassExpression" ||
    (v.hasKind "FunctionExpression" || v.hasKind "ArrowFunctionExpression") &&
      (v.field "body").hasKind "BlockStatement"

/-- How the walk or a price comes to what stands at a path. -/
def Value.view (tree : Value) (path : Path) : View :=
  (View.entered .node false).follow tree path

/-- Whether neither the walk nor a price comes to the node at a path. -/
def Value.inBlindSpot (tree : Value) (path : Path) : Bool :=
  match tree.view path with
  | .entered .node _ => false
  | .priced => false
  | _ => true

section Code

variable {m : Instrumenter} {tree out s : Value} {path : Path}

/-- The walk comes to a node and instruments it. -/
def Entered (m : Instrumenter) (tree out : Value) (path : Path) (s : Value) : Prop :=
  (∃ charged, tree.view path = .entered .node charged) ∧
    ∃ s' l, out.at? (tree.moved path) = some s' ∧ Instrumented m 0 s s' l

theorem Value.isAny_of_isCode (h : s.isCode = true) :
    s.isAny ["ClassExpression", "FunctionExpression", "ArrowFunctionExpression"] = true := by
  simp only [isCode, Bool.or_eq_true, Bool.and_eq_true] at h
  simp only [isAny, List.any_cons, List.any_nil, Bool.or_false, Bool.or_eq_true]
  rcases h with hk | ⟨hk | hk, _⟩
  · exact .inl hk
  · exact .inr (.inl hk)
  · exact .inr (.inr hk)

theorem not_priced_of_isCode {p : Pricing} (hs : p.strict = true) (h : s.isCode = true) :
    ¬ p.Priced s := by
  obtain ⟨kind, hm, hk⟩ := List.any_eq_true.mp (Value.isAny_of_isCode h)
  have hr : ∀ kind ∈ ["ClassExpression", "FunctionExpression", "ArrowFunctionExpression"],
      PriceRule.ofKind kind = .unpriced := by decide
  exact Pricing.not_priced_of_unpriced hs hk (hr kind hm)

/-- **Strict mode.** A strict walk that succeeds enters a function or class that is an expression
unless it stands in a blind spot, which neither the walk nor a price comes to. What is unseen is
left as it is. -/
theorem strict_enters_code_iff (hstrict : m.pricing.strict = true) (hl : tree.listShaped = true)
    (h : (m.node 0 tree).outcome = .ok out) (hs : tree.at? path = some s)
    (hc : s.isCode = true) :
    (Entered m tree out path s ↔ tree.inBlindSpot path = false) ∧
      (tree.view path = .unseen → out.at? (tree.moved path) = some s) := by
  have hroot : (View.entered .node false).Holds m tree out :=
    ⟨⟨_, node_sound (outcome_ok_iff.mp h)⟩, fun e => nomatch e⟩
  have ht : s.truthy = true := Value.truthy_of_isAny (Value.isAny_of_isCode hc)
  obtain ⟨s', hs', hv⟩ := hroot.follow hl hs ht
  change (tree.view path).Holds m s s' at hv
  -- a price that came to it would have failed
  have hp : tree.view path ≠ .priced := by
    intro e
    rw [e] at hv
    exact not_priced_of_isCode hstrict hc hv.2
  refine ⟨⟨?_, fun hb => ?_⟩, fun e => ?_⟩
  · rintro ⟨⟨charged, e⟩, _⟩
    simp only [Value.inBlindSpot, e]
  · unfold Value.inBlindSpot at hb
    split at hb
    · rename_i charged e
      rw [e] at hv
      obtain ⟨⟨l, hi⟩, _⟩ := hv
      exact ⟨⟨charged, e⟩, s', l, hs', hi⟩
    · exact absurd ‹_› hp
    · cases hb
  · rw [e] at hv
    obtain rfl : s' = s := hv
    exact hs'

end Code

open Instrumenter (block)
open Sample (program increment whileLess)

/-- Strict instrumenting with ceilings that small trees stay below. -/
def Instrumenter.strictSample : Instrumenter :=
  { Instrumenter.sample with pricing := ⟨true, 20⟩ }

def functionOf (statements : List Value) : Value :=
  Value.node "FunctionExpression" [("body", block (.list statements))]

/-- A class with one method. -/
def classOf (method : Value) : Value :=
  Value.node "ClassDeclaration" [("body", Value.node "ClassBody"
    [("body", .list [Value.node "MethodDefinition" [("value", method)]])])]

def methodPath : Path :=
  [.field "body", .item 0, .field "body", .field "body", .item 0, .field "value"]

theorem strict_enters_code_iff_of_method :
    Instrumenter.strictSample.pricing.strict = true ∧
      (program [classOf (functionOf [increment])]).listShaped = true ∧
      ∃ out, (Instrumenter.strictSample.node 0 (program [classOf (functionOf [increment])])).outcome
        = .ok out ∧
        (program [classOf (functionOf [increment])]).at? methodPath =
          some (functionOf [increment]) ∧
        (functionOf [increment]).isCode = true ∧
        Entered Instrumenter.strictSample (program [classOf (functionOf [increment])]) out
          methodPath (functionOf [increment]) := by
  have hl : (program [classOf (functionOf [increment])]).listShaped = true := by decide
  exact ⟨rfl, hl, _, rfl, rfl, rfl, (strict_enters_code_iff rfl hl rfl rfl rfl).1.mpr rfl⟩

/-- The statement `f(function () { .. });`. -/
def callWith (function : Value) : Value :=
  Value.node "ExpressionStatement" [("expression", Value.node "CallExpression"
    [("callee", Value.node "Identifier" [("name", .text "f")]), ("arguments", .list [function])])]

def argumentPath : Path :=
  [.field "body", .item 0, .field "expression", .field "arguments", .item 0]

/-- Nothing looks into the arguments of a call: the loop in there stays unmetered, and strict
mode lets it pass. -/
theorem callback_is_not_entered :
    (Instrumenter.strictSample.node 0
        (program [callWith (functionOf [whileLess increment])])).outcome =
        .ok (program [Instrumenter.strictSample.charge 0,
          callWith (functionOf [whileLess increment])]) ∧
      (program [callWith (functionOf [whileLess increment])]).at? argumentPath =
        some (functionOf [whileLess increment]) ∧
      (functionOf [whileLess increment]).isCode = true ∧
      ¬ Entered Instrumenter.strictSample (program [callWith (functionOf [whileLess increment])])
        (program [Instrumenter.strictSample.charge 0, callWith (functionOf [whileLess increment])])
        argumentPath (functionOf [whileLess increment]) := by
  refine ⟨rfl, rfl, rfl, ?_⟩
  rintro ⟨⟨charged, e⟩, _⟩
  have hv : (program [callWith (functionOf [whileLess increment])]).view argumentPath = .unseen :=
    rfl
  rw [hv] at e
  cases e

end ContractMeter
