import ContractMeter.Proofs.Erasure
import ContractMeter.Proofs.Execution

/-!
# ContractMeter.Proofs.Bookkeeping

The ledger of a run, read off the tree.

* `Value.dues` — what a tree is to be charged for, in the order in which it is charged.
* `Value.placements` — the charges in an instrumented tree, told from their position, in the same
  order.
* `Posted` — a due, a charge that was placed and a record belong together.
* `ledger_accounts_for_tree` — dues, placed charges and records correspond one to one.
-/

namespace ContractMeter

open Instrumenter (block prepend loopBody isUncharged)

/-! ## Dues -/

/-- What there is a charge for. -/
inductive Due where
  | statement (node : Value)
  /-- What a loop spends between two passes through its body. -/
  | pass (loop : Value)

namespace Due

def node : Due → Value
  | statement node => node
  | pass loop => loop

def map (f : Value → Value) : Due → Due
  | statement node => statement (f node)
  | pass loop => pass (f loop)

/-- What a record of the charge is labelled. -/
def label : Due → Value
  | statement node => node.kind
  | pass loop =>
    match loop.kind with
    | .text kind => .text (kind ++ " iteration")
    | kind => kind

end Due

namespace Value

/-- What the list around a statement charges for it. -/
def ownDue (s : Value) : List Due :=
  if isUncharged s then [] else [.statement s]

/-- What the block around a bare part charges for it. -/
def partDue (part : Value) : List Due :=
  match part with
  | .null => []
  | part => if part.hasKind "BlockStatement" then [] else ownDue part

mutual

/-- What a tree is to be charged for: a statement behind what is in it, a pass through a loop before
the loop's body. -/
def dues : Value → List Due
  | .record fields =>
    match (record fields).container with
    | .sequence => sequenceDues (Fields.get fields "body")
    | .body => dues (Fields.get fields "body")
    | .loop => .pass (record fields) ::
      (if (Fields.get fields "body").truthy then
        dues (Fields.get fields "body") ++ partDue (Fields.get fields "body")
      else [])
    | .statementBody => dues (Fields.get fields "body") ++ partDue (Fields.get fields "body")
    | .value => dues (Fields.get fields "value")
    | .branch =>
      dues (Fields.get fields "consequent") ++ partDue (Fields.get fields "consequent") ++
        (dues (Fields.get fields "alternate") ++ partDue (Fields.get fields "alternate"))
    | .attempt =>
      dues (Fields.get fields "block") ++
        (dues (Fields.get fields "handler") ++ dues (Fields.get fields "finalizer"))
    | .switch => caseDues (Fields.get fields "cases")
    | .leaf => []
  | _ => []
termination_by v => sizeOf v
decreasing_by all_goals exact Fields.sizeOf_get ..

def sequenceDues : Value → List Due
  | .list items => itemDues items
  | _ => []
termination_by v => sizeOf v
decreasing_by simp

def itemDues : List Value → List Due
  | [] => []
  | item :: rest => dues item ++ ownDue item ++ itemDues rest
termination_by items => sizeOf items
decreasing_by all_goals simp <;> omega

def caseDues : Value → List Due
  | .list cases => caseItemDues cases
  | _ => []
termination_by v => sizeOf v
decreasing_by simp

def caseItemDues : List Value → List Due
  | [] => []
  | .record fields :: rest => sequenceDues (Fields.get fields "consequent") ++ caseItemDues rest
  | _ :: rest => caseItemDues rest
termination_by cases => sizeOf cases
decreasing_by
  · have := Fields.sizeOf_get fields "consequent"
    simp only [List.cons.sizeOf_spec]
    omega
  all_goals
    simp only [List.cons.sizeOf_spec]
    omega

end

end Value

/-! ## Placements -/

/-- A charge in an instrumented tree and what it is for. -/
structure Placement where
  charge : Value
  due : Due

/-- The amount that a placed charge names. -/
def Placement.amount (p : Placement) : Int :=
  Execution.Event.amount p.charge

/-- What all placed charges name together. -/
def totalAmount (placements : List Placement) : Int :=
  (placements.map Placement.amount).foldr (· + ·) 0

namespace Value

mutual

/-- The charges in an instrumented tree, in the order of `dues`. -/
def placements : Value → List Placement
  | .record fields =>
    match (record fields).container with
    | .sequence => sequencePlacements (Fields.get fields "body")
    | .body => placements (Fields.get fields "body")
    | .loop => passPlacements (record fields) (Fields.get fields "body")
    | .statementBody => placements (Fields.get fields "body")
    | .value => placements (Fields.get fields "value")
    | .branch =>
      placements (Fields.get fields "consequent") ++ placements (Fields.get fields "alternate")
    | .attempt =>
      placements (Fields.get fields "block") ++
        (placements (Fields.get fields "handler") ++ placements (Fields.get fields "finalizer"))
    | .switch => casePlacements (Fields.get fields "cases")
    | .leaf => []
  | _ => []
termination_by v => sizeOf v
decreasing_by all_goals exact Fields.sizeOf_get ..

/-- The charges in the body of a loop. -/
def passPlacements (loop : Value) : Value → List Placement
  | .record fields => passFirst loop (Fields.get fields "body")
  | _ => []
termination_by v => sizeOf v
decreasing_by exact Fields.sizeOf_get ..

def passFirst (loop : Value) : Value → List Placement
  | .list (charge :: items) => ⟨charge, .pass loop⟩ :: itemPlacements items
  | _ => []
termination_by v => sizeOf v
decreasing_by simp; omega

def sequencePlacements : Value → List Placement
  | .list items => itemPlacements items
  | _ => []
termination_by v => sizeOf v
decreasing_by simp

/-- The charges in a list of statements. Each statement but an uncharged declaration stands behind
its charge. -/
def itemPlacements : List Value → List Placement
  | [] => []
  | [item] => if isUncharged item then placements item else []
  | item :: statement :: rest =>
    if isUncharged item then placements item ++ itemPlacements (statement :: rest)
    else placements statement ++ ⟨item, .statement statement⟩ :: itemPlacements rest
termination_by items => sizeOf items
decreasing_by all_goals simp <;> omega

def casePlacements : Value → List Placement
  | .list cases => caseItemPlacements cases
  | _ => []
termination_by v => sizeOf v
decreasing_by simp

def caseItemPlacements : List Value → List Placement
  | [] => []
  | .record fields :: rest =>
    sequencePlacements (Fields.get fields "consequent") ++ caseItemPlacements rest
  | _ :: rest => caseItemPlacements rest
termination_by cases => sizeOf cases
decreasing_by
  · have := Fields.sizeOf_get fields "consequent"
    simp only [List.cons.sizeOf_spec]
    omega
  all_goals
    simp only [List.cons.sizeOf_spec]
    omega

end

end Value

/-! ## Accounts -/

/-- A due of a tree, the charge placed for it and its record. -/
structure Posted (m : Instrumenter) (d : Due) (p : Placement) (c : Charge) : Prop where
  charge : p.charge = m.call.statement (.int c.gamma)
  nonneg : 0 ≤ c.gamma
  label : c.statement = d.label
  line : d.node.line = .ok c.line
  /-- Without the charges, what the charge stands for is the due in normal form. -/
  due : p.due.map Value.erase = d.map Value.normal

theorem Posted.amount_eq {m : Instrumenter} {d : Due} {p : Placement} {c : Charge}
    (h : Posted m d p c) : p.amount = c.gamma := by
  rw [Placement.amount, h.charge]
  rfl

/-- Dues, placements and records of the same number, posted in the same order. -/
inductive Accounted (m : Instrumenter) : List Due → List Placement → List Charge → Prop where
  | nil : Accounted m [] [] []
  | cons {d : Due} {p : Placement} {c : Charge} {ds : List Due} {ps : List Placement}
      {cs : List Charge} (h : Posted m d p c) (hs : Accounted m ds ps cs) :
      Accounted m (d :: ds) (p :: ps) (c :: cs)

namespace Accounted

variable {m : Instrumenter} {ds ds' : List Due} {ps ps' : List Placement} {cs cs' : List Charge}

theorem append (h : Accounted m ds ps cs) (h' : Accounted m ds' ps' cs') :
    Accounted m (ds ++ ds') (ps ++ ps') (cs ++ cs') := by
  induction h with
  | nil => exact h'
  | cons h _ ih => exact .cons h ih

theorem totalGamma_eq (h : Accounted m ds ps cs) :
    totalGamma cs = totalAmount ps := by
  induction h with
  | nil => rfl
  | cons h _ ih =>
    rw [totalGamma, totalAmount] at ih ⊢
    rw [List.map_cons, List.foldr_cons, List.map_cons, List.foldr_cons, ih, h.amount_eq]

end Accounted

/-! ## Runs -/

section Run

variable {m : Instrumenter} {start : Int}

theorem Charge.of_ok {s : Value} {gamma : Int} {label : Option String} {c : Charge}
    (h : Charge.of s gamma label = .ok c) :
    s.line = .ok c.line ∧ c.gamma = gamma ∧
      (label = none → c.statement = s.kind) ∧
      (∀ name, label = some name → name.isEmpty = false → c.statement = .text name) := by
  unfold Charge.of at h
  cases hl : s.line with
  | error fault =>
    rw [hl] at h
    cases h
  | ok line =>
    rw [hl] at h
    cases label with
    | none =>
      cases h
      exact ⟨rfl, rfl, fun _ => rfl, nofun⟩
    | some name =>
      cases h
      refine ⟨rfl, rfl, nofun, fun _ e hn => ?_⟩
      cases e
      simp [hn]

theorem posted_statement {s s' : Value} {l : Ledger} {gamma : Nat} {c : Charge}
    (h : Instrumented m start s s' l) (hs : s.listShaped = true)
    (hc : Charge.of s' gamma none = .ok c) :
    Posted m (.statement s) ⟨m.charge gamma, .statement s'⟩ c := by
  obtain ⟨hl, hg, hk, _⟩ := Charge.of_ok hc
  refine ⟨?_, ?_, ?_, ?_, ?_⟩
  · rw [hg]
    rfl
  · rw [hg]
    exact Int.natCast_nonneg gamma
  · rw [hk rfl, h.kind_eq]
    rfl
  · rw [← hl, h.line_eq]
    rfl
  · exact congrArg Due.statement (h.erase_eq hs)

theorem posted_pass {fields : Fields} {out : Value} {l : Ledger} {kind : String} {gamma : Nat}
    {c : Charge} (h : Instrumented m start (.record fields) out l)
    (hs : (Value.record fields).listShaped = true)
    (hk : Fields.get? fields "type" = some (.text kind))
    (hc : Charge.of (.record fields) gamma (some (kind ++ " iteration")) = .ok c) :
    Posted m (.pass (.record fields)) ⟨m.charge gamma, .pass out⟩ c := by
  obtain ⟨hl, hg, _, hn⟩ := Charge.of_ok hc
  refine ⟨?_, ?_, ?_, hl, ?_⟩
  · rw [hg]
    rfl
  · rw [hg]
    exact Int.natCast_nonneg gamma
  · rw [hn _ rfl (by simp)]
    simp [Due.label, Value.kind, hk]
  · exact congrArg Due.pass (h.erase_eq hs)

namespace Value

theorem sequenceDues_eq {fields : Fields} {key : String} {items : List Value}
    (hf : isListOrAbsent (Fields.get? fields key) = true)
    (h : ((Fields.get? fields key).getD (.list [])).elements = .ok items) :
    sequenceDues (Fields.get fields key) = itemDues items := by
  rcases elements_of_isListOrAbsent hf h with ⟨hn, rfl⟩ | hs
  · simp [Fields.get, hn, sequenceDues, itemDues]
  · rw [Fields.get_of_get? hs, sequenceDues]

theorem caseDues_eq {fields : Fields} {cases : List Value}
    (hf : isListOrAbsent (Fields.get? fields "cases") = true)
    (h : ((Fields.get? fields "cases").getD (.list [])).elements = .ok cases) :
    caseDues (Fields.get fields "cases") = caseItemDues cases := by
  rcases elements_of_isListOrAbsent hf h with ⟨hn, rfl⟩ | hs
  · simp [Fields.get, hn, caseDues, caseItemDues]
  · rw [Fields.get_of_get? hs, caseDues]

theorem partDue_of_block {v : Value} (h : v.hasKind "BlockStatement" = true) : v.partDue = [] := by
  unfold partDue
  split
  · rfl
  · rw [if_pos h]

theorem partDue_of_bare {v : Value} (hn : v ≠ .null) (h : v.hasKind "BlockStatement" = false) :
    v.partDue = v.ownDue := by
  unfold partDue
  split
  · contradiction
  · rw [if_neg (by simp [h])]

theorem dues_of_leaf {v : Value} (h : v.container = .leaf) : v.dues = [] := by
  cases v with
  | record fields => rw [dues, h]
  | _ => simp only [dues]

theorem placements_of_leaf {v : Value} (h : v.container = .leaf) : v.placements = [] := by
  cases v with
  | record fields => rw [placements, h]
  | _ => simp only [placements]

@[simp]
theorem dues_block (items : List Value) : (block (.list items)).dues = itemDues items := by
  have hc : (record [("type", .text "BlockStatement"), ("body", .list items)]).container =
      .sequence := rfl
  rw [block, dues, hc]
  simp [Fields.get, Fields.get?_cons, sequenceDues]

@[simp]
theorem placements_block (items : List Value) :
    (block (.list items)).placements = itemPlacements items := by
  have hc : (record [("type", .text "BlockStatement"), ("body", .list items)]).container =
      .sequence := rfl
  rw [block, placements, hc]
  simp [Fields.get, Fields.get?_cons, sequencePlacements]

theorem dues_loopBody (fields : Fields) :
    (loopBody fields).dues ++ (loopBody fields).partDue =
      if (Fields.get fields "body").truthy then
        dues (Fields.get fields "body") ++ partDue (Fields.get fields "body")
      else [] := by
  by_cases h : (Fields.get fields "body").truthy = true
  · simp [loopBody, h]
  · simp only [loopBody, if_neg h]
    rw [dues_block, partDue_of_block (by simp), itemDues]
    rfl

theorem itemPlacements_uncharged {item : Value} {rest : List Value} (h : isUncharged item = true) :
    itemPlacements (item :: rest) = item.placements ++ itemPlacements rest := by
  cases rest with
  | nil => simp [itemPlacements, h]
  | cons next rest => rw [itemPlacements, if_pos h]

theorem itemPlacements_charge {gamma : Nat} {item : Value} {rest : List Value} :
    itemPlacements (m.charge gamma :: item :: rest) =
      item.placements ++ ⟨m.charge gamma, .statement item⟩ :: itemPlacements rest := by
  rw [itemPlacements, Instrumenter.isUncharged_charge]
  rfl

end Value

theorem InstrumentedPart.passPlacements_eq {v v' loop : Value} {l : Ledger} {gamma : Nat}
    (h : InstrumentedPart m start v v' l) (hn : v ≠ .null) :
    Value.passPlacements loop (prepend (m.charge gamma) v') =
      ⟨m.charge gamma, .pass loop⟩ :: v'.placements := by
  cases h with
  | null => exact absurd rfl hn
  | block hk _ _ =>
    have hc := Value.container_of_hasKind hk
    rw [Value.placements, Value.container_set (by decide : "body" ≠ "type"), hc]
    simp [prepend, Fields.get_set, Value.passPlacements, Value.passFirst, Container.ofKind,
      Value.sequencePlacements]
  | bare _ _ _ =>
    rw [Instrumenter.prepend_block, Value.placements_block, Instrumenter.block,
      Value.passPlacements]
    simp [Fields.get, Fields.get?_cons, Value.passFirst]

mutual

theorem Instrumented.accounted {v v' : Value} {l : Ledger} :
    Instrumented m start v v' l → v.listShaped = true →
      Accounted m v.dues v'.placements l.charges
  | .leaf hc, _ => by
    rw [Value.dues_of_leaf hc, Value.placements_of_leaf hc]
    exact .nil
  | .sequence hc hb h, hv => by
    have hf := Value.isListOrAbsent_body hv hc
    rw [Value.dues, Value.placements, Value.container_set (by decide : "body" ≠ "type"), hc]
    simp only [Fields.get_set, reduceIte, Value.sequencePlacements]
    rw [Value.sequenceDues_eq hf hb]
    exact h.accounted (Value.listShaped_of_elements hv hf hb)
  | .body hc h, hv => by
    rw [Value.dues, Value.placements, Value.container_set (by decide : "body" ≠ "type"), hc]
    simp only [Fields.get_set, reduceIte]
    exact h.accounted (Value.listShaped_get hv "body")
  | .loop hk hc hd hp he h, hv => by
    have hposted := posted_pass (.loop hk hc hd hp he h) hv hk he
    have hg := Pricing.gammaPerIteration_charges hp
    have hb := h.accounted (Value.listShaped_loopBody hv)
    rw [Value.dues, Value.placements, Value.container_set (by decide : "body" ≠ "type"),
      Value.container_of_kind hk, hc]
    simp only [Fields.get_set, reduceIte, Ledger.charges_append, hg, List.nil_append]
    rw [← Value.dues_loopBody, h.passPlacements_eq (Instrumenter.loopBody_ne_null _)]
    -- the pass is recorded before the walk enters the body
    exact .cons hposted hb
  | .statementBody hc h, hv => by
    rw [Value.dues, Value.placements, Value.container_set (by decide : "body" ≠ "type"), hc]
    simp only [Fields.get_set, reduceIte]
    exact h.accounted (Value.listShaped_get hv "body")
  | .value hc h, hv => by
    rw [Value.dues, Value.placements, Value.container_set (by decide : "value" ≠ "type"), hc]
    simp only [Fields.get_set, reduceIte]
    exact h.accounted (Value.listShaped_get hv "value")
  | .branch hc h₁ h₂, hv => by
    rw [Value.dues, Value.placements, Value.container_set (by decide : "alternate" ≠ "type"),
      Value.container_set (by decide : "consequent" ≠ "type"), hc]
    simp only [Fields.get_set, reduceIte, String.reduceEq]
    exact (h₁.accounted (Value.listShaped_get hv "consequent")).append
      (h₂.accounted (Value.listShaped_get hv "alternate"))
  | .attempt hc h₁ h₂ h₃, hv => by
    rw [Value.dues, Value.placements, Value.container_set (by decide : "finalizer" ≠ "type"),
      Value.container_set (by decide : "handler" ≠ "type"),
      Value.container_set (by decide : "block" ≠ "type"), hc]
    simp only [Fields.get_set, reduceIte, String.reduceEq]
    exact (h₁.accounted (Value.listShaped_get hv "block")).append
      ((h₂.accounted (Value.listShaped_get hv "handler")).append
        (h₃.accounted (Value.listShaped_get hv "finalizer")))
  | .switch hc hb h, hv => by
    obtain ⟨hl, hi, hcs⟩ := Value.cases_of_listShaped hv hc hb
    rw [Value.dues, Value.placements, Value.container_set (by decide : "cases" ≠ "type"), hc]
    simp only [Fields.get_set, reduceIte, Value.casePlacements]
    rw [Value.caseDues_eq hl hb]
    exact h.accounted hi hcs

theorem InstrumentedPart.accounted {v v' : Value} {l : Ledger} :
    InstrumentedPart m start v v' l → v.listShaped = true →
      Accounted m (v.dues ++ v.partDue) v'.placements l.charges
  | .null, _ => by
    simp only [Value.dues, Value.partDue, Value.placements]
    exact .nil
  | .block hk hb h, hv => by
    have hc := Value.container_of_hasKind hk
    have hf := Value.isListOrAbsent_body hv hc
    rw [Value.partDue_of_block hk, List.append_nil, Value.dues, Value.placements,
      Value.container_set (by decide : "body" ≠ "type"), hc]
    simp only [Container.ofKind, Fields.get_set, reduceIte, Value.sequencePlacements]
    rw [Value.sequenceDues_eq hf hb]
    exact h.accounted (Value.listShaped_of_elements hv hf hb)
  | .bare hn hk h, hv => by
    have ha := h.accounted (Value.listShaped_cons.mpr ⟨hv, rfl⟩)
    rw [Value.itemDues, Value.itemDues, List.append_nil] at ha
    rw [Value.partDue_of_bare hn hk, Value.placements_block]
    exact ha

theorem InstrumentedList.accounted {items items' : List Value} {l : Ledger} :
    InstrumentedList m start items items' l → (Value.list items).listShaped = true →
      Accounted m (Value.itemDues items) (Value.itemPlacements items') l.charges
  | .nil, _ => by
    rw [Value.itemDues, Value.itemPlacements]
    exact .nil
  | .uncharged h hu hs, hi => by
    rw [Value.listShaped_cons] at hi
    have ho : Value.ownDue _ = [] := if_pos (h.isUncharged_eq ▸ hu)
    rw [Value.itemPlacements_uncharged hu, Value.itemDues, ho, List.append_nil]
    exact (h.accounted hi.1).append (hs.accounted hi.2)
  | .charged h hu hp he hs, hi => by
    rw [Value.listShaped_cons] at hi
    have hg := Pricing.gammaFor_charges hp
    have ho : Value.ownDue _ = [.statement _] := if_neg (by rw [← h.isUncharged_eq, hu]; decide)
    rw [Value.itemPlacements_charge, Value.itemDues, ho, List.append_assoc, Ledger.charges_append,
      Ledger.charges_append, Ledger.charges_append, hg]
    exact (h.accounted hi.1).append (.cons (posted_statement h hi.1 he) (hs.accounted hi.2))

theorem InstrumentedCases.accounted {cases cases' : List Value} {l : Ledger} :
    InstrumentedCases m start cases cases' l → (Value.list cases).listShaped = true →
      (∀ c ∈ cases, Value.isListOrAbsent (c.field? "consequent") = true) →
      Accounted m (Value.caseItemDues cases) (Value.caseItemPlacements cases') l.charges
  | .nil, _, _ => by
    rw [Value.caseItemDues, Value.caseItemPlacements]
    exact .nil
  | .cons hb h hs, hi, hcs => by
    rw [Value.listShaped_cons] at hi
    have hf : Value.isListOrAbsent (Fields.get? _ "consequent") = true :=
      hcs _ List.mem_cons_self
    rw [Value.caseItemDues, Value.caseItemPlacements, Value.sequenceDues_eq hf hb]
    simp only [Fields.get_set, reduceIte, Value.sequencePlacements]
    exact (h.accounted (Value.listShaped_of_elements hi.1 hf hb)).append
      (hs.accounted hi.2 fun c hc => hcs c (List.mem_cons_of_mem _ hc))

end

end Run

/-- **The ledger is the tree**: a run that succeeds places and records one charge for each due of
the tree, in the same order, and the records add up to the amounts that were placed. A list is
charged as a sequence of statements. -/
theorem ledger_accounts_for_tree {m : Instrumenter} {tree : Value}
    (hl : tree.listShaped = true) :
    (∀ depth out, (m.node depth tree).outcome = .ok out →
      Accounted m tree.dues out.placements (m.node depth tree).ledger.charges ∧
        totalGamma (m.node depth tree).ledger.charges = totalAmount out.placements) ∧
    (∀ items out, tree = .list items → (m.statements tree).outcome = .ok out →
      Accounted m tree.sequenceDues out.sequencePlacements (m.statements tree).ledger.charges ∧
        totalGamma (m.statements tree).ledger.charges = totalAmount out.sequencePlacements) := by
  constructor
  · intro depth out h
    have ha := (node_sound (Metered.outcome_ok_iff.mp h)).accounted hl
    exact ⟨ha, ha.totalGamma_eq⟩
  · rintro items out rfl h
    obtain ⟨items', rfl, hs⟩ := statements_sound (Metered.outcome_ok_iff.mp h)
    have ha := hs.accounted hl
    rw [Value.sequenceDues, Value.sequencePlacements]
    exact ⟨ha, ha.totalGamma_eq⟩

/-- The program `while (a < b) a++;`, with two dues for the loop and one for its body. -/
def billedLoop : Value :=
  Sample.program [Sample.whileLess Sample.increment]

theorem ledger_accounts_for_tree_of_billedLoop :
    ∃ out, billedLoop.listShaped = true ∧
      (Instrumenter.sample.node 0 billedLoop).outcome = .ok out ∧
      Accounted .sample billedLoop.dues out.placements
        (Instrumenter.sample.node 0 billedLoop).ledger.charges := by
  refine ⟨_, by decide, rfl, ?_⟩
  have h : (Instrumenter.sample.node 0 billedLoop).outcome = .ok _ := rfl
  exact ((ledger_accounts_for_tree (by decide)).1 0 _ h).1

end ContractMeter
