import ContractMeter.Proofs.Shape

/-!
# ContractMeter.Proofs.Grammar

The statement grammar of ESTree, as far as it says where statements stand.

* `grammar` — the fields that lead to statements, by the kind of their node, and what they hold.
* `Value.grammatical` — whether the nodes of a tree keep to it.
* `Value.reaches` — whether a path goes through such fields alone.
-/

namespace ContractMeter

def statementKinds : List String :=
  ["BlockStatement", "BreakStatement", "ClassDeclaration", "ContinueStatement",
    "DebuggerStatement", "DoWhileStatement", "EmptyStatement", "ExpressionStatement",
    "ForInStatement", "ForOfStatement", "ForStatement", "FunctionDeclaration", "IfStatement",
    "LabeledStatement", "ReturnStatement", "SwitchStatement", "ThrowStatement", "TryStatement",
    "VariableDeclaration", "WhileStatement", "WithStatement"]

def memberKinds : List String := ["MethodDefinition", "PropertyDefinition", "StaticBlock"]

def listedKinds : List String := statementKinds ++ memberKinds

namespace Value

def isAny (v : Value) (kinds : List String) : Bool :=
  kinds.any v.hasKind

def isNull : Value → Bool
  | .null => true
  | _ => false

def isListOf (check : Value → Bool) : Value → Bool
  | .list items => items.all check
  | _ => false

/-- Whether a value may be a case of a `switch`. -/
def isCase (v : Value) : Bool :=
  v.hasKind "SwitchCase" && isListOrAbsent (v.field? "consequent")

/-- Whether a value is neither a list nor a case. -/
def isPlain (v : Value) : Bool :=
  match v with
  | .list _ => false
  | v => !v.hasKind "SwitchCase"

end Value

inductive Content where
  | list (kinds : List String)
  /-- A node of one of some kinds, or none. -/
  | one (kinds : List String)
  | cases
  /-- A block or an expression. -/
  | arrowBody
deriving DecidableEq

def Content.allows (v : Value) : Content → Bool
  | .list kinds => v.isListOf fun item => item.isAny kinds
  | .one kinds => v.isNull || v.isAny kinds
  | .cases => v.isListOf Value.isCase
  | .arrowBody => v.hasKind "BlockStatement" || (v.isPlain && !v.isAny listedKinds)

/-- The fields that lead to statements, by the kind of their node. -/
def grammar : List (String × String × Content) :=
  [("Program", "body", .list statementKinds),
    ("BlockStatement", "body", .list statementKinds),
    ("StaticBlock", "body", .list statementKinds),
    ("ClassBody", "body", .list memberKinds),
    ("FunctionDeclaration", "body", .one ["BlockStatement"]),
    ("FunctionExpression", "body", .one ["BlockStatement"]),
    ("ArrowFunctionExpression", "body", .arrowBody),
    ("ClassDeclaration", "body", .one ["ClassBody"]),
    ("ClassExpression", "body", .one ["ClassBody"]),
    ("MethodDefinition", "value", .one ["FunctionExpression"]),
    ("IfStatement", "consequent", .one statementKinds),
    ("IfStatement", "alternate", .one statementKinds),
    ("WhileStatement", "body", .one statementKinds),
    ("DoWhileStatement", "body", .one statementKinds),
    ("ForStatement", "body", .one statementKinds),
    ("ForInStatement", "body", .one statementKinds),
    ("ForOfStatement", "body", .one statementKinds),
    ("WithStatement", "body", .one statementKinds),
    ("LabeledStatement", "body", .one statementKinds),
    ("TryStatement", "block", .one ["BlockStatement"]),
    ("TryStatement", "handler", .one ["CatchClause"]),
    ("TryStatement", "finalizer", .one ["BlockStatement"]),
    ("CatchClause", "body", .one ["BlockStatement"]),
    ("SwitchStatement", "cases", .cases),
    ("SwitchCase", "consequent", .list statementKinds)]

namespace Value

/-- Whether a node's own fields hold what the grammar lets them hold. -/
def keepsGrammar (fields : Fields) : Bool :=
  grammar.all fun (kind, name, content) =>
    !(record fields).hasKind kind ||
      match Fields.get? fields name with
      | some v => content.allows v
      | none => true

def grammatical (v : Value) : Bool :=
  v.everywhere keepsGrammar

/-- Whether an edge out of a value leads to statements. -/
def leads (v : Value) : Edge → Bool
  | .field name => grammar.any fun (kind, field, _) => v.hasKind kind && field == name
  | .item _ => true

/-- Whether a path leads through fields of the grammar. -/
def reaches (v : Value) : Path → Bool
  | [] => true
  | edge :: rest =>
    v.leads edge &&
      match v.child? edge with
      | some w => w.reaches rest
      | none => false

theorem isListOf_iff {check : Value → Bool} {v : Value} :
    v.isListOf check = true ↔ ∃ items, v = .list items ∧ ∀ item ∈ items, check item = true := by
  cases v <;> simp [isListOf]

theorem allows_of_keepsGrammar {fields : Fields} {kind name : String} {content : Content}
    (hg : keepsGrammar fields = true) (he : (kind, name, content) ∈ grammar)
    (hk : (record fields).hasKind kind = true) {w : Value}
    (hw : Fields.get? fields name = some w) : content.allows w = true := by
  simp only [keepsGrammar, List.all_eq_true] at hg
  simpa only [hk, hw, Bool.not_true, Bool.false_or] using hg _ he

theorem exists_content {fields : Fields} {name : String} {w : Value}
    (hg : (record fields).grammatical = true) (hl : (record fields).leads (.field name) = true)
    (hw : Fields.get? fields name = some w) :
    ∃ kind content, (kind, name, content) ∈ grammar ∧ (record fields).hasKind kind = true ∧
      content.allows w = true := by
  simp only [leads, List.any_eq_true, Bool.and_eq_true, beq_iff_eq] at hl
  obtain ⟨⟨kind, field, content⟩, he, hk, rfl⟩ := hl
  exact ⟨kind, content, he, hk, allows_of_keepsGrammar (check_of_everywhere hg) he hk hw⟩

theorem reaches_append {v w : Value} {front back : Path} (h : v.at? front = some w) :
    v.reaches (front ++ back) = (v.reaches front && w.reaches back) := by
  induction front generalizing v with
  | nil =>
    cases h
    simp [reaches]
  | cons edge rest ih =>
    obtain ⟨u, hu, hr⟩ : ∃ u, v.child? edge = some u ∧ u.at? rest = some w := at?_cons.mp h
    simp only [List.cons_append, reaches, hu, ih hr, Bool.and_assoc]

theorem truthy_of_isAny {v : Value} {kinds : List String} (h : v.isAny kinds = true) :
    v.truthy = true := by
  obtain ⟨kind, _, hk⟩ := List.any_eq_true.mp h
  have ht := hasKind_iff.mp hk
  cases v with
  | record fields =>
    have hc : (record fields).child? (.field "type") = some (.text kind) := ht
    exact truthy_of_child? hc
  | _ => cases ht

theorem sequence_in_grammar {kind : String} :
    Container.ofKind kind = .sequence → ∃ kinds, (kind, "body", Content.list kinds) ∈ grammar := by
  unfold Container.ofKind
  split <;> intro h
  case h_1 | h_2 | h_4 => exact ⟨statementKinds, by decide⟩
  case h_3 => exact ⟨memberKinds, by decide⟩
  all_goals cases h

theorem switch_in_grammar {kind : String} :
    Container.ofKind kind = .switch → (kind, "cases", Content.cases) ∈ grammar := by
  unfold Container.ofKind
  split <;> intro h
  case h_21 => decide
  all_goals cases h

theorem kind_of_container {fields : Fields} {c : Container} (hn : c ≠ .leaf)
    (hc : (record fields).container = c) :
    ∃ kind, (record fields).hasKind kind = true ∧ Container.ofKind kind = c := by
  unfold container at hc
  split at hc
  · exact ⟨_, hasKind_iff.mpr ‹_›, hc⟩
  · exact absurd hc.symm hn

theorem listShaped_of_grammatical {v : Value} (hg : v.grammatical = true) :
    v.listShaped = true := by
  refine everywhere_mono (fun fields hk => ?_) v hg
  unfold holdsLists
  split
  case h_1 hc =>
    obtain ⟨kind, hkind, hs⟩ := kind_of_container (by decide) hc
    obtain ⟨kinds, he⟩ := sequence_in_grammar hs
    cases hw : Fields.get? fields "body" with
    | none => rfl
    | some w =>
      obtain ⟨items, rfl, _⟩ := isListOf_iff.mp (allows_of_keepsGrammar hk he hkind hw)
      rfl
  case h_2 hc =>
    obtain ⟨kind, hkind, hs⟩ := kind_of_container (by decide) hc
    have he := switch_in_grammar hs
    cases hw : Fields.get? fields "cases" with
    | none => rfl
    | some w =>
      obtain ⟨cases, rfl, ha⟩ := isListOf_iff.mp (allows_of_keepsGrammar hk he hkind hw)
      simp only [isCase, Bool.and_eq_true, List.all_eq_true] at ha ⊢
      exact fun c hc => (ha c hc).2
  case h_3 => rfl

end Value

end ContractMeter
