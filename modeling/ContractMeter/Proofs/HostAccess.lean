import ContractMeter.Proofs.Injectivity

/-!
# ContractMeter.Proofs.HostAccess

Where the name of the host can stand.

* `Value.confines` — every identifier of a name lies inside a plain access to it.
* `Instrumenter.Keeps`, `Instrumented.keeps` — properties of trees that metering keeps.
* `Sanitizer.confines_renamed` — renaming leaves the host's name in exempt accesses alone.
* `host_only_by_plain_access` — for the sanitizer and for the pipeline.
-/

namespace ContractMeter

open Instrumenter (block prepend loopBody)
open MeteringCall (isNamed)

/-! ## Confined names -/

namespace Value

/-- Whether a node is a member access that is not computed, on an identifier of a name. -/
def isPlainAccess (host : String) (node : Value) : Bool :=
  node.hasKind "MemberExpression" && !(node.field "computed").truthy &&
    isNamed (node.field "object") host

mutual

/-- Whether every identifier of a name lies inside a plain access to that name. -/
def confines (host : String) : Value → Bool
  | .list items => confinesItems host items
  | .record fields =>
    (record fields).isPlainAccess host ||
      !isNamed (record fields) host && confinesFields host fields
  | _ => true

def confinesItems (host : String) : List Value → Bool
  | [] => true
  | item :: rest => confines host item && confinesItems host rest

def confinesFields (host : String) : List (String × Value) → Bool
  | [] => true
  | (_, v) :: rest => confines host v && confinesFields host rest

end

section Confines

variable {host : String}

theorem confines_of_isString {v : Value} (h : v.isString = true) : v.confines host = true := by
  cases v with
  | text _ | broken _ => rfl
  | _ => cases h

theorem confines_record {fields : Fields} : (record fields).confines host = true ↔
    (record fields).isPlainAccess host = true ∨
      isNamed (record fields) host = false ∧ confinesFields host fields = true := by
  rw [confines, Bool.or_eq_true, Bool.and_eq_true, Bool.not_eq_true']

theorem confines_list {items : List Value} :
    (list items).confines host = true ↔ ∀ item ∈ items, item.confines host = true := by
  rw [confines]
  induction items with
  | nil => simp [confinesItems]
  | cons item rest ih => rw [confinesItems, Bool.and_eq_true, ih, List.forall_mem_cons]

theorem confinesFields_get? {fields : Fields} {key : String} {v : Value}
    (h : confinesFields host fields = true) (hv : Fields.get? fields key = some v) :
    v.confines host = true := by
  induction fields with
  | nil => cases hv
  | cons field rest ih =>
    obtain ⟨k, w⟩ := field
    rw [confinesFields, Bool.and_eq_true] at h
    rw [Fields.get?_cons] at hv
    split at hv
    · cases hv
      exact h.1
    · exact ih h.2 hv

theorem confinesFields_get {fields : Fields} (h : confinesFields host fields = true)
    (key : String) : (Fields.get fields key).confines host = true := by
  unfold Fields.get
  cases hv : Fields.get? fields key with
  | none => rfl
  | some v => exact confinesFields_get? h hv

theorem confinesFields_set {fields : Fields} {key : String} {v : Value}
    (h : confinesFields host fields = true) (hv : v.confines host = true) :
    confinesFields host (Fields.set fields key v) = true := by
  induction fields with
  | nil => simp [Fields.set, confinesFields, hv]
  | cons field rest ih =>
    obtain ⟨k, w⟩ := field
    rw [confinesFields, Bool.and_eq_true] at h
    by_cases hk : k = key
    · simp [Fields.set, hk, confinesFields, hv, h.2]
    · simp [Fields.set, hk, confinesFields, h.1, ih h.2]

theorem isNamed_of_not_identifier {fields : Fields}
    (h : (record fields).hasKind "Identifier" = false) : isNamed (record fields) host = false := by
  rw [isNamed, h, Bool.false_and]

/-- Whether there is no identifier in a tree. -/
def holdsNoIdentifier (v : Value) : Bool :=
  v.everywhere fun fields => !(record fields).hasKind "Identifier"

mutual

theorem confines_of_holdsNoIdentifier :
    ∀ v : Value, v.holdsNoIdentifier = true → v.confines host = true
  | .list items, h => confinesItems_of_holdsNoIdentifier items h
  | .record fields, h => by
    rw [holdsNoIdentifier, everywhere, Bool.and_eq_true, Bool.not_eq_true'] at h
    exact confines_record.mpr
      (.inr ⟨isNamed_of_not_identifier h.1, confinesFields_of_holdsNoIdentifier fields h.2⟩)
  | .null, _ | .bool _, _ | .int _, _ | .float _, _ | .text _, _ | .broken _, _
  | .host _, _ => rfl

theorem confinesItems_of_holdsNoIdentifier : ∀ items : List Value,
    everywhereItems (fun fields => !(record fields).hasKind "Identifier") items = true →
      confinesItems host items = true
  | [], _ => rfl
  | item :: rest, h => by
    rw [everywhereItems, Bool.and_eq_true] at h
    rw [confinesItems, Bool.and_eq_true]
    exact ⟨confines_of_holdsNoIdentifier item h.1, confinesItems_of_holdsNoIdentifier rest h.2⟩

theorem confinesFields_of_holdsNoIdentifier : ∀ fields : List (String × Value),
    everywhereFields (fun fields => !(record fields).hasKind "Identifier") fields = true →
      confinesFields host fields = true
  | [], _ => rfl
  | (_, v) :: rest, h => by
    rw [everywhereFields, Bool.and_eq_true] at h
    rw [confinesFields, Bool.and_eq_true]
    exact ⟨confines_of_holdsNoIdentifier v h.1, confinesFields_of_holdsNoIdentifier rest h.2⟩

end

theorem isNamed_of_isPlainAccess {node : Value} {name : String}
    (h : node.isPlainAccess host = true) : isNamed node name = false := by
  rw [isPlainAccess, Bool.and_assoc, Bool.and_eq_true] at h
  rw [isNamed, hasKind_of_ne h.1 (by decide), Bool.false_and]

theorem isNamed_of_confines {v : Value} (h : v.confines host = true) :
    isNamed v host = false := by
  cases v with
  | record fields =>
    rcases confines_record.mp h with h | ⟨h, -⟩
    · exact isNamed_of_isPlainAccess h
    · exact h
  | _ => rfl

theorem confines_child? {v w : Value} {edge : Edge} (h : v.confines host = true)
    (ha : v.isPlainAccess host = false) (hw : v.child? edge = some w) :
    w.confines host = true := by
  cases v with
  | list items =>
    cases edge with
    | field name => cases hw
    | item i => exact confines_list.mp h w (List.mem_of_getElem? hw)
  | record fields =>
    cases edge with
    | field name =>
      rcases confines_record.mp h with h | ⟨-, h⟩
      · rw [h] at ha
        cases ha
      · exact confinesFields_get? h hw
    | item i => cases hw
  | _ => cases edge <;> cases hw

/-- In a tree that confines a name, the way down to an identifier of that name passes a plain
access to it. -/
theorem confines_at? {v node : Value} {path : Path} (h : v.confines host = true)
    (hn : v.at? path = some node) (hi : isNamed node host = true) :
    ∃ front back access, path = front ++ back ∧ back ≠ [] ∧ v.at? front = some access ∧
      access.isPlainAccess host = true := by
  induction path generalizing v with
  | nil =>
    rw [at?_nil, Option.some.injEq] at hn
    rw [← hn, isNamed_of_confines h] at hi
    cases hi
  | cons edge rest ih =>
    cases ha : v.isPlainAccess host with
    | true => exact ⟨[], edge :: rest, v, rfl, List.cons_ne_nil _ _, rfl, ha⟩
    | false =>
      obtain ⟨w, hw, hr⟩ : ∃ w, v.child? edge = some w ∧ w.at? rest = some node := at?_cons.mp hn
      obtain ⟨front, back, access, rfl, hb, hf, hac⟩ := ih (confines_child? h ha hw) hr
      exact ⟨edge :: front, back, access, rfl, hb, (at?_of_child? hw).trans hf, hac⟩

end Confines

end Value

/-! ## What metering keeps -/

/-- Properties of trees that every walk keeps: strings have them, lists have them by their items,
and a record keeps them when a field of statements changes to a value that has them if the old one
had. -/
structure Instrumenter.Keeps (m : Instrumenter) (P : Value → Prop) : Prop where
  string : ∀ v : Value, v.isString = true → P v
  list : ∀ items, P (.list items) ↔ ∀ item ∈ items, P item
  set : ∀ (fields : Fields) (key : String) (v : Value), key ∈ statementFields →
    P (.record fields) → (P (Fields.get fields key) → P v) → P (.record (Fields.set fields key v))
  block : ∀ statements, P statements → P (block statements)
  charge : ∀ gamma, P (m.charge gamma)

section Keeps

variable {m : Instrumenter} {P : Value → Prop} {start : Int}

theorem Instrumenter.Keeps.elements (hk : m.Keeps P) {fields : Fields} {key : String}
    {items : List Value} (h : P (Fields.get fields key))
    (hi : ((Fields.get? fields key).getD (.list [])).elements = .ok items) :
    ∀ item ∈ items, P item := by
  cases hg : Fields.get? fields key with
  | none =>
    rw [hg] at hi
    cases hi
    exact fun _ hm => nomatch hm
  | some v =>
    rw [hg, Option.getD_some] at hi
    rw [Fields.get_of_get? hg] at h
    by_cases hl : ∃ list, v = .list list
    · obtain ⟨list, rfl⟩ := hl
      cases hi
      exact (hk.list _).mp h
    · have hv : ∀ list, v ≠ .list list := fun list e => hl ⟨list, e⟩
      exact fun item hm => hk.string item (Value.isString_of_elements hv hi item hm)

theorem Instrumenter.Keeps.loopBody (hk : m.Keeps P) {fields : Fields}
    (h : P (Fields.get fields "body")) : P (loopBody fields) := by
  unfold Instrumenter.loopBody
  dsimp only
  split
  · exact h
  · exact hk.block _ ((hk.list []).mpr fun _ hm => nomatch hm)

theorem Instrumenter.Keeps.prepend (hk : m.Keeps P) {v : Value} (gamma : Nat) (h : P v) :
    P (prepend (m.charge gamma) v) := by
  cases v with
  | record fields =>
    rw [Instrumenter.prepend_record]
    refine hk.set fields "body" _ (by decide) h fun hb => (hk.list _).mpr fun item hm => ?_
    rcases List.mem_cons.mp hm with rfl | hm
    · exact hk.charge gamma
    · cases hg : Fields.get fields "body" with
      | list items =>
        rw [hg] at hb hm
        exact (hk.list items).mp hb item hm
      | _ =>
        rw [hg] at hm
        cases hm
  | _ => exact h

mutual

theorem Instrumented.keeps (hk : m.Keeps P) {v v' : Value} {l : Ledger} :
    Instrumented m start v v' l → P v → P v'
  | .leaf _, h => h
  | .sequence _ hb hs, h =>
    hk.set _ _ _ (by decide) h fun hp => (hk.list _).mpr (hs.keeps hk (hk.elements hp hb))
  | .body _ hb, h => hk.set _ _ _ (by decide) h (hb.keeps hk)
  | .loop _ _ _ _ _ hb, h =>
    hk.set _ _ _ (by decide) h fun hp => hk.prepend _ (hb.keeps hk (hk.loopBody hp))
  | .statementBody _ hb, h => hk.set _ _ _ (by decide) h (hb.keeps hk)
  | .value _ hb, h => hk.set _ _ _ (by decide) h (hb.keeps hk)
  | .branch _ h₁ h₂, h => by
    -- the alternate is put where the new consequent already stands
    refine hk.set _ _ _ (by decide) (hk.set _ _ _ (by decide) h (h₁.keeps hk)) ?_
    rw [Fields.get_set, if_neg (by decide)]
    exact h₂.keeps hk
  | .attempt _ h₁ h₂ h₃, h => by
    refine hk.set _ _ _ (by decide) (hk.set _ _ _ (by decide)
      (hk.set _ _ _ (by decide) h (h₁.keeps hk)) ?_) ?_
    · rw [Fields.get_set, if_neg (by decide)]
      exact h₂.keeps hk
    · rw [Fields.get_set, if_neg (by decide), Fields.get_set, if_neg (by decide)]
      exact h₃.keeps hk
  | .switch _ hb hs, h =>
    hk.set _ _ _ (by decide) h fun hp => (hk.list _).mpr (hs.keeps hk (hk.elements hp hb))

theorem InstrumentedPart.keeps (hk : m.Keeps P) {v v' : Value} {l : Ledger} :
    InstrumentedPart m start v v' l → P v → P v'
  | .null, h => h
  | .block _ hb hs, h =>
    hk.set _ _ _ (by decide) h fun hp => (hk.list _).mpr (hs.keeps hk (hk.elements hp hb))
  | .bare _ _ hs, h =>
    hk.block _ ((hk.list _).mpr (hs.keeps hk fun _ hm => List.mem_singleton.mp hm ▸ h))

theorem InstrumentedList.keeps (hk : m.Keeps P) {items items' : List Value} {l : Ledger} :
    InstrumentedList m start items items' l → (∀ v ∈ items, P v) → ∀ v ∈ items', P v
  | .nil, h => h
  | .uncharged hs _ hr, h => by
    rw [List.forall_mem_cons] at h ⊢
    exact ⟨hs.keeps hk h.1, hr.keeps hk h.2⟩
  | .charged hs _ _ _ hr, h => by
    rw [List.forall_mem_cons] at h
    rw [List.forall_mem_cons, List.forall_mem_cons]
    exact ⟨hk.charge _, hs.keeps hk h.1, hr.keeps hk h.2⟩

theorem InstrumentedCases.keeps (hk : m.Keeps P) {cases cases' : List Value} {l : Ledger} :
    InstrumentedCases m start cases cases' l → (∀ v ∈ cases, P v) → ∀ v ∈ cases', P v
  | .nil, h => h
  | .cons hb hs hr, h => by
    rw [List.forall_mem_cons] at h ⊢
    refine ⟨hk.set _ _ _ (by decide) h.1 fun hp => ?_, hr.keeps hk h.2⟩
    exact (hk.list _).mpr (hs.keeps hk (hk.elements hp hb))

end

theorem Instrumenter.Keeps.node (hk : m.Keeps P) {depth : Int} {tree out : Value} (h : P tree)
    (ho : (m.node depth tree).outcome = .ok out) : P out :=
  (node_sound (Metered.outcome_ok_iff.mp ho)).keeps hk h

theorem Instrumenter.Keeps.statements (hk : m.Keeps P) {tree out : Value} (h : P tree)
    (ho : (m.statements tree).outcome = .ok out) : P out := by
  cases tree with
  | list items =>
    obtain ⟨items', rfl, hs⟩ := statements_sound (Metered.outcome_ok_iff.mp ho)
    exact (hk.list _).mpr (hs.keeps hk ((hk.list _).mp h))
  | _ => exact hk.node h ho

end Keeps

/-- A charge is a plain access to the host and nothing else of the host's. -/
theorem Instrumenter.keeps_confines {m : Instrumenter} :
    m.Keeps fun v => v.confines m.call.host = true where
  string _ h := Value.confines_of_isString h
  list _ := Value.confines_list
  set fields key v hk h hv := by
    rw [Value.confines_record] at h ⊢
    have ha : (Value.record (Fields.set fields key v)).isPlainAccess m.call.host =
        (Value.record fields).isPlainAccess m.call.host := by
      unfold Value.isPlainAccess
      simp only [hasKind_set_statementField hk, Value.field_record,
        get_set_statementField hk (by decide : "object" ∉ statementFields),
        get_set_statementField hk (by decide : "computed" ∉ statementFields)]
    have hn : isNamed (.record (Fields.set fields key v)) m.call.host =
        isNamed (.record fields) m.call.host := by
      rw [isNamed, isNamed, hasKind_set_statementField hk, Value.field_record, Value.field_record,
        get_set_statementField hk (by decide)]
    rw [ha, hn]
    refine h.imp_right fun hr => ?_
    obtain ⟨hi, hf⟩ := hr
    exact ⟨hi, Value.confinesFields_set hf (hv (Value.confinesFields_get hf key))⟩
  block statements h := by
    rw [Instrumenter.block, Value.confines_record]
    refine .inr ⟨Value.isNamed_of_not_identifier rfl, ?_⟩
    have ht : (Value.text "BlockStatement").confines m.call.host = true :=
      Value.confines_of_isString rfl
    rw [Value.confinesFields, Value.confinesFields, Value.confinesFields, ht, h]
    rfl
  charge gamma := by
    simp [Instrumenter.charge, MeteringCall.statement, MeteringCall.callee,
      MeteringCall.identifier, MeteringCall.amountLiteral, Value.confines, Value.confinesFields,
      Value.confinesItems, Value.isPlainAccess, isNamed, Value.hasKind, Value.kind, Value.isNode,
      Fields.get, Fields.get?_cons, Value.isText, Value.truthy]

/-! ## Renaming -/

namespace Value

/-- Whether an identifier holds no other identifier. -/
def standsAlone (fields : Fields) : Bool :=
  !(record fields).hasKind "Identifier" || everywhereFields
    (fun inner => !(record inner).hasKind "Identifier") fields

end Value

namespace Sanitizer

variable {s : Sanitizer}

theorem exempts_eq_isPlainAccess (fields : Fields) :
    s.exempts fields = (Value.record fields).isPlainAccess s.host := by
  rw [exempts, isHostAccess_eq, Value.isPlainAccess, Bool.and_assoc]

theorem isText_newName_host (hp : s.KeepsOffHost) (hx : s.excluded.contains s.host = false)
    {name : Value} (hs : name.isString = true) : (s.newName name).isText s.host = false := by
  refine Bool.eq_false_iff.mpr fun h => ?_
  unfold newName at h
  cases name with
  | text name =>
    split at h
    · rename_i he
      have hn : name = s.host := by simpa [Value.isText] using h
      rw [isExcluded, hn, hx] at he
      cases he
    · rename_i he
      have hn : s.marker ++ name = s.host := by
        simpa [prefixed, Value.display, Value.isText] using h
      exact hp name (by simpa [isExcluded] using he) hn.symm
  | broken t =>
    rw [if_neg (by simp [isExcluded]), prefixed, Value.ofPoints_append_broken] at h
    cases h
  | _ => cases hs

/-- No identifier has the host's name after renaming, if that name gets the prefix too. -/
theorem isNamed_renamed_host (hp : s.KeepsOffHost) (hx : s.excluded.contains s.host = false)
    {v : Value} (hn : v.namesAreStrings = true) : isNamed (s.renamed v) s.host = false := by
  rw [isNamed_renamed_eq]
  cases v with
  | record fields =>
    cases hi : (Value.record fields).hasKind "Identifier" with
    | false => rfl
    | true =>
      have hs := Value.check_of_everywhere hn
      rw [Value.hasStringName, hi, Bool.not_true, Bool.false_or] at hs
      exact isText_newName_host hp hx hs
  | _ => rfl

mutual

theorem confines_renamed (hp : s.KeepsOffHost) (hx : s.excluded.contains s.host = false) :
    ∀ v : Value, v.namesAreStrings = true → v.everywhere Value.standsAlone = true →
      (s.renamed v).confines s.host = true
  | .list items, hn, ha => by
    rw [renamed_list]
    exact confinesItems_renamed hp hx items hn ha
  | .record fields, hn, ha => by
    have hnew := isNamed_renamed_host hp hx hn
    rw [Value.namesAreStrings, Value.everywhere, Bool.and_eq_true] at hn
    rw [Value.everywhere, Bool.and_eq_true] at ha
    rw [renamed_record] at hnew ⊢
    rw [Value.confines_record]
    by_cases hi : (Value.record fields).hasKind "Identifier" = true
    · refine .inr ⟨hnew, ?_⟩
      have hf : Value.confinesFields s.host fields = true :=
        Value.confinesFields_of_holdsNoIdentifier fields
          (by simpa [Value.standsAlone, hi] using ha.1)
      rw [renamedRecord, if_pos hi, renamedIdentifier]
      split
      · exact hf
      · exact Value.confinesFields_set hf (Value.confines_of_isString (s.isString_prefixed _))
    · rw [Bool.not_eq_true] at hi
      cases he : s.exempts fields with
      | true =>
        rw [renamedRecord, if_neg (by rw [hi]; decide), if_pos he]
        exact .inl (by rw [← exempts_eq_isPlainAccess, he])
      | false =>
        have hr : s.renamedRecord fields = s.renamedFields fields := by
          simp [renamedRecord, hi, he]
        rw [hr] at hnew ⊢
        exact .inr ⟨hnew, confinesFields_renamed hp hx fields hn.2 ha.2⟩
  | .null, _, _ | .bool _, _, _ | .int _, _, _ | .float _, _, _ | .text _, _, _ | .broken _, _, _
  | .host _, _, _ => by simp [renamed, Value.confines]

theorem confinesItems_renamed (hp : s.KeepsOffHost) (hx : s.excluded.contains s.host = false) :
    ∀ items : List Value, Value.everywhereItems Value.hasStringName items = true →
      Value.everywhereItems Value.standsAlone items = true →
      Value.confinesItems s.host (s.renamedItems items) = true
  | [], _, _ => by rw [renamedItems, Value.confinesItems]
  | item :: rest, hn, ha => by
    rw [Value.everywhereItems, Bool.and_eq_true] at hn ha
    rw [renamedItems, Value.confinesItems, Bool.and_eq_true]
    exact ⟨confines_renamed hp hx item hn.1 ha.1, confinesItems_renamed hp hx rest hn.2 ha.2⟩

theorem confinesFields_renamed (hp : s.KeepsOffHost) (hx : s.excluded.contains s.host = false) :
    ∀ fields : List (String × Value), Value.everywhereFields Value.hasStringName fields = true →
      Value.everywhereFields Value.standsAlone fields = true →
      Value.confinesFields s.host (s.renamedFields fields) = true
  | [], _, _ => by rw [renamedFields, Value.confinesFields]
  | (_, v) :: rest, hn, ha => by
    rw [Value.everywhereFields, Bool.and_eq_true] at hn ha
    rw [renamedFields, Value.confinesFields, Bool.and_eq_true]
    exact ⟨confines_renamed hp hx v hn.1 ha.1, confinesFields_renamed hp hx rest hn.2 ha.2⟩

end

end Sanitizer

/-! ## The pipeline -/

/-- Every identifier of a name, at any position of a tree, lies inside a plain access to it. -/
def Value.OnlyInAccess (host : String) (tree : Value) : Prop :=
  ∀ path node, tree.at? path = some node → isNamed node host = true →
    ∃ front back access, path = front ++ back ∧ back ≠ [] ∧ tree.at? front = some access ∧
      access.isPlainAccess host = true

/-- **The host is reachable only by plain member access**, after renaming and after metering, in a
tree and in a list of statements, if the host's name is not excluded and no new name. -/
theorem host_only_by_plain_access {s : Sanitizer} {m : Instrumenter} {tree : Value}
    (hn : tree.namesAreStrings = true) (ha : tree.everywhere Value.standsAlone = true)
    (hx : s.excluded.contains s.host = false) (hp : ∀ name, s.host ≠ s.marker ++ name)
    (hh : m.call.host = s.host) :
    (∀ depth out, s.sanitize depth tree = .ok out → out.OnlyInAccess s.host) ∧
    (∀ out, (renameThen s (m.node 0) tree).outcome = .ok out → out.OnlyInAccess s.host) ∧
    (∀ out, (renameThen s m.statements tree).outcome = .ok out → out.OnlyInAccess s.host) := by
  have hr : (s.renamed tree).confines s.host = true :=
    Sanitizer.confines_renamed (fun name _ => hp name) hx tree hn ha
  have hk := @Instrumenter.keeps_confines m
  rw [hh] at hk
  refine ⟨fun depth out ho => ?_, fun out ho => ?_, fun out ho => ?_⟩
  · rw [Sanitizer.sanitize_ok ho]
    exact fun _ _ => Value.confines_at? hr
  · rw [renameThen_of_outcome ho] at ho
    exact fun _ _ => Value.confines_at? (hk.node hr ho)
  · rw [renameThen_of_outcome ho] at ho
    exact fun _ _ => Value.confines_at? (hk.statements hr ho)

/-- The statement `left = right;`. -/
def Sample.assignment (left right : Value) : Value :=
  Value.node "ExpressionStatement" [("expression", Value.node "AssignmentExpression"
    [("operator", .text "="), ("left", left), ("right", right)])]

/-- The assignment `a = Host[b];`, which names the host in a computed access. -/
def computedAccess : Value :=
  Sample.program [Sample.assignment (MeteringCall.identifier "a")
    (Value.node "MemberExpression" [("computed", .bool true),
      ("object", MeteringCall.identifier "Host"), ("property", MeteringCall.identifier "b")])]

theorem host_only_by_plain_access_of_computedAccess :
    ∃ out, (renameThen .sample (Instrumenter.sample.node 0) computedAccess).outcome = .ok out ∧
      out.OnlyInAccess "Host" := by
  have hp : ∀ name, Sanitizer.sample.host ≠ Sanitizer.sample.marker ++ name := by
    intro name h
    have hl := congrArg String.toList h
    simp [Sanitizer.sample] at hl
  have h := @host_only_by_plain_access .sample .sample computedAccess rfl rfl rfl hp rfl
  exact ⟨_, rfl, h.2.1 _ rfl⟩

end ContractMeter
