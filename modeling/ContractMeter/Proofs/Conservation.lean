import ContractMeter.Proofs.Pipeline
import ContractMeter.Proofs.Renaming
import ContractMeter.Proofs.Tally

/-!
# ContractMeter.Proofs.Conservation

How many metering calls a tree holds.

* `Sanitizer.exempts_renamedRecord` — renaming makes no plain access to the host and unmakes none.
* `Sanitizer.recognizes_renamed` — so it makes no metering call and unmakes none.
* `Instrumenter.tallies_recognizesRecord` — every charge is one metering call.
* `metering_calls_conserved` — both, for the pipeline.
-/

namespace ContractMeter

theorem Value.count_of_isString {check : Fields → Bool} {v : Value} (h : v.isString = true) :
    v.count check = 0 := by
  cases v with
  | text _ | broken _ => simp [count]
  | _ => cases h

/-! ## Metering calls -/

namespace MeteringCall

def recognizesRecord (call : MeteringCall) (fields : Fields) : Bool :=
  call.recognizes (.record fields)

/-- The number of metering calls anywhere in a tree. -/
def countIn (call : MeteringCall) (v : Value) : Nat :=
  v.count call.recognizesRecord

theorem recognizesRecord_set {call : MeteringCall} {fields : Fields} {key : String} {v : Value}
    (ht : key ≠ "type") (he : key ≠ "expression") :
    call.recognizesRecord (Fields.set fields key v) = call.recognizesRecord fields := by
  simp only [recognizesRecord, recognizes, Value.hasKind_set ht, Value.field_record, Fields.get_set,
    if_neg he.symm]

end MeteringCall

section Instrumented

variable {m : Instrumenter}

theorem Instrumenter.countIn_charge (gamma : Nat) : m.call.countIn (m.charge gamma) = 1 := by
  simp [MeteringCall.countIn, Instrumenter.charge, MeteringCall.statement, MeteringCall.callee,
    MeteringCall.identifier, MeteringCall.amountLiteral, Value.count, Value.countFields,
    Value.countItems, MeteringCall.recognizesRecord, MeteringCall.recognizes,
    MeteringCall.isNamed, Value.hasKind, Value.kind, Value.isNode, Fields.get, Fields.get?_cons,
    Value.isText, Value.truthy]

/-- Metering keeps the metering calls of a tree, and every charge is one more. -/
theorem Instrumenter.tallies_recognizesRecord : m.Tallies m.call.recognizesRecord 1 where
  set fields key v hk := MeteringCall.recognizesRecord_set (fun e => absurd (e ▸ hk) (by decide))
    fun e => absurd (e ▸ hk) (by decide)
  nil := by
    simp [MeteringCall.recognizesRecord, MeteringCall.recognizes, Value.hasKind, Value.isNode,
      Fields.get?]
  block statements := by
    simp [MeteringCall.recognizesRecord, MeteringCall.recognizes, Value.hasKind, Value.kind,
      Value.isNode, Fields.get?, Value.isText]
  charge := Instrumenter.countIn_charge

theorem Instrumenter.countIn_node {depth : Int} {tree out : Value}
    (hl : tree.listShaped = true) (h : (m.node depth tree).outcome = .ok out) :
    m.call.countIn out = m.call.countIn tree + (m.node depth tree).ledger.charges.length := by
  have hc := tallies_recognizesRecord.node hl h
  rwa [Nat.one_mul] at hc

theorem Instrumenter.countIn_statements {tree out : Value}
    (hl : tree.listShaped = true) (h : (m.statements tree).outcome = .ok out) :
    m.call.countIn out = m.call.countIn tree + (m.statements tree).ledger.charges.length := by
  have hc := tallies_recognizesRecord.statements hl h
  rwa [Nat.one_mul] at hc

end Instrumented

/-! ## Renaming -/

section Renaming

variable {s : Sanitizer}

/-- No name that gets the prefix becomes the host's. -/
def Sanitizer.KeepsOffHost (s : Sanitizer) : Prop :=
  ∀ name, s.excluded.contains name = false → s.host ≠ s.marker ++ name

theorem Value.isString_of_namesAreStrings {v : Value} (hn : v.namesAreStrings = true)
    (hk : v.hasKind "Identifier" = true) : (v.field "name").isString = true := by
  cases v with
  | record fields =>
    have hs := check_of_everywhere hn
    rwa [hasStringName, hk, Bool.not_true, Bool.false_or] at hs
  | _ => cases hk

/-- Only the host's own name is the host's name after renaming. -/
theorem Sanitizer.isNamed_of_renamed_of_string (hp : s.KeepsOffHost) {v : Value}
    (hs : v.hasKind "Identifier" = true → (v.field "name").isString = true)
    (h : MeteringCall.isNamed (s.renamed v) s.host = true) :
    MeteringCall.isNamed v s.host = true := by
  unfold MeteringCall.isNamed at h ⊢
  rw [hasKind_renamed, Bool.and_eq_true] at h
  obtain ⟨hk, ht⟩ := h
  have hs := hs hk
  rw [hk, Bool.true_and]
  cases v with
  | record fields =>
    rw [Value.field_record] at hs
    rw [renamed_record, Value.field_record, renamedRecord, if_pos hk, renamedIdentifier] at ht
    rw [Value.field_record]
    split at ht
    · exact ht
    · rename_i he
      rw [Fields.get_set, if_pos rfl] at ht
      cases hv : Fields.get fields "name" with
      | text name =>
        rw [hv] at he ht
        have hc : s.excluded.contains name = false := by simpa [isExcluded] using he
        have hh : s.marker ++ name = s.host := by
          simpa [prefixed, Value.display, Value.isText] using ht
        exact absurd hh.symm (hp name hc)
      | broken t =>
        rw [hv, prefixed, Value.ofPoints_append_broken] at ht
        cases ht
      | _ =>
        rw [hv] at hs
        cases hs
  | _ => cases hk

theorem Sanitizer.isHostAccess_eq (member : Value) :
    s.isHostAccess member = (!(member.field "computed").truthy &&
      MeteringCall.isNamed (member.field "object") s.host) := by
  simp [isHostAccess, MeteringCall.isNamed, Bool.and_assoc]

/-- A record is exempt after renaming if and only if it was: such a record stays as it is, and no
other gets the host's name as that of its object. -/
theorem Sanitizer.exempts_renamedRecord_of_string (hp : s.KeepsOffHost) {fields : Fields}
    (hs : s.enters fields = true → (Fields.get fields "object").hasKind "Identifier" = true →
      ((Fields.get fields "object").field "name").isString = true) :
    s.exempts (s.renamedRecord fields) = s.exempts fields := by
  by_cases hm : (Value.record fields).hasKind "MemberExpression" = true
  · by_cases he : s.exempts fields = true
    · have hi : (Value.record fields).hasKind "Identifier" = false :=
        Value.hasKind_of_ne hm (by decide)
      have hr : s.renamedRecord fields = fields := by simp [renamedRecord, hi, he]
      rw [hr]
    · rw [Bool.not_eq_true] at he
      rw [he]
      refine Bool.eq_false_iff.mpr fun hr => Bool.eq_false_iff.mp he ?_
      have henters : s.enters fields = true :=
        enters_iff.mpr ⟨Value.hasKind_of_ne hm (by decide), he⟩
      simp only [exempts, hm, Bool.true_and, isHostAccess_eq, Value.field_record, Bool.and_eq_true]
        at hr ⊢
      obtain ⟨-, hc, ho⟩ := hr
      rw [get_renamedRecord (by decide), within_of_enters henters] at hc ho
      rw [truthy_renamed] at hc
      exact ⟨hc, isNamed_of_renamed_of_string hp (hs henters) ho⟩
  · have hr := s.hasKind_renamed (.record fields) "MemberExpression"
    rw [renamed_record] at hr
    simp only [exempts, hr, hm, Bool.false_and]

theorem Sanitizer.exempts_renamedRecord (hp : s.KeepsOffHost) {fields : Fields}
    (hn : (Value.record fields).namesAreStrings = true) :
    s.exempts (s.renamedRecord fields) = s.exempts fields := by
  have ho : (Fields.get fields "object").namesAreStrings = true :=
    Value.everywhere_field hn "object"
  exact exempts_renamedRecord_of_string hp fun _ => Value.isString_of_namesAreStrings ho

/-- An access is to the host after renaming if and only if it was: such an access is exempt, and
no other gets the host's name. -/
theorem Sanitizer.hostAccess_renamed (hp : s.KeepsOffHost) {callee : Value}
    (hn : callee.namesAreStrings = true) (hk : callee.hasKind "MemberExpression" = true)
    (primitive : String) :
    (!((s.renamed callee).field "computed").truthy &&
        MeteringCall.isNamed ((s.renamed callee).field "object") s.host &&
        MeteringCall.isNamed ((s.renamed callee).field "property") primitive) =
      (!(callee.field "computed").truthy &&
        MeteringCall.isNamed (callee.field "object") s.host &&
        MeteringCall.isNamed (callee.field "property") primitive) := by
  cases callee with
  | record fields =>
    have hkr := (s.hasKind_renamed (.record fields) "MemberExpression").trans hk
    have he := exempts_renamedRecord hp hn
    rw [renamed_record] at hkr ⊢
    rw [← isHostAccess_eq, ← isHostAccess_eq]
    simp only [exempts, hk, hkr, Bool.true_and] at he
    rw [he]
    cases ha : s.isHostAccess (.record fields) with
    | false => rfl
    | true =>
      have hr : s.renamedRecord fields = fields := by
        simp [renamedRecord, Value.hasKind_of_ne hk, exempts, hk, ha]
      rw [hr]
  | _ => cases hk

/-- A node is a metering call after renaming if and only if it was one. -/
theorem Sanitizer.recognizes_renamed {call : MeteringCall} (hh : call.host = s.host)
    (hp : s.KeepsOffHost) {v : Value} (hn : v.namesAreStrings = true) :
    call.recognizes (s.renamed v) = call.recognizes v := by
  unfold MeteringCall.recognizes
  dsimp only
  rw [hasKind_renamed]
  by_cases hv : v.hasKind "ExpressionStatement" = true
  · rw [field_renamed hv (by decide) (by decide), hasKind_renamed]
    by_cases he : (v.field "expression").hasKind "CallExpression" = true
    · rw [field_renamed he (by decide) (by decide), hasKind_renamed]
      by_cases hc : ((v.field "expression").field "callee").hasKind "MemberExpression" = true
      · have hcn : ((v.field "expression").field "callee").namesAreStrings = true :=
          Value.everywhere_field (Value.everywhere_field hn _) _
        have h := Sanitizer.hostAccess_renamed hp hcn hc call.primitive
        simp only [hv, he, hc, Bool.true_and, hh]
        exact h
      · simp [hc]
    · simp [he]
  · simp [hv]

theorem Sanitizer.countFields_renamedIdentifier {check : Fields → Bool} {fields : Fields}
    (hn : (Fields.get fields "name").isString = true) :
    Value.countFields check (s.renamedIdentifier fields) = Value.countFields check fields := by
  unfold renamedIdentifier
  split
  · rfl
  · have h := @Value.countFields_set check fields "name" (s.prefixed (Fields.get fields "name"))
    rw [Value.count_of_isString hn, Value.count_of_isString (s.isString_prefixed _)] at h
    exact h

mutual

theorem Sanitizer.countIn_renamed {call : MeteringCall} (hh : call.host = s.host)
    (hp : s.KeepsOffHost) : ∀ v : Value, v.namesAreStrings = true →
      call.countIn (s.renamed v) = call.countIn v
  | .list items, h => by
    rw [renamed_list, MeteringCall.countIn, MeteringCall.countIn, Value.count_list,
      Value.count_list]
    exact countItems_renamed hh hp items h
  | .record fields, h => by
    have hr := Sanitizer.recognizes_renamed hh hp h
    rw [Value.namesAreStrings, Value.everywhere, Bool.and_eq_true] at h
    rw [renamed_record] at hr ⊢
    simp only [MeteringCall.countIn, Value.count, MeteringCall.recognizesRecord, hr,
      Nat.add_left_cancel_iff]
    unfold renamedRecord
    split
    · rename_i hk
      exact countFields_renamedIdentifier (by simpa [Value.hasStringName, hk] using h.1)
    · split
      · rfl
      · exact countFields_renamed hh hp fields h.2
  | .null, _ | .bool _, _ | .int _, _ | .float _, _ | .text _, _ | .broken _, _
  | .host _, _ => by simp [renamed]

theorem Sanitizer.countItems_renamed {call : MeteringCall} (hh : call.host = s.host)
    (hp : s.KeepsOffHost) : ∀ items : List Value,
      Value.everywhereItems Value.hasStringName items = true →
      Value.countItems call.recognizesRecord (s.renamedItems items) =
        Value.countItems call.recognizesRecord items
  | [], _ => by rw [renamedItems]
  | item :: rest, h => by
    rw [Value.everywhereItems, Bool.and_eq_true] at h
    have hi : (s.renamed item).count _ = item.count _ := countIn_renamed hh hp item h.1
    rw [renamedItems, Value.countItems, Value.countItems, hi, countItems_renamed hh hp rest h.2]

theorem Sanitizer.countFields_renamed {call : MeteringCall} (hh : call.host = s.host)
    (hp : s.KeepsOffHost) : ∀ fields : List (String × Value),
      Value.everywhereFields Value.hasStringName fields = true →
      Value.countFields call.recognizesRecord (s.renamedFields fields) =
        Value.countFields call.recognizesRecord fields
  | [], _ => by rw [renamedFields]
  | (_, v) :: rest, h => by
    rw [Value.everywhereFields, Bool.and_eq_true] at h
    have hv : (s.renamed v).count _ = v.count _ := countIn_renamed hh hp v h.1
    rw [renamedFields, Value.countFields, Value.countFields, hv, countFields_renamed hh hp rest h.2]

end

theorem Sanitizer.child?_renamed {v : Value} (hn : v.namesAreStrings = true) (edge : Edge) :
    (s.renamed v).child? edge = (v.child? edge).map s.renamed ∨
      (s.renamed v).child? edge = v.child? edge ∨
      ∃ w w', v.child? edge = some w ∧ (s.renamed v).child? edge = some w' ∧
        w.isString = true ∧ w'.isString = true := by
  cases v with
  | list items =>
    cases edge with
    | field name => exact .inl (by simp [Value.child?])
    | item i => exact .inl (by simp [renamedItems_eq_map])
  | record fields =>
    cases edge with
    | item i => exact .inl (by simp [Value.child?])
    | field key =>
      have hs := Value.check_of_everywhere hn
      simp only [renamed_record, Value.child?_field, renamedRecord]
      split
      · rename_i hk
        simp only [Value.hasStringName, hk, Bool.not_true, Bool.false_or] at hs
        by_cases hkey : key = "name"
        · subst hkey
          unfold renamedIdentifier
          split
          · exact .inr (.inl rfl)
          · cases hg : Fields.get? fields "name" with
            | none => simp [Fields.get, hg, Value.isString] at hs
            | some w =>
              refine .inr (.inr ⟨w, _, rfl, Fields.get?_set_self .., ?_, s.isString_prefixed _⟩)
              rwa [Fields.get_of_get? hg] at hs
        · refine .inr (.inl ?_)
          unfold renamedIdentifier
          split
          · rfl
          · exact Fields.get?_set_of_ne hkey
      · split
        · exact .inr (.inl rfl)
        · exact .inl (get?_renamedFields fields key)
  | _ => cases edge <;> exact .inl (by simp [renamed, Value.child?])

theorem MeteringCall.recognizes_at?_of_isString {call : MeteringCall} {v : Value}
    (h : v.isString = true) (path : Path) :
    (v.at? path).map call.recognizes = if path = [] then some false else none := by
  cases v with
  | text _ | broken _ =>
    cases path with
    | nil => simp [recognizes, Value.hasKind, Value.isNode, Value.field?]
    | cons edge rest => cases edge <;> simp [Value.at?, Value.child?]
  | _ => cases h

/-- At every position there is a metering call after renaming if and only if there was one. -/
theorem Sanitizer.recognizes_at?_renamed {call : MeteringCall} (hh : call.host = s.host)
    (hp : s.KeepsOffHost) {v : Value} (hn : v.namesAreStrings = true) (path : Path) :
    ((s.renamed v).at? path).map call.recognizes = (v.at? path).map call.recognizes := by
  induction path generalizing v with
  | nil => exact congrArg some (recognizes_renamed hh hp hn)
  | cons edge rest ih =>
    rw [Value.at?, Value.at?]
    rcases s.child?_renamed hn edge with h | h | ⟨w, w', hw, hw', hs, hs'⟩
    · rw [h]
      cases hc : v.child? edge with
      | none => rfl
      | some w => exact ih (Value.everywhere_child? hn hc)
    · rw [h]
    · rw [hw, hw']
      dsimp only
      rw [MeteringCall.recognizes_at?_of_isString hs, MeteringCall.recognizes_at?_of_isString hs']

end Renaming

/-! ## The pipeline -/

theorem renameThen_of_outcome {s : Sanitizer} {pass : Value → Metered Value} {tree out : Value}
    (h : (renameThen s pass tree).outcome = .ok out) :
    renameThen s pass tree = pass (s.renamed tree) := by
  cases hs : s.sanitize 0 tree with
  | error failure =>
    rw [renameThen, hs] at h
    cases h
  | ok renamed => rw [renameThen_of_ok hs, Sanitizer.sanitize_ok hs]

/-- **Metering calls are conserved**: renaming leaves one exactly where one was, and metering adds
one for each charge it records, in a tree and in a list of statements. -/
theorem metering_calls_conserved {s : Sanitizer} {m : Instrumenter} {tree : Value}
    (hl : tree.listShaped = true) (hn : tree.namesAreStrings = true)
    (hh : m.call.host = s.host) (hp : s.KeepsOffHost) :
    (∀ depth renamed, s.sanitize depth tree = .ok renamed → ∀ path,
      (renamed.at? path).map m.call.recognizes = (tree.at? path).map m.call.recognizes) ∧
    (∀ out, (renameThen s (m.node 0) tree).outcome = .ok out →
      m.call.countIn out =
        m.call.countIn tree + (renameThen s (m.node 0) tree).ledger.charges.length) ∧
    (∀ out, (renameThen s m.statements tree).outcome = .ok out →
      m.call.countIn out =
        m.call.countIn tree + (renameThen s m.statements tree).ledger.charges.length) := by
  have hr : m.call.countIn (s.renamed tree) = m.call.countIn tree :=
    Sanitizer.countIn_renamed hh hp tree hn
  have hlr : (s.renamed tree).listShaped = true := Sanitizer.listShaped_renamed hl
  refine ⟨fun depth renamed hs path => ?_, fun out ho => ?_, fun out ho => ?_⟩
  · rw [Sanitizer.sanitize_ok hs]
    exact Sanitizer.recognizes_at?_renamed hh hp hn path
  · have e := renameThen_of_outcome ho
    rw [e] at ho ⊢
    rw [Instrumenter.countIn_node hlr ho, hr]
  · have e := renameThen_of_outcome ho
    rw [e] at ho ⊢
    rw [Instrumenter.countIn_statements hlr ho, hr]

theorem Sanitizer.sample_keepsOffHost : Sanitizer.sample.KeepsOffHost := by
  intro name _ h
  have hl := congrArg String.toList h
  simp [Sanitizer.sample] at hl

/-- A metering call that the contract wrote, in front of `a++;`. -/
def ownCall : Value :=
  Sample.program [Instrumenter.sample.charge 7, Value.node "ExpressionStatement" [("expression",
    Value.node "UpdateExpression"
      [("operator", .text "++"), ("argument", MeteringCall.identifier "a")])]]

theorem metering_calls_conserved_of_ownCall :
    ∃ out, ownCall.listShaped = true ∧ ownCall.namesAreStrings = true ∧
      (renameThen .sample (Instrumenter.sample.node 0) ownCall).outcome = .ok out ∧
      Instrumenter.sample.call.countIn out = 3 := by
  refine ⟨_, by decide, by decide, rfl, ?_⟩
  have h := @metering_calls_conserved .sample .sample ownCall (by decide) (by decide) rfl
    Sanitizer.sample_keepsOffHost
  exact h.2.1 _ rfl

end ContractMeter
