import ContractMeter.Proofs.Pipeline
import ContractMeter.Proofs.Steady

/-!
# ContractMeter.Proofs.Commutation

Renaming and metering in either order.

* `Metered.Parallel` — runs that record the same and end alike.
* `Sanitizer.Respects` — a pass that makes of a renamed tree what it makes of the tree, renamed.
* `nodeAt_respects` — metering is such a pass, level by level.
* `passes_commute` — so the order of the two does not matter.
-/

namespace ContractMeter

open Instrumenter (block prepend loopBody)

/-! ## Runs side by side -/

namespace Metered

/-- Runs that record the same and end with related results or with the same failure. -/
inductive Parallel {α β : Type} (R : α → β → Prop) : Metered α → Metered β → Prop where
  | ok {l : Ledger} {a : α} {b : β} (h : R a b) : Parallel R ⟨l, .ok a⟩ ⟨l, .ok b⟩
  | error {l : Ledger} {failure : Failure} : Parallel R ⟨l, .error failure⟩ ⟨l, .error failure⟩

section Parallel

variable {α β γ δ : Type} {R : α → β → Prop} {S : γ → δ → Prop} {x : Metered α} {y : Metered β}

theorem parallel_pure {a : α} {b : β} (h : R a b) : Parallel R (.pure a) (.pure b) :=
  .ok h

theorem parallel_fail (failure : Failure) : Parallel R (fail failure) (fail failure) :=
  .error

theorem Parallel.after {l : Ledger} (h : Parallel R x y) :
    Parallel R ⟨l ++ x.ledger, x.outcome⟩ ⟨l ++ y.ledger, y.outcome⟩ := by
  cases h with
  | ok h => exact .ok h
  | error => exact .error

theorem Parallel.bind {f : α → Metered γ} {g : β → Metered δ} (h : Parallel R x y)
    (hf : ∀ a b, R a b → Parallel S (f a) (g b)) : Parallel S (x >>= f) (y >>= g) := by
  cases h with
  | ok h => exact (hf _ _ h).after
  | error => exact .error

theorem Parallel.map {f : α → γ} {g : β → δ} (h : Parallel R x y)
    (hf : ∀ a b, R a b → S (f a) (g b)) : Parallel S (x.map f) (y.map g) := by
  cases h with
  | ok h => exact .ok (hf _ _ h)
  | error => exact .error

theorem Parallel.mono {R' : α → β → Prop} (h : Parallel R x y) (hR : ∀ a b, R a b → R' a b) :
    Parallel R' x y := by
  cases h with
  | ok h => exact .ok (hR _ _ h)
  | error => exact .error

/-- A run beside itself, with what its results are known to be related to. -/
theorem Parallel.self (h : Parallel R x y) : Parallel (fun a b => b = a ∧ ∃ c, R a c) x x := by
  cases h with
  | ok h => exact .ok ⟨rfl, _, h⟩
  | error => exact .error

theorem Parallel.refl (x : Metered α) : Parallel (fun a b => b = a) x x := by
  obtain ⟨l, outcome⟩ := x
  cases outcome with
  | ok a => exact .ok rfl
  | error failure => exact .error

theorem Parallel.afterSame {f : α → Metered γ} {g : α → Metered δ} (x : Metered α)
    (h : ∀ a, Parallel S (f a) (g a)) : Parallel S (x >>= f) (x >>= g) := by
  refine (Parallel.refl x).bind ?_
  rintro _ a rfl
  exact h a

end Parallel

end Metered

open Metered

/-! ## Metering renamed trees -/

namespace Sanitizer

variable {s : Sanitizer} {fields : Fields} {key : String}

/-- A steady value and what renaming makes of it. -/
def Renames (s : Sanitizer) (v w : Value) : Prop :=
  w = s.renamed v ∧ v.Steady

/-- A steady part of a record and what renaming the record makes of it. -/
def RenamesWithin (s : Sanitizer) (fields : Fields) (v w : Value) : Prop :=
  w = s.within fields v ∧ v.Steady

/-- Steady values and what renaming makes of them. -/
def RenamesEach (s : Sanitizer) (vs ws : List Value) : Prop :=
  ws = vs.map s.renamed ∧ ∀ v ∈ vs, v.Steady

/-- A pass that makes of a renamed value what it makes of the value, renamed, and records the
same. -/
def Respects (s : Sanitizer) (pass : Value → Metered Value) : Prop :=
  ∀ ⦃v : Value⦄, v.Steady → Parallel s.Renames (pass v) (pass (s.renamed v))

theorem Respects.within {pass : Value → Metered Value} (h : s.Respects pass) {v : Value}
    (hv : v.Steady) (fields : Fields) :
    Parallel (s.RenamesWithin fields) (pass v) (pass (s.within fields v)) := by
  by_cases he : s.enters fields = true
  · unfold RenamesWithin
    rw [within_of_enters he]
    exact h hv
  -- nothing in the record is renamed, so both runs are the run on `v`
  · have hw : s.within fields = id := funext fun w => if_neg he
    unfold RenamesWithin
    rw [hw]
    refine (h hv).self.mono ?_
    rintro a _ ⟨rfl, _, _, ha⟩
    exact ⟨rfl, ha⟩

theorem renames_set {fields' : Fields} {v w : Value}
    (h : s.Renames (.record fields) (.record fields')) (hw : s.RenamesWithin fields v w)
    (hk : key ∈ statementFields)
    (hl : key ≠ "value" ∨ (Value.record fields).hasKind "Literal" = false) :
    s.Renames (.record (Fields.set fields key v)) (.record (Fields.set fields' key w)) := by
  obtain ⟨hf, hs⟩ := h
  obtain ⟨rfl, hv⟩ := hw
  rw [renamed_record, Value.record.injEq] at hf
  refine ⟨?_, hs.set hv hk hl⟩
  rw [renamed_record, renamedRecord_set (Value.check_of_everywhere hs.names) hk, hf]

theorem RenamesWithin.after_set {u v w : Value} (h : s.RenamesWithin fields v w)
    (hk : key ∈ statementFields) : s.RenamesWithin (Fields.set fields key u) v w := by
  rw [RenamesWithin, within_set hk]
  exact h

theorem renames_record (h : (Value.record fields).Steady) :
    s.Renames (.record fields) (.record (s.renamedRecord fields)) :=
  ⟨(s.renamed_record fields).symm, h⟩

end Sanitizer

namespace Instrumenter

open Sanitizer

variable {m : Instrumenter} {s : Sanitizer}

theorem steady_charge (gamma : Nat) : (m.charge gamma).Steady :=
  ⟨rfl, rfl, rfl⟩

theorem renamed_charge (hh : m.call.host = s.host) (gamma : Nat) :
    s.renamed (m.charge gamma) = m.charge gamma := by
  simp [charge, MeteringCall.statement, MeteringCall.callee, MeteringCall.identifier, hh,
    MeteringCall.amountLiteral, renamed, renamedRecord, renamedFields, renamedItems, exempts,
    isHostAccess, Value.hasKind, Value.isNode, Value.kind, Fields.get, Fields.get?_cons,
    Value.isText, Value.truthy]

theorem steady_block {statements : Value} (h : statements.Steady) : (block statements).Steady :=
  @Value.Steady.set [("type", .text "BlockStatement")] "body" statements ⟨rfl, rfl, rfl⟩ h
    (by decide) (.inl (by decide))

theorem steady_loopBody {fields : Fields} (h : (Value.record fields).Steady) :
    (loopBody fields).Steady := by
  unfold loopBody
  dsimp only
  split
  · exact h.get "body"
  · exact steady_block Value.steady_nil

theorem isUncharged_renamed (v : Value) : isUncharged (s.renamed v) = isUncharged v := by
  unfold isUncharged
  rw [funext (s.hasKind_renamed v)]

theorem recordCharge_renamed {v : Value} (h : v.Steady) (gamma : Nat) (label : Option String) :
    recordCharge (s.renamed v) gamma label = recordCharge v gamma label := by
  rw [recordCharge, recordCharge, chargeOf_renamed h]

theorem charged_parallel (hh : m.call.host = s.host) {v : Value} (h : v.Steady) :
    Parallel s.RenamesEach (m.charged v) (m.charged (s.renamed v)) := by
  unfold charged
  rw [isUncharged_renamed]
  split
  · exact parallel_pure ⟨rfl, by simpa using h⟩
  · rw [Pricing.gammaFor_renamed _ _ h.stores]
    refine .afterSame _ fun gamma => ?_
    rw [recordCharge_renamed h]
    refine .afterSame _ fun _ => parallel_pure ⟨?_, ?_⟩
    · simp [renamed_charge hh]
    · simp [steady_charge, h]

section Parts

variable {node inner sequence : Value → Metered Value}

theorem chargeEach_parallel (hh : m.call.host = s.host) (hn : s.Respects node)
    {items : List Value} (h : ∀ v ∈ items, v.Steady) :
    Parallel s.RenamesEach (m.chargeEach node items)
      (m.chargeEach node (items.map s.renamed)) := by
  induction items with
  | nil => exact parallel_pure ⟨rfl, h⟩
  | cons item rest ih =>
    have hi := h item List.mem_cons_self
    have hr := ih fun v hv => h v (List.mem_cons_of_mem _ hv)
    refine (hn hi).bind ?_
    rintro item _ ⟨rfl, hi'⟩
    refine (charged_parallel hh hi').bind ?_
    rintro placed _ ⟨rfl, hp⟩
    refine hr.map ?_
    rintro others _ ⟨rfl, ho⟩
    exact ⟨(List.map_append ..).symm, by simpa [or_imp, forall_and] using ⟨hp, ho⟩⟩

theorem chargeElements_respects (hh : m.call.host = s.host) (hn : s.Respects node) :
    s.Respects (m.chargeElements node) := by
  intro v hv
  unfold chargeElements
  rw [elements_renamed hv.names]
  cases he : v.elements with
  | error cause => exact parallel_fail _
  | ok items =>
    refine (chargeEach_parallel hh hn (hv.elements he)).bind ?_
    rintro items' _ ⟨rfl, hi⟩
    refine parallel_pure ⟨?_, ?_⟩
    · rw [renamed_list, renamedItems_eq_map]
    · exact Value.steady_list.mpr hi

theorem statementPart_respects (hn : s.Respects node) (hi : s.Respects inner) :
    s.Respects (statementPart node inner) := by
  intro v hv
  by_cases h0 : v = .null
  · subst h0
    have h := hn hv
    rw [renamed_null] at h ⊢
    exact h
  · rw [statementPart_of_ne_null h0, statementPart_of_ne_null (mt s.renamed_eq_null_iff.mp h0),
      hasKind_renamed]
    split
    · exact hn hv
    · have h := hi (Value.steady_list.mpr (List.forall_mem_singleton.mpr hv))
      rw [renamed_list, renamedItems_eq_map] at h
      refine h.bind ?_
      rintro statements _ ⟨rfl, hs⟩
      exact parallel_pure ⟨(renamed_block statements).symm, steady_block hs⟩

theorem renames_prepend {charge v : Value} (hc : s.Renames charge charge) (hv : v.Steady) :
    s.Renames (prepend charge v) (prepend charge (s.renamed v)) := by
  cases v with
  | record fields =>
    have hw : s.within fields charge = charge := within_congr (f := id) hc.1.symm
    rw [renamed_record, prepend_record, prepend_record, get_renamedRecord (by decide),
      items_within]
    refine renames_set (renames_record hv) ⟨?_, ?_⟩ (by decide) (.inl (by decide))
    · rw [within_list, List.map_cons, hw]
    · exact Value.steady_list.mpr (List.forall_mem_cons.mpr ⟨hc.2, (hv.get "body").items⟩)
  | list items =>
    rw [renamed_list]
    exact ⟨(s.renamed_list items).symm, hv⟩
  | _ =>
    simp only [renamed]
    exact ⟨by simp [prepend, renamed], hv⟩

theorem renamesWithin_prepend {charge v w : Value} {fields : Fields}
    (hc : s.Renames charge charge) (h : s.RenamesWithin fields v w) :
    s.RenamesWithin fields (prepend charge v) (prepend charge w) := by
  obtain ⟨rfl, hv⟩ := h
  have hp := renames_prepend hc hv
  refine ⟨?_, hp.2⟩
  unfold within
  split
  · exact hp.1
  · rfl

theorem eachCase_parallel (hi : s.Respects inner) {cases : List Value}
    (h : ∀ v ∈ cases, v.Steady) :
    Parallel s.RenamesEach (eachCase inner cases) (eachCase inner (cases.map s.renamed)) := by
  induction cases with
  | nil => exact parallel_pure ⟨rfl, h⟩
  | cons c rest ih =>
    have hc := h c List.mem_cons_self
    have hr := ih fun v hv => h v (List.mem_cons_of_mem _ hv)
    rw [List.map_cons]
    cases c with
    | record fields =>
      rw [renamed_record, eachCase, eachCase, getD_renamedRecord (by decide)]
      refine (hi.within (hc.getD "consequent") fields).bind ?_
      intro consequent consequent' hw
      refine hr.map ?_
      rintro others _ ⟨rfl, ho⟩
      have hset := @renames_set s fields "consequent" _ _ _ (renames_record hc) hw (by decide)
        (.inl (by decide))
      exact ⟨by rw [List.map_cons, ← hset.1], List.forall_mem_cons.mpr ⟨hset.2, ho⟩⟩
    | list items =>
      rw [renamed_list]
      exact parallel_fail _
    | _ =>
      simp only [renamed]
      exact parallel_fail _

theorem meterLoop_parallel (hh : m.call.host = s.host) (hn : s.Respects node)
    (hi : s.Respects inner) (depth : Int) (kind : String) {fields : Fields}
    (h : (Value.record fields).Steady) :
    Parallel s.Renames (m.meterLoop node inner depth kind fields)
      (m.meterLoop node inner depth kind (s.renamedRecord fields)) := by
  unfold meterLoop
  have hg := m.pricing.gammaPerIteration_renamed (s := s) depth h.stores
  have hr := recordCharge_renamed (s := s) h
  rw [renamed_record] at hg hr
  rw [hg]
  refine .afterSame _ fun gamma => ?_
  rw [hr]
  refine .afterSame _ fun _ => ?_
  rw [loopBody_renamedRecord]
  refine ((statementPart_respects hn hi).within (steady_loopBody h) fields).bind ?_
  intro body body' hb
  have hc : s.Renames (m.charge gamma) (m.charge gamma) :=
    ⟨(renamed_charge hh gamma).symm, steady_charge gamma⟩
  exact parallel_pure (renames_set (renames_record h) (renamesWithin_prepend hc hb) (by decide)
    (.inl (by decide)))

theorem parts_parallel (hh : m.call.host = s.host) (hn : s.Respects node)
    (hs : s.Respects sequence) (hi : s.Respects inner) (depth : Int) {kind : String}
    {fields : Fields} (h : (Value.record fields).Steady)
    (hk : Fields.get? fields "type" = some (.text kind)) :
    Parallel s.Renames (m.parts node sequence inner depth kind fields)
      (m.parts node sequence inner depth kind (s.renamedRecord fields)) := by
  have hp : s.Respects (statementPart node inner) := statementPart_respects hn hi
  have hf : s.Renames (.record fields) (.record (s.renamedRecord fields)) := renames_record h
  unfold parts
  cases hc : Container.ofKind kind with
  | sequence =>
    dsimp only
    rw [getD_renamedRecord (by decide)]
    refine (hs.within (h.getD "body") fields).bind fun body body' hb => ?_
    exact parallel_pure (renames_set hf hb (by decide) (.inl (by decide)))
  | body =>
    dsimp only
    rw [get_renamedRecord (by decide)]
    refine (hn.within (h.get "body") fields).bind fun body body' hb => ?_
    exact parallel_pure (renames_set hf hb (by decide) (.inl (by decide)))
  | loop => exact meterLoop_parallel hh hn hi depth kind h
  | statementBody =>
    dsimp only
    rw [get_renamedRecord (by decide)]
    refine (hp.within (h.get "body") fields).bind fun body body' hb => ?_
    exact parallel_pure (renames_set hf hb (by decide) (.inl (by decide)))
  | value =>
    dsimp only
    rw [get_renamedRecord (by decide)]
    refine (hn.within (h.get "value") fields).bind fun value value' hv => ?_
    -- a literal's value would have to stay free of names
    have hl : (Value.record fields).hasKind "Literal" = false := by
      refine Bool.eq_false_iff.mpr fun hl => ?_
      have hcl := Value.container_of_hasKind hl
      rw [Value.container_of_kind hk, hc] at hcl
      cases hcl
    exact parallel_pure (renames_set hf hv (by decide) (.inr hl))
  | branch =>
    dsimp only
    rw [get_renamedRecord (by decide), get_renamedRecord (by decide)]
    refine (hp.within (h.get "consequent") fields).bind fun _ _ h₁ => ?_
    refine (hp.within (h.get "alternate") fields).bind fun _ _ h₂ => parallel_pure ?_
    have hf₁ := @renames_set s fields "consequent" _ _ _ hf h₁ (by decide) (.inl (by decide))
    exact renames_set hf₁ (h₂.after_set (by decide)) (by decide) (.inl (by decide))
  | attempt =>
    dsimp only
    rw [get_renamedRecord (by decide), get_renamedRecord (by decide),
      get_renamedRecord (by decide)]
    refine (hn.within (h.get "block") fields).bind fun _ _ h₁ => ?_
    refine (hn.within (h.get "handler") fields).bind fun _ _ h₂ => ?_
    refine (hn.within (h.get "finalizer") fields).bind fun _ _ h₃ => parallel_pure ?_
    have hf₁ := @renames_set s fields "block" _ _ _ hf h₁ (by decide) (.inl (by decide))
    have hf₂ := @renames_set s _ "handler" _ _ _ hf₁ (h₂.after_set (by decide)) (by decide)
      (.inl (by decide))
    exact renames_set hf₂ ((h₃.after_set (by decide)).after_set (by decide)) (by decide)
      (.inl (by decide))
  | switch =>
    -- a case may be a node that renaming leaves alone, but the `switch` around it is not
    have he : s.enters fields = true := by
      refine enters_of_container ?_
      rw [Value.container_of_kind hk, hc]
      decide
    have hb := h.getD "cases"
    dsimp only
    rw [getD_renamedRecord (by decide), within_of_enters he, elements_renamed hb.names]
    cases hi' : ((Fields.get? fields "cases").getD (.list [])).elements with
    | error cause => exact parallel_fail _
    | ok cases =>
      refine (eachCase_parallel hi (hb.elements hi')).bind ?_
      rintro cases' _ ⟨rfl, hcs⟩
      refine parallel_pure (renames_set hf ⟨?_, Value.steady_list.mpr hcs⟩ (by decide)
        (.inl (by decide)))
      rw [within_of_enters he, renamed_list, renamedItems_eq_map]
  | leaf => exact parallel_pure hf

end Parts

mutual

theorem nodeAt_respects (hh : m.call.host = s.host) : ∀ levels, s.Respects (m.nodeAt levels)
  | 0 => fun _ _ => parallel_fail _
  | levels + 1 => by
    intro v hv
    cases v with
    | record fields =>
      rw [renamed_record, nodeAt, nodeAt, type_renamedRecord hv.kinds]
      split
      · exact parallel_pure (renames_record hv)
      · rename_i kind hk
        exact parts_parallel hh (nodeAt_respects hh levels) (sequenceAt_respects hh levels)
          (innerSequenceAt_respects hh levels) _ hv hk
      · split
        · exact parallel_pure (renames_record hv)
        · exact parallel_fail _
    | list items =>
      rw [renamed_list]
      exact parallel_pure ⟨(s.renamed_list items).symm, hv⟩
    | _ =>
      simp only [renamed]
      exact parallel_pure ⟨by simp [renamed], hv⟩

theorem sequenceAt_respects (hh : m.call.host = s.host) :
    ∀ levels, s.Respects (m.sequenceAt levels)
  | 0 => fun _ _ => parallel_fail _
  | levels + 1 => chargeElements_respects hh (nodeAt_respects hh levels)

theorem innerSequenceAt_respects (hh : m.call.host = s.host) :
    ∀ levels, s.Respects (m.innerSequenceAt levels)
  | 0 => fun _ _ => parallel_fail _
  | levels + 1 => sequenceAt_respects hh levels

end

theorem statements_respects (hh : m.call.host = s.host) : s.Respects m.statements := by
  intro v hv
  cases v with
  | list items =>
    rw [renamed_list]
    have h := sequenceAt_respects hh (levelsLeft m.maxDepth 0) hv
    rwa [renamed_list] at h
  | record fields =>
    rw [renamed_record]
    have h := nodeAt_respects hh (levelsLeft m.maxDepth 0) hv
    rwa [renamed_record] at h
  | _ =>
    have h := nodeAt_respects hh (levelsLeft m.maxDepth 0) hv
    simp only [renamed] at h ⊢
    exact h

end Instrumenter

/-! ## The two orders -/

/-- Renaming before a pass that respects it and renaming behind it come to the same, if no ceiling
stops the renaming. -/
theorem Sanitizer.Respects.commutes {s : Sanitizer} {pass : Value → Metered Value}
    (h : s.Respects pass) {tree : Value} (ht : tree.Steady)
    (hs : s.sanitize 0 tree ≠ .error (.rejected (.tooDeep (some s.maxDepth))))
    (ho : ∀ out, (pass tree).outcome = .ok out →
      s.sanitize 0 out ≠ .error (.rejected (.tooDeep (some s.maxDepth)))) :
    renameThen s pass tree = thenRename s pass tree := by
  rw [renameThen_of_ok (sanitize_of_names ht.names hs), thenRename]
  have hp := h ht
  generalize pass (s.renamed tree) = y at hp ⊢
  generalize pass tree = x at hp ho ⊢
  cases hp with
  | error => rfl
  | @ok l out _ hr =>
    obtain ⟨rfl, hs'⟩ := hr
    show _ = (⟨l ++ .empty, s.sanitize 0 out⟩ : Metered Value)
    rw [sanitize_of_names hs'.names (ho out rfl), Ledger.append_empty]

/-- **The two passes commute** on a steady tree whose renaming no ceiling stops, whatever ceilings
metering has: the two orders end with the same tree or the same failure and record the same. -/
theorem passes_commute {s : Sanitizer} {m : Instrumenter} {tree : Value} (h : tree.Steady)
    (hh : m.call.host = s.host)
    (hs : s.sanitize 0 tree ≠ .error (.rejected (.tooDeep (some s.maxDepth)))) :
    ((∀ out, (m.node 0 tree).outcome = .ok out →
        s.sanitize 0 out ≠ .error (.rejected (.tooDeep (some s.maxDepth)))) →
      renameThen s (m.node 0) tree = thenRename s (m.node 0) tree) ∧
    ((∀ out, (m.statements tree).outcome = .ok out →
        s.sanitize 0 out ≠ .error (.rejected (.tooDeep (some s.maxDepth)))) →
      renameThen s m.statements tree = thenRename s m.statements tree) :=
  ⟨(Instrumenter.nodeAt_respects hh (levelsLeft m.maxDepth 0)).commutes h hs,
    (Instrumenter.statements_respects hh).commutes h hs⟩

/-- The loop `while (a < push) Host.next;`, which keeps two of its names. -/
def hostLoop : Value :=
  Sample.program [Value.node "WhileStatement" [
    ("test", Value.node "BinaryExpression" [("operator", .text "<"),
      ("left", MeteringCall.identifier "a"), ("right", MeteringCall.identifier "push")]),
    ("body", Value.node "ExpressionStatement" [("expression",
      MeteringCall.callee ⟨"Host", "next"⟩)])]]

theorem passes_commute_of_hostLoop :
    hostLoop.Steady ∧ renameThen .sample (Instrumenter.sample.node 0) hostLoop =
      thenRename .sample (Instrumenter.sample.node 0) hostLoop := by
  have ht : hostLoop.Steady := ⟨rfl, rfl, rfl⟩
  refine ⟨ht, (@passes_commute .sample .sample hostLoop ht rfl ?_).1 ?_⟩
  · intro h
    cases h
  · intro out h hd
    cases h
    cases hd

end ContractMeter
