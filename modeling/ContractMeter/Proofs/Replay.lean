import ContractMeter.Proofs.Prepayment

/-!
# ContractMeter.Proofs.Replay

Charges keep no run from happening: whatever a contract does, the instrumented tree does too, with
charges in between.

* `Kept` — a stack of the contract's own run, and a stack of the instrumented run it goes with.
* `replay_step`, `replay_run` — the instrumented run answers each step, and each run.
* `run_replayed` — a run of a tree is one of the instrumented tree without the charges.
-/

namespace ContractMeter
namespace Execution

variable {m : Instrumenter}

/-! ## Stacks -/

/-- Stacks of tasks still to be done. What the instrumented run has ahead of the contract's own one
is the charge in front of a statement, or the block around a part. -/
inductive Kept (m : Instrumenter) : List Task → List Task → Prop where
  | done : Kept m [] []
  | entered {s s' : Value} {l : Ledger} {K K' : List Task} (h : Instrumented m 0 s s' l)
      (hK : Kept m K K') : Kept m (.run s :: K) (.run s' :: K')
  | charged {s s' charge : Value} {l : Ledger} {K K' : List Task} (h : Instrumented m 0 s s' l)
      (hK : Kept m K K') : Kept m (.run s :: K) (.charge charge :: .run s' :: K')
  | part {s s' : Value} {l : Ledger} {K K' : List Task} (hn : s ≠ .null)
      (h : InstrumentedPart m 0 s s' l) (hK : Kept m K K') :
      Kept m (.run s :: K) (.run s' :: K')
  /-- The body of a loop, which the contract's own run has yet to enter. -/
  | pass {s s' charge : Value} {items : List Value} {l : Ledger} {K K' : List Task}
      (h : InstrumentedPart m 0 s s' l) (hb : s'.field? "body" = some (.list items))
      (hK : Kept m K K') :
      Kept m (.run s :: K) (.charge charge :: (Reading.meteredTasks items ++ K'))
  | test {loop loop' : Fields} {l : Ledger} {K K' : List Task}
      (h : Instrumented m 0 (.record loop) (.record loop') l)
      (hc : (Value.record loop).container = .loop) (hK : Kept m K K') :
      Kept m (.test loop :: K) (.test loop' :: K')
  | again {loop loop' : Fields} {l : Ledger} {K K' : List Task}
      (h : Instrumented m 0 (.record loop) (.record loop') l)
      (hc : (Value.record loop).container = .loop) (hK : Kept m K K') :
      Kept m (.again loop :: K) (.again loop' :: K')

theorem behindLoop_meteredTasks (items : List Value) (K : List Task) :
    Task.behindLoop (Reading.meteredTasks items ++ K) = Task.behindLoop K := by
  fun_induction Reading.meteredTasks items with
  | case1 => rfl
  | case2 => rfl
  | case3 item statement rest hu ih => exact ih
  | case4 item statement rest hu ih => exact ih

theorem endOfPass_meteredTasks (items : List Value) (K : List Task) :
    Task.endOfPass (Reading.meteredTasks items ++ K) = Task.endOfPass K := by
  fun_induction Reading.meteredTasks items with
  | case1 => rfl
  | case2 => rfl
  | case3 item statement rest hu ih => exact ih
  | case4 item statement rest hu ih => exact ih

namespace Kept

variable {K K' : List Task}

theorem behindLoop (hK : Kept m K K') : Kept m (Task.behindLoop K) (Task.behindLoop K') := by
  induction hK with
  | done => exact .done
  | entered _ _ ih => exact ih
  | charged _ _ ih => exact ih
  | part _ _ _ ih => exact ih
  | pass _ _ _ ih =>
    simp only [Task.behindLoop, behindLoop_meteredTasks]
    exact ih
  | test _ _ _ ih => exact ih
  | again _ _ hK _ => exact hK

theorem endOfPass (hK : Kept m K K') : Kept m (Task.endOfPass K) (Task.endOfPass K') := by
  induction hK with
  | done => exact .done
  | entered _ _ ih => exact ih
  | charged _ _ ih => exact ih
  | part _ _ _ ih => exact ih
  | pass _ _ _ ih =>
    simp only [Task.endOfPass, endOfPass_meteredTasks]
    exact ih
  | test _ _ _ ih => exact ih
  | again h hc hK _ => exact .again h hc hK

theorem append (hK : Kept m K K') {items items' : List Value} {l : Ledger}
    (h : InstrumentedList m 0 items items' l) :
    Kept m (Reading.plain.tasks items ++ K) (Reading.metered.tasks items' ++ K') := by
  induction items generalizing items' l with
  | nil => cases h; exact hK
  | cons s ss ih =>
    cases h with
    | uncharged h hu hs =>
      have hk := ih hs
      simp only [Reading.tasks, meteredTasks_uncharged hu] at hk ⊢
      exact .entered h hk
    | charged h _ _ _ hs =>
      have hk := ih hs
      simp only [Reading.tasks, meteredTasks_charge] at hk ⊢
      exact .charged h hk

theorem task {part part' : Value} {l : Ledger} (h : InstrumentedPart m 0 part part' l)
    (hK : Kept m K K') : Kept m (Task.part part ++ K) (Task.part part' ++ K') := by
  by_cases hn : part = .null
  · subst hn
    cases h with
    | null => exact hK
    | bare hn _ _ => contradiction
  · rw [Task.part_of_ne_null hn, Task.part_of_ne_null (InstrumentedPart.ne_null hn h)]
    exact .part hn h hK

end Kept

/-! ## Steps -/

/-- The instrumented run answers a step of the contract's own one: it does the same, with charges
in between. -/
def Replayed (m : Instrumenter) (K' : List Task) (events : List Event) (next : List Task) : Prop :=
  ∃ events' next', Run .metered K' events' next' ∧ Event.withoutCharges events' = events ∧
    Kept m next next'

namespace Replayed

variable {K' next next' : List Task} {events : List Event}

theorem single (hs : Step .metered K' events next') (he : Event.withoutCharges events = events)
    (hK : Kept m next next') : Replayed m K' events next :=
  ⟨events, next', .single hs, he, hK⟩

theorem behind_charge {charge : Value} (h : Replayed m K' events next) :
    Replayed m (.charge charge :: K') events next := by
  obtain ⟨events', next', hr, he, hK⟩ := h
  exact ⟨_, next', .step .charge hr, he, hK⟩

theorem behind_silent {K₁ : List Task} (hs : Step .metered K₁ [] K')
    (h : Replayed m K' events next) : Replayed m K₁ events next := by
  obtain ⟨events', next', hr, he, hK⟩ := h
  exact ⟨_, next', .step hs hr, he, hK⟩

end Replayed

theorem Instrumented.kept {fields : Fields} {s' : Value} {l : Ledger} {name : String}
    (h : Instrumented m 0 (.record fields) s' l)
    (hk : (Value.record fields).hasKind name = true) :
    ∃ fields', s' = .record fields' ∧ (Value.record fields').hasKind name = true ∧
      ∀ key, key ∉ statementFields → Fields.get fields' key = Fields.get fields key := by
  obtain ⟨fields', rfl, _⟩ := h.record
  exact ⟨fields', rfl, (h.hasKind_eq name).trans hk, fun key hn => h.get_eq hn⟩

theorem Kept.loop {loop loop' : Fields} {l : Ledger} {K K' : List Task}
    (h : Instrumented m 0 (.record loop) (.record loop') l)
    (hc : (Value.record loop).container = .loop) (hK : Kept m K K') :
    Kept m (Reading.plain.pass loop ++ K) (Reading.metered.pass loop' ++ K') := by
  obtain ⟨_, e, _, _, gamma, body, _, _, _, _, _, _, hb, rfl, _⟩ := h.fields hc
  cases e
  obtain ⟨_, _, items', _, rfl, _, hf, _⟩ :=
    InstrumentedPart.opened (Instrumenter.loopBody_ne_null loop) hb
  rw [pass_prepend hf]
  exact .pass hb hf hK

section Step

variable {s s' : Value} {l : Ledger} {K K' next : List Task} {events : List Event}

theorem node_replayed (h : Instrumented m 0 s s' l) (hK : Kept m K K')
    (hs : Step .plain (.run s :: K) events next) : Replayed m (.run s' :: K') events next := by
  cases hs with
  | sequence hn hk hb =>
    have hc : ∀ name ∈ ["Program", "BlockStatement"], Container.ofKind name = .sequence := by
      decide
    obtain ⟨_, rfl, hk', _⟩ := Instrumented.kept h hk
    obtain ⟨_, e, items, items', hb', hl, rfl⟩ :=
      h.fields ((Value.container_of_hasKind hk).trans (hc _ hn))
    cases e
    rw [hb] at hb'
    cases hb'
    exact .single (.sequence hn hk' (by simp [Value.elements])) rfl (hK.append hl)
  | compute hn hk =>
    have hc : ∀ name ∈ ["ExpressionStatement", "VariableDeclaration"],
        Container.ofKind name = .leaf := by decide
    obtain rfl := h.eq_of_leaf ((Value.container_of_hasKind hk).trans (hc _ hn))
    exact .single (.compute hn hk) rfl hK
  | idle hn hk =>
    obtain ⟨_, rfl, hk', _⟩ := Instrumented.kept h hk
    exact .single (.idle hn hk') rfl hK
  | returns hk =>
    obtain rfl := h.eq_of_leaf (Value.container_of_hasKind hk)
    exact .single (.returns hk) (by simp [Event.withoutCharges_append, Event.withoutCharges]) .done
  | breaks hk hl =>
    obtain rfl := h.eq_of_leaf (Value.container_of_hasKind hk)
    exact .single (.breaks hk hl) rfl hK.behindLoop
  | continues hk hl =>
    obtain rfl := h.eq_of_leaf (Value.container_of_hasKind hk)
    exact .single (.continues hk hl) rfl hK.endOfPass
  | @branch fields side _ hk hside =>
    obtain ⟨_, rfl, hk', hf⟩ := Instrumented.kept h hk
    rw [← hf "test" (by decide)]
    refine .single (.branch hk' hside) (Event.withoutCharges_evaluate _) ?_
    obtain ⟨_, e, consequent, alternate, l₁, l₂, h₁, h₂, rfl, _⟩ :=
      h.fields (Value.container_of_hasKind hk)
    cases e
    simp only [List.mem_cons, List.not_mem_nil, or_false] at hside
    rcases hside with rfl | rfl
    · simpa [Fields.get_set] using hK.task h₁
    · simpa [Fields.get_set] using hK.task h₂
  | whileLoop hk =>
    obtain ⟨_, rfl, hk', _⟩ := Instrumented.kept h hk
    exact .single (.whileLoop hk') rfl (.test h (Value.container_of_hasKind hk) hK)
  | forLoop hk =>
    obtain ⟨_, rfl, hk', hf⟩ := Instrumented.kept h hk
    rw [← hf "init" (by decide)]
    exact .single (.forLoop hk') (Event.withoutCharges_evaluate _)
      (.test h (Value.container_of_hasKind hk) hK)
  | doLoop hk =>
    obtain ⟨_, rfl, hk', _⟩ := Instrumented.kept h hk
    have hc := Value.container_of_hasKind hk
    exact .single (.doLoop hk') rfl (.loop h hc (.again h hc hK))

/-- The step that begins a part whose block the instrumented run has entered. -/
theorem part_replayed {items' : List Value} (h : InstrumentedPart m 0 s s' l)
    (hb : s'.field? "body" = some (.list items')) (hK : Kept m K K')
    (hs : Step .plain (.run s :: K) events next) :
    Replayed m (Reading.meteredTasks items' ++ K') events next := by
  cases h with
  | null => cases hb
  | block hk he hl =>
    -- the contract's own run enters its block, where the instrumented one already is
    rw [Value.field?_record, Fields.get?_set_self] at hb
    cases hb
    cases hs with
    | sequence _ _ he' =>
      rw [he] at he'
      cases he'
      exact ⟨[], _, .refl, rfl, hK.append hl⟩
    | compute hm hk' | idle hm hk' =>
      rw [← Value.eq_of_hasKind hk hk'] at hm
      exact absurd hm (by decide)
    | returns hk' | breaks hk' _ | continues hk' _ | branch hk' _ | whileLoop hk' | forLoop hk'
    | doLoop hk' => exact absurd (Value.eq_of_hasKind hk hk') (by decide)
  | bare _ _ hl =>
    cases hb
    cases hl with
    | uncharged h _ hl =>
      cases hl
      exact node_replayed h hK hs
    | charged h _ _ _ hl =>
      cases hl
      exact (node_replayed h hK hs).behind_charge

theorem replay_step (hK : Kept m K K') (hs : Step .plain K events next) :
    Replayed m K' events next := by
  cases hK with
  | done => cases hs
  | entered h hK => exact node_replayed h hK hs
  | charged h hK => exact (node_replayed h hK hs).behind_charge
  | part hn h hK =>
    -- a bare part has no block of its own to enter, so entering this one answers nothing yet
    obtain ⟨_, _, _, _, rfl, hk, hf, _⟩ := InstrumentedPart.opened hn h
    exact .behind_silent (.sequence (by decide : "BlockStatement" ∈ _) hk
      (by simp [hf, Value.elements])) (part_replayed h hf hK hs)
  | pass h hb hK => exact (part_replayed h hb hK hs).behind_charge
  | test h hc hK =>
    cases hs with
    | pass =>
      rw [← h.get_eq (by decide)]
      exact .single .pass (Event.withoutCharges_evaluate _) (.loop h hc (.again h hc hK))
    | done hn =>
      rw [← h.get_eq (by decide)] at hn ⊢
      exact .single (.done hn) (Event.withoutCharges_evaluate _) hK
  | again h hc hK =>
    cases hs with
    | again =>
      rw [← h.get_eq (by decide)]
      exact .single .again (Event.withoutCharges_evaluate _) (.test h hc hK)

/-! ## Runs -/

theorem replay_run (hr : Run .plain K events next) (hK : Kept m K K') :
    Replayed m K' events next := by
  induction hr generalizing K' with
  | refl => exact ⟨[], K', .refl, rfl, hK⟩
  | step hs _ ih =>
    obtain ⟨events₁, next₁, hr₁, rfl, hK₁⟩ := replay_step hK hs
    obtain ⟨events₂, next₂, hr₂, rfl, hK₂⟩ := ih hK₁
    exact ⟨events₁ ++ events₂, next₂, hr₁.trans hr₂, Event.withoutCharges_append, hK₂⟩

end Step

/-- A run of a tree is a run of the instrumented tree without its charges, and ends with it. -/
theorem run_replayed {tree out : Value} {events : List Event} {rest : List Task}
    (h : (m.node 0 tree).outcome = .ok out) (hr : Run .plain [.run tree] events rest) :
    ∃ events' rest', Run .metered [.run out] events' rest' ∧
      Event.withoutCharges events' = events ∧ (rest = [] → rest' = []) := by
  have hi := node_sound (Metered.outcome_ok_iff.mp h)
  obtain ⟨events', rest', hr', he, hK⟩ := replay_run hr (.entered hi .done)
  refine ⟨events', rest', hr', he, fun e => ?_⟩
  subst e
  cases hK with
  | done => rfl

end Execution
end ContractMeter
