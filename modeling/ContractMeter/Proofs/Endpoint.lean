import ContractMeter.Proofs.Congruence
import ContractMeter.Proofs.Erasure
import ContractMeter.Proofs.Unlocated
import ContractMeter.Service

/-!
# ContractMeter.Proofs.Endpoint

The three endpoints beside each other, with dumping off.

* `Value.normal_unlocated` — normal form and positions do not interfere.
* `Service.body` — what an endpoint makes of a source that is not blank; `serve_outcome` says that
  nothing else decides its answer.
* `body_of_tooLarge`, `body_of_parse_error`, `body_avoids` — a failure comes from the first stage
  that fails, and only the first two reject a source for its text.
* `endpoints_agree` — on statuses, bills, failures and trees.
-/

namespace ContractMeter

open Instrumenter (block)

/-! ## Normal form without positions -/

namespace Value

mutual

/-- A tree without positions has the normal form of the tree, without positions. -/
theorem normal_unlocated (v : Value) : v.unlocated.normal = v.normal.unlocated := by
  cases v with
  | record fields =>
    have hc := container_unlocated (.record fields)
    rw [unlocated_record] at hc ⊢
    rw [normal, normal, hc]
    cases (record fields).container with
    | sequence =>
      dsimp only
      rw [get?_unlocatedRecord (by decide), normalSequence_unlocated, unlocated_record,
        unlocatedRecord_set (by decide) (by decide)]
    | body =>
      dsimp only
      rw [get_unlocatedRecord (by decide), normal_unlocated, unlocated_record,
        unlocatedRecord_set (by decide) (by decide)]
    | loop =>
      dsimp only
      rw [get_unlocatedRecord (by decide), truthy_unlocated, normalPart_unlocated,
        unlocated_record, unlocatedRecord_set (by decide) (by decide)]
      split
      · rfl
      · rw [unlocated_block, unlocated_list, List.map_nil]
    | statementBody =>
      dsimp only
      rw [get_unlocatedRecord (by decide), normalPart_unlocated, unlocated_record,
        unlocatedRecord_set (by decide) (by decide)]
    | value =>
      dsimp only
      rw [get_unlocatedRecord (by decide), normal_unlocated, unlocated_record,
        unlocatedRecord_set (by decide) (by decide)]
    | branch =>
      dsimp only
      rw [get_unlocatedRecord (by decide), get_unlocatedRecord (by decide),
        normalPart_unlocated, normalPart_unlocated, unlocated_record,
        unlocatedRecord_set (by decide) (by decide), unlocatedRecord_set (by decide) (by decide)]
    | attempt =>
      dsimp only
      rw [get_unlocatedRecord (by decide), get_unlocatedRecord (by decide),
        get_unlocatedRecord (by decide), normal_unlocated, normal_unlocated, normal_unlocated,
        unlocated_record, unlocatedRecord_set (by decide) (by decide),
        unlocatedRecord_set (by decide) (by decide), unlocatedRecord_set (by decide) (by decide)]
    | switch =>
      dsimp only
      rw [get?_unlocatedRecord (by decide), normalCases_unlocated, unlocated_record,
        unlocatedRecord_set (by decide) (by decide)]
    | leaf => rw [unlocated_record]
  | list items => simp [normal]
  | _ => simp [unlocated, normal]
termination_by (sizeOf v, 0)
decreasing_by
  all_goals
    apply Prod.Lex.left
    first
    | exact Fields.sizeOf_get ..
    | exact Fields.sizeOf_get?_option ..

theorem normalPart_unlocated (part : Value) :
    part.unlocated.normalPart = part.normalPart.unlocated := by
  by_cases hn : part = .null
  · simp [hn, normalPart]
  · have hn' : part.unlocated ≠ .null := mt unlocated_eq_null_iff.mp hn
    cases hk : part.hasKind "BlockStatement" with
    | true =>
      rw [normalPart_of_block hk, normalPart_of_block ((hasKind_unlocated part _).trans hk),
        normal_unlocated]
    | false =>
      rw [normalPart_of_bare hn hk, normalPart_of_bare hn' ((hasKind_unlocated part _).trans hk),
        normal_unlocated, unlocated_block, unlocated_list, List.map_singleton]
termination_by (sizeOf part, 1)

theorem normalSequence_unlocated (field : Option Value) :
    normalSequence (field.map unlocated) = (normalSequence field).unlocated := by
  cases field with
  | none => simp [normalSequence]
  | some v =>
    cases v with
    | list items =>
      rw [Option.map_some, unlocated_list, normalSequence, normalSequence, normalItems_unlocated,
        unlocated_list]
    | record fields => simp [normalSequence]
    | _ => simp [unlocated, normalSequence]
termination_by (sizeOf field, 0)
decreasing_by
  apply Prod.Lex.left
  simp only [Option.some.sizeOf_spec, list.sizeOf_spec]
  omega

theorem normalItems_unlocated (items : List Value) :
    normalItems (items.map unlocated) = (normalItems items).map unlocated := by
  cases items with
  | nil => simp [normalItems]
  | cons item rest =>
    rw [List.map_cons, normalItems, normalItems, List.map_cons, normal_unlocated,
      normalItems_unlocated]
termination_by (sizeOf items, 0)
decreasing_by
  all_goals
    apply Prod.Lex.left
    simp only [List.cons.sizeOf_spec]
    omega

theorem normalCases_unlocated (field : Option Value) :
    normalCases (field.map unlocated) = (normalCases field).unlocated := by
  cases field with
  | none => simp [normalCases]
  | some v =>
    cases v with
    | list cases =>
      rw [Option.map_some, unlocated_list, normalCases, normalCases, normalCaseItems_unlocated,
        unlocated_list]
    | record fields => simp [normalCases]
    | _ => simp [unlocated, normalCases]
termination_by (sizeOf field, 0)
decreasing_by
  apply Prod.Lex.left
  simp only [Option.some.sizeOf_spec, list.sizeOf_spec]
  omega

theorem normalCaseItems_unlocated : ∀ cases : List Value,
    normalCaseItems (cases.map unlocated) = (normalCaseItems cases).map unlocated
  | [] => by simp [normalCaseItems]
  | .record fields :: rest => by
    rw [List.map_cons, unlocated_record, normalCaseItems, normalCaseItems, List.map_cons,
      get?_unlocatedRecord (by decide), normalSequence_unlocated, normalCaseItems_unlocated,
      unlocated_record, unlocatedRecord_set (by decide) (by decide)]
  | .list items :: rest => by
    simp [normalCaseItems, normalCaseItems_unlocated rest]
  | .null :: rest | .bool _ :: rest | .int _ :: rest | .float _ :: rest | .text _ :: rest
  | .broken _ :: rest | .host _ :: rest => by
    simp [unlocated, normalCaseItems, normalCaseItems_unlocated rest]
termination_by cases => (sizeOf cases, 0)
decreasing_by
  · apply Prod.Lex.left
    have := Fields.sizeOf_get?_option fields "consequent"
    simp only [List.cons.sizeOf_spec]
    omega
  all_goals
    apply Prod.Lex.left
    simp only [List.cons.sizeOf_spec]
    omega

end

end Value

/-! ## What endpoints make of a source -/

/-- The endpoint refused the request with a status. -/
def Reply.Refuses (reply : Reply) (status : Nat) : Prop :=
  ∃ detail, reply.outcome = .ok (.refused status detail)

namespace Service

/-- The body with which an endpoint answers a source that is not blank, or why there is none. -/
def body (parse : Parser) (settings : Settings) (endpoint : Endpoint) (request : Request) :
    Except Failure Value :=
  match endpoint with
  | .compile =>
    (compile parse settings request.options request.source).outcome.map
      (compileBody request.options)
  | .sanitize =>
    (sanitizeSource parse settings request.source).outcome.map fun tree => .record [("ast", tree)]
  | .gamma => (estimateGamma parse settings request.options.strict request.source).outcome

/-- The answer with a body, or the refusal or fault that a failure amounts to. -/
def settle : Except Failure Value → Except Fault Answer
  | .ok body => .ok (.success body)
  | .error failure => (failureReply [] failure).outcome

variable {parse : Parser} {target : String → Dump.Directory} {settings : Settings}
  {endpoint : Endpoint} {source : String} {options : CompileOptions}

theorem failureReply_outcome (log : List LogEntry) (failure : Failure) :
    (failureReply log failure).outcome = settle (.error failure) := by
  cases failure <;> rfl

/-- With dumping off, nothing but the body decides the answer. -/
theorem serve_outcome (hd : settings.dumpDirectory = none) :
    (serve parse target settings endpoint ⟨source, options⟩).outcome =
      settle (body parse settings endpoint ⟨source, options⟩) := by
  cases endpoint with
  | compile =>
    have hoff : dumpTarget settings target = .off := by simp only [dumpTarget, hd]
    simp only [serve, compileReply, body, hoff, Dump.write]
    cases (compile parse settings options source).outcome with
    | ok c => rfl
    | error failure => exact failureReply_outcome ..
  | sanitize =>
    simp only [serve, sanitizeReply, body]
    cases (sanitizeSource parse settings source).outcome with
    | ok tree => rfl
    | error failure => exact failureReply_outcome ..
  | gamma =>
    simp only [serve, gammaReply, body]
    cases (estimateGamma parse settings options.strict source).outcome with
    | ok estimate => rfl
    | error failure => exact failureReply_outcome ..

theorem settle_eq_success_iff {result : Except Failure Value} {v : Value} :
    settle result = .ok (.success v) ↔ result = .ok v := by
  cases result with
  | ok w => simp [settle]
  | error failure =>
    cases failure with
    | faulted fault => simp [settle, failureReply]
    | rejected reason => cases reason <;> simp [settle, failureReply, rejectionAnswer, refusal]

theorem settle_eq_refused {result : Except Failure Value} {status : Nat} {detail : Value}
    (h : settle result = .ok (.refused status detail)) :
    ∃ reason, result = .error (.rejected reason) ∧
      rejectionAnswer reason = .refused status detail := by
  cases result with
  | ok body => cases h
  | error failure =>
    cases failure with
    | faulted fault => cases h
    | rejected reason => exact ⟨reason, rfl, Except.ok.inj h⟩

/-- No failure has the status of a blank source. -/
theorem settle_ne_blank {result : Except Failure Value} {detail : Value} :
    settle result ≠ .ok (.refused 400 detail) := by
  intro h
  obtain ⟨reason, -, h⟩ := settle_eq_refused h
  cases reason <;> cases h

/-- A failure has the status of a source too large if that is what it says. -/
theorem settle_tooLarge_iff {result : Except Failure Value} :
    (∃ detail, settle result = .ok (.refused 413 detail)) ↔
      ∃ length limit, result = .error (.rejected (.sourceTooLarge length limit)) := by
  constructor
  · rintro ⟨detail, h⟩
    obtain ⟨reason, rfl, h⟩ := settle_eq_refused h
    cases reason with
    | sourceTooLarge length limit => exact ⟨length, limit, rfl⟩
    | _ => cases h
  · rintro ⟨length, limit, rfl⟩
    exact ⟨_, rfl⟩

/-! ### Stages -/

theorem body_of_tooLarge {reason : Rejection} (h : settings.sourceTooLarge? source = some reason) :
    body parse settings endpoint ⟨source, options⟩ = .error (.rejected reason) := by
  cases endpoint <;> simp [body, compile, sanitizeSource, estimateGamma, h, Except.map]

theorem body_of_parse_error {failure : Failure} (h : settings.sourceTooLarge? source = none)
    (hp : ∀ locate, parse locate source = .error failure) :
    body parse settings endpoint ⟨source, options⟩ = .error failure := by
  cases endpoint <;> simp [body, compile, sanitizeSource, estimateGamma, h, hp, Except.map]

theorem renameThen_avoids {s : Sanitizer} {m : Instrumenter} (tree : Value) :
    (renameThen s (m.node 0) tree).Avoids Rejection.isOfSource := by
  refine Metered.Avoids.bind (fun reason h => ?_) fun _ _ _ => Instrumenter.nodeAt_avoids _ _ _
  rw [Sanitizer.sanitizeAt_rejects h]
  rfl

/-- Once a source is parsed it is not rejected for its text. -/
theorem body_avoids {located unlocated : Value} {reason : Rejection}
    (h : settings.sourceTooLarge? source = none) (hl : parse true source = .ok located)
    (hu : parse false source = .ok unlocated)
    (ho : body parse settings endpoint ⟨source, options⟩ = .error (.rejected reason)) :
    reason.isOfSource = false := by
  have hcompile {options : CompileOptions} {reason : Rejection}
      (ho : (compile parse settings options source).outcome = .error (.rejected reason)) :
      reason.isOfSource = false := by
    rw [compile_outcome h hl] at ho
    have hr := @renameThen_avoids settings.sanitizer
      (settings.instrumenter (options.strict || settings.strict)) located reason
    generalize renameThen settings.sanitizer _ located = run at ho hr
    obtain ⟨l, outcome⟩ := run
    cases outcome with
    | ok tree => cases ho
    | error failure =>
      cases ho
      exact hr rfl
  cases endpoint with
  | compile =>
    simp only [body] at ho
    cases hc : (compile parse settings options source).outcome with
    | ok c =>
      rw [hc] at ho
      cases ho
    | error failure =>
      rw [hc] at ho
      cases ho
      exact hcompile hc
  | sanitize =>
    simp only [body, sanitizeSource, h, hu] at ho
    cases hs : settings.sanitizer.sanitize 0 unlocated with
    | ok tree =>
      rw [hs] at ho
      cases ho
    | error failure =>
      rw [hs] at ho
      cases ho
      rw [Sanitizer.sanitizeAt_rejects hs]
      rfl
  | gamma =>
    simp only [body, estimateGamma] at ho
    split at ho
    · rename_i failure hc
      cases ho
      exact hcompile hc
    · cases ho

/-! ### Bills -/

/-- What a compilation and an estimate of one source tell alike. -/
structure SameBill (options : CompileOptions) (body estimate : Value) : Prop where
  charges : body.field "charges" = estimate.field "breakdown"
  total : body.field "gamma_total" = estimate.field "total_gamma"
  warnings : body.field "warnings" = estimate.field "warnings"
  report : options.includeReport = true → body.field "report" = estimate.field "report"

/-- Two answers with the same bill, or one and the same answer or fault that bills nothing. -/
inductive Concur (options : CompileOptions) : Except Fault Answer → Except Fault Answer → Prop where
  | success {body estimate : Value} (h : SameBill options body estimate) :
      Concur options (.ok (.success body)) (.ok (.success estimate))
  | failure {outcome : Except Fault Answer} (h : ∀ body, outcome ≠ .ok (.success body)) :
      Concur options outcome outcome

/-- A compilation does not depend on whether there will be a report. -/
theorem compile_outcome_of_strict {options options' : CompileOptions}
    (hs : options.strict = options'.strict) :
    (compile parse settings options source).outcome =
      (compile parse settings options' source).outcome := by
  cases hsize : settings.sourceTooLarge? source with
  | some reason => simp only [compile, hsize]
  | none =>
    cases hp : parse true source with
    | error failure => simp only [compile, hsize, hp]
    | ok tree => rw [compile_outcome hsize hp, compile_outcome hsize hp, hs]

theorem sameBill (options : CompileOptions) (c : Compilation) :
    SameBill options (compileBody options c) c.estimate where
  charges := rfl
  total := rfl
  warnings := rfl
  report := by
    intro h
    simp only [compileBody, h, if_true]
    rfl

theorem settle_concur :
    Concur options (settle (body parse settings .compile ⟨source, options⟩))
      (settle (body parse settings .gamma ⟨source, { strict := options.strict }⟩)) := by
  have hc : (compile parse settings options source).outcome =
      (compile parse settings { strict := options.strict } source).outcome :=
    compile_outcome_of_strict rfl
  simp only [body, estimateGamma, hc]
  cases (compile parse settings { strict := options.strict } source).outcome with
  | ok c => exact .success (sameBill options c)
  | error failure =>
    refine .failure fun body h => ?_
    have h := settle_eq_success_iff.mp h
    cases h

/-! ### Trees -/

/-- A tree with its charges and positions taken out again is the renamed tree without positions, in
normal form. -/
theorem sanitize_of_compile {located : Value} {options' : CompileOptions} {c : Compilation}
    (hl : parse true source = .ok located)
    (hu : parse false source = .ok located.unlocated) (hlists : located.listShaped = true)
    (hc : (compile parse settings options source).outcome = .ok c) :
    ∃ tree, body parse settings .sanitize ⟨source, options'⟩ = .ok (.record [("ast", tree)]) ∧
      c.tree.erase.unlocated = tree.normal := by
  obtain ⟨hsize, ha, hy⟩ := (compile_ok_iff hl).mp hc
  have hs : settings.sanitizer.sanitize 0 located.unlocated =
      .ok (settings.sanitizer.renamed located.unlocated) :=
    Sanitizer.sanitizeAt_eq_ok_iff.mpr ⟨Sanitizer.accepts_unlocated ha, rfl⟩
  refine ⟨settings.sanitizer.renamed located.unlocated, ?_, ?_⟩
  · simp only [body, sanitizeSource, hsize, hu, hs, Except.map]
  · rw [(node_sound hy).erase_eq (Sanitizer.listShaped_renamed hlists), ← Value.normal_unlocated,
      Sanitizer.renamed_unlocated ha]

end Service

/-! ## Agreement -/

/-- What a parser gives for a source: the same rejection with and without positions, or a program
whose statement lists are lists, once with its positions and once without. -/
inductive Parses (parse : Parser) (source : String) : Prop where
  | rejection (reason : Rejection) (h : ∀ locate, parse locate source = .error (.rejected reason))
  | program (tree : Value) (located : parse true source = .ok tree)
      (unlocated : parse false source = .ok tree.unlocated) (lists : tree.listShaped = true)

namespace Service

variable {parse : Parser} {target : String → Dump.Directory} {settings : Settings}
  {endpoint : Endpoint} {source : String} {options : CompileOptions}

theorem reply_of_blank (hb : Text.isAllBlank source = true) :
    (reply parse target (.ok settings) endpoint ⟨source, options⟩).outcome = .ok blankAnswer := by
  simp only [reply, hb, if_true]

theorem reply_of_text (hd : settings.dumpDirectory = none) (hb : Text.isAllBlank source = false) :
    (reply parse target (.ok settings) endpoint ⟨source, options⟩).outcome =
      settle (body parse settings endpoint ⟨source, options⟩) := by
  simp only [reply, hb, Bool.false_eq_true, if_false]
  exact serve_outcome hd

theorem reply_of_tooLong (hd : settings.dumpDirectory = none) (hb : Text.isAllBlank source = false)
    (hlong : settings.maxSourceLength < source.length) :
    (reply parse target (.ok settings) endpoint ⟨source, options⟩).outcome =
      .ok (rejectionAnswer (.sourceTooLarge source.length settings.maxSourceLength)) := by
  rw [reply_of_text hd hb, body_of_tooLarge (if_pos hlong)]
  rfl

theorem refuses_blank_iff (hd : settings.dumpDirectory = none) :
    (reply parse target (.ok settings) endpoint ⟨source, options⟩).Refuses 400 ↔
      Text.isAllBlank source = true := by
  cases hb : Text.isAllBlank source with
  | true => exact ⟨fun _ => rfl, fun _ => ⟨_, reply_of_blank hb⟩⟩
  | false =>
    refine ⟨fun ⟨detail, h⟩ => ?_, nofun⟩
    rw [reply_of_text hd hb] at h
    exact absurd h settle_ne_blank

/-- What an endpoint makes of a source is that it is too large if it is too long or the parser
itself says so. -/
theorem body_tooLarge_iff (hp : Parses parse source) :
    (∃ length limit, body parse settings endpoint ⟨source, options⟩ =
        .error (.rejected (.sourceTooLarge length limit))) ↔
      settings.maxSourceLength < source.length ∨
        ∃ length limit, parse true source = .error (.rejected (.sourceTooLarge length limit)) := by
  by_cases hlong : settings.maxSourceLength < source.length
  · rw [body_of_tooLarge (if_pos hlong)]
    exact ⟨fun _ => .inl hlong, fun _ => ⟨_, _, rfl⟩⟩
  · have hsize : settings.sourceTooLarge? source = none := if_neg hlong
    cases hp with
    | rejection reason h =>
      rw [body_of_parse_error hsize h, h true]
      exact ⟨.inr, fun h => h.resolve_left hlong⟩
    | program tree hl hu lists =>
      constructor
      · rintro ⟨length, limit, h⟩
        have ho := body_avoids hsize hl hu h
        cases ho
      · rintro (h | ⟨length, limit, h⟩)
        · exact absurd h hlong
        · rw [hl] at h
          cases h

theorem refuses_tooLarge_iff (hp : Parses parse source) (hd : settings.dumpDirectory = none) :
    (reply parse target (.ok settings) endpoint ⟨source, options⟩).Refuses 413 ↔
      Text.isAllBlank source = false ∧ (settings.maxSourceLength < source.length ∨
        ∃ length limit, parse true source = .error (.rejected (.sourceTooLarge length limit))) := by
  cases hb : Text.isAllBlank source with
  | true =>
    constructor
    · rintro ⟨detail, h⟩
      rw [reply_of_blank hb] at h
      cases h
    · rintro ⟨h, -⟩
      cases h
  | false =>
    rw [Reply.Refuses, reply_of_text hd hb, settle_tooLarge_iff, body_tooLarge_iff hp]
    exact (and_iff_right rfl).symm

theorem reply_concur (hd : settings.dumpDirectory = none) :
    Concur options (reply parse target (.ok settings) .compile ⟨source, options⟩).outcome
      (reply parse target (.ok settings) .gamma
        ⟨source, { strict := options.strict }⟩).outcome := by
  cases hb : Text.isAllBlank source with
  | true =>
    rw [reply_of_blank hb, reply_of_blank hb]
    exact .failure nofun
  | false =>
    rw [reply_of_text hd hb, reply_of_text hd hb]
    exact settle_concur

theorem sanitized_of_compiled {options' : CompileOptions} {v : Value} (hp : Parses parse source)
    (hd : settings.dumpDirectory = none)
    (h : (reply parse target (.ok settings) .compile ⟨source, options⟩).outcome =
      .ok (.success v)) :
    ∃ tree, (reply parse target (.ok settings) .sanitize ⟨source, options'⟩).outcome =
        .ok (.success (.record [("ast", tree)])) ∧
      (v.field "ast").erase.unlocated = tree.normal := by
  cases hb : Text.isAllBlank source with
  | true =>
    rw [reply_of_blank hb] at h
    cases h
  | false =>
    rw [reply_of_text hd hb, settle_eq_success_iff, body] at h
    cases hc : (compile parse settings options source).outcome with
    | error failure =>
      rw [hc] at h
      cases h
    | ok c =>
      rw [hc] at h
      cases h
      cases hp with
      | rejection reason hr =>
        cases hsize : settings.sourceTooLarge? source <;>
          simp only [compile, hsize, hr] at hc <;> cases hc
      | program tree hl hu lists =>
        obtain ⟨sanitized, hs, ht⟩ := @sanitize_of_compile _ _ _ _ _ options' _ hl hu lists hc
        exact ⟨sanitized, by rw [reply_of_text hd hb, hs]; rfl, ht⟩

end Service

/-- **The three endpoints agree.** With dumping off they refuse the same sources with status 400,
the blank ones, and the same others with 413, those that are too long, which no parser is asked
about. Of one source and with the same strictness, a compilation and an estimate have the same
bill, or they end with the same refusal or fault. What compiles is sanitized, and the tree of the
compilation, its charges and positions taken out again, is that tree in normal form. -/
theorem endpoints_agree {parse : Parser} {target : String → Dump.Directory} {settings : Settings}
    {source : String} (hp : Parses parse source) (hd : settings.dumpDirectory = none) :
    (∀ endpoint options,
      (Service.reply parse target (.ok settings) endpoint ⟨source, options⟩).Refuses 400 ↔
        Text.isAllBlank source = true) ∧
    (∀ endpoint options,
      (Service.reply parse target (.ok settings) endpoint ⟨source, options⟩).Refuses 413 ↔
        Text.isAllBlank source = false ∧ (settings.maxSourceLength < source.length ∨
          ∃ length limit,
            parse true source = .error (.rejected (.sourceTooLarge length limit)))) ∧
    (Text.isAllBlank source = false → settings.maxSourceLength < source.length →
      ∀ anyParse endpoint options,
        (Service.reply anyParse target (.ok settings) endpoint ⟨source, options⟩).outcome =
          .ok (Service.rejectionAnswer
            (.sourceTooLarge source.length settings.maxSourceLength))) ∧
    (∀ options : CompileOptions, Service.Concur options
      (Service.reply parse target (.ok settings) .compile ⟨source, options⟩).outcome
      (Service.reply parse target (.ok settings) .gamma
        ⟨source, { strict := options.strict }⟩).outcome) ∧
    (∀ options options' body,
      (Service.reply parse target (.ok settings) .compile ⟨source, options⟩).outcome =
          .ok (.success body) →
        ∃ tree, (Service.reply parse target (.ok settings) .sanitize ⟨source, options'⟩).outcome =
            .ok (.success (.record [("ast", tree)])) ∧
          (body.field "ast").erase.unlocated = tree.normal) :=
  ⟨fun _ _ => Service.refuses_blank_iff hd, fun _ _ => Service.refuses_tooLarge_iff hp hd,
    fun hb hlong _ _ _ => Service.reply_of_tooLong hd hb hlong,
    fun _ => Service.reply_concur hd, fun _ _ _ h => Service.sanitized_of_compiled hp hd h⟩

/-- The program `while (a < b) a++;` with positions on its statements. -/
def Sample.locatedLoop : Value :=
  Value.node "Program" [("body", .list [
    Value.node "WhileStatement" [("test", less), ("body", increment), ("loc", position)]]),
    ("loc", position)]

/-- A parser that knows one program. -/
def Sample.parseLoop : Parser := fun locate _ =>
  .ok (if locate then locatedLoop else locatedLoop.unlocated)

theorem endpoints_agree_of_locatedLoop :
    ∃ body tree,
      (Service.reply Sample.parseLoop (fun _ => .off) (.ok {}) .compile
        ⟨"while (a < b) a++;", {}⟩).outcome = .ok (.success body) ∧
      (Service.reply Sample.parseLoop (fun _ => .off) (.ok {}) .sanitize
        ⟨"while (a < b) a++;", {}⟩).outcome = .ok (.success (.record [("ast", tree)])) ∧
      (body.field "ast").erase.unlocated = tree.normal := by
  have hp : Parses Sample.parseLoop "while (a < b) a++;" :=
    .program Sample.locatedLoop rfl rfl rfl
  have h := @endpoints_agree Sample.parseLoop (fun _ => .off) {} _ hp rfl
  have hc : (Service.reply Sample.parseLoop (fun _ => .off) (.ok {}) .compile
    ⟨"while (a < b) a++;", {}⟩).outcome = .ok (.success _) := rfl
  obtain ⟨tree, hs, ht⟩ := h.2.2.2.2 _ {} _ hc
  exact ⟨_, tree, hc, hs, ht⟩

end ContractMeter
