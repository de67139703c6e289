import ContractMeter.Proofs.Bookkeeping
import ContractMeter.Proofs.DumpText
import ContractMeter.Proofs.Endpoint
import ContractMeter.Proofs.HugeInteger
import ContractMeter.Script.Lexer
import Mathlib.Algebra.Order.BigOperators.Group.List
import Mathlib.Algebra.Order.Group.Int

/-!
# ContractMeter.Proofs.DumpFault

When a dump takes the answer with it.

* `Compilation.HasHuge` — a compilation with an integer that is too long to be written.
* `Dump.write_of_huge`, `Dump.write_of_not_huge` — such a compilation faults in every directory, any
  other is dumped as far as the directory allows.
* `Compilation.hasHuge_iff_of_tree` — the integer is one of the parsed tree, or the total.
* `Service.reply_of_dumpsHuge`, `Service.reply_of_not_dumpsHuge` — the answer is that fault, or the
  one given with dumping off.
* `Script.lexNumber_hexadecimal` — a numeral of any length is read.
* `dumping_changes_answer_iff` — both for every dump and every request.
-/

namespace ContractMeter

/-! ## Huge integers in compilations -/

namespace Compilation

/-- The integers of a compilation that a dump holds. -/
def integers (c : Compilation) : List Int := c.totalGamma :: c.tree.integers

def HasHuge (c : Compilation) : Prop := ∃ n ∈ c.integers, IsHuge n

end Compilation

theorem le_totalGamma {charges : List Charge} (h : ∀ c ∈ charges, 0 ≤ c.gamma) :
    ∀ c ∈ charges, c.gamma ≤ totalGamma charges := by
  intro c hc
  have hgammas : ∀ gamma ∈ charges.map Charge.gamma, 0 ≤ gamma := by simpa using h
  exact List.single_le_sum hgammas c.gamma (List.mem_map_of_mem hc)

theorem Accounted.nonneg {m : Instrumenter} {ds : List Due} {ps : List Placement}
    {cs : List Charge} (h : Accounted m ds ps cs) : ∀ c ∈ cs, 0 ≤ c.gamma := by
  induction h with
  | nil => exact fun _ hm => nomatch hm
  | cons h _ ih => exact List.forall_mem_cons.mpr ⟨h.nonneg, ih⟩

/-- Metering makes no integer too long but by an amount, and so by the total. -/
theorem Instrumented.hasHuge_iff {m : Instrumenter} {start : Int} {v v' : Value} {l : Ledger}
    (h : Instrumented m start v v' l) (hl : v.listShaped = true) :
    (IsHuge (totalGamma l.charges) ∨ ∃ n ∈ v'.integers, IsHuge n) ↔
      (IsHuge (totalGamma l.charges) ∨ ∃ n ∈ v.integers, IsHuge n) := by
  have hmem {n : Int} (hn : IsHuge n) : n ∈ v'.integers ↔ n ∈ v.integers ∨ n ∈ l.amounts :=
    h.mem_integers hn.ne_zero hl
  have hnonneg := (h.accounted hl).nonneg
  constructor
  · rintro (ht | ⟨n, hv, hn⟩)
    · exact .inl ht
    · rcases (hmem hn).mp hv with hv | ha
      · exact .inr ⟨n, hv, hn⟩
      · -- no charge is negative, so a huge one makes the total huge
        obtain ⟨c, hc, rfl⟩ := List.mem_map.mp ha
        exact .inl (hn.mono (hnonneg c hc) (le_totalGamma hnonneg c hc))
  · rintro (ht | ⟨n, hv, hn⟩)
    · exact .inl ht
    · exact .inr ⟨n, (hmem hn).mpr (.inl hv), hn⟩

/-- A compilation has a huge integer if the parsed tree has one, or if its total is one. -/
theorem Compilation.hasHuge_iff_of_tree {parse : Parser} {settings : Settings}
    {options : CompileOptions} {source : String} {tree : Value} {c : Compilation}
    (hp : parse true source = .ok tree) (hl : tree.listShaped = true)
    (hn : tree.namesAreStrings = true)
    (hc : (compile parse settings options source).outcome = .ok c) :
    c.HasHuge ↔ IsHuge c.totalGamma ∨ ∃ n ∈ tree.integers, IsHuge n := by
  obtain ⟨-, -, hy⟩ := (compile_ok_iff hp).mp hc
  have hi := (node_sound hy).hasHuge_iff (Sanitizer.listShaped_renamed hl)
  simp only [Sanitizer.mem_integers_renamed tree hn] at hi
  have htotal : c.totalGamma = ContractMeter.totalGamma c.charges := rfl
  rw [htotal, ← hi, HasHuge, integers, List.exists_mem_cons_iff, htotal]

/-! ## Dumps -/

namespace Dump

variable {directory : Directory} {limit : Int} {source : String} {options : CompileOptions}
  {c : Compilation} {fault : Fault}

theorem itemIntegers_texts (texts : List String) : Value.itemIntegers (texts.map .text) = [] := by
  induction texts with
  | nil => rfl
  | cons text rest ih =>
    rw [List.map_cons, Value.itemIntegers, ih]
    rfl

theorem integers_value : (value limit source options c).integers =
    c.totalGamma :: (treeValue limit c.tree).integers := by
  have hwarnings : c.warningsValue.integers = [] := itemIntegers_texts c.warnings
  simp [value, optionsValue, Value.integers, Value.fieldIntegers, hwarnings]

/-- A tree that is cut has been written before, so its integers count as well. -/
theorem writable_iff : c.tree.unwritable? true = none ∧
    (value limit source options c).unwritable? true = none ↔ ¬ c.HasHuge := by
  have hcut : (∀ n ∈ c.tree.integers, ¬ IsHuge n) →
      ∀ n ∈ (treeValue limit c.tree).integers, ¬ IsHuge n := by
    intro h
    rw [treeValue_eq]
    split
    · exact fun _ hm => nomatch hm
    · exact h
  rw [Value.unwritable?_displayed_iff, Value.unwritable?_displayed_iff, integers_value,
    List.forall_mem_cons, Compilation.HasHuge, Compilation.integers, List.exists_mem_cons_iff,
    not_or, not_exists]
  constructor
  · rintro ⟨htree, htotal, -⟩
    exact ⟨htotal, fun n ⟨hm, hn⟩ => htree n hm hn⟩
  · rintro ⟨htotal, htree⟩
    have htree n hm hn := htree n ⟨hm, hn⟩
    exact ⟨htree, htotal, hcut htree⟩

theorem content_of_huge (h : c.HasHuge) : content limit source options c = .error .hugeInteger := by
  have hw := mt (@writable_iff limit source options c).mp (not_not.mpr h)
  unfold content
  dsimp only
  split
  · rename_i htree hvalue
    exact absurd ⟨htree, hvalue⟩ hw
  · rfl

theorem content_of_not_huge (h : ¬ c.HasHuge) : content limit source options c =
    .ok ((value limit source options c).json .pretty) := by
  obtain ⟨htree, hvalue⟩ := (@writable_iff limit source options c).mpr h
  simp only [content, htree, hvalue]

/-- The text of a dump is made before its directory is looked at. -/
theorem write_of_huge (hd : directory ≠ .off) (h : c.HasHuge) :
    write directory limit source options c = .error .hugeInteger := by
  cases directory with
  | off => exact absurd rfl hd
  | usable => simp only [write, content_of_huge h]
  | blocked => simp only [write, content_of_huge h]

theorem write_of_not_huge (h : ¬ c.HasHuge) : write directory limit source options c =
    .ok (if directory = .usable then some ((value limit source options c).json .pretty)
      else none) := by
  cases directory <;> simp [write, content_of_not_huge h]

theorem write_eq_error_iff : write directory limit source options c = .error fault ↔
    directory ≠ .off ∧ c.HasHuge ∧ fault = .hugeInteger := by
  by_cases hd : directory = .off
  · subst hd
    simp [write]
  · by_cases h : c.HasHuge
    · rw [write_of_huge hd h]
      simp [hd, h, eq_comm]
    · rw [write_of_not_huge h]
      simp [h]

theorem isSome_of_write {result : Option String}
    (h : write directory limit source options c = .ok result) :
    result.isSome = true ↔ directory = .usable := by
  by_cases hd : directory = .off
  · subst hd
    cases h
    simp
  · by_cases hc : c.HasHuge
    · rw [write_of_huge hd hc] at h
      cases h
    · rw [write_of_not_huge hc] at h
      cases h
      split <;> simp_all

end Dump

/-! ## Answers -/

/-- The same settings with dumping off. -/
def Settings.undumped (settings : Settings) : Settings :=
  { settings with dumpDirectory := none }

namespace Service

variable {parse : Parser} {target : String → Dump.Directory} {settings : Settings}
  {source : String} {options : CompileOptions} {request : Request} {c : Compilation}

/-- A dump is asked of a compilation with a huge integer. -/
def DumpsHuge (parse : Parser) (target : String → Dump.Directory) (settings : Settings)
    (request : Request) : Prop :=
  dumpTarget settings target ≠ .off ∧ Text.isAllBlank request.source = false ∧
    ∃ c, (compile parse settings request.options request.source).outcome = .ok c ∧ c.HasHuge

/-- Nothing but dumps depends on the directory for them. -/
theorem body_undumped : body parse settings.undumped .compile request =
    body parse settings .compile request := rfl

theorem reply_undumped (hb : Text.isAllBlank request.source = false) :
    (reply parse target (.ok settings.undumped) .compile request).outcome =
      settle (body parse settings .compile request) := by
  rw [← body_undumped]
  exact reply_of_text rfl hb

theorem reply_of_compiled (hb : Text.isAllBlank request.source = false)
    (hc : (compile parse settings request.options request.source).outcome = .ok c) :
    (reply parse target (.ok settings) .compile request).outcome =
      (Dump.write (dumpTarget settings target) defaultDumpLimit request.source request.options
        c).map fun _ => .success (compileBody request.options c) := by
  simp only [reply, hb, Bool.false_eq_true, if_false, serve, compileReply, hc]
  cases Dump.write (dumpTarget settings target) defaultDumpLimit request.source request.options c
    <;> rfl

theorem reply_of_dumpsHuge (h : DumpsHuge parse target settings request) :
    (reply parse target (.ok settings) .compile request).outcome = .error .hugeInteger := by
  obtain ⟨hd, hb, c, hc, hh⟩ := h
  rw [reply_of_compiled hb hc, Dump.write_of_huge hd hh]
  rfl

theorem reply_undumped_of_dumpsHuge (h : DumpsHuge parse target settings request) :
    ∃ body, (reply parse target (.ok settings.undumped) .compile request).outcome =
      .ok (.success body) := by
  obtain ⟨-, hb, c, hc, -⟩ := h
  refine ⟨compileBody request.options c, ?_⟩
  rw [reply_undumped hb, settle_eq_success_iff, body, hc]
  rfl

theorem reply_of_not_dumpsHuge (h : ¬ DumpsHuge parse target settings request) :
    (reply parse target (.ok settings) .compile request).outcome =
      (reply parse target (.ok settings.undumped) .compile request).outcome := by
  cases hb : Text.isAllBlank request.source with
  | true => simp only [reply, hb, if_true]
  | false =>
    rw [reply_undumped hb, body]
    cases hc : (compile parse settings request.options request.source).outcome with
    | error failure =>
      simp only [reply, hb, Bool.false_eq_true, if_false, serve, compileReply, hc]
      exact failureReply_outcome ..
    | ok c =>
      -- off directories are where a huge integer does no harm
      have hw : ∃ result, Dump.write (dumpTarget settings target) defaultDumpLimit request.source
          request.options c = .ok result := by
        by_cases hd : dumpTarget settings target = .off
        · exact ⟨none, by rw [hd]; rfl⟩
        · exact ⟨_, Dump.write_of_not_huge fun hh => h ⟨hd, hb, c, hc, hh⟩⟩
      obtain ⟨result, hw⟩ := hw
      rw [reply_of_compiled hb hc, hw]
      rfl

end Service

/-! ## Huge literals -/

namespace Script

variable {c : Cursor} {digits rest : List Char}

theorem Cursor.span_append {p : Char → Bool} (hc : c.rest = digits ++ rest)
    (hd : ∀ ch ∈ digits, p ch = true) (hr : p (rest.headD '\x00') = false) :
    c.span p = (digits, c.advance digits.length) := by
  have hrun : c.rest.takeWhile p = digits := by
    rw [hc, List.takeWhile_append_of_pos hd]
    cases rest with
    | nil => simp
    | cons ch rest =>
      rw [List.headD_cons] at hr
      rw [List.takeWhile_cons, if_neg (by simp [hr]), List.append_nil]
  simp only [Cursor.span, hrun]

theorem isDigit_of_not_isHexDigit {ch : Char} (h : isHexDigit ch = false) : ch.isDigit = false := by
  by_contra hd
  rw [isHexDigit, hexDigit?, if_pos (by simpa using hd)] at h
  cases h

/-- A hexadecimal numeral is an integer, however long it is. -/
theorem lexNumber_hexadecimal (hc : c.rest = '0' :: 'x' :: (digits ++ rest)) (hne : digits ≠ [])
    (hd : ∀ ch ∈ digits, isHexDigit ch = true) (hr : isHexDigit (rest.headD '\x00') = false)
    (hw : isIdentifierStart (rest.headD '\x00') = false) :
    ∃ token stop, lexNumber c = .ok (token, stop) ∧ stop.rest = rest ∧
      token.value = .int (digitsValue 16 digits) := by
  have hmark : c.peek = '0' ∧ c.peekAt 1 = 'x' := by
    simp [Cursor.peek, Cursor.peekAt, hc]
  have hspan : (c.advance 2).span isHexDigit = (digits, (c.advance 2).advance digits.length) :=
    Cursor.span_append (by rw [Cursor.advance, hc]; rfl) hd hr
  have hstop : ((c.advance 2).advance digits.length).rest = rest := by
    simp [Cursor.advance, hc]
  have hpeek : ((c.advance 2).advance digits.length).peek = rest.headD '\x00' := by
    rw [Cursor.peek, hstop]
  have hsome : digits.isEmpty = false := List.isEmpty_eq_false_iff.mpr hne
  simp only [lexNumber, hmark.1, hmark.2, if_true, lexBased, hspan, hsome, hpeek,
    isDigit_of_not_isHexDigit hr, Bool.or_false, Bool.false_eq_true, if_false, endNumber, hw]
  exact ⟨_, _, rfl, hstop, rfl⟩

theorem digitsValue_one_zeros (zeros : Nat) :
    digitsValue 16 ('1' :: List.replicate zeros '0') = 16 ^ zeros := by
  induction zeros with
  | zero => rfl
  | succ zeros ih =>
    have hlast : List.replicate (zeros + 1) '0' = List.replicate zeros '0' ++ ['0'] :=
      List.replicate_succ'
    rw [hlast, ← List.cons_append, digitsValue, List.foldl_append, ← digitsValue, ih, Nat.pow_succ']
    rfl

end Script

namespace Sample

/-- The contract `a = 0x1;` with so many zeros behind the one. -/
def powerContract (zeros : Nat) : String :=
  String.ofList (['a', ' ', '=', ' ', '0', 'x', '1'] ++ List.replicate zeros '0' ++ [';'])

theorem length_powerContract (zeros : Nat) : (powerContract zeros).length = zeros + 8 := by
  simp only [powerContract, String.length_ofList, List.length_append, List.length_replicate,
    List.length_cons, List.length_nil]
  omega

/-- A parser that finds `a = literal;`. -/
def assignmentParser (literal : Value) : Parser := fun _ _ => .ok (literalAssignment literal)

/-- Enough zeros for an integer that is not written. -/
def manyZeros : Nat := 3572

def hugePower : Int := (16 ^ manyZeros : Nat)

def powerRequest : Request := ⟨powerContract manyZeros, {}⟩

/-- A compilation that is charged twice an amount of as many digits as are written. -/
def dear : Compilation where
  tree := program []
  charges := List.replicate 2 ⟨.text "ExpressionStatement", .null, (5 * 10 ^ 4299 : Nat)⟩
  warnings := []

theorem lexNumber_powerContract (zeros : Nat) :
    ∃ token stop, Script.lexNumber ((Script.Cursor.start (powerContract zeros)).advance 4) =
      .ok (token, stop) ∧ token.value = .int (16 ^ zeros : Nat) := by
  have hc : ((Script.Cursor.start (powerContract zeros)).advance 4).rest =
      '0' :: 'x' :: ('1' :: List.replicate zeros '0' ++ [';']) := by
    simp only [Script.Cursor.advance, Script.Cursor.start, powerContract, String.toList_ofList]
    rfl
  have hd : ∀ ch ∈ '1' :: List.replicate zeros '0', Script.isHexDigit ch = true := by
    refine List.forall_mem_cons.mpr ⟨rfl, fun ch hm => ?_⟩
    rw [List.eq_of_mem_replicate hm]
    rfl
  obtain ⟨token, stop, hl, -, hv⟩ :=
    Script.lexNumber_hexadecimal hc (List.cons_ne_nil _ _) hd (by decide) (by decide)
  exact ⟨token, stop, hl, by rw [hv, Script.digitsValue_one_zeros]⟩

theorem isHuge_hugePower : IsHuge hugePower := by
  rw [isHuge_iff]
  decide +kernel

theorem dear_hasHuge : dear.HasHuge := by
  refine ⟨dear.totalGamma, List.mem_cons_self, isHuge_iff.mpr ?_⟩
  decide +kernel

theorem metered_hasHuge {n : Int} (h : IsHuge n) : (metered (.int n)).HasHuge := by
  have hintegers : (metered (.int n)).integers = [0, 0, n] := rfl
  exact ⟨n, by simp [hintegers], h⟩

theorem compile_literalAssignment {n : Int} {directory : Option String} {source : String}
    (h : source.length ≤ 100000) :
    (compile (assignmentParser (.int n)) { dumpDirectory := directory } {} source).outcome =
      .ok (metered (.int n)) := by
  have hlength : ({ dumpDirectory := directory } : Settings).sourceTooLarge? source = none :=
    if_neg (by dsimp only; omega)
  rw [compile]
  dsimp only
  rw [hlength]
  rfl

end Sample

/-! ## Dumps and answers -/

/-- **When dumping changes the answer.** A dump that is asked for faults if and only if its
compilation has an integer with more digits than are written, in its tree or as its total; it is
not asked for with dumping off, and a directory that cannot be used leaves no text and no fault.
The compile endpoint answers as with dumping off unless it dumps such a compilation: then it
answers that fault in place of the compilation. Metering and renaming bring in no such integer, so
that it is one of the parsed tree, or the total itself. -/
theorem dumping_changes_answer_iff {parse : Parser} {target : String → Dump.Directory}
    {settings : Settings} {request : Request} :
    (∀ directory limit source options (c : Compilation),
      (∀ fault, Dump.write directory limit source options c = .error fault ↔
        directory ≠ .off ∧ c.HasHuge ∧ fault = .hugeInteger) ∧
      (∀ result, Dump.write directory limit source options c = .ok result →
        (result.isSome = true ↔ directory = .usable))) ∧
    ((Service.reply parse target (.ok settings) .compile request).outcome ≠
        (Service.reply parse target (.ok settings.undumped) .compile request).outcome ↔
      Service.DumpsHuge parse target settings request) ∧
    (Service.DumpsHuge parse target settings request →
      (Service.reply parse target (.ok settings) .compile request).outcome =
          .error .hugeInteger ∧
        ∃ body, (Service.reply parse target (.ok settings.undumped) .compile request).outcome =
          .ok (.success body)) ∧
    (∀ tree c, parse true request.source = .ok tree → tree.listShaped = true →
      tree.namesAreStrings = true →
      (compile parse settings request.options request.source).outcome = .ok c →
        (c.HasHuge ↔ IsHuge c.totalGamma ∨ ∃ n ∈ tree.integers, IsHuge n)) := by
  refine ⟨fun _ _ _ _ _ => ⟨fun _ => Dump.write_eq_error_iff, fun _ => Dump.isSome_of_write⟩,
    ⟨fun hne => ?_, fun hd he => ?_⟩,
    fun hd => ⟨Service.reply_of_dumpsHuge hd, Service.reply_undumped_of_dumpsHuge hd⟩,
    fun _ _ hp hl hn hc => Compilation.hasHuge_iff_of_tree hp hl hn hc⟩
  · by_contra hd
    exact hne (Service.reply_of_not_dumpsHuge hd)
  · obtain ⟨body, hb⟩ := Service.reply_undumped_of_dumpsHuge hd
    rw [Service.reply_of_dumpsHuge hd, hb] at he
    cases he

/-- The contract `a = 0x1000…;` is answered with its compilation where dumping is off and with a
fault where it is on, and a sum of charges takes a dump with it whose directory is blocked. -/
theorem huge_literal_loses_answer :
    (∃ token stop, Script.lexNumber
        ((Script.Cursor.start Sample.powerRequest.source).advance 4) = .ok (token, stop) ∧
      token.value = .int Sample.hugePower) ∧
    (Service.reply (Sample.assignmentParser (.int Sample.hugePower)) (fun _ => .usable)
      (.ok { dumpDirectory := some "dumps" }) .compile Sample.powerRequest).outcome =
        .error .hugeInteger ∧
    (∃ body, (Service.reply (Sample.assignmentParser (.int Sample.hugePower)) (fun _ => .usable)
      (.ok {}) .compile Sample.powerRequest).outcome = .ok (.success body)) ∧
    Dump.write .blocked defaultDumpLimit "a;" {} Sample.dear = .error .hugeInteger := by
  have hb : Text.isAllBlank Sample.powerRequest.source = false := by
    rw [Text.isAllBlank, Sample.powerRequest, Sample.powerContract, String.toList_ofList]
    rfl
  have hlength : Sample.powerRequest.source.length ≤ 100000 := by
    rw [Sample.powerRequest, Sample.length_powerContract]
    decide
  have hdumps : Service.DumpsHuge (Sample.assignmentParser (.int Sample.hugePower))
      (fun _ => .usable) { dumpDirectory := some "dumps" } Sample.powerRequest :=
    ⟨by decide, hb, _, Sample.compile_literalAssignment hlength,
      Sample.metered_hasHuge Sample.isHuge_hugePower⟩
  have hundumped := Service.reply_undumped_of_dumpsHuge hdumps
  exact ⟨Sample.lexNumber_powerContract _, Service.reply_of_dumpsHuge hdumps, hundumped,
    Dump.write_of_huge (by decide) Sample.dear_hasHuge⟩

theorem dumping_changes_answer_iff_of_seven :
    (Service.reply (Sample.assignmentParser (.int 7)) (fun _ => .usable)
        (.ok { dumpDirectory := some "dumps" }) .compile ⟨"a = 7;", {}⟩).outcome =
      (Service.reply (Sample.assignmentParser (.int 7)) (fun _ => .usable) (.ok {}) .compile
        ⟨"a = 7;", {}⟩).outcome := by
  obtain ⟨-, hchange, -, horigin⟩ := @dumping_changes_answer_iff (Sample.assignmentParser (.int 7))
    (fun _ => .usable) { dumpDirectory := some "dumps" } ⟨"a = 7;", {}⟩
  have hsmall : ¬ ∃ n ∈ (Sample.literalAssignment (.int 7)).integers, IsHuge n := by
    have hintegers : (Sample.literalAssignment (.int 7)).integers = [7] := rfl
    simpa [hintegers] using (by decide : ¬ IsHuge 7)
  by_contra hne
  obtain ⟨-, -, c, hc, hh⟩ := hchange.mp hne
  obtain rfl : Sample.metered (.int 7) = c := by
    rw [Sample.compile_literalAssignment (by decide)] at hc
    exact Except.ok.inj hc
  rcases (horigin _ _ rfl rfl rfl hc).mp hh with htotal | hliteral
  · exact absurd htotal (by decide)
  · exact hsmall hliteral

end ContractMeter
