import ContractMeter.Report
import ContractMeter.Proofs.Numeral

/-!
# ContractMeter.Proofs.Readback

Reports read back.

* `Report.read?` — a reader of reports. It goes by lines and cells: rows stand directly behind the
  head of the table, and notes three lines below the last of them.
* `Charge.shown` — what a row shows of a charge; a charge with a text as its label is shown whole.
* `report_reads_back` — a report tells its charges and its warnings, and its totals are theirs.
-/

namespace ContractMeter

namespace Text

/-! ## Grouped digits -/

/-- Reads an integer with commas in it. -/
def ungroup? (cs : List Char) : Option Int :=
  readInt? (cs.filter (· ≠ ','))

/-- An integer with its digits in groups, as characters. -/
theorem toList_groupThousands (n : Int) :
    (groupThousands n).toList = (if n < 0 then ['-'] else []) ++
      (commaEveryThree (Nat.toDigits 10 n.natAbs).reverse).reverse := by
  unfold groupThousands
  dsimp only
  split
  · rw [String.toList_append, String.toList_ofList, String.toList_ofList]
  · rw [String.toList_ofList, List.nil_append]

theorem filter_commaEveryThree (cs : List Char) :
    (commaEveryThree cs).filter (· ≠ ',') = cs.filter (· ≠ ',') := by
  fun_induction commaEveryThree cs with
  | case1 a b c d rest ih =>
    have hcomma : (',' :: commaEveryThree (d :: rest)).filter (· ≠ ',') =
        (d :: rest).filter (· ≠ ',') := ih
    show ([a, b, c] ++ ',' :: commaEveryThree (d :: rest)).filter (· ≠ ',') =
      ([a, b, c] ++ d :: rest).filter (· ≠ ',')
    rw [List.filter_append, List.filter_append, hcomma]
  | case2 rest _ => rfl

theorem filter_groupThousands (n : Int) :
    (groupThousands n).toList.filter (· ≠ ',') = signed n := by
  have hkeep : (signed n).filter (· ≠ ',') = signed n := by
    refine List.filter_eq_self.mpr fun c hc => decide_eq_true ?_
    rintro rfl
    rcases mem_signed hc with h | h <;> cases h
  rw [← hkeep, toList_groupThousands, List.filter_append, List.filter_reverse,
    filter_commaEveryThree, ← List.filter_reverse, List.reverse_reverse, ← List.filter_append]
  unfold signed
  split <;> rfl

theorem ungroup?_groupThousands (n : Int) : ungroup? (groupThousands n).toList = some n := by
  rw [ungroup?, filter_groupThousands, readInt?_signed]

/-- No other characters stand in a number of a report. -/
theorem mem_groupThousands {n : Int} {c : Char} (h : c ∈ (groupThousands n).toList) :
    c = ',' ∨ c = '-' ∨ c.isDigit = true := by
  by_cases hc : c = ','
  · exact .inl hc
  · have hm : c ∈ (groupThousands n).toList.filter (· ≠ ',') :=
      List.mem_filter.mpr ⟨h, decide_eq_true hc⟩
    rw [filter_groupThousands] at hm
    exact .inr (mem_signed hm)

end Text

namespace Report

/-! ## The reader -/

/-- What a report tells. -/
structure Contents where
  total : Int
  calls : Nat
  charges : List Charge
  warnings : List String

/-- A cell without the blanks beside it. -/
def cell (cs : List Char) : List Char :=
  (cs.drop 1).dropLast

/-- The cell of a line; a dash is no line. -/
def readLine? (cs : List Char) : Option Value :=
  if cs = ['-'] then some .null else (Text.readInt? cs).map .int

def readRow? (row : List Char) : Option Charge :=
  match (row.splitOn '|').map cell with
  | [_, line, label, gamma, _] =>
    match readLine? line, Text.ungroup? gamma with
    | some line, some gamma => some ⟨.text (String.ofList label), line, gamma⟩
    | _, _ => none
  | _ => none

/-- Reads each of a list; all must be readable. -/
def readEach? {α β : Type} (read? : α → Option β) : List α → Option (List β)
  | [] => some []
  | a :: rest =>
    match read? a, readEach? read? rest with
    | some b, some others => some (b :: others)
    | _, _ => none

def isRow (line : List Char) : Bool := "| ".toList.isPrefixOf line

def isNote (line : List Char) : Bool := "- ".toList.isPrefixOf line

/-- The rows, and the notes below them. Two blank lines and a heading stand between; without notes
the footer stands there. -/
def readBody? (body : List (List Char)) : Option (List Charge × List String) :=
  let notes := ((body.dropWhile isRow).drop 3).takeWhile isNote
  (readEach? readRow? (body.takeWhile isRow)).map fun charges =>
    (charges, notes.map fun note => String.ofList (note.drop "- ".length))

/-- Reads a report. -/
def read? (report : String) : Option Contents :=
  match report.toList.splitOn '\n' with
  | _ :: _ :: _ :: total :: calls :: _ :: _ :: _ :: _ :: _ :: body =>
    match Text.ungroup? (total.drop "- **Total Gamma:** ".length),
      Text.readNat? (calls.drop "- **Metering Calls:** ".length), readBody? body with
    | some total, some calls, some (charges, warnings) => some ⟨total, calls, charges, warnings⟩
    | _, _, _ => none
  | _ => none

end Report

/-- A charge as a row shows it. -/
def Charge.shown (charge : Charge) : Charge :=
  { charge with statement := .text charge.statement.display }

theorem Charge.shown_eq {charge : Charge} (h : ∃ label, charge.statement = .text label) :
    charge.shown = charge := by
  obtain ⟨label, h⟩ := h
  rw [shown, h]
  cases charge
  cases h
  rfl

/-- Labels, lines and warnings that keep the table and the list in shape. -/
structure Compilation.Printable (c : Compilation) : Prop where
  label : ∀ charge ∈ c.charges, '\n' ∉ charge.statement.display.toList ∧
    '|' ∉ charge.statement.display.toList
  line : ∀ charge ∈ c.charges, charge.line = .null ∨ ∃ n, charge.line = .int n
  warning : ∀ warning ∈ c.warnings, '\n' ∉ warning.toList

namespace Report

/-! ## Rows -/

theorem readEach?_map {α β : Type} {read? : α → Option β} {write : β → α} {shown : β → β}
    {items : List β} (h : ∀ b ∈ items, read? (write b) = some (shown b)) :
    readEach? read? (items.map write) = some (items.map shown) := by
  induction items with
  | nil => rfl
  | cons b rest ih =>
    rw [List.forall_mem_cons] at h
    rw [List.map_cons, readEach?, h.1, ih h.2]
    rfl

theorem lineText_int (n : Int) : (lineText (.int n)).toList = Text.signed n :=
  Text.toList_toString n

theorem readLine?_lineText {line : Value} (h : line = .null ∨ ∃ n, line = .int n) :
    readLine? (lineText line).toList = some line := by
  rcases h with rfl | ⟨n, rfl⟩
  · rfl
  · have hd : Text.signed n ≠ ['-'] := fun he => by
      have hr := Text.readInt?_signed n
      rw [he] at hr
      cases hr
    rw [lineText_int, readLine?, if_neg hd, Text.readInt?_signed]
    rfl

/-- Numbers of a row hold no mark that shapes the table. -/
theorem not_mem_lineText {line : Value} (h : line = .null ∨ ∃ n, line = .int n) {mark : Char}
    (hm : mark = '|' ∨ mark = '\n') : mark ∉ (lineText line).toList := by
  intro hc
  have hn : mark = '-' ∨ mark.isDigit = true := by
    rcases h with rfl | ⟨n, rfl⟩
    · exact .inl (List.mem_singleton.mp hc)
    · rw [lineText_int] at hc
      exact Text.mem_signed hc
  rcases hm with rfl | rfl <;> rcases hn with hn | hn <;> cases hn

theorem not_mem_groupThousands (n : Int) {mark : Char} (hm : mark = '|' ∨ mark = '\n') :
    mark ∉ (Text.groupThousands n).toList := by
  intro hc
  have hn := Text.mem_groupThousands hc
  rcases hm with rfl | rfl <;> rcases hn with hn | hn | hn <;> cases hn

/-- A cell with the blanks beside it. -/
def padded (cs : List Char) : List Char := ' ' :: (cs ++ [' '])

theorem cell_padded (cs : List Char) : cell (padded cs) = cs := by
  rw [cell, padded, List.drop_one, List.tail_cons, List.dropLast_concat]

/-- The cells of a row, between its bars. -/
def cells (charge : Charge) : List (List Char) :=
  [[], padded (lineText charge.line).toList, padded charge.statement.display.toList,
    padded (Text.groupThousands charge.gamma).toList, []]

theorem toList_row (charge : Charge) : (row charge).toList = ['|'].intercalate (cells charge) := by
  simp [row, cells, padded, List.intercalate_cons_cons]

variable {c : Compilation}

theorem not_mem_cells (h : c.Printable) {charge : Charge} (hc : charge ∈ c.charges) {mark : Char}
    (hm : mark = '|' ∨ mark = '\n') : ∀ cs ∈ cells charge, mark ∉ cs := by
  have hlabel : mark ∉ charge.statement.display.toList := by
    rcases hm with rfl | rfl
    · exact (h.label charge hc).2
    · exact (h.label charge hc).1
  have hpad {cs : List Char} (hcs : mark ∉ cs) : mark ∉ padded cs := by
    have hb : mark ≠ ' ' := by rcases hm with rfl | rfl <;> decide
    simp [padded, hcs, hb]
  simp only [cells, List.forall_mem_cons]
  exact ⟨List.not_mem_nil, hpad (not_mem_lineText (h.line charge hc) hm), hpad hlabel,
    hpad (not_mem_groupThousands _ hm), List.not_mem_nil, List.forall_mem_nil _⟩

theorem readRow?_row (h : c.Printable) {charge : Charge} (hc : charge ∈ c.charges) :
    readRow? (row charge).toList = some charge.shown := by
  rw [readRow?, toList_row, List.splitOn_intercalate '|' (not_mem_cells h hc (.inl rfl)) nofun]
  simp only [cells, List.map_cons, List.map_nil, cell_padded, readLine?_lineText (h.line charge hc),
    Text.ungroup?_groupThousands, String.ofList_toList]
  rfl

theorem newline_not_mem_row (h : c.Printable) {charge : Charge} (hc : charge ∈ c.charges) :
    '\n' ∉ (row charge).toList := by
  have hcells := not_mem_cells h hc (.inr rfl)
  rw [toList_row]
  simp only [cells, List.forall_mem_cons] at hcells
  simp [cells, List.intercalate_cons_cons, hcells]

/-! ## Lines -/

/-- Where the last part has separators of its own it is split with the others. -/
theorem splitOn_intercalate_concat {sep : Char} {front : List (List Char)} (last : List Char)
    (h : ∀ line ∈ front, sep ∉ line) :
    ([sep].intercalate (front ++ [last])).splitOn sep = front ++ last.splitOn sep := by
  induction front with
  | nil => rw [List.nil_append, List.intercalate_singleton, List.nil_append]
  | cons line rest ih =>
    rw [List.forall_mem_cons] at h
    rw [List.cons_append, List.intercalate_cons_of_ne_nil (by simp), List.append_assoc,
      List.singleton_append, List.splitOn_append_cons_self_of_not_mem h.1, ih h.2, List.cons_append]

/-- The lines of a report above its footer. -/
def linesAbove (c : Compilation) : List (List Char) :=
  (summary c.totalGamma c.charges.length).map String.toList ++
    (c.charges.map (fun charge => (row charge).toList) ++
      ((notes c.warnings).map String.toList ++ [[]]))

theorem toList_report (c : Compilation) :
    c.report.toList = ['\n'].intercalate (linesAbove c ++ [reportFooter.toList]) := by
  have hlines : c.reportLines.map String.toList = linesAbove c ++ [reportFooter.toList] := by
    simp [Compilation.reportLines, linesAbove]
  rw [Compilation.report, String.toList_intercalate, hlines]
  rfl

theorem newline_not_mem_notes (h : c.Printable) :
    ∀ note ∈ notes c.warnings, '\n' ∉ note.toList := by
  unfold notes
  split
  · exact List.forall_mem_nil _
  · rw [List.forall_mem_append, List.forall_mem_map]
    refine ⟨by decide, fun warning hw => ?_⟩
    simp [h.warning warning hw]

theorem newline_not_mem_linesAbove (h : c.Printable) : ∀ line ∈ linesAbove c, '\n' ∉ line := by
  have htotal := not_mem_groupThousands c.totalGamma (.inr rfl)
  have hcalls : '\n' ∉ Nat.toDigits 10 c.charges.length := fun hc => by
    cases Decimal.isDigit_toDigits _ _ hc
  rw [linesAbove, List.forall_mem_append, List.forall_mem_append, List.forall_mem_append,
    List.forall_mem_map, List.forall_mem_map, List.forall_mem_map]
  refine ⟨?_, fun charge hc => newline_not_mem_row h hc, newline_not_mem_notes h, by simp⟩
  simp only [summary, List.forall_mem_cons]
  refine ⟨by decide, by decide, by decide, by simp [htotal], ?_, by decide, by decide, by decide,
    by decide, by decide, List.forall_mem_nil _⟩
  show '\n' ∉ ("- **Metering Calls:** " ++ toString c.charges.length).toList
  rw [String.toList_append, Nat.toString_eq_repr, Nat.toList_repr]
  simp [hcalls]

theorem splitOn_report (h : c.Printable) :
    c.report.toList.splitOn '\n' = linesAbove c ++ reportFooter.toList.splitOn '\n' := by
  rw [toList_report, splitOn_intercalate_concat _ (newline_not_mem_linesAbove h)]

/-! ## Below the head -/

theorem isRow_row (charge : Charge) : isRow (row charge).toList = true := by
  simp [isRow, row]

theorem isNote_note (warning : String) : isNote ("- " ++ warning).toList = true := by
  simp [isNote]

/-- What stands below the rows: notes, if there are any, and the footer behind a blank line. -/
def below (warnings : List String) : List (List Char) :=
  (notes warnings).map String.toList ++ [] :: reportFooter.toList.splitOn '\n'

theorem takeWhile_below (warnings : List String) :
    ((below warnings).drop 3).takeWhile isNote =
      warnings.map fun warning => ("- " ++ warning).toList := by
  by_cases hw : warnings = []
  · -- the blank line and the two lines of the footer are dropped
    have hfooter : (reportFooter.toList.splitOn '\n').length = 2 := by decide +kernel
    have hdrop : (below []).drop 3 = [] :=
      List.drop_eq_nil_of_le (Nat.le_of_eq (congrArg (· + 1) hfooter))
    rw [hw, hdrop]
    rfl
  · have hn : notes warnings = ["", "### ⚠️ Notes", ""] ++ warnings.map ("- " ++ ·) :=
      if_neg (by simpa using hw)
    have hdrop : (below warnings).drop 3 = (warnings.map fun warning => ("- " ++ warning).toList) ++
        [] :: reportFooter.toList.splitOn '\n' := by
      rw [below, hn, List.map_append, List.map_map, List.append_assoc]
      rfl
    have hnote : ∀ note ∈ warnings.map fun warning => ("- " ++ warning).toList,
        isNote note = true := by
      rw [List.forall_mem_map]
      exact fun warning _ => isNote_note warning
    rw [hdrop, List.takeWhile_append_of_pos hnote, List.takeWhile_cons_of_neg (by decide),
      List.append_nil]

theorem below_head (warnings : List String) : ∃ rest, below warnings = [] :: rest := by
  unfold below notes
  split
  · exact ⟨_, rfl⟩
  · exact ⟨_, rfl⟩

theorem readBody?_body (h : c.Printable) :
    readBody? (c.charges.map (fun charge => (row charge).toList) ++ below c.warnings) =
      some (c.charges.map Charge.shown, c.warnings) := by
  obtain ⟨rest, hrest⟩ := below_head c.warnings
  have hrow : ∀ line ∈ c.charges.map fun charge => (row charge).toList, isRow line = true := by
    rw [List.forall_mem_map]
    exact fun charge _ => isRow_row charge
  have hnone : ¬ isRow [] = true := by decide
  have htake : (c.charges.map (fun charge => (row charge).toList) ++ below c.warnings).takeWhile
      isRow = c.charges.map fun charge => (row charge).toList := by
    rw [List.takeWhile_append_of_pos hrow, hrest, List.takeWhile_cons_of_neg hnone, List.append_nil]
  have hdrop : (c.charges.map (fun charge => (row charge).toList) ++ below c.warnings).dropWhile
      isRow = below c.warnings := by
    rw [List.dropWhile_append_of_pos hrow, hrest, List.dropWhile_cons_of_neg hnone]
  have hnotes : (c.warnings.map fun warning => ("- " ++ warning).toList).map
      (fun note => String.ofList (note.drop "- ".length)) = c.warnings := by
    rw [List.map_map]
    refine (List.map_congr_left fun warning _ => ?_).trans (List.map_id _)
    show String.ofList (("- " ++ warning).toList.drop 2) = warning
    rw [String.toList_append]
    exact String.ofList_toList
  rw [readBody?, htake, hdrop, takeWhile_below, hnotes, readEach?_map fun _ => readRow?_row h]
  rfl

theorem read?_report (h : c.Printable) :
    read? c.report =
      some ⟨c.totalGamma, c.charges.length, c.charges.map Charge.shown, c.warnings⟩ := by
  have hsplit : c.report.toList.splitOn '\n' =
      (summary c.totalGamma c.charges.length).map String.toList ++
        (c.charges.map (fun charge => (row charge).toList) ++ below c.warnings) := by
    rw [splitOn_report h, linesAbove, below]
    simp only [List.append_assoc, List.singleton_append]
  have htotal : Text.ungroup? (("- **Total Gamma:** " ++
      Text.groupThousands c.totalGamma).toList.drop "- **Total Gamma:** ".length) =
      some c.totalGamma := by
    rw [String.toList_append, ← String.length_toList, List.drop_left,
      Text.ungroup?_groupThousands]
  have hcalls : Text.readNat? (("- **Metering Calls:** " ++
      toString c.charges.length).toList.drop "- **Metering Calls:** ".length) =
      some c.charges.length := by
    rw [String.toList_append, ← String.length_toList, List.drop_left, Nat.toString_eq_repr,
      Nat.toList_repr, Text.readNat?_toDigits]
  have hsummary : (summary c.totalGamma c.charges.length).map String.toList =
      "## Gamma Estimation".toList :: [] :: "### Summary".toList ::
        ("- **Total Gamma:** " ++ Text.groupThousands c.totalGamma).toList ::
        ("- **Metering Calls:** " ++ toString c.charges.length).toList :: [] ::
        "### Breakdown by Statement".toList :: [] :: "| Line | Statement | Gamma |".toList ::
        ["|------|-----------|-------|".toList] := rfl
  rw [read?, hsplit, hsummary]
  simp only [List.cons_append, List.nil_append, htotal, hcalls, readBody?_body h]

end Report

/-- **A report is faithful.** It reads back as the charges of the compilation, in order and as its
rows show them, and as its warnings, in order. Its total is that of the charges in its rows and its
count of calls is that of the rows. Labels must hold neither bars nor line breaks and warnings no
line breaks, whatever else they look like; lines are missing or numbers. A charge with a text as its
label is shown whole. -/
theorem report_reads_back {c : Compilation} (h : c.Printable) :
    ∃ r, Report.read? c.report = some r ∧ r.charges = c.charges.map Charge.shown ∧
      ((∀ charge ∈ c.charges, ∃ label, charge.statement = .text label) → r.charges = c.charges) ∧
      r.warnings = c.warnings ∧ r.total = totalGamma r.charges ∧
      r.calls = r.charges.length := by
  refine ⟨_, Report.read?_report h, rfl, fun hl => ?_, rfl, ?_, ?_⟩
  · exact (List.map_congr_left fun charge hc => Charge.shown_eq (hl charge hc)).trans
      (List.map_id _)
  · show ContractMeter.totalGamma c.charges = _
    rw [ContractMeter.totalGamma, ContractMeter.totalGamma, List.map_map]
    rfl
  · exact (List.length_map _).symm

namespace Sample

/-- A compilation whose warning looks like the rest of a report. -/
def oddlyWarned : Compilation where
  tree := .null
  charges := [⟨.text "for: - **Total Gamma:** 1", .int (-12345), 1234567⟩, ⟨.text "", .null, -1000⟩]
  warnings := ["| - | ### ⚠️ Notes | 1,000 |", ""]

end Sample

theorem report_reads_back_of_oddlyWarned :
    Sample.oddlyWarned.Printable ∧
      ∃ r, Report.read? Sample.oddlyWarned.report = some r ∧
        r.charges = Sample.oddlyWarned.charges ∧ r.warnings = Sample.oddlyWarned.warnings ∧
        r.total = 1233567 ∧ r.calls = 2 := by
  have hp : Sample.oddlyWarned.Printable := by
    refine ⟨by decide, ?_, by decide⟩
    rintro charge (_ | ⟨_, _ | ⟨_, ⟨⟩⟩⟩)
    · exact .inr ⟨_, rfl⟩
    · exact .inl rfl
  obtain ⟨r, hr, -, hcharges, hwarnings, htotal, hcalls⟩ := report_reads_back hp
  have hc : r.charges = Sample.oddlyWarned.charges := by
    refine hcharges ?_
    rintro charge (_ | ⟨_, _ | ⟨_, ⟨⟩⟩⟩) <;> exact ⟨_, rfl⟩
  rw [hc] at htotal hcalls
  exact ⟨hp, r, hr, hc, hwarnings, htotal.trans rfl, hcalls⟩

end ContractMeter
