import ContractMeter.Proofs.JsonNumber

/-!
# ContractMeter.Proofs.JsonText

JSON texts read back.

* `Json.readText?` — a reader of JSON texts by the grammar of RFC 8259: six marks with blanks around
  them, three words, strings and numbers, and nothing else.
* `Value.datum` — what a value is read back as; a host object is the text it displays.
* `Value.onlyFinite` — whether every floating-point number in a value has a numeral.
* `Json.readText?_json` — the indented text of a value reads back as the value if and only if all
  its numbers have one.
-/

namespace ContractMeter

namespace Json

/-! ## The reader -/

def isBlank (c : Char) : Bool := c = ' ' || c = '\n' || c = '\r' || c = '\t'

def skipBlanks (cs : List Char) : List Char := cs.dropWhile isBlank

/-- What stands behind a mark, which may have blanks in front. -/
def takeMark? (mark : Char) (cs : List Char) : Option (List Char) :=
  match skipBlanks cs with
  | [] => none
  | c :: behind => if c = mark then some behind else none

/-- A value other than a list or a record. -/
def readScalar? : List Char → Option (Datum × List Char)
  | 'n' :: 'u' :: 'l' :: 'l' :: behind => some (.null, behind)
  | 't' :: 'r' :: 'u' :: 'e' :: behind => some (.bool true, behind)
  | 'f' :: 'a' :: 'l' :: 's' :: 'e' :: behind => some (.bool false, behind)
  | '"' :: cs => (readUnits? cs).map fun (units, behind) => (.text units, behind)
  | cs => readNumber? cs

/-- The name of a member, and what stands behind its colon. -/
def readName? (cs : List Char) : Option (List Nat × List Char) :=
  (takeMark? '"' cs).bind fun cs =>
    (readUnits? cs).bind fun (name, cs) =>
      (takeMark? ':' cs).map fun cs => (name, cs)

/-- Reads one thing and then another. -/
def andThen? {α β γ : Type} (combine : α → β → γ) (first : Option (α × List Char))
    (next : List Char → Option (β × List Char)) : Option (γ × List Char) :=
  first.bind fun (a, cs) => (next cs).map fun (b, behind) => (combine a b, behind)

mutual

/-- Reads a value of so many characters at most, and what stands behind it. -/
def readValue? : Nat → List Char → Option (Datum × List Char)
  | 0, _ => none
  | fuel + 1, cs =>
    match takeMark? '[' cs, takeMark? '\x7b' cs with
    | some cs, _ =>
      match takeMark? ']' cs with
      | some behind => some (.list [], behind)
      | none =>
        andThen? (fun item items => .list (item :: items)) (readValue? fuel cs) (readItems? fuel)
    | none, some cs =>
      match takeMark? '\x7d' cs with
      | some behind => some (.record [], behind)
      | none =>
        andThen? (fun member members => .record (member :: members))
          (andThen? Prod.mk (readName? cs) (readValue? fuel)) (readMembers? fuel)
    | none, none => readScalar? (skipBlanks cs)

/-- Items after the first, up to the end of the list. -/
def readItems? : Nat → List Char → Option (List Datum × List Char)
  | 0, _ => none
  | fuel + 1, cs =>
    match takeMark? ']' cs, takeMark? ',' cs with
    | some behind, _ => some ([], behind)
    | none, some cs => andThen? List.cons (readValue? fuel cs) (readItems? fuel)
    | none, none => none

/-- Members after the first, up to the end of the record. -/
def readMembers? : Nat → List Char → Option (List (List Nat × Datum) × List Char)
  | 0, _ => none
  | fuel + 1, cs =>
    match takeMark? '\x7d' cs, takeMark? ',' cs with
    | some behind, _ => some ([], behind)
    | none, some cs =>
      andThen? List.cons (andThen? Prod.mk (readName? cs) (readValue? fuel)) (readMembers? fuel)
    | none, none => none

end

/-- Reads a text that holds one value and blanks around it. -/
def readText? (text : String) : Option Datum :=
  match readValue? text.length text.toList with
  | some (datum, behind) => if behind.all isBlank then some datum else none
  | none => none

end Json

/-! ## What values are read back as -/

namespace Value

mutual

def datum : Value → Datum
  | .null => .null
  | .bool b => .bool b
  | .int n => .int n
  | .float x => .float x
  | .text s => .text (textUnits s)
  | .broken t => .text (t.points.flatMap TextPoint.units)
  | .list items => .list (datumItems items)
  | .record fields => .record (datumFields fields)
  | .host object => .text (textUnits object.display)

def datumItems : List Value → List Datum
  | [] => []
  | item :: rest => datum item :: datumItems rest

def datumFields : List (String × Value) → List (List Nat × Datum)
  | [] => []
  | (key, value) :: rest => (textUnits key, datum value) :: datumFields rest

end

mutual

/-- Whether no number in a value is infinite or none at all. -/
def onlyFinite : Value → Bool
  | .float x => x.isFinite
  | .list items => onlyFiniteItems items
  | .record fields => onlyFiniteFields fields
  | _ => true

def onlyFiniteItems : List Value → Bool
  | [] => true
  | item :: rest => onlyFinite item && onlyFiniteItems rest

def onlyFiniteFields : List (String × Value) → Bool
  | [] => true
  | (_, value) :: rest => onlyFinite value && onlyFiniteFields rest

end

end Value

namespace Json

/-! ## Marks and blanks -/

section Marks

variable {mark c : Char} {cs : List Char}

theorem skipBlanks_append {front : List Char} (h : ∀ c ∈ front, isBlank c = true)
    (cs : List Char) : skipBlanks (front ++ cs) = skipBlanks cs :=
  List.dropWhile_append_of_pos h

theorem isBlank_newline (level : Nat) : ∀ c ∈ newline .pretty level, isBlank c = true := by
  intro c hc
  rcases List.mem_cons.mp hc with rfl | hc
  · rfl
  · rw [List.eq_of_mem_replicate hc]
    rfl

theorem takeMark?_append {front : List Char} (h : ∀ c ∈ front, isBlank c = true) (mark : Char)
    (cs : List Char) : takeMark? mark (front ++ cs) = takeMark? mark cs := by
  rw [takeMark?, skipBlanks_append h, takeMark?]

theorem skipBlanks_cons (hc : isBlank c = false) : skipBlanks (c :: cs) = c :: cs :=
  List.dropWhile_cons_of_neg (by simp [hc])

theorem takeMark?_cons (hc : isBlank c = false) :
    takeMark? mark (c :: cs) = if c = mark then some cs else none := by
  rw [takeMark?, skipBlanks_cons hc]

theorem takeMark?_self (hm : isBlank mark = false) : takeMark? mark (mark :: cs) = some cs := by
  rw [takeMark?_cons hm, if_pos rfl]

theorem takeMark?_ne (hc : isBlank c = false) (h : c ≠ mark) : takeMark? mark (c :: cs) = none := by
  rw [takeMark?_cons hc, if_neg h]

/-- Blanks in front of a value do not matter. -/
theorem readValue?_append {front : List Char} (h : ∀ c ∈ front, isBlank c = true) (fuel : Nat)
    (cs : List Char) : readValue? fuel (front ++ cs) = readValue? fuel cs := by
  cases fuel with
  | zero => rfl
  | succ fuel =>
    unfold readValue?
    rw [takeMark?_append h, takeMark?_append h, skipBlanks_append h]

end Marks

/-! ## Scalars -/

section Scalars

variable {behind : List Char}

/-- The characters that are neither blanks nor marks around lists and before records. -/
def beginsScalar (c : Char) : Bool :=
  !isBlank c && c ≠ '[' && c ≠ '\x7b' && c ≠ ']'

theorem readValue?_scalar {c : Char} {cs : List Char} (fuel : Nat) (hc : beginsScalar c = true) :
    readValue? (fuel + 1) (c :: cs) = readScalar? (c :: cs) := by
  simp only [beginsScalar, Bool.and_eq_true, Bool.not_eq_true', decide_eq_true_eq] at hc
  obtain ⟨⟨⟨hb, hl⟩, hr⟩, -⟩ := hc
  rw [readValue?, takeMark?_ne hb hl, takeMark?_ne hb hr, skipBlanks_cons hb]

/-- The characters that numbers begin with, and the words for those without a numeral. -/
def beginsNumber (c : Char) : Bool :=
  c.isDigit || ['-', 'N', 'I'].contains c

theorem ne_of_beginsNumber {c : Char} (h : beginsNumber c = true) (d : Char)
    (hd : beginsNumber d = false) : c ≠ d := by
  rintro rfl
  cases hd.symm.trans h

theorem beginsScalar_of_beginsNumber {c : Char} (h : beginsNumber c = true) :
    beginsScalar c = true := by
  have hne := ne_of_beginsNumber h
  simp [beginsScalar, isBlank, hne _ (by decide : beginsNumber ' ' = false),
    hne _ (by decide : beginsNumber '\n' = false), hne _ (by decide : beginsNumber '\r' = false),
    hne _ (by decide : beginsNumber '\t' = false), hne _ (by decide : beginsNumber '[' = false),
    hne _ (by decide : beginsNumber '\x7b' = false), hne _ (by decide : beginsNumber ']' = false)]

theorem readScalar?_number {c : Char} {cs : List Char} (h : beginsNumber c = true) :
    readScalar? (c :: cs) = readNumber? (c :: cs) := by
  have hhead {d : Char} {ds : List Char} (hd : beginsNumber d = false) : c :: cs ≠ d :: ds :=
    fun he => ne_of_beginsNumber h d hd (List.cons.inj he).1
  exact readScalar?.eq_5 _ (fun _ => hhead (by decide)) (fun _ => hhead (by decide))
    (fun _ => hhead (by decide)) (fun _ => hhead (by decide))

theorem Writes.head {cs : List Char} {datum : Datum} (h : Writes cs datum) :
    ∃ c rest, cs = c :: rest ∧ beginsNumber c = true := by
  obtain ⟨n, hn, hc, -⟩ := h
  have hcs := hc []
  rw [List.append_nil, Numeral.chars] at hcs
  cases hneg : n.negative with
  | true =>
    rw [hneg] at hcs
    exact ⟨'-', _, hcs, rfl⟩
  | false =>
    rw [hneg] at hcs
    cases hw : n.whole with
    | nil => cases hw ▸ hn.whole
    | cons d ds =>
      rw [hw] at hcs
      have hd : d.isDigit = true := hn.digits d (hw ▸ List.mem_cons_self ..)
      exact ⟨d, _, hcs, by rw [beginsNumber, hd]; rfl⟩

theorem format_head (x : Binary64) :
    ∃ c rest, (x.format floatLayout).toList = c :: rest ∧ beginsNumber c = true := by
  by_cases hx : x.isFinite = true
  · exact (writes_format hx).head
  · unfold Binary64.format
    dsimp only
    cases hn : x.isNaN with
    | true =>
      rw [if_pos rfl]
      exact ⟨'N', _, rfl, rfl⟩
    | false =>
      rw [if_neg Bool.false_ne_true, if_pos (by simp [hx])]
      cases x.negative
      · exact ⟨'I', _, rfl, rfl⟩
      · exact ⟨'-', _, rfl, rfl⟩

theorem readValue?_number {cs : List Char} (fuel : Nat)
    (h : ∃ c rest, cs = c :: rest ∧ beginsNumber c = true) :
    readValue? (fuel + 1) (cs ++ behind) = readNumber? (cs ++ behind) := by
  obtain ⟨c, rest, rfl, hc⟩ := h
  rw [List.cons_append, readValue?_scalar fuel (beginsScalar_of_beginsNumber hc),
    readScalar?_number hc]

theorem readValue?_quotePoints (fuel : Nat) (points : List TextPoint) :
    readValue? (fuel + 1) (quotePoints true points ++ behind) =
      some (.text (points.flatMap TextPoint.units), behind) := by
  rw [quotePoints, List.cons_append, List.append_assoc, readValue?_scalar fuel (by decide)]
  show (readUnits? (points.flatMap (escapePoint true) ++ '"' :: behind)).map _ = _
  rw [readUnits?_quotePoints]
  rfl

theorem readValue?_quote (fuel : Nat) (s : String) :
    readValue? (fuel + 1) (quote true s ++ behind) = some (.text (textUnits s), behind) := by
  rw [quote_eq, readValue?_quotePoints]
  rfl

end Scalars

/-! ## Values -/

section Values

variable {behind : List Char}

theorem readName?_quote {front : List Char} (h : ∀ c ∈ front, isBlank c = true) (key : String)
    (cs : List Char) :
    readName? (front ++ (quote true key ++ ([':', ' '] ++ cs))) =
      some (textUnits key, ' ' :: cs) := by
  rw [readName?, takeMark?_append h, quote_eq, quotePoints, List.cons_append, List.append_assoc,
    takeMark?_self rfl, Option.bind_some]
  show (readUnits? (_ ++ '"' :: ([':', ' '] ++ cs))).bind _ = _
  rw [readUnits?_quotePoints, Option.bind_some]
  show (takeMark? ':' (':' :: (' ' :: cs))).map _ = _
  rw [takeMark?_self rfl]
  rfl

/-- No value begins with a blank or ends a list. -/
theorem jsonChars_head (v : Value) (level : Nat) (behind : List Char) :
    ∃ c cs, v.jsonChars .pretty level behind = c :: cs ∧ isBlank c = false ∧ c ≠ ']' := by
  have hnumber {cs : List Char} (h : ∃ c rest, cs = c :: rest ∧ beginsNumber c = true) :
      ∃ c rest, cs ++ behind = c :: rest ∧ isBlank c = false ∧ c ≠ ']' := by
    obtain ⟨c, rest, rfl, hc⟩ := h
    have hs := beginsScalar_of_beginsNumber hc
    simp only [beginsScalar, Bool.and_eq_true, Bool.not_eq_true', decide_eq_true_eq] at hs
    exact ⟨c, rest ++ behind, rfl, hs.1.1.1, hs.2⟩
  cases v with
  | null => exact ⟨'n', _, rfl, rfl, by decide⟩
  | bool b => cases b <;> exact ⟨_, _, rfl, rfl, by decide⟩
  | int n =>
    rw [Value.jsonChars, Text.toList_toString]
    exact hnumber (writes_signed n).head
  | float x => exact hnumber (format_head x)
  | text s => exact ⟨'"', _, rfl, rfl, by decide⟩
  | broken t => exact ⟨'"', _, rfl, rfl, by decide⟩
  | list items => cases items <;> exact ⟨'[', _, rfl, rfl, by decide⟩
  | record fields =>
    rcases fields with _ | ⟨⟨key, value⟩, rest⟩ <;> exact ⟨'\x7b', _, rfl, rfl, by decide⟩
  | host object => exact ⟨'"', _, rfl, rfl, by decide⟩

theorem endsNumber_cons {c : Char} {cs : List Char}
    (h : c.isDigit = false ∧ c ≠ '.' ∧ c ≠ 'e' ∧ c ≠ 'E') : EndsNumber (c :: cs) := by
  intro d hd
  cases hd
  exact h

theorem endsNumber_items (items : List Value) (level outer : Nat) (mark : Char) :
    EndsNumber (Value.jsonItems .pretty level items (newline .pretty outer ++ mark :: behind)) := by
  cases items <;> exact endsNumber_cons (by decide)

theorem endsNumber_fields (fields : Fields) (level outer : Nat) (mark : Char) :
    EndsNumber
      (Value.jsonFields .pretty level fields (newline .pretty outer ++ mark :: behind)) := by
  rcases fields with _ | ⟨⟨key, value⟩, rest⟩ <;> exact endsNumber_cons (by decide)

section Length

variable (style : JsonStyle)

mutual

theorem le_length_jsonChars : (v : Value) → (level : Nat) → (behind : List Char) →
    behind.length ≤ (v.jsonChars style level behind).length
  | .null, _, _ | .bool true, _, _ | .bool false, _, _ | .int _, _, _ | .float _, _, _
  | .text _, _, _ | .broken _, _, _ | .host _, _, _ => (List.suffix_append ..).length_le
  | .list [], _, behind | .record [], _, behind => (List.suffix_append [_, _] behind).length_le
  | .list (item :: rest), level, behind => by
    have hrest := le_length_jsonItems rest (level + 1) (newline style level ++ ']' :: behind)
    have hitem := le_length_jsonChars item (level + 1)
      (Value.jsonItems style (level + 1) rest (newline style level ++ ']' :: behind))
    simp only [Value.jsonChars, List.length_append, List.length_cons] at *
    omega
  | .record ((key, value) :: rest), level, behind => by
    have hrest := le_length_jsonFields rest (level + 1) (newline style level ++ '\x7d' :: behind)
    have hvalue := le_length_jsonChars value (level + 1)
      (Value.jsonFields style (level + 1) rest (newline style level ++ '\x7d' :: behind))
    simp only [Value.jsonChars, List.length_append, List.length_cons] at *
    omega

theorem le_length_jsonItems : (items : List Value) → (level : Nat) → (behind : List Char) →
    behind.length ≤ (Value.jsonItems style level items behind).length
  | [], _, _ => Nat.le_refl _
  | item :: rest, level, behind => by
    have hrest := le_length_jsonItems rest level behind
    have hitem := le_length_jsonChars item level (Value.jsonItems style level rest behind)
    simp only [Value.jsonItems, List.length_append]
    omega

theorem le_length_jsonFields : (fields : Fields) → (level : Nat) → (behind : List Char) →
    behind.length ≤ (Value.jsonFields style level fields behind).length
  | [], _, _ => Nat.le_refl _
  | (key, value) :: rest, level, behind => by
    have hrest := le_length_jsonFields rest level behind
    have hvalue := le_length_jsonChars value level (Value.jsonFields style level rest behind)
    simp only [Value.jsonFields, List.length_append]
    omega

end

end Length

/-- What reading gives where some of the numbers may have no numeral. -/
def ifFinite {α : Type} (finite : Bool) (a : α) (behind : List Char) : Option (α × List Char) :=
  if finite then some (a, behind) else none

/-- A part and the parts behind it are read if all of them are finite. -/
theorem andThen?_ifFinite {α β γ : Type} {combine : α → β → γ} {first others : Bool} {a : α} {b : β}
    {cs behind : List Char} {next : List Char → Option (β × List Char)}
    (h : next cs = ifFinite others b behind) :
    andThen? combine (ifFinite first a cs) next =
      ifFinite (first && others) (combine a b) behind := by
  cases first with
  | false => rfl
  | true =>
    show (next cs).map _ = _
    rw [h]
    cases others <;> rfl

/-- A member is read if its value is. -/
theorem readMember {front : List Char} (hfront : ∀ c ∈ front, isBlank c = true) (key : String)
    {cs behind : List Char} {finite : Bool} {value : Datum} {fuel : Nat}
    (h : readValue? fuel cs = ifFinite finite value behind) :
    andThen? Prod.mk (readName? (front ++ (quote true key ++ ([':', ' '] ++ cs))))
      (readValue? fuel) = ifFinite finite (textUnits key, value) behind := by
  have hblank : readValue? fuel (' ' :: cs) = ifFinite finite value behind :=
    (readValue?_append (List.forall_mem_singleton.mpr rfl) fuel cs).trans h
  rw [readName?_quote hfront]
  exact @andThen?_ifFinite _ _ _ _ true _ _ _ _ _ _ hblank

/-- A member as it is written on a line of its own. -/
theorem member_eq (level : Nat) (key : String) (cs : List Char) :
    newline .pretty level ++ quote JsonStyle.pretty.ascii key ++
      JsonStyle.pretty.keySeparator.toList ++ cs =
        newline .pretty level ++ (quote true key ++ ([':', ' '] ++ cs)) := by
  rw [List.append_assoc, List.append_assoc]
  rfl

theorem takeMark?_member {mark : Char} (hm : '"' ≠ mark) (level : Nat) (key : String)
    (cs : List Char) : takeMark? mark (newline .pretty level ++ (quote true key ++ cs)) = none := by
  rw [takeMark?_append (isBlank_newline level)]
  exact takeMark?_ne rfl hm

section Step

variable {level fuel : Nat} {cs tail : List Char} {first others : Bool} {a : Datum}

theorem readItems?_item {items : List Datum} (hfirst : readValue? fuel cs = ifFinite first a tail)
    (hothers : readItems? fuel tail = ifFinite others items behind) :
    readItems? (fuel + 1) (',' :: (newline .pretty level ++ cs)) =
      ifFinite (first && others) (a :: items) behind := by
  rw [readItems?, takeMark?_ne rfl (by decide), takeMark?_self rfl]
  dsimp only
  rw [readValue?_append (isBlank_newline _), hfirst, andThen?_ifFinite hothers]

theorem readValue?_list {items : List Datum} (hfirst : readValue? fuel cs = ifFinite first a tail)
    (hhead : ∃ c rest, cs = c :: rest ∧ isBlank c = false ∧ c ≠ ']')
    (hothers : readItems? fuel tail = ifFinite others items behind) :
    readValue? (fuel + 1) ('[' :: (newline .pretty level ++ cs)) =
      ifFinite (first && others) (.list (a :: items)) behind := by
  obtain ⟨c, rest, hc, hb, hne⟩ := hhead
  rw [readValue?, takeMark?_self rfl]
  dsimp only
  rw [takeMark?_append (isBlank_newline _), hc, takeMark?_ne hb hne, ← hc]
  dsimp only
  rw [readValue?_append (isBlank_newline _), hfirst, andThen?_ifFinite hothers]

variable {members : List (List Nat × Datum)} {key : String}

theorem readMembers?_member (hfirst : readValue? fuel cs = ifFinite first a tail)
    (hothers : readMembers? fuel tail = ifFinite others members behind) :
    readMembers? (fuel + 1) (',' :: (newline .pretty level ++ (quote true key ++
      ([':', ' '] ++ cs)))) =
      ifFinite (first && others) ((textUnits key, a) :: members) behind := by
  rw [readMembers?, takeMark?_ne rfl (by decide), takeMark?_self rfl]
  dsimp only
  rw [readMember (isBlank_newline _) key hfirst, andThen?_ifFinite hothers]

theorem readValue?_record (hfirst : readValue? fuel cs = ifFinite first a tail)
    (hothers : readMembers? fuel tail = ifFinite others members behind) :
    readValue? (fuel + 1) ('\x7b' :: (newline .pretty level ++ (quote true key ++
      ([':', ' '] ++ cs)))) =
      ifFinite (first && others) (.record ((textUnits key, a) :: members)) behind := by
  rw [readValue?, takeMark?_ne rfl (by decide), takeMark?_self rfl]
  dsimp only
  rw [takeMark?_member (by decide)]
  dsimp only
  rw [readMember (isBlank_newline _) key hfirst, andThen?_ifFinite hothers]

end Step

mutual

theorem readValue?_jsonChars : (v : Value) → (level : Nat) → (behind : List Char) →
    EndsNumber behind → (fuel : Nat) → (v.jsonChars .pretty level behind).length ≤ fuel →
      readValue? fuel (v.jsonChars .pretty level behind) = ifFinite v.onlyFinite v.datum behind
  | v, level, behind, _, 0, hf => by
    obtain ⟨c, cs, hc, -⟩ := jsonChars_head v level behind
    rw [hc] at hf
    cases hf
  | .null, _, _, _, fuel + 1, _ => readValue?_scalar fuel (by decide)
  | .bool true, _, _, _, fuel + 1, _ => readValue?_scalar fuel (by decide)
  | .bool false, _, _, _, fuel + 1, _ => readValue?_scalar fuel (by decide)
  | .int n, _, _, h, fuel + 1, _ => by
    rw [Value.jsonChars, Text.toList_toString, readValue?_number fuel (writes_signed n).head,
      (writes_signed n).readNumber? h]
    rfl
  | .float x, _, behind, h, fuel + 1, _ => by
    rw [Value.jsonChars, readValue?_number fuel (format_head x), Value.onlyFinite]
    cases hx : x.isFinite with
    | true => exact (writes_format hx).readNumber? h
    | false => exact readNumber?_format hx behind
  | .text s, _, _, _, fuel + 1, _ => readValue?_quote fuel s
  | .broken t, _, _, _, fuel + 1, _ => readValue?_quotePoints fuel t.points
  | .host object, _, _, _, fuel + 1, _ => readValue?_quote fuel object.display
  | .list [], _, _, _, fuel + 1, _ => rfl
  | .list (item :: rest), level, behind, _, fuel + 1, hf => by
    have hlen := le_length_jsonChars .pretty item (level + 1)
      (Value.jsonItems .pretty (level + 1) rest (newline .pretty level ++ ']' :: behind))
    simp only [Value.jsonChars, List.length_cons, List.length_append] at hf
    have hitem := readValue?_jsonChars item (level + 1) _
      (@endsNumber_items behind rest (level + 1) level ']') fuel (by omega)
    have hrest := readItems?_jsonItems rest (level + 1) level behind fuel (by omega)
    exact readValue?_list hitem (jsonChars_head item _ _) hrest
  | .record [], _, _, _, fuel + 1, _ => rfl
  | .record ((key, value) :: rest), level, behind, _, fuel + 1, hf => by
    have hlen := le_length_jsonChars .pretty value (level + 1)
      (Value.jsonFields .pretty (level + 1) rest (newline .pretty level ++ '\x7d' :: behind))
    simp only [Value.jsonChars, List.length_cons, List.length_append] at hf
    have hvalue := readValue?_jsonChars value (level + 1) _
      (@endsNumber_fields behind rest (level + 1) level '\x7d') fuel (by omega)
    have hrest := readMembers?_jsonFields rest (level + 1) level behind fuel (by omega)
    rw [Value.jsonChars, member_eq]
    exact readValue?_record hvalue hrest

theorem readItems?_jsonItems : (items : List Value) → (level outer : Nat) →
    (behind : List Char) → (fuel : Nat) →
    (Value.jsonItems .pretty level items (newline .pretty outer ++ ']' :: behind)).length ≤ fuel →
      readItems? fuel (Value.jsonItems .pretty level items
        (newline .pretty outer ++ ']' :: behind)) =
          ifFinite (Value.onlyFiniteItems items) (Value.datumItems items) behind
  | [], _, outer, behind, 0, hf => by cases hf
  | [], _, outer, behind, fuel + 1, hf => by
    rw [Value.jsonItems, readItems?, takeMark?_append (isBlank_newline _), takeMark?_self rfl]
    rfl
  | item :: rest, level, outer, behind, 0, hf => by cases hf
  | item :: rest, level, outer, behind, fuel + 1, hf => by
    have hlen := le_length_jsonChars .pretty item level
      (Value.jsonItems .pretty level rest (newline .pretty outer ++ ']' :: behind))
    have hsep : JsonStyle.pretty.itemSeparator.toList = [','] := rfl
    rw [Value.jsonItems, hsep, List.append_assoc, List.singleton_append] at hf ⊢
    simp only [List.length_cons, List.length_append] at hf
    have hitem := readValue?_jsonChars item level _
      (@endsNumber_items behind rest level outer ']') fuel (by omega)
    have hrest := readItems?_jsonItems rest level outer behind fuel (by omega)
    exact readItems?_item hitem hrest

theorem readMembers?_jsonFields : (fields : Fields) → (level outer : Nat) →
    (behind : List Char) → (fuel : Nat) →
    (Value.jsonFields .pretty level fields
      (newline .pretty outer ++ '\x7d' :: behind)).length ≤ fuel →
      readMembers? fuel (Value.jsonFields .pretty level fields
        (newline .pretty outer ++ '\x7d' :: behind)) =
          ifFinite (Value.onlyFiniteFields fields) (Value.datumFields fields) behind
  | [], _, outer, behind, 0, hf => by cases hf
  | [], _, outer, behind, fuel + 1, hf => by
    rw [Value.jsonFields, readMembers?, takeMark?_append (isBlank_newline _), takeMark?_self rfl]
    rfl
  | (key, value) :: rest, level, outer, behind, 0, hf => by cases hf
  | (key, value) :: rest, level, outer, behind, fuel + 1, hf => by
    have hlen := le_length_jsonChars .pretty value level
      (Value.jsonFields .pretty level rest (newline .pretty outer ++ '\x7d' :: behind))
    have htext : Value.jsonFields .pretty level ((key, value) :: rest)
        (newline .pretty outer ++ '\x7d' :: behind) =
        ',' :: (newline .pretty level ++ (quote true key ++ ([':', ' '] ++
          value.jsonChars .pretty level (Value.jsonFields .pretty level rest
            (newline .pretty outer ++ '\x7d' :: behind))))) := by
      rw [← member_eq]
      rfl
    rw [htext] at hf ⊢
    simp only [List.length_cons, List.length_append] at hf
    have hvalue := readValue?_jsonChars value level _
      (@endsNumber_fields behind rest level outer '\x7d') fuel (by omega)
    have hrest := readMembers?_jsonFields rest level outer behind fuel (by omega)
    exact readMembers?_member hvalue hrest

end

end Values

/-- **Indented texts read back.** The text of a value reads back as the value if all its numbers are
finite; otherwise it is no JSON text. -/
theorem readText?_json (v : Value) :
    readText? (v.json .pretty) = if v.onlyFinite then some v.datum else none := by
  have hread := readValue?_jsonChars v 0 [] nofun (v.jsonChars .pretty 0 []).length (Nat.le_refl _)
  rw [readText?, Value.json, ← String.length_toList, String.toList_ofList, hread]
  cases v.onlyFinite <;> rfl

end Json
end ContractMeter
