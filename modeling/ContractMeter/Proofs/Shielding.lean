import ContractMeter.Proofs.Exposure

/-!
# ContractMeter.Proofs.Shielding

When the settings of an environment keep a contract off the names of its runtime.

* `Sanitizer.Shields` — every identifier outside plain accesses to the host gets another name,
  unless its name is excluded.
* `Sanitizer.shields_iff` — that is so if and only if the prefix is not empty.
* `Sanitizer.renamed_of_empty_marker` — with an empty prefix nothing changes at all.
* `environment_shields_iff` — for the settings of an environment.
-/

namespace ContractMeter

namespace Value

/-- Whether a position lies in no plain access to the host. The position itself may be one. -/
def Outside (host : String) (tree : Value) (path : Path) : Prop :=
  ∀ front back v, path = front ++ back → back ≠ [] → tree.at? front = some v →
    v.isPlainAccess host = false

/-- No identifier above another one: outside plain accesses every identifier is exposed. -/
theorem exposed_of_outside {host : String} {tree : Value} {path : Path} {fields : Fields}
    (hs : tree.everywhere standsAlone = true) (ho : tree.Outside host path)
    (ha : tree.at? path = some (.record fields))
    (hi : (record fields).hasKind "Identifier" = true) : tree.Exposed host path := by
  intro front back v hp hb hv
  rw [isSealed, ho front back v hp hb hv, Bool.or_false]
  refine Bool.eq_false_iff.mpr fun hk => ?_
  have hsv := everywhere_at? hs hv
  rw [hp, at?_append hv] at ha
  cases back with
  | nil => exact hb rfl
  | cons edge rest =>
    obtain ⟨w, hw, hr⟩ : ∃ w, v.child? edge = some w ∧ w.at? rest = some (.record fields) :=
      at?_cons.mp ha
    cases v with
    | record outer =>
      cases edge with
      | field key =>
        have hc := check_of_everywhere hsv
        rw [standsAlone, hk, Bool.not_true, Bool.false_or] at hc
        have hn := check_of_everywhere (everywhere_at? (everywhereFields_get? hc hw) hr)
        rw [hi] at hn
        cases hn
      | item i => cases hw
    | _ => cases hk

end Value

namespace Sanitizer

variable {s : Sanitizer}

/-- Whether every identifier outside plain accesses to the host has another name in an accepted
tree after sanitization, unless its name is excluded. -/
def Shields (s : Sanitizer) : Prop :=
  ∀ (depth : Int) (tree out : Value), tree.namesAreStrings = true →
    tree.everywhere Value.standsAlone = true → s.sanitize depth tree = .ok out →
    ∀ path fields, tree.Outside s.host path → tree.at? path = some (.record fields) →
      (Value.record fields).hasKind "Identifier" = true →
      s.isExcluded (Fields.get fields "name") = false →
      ∃ name, out.at? (path ++ [.field "name"]) = some name ∧ name ≠ Fields.get fields "name"

theorem prefixed_text (name : String) : s.prefixed (.text name) = .text (s.marker ++ name) := rfl

/-! ## Prefixes that are not empty -/

theorem prefixed_ne (hm : s.marker ≠ "") {name : Value} (h : name.isString = true) :
    s.prefixed name ≠ name := by
  have hpos : 0 < s.marker.toList.length :=
    List.length_pos_iff.mpr fun e => hm (String.toList_eq_nil_iff.mp e)
  intro he
  cases name with
  | text t =>
    rw [prefixed_text, Value.text.injEq] at he
    have hl := congrArg (fun t => t.toList.length) he
    simp only [String.toList_append, List.length_append] at hl
    omega
  | broken t =>
    rw [prefixed, Value.ofPoints_append_broken, Value.broken.injEq] at he
    have hl := congrArg (fun t => t.points.length) he
    simp only [List.length_append, TextPoint.ofString, List.length_map] at hl
    omega
  | _ => cases h

theorem shields_of_marker (hm : s.marker ≠ "") : s.Shields := by
  intro depth tree out hn hs ho path fields hout ha hi hx
  have he := Value.exposed_of_outside hs hout ha hi
  have hname := Value.check_of_everywhere (Value.everywhere_at? hn ha)
  rw [Value.hasStringName, hi, Bool.not_true, Bool.false_or] at hname
  refine ⟨s.prefixed (Fields.get fields "name"), ?_, prefixed_ne hm hname⟩
  rw [sanitize_ok ho]
  exact at?_renamed_of_prefixes he ha hi hx

/-! ## The empty prefix -/

theorem newName_of_empty_marker (hm : s.marker = "") {name : Value} (h : name.isString = true) :
    s.newName name = name := by
  unfold newName
  split
  · rfl
  · cases name with
    | text t => rw [prefixed_text, hm, String.empty_append]
    | broken t =>
      have ho : TextPoint.ofString "" = [] := rfl
      rw [prefixed, hm, ho, List.nil_append, Value.ofPoints_points]
    | _ => cases h

mutual

theorem renamed_of_empty_marker (hm : s.marker = "") :
    ∀ v : Value, v.namesAreStrings = true → s.renamed v = v
  | .list items, h => by rw [renamed_list, renamedItems_of_empty_marker hm items h]
  | .record fields, h => by
    rw [Value.namesAreStrings, Value.everywhere, Bool.and_eq_true] at h
    rw [renamed_record, renamedRecord]
    split
    · rename_i hi
      have hs : (Fields.get fields "name").isString = true := by
        simpa [Value.hasStringName, hi] using h.1
      rw [renamedIdentifier_eq hs, newName_of_empty_marker hm hs,
        Fields.set_get (Value.get?_of_isString hs)]
    · split
      · rfl
      · rw [renamedFields_of_empty_marker hm fields h.2]
  | .null, _ | .bool _, _ | .int _, _ | .float _, _ | .text _, _ | .broken _, _
  | .host _, _ => by simp [renamed]

theorem renamedItems_of_empty_marker (hm : s.marker = "") : ∀ items : List Value,
    Value.everywhereItems Value.hasStringName items = true → s.renamedItems items = items
  | [], _ => by rw [renamedItems]
  | item :: rest, h => by
    rw [Value.everywhereItems, Bool.and_eq_true] at h
    rw [renamedItems, renamed_of_empty_marker hm item h.1,
      renamedItems_of_empty_marker hm rest h.2]

theorem renamedFields_of_empty_marker (hm : s.marker = "") :
    ∀ fields : List (String × Value),
      Value.everywhereFields Value.hasStringName fields = true → s.renamedFields fields = fields
  | [], _ => by rw [renamedFields]
  | (key, v) :: rest, h => by
    rw [Value.everywhereFields, Bool.and_eq_true] at h
    rw [renamedFields, renamed_of_empty_marker hm v h.1,
      renamedFields_of_empty_marker hm rest h.2]

end

/-- No list of names holds all long enough ones. -/
theorem exists_longer (names : List String) : ∃ n, ∀ name ∈ names, name.length < n := by
  induction names with
  | nil => exact ⟨0, fun _ h => nomatch h⟩
  | cons name rest ih =>
    obtain ⟨n, hn⟩ := ih
    refine ⟨max n (name.length + 1), List.forall_mem_cons.mpr ⟨by omega, fun other ho => ?_⟩⟩
    have := hn other ho
    omega

theorem exists_not_excluded (s : Sanitizer) : ∃ name, s.isExcluded (.text name) = false := by
  obtain ⟨n, hn⟩ := exists_longer s.excluded
  refine ⟨String.ofList (List.replicate n 'a'), Bool.eq_false_iff.mpr fun h => ?_⟩
  have hlt := hn _ (List.contains_iff_mem.mp h)
  simp at hlt

theorem not_shields_of_empty_marker (hm : s.marker = "") : ¬ s.Shields := by
  intro h
  obtain ⟨name, hx⟩ := s.exists_not_excluded
  have hn : (MeteringCall.identifier name).namesAreStrings = true := rfl
  have hl : levelsLeft s.maxDepth s.maxDepth = 1 := by
    unfold levelsLeft
    omega
  have ho : s.sanitize s.maxDepth (MeteringCall.identifier name) =
      .ok (MeteringCall.identifier name) := by
    refine sanitizeAt_eq_ok_iff.mpr ⟨?_, (renamed_of_empty_marker hm _ hn).symm⟩
    rw [hl]
    rfl
  obtain ⟨new, hnew, hne⟩ := h _ _ _ hn rfl ho [] _
    (fun front back v hp hb _ => absurd (List.append_eq_nil_iff.mp hp.symm).2 hb) rfl rfl hx
  cases hnew
  exact hne rfl

theorem shields_iff : s.Shields ↔ s.marker ≠ "" :=
  ⟨fun h hm => not_shields_of_empty_marker hm h, shields_of_marker⟩

end Sanitizer

/-! ## Environments -/

/-- A variable that is not set holds no names. -/
theorem Environment.names_of_unset {env : Environment} {name : String}
    (h : env.get? name = none) : env.names name = [] := by
  rw [names, getD, h, Option.getD_none, String.splitOn, String.splitOnAux]
  rfl

namespace Settings

variable {env : Environment} {settings : Settings}

theorem names_of_fromEnvironment (h : fromEnvironment env = .ok settings) :
    settings.marker = env.getD "SANITIZE_PREFIX" "sanitized_" ∧
    settings.excluded = (defaultExcluded ++ env.names "EXCLUDED_IDENTIFIERS").eraseDups := by
  unfold fromEnvironment at h
  dsimp only at h
  split at h
  · cases h
  · split at h
    · cases h
    · cases h
      exact ⟨rfl, rfl⟩

end Settings

/-- **The prefix decides whether sanitization shields the runtime.** The settings of an environment
give every identifier outside plain accesses to the host another name, excluded names apart, if and
only if the variable for the prefix is not set to the empty text; if it is, every accepted tree
comes out as it went in. The default exclusions stay in any case. -/
theorem environment_shields_iff {env : Environment} {settings : Settings}
    (h : Settings.fromEnvironment env = .ok settings) :
    (settings.sanitizer.Shields ↔ env.get? "SANITIZE_PREFIX" ≠ some "") ∧
    (env.get? "SANITIZE_PREFIX" = some "" → ∀ depth tree out, tree.namesAreStrings = true →
      settings.sanitizer.sanitize depth tree = .ok out → out = tree) ∧
    ∀ name ∈ defaultExcluded, settings.sanitizer.isExcluded (.text name) = true := by
  obtain ⟨hmarker, hexcluded⟩ := Settings.names_of_fromEnvironment h
  have hm : settings.sanitizer.marker = "" ↔ env.get? "SANITIZE_PREFIX" = some "" := by
    rw [Settings.sanitizer, hmarker, Environment.getD]
    cases env.get? "SANITIZE_PREFIX" with
    | none => simp
    | some marker => simp
  refine ⟨Sanitizer.shields_iff.trans (not_congr hm), fun he depth tree out hn ho => ?_,
    fun name hname => ?_⟩
  · rw [Sanitizer.sanitize_ok ho, Sanitizer.renamed_of_empty_marker (hm.mpr he) tree hn]
  · have hx : name ∈ settings.excluded := by
      rw [hexcluded, List.mem_eraseDups]
      exact List.mem_append_left _ hname
    exact List.contains_iff_mem.mpr hx

theorem environment_shields_iff_of_prefix :
    ∃ settings, Settings.fromEnvironment [("SANITIZE_PREFIX", "own_")] = .ok settings ∧
      settings.sanitizer.Shields := by
  obtain ⟨hs, -⟩ := @environment_shields_iff [("SANITIZE_PREFIX", "own_")] _ rfl
  exact ⟨_, rfl, hs.mpr (by decide)⟩

/-- The assignment `gamma = 0;`. -/
def Sample.gammaReset : Value :=
  assignment (MeteringCall.identifier "gamma") (Value.node "Literal" [("value", .int 0)])

/-- With the prefix set to the empty text a contract can write to any name of the runtime. -/
theorem gamma_keeps_its_name :
    ∃ settings, Settings.fromEnvironment [("SANITIZE_PREFIX", "")] = .ok settings ∧
      settings.sanitizer.isExcluded (.text "gamma") = false ∧
      Sample.gammaReset.at? [.field "expression", .field "left"] =
        some (MeteringCall.identifier "gamma") ∧
      settings.sanitizer.sanitize 0 Sample.gammaReset = .ok Sample.gammaReset := by
  refine ⟨_, rfl, ?_, rfl, Sanitizer.sanitizeAt_eq_ok_iff.mpr ⟨rfl, ?_⟩⟩
  · show (defaultExcluded ++ Environment.names _ "EXCLUDED_IDENTIFIERS").eraseDups.contains
      "gamma" = false
    rw [Environment.names_of_unset rfl, List.append_nil]
    rfl
  · exact (Sanitizer.renamed_of_empty_marker rfl _ rfl).symm

end ContractMeter
