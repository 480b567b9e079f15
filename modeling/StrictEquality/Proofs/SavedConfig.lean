import StrictEquality.Config.Save
import StrictEquality.Proofs.FileTrees
import StrictEquality.Proofs.FilledDefaults
import StrictEquality.Yaml.Render

/-!
# Saved configurations

A valid configuration that is saved and loaded again comes back with the defaults that
were missing, and a configuration that has been loaded before comes back as it was. What
is taken for granted is that the library for documents reads what it has written of the
configuration as the mapping it was written for.

## Main definitions

- `Yaml.Library.ReadsBack` — the document of a mapping is read as that mapping

Main statement: `Config.exists_same_of_save`.
-/

namespace StrictEquality

/-- A library writes the document of a mapping with newlines for line ends, and reads it as
that mapping, whose entries may come in another order on every level. -/
structure Yaml.Library.ReadsBack (yaml : Yaml.Library) (entries : Entries) : Prop where
  lineEnds : '\r' ∉ (yaml.dump entries).toList
  exists_load : ∃ v, yaml.load (yaml.dump entries) = .ok v ∧ v.IsWellKeyed ∧
    v.Same (.map entries)

namespace Config

open LooseComparison Entries

variable {policies : Policies} {c : Config}

theorem decode_toUTF8 {text : String} (h : '\r' ∉ text.toList) :
    decode text.toUTF8 = .ok text := by
  have hbytes : String.fromUTF8? text.toUTF8 = some text := by
    rw [String.fromUTF8?, String.toUTF8_eq_toByteArray, dif_pos text.isValidUTF8]
    rfl
  simp only [decode, hbytes, Text.unifyLineEnds_of_not_mem h, String.ofList_toList]

/-- Where a configuration has been saved its document is read. -/
theorem load_of_save {yaml : Yaml.Library} {files saved : FileTree} {directory : AbsolutePath}
    {path : String} (hlines : '\r' ∉ (yaml.dump c.entries).toList)
    (h : c.save yaml files directory path = (saved, none)) :
    load yaml policies saved directory path =
      ofDocument policies path (yaml.load (yaml.dump c.entries)) := by
  -- the path leads to the file that was written, whether or not it was there before
  obtain ⟨hpath, p, hlocate, hread⟩ := FileTree.exists_locate_of_write h
  have hdocument : document yaml saved p = yaml.load (yaml.dump c.entries) := by
    rw [document, hread, Fault.ok_bind, decode_toUTF8 hlines, Fault.ok_bind]
  rw [load_of_locate hpath hlocate, hdocument]

section Documents

/-! ### Documents that are read back

Scanning a document is evaluated by the kernel, the tokens and the tree are written out. -/

open Yaml

theorem hasTextKeys_entries (c : Config) : c.entries.HasTextKeys := by
  simp [HasTextKeys, entries]

theorem hasDistinctKeys_entries (c : Config) : c.entries.HasDistinctKeys where
  isKey := by simp [entries, Value.isKey]
  pairwise := by simp [entries, Value.sameKey]

theorem eq_ok_of_toOption {α : Type} {r : Except Fault α} {a : α} (h : r.toOption = some a) :
    r = .ok a := by
  cases r with
  | ok b => rw [Option.some.inj h]
  | error fault => cases h

/-- A document, given by its lines, is read back when each step of reading it gives what it
should. -/
theorem readsBack_of_scan {lines : List String} {tokens : List Token} {n : Node} {parts : Entries}
    (hlines : library.dump c.entries = String.join lines)
    (hpermitted : (lines.flatMap String.toList).all (fun c => isPermitted c && c != '\r') = true)
    (htokens : (Token.scan (lines.flatMap String.toList)).toOption = some tokens)
    (hnode : Node.ofTokens? tokens = .ok (some n)) (hvalue : n.value = .ok (.map parts))
    (hperm : parts.Perm c.entries) : library.ReadsBack c.entries := by
  have hchars : (library.dump c.entries).toList = lines.flatMap String.toList := by
    rw [hlines, String.toList_join]
  have hgood : ∀ ch ∈ lines.flatMap String.toList, isPermitted ch = true ∧ ch ≠ '\r' := by
    intro ch hch
    simpa using List.all_eq_true.mp hpermitted ch hch
  have hread : ∀ text : String, text.toList = lines.flatMap String.toList →
      library.load text = .ok (.map parts) := by
    intro text htext
    dsimp only [library, Yaml.read]
    rw [htext, if_pos (List.all_eq_true.mpr fun ch hch => (hgood ch hch).1),
      eq_ok_of_toOption htokens, Fault.ok_bind, hnode, Fault.ok_bind]
    exact hvalue
  have hload := hread _ hchars
  refine ⟨?_, _, hload, isWellKeyed_of_read hload,
    .of_perm hperm (hasTextKeys_entries c) (hasDistinctKeys_entries c)⟩
  intro hreturn
  rw [hchars] at hreturn
  exact (hgood _ hreturn).2 rfl

/-- The parts are written in ascending order of their names. -/
theorem sorted_parts {α : Type} (a b c d : α) :
    sorted [(.text "enabled_rules", a), (.text "max_findings_per_file", b),
        (.text "rule_severities", c), (.text "rule_configs", d)] =
      [(.text "enabled_rules", a), (.text "max_findings_per_file", b),
        (.text "rule_configs", d), (.text "rule_severities", c)] := by
  have hlast : (Value.text "rule_severities").mayPrecede (.text "rule_configs") = false := by
    decide +kernel
  have hfirst : (Value.text "enabled_rules").mayPrecede (.text "max_findings_per_file") = true := by
    decide +kernel
  have henabled : (Value.text "enabled_rules").mayPrecede (.text "rule_configs") = true := by
    decide +kernel
  have hlimit : (Value.text "max_findings_per_file").mayPrecede (.text "rule_configs") = true := by
    decide +kernel
  simp [sorted, isComparable, Value.isString, List.mergeSort, List.MergeSort.Internal.splitInTwo,
    hlast, hfirst, henabled, hlimit]

theorem sorted_settings {α : Type} (a b c : α) :
    sorted [(.text "allow_annotated_types", a), (.text "alter_code", b), (.text "policy", c)] =
      [(.text "allow_annotated_types", a), (.text "alter_code", b), (.text "policy", c)] := by
  have hfirst : (Value.text "allow_annotated_types").mayPrecede (.text "alter_code") = true := by
    decide +kernel
  have hannotated : (Value.text "allow_annotated_types").mayPrecede (.text "policy") = true := by
    decide +kernel
  have halter : (Value.text "alter_code").mayPrecede (.text "policy") = true := by
    decide +kernel
  simp [sorted, isComparable, Value.isString, List.mergeSort, List.MergeSort.Internal.splitInTwo,
    hfirst, hannotated, halter]

theorem sorted_singleton {α : Type} (e : Value × α) : sorted [e] = [e] := by
  simp [sorted]

/-- A configuration without a severity, whose only setting is a null policy. -/
def sparse : Config where
  enabledRules := .list []
  maxFindings := .int 1
  severities := .map []
  ruleConfigs := .map [(.text ruleId, .map [(.text "policy", .null)])]

def sparseNode : Node :=
  .mapping .map [
    (.scalar .str "enabled_rules", .sequence .seq []),
    (.scalar .str "max_findings_per_file", .scalar .int "1"),
    (.scalar .str "rule_configs", .mapping .map [
      (.scalar .str ruleId, .mapping .map [(.scalar .str "policy", .scalar .null "null")])]),
    (.scalar .str "rule_severities", .mapping .map [])]

theorem dump_sparse :
    library.dump sparse.entries = String.join [
      "enabled_rules: []\n", "max_findings_per_file: 1\n", "rule_configs:\n",
      "  lang.strict_equality:\n", "    policy: null\n", "rule_severities: \x7b\x7d\n"] := by
  simp only [library, entries, sparse, render, renderEntries, renderSorted, sorted_parts,
    sorted_singleton, renderAfterColon, renderAfterMark, List.map_cons, List.map_nil]
  decide +kernel

theorem readsBack_sparse : library.ReadsBack sparse.entries := by
  have hnode : Node.ofTokens? [.blockMapping,
      .key, .scalar "enabled_rules" true, .value, .flowSequence, .flowSequenceEnd,
      .key, .scalar "max_findings_per_file" true, .value, .scalar "1" true,
      .key, .scalar "rule_configs" true, .value, .blockMapping,
      .key, .scalar ruleId true, .value, .blockMapping,
      .key, .scalar "policy" true, .value, .scalar "null" true, .blockEnd, .blockEnd,
      .key, .scalar "rule_severities" true, .value, .flowMapping, .flowMappingEnd, .blockEnd] =
        .ok (some sparseNode) := by
    rfl
  have hvalue : sparseNode.value = .ok (.map [
      (.text "enabled_rules", sparse.enabledRules), (.text "max_findings_per_file", .int 1),
      (.text "rule_configs", sparse.ruleConfigs), (.text "rule_severities", .map [])]) := by
    simp only [sparseNode, Node.value, Node.build, Node.buildEntries, Node.buildItems,
      Node.buildEach, Node.tag, reduceCtorEq, if_false, buildText, Tag.isCollection, scalarValue]
    rfl
  refine readsBack_of_scan dump_sparse (by decide +kernel) (by decide +kernel) hnode hvalue ?_
  exact ((List.Perm.swap _ _ []).cons _).cons _

/-- The default configuration with another policy. -/
def conservative : Config :=
  { default with
    ruleConfigs := .map [(.text ruleId, .map [(.text "allow_annotated_types", .bool false),
      (.text "alter_code", .bool true), (.text "policy", .text "conservative")])] }

def conservativeNode : Node :=
  .mapping .map [
    (.scalar .str "enabled_rules", .sequence .seq [.scalar .str "*"]),
    (.scalar .str "max_findings_per_file", .scalar .int "200"),
    (.scalar .str "rule_configs", .mapping .map [
      (.scalar .str ruleId, .mapping .map [
        (.scalar .str "allow_annotated_types", .scalar .bool "false"),
        (.scalar .str "alter_code", .scalar .bool "true"),
        (.scalar .str "policy", .scalar .str "conservative")])]),
    (.scalar .str "rule_severities", .mapping .map [(.scalar .str ruleId, .scalar .str "warn")])]

theorem dump_conservative :
    library.dump conservative.entries = String.join [
      "enabled_rules:\n", "- '*'\n", "max_findings_per_file: 200\n", "rule_configs:\n",
      "  lang.strict_equality:\n", "    allow_annotated_types: false\n",
      "    alter_code: true\n", "    policy: conservative\n", "rule_severities:\n",
      "  lang.strict_equality: warn\n"] := by
  rw [entries, conservative, default, defaultSeverities, everyRule]
  simp only [library, render, renderEntries, renderSorted, sorted_parts, sorted_settings,
    sorted_singleton, renderAfterColon, renderAfterMark, renderItems, List.map_cons, List.map_nil]
  decide +kernel

theorem readsBack_conservative : library.ReadsBack conservative.entries := by
  have hnode : Node.ofTokens? [.blockMapping,
      .key, .scalar "enabled_rules" true, .value, .entry, .scalar "*" false,
      .key, .scalar "max_findings_per_file" true, .value, .scalar "200" true,
      .key, .scalar "rule_configs" true, .value, .blockMapping,
      .key, .scalar ruleId true, .value, .blockMapping,
      .key, .scalar "allow_annotated_types" true, .value, .scalar "false" true,
      .key, .scalar "alter_code" true, .value, .scalar "true" true,
      .key, .scalar "policy" true, .value, .scalar "conservative" true, .blockEnd, .blockEnd,
      .key, .scalar "rule_severities" true, .value, .blockMapping,
      .key, .scalar ruleId true, .value, .scalar "warn" true, .blockEnd, .blockEnd] =
        .ok (some conservativeNode) := by
    rfl
  have hfalse : flag "false" = .ok false := eq_ok_of_toOption (by decide +kernel)
  have htrue : flag "true" = .ok true := eq_ok_of_toOption (by decide +kernel)
  have hvalue : conservativeNode.value = .ok (.map [
      (.text "enabled_rules", everyRule), (.text "max_findings_per_file", .int defaultLimit),
      (.text "rule_configs", conservative.ruleConfigs),
      (.text "rule_severities", .map defaultSeverities)]) := by
    simp only [conservativeNode, Node.value, Node.build, Node.buildEntries, Node.buildItems,
      Node.buildEach, Node.tag, reduceCtorEq, if_false, buildText, Tag.isCollection, scalarValue,
      hfalse, htrue]
    rfl
  refine readsBack_of_scan dump_conservative (by decide +kernel) (by decide +kernel) hnode hvalue ?_
  exact ((List.Perm.swap _ _ []).cons _).cons _

end Documents

/-- A configuration that has the severity and all settings of the rule of loose comparisons
lacks nothing. -/
theorem CoversRule.withDefaults_eq_self (h : c.CoversRule) : c.withDefaults = c := by
  obtain ⟨severities, hseverities, hseverity⟩ := h.severity
  obtain ⟨ruleConfigs, hruleConfigs, settings, hfind, hall⟩ := h.settings
  -- each filling finds its key, so every insertion puts back what is there
  have hfilled : severities.withDefaults defaultSeverities = severities := by
    refine Entries.withDefaults_eq_self ?_
    simpa [defaultSeverities] using hseverity
  have hsettings : settings.withDefaults defaultSettings = settings := by
    refine Entries.withDefaults_eq_self ?_
    simpa [defaultSettings, settingNames] using hall
  have hsame : Entries.insert ruleConfigs (.text ruleId) (.map settings) = ruleConfigs :=
    insert_text_of_find? hfind
  rw [withDefaults]
  simp only [hseverities, hruleConfigs, entriesIn, hfind, hfilled, hsettings, hsame]
  rw [← hseverities, ← hruleConfigs]

theorem orElse_ne_null (v : Value) : orElse v everyRule ≠ .null := by
  cases v <;> simp [orElse, everyRule]

/-- A loaded configuration enables something. -/
theorem Loaded.enabledRules_ne_null (h : Loaded policies c) : c.enabledRules ≠ .null := by
  rcases h.eq_default_or with rfl | ⟨path, v, hvalue⟩
  · exact Value.noConfusion
  · obtain ⟨file, given, checked, -, -, rfl⟩ := ofValue_cases hvalue
    exact orElse_ne_null checked.enabledRules

/-- **A valid configuration survives saving,** whatever the documents are written and read
with, as long as that reads back what it writes. Loaded again the configuration has the
severity and the settings of the rule of loose comparisons that it lacked, and is otherwise
as it was. A configuration that has been loaded from anywhere is as it was. Nothing is
logged. -/
theorem exists_same_of_save (registered : List Policy) {yaml : Yaml.Library} {c : Config}
    {files saved : FileTree} {directory : AbsolutePath} {path : String}
    (hread : yaml.ReadsBack c.entries)
    (hsave : c.save yaml files directory path = (saved, none)) :
    let policies := Policies.builtin.registerAll registered
    (c.enabledRules ≠ .null → c.IsValid policies →
      ∃ loaded, load yaml policies saved directory path = pure loaded ∧
        loaded.Same c.withDefaults) ∧
    (Loaded policies c →
      ∃ loaded, load yaml policies saved directory path = pure loaded ∧ loaded.Same c) := by
  intro policies
  have hdefault : Policy.defaultName ∈ policies.names := Policies.defaultName_mem_names registered
  have hfilled : c.enabledRules ≠ .null → c.IsValid policies →
      ∃ loaded, load yaml policies saved directory path = pure loaded ∧
        loaded.Same c.withDefaults := by
    intro henabled hvalid
    obtain ⟨v, hv, hkeys, hsame⟩ := hread.exists_load
    obtain ⟨loaded, hloaded, hsame⟩ :=
      exists_same_of_ofValue hdefault hvalid henabled hkeys hsame path
    refine ⟨loaded, ?_, hsame⟩
    rw [load_of_save hread.lineEnds hsave, ofDocument, hv, Report.ofExcept_ok, Report.pure_bind,
      hloaded]
    rfl
  refine ⟨hfilled, ?_⟩
  intro hloaded
  have hself := hfilled hloaded.enabledRules_ne_null (hloaded.isValid hdefault)
  rwa [hloaded.coversRule.withDefaults_eq_self] at hself

/-- The configuration with another policy is what a document gives that only names it. -/
theorem conservative_loaded : Loaded (Policies.builtin.registerAll []) conservative := by
  have hpolicy : PolicySetting (Policies.builtin.registerAll []) [
      (.text "allow_annotated_types", .bool false), (.text "alter_code", .bool true),
      (.text "policy", .text "conservative")] :=
    policySetting_of_find? rfl (.inr ⟨_, Policies.conservative_mem_names [], rfl⟩)
  exact loaded_of_merged
    [(.text "rule_configs", .map [(.text ruleId, .map [(.text "policy", .text "conservative")])])]
    (by decide) rfl (isValid_of_singleton 200 rfl (by decide) rfl rfl hpolicy) Value.noConfusion

/-- In a directory that is made for it, the defaults that are missing come in, and a loaded
configuration comes back. -/
theorem exists_same_of_save_nested :
    let policies := Policies.builtin.registerAll []
    let files : FileTree := [("srv", .directory []), ("tmp", .directory [])]
    let directory := AbsolutePath.ofNames false ["srv"]
    let path := "/tmp/nested/stricteq.yml"
    let saved (c : Config) : FileTree := (c.save Yaml.library files directory path).1
    (Yaml.library.ReadsBack sparse.entries ∧
      sparse.save Yaml.library files directory path = (saved sparse, none) ∧
      sparse.enabledRules ≠ .null ∧ sparse.IsValid policies ∧
      (∃ loaded, load Yaml.library policies (saved sparse) directory path = pure loaded ∧
        loaded.Same sparse.withDefaults) ∧
      sparse.withDefaults =
        { sparse with
          severities := .map [(.text "lang.strict_equality", .text "warn")]
          ruleConfigs := .map [(.text "lang.strict_equality", .map [(.text "policy", .null),
            (.text "allow_annotated_types", .bool false), (.text "alter_code", .bool true)])] }) ∧
    Yaml.library.ReadsBack conservative.entries ∧
      conservative.save Yaml.library files directory path = (saved conservative, none) ∧
      Loaded policies conservative ∧
      ∃ loaded, load Yaml.library policies (saved conservative) directory path = pure loaded ∧
        loaded.Same conservative := by
  intro policies files directory path saved
  have henabled : sparse.enabledRules ≠ .null := Value.noConfusion
  have hvalid : sparse.IsValid policies :=
    isValid_of_singleton 1 rfl (by decide) rfl rfl (policySetting_of_find? rfl (.inl rfl))
  have hsparse : sparse.save Yaml.library files directory path = (saved sparse, none) :=
    Prod.ext rfl (Option.isNone_iff_eq_none.mp (by decide +kernel))
  have hconservative :
      conservative.save Yaml.library files directory path = (saved conservative, none) :=
    Prod.ext rfl (Option.isNone_iff_eq_none.mp (by decide +kernel))
  obtain ⟨hfilled, -⟩ := exists_same_of_save [] readsBack_sparse hsparse
  obtain ⟨-, hself⟩ := exists_same_of_save [] readsBack_conservative hconservative
  exact ⟨⟨readsBack_sparse, hsparse, henabled, hvalid, hfilled henabled hvalid, rfl⟩,
    readsBack_conservative, hconservative, conservative_loaded, hself conservative_loaded⟩

end Config

end StrictEquality
