import StrictEquality.Proofs.FilledDefaults

/-!
# Keys that mean nothing

Entries of a document whose keys name no part of a configuration are left out, and what is
loaded is the same without them. This takes texts for keys: the keys that are left out are
listed for the log, and a key that is no text ends that in a fault, so that the whole
document gives way to the default configuration.

Main statement: `Config.outcome_ofDocument_of_extra`.
-/

namespace StrictEquality

namespace Entries

variable {entries others : Entries} {key v : Value} {s : String}

theorem find?_text_eq_some_iff (h : entries.HasDistinctKeys) :
    entries.find? (.text s) = some v ↔ (.text s, v) ∈ entries := by
  constructor
  · intro hfind
    obtain ⟨e, he, hsame, rfl⟩ := exists_mem_of_find? hfind
    rw [← Value.sameKey_text_iff.mp hsame]
    exact he
  · exact h.find?_of_mem

/-- What is under a text does not depend on the order of the entries. -/
theorem find?_text_of_perm (hperm : entries.Perm others) (h : entries.HasDistinctKeys)
    (s : String) : entries.find? (.text s) = others.find? (.text s) := by
  cases hfind : others.find? (.text s) with
  | some v =>
    obtain ⟨e, he, hsame, rfl⟩ := exists_mem_of_find? hfind
    rw [find?_text_eq_some_iff h, hperm.mem_iff, ← Value.sameKey_text_iff.mp hsame]
    exact he
  | none =>
    rw [find?_eq_none_iff] at hfind ⊢
    exact fun e he => hfind e (hperm.mem_iff.mp he)

theorem find?_merge_text_of_ne (h : ∀ e ∈ others, e.1 ≠ .text s) :
    (entries.merge others).find? (.text s) = entries.find? (.text s) := by
  induction others generalizing entries with
  | nil => rfl
  | cons e rest ih =>
    obtain ⟨hfirst, hrest⟩ := List.forall_mem_cons.mp h
    exact (ih hrest).trans (find?_insert_text_of_ne hfirst)

theorem HasTextKeys.of_perm (hperm : entries.Perm others) (h : entries.HasTextKeys) :
    others.HasTextKeys :=
  fun e he => h e (hperm.mem_iff.mpr he)

/-- To put a value under a key brings in that key, or one that is the same. -/
theorem hasTextKeys_insert_iff :
    (entries.insert key v).HasTextKeys ↔ entries.HasTextKeys ∧ ∃ s, key = .text s := by
  induction entries with
  | nil => simp [insert, HasTextKeys]
  | cons e rest ih =>
    have hcons : ∀ (first : Value × Value) (rest : Entries),
        HasTextKeys (first :: rest) ↔ (∃ s, first.1 = .text s) ∧ rest.HasTextKeys :=
      fun first rest => List.forall_mem_cons
    rw [insert, hcons e rest]
    by_cases hsame : e.1.sameKey key = true
    · rw [if_pos hsame, hcons]
      refine (and_iff_left_of_imp ?_).symm
      rintro ⟨⟨t, ht⟩, -⟩
      rw [ht] at hsame
      exact ⟨t, Value.text_sameKey_iff.mp hsame⟩
    · rw [if_neg hsame, hcons, ih, and_assoc]

theorem hasTextKeys_merge_iff :
    (entries.merge others).HasTextKeys ↔ entries.HasTextKeys ∧ others.HasTextKeys := by
  induction others generalizing entries with
  | nil => simp [merge, HasTextKeys]
  | cons e rest ih =>
    have hmerge : entries.merge (e :: rest) = (entries.insert e.1 e.2).merge rest := rfl
    rw [hmerge, ih, hasTextKeys_insert_iff, and_assoc]
    refine and_congr_right fun _ => Iff.symm ?_
    exact List.forall_mem_cons

end Entries

namespace Config

open Entries

variable {policies : Policies} {path : String} {file full extra : Entries}

theorem exists_text_of_isKnownKey {key : Value} (h : isKnownKey key = true) :
    ∃ s, key = .text s := by
  cases key with
  | text s => exact ⟨s, rfl⟩
  | _ => simp [isKnownKey, keys, Value.isText] at h

theorem isKnownKey_text {name : String} (h : name ∈ keys) : isKnownKey (.text name) = true := by
  rw [isKnownKey, List.any_eq_true]
  exact ⟨name, h, beq_self_eq_true name⟩

theorem mapM_keyName_of_texts {vs : List Value} (h : ∀ v ∈ vs, ∃ s, v = .text s) :
    ∃ names, vs.mapM keyName = .ok names := by
  induction vs with
  | nil => exact ⟨[], rfl⟩
  | cons v rest ih =>
    obtain ⟨⟨s, rfl⟩, hrest⟩ := List.forall_mem_cons.mp h
    obtain ⟨names, hnames⟩ := ih hrest
    exact ⟨s :: names, by rw [List.mapM_cons, hnames]; rfl⟩

theorem mapM_keyName_of_not_texts {vs : List Value} (h : ¬ ∀ v ∈ vs, ∃ s, v = .text s) :
    vs.mapM keyName = .error (.wrongType "a text key") := by
  induction vs with
  | nil => exact absurd (by simp) h
  | cons v rest ih =>
    rw [List.forall_mem_cons, not_and_or] at h
    rw [List.mapM_cons]
    cases v with
    | text s =>
      have hrest := h.resolve_left fun hno => hno ⟨s, rfl⟩
      rw [keyName, Fault.ok_bind, ih hrest]
      rfl
    | _ => rfl

/-- The keys that mean nothing are texts if all keys are. -/
theorem hasTextKeys_iff_unknown :
    file.HasTextKeys ↔
      ∀ key ∈ (file.filter (fun e => !isKnownKey e.1)).map Prod.fst, ∃ s, key = .text s := by
  constructor
  · intro h key hkey
    obtain ⟨e, he, rfl⟩ := List.mem_map.mp hkey
    exact h e (List.mem_filter.mp he).1
  · intro h e he
    cases hknown : isKnownKey e.1 with
    | true => exact exists_text_of_isKnownKey hknown
    | false =>
      refine h e.1 (List.mem_map_of_mem ?_)
      rw [List.mem_filter, hknown]
      exact ⟨he, rfl⟩

theorem outcome_knownEntries (h : file.HasTextKeys) :
    (knownEntries path file).outcome = .ok (file.filter (fun e => isKnownKey e.1)) := by
  obtain ⟨names, hnames⟩ := mapM_keyName_of_texts (hasTextKeys_iff_unknown.mp h)
  simp only [knownEntries]
  split
  · next hnone =>
    have hall : ∀ e ∈ file, isKnownKey e.1 = true := by
      simpa [List.filter_eq_nil_iff] using hnone
    rw [List.filter_eq_self.mpr hall]
    rfl
  · rw [hnames, Report.ofExcept_ok, Report.pure_bind]
    rfl

theorem knownEntries_of_not_hasTextKeys (h : ¬ file.HasTextKeys) :
    knownEntries path file = .fail (.wrongType "a text key") := by
  have hunknown := mt hasTextKeys_iff_unknown.mpr h
  simp only [knownEntries]
  split
  · next hnone =>
    -- without such keys there is none that is no text
    rw [List.isEmpty_iff.mp hnone] at hunknown
    exact absurd (by simp) hunknown
  · rw [mapM_keyName_of_not_texts hunknown]
    rfl

/-- A document is merged by what is under the names of the parts. -/
theorem merged_congr
    (h : ∀ name ∈ keys, full.find? (.text name) = file.find? (.text name)) :
    merged full = merged file := by
  simp only [keys, List.forall_mem_cons] at h
  obtain ⟨henabled, hlimit, hseverities, hruleConfigs, -⟩ := h
  rw [merged, merged, partOr, partOr, partOr, partOr, mergedSeverities, mergedSeverities,
    mergedRuleConfigs, mergedRuleConfigs, henabled, hlimit, hseverities, hruleConfigs]

theorem find?_filter_isKnownKey {name : String} (h : name ∈ keys) :
    find? (file.filter (fun e => isKnownKey e.1)) (.text name) = file.find? (.text name) := by
  rw [find?, find?, List.find?_filter]
  congr 2
  funext e
  by_cases hsame : e.1.sameKey (.text name) = true
  · have hknown : isKnownKey e.1 = true := by
      rw [Value.sameKey_text_iff.mp hsame]
      exact isKnownKey_text h
    simp [hsame, hknown]
  · simp [hsame]

theorem outcome_ofValue_of_hasTextKeys (h : file.HasTextKeys) :
    (ofValue policies path (.map file)).outcome =
      merged file >>= fun c => (validated policies path c).outcome >>= fun c => .ok c.complete := by
  have hmerged : merged (file.filter (fun e => isKnownKey e.1)) = merged file :=
    merged_congr fun name hname => find?_filter_isKnownKey hname
  rw [ofValue_map, Report.outcome_bind, outcome_knownEntries h, Fault.ok_bind, hmerged,
    Report.outcome_bind]
  simp only [Report.outcome_bind]
  rfl

theorem ofValue_of_not_hasTextKeys (h : ¬ file.HasTextKeys) :
    ofValue policies path (.map file) = .fail (.wrongType "a text key") := by
  rw [ofValue_map, knownEntries_of_not_hasTextKeys h]
  rfl

theorem ofDocument_of_not_hasTextKeys (h : ¬ file.HasTextKeys) :
    ofDocument policies path (.ok (.map file)) =
      { log := [.loadFailed path (.wrongType "a text key")], outcome := .ok default } := by
  rw [ofDocument_ok, ofValue_of_not_hasTextKeys h]
  rfl

/-- Whether a document is made up for by the defaults is decided by its fault alone. -/
theorem outcome_orDefault (path : String) (r : Report Config) :
    (orDefault path r).outcome =
      match r.outcome with
      | .ok c => .ok c
      | .error fault => if isExpected fault then .ok default else .error fault := by
  rw [orDefault]
  cases houtcome : r.outcome with
  | ok c => exact houtcome
  | error fault =>
    dsimp only
    split
    · rfl
    · exact houtcome

/-- What is loaded depends on what is under the names of the parts, and on whether all keys
are texts. -/
theorem outcome_ofDocument_congr
    (hparts : ∀ name ∈ keys, full.find? (.text name) = file.find? (.text name))
    (htexts : full.HasTextKeys ↔ file.HasTextKeys) :
    (ofDocument policies path (.ok (.map full))).outcome =
      (ofDocument policies path (.ok (.map file))).outcome := by
  by_cases h : file.HasTextKeys
  · have hvalue : (ofValue policies path (.map full)).outcome =
        (ofValue policies path (.map file)).outcome := by
      rw [outcome_ofValue_of_hasTextKeys h, outcome_ofValue_of_hasTextKeys (htexts.mpr h),
        merged_congr hparts]
    rw [ofDocument_ok, ofDocument_ok, outcome_orDefault, outcome_orDefault, hvalue]
  · rw [ofDocument_of_not_hasTextKeys h, ofDocument_of_not_hasTextKeys (mt htexts.mp h)]

/-- **Entries whose keys mean nothing can be added to a document if their keys are texts,**
in any place. The same configuration is loaded then. If one of the keys is no text the
default configuration is loaded, so that what the document gives is lost. -/
theorem outcome_ofDocument_of_extra (policies : Policies) (path : String)
    {file extra full : Entries} (hextra : ∀ e ∈ extra, isKnownKey e.1 = false)
    (hkeys : full.HasDistinctKeys) (hfull : full.Perm (file.merge extra)) :
    let loaded (entries : Entries) := ofDocument policies path (.ok (.map entries))
    (extra.HasTextKeys → (loaded full).outcome = (loaded file).outcome) ∧
      (¬ extra.HasTextKeys → loaded full =
        { log := [.loadFailed path (.wrongType "a text key")], outcome := .ok default }) ∧
      ((loaded full).outcome = (loaded file).outcome ↔
        extra.HasTextKeys ∨ (loaded file).outcome = .ok default) ∧
      ∀ yaml files files' directory, Holds yaml files directory path (.map file) →
        Holds yaml files' directory path (.map full) →
          ((load yaml policies files' directory path).outcome =
              (load yaml policies files directory path).outcome ↔
            extra.HasTextKeys ∨
              (load yaml policies files directory path).outcome = .ok default) := by
  intro loaded
  have htexts : full.HasTextKeys ↔ file.HasTextKeys ∧ extra.HasTextKeys := by
    rw [← hasTextKeys_merge_iff]
    exact ⟨.of_perm hfull, .of_perm hfull.symm⟩
  have hparts : ∀ name ∈ keys, full.find? (.text name) = file.find? (.text name) := by
    intro name hname
    rw [find?_text_of_perm hfull hkeys]
    refine find?_merge_text_of_ne ?_
    intro e he htext
    have hunknown := hextra e he
    rw [htext, isKnownKey_text hname] at hunknown
    cases hunknown
  have hkept : extra.HasTextKeys → (loaded full).outcome = (loaded file).outcome :=
    fun hextraTexts => outcome_ofDocument_congr hparts (htexts.trans (and_iff_left hextraTexts))
  have hlost : ¬ extra.HasTextKeys → loaded full =
      { log := [.loadFailed path (.wrongType "a text key")], outcome := .ok default } :=
    fun hno => ofDocument_of_not_hasTextKeys fun hall => hno (htexts.mp hall).2
  have hsame : (loaded full).outcome = (loaded file).outcome ↔
      extra.HasTextKeys ∨ (loaded file).outcome = .ok default := by
    by_cases hextraTexts : extra.HasTextKeys
    · exact iff_of_true (hkept hextraTexts) (.inl hextraTexts)
    · rw [hlost hextraTexts, or_iff_right hextraTexts, eq_comm]
  refine ⟨hkept, hlost, hsame, ?_⟩
  intro yaml files files' directory hfile hfile'
  rw [load_of_holds hfile, load_of_holds hfile']
  exact hsame

/-- A document that only gives a limit changes the limit of the default configuration. -/
theorem outcome_ofDocument_limit (hdefault : Policy.defaultName ∈ policies.names) {n : Nat}
    (hpos : 1 ≤ n) :
    (ofDocument policies path (.ok (.map [(.text "max_findings_per_file", .int n)]))).outcome =
      .ok { default with maxFindings := .int n } := by
  have hvalid : IsValid policies { default with maxFindings := .int n } :=
    { default_isValid hdefault with maxFindings := ⟨n, rfl, hpos⟩ }
  have hknown : ∀ e ∈ [(Value.text "max_findings_per_file", Value.int n)],
      isKnownKey e.1 = true := by
    simp [isKnownKey, keys, Value.isText]
  have henabled : default.enabledRules ≠ .null := by
    simp [default, everyRule]
  exact outcome_ofDocument_of_ok
    (congrArg Report.outcome (ofValue_eq_pure hknown rfl hvalid henabled path))

/-- A colour in front of the limit of findings does not matter. -/
theorem outcome_ofDocument_of_extra_colour :
    let limit : Entries := [(.text "max_findings_per_file", .int 5)]
    let extra : Entries := [(.text "colour", .text "blue")]
    let full := extra ++ limit
    let loaded (entries : Entries) := ofDocument .builtin "stricteq.yml" (.ok (.map entries))
    (∀ e ∈ extra, isKnownKey e.1 = false) ∧ full.HasDistinctKeys ∧
      full.Perm (limit.merge extra) ∧ extra.HasTextKeys ∧
      (loaded full).outcome = (loaded limit).outcome ∧
      (loaded full).outcome = .ok { default with maxFindings := .int 5 } := by
  intro limit extra full loaded
  have hextra : ∀ e ∈ extra, isKnownKey e.1 = false := by
    simp [extra, isKnownKey, keys, Value.isText]
  have hkeys : full.HasDistinctKeys := by
    refine ⟨?_, ?_⟩
    · simp [full, extra, limit, Value.isKey]
    · simp [full, extra, limit, Value.sameKey]
  have hfull : full.Perm (limit.merge extra) := List.perm_append_comm
  have htexts : extra.HasTextKeys := by
    simp [HasTextKeys, extra]
  have hlimit : (loaded limit).outcome = .ok { default with maxFindings := .int 5 } :=
    outcome_ofDocument_limit (Policies.defaultName_mem_names []) (by decide)
  obtain ⟨hkept, -⟩ := outcome_ofDocument_of_extra .builtin "stricteq.yml" hextra hkeys hfull
  exact ⟨hextra, hkeys, hfull, htexts, hkept htexts, (hkept htexts).trans hlimit⟩

/-- A flag for a key, which is what the word `on` is read as, makes the limit of findings
be lost. -/
theorem outcome_ofDocument_flagKey :
    let limit : Entries := [(.text "max_findings_per_file", .int 5)]
    let extra : Entries := [(.bool true, .null)]
    let full := limit ++ extra
    let loaded (entries : Entries) := ofDocument .builtin "stricteq.yml" (.ok (.map entries))
    (∀ e ∈ extra, isKnownKey e.1 = false) ∧ full.HasDistinctKeys ∧
      full.Perm (limit.merge extra) ∧
      (loaded limit).outcome = .ok { default with maxFindings := .int 5 } ∧
      (loaded full).outcome = .ok default ∧ (loaded full).outcome ≠ (loaded limit).outcome := by
  intro limit extra full loaded
  have hlimit : (loaded limit).outcome = .ok { default with maxFindings := .int 5 } :=
    outcome_ofDocument_limit (Policies.defaultName_mem_names []) (by decide)
  have hfull : (loaded full).outcome = .ok default := by
    have hno : ¬ full.HasTextKeys := by
      intro hall
      obtain ⟨s, hs⟩ := hall (.bool true, .null) (List.mem_append_right limit List.mem_cons_self)
      cases hs
    show (ofDocument _ _ (.ok (.map full))).outcome = _
    rw [ofDocument_of_not_hasTextKeys hno]
  refine ⟨?_, ⟨?_, ?_⟩, .refl _, hlimit, hfull, ?_⟩
  · simp [extra, isKnownKey, keys, Value.isText]
  · simp [full, extra, limit, Value.isKey]
  · simp [full, extra, limit, Value.sameKey, Value.integer?]
  · rw [hfull, hlimit]
    intro hsame
    simpa [default, defaultLimit] using congrArg Config.maxFindings (Except.ok.inj hsame)

end Config

end StrictEquality
