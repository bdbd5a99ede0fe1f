import SourceAudit.Registry

open List

namespace SourceAudit.Registry

theorem place_place {first second : Rule} (same : first.name = second.name) (rules : List Rule) :
    place second (place first rules) = place second rules := by
  induction rules with
  | nil => simp [place, same]
  | cons other rest ih =>
    by_cases here : second.name = other.name
    · simp [place, same, here]
    · by_cases before : second.name < other.name
      · simp [place, same, here, before]
      · simp [place, same, here, before, ih]

theorem insert_insert {first second : Rule} (same : first.name = second.name) (registry : Registry) :
    (registry.insert first).insert second = registry.insert second := by
  unfold insert
  rw [place_place same]

theorem find?_place (rule : Rule) (rules : List Rule) (name : String) :
    (place rule rules).find? (·.name == name) =
      if rule.name = name then some rule else rules.find? (·.name == name) := by
  induction rules with
  | nil =>
    by_cases found : rule.name = name <;> simp [place, found]
  | cons other rest ih =>
    rw [place]
    by_cases here : rule.name = other.name
    · by_cases found : rule.name = name
      · simp [here, ← found]
      · have skipped : other.name ≠ name := here ▸ found
        simp [here, skipped]
    · rw [if_neg here]
      by_cases before : rule.name < other.name
      · rw [if_pos before]
        by_cases found : rule.name = name <;> simp [found]
      · rw [if_neg before, List.find?_cons, List.find?_cons, ih]
        by_cases found : rule.name = name
        · have skipped : (other.name == name) = false := by
            rw [beq_eq_false_iff_ne]
            exact fun same => here (found.trans same.symm)
          simp [found, skipped]
        · simp [found]

theorem find?_insert (registry : Registry) (rule : Rule) (name : String) :
    (registry.insert rule).find? name = if rule.name = name then some rule else registry.find? name :=
  find?_place rule registry.rules name

variable {registry : Registry} {name : String} {rule : Rule}

theorem name_of_find? (found : registry.find? name = some rule) : rule.name = name := by
  have passes := List.find?_some found
  simpa using passes

theorem mem_names : name ∈ registry.names ↔ registry.contains name = true := by
  simp [names, contains, find?]

theorem contains_foldl (rules : List Rule) (registry : Registry) (name : String) :
    (rules.foldl insert registry).contains name = true ↔
      registry.contains name = true ∨ ∃ rule ∈ rules, rule.name = name := by
  induction rules generalizing registry with
  | nil => simp
  | cons first rest ih =>
    rw [foldl_cons, ih, contains, find?_insert]
    by_cases here : first.name = name <;> simp [here, contains]

theorem contains_ofRules (rules : List Rule) (name : String) :
    (ofRules rules).contains name = true ↔ ∃ rule ∈ rules, rule.name = name := by
  rw [ofRules, contains_foldl]
  simp [contains, find?]

theorem mem_select_names (names : List String) :
    name ∈ (registry.select names).map (·.name) ↔ name ∈ names ∧ registry.contains name = true := by
  simp only [select, mem_map, mem_filterMap, mem_eraseDups]
  constructor
  · rintro ⟨rule, ⟨chosen, member, found⟩, rfl⟩
    rw [← name_of_find? found] at member found
    exact ⟨member, by simp [contains, found]⟩
  · rintro ⟨member, registered⟩
    obtain ⟨rule, found⟩ := Option.isSome_iff_exists.mp registered
    exact ⟨rule, ⟨name, member, found⟩, name_of_find? found⟩

theorem mem_batches_rule (program : Program) (names : List String) :
    name ∈ (registry.batches program names).map (·.rule) ↔ name ∈ names ∧ registry.contains name = true := by
  rw [← mem_select_names, batches, map_map]
  rfl

theorem batch_mem (program : Program) {names : List String} (chosen : name ∈ names)
    (found : registry.find? name = some rule) : Batch.ofRule program rule ∈ registry.batches program names :=
  mem_map_of_mem (mem_filterMap.mpr ⟨name, mem_eraseDups.mpr chosen, found⟩)

end SourceAudit.Registry
