import Tagmark.Registry

/-!
What it takes to write definitions over a registry. Writing the definitions of a map notes each name
that is already there once, in the order of names (`Registry.registerAll_entries`), so that a merge is
a map written over a map (`Registry.merge_eq`).
-/

namespace Tagmark.Registry

theorem registerAll_cons (registry : Registry) (name : String) (definition : Definition)
    (rest : List (String × Definition)) :
    registry.registerAll ((name, definition) :: rest) =
      registry.register name definition >>= fun written => written.registerAll rest := rfl

theorem registerAll_of_ascending (registry : Registry) {definitions : List (String × Definition)}
    (hascending : definitions.Pairwise fun left right => left.1 < right.1) :
    registry.registerAll definitions =
      ⟨((definitions.map (·.1)).filter registry.contains).map .overriddenTag,
        .ok (registry.insertAll definitions)⟩ := by
  induction definitions generalizing registry with
  | nil => rfl
  | cons entry rest induction =>
      obtain ⟨name, definition⟩ := entry
      obtain ⟨hfirst, hrest⟩ := List.pairwise_cons.1 hascending
      have hcontains : (rest.map (·.1)).filter (registry.insert name definition).contains =
          (rest.map (·.1)).filter registry.contains := by
        refine List.filter_congr fun other hmem => ?_
        obtain ⟨later, hlater, rfl⟩ := List.mem_map.1 hmem
        have hne : later.1 ≠ name := fun heq => String.lt_irrefl _ (heq ▸ hfirst later hlater)
        simp [KeyMap.contains, hne]
      have hnext := induction (registry.insert name definition) hrest
      rw [hcontains] at hnext
      rw [registerAll_cons]
      change Noted.bind (registry.register name definition) _ = _
      rw [Noted.bind, register]
      dsimp only
      rw [hnext, List.map_cons, List.filter_cons]
      split <;> rfl

theorem registerAll_entries (registry : Registry) (tags : KeyMap Definition) :
    registry.registerAll tags.entries =
      ⟨(tags.names.filter registry.contains).map .overriddenTag,
        .ok (registry.insertAll tags.entries)⟩ :=
  registerAll_of_ascending registry tags.ascending

theorem merge_eq (registry other : Registry) :
    registry.merge other =
      ⟨(other.names.filter registry.contains).map .overriddenTag,
        .ok (registry.insertAll other.entries)⟩ :=
  registerAll_entries registry other

theorem registerAll_empty (tags : KeyMap Definition) :
    (∅ : Registry).registerAll tags.entries = .pure tags := by
  have hnone : tags.names.filter (∅ : Registry).contains = [] :=
    List.filter_eq_nil_iff.2 fun _ _ => Bool.false_ne_true
  rw [registerAll_entries, hnone, KeyMap.insertAll_entries]
  rfl

theorem registerAll_builtinTags : (∅ : Registry).registerAll builtinTags = .pure builtin := rfl

theorem extended_eq (tags : KeyMap Definition) : extended tags = builtin.merge tags := by
  rw [extended, registerAll_empty]
  rfl

theorem exists_extended (tags : KeyMap Definition) :
    ∃ registry, (extended tags).result = .ok registry ∧
      ∀ name, registry.get? name = (tags.get? name).or (builtin.get? name) := by
  refine ⟨builtin.insertAll tags.entries, ?_, KeyMap.get?_insertAll_entries builtin tags⟩
  rw [extended_eq, merge_eq]

end Tagmark.Registry
