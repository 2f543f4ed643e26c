/-!
Finite maps from names, kept in the order of their names. Two maps with the same values are equal
(`ext_get?`), and an insertion changes one name only (`get?_insert`).
-/

namespace Tagmark

universe u v

abbrev KeyMap.Entries (α : Type u) := List (String × α)

/-- A map from names to `α`, with its entries in the order of their names. -/
structure KeyMap (α : Type u) where
  entries : List (String × α)
  ascending : entries.Pairwise (fun left right => left.1 < right.1)

namespace KeyMap

variable {α : Type u} {β : Type v}

theorem name_lt_trichotomy (left right : String) : left < right ∨ left = right ∨ right < left := by
  by_cases hlt : left < right
  · exact .inl hlt
  · by_cases hgt : right < left
    · exact .inr (.inr hgt)
    · exact .inr (.inl (String.le_antisymm (String.not_lt.1 hgt) (String.not_lt.1 hlt)))

def Entries.insert (name : String) (value : α) : Entries α → Entries α
  | [] => [(name, value)]
  | entry :: rest =>
      if name < entry.1 then (name, value) :: entry :: rest
      else if name = entry.1 then (name, value) :: rest
      else entry :: Entries.insert name value rest

theorem Entries.name_of_mem_insert {name : String} {value : α} {entries : Entries α}
    {entry : String × α} (hmem : entry ∈ Entries.insert name value entries) :
    entry = (name, value) ∨ entry ∈ entries := by
  induction entries with
  | nil => exact .inl (by simpa [Entries.insert] using hmem)
  | cons head tail induction =>
      unfold Entries.insert at hmem
      split at hmem
      · simpa using hmem
      · split at hmem
        · rcases List.mem_cons.1 hmem with heq | htail
          · exact .inl heq
          · exact .inr (List.mem_cons_of_mem _ htail)
        · rcases List.mem_cons.1 hmem with rfl | htail
          · exact .inr List.mem_cons_self
          · rcases induction htail with heq | hold
            · exact .inl heq
            · exact .inr (List.mem_cons_of_mem _ hold)

theorem Entries.ascending_insert (name : String) (value : α) {entries : Entries α}
    (hascending : entries.Pairwise (fun left right => left.1 < right.1)) :
    (Entries.insert name value entries).Pairwise (fun left right => left.1 < right.1) := by
  induction entries with
  | nil => simp [Entries.insert]
  | cons head tail induction =>
      obtain ⟨hhead, htail⟩ := List.pairwise_cons.1 hascending
      unfold Entries.insert
      split
      · next hbefore =>
          refine List.pairwise_cons.2 ⟨fun entry hmem => ?_, hascending⟩
          rcases List.mem_cons.1 hmem with rfl | hrest
          · exact hbefore
          · exact String.lt_trans hbefore (hhead entry hrest)
      · next hbefore =>
          split
          · next heq =>
              exact List.pairwise_cons.2 ⟨fun entry hmem => heq ▸ hhead entry hmem, htail⟩
          · next hne =>
              refine List.pairwise_cons.2 ⟨fun entry hmem => ?_, induction htail⟩
              rcases Entries.name_of_mem_insert hmem with rfl | hold
              · rcases name_lt_trichotomy name head.1 with hlt | heq | hgt
                · exact absurd hlt hbefore
                · exact absurd heq hne
                · exact hgt
              · exact hhead entry hold

def empty : KeyMap α := ⟨[], .nil⟩

instance : EmptyCollection (KeyMap α) := ⟨empty⟩

instance : Inhabited (KeyMap α) := ⟨empty⟩

instance [DecidableEq α] : DecidableEq (KeyMap α) := fun left right =>
  if hentries : left.entries = right.entries then
    .isTrue (by cases left; cases right; cases hentries; rfl)
  else
    .isFalse fun heq => hentries (heq ▸ rfl)

def insert (map : KeyMap α) (name : String) (value : α) : KeyMap α :=
  ⟨Entries.insert name value map.entries, Entries.ascending_insert name value map.ascending⟩

def insertAll (map : KeyMap α) (entries : List (String × α)) : KeyMap α :=
  entries.foldl (fun map entry => map.insert entry.1 entry.2) map

def ofList (entries : List (String × α)) : KeyMap α :=
  empty.insertAll entries

def map (f : α → β) (source : KeyMap α) : KeyMap β :=
  ⟨source.entries.map fun entry => (entry.1, f entry.2),
    List.Pairwise.map _ (fun _ _ hlt => hlt) source.ascending⟩

def filter (p : String → α → Bool) (source : KeyMap α) : KeyMap α :=
  ⟨source.entries.filter fun entry => p entry.1 entry.2, source.ascending.filter _⟩

def get? (source : KeyMap α) (name : String) : Option α :=
  source.entries.lookup name

def contains (source : KeyMap α) (name : String) : Bool :=
  (source.get? name).isSome

def names (source : KeyMap α) : List String :=
  source.entries.map (·.1)

def size (source : KeyMap α) : Nat :=
  source.entries.length

def isEmpty (source : KeyMap α) : Bool :=
  source.entries.isEmpty

@[simp] theorem get?_empty (name : String) : (empty : KeyMap α).get? name = none := rfl

theorem Entries.lookup_insert (name other : String) (value : α) {entries : Entries α}
    (hascending : entries.Pairwise (fun left right => left.1 < right.1)) :
    (Entries.insert name value entries).lookup other =
      if other = name then some value else entries.lookup other := by
  induction entries with
  | nil =>
      by_cases h : other = name
      · simp [Entries.insert, h]
      · simp [Entries.insert, List.lookup_cons, beq_false_of_ne h, h]
  | cons head tail induction =>
      obtain ⟨headName, headValue⟩ := head
      have htail := induction (List.pairwise_cons.1 hascending).2
      unfold Entries.insert
      split
      · by_cases h : other = name
        · simp [h]
        · simp [List.lookup_cons, beq_false_of_ne h, h]
      · split
        · next heq =>
            simp only at heq
            subst heq
            by_cases h : other = name
            · simp [h]
            · simp [List.lookup_cons, beq_false_of_ne h, h]
        · next hne =>
            by_cases h : other = headName
            · subst h
              have hne' : ¬ other = name := fun heq => hne heq.symm
              simp [hne']
            · simp only [List.lookup_cons, beq_false_of_ne h]
              exact htail

@[simp] theorem get?_insert (source : KeyMap α) (name other : String) (value : α) :
    (source.insert name value).get? other =
      if other = name then some value else source.get? other :=
  Entries.lookup_insert name other value source.ascending

theorem Entries.lookup_eq_some_iff {entries : Entries α}
    (hascending : entries.Pairwise (fun left right => left.1 < right.1))
    {name : String} {value : α} :
    entries.lookup name = some value ↔ (name, value) ∈ entries := by
  induction entries with
  | nil => simp
  | cons head tail induction =>
      obtain ⟨headName, headValue⟩ := head
      obtain ⟨hhead, htail⟩ := List.pairwise_cons.1 hascending
      by_cases h : name = headName
      · subst h
        have habsent : ∀ other, (name, other) ∉ tail := fun other hmem =>
          String.lt_irrefl name (hhead (name, other) hmem)
        simp [habsent, eq_comm]
      · simp [List.lookup_cons, beq_false_of_ne h, h, induction htail]

theorem get?_eq_some_iff {source : KeyMap α} {name : String} {value : α} :
    source.get? name = some value ↔ (name, value) ∈ source.entries :=
  Entries.lookup_eq_some_iff source.ascending

theorem ext_entries {left right : KeyMap α} (hentries : left.entries = right.entries) :
    left = right := by
  cases left
  cases right
  cases hentries
  rfl

theorem Entries.eq_of_mem_iff {left right : Entries α}
    (hleft : left.Pairwise (fun a b => a.1 < b.1)) (hright : right.Pairwise (fun a b => a.1 < b.1))
    (hmem : ∀ entry, entry ∈ left ↔ entry ∈ right) : left = right := by
  induction left generalizing right with
  | nil =>
      cases right with
      | nil => rfl
      | cons head tail => exact absurd ((hmem head).2 List.mem_cons_self) List.not_mem_nil
  | cons head tail induction =>
      obtain ⟨hhead, htail⟩ := List.pairwise_cons.1 hleft
      cases right with
      | nil => exact absurd ((hmem head).1 List.mem_cons_self) List.not_mem_nil
      | cons head' tail' =>
          obtain ⟨hhead', htail'⟩ := List.pairwise_cons.1 hright
          have hsame : head = head' := by
            rcases List.mem_cons.1 ((hmem head).1 List.mem_cons_self) with heq | hlater
            · exact heq
            · rcases List.mem_cons.1 ((hmem head').2 List.mem_cons_self) with heq | hlater'
              · exact heq.symm
              · exact absurd (hhead' _ hlater) (String.lt_asymm (hhead _ hlater'))
          subst hsame
          congr 1
          refine induction htail htail' fun entry => ⟨fun h => ?_, fun h => ?_⟩
          · rcases List.mem_cons.1 ((hmem entry).1 (List.mem_cons_of_mem _ h)) with rfl | h'
            · exact absurd (hhead _ h) (String.lt_irrefl _)
            · exact h'
          · rcases List.mem_cons.1 ((hmem entry).2 (List.mem_cons_of_mem _ h)) with rfl | h'
            · exact absurd (hhead' _ h) (String.lt_irrefl _)
            · exact h'

/-- Maps that answer every look-up alike are equal. -/
theorem ext_get? {left right : KeyMap α} (hget : ∀ name, left.get? name = right.get? name) :
    left = right := by
  refine ext_entries (Entries.eq_of_mem_iff left.ascending right.ascending fun entry => ?_)
  obtain ⟨name, value⟩ := entry
  rw [← get?_eq_some_iff, ← get?_eq_some_iff, hget]

theorem Entries.lookup_map (f : α → β) (entries : Entries α) (name : String) :
    (entries.map fun entry => (entry.1, f entry.2)).lookup name =
      (entries.lookup name).map f := by
  induction entries with
  | nil => rfl
  | cons head tail induction =>
      obtain ⟨headName, headValue⟩ := head
      by_cases h : name = headName
      · simp [h]
      · simp only [List.map_cons, List.lookup_cons, beq_false_of_ne h]
        exact induction

@[simp] theorem get?_map (f : α → β) (source : KeyMap α) (name : String) :
    (source.map f).get? name = (source.get? name).map f :=
  Entries.lookup_map f source.entries name

theorem Entries.lookup_filter (p : String → α → Bool) {entries : Entries α}
    (hascending : entries.Pairwise (fun left right => left.1 < right.1)) (name : String) :
    (entries.filter fun entry => p entry.1 entry.2).lookup name =
      (entries.lookup name).filter (p name) := by
  refine Option.ext fun value => ?_
  rw [lookup_eq_some_iff (hascending.filter _), List.mem_filter, Option.filter_eq_some_iff,
    lookup_eq_some_iff hascending]

@[simp] theorem get?_filter (p : String → α → Bool) (source : KeyMap α) (name : String) :
    (source.filter p).get? name = (source.get? name).filter (p name) :=
  Entries.lookup_filter p source.ascending name

theorem Entries.insert_of_lt {entries : Entries α} {name : String}
    (hbefore : ∀ entry ∈ entries, entry.1 < name) (value : α) :
    Entries.insert name value entries = entries ++ [(name, value)] := by
  induction entries with
  | nil => rfl
  | cons head tail induction =>
      obtain ⟨hhead, htail⟩ := List.forall_mem_cons.1 hbefore
      have hne : name ≠ head.1 := by
        rintro rfl
        exact String.lt_irrefl _ hhead
      rw [Entries.insert, if_neg (String.lt_asymm hhead), if_neg hne, induction htail]
      rfl

theorem entries_insertAll {map : KeyMap α} {added : List (String × α)}
    (hascending : (map.entries ++ added).Pairwise fun left right => left.1 < right.1) :
    (map.insertAll added).entries = map.entries ++ added := by
  induction added generalizing map with
  | nil => exact (List.append_nil _).symm
  | cons entry rest induction =>
      obtain ⟨-, -, hbefore⟩ := List.pairwise_append.1 hascending
      have hinsert : (map.insert entry.1 entry.2).entries = map.entries ++ [entry] :=
        Entries.insert_of_lt (fun other hmem => hbefore other hmem entry List.mem_cons_self) _
      rw [List.append_cons, ← hinsert] at hascending ⊢
      exact induction hascending

theorem insertAll_entries (source : KeyMap α) :
    (∅ : KeyMap α).insertAll source.entries = source :=
  ext_entries (entries_insertAll source.ascending)

theorem insertAll_append (map : KeyMap α) (front back : List (String × α)) :
    map.insertAll (front ++ back) = (map.insertAll front).insertAll back :=
  List.foldl_append

theorem get?_insertAll (map : KeyMap α) (added : List (String × α)) (name : String) :
    (map.insertAll added).get? name = (added.reverse.lookup name).or (map.get? name) := by
  induction added generalizing map with
  | nil => rfl
  | cons entry rest induction =>
      obtain ⟨entryName, value⟩ := entry
      change ((map.insert entryName value).insertAll rest).get? name = _
      rw [induction, get?_insert, List.reverse_cons, List.lookup_append, Option.or_assoc]
      by_cases h : name = entryName
      · simp [h]
      · simp [List.lookup_cons, beq_false_of_ne h, h]

theorem get?_ofList (entries : List (String × α)) (name : String) :
    (ofList entries).get? name = entries.reverse.lookup name := by
  rw [ofList, get?_insertAll, get?_empty, Option.or_none]

@[simp] theorem get?_insertAll_entries (map other : KeyMap α) (name : String) :
    (map.insertAll other.entries).get? name = (other.get? name).or (map.get? name) := by
  have hentries := get?_insertAll ∅ other.entries name
  rw [insertAll_entries, show (∅ : KeyMap α).get? name = none from rfl, Option.or_none] at hentries
  rw [get?_insertAll, hentries]

theorem insertAll_ofList (map : KeyMap α) (entries : List (String × α)) :
    map.insertAll (ofList entries).entries = map.insertAll entries :=
  ext_get? fun name => by rw [get?_insertAll_entries, get?_ofList, get?_insertAll]

theorem mem_names_iff {source : KeyMap α} {name : String} :
    name ∈ source.names ↔ source.contains name = true := by
  unfold contains names
  rw [Option.isSome_iff_exists]
  constructor
  · intro hmem
    obtain ⟨⟨name', value⟩, hentry, rfl⟩ := List.mem_map.1 hmem
    exact ⟨value, get?_eq_some_iff.2 hentry⟩
  · rintro ⟨value, hvalue⟩
    exact List.mem_map.2 ⟨(name, value), get?_eq_some_iff.1 hvalue, rfl⟩

@[simp] theorem names_map (f : α → β) (source : KeyMap α) : (source.map f).names = source.names := by
  simp [names, map]

theorem ascending_names (source : KeyMap α) : source.names.Pairwise (· < ·) :=
  List.pairwise_map.2 source.ascending

end KeyMap

end Tagmark
