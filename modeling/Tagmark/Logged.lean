import Tagmark.Fault

/-!
Results with a log. A computation that fails keeps what it has logged before.
-/

namespace Tagmark

universe u v

/-- What is worth noting while documents are processed. -/
inductive Note where
  | skippedRow (row delimiter : String)
  | overriddenTag (name : String)
  | transforming (name : String) (line children : Nat)
deriving DecidableEq, Inhabited, Repr

namespace Note

def isWarning : Note → Bool
  | .skippedRow _ _ => true
  | _ => false

def message : Note → String
  | .skippedRow _ _ => "skipping datasource row without a name, type and path"
  | .overriddenTag _ => "overriding tag definition"
  | .transforming _ _ _ => "transforming tag"

/-- What a note is about, by name. -/
def fields : Note → List (String × String)
  | .skippedRow row delimiter => [("line", row), ("delimiter", delimiter)]
  | .overriddenTag name => [("tag", name)]
  | .transforming name line children =>
      [("tag", name), ("line", toString line), ("children", toString children)]

end Note

/-- A result, or the reason `ε` why there is none, with the notes that were taken. -/
structure Noted (ε : Type) (α : Type u) where
  notes : List Note
  result : Except ε α

abbrev Logged (α : Type u) := Noted Fault α

namespace Noted

variable {ε : Type} {α : Type u} {β : Type v}

protected def pure (value : α) : Noted ε α :=
  ⟨[], .ok value⟩

protected def bind (first : Noted ε α) (next : α → Noted ε β) : Noted ε β :=
  match first.result with
  | .error fault => ⟨first.notes, .error fault⟩
  | .ok value => ⟨first.notes ++ (next value).notes, (next value).result⟩

instance : Monad (Noted ε) where
  pure := Noted.pure
  bind := Noted.bind

def ofExcept (result : Except ε α) : Noted ε α :=
  ⟨[], result⟩

def note (note : Note) : Noted ε PUnit :=
  ⟨[note], .ok ⟨⟩⟩

def noteAll (notes : List Note) : Noted ε PUnit :=
  ⟨notes, .ok ⟨⟩⟩

/-- Goes on whether there is a result or not. -/
def settled {δ : Type} (first : Noted ε α) : Noted δ (Except ε α) :=
  ⟨first.notes, .ok first.result⟩

/-- The same with another kind of reason. -/
def mapReason {δ : Type} (f : ε → δ) (first : Noted ε α) : Noted δ α :=
  ⟨first.notes, first.result.mapError f⟩

@[simp] theorem bind_pure (value : α) (next : α → Noted ε β) :
    Noted.bind (Noted.pure value) next = next value := rfl

theorem bind_of_ok {γ : Type u} {first : Noted ε α} {value : α} (hfirst : first.result = .ok value)
    (next : α → Noted ε γ) :
    (first >>= next) = ⟨first.notes ++ (next value).notes, (next value).result⟩ := by
  obtain ⟨notes, result⟩ := first
  cases hfirst
  rfl

theorem bind_of_error {γ : Type u} {first : Noted ε α} {fault : ε}
    (hfirst : first.result = .error fault) (next : α → Noted ε γ) :
    (first >>= next) = ⟨first.notes, .error fault⟩ := by
  obtain ⟨notes, result⟩ := first
  cases hfirst
  rfl

theorem bind_pure_comp {γ : Type u} (first : Noted ε α) (f : α → γ) :
    (first >>= fun value => Noted.pure (f value)) = ⟨first.notes, first.result.map f⟩ := by
  obtain ⟨notes, result⟩ := first
  cases result with
  | error fault => rfl
  | ok value => exact congrArg (Noted.mk · (.ok (f value))) (List.append_nil notes)

theorem mem_notes_bind {γ : Type u} {first : Noted ε α} {next : α → Noted ε γ} {note : Note}
    (hmem : note ∈ (first >>= next).notes) :
    note ∈ first.notes ∨ ∃ value, note ∈ (next value).notes := by
  cases hfirst : first.result with
  | error fault =>
      rw [bind_of_error hfirst] at hmem
      exact .inl hmem
  | ok value =>
      rw [bind_of_ok hfirst] at hmem
      exact (List.mem_append.1 hmem).imp_right fun hnext => ⟨value, hnext⟩

theorem result_bind {γ : Type u} (first : Noted ε α) (next : α → Noted ε γ) :
    (first >>= next).result = first.result.bind fun value => (next value).result := by
  obtain ⟨notes, result⟩ := first
  cases result <;> rfl

theorem result_bind_eq_ok {γ : Type u} {first : Noted ε α} {next : α → Noted ε γ} {last : γ} :
    (first >>= next).result = .ok last ↔
      ∃ value, first.result = .ok value ∧ (next value).result = .ok last := by
  obtain ⟨notes, result⟩ := first
  cases result with
  | error fault => simp [bind, Noted.bind]
  | ok value => simp [bind, Noted.bind]

end Noted

end Tagmark
