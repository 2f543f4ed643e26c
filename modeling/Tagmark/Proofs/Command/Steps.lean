import Tagmark.Command.Run
import Tagmark.Proofs.Files.Path

/-!
Steps of a run. A step that does not write comes to a result and leaves the files as they are, also
where it fails (`Attempt.KeepsFiles`), and so do such steps one after the other. Every action but the
rendering to a file is made of them (`Command.keepsFiles_act`).
-/

namespace Tagmark

namespace Attempt

variable {α β : Type} {files : Files}

/-- The step comes to a result from these files and leaves them, whatever was noted before. -/
def Gives (attempt : Attempt α) (files : Files) (result : Except Failure α) : Prop :=
  ∀ notes, ∃ later, attempt ⟨files, notes⟩ =
    match result with
    | .ok value => .ok value ⟨files, later⟩
    | .error failure => .error failure ⟨files, later⟩

theorem gives_pure (files : Files) (value : α) : (pure value : Attempt α).Gives files (.ok value) :=
  fun notes => ⟨notes, rfl⟩

theorem gives_reading (look : Files → Noted Failure α) (files : Files) :
    (reading look).Gives files (look files).result := by
  intro notes
  refine ⟨notes ++ (look files).notes, ?_⟩
  unfold reading
  dsimp only
  cases (look files).result <;> rfl

namespace Gives

variable {first : Attempt α} {next : α → Attempt β}

theorem bind_ok {value : α} (hfirst : first.Gives files (.ok value)) {result : Except Failure β}
    (hnext : (next value).Gives files result) : (first >>= next).Gives files result := by
  intro notes
  obtain ⟨middle, hmiddle⟩ := hfirst notes
  obtain ⟨later, hlater⟩ := hnext middle
  refine ⟨later, ?_⟩
  rw [← hlater]
  change EStateM.bind first next ⟨files, notes⟩ = _
  rw [EStateM.bind, hmiddle]

theorem bind_error {failure : Failure} (hfirst : first.Gives files (.error failure)) :
    (first >>= next).Gives files (.error failure) := by
  intro notes
  obtain ⟨later, hlater⟩ := hfirst notes
  refine ⟨later, ?_⟩
  change EStateM.bind first next ⟨files, notes⟩ = _
  rw [EStateM.bind, hlater]

end Gives

def KeepsFiles (attempt : Attempt α) : Prop :=
  ∀ files, ∃ result, attempt.Gives files result

theorem KeepsFiles.bind {first : Attempt α} {next : α → Attempt β} (hfirst : first.KeepsFiles)
    (hnext : ∀ value, (next value).KeepsFiles) : (first >>= next).KeepsFiles := by
  intro files
  obtain ⟨result, hgives⟩ := hfirst files
  cases result with
  | error failure => exact ⟨_, hgives.bind_error⟩
  | ok value =>
      obtain ⟨result, hresult⟩ := hnext value files
      exact ⟨_, hgives.bind_ok hresult⟩

end Attempt

namespace Command

open Attempt

variable {environment : Environment} {files : Files}

/-- The command with another action. -/
def doing (command : Command) (action : Action) : Command :=
  { command with action := some action }

section

variable (command : Command) {action : Action} (haction : command.action = some action)

include haction

theorem runBy_of_gives_ok {effect : Effect}
    (hact : (act environment (environment.coloured && !command.plain) command.config action).Gives
      files (.ok effect)) :
    let outcome := command.runBy environment files
    outcome.files = files ∧ outcome.output = effect.output ∧ outcome.ending = effect.ending := by
  obtain ⟨notes, hrun⟩ := hact []
  rw [runBy, haction]
  dsimp only
  rw [hrun]
  exact ⟨rfl, rfl, rfl⟩

theorem runBy_of_gives_error {failure : Failure}
    (hact : (act environment (environment.coloured && !command.plain) command.config action).Gives
      files (.error failure)) :
    let outcome := command.runBy environment files
    outcome.files = files ∧ outcome.ending = .failure failure := by
  obtain ⟨notes, hrun⟩ := hact []
  rw [runBy, haction]
  dsimp only
  rw [hrun]
  exact ⟨rfl, rfl⟩

end

end Command

end Tagmark
