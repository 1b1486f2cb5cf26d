import Mathlib

/-!
# Quoted literals

A literal ends at its closing quote, and a quote in its text is written twice. A text that is put
between two quotes as it is reads back as itself exactly if it contains no quote.
-/

namespace QuotedLiterals

variable {α : Type}

variable [DecidableEq α] (q : α)

variable {q}

end QuotedLiterals
