/-
Template names that are written with other letter cases and other blanks, and
what the filter makes of them.
-/
import Citescoop.OpenParameters

namespace Citescoop

section Reading

variable {before name body after outer front : Text}

end Reading

section Filters

variable (options : ParserOptions)

end Filters

section Parameters

end Parameters

section Spelling

variable {before name name' body after outer front : Text} (options : ParserOptions)

end Spelling

end Citescoop
