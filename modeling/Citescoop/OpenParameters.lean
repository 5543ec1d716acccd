/-
Templates that are still open where another one begins: what is read in front of the
name of a template, and what becomes of a name that ends up in a parameter.
-/
import Citescoop.ParameterOrder
import Citescoop.Truncation

namespace Citescoop

open ExceptFold

section Values

end Values

section Writes

variable {param param' : ParameterEntry} {earlier later : List ParameterEntry} (name : Text)

end Writes

section Open

variable {key value name name' : Text} {k : ParamKey}

variable (options : ParserOptions)

end Open

end Citescoop
