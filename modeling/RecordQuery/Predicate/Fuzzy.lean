import RecordQuery.Fuzzy
import RecordQuery.Predicate

/-!
# Fuzzy predicates

Fuzzy matching as a predicate on values. Only strings can match.
-/

namespace RecordQuery

variable {S : Type} [Scale S]

/-- Whether a value is a string that matches the reference well enough. -/
def Fuzzy.Options.acceptsValue (options : Fuzzy.Options S) (reference : String) : Value → Bool
  | .str text => options.accepts reference text
  | _ => false

/-- The value is a string that matches the reference under the given options. -/
def Predicate.fuzzy {m : Type → Type} [Monad m] (options : Fuzzy.Options S) (reference : String) :
    Predicate m :=
  .ofBool (options.acceptsValue reference)

end RecordQuery
