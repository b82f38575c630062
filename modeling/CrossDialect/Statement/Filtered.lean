import CrossDialect.Statement.Select
import CrossDialect.Statement.Update
import CrossDialect.Statement.Delete

/-!
Statements with a WHERE clause take conditions in the same ways.
-/

namespace CrossDialect

class Filtered (σ : Type) where
  filter : σ → PredicateSet
  withFilter : σ → PredicateSet → σ

instance : Filtered Select where
  filter := Select.filter
  withFilter s filter := { s with filter }

instance : Filtered Update where
  filter := Update.filter
  withFilter u filter := { u with filter }

instance : Filtered Delete where
  filter := Delete.filter
  withFilter x filter := { x with filter }

namespace Filtered

variable {σ : Type} [Filtered σ]

def edit (s : σ) (f : PredicateSet → Edited PredicateSet) : Edited σ :=
  (f (filter s)).map (withFilter s)

def andWhere (s : σ) (c : Criterion) : Edited σ := edit s (·.andAdd c)

def orWhere (s : σ) (c : Criterion) : Edited σ := edit s (·.orAdd c)

def whereMap (s : σ) (entries : List (String × Value)) : Edited σ := edit s (·.addMap entries)

end Filtered

end CrossDialect
