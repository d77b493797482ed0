import ForecastJob.Text.Blank

/-!
# Binding expressions

Inside a pipeline a setting can name a value that only the enclosing pipeline knows, as in
`${{parent.inputs.metric}}`.

* `Binding.path?` : the path between the braces of a text that is one binding expression;
* `Binding.isExpression` : such a path whose first segment is one of the given namespaces;
* `Binding.isParent` : a binding to the enclosing pipeline.
-/

namespace ForecastJob.Binding

def opening : List Char := ['$', '{', '{']

def closing : List Char := ['}', '}']

/-- A path is not empty and holds neither blanks nor braces. -/
def isPath (cs : List Char) : Bool :=
  !cs.isEmpty && cs.all fun c => !(Text.isBlank c || c == '{' || c == '}')

/-- The path of a text that is one binding expression. Blanks around the expression and just
inside its braces do not count. -/
def path? (s : String) : Option (List Char) := do
  let rest ← Text.dropFront? opening (Text.trimChars s.toList)
  let inner ← Text.dropBack? closing rest
  let path := Text.trimChars inner
  if isPath path then some path else none

/-- The first segment of a path. -/
def head (path : List Char) : String :=
  String.ofList (path.takeWhile (· != '.'))

/-- The text is a binding expression to one of the namespaces; no namespaces mean any. -/
def isExpression (s : String) (namespaces : List String) : Bool :=
  match path? s with
  | none => false
  | some path => namespaces.isEmpty || namespaces.contains (head path)

/-- The text is bound by some enclosing scope. -/
def isBound (s : String) : Bool :=
  isExpression s []

/-- The text is bound by the enclosing pipeline. -/
def isParent (s : String) : Bool :=
  isExpression s ["parent"]

end ForecastJob.Binding
