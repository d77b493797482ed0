import ForecastJob.Job.Binding

/-!
# Where documents and data are

A path is a text of components between slashes. Empty components do not count, nor does a point
but for one at the very front.

* `Location.parent?`, `Location.extension?` : the path without its last component, and what follows
  the last point of that component;
* `Location.resolve` : a path within a document, seen from a base directory.
-/

namespace ForecastJob.Location

/-! ## Components -/

def pieces (path : String) : List String :=
  (Text.pieces (· == '/') path.toList).map String.ofList

/-- A piece that does not count behind the front of a path. -/
def isSilent (piece : String) : Bool :=
  piece == "" || piece == "."

/-- The pieces up to the last one that counts; the front always stays. -/
def trimmed : List String → List String
  | [] => []
  | front :: rest => front :: (rest.reverse.dropWhile isSilent).reverse

/-- The path of some pieces; an empty front alone is the root. -/
def joined : List String → String
  | [""] => "/"
  | pieces => "/".intercalate pieces

def isAbsolute (path : String) : Bool :=
  path.startsWith "/"

/-- The last component, unless there is none or it names no file of its own. -/
def fileName? (path : String) : Option String :=
  match trimmed (pieces path) with
  | [] => none
  | front :: rest =>
    let last := rest.getLastD front
    if isSilent last || last == ".." then none else some last

def parent? (path : String) : Option String :=
  match trimmed (pieces path) with
  | [] => none
  | [""] => none
  | [_] => some ""
  | pieces => some (joined (trimmed pieces.dropLast))

/-- What follows the last point of the last component, if something is in front of it. -/
def extension? (path : String) : Option String := do
  let cs := (← fileName? path).toList.reverse
  match cs.dropWhile (· != '.') with
  | [] => none
  | [_] => none
  | _ => some (String.ofList (cs.takeWhile (· != '.')).reverse)

/-- The directory of a file; without one it is the current directory. -/
def directory (path : String) : String :=
  match parent? path with
  | none => "."
  | some dir => if dir.isEmpty then "." else dir

/-! ## Data in a document -/

def isCurrent (path : String) : Bool :=
  let front := (pieces path).headD ""
  path.isEmpty || (front == "." && (pieces path).all isSilent)

/-- The text holds `://`, as a URI does behind its scheme. -/
def hasScheme : List Char → Bool
  | ':' :: '/' :: '/' :: _ => true
  | _ :: cs => hasScheme cs
  | [] => false

/-- The path does not depend on a directory: it is bound by an enclosing scope, a URI, a reference
to an asset, or absolute. -/
def isFixed (path : String) : Bool :=
  Binding.isBound path || hasScheme path.toList || path.startsWith "azureml:" || isAbsolute path

def join (base path : String) : String :=
  if isAbsolute path then path
  else if base.endsWith "/" then base ++ path
  else base ++ "/" ++ path

/-- A path without the current directory at its front. -/
def withoutCurrent (path : String) : String :=
  match path.toList with
  | '.' :: '/' :: cs => String.ofList cs
  | _ => path

/-- A path within a document, seen from the base directory. -/
def resolve (base path : String) : String :=
  if isCurrent base || isFixed path then path else join base (withoutCurrent path)

end ForecastJob.Location
