import Stencil.Span

/-!
# Node trees

A document is a list of nodes.  A node has a name, entries and child nodes; an entry is a
bare argument or a property with a name.  Every part carries its span.
-/

namespace Stencil

/-- The primitive value of an entry. -/
inductive Scalar where
  | null
  | boolean (b : Bool)
  | number (x : Number)
  | string (s : String)
deriving DecidableEq

/-- An entry of a node: a property if it has a name, a bare argument otherwise. -/
structure Entry where
  name : Option (Spanned String)
  value : Spanned Scalar
  span : Span
deriving DecidableEq

/-- A node of a tree. -/
structure Node where
  name : Spanned String
  entries : List Entry
  children : List Node
  span : Span

/-- The nodes of one document, in order. -/
structure Document where
  nodes : List Node
  span : Span

namespace Scalar

/-- The string that a scalar is, if it is one. -/
def string? : Scalar → Option String
  | .string s => some s
  | _ => none

end Scalar

namespace Entry

/-- Whether an entry is a bare argument. -/
def isArgument (e : Entry) : Bool :=
  e.name.isNone

/-- Whether an entry is a property. -/
def isProperty (e : Entry) : Bool :=
  e.name.isSome

end Entry

namespace Node

/-- The bare arguments of a node. -/
def arguments (n : Node) : List Entry :=
  n.entries.filter Entry.isArgument

/-- The properties of a node. -/
def properties (n : Node) : List Entry :=
  n.entries.filter Entry.isProperty

/-- The one bare string argument of a node whose entries are just that. -/
def soleString? (n : Node) : Option (Spanned String) :=
  match n.entries with
  | [⟨none, ⟨.string s, place⟩, _⟩] => some ⟨s, place⟩
  | _ => none

/-- The node under another name. -/
def rename (n : Node) (name : Spanned String) : Node :=
  { n with name }

/-- The node with other entries and children. -/
def rebuild (n : Node) (entries : List Entry) (children : List Node) : Node :=
  { n with entries, children }

/-! ## Size -/

mutual

/-- The number of nodes of a tree. -/
def count : Node → Nat
  | ⟨_, _, children, _⟩ => countAll children + 1

/-- The number of nodes of a list of trees. -/
def countAll : List Node → Nat
  | [] => 0
  | n :: rest => count n + countAll rest

end

end Node

/-! ## Reserved names -/

/-- The name of the marker that declares and inserts spliced children. -/
def expandWord : String := "expand"

/-- The name of the directive that lists what a document imports. -/
def importWord : String := "import"

/-- The name of the list of what a document exports. -/
def exportWord : String := "export"

namespace Node

/-- Whether a node is an export list. -/
def isExportList (n : Node) : Bool :=
  n.name.inner == exportWord

end Node

namespace Document

/-- The import directive that a document opens with, if it does. -/
def importDirective? (d : Document) : Option Node :=
  match d.nodes with
  | first :: _ => if first.name.inner = importWord then some first else none
  | [] => none

/-- The nodes after the import directive. -/
def content (d : Document) : List Node :=
  match d.importDirective? with
  | some _ => d.nodes.tail
  | none => d.nodes

end Document

end Stencil
