namespace Coap.Toml

/-!
# Documents of settings

A document is a tree of tables with scalar values at its leaves, kept as a list
of nodes under their paths. Headers declare tables, and keys are assigned values.
Nothing is said twice: `declare?` and `assign?` refuse a header for a table that
has one or that dotted keys have filled, a key that names anything already, and
every path through a value. A dotted key makes the tables on its way; it neither
enters a table with a header nor ends in one that only headers below it imply.
-/

/-- A path of names. -/
abbrev Path := List String

/-- A scalar value; the value of a floating-point number is of no interest here. -/
inductive Scalar where
  | integer (value : Int)
  | float
  | boolean (value : Bool)
  | text (value : String)
deriving DecidableEq, Repr

/-- How a table came about. -/
inductive TableOrigin where
  /-- It has a header. -/
  | header
  /-- A table below it has a header. -/
  | implied
  /-- A dotted key leads through it. -/
  | dotted
deriving DecidableEq, Repr

/-- What stands at a path. -/
inductive Node where
  | table (origin : TableOrigin)
  | value (scalar : Scalar)
deriving DecidableEq, Repr

/-- Everything that a text has said; the root table is not listed. -/
structure Document where
  nodes : List (Path × Node) := []
deriving DecidableEq, Repr

namespace Document

/-- What stands at a path. -/
def node?
    (document : Document)
    (path : Path) :
    Option Node :=
  (document.nodes.find? fun entry => entry.1 == path).map Prod.snd

/-- Put a node at a path in place of what stands there. -/
def put
    (document : Document)
    (path : Path)
    (node : Node) :
    Document :=
  { nodes := (path, node) :: document.nodes.filter fun entry => entry.1 != path }

/-- The names of the nodes right below a path. -/
def children
    (document : Document)
    (path : Path) :
    List String :=
  document.nodes.filterMap fun entry =>
    if entry.1.dropLast = path then entry.1.getLast? else none

/-- The paths that lead to a path, below the root. -/
def ancestors (path : Path) : List Path :=
  ((List.range path.length).drop 1).map path.take

/-- Make sure that a table stands at a path that a header leads through. -/
def imply?
    (document : Document)
    (path : Path) :
    Option Document :=
  match document.node? path with
  | none => some (document.put path (.table .implied))
  | some (.table _) => some document
  | some (.value _) => none

/-- Declare a table by its header. -/
def declare?
    (document : Document)
    (path : Path) :
    Option Document := do
  let document ← (ancestors path).foldlM imply? document
  match document.node? path with
  | none | some (.table .implied) => return document.put path (.table .header)
  | _ => none

/-- Make sure that a table stands at a path that a dotted key leads through. -/
def enter?
    (document : Document)
    (path : Path) :
    Option Document :=
  match document.node? path with
  | none => some (document.put path (.table .dotted))
  | some (.table .header) => none
  | some (.table _) => some document
  | some (.value _) => none

/--
Whether a key assigned in `table` may end there, after the tables
on its way were entered.
-/
def holdsKey
    (document : Document)
    (table key : Path) :
    Bool :=
  match key with
  | [] | [_] => true
  | _ => document.node? (table ++ key.dropLast) == some (.table .dotted)

/-- Assign a value to a key in a table with a header, or in the root. -/
def assign?
    (document : Document)
    (table key : Path)
    (scalar : Scalar) :
    Option Document := do
  let document ← ((ancestors key).map (table ++ ·)).foldlM enter? document
  match document.holdsKey table key, document.node? (table ++ key) with
  | true, none => return document.put (table ++ key) (.value scalar)
  | _, _ => none

end Document

end Coap.Toml
