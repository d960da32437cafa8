/-
Courier.Grammar.Node — commands in their place in the tree.

A `Node` is a command together with the path of names that leads to it. The
children of a node are looked up by any of their names; `leaves` lists the commands
below a node in the order of their description.

A tree is usable if no two children of a node share a name, and no child has one
name twice. `CommandSpec.repeated?` finds the first name that breaks this, in the
order in which the tree is read: a child is examined below before its names are
compared with those of the children before it.
-/
import Courier.Grammar.Spec

namespace Courier.Grammar

/-- A command and the names that lead to it. -/
structure Node where
  /-- The command. -/
  spec : CommandSpec
  /-- The main names from the root to the command. -/
  path : List String := []
  deriving Repr

namespace Node

/-- Whether the node is a command and not a group. -/
def isLeaf (n : Node) : Bool := n.spec.isLeaf

/-- The path as it is typed. -/
def pathText (n : Node) : String := " ".intercalate n.path

/-- The node of a child. -/
def below (n : Node) (child : CommandSpec) : Node :=
  { spec := child, path := n.path ++ [child.name] }

/-- The children of a node, in the order of their description. -/
def children (n : Node) : List Node := n.spec.children.map n.below

/-- The child with this name. -/
def child? (n : Node) (name : String) : Option Node :=
  n.children.find? (fun c => c.spec.names.contains name)

/-- All names of all children. -/
def childNames (n : Node) : List String :=
  n.spec.children.flatMap CommandSpec.names

/-- The node that names lead to, one step for each. -/
def descend? (n : Node) : List String → Option Node
  | [] => some n
  | name :: names => (n.child? name).bind (fun c => c.descend? names)

/-- One line on how a command is typed; of a group, which commands it has. -/
def usage (n : Node) : String :=
  if n.isLeaf then
    let slots := n.spec.args.map fun a =>
      if a.required then "<" ++ a.metavar ++ ">" else "[" ++ a.metavar ++ "]"
    let rest := n.spec.rest.toList.map fun a =>
      if a.minCount != 0 then "<" ++ a.metavar ++ ">..." else "[" ++ a.metavar ++ "]..."
    " ".intercalate (n.pathText :: slots ++ rest ++ n.spec.opts.map OptionSpec.usage)
  else
    n.pathText ++ " \x7b" ++ "|".intercalate (n.spec.children.map CommandSpec.name) ++ "\x7d"

end Node

/-! ## Leaves -/

mutual

/-- The commands at and below a spec with this path. -/
def leavesAt (path : List String) : CommandSpec → List Node
  | ⟨name, aliases, help, args, rest, opts, [], literal, kind⟩ =>
    [⟨⟨name, aliases, help, args, rest, opts, [], literal, kind⟩, path⟩]
  | ⟨_, _, _, _, _, _, c :: cs, _, _⟩ => leavesBelow path (c :: cs)

/-- The commands at and below the children of a group with this path. -/
def leavesBelow (path : List String) : List CommandSpec → List Node
  | [] => []
  | c :: cs => leavesAt (path ++ [c.name]) c ++ leavesBelow path cs

end

/-- The commands at and below a node. -/
def Node.leaves (n : Node) : List Node := leavesAt n.path n.spec

/-! ## Names that occur twice -/

/-- A name that two children share, or one child has twice. -/
structure RepeatedName where
  /-- The name. -/
  name : String
  /-- The path of the group. -/
  path : List String
  deriving DecidableEq, Repr

/-- What is said about a name that occurs twice. -/
def RepeatedName.message (r : RepeatedName) : String :=
  "Duplicate command name '" ++ r.name ++ "' under '" ++ " ".intercalate r.path ++ "'"

/-- The first of the names that occurs among those seen, or again among themselves. -/
def firstRepeated? (seen : List String) : List String → Option String
  | [] => none
  | n :: ns => if seen.contains n then some n else firstRepeated? (n :: seen) ns

mutual

/-- The first name that occurs twice below a spec with this path. -/
def repeatedBelow? (path : List String) : CommandSpec → Option RepeatedName
  | ⟨_, _, _, _, _, _, children, _, _⟩ => repeatedAmong? path [] children

/-- The first name that occurs twice below or among children, after those seen. -/
def repeatedAmong? (path seen : List String) : List CommandSpec → Option RepeatedName
  | [] => none
  | c :: cs =>
    match repeatedBelow? (path ++ [c.name]) c with
    | some r => some r
    | none =>
      match firstRepeated? seen c.names with
      | some name => some ⟨name, path⟩
      | none => repeatedAmong? path (seen ++ c.names) cs

end

/-- The tree of a spec, if every group can tell its children apart. -/
def Node.build (spec : CommandSpec) (path : List String) : Except RepeatedName Node :=
  match repeatedBelow? path spec with
  | some r => .error r
  | none => .ok { spec, path }

end Courier.Grammar
