import Mathlib.Data.List.Basic

/-!
The tree over the names of the players online (`wildcardtree.cpp`), which completes the
beginning of a name. A node keeps its children by the next character, and is a breakpoint
where a name ends.
-/

namespace TibServer

/-- What `findOne` answers. -/
inductive NameAnswer
  | noError | nameIsTooAmbiguous | playerWithThisNameIsNotOnline
  deriving DecidableEq, Repr

/-- The children are a `std::map`, so no key is there twice. Their order is read only where
there is one of them. -/
structure WildcardTreeNode where
  children : List (UInt8 × WildcardTreeNode) := []
  breakpoint : Bool := false

namespace WildcardTreeNode

def getChild (cur : WildcardTreeNode) (ch : UInt8) : Option WildcardTreeNode :=
  cur.children.lookup ch

/-- The children with another node under a key, or with a new one. -/
def setChild (ch : UInt8) (child : WildcardTreeNode) :
    List (UInt8 × WildcardTreeNode) → List (UInt8 × WildcardTreeNode)
  | [] => [(ch, child)]
  | (key, node) :: rest =>
      if key = ch then (ch, child) :: rest else (key, node) :: setChild ch child rest

def eraseChild (ch : UInt8) (children : List (UInt8 × WildcardTreeNode)) :
    List (UInt8 × WildcardTreeNode) :=
  children.filter fun entry => entry.1 ≠ ch

/-- `addChild`: the child that it returns, which the caller goes on with. -/
def addChild (cur : WildcardTreeNode) (ch : UInt8) (breakpoint : Bool) : WildcardTreeNode :=
  match cur.getChild ch with
  | some child =>
      if breakpoint && !child.breakpoint then { child with breakpoint := true } else child
  | none => { breakpoint }

/-- `insert`, of a name that is not empty. -/
def insert (cur : WildcardTreeNode) : List UInt8 → WildcardTreeNode
  | [] => cur
  | [ch] => { cur with children := setChild ch (cur.addChild ch true) cur.children }
  | ch :: next :: str =>
      { cur with
        children := setChild ch ((cur.addChild ch false).insert (next :: str)) cur.children }

/-- `remove` along the rest of the name: the node without it, and whether the loop that
climbs back erases this node from its parent. No result where the path ends. -/
def removePath (cur : WildcardTreeNode) : List UInt8 → Option (WildcardTreeNode × Bool)
  | [] => some ({ cur with breakpoint := false }, cur.children.isEmpty)
  | ch :: str =>
      match cur.getChild ch with
      | none => none
      | some child =>
          match child.removePath str with
          | none => none
          | some (_, true) =>
              let children := eraseChild ch cur.children
              some ({ cur with children }, children.isEmpty && !cur.breakpoint)
          | some (child, false) =>
              some ({ cur with children := setChild ch child cur.children }, false)

/-- `remove`; the loop never erases the node that it is called on. -/
def remove (cur : WildcardTreeNode) (str : List UInt8) : WildcardTreeNode :=
  match cur.removePath str with
  | some (cur, _) => cur
  | none => cur

/-- The node at the end of a query, if the path is there. -/
def descend (cur : WildcardTreeNode) : List UInt8 → Option WildcardTreeNode
  | [] => some cur
  | ch :: query =>
      match cur.getChild ch with
      | some child => child.descend query
      | none => none

/-- The second loop of `findOne`, which follows the only child. -/
def complete : WildcardTreeNode → List UInt8 → NameAnswer × List UInt8
  | ⟨[], _⟩, result => (.noError, result)
  | ⟨[(ch, child)], false⟩, result => complete child (result ++ [ch])
  | _, result => (.nameIsTooAmbiguous, result)

/-- `findOne`, with the string that `result` held before and the one it holds after. -/
def findOne (cur : WildcardTreeNode) (query result : List UInt8) : NameAnswer × List UInt8 :=
  match cur.descend query with
  | none => (.playerWithThisNameIsNotOnline, result)
  | some cur => cur.complete query

end WildcardTreeNode

end TibServer
