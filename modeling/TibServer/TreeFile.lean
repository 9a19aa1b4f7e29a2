import Mathlib.Data.List.Basic

/-!
The loader of the tree files of items and maps (`fileloader.h`, `fileloader.cpp`). Iterators
into the file are positions in its contents.

A node that is open stands on the stack without the child that is open above it: the child is
appended when it is closed, which is before anything asks for the children again. Where it is
never closed the file is rejected.
-/

namespace TibServer.OTB

def ESCAPE : UInt8 := 0xFD
def START : UInt8 := 0xFE
def END : UInt8 := 0xFF

inductive LoadError
  | invalidOTBFormat
  deriving DecidableEq, Repr

structure Node where
  type : UInt8
  propsBegin : Nat
  propsEnd : Nat
  children : List Node

/-- The end of the properties is not set before the first child or the end of the node. -/
structure OpenNode where
  type : UInt8
  propsBegin : Nat
  propsEnd : Nat := 0
  children : List Node := []

namespace OpenNode

/-- `if (currentNode.children.empty()) currentNode.propsEnd = it`. -/
def endProps (cur : OpenNode) (it : Nat) : OpenNode :=
  if cur.children.isEmpty then { cur with propsEnd := it } else cur

def close (cur : OpenNode) (it : Nat) : Node :=
  let cur := cur.endProps it
  ⟨cur.type, cur.propsBegin, cur.propsEnd, cur.children⟩

def append (cur : OpenNode) (child : Node) : OpenNode :=
  { cur with children := cur.children ++ [child] }

end OpenNode

/-- What the loop of `parseTree` keeps: the nodes that are open, innermost first, and the root
once it is closed. -/
inductive ParseState
  | inside (cur : OpenNode) (parents : List OpenNode)
  | closed (root : Node)

/-- The loop of `parseTree` over what is left from a position on. -/
def parseLoop : ParseState → Nat → List UInt8 → Except LoadError Node
  | .inside _ _, _, [] => .error .invalidOTBFormat
  | .closed root, _, [] => .ok root
  | state, it, byte :: rest =>
      if byte = START then
        match state, rest with
        | .inside cur parents, type :: rest =>
            parseLoop (.inside { type, propsBegin := it + 2 } (cur.endProps it :: parents)) (it + 2)
              rest
        | _, _ => .error .invalidOTBFormat
      else if byte = END then
        match state with
        | .inside cur (parent :: parents) =>
            parseLoop (.inside (parent.append (cur.close it)) parents) (it + 1) rest
        | .inside cur [] => parseLoop (.closed (cur.close it)) (it + 1) rest
        | .closed _ => .error .invalidOTBFormat
      else if byte = ESCAPE then
        match rest with
        | _ :: rest => parseLoop state (it + 2) rest
        | [] => .error .invalidOTBFormat
      else parseLoop state (it + 1) rest

/-- `Loader::parseTree`, of a file that the constructor took. -/
def parseTree (fileContents : List UInt8) : Except LoadError Node :=
  match fileContents.drop 4 with
  | start :: type :: rest =>
      if start = START then parseLoop (.inside { type, propsBegin := 6 } []) 6 rest
      else .error .invalidOTBFormat
  | _ => .error .invalidOTBFormat

def wildcard : List UInt8 := [0, 0, 0, 0]

/-- The size of an identifier with a node that has nothing in it. -/
def minimalSize : Nat := 7

/-- The constructor of `Loader` and `parseTree`. -/
def load (acceptedIdentifier fileContents : List UInt8) : Except LoadError Node :=
  if fileContents.length ≤ minimalSize then .error .invalidOTBFormat
  else if fileContents.take 4 ≠ acceptedIdentifier ∧ fileContents.take 4 ≠ wildcard then
    .error .invalidOTBFormat
  else parseTree fileContents

/-- The copying loop of `getProps`. -/
def unescape (lastEscaped : Bool) : List UInt8 → List UInt8
  | [] => []
  | byte :: bytes =>
      let lastEscaped := byte == ESCAPE && !lastEscaped
      if lastEscaped then unescape lastEscaped bytes else byte :: unescape lastEscaped bytes

/-- `Loader::getProps`: no properties where it returns false. -/
def getProps (fileContents : List UInt8) (node : Node) : Option (List UInt8) :=
  let props := (fileContents.take node.propsEnd).drop node.propsBegin
  if props.length = 0 then none else some (unescape false props)

end TibServer.OTB
