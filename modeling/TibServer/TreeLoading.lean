import TibServer.TreeFile
import Mathlib.Tactic

/-!
What the loader makes of a file. The reference encoding of a tree has in a node its properties,
with the marking bytes escaped, and then its children. The loader takes more: between the type
of a node and its end there may be bytes, escaped or not, and nodes in any order, of which only
the bytes before the first child are properties, and behind the end of the root there may be
bytes. `Piece` is what may stand there; nothing else is taken.
-/

namespace TibServer.OTB

inductive Tree
  | node (type : UInt8) (props : List UInt8) (children : List Tree)

/-- What may stand in a node: a byte that is no mark, any byte after an escape, a node. -/
inductive Piece
  | plain (byte : { byte : UInt8 // byte < ESCAPE })
  | escaped (byte : UInt8)
  | node (type : UInt8) (body : List Piece)

/-! ### The reference encoding -/

def escapeByte (byte : UInt8) : List UInt8 :=
  if byte = START ∨ byte = END ∨ byte = ESCAPE then [ESCAPE, byte] else [byte]

mutual

def Tree.encode : Tree → List UInt8
  | .node type props children =>
      START :: type :: (props.flatMap escapeByte ++ (encodeAll children ++ [END]))

def encodeAll : List Tree → List UInt8
  | [] => []
  | tree :: trees => tree.encode ++ encodeAll trees

end

/-! ### The pieces of a node -/

mutual

def Piece.bytes : Piece → List UInt8
  | .plain byte => [byte.val]
  | .escaped byte => [ESCAPE, byte]
  | .node type body => START :: type :: (bodyBytes body ++ [END])

def bodyBytes : List Piece → List UInt8
  | [] => []
  | piece :: body => piece.bytes ++ bodyBytes body

end

/-- The bytes before the first child, as they stand there. -/
def leading : List Piece → List UInt8
  | .plain byte :: body => byte.val :: leading body
  | .escaped byte :: body => ESCAPE :: byte :: leading body
  | _ => []

/-- The properties: the bytes before the first child. -/
def props : List Piece → List UInt8
  | .plain byte :: body => byte.val :: props body
  | .escaped byte :: body => byte :: props body
  | _ => []

mutual

/-- The tree of a piece that is a node. -/
def Piece.trees : Piece → List Tree
  | .plain _ => []
  | .escaped _ => []
  | .node type body => [.node type (props body) (bodyTrees body)]

def bodyTrees : List Piece → List Tree
  | [] => []
  | piece :: body => piece.trees ++ bodyTrees body

end

mutual

/-- The node that the loader makes of a piece at a position. -/
def Piece.nodes (pos : Nat) : Piece → List Node
  | .plain _ => []
  | .escaped _ => []
  | .node type body =>
      [⟨type, pos + 2, pos + 2 + (leading body).length, bodyNodes (pos + 2) body⟩]

def bodyNodes (pos : Nat) : List Piece → List Node
  | [] => []
  | piece :: body => piece.nodes pos ++ bodyNodes (pos + piece.bytes.length) body

end

mutual

/-- The tree of a node, with the properties that `getProps` gives. -/
def Node.toTree (fileContents : List UInt8) : Node → Tree
  | ⟨type, propsBegin, propsEnd, children⟩ =>
      .node type ((getProps fileContents ⟨type, propsBegin, propsEnd, children⟩).getD [])
        (toTrees fileContents children)

def toTrees (fileContents : List UInt8) : List Node → List Tree
  | [] => []
  | node :: nodes => node.toTree fileContents :: toTrees fileContents nodes

end

theorem bodyBytes_append (body body' : List Piece) :
    bodyBytes (body ++ body') = bodyBytes body ++ bodyBytes body' := by
  induction body with
  | nil => rfl
  | cons piece body ih => rw [List.cons_append, bodyBytes, ih, bodyBytes, List.append_assoc]

theorem bodyNodes_append (pos : Nat) (body body' : List Piece) :
    bodyNodes pos (body ++ body') =
      bodyNodes pos body ++ bodyNodes (pos + (bodyBytes body).length) body' := by
  induction body generalizing pos with
  | nil => rfl
  | cons piece body ih =>
      rw [List.cons_append, bodyNodes, ih, bodyNodes, bodyBytes, List.length_append,
        List.append_assoc, Nat.add_assoc]

theorem bodyBytes_singleton (piece : Piece) : bodyBytes [piece] = piece.bytes := by
  rw [bodyBytes, bodyBytes, List.append_nil]

theorem bodyNodes_singleton (pos : Nat) (piece : Piece) :
    bodyNodes pos [piece] = piece.nodes pos := by
  rw [bodyNodes, bodyNodes, List.append_nil]

/-- Where no node comes first, the bytes before the first child are all. -/
theorem leading_append {pos : Nat} {body : List Piece} (h : bodyNodes pos body = [])
    (body' : List Piece) : leading (body ++ body') = bodyBytes body ++ leading body' := by
  induction body generalizing pos with
  | nil => rfl
  | cons piece body ih =>
      rw [bodyNodes, List.append_eq_nil_iff] at h
      cases piece with
      | plain byte =>
          rw [List.cons_append, leading, ih h.2, bodyBytes, Piece.bytes]
          rfl
      | escaped byte =>
          rw [List.cons_append, leading, ih h.2, bodyBytes, Piece.bytes]
          rfl
      | node type inner => exact absurd h.1 (by simp [Piece.nodes])

theorem leading_of_no_node {pos : Nat} {body : List Piece} (h : bodyNodes pos body = []) :
    leading body = bodyBytes body := by
  have hall := leading_append h []
  rwa [List.append_nil, show leading ([] : List Piece) = [] from rfl, List.append_nil] at hall

/-- Where a node came, what follows is not before the first child. -/
theorem leading_append_of_node {pos : Nat} {body : List Piece} (h : bodyNodes pos body ≠ [])
    (body' : List Piece) : leading (body ++ body') = leading body := by
  induction body generalizing pos with
  | nil => exact absurd rfl h
  | cons piece body ih =>
      cases piece with
      | plain byte =>
          rw [bodyNodes, Piece.nodes, List.nil_append] at h
          rw [List.cons_append, leading, leading, ih h]
      | escaped byte =>
          rw [bodyNodes, Piece.nodes, List.nil_append] at h
          rw [List.cons_append, leading, leading, ih h]
      | node type inner => rfl

/-! ### What an open node is after its first pieces -/

/-- The node that is open at `begin` and has taken `body`. -/
structure Opened (cur : OpenNode) (type : UInt8) (start : Nat) (body : List Piece) : Prop where
  type_eq : cur.type = type
  propsBegin_eq : cur.propsBegin = start
  children_eq : cur.children = bodyNodes start body
  propsEnd_eq : bodyNodes start body ≠ [] → cur.propsEnd = start + (leading body).length

theorem opened_new (type : UInt8) (start : Nat) :
    Opened { type, propsBegin := start } type start [] :=
  ⟨rfl, rfl, rfl, fun h => absurd rfl h⟩

/-- A piece that is no node leaves the open node as it is. -/
theorem Opened.skip {cur : OpenNode} {type : UInt8} {start : Nat} {body : List Piece}
    (h : Opened cur type start body) {piece : Piece} (hpiece : ∀ pos, piece.nodes pos = []) :
    Opened cur type start (body ++ [piece]) := by
  have hnodes : bodyNodes start (body ++ [piece]) = bodyNodes start body := by
    rw [bodyNodes_append, bodyNodes_singleton, hpiece, List.append_nil]
  refine ⟨h.type_eq, h.propsBegin_eq, by rw [hnodes, h.children_eq], fun hne => ?_⟩
  rw [hnodes] at hne
  rw [h.propsEnd_eq hne, leading_append_of_node hne]

/-- The end of the properties is set once, at the end of the bytes before the first child. -/
theorem Opened.endProps {cur : OpenNode} {type : UInt8} {start : Nat} {body : List Piece}
    (h : Opened cur type start body) :
    cur.endProps (start + (bodyBytes body).length) =
      ⟨type, start, start + (leading body).length, bodyNodes start body⟩ := by
  obtain ⟨htype, hbegin, hchildren, hend⟩ := h
  rw [OpenNode.endProps, hchildren]
  by_cases hnodes : bodyNodes start body = []
  · rw [hnodes, List.isEmpty_nil, if_pos rfl, htype, hbegin, leading_of_no_node hnodes]
  · rw [if_neg (by rw [List.isEmpty_iff]; exact hnodes)]
    cases cur
    exact OpenNode.mk.injEq .. ▸ ⟨htype, hbegin, hend hnodes, hchildren⟩

/-- A node is appended behind what the open node has. -/
theorem Opened.append {cur : OpenNode} {type : UInt8} {start : Nat} {body : List Piece}
    (h : Opened cur type start body) (type' : UInt8) (body' : List Piece) {child : Node}
    (hchild : (Piece.node type' body').nodes (start + (bodyBytes body).length) = [child]) :
    Opened ((cur.endProps (start + (bodyBytes body).length)).append child) type start
      (body ++ [.node type' body']) := by
  rw [h.endProps]
  refine ⟨rfl, rfl, ?_, fun _ => ?_⟩
  · rw [bodyNodes_append, bodyNodes_singleton, hchild]
    rfl
  · by_cases hnodes : bodyNodes start body = []
    · rw [leading_append hnodes, leading_of_no_node hnodes,
        show leading [Piece.node type' body'] = [] from rfl, List.append_nil]
      rfl
    · rw [leading_append_of_node hnodes]
      rfl

/-- The end of a node closes it as the node of its piece. -/
theorem Opened.close {cur : OpenNode} {type : UInt8} {pos : Nat} {body : List Piece}
    (h : Opened cur type (pos + 2) body) :
    (Piece.node type body).nodes pos = [cur.close (pos + 2 + (bodyBytes body).length)] := by
  rw [Piece.nodes, OpenNode.close, h.endProps]

/-! ### The loop takes the pieces -/

theorem ne_marks {byte : UInt8} (h : byte < ESCAPE) :
    byte ≠ START ∧ byte ≠ END ∧ byte ≠ ESCAPE := by
  have hlt : byte.toNat < 253 := h
  refine ⟨fun h => ?_, fun h => ?_, fun h => ?_⟩ <;>
    · rw [h] at hlt
      exact absurd hlt (by decide)

theorem lt_escape {byte : UInt8} (hstart : byte ≠ START) (hend : byte ≠ END)
    (hescape : byte ≠ ESCAPE) : byte < ESCAPE := by
  have hlt := byte.toNat_lt
  have h1 : byte.toNat ≠ 254 := fun h => hstart (UInt8.toNat_inj.1 h)
  have h2 : byte.toNat ≠ 255 := fun h => hend (UInt8.toNat_inj.1 h)
  have h3 : byte.toNat ≠ 253 := fun h => hescape (UInt8.toNat_inj.1 h)
  show byte.toNat < 253
  omega

theorem parseLoop_plain (state : ParseState) (pos : Nat) {byte : UInt8} (h : byte < ESCAPE)
    (rest : List UInt8) :
    parseLoop state pos (byte :: rest) = parseLoop state (pos + 1) rest := by
  obtain ⟨hstart, hend, hescape⟩ := ne_marks h
  rw [parseLoop.eq_def]
  cases state <;> simp only [hstart, hend, hescape, if_false]

theorem parseLoop_escaped (state : ParseState) (pos : Nat) (byte : UInt8)
    (rest : List UInt8) :
    parseLoop state pos (ESCAPE :: byte :: rest) = parseLoop state (pos + 2) rest := by
  rw [parseLoop.eq_def]
  cases state <;> rfl

theorem parseLoop_start (cur : OpenNode) (parents : List OpenNode) (pos : Nat) (type : UInt8)
    (rest : List UInt8) :
    parseLoop (.inside cur parents) pos (START :: type :: rest) =
      parseLoop (.inside { type, propsBegin := pos + 2 } (cur.endProps pos :: parents)) (pos + 2)
        rest := by
  rw [parseLoop.eq_def]
  rfl

theorem parseLoop_end (cur parent : OpenNode) (parents : List OpenNode) (pos : Nat)
    (rest : List UInt8) :
    parseLoop (.inside cur (parent :: parents)) pos (END :: rest) =
      parseLoop (.inside (parent.append (cur.close pos)) parents) (pos + 1) rest := by
  rw [parseLoop.eq_def]
  rfl

theorem parseLoop_root_end (cur : OpenNode) (pos : Nat) (rest : List UInt8) :
    parseLoop (.inside cur []) pos (END :: rest) =
      parseLoop (.closed (cur.close pos)) (pos + 1) rest := by
  rw [parseLoop.eq_def]
  rfl

mutual

/-- Inside an open node the loop takes a piece as a whole. -/
theorem parseLoop_piece (piece : Piece) {cur : OpenNode} {type : UInt8} {start : Nat}
    {body : List Piece} (h : Opened cur type start body) (parents : List OpenNode) :
    ∃ cur', Opened cur' type start (body ++ [piece]) ∧ ∀ rest,
      parseLoop (.inside cur parents) (start + (bodyBytes body).length) (piece.bytes ++ rest) =
        parseLoop (.inside cur' parents) (start + (bodyBytes (body ++ [piece])).length) rest := by
  rw [bodyBytes_append, bodyBytes_singleton, List.length_append, ← Nat.add_assoc]
  cases piece with
  | plain byte =>
      exact ⟨cur, h.skip fun _ => rfl, fun rest => parseLoop_plain _ _ byte.2 rest⟩
  | escaped byte =>
      exact ⟨cur, h.skip fun _ => rfl, fun rest => parseLoop_escaped _ _ byte rest⟩
  | node type' body' =>
      obtain ⟨child, hchild, hloop⟩ := parseLoop_body body'
        (opened_new type' (start + (bodyBytes body).length + 2))
        (cur.endProps (start + (bodyBytes body).length) :: parents)
      rw [List.nil_append] at hchild
      refine ⟨_, h.append type' body' hchild.close, fun rest => ?_⟩
      rw [Piece.bytes, List.cons_append, List.cons_append, List.append_assoc, parseLoop_start]
      have hbody := hloop ([END] ++ rest)
      rw [bodyBytes, List.length_nil, Nat.add_zero, List.nil_append] at hbody
      rw [hbody]
      show parseLoop _ _ (END :: rest) = _
      rw [parseLoop_end]
      congr 1
      simp only [List.length_cons, List.length_append, List.length_nil]
      omega

theorem parseLoop_body (pieces : List Piece) {cur : OpenNode} {type : UInt8} {start : Nat}
    {body : List Piece} (h : Opened cur type start body) (parents : List OpenNode) :
    ∃ cur', Opened cur' type start (body ++ pieces) ∧ ∀ rest,
      parseLoop (.inside cur parents) (start + (bodyBytes body).length)
          (bodyBytes pieces ++ rest) =
        parseLoop (.inside cur' parents) (start + (bodyBytes (body ++ pieces)).length) rest := by
  cases pieces with
  | nil =>
      rw [List.append_nil]
      exact ⟨cur, h, fun rest => rfl⟩
  | cons piece pieces =>
      obtain ⟨mid, hmid, hpiece⟩ := parseLoop_piece piece h parents
      obtain ⟨cur', hcur', hbody⟩ := parseLoop_body pieces hmid parents
      rw [List.append_assoc] at hcur' hbody
      refine ⟨cur', hcur', fun rest => ?_⟩
      rw [bodyBytes, List.append_assoc, hpiece, hbody]
      rfl

end

/-! ### Nothing else is taken -/

/-- Behind the end of the root the loop takes bytes and no node. -/
theorem parseLoop_closed (root : Node) {body : List Piece} (h : bodyTrees body = []) (pos : Nat) :
    parseLoop (.closed root) pos (bodyBytes body) = .ok root := by
  induction body generalizing pos with
  | nil => rfl
  | cons piece body ih =>
      rw [bodyTrees, List.append_eq_nil_iff] at h
      cases piece with
      | plain byte => exact (parseLoop_plain _ _ byte.2 _).trans (ih h.2 _)
      | escaped byte => exact (parseLoop_escaped _ _ byte _).trans (ih h.2 _)
      | node type inner => exact absurd h.1 (by simp [Piece.trees])

theorem closed_cases (bytes : List UInt8) :
    (∃ body, bodyTrees body = [] ∧ bytes = bodyBytes body) ∨
      ∀ root pos, parseLoop (.closed root) pos bytes = .error .invalidOTBFormat := by
  induction hlength : bytes.length using Nat.strong_induction_on generalizing bytes with
  | _ length ih =>
      rcases bytes with _ | ⟨byte, bytes⟩
      · exact Or.inl ⟨[], rfl, rfl⟩
      rw [List.length_cons] at hlength
      by_cases hstart : byte = START
      · subst hstart
        exact Or.inr fun root pos => by rw [parseLoop.eq_def]; rfl
      by_cases hend : byte = END
      · subst hend
        exact Or.inr fun root pos => by rw [parseLoop.eq_def]; rfl
      by_cases hescape : byte = ESCAPE
      · subst hescape
        rcases bytes with _ | ⟨byte, bytes⟩
        · exact Or.inr fun root pos => by rw [parseLoop.eq_def]; rfl
        rw [List.length_cons] at hlength
        rcases ih bytes.length (by omega) bytes rfl with ⟨body, hbody, rfl⟩ | herror
        · exact Or.inl ⟨.escaped byte :: body, hbody, rfl⟩
        · exact Or.inr fun root pos => (parseLoop_escaped ..).trans (herror _ _)
      · have hlt := lt_escape hstart hend hescape
        rcases ih bytes.length (by omega) bytes rfl with ⟨body, hbody, rfl⟩ | herror
        · exact Or.inl ⟨.plain ⟨byte, hlt⟩ :: body, hbody, rfl⟩
        · exact Or.inr fun root pos => (parseLoop_plain _ _ hlt _).trans (herror _ _)

/-- Inside a node, what is left starts with the pieces of the node and its end, or the file is
rejected. -/
theorem inside_cases (bytes : List UInt8) :
    (∃ pieces rest, bytes = bodyBytes pieces ++ END :: rest) ∨
      ∀ cur type start body parents, Opened cur type start body →
        parseLoop (.inside cur parents) (start + (bodyBytes body).length) bytes =
          .error .invalidOTBFormat := by
  induction hlength : bytes.length using Nat.strong_induction_on generalizing bytes with
  | _ length ih =>
      rcases bytes with _ | ⟨byte, bytes⟩
      · exact Or.inr fun cur type start body parents h => rfl
      rw [List.length_cons] at hlength
      by_cases hend : byte = END
      · subst hend
        exact Or.inl ⟨[], bytes, rfl⟩
      by_cases hstart : byte = START
      · subst hstart
        rcases bytes with _ | ⟨type', bytes⟩
        · exact Or.inr fun cur type start body parents h => by rw [parseLoop.eq_def]; rfl
        rw [List.length_cons] at hlength
        -- the pieces of the child come first, then those behind it
        rcases ih bytes.length (by omega) bytes rfl with ⟨inner, rest, rfl⟩ | herror
        · rw [List.length_append, List.length_cons] at hlength
          have hchild : START :: type' :: (bodyBytes inner ++ END :: rest) =
              (Piece.node type' inner).bytes ++ rest := by
            rw [Piece.bytes, List.cons_append, List.cons_append, List.append_assoc]
            rfl
          rw [hchild]
          rcases ih rest.length (by omega) rest rfl with ⟨pieces, rest, rfl⟩ | herror
          · refine Or.inl ⟨.node type' inner :: pieces, rest, ?_⟩
            rw [bodyBytes, List.append_assoc]
          · refine Or.inr fun cur type start body parents h => ?_
            obtain ⟨cur', hcur', hloop⟩ := parseLoop_piece (.node type' inner) h parents
            rw [hloop]
            exact herror _ _ _ _ _ hcur'
        · refine Or.inr fun cur type start body parents h => ?_
          rw [parseLoop_start]
          exact herror _ _ _ _ _ (opened_new type' _)
      by_cases hescape : byte = ESCAPE
      · subst hescape
        rcases bytes with _ | ⟨byte, bytes⟩
        · exact Or.inr fun cur type start body parents h => by rw [parseLoop.eq_def]; rfl
        rw [List.length_cons] at hlength
        rcases ih bytes.length (by omega) bytes rfl with ⟨pieces, rest, rfl⟩ | herror
        · exact Or.inl ⟨.escaped byte :: pieces, rest, rfl⟩
        · refine Or.inr fun cur type start body parents h => ?_
          obtain ⟨cur', hcur', hloop⟩ := parseLoop_piece (.escaped byte) h parents
          exact (hloop bytes).trans (herror _ _ _ _ _ hcur')
      · have hlt := lt_escape hstart hend hescape
        rcases ih bytes.length (by omega) bytes rfl with ⟨pieces, rest, rfl⟩ | herror
        · exact Or.inl ⟨.plain ⟨byte, hlt⟩ :: pieces, rest, rfl⟩
        · refine Or.inr fun cur type start body parents h => ?_
          obtain ⟨cur', hcur', hloop⟩ := parseLoop_piece (.plain ⟨byte, hlt⟩) h parents
          exact (hloop bytes).trans (herror _ _ _ _ _ hcur')

/-! ### The trees of the nodes -/

theorem exists_leading (body : List Piece) : ∃ tail, bodyBytes body = leading body ++ tail := by
  induction body with
  | nil => exact ⟨[], rfl⟩
  | cons piece body ih =>
      obtain ⟨tail, htail⟩ := ih
      cases piece with
      | plain byte => exact ⟨tail, by rw [bodyBytes, htail]; rfl⟩
      | escaped byte => exact ⟨tail, by rw [bodyBytes, htail]; rfl⟩
      | node type inner => exact ⟨_, rfl⟩

theorem unescape_leading (body : List Piece) : unescape false (leading body) = props body := by
  induction body with
  | nil => rfl
  | cons piece body ih =>
      cases piece with
      | plain byte =>
          have hescape : (byte.val == ESCAPE) = false := beq_eq_false_iff_ne.2 (ne_marks byte.2).2.2
          rw [leading, unescape, hescape, props]
          exact congrArg (byte.val :: ·) ih
      | escaped byte =>
          rw [leading, unescape, unescape, props]
          simp only [beq_self_eq_true, Bool.not_false, Bool.and_self, if_true, Bool.not_true,
            Bool.and_false, Bool.false_eq_true, if_false]
          exact congrArg (byte :: ·) ih
      | node type inner => rfl

/-- `getProps` of the node of a piece, with the piece standing anywhere in the file. -/
theorem getProps_node (before after : List UInt8) (type : UInt8) (body : List Piece)
    (children : List Node) :
    (getProps (before ++ (bodyBytes body ++ after))
      ⟨type, before.length, before.length + (leading body).length, children⟩).getD [] =
        props body := by
  obtain ⟨tail, htail⟩ := exists_leading body
  have hrange : ((before ++ (bodyBytes body ++ after)).take
      (before.length + (leading body).length)).drop before.length = leading body := by
    rw [htail, List.append_assoc, List.take_length_add_append, List.take_left, List.drop_left]
  rw [getProps, hrange, ← unescape_leading]
  split_ifs with h
  · rw [List.length_eq_zero_iff.1 h]
    rfl
  · rfl

theorem toTrees_append (fileContents : List UInt8) (nodes nodes' : List Node) :
    toTrees fileContents (nodes ++ nodes') =
      toTrees fileContents nodes ++ toTrees fileContents nodes' := by
  induction nodes with
  | nil => rfl
  | cons node nodes ih => rw [List.cons_append, toTrees, ih, toTrees, List.cons_append]

mutual

theorem toTrees_piece (piece : Piece) (before after : List UInt8) :
    toTrees (before ++ (piece.bytes ++ after)) (piece.nodes before.length) = piece.trees := by
  cases piece with
  | plain byte => rfl
  | escaped byte => rfl
  | node type body =>
      have hsplit : before ++ ((Piece.node type body).bytes ++ after) =
          (before ++ [START, type]) ++ (bodyBytes body ++ END :: after) := by
        simp only [Piece.bytes, List.cons_append, List.append_assoc, List.nil_append]
      have hlength : (before ++ [START, type]).length = before.length + 2 := by
        rw [List.length_append]
        rfl
      have hprops := getProps_node (before ++ [START, type]) (END :: after) type body
        (bodyNodes (before.length + 2) body)
      have hchildren := toTrees_body body (before ++ [START, type]) (END :: after)
      rw [hlength] at hprops hchildren
      rw [hsplit, Piece.nodes, toTrees, Node.toTree, hprops, hchildren, toTrees, Piece.trees]

theorem toTrees_body (body : List Piece) (before after : List UInt8) :
    toTrees (before ++ (bodyBytes body ++ after)) (bodyNodes before.length body) =
      bodyTrees body := by
  cases body with
  | nil => rfl
  | cons piece body =>
      have hpiece := toTrees_piece piece before (bodyBytes body ++ after)
      have hbody := toTrees_body body (before ++ piece.bytes) after
      rw [List.length_append, List.append_assoc] at hbody
      rw [bodyBytes, List.append_assoc, bodyNodes, toTrees_append, hpiece, hbody, bodyTrees]

end

/-! ### The pieces of the reference encoding -/

def bytePiece (byte : UInt8) : Piece :=
  if h : byte < ESCAPE then .plain ⟨byte, h⟩ else .escaped byte

mutual

def Tree.piece : Tree → Piece
  | .node type props children => .node type (props.map bytePiece ++ pieces children)

def pieces : List Tree → List Piece
  | [] => []
  | tree :: trees => tree.piece :: pieces trees

end

theorem bytes_bytePiece (byte : UInt8) : (bytePiece byte).bytes = escapeByte byte := by
  rw [bytePiece, escapeByte]
  split_ifs with hlt hmark hmark
  · obtain ⟨hstart, hend, hescape⟩ := ne_marks hlt
    exact absurd hmark (by simp [hstart, hend, hescape])
  · rfl
  · rfl
  · simp only [not_or] at hmark
    exact absurd (lt_escape hmark.1 hmark.2.1 hmark.2.2) hlt

theorem bodyBytes_map (bytes : List UInt8) :
    bodyBytes (bytes.map bytePiece) = bytes.flatMap escapeByte := by
  induction bytes with
  | nil => rfl
  | cons byte bytes ih =>
      rw [List.map_cons, bodyBytes, bytes_bytePiece, ih, List.flatMap_cons]

mutual

theorem Tree.bytes_piece (tree : Tree) : tree.piece.bytes = tree.encode := by
  cases tree with
  | node type props children =>
      rw [Tree.piece, Piece.bytes, bodyBytes_append, bodyBytes_map, bodyBytes_pieces children,
        Tree.encode, List.append_assoc]

theorem bodyBytes_pieces (trees : List Tree) : bodyBytes (pieces trees) = encodeAll trees := by
  cases trees with
  | nil => rfl
  | cons tree trees =>
      rw [pieces, bodyBytes, tree.bytes_piece, bodyBytes_pieces trees, encodeAll]

end

theorem props_pieces (trees : List Tree) : props (pieces trees) = [] := by
  cases trees with
  | nil => rfl
  | cons tree trees =>
      cases tree
      rfl

theorem props_map_append (bytes : List UInt8) (body : List Piece) :
    props (bytes.map bytePiece ++ body) = bytes ++ props body := by
  induction bytes with
  | nil => rfl
  | cons byte bytes ih =>
      rw [List.map_cons, List.cons_append, List.cons_append, ← ih, bytePiece]
      split_ifs <;> rfl

theorem bodyTrees_map_append (bytes : List UInt8) (body : List Piece) :
    bodyTrees (bytes.map bytePiece ++ body) = bodyTrees body := by
  induction bytes with
  | nil => rfl
  | cons byte bytes ih =>
      rw [List.map_cons, List.cons_append, bodyTrees, ih, bytePiece]
      split_ifs <;> rfl

mutual

theorem Tree.trees_piece (tree : Tree) : tree.piece.trees = [tree] := by
  cases tree with
  | node type props children =>
      rw [Tree.piece, Piece.trees, props_map_append, props_pieces, List.append_nil,
        bodyTrees_map_append, bodyTrees_pieces children]

theorem bodyTrees_pieces (trees : List Tree) : bodyTrees (pieces trees) = trees := by
  cases trees with
  | nil => rfl
  | cons tree trees => rw [pieces, bodyTrees, tree.trees_piece, bodyTrees_pieces trees]; rfl

end

/-! ### Files -/

/-- What follows the identifier of a file that is taken: the root and what is ignored behind it. -/
def Taken (type : UInt8) (body trailing : List Piece) (bytes : List UInt8) : Prop :=
  bodyTrees trailing = [] ∧ bytes = (Piece.node type body).bytes ++ bodyBytes trailing

/-- The identifier is the one asked for, or no identifier. -/
def Accepted (acceptedIdentifier identifier : List UInt8) : Prop :=
  identifier.length = 4 ∧ (identifier = acceptedIdentifier ∨ identifier = wildcard)

theorem load_eq_parseTree {acceptedIdentifier identifier bytes : List UInt8}
    (h : Accepted acceptedIdentifier identifier) (hlength : 3 < bytes.length) :
    load acceptedIdentifier (identifier ++ bytes) = parseTree (identifier ++ bytes) := by
  obtain ⟨hfour, hid⟩ := h
  have htake : (identifier ++ bytes).take 4 = identifier := by rw [← hfour, List.take_left]
  rw [load, htake, if_neg, if_neg]
  · rcases hid with hid | hid
    · exact fun h => h.1 hid
    · exact fun h => h.2 hid
  · rw [List.length_append, minimalSize]
    omega

theorem parseTree_taken {identifier bytes : List UInt8} (hfour : identifier.length = 4)
    {type : UInt8} {body trailing : List Piece} (h : Taken type body trailing bytes) :
    ∃ root, parseTree (identifier ++ bytes) = .ok root ∧
      root.toTree (identifier ++ bytes) = .node type (props body) (bodyTrees body) := by
  obtain ⟨htrailing, rfl⟩ := h
  have hdrop (bytes : List UInt8) : (identifier ++ bytes).drop 4 = bytes := by
    rw [← hfour, List.drop_left]
  obtain ⟨cur, hcur, hloop⟩ := parseLoop_body body (opened_new type 6) []
  rw [List.nil_append] at hcur
  have hroot := hcur.close
  refine ⟨cur.close (6 + (bodyBytes body).length), ?_, ?_⟩
  · have hbody := hloop ([END] ++ bodyBytes trailing)
    rw [parseTree, hdrop, Piece.bytes, List.cons_append, List.cons_append, List.append_assoc]
    show parseLoop _ 6 _ = _
    refine hbody.trans ?_
    rw [List.nil_append]
    exact (parseLoop_root_end _ _ _).trans (parseLoop_closed _ htrailing _)
  · have htrees := toTrees_piece (.node type body) identifier (bodyBytes trailing)
    rw [hfour, hroot, toTrees, toTrees, Piece.trees] at htrees
    exact List.head_eq_of_cons_eq htrees

theorem parseTree_error {identifier bytes : List UInt8} (hfour : identifier.length = 4)
    (h : ¬ ∃ type body trailing, Taken type body trailing bytes) :
    parseTree (identifier ++ bytes) = .error .invalidOTBFormat := by
  have hdrop : (identifier ++ bytes).drop 4 = bytes := by rw [← hfour, List.drop_left]
  rw [parseTree, hdrop]
  rcases bytes with _ | ⟨start, _ | ⟨type, bytes⟩⟩
  · rfl
  · rfl
  show (if start = START then _ else _) = _
  split_ifs with hstart
  · subst hstart
    rcases inside_cases bytes with ⟨pieces, rest, rfl⟩ | herror
    · rcases closed_cases rest with ⟨trailing, htrailing, rfl⟩ | herror
      · refine absurd ⟨type, pieces, trailing, htrailing, ?_⟩ h
        rw [Piece.bytes, List.cons_append, List.cons_append, List.append_assoc]
        rfl
      · obtain ⟨cur, -, hloop⟩ := parseLoop_body pieces (opened_new type 6) []
        refine (hloop (END :: rest)).trans ?_
        rw [parseLoop_root_end, herror]
    · exact herror _ _ _ _ _ (opened_new type 6)
  · rfl

theorem taken_encode (tree : Tree) : ∃ type body,
    Taken type body [] tree.encode ∧ tree = .node type (props body) (bodyTrees body) := by
  have hbytes := tree.bytes_piece
  have htrees := tree.trees_piece
  cases tree with
  | node type bytes children =>
      rw [Tree.piece] at hbytes htrees
      rw [Piece.trees] at htrees
      refine ⟨type, _, ⟨rfl, ?_⟩, (List.head_eq_of_cons_eq htrees).symm⟩
      rw [← hbytes, bodyBytes, List.append_nil]

/-- Behind an identifier that is accepted and more than an empty node: the encoding of a tree is
loaded as that tree; a root that holds bytes and nodes in any order, with bytes but no node or end
behind it, is loaded as the tree of its nodes, in which a node has as its properties the bytes
before its first child; and everything else is rejected. -/
theorem loaded_trees {acceptedIdentifier identifier : List UInt8}
    (h : Accepted acceptedIdentifier identifier) :
    (∀ tree : Tree, 3 < tree.encode.length →
      ∃ root, load acceptedIdentifier (identifier ++ tree.encode) = .ok root ∧
        root.toTree (identifier ++ tree.encode) = tree) ∧
    ∀ bytes : List UInt8, 3 < bytes.length →
      (∀ type body trailing, Taken type body trailing bytes →
        ∃ root, load acceptedIdentifier (identifier ++ bytes) = .ok root ∧
          root.toTree (identifier ++ bytes) = .node type (props body) (bodyTrees body)) ∧
      ((¬ ∃ type body trailing, Taken type body trailing bytes) →
        load acceptedIdentifier (identifier ++ bytes) = .error .invalidOTBFormat) := by
  refine ⟨fun tree hlength => ?_, fun bytes hlength => ⟨fun type body trailing htaken => ?_,
    fun hnone => ?_⟩⟩
  · obtain ⟨type, body, htaken, htree⟩ := taken_encode tree
    rw [load_eq_parseTree h hlength]
    obtain ⟨root, hload, hroot⟩ := parseTree_taken h.1 htaken
    exact ⟨root, hload, hroot.trans htree.symm⟩
  · rw [load_eq_parseTree h hlength]
    exact parseTree_taken h.1 htaken
  · rw [load_eq_parseTree h hlength]
    exact parseTree_error h.1 hnone

namespace Sample

def identifier : List UInt8 := [79, 84, 66, 73]

/-- A node with a marking byte in its properties, and a child. -/
def items : Tree := .node 0 [1, 0xFE] [.node 2 [] []]

theorem accepted : Accepted identifier identifier := ⟨rfl, Or.inl rfl⟩

theorem items_loaded : Accepted identifier identifier ∧
    ∃ root, load identifier (identifier ++ items.encode) = .ok root ∧
      root.toTree (identifier ++ items.encode) = items :=
  ⟨accepted, (loaded_trees accepted).1 items (by decide)⟩

theorem encode_getLast (tree : Tree) : tree.encode.getLast? = some END := by
  cases tree
  rw [Tree.encode, ← List.append_assoc, List.getLast?_cons_cons, ← List.cons_append,
    List.getLast?_append]
  rfl

/-- A byte behind the end of the root is not part of any encoding, and the file is loaded. -/
theorem trailing_byte_loaded :
    (¬ ∃ tree : Tree, [START, 0, 1, END, 2] = tree.encode) ∧
      load identifier (identifier ++ [START, 0, 1, END, 2]) = .ok ⟨0, 6, 7, []⟩ := by
  refine ⟨fun ⟨tree, htree⟩ => ?_, rfl⟩
  have hlast := encode_getLast tree
  rw [← htree] at hlast
  exact absurd hlast (by decide)

end Sample

end TibServer.OTB
