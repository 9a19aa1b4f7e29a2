import TibServer.Patterns
import TibServer.StoreOffers

/-!
The access lists of houses and doors (`house.cpp`, `tools.cpp`): a text is cut into lines,
the lines are sorted into players, guilds and expressions, and the expressions are turned
into regular expressions by escaping and replacing characters.
-/

namespace TibServer

open Patterns StoreOffers

/-! ### Strings -/

/-- The loop of `replaceString`; `skip` characters still belong to an occurrence. -/
def replaceFrom (sought replacement : List Char) : Nat → List Char → List Char
  | _, [] => []
  | skip + 1, _ :: rest => replaceFrom sought replacement skip rest
  | 0, c :: rest =>
      if sought.isPrefixOf (c :: rest) then
        replacement ++ replaceFrom sought replacement (sought.length - 1) rest
      else c :: replaceFrom sought replacement 0 rest

/-- `replaceString`, for a sought text that is not empty. -/
def replaceString (str sought replacement : List Char) : List Char :=
  replaceFrom sought replacement 0 str

/-- `trim_left` -/
def trim_left (source : List Char) (t : Char) : List Char := source.dropWhile (· == t)

/-- `trim_right` -/
def trim_right (source : List Char) (t : Char) : List Char := source.rdropWhile (· == t)

/-- The lines `getline` reads from a text. -/
def getlines : List Char → List (List Char)
  | [] => []
  | c :: rest =>
      if c = '\n' then [] :: getlines rest
      else
        match getlines rest with
        | [] => [[c]]
        | line :: lines => (c :: line) :: lines

/-! ### Regular expressions -/

namespace Regex

inductive Atom
  | lit (c : Char)
  | any
  deriving DecidableEq, Repr

/-- The characters that stand for something else than themselves. -/
def metachars : List Char := ".[{}()\\+|^$".toList

/-- What an atom matches; `.` passes over the line terminators. -/
def holds : Atom → Char → Bool
  | .lit a, c => a == c
  | .any, c => !(c == '\n' || c == '\r')

/-- An atom of the grammar; groups, classes and assertions are not among these. -/
def parseAtom : List Char → Option (Atom × List Char)
  | [] => none
  | '.' :: rest => some (.any, rest)
  | '\\' :: c :: rest => if c ∈ metachars then some (.lit c, rest) else none
  | c :: rest => if c ∈ '*' :: '?' :: metachars then none else some (.lit c, rest)

def parseQuantifier : List Char → Quantifier × List Char
  | '*' :: rest => (.many, rest)
  | '?' :: rest => (.optional, rest)
  | rest => (.once, rest)

def parsePieces : Nat → List Char → Option (List (Piece Atom))
  | _, [] => some []
  | 0, _ :: _ => none
  | n + 1, c :: rest => do
      let (atom, rest) ← parseAtom (c :: rest)
      let (quantifier, rest) := parseQuantifier rest
      let pieces ← parsePieces n rest
      return ⟨atom, quantifier⟩ :: pieces

/-- `std::regex`; nothing where it throws. -/
def regex (s : List Char) : Option (List (Piece Atom)) := parsePieces s.length s

/-- `std::regex_match` -/
def regex_match (s : List Char) (re : List (Piece Atom)) : Bool := accepts holds re s

end Regex

/-! ### Who is known -/

/-- A table of names with their ids. -/
structure Registry where
  rows : List (Nat × List Char)
  positive : ∀ row ∈ rows, row.1 ≠ 0
  ids : (rows.map Prod.fst).Nodup
  names : (rows.map fun row => toLowerCaseString row.2).Nodup

/-- ``SELECT `id` … WHERE `name` = …``, zero where there is no row. -/
def Registry.idByName (r : Registry) (name : List Char) : Nat :=
  match r.rows.find? fun row => toLowerCaseString row.2 == toLowerCaseString name with
  | none => 0
  | some row => row.1

namespace AccessList

/-- The tables of players and guilds, and the players that are online. -/
structure Directory where
  players : Registry
  guilds : Registry
  online : List (Nat × List Char)
  known : ∀ row ∈ online, row ∈ players.rows

/-- `Game::getPlayerByName`, for the id of the player. -/
def Directory.getPlayerByName (d : Directory) (s : List Char) : Option Nat :=
  if s = [] then none
  else
    (d.online.find? fun row => toLowerCaseString row.2 == toLowerCaseString s).map Prod.fst

/-- A player; names are read from the database as C strings. -/
structure Player where
  guid : Nat
  name : List Char
  guild : Option Nat
  terminated : '\x00' ∉ name

end AccessList

/-! ### The list -/

structure AccessList where
  list : List Char := []
  playerList : List Nat := []
  guildList : List Nat := []
  expressionList : List (List Char) := []
  regExList : List (List (Piece Regex.Atom) × Bool) := []
  deriving DecidableEq, Repr

namespace AccessList

open Regex

/-- `AccessList::addPlayer` -/
def addPlayer (d : Directory) (name : List Char) (l : AccessList) : AccessList :=
  match d.getPlayerByName name with
  | some guid => { l with playerList := l.playerList.insert guid }
  | none =>
      let guid := d.players.idByName name
      if guid ≠ 0 then { l with playerList := l.playerList.insert guid } else l

/-- `AccessList::addGuild` -/
def addGuild (d : Directory) (name : List Char) (l : AccessList) : AccessList :=
  let guildId := d.guilds.idByName name
  if guildId ≠ 0 then { l with guildList := l.guildList.insert guildId } else l

def escape (expression : List Char) : List Char :=
  expression.flatMap fun c => if c ∈ metachars then ['\\', c] else [c]

/-- What `addExpression` makes of an expression. -/
def convert (expression : List Char) : List Char :=
  replaceString (replaceString (escape expression) ['*'] ['.', '*']) ['?'] ['.', '?']

/-- The list with the regular expression, denials at the front. -/
def addRegEx (outExp : List Char) (l : AccessList) : AccessList :=
  match outExp with
  | '!' :: rest =>
      if rest ≠ [] then
        match regex rest with
        | some re => { l with regExList := (re, false) :: l.regExList }
        | none => l
      else l
  | _ =>
      match regex outExp with
      | some re => { l with regExList := l.regExList ++ [(re, true)] }
      | none => l

theorem any_eq_iff (line : List Char) (ls : List (List Char)) :
    (ls.any fun other => decide (other = line)) = true ↔ line ∈ ls := by
  simp only [List.any_eq_true, decide_eq_true_eq, exists_eq_right]

instance lineMem (line : List Char) (ls : List (List Char)) : Decidable (line ∈ ls) :=
  decidable_of_iff _ (any_eq_iff line ls)

/-- `AccessList::addExpression` -/
def addExpression (expression : List Char) (l : AccessList) : AccessList :=
  if expression ∈ l.expressionList then l
  else
    let outExp := convert expression
    if outExp = [] then l
    else addRegEx outExp { l with expressionList := l.expressionList ++ [outExp] }

/-- What `parseList` trims off a line. -/
def trimLine (line : List Char) : List Char :=
  trimString (trim_right (trim_left (trimString line) '\t') '\t')

/-- The lines that are read at all. -/
def Read (line : List Char) : Prop :=
  ¬(line = [] ∨ line.head? = some '#' ∨ line.length > 100)

instance (line : List Char) : Decidable (Read line) :=
  inferInstanceAs (Decidable (¬_))

/-- The name behind the `@` of a line. -/
def guildName (line : List Char) : List Char := (line.dropWhile (· != '@')).tail

/-- A line with a wildcard or a denial. -/
def IsExpression (line : List Char) : Prop :=
  '!' ∈ line ∨ '*' ∈ line ∨ '?' ∈ line

instance (line : List Char) : Decidable (IsExpression line) :=
  inferInstanceAs (Decidable (_ ∨ _))

/-- What `parseList` does with a line that is read, in small letters. -/
def addLine (d : Directory) (l : AccessList) (line : List Char) : AccessList :=
  if '@' ∈ line then addGuild d (guildName line) l
  else if IsExpression line then addExpression line l
  else addPlayer d line l

/-- The loop of `parseList`. -/
def parseLines (d : Directory) : AccessList → List (List Char) → AccessList
  | l, [] => l
  | l, line :: lines =>
      let line := trimLine line
      if Read line then parseLines d (addLine d l (toLowerCaseString line)) lines
      else parseLines d l lines

/-- `AccessList::parseList` -/
def parseList (d : Directory) (list : List Char) (_l : AccessList) : AccessList :=
  let l : AccessList := { list := list }
  if list = [] then l else parseLines d l (getlines list)

/-- The characters of `c_str()`. -/
def c_str (s : List Char) : List Char := s.takeWhile (· != '\x00')

/-- `AccessList::isInList` -/
def isInList (l : AccessList) (player : Player) : Bool :=
  let name := toLowerCaseString player.name
  match l.regExList.find? fun it => regex_match (c_str name) it.1 with
  | some it => it.2
  | none =>
      l.playerList.contains player.guid ||
        match player.guild with
        | some guild => l.guildList.contains guild
        | none => false

end AccessList

end TibServer
