import NotepadCalculator.Text.CharacterClass

/-!
Cutting text: trimming, splitting at a mark, the lines of a document, and the pieces of a template,
where a name in braces is a placeholder and every other character, braces included, stands for
itself.
-/
namespace NotepadCalculator.Text

def trimChars (cs : List Char) : List Char :=
  ((cs.dropWhile isBlank).reverse.dropWhile isBlank).reverse

def trim (s : String) : String := String.ofList (trimChars s.toList)

def mentions (mark : Char) (s : String) : Bool := s.toList.contains mark

def cut? (mark : Char) : List Char → Option (List Char × List Char)
  | [] => none
  | c :: rest =>
    if c = mark then some ([], rest) else (cut? mark rest).map fun (head, tail) => (c :: head, tail)

/-- The parts between all occurrences of `mark`, of which there is always one more. -/
def splitAt (mark : Char) : List Char → List (List Char)
  | [] => [[]]
  | c :: rest =>
    if c = mark then [] :: splitAt mark rest
    else match splitAt mark rest with
      | [] => [[c]]
      | part :: parts => (c :: part) :: parts

def stripEnd (mark : Char) (cs : List Char) : List Char :=
  if cs.getLast? = some mark then cs.dropLast else cs

/-- A line ends at a line feed, with the carriage return before it if there is one. What follows
    the last line feed is a line of its own unless it is empty. -/
def documentLines (document : String) : List String :=
  let parts := splitAt '\n' document.toList
  let ended := parts.dropLast.map (stripEnd '\r')
  let unended := parts.getLast?.toList.filter (! ·.isEmpty)
  (ended ++ unended).map String.ofList

def dropEnding? (ending : String) (cs : List Char) : Option (List Char) :=
  if ending.toList.isSuffixOf cs then some (cs.take (cs.length - ending.length)) else none

end NotepadCalculator.Text

namespace NotepadCalculator.Template
open NotepadCalculator.Text

inductive Piece where
  | literal (c : Char)
  | placeholder (name : String)
  deriving DecidableEq, Repr

def startsName (c : Char) : Bool := isAsciiLetter c || c = '_'
def continuesName (c : Char) : Bool := startsName c || isDigit c

def placeholderName? (cs : List Char) : Option (List Char) :=
  let name := cs.takeWhile continuesName
  if name.head?.any startsName && (cs.drop name.length).head? = some '}' then some name else none

/-- Reads on after as many characters as belong to the placeholder just read. -/
def piecesAfter : Nat → List Char → List Piece
  | _, [] => []
  | skipped + 1, _ :: rest => piecesAfter skipped rest
  | 0, c :: rest =>
    match (if c = '{' then placeholderName? rest else none) with
    | some name => .placeholder (String.ofList name) :: piecesAfter (name.length + 1) rest
    | none => .literal c :: piecesAfter 0 rest

def pieces (template : String) : List Piece := piecesAfter 0 template.toList

end NotepadCalculator.Template
