import Tabletop.Text.Classes

/-!
Cutting and searching text as lists of characters. Sizes are counted in bytes of UTF-8.
-/

namespace Tabletop.Text

/-- The text without the blanks at both ends. -/
def trim (text : List Char) : List Char :=
  ((text.dropWhile isBlank).reverse.dropWhile isBlank).reverse

def trimmed (text : String) : String := String.ofList (trim text.toList)

def byteSize (text : List Char) : Nat := (text.map Char.utf8Size).foldr (· + ·) 0

@[simp] theorem byteSize_nil : byteSize [] = 0 := rfl

@[simp] theorem byteSize_cons (c : Char) (rest : List Char) :
    byteSize (c :: rest) = c.utf8Size + byteSize rest := rfl

/-- What follows `pattern` at the front of `text`. -/
def dropFront? : (pattern text : List Char) → Option (List Char)
  | [], text => some text
  | _ :: _, [] => none
  | p :: pattern, c :: text => if p = c then dropFront? pattern text else none

def startsWith (pattern text : List Char) : Bool := (dropFront? pattern text).isSome

/-- The number of characters before the first place where `pattern` stands. -/
def indexOf? (pattern : List Char) : List Char → Option Nat
  | [] => if pattern.isEmpty then some 0 else none
  | c :: text =>
    if startsWith pattern (c :: text) then some 0 else (indexOf? pattern text).map (· + 1)

def contains (pattern text : List Char) : Bool := (indexOf? pattern text).isSome

/-- The pieces of a text between successive places of a pattern that is not empty. After a match its
remaining `skip` characters are passed over. -/
def pieces (pattern : List Char) : (skip : Nat) → (piece text : List Char) → List (List Char)
  | _, piece, [] => [piece.reverse]
  | skip + 1, piece, _ :: text => pieces pattern skip piece text
  | 0, piece, c :: text =>
    if startsWith pattern (c :: text) then
      piece.reverse :: pieces pattern (pattern.length - 1) [] text
    else pieces pattern 0 (c :: piece) text

/-- Splits at every place of a pattern that is not empty. -/
def splitOn (pattern text : List Char) : List (List Char) := pieces pattern 0 [] text

/-- The lines of a text, `line` being the start of the first, last character first. A line ends at a
line feed, with or without a carriage return before it, and the last one need not be ended. -/
def linesFrom (line : List Char) : List Char → List String
  | [] => if line.isEmpty then [] else [String.ofList line.reverse]
  | '\r' :: '\n' :: rest => String.ofList line.reverse :: linesFrom [] rest
  | '\n' :: rest => String.ofList line.reverse :: linesFrom [] rest
  | c :: rest => linesFrom (c :: line) rest

def lines (text : String) : List String := linesFrom [] text.toList

/-- How many places `splitOn` splits at. -/
def occurrences (pattern : List Char) : (skip : Nat) → (text : List Char) → Nat
  | _, [] => 0
  | skip + 1, _ :: text => occurrences pattern skip text
  | 0, c :: text =>
    if startsWith pattern (c :: text) then
      occurrences pattern (pattern.length - 1) text + 1
    else occurrences pattern 0 text

/-- Puts `replacement` before every character and at the end, `count` times at most. -/
def interleave (replacement : List Char) : (count : Nat) → List Char → List Char
  | 0, text => text
  | _ + 1, [] => replacement
  | count + 1, c :: text => replacement ++ c :: interleave replacement count text

/-- Replaces the first `count` places of a pattern that is not empty. -/
def replaceFirst (pattern replacement : List Char) :
    (count skip : Nat) → (text : List Char) → List Char
  | _, _, [] => []
  | count, skip + 1, _ :: text => replaceFirst pattern replacement count skip text
  | 0, 0, text => text
  | count + 1, 0, c :: text =>
    if startsWith pattern (c :: text) then
      replacement ++ replaceFirst pattern replacement count (pattern.length - 1) text
    else c :: replaceFirst pattern replacement (count + 1) 0 text

/-- Lower-case ASCII letters; all other characters stay. -/
def asciiLower (text : String) : String := text.map Char.toLower

/-- Texts one after another with a separator between them. -/
def joined (separator : String) (texts : List String) : String := separator.intercalate texts

end Tabletop.Text
