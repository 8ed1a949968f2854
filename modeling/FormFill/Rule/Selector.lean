import FormFill.Rule.Index

/-! # Selectors

A selector picks one word, or characters by position, out of a text. Indices count from one and
ranges include both ends; an index that is missing or out of range picks nothing.
-/

namespace FormFill

/-- A choice of a word or of characters. -/
inductive Selector where
  | word (index : Index)
  | charAt (index : Index)
  | charList (indices : List Index)
  | charRange (first last : Index)
deriving DecidableEq

namespace Selector

/-- The character at an index, as a text. -/
def character (text : Text) (index : Index) : Text :=
  match index.position? with
  | some position => text[position]?.toList
  | none => []

/-- The word at an index. -/
def nthWord (text : Text) (index : Index) : Text :=
  match index.position? with
  | some position => text.words[position]?.getD []
  | none => []

/-- How many characters stand before a range; a missing start begins the text. -/
def before? : Index → Option Int
  | none => some 0
  | some first => if 1 ≤ first then some (first - 1) else none

/-- The characters from one index to another. -/
def range (text : Text) (first last : Index) : Text :=
  match before? first, last with
  | some before, some last =>
    if before < last then (text.drop before.toNat).take (last - before).toNat else []
  | _, _ => []

/-- The part of a text that a selector picks. -/
def apply (text : Text) : Selector → Text
  | .word index => nthWord text index
  | .charAt index => character text index
  | .charList indices => indices.flatMap (character text)
  | .charRange first last => range text first last

/-- The selector written after `ch`: a list if it has a comma, else a range if it has a dash. -/
def parseCharacters (spec : Text) : Selector :=
  if ',' ∈ spec then .charList ((spec.splitOn ',').map Index.parse)
  else if '-' ∈ spec then
    let bounds := (spec.splitOn '-').map Index.parse
    .charRange (bounds.head?.getD none) (bounds.tail.head?.getD none)
  else .charAt (Index.parse spec)

/-- The canonical text of a selector, as it stands inside the brackets. -/
def render : Selector → Text
  | .word index => 'w' :: index.render
  | .charAt index => 'c' :: 'h' :: index.render
  | .charList indices => 'c' :: 'h' :: [','].intercalate (indices.map Index.render)
  | .charRange first last => 'c' :: 'h' :: (first.render ++ '-' :: last.render)

end Selector

end FormFill
